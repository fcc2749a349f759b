import GuardedHttp.Text.Hex
import GuardedHttp.Text.Printable

/-!
# Quoted texts

`quote` writes a text between double quotes so that every character of it can be told apart: the quote
and the backslash are escaped, the common control characters have short escapes, and any other
character that does not show is written by its code point.
-/

namespace GuardedHttp.Text

/-- What stands for one character inside a quoted text. -/
def quoteChar (c : Char) : List Char :=
  if c = '"' then ['\\', '"']
  else if c = '\\' then ['\\', '\\']
  else if c = '\n' then ['\\', 'n']
  else if c = '\r' then ['\\', 'r']
  else if c = '\t' then ['\\', 't']
  else if c = '\x00' then ['\\', '0']
  else if isPrintable c then [c]
  else ['\\', 'u', '\x7b'] ++ Nat.toDigits 16 c.toNat ++ ['\x7d']

/-- The text between double quotes, with every character that does not show escaped. -/
def quote (s : String) : String :=
  String.ofList ('"' :: s.toList.flatMap quoteChar ++ ['"'])

end GuardedHttp.Text
