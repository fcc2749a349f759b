import GuardedHttp.Json.Value
import GuardedHttp.Numeric.Shortest
import GuardedHttp.Text.Hex

/-!
# Writing JSON

`Value.write` gives the compact text of a value: no blanks, members in the order of their keys, and in
texts only the escapes that must be there. Numbers in floating point have the fewest digits that read
back.
-/

namespace GuardedHttp.Json

/-- What stands for one character inside a text. -/
def escapeChar (c : Char) : List Char :=
  if c = '"' then ['\\', '"']
  else if c = '\\' then ['\\', '\\']
  else if c = '\x08' then ['\\', 'b']
  else if c = '\x0c' then ['\\', 'f']
  else if c = '\n' then ['\\', 'n']
  else if c = '\r' then ['\\', 'r']
  else if c = '\t' then ['\\', 't']
  else if c.toNat < 0x20 then ['\\', 'u'] ++ Text.hexPadded 4 c.toNat
  else [c]

/-- The JSON text of a string. -/
def writeString (s : String) : String :=
  String.ofList ('"' :: s.toList.flatMap escapeChar ++ ['"'])

/-- The JSON text of a number; of a double that is not finite, the null value. -/
def Number.write : Number → String
  | .natural n => toString n
  | .negative n => "-" ++ toString n
  | .real x => if x.isFinite then Numeric.decimalText x else "null"

mutual

/-- The compact JSON text of a value. -/
def Value.write : Value → String
  | .null => "null"
  | .bool b => if b then "true" else "false"
  | .number n => n.write
  | .string s => writeString s
  | .array elements => "[" ++ Value.writeElements elements ++ "]"
  | .object members => "\x7b" ++ Value.writeMembers members ++ "\x7d"

/-- The texts of elements, commas between them. -/
def Value.writeElements : List Value → String
  | [] => ""
  | [v] => v.write
  | v :: rest => v.write ++ "," ++ Value.writeElements rest

/-- The texts of members, commas between them. -/
def Value.writeMembers : List (String × Value) → String
  | [] => ""
  | [(k, v)] => writeString k ++ ":" ++ v.write
  | (k, v) :: rest => writeString k ++ ":" ++ v.write ++ "," ++ Value.writeMembers rest

end

end GuardedHttp.Json
