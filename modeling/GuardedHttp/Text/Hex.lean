/-!
# Hexadecimal digits

Numbers and bytes in lower-case hexadecimal, and the value of a hexadecimal digit of either case.
-/

namespace GuardedHttp.Text

/-- A string of bytes. -/
abbrev Bytes := List UInt8

/-- The UTF-8 encoding of a text. -/
def utf8 (s : String) : Bytes := s.toUTF8.toList

/-- The lower-case hexadecimal numeral of a number, without leading zeros. -/
def hexNumeral (n : Nat) : String :=
  String.ofList (Nat.toDigits 16 n)

/-- The number in exactly `width` lower-case hexadecimal digits, its higher digits dropped. -/
def hexPadded : (width n : Nat) → List Char
  | 0, _ => []
  | width + 1, n => hexPadded width (n / 16) ++ [(n % 16).digitChar]

/-- Two lower-case hexadecimal digits per byte. -/
def hexBytes (bytes : Bytes) : String :=
  String.ofList (bytes.flatMap fun b => hexPadded 2 b.toNat)

/-- The value of a hexadecimal digit. -/
def hexValue? (c : Char) : Option Nat :=
  if '0' ≤ c ∧ c ≤ '9' then some (c.toNat - '0'.toNat)
  else if 'a' ≤ c ∧ c ≤ 'f' then some (c.toNat - 'a'.toNat + 10)
  else if 'A' ≤ c ∧ c ≤ 'F' then some (c.toNat - 'A'.toNat + 10)
  else none

/-- The number that a row of hexadecimal digits denotes. -/
def ofHex? (cs : List Char) : Option Nat :=
  cs.foldlM (fun n c => (hexValue? c).map (16 * n + ·)) 0

/-- The bytes that pairs of hexadecimal digits denote. -/
def ofHexBytes? : List Char → Option Bytes
  | [] => some []
  | [_] => none
  | a :: b :: rest => do
    let n ← ofHex? [a, b]
    let bytes ← ofHexBytes? rest
    return UInt8.ofNat n :: bytes

end GuardedHttp.Text
