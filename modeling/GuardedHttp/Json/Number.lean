import GuardedHttp.Json.Fault
import GuardedHttp.Text.Hex

/-!
# JSON numbers

`numeral` reads the parts of a number: its sign, the digits before and after the point and the
exponent. `Numeral.number?` gives it its value. A whole number is kept as such when it fits in 64 bits.
Any other becomes a double: as many leading digits as fit in 64 bits are converted, and the result is
multiplied or divided by a power of ten; a result that is too large is refused.
-/

namespace GuardedHttp.Json

open Text (Bytes)

/-- What differs between reading a value to keep it and reading one to pass over it. -/
structure Rules where
  /-- The fault of a number that ends where a digit must follow. -/
  cutNumber : Fault
  /-- Numbers must be in range, and texts must be made of characters. -/
  strict : Bool

/-- The rules for a value that is kept. -/
def Rules.keeping : Rules := ⟨.truncated, true⟩

/-- The rules for a value that is passed over: the form of its numbers and texts is all that counts. -/
def Rules.skipping : Rules := ⟨.malformed, false⟩

/-- The byte of an ASCII character. -/
def byte (c : Char) : UInt8 := c.toUInt8

/-- The byte is a decimal digit. -/
def isDigit (b : UInt8) : Bool := byte '0' ≤ b && b ≤ byte '9'

/-- The parts of a number. -/
structure Numeral where
  /-- A minus sign comes first. -/
  negative : Bool
  /-- The digits before the point. -/
  whole : List Nat
  /-- The digits after the point, if there is one. -/
  fraction : Option (List Nat)
  /-- The exponent, if there is one: whether it is negative, and its digits. -/
  exponent : Option (Bool × List Nat)

/-- The digits at the front. -/
def takeDigits (input : Bytes) : List Nat × Bytes :=
  ((input.takeWhile isDigit).map fun b => (b - byte '0').toNat, input.dropWhile isDigit)

/-- The digits at the front, of which there must be one. -/
def someDigits (rules : Rules) (input : Bytes) : Except Fault (List Nat × Bytes) :=
  match takeDigits input with
  | ([], []) => .error rules.cutNumber
  | ([], _ :: _) => .error .malformed
  | found => .ok found

/-- The digits before the point: a zero stands alone. -/
def wholeDigits (rules : Rules) (input : Bytes) : Except Fault (List Nat × Bytes) := do
  let (digits, rest) ← someDigits rules input
  match digits with
  | 0 :: _ :: _ => .error .malformed
  | _ => .ok (digits, rest)

/-- The digits after the point, if a point comes next. -/
def fractionPart (rules : Rules) : Bytes → Except Fault (Option (List Nat) × Bytes)
  | b :: rest =>
    if b = byte '.' then do
      let (digits, rest) ← someDigits rules rest
      return (some digits, rest)
    else .ok (none, b :: rest)
  | [] => .ok (none, [])

/-- The sign of an exponent, if there is one. -/
def exponentSign : Bytes → Bool × Bytes
  | b :: rest =>
    if b = byte '-' then (true, rest) else if b = byte '+' then (false, rest) else (false, b :: rest)
  | [] => (false, [])

/-- The exponent, if one comes next. -/
def exponentPart (rules : Rules) : Bytes → Except Fault (Option (Bool × List Nat) × Bytes)
  | b :: rest =>
    if b = byte 'e' ∨ b = byte 'E' then do
      let (negative, rest) := exponentSign rest
      let (digits, rest) ← someDigits rules rest
      return (some (negative, digits), rest)
    else .ok (none, b :: rest)
  | [] => .ok (none, [])

/-- Reads the parts of a number, its minus sign read already. -/
def numeral (rules : Rules) (negative : Bool) (input : Bytes) : Except Fault (Numeral × Bytes) := do
  let (whole, rest) ← wholeDigits rules input
  let (fraction, rest) ← fractionPart rules rest
  let (exponent, rest) ← exponentPart rules rest
  return (⟨negative, whole, fraction, exponent⟩, rest)

/-! ## The value of a numeral -/

/-- Leading digits as a 64-bit natural: the digits that fit, and how many are left over from the first
one that does not. -/
def leadingDigits : (significand : Nat) → List Nat → Nat × Nat
  | n, [] => (n, 0)
  | n, d :: rest =>
    if 10 * n + d < UInt64.size then leadingDigits (10 * n + d) rest else (n, rest.length + 1)

/-- A power of ten as a double. -/
def powerOfTen (n : Nat) : Float := Float.ofScientific 1 false n

/-- A double times a power of ten, in steps of at most `10 ^ 308`; `none` if it becomes too large. -/
def scaleByTen (x : Float) (exponent : Int) : Option Float :=
  if exponent.natAbs ≤ 308 then
    if 0 ≤ exponent then
      let scaled := x * powerOfTen exponent.natAbs
      if scaled.isInf then none else some scaled
    else some (x / powerOfTen exponent.natAbs)
  else if x == 0 then some x
  else if 0 ≤ exponent then none
  else scaleByTen (x / powerOfTen 308) (exponent + 308)
termination_by (-exponent).toNat
decreasing_by omega

/-- The significand and the decimal exponent of the digits around the point. A fraction is cut at the
first digit that does not fit. -/
def Numeral.scaled (n : Numeral) : Nat × Int :=
  let (significand, left) := leadingDigits 0 n.whole
  let digits := n.fraction.getD []
  let (significand, cut) := leadingDigits significand digits
  (significand, (left : Int) - (digits.length - cut : Nat))

/-- The greatest exponent that is read as a number. -/
def greatestExponent : Nat := UInt32.size / 2 - 1

/-- The magnitude of a numeral that is no 64-bit whole number; `none` if it is too large. -/
def Numeral.magnitude? (n : Numeral) : Option Float :=
  let (significand, scale) := n.scaled
  match n.exponent with
  | none => scaleByTen (Float.ofNat significand) scale
  | some (negative, digits) =>
    let exponent := digits.foldl (fun e d => 10 * e + d) 0
    if greatestExponent < exponent then
      if significand ≠ 0 ∧ !negative then none else some 0
    else scaleByTen (Float.ofNat significand) (if negative then scale - exponent else scale + exponent)

/-- The value of a numeral, if it is in range. A zero with a minus sign is a double. -/
def Numeral.number? (n : Numeral) : Option Number :=
  let (whole, left) := leadingDigits 0 n.whole
  let float (_ : Unit) := n.magnitude?.map fun x => Number.real (if n.negative then -x else x)
  if n.fraction.isSome ∨ n.exponent.isSome ∨ left ≠ 0 then float ()
  else if !n.negative then some (.natural whole)
  else if whole ≠ 0 ∧ whole ≤ UInt64.size / 2 then some (.negative whole)
  else float ()

/-- Reads a number, its minus sign read already. -/
def number (rules : Rules) (negative : Bool) (input : Bytes) : Except Fault (Number × Bytes) := do
  let (n, rest) ← numeral rules negative input
  match n.number? with
  | some value => return (value, rest)
  | none => if rules.strict then .error .malformed else return (.natural 0, rest)

end GuardedHttp.Json
