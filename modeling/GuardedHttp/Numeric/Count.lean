/-!
# Counts

A count is a 32-bit natural. `ofNumeral` reads one from decimal digits, with an optional plus sign,
from left to right; the first problem decides the error.
-/

namespace GuardedHttp.Numeric

/-- Why a text is not a count. -/
inductive CountError where
  /-- There is nothing to read. -/
  | empty
  /-- A character that is no digit, or a sign with nothing after it. -/
  | invalidDigit
  /-- The number does not fit in 32 bits. -/
  | tooLarge
deriving DecidableEq, Repr

/-- The text of a reason, as it is reported. -/
def CountError.message : CountError → String
  | .empty => "cannot parse integer from empty string"
  | .invalidDigit => "invalid digit found in string"
  | .tooLarge => "number too large to fit in target type"

/-- A count with one more digit. -/
def addCountDigit (n : UInt32) (c : Char) : Except CountError UInt32 :=
  if c.isDigit then
    let sum := 10 * n.toNat + (c.toNat - '0'.toNat)
    if sum < UInt32.size then .ok (UInt32.ofNat sum) else .error .tooLarge
  else .error .invalidDigit

/-- The digits of a numeral, after its plus sign if it has one. -/
def numeralDigits : List Char → List Char
  | '+' :: c :: rest => c :: rest
  | cs => cs

/-- The count that a numeral denotes. -/
def ofNumeral (text : String) : Except CountError UInt32 :=
  match text.toList with
  | [] => .error .empty
  | cs => (numeralDigits cs).foldlM addCountDigit 0

end GuardedHttp.Numeric
