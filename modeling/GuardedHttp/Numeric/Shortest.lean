import GuardedHttp.Numeric.Binary64

/-!
# The shortest decimal of a double

`Binary64.shortestDecimal` finds the fewest decimal digits that read back as a given double, and of those the
nearest. For each count of digits it tests the two points of that decimal grid next to the double
against the interval of reals that round to it, in exact natural arithmetic.

`decimalText` writes these digits: positionally where at most sixteen digits stand before the point or
at most four zeros follow it, and otherwise with one digit before the point and an exponent.
-/

namespace GuardedHttp.Numeric

/-- A positive decimal `0.d₁d₂… * 10 ^ point`. -/
structure Decimal where
  /-- The digits as one natural, without trailing zeros. -/
  digits : Nat
  /-- The position of the point, counted from before the first digit. -/
  point : Int
deriving DecidableEq

/-- How many decimal digits a natural has; zero has one. -/
def digitCount (n : Nat) : Nat := (Nat.toDigits 10 n).length

/-- The reals that round to a double, all over one denominator: `low / unit` to `high / unit` around
`value / unit`, the ends included when `closed`. -/
structure RoundingInterval where
  /-- The lower end. -/
  low : Nat
  /-- The double itself. -/
  value : Nat
  /-- The upper end. -/
  high : Nat
  /-- The common denominator. -/
  unit : Nat
  /-- The ends round to the double too. -/
  closed : Bool

/-- The interval of reals that round to the magnitude of a double. -/
def Binary64.roundingInterval (x : Binary64) : RoundingInterval :=
  let up := 4 * Nat.pow 2 x.exponent.toNat
  let unit := 4 * Nat.pow 2 (-x.exponent).toNat
  let step := up / 4
  { low := x.mantissa * up - (if x.narrowBelow then step else 2 * step)
    value := x.mantissa * up
    high := x.mantissa * up + 2 * step
    unit := unit
    closed := x.mantissa % 2 == 0 }

/-- The fraction `n / d` rounds to the double. -/
def RoundingInterval.holds (i : RoundingInterval) (n d : Nat) : Bool :=
  let point := n * i.unit
  if i.closed then i.low * d ≤ point && point ≤ i.high * d
  else i.low * d < point && point < i.high * d

/-- The point of the grid `10 ^ grid` next to the double that rounds to it, if one does: the nearer of
two, and of two equally near ones the even. -/
def RoundingInterval.nearestOnGrid? (i : RoundingInterval) (grid : Int) : Option Nat :=
  let num := Nat.pow 10 grid.toNat
  let den := Nat.pow 10 (-grid).toNat
  let below := i.value * den / (i.unit * num)
  let above := below + 1
  match i.holds (below * num) den, i.holds (above * num) den with
  | false, false => none
  | true, false => some below
  | false, true => some above
  | true, true => some (roundQuotient (i.value * den) (i.unit * num))

/-- The number of digits before the point of `n / d`: the least `e` with `n / d < 10 ^ e`, found by
correcting a guess from the lengths of the two numerals. -/
def decimalMagnitude (n d : Nat) : Int :=
  let guess := (digitCount n : Int) - digitCount d
  if n * Nat.pow 10 (-guess).toNat < d * Nat.pow 10 guess.toNat then guess else guess + 1

/-- A natural with its trailing zeros removed, at most `fuel` of them. -/
def dropZeros : (fuel n : Nat) → Nat
  | 0, n => n
  | fuel + 1, n => if n % 10 = 0 ∧ n ≠ 0 then dropZeros fuel (n / 10) else n

/-- The fewest digits that read back as a positive double, and the nearest of those. -/
def Binary64.shortestDecimal (x : Binary64) : Decimal :=
  let i := x.roundingInterval
  let magnitude := decimalMagnitude i.value i.unit
  let found := (List.range 17).findSome? fun (n : Nat) =>
    let grid : Int := magnitude - (n + 1)
    (i.nearestOnGrid? grid).map fun digits =>
      (⟨dropZeros 20 digits, grid + digitCount digits⟩ : Decimal)
  found.getD ⟨0, 1⟩

/-- How a decimal is laid out: the range of points that is written positionally. -/
structure DecimalLayout where
  /-- The least position of the point that is written positionally. -/
  leastPoint : Int
  /-- The greatest position of the point that is written positionally. -/
  greatestPoint : Int

/-- Digits are written positionally down to four zeros after the point and up to sixteen digits before
it. -/
def decimalLayout : DecimalLayout := ⟨-4, 16⟩

/-- The text of a decimal in a layout. -/
def Decimal.text (layout : DecimalLayout) (d : Decimal) : String :=
  let digits := Nat.toDigits 10 d.digits
  let zeros (n : Nat) := List.replicate n '0'
  let laid :=
    if layout.leastPoint ≤ d.point ∧ d.point ≤ layout.greatestPoint then
      if d.point ≤ 0 then ['0', '.'] ++ zeros (-d.point).toNat ++ digits
      else
        let whole := d.point.toNat
        if digits.length ≤ whole then digits ++ zeros (whole - digits.length) ++ ['.', '0']
        else digits.take whole ++ ['.'] ++ digits.drop whole
    else
      let mantissa := match digits with
        | [c] => [c]
        | c :: rest => c :: '.' :: rest
        | [] => []
      mantissa ++ ['e'] ++ (toString (d.point - 1)).toList
  String.ofList laid

/-- The text of a finite double with the fewest digits that read back; empty for the others. -/
def decimalText (x : Float) : String :=
  match Binary64.ofFloat? x with
  | none => ""
  | some parts =>
    let sign := if parts.negative then "-" else ""
    if parts.mantissa = 0 then sign ++ "0.0"
    else sign ++ parts.shortestDecimal.text decimalLayout

end GuardedHttp.Numeric
