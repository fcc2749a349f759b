import GuardedHttp.Duration

/-!
# The compact text of a duration

`Duration.compact` writes a duration in the largest of the units `s`, `ms`, `µs` and `ns` that leaves a
non-zero whole part, followed by the exact fraction without trailing zeros: `1.5s`, `250ms`, `0ns`.
-/

namespace GuardedHttp.Duration

/-- A unit of the compact text: its symbol, and how many decimal places of it make a nanosecond. -/
structure CompactUnit where
  /-- What follows the number. -/
  symbol : String
  /-- The unit is `10 ^ places` nanoseconds. -/
  places : Nat

/-- The unit in which a duration is written. -/
def compactUnit (d : Duration) : CompactUnit :=
  if nanosPerSecond ≤ d.nanos then ⟨"s", 9⟩
  else if 1000000 ≤ d.nanos then ⟨"ms", 6⟩
  else if 1000 ≤ d.nanos then ⟨"µs", 3⟩
  else ⟨"ns", 0⟩

/-- The digits of a fraction `n / 10 ^ places`, without trailing zeros. -/
def fractionDigits : (places n : Nat) → List Char
  | 0, _ => []
  | places + 1, n =>
    if n = 0 then []
    else (n / Nat.pow 10 places).digitChar :: fractionDigits places (n % Nat.pow 10 places)

/-- The text of a duration in its largest fitting unit, exact and as short as possible. -/
def compact (d : Duration) : String :=
  let u := d.compactUnit
  let whole := toString (d.nanos / Nat.pow 10 u.places)
  match fractionDigits u.places (d.nanos % Nat.pow 10 u.places) with
  | [] => whole ++ u.symbol
  | digits => whole ++ "." ++ String.ofList digits ++ u.symbol

end GuardedHttp.Duration
