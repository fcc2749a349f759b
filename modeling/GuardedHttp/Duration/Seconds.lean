import GuardedHttp.Duration
import GuardedHttp.Numeric.Binary64

/-!
# Durations as floating-point seconds

`Duration.toSeconds` gives a duration in seconds as a double. `Duration.ofSeconds?` goes back: it takes
the exact value of the double to the nearest nanosecond, a half going to the even neighbour, and
refuses negative numbers, numbers that are not finite and those beyond the longest duration.
-/

namespace GuardedHttp.Duration

open Numeric

/-- The duration in seconds, the whole seconds and the rest converted one by one. -/
def toSeconds (d : Duration) : Float :=
  Float.ofNat d.seconds + Float.ofNat d.subsecond / 1000000000.0

/-- The nearest whole number of nanoseconds to a magnitude in seconds. -/
def nanosOfSeconds (x : Binary64) : Nat :=
  roundQuotient (x.mantissa * Nat.pow 2 x.exponent.toNat * nanosPerSecond) (Nat.pow 2 (-x.exponent).toNat)

/-- The duration nearest to a number of seconds, if the number is a finite one that is not negative
and the duration is in range. A negative zero is no time at all. -/
def ofSeconds? (x : Float) : Option Duration := do
  let parts ← Binary64.ofFloat? x
  if parts.negative ∧ parts.mantissa ≠ 0 then none
  else ofNanos? (nanosOfSeconds parts)

end GuardedHttp.Duration
