import GuardedHttp.Duration.Seconds

/-!
# Backoff

A `Backoff` gives the delay before each retry, the first retry having index zero: always the same, growing
by the same step, growing by a factor, or taken from a table of one's own. The steps and factors may be
capped.

Main statement: `nanos_linear`, linear backoff is exact up to its cap and the longest duration.
-/

namespace GuardedHttp.Retry

/-- The delay before each retry. -/
inductive Backoff where
  /-- Always the same delay. -/
  | fixed (delay : Duration)
  /-- A delay that grows by `base` with every retry, up to a cap. -/
  | linear (base : Duration) (cap : Option Duration)
  /-- A delay that grows by a factor with every retry, up to a cap. -/
  | exponential (initial : Duration) (factor : Float) (cap : Option Duration)
  /-- A delay of one's own for every retry. -/
  | table (delays : Nat → Duration)

/-- A power by repeated squaring; `acc` holds the factors of the bits that have been used up. -/
def powerLoop (base acc : Float) (exponent : Nat) : Float :=
  let acc := if exponent % 2 = 1 then acc * base else acc
  if h : exponent / 2 = 0 then acc else powerLoop (base * base) acc (exponent / 2)
termination_by exponent
decreasing_by omega

/-- A power, computed from the low bits of the exponent to the high ones. -/
def power (base : Float) (exponent : Nat) : Float := powerLoop base 1.0 exponent

/-- A delay cut to a cap, if there is one. -/
def capped (cap : Option Duration) (delay : Duration) : Duration :=
  match cap with
  | some most => min delay most
  | none => delay

/-- How often linear backoff adds its step at most. -/
def greatestFactor : Nat := UInt32.size - 1

/-- The greatest exponent of exponential backoff. -/
def greatestExponent : Nat := UInt32.size / 2 - 1

namespace Backoff

/-- The delay before the retry of an index. A delay in floating point that is no duration counts as the
longest one. -/
def delay (backoff : Backoff) (retry : Nat) : Duration :=
  match backoff with
  | fixed delay => delay
  | linear base cap => capped cap (base.scale (min (retry + 1) greatestFactor))
  | exponential initial factor cap =>
    let seconds := initial.toSeconds * power factor (min retry greatestExponent)
    capped cap ((Duration.ofSeconds? seconds).getD .max)
  | table delays => delays retry

/-- Linear backoff adds its step once more than the index says, and its cap and the longest duration
bound it. -/
theorem nanos_linear (base : Duration) (cap : Option Duration) {retry : Nat}
    (h : retry + 1 ≤ greatestFactor) :
    ((linear base cap).delay retry).nanos =
      min ((retry + 1) * base.nanos) (min ((cap.map (·.nanos)).getD (Duration.limit - 1))
        (Duration.limit - 1)) := by
  have hs : (base.scale (retry + 1)).nanos = min ((retry + 1) * base.nanos) (Duration.limit - 1) :=
    Duration.nanos_scale ..
  have e : min (retry + 1) greatestFactor = retry + 1 := Nat.min_eq_left h
  simp only [delay, e]
  cases cap with
  | none => simp [capped, hs]
  | some most =>
    have := most.nanos_le
    simp only [capped, Option.map_some, Option.getD_some]
    show (if (base.scale (retry + 1)).nanos ≤ most.nanos then base.scale (retry + 1) else most).nanos = _
    generalize (retry + 1) * base.nanos = n at hs ⊢
    split <;> omega

end Backoff

end GuardedHttp.Retry
