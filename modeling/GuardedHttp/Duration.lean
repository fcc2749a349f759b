/-!
# Durations and instants

A `Duration` is a whole number of nanoseconds below `2 ^ 64` seconds. Sums and multiples saturate at
`Duration.max`, so no operation leaves the range; `Duration.add?` is the sum that refuses instead. An
`Instant` counts the nanoseconds since the clock started, and is *representable* below `2 ^ 63` seconds.

Main statements: `Duration.nanos_add` and `Duration.nanos_scale` say that sums and multiples are exact
up to the limit.
-/

namespace GuardedHttp

/-- The number of nanoseconds in a second. -/
def nanosPerSecond : Nat := 1000000000

/-- A span of time in whole nanoseconds, shorter than `2 ^ 64` seconds. -/
structure Duration where
  /-- The whole span, in nanoseconds. -/
  nanos : Nat
  /-- The span is shorter than `2 ^ 64` seconds. -/
  nanos_lt : nanos < UInt64.size * nanosPerSecond
deriving DecidableEq

namespace Duration

/-- The first number of nanoseconds that is too long for a duration. -/
def limit : Nat := UInt64.size * nanosPerSecond

/-- The longest duration, one nanosecond short of `2 ^ 64` seconds. -/
def max : Duration := ⟨limit - 1, by decide⟩

/-- The empty duration. -/
def zero : Duration := ⟨0, by decide⟩

instance : Inhabited Duration := ⟨zero⟩

/-- The duration of `n` nanoseconds, or the longest one if `n` is beyond it. -/
def clamp (n : Nat) : Duration :=
  if h : n < limit then ⟨n, h⟩ else max

/-- The duration of `n` nanoseconds, if there is one. -/
def ofNanos? (n : Nat) : Option Duration :=
  if h : n < limit then some ⟨n, h⟩ else none

/-- The duration of so many seconds and nanoseconds. -/
def ofParts (seconds nanos : Nat) : Duration :=
  clamp (seconds * nanosPerSecond + nanos)

/-- The duration of so many whole seconds. -/
def ofSeconds (seconds : Nat) : Duration := ofParts seconds 0

/-- The duration of so many milliseconds. -/
def ofMillis (millis : Nat) : Duration := clamp (millis * 1000000)

/-- The whole seconds of a duration. -/
def seconds (d : Duration) : Nat := d.nanos / nanosPerSecond

/-- The nanoseconds beyond the whole seconds. -/
def subsecond (d : Duration) : Nat := d.nanos % nanosPerSecond

/-- The duration has no length. -/
def isZero (d : Duration) : Bool := d.nanos == 0

instance : LE Duration := ⟨fun a b => a.nanos ≤ b.nanos⟩
instance : LT Duration := ⟨fun a b => a.nanos < b.nanos⟩
instance : DecidableLE Duration := fun a b => inferInstanceAs (Decidable (a.nanos ≤ b.nanos))
instance : DecidableLT Duration := fun a b => inferInstanceAs (Decidable (a.nanos < b.nanos))
instance : Min Duration := ⟨fun a b => if a ≤ b then a else b⟩

/-- The sum, saturating at the longest duration. -/
def add (a b : Duration) : Duration := clamp (a.nanos + b.nanos)

instance : Add Duration := ⟨add⟩

/-- The sum, if it is a duration. -/
def add? (a b : Duration) : Option Duration := ofNanos? (a.nanos + b.nanos)

/-- The duration `k` times over, saturating at the longest duration. -/
def scale (k : Nat) (d : Duration) : Duration := clamp (k * d.nanos)

/-! ## The nanoseconds of each operation -/

/-- Durations are compared by their nanoseconds. -/
theorem le_iff {a b : Duration} : a ≤ b ↔ a.nanos ≤ b.nanos := Iff.rfl

/-- Durations are strictly compared by their nanoseconds. -/
theorem lt_iff {a b : Duration} : a < b ↔ a.nanos < b.nanos := Iff.rfl

/-- A duration is determined by its nanoseconds. -/
theorem ext_nanos {a b : Duration} (h : a.nanos = b.nanos) : a = b := by
  cases a; cases b; cases h; rfl

/-- The longest duration is one nanosecond short of the limit. -/
theorem nanos_max : max.nanos = limit - 1 := rfl

/-- No duration is longer than the longest. -/
theorem nanos_le (d : Duration) : d.nanos ≤ limit - 1 :=
  Nat.le_sub_one_of_lt d.nanos_lt

/-- Clamping keeps a length that fits and cuts a longer one to the longest. -/
theorem nanos_clamp (n : Nat) : (clamp n).nanos = Min.min n (limit - 1) := by
  unfold clamp
  split
  · rename_i h
    exact (Nat.min_eq_left (Nat.le_sub_one_of_lt h)).symm
  · rename_i h
    rw [nanos_max, Nat.min_eq_right]
    omega

/-- A sum is exact up to the longest duration. -/
theorem nanos_add (a b : Duration) : (a + b).nanos = Min.min (a.nanos + b.nanos) (limit - 1) :=
  nanos_clamp _

/-- A multiple is exact up to the longest duration. -/
theorem nanos_scale (k : Nat) (d : Duration) : (d.scale k).nanos = Min.min (k * d.nanos) (limit - 1) :=
  nanos_clamp _

end Duration

/-- A moment, in nanoseconds since the clock started. -/
structure Instant where
  /-- The nanoseconds since the clock started. -/
  nanos : Nat
deriving DecidableEq, Inhabited

namespace Instant

/-- The moment at which the clock started. -/
def start : Instant := ⟨0⟩

/-- The first number of nanoseconds that is too late for an instant. -/
def limit : Nat := UInt64.size / 2 * nanosPerSecond

instance : LE Instant := ⟨fun a b => a.nanos ≤ b.nanos⟩
instance : LT Instant := ⟨fun a b => a.nanos < b.nanos⟩
instance : DecidableLE Instant := fun a b => inferInstanceAs (Decidable (a.nanos ≤ b.nanos))
instance : DecidableLT Instant := fun a b => inferInstanceAs (Decidable (a.nanos < b.nanos))
instance : Min Instant := ⟨fun a b => if a ≤ b then a else b⟩
instance : Max Instant := ⟨fun a b => if a ≤ b then b else a⟩

/-- The moment a duration later. -/
def after (i : Instant) (d : Duration) : Instant := ⟨i.nanos + d.nanos⟩

/-- The moment a duration later, if it is representable. -/
def after? (i : Instant) (d : Duration) : Option Instant :=
  if i.nanos + d.nanos < limit then some (i.after d) else none

/-- The time from an earlier moment to this one. -/
def since (i earlier : Instant) : Duration := Duration.clamp (i.nanos - earlier.nanos)

/-- Instants are compared by their nanoseconds. -/
theorem le_iff {a b : Instant} : a ≤ b ↔ a.nanos ≤ b.nanos := Iff.rfl

/-- Instants are strictly compared by their nanoseconds. -/
theorem lt_iff {a b : Instant} : a < b ↔ a.nanos < b.nanos := Iff.rfl

/-- A moment a duration later is so many nanoseconds later. -/
theorem nanos_after (i : Instant) (d : Duration) : (i.after d).nanos = i.nanos + d.nanos := rfl

/-- A duration has passed since an earlier moment exactly if that moment is so long ago. -/
theorem le_since_iff {i earlier : Instant} {d : Duration} (h : earlier ≤ i) :
    d ≤ i.since earlier ↔ earlier.after d ≤ i := by
  have hfits := d.nanos_le
  rw [Duration.le_iff, since, Duration.nanos_clamp, le_iff, nanos_after]
  rw [le_iff] at h
  omega

end Instant

end GuardedHttp
