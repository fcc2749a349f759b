import GuardedHttp.Duration.Words
import GuardedHttp.Retry.Backoff

/-!
# The delays of linear backoff

A machine computes the delay before a retry in words: the index of the retry is one, of which the next is
the factor, the base and the cap are two each. `linearInWords` is this computation, in which whatever does not
fit its word and is not looked after is an error. `linearInWords_words` shows that there is never an error,
even for the greatest index, and that the result is `Backoff.delay` in words.

The delay is that of the nearest index for which the factor is exact (`delay_linear_eq`), so that
`Backoff.nanos_linear` says everything else: that the delays grow with the index (`delay_linear_mono`), and
that the cap bounds them (`delay_linear_le`).
-/

namespace GuardedHttp.Retry

open Duration (Words Overflow word32?)

/-! ## The computation in words -/

/-- The index of the attempt after the retry of an index, or the greatest index. -/
def nextIndex (retry : USize) : USize := .ofNat (min (retry.toNat + 1) (USize.size - 1))

/-- The factor of linear backoff for the retry of an index, in 32 bits; an index that does not fit has the
greatest factor. -/
def linearFactor (retry : USize) : UInt32 :=
  (word32? (nextIndex retry).toNat).getD (.ofNat greatestFactor)

/-- The delay of linear backoff before the retry of an index, computed in words. -/
def linearInWords (base : Words) (cap : Option Words) (retry : USize) : Except Overflow Words := do
  let delay ← base.times (linearFactor retry)
  return cap.elim delay (min delay)

/-- The number of the next retry goes up by one until it stays at the greatest word. -/
theorem toNat_nextIndex (retry : USize) :
    (nextIndex retry).toNat = min (retry.toNat + 1) (USize.size - 1) := by
  have hsize := USize.le_size
  exact USize.toNat_ofNat_of_lt' (by omega)

/-- Wherever indices have 32 bits or more, the factor is the one of the backoff. -/
theorem toNat_linearFactor (retry : USize) :
    (linearFactor retry).toNat = min (retry.toNat + 1) greatestFactor := by
  have hsize : UInt32.size ≤ USize.size := USize.le_size
  have hnext := toNat_nextIndex retry
  have hgreatest : (UInt32.ofNat greatestFactor).toNat = greatestFactor := by decide
  unfold linearFactor
  rcases Nat.lt_or_ge (nextIndex retry).toNat UInt32.size with h | h
  · rw [Duration.word32?_of_lt h, Option.getD_some, UInt32.toNat_ofNat_of_lt' h, hnext]
    simp only [greatestFactor]
    omega
  · have hnone : word32? (nextIndex retry).toNat = none := if_neg (Nat.not_lt_of_le h)
    rw [hnone, Option.getD_none, hgreatest]
    simp only [greatestFactor]
    omega

/-- The computation in words comes to the delay of the backoff, and does not stop for any index. -/
theorem linearInWords_words (base : Duration) (cap : Option Duration) (retry : USize) :
    linearInWords base.words (cap.map (·.words)) retry =
      .ok ((Backoff.linear base cap).delay retry.toNat).words := by
  have htimes := Words.times_words base (linearFactor retry)
  rw [toNat_linearFactor] at htimes
  unfold linearInWords
  rw [htimes]
  cases cap with
  | none => rfl
  | some most => exact congrArg Except.ok (Words.min_words ..)

/-! ## The delays -/

variable (base : Duration) (cap : Option Duration)

/-- The delay is that of the nearest index with an exact factor. -/
theorem delay_linear_eq (retry : Nat) :
    (Backoff.linear base cap).delay retry =
      (Backoff.linear base cap).delay (min retry (greatestFactor - 1)) := by
  have hfactor : min (retry + 1) greatestFactor =
      min (min retry (greatestFactor - 1) + 1) greatestFactor := by
    simp only [greatestFactor, UInt32.size]
    omega
  simp only [Backoff.delay, hfactor]

/-- The delay of any index is exact for the nearest index with an exact factor. -/
theorem nanos_delay_nearest (retry : Nat) :
    ((Backoff.linear base cap).delay retry).nanos =
      min ((min retry (greatestFactor - 1) + 1) * base.nanos)
        (min ((cap.map (·.nanos)).getD (Duration.limit - 1)) (Duration.limit - 1)) := by
  rw [delay_linear_eq]
  refine Backoff.nanos_linear base cap ?_
  simp only [greatestFactor, UInt32.size]
  omega

/-- No retry waits less than an earlier one. -/
theorem delay_linear_mono {earlier later : Nat} (h : earlier ≤ later) :
    (Backoff.linear base cap).delay earlier ≤ (Backoff.linear base cap).delay later := by
  have hfactor : (min earlier (greatestFactor - 1) + 1) * base.nanos ≤
      (min later (greatestFactor - 1) + 1) * base.nanos := Nat.mul_le_mul_right _ (by omega)
  rw [Duration.le_iff, nanos_delay_nearest, nanos_delay_nearest]
  omega

/-- No retry waits longer than the cap. -/
theorem delay_linear_le (most : Duration) (retry : Nat) :
    (Backoff.linear base (some most)).delay retry ≤ most := by
  rw [Duration.le_iff, nanos_delay_nearest]
  exact Nat.le_trans (Nat.min_le_right ..) (Nat.min_le_left ..)

end GuardedHttp.Retry
