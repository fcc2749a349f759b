import GuardedHttp.Duration

/-!
# Durations in words

A machine holds a duration in two words: 64 bits of whole seconds, and 32 bits of nanoseconds that do not
make a second. `Words.times?` multiplies both by a third word and carries the seconds that the nanoseconds
have come to; if the seconds do not fit, `Words.times` takes the longest duration instead.

Only the seconds are looked after in this way. Anything else that does not fit its word is an `Overflow`,
with which the computation stops.

Main statements: `Words.times_words`, the computation never stops, and what it comes to are the words of the
multiple; `Words.words_le_iff`, words are compared as durations are.
-/

namespace GuardedHttp.Duration

/-- A number does not fit its word, and nothing else is taken for it. -/
inductive Overflow where
  /-- It is a product. -/
  | product
  /-- It is to be written in a narrower word. -/
  | narrowing
  /-- It counts seconds, one of which is made of nanoseconds. -/
  | carry
deriving DecidableEq

/-- The number in a word of 64 bits, if it fits. -/
def word64? (n : Nat) : Option UInt64 := if n < UInt64.size then some (.ofNat n) else none

/-- The number in a word of 32 bits, if it fits. -/
def word32? (n : Nat) : Option UInt32 := if n < UInt32.size then some (.ofNat n) else none

/-- A duration in two words. -/
structure Words where
  /-- The whole seconds. -/
  seconds : UInt64
  /-- The nanoseconds beyond them. -/
  nanos : UInt32
  /-- They do not make a second. -/
  nanos_lt : nanos.toNat < nanosPerSecond
deriving DecidableEq

/-- What is below the size of a word of 64 bits fits into one. -/
theorem word64?_of_lt {n : Nat} (h : n < UInt64.size) : word64? n = some (.ofNat n) := if_pos h

/-- What is not below the size of a word of 64 bits does not fit into one. -/
theorem word64?_of_le {n : Nat} (h : UInt64.size ≤ n) : word64? n = none := if_neg (Nat.not_lt_of_le h)

/-- What is below the size of a word of 32 bits fits into one. -/
theorem word32?_of_lt {n : Nat} (h : n < UInt32.size) : word32? n = some (.ofNat n) := if_pos h

/-- Nanoseconds short of a second fit into a word of 32 bits. -/
theorem toNat_ofNat_nanos {n : Nat} (h : n < nanosPerSecond) : (UInt32.ofNat n).toNat = n :=
  UInt32.toNat_ofNat_of_lt' (Nat.lt_trans h (by decide))

/-- The words of a duration. -/
def words (d : Duration) : Words where
  seconds := .ofNat d.seconds
  nanos := .ofNat d.subsecond
  nanos_lt := by
    have h : d.subsecond < nanosPerSecond := Nat.mod_lt _ (by decide)
    exact (toNat_ofNat_nanos h).symm ▸ h

namespace Words

/-- The longest duration. -/
def max : Words := ⟨.ofNat (UInt64.size - 1), .ofNat (nanosPerSecond - 1), by decide⟩

/-- The nanoseconds that the words amount to. -/
def total (w : Words) : Nat := w.seconds.toNat * nanosPerSecond + w.nanos.toNat

/-- So many seconds and nanoseconds, which are carried if they make a second. -/
def new (seconds : UInt64) (nanos : UInt32) : Except Overflow Words :=
  if h : nanos.toNat < nanosPerSecond then .ok ⟨seconds, nanos, h⟩
  else
    have hrest : nanos.toNat % nanosPerSecond < nanosPerSecond := Nat.mod_lt _ (by decide)
    match word64? (seconds.toNat + nanos.toNat / nanosPerSecond) with
    | some seconds =>
      .ok ⟨seconds, .ofNat (nanos.toNat % nanosPerSecond), (toNat_ofNat_nanos hrest).symm ▸ hrest⟩
    | none => .error .carry

/-- The words `factor` times over, if the seconds fit. -/
def times? (w : Words) (factor : UInt32) : Except Overflow (Option Words) := do
  let product ← (word64? (w.nanos.toNat * factor.toNat)).elim (.error .product) .ok
  let nanos ← (word32? (product.toNat % nanosPerSecond)).elim (.error .narrowing) .ok
  let seconds := (word64? (w.seconds.toNat * factor.toNat)).bind fun seconds =>
    word64? (seconds.toNat + product.toNat / nanosPerSecond)
  seconds.elim (.ok none) fun seconds => some <$> new seconds nanos

/-- The words `factor` times over, or the longest duration. -/
def times (w : Words) (factor : UInt32) : Except Overflow Words := do
  let product ← w.times? factor
  return product.getD max

/-- Seconds are compared first. -/
instance : LE Words := ⟨fun a b => a.seconds < b.seconds ∨ a.seconds = b.seconds ∧ a.nanos ≤ b.nanos⟩

instance : DecidableLE Words := fun a b =>
  inferInstanceAs (Decidable (a.seconds < b.seconds ∨ a.seconds = b.seconds ∧ a.nanos ≤ b.nanos))

instance : Min Words := ⟨fun a b => if a ≤ b then a else b⟩

/-! ## Words and what they amount to -/

/-- The word of seconds is the whole seconds of the duration. -/
theorem toNat_seconds_words (d : Duration) : d.words.seconds.toNat = d.seconds :=
  UInt64.toNat_ofNat_of_lt' (Nat.div_lt_of_lt_mul (Nat.mul_comm .. ▸ d.nanos_lt))

/-- The word of nanoseconds is what the duration has beyond its whole seconds. -/
theorem toNat_nanos_words (d : Duration) : d.words.nanos.toNat = d.subsecond :=
  toNat_ofNat_nanos (Nat.mod_lt _ (by decide))

/-- No two pairs of words amount to the same. -/
theorem eq_words_of_total {w : Words} {d : Duration} (h : w.total = d.nanos) : w = d.words := by
  have hs := toNat_seconds_words d
  have hn := toNat_nanos_words d
  have hlt := w.nanos_lt
  obtain ⟨seconds, nanos, _⟩ := w
  simp only [total, nanosPerSecond, Duration.seconds, subsecond] at h hs hn hlt
  obtain rfl : seconds = d.words.seconds := UInt64.toNat_inj.mp (by omega)
  obtain rfl : nanos = d.words.nanos := UInt32.toNat_inj.mp (by omega)
  rfl

/-- The longest duration has the greatest words. -/
theorem words_max : Duration.max.words = max := by decide

/-! ## Multiples -/

/-- The nanoseconds are too few for their multiple to overflow, whatever the factor. -/
theorem mul_nanos_lt (w : Words) (factor : UInt32) : w.nanos.toNat * factor.toNat < UInt64.size :=
  Nat.lt_of_lt_of_le (Nat.mul_lt_mul'' w.nanos_lt factor.toNat_lt_size) (by decide)

/-- A sum of which the first part has to fit on its own fits if the whole does. -/
theorem word64?_bind_add (a b : Nat) :
    ((word64? a).bind fun word => word64? (word.toNat + b)) = word64? (a + b) := by
  rcases Nat.lt_or_ge a UInt64.size with h | h
  · rw [word64?_of_lt h, Option.bind_some, UInt64.toNat_ofNat_of_lt' h]
  · rw [word64?_of_le h, word64?_of_le (Nat.le_trans h (Nat.le_add_right a b)), Option.bind_none]

/-- Nothing stops the computation of a multiple, and whether there is one is a matter of the seconds. -/
theorem times?_eq (w : Words) (factor : UInt32) :
    w.times? factor =
      (word64? (w.seconds.toNat * factor.toNat + w.nanos.toNat * factor.toNat / nanosPerSecond)).elim
        (.ok none)
        fun seconds => some <$> new seconds (.ofNat (w.nanos.toNat * factor.toNat % nanosPerSecond)) := by
  have hproduct := mul_nanos_lt w factor
  have hrest : w.nanos.toNat * factor.toNat % nanosPerSecond < UInt32.size :=
    Nat.lt_trans (Nat.mod_lt _ (by decide)) (by decide : nanosPerSecond < UInt32.size)
  rw [← word64?_bind_add]
  simp only [times?, word64?_of_lt hproduct, word32?_of_lt hrest, UInt64.toNat_ofNat_of_lt' hproduct,
    Option.elim_some, bind, Except.bind]

/-- The words of a duration amount to its nanoseconds. -/
theorem total_words (d : Duration) : d.words.total = d.nanos := by
  rw [total, toNat_seconds_words, toNat_nanos_words]
  exact Nat.div_add_mod' ..

/-- Words are multiplied as durations are: what the seconds and the nanoseconds come to on their own makes up
the multiple, and it is a duration if its seconds fit. -/
theorem times?_words (d : Duration) (factor : UInt32) :
    d.words.times? factor = .ok ((ofNanos? (factor.toNat * d.nanos)).map words) := by
  have hsum : factor.toNat * d.nanos = d.words.seconds.toNat * factor.toNat * nanosPerSecond +
      d.words.nanos.toNat * factor.toNat := by
    rw [← total_words, total, Nat.mul_add, ← Nat.mul_assoc, Nat.mul_comm factor.toNat,
      Nat.mul_comm factor.toNat]
  -- From here on, what the two words come to on their own may be any two numbers.
  rw [times?_eq, hsum]
  generalize d.words.seconds.toNat * factor.toNat = s
  generalize d.words.nanos.toNat * factor.toNat = n
  have hrest : n % nanosPerSecond < nanosPerSecond := Nat.mod_lt _ (by decide)
  rcases Nat.lt_or_ge (s + n / nanosPerSecond) UInt64.size with h | h
  · have hfits : s * nanosPerSecond + n < limit := by
      simp only [limit, nanosPerSecond, UInt64.size] at h ⊢
      omega
    have hnew : new (.ofNat (s + n / nanosPerSecond)) (.ofNat (n % nanosPerSecond)) = .ok _ :=
      dif_pos ((toNat_ofNat_nanos hrest).symm ▸ hrest)
    have hproduct : ofNanos? (s * nanosPerSecond + n) = some ⟨_, hfits⟩ := dif_pos hfits
    rw [word64?_of_lt h, Option.elim_some, hnew, hproduct]
    refine congrArg (fun w => Except.ok (some w)) (eq_words_of_total ?_)
    rw [total, UInt64.toNat_ofNat_of_lt' h, toNat_ofNat_nanos hrest]
    simp only [nanosPerSecond]
    omega
  · have hlong : ¬ s * nanosPerSecond + n < limit := by
      simp only [limit, nanosPerSecond, UInt64.size] at h ⊢
      omega
    have hproduct : ofNanos? (s * nanosPerSecond + n) = none := dif_neg hlong
    rw [word64?_of_le h, Option.elim_none, hproduct, Option.map_none]

/-- A multiple in words is the multiple of the duration. -/
theorem times_words (d : Duration) (factor : UInt32) :
    d.words.times factor = .ok (d.scale factor.toNat).words := by
  have hscale : d.scale factor.toNat = (ofNanos? (factor.toNat * d.nanos)).getD .max := by
    unfold scale clamp ofNanos?
    split <;> rfl
  rw [times, times?_words, hscale]
  cases ofNanos? (factor.toNat * d.nanos) with
  | none => exact congrArg Except.ok words_max.symm
  | some product => rfl

/-- A second and a half, three times. -/
example : (ofMillis 1500).words.times 3 = .ok (ofMillis 4500).words := by rfl

/-! ## The order -/

/-- Words are compared as durations are. -/
theorem words_le_iff {a b : Duration} : a.words ≤ b.words ↔ a ≤ b := by
  show a.words.seconds < b.words.seconds ∨
    a.words.seconds = b.words.seconds ∧ a.words.nanos ≤ b.words.nanos ↔ a.nanos ≤ b.nanos
  rw [UInt64.lt_iff_toNat_lt, ← UInt64.toNat_inj, UInt32.le_iff_toNat_le]
  simp only [toNat_seconds_words, toNat_nanos_words, Duration.seconds, subsecond, nanosPerSecond]
  omega

/-- The lesser of two pairs of words is that of the shorter duration. -/
theorem min_words (a b : Duration) : min a.words b.words = (min a b).words := by
  show (if a.words ≤ b.words then _ else _) = words (if a ≤ b then a else b)
  by_cases h : a ≤ b
  · rw [if_pos h, if_pos (words_le_iff.mpr h)]
  · rw [if_neg h, if_neg (mt words_le_iff.mp h)]

end Words

end GuardedHttp.Duration
