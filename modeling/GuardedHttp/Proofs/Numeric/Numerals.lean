import GuardedHttp.Numeric.Count
import GuardedHttp.Text.Blank
import Mathlib.Tactic.IntervalCases

/-!
# Decimal numerals

The numeral of a natural is written digit by digit, the last digit behind the numeral of the tenth part:
`toDigits_induction` is the induction that goes with this. It gives what readers of numerals have to know,
and that a count is read back from its numeral (`ofNumeral_toString`).
-/

namespace GuardedHttp.Numeric

/-- The value of a digit. -/
def digitValue (c : Char) : Nat := c.toNat - '0'.toNat

/-- The character of a digit is a digit. -/
theorem isDigit_digitChar {d : Nat} (h : d < 10) : d.digitChar.isDigit = true := by
  interval_cases d <;> rfl

/-- The value of the character of a digit is the digit. -/
theorem digitValue_digitChar {d : Nat} (h : d < 10) : digitValue d.digitChar = d := by
  interval_cases d <;> rfl

/-- Digits are the characters from 48 to 57. -/
theorem isDigit_iff {c : Char} : c.isDigit = true ↔ 48 ≤ c.toNat ∧ c.toNat ≤ 57 := by
  simp only [Char.isDigit, Bool.and_eq_true, decide_eq_true_eq, ge_iff_le, UInt32.le_iff_toNat_le]
  rfl

/-- What holds of one digit, and is kept when a digit is written behind a numeral, holds of every
numeral. -/
theorem toDigits_induction {P : Nat → List Char → Prop} (one : ∀ d < 10, P d [d.digitChar])
    (more : ∀ n d, n ≠ 0 → d < 10 → P n (Nat.toDigits 10 n) →
      P (10 * n + d) (Nat.toDigits 10 n ++ [d.digitChar])) (n : Nat) : P n (Nat.toDigits 10 n) := by
  induction n using Nat.strong_induction_on with
  | h n ih =>
    by_cases hlt : n < 10
    · rw [Nat.toDigits_of_lt_base hlt]
      exact one n hlt
    · have hle : 10 ≤ n := Nat.le_of_not_lt hlt
      have hnext := more (n / 10) (n % 10) (by omega) (by omega) (ih (n / 10) (by omega))
      rw [Nat.div_add_mod] at hnext
      rw [Nat.toDigits_of_base_le (by decide) hle]
      exact hnext

/-- Every character of a numeral is a digit. -/
theorem isDigit_of_mem_numeral {n : Nat} {c : Char} (h : c ∈ Nat.toDigits 10 n) : c.isDigit = true :=
  Nat.isDigit_of_mem_toDigits (by decide) (by decide) h

/-- The numeral of a number that is not zero does not begin with one. -/
theorem head_numeral {n : Nat} (h : n ≠ 0) :
    ∃ c rest, Nat.toDigits 10 n = c :: rest ∧ digitValue c ≠ 0 := by
  refine toDigits_induction (P := fun n cs => n ≠ 0 → ∃ c rest, cs = c :: rest ∧ digitValue c ≠ 0)
    (fun d hd hne => ⟨_, [], rfl, by rwa [digitValue_digitChar hd]⟩) (fun n d hn _ ih _ => ?_) n h
  obtain ⟨c, rest, hcs, hc⟩ := ih hn
  exact ⟨c, rest ++ [d.digitChar], by rw [hcs, List.cons_append], hc⟩

/-! ## Counts -/

/-- A count takes one more digit, as long as it fits into its word. -/
theorem addCountDigit_digitChar {n d : Nat} (hd : d < 10) (h : 10 * n + d < UInt32.size) :
    addCountDigit (UInt32.ofNat n) d.digitChar = .ok (UInt32.ofNat (10 * n + d)) := by
  have hn : (UInt32.ofNat n).toNat = n := by
    rw [UInt32.toNat_ofNat']
    exact Nat.mod_eq_of_lt (by unfold UInt32.size at h; omega)
  have hsum : 10 * n + (d.digitChar.toNat - '0'.toNat) = 10 * n + d :=
    congrArg (10 * n + ·) (digitValue_digitChar hd)
  unfold addCountDigit
  rw [if_pos (isDigit_digitChar hd), hn]
  dsimp only
  rw [hsum, if_pos h]

/-- A count is read back from its numeral. -/
theorem ofNumeral_toString (n : UInt32) : ofNumeral (toString n.toNat) = .ok n := by
  have hdigits : (Nat.toDigits 10 n.toNat).foldlM addCountDigit 0 = .ok n := by
    have hread := toDigits_induction
      (P := fun n cs => n < UInt32.size → cs.foldlM addCountDigit 0 = .ok (UInt32.ofNat n))
      (fun d hd hlt => ?_) (fun n d hn hd ih hlt => ?_) n.toNat n.toNat_lt_size
    · rwa [UInt32.ofNat_toNat] at hread
    · have hfirst := addCountDigit_digitChar (n := 0) hd (by rwa [Nat.mul_zero, Nat.zero_add])
      rw [Nat.mul_zero, Nat.zero_add] at hfirst
      rw [List.foldlM_cons, show (0 : UInt32) = UInt32.ofNat 0 from rfl, hfirst]
      rfl
    · rw [List.foldlM_append, ih (by omega)]
      show [d.digitChar].foldlM addCountDigit (UInt32.ofNat n) = _
      rw [List.foldlM_cons, addCountDigit_digitChar hd hlt]
      rfl
  have hlist : (toString n.toNat).toList = Nat.toDigits 10 n.toNat := Nat.toList_repr
  unfold ofNumeral
  rw [hlist]
  obtain ⟨c, rest, hcs⟩ := List.exists_cons_of_ne_nil (Nat.toDigits_ne_nil (n := n.toNat) (b := 10))
  -- A numeral has no sign that would have to be taken off.
  have hsign : numeralDigits (c :: rest) = c :: rest := by
    have hdigit : c.isDigit = true := isDigit_of_mem_numeral (by rw [hcs]; exact List.mem_cons_self)
    unfold numeralDigits
    split
    · rename_i h
      cases h
      cases hdigit
    · rfl
  rw [hcs] at hdigits ⊢
  dsimp only
  rw [hsign, hdigits]

/-- There are no blanks around a numeral. -/
theorem trim_toString (n : Nat) : Text.trim (toString n) = toString n := by
  have hlist : (toString n).toList = Nat.toDigits 10 n := Nat.toList_repr
  have hnone : ∀ c ∈ Nat.toDigits 10 n, Text.isBlank c = false := by
    intro c hc
    obtain ⟨hge, hle⟩ := isDigit_iff.mp (isDigit_of_mem_numeral hc)
    simp only [Text.isBlank, Bool.or_eq_false_iff, Bool.and_eq_false_iff, decide_eq_false_iff_not,
      beq_eq_false_iff_ne]
    omega
  have hkeeps (cs : List Char) (h : ∀ c ∈ cs, Text.isBlank c = false) : cs.dropWhile Text.isBlank = cs := by
    cases cs with
    | nil => rfl
    | cons c rest => rw [List.dropWhile_cons, h c List.mem_cons_self, if_neg Bool.false_ne_true]
  unfold Text.trim Text.trimChars
  rw [hlist, hkeeps _ hnone, hkeeps _ fun c hc => hnone c (List.mem_reverse.mp hc), List.reverse_reverse,
    ← hlist, String.ofList_toList]

end GuardedHttp.Numeric
