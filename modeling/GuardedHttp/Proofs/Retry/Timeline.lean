import Mathlib
import GuardedHttp.Retry.Run

/-!
# Retries on a clock

What an attempt comes to may depend on the moment at which it begins, and that moment depends on how long
the attempts before it took and on the delays after them. A `Timeline` puts this together for attempts
that go on for ever: when each begins and ends (`Timeline.begins`, `Timeline.ends`) and with which result.
`Timeline.Stops` lists the four reasons to make no further attempt, and `Timeline.Closes` says which
event belongs to the one that counts.

`Timeline.verdict_of_not_stops` and `Timeline.closes_of_stops` tie this to `Policy.judge`, which is
unfolded nowhere else. Main statement: `Timeline.exists_isLeast_stops`, some attempt is the first to
stop, within the attempts that are asked for.
-/

namespace GuardedHttp

namespace Instant

/-- A sleep ends at the moment a delay later, if that moment is representable. -/
theorem wake_of_lt {now : Instant} {delay : Duration} (h : now.nanos + delay.nanos < limit) :
    now.wake delay = now.after delay := by
  unfold wake after?
  rw [if_pos h]
  rfl

/-- A sleep that would end at no instant ends after the longest sleep. -/
theorem wake_of_not_lt {now : Instant} {delay : Duration}
    (h : ¬ now.nanos + delay.nanos < limit) : now.wake delay = now.after longestSleep := by
  unfold wake after?
  rw [if_neg h]
  rfl

/-- A sleep never ends in the past. -/
theorem le_wake (now : Instant) (delay : Duration) : now ≤ now.wake delay := by
  rw [le_iff]
  by_cases h : now.nanos + delay.nanos < limit
  · rw [wake_of_lt h, nanos_after]
    omega
  · rw [wake_of_not_lt h, nanos_after]
    omega

/-- An instant is determined by its nanoseconds. -/
theorem ext_nanos {a b : Instant} (h : a.nanos = b.nanos) : a = b := congrArg mk h

/-- The later of two instants has the more nanoseconds. -/
theorem nanos_max (a b : Instant) : (max a b).nanos = max a.nanos b.nanos := by
  show (if a ≤ b then b else a).nanos = _
  split <;> rename_i h <;> rw [le_iff] at h <;> omega

/-- The later of two instants is the first one if the second does not come after it. -/
theorem max_eq_left {a b : Instant} (h : b ≤ a) : max a b = a :=
  ext_nanos ((nanos_max a b).trans (Nat.max_eq_left h))

/-- The later of two instants is the second one if the first does not come after it. -/
theorem max_eq_right {a b : Instant} (h : a ≤ b) : max a b = b :=
  ext_nanos ((nanos_max a b).trans (Nat.max_eq_right h))

/-- The later of two instants does not come before the second one. -/
theorem le_max_right (a b : Instant) : b ≤ max a b := by
  rw [le_iff, nanos_max]
  exact Nat.le_max_right ..

end Instant

namespace Retry

variable {α ε : Type}

/-- A policy and what attempts come to that are made under it. -/
structure Timeline (α ε : Type) where
  /-- The policy. -/
  policy : Policy ε
  /-- When the attempt of an index that begins at some moment ends, and how. -/
  attempt : Nat → Instant → Instant × Except ε α
  /-- The moment at which the call begins. -/
  started : Instant

namespace Timeline

variable (t : Timeline α ε)

/-- The delay after the attempt of an index. -/
def delay (k : Nat) : Duration := t.policy.backoff.delay k

/-- The moment at which the attempt of an index begins. -/
def begins : Nat → Instant
  | 0 => t.started
  | k + 1 => (t.attempt k (begins k)).1.wake (t.delay k)

/-- The moment at which the attempt of an index ends. -/
def ends (k : Nat) : Instant := (t.attempt k (t.begins k)).1

/-- How the attempt of an index ends. -/
def outcome (k : Nat) : Except ε α := (t.attempt k (t.begins k)).2

/-- The time from the start of the call to the end of the attempt of an index. -/
def elapsed (k : Nat) : Duration := (t.ends k).since t.started

/-- What the policy decides after the attempt of an index. -/
def verdict (k : Nat) : Verdict := t.policy.judge (t.elapsed k) k (t.outcome k)

/-- The next attempt begins when the delay after the one before has passed. -/
theorem begins_succ (k : Nat) : t.begins (k + 1) = (t.ends k).wake (t.delay k) := rfl

/-! ## Reasons to stop -/

/-- The attempt succeeds. -/
def Succeeds (k : Nat) : Prop := ∃ a, t.outcome k = .ok a

/-- The attempt ends with an error after which the policy does not try again. -/
def Refuses (k : Nat) : Prop :=
  ∃ e, t.outcome k = .error e ∧ ∀ retryable, t.policy.retryOn = some retryable → retryable e = false

/-- The attempt is the last one that is asked for; one is always made. -/
def Exhausts (k : Nat) : Prop := max t.policy.maxAttempts 1 ≤ k + 1

/-- The next attempt would begin when the budget is used up. -/
def Overruns (k : Nat) : Prop :=
  ∃ budget, t.policy.budget = some budget ∧ budget ≤ t.elapsed k + t.delay k

/-- No attempt follows that of an index. -/
def Stops (k : Nat) : Prop := t.Succeeds k ∨ t.Refuses k ∨ t.Exhausts k ∨ t.Overruns k

/-- The event with which the attempt of an index ends the call: that of the first reason that holds. -/
inductive Closes (k : Nat) : Event → Prop
  /-- The call has succeeded. -/
  | success (succeeds : t.Succeeds k) : Closes k (.success (k + 1))
  /-- The error is not one to try again after. -/
  | ignored (fails : ¬ t.Succeeds k) (refuses : t.Refuses k) : Closes k (.ignored (k + 1))
  /-- The attempts are used up. -/
  | exhausted (fails : ¬ t.Succeeds k) (accepts : ¬ t.Refuses k) (exhausts : t.Exhausts k) :
      Closes k (.exhausted (k + 1))
  /-- The next attempt would start too late. -/
  | deadline (fails : ¬ t.Succeeds k) (accepts : ¬ t.Refuses k) (remains : ¬ t.Exhausts k)
      (overruns : t.Overruns k) : Closes k (.deadline (k + 1))

/-! ## The decision of the policy -/

variable {t} {k : Nat}

/-- An error is not tried again after exactly if the policy has a predicate that rejects it. -/
theorem shouldRetry_eq_false_iff {p : Policy ε} {e : ε} :
    p.shouldRetry e = false ↔ ∀ retryable, p.retryOn = some retryable → retryable e = false := by
  unfold Policy.shouldRetry
  cases p.retryOn <;> simp

/-- A delay is over budget exactly if there is a budget, and it would be used up by then. -/
theorem overBudget_eq_true_iff {p : Policy ε} {elapsed delay : Duration} :
    p.overBudget elapsed delay = true ↔
      ∃ budget, p.budget = some budget ∧ budget ≤ elapsed + delay := by
  unfold Policy.overBudget
  cases p.budget <;> simp

/-- An error is refused if the policy does not try again after it. -/
theorem refuses_iff {e : ε} (h : t.outcome k = .error e) :
    t.Refuses k ↔ t.policy.shouldRetry e = false := by
  rw [shouldRetry_eq_false_iff]
  constructor
  · rintro ⟨e', he', hall⟩
    rw [h] at he'
    cases he'
    exact hall
  · exact fun hall => ⟨e, h, hall⟩

/-- The ways in which the policy can decide. -/
inductive VerdictCase (t : Timeline α ε) (k : Nat) : Prop
  /-- The attempt ends the call. -/
  | stops (stops : t.Stops k) (closes : t.Closes k ((t.verdict k).event k))
      (final : ∀ delay, t.verdict k ≠ .retry delay)
  /-- Another attempt follows. -/
  | goesOn (goesOn : ¬ t.Stops k) (verdict : t.verdict k = .retry (t.delay k))

/-- The policy stops for the first reason that holds, or tries again if there is none. -/
theorem verdict_case (t : Timeline α ε) (k : Nat) : VerdictCase t k := by
  cases hr : t.outcome k with
  | ok a =>
    have hs : t.Succeeds k := ⟨a, hr⟩
    have hv : t.verdict k = .success := by simp [verdict, hr, Policy.judge]
    exact .stops (.inl hs) (by rw [hv]; exact .success hs) (by simp [hv])
  | error e =>
    have hfails : ¬ t.Succeeds k := by simp [Succeeds, hr]
    have hverdict : t.verdict k = t.policy.judge (t.elapsed k) k (.error e : Except ε α) := by
      rw [verdict, hr]
    unfold Policy.judge at hverdict
    -- The policy looks at the other three reasons in their order.
    cases hp : t.policy.shouldRetry e with
    | false =>
      have hrefuses : t.Refuses k := (refuses_iff hr).mpr hp
      have hv : t.verdict k = .ignored := by simpa [hp] using hverdict
      exact .stops (.inr (.inl hrefuses)) (by rw [hv]; exact .ignored hfails hrefuses) (by simp [hv])
    | true =>
      have haccepts : ¬ t.Refuses k := by simp [refuses_iff hr, hp]
      by_cases hl : t.Exhausts k
      · have hv : t.verdict k = .exhausted := by
          simpa [hp, show t.policy.attemptLimit ≤ k + 1 from hl] using hverdict
        exact .stops (.inr (.inr (.inl hl))) (by rw [hv]; exact .exhausted hfails haccepts hl)
          (by simp [hv])
      · have hlimit : ¬ t.policy.attemptLimit ≤ k + 1 := hl
        by_cases hb : t.Overruns k
        · have hover : t.policy.overBudget (t.elapsed k) (t.policy.backoff.delay k) = true :=
            overBudget_eq_true_iff.mpr hb
          have hv : t.verdict k = .deadline (t.delay k) := by
            simpa [hp, hlimit, hover, delay] using hverdict
          exact .stops (.inr (.inr (.inr hb))) (by rw [hv]; exact .deadline hfails haccepts hl hb)
            (by simp [hv])
        · have hunder : t.policy.overBudget (t.elapsed k) (t.policy.backoff.delay k) = false := by
            rw [Bool.eq_false_iff, Ne, overBudget_eq_true_iff]
            exact hb
          refine .goesOn ?_ (by simpa [hp, hlimit, hunder, delay] using hverdict)
          rintro (h | h | h | h) <;> contradiction

/-- While there is no reason to stop, another attempt follows after the delay that belongs to it. -/
theorem verdict_of_not_stops (h : ¬ t.Stops k) : t.verdict k = .retry (t.delay k) := by
  cases t.verdict_case k with
  | stops hs => exact absurd hs h
  | goesOn _ hv => exact hv

/-- A reason to stop ends the call, with the event of the first one that holds. -/
theorem closes_of_stops (h : t.Stops k) :
    t.Closes k ((t.verdict k).event k) ∧ ∀ delay, t.verdict k ≠ .retry delay := by
  cases t.verdict_case k with
  | stops _ hc hf => exact ⟨hc, hf⟩
  | goesOn hn => exact absurd h hn

/-! ## The last attempt -/

/-- Some attempt is the first to stop, and it is one of those that are asked for. -/
theorem exists_isLeast_stops (t : Timeline α ε) :
    ∃ n, IsLeast {k | t.Stops k} n ∧ n + 1 ≤ max t.policy.maxAttempts 1 := by
  classical
  have hlast : t.Stops (max t.policy.maxAttempts 1 - 1) := by
    refine .inr (.inr (.inl ?_))
    unfold Exhausts
    omega
  refine ⟨Nat.find ⟨_, hlast⟩, ⟨Nat.find_spec _, fun k hk => Nat.find_min' _ hk⟩, ?_⟩
  have hle := Nat.find_min' ⟨_, hlast⟩ hlast
  omega

variable {n : Nat}

/-- Before the first attempt that stops, none does. -/
theorem not_stops_of_lt (hn : IsLeast {k | t.Stops k} n) (hk : k < n) : ¬ t.Stops k :=
  fun h => absurd (hn.2 h) (Nat.not_le_of_lt hk)

/-- The first attempt that stops is the first one after which the policy does not try again. -/
theorem isLeast_stops (hbefore : ∀ k < n, ∃ delay, t.verdict k = .retry delay)
    (hlast : ∀ delay, t.verdict n ≠ .retry delay) : IsLeast {k | t.Stops k} n := by
  constructor
  · by_contra hgoesOn
    exact hlast _ (verdict_of_not_stops hgoesOn)
  · intro k hstops
    by_contra hlt
    obtain ⟨delay, hretry⟩ := hbefore k (Nat.lt_of_not_le hlt)
    exact (closes_of_stops hstops).2 delay hretry

/-- An attempt that is followed by another one failed, with a delay that fits the budget. -/
theorem add_lt_of_not_stops {budget : Duration} (h : ¬ t.Stops k)
    (hb : t.policy.budget = some budget) :
    (t.elapsed k).nanos + (t.delay k).nanos < budget.nanos := by
  have hover : ¬ budget ≤ t.elapsed k + t.delay k :=
    fun hle => h (.inr (.inr (.inr ⟨budget, hb, hle⟩)))
  have hfits := budget.nanos_le
  rw [Duration.le_iff, Duration.nanos_add] at hover
  omega

end Timeline

end Retry

end GuardedHttp
