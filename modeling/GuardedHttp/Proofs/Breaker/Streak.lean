import GuardedHttp.Proofs.Breaker.History

/-!
# What the count of failures stands for

The failures that a circuit counts outlive the closed state: an open circuit still shows those that
opened it, and a trial that fails adds one. `Run.Streaked` says what the count is in every state: the
failures recorded since the latest step that clears it, as far as they can be counted. A closing, a reset
and a success in the closed state clear it. The success of a trial clears it only if it closes the
circuit, so that with several trials the count is not the number of failures since the last success
(`trial_success_keeps_failures`); where one trial decides, it is.

Main statement: `failures_since_cleared`.
-/

namespace GuardedHttp.Breaker

open Circuit (CompleteCase ReleaseCase ControlCase)

variable {settings : Settings}

/-- The event records a success. -/
def Event.isSuccess : Event → Bool
  | success _ => true
  | transition .. | permitted _ | rejected | failure .. => false

/-- The step clears the count of failures: a closing, a reset, or a success in the closed state. -/
def Record.clears (e : Record) : Bool := e.startsCount || e.events.contains (.success .closed)

/-- The step is a closing, a reset, or the success of any call that counts. -/
def Record.relieves (e : Record) : Bool := e.startsCount || e.events.any Event.isSuccess

namespace Run

/-- How many failures have been recorded since the latest step that has a property. -/
def failuresSince (property : Record → Bool) (r : Run) : Nat :=
  (verdictsSince property r.past).count true

/-- The circuit counts the failures since the latest step that clears the count. -/
def Streaked (r : Run) : Prop :=
  r.circuit.failures = min (r.failuresSince Record.clears) countLimit

namespace Streaked

variable {r : Run} {deed : Deed} {a : Admission} {failed : Bool}

/-- A new run has counted no failures. -/
theorem fresh (now : Instant) : (Run.fresh now).Streaked := rfl

/-- A step that clears the count leaves no failures. -/
theorem of_clears (ha : r.Allows deed)
    (hclears : (Record.of deed r.now r.circuit (r.effect settings deed)).clears = true)
    (hf : (r.step settings deed).circuit.failures = 0) : (r.step settings deed).Streaked := by
  have hnone := (follows_effect settings ha).verdictsSince_of hclears
  unfold Streaked failuresSince
  rw [hf, hnone]
  rfl

/-- Any other step adds its verdict. -/
theorem of_not_clears (hs : r.Streaked) (ha : r.Allows deed)
    (hclears : (Record.of deed r.now r.circuit (r.effect settings deed)).clears = false)
    (hf : (r.step settings deed).circuit.failures = min (r.circuit.failures +
      ((Record.of deed r.now r.circuit (r.effect settings deed)).verdict r.past).toList.count true)
        countLimit) : (r.step settings deed).Streaked := by
  have hadds := (follows_effect settings ha).verdictsSince_of_not hclears
  unfold Streaked failuresSince at hs ⊢
  rw [hf, hadds, List.count_append, hs]
  omega

/-- A step that leaves the count and gives no verdict. -/
theorem of_idle (hs : r.Streaked) (ha : r.Allows deed)
    (hclears : (Record.of deed r.now r.circuit (r.effect settings deed)).clears = false)
    (hnone : (Record.of deed r.now r.circuit (r.effect settings deed)).verdict r.past = none)
    (hf : (r.step settings deed).circuit.failures = r.circuit.failures) :
    (r.step settings deed).Streaked := by
  have hle : r.circuit.failures ≤ countLimit := hs ▸ Nat.min_le_right _ _
  refine hs.of_not_clears ha hclears ?_
  rw [hf, hnone, Option.toList_none, List.count_nil, Nat.add_zero, Nat.min_eq_left hle]

/-- Asking for a permit neither counts a failure nor clears the count. -/
theorem acquire (hs : r.Streaked) : (r.step settings .acquire).Streaked := by
  have ha : r.Allows .acquire := trivial
  cases r.circuit.acquire_case settings r.now with
  | passes hstate e | probes hstate _ e | joins hstate _ e | early hstate _ e | full hstate _ e =>
    refine hs.of_idle ha ?_ rfl (by simp [e])
    simp [Record.clears, Record.startsCount, Record.enters, Record.of, effect, e, hstate]

/-- The end of a call counts its failure or clears the count, but for the success of a trial, which does
neither. -/
theorem complete (hs : r.Streaked) (hd : r.Dated) (hc : r.Counted settings)
    (ha : a ∈ r.outstanding) : (r.step settings (.complete a failed)).Streaked := by
  have hallows : r.Allows (.complete a failed) := ha
  have hcurrent := hd.current_iff a ha
  have hverdict : (Record.of (.complete a failed) r.now r.circuit
      (r.effect settings (.complete a failed))).verdict r.past =
        if r.Current a then some failed else none := rfl
  have hle : r.circuit.failures ≤ countLimit := hs ▸ Nat.min_le_right _ _
  cases r.circuit.complete_case settings r.now a.permit failed with
  | stale hg e =>
    rw [if_neg (fun h => hg (hcurrent.mpr h))] at hverdict
    refine hs.of_idle hallows ?_ hverdict (by simp [ha, e])
    simp [Record.clears, Record.startsCount, Record.enters, Record.of, effect, e]
  | succeeds _ _ hstate e | closes _ _ hstate _ e =>
    refine of_clears hallows ?_ (by simp [ha, e])
    simp [Record.clears, Record.startsCount, Record.enters, Record.of, effect, e, hstate]
  -- The trial succeeds, and the count stays: this is the success that the count does not see.
  | trialSucceeds hg hv hstate _ e =>
    subst hv
    rw [if_pos (hcurrent.mp hg)] at hverdict
    refine hs.of_not_clears hallows ?_ ?_
    · simp [Record.clears, Record.startsCount, Record.enters, Record.of, effect, e, hstate]
    · rw [hverdict]
      simp [ha, e, hle]
  | fails hg hv hstate _ e | trips hg hv hstate _ e | reopens hg hv hstate e =>
    subst hv
    rw [if_pos (hcurrent.mp hg)] at hverdict
    refine hs.of_not_clears hallows ?_ ?_
    · simp [Record.clears, Record.startsCount, Record.enters, Record.of, effect, e, hstate]
    · rw [hverdict]
      simp [ha, e, Circuit.failures_countFailure]
  | whileOpen hg hstate => exact absurd hg (hc.generation_ne hstate ha)

/-- A call that is abandoned leaves the count. -/
theorem abandon (hs : r.Streaked) (ha : a ∈ r.outstanding) :
    (r.step settings (.abandon a)).Streaked := by
  have hallows : r.Allows (.abandon a) := ha
  cases r.circuit.release_case a.permit with
  | frees _ _ e | idle _ e =>
    refine hs.of_idle hallows ?_ rfl (by simp [ha, e])
    simp [Record.clears, Record.startsCount, Record.enters, Record.of, effect, e]

/-- A control that closes or resets clears the count; one that opens leaves it. -/
theorem control (hs : r.Streaked) {how : Circuit.Control} :
    (r.step settings (.control how)).Streaked := by
  have hallows : r.Allows (.control how) := trivial
  cases r.circuit.control_case r.now how with
  | opens hk hstate e | staysOpen hk hstate e | staysClosed hk hstate e =>
    subst hk
    refine hs.of_idle hallows ?_ rfl (by simp [e])
    simp [Record.clears, Record.startsCount, Record.enters, Record.of, effect, e, hstate]
  | closes _ hstate e | resets _ hstate e =>
    refine of_clears hallows ?_ (by simp [e])
    simp [Record.clears, Record.startsCount, Record.enters, Record.of, effect, e, hstate]
  | renews hk _ e =>
    refine of_clears hallows ?_ (by simp [e])
    simp [Record.clears, Record.startsCount, Record.of, hk]

/-- Passing time leaves the count. -/
theorem advance (hs : r.Streaked) (d : Duration) : (r.step settings (.advance d)).Streaked := by
  refine hs.of_idle trivial ?_ rfl rfl
  cases hstate : r.circuit.state <;>
    simp [Record.clears, Record.startsCount, Record.enters, Record.of, effect, hstate]

end Streaked

end Run

/-- In every reachable run the count is that of the records. -/
theorem Reachable.streaked {r : Run} (hr : Reachable settings r) (hb : r.bumps < 2 ^ 64) :
    r.Streaked := by
  refine hr.induction .fresh ?_ hb
  intro r deed hr ha hb ih
  have hle := Nat.lt_of_le_of_lt (Run.bumps_le_step settings r deed) hb
  cases deed with
  | acquire => exact ih.acquire
  | complete => exact ih.complete (hr.dated hle) (hr.counted hle) ha
  | abandon => exact ih.abandon ha
  | control => exact ih.control
  | advance d => exact ih.advance d

/-! ## Failures since the last success -/

/-- Properties that agree on the records look back equally far. -/
theorem verdictsSince_congr {p q : Record → Bool} {past : List Record} (h : ∀ e ∈ past, p e = q e) :
    verdictsSince p past = verdictsSince q past := by
  induction past with
  | nil => rfl
  | cons e older ih =>
    have hrest := ih fun e he => h e (List.mem_cons_of_mem _ he)
    unfold verdictsSince
    rw [h e List.mem_cons_self, hrest]

/-- Where one trial decides, every success clears the count: that of a trial closes the circuit. -/
theorem Run.relieves_effect {r : Run} {deed : Deed} (hc : r.Counted settings) (ha : r.Allows deed)
    (hone : settings.trials = 1) :
    (Record.of deed r.now r.circuit (r.effect settings deed)).relieves =
      (Record.of deed r.now r.circuit (r.effect settings deed)).clears := by
  have htrials : settings.trials.toNat = 1 := by rw [hone]; rfl
  unfold Record.relieves Record.clears
  cases deed with
  | acquire =>
    cases r.circuit.acquire_case settings r.now with
    | passes _ e | probes _ _ e | joins _ _ e | early _ _ e | full _ _ e =>
      simp [Record.of, effect, e, Event.isSuccess]
  | complete a failed =>
    cases r.circuit.complete_case settings r.now a.permit failed with
    | stale _ e | succeeds _ _ _ e | fails _ _ _ _ e | trips _ _ _ _ e | reopens _ _ _ e =>
      simp [Record.of, effect, e, Event.isSuccess]
    -- With one trial allowed the first success is the last.
    | trialSucceeds _ _ _ hmore => omega
    | closes _ _ hstate _ e =>
      simp [Record.of, Record.startsCount, Record.enters, effect, e, hstate]
    | whileOpen hg hstate => exact absurd hg (hc.generation_ne hstate ha)
  | abandon | advance => rfl
  | control how =>
    cases r.circuit.control_case r.now how with
    | opens _ _ e | staysOpen _ _ e | closes _ _ e | staysClosed _ _ e | resets _ _ e
    | renews _ _ e => simp [Record.of, effect, e, Event.isSuccess]

/-- Where one trial decides, the records that clear the count are those that show a success. -/
theorem Reachable.relieves_eq_clears {r : Run} (hr : Reachable settings r) (hb : r.bumps < 2 ^ 64)
    (hone : settings.trials = 1) : ∀ e ∈ r.past, e.relieves = e.clears := by
  refine hr.induction (P := fun r => ∀ e ∈ r.past, e.relieves = e.clears)
    (fun now e he => absurd he List.not_mem_nil) ?_ hb
  intro r deed hr ha hb ih e he
  have hc := hr.counted (Nat.lt_of_le_of_lt (Run.bumps_le_step settings r deed) hb)
  rw [Run.past_step settings ha, List.mem_cons] at he
  rcases he with rfl | he
  · exact Run.relieves_effect hc ha hone
  · exact ih e he

/-- A recorded failure carries the count that it leaves. -/
theorem Circuit.failures_of_failure_mem {now : Instant} {c : Circuit} {p : Permit} {failed : Bool}
    {state : CircuitState} {n : Nat}
    (h : .failure state n ∈ (c.complete settings now p failed).2) :
    n = (c.complete settings now p failed).1.failures := by
  cases c.complete_case settings now p failed with
  | stale _ e | succeeds _ _ _ e | trialSucceeds _ _ _ _ e | closes _ _ _ _ e => simp [e] at h
  | fails _ _ _ _ e | trips _ _ _ _ e | reopens _ _ _ e =>
    simp [e] at h ⊢
    exact h.2
  | whileOpen _ _ e => cases failed <;> simp_all

/-- The count of failures in every state. It is the number of failures recorded since the latest
closing, reset or success in the closed state, as far as they can be counted, and a recorded failure
carries it. Where one trial decides, it is the number of failures since the last success of any call. -/
theorem failures_since_cleared {r : Run} (hr : Reachable settings r) (hb : r.bumps < 2 ^ 64) :
    r.circuit.failures = min (r.failuresSince Record.clears) countLimit ∧
    (∀ a ∈ r.outstanding, ∀ failed state n,
      .failure state n ∈ (r.effect settings (.complete a failed)).2 →
        n = (r.step settings (.complete a failed)).circuit.failures) ∧
    (settings.trials = 1 →
      r.circuit.failures = min (r.failuresSince Record.relieves) countLimit) := by
  have hstreak := hr.streaked hb
  refine ⟨hstreak, ?_, ?_⟩
  · intro a ha failed state n hn
    rw [Run.circuit_complete ha]
    exact Circuit.failures_of_failure_mem hn
  · intro hone
    have hsame := verdictsSince_congr (hr.relieves_eq_clears hb hone)
    unfold Run.failuresSince
    rw [hsame]
    exact hstreak

/-- A trial has just succeeded, and the circuit still counts the failure that opened it. -/
theorem trial_success_keeps_failures :
    Reachable twoTrials overlapping ∧ overlapping.bumps < 2 ^ 64 ∧
      (overlapping.past.head?.map (·.events)) = some [.success .halfOpen] ∧
      overlapping.failuresSince Record.relieves = 0 ∧ overlapping.circuit.failures = 1 :=
  ⟨reachable_overlapping, bumps_overlapping, by decide, by decide, by decide⟩

end GuardedHttp.Breaker
