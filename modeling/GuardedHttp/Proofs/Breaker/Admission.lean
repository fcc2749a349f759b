import GuardedHttp.Proofs.Breaker.Delivery
import GuardedHttp.Proofs.Breaker.History

/-!
# When a call is admitted

Whether a call passes is decided by the state, the timer and the counts of trials. By `Run.Tallied` and
`Run.Counted` these are what the history of the breaker makes them, so that `Run.Admits` can say it of
the history: an open circuit waits for the open duration since it was last opened or forced open, and a
half-open one has as many places as trials are permitted, each taken by a trial that has not ended or
has succeeded.

Main statement: `admission_rule`.
-/

namespace GuardedHttp.Breaker

open Circuit (AcquireCase CompleteCase ReleaseCase ControlCase)

variable {settings : Settings}

/-- The history of the breaker lets a call pass. -/
def Run.Admits (settings : Settings) (r : Run) : Prop :=
  r.circuit.state = .closed ∨
    (r.circuit.state = .opened ∧
      ∃ t, r.openedAt = some t ∧ t.after settings.openDuration ≤ r.now) ∨
    (r.circuit.state = .halfOpen ∧
      r.trials.length + r.trialSuccesses < settings.trials.toNat)

/-- The timer never runs from a moment to come. -/
theorem Reachable.changedAt_le {r : Run} (hr : Reachable settings r) (hb : r.bumps < 2 ^ 64) :
    r.circuit.changedAt ≤ r.now := by
  refine hr.induction (P := fun r => r.circuit.changedAt ≤ r.now)
    (fun now => Nat.le_refl now.nanos) ?_ hb
  intro r deed _ ha _ ih
  obtain ⟨e, -, hf⟩ := Run.follows_step settings ha
  -- The timer is either left or set to the time of the step.
  cases he : e.breaks with
  | false =>
    rw [(hf.continues he).2]
    exact Nat.le_trans ih hf.clock
  | true =>
    rw [(hf.ends he).2]
    exact hf.clock

namespace Run

variable {r : Run}

/-- In the half-open state the trials that have not ended are the calls of the current generation. -/
theorem length_trials (hd : r.Dated) (ht : r.Tallied) (hs : r.circuit.state = .halfOpen) :
    r.trials.length = r.running := by
  unfold trials running
  rw [← List.countP_eq_length_filter]
  refine List.countP_congr fun a ha => ?_
  rw [decide_eq_true_iff, decide_eq_true_iff, hd.current_iff a ha, current_iff_isTrial ht hs]

/-- The circuit admits a call exactly if the history does. -/
theorem isSome_acquire_iff (hd : r.Dated) (hc : r.Counted settings) (ht : r.Tallied)
    (hle : r.circuit.changedAt ≤ r.now) :
    (r.circuit.acquire settings r.now).1.isSome = true ↔ r.Admits settings := by
  have htimer := Instant.le_since_iff (d := settings.openDuration) hle
  unfold Admits
  cases r.circuit.acquire_case settings r.now with
  | passes hs e => simp [e, hs]
  | probes hs hwaited e => simp [e, hs, ht.opened hs, htimer.mp hwaited]
  | early hs hwaits e =>
    have hlate := mt htimer.mpr hwaits
    simp [e, hs, ht.opened hs, hlate]
  | joins hs hroom e | full hs hroom e =>
    -- The counts of the circuit are those of the history.
    rw [(hc.halfOpen hs).1, ht.halfOpen hs, ← length_trials hd ht hs] at hroom
    simp [e, hs, hroom]

/-- A call that is not admitted leaves the circuit as it is, but for the event. -/
theorem acquire_of_isSome_eq_false (h : ¬ (r.circuit.acquire settings r.now).1.isSome = true) :
    r.circuit.acquire settings r.now = (none, r.circuit, [.rejected]) := by
  cases r.circuit.acquire_case settings r.now with
  | passes _ e | probes _ _ e | joins _ _ e => simp [e] at h
  | early _ _ e | full _ _ e => exact e

/-- The trial that makes an open circuit half-open is the only one. -/
theorem probe_spec (hd : r.Dated) (hs : r.circuit.state = .opened) {p : Permit}
    (hp : (r.circuit.acquire settings r.now).1 = some p) :
    (r.step settings .acquire).circuit.state = .halfOpen ∧
      (r.step settings .acquire).circuit.inFlight = 1 ∧
      (r.step settings .acquire).trials = [⟨r.past.length, p⟩] ∧
      (r.step settings .acquire).trialSuccesses = 0 := by
  obtain ⟨e, -, hf⟩ := follows_step settings (show r.Allows .acquire from trivial)
  have hcircuit : (r.step settings .acquire).circuit.state = .halfOpen ∧
      (r.step settings .acquire).circuit.inFlight = 1 := by
    cases r.circuit.acquire_case settings r.now with
    | probes _ _ e => simp [e]
    | early _ _ e => simp [e] at hp
    | passes hs' | joins hs' | full hs' => simp [hs] at hs'
  obtain ⟨hstate, hone⟩ := hcircuit
  have henters := hf.enters_of_ne (by rw [hs, hstate]; simp)
  rw [hstate] at henters
  refine ⟨hstate, hone, ?_, ?_⟩
  · have hperiod : ∀ a, (r.step settings .acquire).IsTrial a ↔ r.past.length ≤ a.number := by
      intro a
      unfold IsTrial
      rw [hf.past, latest, if_pos henters]
    -- Every call that was out before is older than the period that begins.
    have hold : r.outstanding.filter ((r.step settings .acquire).IsTrial ·) = [] := by
      refine List.filter_eq_nil_iff.mpr fun a ha => ?_
      rw [decide_eq_true_iff, hperiod]
      exact Nat.not_le_of_lt (hd.number_lt a ha)
    unfold trials
    rw [outstanding_acquire, List.filter_append, hold, hp]
    simp [hperiod]
  · unfold trialSuccesses
    rw [hf.verdictsSince_of henters]
    rfl

end Run

/-- A call passes exactly if the circuit is closed, or it is open and the open duration has passed
since it was last opened or forced open, or it is half-open and the trials of the period that have not
ended and those that have succeeded leave room for one more. The call that an open circuit admits is
then its only trial. A call that does not pass fails as rejected, its code does not run, and the step
of the circuit changes nothing and is one event; what else happens is done by listeners. -/
theorem admission_rule {b : Breaker} {r : Run} (hr : Reachable b.settings r)
    (hb : r.bumps < 2 ^ 64) {α ε : Type} (classify : Classifier α ε) (outcome : Outcome α ε) :
    ((b.start r.now r.circuit).1.isSome = true ↔ r.Admits b.settings) ∧
    (.invoked ∈ (b.call classify r.now outcome r.circuit).2.notes ↔ r.Admits b.settings) ∧
    (r.circuit.state = .opened → ∀ p, (b.start r.now r.circuit).1 = some p →
      (r.step b.settings .acquire).circuit.state = .halfOpen ∧
        (r.step b.settings .acquire).circuit.inFlight = 1 ∧
        (r.step b.settings .acquire).trials = [⟨r.past.length, p⟩] ∧
        (r.step b.settings .acquire).trialSuccesses = 0 ∧
        b.Leaves r.now (r.step b.settings .acquire).circuit (b.start r.now r.circuit).2) ∧
    (¬ r.Admits b.settings →
      (b.call classify r.now outcome r.circuit).1 = .ended (.error .rejected) ∧
        r.circuit.acquire b.settings r.now = (none, r.circuit, [.rejected]) ∧
        b.Leaves r.now r.circuit (b.call classify r.now outcome r.circuit).2 ∧
        (b.Quiet → (b.call classify r.now outcome r.circuit).2.circuit = r.circuit ∧
          (b.call classify r.now outcome r.circuit).2.events = [.rejected])) ∧
    (r.circuit.state = .halfOpen →
      r.trials.length + r.trialSuccesses ≤ b.settings.trials.toNat) := by
  have hd := hr.dated hb
  have hc := hr.counted hb
  have ht := hr.tallied hb
  have hadmits := Run.isSome_acquire_iff hd hc ht (hr.changedAt_le hb)
  refine ⟨?_, ?_, ?_, ?_, ?_⟩
  · rw [start_fst, hadmits]
  · rw [invoked_mem_call, hadmits]
  · intro hs p hp
    rw [start_fst] at hp
    -- The call that finds the timer elapsed is the first trial.
    obtain ⟨hstate, hone, htrials, hnone⟩ := Run.probe_spec hd hs hp
    exact ⟨hstate, hone, htrials, hnone, leaves_start⟩
  · intro hno
    -- A rejection leaves the circuit as it is, so that only listeners can change it.
    have hreject := Run.acquire_of_isSome_eq_false (mt hadmits.mp hno)
    have hnone : (b.start r.now r.circuit).1 = none := by rw [start_fst, hreject]
    have hleaves : b.Leaves r.now (r.circuit.acquire b.settings r.now).2.1
        (b.start r.now r.circuit).2 := leaves_start
    rw [hreject] at hleaves
    rw [call_of_none hnone]
    refine ⟨rfl, hreject, hleaves, fun hq => ⟨hleaves.circuit_eq hq, ?_⟩⟩
    rw [events_start hq, hreject]
  · intro hs
    obtain ⟨hi, -, hsum⟩ := hc.halfOpen hs
    rw [Run.length_trials hd ht hs, ← hi, ← ht.halfOpen hs]
    exact hsum

/-- A half-open circuit with a trial in flight and one that has succeeded rejects a third. -/
theorem admission_overlapping :
    Reachable twoTrials overlapping ∧ overlapping.bumps < 2 ^ 64 ∧
      overlapping.trials.length = 1 ∧ overlapping.trialSuccesses = 1 ∧
      ¬ overlapping.Admits twoTrials ∧
      (call { settings := twoTrials } anyError overlapping.now
        (.returned (.ok () : Except String Unit)) overlapping.circuit).1 =
          .ended (.error .rejected) := by
  obtain ⟨hadmits, -, -, hrejected, -⟩ := admission_rule (b := { settings := twoTrials })
    reachable_overlapping bumps_overlapping anyError (.returned (.ok () : Except String Unit))
  have hno : ¬ overlapping.Admits twoTrials := mt hadmits.mpr (by decide)
  exact ⟨reachable_overlapping, bumps_overlapping, by decide, by decide, hno, (hrejected hno).1⟩

end GuardedHttp.Breaker
