import GuardedHttp.Proofs.Breaker.Generations

/-!
# What the counts of a breaker stand for

The counts of a circuit are kept step by step, by operations of calls that were admitted in any period.
`Run.Counted` says what they stand for in each state: in the half-open state the trials that run are the
outstanding calls with a permit of the current generation, and they and the successes never take more
than the permitted trials; in the other states there are no trials, and no permit is of the generation
of an open circuit. `Reachable.counted` proves it of every reachable run, one lemma for each deed.

Main statement: `representation_invariant`.
-/

namespace GuardedHttp.Breaker

open Circuit (AcquireCase CompleteCase ReleaseCase ControlCase)

variable {settings : Settings}

/-- What the counts of the circuit stand for, state by state. -/
structure Run.Counted (settings : Settings) (r : Run) : Prop where
  /-- The copy of the state is the state. -/
  published : r.circuit.published = r.circuit.state
  /-- A closed circuit has no trials and is below the threshold. -/
  closed : r.circuit.state = .closed → r.circuit.inFlight = 0 ∧ r.circuit.successes = 0 ∧
    r.circuit.failures < settings.threshold.toNat
  /-- An open circuit has no trials and no outstanding call of its generation. -/
  opened : r.circuit.state = .opened → r.circuit.inFlight = 0 ∧ r.circuit.successes = 0 ∧
    r.running = 0
  /-- A half-open circuit counts its trials, and leaves room for those that have succeeded. -/
  halfOpen : r.circuit.state = .halfOpen → r.circuit.inFlight = r.running ∧
    r.circuit.successes < settings.trials.toNat ∧
    r.circuit.inFlight + r.circuit.successes ≤ settings.trials.toNat

/-- An element is counted apart from the others. -/
theorem countP_erase_of_mem {α : Type} [BEq α] [LawfulBEq α] {a : α} {l : List α} (h : a ∈ l)
    (p : α → Bool) : l.countP p = (l.erase a).countP p + if p a then 1 else 0 := by
  rw [(List.perm_cons_erase h).countP_eq, List.countP_cons]

/-- At least one failure opens the circuit. -/
theorem threshold_pos (settings : Settings) : 0 < settings.threshold.toNat :=
  Nat.pos_of_ne_zero fun h => settings.threshold_pos (UInt32.toNat_inj.mp h)

/-- At least one trial closes the circuit. -/
theorem trials_pos (settings : Settings) : 0 < settings.trials.toNat :=
  Nat.pos_of_ne_zero fun h => settings.trials_pos (UInt32.toNat_inj.mp h)

/-- Below the threshold a failure is counted in full. -/
theorem failures_countFailure_of_lt {c : Circuit} (h : c.failures < settings.threshold.toNat) :
    c.countFailure.failures = c.failures + 1 := by
  have hword := settings.threshold.toNat_lt_size
  rw [Circuit.failures_countFailure, Nat.min_eq_left]
  exact Nat.le_sub_one_of_lt (Nat.lt_of_le_of_lt h hword)

namespace Run.Counted

variable {r : Run}

/-- A run whose circuit has just closed is counted. -/
theorem of_closed (hs : r.circuit.state = .closed) (hp : r.circuit.published = .closed)
    (hi : r.circuit.inFlight = 0) (hw : r.circuit.successes = 0)
    (hf : r.circuit.failures < settings.threshold.toNat) : r.Counted settings := by
  refine ⟨hp.trans hs.symm, fun _ => ⟨hi, hw, hf⟩, ?_, ?_⟩ <;> simp [hs]

/-- A run whose circuit is open is counted if no outstanding call is of its generation. -/
theorem of_opened (hs : r.circuit.state = .opened) (hp : r.circuit.published = .opened)
    (hi : r.circuit.inFlight = 0) (hw : r.circuit.successes = 0) (hr : r.running = 0) :
    r.Counted settings := by
  refine ⟨hp.trans hs.symm, ?_, fun _ => ⟨hi, hw, hr⟩, ?_⟩ <;> simp [hs]

/-- A run whose circuit is half-open is counted if its trials are. -/
theorem of_halfOpen (hs : r.circuit.state = .halfOpen) (hp : r.circuit.published = .halfOpen)
    (hi : r.circuit.inFlight = r.running) (hw : r.circuit.successes < settings.trials.toNat)
    (hsum : r.circuit.inFlight + r.circuit.successes ≤ settings.trials.toNat) :
    r.Counted settings := by
  refine ⟨hp.trans hs.symm, ?_, ?_, fun _ => ⟨hi, hw, hsum⟩⟩ <;> simp [hs]

/-- A new run is counted. -/
theorem fresh (settings : Settings) (now : Instant) : (Run.fresh now).Counted settings :=
  of_closed rfl rfl rfl rfl (threshold_pos settings)

/-- No outstanding call has a permit of the generation of an open circuit. -/
theorem generation_ne (hc : r.Counted settings) (hs : r.circuit.state = .opened) {a : Admission}
    (ha : a ∈ r.outstanding) : a.permit.generation ≠ r.circuit.generation := by
  obtain ⟨-, -, hnone⟩ := hc.opened hs
  rw [running, List.countP_eq_zero] at hnone
  intro hg
  exact hnone a ha (decide_eq_true hg)

/-- A step that leaves the circuit, and the count of its calls where it matters, keeps the rest. -/
theorem of_same (hc : r.Counted settings) {r' : Run} (hcircuit : r'.circuit = r.circuit)
    (hrun : r.circuit.state ≠ .closed → r'.running = r.running) : r'.Counted settings := by
  constructor <;> rw [hcircuit]
  · exact hc.published
  · exact hc.closed
  · intro hs
    rw [hrun (by simp [hs])]
    exact hc.opened hs
  · intro hs
    rw [hrun (by simp [hs])]
    exact hc.halfOpen hs

/-- No call that was admitted before holds a permit of a generation that has just begun. -/
theorem countP_eq_zero_of_ends {r' : Run} {e : Record} (h : r.Follows r' e) (hd : r.Dated)
    (hb : r'.bumps < 2 ^ 64) (he : e.breaks = true) {l : List Admission}
    (hl : ∀ a ∈ l, a ∈ r.outstanding) :
    l.countP (fun a => a.permit.generation = r'.circuit.generation) = 0 := by
  rw [List.countP_eq_zero]
  intro a ha
  rw [decide_eq_true_eq]
  exact h.generation_ne_of_ends hd hb he (hl a ha)

/-- Asking for a permit keeps the counts, as long as generations do not come back. -/
theorem acquire (hc : r.Counted settings) (hd : r.Dated)
    (hb : (r.step settings .acquire).bumps < 2 ^ 64) :
    (r.step settings .acquire).Counted settings := by
  cases r.circuit.acquire_case settings r.now with
  | passes hs e => exact hc.of_same (by simp [e]) fun h => absurd hs h
  | early _ _ e | full _ _ e => exact hc.of_same (by simp [e]) fun _ => by simp [running, e]
  | probes hs _ e =>
    -- The trial that is admitted is the only call of its generation.
    obtain ⟨_, -, hf⟩ := follows_step settings (show r.Allows .acquire from trivial)
    have hends := hf.breaks_of_state_ne (by simp [e, hs])
    have hnone := countP_eq_zero_of_ends hf hd hb hends fun _ ha => ha
    have hrun : (r.step settings .acquire).running = 1 := by
      unfold running
      rw [outstanding_acquire, List.countP_append, hnone]
      simp [e]
    have hpos := trials_pos settings
    apply of_halfOpen <;> simp [e, hrun] <;> omega
  | joins hs hroom e =>
    obtain ⟨hi, hw, -⟩ := hc.halfOpen hs
    have hp := hc.published
    have hrun : (r.step settings .acquire).running = r.running + 1 := by
      unfold running
      rw [outstanding_acquire, List.countP_append]
      simp [e]
    apply of_halfOpen <;> simp [*]
    omega

/-- Taking a call out of the count of the current generation. -/
theorem running_erase {a : Admission} (ha : a ∈ r.outstanding) :
    r.running = (r.outstanding.erase a).countP (fun b => b.permit.generation = r.circuit.generation) +
      if a.permit.generation = r.circuit.generation then 1 else 0 := by
  unfold running
  rw [countP_erase_of_mem ha]
  simp only [decide_eq_true_eq]

/-- The end of a call keeps the counts, as long as generations do not come back. -/
theorem complete (hc : r.Counted settings) (hd : r.Dated) {a : Admission} {failed : Bool}
    (ha : a ∈ r.outstanding) (hb : (r.step settings (.complete a failed)).bumps < 2 ^ 64) :
    (r.step settings (.complete a failed)).Counted settings := by
  have hp := hc.published
  have hcount := running_erase ha
  cases r.circuit.complete_case settings r.now a.permit failed with
  | stale hg e =>
    rw [if_neg hg] at hcount
    exact hc.of_same (by simp [ha, e]) fun _ => by rw [hcount]; simp [running, ha, e]
  | succeeds _ _ hs e =>
    obtain ⟨hi, hw, -⟩ := hc.closed hs
    have hpos := threshold_pos settings
    apply of_closed <;> simp [ha, e, hs, hp, hi, hw, hpos]
  | fails _ _ hs hbelow e =>
    obtain ⟨hi, hw, -⟩ := hc.closed hs
    apply of_closed <;> simp [ha, e, hs, hp, hi, hw]
    exact Nat.lt_of_not_le hbelow
  | trialSucceeds hg _ hs hmore e =>
    obtain ⟨hi, hw, hsum⟩ := hc.halfOpen hs
    rw [if_pos hg] at hcount
    have hrun : (r.step settings (.complete a failed)).running + 1 = r.running := by
      rw [hcount]
      simp [running, ha, e]
    apply of_halfOpen <;> simp [ha, e, hs, hp, hmore] <;> omega
  | closes _ _ hs _ e =>
    have hpos := threshold_pos settings
    apply of_closed <;> simp [ha, e, hpos]
  | trips _ _ hs _ e | reopens _ _ hs e =>
    -- The failure ends the period, so that the calls still out hold older permits.
    obtain ⟨_, -, hf⟩ := follows_step settings (show r.Allows (.complete a failed) from ha)
    have hends := hf.breaks_of_state_ne (by simp [ha, e, hs])
    have hheld : ∀ b ∈ (r.step settings (.complete a failed)).outstanding, b ∈ r.outstanding := by
      intro b hm
      rw [outstanding_complete ha] at hm
      exact List.mem_of_mem_erase hm
    have hnone : (r.step settings (.complete a failed)).running = 0 :=
      countP_eq_zero_of_ends hf hd hb hends hheld
    apply of_opened <;> simp [ha, e, hnone]
  | whileOpen hg hs => exact absurd hg (hc.generation_ne hs ha)

/-- A call that is abandoned leaves the counts right: if it was a trial, its place is free. -/
theorem abandon (hc : r.Counted settings) {a : Admission} (ha : a ∈ r.outstanding) :
    (r.step settings (.abandon a)).Counted settings := by
  have hcount := running_erase ha
  cases r.circuit.release_case a.permit with
  | frees hg hs e =>
    obtain ⟨hi, hw, hsum⟩ := hc.halfOpen hs
    have hp := hc.published
    rw [if_pos hg] at hcount
    have hrun : (r.step settings (.abandon a)).running + 1 = r.running := by
      rw [hcount]
      simp [running, ha, e]
    apply of_halfOpen <;> simp [ha, e, hs, hp, hw] <;> omega
  | idle hn e =>
    refine hc.of_same (by simp [ha, e]) fun hs => ?_
    -- A call that is no trial is of an older generation, but in the closed state.
    have hg : a.permit.generation ≠ r.circuit.generation := by
      cases hstate : r.circuit.state with
      | closed => exact absurd hstate hs
      | opened => exact hc.generation_ne hstate ha
      | halfOpen => exact fun hg => hn ⟨hg, hstate⟩
    rw [if_neg hg] at hcount
    rw [hcount]
    simp [running, ha, e]

/-- A forced opening leaves no call of the new generation, also when the circuit was open. -/
theorem running_forceOpen (hd : r.Dated) {how : Circuit.Control} (hk : how = .forceOpen)
    (hb : (r.step settings (.control how)).bumps < 2 ^ 64) :
    (r.step settings (.control how)).running = 0 := by
  obtain ⟨e, hdeed, hf⟩ := follows_step settings (show r.Allows (.control how) from trivial)
  have hends := Follows.breaks_of_forceOpen (hdeed.trans (by rw [hk]))
  exact countP_eq_zero_of_ends hf hd hb hends fun _ ha => ha

/-- A control keeps the counts, as long as generations do not come back. -/
theorem control (hc : r.Counted settings) (hd : r.Dated) {how : Circuit.Control}
    (hb : (r.step settings (.control how)).bumps < 2 ^ 64) :
    (r.step settings (.control how)).Counted settings := by
  have hp := hc.published
  have hpos := threshold_pos settings
  cases r.circuit.control_case r.now how with
  | opens hk _ e =>
    have hnone := running_forceOpen hd hk hb
    apply of_opened <;> simp [e, hnone]
  | staysOpen hk hs e =>
    -- The state stays, and only the new generation keeps older permits out.
    have hnone := running_forceOpen hd hk hb
    obtain ⟨hi, hw, -⟩ := hc.opened hs
    apply of_opened <;> simp [e, hs, hp, hi, hw, hnone]
  | closes _ _ e | resets _ _ e => apply of_closed <;> simp [e, hpos]
  | renews _ hs e =>
    obtain ⟨hi, hw, -⟩ := hc.closed hs
    apply of_closed <;> simp [e, hs, hp, hi, hw, hpos]
  | staysClosed _ hs e => exact hc.of_same (by simp [e]) fun h => absurd hs h

/-- Passing time keeps the counts. -/
theorem advance (hc : r.Counted settings) (d : Duration) :
    (r.step settings (.advance d)).Counted settings :=
  hc.of_same rfl fun _ => rfl

end Run.Counted

/-- The counts of every reachable run stand for what they should. -/
theorem Reachable.counted {r : Run} (hr : Reachable settings r) (hb : r.bumps < 2 ^ 64) :
    r.Counted settings := by
  refine hr.induction (.fresh settings) ?_ hb
  -- The step needs to know that generations tell the age of permits.
  intro r deed hr ha hb ih
  have hd := hr.dated (Nat.lt_of_le_of_lt (Run.bumps_le_step settings r deed) hb)
  cases deed with
  | acquire => exact ih.acquire hd hb
  | complete => exact ih.complete hd ha hb
  | abandon => exact ih.abandon ha
  | control => exact ih.control hd hb
  | advance d => exact ih.advance d

/-- The representation invariant. In the half-open state the trials in flight are the outstanding calls
with a permit of the current generation, fewer successes than trials have been recorded, and both
together fit the permitted trials, hence in 32 bits; a call that can give a trial back finds one there.
In the other states there are no trials, a closed circuit is below its threshold, and no outstanding
call has a permit of the generation of an open circuit. The copy of the state is always the state. -/
theorem representation_invariant {r : Run} (hr : Reachable settings r) (hb : r.bumps < 2 ^ 64) :
    (r.circuit.state = .halfOpen →
      r.circuit.inFlight = r.running ∧
      r.circuit.successes < settings.trials.toNat ∧
      r.circuit.inFlight + r.circuit.successes ≤ settings.trials.toNat ∧
      r.circuit.inFlight + r.circuit.successes < 2 ^ 32 ∧
      ∀ a ∈ r.outstanding, a.permit.generation = r.circuit.generation →
        0 < r.circuit.inFlight) ∧
    (r.circuit.state ≠ .halfOpen → r.circuit.inFlight = 0 ∧ r.circuit.successes = 0) ∧
    (r.circuit.state = .closed → r.circuit.failures < settings.threshold.toNat) ∧
    (r.circuit.state = .opened →
      ∀ a ∈ r.outstanding, a.permit.generation ≠ r.circuit.generation) ∧
    r.circuit.published = r.circuit.state := by
  have hc := hr.counted hb
  refine ⟨?_, ?_, fun hs => (hc.closed hs).2.2, fun hs a => hc.generation_ne hs, hc.published⟩
  · intro hs
    obtain ⟨hi, hw, hsum⟩ := hc.halfOpen hs
    have hword := settings.trials.toNat_lt
    refine ⟨hi, hw, hsum, Nat.lt_of_le_of_lt hsum hword, fun a ha hg => ?_⟩
    rw [hi, Run.running, List.countP_pos_iff]
    exact ⟨a, ha, decide_eq_true hg⟩
  · intro hs
    cases hstate : r.circuit.state with
    | closed => exact ⟨(hc.closed hstate).1, (hc.closed hstate).2.1⟩
    | opened => exact ⟨(hc.opened hstate).1, (hc.opened hstate).2.1⟩
    | halfOpen => exact absurd hstate hs

/-- A half-open circuit with one trial in flight, one that has succeeded, and an older call that is not
counted among them. -/
theorem representation_overlapping :
    Reachable twoTrials overlapping ∧ overlapping.bumps < 2 ^ 64 ∧
      overlapping.circuit.state = .halfOpen ∧ overlapping.outstanding.length = 2 ∧
      overlapping.circuit.inFlight = overlapping.running ∧ overlapping.running = 1 ∧
      overlapping.circuit.inFlight + overlapping.circuit.successes ≤ 2 := by
  have h := representation_invariant reachable_overlapping bumps_overlapping
  have hs : overlapping.circuit.state = .halfOpen := by decide
  obtain ⟨hi, -, hsum, -⟩ := h.1 hs
  exact ⟨reachable_overlapping, bumps_overlapping, hs, by decide, hi, by decide, hsum⟩

end GuardedHttp.Breaker
