import GuardedHttp.Proofs.Breaker.Representation

/-!
# The breaker follows its history

The circuit counts failures in a row and successes of trials as they come. `Run.Tallied` says that
these counts, and its timer, are what the records of the run amount to: in the closed state the failures
that head the verdicts since the latest closing or reset, in the half-open state the successes recorded
in this period, and in the open state the time of the latest opening. `Tallied.of_continues` and
`Tallied.of_ends` keep it through a step within a period and a step that ends one.

Main statement: `state_follows_history`, when the state changes is decided by the records alone.
-/

namespace GuardedHttp.Breaker

open Circuit (AcquireCase CompleteCase ReleaseCase ControlCase)

variable {settings : Settings}

/-- The counts and the timer of the circuit are what the records amount to. -/
structure Run.Tallied (r : Run) : Prop where
  /-- A closed circuit counts the failures that head the verdicts. -/
  closed : r.circuit.state = .closed →
    r.circuit.failures = (r.verdicts.takeWhile (· = true)).length
  /-- A half-open circuit counts the successes of the period. -/
  halfOpen : r.circuit.state = .halfOpen → r.circuit.successes = r.trialSuccesses
  /-- The period of a half-open circuit began when it became half-open. -/
  period : r.circuit.state = .halfOpen →
    latest Record.breaks r.past = latest (Record.enters .halfOpen) r.past
  /-- The timer of an open circuit runs since it was last opened. -/
  opened : r.circuit.state = .opened → r.openedAt = some r.circuit.changedAt

/-! ## What a record adds -/

namespace Record

variable {e : Record}

/-- A step within a period enters no state. -/
theorem enters_eq_false (he : e.breaks = false) (state : CircuitState) :
    e.enters state = false := by
  unfold breaks at he
  unfold enters
  grind

/-- A step within a period starts no count. -/
theorem startsCount_eq_false (he : e.breaks = false) : e.startsCount = false := by
  unfold breaks at he
  unfold startsCount
  grind [enters]

/-- A step within a period starts no timer. -/
theorem startsTimer_eq_false (he : e.breaks = false) : e.startsTimer = false := by
  unfold breaks at he
  unfold startsTimer
  grind [enters]

end Record

namespace Run.Follows

variable {r r' : Run} {e : Record}

/-- A step within a period adds its verdict to those since any other step. -/
theorem verdictsSince_of_not {property : Record → Bool} (h : r.Follows r' e)
    (he : property e = false) : verdictsSince property r'.past =
      (e.verdict r.past).toList ++ verdictsSince property r.past := by
  rw [h.past, verdictsSince, he, if_neg (by simp)]

/-- No verdict has been given since the step that starts the count. -/
theorem verdictsSince_of {property : Record → Bool} (h : r.Follows r' e)
    (he : property e = true) : verdictsSince property r'.past = [] := by
  rw [h.past, verdictsSince, if_pos he]

/-- A step within a period leaves the state. -/
theorem state_of_continues (h : r.Follows r' e) (he : e.breaks = false) :
    r'.circuit.state = r.circuit.state := by
  have hs : ¬ r.circuit.state ≠ r'.circuit.state := fun hs => by
    rw [h.breaks_of_state_ne hs] at he
    cases he
  exact (Decidable.not_not.mp hs).symm

/-- A step that is no control and leaves the state is a step within a period. -/
theorem breaks_eq_false (h : r.Follows r' e) (hd : ∀ how, e.deed ≠ .control how)
    (hs : r'.circuit.state = r.circuit.state) : e.breaks = false := by
  simp [Record.breaks, h.source, h.target, hd, hs]

/-- A step to another state enters it. -/
theorem enters_of_ne (h : r.Follows r' e) (hs : r.circuit.state ≠ r'.circuit.state) :
    e.enters r'.circuit.state = true := by
  simp [Record.enters, h.source, h.target, hs]

/-- A step within a period leaves the time of the latest opening. -/
theorem openedAt_of_continues (h : r.Follows r' e) (he : e.breaks = false) :
    r'.openedAt = r.openedAt := by
  unfold openedAt
  rw [h.past, List.find?_cons_of_neg (by simp [Record.startsTimer_eq_false he])]

/-- An opening is the latest one. -/
theorem openedAt_of_startsTimer (h : r.Follows r' e) (he : e.startsTimer = true) :
    r'.openedAt = some r.now := by
  unfold openedAt
  rw [h.past, List.find?_cons_of_pos he, ← h.time]
  rfl

end Run.Follows

namespace Run.Tallied

variable {r r' : Run} {e : Record}

/-- A new run is tallied. -/
theorem fresh (now : Instant) : (Run.fresh now).Tallied := by
  constructor <;> simp [Run.fresh, Circuit.new, verdicts, verdictsSince]

/-- A step within a period keeps the counts if they go along with its verdict. -/
theorem of_continues (ht : r.Tallied) (h : r.Follows r' e) (he : e.breaks = false)
    (hclosed : r.circuit.state = .closed → r'.circuit.failures =
      (((e.verdict r.past).toList ++ r.verdicts).takeWhile (· = true)).length)
    (hhalf : r.circuit.state = .halfOpen → r'.circuit.successes =
      (e.verdict r.past).toList.count false + r.trialSuccesses) : r'.Tallied := by
  have hsame := h.state_of_continues he
  obtain ⟨-, htimer⟩ := h.continues he
  constructor <;> intro hs <;> rw [hsame] at hs
  · unfold verdicts
    rw [h.verdictsSince_of_not (Record.startsCount_eq_false he)]
    exact hclosed hs
  · unfold trialSuccesses
    rw [h.verdictsSince_of_not (Record.enters_eq_false he _), List.count_append]
    exact hhalf hs
  · rw [h.past, latest, latest, he, Record.enters_eq_false he]
    exact ht.period hs
  · rw [h.openedAt_of_continues he, htimer]
    exact ht.opened hs

/-- A step within a period that gives no verdict and leaves the counts keeps them right. -/
theorem of_uncounted (ht : r.Tallied) (h : r.Follows r' e) (he : e.breaks = false)
    (hnone : e.verdict r.past = none) (hf : r'.circuit.failures = r.circuit.failures)
    (hw : r'.circuit.successes = r.circuit.successes) : r'.Tallied := by
  refine ht.of_continues h he ?_ ?_ <;> intro hs <;> rw [hnone]
  · rw [hf]
    exact ht.closed hs
  · rw [hw, Option.toList_none, List.count_nil, Nat.zero_add]
    exact ht.halfOpen hs

/-- A step that ends a period starts the counts and the timer of the state that it leads to. -/
theorem of_ends (h : r.Follows r' e) (he : e.breaks = true)
    (hclosed : r'.circuit.state = .closed → r'.circuit.failures = 0 ∧ e.startsCount = true)
    (hhalf : r'.circuit.state = .halfOpen →
      r'.circuit.successes = 0 ∧ e.enters .halfOpen = true)
    (hopened : r'.circuit.state = .opened → e.startsTimer = true) : r'.Tallied := by
  obtain ⟨-, htimer⟩ := h.ends he
  constructor <;> intro hs
  · obtain ⟨hf, hstart⟩ := hclosed hs
    unfold verdicts
    rw [h.verdictsSince_of hstart, hf]
    rfl
  · obtain ⟨hw, hstart⟩ := hhalf hs
    unfold trialSuccesses
    rw [h.verdictsSince_of hstart, hw]
    rfl
  · obtain ⟨-, hstart⟩ := hhalf hs
    rw [h.past, latest, latest, if_pos he, if_pos hstart]
  · rw [h.openedAt_of_startsTimer (hopened hs), htimer]

/-- A step to another state that starts with nothing counted. -/
theorem of_entered (h : r.Follows r' e) (hs : r.circuit.state ≠ r'.circuit.state)
    (hf : r'.circuit.state = .closed → r'.circuit.failures = 0)
    (hw : r'.circuit.state = .halfOpen → r'.circuit.successes = 0) : r'.Tallied := by
  have henters := h.enters_of_ne hs
  refine of_ends h (h.breaks_of_state_ne hs) ?_ ?_ ?_ <;> intro ht <;> rw [ht] at henters
  · exact ⟨hf ht, by simp [Record.startsCount, henters]⟩
  · exact ⟨hw ht, henters⟩
  · simp [Record.startsTimer, henters]

/-- Asking for a permit keeps the tallies. -/
theorem acquire (ht : r.Tallied) : (r.step settings .acquire).Tallied := by
  obtain ⟨rec, hdeed, hf⟩ := follows_step settings (show r.Allows .acquire from trivial)
  have hcontrol : ∀ how, rec.deed ≠ .control how := by simp [hdeed]
  have hnone : rec.verdict r.past = none := by simp [Record.verdict, hdeed]
  cases r.circuit.acquire_case settings r.now with
  | passes _ e | joins _ _ e | early _ _ e | full _ _ e =>
    have hcontinues := hf.breaks_eq_false hcontrol (by simp [e])
    exact ht.of_uncounted hf hcontinues hnone (by simp [e]) (by simp [e])
  | probes hs _ e => apply of_entered hf <;> simp [e, hs]

/-- The end of a call adds its verdict to the tallies if it counts, or starts them anew. -/
theorem complete (ht : r.Tallied) (hd : r.Dated) (hc : r.Counted settings) {a : Admission}
    {failed : Bool} (ha : a ∈ r.outstanding) :
    (r.step settings (.complete a failed)).Tallied := by
  obtain ⟨rec, hdeed, hf⟩ := follows_step settings (show r.Allows (.complete a failed) from ha)
  have hcontrol : ∀ how, rec.deed ≠ .control how := by simp [hdeed]
  -- Whether the call counts is read off its number by the records and off its permit by the circuit.
  have hcurrent := hd.current_iff a ha
  have hverdict : rec.verdict r.past = if r.Current a then some failed else none := by
    simp only [Record.verdict, hdeed, Current]
  have hcontinues := hf.breaks_eq_false hcontrol
  cases r.circuit.complete_case settings r.now a.permit failed with
  | stale hg e =>
    rw [if_neg (fun h => hg (hcurrent.mpr h))] at hverdict
    have hsame := hcontinues (by simp [ha, e])
    exact ht.of_uncounted hf hsame hverdict (by simp [ha, e]) (by simp [ha, e])
  | succeeds hg hv hs e =>
    rw [if_pos (hcurrent.mp hg), hv] at hverdict
    refine ht.of_continues hf (hcontinues (by simp [ha, e])) ?_ ?_ <;> intro hs'
    · simp [ha, e, hverdict]
    · simp [hs] at hs'
  | fails hg hv hs hbelow e =>
    rw [if_pos (hcurrent.mp hg), hv] at hverdict
    refine ht.of_continues hf (hcontinues (by simp [ha, e])) ?_ ?_ <;> intro hs'
    -- Below the threshold the count is below its limit, too.
    · have hone := failures_countFailure_of_lt (hc.closed hs).2.2
      simp [ha, e, hverdict, hone, ht.closed hs]
    · simp [hs] at hs'
  | trialSucceeds hg hv hs _ e =>
    rw [if_pos (hcurrent.mp hg), hv] at hverdict
    refine ht.of_continues hf (hcontinues (by simp [ha, e])) ?_ ?_ <;> intro hs'
    · simp [hs] at hs'
    · simp [ha, e, hverdict, ht.halfOpen hs, Nat.add_comm]
  | closes _ _ hs _ e | trips _ _ hs _ e | reopens _ _ hs e =>
    apply of_entered hf <;> simp [ha, e, hs]
  | whileOpen hg hs => exact absurd hg (hc.generation_ne hs ha)

/-- A call that is abandoned leaves the tallies. -/
theorem abandon (ht : r.Tallied) {a : Admission} (ha : a ∈ r.outstanding) :
    (r.step settings (.abandon a)).Tallied := by
  obtain ⟨rec, hdeed, hf⟩ := follows_step settings (show r.Allows (.abandon a) from ha)
  have hcontrol : ∀ how, rec.deed ≠ .control how := by simp [hdeed]
  have hnone : rec.verdict r.past = none := by simp [Record.verdict, hdeed]
  cases r.circuit.release_case a.permit with
  | frees _ _ e | idle _ e =>
    have hcontinues := hf.breaks_eq_false hcontrol (by simp [ha, e])
    exact ht.of_uncounted hf hcontinues hnone (by simp [ha, e]) (by simp [ha, e])

/-- A control keeps the tallies or starts them anew. -/
theorem control (ht : r.Tallied) {how : Circuit.Control} :
    (r.step settings (.control how)).Tallied := by
  obtain ⟨rec, hdeed, hf⟩ := follows_step settings (show r.Allows (.control how) from trivial)
  have hnone : rec.verdict r.past = none := by simp [Record.verdict, hdeed]
  cases r.circuit.control_case r.now how with
  | opens _ hs e | closes _ hs e | resets _ hs e => apply of_entered hf <;> simp [e, hs]
  | staysOpen hk hs e =>
    subst hk
    apply of_ends hf <;> simp [e, hs, hdeed, Record.breaks, Record.startsTimer]
  | renews hk hs e =>
    subst hk
    apply of_ends hf <;> simp [e, hs, hdeed, Record.breaks, Record.startsCount]
  | staysClosed hk hs e =>
    subst hk
    have hsame : rec.breaks = false := by
      simp [Record.breaks, hf.source, hf.target, hdeed, e]
    exact ht.of_uncounted hf hsame hnone (by simp [e]) (by simp [e])

/-- Passing time leaves the tallies. -/
theorem advance (ht : r.Tallied) (d : Duration) : (r.step settings (.advance d)).Tallied := by
  obtain ⟨rec, hdeed, hf⟩ := follows_step settings (show r.Allows (.advance d) from trivial)
  have hnone : rec.verdict r.past = none := by simp [Record.verdict, hdeed]
  have hcontinues := hf.breaks_eq_false (by simp [hdeed]) rfl
  exact ht.of_uncounted hf hcontinues hnone rfl rfl

end Run.Tallied

/-- The counts and the timer of every reachable run are what its records amount to. -/
theorem Reachable.tallied {r : Run} (hr : Reachable settings r) (hb : r.bumps < 2 ^ 64) :
    r.Tallied := by
  refine hr.induction .fresh ?_ hb
  intro r deed hr ha hb ih
  have hle := Nat.lt_of_le_of_lt (Run.bumps_le_step settings r deed) hb
  cases deed with
  | acquire => exact ih.acquire
  | complete => exact ih.complete (hr.dated hle) (hr.counted hle) ha
  | abandon => exact ih.abandon ha
  | control => exact ih.control
  | advance d => exact ih.advance d

/-! ## When the state changes -/

/-- A list begins with `n` elements of a kind exactly if its first `n` exist and are of the kind. -/
theorem le_length_takeWhile_iff {α : Type} (p : α → Bool) (n : Nat) (l : List α) :
    n ≤ (l.takeWhile p).length ↔ n ≤ l.length ∧ ∀ x ∈ l.take n, p x = true := by
  induction l generalizing n with
  | nil => simp
  | cons x rest ih =>
    cases n with
    | zero => simp
    | succ n =>
      cases hx : p x with
      | false => simp [hx]
      | true => simp [hx, ih]

namespace Run

variable {r : Run} {a : Admission} {failed : Bool}

/-- A closed circuit is opened by the failure that makes the threshold of failures in a row. -/
theorem opens_iff (hd : r.Dated) (hc : r.Counted settings) (ht : r.Tallied)
    (ha : a ∈ r.outstanding) (hs : r.circuit.state = .closed) :
    (r.step settings (.complete a failed)).circuit.state = .opened ↔
      failed = true ∧ r.Current a ∧
        settings.threshold.toNat ≤ (true :: r.verdicts).length ∧
        ∀ v ∈ (true :: r.verdicts).take settings.threshold.toNat, v = true := by
  have hcurrent := hd.current_iff a ha
  have hlast := le_length_takeWhile_iff (· = true) settings.threshold.toNat (true :: r.verdicts)
  simp only [decide_eq_true_eq] at hlast
  -- The failures that head the verdicts, with this one before them, are what the circuit would count.
  rw [← hlast, circuit_complete ha, List.takeWhile_cons_of_pos rfl, List.length_cons,
    ← ht.closed hs, ← failures_countFailure_of_lt (hc.closed hs).2.2]
  cases r.circuit.complete_case settings r.now a.permit failed with
  | stale hg e =>
    rw [e]
    simp [hs, ← hcurrent, hg]
  | succeeds _ hv _ e =>
    rw [e]
    simp [hs, hv]
  | fails _ _ _ hbelow e =>
    rw [e]
    simp [hs, hbelow]
  | trips hg hv _ hreached e =>
    rw [e]
    simp [hv, hcurrent.mp hg, hreached]
  | trialSucceeds _ _ hs' | closes _ _ hs' | reopens _ _ hs' | whileOpen _ hs' =>
    exact absurd (hs.symm.trans hs') (by simp)

/-- A half-open circuit is closed by the success that makes the permitted trials. -/
theorem closes_iff (hd : r.Dated) (hc : r.Counted settings) (ht : r.Tallied)
    (ha : a ∈ r.outstanding) (hs : r.circuit.state = .halfOpen) :
    (r.step settings (.complete a failed)).circuit.state = .closed ↔
      failed = false ∧ r.Current a ∧ r.trialSuccesses + 1 = settings.trials.toNat := by
  have hcurrent := hd.current_iff a ha
  obtain ⟨-, hw, -⟩ := hc.halfOpen hs
  rw [← ht.halfOpen hs, circuit_complete ha]
  -- Each case is a verdict with what it leaves; those of another state are excluded.
  cases r.circuit.complete_case settings r.now a.permit failed with
  | stale hg e =>
    rw [e]
    simp [hs, ← hcurrent, hg]
  | trialSucceeds _ _ _ hmore e =>
    rw [e]
    simp [hs, Nat.ne_of_lt hmore]
  | closes hg hv _ hlast e =>
    have hall : r.circuit.successes + 1 = settings.trials.toNat := by omega
    rw [e]
    simp [hv, hcurrent.mp hg, hall]
  | reopens _ hv _ e =>
    rw [e]
    simp [hv]
  | succeeds _ _ hs' | fails _ _ hs' | trips _ _ hs' | whileOpen _ hs' =>
    exact absurd (hs.symm.trans hs') (by simp)

/-- A call of the half-open period is current exactly if it is a trial. -/
theorem current_iff_isTrial (ht : r.Tallied) (hs : r.circuit.state = .halfOpen) :
    r.Current a ↔ r.IsTrial a := by
  unfold Current IsTrial
  rw [ht.period hs]

/-- A half-open circuit is opened by the failure of a trial. -/
theorem reopens_iff (hd : r.Dated) (ha : a ∈ r.outstanding)
    (hs : r.circuit.state = .halfOpen) :
    (r.step settings (.complete a failed)).circuit.state = .opened ↔
      failed = true ∧ r.Current a := by
  have hcurrent := hd.current_iff a ha
  rw [circuit_complete ha]
  cases r.circuit.complete_case settings r.now a.permit failed with
  | stale hg e =>
    rw [e]
    simp [hs, ← hcurrent, hg]
  | trialSucceeds _ hv _ _ e =>
    rw [e]
    simp [hs, hv]
  | closes _ hv _ _ e =>
    rw [e]
    simp [hv]
  | reopens hg hv _ e =>
    rw [e]
    simp [hv, hcurrent.mp hg]
  | succeeds _ _ hs' | fails _ _ hs' | trips _ _ hs' | whileOpen _ hs' =>
    exact absurd (hs.symm.trans hs') (by simp)

/-- Entering the open state starts the timer, and the records show it. -/
theorem timer_of_opened {deed : Deed} (ha : r.Allows deed) (hs : r.circuit.state ≠ .opened)
    (ht : (r.step settings deed).circuit.state = .opened) :
    (r.step settings deed).circuit.changedAt = r.now ∧
      (r.step settings deed).openedAt = some r.now := by
  obtain ⟨e, -, hf⟩ := follows_step settings ha
  have hne : r.circuit.state ≠ (r.step settings deed).circuit.state := by rwa [ht]
  have henters := hf.enters_of_ne hne
  rw [ht] at henters
  have hstart : e.startsTimer = true := by simp [Record.startsTimer, henters]
  exact ⟨(hf.ends (hf.breaks_of_state_ne hne)).2, hf.openedAt_of_startsTimer hstart⟩

/-- The changes of state that calls bring about by themselves. -/
inductive Moves (settings : Settings) (r : Run) : Deed → CircuitState → CircuitState → Prop
  /-- An open circuit admits its first trial. -/
  | probes (admitted : (r.circuit.acquire settings r.now).1.isSome = true) :
    Moves settings r .acquire .opened .halfOpen
  /-- A failure opens a closed circuit. -/
  | trips {a : Admission} {failed : Bool} (outstanding : a ∈ r.outstanding) :
    Moves settings r (.complete a failed) .closed .opened
  /-- A success closes a half-open circuit. -/
  | closes {a : Admission} {failed : Bool} (outstanding : a ∈ r.outstanding) :
    Moves settings r (.complete a failed) .halfOpen .closed
  /-- A failure opens a half-open circuit. -/
  | reopens {a : Admission} {failed : Bool} (outstanding : a ∈ r.outstanding) :
    Moves settings r (.complete a failed) .halfOpen .opened

/-- A step that is no control leaves the state or is one of these changes. -/
theorem moves_of_state_ne (hc : r.Counted settings) {deed : Deed}
    (hd : ∀ how, deed ≠ .control how)
    (hs : r.circuit.state ≠ (r.step settings deed).circuit.state) :
    r.Moves settings deed r.circuit.state (r.step settings deed).circuit.state := by
  have ha : r.Allows deed := Classical.byContradiction fun h => hs (by rw [step_of_not_allows h])
  cases deed with
  | acquire =>
    rw [circuit_acquire] at hs ⊢
    cases r.circuit.acquire_case settings r.now with
    | passes _ e | joins _ _ e | early _ _ e | full _ _ e => simp [e] at hs
    | probes hs' _ e =>
      rw [e, hs']
      exact .probes (by rw [e]; rfl)
  | complete a failed =>
    rw [circuit_complete ha] at hs ⊢
    cases r.circuit.complete_case settings r.now a.permit failed with
    | stale _ e | succeeds _ _ _ e | trialSucceeds _ _ _ _ e | fails _ _ _ _ e => simp [e] at hs
    | trips _ _ hs' _ e =>
      rw [e, hs']
      exact .trips ha
    | closes _ _ hs' _ e =>
      rw [e, hs']
      exact .closes ha
    | reopens _ _ hs' e =>
      rw [e, hs']
      exact .reopens ha
    -- No permit is older than the opening and as young as it.
    | whileOpen hg hs' => exact absurd hg (hc.generation_ne hs' ha)
  | abandon a =>
    rw [circuit_abandon ha] at hs
    cases r.circuit.release_case a.permit with
    | frees _ _ e | idle _ e => simp [e] at hs
  | control how => exact absurd rfl (hd how)
  | advance d => exact absurd rfl hs

/-- No control leads to the half-open state. -/
theorem state_control_ne_halfOpen {how : Circuit.Control} (hs : r.circuit.state ≠ .halfOpen) :
    (r.step settings (.control how)).circuit.state ≠ .halfOpen := by
  rw [circuit_control]
  cases r.circuit.control_case r.now how with
  | opens _ _ e | staysOpen _ _ e | closes _ _ e | staysClosed _ _ e | resets _ _ e
  | renews _ _ e => simp [e, hs]

end Run

/-- The state of the circuit follows the history of its run. A closed circuit opens exactly at a
failure of a current call that makes the last verdicts since it was closed or reset, as many as the
threshold, all failures. A half-open circuit closes exactly at the success of a current call that makes
the permitted successes of the period, and opens exactly at the failure of a trial, from when its timer
runs. An open circuit becomes half-open only by admitting a call, and nothing else but a control changes
the state. -/
theorem state_follows_history {r : Run} (hr : Reachable settings r) (hb : r.bumps < 2 ^ 64) :
    (∀ a ∈ r.outstanding, ∀ failed, r.circuit.state = .closed →
      ((r.step settings (.complete a failed)).circuit.state = .opened ↔
        failed = true ∧ r.Current a ∧
          settings.threshold.toNat ≤ (failed :: r.verdicts).length ∧
          ∀ v ∈ (failed :: r.verdicts).take settings.threshold.toNat, v = true)) ∧
    (∀ a ∈ r.outstanding, ∀ failed, r.circuit.state = .halfOpen →
      ((r.step settings (.complete a failed)).circuit.state = .closed ↔
        failed = false ∧ r.Current a ∧ r.trialSuccesses + 1 = settings.trials.toNat)) ∧
    (∀ a ∈ r.outstanding, ∀ failed, r.circuit.state = .halfOpen →
      ((r.step settings (.complete a failed)).circuit.state = .opened ↔
        failed = true ∧ r.IsTrial a)) ∧
    (∀ a ∈ r.outstanding, ∀ failed, r.circuit.state = .halfOpen →
      (r.step settings (.complete a failed)).circuit.state = .opened →
        (r.step settings (.complete a failed)).circuit.changedAt = r.now ∧
        (r.step settings (.complete a failed)).openedAt = some r.now) ∧
    (∀ deed, r.circuit.state = .opened →
      (r.step settings deed).circuit.state = .halfOpen →
        deed = .acquire ∧ (r.circuit.acquire settings r.now).1.isSome = true) ∧
    (∀ deed, (∀ how, deed ≠ .control how) →
      r.circuit.state ≠ (r.step settings deed).circuit.state →
        r.Moves settings deed r.circuit.state (r.step settings deed).circuit.state) := by
  have hd := hr.dated hb
  have hc := hr.counted hb
  have ht := hr.tallied hb
  refine ⟨?_, ?_, ?_, ?_, ?_, ?_⟩
  · intro a ha failed hs
    rw [Run.opens_iff hd hc ht ha hs]
    refine and_congr_right fun hv => ?_
    rw [hv]
  · intro a ha failed hs
    exact Run.closes_iff hd hc ht ha hs
  · intro a ha failed hs
    rw [Run.reopens_iff hd ha hs, Run.current_iff_isTrial ht hs]
  · intro a ha failed hs ho
    exact Run.timer_of_opened (show r.Allows (.complete a failed) from ha) (by simp [hs]) ho
  · intro deed hs hh
    -- No control leads there, so that it is one of the moves of calls.
    have hcontrol : ∀ how, deed ≠ .control how := by
      rintro how rfl
      exact Run.state_control_ne_halfOpen (by simp [hs]) hh
    have hmoves := Run.moves_of_state_ne hc hcontrol (by simp [hs, hh])
    rw [hs, hh] at hmoves
    cases hmoves with
    | probes admitted => exact ⟨rfl, admitted⟩
  · intro deed hdeed hne
    exact Run.moves_of_state_ne hc hdeed hne

/-- In the half-open state the failure of an older call does nothing, while the second trial closes the
circuit or opens it again. -/
theorem history_overlapping :
    Reachable twoTrials overlapping ∧ overlapping.bumps < 2 ^ 64 ∧
      (overlapping.step twoTrials (.complete ⟨1, ⟨0⟩⟩ true)).circuit.state = .halfOpen ∧
      ¬ overlapping.IsTrial ⟨1, ⟨0⟩⟩ ∧
      (overlapping.step twoTrials (.complete ⟨5, ⟨1 + 1⟩⟩ false)).circuit.state = .closed ∧
      (overlapping.step twoTrials (.complete ⟨5, ⟨1 + 1⟩⟩ true)).openedAt = some overlapping.now := by
  have hs : overlapping.circuit.state = .halfOpen := by decide
  have hstale : ⟨1, ⟨0⟩⟩ ∈ overlapping.outstanding := by decide
  have htrial : ⟨5, ⟨1 + 1⟩⟩ ∈ overlapping.outstanding := by decide
  obtain ⟨-, hcloses, hopens, htimer, -⟩ :=
    state_follows_history reachable_overlapping bumps_overlapping
  refine ⟨reachable_overlapping, bumps_overlapping, by decide, ?_, ?_, ?_⟩
  · exact fun h => absurd ((hopens _ hstale true hs).mpr ⟨rfl, h⟩) (by decide)
  · exact (hcloses _ htrial false hs).mpr (by decide)
  · exact (htimer _ htrial true hs (by decide)).2

end GuardedHttp.Breaker
