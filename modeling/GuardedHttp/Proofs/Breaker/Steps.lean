import GuardedHttp.Breaker.Circuit

/-!
# What a step of the circuit can do

Each operation of a circuit is a decision followed by at most one change of state. `AcquireCase`,
`CompleteCase`, `ReleaseCase` and `ControlCase` list, for each operation, every way it can go: the
condition under which it goes that way, and the whole result. `acquire_case`, `complete_case`,
`release_case` and `control_case` prove the lists complete, so that what holds of every step is proved
by going through them, and the operations are unfolded nowhere else.

Generations are only compared. `acquire_shift`, `complete_shift`, `release_shift` and `control_shift` say
that no operation can tell how many of them have begun before.
-/

namespace GuardedHttp.Breaker.Circuit

/-- The circuit as it goes over to a state: a new generation, and no trials. -/
def enter (now : Instant) (target : CircuitState) (c : Circuit) : Circuit :=
  { state := target
    published := target
    generation := c.generation + 1
    failures := if target = .closed then 0 else c.failures
    inFlight := 0
    successes := 0
    changedAt := now }

section

variable {now : Instant} {target : CircuitState} {c : Circuit}

/-- A circuit is in the state it enters. -/
@[simp] theorem state_enter : (c.enter now target).state = target := rfl

/-- A circuit publishes the state it enters. -/
@[simp] theorem published_enter : (c.enter now target).published = target := rfl

/-- Entering a state begins the next generation. -/
@[simp] theorem generation_enter : (c.enter now target).generation = c.generation + 1 := rfl

/-- Entering the closed state clears the failures; entering another keeps them. -/
@[simp] theorem failures_enter :
    (c.enter now target).failures = if target = .closed then 0 else c.failures := rfl

/-- No trial is in flight when a state is entered. -/
@[simp] theorem inFlight_enter : (c.enter now target).inFlight = 0 := rfl

/-- No trial has succeeded when a state is entered. -/
@[simp] theorem successes_enter : (c.enter now target).successes = 0 := rfl

end

/-- Going over to the state it is in does nothing. -/
theorem moveTo_of_eq {now : Instant} {target : CircuitState} {c : Circuit} (h : c.state = target) :
    c.moveTo now target = (c, []) := by
  unfold moveTo
  rw [if_pos h]

/-- Going over to another state enters it, and is one event. -/
theorem moveTo_of_ne {now : Instant} {target : CircuitState} {c : Circuit} (h : c.state ≠ target) :
    c.moveTo now target = (c.enter now target, [.transition c.state target]) := by
  unfold moveTo enter
  rw [if_neg h]

/-! ## Asking for a permit -/

/-- The ways in which asking for a permit can go. -/
inductive AcquireCase (settings : Settings) (now : Instant) (c : Circuit) : Prop
  /-- A closed circuit admits the call. -/
  | passes (state : c.state = .closed)
      (result : c.acquire settings now = (some ⟨c.generation⟩, c, [.permitted .closed]))
  /-- An open circuit that has waited for its time admits the call as its first trial. -/
  | probes (state : c.state = .opened) (waited : settings.openDuration ≤ now.since c.changedAt)
      (result : c.acquire settings now =
        (some ⟨c.generation + 1⟩, { c.enter now .halfOpen with inFlight := 1 },
          [.transition .opened .halfOpen, .permitted .halfOpen]))
  /-- A half-open circuit with room admits the call as one more trial. -/
  | joins (state : c.state = .halfOpen) (room : c.inFlight + c.successes < settings.trials.toNat)
      (result : c.acquire settings now =
        (some ⟨c.generation⟩, { c with inFlight := c.inFlight + 1 }, [.permitted .halfOpen]))
  /-- An open circuit rejects the call before its time. -/
  | early (state : c.state = .opened) (waits : ¬ settings.openDuration ≤ now.since c.changedAt)
      (result : c.acquire settings now = (none, c, [.rejected]))
  /-- A half-open circuit without room rejects the call. -/
  | full (state : c.state = .halfOpen)
      (noRoom : ¬ c.inFlight + c.successes < settings.trials.toNat)
      (result : c.acquire settings now = (none, c, [.rejected]))

/-- Asking for a permit goes one of the ways listed. -/
theorem acquire_case (settings : Settings) (now : Instant) (c : Circuit) :
    AcquireCase settings now c := by
  cases h : c.state with
  | closed => exact .passes h (by simp [acquire, h, permit])
  | opened =>
    by_cases hw : settings.openDuration ≤ now.since c.changedAt
    · have hm : c.moveTo now .halfOpen = (c.enter now .halfOpen, [.transition c.state .halfOpen]) :=
        moveTo_of_ne (by simp [h])
      exact .probes h hw (by simp [acquire, h, hw, hm, permit, enter])
    · exact .early h hw (by simp [acquire, h, hw])
  | halfOpen =>
    by_cases hr : c.inFlight + c.successes < settings.trials.toNat
    · exact .joins h hr (by simp [acquire, h, hr, permit])
    · exact .full h hr (by simp [acquire, h, hr])

/-- A permit is of the generation in which it leaves the circuit. -/
theorem generation_of_acquire {settings : Settings} {now : Instant} {c : Circuit} {p : Permit}
    (h : (c.acquire settings now).1 = some p) :
    p.generation = (c.acquire settings now).2.1.generation := by
  cases c.acquire_case settings now with
  | passes _ e | probes _ _ e | joins _ _ e =>
    rw [e] at h ⊢
    cases h
    rfl
  | early _ _ e | full _ _ e =>
    rw [e] at h
    cases h

/-! ## The end of a call -/

/-- The circuit with one more failure in a row. -/
def countFailure (c : Circuit) : Circuit := { c with failures := min (c.failures + 1) countLimit }

/-- A failure is counted up to the limit of the counter. -/
theorem failures_countFailure {c : Circuit} :
    c.countFailure.failures = min (c.failures + 1) countLimit := rfl

/-- Counting a failure leaves the state. -/
@[simp] theorem state_countFailure {c : Circuit} : c.countFailure.state = c.state := rfl

/-- Counting a failure leaves the published state. -/
@[simp] theorem published_countFailure {c : Circuit} : c.countFailure.published = c.published := rfl

/-- Counting a failure leaves the trials in flight. -/
@[simp] theorem inFlight_countFailure {c : Circuit} : c.countFailure.inFlight = c.inFlight := rfl

/-- Counting a failure leaves the successes. -/
@[simp] theorem successes_countFailure {c : Circuit} : c.countFailure.successes = c.successes := rfl

/-- The ways in which the end of a call can go. -/
inductive CompleteCase (settings : Settings) (now : Instant) (p : Permit) (failed : Bool)
    (c : Circuit) : Prop
  /-- The permit is of an older generation. -/
  | stale (generation : p.generation ≠ c.generation)
      (result : c.complete settings now p failed = (c, []))
  /-- A success in a closed circuit ends the failures in a row. -/
  | succeeds (generation : p.generation = c.generation) (verdict : failed = false)
      (state : c.state = .closed)
      (result : c.complete settings now p failed = ({ c with failures := 0 }, [.success .closed]))
  /-- A trial succeeds and more successes are needed. -/
  | trialSucceeds (generation : p.generation = c.generation) (verdict : failed = false)
      (state : c.state = .halfOpen) (more : c.successes + 1 < settings.trials.toNat)
      (result : c.complete settings now p failed =
        ({ c with inFlight := c.inFlight - 1, successes := c.successes + 1 }, [.success .halfOpen]))
  /-- The last trial that is needed succeeds. -/
  | closes (generation : p.generation = c.generation) (verdict : failed = false)
      (state : c.state = .halfOpen) (last : settings.trials.toNat ≤ c.successes + 1)
      (result : c.complete settings now p failed =
        (c.enter now .closed, [.success .halfOpen, .transition .halfOpen .closed]))
  /-- A failure in a closed circuit that stays below the threshold. -/
  | fails (generation : p.generation = c.generation) (verdict : failed = true)
      (state : c.state = .closed) (below : ¬ settings.threshold.toNat ≤ c.countFailure.failures)
      (result : c.complete settings now p failed =
        (c.countFailure, [.failure .closed c.countFailure.failures]))
  /-- The failure that reaches the threshold. -/
  | trips (generation : p.generation = c.generation) (verdict : failed = true)
      (state : c.state = .closed) (reached : settings.threshold.toNat ≤ c.countFailure.failures)
      (result : c.complete settings now p failed =
        (c.countFailure.enter now .opened,
          [.failure .closed c.countFailure.failures, .transition .closed .opened]))
  /-- A trial fails. -/
  | reopens (generation : p.generation = c.generation) (verdict : failed = true)
      (state : c.state = .halfOpen)
      (result : c.complete settings now p failed =
        (c.countFailure.enter now .opened,
          [.failure .halfOpen c.countFailure.failures, .transition .halfOpen .opened]))
  /-- A call of the current generation ends while the circuit is open: it is counted, no more. -/
  | whileOpen (generation : p.generation = c.generation) (state : c.state = .opened)
      (result : c.complete settings now p failed =
        if failed then (c.countFailure, [.failure .opened c.countFailure.failures])
        else (c, [.success .opened]))

/-- The end of a call goes one of the ways listed. -/
theorem complete_case (settings : Settings) (now : Instant) (p : Permit) (failed : Bool)
    (c : Circuit) : CompleteCase settings now p failed c := by
  by_cases hg : p.generation ≠ c.generation
  · exact .stale hg (by unfold complete; rw [if_pos hg])
  have hrec : c.complete settings now p failed =
      if failed then c.fail settings now else c.succeed settings now := by
    unfold complete
    rw [if_neg hg]
  replace hg : p.generation = c.generation := Decidable.not_not.mp hg
  -- From here on the call counts, and the state decides what its outcome does.
  cases hs : c.state with
  | opened =>
    refine .whileOpen hg hs ?_
    rw [hrec]
    cases failed <;> simp [fail, trips, succeed, countFailure, hs]
  | closed =>
    cases hf : failed with
    | false => exact .succeeds hg rfl hs (by rw [← hf, hrec, hf]; simp [succeed, hs])
    | true =>
      by_cases ht : settings.threshold.toNat ≤ c.countFailure.failures
      · refine .trips hg rfl hs ht ?_
        rw [← hf, hrec, hf]
        simp only [countFailure] at ht
        simp [fail, trips, hs, ht, countFailure, moveTo, enter]
      · refine .fails hg rfl hs ht ?_
        rw [← hf, hrec, hf]
        simp only [countFailure] at ht
        simp [fail, trips, hs, ht, countFailure]
  | halfOpen =>
    cases hf : failed with
    | false =>
      by_cases hl : settings.trials.toNat ≤ c.successes + 1
      · refine .closes hg rfl hs hl ?_
        rw [← hf, hrec, hf]
        simp [succeed, hs, hl, moveTo, enter]
      · refine .trialSucceeds hg rfl hs (Nat.lt_of_not_le hl) ?_
        rw [← hf, hrec, hf]
        simp [succeed, hs, hl]
    | true =>
      refine .reopens hg rfl hs ?_
      rw [← hf, hrec, hf]
      simp [fail, trips, hs, countFailure, moveTo, enter]

/-! ## Giving a call up -/

/-- The ways in which giving a call up can go. -/
inductive ReleaseCase (p : Permit) (c : Circuit) : Prop
  /-- A trial of the current generation is free again. -/
  | frees (generation : p.generation = c.generation) (state : c.state = .halfOpen)
      (result : c.release p = { c with inFlight := c.inFlight - 1 })
  /-- The call was no trial of the current generation. -/
  | idle (none : ¬ (p.generation = c.generation ∧ c.state = .halfOpen)) (result : c.release p = c)

/-- Giving a permit back goes one of the ways listed. -/
theorem release_case (p : Permit) (c : Circuit) : ReleaseCase p c := by
  by_cases h : p.generation = c.generation ∧ c.state = .halfOpen
  · exact .frees h.1 h.2 (by unfold release; rw [if_pos h])
  · exact .idle h (by unfold release; rw [if_neg h])

/-! ## Control by hand -/

/-- The ways in which control by hand can go. -/
inductive ControlCase (now : Instant) (how : Control) (c : Circuit) : Prop
  /-- It opens. -/
  | opens (command : how = .forceOpen) (state : c.state ≠ .opened)
      (result : c.control now how = (c.enter now .opened, [.transition c.state .opened]))
  /-- It stays open from now. -/
  | staysOpen (command : how = .forceOpen) (state : c.state = .opened)
      (result : c.control now how =
        ({ c with generation := c.generation + 1, changedAt := now }, []))
  /-- It closes. -/
  | closes (command : how = .forceClosed) (state : c.state ≠ .closed)
      (result : c.control now how = (c.enter now .closed, [.transition c.state .closed]))
  /-- It is closed already. -/
  | staysClosed (command : how = .forceClosed) (state : c.state = .closed)
      (result : c.control now how = (c, []))
  /-- It closes and is as good as new. -/
  | resets (command : how = .reset) (state : c.state ≠ .closed)
      (result : c.control now how =
        ({ c.enter now .closed with generation := c.generation + 1 + 1 },
          [.transition c.state .closed]))
  /-- It was closed and is as good as new. -/
  | renews (command : how = .reset) (state : c.state = .closed)
      (result : c.control now how =
        ({ c with failures := 0, generation := c.generation + 1, changedAt := now }, []))

/-- A control goes one of the ways listed. -/
theorem control_case (now : Instant) (how : Control) (c : Circuit) : ControlCase now how c := by
  cases how with
  | forceOpen =>
    by_cases h : c.state = .opened
    · exact .staysOpen rfl h (by simp [control, h])
    · exact .opens rfl h (by simp [control, h, moveTo_of_ne])
  | forceClosed =>
    by_cases h : c.state = .closed
    · exact .staysClosed rfl h (by simp [control, moveTo_of_eq h])
    · exact .closes rfl h (by simp [control, moveTo_of_ne h])
  | reset =>
    by_cases h : c.state = .closed
    · exact .renews rfl h (by simp [control, moveTo_of_eq h])
    · exact .resets rfl h (by simp [control, moveTo_of_ne h, enter])

/-! ## Whatever came before

A circuit only ever compares generations, so that it would do the same if the same number had been added
to its own and to those of all permits. -/

/-- The circuit as it would be if more generations had begun before. -/
def shift (k : UInt64) (c : Circuit) : Circuit := { c with generation := c.generation + k }

/-- The permit as it would be if more generations had begun before. -/
def shiftPermit (k : UInt64) (p : Permit) : Permit := ⟨p.generation + k⟩

/-- The step as it would be if more generations had begun before. -/
def Step.shift (k : UInt64) (s : Step) : Step := (s.1.shift k, s.2)

section

variable {k : UInt64} {settings : Settings} {now : Instant} {c : Circuit} {p : Permit} {failed : Bool}

/-- Without more generations before, a circuit is as it was. -/
@[simp] theorem shift_zero : c.shift 0 = c := by simp [shift]

/-- Without more generations before, a permit is as it was. -/
@[simp] theorem shiftPermit_zero : shiftPermit 0 p = p := by simp [shiftPermit]

/-- A permit is of the generation of the circuit whatever came before. -/
theorem generation_shift_eq_iff :
    (shiftPermit k p).generation = (c.shift k).generation ↔ p.generation = c.generation :=
  UInt64.add_left_inj k

/-- A state is entered alike whatever came before. -/
theorem enter_shift {target : CircuitState} :
    (c.shift k).enter now target = (c.enter now target).shift k := by
  have hg : c.generation + k + 1 = c.generation + 1 + k := by ac_rfl
  simp only [shift, enter, hg]

/-- A circuit goes over to a state alike whatever came before. -/
theorem moveTo_shift {target : CircuitState} :
    (c.shift k).moveTo now target = (c.moveTo now target).shift k := by
  by_cases h : c.state = target
  · rw [moveTo_of_eq h, moveTo_of_eq (show (c.shift k).state = target from h)]
    rfl
  · rw [moveTo_of_ne h, moveTo_of_ne (show (c.shift k).state ≠ target from h), enter_shift]
    rfl

/-- The same callers get permits whatever came before, and the permits are of generations that correspond. -/
theorem acquire_shift : (c.shift k).acquire settings now =
    ((c.acquire settings now).1.map (shiftPermit k), (c.acquire settings now).2.shift k) := by
  have hs : (c.shift k).state = c.state := rfl
  unfold acquire
  rw [hs]
  cases c.state with
  | closed => rfl
  | opened =>
    simp only [moveTo_shift]
    show (if settings.openDuration ≤ now.since c.changedAt then _ else _) = _
    split <;> rfl
  | halfOpen =>
    show (if c.inFlight + c.successes < settings.trials.toNat then _ else _) = _
    simp only
    split <;> rfl

/-- A success counts alike whatever came before. -/
theorem succeed_shift : (c.shift k).succeed settings now = (c.succeed settings now).shift k := by
  have hs : (c.shift k).state = c.state := rfl
  unfold succeed
  rw [hs]
  cases c.state with
  | closed | opened => rfl
  | halfOpen =>
    have hm := @moveTo_shift k now
      { c with state := .halfOpen, inFlight := c.inFlight - 1, successes := c.successes + 1 } .closed
    show (if settings.trials.toNat ≤ c.successes + 1 then _ else _) = _
    simp only
    split
    · exact congrArg (fun s : Step => (s.1, [Event.success .halfOpen] ++ s.2)) hm
    · rfl

/-- A failure counts alike whatever came before. -/
theorem fail_shift : (c.shift k).fail settings now = (c.fail settings now).shift k := by
  have hm := @moveTo_shift k now c.countFailure .opened
  unfold fail
  show (if c.countFailure.trips settings then _ else _) =
    Step.shift k (if c.countFailure.trips settings then _ else _)
  split
  · exact congrArg (fun s : Step => (s.1, [Event.failure c.state c.countFailure.failures] ++ s.2))
      hm
  · rfl

/-- The end of a call counts alike whatever came before. -/
theorem complete_shift : (c.shift k).complete settings now (shiftPermit k p) failed =
    (c.complete settings now p failed).shift k := by
  unfold complete
  simp only [succeed_shift, fail_shift, ne_eq, generation_shift_eq_iff]
  split
  · rfl
  · split <;> rfl

/-- A permit is given back alike whatever came before. -/
theorem release_shift :
    (c.shift k).release (shiftPermit k p) = (c.release p).shift k := by
  have hs : (c.shift k).state = c.state := rfl
  unfold release
  simp only [generation_shift_eq_iff, hs]
  split <;> rfl

/-- A control works alike whatever came before. -/
theorem control_shift {how : Control} :
    (c.shift k).control now how = (c.control now how).shift k := by
  have hs : (c.shift k).state = c.state := rfl
  have hg (g : UInt64) : g + k + 1 = g + 1 + k := by ac_rfl
  unfold control
  cases how with
  | forceOpen =>
    simp only [hs]
    split
    · simp only [shift, Step.shift, hg]
    · exact moveTo_shift
  | forceClosed => exact moveTo_shift
  | reset =>
    simp only [moveTo_shift, Step.shift]
    simp only [shift, hg]

end

end GuardedHttp.Breaker.Circuit
