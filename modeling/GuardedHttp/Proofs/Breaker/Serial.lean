import GuardedHttp.Proofs.Breaker.Delivery
import GuardedHttp.Proofs.Breaker.Representation

/-!
# Calls that do not overlap

A breaker whose calls are made one after another needs neither permits nor generations. `Serial` is all
that it has to remember: the failures in a row while it is closed, the moment since which it is open, the
trials that have succeeded while it is half-open. `Serial.Describes` says that a circuit stands where this
machine stands; asking for a permit and ending the call that got it keep them together
(`acquire_of_ask_eq_some`, `acquire_of_ask_eq_none`, `complete_describes`).

The second part is about what a breaker without listeners reports of such calls.
-/

namespace GuardedHttp.Breaker

/-- The outcome of a call that an event records, as it is reported. -/
def Event.counted : Event → Option String
  | transition .. | permitted _ => none
  | rejected => some "rejected"
  | success _ => some "success"
  | failure .. => some "failure"

/-- What a breaker remembers of calls that do not overlap. -/
inductive Serial where
  /-- Calls pass, after so many failures in a row. -/
  | closed (failures : Nat)
  /-- Calls have been rejected since a moment. -/
  | opened (since : Instant)
  /-- Calls pass as trials, of which so many have succeeded. -/
  | halfOpen (successes : Nat)
deriving DecidableEq

namespace Serial

/-- Where the machine stands while a call runs that begins now, if it admits the call. -/
def ask (settings : Settings) (now : Instant) : Serial → Option Serial
  | closed failures => some (closed failures)
  | opened since => if settings.openDuration ≤ now.since since then some (halfOpen 0) else none
  | halfOpen successes => some (halfOpen successes)

/-- Where it stands once the call has ended. -/
def record (settings : Settings) (ended : Instant) (failed : Bool) : Serial → Serial
  | closed failures =>
    if !failed then closed 0
    else if settings.threshold.toNat ≤ failures + 1 then opened ended
    else closed (failures + 1)
  | opened since => opened since
  | halfOpen successes =>
    if failed then opened ended
    else if settings.trials.toNat ≤ successes + 1 then closed 0
    else halfOpen (successes + 1)

/-- A circuit stands where the machine stands, with so many calls running. -/
def Describes (settings : Settings) (running : Nat) (c : Circuit) : Serial → Prop
  | closed failures =>
    c.state = .closed ∧ c.failures = failures ∧ failures < settings.threshold.toNat
  | opened since => c.state = .opened ∧ c.changedAt = since ∧ running = 0
  | halfOpen successes =>
    c.state = .halfOpen ∧ c.successes = successes ∧ successes < settings.trials.toNat ∧
      c.inFlight = running

variable {settings : Settings} {now : Instant} {c : Circuit} {m later : Serial} {p : Permit}

/-- A new circuit is described by the closed machine without failures. -/
theorem describes_new : (closed 0).Describes settings 0 (.new now) :=
  ⟨rfl, rfl, threshold_pos settings⟩

/-- A machine is closed during a call if it was so before. -/
theorem eq_closed_of_ask {failures : Nat} (h : m.ask settings now = some (closed failures)) :
    m = closed failures := by
  cases m with
  | closed => exact Option.some.inj h
  | opened since => simp [ask] at h
  | halfOpen => simp [ask] at h

/-- A machine is closed after a success with no failures, or after one more failure than before. -/
theorem record_eq_closed {failed : Bool} {failures : Nat}
    (h : m.record settings now failed = closed failures) :
    (failed = false ∧ failures = 0) ∨
      failed = true ∧ ∃ before, m = closed before ∧ failures = before + 1 := by
  unfold record at h
  -- The count is of failures in a row, and starts anew with each success and each recovery.
  cases m with
  | closed before =>
    cases failed with
    | false =>
      cases h
      exact .inl ⟨rfl, rfl⟩
    | true =>
      simp only [Bool.not_true, Bool.false_eq_true, if_false] at h
      split at h
      · cases h
      · cases h
        exact .inr ⟨rfl, before, rfl, rfl⟩
  | opened => cases h
  | halfOpen successes =>
    cases failed with
    | true => cases h
    | false =>
      simp only [Bool.false_eq_true, if_false] at h
      split at h
      · cases h
        exact .inl ⟨rfl, rfl⟩
      · cases h

/-- No call runs while the machine is open. -/
theorem ne_opened_of_ask (h : m.ask settings now = some later) (since : Instant) :
    later ≠ opened since := by
  rintro rfl
  cases m <;> simp [ask] at h

/-- A call that succeeds leaves no circuit open, and no failures in a closed one. -/
theorem describes_record_false (hask : m.ask settings now = some later) {ended : Instant}
    (h : (later.record settings ended false).Describes settings 0 c) :
    c.state ≠ .opened ∧ (c.state = .closed → c.failures = 0) := by
  cases later with
  | closed failures => exact ⟨by simp [h.1], fun _ => h.2.1⟩
  | opened since => exact absurd rfl (ne_opened_of_ask hask since)
  | halfOpen successes =>
    simp only [record, Bool.false_eq_true, if_false] at h
    split at h
    · exact ⟨by simp [h.1], fun _ => h.2.1⟩
    · exact ⟨by simp [h.1], fun hs => by rw [h.1] at hs; cases hs⟩

/-- A machine that does not admit a call stands with a circuit that rejects it. -/
theorem acquire_of_ask_eq_none (h : m.Describes settings 0 c) (hask : m.ask settings now = none) :
    c.acquire settings now = (none, c, [.rejected]) := by
  cases m with
  | closed | halfOpen => cases hask
  | opened since =>
    obtain ⟨hs, rfl, -⟩ := h
    have hwaits : ¬ settings.openDuration ≤ now.since c.changedAt := by simpa [ask] using hask
    cases c.acquire_case settings now with
    | passes hs' | joins hs' | full hs' => rw [hs] at hs'; cases hs'
    | probes _ hwaited => exact absurd hwaited hwaits
    | early _ _ e => exact e

/-- A machine that admits a call stands with a circuit that gives it a permit. -/
theorem acquire_of_ask_eq_some (h : m.Describes settings 0 c) (hask : m.ask settings now = some later) :
    ∃ p admitted events, c.acquire settings now = (some p, admitted, events) ∧
      p.generation = admitted.generation ∧ later.Describes settings 1 admitted ∧
      events.filterMap Event.counted = [] := by
  cases m with
  | closed failures =>
    obtain ⟨hs, hfailures, hbelow⟩ := h
    cases hask
    cases c.acquire_case settings now with
    | passes _ e => exact ⟨_, _, _, e, rfl, ⟨hs, hfailures, hbelow⟩, rfl⟩
    | probes hs' | early hs' | joins hs' | full hs' => rw [hs] at hs'; cases hs'
  | opened since =>
    obtain ⟨hs, rfl, -⟩ := h
    obtain ⟨hwaited, rfl⟩ : settings.openDuration ≤ now.since c.changedAt ∧ halfOpen 0 = later := by
      simpa [ask] using hask
    cases c.acquire_case settings now with
    | passes hs' | joins hs' | full hs' => rw [hs] at hs'; cases hs'
    | probes _ _ e => exact ⟨_, _, _, e, rfl, ⟨rfl, rfl, trials_pos settings, rfl⟩, rfl⟩
    | early _ hwaits => exact absurd hwaited hwaits
  | halfOpen successes =>
    obtain ⟨hs, hsuccesses, hmore, hrunning⟩ := h
    cases hask
    -- No other trial is running, so that there is room for this one.
    have hroom : c.inFlight + c.successes < settings.trials.toNat := by omega
    cases c.acquire_case settings now with
    | passes hs' | probes hs' | early hs' => rw [hs] at hs'; cases hs'
    | joins _ _ e =>
      exact ⟨_, _, _, e, rfl, ⟨hs, hsuccesses, hmore, congrArg (· + 1) hrunning⟩, rfl⟩
    | full _ hfull => exact absurd hroom hfull

/-- The end of the running call takes machine and circuit the same way, and counts once. -/
theorem complete_describes (now : Instant) (failed : Bool) (h : m.Describes settings 1 c)
    (hp : p.generation = c.generation) :
    (m.record settings now failed).Describes settings 0 (c.complete settings now p failed).1 ∧
      (c.complete settings now p failed).2.filterMap Event.counted =
        [if failed then "failure" else "success"] := by
  cases m with
  | closed failures =>
    obtain ⟨hs, rfl, hbelow⟩ := h
    have hcount := failures_countFailure_of_lt hbelow
    cases c.complete_case settings now p failed with
    | stale hstale => exact absurd hp hstale
    | succeeds _ hv _ e =>
      subst hv
      rw [e]
      exact ⟨⟨hs, rfl, threshold_pos settings⟩, rfl⟩
    -- Below the threshold the count does not saturate, so that it is the machine's.
    | fails _ hv _ hless e =>
      subst hv
      rw [hcount] at hless
      rw [e, hcount]
      simp only [record, Bool.not_true, Bool.false_eq_true, if_false, if_neg hless]
      exact ⟨⟨hs, hcount, Nat.lt_of_not_le hless⟩, rfl⟩
    | trips _ hv _ hreached e =>
      subst hv
      rw [hcount] at hreached
      rw [e]
      simp only [record, Bool.not_true, Bool.false_eq_true, if_false, if_pos hreached]
      exact ⟨⟨rfl, rfl, rfl⟩, rfl⟩
    | trialSucceeds _ _ hs' | closes _ _ hs' | reopens _ _ hs' | whileOpen _ hs' =>
      rw [hs] at hs'
      cases hs'
  | opened since =>
    -- No call runs while the machine is open.
    obtain ⟨-, -, hnone⟩ := h
    cases hnone
  | halfOpen successes =>
    obtain ⟨hs, rfl, hmore, hrunning⟩ := h
    cases c.complete_case settings now p failed with
    | stale hstale => exact absurd hp hstale
    | trialSucceeds _ hv _ hless e =>
      subst hv
      rw [e]
      simp only [record, Bool.false_eq_true, if_false, if_neg (Nat.not_le_of_lt hless)]
      exact ⟨⟨hs, rfl, hless, by simp [hrunning]⟩, rfl⟩
    | closes _ hv _ hlast e =>
      subst hv
      rw [e]
      simp only [record, Bool.false_eq_true, if_false, if_pos hlast]
      exact ⟨⟨rfl, rfl, threshold_pos settings⟩, rfl⟩
    | reopens _ hv _ e =>
      subst hv
      rw [e]
      exact ⟨⟨rfl, rfl, rfl⟩, rfl⟩
    | succeeds _ _ hs' | fails _ _ hs' | trips _ _ hs' | whileOpen _ hs' =>
      rw [hs] at hs'
      cases hs'

end Serial

/-! ## What is reported -/

/-- The series of the calls of the breaker of a name that came to an outcome. -/
def callsSeries (name outcome : String) : Series :=
  ⟨"circuitbreaker_calls_total", [("circuitbreaker", name), ("outcome", outcome)]⟩

variable {b : Breaker} {now : Instant}

/-- An event counts in the series of its outcome alone. -/
theorem countOf_emissions_event (name outcome : String) (e : Event) :
    countOf (callsSeries name outcome) (e.emissions name) = e.counted.toList.count outcome := by
  cases e <;>
    simp [countOf, callsSeries, Event.emissions, Emission.count, Emission.log, Event.counted,
      List.count_singleton]

/-- The calls that a breaker reports are those of its events. -/
theorem countOf_emissions (name outcome : String) (events : List Event) :
    countOf (callsSeries name outcome) (events.flatMap (Event.emissions name)) =
      (events.filterMap Event.counted).count outcome := by
  induction events with
  | nil => rfl
  | cons e rest ih =>
    rw [List.flatMap_cons, countOf_append, ih, countOf_emissions_event, List.filterMap_cons]
    cases e.counted with
    | none => simp
    | some label => simp [List.count_cons, Nat.add_comm]

/-- Without listeners, a step of the circuit is only recorded and reported. -/
theorem update_of_reactors_eq_nil (hb : b.reactors = []) (hd : b.depth ≠ 0) (step : Circuit.Step)
    (u : Update) : b.update now step u = u.take b.settings.name step := by
  obtain ⟨depth, hdepth⟩ := Nat.exists_eq_succ_of_ne_zero hd
  unfold update
  rw [hdepth]
  unfold deliver Listeners.emitAll Listeners.emit audience
  simp [hb]

section

variable (hb : b.reactors = []) (hd : b.depth ≠ 0) (now : Instant) (c : Circuit)

include hb hd

/-- Without listeners, asking for a permit takes the step of the circuit and reports its calls. -/
theorem acquire_spec : (b.acquire now c).1 = (c.acquire b.settings now).1 ∧
    (b.acquire now c).2.circuit = (c.acquire b.settings now).2.1 ∧
    ∀ outcome, countOf (callsSeries b.settings.name outcome) (b.acquire now c).2.emitted =
      ((c.acquire b.settings now).2.2.filterMap Event.counted).count outcome := by
  unfold acquire
  dsimp only
  rw [update_of_reactors_eq_nil hb hd]
  refine ⟨rfl, rfl, fun outcome => ?_⟩
  rw [← countOf_emissions, countOf_append]
  rfl

/-- Without listeners, the end of a call takes the step of the circuit and reports its calls. -/
theorem complete_spec (p : Permit) (failed : Bool) :
    (b.complete now p failed c).circuit = (c.complete b.settings now p failed).1 ∧
    ∀ outcome, countOf (callsSeries b.settings.name outcome) (b.complete now p failed c).emitted =
      ((c.complete b.settings now p failed).2.filterMap Event.counted).count outcome := by
  unfold complete
  rw [update_of_reactors_eq_nil hb hd]
  refine ⟨rfl, fun outcome => ?_⟩
  rw [← countOf_emissions]
  rfl

end

end GuardedHttp.Breaker
