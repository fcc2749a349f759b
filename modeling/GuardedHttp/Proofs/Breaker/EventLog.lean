import GuardedHttp.Proofs.Breaker.Generations
import GuardedHttp.Proofs.Breaker.Sessions
import GuardedHttp.Proofs.Telemetry

/-!
# The event log of a breaker

The events of a breaker are its public history. `Record.Told` lists what one step can add to it, and
`Reachable.told` proves the list complete; the rest of the module reads the log without looking at the
circuit again.

A log is read from a state: a change of state leads to its target, and every other event leaves the state
(`Event.lead`). `Event.Fits` is what an event must agree with, the state in which it happens and the event
after it, and `Legal` is a log whose events all fit. What a step adds is legal from the state before it
and leads to the state after it (`Record.Told.legal`), so that the whole log is legal from the closed
state and leads to the state of the circuit (`Reachable.legal`). The level of the state metric is the code
of the last target (`reading_stateSeries`).

Main statement: `event_log_legal`.
-/

namespace GuardedHttp.Breaker

variable {settings : Settings}

/-! ## Reading a log -/

/-- The changes of state that a breaker can make. -/
inductive Change : CircuitState → CircuitState → Prop
  /-- Failures open the circuit, or it is opened by hand. -/
  | trips : Change .closed .opened
  /-- An open circuit admits its first trial. -/
  | probes : Change .opened .halfOpen
  /-- A trial fails, or the circuit is opened by hand. -/
  | reopens : Change .halfOpen .opened
  /-- The trials have succeeded, or the circuit is closed by hand. -/
  | recovers : Change .halfOpen .closed
  /-- An open circuit is closed by hand. -/
  | closes : Change .opened .closed

/-- A change leads to another state. -/
theorem Change.ne {source target : CircuitState} (h : Change source target) : source ≠ target := by
  cases h <;> simp

/-- Every other state but the half-open one can be gone to. -/
theorem Change.of_ne {source target : CircuitState} (hne : source ≠ target)
    (hcalm : target ≠ .halfOpen) : Change source target := by
  cases source <;> cases target <;> first | contradiction | constructor

namespace Event

/-- The change of state that an event reports. -/
def move? : Event → Option (CircuitState × CircuitState)
  | transition source target => some (source, target)
  | permitted _ | rejected | success _ | failure .. => none

/-- Whether a call has failed, and the state in which this was recorded. -/
def verdict? : Event → Option (Bool × CircuitState)
  | success state => some (false, state)
  | failure state _ => some (true, state)
  | transition .. | permitted _ | rejected => none

/-- The state that an event leads to. -/
def lead (state : CircuitState) (e : Event) : CircuitState := e.move?.elim state (·.2)

/-- An event agrees with the state in which it happens and with what happens after it. A call is admitted
at once when an open circuit becomes half-open. -/
def Fits (state : CircuitState) (rest : List Event) : Event → Prop
  | transition source target => source = state ∧ Change source target ∧
      (target = .halfOpen → rest.head? = some (permitted .halfOpen))
  | permitted s => s = state ∧ state ≠ .opened
  | rejected => state ≠ .closed
  | success s | failure s _ => s = state

/-- What follows later makes no difference to an event that fits. -/
theorem Fits.append {state : CircuitState} {e : Event} {rest : List Event} (h : e.Fits state rest)
    (more : List Event) : e.Fits state (rest ++ more) := by
  cases e with
  | transition source target =>
    obtain ⟨hsource, hchange, hnext⟩ := h
    refine ⟨hsource, hchange, fun ht => ?_⟩
    rw [List.head?_append, hnext ht]
    rfl
  | permitted s => exact h
  | rejected => exact h
  | success s => exact h
  | failure s n => exact h

/-- A verdict reports no change of state. -/
theorem move?_of_verdict? {e : Event} {failed : Bool} {s : CircuitState}
    (h : e.verdict? = some (failed, s)) : e.move? = none := by
  cases e with
  | transition | permitted | rejected => cases h
  | success | failure => rfl

/-- A verdict leaves the state. -/
theorem lead_of_verdict? {e : Event} {failed : Bool} {s state : CircuitState}
    (h : e.verdict? = some (failed, s)) : e.lead state = state := by
  unfold lead
  rw [move?_of_verdict? h]
  rfl

/-- A verdict fits the state that it carries. -/
theorem fits_of_verdict? {e : Event} {failed : Bool} {s : CircuitState}
    (h : e.verdict? = some (failed, s)) (rest : List Event) : e.Fits s rest := by
  cases e with
  | transition | permitted | rejected => cases h
  | success | failure => cases h; rfl

end Event

/-- The changes of state in a log. -/
def moves (log : List Event) : List (CircuitState × CircuitState) := log.filterMap Event.move?

/-- The state that a log leads to. -/
def leads (state : CircuitState) (log : List Event) : CircuitState := log.foldl Event.lead state

/-- All events of a log fit. -/
def Legal : CircuitState → List Event → Prop
  | _, [] => True
  | state, e :: rest => e.Fits state rest ∧ Legal (e.lead state) rest

/-- The changes of a log are those of its parts. -/
theorem moves_append (log more : List Event) : moves (log ++ more) = moves log ++ moves more :=
  List.filterMap_append

/-- An event reports one change at most. -/
theorem moves_singleton (e : Event) : moves [e] = e.move?.toList := by
  cases e <;> rfl

/-- An event without a change adds none to a log. -/
theorem moves_cons_of_none {e : Event} (h : e.move? = none) (rest : List Event) :
    moves (e :: rest) = moves rest := List.filterMap_cons_none h

/-- A log leads on from where an earlier one led to. -/
theorem leads_append (state : CircuitState) (log more : List Event) :
    leads state (log ++ more) = leads (leads state log) more := List.foldl_append

/-- A log leads to its last target, if it has one. -/
theorem leads_eq_elim (state : CircuitState) (log : List Event) :
    leads state log = (moves log).getLast?.elim state (·.2) := by
  induction log using List.reverseRecOn with
  | nil => rfl
  | append_singleton log e ih =>
    rw [leads_append, ih, moves_append, moves_singleton]
    cases h : e.move? <;> simp [leads, Event.lead, h]

/-- In a legal log every change of state starts from the target of the one before. -/
theorem Legal.chain {state : CircuitState} {log : List Event} (h : Legal state log) :
    state :: (moves log).map Prod.snd = (moves log).map Prod.fst ++ [leads state log] := by
  induction log generalizing state with
  | nil => rfl
  | cons e rest ih =>
    obtain ⟨hfits, hrest⟩ := h
    have hchain := ih hrest
    cases e with
    | transition source target =>
      obtain ⟨rfl, -, -⟩ := hfits
      exact congrArg (source :: ·) hchain
    | permitted | rejected | success | failure => exact hchain

/-- A legal log can go on with one that is legal where it led to. -/
theorem Legal.append {state : CircuitState} {log more : List Event} (h : Legal state log)
    (hmore : Legal (leads state log) more) : Legal state (log ++ more) := by
  induction log generalizing state with
  | nil => exact hmore
  | cons e rest ih => exact ⟨h.1.append more, ih h.2 hmore⟩

/-- Every event of a legal log fits the state that the events before it lead to. -/
theorem Legal.fits {state : CircuitState} {before rest : List Event} {e : Event}
    (h : Legal state (before ++ e :: rest)) : e.Fits (leads state before) rest := by
  induction before generalizing state with
  | nil => exact h.1
  | cons first before ih => exact ih h.2

/-! ## What a step tells -/

/-- What the record of a step can tell. -/
inductive Record.Told (e : Record) : Prop
  /-- Nothing happens to the state, and no call begins or counts. -/
  | silent (deed : e.deed ≠ .acquire) (same : e.source = e.target) (events : e.events = [])
  /-- The circuit is opened or closed by hand. -/
  | forced {how : Circuit.Control} (deed : e.deed = .control how) (change : Change e.source e.target)
      (calm : e.target ≠ .halfOpen) (events : e.events = [.transition e.source e.target])
  /-- A call is admitted. -/
  | admits (deed : e.deed = .acquire) (same : e.source = e.target) (passes : e.source ≠ .opened)
      (events : e.events = [.permitted e.source])
  /-- A call is admitted as the first trial. -/
  | probes (deed : e.deed = .acquire) (source : e.source = .opened) (target : e.target = .halfOpen)
      (events : e.events = [.transition .opened .halfOpen, .permitted .halfOpen])
  /-- A call is rejected. -/
  | rejects (deed : e.deed = .acquire) (same : e.source = e.target) (holds : e.source ≠ .closed)
      (events : e.events = [.rejected])
  /-- A call ends and counts. -/
  | judges {a : Admission} {failed : Bool} {v : Event} (deed : e.deed = .complete a failed)
      (same : e.source = e.target) (verdict : v.verdict? = some (failed, e.source))
      (events : e.events = [v])
  /-- A call ends, counts and changes the state. -/
  | decides {a : Admission} {failed : Bool} {v : Event} (deed : e.deed = .complete a failed)
      (shut : e.source ≠ .opened) (moves : e.source ≠ e.target)
      (target : e.target = if failed then .opened else .closed)
      (verdict : v.verdict? = some (failed, e.source))
      (events : e.events = [v, .transition e.source e.target])

namespace Record.Told

variable {now : Instant} {c : Circuit} {s : Circuit.Step} {a : Admission} {failed : Bool} {v : Event}
  {source : CircuitState}

/-- A call counts in the state that the circuit keeps. -/
theorem of_same (hsource : c.state = source) (htarget : s.1.state = source)
    (hv : v.verdict? = some (failed, source)) (he : s.2 = [v]) :
    (Record.of (.complete a failed) now c s).Told := by
  subst hsource
  exact .judges rfl htarget.symm hv he

/-- A call counts in the state that it makes the circuit leave. -/
theorem of_change (hsource : c.state = source) (hshut : source ≠ .opened) (hne : source ≠ s.1.state)
    (htarget : s.1.state = if failed then .opened else .closed)
    (hv : v.verdict? = some (failed, source)) (he : s.2 = [v, .transition source s.1.state]) :
    (Record.of (.complete a failed) now c s).Told := by
  subst hsource
  exact .decides rfl hshut hne htarget hv he

/-- The circuit is taken to another state by hand. -/
theorem of_control {how : Circuit.Control} (hne : c.state ≠ s.1.state)
    (hcalm : s.1.state ≠ .halfOpen) (he : s.2 = [.transition c.state s.1.state]) :
    (Record.of (.control how) now c s).Told := by
  exact .forced rfl (Change.of_ne hne hcalm) hcalm he

variable (settings now c)

/-- Asking for a permit admits or rejects, and tells so. -/
theorem acquire : (Record.of .acquire now c (c.acquire settings now).2).Told := by
  cases c.acquire_case settings now with
  | passes hs e | joins hs _ e =>
    rw [e]
    exact .admits rfl rfl (by simp [Record.of, hs]) (by simp [Record.of, hs])
  | probes hs _ e =>
    rw [e]
    exact .probes rfl hs rfl rfl
  | early hs _ e | full hs _ e =>
    rw [e]
    exact .rejects rfl rfl (by simp [Record.of, hs]) rfl

/-- The end of a call counts or is passed over, and tells what has come of it. -/
theorem complete (a : Admission) (failed : Bool) :
    (Record.of (.complete a failed) now c (c.complete settings now a.permit failed)).Told := by
  cases c.complete_case settings now a.permit failed with
  | stale _ e =>
    rw [e]
    exact .silent (by simp [Record.of]) rfl rfl
  | succeeds _ hv hs e | trialSucceeds _ hv hs _ e | fails _ hv hs _ e =>
    rw [e, hv]
    exact of_same hs hs rfl rfl
  | whileOpen _ hs e =>
    rw [e]
    cases failed <;> exact of_same hs hs rfl rfl
  | closes _ hv hs _ e | trips _ hv hs _ e | reopens _ hv hs e =>
    rw [e, hv]
    exact of_change hs (by simp) (by simp) rfl rfl rfl

/-- A call that is abandoned tells nothing. -/
theorem abandon (a : Admission) : (Record.of (.abandon a) now c (c.release a.permit, [])).Told := by
  cases c.release_case a.permit with
  | frees _ _ e | idle _ e =>
    rw [e]
    exact .silent (by simp [Record.of]) rfl rfl

/-- A control changes the state and tells so, or tells nothing. -/
theorem control (how : Circuit.Control) : (Record.of (.control how) now c (c.control now how)).Told := by
  cases c.control_case now how with
  | opens _ hs e | closes _ hs e | resets _ hs e =>
    rw [e]
    exact of_control hs (by simp) rfl
  | staysOpen _ _ e | staysClosed _ _ e | renews _ _ e =>
    rw [e]
    exact .silent (by simp [Record.of]) rfl rfl

end Record.Told

/-- The record of every step tells one of these. -/
theorem Run.told_effect (settings : Settings) (r : Run) (deed : Deed) :
    (Record.of deed r.now r.circuit (r.effect settings deed)).Told := by
  cases deed with
  | acquire => exact .acquire ..
  | complete a failed => exact .complete ..
  | abandon a => exact .abandon ..
  | control how => exact .control ..
  | advance d => exact .silent (by simp [Record.of]) rfl rfl

/-- Every record of a run is one of these. -/
theorem Reachable.told {r : Run} (hr : Reachable settings r) : ∀ e ∈ r.past, e.Told := by
  induction hr with
  | fresh now => exact fun e he => absurd he List.not_mem_nil
  | @step r _ deed ih =>
    by_cases ha : r.Allows deed
    · rw [Run.past_step settings ha]
      exact List.forall_mem_cons.mpr ⟨Run.told_effect settings r deed, ih⟩
    · rw [Run.step_of_not_allows ha]
      exact ih

/-! ## What a record adds to the log -/

namespace Record.Told

variable {e : Record}

/-- A record tells of a change of state exactly if its state has changed. -/
theorem moves_eq (h : e.Told) :
    moves e.events = if e.source = e.target then [] else [(e.source, e.target)] := by
  cases h with
  | silent _ hsame he | rejects _ hsame _ he | admits _ hsame _ he =>
    rw [he, if_pos hsame]
    rfl
  | judges _ hsame hv he =>
    rw [he, if_pos hsame]
    exact moves_cons_of_none (Event.move?_of_verdict? hv) _
  | probes _ hs ht he =>
    rw [he, hs, ht]
    rfl
  | forced _ hchange _ he =>
    rw [he, if_neg hchange.ne]
    rfl
  | decides _ _ hne _ hv he =>
    rw [he, if_neg hne]
    exact moves_cons_of_none (Event.move?_of_verdict? hv) _

/-- What a record tells leads from the state before the step to the state after it. -/
theorem leads_eq (h : e.Told) : leads e.source e.events = e.target := by
  rw [leads_eq_elim, h.moves_eq]
  split <;> simp_all

/-- What a record tells is legal from the state before the step. -/
theorem legal (h : e.Told) : Legal e.source e.events := by
  cases h with
  | silent _ _ he =>
    rw [he]
    trivial
  | forced _ hchange hcalm he =>
    rw [he]
    exact ⟨⟨rfl, hchange, fun ht => absurd ht hcalm⟩, trivial⟩
  | admits _ _ hpasses he =>
    rw [he]
    exact ⟨⟨rfl, hpasses⟩, trivial⟩
  | probes _ hs _ he =>
    rw [he, hs]
    -- The admission stands after the change of state, in the half-open period that it begins.
    exact ⟨⟨rfl, .probes, fun _ => rfl⟩, ⟨rfl, by simp [Event.lead, Event.move?]⟩, trivial⟩
  | rejects _ _ hholds he =>
    rw [he]
    exact ⟨hholds, trivial⟩
  | judges _ _ hv he =>
    rw [he]
    exact ⟨Event.fits_of_verdict? hv _, trivial⟩
  | decides _ _ hne ht hv he =>
    have hcalm : e.target ≠ .halfOpen := by
      rw [ht]
      split <;> simp
    -- The verdict leaves the state, so that the change starts from where it was recorded.
    have hlead : Event.lead e.source _ = e.source := Event.lead_of_verdict? hv
    rw [he]
    refine ⟨Event.fits_of_verdict? hv _, ?_, trivial⟩
    rw [hlead]
    exact ⟨rfl, .of_ne hne hcalm, fun ht => absurd ht hcalm⟩

/-- A verdict carries the state before the step, stands first, and is followed by nothing but the change
of state that it causes. -/
theorem of_verdict (h : e.Told) {v : Event} (hm : v ∈ e.events) {failed : Bool} {s : CircuitState}
    (hv : v.verdict? = some (failed, s)) :
    s = e.source ∧ (∃ a, e.deed = .complete a failed) ∧
      e.events = v :: if e.source = e.target then [] else [.transition e.source e.target] := by
  -- A deed tells one event, or two of which the second is the transition.
  cases h with
  | silent _ _ he =>
    rw [he] at hm
    cases hm
  | forced _ _ _ he | admits _ _ _ he | rejects _ _ _ he =>
    rw [he, List.mem_singleton] at hm
    subst hm
    cases hv
  | probes _ _ _ he =>
    rw [he, List.mem_pair] at hm
    rcases hm with rfl | rfl <;> cases hv
  | judges hd hsame hw he =>
    rw [he, List.mem_singleton] at hm
    subst hm
    obtain ⟨rfl, rfl⟩ := Prod.mk.inj (Option.some.inj (hv.symm.trans hw))
    exact ⟨rfl, ⟨_, hd⟩, by rw [he, if_pos hsame]⟩
  | decides hd _ hne _ hw he =>
    rw [he] at hm
    rcases List.mem_cons.mp hm with rfl | hm
    · obtain ⟨rfl, rfl⟩ := Prod.mk.inj (Option.some.inj (hv.symm.trans hw))
      exact ⟨rfl, ⟨_, hd⟩, by rw [he, if_neg hne]⟩
    · rw [List.mem_singleton] at hm
      subst hm
      cases hv

/-- A call that changes the state by its end is recorded just before. -/
theorem of_complete (h : e.Told) {a : Admission} {failed : Bool} (hd : e.deed = .complete a failed)
    (hne : e.source ≠ e.target) : ∃ v : Event, v.verdict? = some (failed, e.source) ∧
      e.events = [v, .transition e.source e.target] := by
  cases h with
  | silent _ hsame | judges _ hsame => exact absurd hsame hne
  | forced hd' | admits hd' | probes hd' | rejects hd' =>
    rw [hd] at hd'
    cases hd'
  | decides hd' _ _ _ hv he =>
    rw [hd] at hd'
    cases hd'
    exact ⟨_, hv, he⟩

/-- An open circuit is closed by hand. -/
theorem of_closes (h : e.Told) (hs : e.source = .opened) (ht : e.target = .closed) :
    ∃ how, e.deed = .control how := by
  have hne : e.source ≠ e.target := by simp [hs, ht]
  cases h with
  | silent _ hsame | admits _ hsame | rejects _ hsame | judges _ hsame => exact absurd hsame hne
  | forced hd => exact ⟨_, hd⟩
  | probes _ _ ht' => simp [ht] at ht'
  | decides _ hshut => exact absurd hs hshut

/-- A change of state goes from the state before the step to the state after it. -/
theorem of_transition (h : e.Told) {s t : CircuitState} (hm : .transition s t ∈ e.events) :
    s = e.source ∧ t = e.target := by
  have hmove : (s, t) ∈ moves e.events := List.mem_filterMap.mpr ⟨_, hm, rfl⟩
  rw [h.moves_eq] at hmove
  split at hmove
  · cases hmove
  · exact Prod.mk.inj (List.mem_singleton.mp hmove)

end Record.Told

/-- The log of a reachable run is legal from the closed state, and leads to the state of the circuit. -/
theorem Reachable.legal {r : Run} (hr : Reachable settings r) :
    Legal .closed r.events ∧ leads .closed r.events = r.circuit.state := by
  induction hr with
  | fresh now => exact ⟨trivial, rfl⟩
  | @step r _ deed ih =>
    by_cases ha : r.Allows deed
    swap
    · rw [Run.step_of_not_allows ha]
      exact ih
    obtain ⟨hlegal, hleads⟩ := ih
    have htold := Run.told_effect settings r deed
    rw [Run.events_step settings ha, Run.circuit_step settings ha]
    constructor
    · apply hlegal.append
      rw [hleads]
      exact htold.legal
    · rw [leads_append, hleads]
      exact htold.leads_eq

/-! ## The state metric -/

/-- The series of the state of the breaker of a name. -/
def stateSeries (name : String) : Series := ⟨"circuitbreaker_state", [("circuitbreaker", name)]⟩

/-- The level at which the state metric shows a state, a level for each. -/
def stateLevel : CircuitState → Nat
  | .closed => 0
  | .opened => 1
  | .halfOpen => 2

/-- A state is reported at its level. -/
theorem code_eq_stateLevel (state : CircuitState) : state.code = stateLevel state := by
  cases state <;> rfl

/-- An event sets the level of the state metric if it is a change of state. -/
theorem reading_emissions (name : String) (emitted : List Emission) (e : Event) :
    reading (stateSeries name) (emitted ++ e.emissions name) =
      e.move?.elim (reading (stateSeries name) emitted) fun m => some (.level (stateLevel m.2)) := by
  -- The counts of calls and of changes of state are other series.
  have hcount (all : List Emission) (metric : String) (labels : List (String × String))
      (hne : metric ≠ "circuitbreaker_state") :
      reading (stateSeries name) (all ++ [.count metric labels]) = reading (stateSeries name) all := by
    unfold Emission.count
    rw [reading_sample, if_neg]
    simp [Sample.series, stateSeries, hne.symm]
  cases e with
  | transition source target =>
    unfold Event.emissions Emission.log
    rw [List.append_cons, List.append_cons, reading_sample, code_eq_stateLevel]
    exact if_pos rfl
  | permitted s => rw [Event.emissions, List.append_nil]; rfl
  | rejected | success | failure => exact hcount _ _ _ (by decide)

/-- The level of the state metric is that of the last target in the log. -/
theorem reading_stateSeries (name : String) (log : List Event) :
    reading (stateSeries name) (log.flatMap (Event.emissions name)) =
      (moves log).getLast?.map fun m => .level (stateLevel m.2) := by
  induction log using List.reverseRecOn with
  | nil => rfl
  | append_singleton log e ih =>
    rw [List.flatMap_append, List.flatMap_singleton, reading_emissions, ih, moves_append,
      moves_singleton]
    cases e.move? <;> simp

/-- The same holds of the acts of a session, whatever its listeners do: their log is legal and leads to the
state of the circuit, and the state metric follows it. -/
theorem Session.Tells.legal {s : Session} {log : List Event} {emitted : List Emission}
    (h : s.Tells settings log emitted) :
    Legal .closed log ∧ leads .closed log = s.circuit.state ∧
      reading (stateSeries settings.name) emitted =
        (moves log).getLast?.map fun m => .level (stateLevel m.2) := by
  obtain ⟨⟨r, hr, -, hcircuit, -, hlog⟩, hsamples⟩ := h.tells
  obtain ⟨hlegal, hleads⟩ := hr.legal
  rw [hlog] at hlegal hleads
  refine ⟨hlegal, hleads.trans (congrArg (·.state) hcircuit), ?_⟩
  rw [reading_congr hsamples, reading_stateSeries]

/-! ## The log of a run -/

/-- The log of a breaker is a legal history of it. Every event fits the state that the events before it
lead to and the event after it; the changes of state begin with the closed state, each starts from the
target of the one before, and they end with the state of the circuit. Within a step a verdict carries the
state before the step and stands right before the change of state that it causes, if it causes one; a call
that changes the state by its end is recorded so; and an open circuit is closed by hand alone. Once the
state has changed, the state metric shows the level of the circuit's state, which is another one for each. -/
theorem event_log_legal {r : Run} (hr : Reachable settings r) :
    (∀ before e rest, r.events = before ++ e :: rest → e.Fits (leads .closed before) rest) ∧
    .closed :: (moves r.events).map Prod.snd = (moves r.events).map Prod.fst ++ [r.circuit.state] ∧
    (∀ e ∈ r.past,
      (∀ v ∈ e.events, ∀ failed s, v.verdict? = some (failed, s) → s = e.source ∧
        e.events = v :: if e.source = e.target then [] else [.transition e.source e.target]) ∧
      (∀ a failed, e.deed = .complete a failed → e.source ≠ e.target →
        ∃ v : Event, v.verdict? = some (failed, e.source) ∧
          e.events = [v, .transition e.source e.target]) ∧
      (.transition .opened .closed ∈ e.events → ∃ how, e.deed = .control how)) ∧
    ∀ name, reading (stateSeries name) (r.events.flatMap (Event.emissions name)) =
      if moves r.events = [] then none else some (.level (stateLevel r.circuit.state)) := by
  obtain ⟨hlegal, hleads⟩ := hr.legal
  refine ⟨?_, ?_, ?_, ?_⟩
  · intro before e rest hsplit
    rw [hsplit] at hlegal
    exact hlegal.fits
  · rw [← hleads]
    exact hlegal.chain
  · intro e he
    have htold := hr.told e he
    refine ⟨fun v hv failed s hverdict => ?_, fun a failed => htold.of_complete, fun hm => ?_⟩
    · obtain ⟨hs, -, hevents⟩ := htold.of_verdict hv hverdict
      exact ⟨hs, hevents⟩
    · obtain ⟨hs, ht⟩ := htold.of_transition hm
      exact htold.of_closes hs.symm ht.symm
  · intro name
    rw [reading_stateSeries, ← hleads, leads_eq_elim]
    cases h : moves r.events with
    | nil => rfl
    | cons first rest => rw [if_neg (List.cons_ne_nil _ _), List.getLast?_cons]; rfl

/-- The run up to the failure that opens the circuit. -/
def tripped : Run := (Run.fresh .start).play twoTrials [.acquire, .acquire, .complete ⟨0, ⟨0⟩⟩ true]

/-- The circuit opens and becomes half-open, and the metric shows first the one and then the other. -/
theorem log_overlapping :
    Reachable twoTrials overlapping ∧
      overlapping.events =
        [.permitted .closed, .permitted .closed, .failure .closed 1, .transition .closed .opened,
          .transition .opened .halfOpen, .permitted .halfOpen, .permitted .halfOpen,
          .success .halfOpen] ∧
      reading (stateSeries "two trials")
        (tripped.events.flatMap (Event.emissions "two trials")) = some (.level 1) ∧
      reading (stateSeries "two trials")
        (overlapping.events.flatMap (Event.emissions "two trials")) = some (.level 2) := by
  have htripped : moves tripped.events ≠ [] ∧ tripped.circuit.state = .opened := by decide
  have hprobing : moves overlapping.events ≠ [] ∧ overlapping.circuit.state = .halfOpen := by decide
  have hreachable : Reachable twoTrials tripped := (Reachable.fresh _).play _
  obtain ⟨-, -, -, hfirst⟩ := event_log_legal hreachable
  obtain ⟨-, -, -, hlast⟩ := event_log_legal reachable_overlapping
  refine ⟨reachable_overlapping, by decide, ?_, ?_⟩
  · rw [hfirst, if_neg htripped.1, htripped.2]
    rfl
  · rw [hlast, if_neg hprobing.1, hprobing.2]
    rfl

end GuardedHttp.Breaker
