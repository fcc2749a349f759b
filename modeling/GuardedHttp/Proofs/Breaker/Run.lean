import Mathlib
import GuardedHttp.Breaker.Circuit

/-!
# Runs of a breaker

A breaker is shared: any number of callers hold permits at once, and calls, controls and the callbacks
of listeners take turns under its lock. A `Run` is the breaker in the middle of this: the time, the
circuit, the admitted calls that have not ended, and a `Record` of every step so far, newest first.
`Run.step` does one `Deed`, and `Reachable` is every run that any deeds in any order lead to.

The records tell the history of the breaker. What is read off them (`latest`, `Record.verdict`,
`verdictsSince`, `Run.trials`, `Run.openedAt`) looks at no generation and no count of the circuit, so
that the laws of the breaker can be stated against it.
-/

namespace GuardedHttp.Breaker

open Circuit (Control)

/-- An admitted call that has not ended. -/
structure Admission where
  /-- The number of the step that admitted it, counted from zero. -/
  number : Nat
  /-- The permit that it holds. -/
  permit : Permit
deriving DecidableEq

/-- One step of a run. -/
inductive Deed where
  /-- A call asks for a permit. -/
  | acquire
  /-- An admitted call ends, as a failure or not. -/
  | complete (a : Admission) (failed : Bool)
  /-- An admitted call is dropped before it ends. -/
  | abandon (a : Admission)
  /-- The breaker is controlled by hand. -/
  | control (how : Control)
  /-- Time passes. -/
  | advance (d : Duration)
deriving DecidableEq

/-- What is remembered of a step. -/
structure Record where
  /-- What was done. -/
  deed : Deed
  /-- When it was done. -/
  time : Instant
  /-- The state before. -/
  source : CircuitState
  /-- The state afterwards. -/
  target : CircuitState
  /-- What happened to the circuit, in order. -/
  events : List Event

/-- A breaker in use by any number of callers. -/
structure Run where
  /-- The time. -/
  now : Instant
  /-- What the breaker remembers. -/
  circuit : Circuit
  /-- The admitted calls that have not ended. -/
  outstanding : List Admission := []
  /-- The steps so far, newest first. -/
  past : List Record := []

/-! ## What the records say -/

namespace Record

/-- The record of a step of the circuit. -/
def of (deed : Deed) (now : Instant) (c : Circuit) (s : Circuit.Step) : Record :=
  ⟨deed, now, c.state, s.1.state, s.2⟩

/-- The step was a change of state, a reset or a forced opening. -/
def breaks (e : Record) : Bool :=
  e.source ≠ e.target || e.deed = .control .reset || e.deed = .control .forceOpen

/-- How many new generations the step began: one by a change of state, and one by a reset or by the
forced opening of an open circuit. -/
def bumps (e : Record) : Nat :=
  (if e.source ≠ e.target then 1 else 0) +
    if e.deed = .control .reset ∨ e.deed = .control .forceOpen ∧ e.source = .opened then 1 else 0

/-- The step went over to a state from another one. -/
def enters (state : CircuitState) (e : Record) : Bool := e.source ≠ state && e.target = state

/-- The step went over to the closed state or was a reset. -/
def startsCount (e : Record) : Bool := e.enters .closed || e.deed = .control .reset

/-- The step went over to the open state or was a forced opening. -/
def startsTimer (e : Record) : Bool := e.enters .opened || e.deed = .control .forceOpen

end Record

/-- The number of the latest of the records that has a property, counted from zero at the oldest one;
zero if none has it. A call is admitted after that step exactly if its own number is not smaller: the
step that makes an open circuit half-open admits its call after the change of state. -/
def latest (property : Record → Bool) : List Record → Nat
  | [] => 0
  | e :: older => if property e then older.length else latest property older

/-- The verdict that a step adds to older records: a call counts if it ends and was admitted after the
latest change of state, reset or forced opening. -/
def Record.verdict (e : Record) (older : List Record) : Option Bool :=
  match e.deed with
  | .complete a failed => if latest breaks older ≤ a.number then some failed else none
  | _ => none

/-- The verdicts since the latest record that has a property, newest first; true is a failure. -/
def verdictsSince (property : Record → Bool) : List Record → List Bool
  | [] => []
  | e :: older =>
    if property e then [] else (e.verdict older).toList ++ verdictsSince property older

/-! ## Steps -/

namespace Run

/-- A breaker that has just been built. -/
def fresh (now : Instant) : Run := { now, circuit := .new now }

/-- The circuit takes a step, which is recorded. -/
def note (r : Run) (deed : Deed) (s : Circuit.Step) : Run :=
  { r with circuit := s.1, past := .of deed r.now r.circuit s :: r.past }

/-- The step can be done: only an outstanding call ends or is dropped. -/
def Allows (r : Run) : Deed → Prop
  | .complete a _ | .abandon a => a ∈ r.outstanding
  | .acquire | .control _ | .advance _ => True

/-- One step; nothing happens if it cannot be done. -/
def step (settings : Settings) (r : Run) : Deed → Run
  | .acquire =>
    let asked := r.circuit.acquire settings r.now
    { r.note .acquire asked.2 with
      outstanding := r.outstanding ++ (asked.1.map (⟨r.past.length, ·⟩)).toList }
  | .complete a failed =>
    if a ∈ r.outstanding then
      { r.note (.complete a failed) (r.circuit.complete settings r.now a.permit failed) with
        outstanding := r.outstanding.erase a }
    else r
  | .abandon a =>
    if a ∈ r.outstanding then
      { r.note (.abandon a) (r.circuit.release a.permit, []) with
        outstanding := r.outstanding.erase a }
    else r
  | .control how => r.note (.control how) (r.circuit.control r.now how)
  | .advance d => { r.note (.advance d) (r.circuit, []) with now := r.now.after d }

/-- Any number of steps. -/
def play (settings : Settings) (r : Run) (deeds : List Deed) : Run := deeds.foldl (step settings) r

/-- How many new generations have begun. -/
def bumps (r : Run) : Nat := (r.past.map Record.bumps).sum

/-- How many outstanding calls hold a permit of the current generation. -/
def running (r : Run) : Nat :=
  r.outstanding.countP fun a => a.permit.generation = r.circuit.generation

/-- The call was admitted after the latest change of state, reset or forced opening. -/
def Current (r : Run) (a : Admission) : Prop := latest Record.breaks r.past ≤ a.number

instance (r : Run) (a : Admission) : Decidable (r.Current a) := Nat.decLe _ _

/-- The verdicts since the latest closing or reset, newest first. -/
def verdicts (r : Run) : List Bool := verdictsSince Record.startsCount r.past

/-- The call was admitted in the latest half-open period. -/
def IsTrial (r : Run) (a : Admission) : Prop := latest (Record.enters .halfOpen) r.past ≤ a.number

instance (r : Run) (a : Admission) : Decidable (r.IsTrial a) := Nat.decLe _ _

/-- The outstanding calls that were admitted in the latest half-open period. -/
def trials (r : Run) : List Admission := r.outstanding.filter (r.IsTrial ·)

/-- How many successes have been recorded in the latest half-open period. -/
def trialSuccesses (r : Run) : Nat :=
  (verdictsSince (Record.enters .halfOpen) r.past).count false

/-- When the circuit was last opened, or forced open. -/
def openedAt (r : Run) : Option Instant := (r.past.find? Record.startsTimer).map (·.time)

end Run

/-! ## What each step does to the circuit and the calls -/

section

variable {settings : Settings} {r : Run} {a : Admission} {failed : Bool} {how : Control}

/-- Asking for a permit makes of the circuit what asking it does. -/
@[simp] theorem Run.circuit_acquire :
    (r.step settings .acquire).circuit = (r.circuit.acquire settings r.now).2.1 := rfl

/-- An admitted call is outstanding, under the number of the step that admitted it. -/
@[simp] theorem Run.outstanding_acquire :
    (r.step settings .acquire).outstanding = r.outstanding ++
      ((r.circuit.acquire settings r.now).1.map (⟨r.past.length, ·⟩)).toList := rfl

/-- The end of an outstanding call tells the circuit its verdict, on its permit. -/
@[simp] theorem Run.circuit_complete (h : a ∈ r.outstanding) :
    (r.step settings (.complete a failed)).circuit =
      (r.circuit.complete settings r.now a.permit failed).1 := by
  simp only [step, if_pos h, note]

/-- A call that has ended is outstanding no longer. -/
@[simp] theorem Run.outstanding_complete (h : a ∈ r.outstanding) :
    (r.step settings (.complete a failed)).outstanding = r.outstanding.erase a := by
  simp only [step, if_pos h, note]

/-- A call that is abandoned gives its permit back. -/
@[simp] theorem Run.circuit_abandon (h : a ∈ r.outstanding) :
    (r.step settings (.abandon a)).circuit = r.circuit.release a.permit := by
  simp only [step, if_pos h, note]

/-- A call that has been abandoned is outstanding no longer. -/
@[simp] theorem Run.outstanding_abandon (h : a ∈ r.outstanding) :
    (r.step settings (.abandon a)).outstanding = r.outstanding.erase a := by
  simp only [step, if_pos h, note]

/-- A control works on the circuit. -/
@[simp] theorem Run.circuit_control :
    (r.step settings (.control how)).circuit = (r.circuit.control r.now how).1 := rfl

/-- Passing time leaves the circuit as it is. -/
@[simp] theorem Run.circuit_advance {d : Duration} :
    (r.step settings (.advance d)).circuit = r.circuit := rfl

end

/-- What a step that can be done does to the circuit. -/
def Run.effect (settings : Settings) (r : Run) : Deed → Circuit.Step
  | .acquire => (r.circuit.acquire settings r.now).2
  | .complete a failed => r.circuit.complete settings r.now a.permit failed
  | .abandon a => (r.circuit.release a.permit, [])
  | .control how => r.circuit.control r.now how
  | .advance _ => (r.circuit, [])

/-- The events so far, in order. -/
def Run.events (r : Run) : List Event := r.past.reverse.flatMap (·.events)

section

variable {r : Run} {deed : Deed}

/-- A step that can be done makes of the circuit what its effect says. -/
theorem Run.circuit_step (settings : Settings) (h : r.Allows deed) :
    (r.step settings deed).circuit = (r.effect settings deed).1 := by
  cases deed with
  | complete | abandon => simp only [step, if_pos (show _ ∈ r.outstanding from h), note, effect]
  | acquire | control | advance => rfl

/-- A step that can be done is recorded with its effect, in front of those before it. -/
theorem Run.past_step (settings : Settings) (h : r.Allows deed) :
    (r.step settings deed).past = .of deed r.now r.circuit (r.effect settings deed) :: r.past := by
  cases deed with
  | complete | abandon => simp only [step, if_pos (show _ ∈ r.outstanding from h), note, effect]
  | acquire | control | advance => rfl

/-- The events of a step come after those before it. -/
theorem Run.events_step (settings : Settings) (h : r.Allows deed) :
    (r.step settings deed).events = r.events ++ (r.effect settings deed).2 := by
  unfold events
  rw [past_step settings h, List.reverse_cons, List.flatMap_append, List.flatMap_singleton]
  rfl

end

/-- The runs that any steps in any order lead to. -/
inductive Reachable (settings : Settings) : Run → Prop
  /-- A breaker that has just been built. -/
  | fresh (now : Instant) : Reachable settings (.fresh now)
  /-- One more step. -/
  | step {r : Run} (reached : Reachable settings r) (deed : Deed) :
      Reachable settings (r.step settings deed)

/-- What steps lead to from a reachable run is reachable. -/
theorem Reachable.play {settings : Settings} {r : Run} (hr : Reachable settings r)
    (deeds : List Deed) : Reachable settings (r.play settings deeds) := by
  induction deeds generalizing r with
  | nil => exact hr
  | cons deed rest ih => exact ih (hr.step deed)

/-! ## A run with calls of several periods -/

/-- Opens at the first failure, rejects for five seconds, and admits two trials. -/
def twoTrials : Settings := ⟨"two trials", 1, .ofSeconds 5, 2, by decide, by decide⟩

/-- Two calls are admitted, and the first one fails and opens the circuit; five seconds later two
trials are admitted, and the first of them succeeds. The second call of the closed period and the
second trial are outstanding. -/
def overlapping : Run :=
  (Run.fresh .start).play twoTrials
    [.acquire, .acquire, .complete ⟨0, ⟨0⟩⟩ true, .advance (.ofSeconds 5), .acquire, .acquire,
      .complete ⟨4, ⟨1 + 1⟩⟩ false]

/-- The example can be reached. -/
theorem reachable_overlapping : Reachable twoTrials overlapping := (Reachable.fresh _).play _

/-- So few generations have begun in the example that no number has come back. -/
theorem bumps_overlapping : overlapping.bumps < 2 ^ 64 := by decide

end GuardedHttp.Breaker
