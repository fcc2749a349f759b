import GuardedHttp.Breaker.Call
import GuardedHttp.Retry.Run

/-!
# Listeners that call back

Listeners are told of what happens to a breaker and of what a retry loop decides. A listener is code: it
may use the breaker itself, announce decisions of its own, and panic in the end. What it does is an
operation like any other, whose events are told to all listeners before the operation returns, while
those of the outer operation wait.

A `Machine` carries this out. Its stack holds the batches of reports that are being told and the
callbacks that are running, innermost first, and `Machine.next` is one turn of it. The circuit keeps the
events of a step in a buffer; the operation takes them out of it while it still holds the lock, and tells
them afterwards. A panic unwinds the stack down to the nearest batch, which catches it and goes on with
the next listener.

Nothing bounds how deep callbacks nest, so that a machine may run for ever. `Breaker.deliver` is the same
for listeners that only give commands and that remember nothing, down to a depth.
-/

namespace GuardedHttp.Callbacks

open Breaker (Circuit CallResult Classifier Outcome Permit Settings)
open Breaker.Circuit (Control Step)
open Retry (Policy Run Trial)

/-! ## What is done and what is told -/

/-- Something that listeners hear of. -/
inductive News where
  /-- Something has happened to the breaker. -/
  | breaker (event : Breaker.Event)
  /-- A retry loop has decided something. -/
  | retry (event : Retry.Event)
deriving DecidableEq

/-- A piece of news with where it comes from. -/
structure Report where
  /-- The number of the deed that it is about. -/
  origin : Nat
  /-- Its place among the reports of that deed. -/
  place : Nat
  /-- The news. -/
  news : News
deriving DecidableEq

/-- An operation. -/
inductive Action where
  /-- Asks the breaker for a permit. -/
  | acquire
  /-- Tells the breaker how a call has ended. -/
  | complete (p : Permit) (failed : Bool)
  /-- Gives up a call that has not ended. -/
  | abandon (p : Permit)
  /-- Controls the breaker by hand. -/
  | control (how : Control)
  /-- Announces a decision of a retry loop. -/
  | announce (event : Retry.Event)
deriving DecidableEq

/-- The step of the circuit, with the permit that the operation gives. -/
def Action.step (settings : Settings) (now : Instant) (c : Circuit) : Action → Option Permit × Step
  | acquire => c.acquire settings now
  | complete p failed => (none, c.complete settings now p failed)
  | abandon p => (none, c.release p, [])
  | control how => (none, c.control now how)
  | announce _ => (none, c, [])

/-- What stays in the buffer of the circuit, and what the operation tells. Giving a call up leaves the
buffer alone, and so does a retry loop. -/
def Action.take (buffer : List Breaker.Event) : Action → List Breaker.Event × List News
  | acquire | complete .. | control _ => ([], buffer.map .breaker)
  | abandon _ => (buffer, [])
  | announce event => (buffer, [.retry event])

/-- An operation that has been carried out. -/
structure Deed where
  /-- The report whose listener did it, if it was not the user. -/
  cause : Option Report
  /-- The moment at which it was done. -/
  now : Instant
  /-- The operation. -/
  action : Action
  /-- The circuit on which it acted. -/
  before : Circuit
deriving DecidableEq

/-- The reports of the deed of a number. -/
def reportsOf (origin : Nat) (news : List News) : List Report :=
  news.mapIdx fun place news => ⟨origin, place, news⟩

/-- A listener that heard a report while the circuit stood like this. -/
structure Hearing where
  /-- The listener, by its place in the order of registration. -/
  listener : Nat
  /-- What it heard. -/
  report : Report
  /-- The circuit at that moment. -/
  circuit : Circuit
deriving DecidableEq

/-- A breaker, with everything that has happened so far. -/
structure Scene where
  /-- The circuit. -/
  circuit : Circuit
  /-- The events that the circuit has buffered and nobody has taken. -/
  pending : List Breaker.Event := []
  /-- What has been done, in order. -/
  deeds : List Deed := []
  /-- What has been heard, in order. -/
  hearings : List Hearing := []
deriving DecidableEq

/-- An operation is carried out: the permit that it gives, the scene afterwards, and the reports that are
to be told before it returns. -/
def Scene.perform (settings : Settings) (s : Scene) (cause : Option Report) (now : Instant)
    (action : Action) : Option Permit × Scene × List Report :=
  let done := action.step settings now s.circuit
  let taken := action.take (s.pending ++ done.2.2)
  (done.1,
   { s with
     circuit := done.2.1
     pending := taken.1
     deeds := s.deeds ++ [⟨cause, now, action, s.circuit⟩] },
   reportsOf s.deeds.length taken.2)

/-- A listener hears a report. -/
def Scene.hear (s : Scene) (listener : Nat) (report : Report) : Scene :=
  { s with hearings := s.hearings ++ [⟨listener, report, s.circuit⟩] }

/-! ## Code -/

/-- Code that carries out operations one after another. Whatever it does next may depend on the permits
it got and on what it sees by then. -/
inductive Code (ν β : Type) where
  /-- It ends. -/
  | ends (x : β)
  /-- It carries out an operation at a moment, and goes on once the operation has returned. -/
  | does (now : Instant) (action : Action) (go : Option Permit → ν → Code ν β)

/-- Code that looks around before it does anything. -/
abbrev Script (ν β : Type) := ν → Code ν β

/-- Code that is followed by other code. -/
def Code.bind {ν β γ : Type} : Code ν β → (β → Script ν γ) → Script ν γ
  | ends x, f, view => f x view
  | does now action go, f, _ => does now action fun permit view => (go permit view).bind f view

/-- What code ends with, if it does nothing more. -/
def Code.end? {ν β : Type} : Code ν β → Option β
  | ends x => some x
  | does .. => none

/-- Code that ends with something does nothing more. -/
theorem Code.end?_eq_some_iff {ν β : Type} {code : Code ν β} {x : β} :
    code.end? = some x ↔ code = .ends x := by
  cases code <;> simp [end?]

/-- How a callback ends. -/
inductive Ending where
  /-- It returns. -/
  | returned
  /-- It panics. -/
  | panicked
deriving DecidableEq

/-- The listeners of a breaker and those of a retry loop, each in the order of registration. A listener
sees all that has happened, so that it may remember what it likes. -/
structure Audience where
  /-- The listeners of the breaker. -/
  breaker : List (Breaker.Event → Script Scene Ending) := []
  /-- The listeners of the retry loop. -/
  retry : List (Retry.Event → Script Scene Ending) := []

/-- The callbacks that a piece of news leads to, in order. -/
def Audience.callbacks (audience : Audience) : News → List (Script Scene Ending)
  | .breaker event => audience.breaker.map (· event)
  | .retry event => audience.retry.map (· event)

/-! ## The machine -/

/-- Something that has begun and has not ended. -/
inductive Frame where
  /-- Reports are being told, and so many listeners have heard the first of them. -/
  | telling (batch : List Report) (told : Nat)
  /-- The callback of a listener that heard a report is running. -/
  | running (report : Report) (script : Script Scene Ending)

/-- A breaker in use. -/
structure Machine (β : Type) where
  /-- The breaker, with everything that has happened. -/
  scene : Scene
  /-- What has begun and has not ended, innermost first. -/
  stack : List Frame := []
  /-- A panic is unwinding the stack. -/
  panicking : Bool := false
  /-- What the user does once the stack is empty. -/
  user : Script Circuit β

namespace Machine

variable {β : Type}

/-- A user begins to use a breaker. -/
def start (c : Circuit) (user : Script Circuit β) : Machine β := { scene := { circuit := c }, user }

/-- One turn: the innermost activity goes on, or the user does if there is none. -/
def next (settings : Settings) (audience : Audience) (m : Machine β) : Option (Machine β) :=
  match m.stack, m.panicking with
  | [], false =>
    match m.user m.scene.circuit with
    | .ends _ => none
    | .does now action go =>
      let done := m.scene.perform settings none now action
      some { m with scene := done.2.1, stack := [.telling done.2.2 0], user := go done.1 }
  | .telling [] _ :: rest, false => some { m with stack := rest }
  | .telling (report :: batch) told :: rest, false =>
    match (audience.callbacks report.news)[told]? with
    | none => some { m with stack := .telling batch 0 :: rest }
    | some script =>
      some { m with
        scene := m.scene.hear told report
        stack := .running report script :: .telling (report :: batch) (told + 1) :: rest }
  | .running report script :: rest, false =>
    match script m.scene with
    | .ends .returned => some { m with stack := rest }
    | .ends .panicked => some { m with stack := rest, panicking := true }
    | .does now action go =>
      let done := m.scene.perform settings (some report) now action
      some { m with
        scene := done.2.1
        stack := .telling done.2.2 0 :: .running report (go done.1) :: rest }
  -- Only a batch catches panics, each listener on its own.
  | .telling .. :: _, true => some { m with panicking := false }
  | .running .. :: rest, true => some { m with stack := rest }
  | [], true => none

/-- So many turns, or fewer if the machine comes to an end before. -/
def run (settings : Settings) (audience : Audience) : Nat → Machine β → Machine β
  | 0, m => m
  | turns + 1, m =>
    match m.next settings audience with
    | none => m
    | some m => m.run settings audience turns

/-- The operation that the user began has returned. -/
def Idle (m : Machine β) : Prop := m.stack = []

/-- The user is done, with this result. -/
def Ended (m : Machine β) (x : β) : Prop :=
  m.stack = [] ∧ m.panicking = false ∧ m.user m.scene.circuit = .ends x

instance [DecidableEq β] (m : Machine β) (x : β) : Decidable (m.Ended x) :=
  decidable_of_iff
    (m.stack.isEmpty = true ∧ m.panicking = false ∧ (m.user m.scene.circuit).end? = some x) <|
    and_congr List.isEmpty_iff (and_congr_right fun _ => Code.end?_eq_some_iff)

end Machine

/-! ## What users do -/

section

variable {α ε : Type}

/-- Tells the breaker how an admitted call ended, at the moment when it did. A call that panics is given
up. -/
def conclude (classify : Classifier α ε) (p : Permit) (ended : Instant) :
    Outcome α ε → Code Circuit (CallResult α ε)
  | .returned result =>
    .does ended (.complete p (classify result)) fun _ _ => .ends (.ended (result.mapError .inner))
  | .panicked message => .does ended (.abandon p) fun _ _ => .ends (.panicked message)

/-- Makes a call through the breaker, whose code may use the breaker as well. -/
def guarded (classify : Classifier α ε) (now : Instant)
    (call : Script Circuit (Instant × Outcome α ε)) : Script Circuit (CallResult α ε) := fun _ =>
  .does now .acquire fun permit circuit =>
    match permit with
    | none => .ends (.ended (.error .rejected))
    | some p => (call circuit).bind (fun ended _ => conclude classify p ended.1 ended.2) circuit

/-- What follows an attempt that was made: its decision is announced, and `again` makes the next one if
it is to be made and may be. -/
def decide (p : Policy ε) (started : Instant) (index : Nat) (now : Instant)
    (again : Option (Instant → Script Circuit (Run α ε))) (trial : Trial α ε) :
    Code Circuit (Run α ε) :=
  let ended := now.wake trial.lasts
  let verdict := p.judge (ended.since started) index trial.result
  let happenings := [(now, Policy.opening trial), (ended, .event (verdict.event index))]
  let emitted := verdict.emissions p.name index
  .does ended (.announce (verdict.event index)) fun _ circuit =>
    match verdict, again with
    | .retry delay, some again =>
      (again (ended.wake delay) circuit).bind (fun run _ => .ends (run.prepend happenings emitted))
        circuit
    | _, _ => .ends { happenings, emitted, result := trial.result, ended }

/-- Makes the attempts of a retried call from an index on, with at most `left` retries to follow the first
of them. -/
def retriedFrom (p : Policy ε) (attempt : Nat → Instant → Script Circuit (Trial α ε))
    (started : Instant) : (left index : Nat) → (now : Instant) → Script Circuit (Run α ε)
  | 0, index, now => fun circuit =>
    (attempt index now circuit).bind (fun trial _ => decide p started index now none trial) circuit
  | left + 1, index, now => fun circuit =>
    (attempt index now circuit).bind (fun trial _ =>
      decide p started index now (some (retriedFrom p attempt started left (index + 1))) trial) circuit

/-- Makes a retried call, whose attempts may use the breaker. -/
def retried (p : Policy ε) (attempt : Nat → Instant → Script Circuit (Trial α ε)) (now : Instant) :
    Script Circuit (Run α ε) :=
  retriedFrom p attempt now (p.attemptLimit - 1) 0 now

end

end GuardedHttp.Callbacks
