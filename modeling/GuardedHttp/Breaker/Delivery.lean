import GuardedHttp.Breaker.Circuit
import GuardedHttp.Events.Listeners
import GuardedHttp.Telemetry

/-!
# Delivering the events of a breaker

A step of the circuit is complete before any listener hears of it. Its events are then delivered one by
one, each to every listener in the order of registration. A listener may call back: what it does to the
breaker is a step of its own, whose events are delivered at once, before the rest of the outer ones.

Nesting is followed down to a depth; the events of steps that lie deeper are kept as undelivered.
-/

namespace GuardedHttp

namespace Breaker

open Circuit (Control Step)

/-- What an event reports of the breaker of a name. -/
def Event.emissions (name : String) : Event → List Emission
  | .transition source target =>
    [.log .warn "circuit breaker state transition"
      [("breaker", name), ("from", source.name), ("to", target.name)],
     .count "circuitbreaker_transitions_total"
      [("circuitbreaker", name), ("from", source.name), ("to", target.name)],
     .sample (.level ⟨"circuitbreaker_state", [("circuitbreaker", name)]⟩ target.code)]
  | .permitted _ => []
  | .rejected => [.count "circuitbreaker_calls_total" [("circuitbreaker", name), ("outcome", "rejected")]]
  | .success _ => [.count "circuitbreaker_calls_total" [("circuitbreaker", name), ("outcome", "success")]]
  | .failure .. =>
    [.count "circuitbreaker_calls_total" [("circuitbreaker", name), ("outcome", "failure")]]

/-- What a listener does on hearing an event. -/
structure Reaction where
  /-- What it does to the breaker, in order. -/
  controls : List Control := []
  /-- It panics afterwards. -/
  panics : Bool := false

/-- A listener that sees the event and the circuit at that moment. -/
abbrev Reactor := Event → Circuit → Reaction

/-- Something that a user of a breaker sees. -/
inductive Note where
  /-- A listener heard an event while the circuit stood like this. -/
  | heard (listener : Nat) (event : Event) (circuit : Circuit)
  /-- A guarded call began. -/
  | invoked

/-- What using a breaker has led to. -/
structure Update where
  /-- The circuit afterwards. -/
  circuit : Circuit
  /-- What happened to the circuit, in order. -/
  events : List Event := []
  /-- What was reported, in order. -/
  emitted : List Emission := []
  /-- What was seen, in order. -/
  notes : List Note := []
  /-- The events that lay too deep to be delivered. -/
  undelivered : List Event := []

/-- The circuit takes a step, and its events are recorded and reported. -/
def Update.take (name : String) (u : Update) (step : Step) : Update :=
  { u with
    circuit := step.1
    events := u.events ++ step.2
    emitted := u.emitted ++ step.2.flatMap (Event.emissions name) }

end Breaker

/-- A circuit breaker. -/
structure Breaker where
  /-- The settings. -/
  settings : Breaker.Settings
  /-- The listeners, in the order of registration. -/
  reactors : List Breaker.Reactor := []
  /-- How deep callbacks may nest and still be heard. -/
  depth : Nat := 64

namespace Breaker

open Circuit (Control Step)

/-- A listener hears an event: it notes it, acts on the breaker, whose steps `settle` carries out, and
may then panic. -/
def hearing (now : Instant) (settle : Step → Update → Update) (index : Nat) (react : Reactor) :
    Listener Event Update := fun event u =>
  let reaction := react event u.circuit
  let u := { u with notes := u.notes ++ [.heard index event u.circuit] }
  { state := reaction.controls.foldl (fun u control => settle (u.circuit.control now control) u) u
    panic := if reaction.panics then some "listener panicked" else none }

/-- The listeners of a breaker, their callbacks carried out by `settle`. -/
def audience (b : Breaker) (now : Instant) (settle : Step → Update → Update) :
    Listeners Event Update :=
  ⟨b.reactors.mapIdx (hearing now settle)⟩

/-- Delivers events to the listeners, callbacks down to a depth included. -/
def deliver (b : Breaker) (now : Instant) : (depth : Nat) → List Event → Update → Update
  | 0, events, u => { u with undelivered := u.undelivered ++ events }
  | depth + 1, events, u =>
    (b.audience now fun step u => b.deliver now depth step.2 (u.take b.settings.name step)).emitAll
      events u

/-- The circuit takes a step, and its events are recorded, reported and delivered. -/
def update (b : Breaker) (now : Instant) (step : Step) (u : Update) : Update :=
  b.deliver now b.depth step.2 (u.take b.settings.name step)

end Breaker

end GuardedHttp
