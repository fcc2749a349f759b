import GuardedHttp.Breaker.Settings

/-!
# The circuit

A `Circuit` is what a breaker remembers. While it is *closed*, calls pass and failures in a row are
counted; at the threshold it *opens* and rejects calls. After the open duration the next call is let
through and the circuit is *half-open*: it admits a limited number of trials, closes once enough of them
have succeeded and opens again when one fails.

Every admitted call holds a `Permit` with the generation in which it was admitted. Each change of state,
each reset and each forced opening starts a new generation, and an outcome or a release that carries an
older one changes nothing. Every step gives the new circuit and the events it produced, in order.
-/

namespace GuardedHttp

/-- The state of a circuit. -/
inductive CircuitState where
  /-- Calls pass. -/
  | closed
  /-- Calls are rejected. -/
  | opened
  /-- Some calls pass as trials. -/
  | halfOpen
deriving DecidableEq, Repr

/-- The name of a state in logs and metrics. -/
def CircuitState.name : CircuitState → String
  | closed => "Closed"
  | opened => "Open"
  | halfOpen => "HalfOpen"

/-- The number of a state in metrics. -/
def CircuitState.code : CircuitState → Nat
  | closed => 0
  | opened => 1
  | halfOpen => 2

namespace Breaker

/-- What happens to a circuit. -/
inductive Event where
  /-- The state changed. -/
  | transition (source target : CircuitState)
  /-- A call was admitted, and left the circuit in this state. -/
  | permitted (state : CircuitState)
  /-- A call was rejected. -/
  | rejected
  /-- A success was recorded in this state. -/
  | success (state : CircuitState)
  /-- A failure was recorded in this state, the so many-th in a row. -/
  | failure (state : CircuitState) (consecutive : Nat)
deriving DecidableEq, Repr

/-- The name of a kind of event. -/
def Event.kind : Event → String
  | transition .. => "StateTransition"
  | permitted _ => "CallPermitted"
  | rejected => "CallRejected"
  | success _ => "SuccessRecorded"
  | failure .. => "FailureRecorded"

/-- The right to one call, marked with the generation in which it was given. -/
structure Permit where
  /-- The generation in which the call was admitted. -/
  generation : UInt64
deriving DecidableEq

/-- What a breaker remembers. -/
structure Circuit where
  /-- The state. -/
  state : CircuitState := .closed
  /-- The copy of the state that is read without waiting for a step in progress. -/
  published : CircuitState := .closed
  /-- Permits of other generations are stale. -/
  generation : UInt64 := 0
  /-- The failures in a row, as far as they can be counted. -/
  failures : Nat := 0
  /-- The trials that are running. -/
  inFlight : Nat := 0
  /-- The trials that have succeeded since the circuit became half-open. -/
  successes : Nat := 0
  /-- The moment of the last change of state, reset or forced opening. -/
  changedAt : Instant := .start
deriving DecidableEq

/-- A count can be no greater than this. -/
def countLimit : Nat := UInt32.size - 1

namespace Circuit

/-- A circuit with the events that led to it. -/
abbrev Step := Circuit × List Event

/-- A circuit that is built at a moment. -/
def new (now : Instant) : Circuit := { changedAt := now }

/-- The circuit goes over to a state, unless it is in it. -/
def moveTo (now : Instant) (target : CircuitState) (c : Circuit) : Step :=
  if c.state = target then (c, [])
  else
    ({ state := target
       published := target
       generation := c.generation + 1
       failures := if target = .closed then 0 else c.failures
       inFlight := 0
       successes := 0
       changedAt := now },
     [.transition c.state target])

/-- A call is admitted. -/
def permit (step : Step) : Option Permit × Step :=
  (some ⟨step.1.generation⟩, step.1, step.2 ++ [.permitted step.1.state])

/-- Decides whether a call may run. -/
def acquire (settings : Settings) (now : Instant) (c : Circuit) : Option Permit × Step :=
  match c.state with
  | .closed => permit (c, [])
  | .opened =>
    if settings.openDuration ≤ now.since c.changedAt then
      let (c, events) := c.moveTo now .halfOpen
      permit ({ c with inFlight := 1 }, events)
    else (none, c, [.rejected])
  | .halfOpen =>
    if c.inFlight + c.successes < settings.trials.toNat then
      permit ({ c with inFlight := c.inFlight + 1 }, [])
    else (none, c, [.rejected])

/-- A call of the current generation has succeeded. -/
def succeed (settings : Settings) (now : Instant) (c : Circuit) : Step :=
  let recorded := [Event.success c.state]
  match c.state with
  | .closed => ({ c with failures := 0 }, recorded)
  | .opened => (c, recorded)
  | .halfOpen =>
    let c := { c with inFlight := c.inFlight - 1, successes := c.successes + 1 }
    if settings.trials.toNat ≤ c.successes then
      let (c, events) := c.moveTo now .closed
      (c, recorded ++ events)
    else (c, recorded)

/-- The failures that are counted so far open the circuit. -/
def trips (settings : Settings) (c : Circuit) : Bool :=
  match c.state with
  | .closed => settings.threshold.toNat ≤ c.failures
  | .opened => false
  | .halfOpen => true

/-- A call of the current generation has failed. -/
def fail (settings : Settings) (now : Instant) (c : Circuit) : Step :=
  let c := { c with failures := min (c.failures + 1) countLimit }
  let recorded := [Event.failure c.state c.failures]
  if c.trips settings then
    let (c, events) := c.moveTo now .opened
    (c, recorded ++ events)
  else (c, recorded)

/-- A call has ended; a stale permit changes nothing. -/
def complete (settings : Settings) (now : Instant) (p : Permit) (failed : Bool) (c : Circuit) : Step :=
  if p.generation ≠ c.generation then (c, [])
  else if failed then c.fail settings now
  else c.succeed settings now

/-- A call was given up before it ended: its trial is free again. -/
def release (p : Permit) (c : Circuit) : Circuit :=
  if p.generation = c.generation ∧ c.state = .halfOpen then { c with inFlight := c.inFlight - 1 } else c

/-- What can be done to a circuit by hand. -/
inductive Control where
  /-- Open it, or keep it open for the whole open duration from now. -/
  | forceOpen
  /-- Close it. -/
  | forceClosed
  /-- Make it as good as new. -/
  | reset
deriving DecidableEq, Repr

/-- The circuit is controlled by hand. -/
def control (now : Instant) (c : Circuit) : Control → Step
  | .forceOpen =>
    if c.state = .opened then
      ({ c with generation := c.generation + 1, changedAt := now }, [])
    else c.moveTo now .opened
  | .forceClosed => c.moveTo now .closed
  | .reset =>
    let (c, events) := c.moveTo now .closed
    ({ c with failures := 0, generation := c.generation + 1, changedAt := now }, events)

/-- The time since the last change of state, reset or forced opening. -/
def age (now : Instant) (c : Circuit) : Duration := now.since c.changedAt

end Circuit

end Breaker

end GuardedHttp
