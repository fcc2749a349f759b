import GuardedHttp.Breaker.Delivery
import GuardedHttp.Text.Quoted

/-!
# Calls through a breaker

A call asks the breaker for a permit, runs, and tells the breaker how it ended. `Breaker.acquire`,
`Breaker.complete` and `Breaker.abandon` are these steps; `Breaker.call` is a whole call, and
`Breaker.use` the use of a service behind the breaker, which has to be ready first. A service that is
not ready fails past the breaker.
-/

namespace GuardedHttp

/-- The failure of a call through a circuit breaker. -/
inductive GuardedError (ε : Type) where
  /-- The circuit did not admit the call. -/
  | rejected
  /-- The call was made and failed. -/
  | inner (e : ε)
deriving DecidableEq

namespace GuardedError

variable {ε : Type}

/-- The circuit did not admit the call. -/
def isRejected : GuardedError ε → Bool
  | rejected => true
  | inner _ => false

/-- The error of a call that was made. -/
def inner? : GuardedError ε → Option ε
  | rejected => none
  | inner e => some e

/-- The text of a failure, given the text of the call's own error. -/
def message (text : ε → String) : GuardedError ε → String
  | rejected => "circuit is open; call not permitted"
  | inner e => "inner call failed: " ++ text e

end GuardedError

namespace Breaker

open Circuit (Control)

variable {α ε : Type}

/-- How a guarded call ends. -/
inductive Outcome (α ε : Type) where
  /-- It returns a value or an error. -/
  | returned (result : Except ε α)
  /-- It panics. -/
  | panicked (message : String)

/-- What the caller of a guarded call gets. -/
inductive CallResult (α ε : Type) where
  /-- A value or a failure. -/
  | ended (result : Except (GuardedError ε) α)
  /-- The panic of the call. -/
  | panicked (message : String)

/-- Which results of a call count as failures. -/
abbrev Classifier (α ε : Type) := Except ε α → Bool

/-- Every error counts as a failure. -/
def anyError : Classifier α ε
  | .ok _ => false
  | .error _ => true

/-- Asks for a permit. -/
def acquire (b : Breaker) (now : Instant) (c : Circuit) : Option Permit × Update :=
  let (permit, step) := c.acquire b.settings now
  let u := b.update now step { circuit := c }
  let message :=
    if permit.isSome then "circuit breaker permitted call" else "circuit breaker rejected call"
  (permit, { u with emitted := u.emitted ++ [.log .trace message [("breaker", b.settings.name)]] })

/-- Tells the breaker that a call has ended. -/
def complete (b : Breaker) (now : Instant) (p : Permit) (failed : Bool) (c : Circuit) : Update :=
  b.update now (c.complete b.settings now p failed) { circuit := c }

/-- Gives a call up before it has ended, which nobody hears of. -/
def abandon (p : Permit) (c : Circuit) : Update := { circuit := c.release p }

/-- Controls the circuit by hand. -/
def control (b : Breaker) (now : Instant) (how : Control) (c : Circuit) : Update :=
  b.update now (c.control now how) { circuit := c }

/-- What has been seen and reported so far, followed by what a later update adds. -/
def Update.followedBy (u later : Update) : Update :=
  { circuit := later.circuit
    events := u.events ++ later.events
    emitted := u.emitted ++ later.emitted
    notes := u.notes ++ later.notes
    undelivered := u.undelivered ++ later.undelivered }

/-- Begins a call: without a permit it is rejected, and with one its code starts to run. -/
def start (b : Breaker) (now : Instant) (c : Circuit) : Option Permit × Update :=
  match b.acquire now c with
  | (none, u) => (none, u)
  | (some p, u) => (some p, { u with notes := u.notes ++ [.invoked] })

/-- Ends a call that holds a permit. A call that panics is given up. -/
def finish (b : Breaker) (classify : Classifier α ε) (now : Instant) (p : Permit)
    (outcome : Outcome α ε) (c : Circuit) : CallResult α ε × Update :=
  match outcome with
  | .returned result => (.ended (result.mapError .inner), b.complete now p (classify result) c)
  | .panicked message => (.panicked message, abandon p c)

/-- Makes a whole call at one moment. -/
def call (b : Breaker) (classify : Classifier α ε) (now : Instant) (outcome : Outcome α ε)
    (c : Circuit) : CallResult α ε × Update :=
  match b.start now c with
  | (none, u) => (.ended (.error .rejected), u)
  | (some p, u) =>
    let (result, later) := b.finish classify now p outcome u.circuit
    (result, u.followedBy later)

/-- How a service behind a breaker meets a use of it. -/
inductive Service (α ε : Type) where
  /-- It is not ready. -/
  | unready (e : ε)
  /-- It is ready, and the call ends like this. -/
  | ready (outcome : Outcome α ε)

/-- Drives a service to readiness and calls it through the breaker. -/
def use (b : Breaker) (classify : Classifier α ε) (now : Instant) (service : Service α ε)
    (c : Circuit) : CallResult α ε × Update :=
  match service with
  | .unready e => (.ended (.error (.inner e)), { circuit := c })
  | .ready outcome => b.call classify now outcome c

/-- The text that shows a breaker. -/
def describe (b : Breaker) (c : Circuit) : String :=
  "CircuitBreaker \x7b name: " ++ Text.quote b.settings.name ++ ", state: " ++ c.published.name ++ " \x7d"

end Breaker

end GuardedHttp
