import GuardedHttp.Client
import GuardedHttp.Stack.Service

/-!
# Layers

A layer makes services from services. There are three: `guarded` asks a breaker whether a call may be made,
`retried` makes a call again if it has failed, and `attempted` bounds a call by the deadline of its request.
A client's stack consists of all three.

The services of the first and of the last are as ready as those inside. They keep a clone when they are
called, and the service that has become ready goes into the call; it is called when the call first runs. A
service that retries is always ready: each attempt clones, and waits until the clone is ready.
-/

namespace GuardedHttp.Stack

variable {ρ α ε : Type}

/-- A call that takes its service along. -/
inductive Relay (S : Service ρ α ε) (κ : Type) where
  /-- It has not run; the service will be called. -/
  | waiting (service : Instance) (request : ρ)
  /-- The service has been called. -/
  | running (ticket : κ) (call : S.Call)
  /-- It is over. -/
  | ended

/-! ## Guarding -/

section

variable (b : Breaker) (classify : Breaker.Classifier α ε) (S : Service ρ α ε)

/-- A guarded call runs: the breaker admits it or not, and hears how it ends. -/
def guardedPoll (call : Relay S Breaker.Permit) (w : World) :
    Poll (Except (GuardedError ε) α) × Relay S Breaker.Permit × World :=
  match call with
  | .waiting service request =>
    match b.start w.now w.circuit with
    | (none, u) => (.ready (.error .rejected), .ended, w.absorb u)
    | (some permit, u) =>
      let (call, _, w) := S.call request service (w.absorb u)
      (.pending, .running permit call, w)
  | .running permit call =>
    match S.poll call w with
    | (.pending, call, w) => (.pending, .running permit call, w)
    | (.ready result, _, w) =>
      (.ready (result.mapError .inner), .ended,
        w.absorb (b.complete w.now permit (classify result) w.circuit))
  | .ended => (.pending, .ended, w)

/-- Services behind a breaker. -/
def guarded : Service ρ α (GuardedError ε) where
  Call := Relay S Breaker.Permit
  ask service w :=
    let (said, w) := S.ask service w
    (said.map (Except.mapError .inner), w)
  call request service w :=
    let (copy, w) := w.clone service
    (.waiting service request, copy, w)
  poll := guardedPoll b classify S
  drop
    | .running permit call, w =>
      let w := S.drop call w
      w.absorb (Breaker.abandon permit w.circuit)
    | .waiting .., w | .ended, w => w

end

/-! ## Retrying -/

/-- What a retried call remembers. -/
structure Course (ρ : Type) where
  /-- The service that is cloned for each attempt. -/
  service : Instance
  /-- The request. -/
  request : ρ
  /-- The moment at which the call began to run. -/
  started : Instant
  /-- The index of the current attempt. -/
  attempt : Nat

/-- A call that is made again if it has failed. -/
inductive Retrying (S : Service ρ α ε) where
  /-- It has not run. -/
  | begun (service : Instance) (request : ρ)
  /-- The clone for the current attempt is not ready yet. -/
  | readying (course : Course ρ) (copy : Instance)
  /-- The current attempt is being made. -/
  | calling (course : Course ρ) (call : S.Call)
  /-- It rests until the next attempt. -/
  | resting (course : Course ρ) (due : Instant)
  /-- It is over. -/
  | ended

section

variable (policy : Retry.Policy ε) (S : Service ρ α ε)

/-- An attempt begins with a clone of its own. -/
def launch (course : Course ρ) (w : World) : Poll (Except ε α) × Retrying S × World :=
  let (copy, w) := w.clone course.service
  (.pending, .readying course copy, w)

/-- An attempt has ended: the call rests before the next one, or is over. -/
def settle (course : Course ρ) (result : Except ε α) (w : World) :
    Poll (Except ε α) × Retrying S × World :=
  let verdict := policy.judge (w.now.since course.started) course.attempt result
  let w := w.hear policy.name course.attempt verdict
  match verdict with
  | .retry delay => (.pending, .resting course (w.now.wake delay), w)
  | .success | .ignored | .exhausted | .deadline _ => (.ready result, .ended, w)

/-- A retried call runs. -/
def retriedPoll (call : Retrying S) (w : World) : Poll (Except ε α) × Retrying S × World :=
  match call with
  | .begun service request => launch S ⟨service, request, w.now, 0⟩ w
  | .readying course copy =>
    match S.ask copy w with
    | (.pending, w) => (.pending, .readying course copy, w)
    | (.ready (.error e), w) => settle policy S course (.error e) w
    | (.ready (.ok ()), w) =>
      let (call, _, w) := S.call course.request copy w
      (.pending, .calling course call, w)
  | .calling course call =>
    match S.poll call w with
    | (.pending, call, w) => (.pending, .calling course call, w)
    | (.ready result, _, w) => settle policy S course result w
  | .resting course due =>
    if due ≤ w.now then launch S { course with attempt := course.attempt + 1 } w
    else (.pending, .resting course due, w)
  | .ended => (.pending, .ended, w)

/-- Services that make their calls again. -/
def retried : Service ρ α ε where
  Call := Retrying S
  ask _ w := (.ready (.ok ()), w)
  call request service w :=
    let (copy, w) := w.clone service
    (.begun copy request, service, w)
  poll := retriedPoll policy S
  drop
    | .calling _ call, w => S.drop call w
    | .begun .., w | .readying .., w | .resting .., w | .ended, w => w

end

/-! ## Single attempts -/

/-- What an attempt remembers of its request. -/
structure Errand where
  /-- The address. -/
  url : String
  /-- The moment by which it has to be answered, if there is one. -/
  deadline : Option Instant

section

variable (S : Service Request Response TransportError)

/-- The call of an attempt has ended. -/
def attemptedEnd (url : String) (result : Except TransportError Response) (w : World) :
    Poll (Except AttemptError Response) × Relay S Errand × World :=
  (.ready (attemptResult result), .ended, w.report (Attempt.reports url result))

/-- An attempt runs. A call that is not there by the deadline is dropped. -/
def attemptedPoll (call : Relay S Errand) (w : World) :
    Poll (Except AttemptError Response) × Relay S Errand × World :=
  match call with
  | .waiting service request =>
    let (call, _, w) := S.call request service w
    (.pending, .running ⟨request.url, request.deadline⟩ call, w)
  | .running errand call =>
    match S.poll call w with
    | (.ready result, _, w) => attemptedEnd S errand.url result w
    | (.pending, call, w) =>
      if errand.deadline.any (· ≤ w.now) then
        attemptedEnd S errand.url (.error .timeout) (S.drop call w)
      else (.pending, .running errand call, w)
  | .ended => (.pending, .ended, w)

/-- Services that make single attempts. -/
def attempted : Service Request Response AttemptError where
  Call := Relay S Errand
  ask service w :=
    let (said, w) := S.ask service w
    (said.map (Except.mapError .transport), w)
  call request service w :=
    let (copy, w) := w.clone service
    let (sent, warnings) := Attempt.prepare request
    (.waiting service sent, copy, w.report warnings)
  poll := attemptedPoll S
  drop
    | .running _ call, w => S.drop call w
    | .waiting .., w | .ended, w => w

end

/-! ## Stacks -/

/-- The stack of a client over a transport. -/
def clientStack (config : Config) (transport : Nature Request Response TransportError) :
    Service Request Response (GuardedError AttemptError) :=
  guarded config.breaker countsAsFailure <|
    retried config.retryPolicy <| attempted <| innermost transport

/-- Any number of layers around innermost services. -/
inductive Stacked : {ρ α ε : Type} → Service ρ α ε → Prop where
  /-- No layer at all. -/
  | innermost {ρ α ε : Type} (nature : Nature ρ α ε) : Stacked (innermost nature)
  /-- A breaker around a stack. -/
  | guarded {ρ α ε : Type} {S : Service ρ α ε} (b : Breaker) (classify : Breaker.Classifier α ε)
    (inside : Stacked S) : Stacked (guarded b classify S)
  /-- Retries around a stack. -/
  | retried {ρ α ε : Type} {S : Service ρ α ε} (policy : Retry.Policy ε) (inside : Stacked S) :
    Stacked (retried policy S)
  /-- Attempts around a stack. -/
  | attempted {S : Service Request Response TransportError} (inside : Stacked S) : Stacked (attempted S)

/-- One layer or several around innermost services. -/
inductive Layered : {ρ α ε : Type} → Service ρ α ε → Prop where
  /-- The outermost layer is a breaker. -/
  | guarded {ρ α ε : Type} {S : Service ρ α ε} (b : Breaker) (classify : Breaker.Classifier α ε)
    (inside : Stacked S) : Layered (guarded b classify S)
  /-- The outermost layer retries. -/
  | retried {ρ α ε : Type} {S : Service ρ α ε} (policy : Retry.Policy ε) (inside : Stacked S) :
    Layered (retried policy S)
  /-- The outermost layer makes attempts. -/
  | attempted {S : Service Request Response TransportError} (inside : Stacked S) : Layered (attempted S)

/-- A client's stack has three layers. -/
theorem layered_clientStack (config : Config) (transport : Nature Request Response TransportError) :
    Layered (clientStack config transport) :=
  .guarded _ _ (.retried _ (.attempted (.innermost transport)))

end GuardedHttp.Stack
