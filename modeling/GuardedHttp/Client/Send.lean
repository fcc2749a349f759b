import GuardedHttp.Client
import GuardedHttp.Json.Shape

/-!
# A call of a client

A `Send` is a call on its way. It waits until it begins, asks the breaker for a permit, and makes
attempts: each waits for the transport to be ready, calls it within the deadline, and is followed by a
rest if the retry policy decides to try again. The breaker hears of the last attempt only.

`Send.step` takes a call that is due one stage further, `Send.poll` takes it as far as it gets at this
moment, inside its scopes, and then looks whether it has been given up.
-/

namespace GuardedHttp.Client

/-- A call that the breaker has admitted. -/
structure Admitted where
  /-- The request, with its request id and deadline. -/
  request : Request
  /-- The moment at which the call began. -/
  started : Instant
  /-- The right to make it. -/
  permit : Breaker.Permit
  /-- The moment at which the caller gives it up, if there is one. -/
  givenUpAt : Option Instant
  /-- The index of its current attempt. -/
  attempt : Nat
deriving DecidableEq

/-- What a call does between two moments at which it runs. -/
inductive Phase where
  /-- It waits for the transport to be ready. -/
  | readying (due : Instant) (plan : Plan)
  /-- The transport has been called; the call ends at some moment, if ever, with a result. -/
  | calling (ends : Option Instant) (result : Except TransportError Response)
  /-- It rests between two attempts. -/
  | resting (due : Instant)

/-- What a caller gets. -/
inductive SendResult where
  /-- A response or a failure, after some time. -/
  | ended (result : Except ClientError Response) (elapsed : Duration)
  /-- Nothing, since it gave up. -/
  | cancelled

/-- How far a call is. -/
inductive Stage where
  /-- It has not begun. -/
  | waiting (due : Instant)
  /-- It is being made. -/
  | active (call : Admitted) (phase : Phase)
  /-- It is over. -/
  | over (result : SendResult)

/-- A call on its way. -/
structure Send where
  /-- The request as the caller put it together. -/
  request : Request
  /-- The ids of the scopes around the call, outermost first. -/
  scopes : List RequestId := []
  /-- The time after which the caller gives up, if there is one. -/
  patience : Option Duration := none
  /-- How far it is. -/
  stage : Stage

/-- The moment at which a phase ends, if it does. -/
def Phase.due : Phase → Option Instant
  | readying due _ => some due
  | calling ends _ => ends
  | resting due => some due

/-- The earlier of two moments, one of which may not come. -/
def earlier : Option Instant → Option Instant → Option Instant
  | some a, some b => some (min a b)
  | a, none => a
  | none, b => b

namespace Stage

/-- The moment at which a call gets further by itself, if it does. -/
def due : Stage → Option Instant
  | waiting due => some due
  | active _ phase => phase.due
  | .over _ => none

/-- The moment at which a call runs again, if it does. -/
def wake : Stage → Option Instant
  | active call phase => earlier phase.due call.givenUpAt
  | stage => stage.due

/-- The result of a call that is over. -/
def result? : Stage → Option SendResult
  | .over result => some result
  | _ => none

end Stage

/-- A call that is over is reported, and its result passed on. -/
def conclude (config : Config) (w : World) (request : Request) (started : Instant)
    (result : Except (GuardedError AttemptError) Response) : World × Stage :=
  let elapsed := w.now.since started
  let result := result.mapError ClientError.ofGuarded
  let about := [("client", config.name), ("method", request.method), ("url", request.url)]
  let latency := [("latency", elapsed.compact)]
  let (line, outcome) := match result with
    | .ok response =>
      (Emission.log .info "request completed"
        (about ++ [("status", toString response.status.code)] ++ latency), "success")
    | .error e =>
      (Emission.log .warn "request failed"
        (about ++ [("code", e.code.wireName), ("error", e.message)] ++ latency), e.code.wireName)
  let w := w.report
    [line,
     .count "http_client_requests_total" [("method", request.method), ("outcome", outcome)],
     .sample (.observe ⟨"http_client_request_duration_seconds", [("method", request.method)]⟩
      elapsed.toSeconds)]
  (w, .over (.ended result elapsed))

/-- An attempt begins: the transport is asked whether it is ready. -/
def launch (w : World) (call : Admitted) : World × Stage :=
  let (turn, transport) := w.transport.next
  ({ w with transport }, .active call (.readying (w.now.wake turn.readyAfter) turn.plan))

/-- An attempt has ended: the call rests before the next one, or is over. -/
def settle (config : Config) (w : World) (call : Admitted) (result : Except AttemptError Response) :
    World × Stage :=
  let policy := config.retryPolicy
  let verdict := policy.judge (w.now.since call.started) call.attempt result
  let w := w.report (verdict.emissions policy.name call.attempt)
  match verdict with
  | .retry delay => (w, .active call (.resting (w.now.wake delay)))
  | _ =>
    let w := w.absorb (config.breaker.complete w.now call.permit (countsAsFailure result) w.circuit)
    conclude config w call.request call.started (result.mapError .inner)

namespace Send

/-- The call begins, if the breaker admits it. -/
def begin (config : Config) (w : World) (s : Send) : World × Stage :=
  let request := { s.request.withRequestIdIfAbsent w.slot with deadline := w.now.after? config.timeout }
  let (permit, u) := config.breaker.acquire w.now w.circuit
  let w := w.absorb u
  match permit with
  | none => conclude config w request w.now (.error .rejected)
  | some permit =>
    launch w
      { request, started := w.now, permit, givenUpAt := s.patience.map w.now.wake, attempt := 0 }

/-- The transport has said whether it is ready: it is called, or the attempt has ended. -/
def place (config : Config) (w : World) (call : Admitted) (plan : Plan) : World × Stage :=
  match plan with
  | .refuse e => settle config (w.see (.notReady w.now)) call (.error (.transport e))
  | plan =>
    let (sent, warnings) := Attempt.prepare call.request
    let (ends, result) := Attempt.planEnd w.now call.request.deadline plan
    ((w.report warnings).see (.call w.now sent), .active call (.calling ends result))

/-- A call that is due goes one stage further. -/
def step (config : Config) (w : World) (s : Send) : World × Stage :=
  match s.stage with
  | .waiting _ => s.begin config w
  | .active call (.readying _ plan) => place config w call plan
  | .active call (.calling _ result) =>
    settle config (w.report (Attempt.reports call.request.url result)) call (attemptResult result)
  | .active call (.resting _) => launch w { call with attempt := call.attempt + 1 }
  | .over _ => (w, s.stage)

/-- The call can go further at a moment. -/
def isDue (now : Instant) (s : Send) : Bool :=
  match s.stage.due with
  | some due => due ≤ now
  | none => false

/-- A call goes on for as long as it is due, at most so many stages. -/
def run (config : Config) : (stages : Nat) → World → Send → World × Send
  | 0, w, s => (w, s)
  | stages + 1, w, s =>
    if s.isDue w.now then
      let (w, stage) := s.step config w
      run config stages w { s with stage }
    else (w, s)

/-- How many stages a call can have: it begins, and each attempt has three. -/
def stageLimit (config : Config) : Nat := 3 * config.maxAttempts + 1

/-- A call whose caller has lost patience is dropped. -/
def dropIfGivenUp (w : World) (s : Send) : World × Send :=
  match s.stage with
  | .active call _ =>
    match call.givenUpAt with
    | some moment =>
      if moment ≤ w.now then
        (w.absorb (Breaker.abandon call.permit w.circuit), { s with stage := .over .cancelled })
      else (w, s)
    | none => (w, s)
  | _ => (w, s)

/-- The call runs as far as it gets, inside its scopes; what its scopes put into the slot is taken out
again. -/
def poll (config : Config) (w : World) (s : Send) : World × Send :=
  let outer := w.slot
  let (w, s) := s.run config (stageLimit config) { w with slot := Correlation.enterAll s.scopes outer }
  let (w, s) := s.dropIfGivenUp w
  ({ w with slot := outer }, s)

end Send

/-! ## What the caller makes of the response -/

/-- The body of a good response as a value of a shape. A status that is no success is a failure, and so
is a body of another shape. -/
def decoded (shape : Json.Shape) (result : Except ClientError Response) :
    Except ClientError Json.Value := do
  let response ← result
  if !response.isSuccess then .error (.badStatus response.status response.body)
  else (response.json shape.read).mapError .decode

end GuardedHttp.Client
