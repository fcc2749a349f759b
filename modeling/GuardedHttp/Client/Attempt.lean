import GuardedHttp.Client.Transport

/-!
# One attempt

An attempt puts the request id into the request, calls the transport and turns an error status into an
error. The call is bounded by the deadline of the request: `callEnd` says when it ends and how. A call
that ends exactly at the deadline is in time.
-/

namespace GuardedHttp.Attempt

/-- The request as it is sent, its id in the header of that name. An id that no header can hold is left
out, which is reported. -/
def prepare (request : Request) : Request × List Emission :=
  match request.requestId with
  | none => (request, [])
  | some id =>
    if isHeaderValue id.text then
      ({ request with headers := request.headers.insert requestIdHeader id.text }, [])
    else
      (request, [.log .warn "request id is not a valid header value" [("request_id", id.text)]])

/-- When a call that starts now ends, and how: with its own result at `finish`, unless the deadline is
reached before. -/
def callEnd (now : Instant) (deadline finish : Option Instant)
    (result : Except TransportError Response) :
    Option Instant × Except TransportError Response :=
  match deadline with
  | none => (finish, result)
  | some deadline =>
    let bound := max deadline now
    match finish with
    | some finish => if finish ≤ bound then (some finish, result) else (some bound, .error .timeout)
    | none => (some bound, .error .timeout)

/-- When the call of a plan that starts now ends, and how; a call that hangs has no end of its own. -/
def planEnd (now : Instant) (deadline : Option Instant) :
    Plan → Option Instant × Except TransportError Response
  | .refuse e => (some now, .error e)
  | .answer after result => callEnd now deadline (some (now.wake after)) result
  | .hang => callEnd now deadline none (.error .timeout)

/-- What is reported of a call that has ended. -/
def reports (url : String) (result : Except TransportError Response) : List Emission :=
  let seen := match result with
    | .ok response =>
      [Emission.log .debug "upstream response"
        [("url", url), ("status", toString response.status.code), ("headers", response.headers.text)]]
    | .error _ => []
  let failed := match attemptResult result with
    | .ok _ => []
    | .error e => [Emission.log .debug "attempt failed" [("error", e.message), ("url", url)]]
  seen ++ failed

/-- An attempt on its own, from beginning to end. -/
structure Alone where
  /-- What the transport saw. -/
  sightings : List Sighting
  /-- What was reported, in order. -/
  emitted : List Emission
  /-- How the attempt ended. -/
  result : Except AttemptError Response
  /-- The moment at which it ended, if it did. -/
  ended : Option Instant

/-- Makes a single attempt that starts now. -/
def alone (now : Instant) (request : Request) (turn : Turn) : Alone :=
  let now := now.wake turn.readyAfter
  match turn.plan with
  | .refuse e =>
    { sightings := [.notReady now], emitted := [], result := .error (.transport e), ended := some now }
  | plan =>
    let (sent, warnings) := prepare request
    let (ended, result) := planEnd now request.deadline plan
    { sightings := [.call now sent]
      emitted := warnings ++ reports request.url result
      result := attemptResult result
      ended }

end GuardedHttp.Attempt
