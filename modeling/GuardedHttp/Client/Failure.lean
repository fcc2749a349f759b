import GuardedHttp.Breaker.Call
import GuardedHttp.Client.ErrorCode
import GuardedHttp.Http.Message

/-!
# Failures, layer by layer

A `TransportError` is what the transport reports, an `AttemptError` what is wrong with one attempt, and
a `ClientError` what a caller is told. `ClientError.ofGuarded` sorts the failure of a call through the
breaker for the caller.
-/

namespace GuardedHttp

/-- Why a transport has no response. -/
inductive TransportError where
  /-- It took too long. -/
  | timeout
  /-- There was no connection. -/
  | connect (reason : String)
  /-- The call failed otherwise. -/
  | request (reason : String)
deriving DecidableEq

/-- The text of a transport error. -/
def TransportError.message : TransportError → String
  | .timeout => "request timed out"
  | .connect reason => "connection failed: " ++ reason
  | .request reason => "request failed: " ++ reason

/-- What is wrong with one attempt. -/
inductive AttemptError where
  /-- There is no response. -/
  | transport (e : TransportError)
  /-- The response has an error status. -/
  | status (response : Response)
deriving DecidableEq

namespace AttemptError

/-- The text of an error. -/
def message : AttemptError → String
  | transport e => e.message
  | status response => "upstream responded with status " ++ response.status.text

/-- Another attempt may succeed: there is no response, or the service is at fault. -/
def isRetryable : AttemptError → Bool
  | transport _ => true
  | status response => response.status.isServerError

end AttemptError

/-- The result of one attempt: an error status is an error. -/
def attemptResult : Except TransportError Response → Except AttemptError Response
  | .error e => .error (.transport e)
  | .ok response =>
    if response.status.isClientError || response.status.isServerError then .error (.status response)
    else .ok response

/-- The failure of a client's call, as its caller is told. -/
inductive ClientError where
  /-- The circuit did not admit the call. -/
  | breakerOpen
  /-- The call took too long. -/
  | timeout (cause : TransportError)
  /-- There is no response. -/
  | network (cause : TransportError)
  /-- The response has a status that is no success. -/
  | badStatus (status : Status) (body : Text.Bytes)
  /-- The body of a good response is not what was asked for. -/
  | decode (fault : Json.Fault)

/-- A failure as it is passed on. -/
structure ErrorReport where
  /-- The kind of failure. -/
  code : ErrorCode
  /-- The failure in words. -/
  message : String
  /-- The status of the response, if there was one. -/
  status : Option Status
deriving DecidableEq

namespace ClientError

/-- The failure of a call through the breaker, sorted for the caller. -/
def ofGuarded : GuardedError AttemptError → ClientError
  | .rejected => breakerOpen
  | .inner (.status response) => badStatus response.status response.body
  | .inner (.transport .timeout) => timeout .timeout
  | .inner (.transport e) => network e

/-- The text of a failure. -/
def message : ClientError → String
  | breakerOpen => "upstream unavailable: circuit breaker is open"
  | timeout _ => "upstream call timed out"
  | network _ => "network error calling upstream"
  | badStatus status _ => "upstream responded with status " ++ status.text
  | decode _ => "failed to decode upstream response"

/-- The kind of a failure. -/
def code : ClientError → ErrorCode
  | breakerOpen | network _ => .serviceUnavailable
  | timeout _ => .timeout
  | badStatus status _ => .ofStatus status
  | decode _ => .internalError

/-- The status of the response, if there was one. -/
def status? : ClientError → Option Status
  | badStatus status _ => some status
  | _ => none

/-- The circuit did not admit the call. -/
def isBreakerOpen : ClientError → Bool
  | breakerOpen => true
  | _ => false

/-- The transport error underneath, if there is one. -/
def cause? : ClientError → Option TransportError
  | timeout e | network e => some e
  | _ => none

/-- The failure as it is passed on. -/
def report (e : ClientError) : ErrorReport := ⟨e.code, e.message, e.status?⟩

end ClientError

/-- A call counts against the breaker when its last attempt failed in a way that another attempt might
have mended. -/
def countsAsFailure : Except AttemptError Response → Bool
  | .ok _ => false
  | .error e => e.isRetryable

end GuardedHttp
