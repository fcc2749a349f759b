import GuardedHttp.Duration
import GuardedHttp.Http.Headers
import GuardedHttp.Http.Status
import GuardedHttp.Json.Reader
import GuardedHttp.Json.Writer

/-!
# Requests and responses

A `Request` is put together from parts; the first part that HTTP does not allow is the error. A
`Response` is a status with headers and a body, which can be read as a text or as JSON.
-/

namespace GuardedHttp

open Text (Bytes)

/-- The identity that ties the attempts of one call together, and calls to the work they serve. -/
structure RequestId where
  /-- The identity itself. -/
  text : String
deriving DecidableEq, Inhabited

/-- The name of the header that carries the request id. -/
def requestIdHeader : String := "x-request-id"

/-- A call to be made. -/
structure Request where
  /-- The method, a token. -/
  method : String
  /-- Where the call goes. -/
  url : String
  /-- The header fields. -/
  headers : Headers := {}
  /-- The body. -/
  body : Bytes := []
  /-- The request id, if the call has one of its own. -/
  requestId : Option RequestId := none
  /-- The moment by which every attempt must have ended, if there is one. -/
  deadline : Option Instant := none
deriving DecidableEq

/-- Why a request or response cannot be put together. -/
inductive MessageError where
  /-- The method is not a token. -/
  | invalidMethod (text : String)
  /-- A header name is not a token. -/
  | invalidHeaderName (text : String)
  /-- A header value has a control character. -/
  | invalidHeaderValue (text : String)
  /-- A status does not have three digits. -/
  | invalidStatus (code : Nat)
deriving DecidableEq

/-- A header field, its name in lower case, if name and value are allowed; the name is checked first. -/
def headerField (name value : String) : Except MessageError (String × String) :=
  if !isToken name then .error (.invalidHeaderName name)
  else if !isHeaderValue value then .error (.invalidHeaderValue value)
  else .ok (name.map Char.toLower, value)

/-- Headers of given fields, the last value of each name. -/
def Headers.ofFields (fields : List (String × String)) : Except MessageError Headers :=
  fields.foldlM (fun headers (name, value) => do
    let (name, value) ← headerField name value
    return headers.insert name value) {}

namespace Request

/-- A part of a request. -/
inductive Part where
  /-- A header field. -/
  | header (name value : String)
  /-- The body as it is sent. -/
  | body (bytes : Bytes)
  /-- A JSON value as body, which also sets the content type. -/
  | json (value : Json.Value)
  /-- The request id. -/
  | requestId (id : RequestId)

/-- The request with one more part. -/
def addPart (request : Request) : Part → Except MessageError Request
  | .header name value => do
    let (name, value) ← headerField name value
    return { request with headers := request.headers.insert name value }
  | .body bytes => .ok { request with body := bytes }
  | .json value =>
    .ok { request with
      body := Text.utf8 value.write
      headers := request.headers.insert "content-type" "application/json" }
  | .requestId id => .ok { request with requestId := some id }

/-- The request of a method, a URL and parts, added in order. -/
def assemble (method url : String) (parts : List Part) : Except MessageError Request :=
  if !isToken method then .error (.invalidMethod method)
  else parts.foldlM addPart { method, url }

/-- The request with a request id, unless it has one already. -/
def withRequestIdIfAbsent (request : Request) (id : Option RequestId) : Request :=
  { request with requestId := request.requestId.or id }

end Request

/-- The answer to a call. -/
structure Response where
  /-- The status. -/
  status : Status
  /-- The header fields. -/
  headers : Headers := {}
  /-- The body. -/
  body : Bytes := []
deriving DecidableEq, Inhabited

namespace Response

/-- The response of a status, headers and a body; the status is checked first. -/
def assemble (code : Nat) (fields : List (String × String)) (body : Bytes) :
    Except MessageError Response := do
  let some status := Status.ofNat? code | .error (.invalidStatus code)
  return { status, headers := ← Headers.ofFields fields, body }

/-- The status is one of success. -/
def isSuccess (response : Response) : Bool := response.status.isSuccess

/-- The body as a text, with U+FFFD for what is none. -/
def text (response : Response) : String := Text.decodeLossy response.body

/-- The body read as a JSON document. -/
def json {α : Type} (reader : Json.Reader α) (response : Response) : Except Json.Fault α :=
  Json.readAll reader response.body

end Response

end GuardedHttp
