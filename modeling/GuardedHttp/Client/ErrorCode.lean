import GuardedHttp.Http.Status

/-!
# Error codes

The codes under which failures are reported to callers, with their wire names and descriptions, and the
table that gives every status its code.
-/

namespace GuardedHttp

/-- A kind of failure, as it is reported to callers. -/
inductive ErrorCode where
  | invalidArgument
  | unauthenticated
  | permissionDenied
  | notFound
  | alreadyExists
  | internalError
  | notImplemented
  | serviceUnavailable
  | timeout
deriving DecidableEq, Repr

namespace ErrorCode

/-- The name of a code in reports. -/
def wireName : ErrorCode → String
  | invalidArgument => "INVALID_ARGUMENT"
  | unauthenticated => "UNAUTHENTICATED"
  | permissionDenied => "PERMISSION_DENIED"
  | notFound => "NOT_FOUND"
  | alreadyExists => "ALREADY_EXISTS"
  | internalError => "INTERNAL_ERROR"
  | notImplemented => "NOT_IMPLEMENTED"
  | serviceUnavailable => "SERVICE_UNAVAILABLE"
  | timeout => "TIMEOUT"

/-- What a code means, in words. -/
def description : ErrorCode → String
  | invalidArgument => "Invalid input provided"
  | unauthenticated => "Authentication required"
  | permissionDenied => "Insufficient permissions"
  | notFound => "Resource not found"
  | alreadyExists => "Resource already exists"
  | internalError => "Internal server error"
  | notImplemented => "Feature not implemented"
  | serviceUnavailable => "Service temporarily unavailable"
  | timeout => "Request timeout"

/-- The code of a status; one that is not in the table is an internal error. -/
def ofStatus (s : Status) : ErrorCode :=
  match s.code with
  | 400 | 413 | 422 => invalidArgument
  | 401 => unauthenticated
  | 403 => permissionDenied
  | 404 => notFound
  | 405 => notImplemented
  | 408 | 504 => timeout
  | 409 => alreadyExists
  | 429 | 503 => serviceUnavailable
  | _ => internalError

end ErrorCode

end GuardedHttp
