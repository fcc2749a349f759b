import GuardedHttp.Json.Value
import GuardedHttp.Numeric.Shortest
import GuardedHttp.Text.Quoted

/-!
# What can be wrong with a JSON document

A `Fault` is the first thing that is wrong with a document, read from left to right: it is not JSON, it
ends too early, it holds something else than what was asked for, or a value in it stopped the program.
-/

namespace GuardedHttp.Json

/-- What stands where another kind of value was asked for. -/
inductive Found where
  /-- The null value. -/
  | null
  /-- A truth value. -/
  | bool (b : Bool)
  /-- A number. -/
  | number (n : Number)
  /-- A text. -/
  | string (s : String)
  /-- An array, of which only the bracket has been read. -/
  | array
  /-- An object, of which only the brace has been read. -/
  | object

/-- Well-formed JSON that is not what was asked for. -/
inductive Mismatch where
  /-- A member that the object does not have; the ones that it has follow. -/
  | unknownField (name : String) (known : List String)
  /-- A second member of one name. -/
  | duplicateField (name : String)
  /-- A member without which the object is incomplete. -/
  | missingField (name : String)
  /-- A value of another kind. -/
  | wrongType (found : Found) (expected : String)
  /-- A number of the right kind that is out of range. -/
  | wrongValue (found : Number) (expected : String)
  /-- An array with too few elements. -/
  | wrongLength (length : Nat) (expected : String)
  /-- A value that was refused after it had been read. -/
  | refused (message : String)

/-- The first thing that is wrong with a document. -/
inductive Fault where
  /-- It is not JSON. -/
  | malformed
  /-- It ends too early. -/
  | truncated
  /-- It is not what was asked for. -/
  | mismatch (m : Mismatch)
  /-- A value in it stopped the program, with a text that says why. -/
  | fatal (message : String)

/-- The text of a number where it is reported: whole, or with its shortest digits. -/
def Number.describe : Number → String
  | .natural n => "integer `" ++ toString n ++ "`"
  | .negative n => "integer `-" ++ toString n ++ "`"
  | .real x => "floating point `" ++ Numeric.decimalText x ++ "`"

/-- The text of what was found. -/
def Found.describe : Found → String
  | .null => "null"
  | .bool b => "boolean `" ++ (if b then "true" else "false") ++ "`"
  | .number n => n.describe
  | .string s => "string " ++ Text.quote s
  | .array => "sequence"
  | .object => "map"

/-- The text of a mismatch, as it is reported. -/
def Mismatch.message : Mismatch → String
  | .unknownField name known =>
    "unknown field `" ++ name ++ "`, expected one of "
      ++ String.intercalate ", " (known.map fun k => "`" ++ k ++ "`")
  | .duplicateField name => "duplicate field `" ++ name ++ "`"
  | .missingField name => "missing field `" ++ name ++ "`"
  | .wrongType found expected => "invalid type: " ++ found.describe ++ ", expected " ++ expected
  | .wrongValue found expected => "invalid value: " ++ found.describe ++ ", expected " ++ expected
  | .wrongLength length expected => "invalid length " ++ toString length ++ ", expected " ++ expected
  | .refused message => message

end GuardedHttp.Json
