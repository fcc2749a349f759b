/-!
# JSON values

A `Json.Value` keeps the difference between whole numbers and floating-point ones, and the members of
an object in ascending order of their keys, one for each key.
-/

namespace GuardedHttp.Json

/-- A JSON number, as it is kept. -/
inductive Number where
  /-- A natural. -/
  | natural (n : Nat)
  /-- A whole number below zero, `-n`. -/
  | negative (n : Nat)
  /-- A number in floating point. -/
  | real (x : Float)

/-- A JSON value. -/
inductive Value where
  /-- The null value. -/
  | null
  /-- A truth value. -/
  | bool (b : Bool)
  /-- A number. -/
  | number (n : Number)
  /-- A text. -/
  | string (s : String)
  /-- A row of values. -/
  | array (elements : List Value)
  /-- Values under keys, in ascending order of the keys. -/
  | object (members : List (String × Value))

namespace Value

instance : Inhabited Value := ⟨.null⟩

/-- The members with one more, which takes the place of an earlier one under its key. -/
def insertMember (key : String) (value : Value) : List (String × Value) → List (String × Value)
  | [] => [(key, value)]
  | (k, v) :: rest =>
    if key < k then (key, value) :: (k, v) :: rest
    else if key = k then (key, value) :: rest
    else (k, v) :: insertMember key value rest

/-- The object of some members, the last one of each key. -/
def ofMembers (members : List (String × Value)) : Value :=
  .object (members.foldl (fun done (k, v) => insertMember k v done) [])

/-- A natural as a value. -/
def nat (n : Nat) : Value := .number (.natural n)

/-- The member of an object under a key. -/
def get? (key : String) : Value → Option Value
  | .object members => (members.find? (·.1 = key)).map (·.2)
  | _ => none

end Value

end GuardedHttp.Json
