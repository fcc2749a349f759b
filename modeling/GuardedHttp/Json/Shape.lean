import GuardedHttp.Json.Reader

/-!
# Shapes of JSON values

A `Shape` says what a document must hold. `Shape.read` reads a value of a shape: members that a record
does not have are passed over, a record may also be written as the array of its members' values, and
nothing may be missing or given twice.
-/

namespace GuardedHttp.Json

/-- What a value must look like. -/
inductive Shape where
  /-- Any value. -/
  | any
  /-- A natural below `2 ^ bits`. -/
  | natural (bits : Nat)
  /-- A text. -/
  | text
  /-- An array whose elements have one shape. -/
  | list (element : Shape)
  /-- An object with these members. -/
  | record (name : String) (members : List (String × Shape))

/-- What a record is called where one was expected. -/
def recordName (name : String) : String := "struct " ++ name

/-- The members of a record that have been read, in any order. -/
abbrev Given := List (String × Value)

/-- The members of a record in its own order; the first one that is missing is the fault. -/
def completeRecord (given : Given) : List (String × Shape) → Except Fault (List (String × Value))
  | [] => .ok []
  | (key, _) :: rest =>
    match given.lookup key with
    | none => .error (.mismatch (.missingField key))
    | some v => do return (key, v) :: (← completeRecord given rest)

/-- One less than the depth that is left, if any is left. -/
def deeper : (depth : Nat) → Except Fault Nat
  | 0 => .error .malformed
  | depth + 1 => .ok depth

mutual

/-- Reads a value of a shape in which at most `depth` arrays and objects are nested. -/
def Shape.readWithin : Shape → (depth : Nat) → Reader Value
  | .any, depth => value .keeping depth
  | .natural bits, _ => fun input => do
    let (n, rest) ← expectNatural (Nat.pow 2 bits) ("u" ++ toString bits) input
    return (.nat n, rest)
  | .text, _ => fun input => do
    let (s, rest) ← expectText input
    return (.string s, rest)
  | .list element, depth => fun input => do
    match ← found input with
    | (.array, rest) =>
      let depth ← deeper depth
      let (xs, rest) ← array (element.readWithin depth) rest
      return (.array xs, rest)
    | (other, _) => .error (.mismatch (.wrongType other "a sequence"))
  | .record name members, depth => fun input => do
    match ← found input with
    | (.object, rest) =>
      let depth ← deeper depth
      let member (given : Given) (key : String) (input : Text.Bytes) : Except Fault (Given × Text.Bytes) :=
        Shape.readMember members depth given key input
      let (given, rest) ← foldMembers .keeping member (rest.length + 1) true [] rest
      let complete ← completeRecord given members
      return (.ofMembers complete, ← endObject rest)
    | (.array, rest) =>
      let depth ← deeper depth
      let expected := recordName name ++ " with " ++ toString members.length ++ " elements"
      let (given, rest) ← Shape.readRow members depth expected 0 rest
      return (.ofMembers given, ← endArray rest)
    | (other, _) => .error (.mismatch (.wrongType other (recordName name)))

/-- Reads the member of a key, or passes over it if the record has none of that name. -/
def Shape.readMember : List (String × Shape) → (depth : Nat) → Given → String → Reader Given
  | [], _, given, _ => fun input => do
    let (_, rest) ← skip (← colon input)
    return (given, rest)
  | (k, shape) :: rest, depth, given, key => fun input => do
    if k ≠ key then Shape.readMember rest depth given key input
    else if (given.lookup key).isSome then .error (.mismatch (.duplicateField key))
    else
      let (v, rest) ← shape.readWithin depth (← colon input)
      return ((key, v) :: given, rest)

/-- Reads the values of members in order; `index` of them have been read. -/
def Shape.readRow : List (String × Shape) → (depth : Nat) → (expected : String) → (index : Nat) →
    Reader Given
  | [], _, _, _ => fun input => .ok ([], input)
  | (key, shape) :: members, depth, expected, index => fun input => do
    match ← nextElement (index == 0) input with
    | none => .error (.mismatch (.wrongLength index expected))
    | some input =>
      let (v, rest) ← shape.readWithin depth input
      let (given, rest) ← Shape.readRow members depth expected (index + 1) rest
      return ((key, v) :: given, rest)

end

/-- Reads a value of a shape. -/
def Shape.read (shape : Shape) : Reader Value := shape.readWithin depthLimit

end GuardedHttp.Json
