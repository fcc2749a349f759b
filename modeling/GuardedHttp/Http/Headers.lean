import GuardedHttp.Text.Hex

/-!
# Header fields

Names and methods are tokens; names are kept in lower case. A header value is a text without control
characters, tabs apart. `Headers` keeps one value under each name, in the order in which the names came
first.

Main statement: `Headers.get?_insert`, a value that is put in is found under its name and changes no
other.
-/

namespace GuardedHttp

open Text (Bytes)

/-- The character may stand in a token. -/
def isTokenChar (c : Char) : Bool :=
  c.isAlphanum || "!#$%&'*+-.^_`|~".toList.contains c

/-- The text is a token: at least one character, all of them token characters. -/
def isToken (s : String) : Bool := !s.isEmpty && s.toList.all isTokenChar

/-- The byte may stand in a header value. -/
def isValueByte (b : UInt8) : Bool := b == 0x09 || (0x20 ≤ b && b != 0x7F)

/-- The text may be a header value. -/
def isHeaderValue (s : String) : Bool := (Text.utf8 s).all isValueByte

/-- Header fields, one value under each name. -/
structure Headers where
  /-- The names and values, in the order in which the names came first. -/
  fields : List (String × String) := []
deriving DecidableEq, Inhabited

namespace Headers

/-- Puts a value under a name, in the place of an earlier one. -/
def insertField (name value : String) : List (String × String) → List (String × String)
  | [] => [(name, value)]
  | (n, v) :: rest =>
    if n = name then (name, value) :: rest else (n, v) :: insertField name value rest

/-- The headers with a value put under a name. -/
def insert (headers : Headers) (name value : String) : Headers :=
  ⟨insertField name value headers.fields⟩

/-- The value under a name. -/
def get? (headers : Headers) (name : String) : Option String := headers.fields.lookup name

/-- The fields in ascending order of their names. -/
def sorted (headers : Headers) : List (String × String) :=
  headers.fields.mergeSort fun a b => a.1 ≤ b.1

/-- What stands for one byte of a value where headers are shown. -/
def showByte (b : UInt8) : List Char :=
  if b = '"'.toUInt8 then ['\\', '"']
  else if b = 0x09 ∨ (0x20 ≤ b ∧ b < 0x7F) then [Char.ofNat b.toNat]
  else ['\\', 'x'] ++ Nat.toDigits 16 b.toNat

/-- One field where headers are shown. -/
def showField (field : String × String) : String :=
  "\"" ++ field.1 ++ "\": \"" ++ String.ofList ((Text.utf8 field.2).flatMap showByte) ++ "\""

/-- The headers as they are shown, in the order in which the names came first. -/
def text (headers : Headers) : String :=
  "\x7b" ++ String.intercalate ", " (headers.fields.map showField) ++ "\x7d"

/-- A value that is put under a name is found there, and changes no other. -/
theorem lookup_insertField (name value other : String) (fields : List (String × String)) :
    (insertField name value fields).lookup other =
      if other = name then some value else fields.lookup other := by
  induction fields with
  | nil =>
    by_cases h : other = name
    · simp [insertField, h]
    · simp [insertField, List.lookup_cons, h, beq_eq_false_iff_ne.mpr h]
  | cons f rest ih =>
    obtain ⟨n, v⟩ := f
    simp only [insertField]
    by_cases hn : n = name
    · subst hn
      by_cases h : other = n
      · simp [h]
      · simp [List.lookup_cons, h, beq_eq_false_iff_ne.mpr h]
    · rw [if_neg hn]
      by_cases h : other = n
      · subst h
        simp [hn]
      · simp [List.lookup_cons, beq_eq_false_iff_ne.mpr h, ih]

/-- A value that is put in is found under its name and changes no other. -/
theorem get?_insert (headers : Headers) (name value other : String) :
    (headers.insert name value).get? other =
      if other = name then some value else headers.get? other :=
  lookup_insertField name value other headers.fields

end Headers

end GuardedHttp
