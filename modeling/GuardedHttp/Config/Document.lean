import GuardedHttp.Config.Environment
import GuardedHttp.Json.Reader

/-!
# Configuration from a JSON document

A configuration is written as an object with the settings under their keys, or as an array of their
values in the order of `Setting.all`. Settings that are left out keep their defaults. Durations are
texts of spans, read without the blanks around them; counts are numbers.

`Draft.ofDocument` reads a whole document; `Config.ofDocument` checks the settings as soon as they have
been read, before it looks at what follows them.
-/

namespace GuardedHttp

open Json (Reader Fault Mismatch)
open Text (Bytes)

namespace Setting

/-- Reads the value of a setting as an edit. -/
def readValue (setting : Setting) : Reader Draft.Edit := fun input => do
  match setting.durationEdit?, setting.countEdit? with
  | some edit, _ =>
    let (text, rest) ← Json.expectText input
    match Duration.ofSpans (Text.trim text) with
    | .ok d => return (edit d, rest)
    | .error e =>
      .error (if e.fatal then .fatal e.message else .mismatch (.refused e.message))
  | none, some edit =>
    let (n, rest) ← Json.expectNatural UInt32.size "u32" input
    return (edit (UInt32.ofNat n), rest)
  | none, none =>
    let (text, rest) ← Json.expectText input
    return (.name text, rest)

end Setting

namespace Draft

/-- A draft being read, and the settings that have been given. -/
structure Progress where
  /-- The settings so far. -/
  draft : Draft
  /-- The settings that have been given. -/
  given : List Setting

/-- Reads the member of a key into a draft. The key must be a setting's, and not given before. -/
def readMember (progress : Progress) (key : String) (input : Bytes) :
    Except Fault (Progress × Bytes) := do
  match Setting.ofKey? key with
  | none => .error (.mismatch (.unknownField key (Setting.all.map Setting.key)))
  | some setting =>
    if setting ∈ progress.given then .error (.mismatch (.duplicateField key))
    else
      let (edit, rest) ← setting.readValue (← Json.colon input)
      return (⟨progress.draft.edit edit, setting :: progress.given⟩, rest)

/-- Reads values of settings in order, as far as there are elements. -/
def readElements : List Setting → (first : Bool) → Draft → Reader Draft
  | [], _, draft, input => .ok (draft, input)
  | setting :: settings, first, draft, input => do
    match ← Json.nextElement first input with
    | none => return (draft, input)
    | some input =>
      let (edit, rest) ← setting.readValue input
      readElements settings false (draft.edit edit) rest

/-- Reads a draft from an object or an array. -/
def read : Reader Draft := fun input => do
  match ← Json.found input with
  | (.object, rest) =>
    let (progress, rest) ← Json.object .keeping readMember ⟨{}, []⟩ rest
    return (progress.draft, rest)
  | (.array, rest) =>
    let (draft, rest) ← readElements Setting.all true {} rest
    return (draft, ← Json.endArray rest)
  | (other, _) => .error (.mismatch (.wrongType other "struct ClientConfigBuilder"))

/-- The draft that a document describes. -/
def ofDocument (document : Bytes) : Except Fault Draft := Json.readAll read document

end Draft

namespace Config

/-- Reads a draft and builds it. -/
def read : Reader Config := fun input => do
  let (draft, rest) ← Draft.read input
  match draft.build with
  | .ok config => return (config, rest)
  | .error e => .error (.mismatch (.refused e.message))

/-- The configuration that a document describes. -/
def ofDocument (document : Bytes) : Except Fault Config := Json.readAll read document

end Config

end GuardedHttp
