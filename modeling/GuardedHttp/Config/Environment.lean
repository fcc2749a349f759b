import GuardedHttp.Config

/-!
# Configuration from environment variables

`Config.fromEnvironment` looks the variables of the settings up one by one, in the order of
`Setting.all`, and writes those that are set into a draft. A duration or a count is read from its text
without the blanks around it; the name is taken as it stands. The first text that is no value for its
setting ends the reading.
-/

namespace GuardedHttp

/-- Why there is no configuration. -/
inductive LoadFailure where
  /-- The settings are refused. -/
  | refused (e : ConfigError)
  /-- Reading a duration stopped the program. -/
  | fatal (e : SpanError)
deriving DecidableEq

namespace Setting

/-- The edit that writes a duration, if the setting holds one. -/
def durationEdit? : Setting → Option (Duration → Draft.Edit)
  | timeout => some .timeout
  | dialTimeout => some .dialTimeout
  | retryDelay => some .retryDelay
  | openDuration => some .openDuration
  | _ => none

/-- The edit that writes a count, if the setting holds one. -/
def countEdit? : Setting → Option (UInt32 → Draft.Edit)
  | maxRetries => some .maxRetries
  | failureThreshold => some .failureThreshold
  | halfOpenTrials => some .halfOpenTrials
  | _ => none

/-- The value that a text denotes for a setting, as an edit. -/
def read (setting : Setting) (text : String) : Except SettingError Draft.Edit :=
  match setting.durationEdit?, setting.countEdit? with
  | some edit, _ => (Duration.ofSpans (Text.trim text)).mapError .span |>.map edit
  | none, some edit => (Numeric.ofNumeral (Text.trim text)).mapError .count |>.map edit
  | none, none => .ok (.name text)

end Setting

/-- The failure that a bad text of a variable causes. -/
def LoadFailure.ofReason (setting : Setting) (text : String) : SettingError → LoadFailure
  | .span e => if e.fatal then .fatal e else .refused (.invalidVariable setting text (.span e))
  | .count e => .refused (.invalidVariable setting text (.count e))

/-- The draft with the variable of one setting written, if it is set. -/
def Draft.readVariable (lookup : String → Option String) (draft : Draft) (setting : Setting) :
    Except LoadFailure Draft :=
  match lookup setting.envName with
  | none => .ok draft
  | some text =>
    match setting.read text with
    | .ok edit => .ok (draft.edit edit)
    | .error reason => .error (.ofReason setting text reason)

/-- The configuration that the variables describe. -/
def Config.fromEnvironment (lookup : String → Option String) : Except LoadFailure Config := do
  let draft ← Setting.all.foldlM (Draft.readVariable lookup) {}
  draft.build.mapError .refused

end GuardedHttp
