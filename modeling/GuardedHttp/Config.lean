import GuardedHttp.Duration.Compact
import GuardedHttp.Duration.Spans
import GuardedHttp.Numeric.Count

/-!
# Client configurations

A `Draft` holds the eight settings of a client, each at its default until it is edited. `Draft.build`
checks four conditions in a fixed order and gives a `Config`, which carries them as proofs, or the error
of the first one that fails. Every way to a configuration goes through `Draft.build`.

Main statements: `Draft.build_eq_ok_iff`, a draft can be built exactly when the four conditions hold,
and `Draft.toDraft_of_build`, the configuration then has the settings of the draft.
-/

namespace GuardedHttp

/-- The settings of a client, by name. -/
inductive Setting where
  | timeout
  | dialTimeout
  | maxRetries
  | retryDelay
  | failureThreshold
  | openDuration
  | halfOpenTrials
  | name
deriving DecidableEq, Repr

namespace Setting

/-- The settings in the order in which they are listed. -/
def all : List Setting :=
  [timeout, dialTimeout, maxRetries, retryDelay, failureThreshold, openDuration, halfOpenTrials, name]

/-- The key of a setting in a document. -/
def key : Setting → String
  | timeout => "timeout"
  | dialTimeout => "dial_timeout"
  | maxRetries => "max_retries"
  | retryDelay => "retry_delay"
  | failureThreshold => "failure_threshold"
  | openDuration => "open_duration"
  | halfOpenTrials => "half_open_trials"
  | name => "name"

/-- The environment variable of a setting. -/
def envName : Setting → String
  | timeout => "HTTP_TIMEOUT"
  | dialTimeout => "HTTP_DIAL_TIMEOUT"
  | maxRetries => "HTTP_MAX_RETRIES"
  | retryDelay => "HTTP_RETRY_DELAY"
  | failureThreshold => "HTTP_CB_THRESHOLD"
  | openDuration => "HTTP_CB_TIMEOUT"
  | halfOpenTrials => "HTTP_CB_HALF_OPEN_TRIALS"
  | name => "HTTP_CLIENT_NAME"

/-- The setting of a key. -/
def ofKey? (key : String) : Option Setting := all.find? (·.key == key)

end Setting

/-- Settings that have not been checked, each at its default unless given. -/
structure Draft where
  /-- The bound on one call, all attempts and delays included. -/
  timeout : Duration := .ofSeconds 30
  /-- The bound on establishing a connection. -/
  dialTimeout : Duration := .ofSeconds 5
  /-- How many attempts may follow the first. -/
  maxRetries : UInt32 := 3
  /-- The delay before the first retry, and the step by which it grows. -/
  retryDelay : Duration := .ofSeconds 1
  /-- How many failures in a row open the circuit. -/
  failureThreshold : UInt32 := 10
  /-- How long an open circuit rejects calls before it tries again. -/
  openDuration : Duration := .ofSeconds 60
  /-- How many trial calls a half-open circuit admits. -/
  halfOpenTrials : UInt32 := 1
  /-- What the client is called in logs and metrics. -/
  name : String := "http-client"
deriving DecidableEq

/-- Settings that make sense together. -/
structure Config extends Draft where
  /-- There is time for a call. -/
  timeout_pos : timeout.isZero = false
  /-- It takes a failure to open the circuit. -/
  failureThreshold_pos : failureThreshold ≠ 0
  /-- A half-open circuit admits a trial. -/
  halfOpenTrials_pos : halfOpenTrials ≠ 0
  /-- A connection may not take longer than the whole call. -/
  dialTimeout_le : dialTimeout ≤ timeout
deriving DecidableEq

/-- Why the text of a setting is no value for it. -/
inductive SettingError where
  /-- It is no duration. -/
  | span (e : SpanError)
  /-- It is no count. -/
  | count (e : Numeric.CountError)
deriving DecidableEq

/-- The text of a reason, as it is reported. -/
def SettingError.message : SettingError → String
  | .span e => e.message
  | .count e => e.message

/-- Why settings are refused. -/
inductive ConfigError where
  /-- A setting that may not be zero is zero. -/
  | zero (setting : Setting)
  /-- Connecting may take longer than the whole call. -/
  | dialExceedsTimeout (dialTimeout timeout : Duration)
  /-- The text of a variable is no value for its setting. -/
  | invalidVariable (setting : Setting) (text : String) (reason : SettingError)
deriving DecidableEq

/-- The text of a refusal, as it is reported. -/
def ConfigError.message : ConfigError → String
  | .zero setting => setting.key ++ " must be greater than zero"
  | .dialExceedsTimeout dialTimeout timeout =>
    "dial_timeout (" ++ dialTimeout.compact ++ ") must not exceed timeout (" ++ timeout.compact ++ ")"
  | .invalidVariable setting text reason =>
    "invalid value " ++ Text.quote text ++ " for " ++ setting.envName ++ ": " ++ reason.message

namespace Draft

/-- The value of one setting, to be written into a draft. -/
inductive Edit where
  | timeout (d : Duration)
  | dialTimeout (d : Duration)
  | maxRetries (n : UInt32)
  | retryDelay (d : Duration)
  | failureThreshold (n : UInt32)
  | openDuration (d : Duration)
  | halfOpenTrials (n : UInt32)
  | name (s : String)

/-- The draft with one setting written. -/
def edit (draft : Draft) : Edit → Draft
  | .timeout d => { draft with timeout := d }
  | .dialTimeout d => { draft with dialTimeout := d }
  | .maxRetries n => { draft with maxRetries := n }
  | .retryDelay d => { draft with retryDelay := d }
  | .failureThreshold n => { draft with failureThreshold := n }
  | .openDuration d => { draft with openDuration := d }
  | .halfOpenTrials n => { draft with halfOpenTrials := n }
  | .name s => { draft with name := s }

/-- The draft with settings written one after another. -/
def editAll (draft : Draft) (edits : List Edit) : Draft := edits.foldl edit draft

/-- The configuration of a draft, or the first condition that it violates. -/
def build (draft : Draft) : Except ConfigError Config :=
  if ht : draft.timeout.isZero = true then .error (.zero .timeout)
  else if hf : draft.failureThreshold = 0 then .error (.zero .failureThreshold)
  else if hh : draft.halfOpenTrials = 0 then .error (.zero .halfOpenTrials)
  else if hd : draft.dialTimeout ≤ draft.timeout then
    .ok ⟨draft, Bool.eq_false_iff.mpr ht, hf, hh, hd⟩
  else .error (.dialExceedsTimeout draft.dialTimeout draft.timeout)

/-- The configuration that is built has the settings of the draft. -/
theorem toDraft_of_build {draft : Draft} {config : Config} (h : draft.build = .ok config) :
    config.toDraft = draft := by
  unfold build at h
  split at h <;> try contradiction
  split at h <;> try contradiction
  split at h <;> try contradiction
  split at h <;> try contradiction
  cases h
  rfl

/-- A draft can be built exactly when the four conditions hold. -/
theorem build_eq_ok_iff {draft : Draft} :
    (∃ config, draft.build = .ok config) ↔
      draft.timeout.isZero = false ∧ draft.failureThreshold ≠ 0 ∧ draft.halfOpenTrials ≠ 0 ∧
        draft.dialTimeout ≤ draft.timeout := by
  constructor
  · rintro ⟨config, h⟩
    rw [← toDraft_of_build h]
    exact ⟨config.timeout_pos, config.failureThreshold_pos, config.halfOpenTrials_pos,
      config.dialTimeout_le⟩
  · rintro ⟨ht, hf, hh, hd⟩
    exact ⟨⟨draft, ht, hf, hh, hd⟩, by simp [build, ht, hf, hh, hd]⟩

end Draft

namespace Config

/-- The configuration of all defaults. -/
def default : Config := ⟨{}, by decide, by decide, by decide, by decide⟩

instance : Inhabited Config := ⟨default⟩

/-- How many attempts a call may make. -/
def maxAttempts (config : Config) : Nat := config.maxRetries.toNat + 1

end Config

end GuardedHttp
