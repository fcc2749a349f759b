import GuardedHttp.Duration

/-!
# Breaker settings

What a circuit breaker is told when it is built. A threshold or a number of trials of zero makes no
sense; such a breaker is not built.
-/

namespace GuardedHttp.Breaker

/-- The settings of a breaker. -/
structure Settings where
  /-- What the breaker is called. -/
  name : String
  /-- How many failures in a row open the circuit. -/
  threshold : UInt32
  /-- How long an open circuit rejects calls. -/
  openDuration : Duration
  /-- How many trial calls a half-open circuit admits. -/
  trials : UInt32
  /-- It takes a failure to open the circuit. -/
  threshold_pos : threshold ≠ 0
  /-- A half-open circuit admits a trial. -/
  trials_pos : trials ≠ 0
deriving DecidableEq

/-- Settings that have not been checked, each at its default unless given. -/
structure Draft where
  /-- What the breaker is called. -/
  name : String := "<unnamed>"
  /-- How many failures in a row open the circuit. -/
  threshold : UInt32 := 5
  /-- How long an open circuit rejects calls. -/
  openDuration : Duration := .ofSeconds 30
  /-- How many trial calls a half-open circuit admits. -/
  trials : UInt32 := 1

/-- Why a breaker cannot be built; it stops the program. -/
inductive SettingsError where
  /-- The threshold is zero. -/
  | zeroThreshold
  /-- The number of trials is zero. -/
  | zeroTrials
deriving DecidableEq

/-- The text of the reason. -/
def SettingsError.message : SettingsError → String
  | zeroThreshold => "failure_threshold must be at least 1"
  | zeroTrials => "permitted_calls_in_half_open must be at least 1"

/-- The settings of a draft; the threshold is checked first. -/
def Draft.build (d : Draft) : Except SettingsError Settings :=
  if ht : d.threshold = 0 then .error .zeroThreshold
  else if hp : d.trials = 0 then .error .zeroTrials
  else .ok ⟨d.name, d.threshold, d.openDuration, d.trials, ht, hp⟩

end GuardedHttp.Breaker
