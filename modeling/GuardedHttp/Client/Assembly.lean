import GuardedHttp.Client

/-!
# Putting a client together

A client is put together from settings by two builders. That of the breaker starts from defaults, is told
one thing after another, may be given another classifier of outcomes, and refuses counts that make no sense;
this stops the program. That of the retry policy refuses nothing. `Draft.assemble` is both, one after the
other, for settings that nobody has checked.
-/

namespace GuardedHttp

namespace Breaker

/-- A breaker that is being built. -/
structure Builder (κ : Type) where
  /-- What it has been told so far. -/
  draft : Draft := {}
  /-- The listeners, in the order of registration. -/
  reactors : List Reactor := []
  /-- How outcomes are judged. -/
  classifier : κ

namespace Builder

variable {κ κ' α ε : Type}

/-- A builder that has been told nothing, for calls of which every error counts as a failure. -/
def new : Builder (Classifier α ε) := { classifier := anyError }

/-- The builder with one thing told. -/
def withName (b : Builder κ) (name : String) : Builder κ :=
  { b with draft := { b.draft with name } }

@[inherit_doc withName]
def withThreshold (b : Builder κ) (threshold : UInt32) : Builder κ :=
  { b with draft := { b.draft with threshold } }

@[inherit_doc withName]
def withOpenDuration (b : Builder κ) (openDuration : Duration) : Builder κ :=
  { b with draft := { b.draft with openDuration } }

@[inherit_doc withName]
def withTrials (b : Builder κ) (trials : UInt32) : Builder κ :=
  { b with draft := { b.draft with trials } }

/-- Another classifier, which may judge other calls; what has been told so far is kept. -/
def judgedBy (b : Builder κ) (classifier : κ') : Builder κ' :=
  { draft := b.draft, reactors := b.reactors, classifier }

/-- The breaker, with the classifier that judges its calls. -/
def build (b : Builder κ) : Except SettingsError (Breaker × κ) :=
  b.draft.build.map fun settings => ({ settings, reactors := b.reactors }, b.classifier)

end Builder

end Breaker

namespace Retry.Policy

variable {ε : Type}

/-- The policy under a name. -/
def withName (p : Policy ε) (name : String) : Policy ε := { p with name }

/-- At most so many attempts are made, and always one. -/
def withMaxAttempts (p : Policy ε) (maxAttempts : Nat) : Policy ε := { p with maxAttempts }

/-- The delays grow by a step, without a cap. -/
def withLinearBackoff (p : Policy ε) (step : Duration) : Policy ε :=
  { p with backoff := .linear step none }

/-- No attempt begins once a time has passed. -/
def withBudget (p : Policy ε) (budget : Duration) : Policy ε := { p with budget := some budget }

/-- Only the errors of a predicate are tried again. -/
def retryingOn (p : Policy ε) (retryable : ε → Bool) : Policy ε := { p with retryOn := some retryable }

end Retry.Policy

/-- What a client is put together from. -/
structure Assembly where
  /-- Its breaker. -/
  breaker : Breaker
  /-- How the breaker judges calls. -/
  classify : Breaker.Classifier Response AttemptError
  /-- Its retry policy. -/
  policy : Retry.Policy AttemptError

/-- Puts a client together, unless the builder of its breaker refuses. -/
def Draft.assemble (draft : Draft) : Except Breaker.SettingsError Assembly := do
  let base : Breaker.Builder (Breaker.Classifier Response AttemptError) := .new
  let (breaker, classify) ← base.withName draft.name
    |>.withThreshold draft.failureThreshold
    |>.withOpenDuration draft.openDuration
    |>.withTrials draft.halfOpenTrials
    |>.judgedBy countsAsFailure
    |>.build
  let policy := ({} : Retry.Policy AttemptError).withName draft.name
    |>.withMaxAttempts (draft.maxRetries.toNat + 1)
    |>.withLinearBackoff draft.retryDelay
    |>.withBudget draft.timeout
    |>.retryingOn AttemptError.isRetryable
  return { breaker, classify, policy }

end GuardedHttp
