import GuardedHttp.Retry.Backoff
import GuardedHttp.Duration.Compact
import GuardedHttp.Telemetry

/-!
# Retry policies

A `Policy` decides, after every attempt of a call, whether to try again: `Policy.judge` looks at how the
attempt ended, how many there have been and how much time has passed. The decision is an `Event` that
listeners hear, and is reported to the log and the metrics.

Main statement: `Policy.attempts_lt_of_judge_eq_retry`, another attempt is made only while attempts are
left.
-/

namespace GuardedHttp.Retry

/-- When and how often to try again. -/
structure Policy (ε : Type) where
  /-- What the policy is called. -/
  name : String := "<unnamed>"
  /-- How many attempts are asked for; there is always one. -/
  maxAttempts : Nat := 3
  /-- The delays between attempts. -/
  backoff : Backoff := .linear (.ofMillis 100) none
  /-- The errors after which to try again; without it, none. -/
  retryOn : Option (ε → Bool) := none
  /-- The time in which the next attempt must start, counted from the start of the call. -/
  budget : Option Duration := none

/-- What happens to a retried call. -/
inductive Event where
  /-- Another attempt will be made after a delay, the retry having this index. -/
  | retry (index : Nat) (delay : Duration)
  /-- The call has succeeded. -/
  | success (attempts : Nat)
  /-- The attempts are used up. -/
  | exhausted (attempts : Nat)
  /-- The error is not one to try again after. -/
  | ignored (attempts : Nat)
  /-- The next attempt would start too late. -/
  | deadline (attempts : Nat)
deriving DecidableEq

/-- The name of a kind of event. -/
def Event.kind : Event → String
  | retry .. => "Retry"
  | success _ => "Success"
  | exhausted _ => "Error"
  | ignored _ => "IgnoredError"
  | deadline _ => "DeadlineExceeded"

/-- What is decided after an attempt. -/
inductive Verdict where
  /-- The call has succeeded. -/
  | success
  /-- The error is not one to try again after. -/
  | ignored
  /-- The attempts are used up. -/
  | exhausted
  /-- The next attempt would start too late, after this delay. -/
  | deadline (delay : Duration)
  /-- Another attempt is made after this delay. -/
  | retry (delay : Duration)
deriving DecidableEq

/-- The event of a decision after the attempt of an index. -/
def Verdict.event (attempt : Nat) : Verdict → Event
  | success => .success (attempt + 1)
  | ignored => .ignored (attempt + 1)
  | exhausted => .exhausted (attempt + 1)
  | deadline _ => .deadline (attempt + 1)
  | retry delay => .retry attempt delay

/-- What a decision after the attempt of an index reports, under the name of a policy. -/
def Verdict.emissions (name : String) (attempt : Nat) : Verdict → List Emission
  | success => [.count "retry_calls_total" [("retry", name), ("outcome", "success")]]
  | ignored =>
    [.log .debug "error is not retryable" [("retry", name), ("attempts", toString (attempt + 1))],
     .count "retry_calls_total" [("retry", name), ("outcome", "ignored")]]
  | exhausted =>
    [.log .debug "retry attempts exhausted" [("retry", name), ("attempts", toString (attempt + 1))],
     .count "retry_calls_total" [("retry", name), ("outcome", "exhausted")]]
  | deadline delay =>
    [.log .debug "retry would exceed the elapsed-time budget"
      [("retry", name), ("attempts", toString (attempt + 1)), ("delay", delay.compact)],
     .count "retry_calls_total" [("retry", name), ("outcome", "deadline")]]
  | retry delay =>
    [.log .debug "scheduling retry"
      [("retry", name), ("retry_index", toString attempt), ("delay", delay.compact)],
     .count "retry_attempts_total" [("retry", name)]]

namespace Policy

variable {α ε : Type}

/-- How many attempts a call may make. -/
def attemptLimit (p : Policy ε) : Nat := max p.maxAttempts 1

/-- The error is one to try again after. -/
def shouldRetry (p : Policy ε) (e : ε) : Bool :=
  match p.retryOn with
  | some retryable => retryable e
  | none => false

/-- A retry after a delay would start too late. -/
def overBudget (p : Policy ε) (elapsed delay : Duration) : Bool :=
  match p.budget with
  | some budget => budget ≤ elapsed + delay
  | none => false

/-- Decides what follows the attempt of an index, given the time since the start of the call. -/
def judge (p : Policy ε) (elapsed : Duration) (attempt : Nat) : Except ε α → Verdict
  | .ok _ => .success
  | .error e =>
    if !p.shouldRetry e then .ignored
    else if p.attemptLimit ≤ attempt + 1 then .exhausted
    else
      let delay := p.backoff.delay attempt
      if p.overBudget elapsed delay then .deadline delay else .retry delay

/-- Another attempt is made only while attempts are left, and after the delay that belongs to it. -/
theorem attempts_lt_of_judge_eq_retry {p : Policy ε} {elapsed : Duration} {attempt : Nat}
    {result : Except ε α} {delay : Duration} (h : p.judge elapsed attempt result = .retry delay) :
    attempt + 1 < p.attemptLimit ∧ delay = p.backoff.delay attempt := by
  cases result with
  | ok a => simp [judge] at h
  | error e =>
    simp only [judge] at h
    split at h
    · simp at h
    · split at h
      · simp at h
      · split at h
        · simp at h
        · rename_i hlt _
          cases h
          exact ⟨Nat.lt_of_not_le hlt, rfl⟩

end Policy

end GuardedHttp.Retry
