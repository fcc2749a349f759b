import GuardedHttp.Retry.Policy

/-!
# Retried calls

`Policy.run` makes attempts until the policy decides to stop. Each attempt is a `Trial`: it takes some
time and has a result, or the service is not ready and there is no call at all. The outcome is a `Run`:
everything that happened, with its time, and the result of the last attempt.
-/

namespace GuardedHttp

/-- The time after which a sleep ends that would end at no instant: thirty years. -/
def Instant.longestSleep : Duration := .ofSeconds (86400 * 365 * 30)

/-- The moment at which a sleep of a duration ends. -/
def Instant.wake (now : Instant) (delay : Duration) : Instant :=
  (now.after? delay).getD (now.after longestSleep)

namespace Retry

/-- What one attempt comes to. -/
inductive Trial (α ε : Type) where
  /-- The service is not ready, and no call is made. -/
  | unready (e : ε)
  /-- A call that takes some time. -/
  | made (lasts : Duration) (result : Except ε α)

namespace Trial

variable {α ε : Type}

/-- How long the attempt takes. -/
def lasts : Trial α ε → Duration
  | unready _ => .zero
  | made d _ => d

/-- How the attempt ends. -/
def result : Trial α ε → Except ε α
  | unready e => .error e
  | made _ r => r

end Trial

/-- Something that happens during a retried call. -/
inductive Happening where
  /-- An attempt begins. -/
  | attempt
  /-- An attempt finds the service not ready. -/
  | notReady
  /-- Listeners hear of a decision. -/
  | event (e : Event)
deriving DecidableEq

/-- A retried call from beginning to end. -/
structure Run (α ε : Type) where
  /-- What happened, with its time. -/
  happenings : List (Instant × Happening)
  /-- What was reported, in order. -/
  emitted : List Emission
  /-- The result of the last attempt. -/
  result : Except ε α
  /-- The moment at which the call ended. -/
  ended : Instant

namespace Run

variable {α ε : Type}

/-- A run that has another attempt and its decision in front. -/
def prepend (happenings : List (Instant × Happening)) (emitted : List Emission) (r : Run α ε) : Run α ε :=
  { r with happenings := happenings ++ r.happenings, emitted := emitted ++ r.emitted }

/-- The events that listeners hear, in order. -/
def events (r : Run α ε) : List Event :=
  r.happenings.filterMap fun
    | (_, .event e) => some e
    | _ => none

end Run

namespace Policy

variable {α ε : Type}

/-- What an attempt looks like when it begins. -/
def opening : Trial α ε → Happening
  | .unready _ => .notReady
  | .made .. => .attempt

/-- Makes the attempts of a call from an index on, with at most `left` retries to follow the first of
them. Its policy never asks for more retries than are left. -/
def runFrom (p : Policy ε) (script : Nat → Trial α ε) (started : Instant) :
    (left attempt : Nat) → (now : Instant) → Run α ε
  | left, attempt, now =>
    let trial := script attempt
    let ended := now.wake trial.lasts
    let verdict := p.judge (ended.since started) attempt trial.result
    let happenings := [(now, opening trial), (ended, .event (verdict.event attempt))]
    let emitted := verdict.emissions p.name attempt
    match verdict, left with
    | .retry delay, left + 1 =>
      (p.runFrom script started left (attempt + 1) (ended.wake delay)).prepend happenings emitted
    | _, _ => { happenings, emitted, result := trial.result, ended }

/-- Makes a call that starts now; the script says what each attempt comes to. -/
def run (p : Policy ε) (script : Nat → Trial α ε) (now : Instant) : Run α ε :=
  p.runFrom script now (p.attemptLimit - 1) 0 now

end Policy

end Retry

end GuardedHttp
