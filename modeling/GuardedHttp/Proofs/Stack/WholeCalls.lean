import GuardedHttp.Stack.Layers
import GuardedHttp.Proofs.Retry.Timeline

/-!
# Whole calls through a layer

A layer takes its calls apart into stages, between which anything may happen. Where nothing does, each layer
computes what is made of a whole call elsewhere: `guarded_agrees` for `Breaker.use`, `retried_agrees` for
`Retry.Policy.run`, and `attempted_agrees` for the end of an attempt, `Attempt.callEnd`. What innermost
services answer is made from what those functions are told.
-/

namespace GuardedHttp.Stack

variable {ρ α ε : Type}

/-! ## Guarding -/

/-- Innermost services that meet each use alike. A call that panics never answers. -/
def Nature.meeting (met : Breaker.Service α ε) : Nature ρ α ε where
  readiness _ _ :=
    match met with
    | .unready e => .ready (.error e)
    | .ready _ => .ready (.ok ())
  answer _ _ _ :=
    match met with
    | .ready (.returned result) => .ready result
    | .ready (.panicked _) | .unready _ => .pending

/-- A user who asks a service, calls it if it is ready, and lets the call run for some stages. -/
def Service.oneshot (S : Service ρ α ε) (stages : Nat) (request : ρ) (service : Instance) (w : World) :
    Poll (Except ε α) × World :=
  match S.ask service w with
  | (.pending, w) => (.pending, w)
  | (.ready (.error e), w) => (.ready (.error e), w)
  | (.ready (.ok ()), w) =>
    let (call, _, w) := S.call request service w
    finish stages call w
where
  /-- Lets a call run for some stages. -/
  finish : Nat → S.Call → World → Poll (Except ε α) × World
    | 0, _, w => (.pending, w)
    | stages + 1, call, w =>
      match S.poll call w with
      | (.ready result, _, w) => (.ready result, w)
      | (.pending, call, w) => finish stages call w

/-- A use of a guarded service is a use through the breaker: it has the same result, and does the same to
the circuit, with the same events and reports. -/
theorem guarded_agrees (b : Breaker) (classify : Breaker.Classifier α ε) (request : ρ)
    (service : Instance) (w : World) {met : Breaker.Service α ε}
    (hreturns : ∀ message, met ≠ .ready (.panicked message)) :
    let used := b.use classify w.now met w.circuit
    let done := (guarded b classify (innermost (.meeting met))).oneshot 2 request service w
    (∃ result, used.1 = .ended result ∧ done.1 = .ready result) ∧
      done.2.circuit = used.2.circuit ∧ done.2.events = w.events ++ used.2.events ∧
      done.2.emitted = w.emitted ++ used.2.emitted := by
  cases met with
  | unready e =>
    exact ⟨⟨_, rfl, rfl⟩, rfl, (List.append_nil _).symm, (List.append_nil _).symm⟩
  | ready outcome =>
    cases outcome with
    | panicked message => exact absurd rfl (hreturns message)
    | returned result =>
      simp only [Service.oneshot, Service.oneshot.finish, guarded, guardedPoll, innermost,
        Nature.meeting, World.record, World.clone, Poll.map, Except.mapError, Breaker.use, Breaker.call]
      cases hstart : b.start w.now w.circuit with | mk permit u =>
      cases permit with
      | none => exact ⟨⟨_, rfl, rfl⟩, rfl, rfl, rfl⟩
      | some permit =>
        exact ⟨⟨_, rfl, rfl⟩, rfl, List.append_assoc .., List.append_assoc ..⟩

/-! ## Single attempts -/

/-- Innermost services that are called and answer at some moment, if at all. -/
def Nature.finishing (finish : Option Instant) (result : Except ε α) : Nature ρ α ε where
  readiness _ _ := .ready (.ok ())
  answer _ _ w := if finish.any (· ≤ w.now) then .ready result else .pending

section

variable {finish deadline : Option Instant} {result : Except TransportError Response} {w : World}
  (url : String) (call : Instance × Request)

/-- A call that has its result by now ends with it, even if it is overdue. -/
theorem attemptedPoll_of_finished (hfinish : finish.any (· ≤ w.now) = true) :
    attemptedPoll (innermost (.finishing finish result)) (.running ⟨url, deadline⟩ call) w =
      attemptedEnd _ url result (w.record (.polled call.1)) := by
  have hpoll : (innermost (.finishing finish result)).poll call w =
      (.ready result, call, w.record (.polled call.1)) := congrArg (·, _, _) (if_pos hfinish)
  unfold attemptedPoll
  dsimp only
  rw [hpoll]

/-- A call that has no result by now is dropped if it is overdue, and goes on if it is not. -/
theorem attemptedPoll_of_not_finished (hfinish : finish.any (· ≤ w.now) = false) :
    attemptedPoll (innermost (.finishing finish result)) (.running ⟨url, deadline⟩ call) w =
      if deadline.any (· ≤ w.now) then attemptedEnd _ url (.error .timeout) (w.record (.polled call.1))
      else (.pending, .running ⟨url, deadline⟩ call, w.record (.polled call.1)) := by
  have hpoll : (innermost (.finishing finish result)).poll call w =
      (.pending, call, w.record (.polled call.1)) :=
    congrArg (·, _, _) (if_neg (Bool.eq_false_iff.mp hfinish))
  unfold attemptedPoll
  dsimp only
  rw [hpoll]
  rfl

end

/-- A call ends by itself, or at the bound that its deadline sets. -/
theorem callEnd_case (now : Instant) (deadline finish : Option Instant)
    (result : Except TransportError Response) :
    (Attempt.callEnd now deadline finish result = (finish, result) ∧
      ∀ d, deadline = some d → ∃ f, finish = some f ∧ f ≤ max d now) ∨
    ∃ d, deadline = some d ∧
      Attempt.callEnd now deadline finish result = (some (max d now), .error .timeout) ∧
        ∀ f, finish = some f → max d now < f := by
  unfold Attempt.callEnd
  cases deadline with
  | none => exact .inl ⟨rfl, nofun⟩
  | some d =>
    cases finish with
    | none => exact .inr ⟨d, rfl, rfl, nofun⟩
    | some f =>
      dsimp only
      by_cases hle : f ≤ max d now
      · rw [if_pos hle]
        exact .inl ⟨rfl, fun _ h => Option.some.inj h ▸ ⟨f, rfl, hle⟩⟩
      · rw [if_neg hle]
        exact .inr ⟨d, rfl, rfl, fun _ h => Option.some.inj h ▸ Nat.lt_of_not_le hle⟩

/-- An attempt whose call began at a moment is pending until it ends, and ends like any attempt. -/
theorem attempted_agrees {begun : Instant} {w : World} (hbegun : begun ≤ w.now) (url : String)
    (deadline finish : Option Instant) (result : Except TransportError Response)
    (call : Instance × Request) :
    let ends := Attempt.callEnd begun deadline finish result
    let polled := attemptedPoll (innermost (.finishing finish result)) (.running ⟨url, deadline⟩ call) w
    ((∀ t, ends.1 = some t → w.now < t) → polled.1 = .pending) ∧
      (ends.1 = some w.now → polled.1 = .ready (attemptResult ends.2) ∧
        polled.2.2.emitted = w.emitted ++ Attempt.reports url ends.2) := by
  dsimp only
  cases hfinish : finish.any (· ≤ w.now) with
  | true =>
    rw [attemptedPoll_of_finished url call hfinish]
    obtain ⟨f, rfl, hf⟩ := (Option.any_eq_true _ _).mp hfinish
    have hf : f ≤ w.now := of_decide_eq_true hf
    rcases callEnd_case begun deadline (some f) result with ⟨hends, -⟩ | ⟨d, rfl, hends, hlate⟩
    · rw [hends]
      exact ⟨fun hlater => absurd (hlater f rfl) (Nat.not_lt_of_le hf), fun _ => ⟨rfl, rfl⟩⟩
    -- The end was the deadline, which is over: there is nothing to show about this moment.
    · have hbound : (max d begun).nanos < w.now.nanos := Nat.lt_of_lt_of_le (hlate f rfl) hf
      rw [hends]
      refine ⟨fun hlater => absurd (hlater _ rfl) (Nat.lt_asymm hbound), fun h => ?_⟩
      rw [Option.some.inj h] at hbound
      exact absurd hbound (Nat.lt_irrefl _)
  | false =>
    have hnone : ∀ f, finish = some f → w.now < f := by
      rintro f rfl
      exact Nat.lt_of_not_le (of_decide_eq_false hfinish)
    rw [attemptedPoll_of_not_finished url call hfinish]
    -- As the call has begun by now, it is overdue exactly if its bound has been reached.
    have hbound : ∀ d : Instant, d ≤ w.now ↔ max d begun ≤ w.now := by
      intro d
      rw [Instant.le_iff, Instant.le_iff, Instant.nanos_max]
      rw [Instant.le_iff] at hbegun
      omega
    rcases callEnd_case begun deadline finish result with ⟨hends, hin⟩ | ⟨d, rfl, hends, -⟩
    · have hdue : ¬ deadline.any (· ≤ w.now) = true := by
        intro hd
        obtain ⟨d, rfl, hd⟩ := (Option.any_eq_true _ _).mp hd
        obtain ⟨f, rfl, hf⟩ := hin d rfl
        have hreached := (hbound d).mp (of_decide_eq_true hd)
        exact Nat.lt_irrefl _ (Nat.lt_of_lt_of_le (hnone f rfl) (Nat.le_trans hf hreached))
      rw [hends, if_neg hdue]
      exact ⟨fun _ => rfl, fun h => absurd (hnone _ h) (Nat.lt_irrefl _)⟩
    · rw [hends]
      refine ⟨fun hlater => ?_, fun h => ?_⟩
      · have hdue : ¬ d ≤ w.now := fun hd => Nat.not_lt_of_le ((hbound d).mp hd) (hlater _ rfl)
        rw [if_neg (by simpa using hdue)]
      · have hdue : d ≤ w.now := (hbound d).mpr (Option.some.inj h ▸ Nat.le_refl _)
        rw [if_pos (by simpa using hdue)]
        exact ⟨rfl, rfl⟩

/-! ## Retrying -/

/-- Innermost services of which each meets one attempt of a script, from a first one on. -/
def scripted (script : Nat → Retry.Trial α ε) (first : Instance) : Service ρ α ε :=
  innermost {
    readiness service _ :=
      match script (service - first) with
      | .unready e => .ready (.error e)
      | .made .. => .ready (.ok ())
    answer service _ _ := .ready (script (service - first)).result }

section

variable (policy : Retry.Policy ε) (S : Service ρ α ε) (script : Nat → Retry.Trial α ε)

/-- The moment at which a retried call goes on, if its attempts take the time that a script says. -/
def Retrying.goesOn (now : Instant) : Retrying S → Instant
  | .readying course _ =>
    match script course.attempt with
    | .unready _ => now.wake .zero
    | .made .. => now
  | .calling course _ => now.wake (script course.attempt).lasts
  | .resting _ due => due
  | .begun .. | .ended => now

/-- Lets a retried call run for some stages, each at the moment at which it goes on. -/
def paced : (stages : Nat) → Poll (Except ε α) × Retrying S × World → Poll (Except ε α) × World
  | 0, (said, _, w) => (said, w)
  | _ + 1, (.ready result, _, w) => (.ready result, w)
  | stages + 1, (.pending, call, w) =>
    paced stages (retriedPoll policy S call { w with now := call.goesOn S script w.now })

end

section

variable {policy : Retry.Policy ε} {script : Nat → Retry.Trial α ε} {first : Instance} {w : World}
  {course : Course ρ}

/-- A call that has come to a result runs no more stages. -/
theorem paced_ready {S : Service ρ α ε} (stages : Nat) (result : Except ε α) (call : Retrying S)
    (w : World) : paced policy S script stages (.ready result, call, w) = (.ready result, w) := by
  cases stages <;> rfl

/-- A call that rests goes on with the next attempt as soon as it may. -/
theorem paced_resting {S : Service ρ α ε} (stages : Nat) (due : Instant) :
    paced policy S script (stages + 1) (.pending, .resting course due, w) =
      paced policy S script stages
        (launch S { course with attempt := course.attempt + 1 } { w with now := due }) :=
  congrArg (paced policy S script stages) (if_pos (Nat.le_refl due.nanos))

/-- If the policy tries again, the call rests. -/
theorem settle_of_retry {S : Service ρ α ε} {result : Except ε α} {delay : Duration}
    (hverdict : policy.judge (w.now.since course.started) course.attempt result = .retry delay) :
    settle policy S course result w = (.pending, .resting course (w.now.wake delay),
      w.hear policy.name course.attempt (.retry delay)) := by
  unfold settle
  rw [hverdict]
  rfl

/-- An attempt that is launched takes the time and has the result that the script says. -/
theorem exists_paced_launch (policy : Retry.Policy ε) (script : Nat → Retry.Trial α ε)
    (hmade : w.made = first + course.attempt) :
    ∃ k ≤ 2, ∃ w' : World, w'.now = w.now.wake (script course.attempt).lasts ∧
      w'.made = w.made + 1 ∧ w'.decisions = w.decisions ∧ w'.emitted = w.emitted ∧
        ∀ stages, paced policy (scripted script first) script (stages + k) (launch _ course w) =
          paced policy (scripted script first) script stages
            (settle policy _ course (script course.attempt).result w') := by
  have hcopy : w.made - first = course.attempt := by omega
  let cloned := (w.clone course.service).2
  cases htrial : script course.attempt with
  | unready e =>
    refine ⟨1, by decide, { cloned with now := w.now.wake .zero }.record (.asked w.made false), rfl, rfl,
      rfl, rfl, fun stages => ?_⟩
    simp only [launch, paced, retriedPoll, Retrying.goesOn, htrial, scripted, innermost, World.clone, hcopy]
    rfl
  | made lasts result =>
    let called := (cloned.record (.asked w.made true)).record (.called w.made)
    refine ⟨2, by decide, { called with now := w.now.wake lasts }.record (.polled w.made), rfl, rfl, rfl, rfl,
      fun stages => ?_⟩
    simp only [launch, paced, retriedPoll, Retrying.goesOn, htrial, scripted, innermost, World.clone,
      World.record, hcopy]
    rfl

/-- A call that was made in a world has ended as a run has: at the same time and with the same result, with
the decisions and reports of the run added to those that there were. -/
structure EndsAs (w : World) (run : Retry.Run α ε) (done : Poll (Except ε α) × World) : Prop where
  /-- The result. -/
  result : done.1 = .ready run.result
  /-- The time. -/
  now : done.2.now = run.ended
  /-- The decisions. -/
  decisions : done.2.decisions = w.decisions ++ run.events
  /-- The reports. -/
  emitted : done.2.emitted = w.emitted ++ run.emitted

/-- If the policy does not try again, the call ends with its attempt. -/
theorem endsAs_settle {S : Service ρ α ε} {w' : World} (stages left : Nat)
    (hnow : w'.now = w.now.wake (script course.attempt).lasts) (hdecisions : w'.decisions = w.decisions)
    (hemitted : w'.emitted = w.emitted)
    (hfinal : ∀ delay, policy.judge (w'.now.since course.started) course.attempt
      (script course.attempt).result ≠ .retry delay) :
    EndsAs w (policy.runFrom script course.started left course.attempt w.now)
      (paced policy S script stages (settle policy S course (script course.attempt).result w')) := by
  rw [Retry.Policy.runFrom.eq_def]
  unfold settle
  dsimp only
  rw [← hnow]
  cases hverdict : policy.judge (w'.now.since course.started) course.attempt
    (script course.attempt).result with
  | retry delay => exact absurd hverdict (hfinal delay)
  | success | ignored | exhausted | deadline =>
    rw [paced_ready]
    refine ⟨rfl, rfl, ?_, congrArg (· ++ _) hemitted⟩
    show w'.decisions ++ _ = _
    rw [hdecisions]
    cases script course.attempt <;> rfl

/-- From an attempt on, each with its stages: it is launched, asks, calls and rests. -/
theorem paced_runFrom {left stages : Nat} (hmade : w.made = first + course.attempt)
    (hleft : policy.attemptLimit ≤ course.attempt + left + 1) (hstages : 3 * left + 2 ≤ stages) :
    EndsAs w (policy.runFrom script course.started left course.attempt w.now)
      (paced policy (scripted script first) script stages (launch _ course w)) := by
  -- The induction is on the retries that are left; each takes an attempt of two stages and a rest.
  induction left generalizing course w stages with
  | zero =>
    obtain ⟨k, hk, w', hnow, -, hdecisions, hemitted, hpaced⟩ := exists_paced_launch policy script hmade
    obtain ⟨more, rfl⟩ := Nat.exists_eq_add_of_le' (Nat.le_trans hk hstages)
    rw [hpaced]
    -- The policy has no attempt left that it could grant.
    refine endsAs_settle more 0 hnow hdecisions hemitted fun delay hretry => ?_
    have hlimit := (Retry.Policy.attempts_lt_of_judge_eq_retry hretry).1
    omega
  | succ left ih =>
    obtain ⟨k, hk, w', hnow, hmade', hdecisions, hemitted, hpaced⟩ :=
      exists_paced_launch policy script hmade
    obtain ⟨more, rfl⟩ := Nat.exists_eq_add_of_le' (Nat.le_trans hk (by omega : 2 ≤ stages))
    rw [hpaced]
    cases hverdict : policy.judge (w'.now.since course.started) course.attempt
      (script course.attempt).result with
    | success | ignored | exhausted | deadline =>
      exact endsAs_settle more _ hnow hdecisions hemitted (by rw [hverdict]; nofun)
    | retry delay =>
      obtain ⟨rest, rfl⟩ : ∃ rest, more = rest + 1 := Nat.exists_eq_add_one_of_ne_zero (by omega)
      rw [settle_of_retry hverdict, paced_resting]
      let next : Course ρ := { course with attempt := course.attempt + 1 }
      let rested : World :=
        { w'.hear policy.name course.attempt (.retry delay) with now := w'.now.wake delay }
      have hattempt : next.attempt = course.attempt + 1 := rfl
      have hrested : rested.made = first + next.attempt := by
        show w'.made = _
        omega
      have hnext : EndsAs rested (policy.runFrom script next.started left next.attempt rested.now)
          (paced policy (scripted script first) script rest (launch _ next rested)) :=
        ih hrested (by omega) (by omega)
      rw [Retry.Policy.runFrom.eq_def]
      dsimp only
      rw [← hnow, hverdict]
      refine ⟨hnext.result, hnext.now, hnext.decisions.trans ?_, hnext.emitted.trans ?_⟩
      · show w'.decisions ++ [_] ++ _ = _
        rw [hdecisions, List.append_assoc]
        cases script course.attempt <;> rfl
      · show w'.emitted ++ _ ++ _ = w.emitted ++ (_ ++ _)
        rw [hemitted, List.append_assoc]

/-- A call of a service that retries is a run of its policy. -/
theorem retried_agrees (request : ρ) (service : Instance) {stages : Nat}
    (hstages : 3 * policy.attemptLimit ≤ stages) :
    let S : Service ρ α ε := scripted script (w.made + 1)
    let called := (retried policy S).call request service w
    EndsAs w (policy.run script w.now)
      (paced policy S script stages (.pending, called.1, called.2.2)) := by
  have hlimit : 1 ≤ policy.attemptLimit := Nat.le_max_right _ _
  obtain ⟨rest, rfl⟩ : ∃ rest, stages = rest + 1 := Nat.exists_eq_add_one_of_ne_zero (by omega)
  let course : Course ρ := ⟨w.made, request, w.now, 0⟩
  have hleft : policy.attemptLimit ≤ course.attempt + (policy.attemptLimit - 1) + 1 := by
    show _ ≤ 0 + _ + 1
    omega
  have hends : EndsAs (w.clone service).2
      (policy.runFrom script course.started (policy.attemptLimit - 1) course.attempt w.now)
      (paced policy (scripted script (w.made + 1)) script rest (launch _ course (w.clone service).2)) :=
    paced_runFrom rfl hleft (by omega)
  exact ⟨hends.result, hends.now, hends.decisions, hends.emitted⟩

end

end GuardedHttp.Stack
