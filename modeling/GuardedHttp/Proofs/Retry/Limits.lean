import GuardedHttp.Proofs.Retry.Completion

/-!
# The limits of a retried call

A policy limits a call twice: by the attempts that it asks for and by the budget in which the next attempt
has to begin. When an attempt begins and ends, and how, is a matter of the script and of the delays alone
(`begins_limited`), so that two calls under different limits go through the same attempts for as long as
both go on. `Run.attempts` reads the attempts of a call off what happened, and `attempts_run` says which
they are.

Main statement: `raising_limits_extends`. Under larger limits a call begins with the attempts that it makes
under smaller ones, and goes on after them only if it was the limits that ended it.
-/

namespace GuardedHttp.Retry

variable {α ε : Type}

/-! ## The attempts of a call -/

/-- An attempt that has been made. -/
structure Made (α ε : Type) where
  /-- The moment at which it began. -/
  begins : Instant
  /-- The moment at which it ended. -/
  ends : Instant
  /-- How it ended. -/
  outcome : Except ε α
deriving DecidableEq

namespace Run

/-- The moments at which attempts began, in order. -/
def openings (r : Run α ε) : List Instant :=
  r.happenings.filterMap fun x => if x.2.isOpening then some x.1 else none

/-- The moments at which attempts ended and listeners heard of the decision, in order. -/
def closings (r : Run α ε) : List Instant :=
  r.happenings.filterMap fun x => if x.2.isOpening then none else some x.1

/-- The attempts of a call, in order; the script says how each of them ended. -/
def attempts (script : Nat → Trial α ε) (r : Run α ε) : List (Made α ε) :=
  (r.openings.zip r.closings).mapIdx fun k x => ⟨x.1, x.2, (script k).result⟩

end Run

namespace Policy

variable {p : Policy ε} {script : Nat → Trial α ε} {now : Instant} {n : Nat}

/-- The attempt of an index, as it is made if the call comes to it. -/
def made (p : Policy ε) (script : Nat → Trial α ε) (now : Instant) (k : Nat) : Made α ε where
  begins := (p.timeline script now).begins k
  ends := (p.timeline script now).ends k
  outcome := (script k).result

/-- An attempt opens when it begins, and once. -/
theorem openings_happened (k : Nat) :
    (p.happened script now k).filterMap (fun x => if x.2.isOpening then some x.1 else none) =
      [(p.timeline script now).begins k] := by
  have hopening : (opening (script k)).isOpening = true := by cases script k <;> rfl
  have hevent (e : Event) : (Happening.event e).isOpening = false := rfl
  simp [happened, hopening, hevent]

/-- An attempt closes when it ends, and once. -/
theorem closings_happened (k : Nat) :
    (p.happened script now k).filterMap (fun x => if x.2.isOpening then none else some x.1) =
      [(p.timeline script now).ends k] := by
  have hopening : (opening (script k)).isOpening = true := by cases script k <;> rfl
  have hevent (e : Event) : (Happening.event e).isOpening = false := rfl
  simp [happened, hopening, hevent]

/-- A call makes the attempts up to the first one that stops. -/
theorem attempts_run (hn : IsLeast {k | (p.timeline script now).Stops k} n)
    (hlimit : n + 1 ≤ max p.maxAttempts 1) :
    (p.run script now).attempts script = (List.range (n + 1)).map (p.made script now) := by
  have hopenings : (p.run script now).openings =
      (List.range (n + 1)).map (p.timeline script now).begins := by
    rw [Run.openings, run_eq hn hlimit]
    simp only [List.filterMap_flatMap, openings_happened, List.map_eq_flatMap]
  have hclosings : (p.run script now).closings =
      (List.range (n + 1)).map (p.timeline script now).ends := by
    rw [Run.closings, run_eq hn hlimit]
    simp only [List.filterMap_flatMap, closings_happened, List.map_eq_flatMap]
  rw [Run.attempts, hopenings, hclosings]
  refine List.ext_getElem (by simp) fun k hk _ => ?_
  simp [made]

/-! ## The same call under other limits -/

/-- The policy with other limits: the attempts that it asks for, and the budget, if there is one. -/
def limited (p : Policy ε) (maxAttempts : Nat) (budget : Option Duration) : Policy ε :=
  { p with maxAttempts, budget }

variable {fewer more : Nat} {tighter wider : Option Duration}

/-- The limits have no part in when an attempt begins. -/
theorem begins_limited (k : Nat) :
    ((p.limited fewer tighter).timeline script now).begins k =
      ((p.limited more wider).timeline script now).begins k := by
  induction k with
  | zero => rfl
  | succ k ih =>
    rw [Timeline.begins_succ, Timeline.begins_succ, Timeline.ends, Timeline.ends, ih]
    rfl

/-- The limits have no part in when an attempt ends. -/
theorem ends_limited (k : Nat) :
    ((p.limited fewer tighter).timeline script now).ends k =
      ((p.limited more wider).timeline script now).ends k :=
  congrArg (fun begun : Instant => begun.wake (script k).lasts) (begins_limited k)

/-- The limits have no part in what an attempt is. -/
theorem made_limited (k : Nat) :
    (p.limited fewer tighter).made script now k = (p.limited more wider).made script now k := by
  unfold made
  rw [begins_limited, ends_limited]

/-- The limits have no part in what has elapsed when an attempt ends. -/
theorem elapsed_limited (k : Nat) :
    ((p.limited fewer tighter).timeline script now).elapsed k =
      ((p.limited more wider).timeline script now).elapsed k :=
  congrArg (fun ended : Instant => ended.since now) (ends_limited k)

/-- A call that stops at an attempt under larger limits stops there under smaller ones, if it comes to it:
success and refusal do not look at the limits, and limits that are reached are reached all the more if
they are smaller. -/
theorem stops_of_stops_limited (hmore : fewer ≤ more)
    (hwider : ∀ budget ∈ wider, ∃ smaller ∈ tighter, smaller ≤ budget) {k : Nat}
    (h : ((p.limited more wider).timeline script now).Stops k) :
    ((p.limited fewer tighter).timeline script now).Stops k := by
  rcases h with hsucceeds | hrefuses | hexhausts | ⟨budget, hbudget, hover⟩
  · exact .inl hsucceeds
  · exact .inr (.inl hrefuses)
  · refine .inr (.inr (.inl ?_))
    change max more 1 ≤ k + 1 at hexhausts
    show max fewer 1 ≤ k + 1
    omega
  · obtain ⟨smaller, hsmaller, hle⟩ := hwider budget hbudget
    refine .inr (.inr (.inr ⟨smaller, hsmaller, ?_⟩))
    rw [elapsed_limited] at hover
    exact Nat.le_trans hle hover

end Policy

open Policy in
/-- Raising the limits of a retried call only extends it. Under larger limits the call makes the attempts
that it makes under smaller ones, at the same times and with the same outcomes, and perhaps others after
them. So if it succeeds under the smaller limits, or ends with an error after which the policy does not try
again, it makes the same attempts under the larger ones and has the same result, and it never makes fewer
attempts. -/
theorem raising_limits_extends (p : Policy ε) (script : Nat → Trial α ε) (now : Instant)
    {fewer more : Nat} {tighter wider : Option Duration} (hmore : fewer ≤ more)
    (hwider : ∀ budget ∈ wider, ∃ smaller ∈ tighter, smaller ≤ budget) :
    let small := (p.limited fewer tighter).run script now
    let large := (p.limited more wider).run script now
    small.attempts script <+: large.attempts script ∧
      ((∃ a, small.result = .ok a) ∨ (∃ e, small.result = .error e ∧ p.shouldRetry e = false) →
        large.result = small.result ∧ large.ended = small.ended ∧
          large.attempts script = small.attempts script) ∧
      (small.attempts script).length ≤ (large.attempts script).length := by
  intro small large
  obtain ⟨n, hn, hlimit⟩ := ((p.limited fewer tighter).timeline script now).exists_isLeast_stops
  obtain ⟨m, hm, hlimit'⟩ := ((p.limited more wider).timeline script now).exists_isLeast_stops
  -- The first stop under the larger limits is a stop under the smaller ones, if not the first.
  have hle : n ≤ m := hn.2 (stops_of_stops_limited hmore hwider hm.1)
  have hsmall : small.attempts script =
      (List.range (n + 1)).map ((p.limited fewer tighter).made script now) := attempts_run hn hlimit
  have hlarge : large.attempts script =
      (List.range (m + 1)).map ((p.limited fewer tighter).made script now) :=
    (attempts_run hm hlimit').trans (List.map_congr_left fun k _ => made_limited k)
  have hinitial : small.attempts script <+: large.attempts script := by
    obtain ⟨d, rfl⟩ := Nat.exists_eq_add_of_le hle
    have hrange : List.range (n + d + 1) = List.range (n + 1) ++ (List.range d).map (n + 1 + ·) := by
      rw [← List.range_add, Nat.add_right_comm]
    rw [hsmall, hlarge, hrange, List.map_append]
    exact List.prefix_append ..
  refine ⟨hinitial, fun hends => ?_, hinitial.length_le⟩
  have hresult : small.result = (script n).result := congrArg Run.result (run_eq hn hlimit)
  have hresult' : large.result = (script m).result := congrArg Run.result (run_eq hm hlimit')
  -- An outcome that ends the call whatever its limits are ends it at the same attempt.
  have hstops : ((p.limited more wider).timeline script now).Stops n := by
    rcases hends with ⟨a, ha⟩ | ⟨e, he, hrefused⟩
    · exact .inl ⟨a, hresult.symm.trans ha⟩
    · have houtcome : ((p.limited more wider).timeline script now).outcome n = .error e :=
        hresult.symm.trans he
      exact .inr (.inl ((Timeline.refuses_iff houtcome).mpr hrefused))
  obtain rfl : m = n := Nat.le_antisymm (hm.2 hstops) hle
  have hended : small.ended = _ := congrArg Run.ended (run_eq hn hlimit)
  have hended' : large.ended = _ := congrArg Run.ended (run_eq hm hlimit')
  exact ⟨hresult'.trans hresult.symm, (hended'.trans (ends_limited m)).trans hended.symm,
    hlarge.trans hsmall.symm⟩

/-- Tries again after every error, with delays that grow by a tenth of a second. -/
def patient : Policy Nat := { backoff := .linear (.ofMillis 100) none, retryOn := some fun _ => true }

/-- Fails three times and then succeeds. -/
def mendsLate (k : Nat) : Trial Nat Nat := .made .zero (if k < 3 then .error 503 else .ok 1)

/-- A call that its budget ends after two attempts makes the same two, and two more, under larger limits. -/
theorem raised_limits_mend :
    let tighter := some (Duration.ofMillis 250)
    let wider := some (Duration.ofSeconds 10)
    let small := (patient.limited 3 tighter).run mendsLate .start
    let large := (patient.limited 5 wider).run mendsLate .start
    (3 ≤ 5 ∧ ∀ budget ∈ wider, ∃ smaller ∈ tighter, smaller ≤ budget) ∧
      small.attempts mendsLate <+: large.attempts mendsLate ∧
      (small.attempts mendsLate).length = 2 ∧ (large.attempts mendsLate).length = 4 ∧
      small.events.getLast? = some (.deadline 2) ∧ large.events.getLast? = some (.success 4) := by
  intro tighter wider small large
  have hwider : ∀ budget ∈ wider, ∃ smaller ∈ tighter, smaller ≤ budget := by
    intro budget hbudget
    cases Option.some.inj hbudget
    exact ⟨_, rfl, by decide⟩
  have hextends := raising_limits_extends patient mendsLate .start (show 3 ≤ 5 by decide) hwider
  refine ⟨⟨by decide, hwider⟩, hextends.1, ?_⟩
  decide +kernel

end GuardedHttp.Retry
