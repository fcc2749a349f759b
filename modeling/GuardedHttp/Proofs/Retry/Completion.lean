import GuardedHttp.Proofs.Retry.Timeline

/-!
# How a retried call goes

The attempts of `Policy.run` follow one another on the clock like those of a `Timeline` whose attempts
last as long as the script says. The call makes the attempts up to the first one that stops, tells
listeners of a retry after each but the last, and closes with the event of the reason that counts. The
pauses are the delays of the backoff; only a pause that would end at no instant is the longest sleep
instead.

Main statement: `run_ends_at_first_stop`.
-/

namespace GuardedHttp.Retry

variable {α ε : Type}

/-- An attempt begins, or is found impossible. -/
def Happening.isOpening : Happening → Bool
  | attempt | notReady => true
  | event _ => false

namespace Policy

/-- The attempts of a script under a policy. -/
def timeline (p : Policy ε) (script : Nat → Trial α ε) (now : Instant) : Timeline α ε where
  policy := p
  attempt k begun := (begun.wake (script k).lasts, (script k).result)
  started := now

variable (p : Policy ε) (script : Nat → Trial α ε) (now : Instant)

/-- What happens at the attempt of an index: it begins, it ends, and listeners hear of the decision. -/
def happened (k : Nat) : List (Instant × Happening) :=
  [((p.timeline script now).begins k, opening (script k)),
    ((p.timeline script now).ends k, .event (((p.timeline script now).verdict k).event k))]

/-- What is reported of the attempt of an index. -/
def reported (k : Nat) : List Emission := ((p.timeline script now).verdict k).emissions p.name k

variable {p} {script} {now} {n : Nat}

/-- A call from an attempt on, in terms of its timeline. -/
theorem runFrom_begins (left k : Nat) :
    p.runFrom script now left k ((p.timeline script now).begins k) =
      match (p.timeline script now).verdict k, left with
      | .retry delay, left + 1 =>
        (p.runFrom script now left (k + 1) (((p.timeline script now).ends k).wake delay)).prepend
          (p.happened script now k) (p.reported script now k)
      | _, _ =>
        { happenings := p.happened script now k
          emitted := p.reported script now k
          result := (p.timeline script now).outcome k
          ended := (p.timeline script now).ends k } := by
  rw [runFrom.eq_def]
  rfl

/-- If the policy does not try again, the call ends with this attempt. -/
theorem runFrom_of_final {k : Nat} (left : Nat)
    (hf : ∀ delay, (p.timeline script now).verdict k ≠ .retry delay) :
    p.runFrom script now left k ((p.timeline script now).begins k) =
      { happenings := p.happened script now k
        emitted := p.reported script now k
        result := (p.timeline script now).outcome k
        ended := (p.timeline script now).ends k } := by
  rw [runFrom_begins]
  split
  · rename_i delay _ hv
    exact absurd hv (hf delay)
  · rfl

/-- If the policy tries again, the call goes on with the next attempt. -/
theorem runFrom_of_retry {k left : Nat}
    (hv : (p.timeline script now).verdict k = .retry ((p.timeline script now).delay k)) :
    p.runFrom script now (left + 1) k ((p.timeline script now).begins k) =
      (p.runFrom script now left (k + 1) ((p.timeline script now).begins (k + 1))).prepend
        (p.happened script now k) (p.reported script now k) := by
  rw [runFrom_begins, hv]
  rfl

/-- From any attempt on up to the first one that stops, the call makes the attempts in order. -/
theorem runFrom_eq (hn : IsLeast {k | (p.timeline script now).Stops k} n) (left k : Nat)
    (hk : k ≤ n) (hleft : n ≤ k + left) :
    p.runFrom script now left k ((p.timeline script now).begins k) =
      { happenings := (List.range' k (n + 1 - k)).flatMap (p.happened script now)
        emitted := (List.range' k (n + 1 - k)).flatMap (p.reported script now)
        result := (p.timeline script now).outcome n
        ended := (p.timeline script now).ends n } := by
  -- By induction on the retries that are left; they suffice, since the stop is among them.
  induction left generalizing k with
  | zero =>
    obtain rfl : k = n := by omega
    rw [runFrom_of_final _ (Timeline.closes_of_stops hn.1).2]
    simp
  | succ left ih =>
    rcases Nat.eq_or_lt_of_le hk with rfl | hlt
    · rw [runFrom_of_final _ (Timeline.closes_of_stops hn.1).2]
      simp
    · have hv := Timeline.verdict_of_not_stops (Timeline.not_stops_of_lt hn hlt)
      have hrange : n + 1 - k = n + 1 - (k + 1) + 1 := by omega
      rw [runFrom_of_retry hv, ih (k + 1) hlt (by omega), hrange, List.range'_succ]
      rfl

/-- The call makes the attempts up to the first one that stops. -/
theorem run_eq (hn : IsLeast {k | (p.timeline script now).Stops k} n)
    (hlimit : n + 1 ≤ max p.maxAttempts 1) :
    p.run script now =
      { happenings := (List.range (n + 1)).flatMap (p.happened script now)
        emitted := (List.range (n + 1)).flatMap (p.reported script now)
        result := (p.timeline script now).outcome n
        ended := (p.timeline script now).ends n } := by
  have hleft : n ≤ 0 + (p.attemptLimit - 1) := by
    unfold attemptLimit
    omega
  rw [List.range_eq_range']
  exact runFrom_eq hn _ 0 (Nat.zero_le n) hleft

/-- What happens at an attempt that does not stop ends with the retry of its index. -/
theorem happened_of_not_stops {k : Nat} (h : ¬ (p.timeline script now).Stops k) :
    p.happened script now k =
      [((p.timeline script now).begins k, opening (script k)),
        ((p.timeline script now).ends k, .event (.retry k (p.backoff.delay k)))] := by
  rw [happened, Timeline.verdict_of_not_stops h]
  rfl

/-- Each attempt is opened once. -/
theorem countP_happened (k : Nat) : (p.happened script now k).countP (·.2.isOpening) = 1 := by
  unfold happened opening
  cases script k <;> rfl

/-- Listeners hear of the decision after each attempt. -/
theorem events_run (hn : IsLeast {k | (p.timeline script now).Stops k} n)
    (hlimit : n + 1 ≤ max p.maxAttempts 1) :
    (p.run script now).events =
      (List.range (n + 1)).map fun k => ((p.timeline script now).verdict k).event k := by
  rw [run_eq hn hlimit, Run.events, List.filterMap_flatMap, List.map_eq_flatMap]
  refine List.flatMap_congr fun k _ => ?_
  unfold happened opening
  cases script k <;> rfl

/-- A pause that can be slept is the delay, and leaves the next attempt within the budget. -/
theorem begins_succ_of_lt {k : Nat} (h : ¬ (p.timeline script now).Stops k)
    (hfits : ((p.timeline script now).ends k).nanos + (p.backoff.delay k).nanos < Instant.limit) :
    (p.timeline script now).begins (k + 1) =
        ((p.timeline script now).ends k).after (p.backoff.delay k) ∧
      ∀ budget, p.budget = some budget →
        ((p.timeline script now).begins (k + 1)).since now < budget := by
  have hb : (p.timeline script now).begins (k + 1) =
      ((p.timeline script now).ends k).after (p.backoff.delay k) := Instant.wake_of_lt hfits
  refine ⟨hb, fun budget hbudget => ?_⟩
  have hlt := Timeline.add_lt_of_not_stops h hbudget
  have hmost := budget.nanos_le
  rw [Timeline.elapsed, Instant.since, Duration.nanos_clamp] at hlt
  rw [hb, Duration.lt_iff, Instant.since, Duration.nanos_clamp, Instant.nanos_after]
  change min (_ - now.nanos) _ + (p.backoff.delay k).nanos < _ at hlt
  omega

end Policy

open Policy in
/-- A retried call makes the attempts up to the first one that succeeds, that ends with an error after
which the policy does not try again, that is the last one asked for, or after which the next one would
begin when the budget is used up. There is one, among the attempts that are asked for. The result of
the call is its result; each attempt before it is followed by a retry, and it closes the call with the
event of the first of these reasons that holds. An attempt begins when the delay after the one before
has passed, and then within the budget; a delay that would end at no instant is cut to the longest
sleep. -/
theorem run_ends_at_first_stop (p : Policy ε) (script : Nat → Trial α ε) (now : Instant) :
    let t := p.timeline script now
    ∃ n closing,
      IsLeast {k | t.Stops k} n ∧
      t.Closes n closing ∧
      n + 1 ≤ max p.maxAttempts 1 ∧
      (p.run script now).result = (script n).result ∧
      (p.run script now).ended = t.ends n ∧
      (p.run script now).happenings =
        (List.range n).flatMap (fun i =>
          [(t.begins i, opening (script i)), (t.ends i, .event (.retry i (p.backoff.delay i)))]) ++
          [(t.begins n, opening (script n)), (t.ends n, .event closing)] ∧
      (p.run script now).happenings.countP (·.2.isOpening) = n + 1 ∧
      (p.run script now).events =
        (List.range n).map (fun i => .retry i (p.backoff.delay i)) ++ [closing] ∧
      ∀ i < n,
        ((t.ends i).nanos + (p.backoff.delay i).nanos < Instant.limit →
          t.begins (i + 1) = (t.ends i).after (p.backoff.delay i) ∧
            ∀ budget, p.budget = some budget → (t.begins (i + 1)).since now < budget) ∧
        (¬ (t.ends i).nanos + (p.backoff.delay i).nanos < Instant.limit →
          t.begins (i + 1) = (t.ends i).after Instant.longestSleep) := by
  dsimp only
  obtain ⟨n, hn, hlimit⟩ := (p.timeline script now).exists_isLeast_stops
  obtain ⟨hcloses, -⟩ := Timeline.closes_of_stops hn.1
  have hrun := run_eq hn hlimit
  have hbefore : ∀ i < n, ¬ (p.timeline script now).Stops i :=
    fun i hi => Timeline.not_stops_of_lt hn hi
  refine ⟨n, _, hn, hcloses, hlimit, by rw [hrun]; rfl, by rw [hrun], ?_, ?_, ?_,
    fun i hi => ⟨begins_succ_of_lt (hbefore i hi), Instant.wake_of_not_lt⟩⟩
  -- Before the last attempt each decision is to try again.
  · have hretries : (List.range n).flatMap (p.happened script now) = _ :=
      List.flatMap_congr fun i hi => happened_of_not_stops (hbefore i (List.mem_range.mp hi))
    simp only [hrun, List.range_succ, List.flatMap_append, List.flatMap_singleton, hretries]
    rfl
  · simp [hrun, List.countP_flatMap, Function.comp_def, countP_happened]
  · have hretries : (List.range n).map _ = _ := List.map_congr_left fun i hi =>
      congrArg (Verdict.event i)
        (Timeline.verdict_of_not_stops (hbefore i (List.mem_range.mp hi)))
    rw [events_run hn hlimit, List.range_succ, List.map_append, hretries]
    rfl

/-- A delay that no clock can wait for. -/
def eternity : Duration := .ofSeconds (UInt64.size - 1)

/-- Tries again after every error, once, after a delay that no clock can wait for. -/
def unhurried : Policy Nat :=
  { maxAttempts := 2, backoff := .fixed eternity, retryOn := some fun _ => true }

/-- Fails at first and then succeeds. -/
def mends : Nat → Trial Nat Nat
  | 0 => .made .zero (.error 500)
  | _ => .made .zero (.ok 1)

/-- The second attempt begins after thirty years, and not when the delay after the first has passed. -/
theorem longest_delay_is_cut :
    (unhurried.run mends .start).happenings =
        [(⟨0⟩, .attempt), (⟨0⟩, .event (.retry 0 eternity)), (⟨946080000000000000⟩, .attempt),
          (⟨946080000000000000⟩, .event (.success 2))] ∧
      (⟨946080000000000000⟩ : Instant) ≠ Instant.start.after eternity := by
  decide +kernel

end GuardedHttp.Retry
