import GuardedHttp.Proofs.Retry.Limits

/-!
# Linear backoff under a budget

A call whose attempts all fail at once spends its time in the delays between them. With linear backoff the
delays are the multiples of the base, so that the `k`-th attempt begins when `k * (k - 1) / 2` times the
base has passed: `Timeline.Drains.begins_eq` carries this from attempt to attempt, together with the bound
that keeps the arithmetic exact. The sums of the code saturate at the longest duration, but no budget is
longer, so that a sum that saturates is over the budget just as the exact one is
(`Timeline.Drains.overruns_iff`).

Main statement: `linear_backoff_under_budget`. The number of attempts is the greatest one whose last attempt
begins within the budget.
-/

namespace GuardedHttp.Retry

variable {α ε : Type}

/-- Tries again after some errors with linear backoff, for so many attempts and within a budget. -/
def linearPolicy (name : String) (base : Duration) (attempts : Nat) (budget : Duration)
    (retryable : ε → Bool) : Policy ε where
  name := name
  maxAttempts := attempts
  backoff := .linear base none
  retryOn := some retryable
  budget := some budget

/-- Attempts that fail at once with errors to try again after, and between which a call sleeps exactly as long
as its policy says. -/
structure FailPromptly (p : Policy ε) (made : List (Made α ε)) : Prop where
  /-- An attempt takes no time. -/
  atOnce : ∀ a ∈ made, a.ends = a.begins
  /-- It ends with an error after which the policy tries again. -/
  retryable : ∀ a ∈ made, ∃ e, a.outcome = .error e ∧ p.shouldRetry e = true
  /-- A sleep lasts exactly as long as its delay. -/
  exact : ∀ k a b, made[k]? = some a → made[k + 1]? = some b → b.begins = a.ends.after (p.backoff.delay k)

/-! ## Sums of delays -/

/-- The delays before the `k`-th attempt add up to one base for each pair of the `k` attempts. -/
theorem mul_pred_div_two_eq (base k : Nat) : base * k * (k - 1) / 2 = base * k.choose 2 := by
  rw [Nat.choose_two_right, Nat.mul_assoc, Nat.mul_div_assoc _ (Nat.even_mul_pred_self k).two_dvd]

/-- The next attempt adds as many bases as there have been attempts. -/
theorem mul_choose_succ (base k : Nat) :
    base * (k + 2).choose 2 = base * (k + 1).choose 2 + (k + 1) * base := by
  have hpairs : (k + 2).choose 2 = (k + 1) + (k + 1).choose 2 := by
    rw [Nat.choose_succ_succ (k + 1) 1, Nat.choose_one_right]
  rw [hpairs]
  ring

/-- The delay after an attempt is exact up to the longest duration if the number of the next attempt is at
most `2 ^ 32`. -/
theorem nanos_delay_linear {base : Duration} {k : Nat} (h : k + 1 < 2 ^ 32) :
    ((Backoff.linear base none).delay k).nanos =
      min ((k + 1) * base.nanos) (Duration.limit - 1) := by
  have hfactor : k + 1 ≤ greatestFactor := Nat.le_sub_one_of_lt h
  rw [Backoff.nanos_linear base none hfactor]
  simp

/-! ## How a budget is drained -/

/-- The attempts up to that of an index fail at once with errors to try again after, and follow one another
after the delays of linear backoff under a budget. -/
structure Timeline.Drains (t : Timeline α ε) (base budget : Duration) (n : Nat) : Prop where
  /-- The delays grow by the base. -/
  backoff : t.policy.backoff = .linear base none
  /-- There is a budget. -/
  budget : t.policy.budget = some budget
  /-- The number of attempts is small enough for the delays to be exact. -/
  few : n < 2 ^ 32
  /-- The attempts take no time. -/
  atOnce : ∀ k ≤ n, t.ends k = t.begins k
  /-- They end with errors after which the policy tries again. -/
  retryable : ∀ k ≤ n, ∃ e, t.outcome k = .error e ∧ t.policy.shouldRetry e = true
  /-- The sleeps between them last exactly as long as the delays. -/
  exact : ∀ k < n, t.begins (k + 1) = (t.ends k).after (t.delay k)
  /-- The call comes to the last of them. -/
  goesOn : ∀ k < n, ¬ t.Stops k

namespace Timeline.Drains

variable {t : Timeline α ε} {base budget : Duration} {n k : Nat}

/-- The delays of a call under linear backoff grow by the base, up to the longest duration. -/
theorem nanos_delay (h : t.Drains base budget n) (hk : k + 1 < 2 ^ 32) :
    (t.delay k).nanos = min ((k + 1) * base.nanos) (Duration.limit - 1) := by
  rw [Timeline.delay, h.backoff, nanos_delay_linear hk]

/-- The time that has passed at the end of an attempt is that at which it began, if that is within the
budget. -/
theorem nanos_elapsed_of_begins (h : t.Drains base budget n) (hk : k ≤ n)
    (hbegins : (t.begins k).nanos = t.started.nanos + base.nanos * (k + 1).choose 2)
    (hwithin : k = 0 ∨ base.nanos * (k + 1).choose 2 < budget.nanos) :
    (t.elapsed k).nanos = base.nanos * (k + 1).choose 2 := by
  have hfits := budget.nanos_le
  rw [Timeline.elapsed, h.atOnce k hk, Instant.since, Duration.nanos_clamp, hbegins]
  rcases hwithin with rfl | hwithin
  · simp
  · omega

/-- An attempt begins when the delays before it have passed, which is within the budget. -/
theorem begins_eq (h : t.Drains base budget n) (hk : k ≤ n) :
    (t.begins k).nanos = t.started.nanos + base.nanos * (k + 1).choose 2 ∧
      (k = 0 ∨ base.nanos * (k + 1).choose 2 < budget.nanos) := by
  -- By induction on the attempts: as none before the last one stops, their delays are within the budget.
  induction k with
  | zero => exact ⟨by simp [Timeline.begins], .inl rfl⟩
  | succ k ih =>
    obtain ⟨hbegins, hwithin⟩ := ih (by omega)
    have hfits := budget.nanos_le
    have hfew := h.few
    have hdelay := h.nanos_delay (k := k) (by omega)
    have helapsed := h.nanos_elapsed_of_begins (by omega) hbegins hwithin
    have hspent := Timeline.add_lt_of_not_stops (h.goesOn k hk) h.budget
    have hnext : base.nanos * (k + 1 + 1).choose 2 = _ := mul_choose_succ base.nanos k
    rw [helapsed] at hspent
    rw [h.exact k hk, h.atOnce k (by omega), Instant.nanos_after, hbegins]
    omega

/-- The time that has passed at the end of an attempt is exact. -/
theorem nanos_elapsed (h : t.Drains base budget n) (hk : k ≤ n) :
    (t.elapsed k).nanos = base.nanos * (k + 1).choose 2 := by
  obtain ⟨hbegins, hwithin⟩ := h.begins_eq hk
  exact h.nanos_elapsed_of_begins hk hbegins hwithin

/-- The budget is overrun exactly if the exact time at which the next attempt would begin is not within it:
where the delay or the sum saturates, both are beyond every budget. -/
theorem overruns_iff (h : t.Drains base budget n) (hk : k ≤ n) (hfew : k + 1 < 2 ^ 32) :
    t.Overruns k ↔ budget.nanos ≤ base.nanos * (k + 2).choose 2 := by
  have hfits := budget.nanos_le
  have hdelay := h.nanos_delay hfew
  have helapsed := h.nanos_elapsed hk
  have hsum : t.Overruns k ↔ budget ≤ t.elapsed k + t.delay k := by
    unfold Timeline.Overruns
    rw [h.budget]
    exact ⟨fun ⟨_, hb, hle⟩ => Option.some.inj hb ▸ hle, fun hle => ⟨_, rfl, hle⟩⟩
  have hnext := mul_choose_succ base.nanos k
  rw [hsum, Duration.le_iff, Duration.nanos_add, helapsed, hdelay]
  omega

/-- Only the limits stop such a call. -/
theorem not_succeeds_and_not_refuses (h : t.Drains base budget n) (hk : k ≤ n) :
    ¬ t.Succeeds k ∧ ¬ t.Refuses k := by
  obtain ⟨e, houtcome, hretryable⟩ := h.retryable k hk
  exact ⟨by simp [Timeline.Succeeds, houtcome], by simp [Timeline.refuses_iff houtcome, hretryable]⟩

/-- If such a call stops before its attempts are used up, the next one would begin too late. -/
theorem overruns_of_stops (h : t.Drains base budget n) (hk : k ≤ n) (hstops : t.Stops k)
    (hleft : ¬ t.Exhausts k) : t.Overruns k := by
  obtain ⟨hfails, haccepts⟩ := h.not_succeeds_and_not_refuses hk
  rcases hstops with hs | hs | hs | hs
  · exact absurd hs hfails
  · exact absurd hs haccepts
  · exact absurd hs hleft
  · exact hs

/-- Such a call ends because the attempts are used up, or else because of the budget. -/
theorem closes_case (h : t.Drains base budget n) (hk : k ≤ n) {closing : Event}
    (hcloses : t.Closes k closing) :
    (t.Exhausts k ∧ closing = .exhausted (k + 1)) ∨ ¬ t.Exhausts k ∧ closing = .deadline (k + 1) := by
  obtain ⟨hfails, haccepts⟩ := h.not_succeeds_and_not_refuses hk
  cases hcloses with
  | success succeeds => exact absurd succeeds hfails
  | ignored _ refuses => exact absurd refuses haccepts
  | exhausted _ _ exhausts => exact .inl ⟨exhausts, rfl⟩
  | deadline _ _ remains => exact .inr ⟨remains, rfl⟩

end Timeline.Drains

/-! ## Calls that drain their budget -/

section

variable {name : String} {base budget : Duration} {attempts n : Nat} {retryable : ε → Bool}
  {script : Nat → Trial α ε} {now : Instant}

/-- What is known of the attempts of a call holds of its timeline. -/
theorem FailPromptly.drains
    (hfails : FailPromptly (linearPolicy name base attempts budget retryable)
      (((linearPolicy name base attempts budget retryable).run script now).attempts script))
    (hn : IsLeast {k | ((linearPolicy name base attempts budget retryable).timeline script now).Stops k} n)
    (hlimit : n + 1 ≤ max attempts 1) (hfew : attempts ≤ 2 ^ 32) :
    ((linearPolicy name base attempts budget retryable).timeline script now).Drains base budget n := by
  have hmade := Policy.attempts_run hn hlimit
  have hget {k : Nat} (hk : k ≤ n) :
      (((linearPolicy name base attempts budget retryable).run script now).attempts script)[k]? =
        some ((linearPolicy name base attempts budget retryable).made script now k) := by
    simp [hmade, Nat.lt_succ_of_le hk]
  exact
    { backoff := rfl
      budget := rfl
      few := by omega
      atOnce := fun k hk => hfails.atOnce _ (List.mem_of_getElem? (hget hk))
      retryable := fun k hk => hfails.retryable _ (List.mem_of_getElem? (hget hk))
      exact := fun k hk => hfails.exact k _ _ (hget (Nat.le_of_lt hk)) (hget hk)
      goesOn := fun k hk => Timeline.not_stops_of_lt hn hk }

/-- After an attempt within a budget that ends at a moment that there is, the call sleeps exactly as long as
the delay, and is still within the budget. -/
theorem begins_succ_of_fits {p : Policy ε} (hbudget : p.budget = some budget)
    (hfits : now.nanos + budget.nanos < Instant.limit) {k : Nat}
    (hgoesOn : ¬ (p.timeline script now).Stops k)
    (hwithin : ((p.timeline script now).ends k).nanos ≤ now.nanos + budget.nanos) :
    (p.timeline script now).begins (k + 1) =
        ((p.timeline script now).ends k).after (p.backoff.delay k) ∧
      ((p.timeline script now).begins (k + 1)).nanos ≤ now.nanos + budget.nanos := by
  have hspent := Timeline.add_lt_of_not_stops hgoesOn hbudget
  have hmost := budget.nanos_le
  rw [Timeline.elapsed, Instant.since, Duration.nanos_clamp] at hspent
  change min (_ - now.nanos) _ + (p.backoff.delay k).nanos < _ at hspent
  have hslept : ((p.timeline script now).ends k).nanos + (p.backoff.delay k).nanos < Instant.limit := by
    omega
  have hbegins : (p.timeline script now).begins (k + 1) =
      ((p.timeline script now).ends k).after (p.backoff.delay k) := Instant.wake_of_lt hslept
  refine ⟨hbegins, ?_⟩
  rw [hbegins, Instant.nanos_after]
  omega

/-- If the budget ends at a moment that there is, an attempt that takes no time ends at once. -/
theorem ends_eq_begins {p : Policy ε} (hbudget : p.budget = some budget)
    (hlasts : ∀ k, (script k).lasts = .zero) (hfits : now.nanos + budget.nanos < Instant.limit)
    (hgoesOn : ∀ k < n, ¬ (p.timeline script now).Stops k) {k : Nat} (hk : k ≤ n) :
    ((p.timeline script now).begins k).nanos ≤ now.nanos + budget.nanos ∧
      (p.timeline script now).ends k = (p.timeline script now).begins k := by
  have hends {k : Nat} (hwithin : ((p.timeline script now).begins k).nanos ≤ now.nanos + budget.nanos) :
      (p.timeline script now).ends k = (p.timeline script now).begins k := by
    show Instant.wake _ (script k).lasts = _
    rw [hlasts, Instant.wake_of_lt (Nat.lt_of_le_of_lt hwithin hfits)]
    rfl
  -- By induction: the call is within its budget after each sleep.
  induction k with
  | zero => exact ⟨Nat.le_add_right _ _, hends (Nat.le_add_right _ _)⟩
  | succ k ih =>
    obtain ⟨hwithin, hended⟩ := ih (by omega)
    obtain ⟨-, hnext⟩ := begins_succ_of_fits hbudget hfits (hgoesOn k hk) (hended ▸ hwithin)
    exact ⟨hnext, hends hnext⟩

/-- A call fails promptly if its attempts take no time and end with errors to try again after, and if its
budget ends at a moment that there is. -/
theorem failPromptly_of_fits (hfits : now.nanos + budget.nanos < Instant.limit)
    (hscript : ∀ k, (script k).lasts = .zero ∧ ∃ e, (script k).result = .error e ∧ retryable e = true) :
    FailPromptly (linearPolicy name base attempts budget retryable)
      (((linearPolicy name base attempts budget retryable).run script now).attempts script) := by
  let t := (linearPolicy name base attempts budget retryable).timeline script now
  obtain ⟨n, hn, hlimit⟩ := t.exists_isLeast_stops
  have hgoesOn : ∀ k < n, ¬ t.Stops k := fun k hk => Timeline.not_stops_of_lt hn hk
  -- Within the budget every attempt ends as it begins, and the next begins after exactly the delay.
  have hended {k : Nat} (hk : k ≤ n) :=
    ends_eq_begins rfl (fun k => (hscript k).1) hfits hgoesOn hk
  rw [Policy.attempts_run hn hlimit]
  refine ⟨fun a ha => ?_, fun a ha => ?_, fun k a b ha hb => ?_⟩
  · obtain ⟨k, hk, rfl⟩ := List.mem_map.mp ha
    exact (hended (Nat.le_of_lt_succ (List.mem_range.mp hk))).2
  · obtain ⟨k, -, rfl⟩ := List.mem_map.mp ha
    exact (hscript k).2
  · obtain ⟨hk, rfl⟩ := List.getElem?_eq_some_iff.mp hb
    obtain ⟨-, rfl⟩ := List.getElem?_eq_some_iff.mp ha
    rw [List.length_map, List.length_range] at hk
    obtain ⟨hwithin, hat⟩ := hended (k := k) (by omega)
    have hpause := begins_succ_of_fits rfl hfits (hgoesOn k (by omega)) (hat ▸ hwithin)
    simpa [Policy.made] using hpause.1

end

/-- Linear backoff has a closed form in a call whose attempts all fail at once with errors to try again after,
and whose sleeps last exactly as long as their delays: its `k`-th attempt begins `base * k * (k - 1) / 2`
after the call, and it makes the greatest number of attempts, one at least and no more than are asked for,
whose last one begins within the budget. It ends because the attempts are used up if it has made all of
them, and because of the budget otherwise. All of this is in exact arithmetic, though that of the call
saturates. -/
theorem linear_backoff_under_budget {name : String} {base budget : Duration} {attempts : Nat}
    {retryable : ε → Bool} {script : Nat → Trial α ε} {now : Instant} (hfirst : 1 ≤ attempts)
    (hfew : attempts ≤ 2 ^ 32) :
    let p := linearPolicy name base attempts budget retryable
    let made := (p.run script now).attempts script
    (now.nanos + budget.nanos < Instant.limit →
      (∀ k, (script k).lasts = .zero ∧ ∃ e, (script k).result = .error e ∧ retryable e = true) →
        FailPromptly p made) ∧
    (FailPromptly p made →
      made.map (·.begins.nanos) =
          (List.range' 1 made.length).map (fun k => now.nanos + base.nanos * k * (k - 1) / 2) ∧
        IsGreatest {n | 1 ≤ n ∧ n ≤ attempts ∧ (n = 1 ∨ base.nanos * n * (n - 1) / 2 < budget.nanos)}
          made.length ∧
        (p.run script now).events.getLast? =
          some (if made.length = attempts then .exhausted made.length else .deadline made.length)) := by
  intro p made
  refine ⟨failPromptly_of_fits, fun hfails => ?_⟩
  let t := p.timeline script now
  obtain ⟨n, hn, hlimit⟩ := t.exists_isLeast_stops
  have hdrains := hfails.drains hn hlimit hfew
  have hmade : made = (List.range (n + 1)).map _ := Policy.attempts_run hn hlimit
  have hlength : made.length = n + 1 := by simp [hmade]
  have hmost : n + 1 ≤ attempts := by
    change n + 1 ≤ max attempts 1 at hlimit
    omega
  have hexhausts : t.Exhausts n ↔ n + 1 = attempts := by
    show max attempts 1 ≤ n + 1 ↔ _
    omega
  refine ⟨?_, ⟨⟨by omega, by omega, ?_⟩, ?_⟩, ?_⟩
  · rw [hlength, hmade, List.map_map, List.range'_eq_map_range, List.map_map]
    refine List.map_congr_left fun k hk => ?_
    obtain ⟨hbegins, -⟩ := hdrains.begins_eq (Nat.le_of_lt_succ (List.mem_range.mp hk))
    rw [Function.comp_apply, Function.comp_apply, mul_pred_div_two_eq, Nat.add_comm 1 k]
    exact hbegins
  · rw [hlength, mul_pred_div_two_eq]
    obtain ⟨-, hwithin⟩ := hdrains.begins_eq (Nat.le_refl n)
    omega
  · -- A greater number of attempts begins its last one after the delay that has overrun the budget.
    rintro m ⟨-, hm, hwithin⟩
    by_contra hlt
    have hleft : ¬ t.Exhausts n := fun h => by rw [hexhausts] at h; omega
    have hover := (hdrains.overruns_iff (Nat.le_refl n) (by omega)).mp
      (hdrains.overruns_of_stops (Nat.le_refl n) hn.1 hleft)
    have hmono : base.nanos * (n + 2).choose 2 ≤ base.nanos * m.choose 2 :=
      Nat.mul_le_mul_left _ (Nat.choose_le_choose 2 (by omega))
    rw [mul_pred_div_two_eq] at hwithin
    omega
  · have hevents : (p.run script now).events = (List.range (n + 1)).map _ := Policy.events_run hn hlimit
    have hlast : (p.run script now).events.getLast? = some ((t.verdict n).event n) := by
      rw [hevents, List.range_succ, List.map_append, List.map_singleton, List.getLast?_concat]
    obtain ⟨hcloses, -⟩ := Timeline.closes_of_stops hn.1
    rw [hlast, hlength]
    rcases hdrains.closes_case (Nat.le_refl n) hcloses with ⟨hall, e⟩ | ⟨hleft, e⟩
    · rw [e, if_pos (hexhausts.mp hall)]
    · rw [e, if_neg (mt hexhausts.mpr hleft)]

/-- An attempt that fails at once. -/
def outage (_ : Nat) : Trial Nat Nat := .made .zero (.error 503)

/-- A second attempt that begins just before the end of time ends the call under any budget, whose sum with
the delay that would follow saturates. -/
theorem linear_backoff_saturated :
    let base : Duration := .ofSeconds (2 ^ 63 - 1)
    let p : Policy Nat := linearPolicy "hourglass" base 3 .max fun _ => true
    let made := (p.run outage .start).attempts outage
    FailPromptly p made ∧ made.length = 2 ∧ made.map (·.begins.nanos) = [0, base.nanos] ∧
      (base + p.backoff.delay 1).nanos < base.nanos * 3 * 2 / 2 ∧
      (p.run outage .start).events.getLast? = some (.deadline 2) := by
  intro base p made
  have hmade : made =
      [⟨.start, .start, .error 503⟩, ⟨⟨base.nanos⟩, ⟨base.nanos⟩, .error 503⟩] := by decide +kernel
  have hfails : FailPromptly p made := by
    rw [hmade]
    refine ⟨by simp, by simp [p, linearPolicy, Policy.shouldRetry], ?_⟩
    rintro (_ | k) a b ha hb
    · cases ha
      cases hb
      decide +kernel
    · cases hb
  have hlength : made.length = 2 := by rw [hmade]; rfl
  obtain ⟨htimes, -, hcloses⟩ := (linear_backoff_under_budget (by decide) (by decide)).2 hfails
  rw [hlength] at htimes hcloses
  exact ⟨hfails, hlength, htimes.trans (by decide +kernel), by decide +kernel, hcloses⟩

end GuardedHttp.Retry
