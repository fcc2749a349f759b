import GuardedHttp.Proofs.Breaker.Accounts
import GuardedHttp.Proofs.Client.Lockstep
import GuardedHttp.Proofs.Client.Timing

/-!
# What a status does

If the transport answers at once, nothing but the statuses of its responses decides how a call goes. A status
from 500 to 599 is tried again while there are attempts and time, and is a failure for the breaker if it is
the last one; one from 400 to 499 ends the call as a failure for the caller alone. Every other status ends it
well, those from 600 to 999 included, which belong to no class.

Main statements: `send_by_statuses`, the course of such a call; `calls_by_statuses`, how often the transport
is called; `unclassified_status_passes`, a status of 600 is neither tried again nor an error.
-/

namespace GuardedHttp.Client

/-- The transport answers at once, each call with a response of its own. -/
def World.Answers (w : World) (responses : Nat → Response) : Prop :=
  ∀ k, w.transport.turn (w.transport.taken + k) = { plan := .answer .zero (.ok (responses k)) }

/-- How long the delays before the attempt of an index are together, in nanoseconds. -/
def delays (config : Config) (k : Nat) : Nat :=
  ∑ i ∈ Finset.range k, (i + 1) * config.retryDelay.nanos

/-- A call with these responses does not go on after the attempt of an index. -/
def Settles (config : Config) (responses : Nat → Response) (k : Nat) : Prop :=
  (responses k).status.isServerError = false ∨ config.maxRetries.toNat ≤ k ∨
    config.timeout.nanos ≤ delays config (k + 1)

variable {config : Config} {w : World} {s : Send} {permit : Breaker.Permit}
  {responses : Nat → Response}

/-! ## Attempts that are answered at once -/

/-- A response is worth another attempt if the service is at fault. -/
theorem mendable_ok_iff (response : Response) :
    Mendable (.ok response) ↔ response.status.isServerError = true := by
  simp [Mendable, Status.isServerError]

/-- The caller is told of a response that it is an error if it has the status of one. -/
theorem classified_ok (response : Response) : classified (.ok response) =
    if 400 ≤ response.status.code ∧ response.status.code < 600 then
      .error (.badStatus response.status response.body)
    else .ok response := rfl

namespace Course

variable {c : Course} {k n : Nat}

section

variable (hlimit : c.world.now.nanos + c.config.timeout.nanos < Instant.limit)
  (hanswers : c.world.Answers responses)

include hlimit hanswers

/-- An attempt that is answered at once takes no time. -/
theorem Keeps.immediate (h : c.Keeps k) :
    c.schedule.ends k = c.schedule.begins k ∧ c.schedule.outcome k = .ok (responses k) := by
  have hearly : c.schedule.begins k < c.schedule.config.timeout.nanos := h.early
  have hturn : c.schedule.turn k = { plan := .answer .zero (.ok (responses k)) } := hanswers k
  have hplan : (c.schedule.turn k).plan = .answer .zero (.ok (responses k)) := by rw [hturn]
  -- The deadline is an instant, and the attempt begins before it.
  have hfits : (c.schedule.moment (c.schedule.begins k)).nanos + Duration.zero.nanos <
      Instant.limit := by
    have htimeout : c.schedule.config.timeout.nanos = c.config.timeout.nanos := rfl
    have hstarted : (c.schedule.moment (c.schedule.begins k)).nanos =
        c.world.now.nanos + c.schedule.begins k := rfl
    have hzero : Duration.zero.nanos = 0 := rfl
    omega
  have hlasts : c.schedule.lasts k = some 0 := Turn.lasts_eq hplan hfits
  constructor
  · unfold Schedule.ends Schedule.cut
    rw [hlasts]
    exact Nat.min_eq_left hearly.le
  · unfold Schedule.outcome
    rw [hlasts]
    refine (if_pos hearly.le).trans ?_
    simp only [Turn.result, hplan]

/-- Attempts that are answered at once begin when the delays before them are over. -/
theorem begins_eq_delays (hkeeps : ∀ k ≤ n, c.Keeps k) (hk : k ≤ n) :
    c.schedule.begins k = delays c.config k := by
  induction k with
  | zero => rfl
  | succ k ih =>
    obtain ⟨hends, -⟩ := (hkeeps k (by omega)).immediate hlimit hanswers
    rw [Schedule.begins_succ, hends, ih (by omega), delays, delays, Finset.sum_range_succ]
    rfl

/-- The schedule of such a call is final where the responses settle it. -/
theorem final_iff_settles (hkeeps : ∀ k ≤ n, c.Keeps k) (hk : k ≤ n) :
    c.schedule.Final k ↔ Settles c.config responses k := by
  obtain ⟨hends, houtcome⟩ := (hkeeps k hk).immediate hlimit hanswers
  have hsum : delays c.config (k + 1) = c.schedule.ends k + (k + 1) * c.config.retryDelay.nanos := by
    rw [hends, begins_eq_delays hlimit hanswers hkeeps hk, delays, delays, Finset.sum_range_succ]
  unfold Schedule.Final Settles
  rw [houtcome, mendable_ok_iff, Bool.not_eq_true, hsum]
  rfl

end

end Course

/-! ## The whole call -/

/-- What the breaker counts of an admitted call is the end of its last attempt, once. -/
theorem Course.Concludes.counts {n : Nat} {ended : World × Option SendResult}
    (h : (Course.of config w s permit).Concludes n ended)
    (hgranted : (config.breaker.acquire w.now w.circuit).1 = some permit) (outcome : String) :
    countOf (callsOf config outcome) ended.1.emitted = countOf (callsOf config outcome) w.emitted +
      if outcome = (if failing ((Course.of config w s permit).timeline.outcome n) then "failure"
        else "success") then 1 else 0 := by
  obtain ⟨hpermit, hcircuit, hasked⟩ := Breaker.acquire_spec (b := config.breaker) rfl
    (depth_ne_zero config) w.now w.circuit
  rw [hpermit] at hgranted
  -- An admission is not counted.
  have hnone : countOf (callsOf config outcome) (asking config w).2.emitted = 0 := by
    refine (hasked outcome).trans ?_
    rcases Breaker.told_acquire config.breaker.settings w.now w.circuit with
      ⟨-, -, hcounted, -⟩ | ⟨hnot, -⟩
    · rw [hcounted]
      rfl
    · rw [hnot] at hgranted
      cases hgranted
  -- The permit is of the generation of the circuit that it came from.
  have hcurrent : permit.generation = (asking config w).2.circuit.generation :=
    (Breaker.Circuit.generation_of_acquire hgranted).trans (congrArg (·.generation) hcircuit.symm)
  obtain ⟨-, hcompleted⟩ := Breaker.complete_spec (b := config.breaker) rfl (depth_ne_zero config)
    ((Course.of config w s permit).timeline.ends n) (asking config w).2.circuit permit
    (countsAsFailure ((Course.of config w s permit).timeline.outcome n))
  have hcounted := hcompleted outcome
  rw [Breaker.counted_complete, if_pos hcurrent, count_label, countsAsFailure_eq] at hcounted
  have hworld : countOf (callsOf config outcome) (Course.of config w s permit).world.emitted =
      countOf (callsOf config outcome) w.emitted := (countOf_append ..).trans (by rw [hnone]; rfl)
  rw [← hworld, ← hcounted, ← countsAsFailure_eq]
  exact h.countOf_emitted outcome

/-- A call that the breaker admits, to a transport that answers at once, goes as the statuses of the responses
say. It makes attempts up to the first response that settles it, and nothing else reaches the transport; the
caller is told of that response; and the breaker counts one call, as a failure if that response is the
service's own fault. -/
theorem send_by_statuses (h : s.Fresh w)
    (hgranted : (config.breaker.acquire w.now w.circuit).1 = some permit)
    (hlimit : w.now.nanos + config.timeout.nanos < Instant.limit) (hanswers : w.Answers responses) :
    let ended := send config w s
    ∃ n, IsLeast {k | Settles config responses k} n ∧
      (∃ seen, ended.1.sightings = w.sightings ++ seen ∧ seen.length = n + 1) ∧
      (∃ elapsed, ended.2 = some (.ended (classified (.ok (responses n))) elapsed)) ∧
      ∀ outcome, countOf (callsOf config outcome) ended.1.emitted =
        countOf (callsOf config outcome) w.emitted +
          if outcome = (if (responses n).status.isServerError then "failure" else "success") then 1
          else 0 := by
  intro ended
  let c := Course.of config w s permit
  have hdeadline : c.request.deadline = some (c.world.now.after c.config.timeout) := if_pos hlimit
  have hready : ∀ k, (c.turn k).IsReady := by
    intro k
    have hturn : c.turn k = { plan := .answer .zero (.ok (responses k)) } := hanswers k
    rw [hturn]
    exact ⟨rfl, by simp⟩
  obtain ⟨n, hn, -⟩ := c.timeline.exists_isLeast_stops
  have hkeeps : ∀ k ≤ n, c.Keeps k := fun k hk => Course.keeps_of_isLeast hlimit hdeadline hready hn hk
  have hfinal := Course.isLeast_final hlimit hdeadline hready hn
  have hsettles {k : Nat} (hk : k ≤ n) : c.schedule.Final k ↔ Settles config responses k :=
    Course.final_iff_settles hlimit hanswers hkeeps hk
  -- Up to the last attempt the schedule is final exactly where the responses settle the call.
  have hleast : IsLeast {k | Settles config responses k} n := by
    refine ⟨(hsettles le_rfl).mp hfinal.1, fun k hk => ?_⟩
    by_contra hlt
    exact hlt (hfinal.2 ((hsettles (Nat.le_of_not_le hlt)).mpr hk))
  have hends : ∀ k ≤ n, (c.part k).ended.isSome := fun k _ => Course.ended_of_deadline hdeadline
  have hsend : c.Concludes n ended := send_of_admitted h hgranted hn hends
  obtain ⟨-, hok⟩ := (hkeeps n le_rfl).immediate hlimit hanswers
  have houtcome : c.timeline.outcome n = attemptResult (.ok (responses n)) := by
    rw [← hok]
    exact (Course.part_eq hlimit hdeadline hready (hkeeps n le_rfl)).2.2
  have hfailing : failing (c.timeline.outcome n) = (responses n).status.isServerError := by
    rw [← countsAsFailure_eq, houtcome, Bool.eq_iff_iff, countsAsFailure_attemptResult, mendable_ok_iff]
  refine ⟨n, hleast, ⟨_, hsend.sightings, length_sightings c (n + 1)⟩, ⟨c.timeline.elapsed n, ?_⟩,
    fun outcome => ?_⟩
  · rw [hsend.result, houtcome, ofGuarded_attemptResult]
  · rw [← hfailing]
    exact hsend.counts hgranted outcome

/-! ## How often the transport is called -/

/-- Longer delays come later. -/
theorem delays_mono (config : Config) {k n : Nat} (h : k ≤ n) : delays config k ≤ delays config n :=
  Finset.sum_le_sum_of_subset (Finset.range_mono h)

/-- With nothing but faults before it, an attempt for which there is time is the first that can settle the
call. -/
theorem isLeast_settles {n : Nat}
    (hfaults : ∀ k < n, (responses k).status.isServerError = true) (hle : n ≤ config.maxRetries.toNat)
    (hfits : delays config n < config.timeout.nanos)
    (hlast : (responses n).status.isServerError = false ∨ config.maxRetries.toNat ≤ n) :
    IsLeast {k | Settles config responses k} n := by
  refine ⟨?_, fun k hk => ?_⟩
  · rcases hlast with hlast | hlast
    · exact .inl hlast
    · exact .inr (.inl hlast)
  · by_contra hlt
    have hfault := hfaults k (Nat.lt_of_not_le hlt)
    have hdelays : delays config (k + 1) ≤ delays config n := delays_mono config (Nat.lt_of_not_le hlt)
    rcases hk with hk | hk | hk
    · rw [hfault] at hk
      cases hk
    · omega
    · omega

/-- The transport of such a call is called as often as the statuses make it. After faults of the service that
end with another response, it has been called once for each, if there are attempts and time for that; if there
are nothing but faults, it has been called for the first attempt and every retry, and the call has failed and
counts as one failure. A call ends well only with a status that is neither in the four hundreds nor in the
five hundreds. -/
theorem calls_by_statuses (h : s.Fresh w)
    (hgranted : (config.breaker.acquire w.now w.circuit).1 = some permit)
    (hlimit : w.now.nanos + config.timeout.nanos < Instant.limit) (hanswers : w.Answers responses) :
    let ended := send config w s
    (∀ n ≤ config.maxRetries.toNat, delays config n < config.timeout.nanos →
      (∀ k < n, (responses k).status.isServerError = true) →
      (responses n).status.isServerError = false →
        ended.1.sightings.length = w.sightings.length + (n + 1)) ∧
    (delays config config.maxRetries.toNat < config.timeout.nanos →
      (∀ k ≤ config.maxRetries.toNat, (responses k).status.isServerError = true) →
        ended.1.sightings.length = w.sightings.length + (config.maxRetries.toNat + 1) ∧
        (∃ e elapsed, ended.2 = some (.ended (.error e) elapsed)) ∧
        countOf (callsOf config "failure") ended.1.emitted =
          countOf (callsOf config "failure") w.emitted + 1) ∧
    ∀ response elapsed, ended.2 = some (.ended (.ok response) elapsed) →
      response.status.code < 400 ∨ 600 ≤ response.status.code := by
  intro ended
  obtain ⟨last, hleast, ⟨seen, hseen, hlength⟩, ⟨elapsed, hresult⟩, hcount⟩ :=
    send_by_statuses h hgranted hlimit hanswers
  have hcalls : ended.1.sightings.length = w.sightings.length + (last + 1) := by
    rw [hseen, List.length_append, hlength]
  refine ⟨fun n hle hfits hfaults hgood => ?_, fun hfits hfaults => ?_, fun response elapsed hok => ?_⟩
  -- The first attempt whose status does not ask for another is the last one.
  · have hn := isLeast_settles hfaults hle hfits (.inl hgood)
    rw [hn.unique hleast]
    exact hcalls
  -- All attempts fail, so that the last one is the last that is allowed.
  · have hn := isLeast_settles (fun k hk => hfaults k hk.le) le_rfl hfits (.inr le_rfl)
    obtain rfl := hn.unique hleast
    have hfault := hfaults _ le_rfl
    refine ⟨hcalls, ?_, ?_⟩
    · have hbad : 400 ≤ (responses config.maxRetries.toNat).status.code ∧
          (responses config.maxRetries.toNat).status.code < 600 := by
        simp only [Status.isServerError, Bool.and_eq_true, decide_eq_true_eq] at hfault
        omega
      rw [classified_ok, if_pos hbad] at hresult
      exact ⟨_, _, hresult⟩
    · have hfailure := hcount "failure"
      rw [hfault] at hfailure
      exact hfailure
  -- A result that is no error is a response that is none either.
  · replace hok : (send config w s).2 = some (.ended (.ok response) elapsed) := hok
    rw [hresult] at hok
    simp only [Option.some.injEq, SendResult.ended.injEq] at hok
    obtain ⟨hok, -⟩ := hok
    rw [classified_ok] at hok
    split at hok
    · cases hok
    · cases hok
      omega

/-- A client that tries a call once more. -/
def oneRetry : Config :=
  ⟨{ maxRetries := 1, failureThreshold := 2 }, by decide, by decide, by decide, by decide⟩

/-- A response whose status belongs to no class. -/
def unclassified : Response := { status := ⟨600, by decide, by decide⟩ }

/-- A world whose transport always answers so. -/
def bewildering : World :=
  { transport := { turn := fun _ => { plan := .answer .zero (.ok unclassified) } } }

/-- A status of 600 is a response like any other: the call is made once, ends well and counts as a success. -/
theorem unclassified_status_passes :
    let ended := send oneRetry bewildering visit
    ended.1.sightings.length = 1 ∧ (∃ elapsed, ended.2 = some (.ended (.ok unclassified) elapsed)) ∧
      countOf (callsOf oneRetry "failure") ended.1.emitted = 0 ∧
      countOf (callsOf oneRetry "success") ended.1.emitted = 1 := by
  intro ended
  have hfresh : visit.Fresh bewildering := ⟨rfl, rfl⟩
  have hlimit : bewildering.now.nanos + oneRetry.timeout.nanos < Instant.limit := by decide
  have hanswers : bewildering.Answers fun _ => unclassified := fun _ => rfl
  obtain ⟨n, hleast, ⟨seen, hseen, hlength⟩, hresult, hcount⟩ :=
    @send_by_statuses oneRetry bewildering visit ⟨0⟩ _ hfresh rfl hlimit hanswers
  have hsettles : Settles oneRetry (fun _ => unclassified) 0 := .inl rfl
  obtain rfl : n = 0 := Nat.le_zero.mp (hleast.2 hsettles)
  replace hseen : ended.1.sightings = [] ++ seen := hseen
  refine ⟨by rw [hseen]; exact hlength, hresult, hcount "failure", hcount "success"⟩

end GuardedHttp.Client
