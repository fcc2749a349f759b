import GuardedHttp.Proofs.Client.Course

/-!
# The timing of a call

Three bounds meet in a call: the deadline of each attempt, the delays between attempts and the time in
which the last attempt must begin. A `Schedule` is what they come to if the transport is always ready,
in plain arithmetic on the nanoseconds since the call began: no saturating sum, no clock and no sleep.
`Course.Keeps` relates the attempts of a call to it, one attempt after another.

Main statement: `send_follows_schedule`.
-/

namespace GuardedHttp

/-! ## What becomes of a result -/

/-- What the caller is told of the result of a call to the transport. -/
def classified : Except TransportError Response → Except ClientError Response
  | .error .timeout => .error (.timeout .timeout)
  | .error e => .error (.network e)
  | .ok response =>
    if 400 ≤ response.status.code ∧ response.status.code < 600 then
      .error (.badStatus response.status response.body)
    else .ok response

/-- Another attempt may mend the result: there is no response, or the service is at fault. -/
def Mendable : Except TransportError Response → Prop
  | .error _ => True
  | .ok response => 500 ≤ response.status.code ∧ response.status.code < 600

/-- A response is a failure of its attempt if its status is from 400 to 599. -/
theorem attemptResult_ok (response : Response) :
    attemptResult (.ok response) =
      if 400 ≤ response.status.code ∧ response.status.code < 600 then .error (.status response)
      else .ok response := by
  have hfails : (response.status.isClientError || response.status.isServerError) = true ↔
      400 ≤ response.status.code ∧ response.status.code < 600 := by
    simp only [Status.isClientError, Status.isServerError, Bool.or_eq_true, Bool.and_eq_true,
      decide_eq_true_eq]
    omega
  exact if_congr hfails rfl rfl

/-- The breaker and the retry policy agree with this on what has failed. -/
theorem countsAsFailure_attemptResult (result : Except TransportError Response) :
    countsAsFailure (attemptResult result) = true ↔ Mendable result := by
  cases result with
  | error e => simp [attemptResult, countsAsFailure, AttemptError.isRetryable, Mendable]
  | ok response =>
    rw [attemptResult_ok]
    split
    · simp [countsAsFailure, AttemptError.isRetryable, Status.isServerError, Mendable]
    · simp only [countsAsFailure, Mendable, Bool.false_eq_true, false_iff]
      omega

/-- What the caller is told of the last attempt is sorted by category. -/
theorem ofGuarded_attemptResult (result : Except TransportError Response) :
    ((attemptResult result).mapError GuardedError.inner).mapError ClientError.ofGuarded =
      classified result := by
  cases result with
  | error e => cases e <;> rfl
  | ok response =>
    rw [attemptResult_ok, classified]
    split <;> rfl

/-! ## Schedules -/

/-- How long a call to the transport takes that begins now, if it ever ends. -/
def Turn.lasts (turn : Turn) (now : Instant) : Option Nat :=
  match turn.plan with
  | .answer after _ => some ((now.wake after).nanos - now.nanos)
  | .refuse _ | .hang => none

/-- The result of a call to the transport that is not cut short. -/
def Turn.result (turn : Turn) : Except TransportError Response :=
  match turn.plan with
  | .answer _ result => result
  | .refuse e => .error e
  | .hang => .error .timeout

/-- A call that is answered takes some time, which ends when the transport wakes. -/
theorem Turn.exists_lasts (now : Instant) {turn : Turn} {after : Duration}
    {result : Except TransportError Response} (hplan : turn.plan = .answer after result) :
    ∃ lasts, turn.lasts now = some lasts ∧ now.wake after = ⟨now.nanos + lasts⟩ := by
  have hwake := Instant.le_wake now after
  rw [Instant.le_iff] at hwake
  refine ⟨(now.wake after).nanos - now.nanos, by simp only [lasts, hplan], Instant.ext_nanos ?_⟩
  simp only
  omega

/-- A call that ends at a representable moment takes the time of the script. -/
theorem Turn.lasts_eq {turn : Turn} {now : Instant} {after : Duration}
    {result : Except TransportError Response} (hplan : turn.plan = .answer after result)
    (h : now.nanos + after.nanos < Instant.limit) : turn.lasts now = some after.nanos := by
  simp [Turn.lasts, hplan, Instant.wake_of_lt h, Instant.nanos_after]

/-- The transport is ready at once. -/
structure Turn.IsReady (turn : Turn) : Prop where
  /-- It needs no time. -/
  readyAfter : turn.readyAfter = .zero
  /-- It does not refuse. -/
  calls : ∀ e, turn.plan ≠ .refuse e

namespace Client

/-- The settings of a call and what its transport does. -/
structure Schedule where
  /-- The configuration of the client. -/
  config : Config
  /-- The moment at which the call begins. -/
  started : Instant
  /-- What the transport does at each attempt. -/
  turn : Nat → Turn

namespace Schedule

variable (t : Schedule)

/-- The moment so many nanoseconds after the call began. -/
def moment (nanos : Nat) : Instant := ⟨t.started.nanos + nanos⟩

/-- When an attempt ends, given when it begins and how long it takes. -/
def cut (begun : Nat) : (lasts : Option Nat) → Nat
  | some lasts => min (begun + lasts) t.config.timeout.nanos
  | none => t.config.timeout.nanos

/-- When the attempt of an index begins, in nanoseconds since the call began. -/
def begins : Nat → Nat
  | 0 => 0
  | k + 1 =>
    t.cut (begins k) ((t.turn k).lasts (t.moment (begins k))) + (k + 1) * t.config.retryDelay.nanos

/-- How long the attempt of an index takes if nothing cuts it short, if it ever ends. -/
def lasts (k : Nat) : Option Nat := (t.turn k).lasts (t.moment (t.begins k))

/-- When the attempt of an index ends, in nanoseconds since the call began. -/
def ends (k : Nat) : Nat := t.cut (t.begins k) (t.lasts k)

/-- The result of the attempt of an index: its own if it ends by the deadline. -/
def outcome (k : Nat) : Except TransportError Response :=
  match t.lasts k with
  | some lasts =>
    if t.begins k + lasts ≤ t.config.timeout.nanos then (t.turn k).result else .error .timeout
  | none => .error .timeout

/-- The attempt of an index is the last one. -/
def Final (k : Nat) : Prop :=
  ¬ Mendable (t.outcome k) ∨ t.config.maxRetries.toNat ≤ k ∨
    t.config.timeout.nanos ≤ t.ends k + (k + 1) * t.config.retryDelay.nanos

/-- No attempt ends later than the call may last. -/
theorem ends_le (k : Nat) : t.ends k ≤ t.config.timeout.nanos := by
  unfold ends cut
  split
  · exact Nat.min_le_right ..
  · exact le_rfl

/-- An attempt begins when the one before has ended and a delay has passed that grows by the same amount
each time. -/
theorem begins_succ (k : Nat) :
    t.begins (k + 1) = t.ends k + (k + 1) * t.config.retryDelay.nanos := rfl

end Schedule

/-! ## The attempts of a call keep to the schedule -/

namespace Course

/-- The schedule of a call. -/
def schedule (c : Course) : Schedule := ⟨c.config, c.world.now, c.turn⟩

/-- The attempt of an index begins as scheduled, and before the time of the call is over. -/
structure Keeps (c : Course) (k : Nat) : Prop where
  /-- It begins as scheduled. -/
  begins : c.timeline.begins k = c.schedule.moment (c.schedule.begins k)
  /-- There is time left. -/
  early : c.schedule.begins k < c.config.timeout.nanos

variable {c : Course} {k : Nat} (hlimit : c.world.now.nanos + c.config.timeout.nanos < Instant.limit)
  (hdeadline : c.request.deadline = some (c.world.now.after c.config.timeout))
  (hready : ∀ k, (c.turn k).IsReady)

/-- The first attempt begins as scheduled. -/
theorem keeps_zero : c.Keeps 0 where
  begins := rfl
  early := by
    have hpos := c.config.timeout_pos
    simp only [Duration.isZero, beq_eq_false_iff_ne] at hpos
    exact Nat.pos_of_ne_zero hpos

include hlimit hready in
/-- A transport that is ready at once is ready when the attempt begins. -/
theorem ready_eq (h : c.Keeps k) : c.ready k = c.schedule.moment (c.schedule.begins k) := by
  have hearly := h.early
  have hfits : (c.timeline.begins k).nanos + Duration.zero.nanos < Instant.limit := by
    rw [h.begins]
    simp only [Schedule.moment, schedule, Duration.zero] at hearly ⊢
    omega
  rw [ready, (hready k).readyAfter, Instant.wake_of_lt hfits, ← h.begins]
  rfl

include hlimit hdeadline hready in
/-- The call of an attempt ends as scheduled, and with the scheduled result. -/
theorem answered_eq (h : c.Keeps k) :
    c.answered k = (some (c.schedule.moment (c.schedule.ends k)), c.schedule.outcome k) := by
  have hearly := h.early
  -- The deadline is still to come when the attempt begins.
  have hbound : max (c.world.now.after c.config.timeout) (c.schedule.moment (c.schedule.begins k)) =
      c.schedule.moment c.config.timeout.nanos :=
    Instant.max_eq_left (Nat.add_le_add_left hearly.le _)
  rw [answered, ready_eq hlimit hready h, hdeadline]
  cases hplan : (c.turn k).plan with
  | refuse e => exact absurd hplan ((hready k).calls e)
  | hang =>
    have hlasts : c.schedule.lasts k = none := by
      simp [Schedule.lasts, Turn.lasts, schedule, hplan]
    simp only [Attempt.planEnd, Attempt.callEnd, hbound, Schedule.ends, Schedule.outcome, hlasts]
    rfl
  | answer after result =>
    obtain ⟨lasts, hlasts, hwake⟩ :=
      Turn.exists_lasts (c.schedule.moment (c.schedule.begins k)) hplan
    replace hlasts : c.schedule.lasts k = some lasts := hlasts
    have hfinish : (c.schedule.moment (c.schedule.begins k)).wake after =
        c.schedule.moment (c.schedule.begins k + lasts) :=
      hwake.trans (congrArg Instant.mk (Nat.add_assoc ..))
    have hresult : (c.schedule.turn k).result = result := by simp [Turn.result, schedule, hplan]
    -- On the clock and in the schedule, the answer is in time or is not.
    have hin : c.schedule.moment (c.schedule.begins k + lasts) ≤
        c.schedule.moment c.config.timeout.nanos ↔
          c.schedule.begins k + lasts ≤ c.schedule.config.timeout.nanos := by
      simp only [Instant.le_iff, Schedule.moment, schedule]
      omega
    simp only [Attempt.planEnd, Attempt.callEnd, hbound, hfinish, hin, Schedule.ends,
      Schedule.outcome, Schedule.cut, hlasts, hresult]
    split <;> rename_i hle
    · rw [Nat.min_eq_left hle]
    · rw [Nat.min_eq_right (Nat.le_of_not_le hle)]
      rfl

include hlimit hdeadline hready in
/-- An attempt comes to what is scheduled. -/
theorem part_eq (h : c.Keeps k) :
    (c.part k).sightings =
        [.call (c.schedule.moment (c.schedule.begins k)) (Attempt.prepare c.request).1] ∧
      (c.part k).ended = some (c.schedule.moment (c.schedule.ends k)) ∧
      (c.part k).result = attemptResult (c.schedule.outcome k) := by
  cases c.part_case k with
  | refused e hplan => exact absurd hplan ((hready k).calls e)
  | made _ hpart =>
    rw [hpart, answered_eq hlimit hdeadline hready h, ready_eq hlimit hready h]
    exact ⟨rfl, rfl, rfl⟩

include hlimit hdeadline hready in
/-- What has elapsed at the end of an attempt is what the schedule says. -/
theorem elapsed_eq (h : c.Keeps k) : (c.timeline.elapsed k).nanos = c.schedule.ends k := by
  have hended := ends_eq (part_eq hlimit hdeadline hready h).2.1
  have hle : c.schedule.ends k ≤ c.config.timeout.nanos := c.schedule.ends_le k
  have hfits := c.config.timeout.nanos_le
  rw [Retry.Timeline.elapsed, hended, Instant.since, Duration.nanos_clamp]
  -- What has passed is within the timeout, so that it is a duration.
  simp only [Schedule.moment, schedule, timeline] at hle ⊢
  omega

/-! ## The last attempt -/

/-- A client gives up after a result that is no failure for its breaker. -/
theorem gives_up_iff : c.timeline.Succeeds k ∨ c.timeline.Refuses k ↔
    countsAsFailure (c.timeline.outcome k) = false := by
  cases hr : c.timeline.outcome k with
  | ok response => exact iff_of_true (.inl ⟨response, hr⟩) rfl
  | error e =>
    have hfails : ¬ c.timeline.Succeeds k := by simp [Retry.Timeline.Succeeds, hr]
    rw [or_iff_right hfails, Retry.Timeline.refuses_iff hr]
    rfl

/-- One attempt is made and as many retries as are configured. -/
theorem attempts_eq : max c.timeline.policy.maxAttempts 1 = c.config.maxRetries.toNat + 1 :=
  attemptLimit_eq c.config

/-- The attempts are used up when all configured retries have been made. -/
theorem exhausts_iff : c.timeline.Exhausts k ↔ c.config.maxRetries.toNat ≤ k := by
  rw [Retry.Timeline.Exhausts, attempts_eq]
  omega

/-- While attempts are left, the delay after an attempt is exact up to the longest duration. -/
theorem nanos_delay (hk : k < c.config.maxRetries.toNat) :
    (c.timeline.delay k).nanos = min ((k + 1) * c.config.retryDelay.nanos) (Duration.limit - 1) := by
  have hretries := c.config.maxRetries.toNat_lt
  have hfactor : k + 1 ≤ Retry.greatestFactor := by
    simp only [Retry.greatestFactor, UInt32.size]
    omega
  have h := Retry.Backoff.nanos_linear c.config.retryDelay none hfactor
  rw [Option.map_none, Option.getD_none, Nat.min_self] at h
  exact h

include hlimit hdeadline hready in
/-- The policy finds that the next attempt would begin too late exactly if it would in the schedule. -/
theorem overruns_iff (h : c.Keeps k) (hk : k < c.config.maxRetries.toNat) :
    c.timeline.Overruns k ↔
      c.config.timeout.nanos ≤ c.schedule.ends k + (k + 1) * c.config.retryDelay.nanos := by
  have helapsed := elapsed_eq hlimit hdeadline hready h
  have hdelay := nanos_delay hk
  have hfits := c.config.timeout.nanos_le
  have hbudget : c.timeline.policy.budget = some c.config.timeout := rfl
  simp only [Retry.Timeline.Overruns, hbudget, Option.some.injEq, exists_eq_left',
    Duration.le_iff, Duration.nanos_add, helapsed, hdelay]
  omega

include hlimit hdeadline hready in
/-- The call stops where the schedule says so. -/
theorem stops_iff (h : c.Keeps k) : c.timeline.Stops k ↔ c.schedule.Final k := by
  have hgives : c.timeline.Succeeds k ∨ c.timeline.Refuses k ↔ ¬ Mendable (c.schedule.outcome k) := by
    have houtcome : c.timeline.outcome k = attemptResult (c.schedule.outcome k) :=
      (part_eq hlimit hdeadline hready h).2.2
    rw [gives_up_iff, houtcome, ← countsAsFailure_attemptResult, Bool.not_eq_true]
  rw [Retry.Timeline.Stops, ← or_assoc, hgives, exhausts_iff, Schedule.Final]
  -- The delay after the last attempt that is asked for need not be exact, and does not matter.
  by_cases hk : c.config.maxRetries.toNat ≤ k
  · simp only [schedule, hk, true_or, or_true]
  · rw [overruns_iff hlimit hdeadline hready h (Nat.lt_of_not_le hk)]
    rfl

include hlimit hdeadline hready in
/-- After an attempt that keeps to the schedule and is not the last one, so does the next. -/
theorem keeps_succ (h : c.Keeps k) (hgoes : ¬ c.timeline.Stops k) : c.Keeps (k + 1) := by
  have hfinal := mt (stops_iff hlimit hdeadline hready h).mpr hgoes
  simp only [Schedule.Final, not_or, Nat.not_le] at hfinal
  obtain ⟨-, hk, hearly⟩ := hfinal
  replace hearly : c.schedule.ends k + (k + 1) * c.config.retryDelay.nanos < c.config.timeout.nanos :=
    hearly
  have hfits := c.config.timeout.nanos_le
  have hended := ends_eq (part_eq hlimit hdeadline hready h).2.1
  have hdelay : (c.timeline.delay k).nanos = (k + 1) * c.config.retryDelay.nanos := by
    rw [nanos_delay hk]
    omega
  refine ⟨?_, hearly⟩
  -- The delay ends before the deadline, at a representable moment.
  have hrepresentable : (c.schedule.moment (c.schedule.ends k)).nanos + (c.timeline.delay k).nanos <
      Instant.limit := by
    simp only [Schedule.moment, schedule] at hearly ⊢
    omega
  rw [Retry.Timeline.begins_succ, hended, Instant.wake_of_lt hrepresentable]
  refine Instant.ext_nanos ?_
  calc ((c.schedule.moment (c.schedule.ends k)).after (c.timeline.delay k)).nanos
      = c.world.now.nanos + c.schedule.ends k + (k + 1) * c.config.retryDelay.nanos := by
        rw [Instant.nanos_after, hdelay]
        rfl
    _ = c.world.now.nanos + (c.schedule.ends k + (k + 1) * c.config.retryDelay.nanos) :=
        Nat.add_assoc ..
    _ = (c.schedule.moment (c.schedule.begins (k + 1))).nanos := rfl

include hlimit hdeadline hready in
/-- Up to the first attempt that stops, all keep to the schedule. -/
theorem keeps_of_isLeast {n : Nat} (hn : IsLeast {k | c.timeline.Stops k} n) (hk : k ≤ n) :
    c.Keeps k := by
  induction k with
  | zero => exact keeps_zero
  | succ k ih =>
    exact keeps_succ hlimit hdeadline hready (ih (by omega)) (Retry.Timeline.not_stops_of_lt hn hk)

include hlimit hdeadline hready in
/-- The first attempt that stops is the first one that is final. -/
theorem isLeast_final {n : Nat} (hn : IsLeast {k | c.timeline.Stops k} n) :
    IsLeast {k | c.schedule.Final k} n := by
  have hkeeps {k : Nat} (hk : k ≤ n) := keeps_of_isLeast hlimit hdeadline hready hn hk
  refine ⟨(stops_iff hlimit hdeadline hready (hkeeps le_rfl)).mp hn.1, fun k hfinal => ?_⟩
  by_contra hlt
  have hk : k < n := Nat.lt_of_not_le hlt
  exact Retry.Timeline.not_stops_of_lt hn hk
    ((stops_iff hlimit hdeadline hready (hkeeps hk.le)).mpr hfinal)

end Course

/-! ## The whole call -/

/-- The schedule of a call that begins now. -/
def Schedule.of (config : Config) (w : World) : Schedule :=
  ⟨config, w.now, fun k => w.transport.turn (w.transport.taken + k)⟩

variable {config : Config} {w : World} {s : Send} {permit : Breaker.Permit}

/-- A call that the breaker admits, to a transport that is always ready, goes as scheduled. It makes
attempts up to the first final one, every one of them begins before the time of the call is over, each
comes to what is scheduled, the transport sees nothing else, and the call ends with the last attempt,
within its time, with what becomes of the result of that attempt. -/
theorem send_follows_schedule (h : s.Fresh w)
    (hgranted : (config.breaker.acquire w.now w.circuit).1 = some permit)
    (hlimit : w.now.nanos + config.timeout.nanos < Instant.limit)
    (hready : ∀ k, (w.transport.turn (w.transport.taken + k)).IsReady) :
    let t := Schedule.of config w
    let sent := outgoing config w s
    let ended := send config w s
    ∃ n, IsLeast {k | t.Final k} n ∧ n + 1 ≤ config.maxRetries.toNat + 1 ∧
      (∃ elapsed, ended.2 = some (.ended (classified (t.outcome n)) elapsed) ∧
        elapsed.nanos = t.ends n) ∧
      ended.1.now = t.moment (t.ends n) ∧ t.ends n ≤ config.timeout.nanos ∧
      ended.1.sightings = w.sightings ++
        (List.range (n + 1)).map (fun k => .call (t.moment (t.begins k)) (Attempt.prepare sent).1) ∧
      ∀ k ≤ n, t.begins k < config.timeout.nanos ∧
        (Attempt.alone (t.moment (t.begins k)) sent (t.turn k)).ended = some (t.moment (t.ends k)) ∧
        (Attempt.alone (t.moment (t.begins k)) sent (t.turn k)).result =
          attemptResult (t.outcome k) := by
  intro t sent ended
  let c := Course.of config w s permit
  have hdeadline : c.request.deadline = some (c.world.now.after c.config.timeout) := if_pos hlimit
  -- The first attempt that stops, up to which all keep to the schedule.
  obtain ⟨n, hn, hcount⟩ := c.timeline.exists_isLeast_stops
  rw [Course.attempts_eq] at hcount
  have hkeeps {k : Nat} (hk : k ≤ n) := Course.keeps_of_isLeast hlimit hdeadline hready hn hk
  have hpart {k : Nat} (hk : k ≤ n) := Course.part_eq hlimit hdeadline hready (hkeeps hk)
  -- The call makes them, and comes to the result of the last one.
  have hends : ∀ k ≤ n, (c.part k).ended.isSome := fun k _ => Course.ended_of_deadline hdeadline
  have hsend : c.Concludes n ended := send_of_admitted h hgranted hn hends
  have houtcome : c.timeline.outcome n = attemptResult (t.outcome n) := (hpart le_rfl).2.2
  have hsightings : (List.range (n + 1)).flatMap (fun k => (c.part k).sightings) =
      (List.range (n + 1)).map (fun k => .call (t.moment (t.begins k)) (Attempt.prepare sent).1) :=
    (List.flatMap_congr fun k hk => (hpart (Nat.le_of_lt_succ (List.mem_range.mp hk))).1).trans
      (List.flatMap_pure_eq_map _ _)
  refine ⟨n, Course.isLeast_final hlimit hdeadline hready hn, hcount, ⟨c.timeline.elapsed n, ?_, ?_⟩,
    ?_, t.ends_le n, ?_, fun k hk => ?_⟩
  · rw [hsend.result, houtcome, ofGuarded_attemptResult]
  · exact Course.elapsed_eq hlimit hdeadline hready (hkeeps le_rfl)
  · exact hsend.now.trans (Course.ends_eq (hpart le_rfl).2.1)
  · rw [hsend.sightings, hsightings]
    rfl
  · have halone : c.part k = Attempt.alone (t.moment (t.begins k)) sent (t.turn k) :=
      congrArg (c.alone k) (hkeeps hk).begins
    rw [← halone]
    exact ⟨(hkeeps hk).early, (hpart hk).2⟩

/-- A world whose transport fails to connect at first, after two seconds, and then answers in one second. -/
def mending : World where
  transport := .ofTurns #[{ plan := .answer (.ofSeconds 2) (.error (.connect "refused")) }]
    { plan := .answer (.ofSeconds 1) (.ok { status := .ok }) }

/-- A call that finds no connection at first tries again one second after that, and then ends well. -/
theorem send_to_mending :
    let sent := outgoing .default mending visit
    visit.Fresh mending ∧
      (Config.default.breaker.acquire mending.now mending.circuit).1 = some ⟨0⟩ ∧
      mending.now.nanos + Config.default.timeout.nanos < Instant.limit ∧
      (∀ k, (mending.transport.turn (mending.transport.taken + k)).IsReady) ∧
      (send .default mending visit).1.now = Instant.start.after (.ofSeconds 4) ∧
      (send .default mending visit).1.sightings =
        [.call .start (Attempt.prepare sent).1,
          .call (Instant.start.after (.ofSeconds 3)) (Attempt.prepare sent).1] ∧
      ∃ elapsed, (send .default mending visit).2 = some (.ended (.ok { status := .ok }) elapsed) ∧
        elapsed = .ofSeconds 4 := by
  intro sent
  have hfresh : visit.Fresh mending := ⟨rfl, rfl⟩
  have hlimit : mending.now.nanos + Config.default.timeout.nanos < Instant.limit := by decide
  have hready (k : Nat) : (mending.transport.turn (mending.transport.taken + k)).IsReady := by
    match k with
    | 0 | k + 1 => exact ⟨rfl, fun e h => by cases h⟩
  obtain ⟨n, hn, -, ⟨elapsed, hresult, helapsed⟩, hnow, -, hsightings, -⟩ :=
    @send_follows_schedule .default mending visit ⟨0⟩ hfresh rfl hlimit hready
  -- The first attempt may be mended, and there is time; the second one needs no mending.
  have hfirst : ¬ (Schedule.of .default mending).Final 0 := by
    rintro (h | h | h)
    · exact h trivial
    · exact absurd h (by decide)
    · exact absurd h (by decide)
  have hsecond : (Schedule.of .default mending).Final 1 := by
    have houtcome : (Schedule.of .default mending).outcome 1 = .ok { status := .ok } := by decide
    refine .inl ?_
    rw [houtcome]
    exact fun h => absurd h.1 (by decide)
  obtain rfl : n = 1 := by
    have hle : n ≤ 1 := hn.2 hsecond
    have hne : n ≠ 0 := by
      rintro rfl
      exact hfirst hn.1
    omega
  exact ⟨hfresh, rfl, hlimit, hready, hnow, hsightings, elapsed, hresult, Duration.ext_nanos helapsed⟩

end Client

end GuardedHttp
