import GuardedHttp.Proofs.Client.Course

/-!
# What the breaker sees of the sends of a client

The breaker of a client hears of every send once, when it ends, whatever the attempts before the last
one came to. So a client whose sends follow one another is to be told from a `Breaker.Serial` machine
that is fed with the last attempts only. `Lockstep` lets the two run side by side, the machine deciding
which sends are made; `Rejected` and `Observed` say what a send comes to that the machine rejects or
admits.

Main statement: `breaker_in_lockstep`.
-/

namespace GuardedHttp.Client

open Breaker (Serial)

/-- The attempts of a send on the clock, whatever the breaker says: the timeline of its course, if it is
admitted. -/
def attempts (config : Config) (w : World) (s : Send) : Retry.Timeline Response AttemptError where
  policy := config.retryPolicy
  attempt k begun :=
    let attempt := Attempt.alone begun (outgoing config w s) (w.transport.turn (w.transport.taken + k))
    (attempt.ended.getD begun, attempt.result)
  started := w.now

/-- An attempt ended with a transport error, the deadline included, or with a status of the service's
own fault. -/
def failing : Except AttemptError Response → Bool
  | .ok _ => false
  | .error (.transport _) => true
  | .error (.status response) => 500 ≤ response.status.code && response.status.code < 600

/-- A send that is rejected: the transport and the circuit are left alone. -/
structure Rejected (config : Config) (w : World) (s : Send) : Prop where
  /-- The caller is told at once. -/
  result : (send config w s).2 = some (.ended (.error .breakerOpen) .zero)
  /-- The transport is not called. -/
  sightings : (send config w s).1.sightings = w.sightings
  /-- The circuit stays as it is. -/
  circuit : (send config w s).1.circuit = w.circuit
  /-- The rejection is counted. -/
  counted : ∀ outcome, countOf (callsOf config outcome) (send config w s).1.emitted =
    countOf (callsOf config outcome) w.emitted + if outcome = "rejected" then 1 else 0

/-- A send that is made: the breaker hears of the attempt of an index, and of no other. -/
structure Observed (config : Config) (w : World) (s : Send) (during : Serial) (n : Nat) : Prop where
  /-- The attempt is the first one with a reason to stop. -/
  last : IsLeast {k | (attempts config w s).Stops k} n
  /-- The transport sees the attempts up to it. -/
  sightings : ∃ seen, (send config w s).1.sightings = w.sightings ++ seen ∧ seen.length = n + 1
  /-- The send ends with it. -/
  now : (send config w s).1.now = (attempts config w s).ends n
  /-- The circuit stands where the machine stands that is told of it at that moment. -/
  circuit : (during.record config.breakerSettings (send config w s).1.now
    (failing ((attempts config w s).outcome n))).Describes config.breakerSettings 0
      (send config w s).1.circuit
  /-- One call is counted, with the outcome of the attempt. -/
  counted : ∀ outcome, countOf (callsOf config outcome) (send config w s).1.emitted =
    countOf (callsOf config outcome) w.emitted +
      if outcome = (if failing ((attempts config w s).outcome n) then "failure" else "success") then 1
      else 0

/-- Sends that follow one another, beside a machine that decides which of them are made and is told of
their last attempts; the attempts that it is told of, the last one first. -/
inductive Lockstep (config : Config) : World → Serial → List Bool → Prop
  /-- The circuit is new. -/
  | start {w : World} {created : Instant} (circuit : w.circuit = .new created) :
      Lockstep config w (.closed 0) []
  /-- Some time passes. -/
  | wait {w : World} {m : Serial} {told : List Bool} (d : Duration) (h : Lockstep config w m told) :
      Lockstep config (w.advance d) m told
  /-- The machine rejects a send. -/
  | rejects {w : World} {m : Serial} {told : List Bool} {s : Send} (h : Lockstep config w m told)
      (fresh : s.Fresh w) (ask : m.ask config.breakerSettings w.now = none) :
      Lockstep config (send config w s).1 m told
  /-- The machine admits a send, and is told of its last attempt when the send ends. -/
  | makes {w : World} {m during : Serial} {told : List Bool} {s : Send} {n : Nat}
      (h : Lockstep config w m told) (fresh : s.Fresh w)
      (ask : m.ask config.breakerSettings w.now = some during) (ends : (send config w s).2 ≠ none)
      (last : IsLeast {k | (attempts config w s).Stops k} n) :
      Lockstep config (send config w s).1
        (during.record config.breakerSettings (send config w s).1.now
          (failing ((attempts config w s).outcome n)))
        (failing ((attempts config w s).outcome n) :: told)

variable {config : Config} {w : World} {s : Send} {m during : Serial} {told : List Bool} {n : Nat}

/-! ## What the attempts report -/

/-- The breaker of a client counts as failures the attempts that fail by the fault of the transport or of the
service. -/
theorem countsAsFailure_eq (result : Except AttemptError Response) :
    countsAsFailure result = failing result := by
  rcases result with (e | response) | response <;> rfl

/-- A list of lines of the log. -/
def IsLog (emitted : List Emission) : Prop := ∀ e ∈ emitted, ∃ l, e = .line l

/-- Lines of text can follow lines of text. -/
theorem IsLog.append {a b : List Emission} (ha : IsLog a) (hb : IsLog b) : IsLog (a ++ b) :=
  fun e he => (List.mem_append.mp he).elim (ha e) (hb e)

/-- Lines of text count in no series. -/
theorem IsLog.countOf_eq_zero {emitted : List Emission} (h : IsLog emitted) (series : Series) :
    countOf series emitted = 0 := by
  refine List.countP_eq_zero.mpr fun e he => ?_
  obtain ⟨l, rfl⟩ := h e he
  simp

/-- Preparing a request reports nothing but lines of text. -/
theorem isLog_prepare (request : Request) : IsLog (Attempt.prepare request).2 := by
  unfold Attempt.prepare IsLog
  split
  · simp
  · split <;> simp [Emission.log]

/-- The end of an attempt reports nothing but lines of text. -/
theorem isLog_reports (url : String) (result : Except TransportError Response) :
    IsLog (Attempt.reports url result) := by
  unfold Attempt.reports
  refine .append ?_ ?_
  · cases result <;> simp [IsLog, Emission.log]
  · cases attemptResult result <;> simp [IsLog, Emission.log]

/-- An attempt reports nothing but lines of the log. -/
theorem isLog_part (c : Course) (k : Nat) : IsLog (c.part k).emitted := by
  cases c.part_case k with
  | refused _ _ hpart =>
    rw [hpart]
    exact fun _ h => absurd h List.not_mem_nil
  | made _ hpart =>
    rw [hpart]
    exact (isLog_prepare _).append (isLog_reports _ _)

/-- The retry policy counts calls of its own alone. -/
theorem countOf_verdict (config : Config) (outcome name : String) (k : Nat) (v : Retry.Verdict) :
    countOf (callsOf config outcome) (v.emissions name k) = 0 := by
  cases v <;>
    simp [countOf, callsOf, Breaker.callsSeries, Retry.Verdict.emissions, Emission.count, Emission.log]

/-- However many attempts there are, they count nothing for the breaker. -/
theorem countOf_reported (c : Course) (outcome : String) (count : Nat) :
    countOf (callsOf c.config outcome) ((List.range count).flatMap c.reported) = 0 := by
  induction count with
  | zero => rfl
  | succ count ih =>
    rw [List.range_succ, List.flatMap_append, countOf_append, ih, List.flatMap_singleton,
      Course.reported, countOf_append, (isLog_part c count).countOf_eq_zero, countOf_verdict]

/-- The transport sees every attempt once. -/
theorem length_sightings (c : Course) (count : Nat) :
    ((List.range count).flatMap fun i => (c.part i).sightings).length = count := by
  have hone (k : Nat) : (c.part k).sightings.length = 1 := by
    obtain ⟨_, hsighting, -⟩ := Course.sightings_part (c := c) (k := k)
    rw [hsighting, List.length_singleton]
  simp [List.length_flatMap, hone]

/-- One outcome is counted under its own label, and under no other. -/
theorem count_label (outcome label : String) :
    [label].count outcome = if outcome = label then 1 else 0 := by
  rw [List.count_singleton]
  exact if_congr (by rw [beq_iff_eq, eq_comm]) rfl rfl

/-- What a course counts for the breaker is what it counted before and what its end is counted as. -/
theorem Course.Concludes.countOf_emitted {c : Course} {r : World × Option SendResult}
    (h : c.Concludes n r) (outcome : String) :
    countOf (callsOf c.config outcome) r.1.emitted =
      countOf (callsOf c.config outcome) c.world.emitted +
        countOf (callsOf c.config outcome)
          (c.config.breaker.complete (c.timeline.ends n) c.permit
            (countsAsFailure (c.timeline.outcome n)) c.world.circuit).emitted := by
  obtain ⟨quiet, hquiet, hemitted⟩ := h.emitted
  simp only [hemitted, countOf_append, countOf_reported, hquiet, Nat.add_zero]

/-! ## The answers of the breaker -/

section

variable (h : m.Describes config.breakerSettings 0 w.circuit)

include h

/-- What the machine rejects the breaker rejects, and counts. -/
theorem asking_of_ask_eq_none (hask : m.ask config.breakerSettings w.now = none) :
    (asking config w).1 = none ∧ (asking config w).2.circuit = w.circuit ∧
      ∀ outcome, countOf (callsOf config outcome) (asking config w).2.emitted =
        if outcome = "rejected" then 1 else 0 := by
  obtain ⟨hpermit, hcircuit, hcount⟩ := Breaker.acquire_spec (b := config.breaker) rfl
    (depth_ne_zero config) w.now w.circuit
  have hstep : w.circuit.acquire config.breaker.settings w.now = _ :=
    Serial.acquire_of_ask_eq_none h hask
  rw [hstep] at hpermit hcircuit hcount
  exact ⟨hpermit, hcircuit, fun outcome => (hcount outcome).trans (count_label ..)⟩

/-- What the machine admits the breaker gives a permit, and counts nothing yet. -/
theorem asking_of_ask_eq_some (hask : m.ask config.breakerSettings w.now = some during) :
    ∃ p, (asking config w).1 = some p ∧ p.generation = (asking config w).2.circuit.generation ∧
      during.Describes config.breakerSettings 1 (asking config w).2.circuit ∧
      ∀ outcome, countOf (callsOf config outcome) (asking config w).2.emitted = 0 := by
  obtain ⟨p, admitted, events, hadmits, hgeneration, hduring, hnone⟩ :=
    Serial.acquire_of_ask_eq_some h hask
  obtain ⟨hpermit, hcircuit, hcount⟩ := Breaker.acquire_spec (b := config.breaker) rfl
    (depth_ne_zero config) w.now w.circuit
  have hstep : w.circuit.acquire config.breaker.settings w.now = _ := hadmits
  rw [hstep] at hpermit hcircuit hcount
  replace hcircuit : (asking config w).2.circuit = admitted := hcircuit
  rw [hcircuit]
  exact ⟨p, hpermit, hgeneration, hduring,
    fun outcome => (hcount outcome).trans (by rw [hnone, List.count_nil])⟩

end

/-- Told of the end of a call, breaker and machine stand alike, and the breaker counts it. -/
theorem complete_of_describes {c : Breaker.Circuit} {p : Breaker.Permit} (ended : Instant)
    (failed : Bool) (h : during.Describes config.breakerSettings 1 c)
    (hp : p.generation = c.generation) :
    (during.record config.breakerSettings ended failed).Describes config.breakerSettings 0
        (config.breaker.complete ended p failed c).circuit ∧
      ∀ outcome, countOf (callsOf config outcome) (config.breaker.complete ended p failed c).emitted =
        if outcome = (if failed then "failure" else "success") then 1 else 0 := by
  obtain ⟨hcircuit, hcount⟩ := Breaker.complete_spec (b := config.breaker) rfl
    (depth_ne_zero config) ended c p failed
  obtain ⟨hdescribes, hcounted⟩ := Serial.complete_describes ended failed h hp
  refine ⟨hcircuit ▸ hdescribes, fun outcome => ?_⟩
  exact (hcount outcome).trans ((congrArg (List.count outcome) hcounted).trans (count_label ..))

/-! ## One send -/

section

variable (h : m.Describes config.breakerSettings 0 w.circuit) (hs : s.Fresh w)

include h hs

/-- What the machine rejects is rejected. -/
theorem rejected_of_ask (hask : m.ask config.breakerSettings w.now = none) :
    Rejected config w s := by
  obtain ⟨hpermit, hcircuit, hcount⟩ := asking_of_ask_eq_none h hask
  obtain ⟨quiet, hquiet, hsend⟩ := send_of_rejected hs hpermit
  refine ⟨?_, ?_, ?_, fun outcome => ?_⟩ <;> rw [hsend]
  · rfl
  · exact hcircuit
  · calc countOf (callsOf config outcome) (w.emitted ++ (asking config w).2.emitted ++ quiet)
        = countOf (callsOf config outcome) w.emitted +
            countOf (callsOf config outcome) (asking config w).2.emitted +
            countOf (callsOf config outcome) quiet := by rw [countOf_append, countOf_append]
      _ = _ := by rw [hcount, hquiet, Nat.add_zero]

/-- A send that the machine admits comes to its end if there is a deadline. -/
theorem ends_of_ask (hask : m.ask config.breakerSettings w.now = some during)
    (hlimit : w.now.nanos + config.timeout.nanos < Instant.limit) : (send config w s).2 ≠ none := by
  obtain ⟨p, hpermit, -⟩ := asking_of_ask_eq_some h hask
  have hdeadline : (Course.of config w s p).request.deadline = some (w.now.after config.timeout) :=
    if_pos hlimit
  obtain ⟨n, hn, -⟩ := (Course.of config w s p).timeline.exists_isLeast_stops
  have hsend := send_of_admitted hs hpermit hn fun k _ => Course.ended_of_deadline hdeadline
  rw [hsend.result]
  exact Option.some_ne_none _

/-- What the machine admits is made, and the breaker hears of its last attempt. -/
theorem observed_of_ask (hask : m.ask config.breakerSettings w.now = some during)
    (hresult : (send config w s).2 ≠ none) (hn : IsLeast {k | (attempts config w s).Stops k} n) :
    Observed config w s during n := by
  obtain ⟨p, hpermit, hgeneration, hduring, hnothing⟩ := asking_of_ask_eq_some h hask
  have hends : ∀ i ≤ n, ((Course.of config w s p).part i).ended.isSome :=
    fun i hi => ended_of_send hs hpermit hn hresult hi
  have hsend := send_of_admitted hs hpermit hn hends
  have hnow : (send config w s).1.now = (attempts config w s).ends n := hsend.now
  have hfailing : countsAsFailure ((Course.of config w s p).timeline.outcome n) =
      failing ((attempts config w s).outcome n) := countsAsFailure_eq _
  have hcircuit := hsend.circuit
  have hcounted := hsend.countOf_emitted
  rw [hfailing] at hcircuit hcounted
  -- The breaker is told of the last attempt, in the circuit that the permit came from.
  obtain ⟨hdescribes, hcount⟩ := complete_of_describes ((attempts config w s).ends n)
    (failing ((attempts config w s).outcome n)) hduring hgeneration
  refine ⟨hn, ⟨_, hsend.sightings, length_sightings _ _⟩, hnow, ?_, fun outcome => ?_⟩
  · rw [hnow, hcircuit]
    exact hdescribes
  · -- The admission is not counted.
    have hbefore : countOf (callsOf config outcome) (Course.of config w s p).world.emitted =
        countOf (callsOf config outcome) w.emitted :=
      (countOf_append ..).trans (by rw [hnothing, Nat.add_zero]; rfl)
    rw [← hcount outcome, ← hbefore]
    exact hcounted outcome

end

/-! ## All sends -/

/-- While the machine is closed, it has counted the failures it was told of last. -/
theorem Lockstep.closed_eq (h : Lockstep config w m told) {failures : Nat} (hm : m = .closed failures) :
    failures = (told.takeWhile id).length := by
  induction h generalizing failures with
  | start => cases hm; rfl
  | wait _ _ ih | rejects _ _ _ ih => exact ih hm
  | makes _ _ hask _ _ ih =>
    rcases Serial.record_eq_closed hm with ⟨hfailed, rfl⟩ | ⟨hfailed, before, rfl, rfl⟩
    · rw [hfailed]
      rfl
    · rw [hfailed, ih (Serial.eq_closed_of_ask hask)]
      rfl

/-- The circuit of a client stands where the machine stands. -/
theorem Lockstep.describes (h : Lockstep config w m told) :
    m.Describes config.breakerSettings 0 w.circuit := by
  induction h with
  | start hcircuit =>
    rw [hcircuit]
    exact Serial.describes_new
  | wait _ _ ih => exact ih
  | rejects _ hfresh hask ih =>
    rw [(rejected_of_ask ih hfresh hask).circuit]
    exact ih
  | makes _ hfresh hask hends hlast ih => exact (observed_of_ask ih hfresh hask hends hlast).circuit

/-- When the first attempt of a send is followed by a second one, and that by none, the machine is told of the
second one. -/
theorem Lockstep.makes_two (h : Lockstep config w m told) (hfresh : s.Fresh w)
    (hask : m.ask config.breakerSettings w.now = some during)
    (hlimit : w.now.nanos + config.timeout.nanos < Instant.limit) {delay : Duration}
    (hfirst : (attempts config w s).verdict 0 = .retry delay)
    (hsecond : ∀ delay, (attempts config w s).verdict 1 ≠ .retry delay) {failed : Bool}
    (hfailing : failing ((attempts config w s).outcome 1) = failed) :
    Lockstep config (send config w s).1
      (during.record config.breakerSettings (send config w s).1.now failed) (failed :: told) := by
  have hends := ends_of_ask h.describes hfresh hask hlimit
  have hlast : IsLeast {k | (attempts config w s).Stops k} 1 :=
    Retry.Timeline.isLeast_stops (fun k hk => ⟨delay, (Nat.lt_one_iff.mp hk) ▸ hfirst⟩) hsecond
  have hmakes := Lockstep.makes h hfresh hask hends hlast
  rw [hfailing] at hmakes
  exact hmakes

/-- The client and the machine agree at every point. The circuit stands where the machine stands; while
it is closed, it has counted the sends since the last one that ended well. A send is rejected exactly if
the machine rejects it, without a call to the transport. Every other send that ends, as all do if there
is a deadline, counts once, at its end, with the outcome of its last attempt: if that did not fail, the
circuit is not open afterwards, whatever the attempts before came to. -/
theorem breaker_in_lockstep (h : Lockstep config w m told) :
    m.Describes config.breakerSettings 0 w.circuit ∧
      (w.circuit.state = .closed → w.circuit.failures = (told.takeWhile id).length) ∧
      ∀ s, s.Fresh w →
        (m.ask config.breakerSettings w.now = none → Rejected config w s) ∧
        ∀ during, m.ask config.breakerSettings w.now = some during →
          (w.now.nanos + config.timeout.nanos < Instant.limit → (send config w s).2 ≠ none) ∧
          ((send config w s).2 ≠ none → ∃ n, Observed config w s during n ∧
            (failing ((attempts config w s).outcome n) = false →
              (send config w s).1.circuit.state ≠ .opened ∧
                ((send config w s).1.circuit.state = .closed →
                  (send config w s).1.circuit.failures = 0))) := by
  have hdescribes := h.describes
  refine ⟨hdescribes, fun hclosed => ?_, fun s hfresh => ⟨rejected_of_ask hdescribes hfresh,
    fun during hask => ⟨ends_of_ask hdescribes hfresh hask, fun hends => ?_⟩⟩⟩
  · -- A closed circuit stands with a closed machine.
    cases m with
    | closed failures => exact hdescribes.2.1.trans (h.closed_eq rfl)
    | opened | halfOpen =>
      rw [hdescribes.1] at hclosed
      cases hclosed
  · obtain ⟨n, hn, -⟩ := (attempts config w s).exists_isLeast_stops
    have hobserved := observed_of_ask hdescribes hfresh hask hends hn
    refine ⟨n, hobserved, fun hfailing => ?_⟩
    have hcircuit := hobserved.circuit
    rw [hfailing] at hcircuit
    exact Serial.describes_record_false hask hcircuit

/-- Two attempts for each call, and three failures to open the circuit. -/
def persistent : Config :=
  ⟨{ maxRetries := 1, failureThreshold := 3 }, by decide, by decide, by decide, by decide⟩

/-- A world whose transport cannot connect three times, and then answers well. -/
def stuttering : World where
  transport := .ofTurns
    #[{ plan := .answer .zero (.error (.connect "refused")) },
      { plan := .answer .zero (.error (.connect "refused")) },
      { plan := .answer .zero (.error (.connect "refused")) }]
    { plan := .answer .zero (.ok { status := .ok }) }

/-- The world after a first call, whose attempts both fail. -/
def stutteredOnce : World := (send persistent stuttering visit).1

/-- A second call, which begins when the first one has ended. -/
def secondVisit : Send := { visit with stage := .waiting stutteredOnce.now }

/-- A send of which both attempts fail is counted once, and a send whose second attempt mends the first one
undoes the count: the breaker does not hear of the failure in between. -/
theorem lockstep_after_recovery :
    Lockstep persistent stutteredOnce (.closed 1) [true] ∧
      Lockstep persistent (send persistent stutteredOnce secondVisit).1 (.closed 0) [false, true] ∧
      stutteredOnce.circuit.failures = 1 ∧
      (send persistent stutteredOnce secondVisit).1.circuit.failures = 0 ∧
      (send persistent stutteredOnce secondVisit).1.sightings.length = 4 := by
  have hstart : Lockstep persistent stuttering (.closed 0) [] := .start rfl
  -- Both attempts of the first send fail, and the breaker is told of the second one.
  have hretry : (attempts persistent stuttering visit).verdict 0 = .retry (.ofSeconds 1) := by decide +kernel
  have hexhausted : (attempts persistent stuttering visit).verdict 1 = .exhausted := by decide +kernel
  have hfails : failing ((attempts persistent stuttering visit).outcome 1) = true := by decide +kernel
  have hfirst : Lockstep persistent stutteredOnce (.closed 1) [true] :=
    hstart.makes_two ⟨rfl, rfl⟩ rfl (by decide) hretry (by simp [hexhausted]) hfails
  -- Of the second send only the first attempt fails, and the breaker is not told of that one.
  have hretry' : (attempts persistent stutteredOnce secondVisit).verdict 0 = .retry (.ofSeconds 1) := by
    decide +kernel
  have hmended : (attempts persistent stutteredOnce secondVisit).verdict 1 = .success := by decide +kernel
  have hsucceeds : failing ((attempts persistent stutteredOnce secondVisit).outcome 1) = false := by
    decide +kernel
  have hsecond : Lockstep persistent (send persistent stutteredOnce secondVisit).1 (.closed 0) [false, true] :=
    hfirst.makes_two ⟨rfl, rfl⟩ rfl (by decide +kernel) hretry' (by simp [hmended]) hsucceeds
  obtain ⟨⟨hclosed, -, -⟩, hcounted, -⟩ := breaker_in_lockstep hfirst
  obtain ⟨⟨hclosed', -, -⟩, hcounted', -⟩ := breaker_in_lockstep hsecond
  exact ⟨hfirst, hsecond, hcounted hclosed, hcounted' hclosed', by decide +kernel⟩

end GuardedHttp.Client
