import GuardedHttp.Proofs.Client.Execution

/-!
# The course of an admitted call

A call that the breaker has admitted makes the attempts of a `Retry.Timeline`: each on its own is an
`Attempt.alone` that begins when the delay after the one before it has passed. `Course.before` and
`Course.after` are the world around each attempt, in closed form, and `reaches_launched` takes the call
from one attempt to the next for as long as there is no reason to stop.

Main statements: `send_of_rejected`, `send_of_admitted` and `send_of_hanging`, what a call comes to that
is rejected, that ends with the first attempt to stop, and that waits for an answer that never comes.
-/

namespace GuardedHttp

/-- The moment of a sighting. -/
def Sighting.time : Sighting → Instant
  | call time _ | notReady time => time

/-! ## An attempt on its own -/

namespace Attempt

variable {now : Instant} {request : Request} {turn : Turn}

/-- A transport that refuses is not called, and sees the attempt when it refuses. -/
theorem alone_of_refuse {e : TransportError} (h : turn.plan = .refuse e) :
    alone now request turn =
      { sightings := [.notReady (now.wake turn.readyAfter)]
        emitted := []
        result := .error (.transport e)
        ended := some (now.wake turn.readyAfter) } := by
  unfold alone
  simp only [h]

/-- A transport that is ready is called with the request as it is sent. -/
theorem alone_of_call (h : ∀ e, turn.plan ≠ .refuse e) :
    alone now request turn =
      let ready := now.wake turn.readyAfter
      let (ended, result) := planEnd ready request.deadline turn.plan
      { sightings := [.call ready (prepare request).1]
        emitted := (prepare request).2 ++ reports request.url result
        result := attemptResult result
        ended } := by
  unfold alone
  cases hp : turn.plan with
  | refuse e => exact absurd hp (h e)
  | answer after result => rfl
  | hang => rfl

/-- A call that the transport is ready for is made at once, and ends when its plan says. -/
theorem place_of_call (config : Config) (w : Client.World) (call : Client.Admitted) {plan : Plan}
    (h : ∀ e, plan ≠ .refuse e) :
    Client.Send.place config w call plan =
      ((w.report (prepare call.request).2).see (.call w.now (prepare call.request).1),
        .active call (.calling (planEnd w.now call.request.deadline plan).1
          (planEnd w.now call.request.deadline plan).2)) := by
  cases plan with
  | refuse e => exact absurd rfl (h e)
  | answer after result => rfl
  | hang => rfl

/-- A call does not end before it has begun. -/
theorem le_callEnd {deadline finish : Option Instant} {result : Except TransportError Response}
    {ended : Instant} (hfinish : ∀ f, finish = some f → now ≤ f)
    (h : (callEnd now deadline finish result).1 = some ended) : now ≤ ended := by
  unfold callEnd at h
  split at h
  · exact hfinish ended h
  · rename_i deadline
    have hbound : now ≤ max deadline now := Instant.le_max_right ..
    dsimp only at h
    split at h
    · split at h
      · cases h
        exact hfinish ended rfl
      · cases h
        exact hbound
    · cases h
      exact hbound

/-- No call ends before it begins. -/
theorem le_planEnd {deadline : Option Instant} {plan : Plan} {ended : Instant}
    (h : (planEnd now deadline plan).1 = some ended) : now ≤ ended := by
  cases plan with
  | refuse e =>
    cases h
    exact Nat.le_refl _
  | answer after result =>
    refine le_callEnd (fun f hf => ?_) h
    cases hf
    exact Instant.le_wake ..
  | hang => exact le_callEnd (fun f hf => by cases hf) h

end Attempt

namespace Client

open StateTransition (Reaches)

/-- A call that has just been admitted. -/
structure Course where
  /-- The configuration of the client. -/
  config : Config
  /-- The world right after the breaker has answered. -/
  world : World
  /-- The request, with its request id and deadline. -/
  request : Request
  /-- The right to make the call. -/
  permit : Breaker.Permit

namespace Course

variable (c : Course) (k : Nat)

/-- What the transport does at the attempt of an index. -/
def turn : Turn := c.world.transport.turn (c.world.transport.taken + k)

/-- The attempt of an index, if it begins at a moment. -/
def alone (begun : Instant) : Attempt.Alone := Attempt.alone begun c.request (c.turn k)

/-- The attempts on the clock. One that never ends counts as if it ended at once. -/
def timeline : Retry.Timeline Response AttemptError where
  policy := c.config.retryPolicy
  attempt k begun := ((c.alone k begun).ended.getD begun, (c.alone k begun).result)
  started := c.world.now

/-- The attempt of an index. -/
def part : Attempt.Alone := c.alone k (c.timeline.begins k)

/-- The moment at which the transport has told whether it is ready for it. -/
def ready : Instant := (c.timeline.begins k).wake (c.turn k).readyAfter

/-- The end of the call to a transport that is ready. -/
def answered : Option Instant × Except TransportError Response :=
  Attempt.planEnd (c.ready k) c.request.deadline (c.turn k).plan

/-- The call as it makes the attempt of an index. -/
def call : Admitted :=
  { request := c.request, started := c.world.now, permit := c.permit, givenUpAt := none, attempt := k }

/-- What is reported of an attempt and of the decision after it. -/
def reported : List Emission :=
  (c.part k).emitted ++ (c.timeline.verdict k).emissions c.config.name k

/-- The world in which the attempt of an index begins. -/
def before : World :=
  { c.world with
    now := c.timeline.begins k
    transport := { c.world.transport with taken := c.world.transport.taken + k }
    sightings := c.world.sightings ++ (List.range k).flatMap fun i => (c.part i).sightings
    emitted := c.world.emitted ++ (List.range k).flatMap c.reported }

/-- The world in which the transport has told whether it is ready. -/
def asked : World :=
  { c.before k with
    now := c.ready k
    transport := { c.world.transport with taken := c.world.transport.taken + k + 1 } }

/-- The world in which it has ended. -/
def after : World :=
  { c.before k with
    now := c.timeline.ends k
    transport := { c.world.transport with taken := c.world.transport.taken + k + 1 }
    sightings := (c.before k).sightings ++ (c.part k).sightings
    emitted := (c.before k).emitted ++ (c.part k).emitted }

/-- The world in which the breaker has heard of the attempt as the last one. -/
def final : World :=
  (decided c.config (c.after k) (c.call k) (c.timeline.outcome k)).absorb
    (c.config.breaker.complete (c.timeline.ends k) c.permit (countsAsFailure (c.timeline.outcome k))
      c.world.circuit)

/-- The call as the attempt of an index begins. -/
def launched (s : Send) : World × Send := s.staged (launch (c.before k) (c.call k))

/-- The call as it has ended. -/
def settled (s : Send) : World × Send :=
  s.staged (settle c.config (c.after k) (c.call k) (c.timeline.outcome k))

variable {c} {k} {s : Send}

/-- The first attempt begins in the world in which the call was admitted. -/
theorem before_zero : c.before 0 = c.world := by
  simp [before, Retry.Timeline.begins, timeline]

/-- An attempt that ends does so when the timeline says. -/
theorem ends_eq {ended : Instant} (h : (c.part k).ended = some ended) : c.timeline.ends k = ended := by
  show (c.part k).ended.getD _ = ended
  rw [h]
  rfl

/-- The world in which an attempt has ended, in terms of the attempt. -/
theorem after_eq {ended : Instant} (h : (c.part k).ended = some ended) :
    c.after k =
      { c.before k with
        now := ended
        transport := { c.world.transport with taken := c.world.transport.taken + k + 1 }
        sightings := (c.before k).sightings ++ (c.part k).sightings
        emitted := (c.before k).emitted ++ (c.part k).emitted } := by
  rw [after, ends_eq h]

/-- The ways in which an attempt can go. -/
inductive PartCase (c : Course) (k : Nat) : Prop
  /-- The transport refuses it. -/
  | refused (e : TransportError) (plan : (c.turn k).plan = .refuse e)
      (part : c.part k =
        { sightings := [.notReady (c.ready k)]
          emitted := []
          result := .error (.transport e)
          ended := some (c.ready k) })
  /-- The transport is called. -/
  | made (plan : ∀ e, (c.turn k).plan ≠ .refuse e)
      (part : c.part k =
        { sightings := [.call (c.ready k) (Attempt.prepare c.request).1]
          emitted := (Attempt.prepare c.request).2 ++ Attempt.reports c.request.url (c.answered k).2
          result := attemptResult (c.answered k).2
          ended := (c.answered k).1 })

/-- Every attempt is refused, or calls the transport. -/
theorem part_case (c : Course) (k : Nat) : PartCase c k := by
  by_cases h : ∃ e, (c.turn k).plan = .refuse e
  · obtain ⟨e, he⟩ := h
    exact .refused e he (Attempt.alone_of_refuse he)
  · exact .made (not_exists.mp h) (Attempt.alone_of_call (not_exists.mp h))

/-- The transport sees an attempt once, when it has become ready or has refused. -/
theorem sightings_part : ∃ sighting, (c.part k).sightings = [sighting] ∧ sighting.time = c.ready k := by
  cases c.part_case k with
  | refused _ _ hpart | made _ hpart =>
    rw [hpart]
    exact ⟨_, rfl, rfl⟩

/-- An attempt begins before the transport has told whether it is ready. -/
theorem begins_le_ready : c.timeline.begins k ≤ c.ready k := Instant.le_wake ..

/-- A call that has been launched goes on when the transport has told whether it is ready. -/
theorem next_launched :
    Send.next c.config (c.launched k s) =
      some (s.staged (Send.place c.config (c.asked k) (c.call k) (c.turn k).plan)) := by
  have hlaunched : c.launched k s = s.staged
      ({ c.asked k with now := c.timeline.begins k },
        .active (c.call k) (.readying (c.ready k) (c.turn k).plan)) := rfl
  rw [hlaunched, next_staged rfl, World.until_of_ge begins_le_ready]
  rfl

/-- The world in which the transport has been called. -/
def called (c : Course) (k : Nat) : World :=
  ((c.asked k).report (Attempt.prepare c.request).2).see
    (.call (c.ready k) (Attempt.prepare c.request).1)

/-- A transport that is ready is called. -/
theorem next_launched_of_call (h : ∀ e, (c.turn k).plan ≠ .refuse e) :
    Send.next c.config (c.launched k s) =
      some (s.staged (c.called k,
        .active (c.call k) (.calling (c.answered k).1 (c.answered k).2))) := by
  rw [next_launched, Attempt.place_of_call _ _ _ h]
  rfl

/-- A call whose attempt ends comes from its beginning to its end. -/
theorem reaches_settled {ended : Instant} (h : (c.part k).ended = some ended) :
    Reaches (Send.next c.config) (c.launched k s) (c.settled k s) := by
  cases c.part_case k with
  | refused e hplan hpart =>
    have hended : ended = c.ready k := by
      rw [hpart] at h
      exact (Option.some.inj h).symm
    have houtcome : c.timeline.outcome k = .error (.transport e) := congrArg (·.result) hpart
    have hafter : c.after k = (c.asked k).see (.notReady (c.ready k)) := by
      simp [after_eq h, hended, asked, World.see, hpart]
    refine .single ?_
    rw [next_launched, hplan, settled, houtcome, hafter]
    rfl
  | made hplan hpart =>
    have hended : (c.answered k).1 = some ended := by
      rw [← h, hpart]
    have houtcome : c.timeline.outcome k = attemptResult (c.answered k).2 :=
      congrArg (·.result) hpart
    have hlater : (c.called k).now ≤ ended := Attempt.le_planEnd hended
    have hafter : c.after k =
        { (c.called k).report (Attempt.reports c.request.url (c.answered k).2) with now := ended } := by
      simp [after_eq h, called, asked, World.see, World.report, hpart]
    have hdue : Stage.due (.active (c.call k) (.calling (c.answered k).1 (c.answered k).2)) =
        some ended := hended
    -- The transport is called, and the attempt ends with the call.
    refine .head (next_launched_of_call hplan) (.single ?_)
    rw [Option.mem_def, next_staged hdue, World.until_of_ge hlater, settled, houtcome, hafter]
    rfl

/-! ## From attempt to attempt -/

/-- The decision after an attempt is the one of the timeline. -/
theorem verdictOf_after :
    verdictOf c.config (c.after k) (c.call k) (c.timeline.outcome k) = c.timeline.verdict k := rfl

/-- The decision after an attempt is reported before the next one begins. -/
theorem before_succ :
    c.before (k + 1) =
      { decided c.config (c.after k) (c.call k) (c.timeline.outcome k) with
        now := c.timeline.begins (k + 1) } := by
  rw [decided, verdictOf_after]
  simp [before, after, World.report, List.range_succ, reported, call, Nat.add_assoc]

/-- Without a reason to stop, the next attempt begins after the delay. -/
theorem reaches_launched_succ {ended : Instant} (h : (c.part k).ended = some ended)
    (hgoes : ¬ c.timeline.Stops k) :
    Reaches (Send.next c.config) (c.launched k s) (c.launched (k + 1) s) := by
  have hv : verdictOf c.config (c.after k) (c.call k) (c.timeline.outcome k) =
      .retry (c.timeline.delay k) := Retry.Timeline.verdict_of_not_stops hgoes
  have hlater : c.timeline.ends k ≤ c.timeline.begins (k + 1) := Instant.le_wake ..
  refine (reaches_settled h).tail ?_
  rw [settled, settle_of_retry hv, Option.mem_def, next_staged rfl]
  rw [World.until_of_ge hlater, launched, before_succ]
  rfl

/-- The attempts follow one another for as long as each ends and none is a reason to stop. -/
theorem reaches_launched (hends : ∀ i < k, (c.part i).ended.isSome)
    (hgoes : ∀ i < k, ¬ c.timeline.Stops i) :
    Reaches (Send.next c.config) (c.launched 0 s) (c.launched k s) := by
  induction k with
  | zero => exact .refl
  | succ k ih =>
    have hbefore := ih (fun i hi => hends i (by omega)) (fun i hi => hgoes i (by omega))
    obtain ⟨ended, h⟩ := Option.isSome_iff_exists.mp (hends k (by omega))
    exact hbefore.trans (reaches_launched_succ h (hgoes k (by omega)))

/-- From the last attempt on the call is over. -/
theorem reaches_finished {ended : Instant} (h : (c.part k).ended = some ended)
    (hstops : c.timeline.Stops k) :
    Reaches (Send.next c.config) (c.launched k s)
      (s.staged (conclude c.config (c.final k) c.request c.world.now
        ((c.timeline.outcome k).mapError .inner))) := by
  have hsettled := reaches_settled (s := s) h
  have hfinal : ∀ delay, verdictOf c.config (c.after k) (c.call k) (c.timeline.outcome k) ≠
      .retry delay := (Retry.Timeline.closes_of_stops hstops).2
  rw [settled, settle_of_final hfinal] at hsettled
  exact hsettled

/-- A call to a transport that never answers never ends, if there is no deadline. -/
theorem reaches_hanging (h : (c.part k).ended = none) :
    ∃ w call result, Reaches (Send.next c.config) (c.launched k s)
      (s.staged (w, .active call (.calling none result))) := by
  cases c.part_case k with
  | refused _ _ hpart =>
    rw [hpart] at h
    cases h
  | made hplan hpart =>
    rw [hpart] at h
    have hends : (c.answered k).1 = none := h
    have hnext := next_launched_of_call (s := s) hplan
    rw [hends] at hnext
    exact ⟨_, _, _, .single hnext⟩

/-- An attempt with a deadline ends. -/
theorem ended_of_deadline {deadline : Instant} (h : c.request.deadline = some deadline) :
    (c.part k).ended.isSome := by
  cases c.part_case k with
  | refused _ _ hpart =>
    rw [hpart]
    rfl
  | made _ hpart =>
    rw [hpart]
    simp only [answered, h]
    cases (c.turn k).plan with
    | refuse e => rfl
    | answer after result =>
      simp only [Attempt.planEnd, Attempt.callEnd]
      split <;> rfl
    | hang => rfl

/-! ## The end of the course -/

/-- What a call has led to that ended with the attempt of an index. -/
structure Concludes (c : Course) (n : Nat) (r : World × Option SendResult) : Prop where
  /-- It ended with the attempt. -/
  now : r.1.now = c.timeline.ends n
  /-- The caller is told of the result of the attempt. -/
  result : r.2 = some (.ended (((c.timeline.outcome n).mapError .inner).mapError ClientError.ofGuarded)
    (c.timeline.elapsed n))
  /-- The breaker has heard of the attempt, and of no other. -/
  circuit : r.1.circuit =
    (c.config.breaker.complete (c.timeline.ends n) c.permit (countsAsFailure (c.timeline.outcome n))
      c.world.circuit).circuit
  /-- The transport has taken one turn for each attempt. -/
  transport : r.1.transport = { c.world.transport with taken := c.world.transport.taken + n + 1 }
  /-- It has seen the attempts. -/
  sightings : r.1.sightings =
    c.world.sightings ++ (List.range (n + 1)).flatMap fun i => (c.part i).sightings
  /-- The attempts, the breaker and the end of the call have been reported. -/
  emitted : ∃ quiet, (∀ outcome, countOf (callsOf c.config outcome) quiet = 0) ∧
    r.1.emitted = c.world.emitted ++ (List.range (n + 1)).flatMap c.reported ++
      (c.config.breaker.complete (c.timeline.ends n) c.permit
        (countsAsFailure (c.timeline.outcome n)) c.world.circuit).emitted ++ quiet

/-- The end of the course, in terms of its last world. -/
theorem concludes_of_final {n : Nat} {slot : Correlation.Slot} {quiet : List Emission}
    (hquiet : ∀ outcome, countOf (callsOf c.config outcome) quiet = 0) :
    c.Concludes n ({ (c.final n).report quiet with slot },
      some (.ended (((c.timeline.outcome n).mapError .inner).mapError ClientError.ofGuarded)
        (c.timeline.elapsed n))) where
  now := rfl
  result := rfl
  circuit := rfl
  transport := rfl
  sightings := by
    simp only [List.range_succ, List.flatMap_append, List.flatMap_singleton, ← List.append_assoc]
    rfl
  emitted := by
    refine ⟨quiet, hquiet, ?_⟩
    simp only [List.range_succ, List.flatMap_append, List.flatMap_singleton, reported,
      ← List.append_assoc]
    rfl

end Course

/-! ## From beginning to end -/

/-- A call of a patient caller that begins now. -/
structure Send.Fresh (w : World) (s : Send) : Prop where
  /-- It begins now. -/
  stage : s.stage = .waiting w.now
  /-- The caller will not give it up. -/
  patience : s.patience = none

/-- A call that begins with the clock. -/
def visit : Send :=
  { request := { method := "GET", url := "http://upstream.local" }, stage := .waiting .start }

/-- A world whose transport never answers. -/
def silent : World := { transport := { turn := fun _ => { plan := .hang } } }

/-- The request as it goes out, with a request id and the deadline of the call. -/
def outgoing (config : Config) (w : World) (s : Send) : Request :=
  { s.request.withRequestIdIfAbsent (w.inside s).slot with deadline := w.now.after? config.timeout }

/-- The answer of the breaker to a call that begins now. -/
def asking (config : Config) (w : World) : Option Breaker.Permit × Breaker.Update :=
  config.breaker.acquire w.now w.circuit

/-- The course of a call that is admitted now. -/
def Course.of (config : Config) (w : World) (s : Send) (permit : Breaker.Permit) : Course :=
  { config
    world := (w.inside s).absorb (asking config w).2
    request := outgoing config w s
    permit }

variable {config : Config} {w : World} {s : Send} {permit : Breaker.Permit} {n : Nat}

/-- The caller of a fresh call has all patience. -/
theorem Send.Fresh.patient (h : s.Fresh w) : s.Patient :=
  ⟨h.patience, fun call phase hs => by rw [h.stage] at hs; cases hs⟩

/-- A fresh call is due. -/
theorem Send.Fresh.isDue (h : s.Fresh w) : s.isDue w.now = true :=
  isDue_iff.mpr ⟨w.now, by rw [h.stage]; rfl, Nat.le_refl _⟩

/-- The next thing that a fresh call does is begin. -/
theorem next_of_fresh (config : Config) (h : s.Fresh w) :
    Send.next config (w.inside s, s) = some (s.staged (s.begin config (w.inside s))) := by
  have hdue : s.isDue (w.inside s).now = true := h.isDue
  rw [next_of_isDue hdue, Send.step, h.stage]

/-- A fresh call that begins is concluded as rejected, or launches the first attempt of its course. -/
theorem begin_eq (h : s.Fresh w) : s.begin config (w.inside s) =
    match (asking config w).1 with
    | none =>
      conclude config ((w.inside s).absorb (asking config w).2) (outgoing config w s) w.now
        (.error .rejected)
    | some permit =>
      launch ((Course.of config w s permit).before 0) ((Course.of config w s permit).call 0) := by
  simp only [Course.before_zero]
  unfold Send.begin Course.call
  rw [h.patience]
  rfl

/-- A call that the breaker rejects is over at once, and the transport sees nothing of it. -/
theorem send_of_rejected (h : s.Fresh w) (hreject : (asking config w).1 = none) :
    ∃ emitted, (∀ outcome, countOf (callsOf config outcome) emitted = 0) ∧
      send config w s =
        ({ ((w.inside s).absorb (asking config w).2).report emitted with slot := w.slot },
          some (.ended (.error .breakerOpen) .zero)) := by
  obtain ⟨emitted, hcount, hconclude⟩ := conclude_case config
    ((w.inside s).absorb (asking config w).2) (outgoing config w s) w.now (.error .rejected)
  have hnext := next_of_fresh config h
  simp only [begin_eq h, hreject, hconclude] at hnext
  have hzero : w.now.since w.now = .zero := by
    rw [Instant.since, Nat.sub_self]
    rfl
  refine ⟨emitted, hcount, ?_⟩
  rw [send_eq_of_reaches h.patient h.isDue (.single hnext) rfl, ← hzero]
  rfl

/-- An admitted call goes on with its first attempt. -/
theorem reaches_first (h : s.Fresh w) (hgranted : (asking config w).1 = some permit) :
    Reaches (Send.next config) (w.inside s, s) ((Course.of config w s permit).launched 0 s) := by
  have hnext := next_of_fresh config h
  simp only [begin_eq h, hgranted] at hnext
  exact .single hnext

section

variable (h : s.Fresh w) (hgranted : (asking config w).1 = some permit)

include h hgranted

/-- An admitted call whose attempts end is over with the first attempt to stop. -/
theorem send_of_admitted (hn : IsLeast {k | (Course.of config w s permit).timeline.Stops k} n)
    (hends : ∀ i ≤ n, ((Course.of config w s permit).part i).ended.isSome) :
    (Course.of config w s permit).Concludes n (send config w s) := by
  obtain ⟨ended, hended⟩ := Option.isSome_iff_exists.mp (hends n le_rfl)
  -- The admission, the attempts before the last one, the last one.
  have hlaunched := Course.reaches_launched (c := Course.of config w s permit) (s := s)
    (fun i hi => hends i hi.le) (fun i hi => Retry.Timeline.not_stops_of_lt hn hi)
  have hfinished := Course.reaches_finished (c := Course.of config w s permit) (s := s) hended hn.1
  have hreach := ((reaches_first h hgranted).trans hlaunched).trans hfinished
  obtain ⟨quiet, hquiet, hconclude⟩ := conclude_case _ ((Course.of config w s permit).final n) _ _ _
  rw [hconclude] at hreach
  rw [send_eq_of_reaches h.patient h.isDue hreach rfl]
  exact Course.concludes_of_final hquiet

/-- An admitted call comes to no end if one of its attempts has none. -/
theorem send_of_hanging {k : Nat}
    (hgoes : ∀ i < k, ¬ (Course.of config w s permit).timeline.Stops i)
    (hends : ∀ i < k, ((Course.of config w s permit).part i).ended.isSome)
    (hhangs : ((Course.of config w s permit).part k).ended = none) :
    (send config w s).2 = none := by
  obtain ⟨_, _, _, hhanging⟩ := Course.reaches_hanging (s := s) hhangs
  have hlaunched := Course.reaches_launched (c := Course.of config w s permit) (s := s) hends hgoes
  have hreach := ((reaches_first h hgranted).trans hlaunched).trans hhanging
  rw [send_eq_of_reaches h.patient h.isDue hreach rfl]
  rfl

/-- If an admitted call comes to an end, so does each of its attempts. -/
theorem ended_of_send (hn : IsLeast {k | (Course.of config w s permit).timeline.Stops k} n)
    (hresult : (send config w s).2 ≠ none) {i : Nat} (hi : i ≤ n) :
    ((Course.of config w s permit).part i).ended.isSome := by
  -- By strong induction on the index: an attempt without an end would be the first of this kind.
  induction i using Nat.strongRecOn with
  | ind i ih =>
    by_contra hnone
    refine hresult (send_of_hanging h hgranted (k := i) (fun j hj => ?_) (fun j hj => ?_) ?_)
    · exact Retry.Timeline.not_stops_of_lt hn (by omega)
    · exact ih j hj (by omega)
    · simpa using hnone

end

end Client

end GuardedHttp
