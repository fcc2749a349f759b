import GuardedHttp.Proofs.Client.Callers
import GuardedHttp.Proofs.Client.Timing

/-!
# The traffic of a client

Any number of users share a client: their sends begin when they like, take turns in any order, rest
between two attempts while others run, and may be given up; time passes, and the breaker is controlled by
hand. `Traffic` is a client in the middle of this, and `Traffic.play` lets any list of `Act`s happen to
it. One act takes one send one stage further inside its own scopes, so that every interleaving of polls
is a list of acts (`Traffic.exists_acts_run`: the runs of a fleet are).

A `Party` remembers what its send has been through: which calls of the transport it made, whether the
breaker admitted it, and whether it ended after the period in which it was admitted. The breaker's own
history stands beside it in a roster, in which the send of an index has that index as its name.

All that a send can do in its turn is in `Pass`, and in `Outline` with the accounting left out;
`play_induction` is the induction over acts. What holds of traffic is derived from these.
-/

namespace GuardedHttp

/-- The transport refuses no call. -/
def Transport.AlwaysReady (transport : Transport) : Prop := ∀ k e, (transport.turn k).plan ≠ .refuse e

/-- The transport was called. -/
def Sighting.isCall : Sighting → Bool
  | call .. => true
  | notReady _ => false

namespace Client

open Breaker (Roster)
open Breaker.Circuit (Control)

/-! ## Parties -/

/-- A call of the transport. -/
structure Contact where
  /-- The moment of the call. -/
  time : Instant
  /-- The request that the transport was called with. -/
  request : Request
  /-- Which turn of the transport it was, counted from zero. -/
  turn : Nat

/-- The call of the transport that a sighting is, in a turn. -/
def contact? (turn : Nat) : Sighting → Option Contact
  | .call time request => some ⟨time, request, turn⟩
  | .notReady _ => none

/-- Someone who is going to use a client. -/
structure Caller where
  /-- The request. -/
  request : Request
  /-- The ids of the scopes around the call, outermost first. -/
  scopes : List RequestId := []
  /-- The time after which the caller gives up, if there is one. -/
  patience : Option Duration := none
  /-- The moment from which the call can begin. -/
  due : Instant := .start
  /-- The shape of the value that the caller wants from the response, if not the response itself. -/
  wants : Option Json.Shape := none

/-- A send with what it has been through. -/
structure Party where
  /-- The send. -/
  send : Send
  /-- The shape of the value that its caller wants, if not the response itself. -/
  wants : Option Json.Shape := none
  /-- The turn of the transport that its current attempt has got. -/
  turn : Nat := 0
  /-- The calls of the transport that it has made, in order. -/
  calls : List Contact := []
  /-- The breaker has admitted it. -/
  admitted : Bool := false
  /-- It ended after the period in which it was admitted. -/
  late : Bool := false

/-- The party of a caller before anything happens. -/
def Party.of (c : Caller) : Party where
  send :=
    { request := c.request, scopes := c.scopes, patience := c.patience, stage := .waiting c.due }
  wants := c.wants

/-- A party makes the call of a caller. -/
structure Party.StandsFor (p : Party) (c : Caller) : Prop where
  /-- With the same request. -/
  request : p.send.request = c.request
  /-- Inside the same scopes. -/
  scopes : p.send.scopes = c.scopes
  /-- With the same patience. -/
  patience : p.send.patience = c.patience
  /-- For a value of the same shape, if any. -/
  wants : p.wants = c.wants

namespace Party

variable (p : Party)

/-- The send has begun and is not over. -/
def underWay : Bool := p.send.stage.permit?.isSome

/-- The party after its send has got to a stage, with what has changed in the world in between; the
permit of the send is stale if its period is over. -/
def after (before : World) (stale : Bool) (r : World × Stage) : Party :=
  { p with
    send := { p.send with stage := r.2 }
    turn := if r.1.transport.taken = before.transport.taken then p.turn else before.transport.taken
    calls := p.calls ++ (r.1.sightings.drop before.sightings.length).filterMap (contact? p.turn)
    admitted := p.admitted || r.2.permit?.isSome
    late := p.late || r.2.ended && stale }

end Party

/-- What the breaker hears of a send that gets from one stage to the next. -/
def Stage.heard (name : Nat) : Stage → Stage → List SendMove
  | .waiting _, .active .. | .waiting _, .over _ => [.ask name]
  | .active _ (.calling _ result), .over (.ended ..) =>
    [.finish name (.returned (attemptResult result))]
  | .active _ (.readying _ (.refuse e)), .over (.ended ..) =>
    [.finish name (.returned (attemptResult (.error e)))]
  | .active .., .over .cancelled => [.drop name]
  | _, _ => []

/-- What the breaker hears of a send it hears in its name. -/
theorem Stage.own_heard (name : Nat) (before after : Stage) : Own name (before.heard name after) := by
  unfold heard
  split <;> first | exact own_nil | exact own_singleton rfl

/-- The breaker hears nothing of a send that is under way and remains so. -/
theorem Stage.heard_active (name : Nat) (call other : Admitted) (phase next : Phase) :
    (active call phase).heard name (active other next) = [] := by
  rcases phase with ⟨due, _ | _ | _⟩ | _ | _ <;> rfl

/-- Of a send that is dropped the breaker hears the drop. -/
theorem Stage.heard_cancelled (name : Nat) (call : Admitted) (phase : Phase) :
    (active call phase).heard name (.over .cancelled) = [.drop name] := by
  rcases phase with ⟨due, _ | _ | _⟩ | _ | _ <;> rfl

/-- The caller of a send has lost patience. -/
def Send.isGivenUp (now : Instant) (s : Send) : Bool :=
  match s.stage with
  | .active call _ => call.givenUpAt.any (· ≤ now)
  | .waiting _ | .over _ => false

/-! ## Acts -/

/-- Something that happens to a client. -/
inductive Act where
  /-- The send of an index goes one stage further, if it is due. -/
  | go (i : Nat)
  /-- The send of an index is dropped, if its caller has lost patience. -/
  | giveUp (i : Nat)
  /-- The breaker is controlled by hand. -/
  | control (how : Control)
  /-- Time passes. -/
  | advance (d : Duration)

/-- The breaker is controlled by hand. -/
def Act.isControl : Act → Bool
  | control _ => true
  | go _ | giveUp _ | advance _ => false

/-- A client that is used by any number of callers. -/
structure Traffic where
  /-- What the sends act on. -/
  world : World
  /-- The history of the breaker, in which sends have their indices as names. -/
  roster : Roster
  /-- The sends. -/
  parties : List Party

namespace Traffic

/-- A new client and those who are going to use it. -/
def start (now : Instant) (transport : Transport) (callers : List Caller) : Traffic where
  world := { now, circuit := .new now, transport }
  roster := .fresh now
  parties := callers.map .of

/-- The sends as the client knows them. -/
def fleet (t : Traffic) : Fleet := t.parties.map (·.send)

/-- The call of a send is in flight, and its period is over. -/
def stale (t : Traffic) (i : Nat) : Bool := (t.roster.calls i).any fun a => !t.roster.run.Current a

/-- How many parties have a property. -/
def number (t : Traffic) (property : Party → Bool) : Nat := t.parties.countP property

section

variable (config : Config) (t : Traffic)

/-- The traffic after a send has got to a stage; its scopes are left again. -/
def reach (i : Nat) (p : Party) (r : World × Stage) : Traffic where
  world := { r.1 with slot := t.world.slot }
  roster := follow config t.roster (p.send.stage.heard i r.2)
  parties := t.parties.set i (p.after t.world (t.stale i) r)

/-- A send does something inside its scopes, if it can. -/
def turnOf (i : Nat) (can : Send → Bool) (what : World → Send → World × Stage) : Traffic :=
  match t.parties[i]? with
  | none => t
  | some p =>
    if can p.send then t.reach config i p (what (t.world.inside p.send) p.send) else t

/-- One act. -/
def enact : Act → Traffic
  | .go i => t.turnOf config i (·.isDue t.world.now) fun w s => s.step config w
  | .giveUp i =>
    t.turnOf config i (·.isGivenUp t.world.now) fun w s =>
      ((s.dropIfGivenUp w).1, (s.dropIfGivenUp w).2.stage)
  | .control how =>
    { t with world := t.world.control config how, roster := follow config t.roster [.control how] }
  | .advance d =>
    { t with world := t.world.advance d, roster := follow config t.roster [.advance d] }

/-- Any number of acts. -/
def play (acts : List Act) : Traffic := acts.foldl (enact config) t

end

end Traffic

/-! ## What a send can do -/

/-- An attempt has come to its end, the transport having refused it or answered: the call, the world in
which its end has been seen or reported, and the result of the transport. -/
inductive AttemptEnds (w : World) : Stage → Admitted → World → Except TransportError Response → Prop
  /-- The transport is not ready. -/
  | refused {call : Admitted} {due : Instant} {e : TransportError} :
      AttemptEnds w (.active call (.readying due (.refuse e))) call (w.see (.notReady w.now)) (.error e)
  /-- The transport has been called, and the call is over. -/
  | answered {call : Admitted} {ends : Option Instant} {result : Except TransportError Response} :
      AttemptEnds w (.active call (.calling ends result)) call
        (w.report (Attempt.reports call.request.url result)) result

/-- Everything that a send can do in its turn, and what becomes of it. -/
inductive Pass (config : Config) (w : World) (s : Send) : World × Stage → Prop
  /-- It begins and is rejected. -/
  | rejected {due : Instant} (waits : s.stage = .waiting due) (refuses : (asking config w).1 = none) :
      Pass config w s (conclude config (w.absorb (asking config w).2)
        { s.request.withRequestIdIfAbsent w.slot with deadline := w.now.after? config.timeout } w.now
        (.error .rejected))
  /-- It begins and is admitted, and its first attempt begins. -/
  | admitted {due : Instant} {permit : Breaker.Permit} (waits : s.stage = .waiting due)
      (grants : (asking config w).1 = some permit) :
      Pass config w s (launch (w.absorb (asking config w).2)
        { request :=
            { s.request.withRequestIdIfAbsent w.slot with deadline := w.now.after? config.timeout }
          started := w.now, permit, givenUpAt := s.patience.map w.now.wake, attempt := 0 })
  /-- It calls the transport. -/
  | calls {call : Admitted} {due : Instant} {plan : Plan}
      (readies : s.stage = .active call (.readying due plan)) (ready : ∀ e, plan ≠ .refuse e) :
      Pass config w s
        ((w.report (Attempt.prepare call.request).2).see (.call w.now (Attempt.prepare call.request).1),
          .active call (.calling (Attempt.planEnd w.now call.request.deadline plan).1
            (Attempt.planEnd w.now call.request.deadline plan).2))
  /-- An attempt has ended, and the send rests before the next one. -/
  | rests {call : Admitted} {later : World} {result : Except TransportError Response}
      {delay : Duration} (ends : AttemptEnds w s.stage call later result)
      (verdict : verdictOf config later call (attemptResult result) = .retry delay) :
      Pass config w s
        (decided config later call (attemptResult result), .active call (.resting (later.now.wake delay)))
  /-- An attempt has ended, and so has the send. -/
  | finishes {call : Admitted} {later : World} {result : Except TransportError Response}
      (ends : AttemptEnds w s.stage call later result)
      (verdict : ∀ delay, verdictOf config later call (attemptResult result) ≠ .retry delay) :
      Pass config w s (finished config later call (attemptResult result))
  /-- It has rested, and the next attempt begins. -/
  | retries {call : Admitted} {due : Instant} (rested : s.stage = .active call (.resting due)) :
      Pass config w s (launch w { call with attempt := call.attempt + 1 })
  /-- It is dropped. -/
  | drops {call : Admitted} {phase : Phase} (active : s.stage = .active call phase) :
      Pass config w s ({ w with circuit := w.circuit.release call.permit }, .over .cancelled)

section

variable {config : Config} {w : World} {s : Send}

/-- A send whose attempt has ended rests or finishes, as its policy decides. -/
theorem AttemptEnds.pass {stage : Stage} {call : Admitted} {later : World}
    {result : Except TransportError Response} (h : AttemptEnds w stage call later result)
    (hs : s.stage = stage) : Pass config w s (settle config later call (attemptResult result)) := by
  subst hs
  by_cases hv : ∃ delay, verdictOf config later call (attemptResult result) = .retry delay
  · obtain ⟨delay, hv⟩ := hv
    rw [settle_of_retry hv]
    exact .rests h hv
  · rw [settle_of_final (not_exists.mp hv)]
    exact .finishes h (not_exists.mp hv)

/-- A send that is due does one of these things. -/
theorem pass_of_isDue (config : Config) (h : s.isDue w.now = true) : Pass config w s (s.step config w) := by
  unfold Send.step
  split
  · rename_i due hs
    unfold Send.begin
    dsimp only
    split
    · rename_i hnone
      exact .rejected hs hnone
    · rename_i permit hsome
      exact .admitted hs hsome
  · rename_i call due plan hs
    by_cases hplan : ∃ e, plan = .refuse e
    · obtain ⟨e, rfl⟩ := hplan
      exact AttemptEnds.refused.pass hs
    · rw [Attempt.place_of_call config w call (not_exists.mp hplan)]
      exact .calls hs (not_exists.mp hplan)
  · rename_i call ends result hs
    exact AttemptEnds.answered.pass hs
  · rename_i call due hs
    exact .retries hs
  · -- A send that is over is never due.
    rename_i hs
    obtain ⟨due, hdue, -⟩ := isDue_iff.mp h
    rw [hs] at hdue
    cases hdue

/-- A send is dropped exactly if its caller has lost patience. -/
theorem dropIfGivenUp_of_isGivenUp (h : s.isGivenUp w.now = true) :
    ∃ call phase, s.stage = .active call phase ∧ ∀ later : World, later.now = w.now →
      s.dropIfGivenUp later = ({ later with circuit := later.circuit.release call.permit },
        { s with stage := .over .cancelled }) := by
  unfold Send.isGivenUp at h
  split at h
  · rename_i call phase hs
    obtain ⟨moment, hmoment, hle⟩ := (Option.any_eq_true ..).mp h
    refine ⟨call, phase, hs, fun later hnow => ?_⟩
    rw [← hnow] at hle
    simp only [Send.dropIfGivenUp, hs, hmoment, if_pos (of_decide_eq_true hle)]
    simp [World.absorb, Breaker.abandon]
  all_goals cases h

/-- A send stays where it is as long as its caller has patience. -/
theorem dropIfGivenUp_of_not (h : s.isGivenUp w.now = false) : s.dropIfGivenUp w = (w, s) := by
  unfold Send.isGivenUp at h
  unfold Send.dropIfGivenUp
  split <;> rename_i hs
  · rw [hs] at h
    dsimp only at h
    split
    · rename_i moment hmoment
      rw [hmoment, Option.any_some, decide_eq_false_iff_not] at h
      rw [if_neg h]
    · rfl
  · rfl

/-- Dropping a send whose caller has lost patience is one of them, too. -/
theorem pass_of_isGivenUp (config : Config) (h : s.isGivenUp w.now = true) :
    Pass config w s ((s.dropIfGivenUp w).1, (s.dropIfGivenUp w).2.stage) := by
  obtain ⟨call, phase, hs, hdrop⟩ := dropIfGivenUp_of_isGivenUp h
  rw [hdrop w rfl]
  exact .drops hs

/-- The end of an attempt is seen or reported, and nothing else becomes of the world. -/
theorem AttemptEnds.leaves {stage : Stage} {call : Admitted} {later : World}
    {result : Except TransportError Response} (h : AttemptEnds w stage call later result) :
    (∃ phase, stage = .active call phase) ∧ later.now = w.now ∧ later.circuit = w.circuit ∧
      later.slot = w.slot ∧ later.transport = w.transport := by
  cases h <;> exact ⟨⟨_, rfl⟩, rfl, rfl, rfl, rfl⟩

/-- The transport is left alone. -/
structure SameTransport (w later : World) : Prop where
  /-- It has had the same turns. -/
  transport : later.transport = w.transport
  /-- It has seen the same. -/
  sightings : later.sightings = w.sightings

/-- A send whose last attempt has ended is told the result, sorted for it. -/
theorem finished_case (config : Config) (w : World) (call : Admitted)
    (result : Except TransportError Response) : ∃ later elapsed, SameTransport w later ∧
      finished config w call (attemptResult result) =
        (later, .over (.ended (classified result) elapsed)) := by
  obtain ⟨_, -, hc⟩ := conclude_case config
    ((decided config w call (attemptResult result)).absorb (config.breaker.complete w.now
      call.permit (countsAsFailure (attemptResult result)) w.circuit))
    call.request call.started ((attemptResult result).mapError .inner)
  rw [finished, hc, ofGuarded_attemptResult]
  refine ⟨_, _, ?_, rfl⟩
  exact ⟨rfl, rfl⟩

/-- A send that is rejected is told so at once. -/
theorem rejected_case (config : Config) (w : World) (request : Request) :
    ∃ later elapsed, SameTransport w later ∧
      conclude config (w.absorb (asking config w).2) request w.now (.error .rejected) =
        (later, .over (.ended (.error .breakerOpen) elapsed)) := by
  obtain ⟨_, -, hc⟩ := conclude_case config (w.absorb (asking config w).2) request w.now
    (.error .rejected)
  rw [hc]
  refine ⟨_, _, ?_, rfl⟩
  exact ⟨rfl, rfl⟩

/-- What a send can do in its turn, with what its caller is told and without what is counted and reported. -/
inductive Outline (config : Config) (w : World) (s : Send) : World × Stage → Prop
  /-- It begins and is rejected. -/
  | rejected {due : Instant} {later : World} {elapsed : Duration} (waits : s.stage = .waiting due)
      (refuses : (asking config w).1 = none) (same : SameTransport w later) :
      Outline config w s (later, .over (.ended (.error .breakerOpen) elapsed))
  /-- It begins and is admitted, and its first attempt begins. -/
  | admitted {due : Instant} {permit : Breaker.Permit} (waits : s.stage = .waiting due)
      (grants : (asking config w).1 = some permit) :
      Outline config w s (launch (w.absorb (asking config w).2)
        { request :=
            { s.request.withRequestIdIfAbsent w.slot with deadline := w.now.after? config.timeout }
          started := w.now, permit, givenUpAt := s.patience.map w.now.wake, attempt := 0 })
  /-- It calls the transport. -/
  | calls {call : Admitted} {due : Instant} {plan : Plan}
      (readies : s.stage = .active call (.readying due plan)) :
      Outline config w s
        ((w.report (Attempt.prepare call.request).2).see (.call w.now (Attempt.prepare call.request).1),
          .active call (.calling (Attempt.planEnd w.now call.request.deadline plan).1
            (Attempt.planEnd w.now call.request.deadline plan).2))
  /-- An attempt has ended, and the send rests before the next one. -/
  | rests {call : Admitted} {phase : Phase} {later last : World} {result : Except TransportError Response}
      {due : Instant} (active : s.stage = .active call phase)
      (ends : AttemptEnds w s.stage call later result) (same : SameTransport later last) :
      Outline config w s (last, .active call (.resting due))
  /-- An attempt has ended, and so has the send. -/
  | finishes {call : Admitted} {phase : Phase} {later last : World}
      {result : Except TransportError Response} {elapsed : Duration} (active : s.stage = .active call phase)
      (ends : AttemptEnds w s.stage call later result) (same : SameTransport later last) :
      Outline config w s (last, .over (.ended (classified result) elapsed))
  /-- It has rested, and the next attempt begins. -/
  | retries {call : Admitted} {due : Instant} (rested : s.stage = .active call (.resting due)) :
      Outline config w s (launch w { call with attempt := call.attempt + 1 })
  /-- It is dropped. -/
  | drops {call : Admitted} {phase : Phase} (active : s.stage = .active call phase) :
      Outline config w s ({ w with circuit := w.circuit.release call.permit }, .over .cancelled)

/-- What a send does in its turn has one of these outlines. -/
theorem Pass.outline {r : World × Stage} (h : Pass config w s r) : Outline config w s r := by
  cases h with
  | rejected waits refuses =>
    obtain ⟨later, elapsed, hsame, hc⟩ := rejected_case config w
      { s.request.withRequestIdIfAbsent w.slot with deadline := w.now.after? config.timeout }
    rw [hc]
    exact .rejected waits refuses hsame
  | admitted waits grants => exact .admitted waits grants
  | calls readies => exact .calls readies
  | rests ends verdict =>
    obtain ⟨⟨phase, hactive⟩, -⟩ := ends.leaves
    exact .rests hactive ends ⟨rfl, rfl⟩
  | @finishes call later result ends verdict =>
    obtain ⟨⟨phase, hactive⟩, -⟩ := ends.leaves
    obtain ⟨last, elapsed, hsame, hc⟩ := finished_case config later call result
    rw [hc]
    exact .finishes hactive ends hsame
  | retries rested => exact .retries rested
  | drops active => exact .drops active

/-- The transport stays what it is, and an attempt that begins gets its next turn. -/
theorem Pass.launches {r : World × Stage} (h : Pass config w s r) :
    r.1.transport.turn = w.transport.turn ∧
      ∀ call due plan, r.2 = .active call (.readying due plan) →
        plan = (w.transport.turn w.transport.taken).plan ∧ r.1.transport.taken ≠ w.transport.taken := by
  cases h.outline with
  | rejected waits refuses same =>
    exact ⟨congrArg Transport.turn same.transport, fun _ _ _ hs => by cases hs⟩
  | admitted | retries =>
    refine ⟨rfl, fun _ _ _ hs => ?_⟩
    cases hs
    exact ⟨rfl, Nat.succ_ne_self _⟩
  | calls | drops => exact ⟨rfl, fun _ _ _ hs => by cases hs⟩
  | rests active ends same | finishes active ends same =>
    obtain ⟨-, -, -, -, htransport⟩ := ends.leaves
    exact ⟨congrArg Transport.turn (same.transport.trans htransport), fun _ _ _ hs => by cases hs⟩

/-- The transport sees a call of a send that has waited for it, with the request as it is prepared, or no
call. -/
theorem Pass.sights {r : World × Stage} (h : Pass config w s r) : ∃ more,
    r.1.sightings = w.sightings ++ more ∧ (more.filter (·.isCall) = [] ∨
      ∃ call due plan, s.stage = .active call (.readying due plan) ∧
        more = [.call w.now (Attempt.prepare call.request).1]) := by
  have hends {call : Admitted} {later : World} {result : Except TransportError Response}
      (ends : AttemptEnds w s.stage call later result) : ∃ more,
      later.sightings = w.sightings ++ more ∧ more.filter (·.isCall) = [] := by
    generalize s.stage = stage at ends
    cases ends with
    | refused => exact ⟨[.notReady w.now], rfl, rfl⟩
    | answered => exact ⟨[], (List.append_nil _).symm, rfl⟩
  cases h.outline with
  | rejected waits refuses same =>
    exact ⟨[], same.sightings.trans (List.append_nil _).symm, .inl rfl⟩
  | admitted | retries | drops => exact ⟨[], (List.append_nil _).symm, .inl rfl⟩
  | calls readies => exact ⟨_, rfl, .inr ⟨_, _, _, readies, rfl⟩⟩
  | rests active ends same | finishes active ends same =>
    obtain ⟨more, hmore, hnone⟩ := hends ends
    exact ⟨more, same.sightings.trans hmore, .inl hnone⟩

/-- The breaker hears of the result with which the last attempt has ended. -/
theorem AttemptEnds.heard {stage : Stage} {call : Admitted} {later : World}
    {result : Except TransportError Response} (h : AttemptEnds w stage call later result) (name : Nat)
    (told : Except ClientError Response) (elapsed : Duration) :
    stage.heard name (.over (.ended told elapsed)) =
      [.finish name (.returned (attemptResult result))] := by
  cases h <;> rfl

/-- A send that passes from one stage to the next makes the moves that the breaker hears. -/
theorem Pass.stands {name : Nat} {x : Roster} {r : World × Stage} (h : Pass config w s r)
    (hs : Stands config name x w s.stage) :
    Stands config name (follow config x (s.stage.heard name r.2)) r.1 r.2 := by
  obtain ⟨hpermit, hcircuit, -⟩ := Breaker.acquire_spec (b := config.breaker) rfl (depth_ne_zero config)
    w.now w.circuit
  -- By the kinds of step: those that end a send settle its permit, all others leave the roster as it is.
  cases h with
  | rejected waits refuses =>
    obtain ⟨_, -, hc⟩ := conclude_case config (w.absorb (asking config w).2) _ w.now (.error .rejected)
    rw [waits] at hs ⊢
    rw [hc]
    exact hs.ask rfl rfl hcircuit (refuses.symm.trans hpermit)
  | admitted waits grants =>
    rw [waits] at hs ⊢
    exact hs.ask rfl rfl hcircuit (grants.symm.trans hpermit)
  | calls readies ready =>
    rw [readies] at hs ⊢
    rw [Stage.heard_active]
    exact ⟨⟨hs.sound, hs.now, hs.circuit⟩, hs.held⟩
  | rests ends verdict =>
    obtain ⟨⟨phase, hactive⟩, hnow, hsame, -⟩ := ends.leaves
    rw [hactive] at hs ⊢
    rw [Stage.heard_active]
    exact ⟨⟨hs.sound, hs.now.trans hnow.symm, hs.circuit.trans hsame.symm⟩, hs.held⟩
  | @finishes call later result ends verdict =>
    obtain ⟨⟨phase, hactive⟩, hnow, hsame, -⟩ := ends.leaves
    obtain ⟨_, -, hc⟩ := conclude_case config
      ((decided config later call (attemptResult result)).absorb (config.breaker.complete later.now
        call.permit (countsAsFailure (attemptResult result)) later.circuit))
      call.request call.started ((attemptResult result).mapError .inner)
    rw [finished, hc, ends.heard]
    rw [hactive] at hs
    refine hs.finish (.returned (attemptResult result)) hnow (fun a ha => ?_) rfl
    -- The circuit is the one that the call left, which the roster has in step with the breaker.
    have hcomplete := (Breaker.complete_spec (b := config.breaker) rfl (depth_ne_zero config) later.now
      later.circuit call.permit (countsAsFailure (attemptResult result))).1
    rw [hnow, hsame, ← hs.now, ← hs.circuit, ← ha] at hcomplete
    exact (by rw [hnow, hsame, ← hs.now, ← hs.circuit, ← ha]; exact hcomplete)
  | retries rested =>
    rw [rested] at hs ⊢
    exact ⟨⟨hs.sound, hs.now, hs.circuit⟩, hs.held⟩
  | drops active =>
    rw [active] at hs ⊢
    rw [Stage.heard_cancelled]
    exact hs.drop.stands

end

/-- A party has made the calls that the transport has seen while it had its turn. -/
theorem Party.calls_after {p : Party} {before : World} {r : World × Stage} {more : List Sighting}
    (stale : Bool) (h : r.1.sightings = before.sightings ++ more) :
    (p.after before stale r).calls = p.calls ++ more.filterMap (contact? p.turn) := by
  show p.calls ++ (r.1.sightings.drop before.sightings.length).filterMap (contact? p.turn) = _
  rw [h, List.drop_left]

namespace Traffic

variable {config : Config} {t : Traffic}

/-- When a party gets from stage to stage, the others stay where they are. -/
theorem parties_reach {i j : Nat} {p q : Party} {r : World × Stage}
    (hq : (t.reach config i p r).parties[j]? = some q) :
    (j = i ∧ q = p.after t.world (t.stale i) r) ∨ (j ≠ i ∧ t.parties[j]? = some q) := by
  simp only [reach, List.getElem?_set] at hq
  split at hq
  · rename_i hij
    split at hq
    · exact .inl ⟨hij.symm, (Option.some.inj hq).symm⟩
    · cases hq
  · rename_i hij
    exact .inr ⟨Ne.symm hij, hq⟩

/-- When one party gets from stage to stage, a property is lost by it or gained by it, and by no other. -/
theorem number_reach (config : Config) {i : Nat} {p : Party} {r : World × Stage}
    (hp : t.parties[i]? = some p) (property : Party → Bool) :
    (t.reach config i p r).number property + (property p).toNat =
      t.number property + (property (p.after t.world (t.stale i) r)).toNat := by
  obtain ⟨hi, rfl⟩ := List.getElem?_eq_some_iff.mp hp
  have hset : (t.reach config i t.parties[i] r).number property = _ := List.countP_set hi
  have hcounted : (property t.parties[i]).toNat ≤ t.number property := by
    cases hproperty : property t.parties[i] with
    | false => exact Nat.zero_le _
    | true => exact List.countP_pos_iff.mpr ⟨_, List.getElem_mem hi, hproperty⟩
  have hnat (b : Bool) : (if b = true then 1 else 0) = b.toNat := by cases b <;> rfl
  rw [hset, hnat, hnat]
  unfold number at hcounted ⊢
  omega

/-! ## Induction over acts -/

/-- An act does nothing, or it is something that a send does in its turn, a control, or the passing of
time. -/
theorem enact_induction {P : Traffic → Prop} (h : P t)
    (pass : ∀ {i : Nat} {p : Party} {r : World × Stage}, t.parties[i]? = some p →
      Pass config (t.world.inside p.send) p.send r → P (t.reach config i p r)) {a : Act}
    (control : ∀ how, a = .control how → P (t.enact config a))
    (advance : ∀ d, P (t.enact config (.advance d))) : P (t.enact config a) := by
  -- Both acts of a send find it by its number, and do nothing unless it can act.
  have turnOf (i : Nat) (can : Send → Bool) (what : World → Send → World × Stage)
      (hcan : ∀ p, t.parties[i]? = some p → can p.send = true →
        Pass config (t.world.inside p.send) p.send (what (t.world.inside p.send) p.send)) :
      P (t.turnOf config i can what) := by
    unfold Traffic.turnOf
    split
    · exact h
    · rename_i p hp
      split
      · exact pass hp (hcan p hp ‹_›)
      · exact h
  cases a with
  | go i => exact turnOf i _ _ fun p _ hdue => pass_of_isDue config hdue
  | giveUp i =>
    exact turnOf i _ (fun w s => ((s.dropIfGivenUp w).1, (s.dropIfGivenUp w).2.stage))
      fun p _ hgivenUp => pass_of_isGivenUp config hgivenUp
  | control how => exact control how rfl
  | advance d => exact advance d

/-- What holds of some traffic, and is kept by all that a send can do in its turn, by controls and by
time, holds after any acts. -/
theorem play_induction {P : Traffic → Prop} (h : P t)
    (pass : ∀ {t : Traffic} {i : Nat} {p : Party} {r : World × Stage}, P t →
      t.parties[i]? = some p → Pass config (t.world.inside p.send) p.send r → P (t.reach config i p r))
    (control : ∀ {t : Traffic} (how : Control), P t → P (t.enact config (.control how)))
    (advance : ∀ {t : Traffic} (d : Duration), P t → P (t.enact config (.advance d)))
    (acts : List Act) : P (t.play config acts) :=
  List.foldlRecOn acts _ h fun _ ht _ _ => enact_induction ht (fun hp hr => pass ht hp hr)
    (fun how hact => hact ▸ control how ht) (fun d => advance d ht)

/-- Nobody comes or goes. -/
theorem length_play (config : Config) (now : Instant) (transport : Transport) (callers : List Caller)
    (acts : List Act) :
    ((start now transport callers).play config acts).parties.length = callers.length :=
  play_induction (P := fun t => t.parties.length = callers.length) (List.length_map _)
    (fun ht _ _ => List.length_set.trans ht) (fun _ ht => ht) (fun _ ht => ht) acts

/-- Every party stands for the caller of its index. -/
theorem standsFor_play (config : Config) (now : Instant) (transport : Transport) (callers : List Caller)
    (acts : List Act) : ∀ (i : Nat) (c : Caller) (p : Party), callers[i]? = some c →
      ((start now transport callers).play config acts).parties[i]? = some p → p.StandsFor c := by
  refine play_induction (P := fun t => ∀ (i : Nat) (c : Caller) (p : Party), callers[i]? = some c →
    t.parties[i]? = some p → p.StandsFor c) (fun i c p hc hp => ?_)
    (fun {t i p r} ht hp hr j c q hc hq => ?_) (fun _ ht => ht) (fun _ ht => ht) acts
  · rw [start, List.getElem?_map, hc] at hp
    cases hp
    exact ⟨rfl, rfl, rfl, rfl⟩
  · rcases parties_reach hq with ⟨rfl, rfl⟩ | ⟨-, hq⟩
    · obtain ⟨hrequest, hscopes, hpatience, hwants⟩ := ht j c p hc hp
      exact ⟨hrequest, hscopes, hpatience, hwants⟩
    · exact ht j c q hc hq

/-! ## The history of the breaker -/

/-- The roster shows what the breaker does, and every send has its call there under its index. -/
structure Sound (config : Config) (t : Traffic) : Prop extends Mirrors config t.roster t.world where
  /-- The permits of the sends. -/
  held : ∀ i p, t.parties[i]? = some p → (t.roster.calls i).map (·.permit) = p.send.stage.permit?

/-- At the start the roster shows a new breaker, which has no calls. -/
theorem sound_start (config : Config) (now : Instant) (transport : Transport) (callers : List Caller) :
    (start now transport callers).Sound config := by
  refine ⟨⟨Roster.sound_fresh _ _, rfl, rfl⟩, fun i p hp => ?_⟩
  obtain ⟨c, -, rfl⟩ := List.mem_map.mp (List.mem_of_getElem? hp)
  rfl

/-- The roster stands for every send by itself. -/
theorem Sound.stands (h : t.Sound config) {i : Nat} {p : Party} (hp : t.parties[i]? = some p) :
    Stands config i t.roster (t.world.inside p.send) p.send.stage :=
  ⟨⟨h.sound, h.now, h.circuit⟩, h.held i p hp⟩

/-- The turn of a send keeps the roster in step with the breaker. -/
theorem Sound.reach (h : t.Sound config) {i : Nat} {p : Party} {r : World × Stage}
    (hp : t.parties[i]? = some p) (hr : Pass config (t.world.inside p.send) p.send r) :
    (t.reach config i p r).Sound config := by
  have hstands := hr.stands (h.stands hp)
  refine ⟨⟨hstands.sound, hstands.now, hstands.circuit⟩, fun j q hq => ?_⟩
  rcases parties_reach hq with ⟨rfl, rfl⟩ | ⟨hij, hq⟩
  · exact hstands.held
  · -- The moves of a send leave the calls of the others alone.
    have hothers : ∀ m ∈ p.send.stage.heard i r.2, m.name? ≠ some j := fun m hm hname =>
      hij (Option.some.inj (hname.symm.trans (Stage.own_heard _ _ _ m hm)))
    show ((follow config t.roster _).calls j).map _ = _
    rw [follow, Roster.calls_play_of_ne hothers]
    exact h.held j q hq

/-- Without listeners, a control takes the step of the circuit. -/
theorem circuit_control (config : Config) (w : World) (how : Control) :
    (w.control config how).circuit = (w.circuit.control w.now how).1 := by
  unfold World.control World.absorb Breaker.control
  rw [Breaker.update_of_reactors_eq_nil rfl (depth_ne_zero config)]
  rfl

/-- A control is the same step of the roster and of the breaker. -/
theorem Sound.control (h : t.Sound config) (how : Control) :
    (t.enact config (.control how)).Sound config := by
  refine ⟨⟨h.sound.play countsAsFailure _, h.now, ?_⟩, h.held⟩
  show (t.roster.run.circuit.control t.roster.run.now how).1 = (t.world.control config how).circuit
  rw [circuit_control, h.now, h.circuit]

/-- Time passes in the roster as it does in the world. -/
theorem Sound.advance (h : t.Sound config) (d : Duration) : (t.enact config (.advance d)).Sound config :=
  ⟨h.toMirrors.advance d, h.held⟩

/-! ## The turns of the transport -/

/-- Every attempt has the plan of the turn that it has got. -/
structure Planned (turn : Nat → Turn) (t : Traffic) : Prop where
  /-- The transport has these turns. -/
  transport : t.world.transport.turn = turn
  /-- An attempt that waits for the transport will meet its plan. -/
  plan : ∀ (i : Nat) (p : Party) (call : Admitted) (due : Instant) (plan : Plan),
    t.parties[i]? = some p → p.send.stage = .active call (.readying due plan) →
      plan = (turn p.turn).plan

variable {turn : Nat → Turn}

/-- At the start no attempt waits for the transport. -/
theorem planned_start (now : Instant) (transport : Transport) (callers : List Caller) :
    (start now transport callers).Planned transport.turn := by
  refine ⟨rfl, fun i p call due plan hp hs => ?_⟩
  obtain ⟨c, -, rfl⟩ := List.mem_map.mp (List.mem_of_getElem? hp)
  cases hs

/-- The turn of a send keeps the plans of all attempts those of their turns. -/
theorem Planned.reach (h : t.Planned turn) {i : Nat} {p : Party} {r : World × Stage}
    (hr : Pass config (t.world.inside p.send) p.send r) : (t.reach config i p r).Planned turn := by
  obtain ⟨htransport, hplan⟩ := hr.launches
  refine ⟨htransport.trans h.transport, fun j q call due plan hq hs => ?_⟩
  rcases parties_reach hq with ⟨-, rfl⟩ | ⟨-, hq⟩
  · obtain ⟨hplan, htaken⟩ := hplan call due plan hs
    have hturn : (p.after t.world (t.stale i) r).turn = t.world.transport.taken := if_neg htaken
    rw [hturn, hplan, ← h.transport]
    rfl
  · exact h.plan j q call due plan hq hs

/-- In the induction over acts, attempts can be taken to have the plans of the turns that they have got. -/
theorem planned_induction {P : Traffic → Prop} {now : Instant} {transport : Transport}
    {callers : List Caller} (h : P (start now transport callers))
    (pass : ∀ {t : Traffic} {i : Nat} {p : Party} {r : World × Stage}, t.Planned transport.turn → P t →
      t.parties[i]? = some p → Pass config (t.world.inside p.send) p.send r → P (t.reach config i p r))
    (control : ∀ {t : Traffic} (how : Control), P t → P (t.enact config (.control how)))
    (advance : ∀ {t : Traffic} (d : Duration), P t → P (t.enact config (.advance d)))
    (acts : List Act) : P ((start now transport callers).play config acts) := by
  refine (play_induction (P := fun t => t.Planned transport.turn ∧ P t)
    ⟨planned_start now transport callers, h⟩ (fun ht hp hr => ⟨ht.1.reach hr, pass ht.1 ht.2 hp hr⟩)
    (fun how ht => ⟨?_, control how ht.2⟩) (fun d ht => ⟨?_, advance d ht.2⟩) acts).2
  · exact ⟨ht.1.transport, ht.1.plan⟩
  · exact ⟨ht.1.transport, ht.1.plan⟩

/-- A transport that is always ready answers every attempt that comes to an end. -/
theorem Planned.answered (h : t.Planned turn) (hready : ∀ k e, (turn k).plan ≠ .refuse e) {i : Nat}
    {p : Party} (hp : t.parties[i]? = some p) {w later : World} {call : Admitted}
    {result : Except TransportError Response} (hends : AttemptEnds w p.send.stage call later result) :
    (∃ ends, p.send.stage = .active call (.calling ends result)) ∧
      later = w.report (Attempt.reports call.request.url result) := by
  cases hs : p.send.stage with
  | waiting due => rw [hs] at hends; cases hends
  | «over» => rw [hs] at hends; cases hends
  | active other phase =>
    rw [hs] at hends
    cases hends with
    | refused => exact absurd (h.plan i p call _ _ hp hs).symm (hready _ _)
    | answered => exact ⟨⟨_, rfl⟩, rfl⟩

/-! ## The runs of a fleet are acts -/

/-- Some acts lead to a world with a fleet. -/
def Leads (config : Config) (t : Traffic) (w : World) (fleet : Fleet) : Prop :=
  ∃ acts, (t.play config acts).world = w ∧ (t.play config acts).fleet = fleet

variable {w later : World} {fleet last : Fleet} {s : Send}

/-- No act leads to where the traffic is. -/
theorem Leads.refl (config : Config) (t : Traffic) : t.Leads config t.world t.fleet := ⟨[], rfl, rfl⟩

/-- Acts can follow acts. -/
theorem Leads.trans (h : t.Leads config w fleet)
    (hrest : ∀ u : Traffic, u.world = w → u.fleet = fleet → u.Leads config later last) :
    t.Leads config later last := by
  obtain ⟨acts, hw, hfleet⟩ := h
  obtain ⟨more, hlater, hlast⟩ := hrest _ hw hfleet
  have happend : t.play config (acts ++ more) = (t.play config acts).play config more :=
    List.foldl_append
  exact ⟨acts ++ more, happend ▸ hlater, happend ▸ hlast⟩

/-- A send does something in its turn, and that is one act. -/
theorem leads_turnOf (config : Config) {i : Nat} {can : Send → Bool}
    {what : World → Send → World × Stage} {a : Act}
    (ha : t.enact config a = t.turnOf config i can what) (hs : t.fleet[i]? = some s)
    (hcan : can s = true) :
    t.Leads config { (what (t.world.inside s) s).1 with slot := t.world.slot }
      (t.fleet.set i { s with stage := (what (t.world.inside s) s).2 }) := by
  obtain ⟨p, hp, rfl⟩ : ∃ p, t.parties[i]? = some p ∧ p.send = s := by
    rwa [fleet, List.getElem?_map, Option.map_eq_some_iff] at hs
  have hturn : t.enact config a = t.reach config i p (what (t.world.inside p.send) p.send) := by
    rw [ha, turnOf, hp]
    exact if_pos hcan
  refine ⟨[a], congrArg Traffic.world hturn, (congrArg Traffic.fleet hturn).trans ?_⟩
  exact List.map_set

/-- A send that runs as far as it gets does one act after another. -/
theorem leads_run (config : Config) (stages : Nat) {i : Nat} (hs : t.fleet[i]? = some s) :
    t.Leads config { (s.run config stages (t.world.inside s)).1 with slot := t.world.slot }
      (t.fleet.set i (s.run config stages (t.world.inside s)).2) := by
  have hstays (u : Traffic) (s : Send) (hs : u.fleet[i]? = some s) :
      u.Leads config u.world (u.fleet.set i s) := by
    have hi := (List.getElem?_eq_some_iff.mp hs).2
    rw [← hi, List.set_getElem_self]
    exact .refl config u
  -- By induction on the stages. Between two of them the send leaves its scopes and enters them again.
  induction stages generalizing t s with
  | zero => exact hstays t s hs
  | succ stages ih =>
    unfold Send.run
    split
    · rename_i hdue
      have hstep := leads_turnOf config (a := .go i) rfl hs hdue
      refine hstep.trans fun u hw hfleet => ?_
      have hlen := (List.getElem?_eq_some_iff.mp hs).1
      have hagain : u.fleet[i]? = some { s with stage := (s.step config (t.world.inside s)).2 } := by
        rw [hfleet, List.getElem?_set_self hlen]
      have hinside : u.world.inside { s with stage := (s.step config (t.world.inside s)).2 } =
          (s.step config (t.world.inside s)).1 := by
        have hslot := (@frame_step config (t.world.inside s) s).slot
        rw [hw]
        exact congrArg (fun slot => { (s.step config (t.world.inside s)).1 with slot }) hslot.symm
      have hrest := ih hagain
      rw [hinside, hfleet, List.set_set, hw] at hrest
      exact hrest
    · exact hstays t s hs

/-- A send that is polled does a number of acts. -/
theorem leads_poll (config : Config) {i : Nat} (hs : t.fleet[i]? = some s) :
    t.Leads config (s.poll config t.world).1 (t.fleet.set i (s.poll config t.world).2) := by
  have hrun := leads_run config (Send.stageLimit config) hs
  rcases hr : s.run config (Send.stageLimit config) (t.world.inside s) with ⟨ran, u⟩
  have hpoll : s.poll config t.world =
      ({ (u.dropIfGivenUp ran).1 with slot := t.world.slot }, (u.dropIfGivenUp ran).2) := by
    have hinner : s.run config (Send.stageLimit config)
        { t.world with slot := Correlation.enterAll s.scopes t.world.slot } = (ran, u) := hr
    simp only [Send.poll, hinner]
  rw [hr] at hrun
  rw [hpoll]
  cases hgivenUp : u.isGivenUp ran.now with
  | false =>
    rw [dropIfGivenUp_of_not hgivenUp]
    exact hrun
  | true =>
    -- The send that has run is dropped by one more act.
    obtain ⟨call, phase, -, hdrop⟩ := dropIfGivenUp_of_isGivenUp hgivenUp
    refine hrun.trans fun v hw hfleet => ?_
    have hu : v.fleet[i]? = some u := by
      rw [hfleet, List.getElem?_set_self (List.getElem?_eq_some_iff.mp hs).1]
    have hnow : v.world.now = ran.now := by rw [hw]
    have hturn : v.enact config (.giveUp i) = v.turnOf config i (·.isGivenUp v.world.now) fun w s =>
        ((s.dropIfGivenUp w).1, (s.dropIfGivenUp w).2.stage) := rfl
    have hact := leads_turnOf config hturn hu (hnow ▸ hgivenUp)
    rw [hdrop (v.world.inside u) hnow, World.inside, hfleet, List.set_set, hw] at hact
    rw [hdrop ran rfl]
    exact hact

/-- Sends that are polled in order do a number of acts. -/
theorem leads_fleet (config : Config) (rest : Fleet) (before : Fleet) (hfleet : t.fleet = before ++ rest) :
    t.Leads config (rest.poll config t.world).1 (before ++ (rest.poll config t.world).2) := by
  -- By induction on the sends that have not had their turn.
  induction rest generalizing t before with
  | nil => exact hfleet ▸ .refl config t
  | cons s rest ih =>
    have hs : t.fleet[before.length]? = some s := by
      rw [hfleet, List.getElem?_append_right (Nat.le_refl _), Nat.sub_self]
      rfl
    refine (leads_poll config hs).trans fun u hw hset => ?_
    have hnext : u.fleet = before ++ [(s.poll config t.world).2] ++ rest := by
      rw [hset, hfleet, List.set_append_right _ _ (Nat.le_refl _), Nat.sub_self,
        List.append_assoc]
      rfl
    have hrest := ih (before ++ [(s.poll config t.world).2]) hnext
    rw [hw, List.append_assoc] at hrest
    exact hrest

/-- Time passes until a moment. -/
theorem leads_until (config : Config) (t : Traffic) (moment : Instant) :
    t.Leads config (t.world.until moment) t.fleet := by
  have hticks (n : Nat) : t.Leads config { t.world with now := ⟨t.world.now.nanos + n⟩ } t.fleet := by
    induction n with
    | zero => exact .refl config t
    | succ n ih =>
      refine ih.trans fun u hw hfleet => ⟨[.advance tick], ?_, hfleet⟩
      show u.world.advance tick = _
      rw [hw]
      rfl
  have hle : t.world.now.nanos ≤ (max t.world.now moment).nanos := by
    rw [Instant.nanos_max]
    exact Nat.le_max_left ..
  have hwaited := hticks ((max t.world.now moment).nanos - t.world.now.nanos)
  rwa [Nat.add_sub_cancel' hle] at hwaited

/-- Sends that share a client take turns, each as far as it gets, with the clock jumping in between: that
is one of the interleavings. -/
theorem exists_acts_run (config : Config) (t : Traffic) (jumps : Nat) : ∃ acts,
    ((t.play config acts).world, (t.play config acts).fleet) = t.fleet.run config jumps t.world := by
  have hleads : t.Leads config (t.fleet.run config jumps t.world).1
      (t.fleet.run config jumps t.world).2 := by
    induction jumps generalizing t with
    | zero => exact .refl config t
    | succ jumps ih =>
      -- All are polled once, and then the clock goes to the next moment at which one of them can act.
      have hpoll := leads_fleet config t.fleet [] rfl
      unfold Fleet.run
      dsimp only
      split
      · exact hpoll
      · rename_i moment _
        refine (hpoll.trans fun u hw hfleet => hw ▸ hfleet ▸ leads_until config u moment).trans
          fun v hw hfleet => ?_
        have hrest := ih v
        rw [hw, hfleet] at hrest
        exact hrest
  obtain ⟨acts, hw, hfleet⟩ := hleads
  exact ⟨acts, by rw [hw, hfleet]⟩

end Traffic

end Client

end GuardedHttp
