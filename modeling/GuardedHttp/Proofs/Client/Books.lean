import GuardedHttp.Proofs.Breaker.Accounts
import GuardedHttp.Proofs.Client.Lockstep
import GuardedHttp.Proofs.Client.Traffic

/-!
# The books of a client

Client, retry policy and breaker count on their own, each at the moment that concerns it. `Books` are
the counts that belong together, read off what has been reported, and `Stage.entry` is what a send adds
to them when it gets from one stage to the next. Every way in which a send can pass adds just this
(`Pass.books`), and it agrees with what becomes of the send (`Pass.entered`, `Pass.recorded`).
-/

namespace GuardedHttp

/-- How often a metric was counted, in all of its series that have the given labels. -/
def totalOf (name : String) (labels : List (String × String)) (emitted : List Emission) : Nat :=
  emitted.countP fun
    | .sample (.count s) => s.name = name && labels.all (s.labels.contains ·)
    | _ => false

namespace Client

open Breaker (Roster Run)
open Breaker.Circuit (Control)

/-! ## The books of a client -/

/-- The counts of the layers of a client that belong together. -/
@[ext] structure Books where
  /-- The requests that the client has counted. -/
  requests : Nat := 0
  /-- The calls that the breaker has rejected. -/
  rejected : Nat := 0
  /-- The calls whose success or failure the breaker has counted. -/
  recorded : Nat := 0
  /-- The calls that the retry policy has seen the end of. -/
  calls : Nat := 0
  /-- The retries that the policy has decided on. -/
  retries : Nat := 0

namespace Books

instance : Add Books where
  add a b :=
    ⟨a.requests + b.requests, a.rejected + b.rejected, a.recorded + b.recorded, a.calls + b.calls,
      a.retries + b.retries⟩

/-- What emissions add to the books. -/
def of (emitted : List Emission) : Books where
  requests := totalOf "http_client_requests_total" [] emitted
  rejected := totalOf "circuitbreaker_calls_total" [("outcome", "rejected")] emitted
  recorded :=
    totalOf "circuitbreaker_calls_total" [("outcome", "success")] emitted +
      totalOf "circuitbreaker_calls_total" [("outcome", "failure")] emitted
  calls := totalOf "retry_calls_total" [] emitted
  retries := totalOf "retry_attempts_total" [] emitted

variable {a b : Books}

/-- Requests add up. -/
@[simp] theorem requests_add : (a + b).requests = a.requests + b.requests := rfl

/-- Rejections add up. -/
@[simp] theorem rejected_add : (a + b).rejected = a.rejected + b.rejected := rfl

/-- Recorded outcomes add up. -/
@[simp] theorem recorded_add : (a + b).recorded = a.recorded + b.recorded := rfl

/-- Calls add up. -/
@[simp] theorem calls_add : (a + b).calls = a.calls + b.calls := rfl

/-- Retries add up. -/
@[simp] theorem retries_add : (a + b).retries = a.retries + b.retries := rfl

/-- The books of emissions are the sum of those of their parts. -/
theorem of_append (before more : List Emission) : of (before ++ more) = of before + of more := by
  have htotal (name : String) (labels : List (String × String)) :
      totalOf name labels (before ++ more) = totalOf name labels before + totalOf name labels more :=
    List.countP_append
  ext
  · exact htotal ..
  · exact htotal ..
  · exact (congrArg₂ (· + ·) (htotal ..) (htotal ..)).trans (Nat.add_add_add_comm ..)
  · exact htotal ..
  · exact htotal ..

/-- Empty books add nothing. -/
theorem add_empty : a + {} = a := rfl

/-- Lines of the log are not counted. -/
theorem of_isLog {emitted : List Emission} (h : IsLog emitted) : of emitted = {} := by
  have hzero (name : String) (labels : List (String × String)) : totalOf name labels emitted = 0 := by
    refine List.countP_eq_zero.mpr fun e he => ?_
    obtain ⟨l, rfl⟩ := h e he
    simp
  ext <;> simp [of, hzero]

/-- An event is entered as the one outcome that it counts, if it counts one. -/
theorem of_event (name : String) (e : Breaker.Event) : of (e.emissions name) =
    { rejected := e.counted.toList.count "rejected"
      recorded := e.counted.toList.count "success" + e.counted.toList.count "failure" } := by
  cases e <;> rfl

/-- The breaker counts the calls that its events tell of. -/
theorem of_events (name : String) (events : List Breaker.Event) :
    of (events.flatMap (Breaker.Event.emissions name)) =
      { rejected := (events.filterMap Breaker.Event.counted).count "rejected"
        recorded := (events.filterMap Breaker.Event.counted).count "success" +
          (events.filterMap Breaker.Event.counted).count "failure" } := by
  induction events with
  | nil => rfl
  | cons e rest ih =>
    have hsplit : (e :: rest).filterMap Breaker.Event.counted =
        e.counted.toList ++ rest.filterMap Breaker.Event.counted := by
      rw [List.filterMap_cons]
      cases e.counted <;> rfl
    rw [List.flatMap_cons, of_append, ih, of_event, hsplit]
    simp only [List.count_append]
    ext
    · rfl
    · rfl
    · exact Nat.add_add_add_comm ..
    · rfl
    · rfl

/-- The retry policy counts what it has decided. -/
theorem of_verdict (name : String) (k : Nat) (v : Retry.Verdict) :
    of (v.emissions name k) = match v with
      | .retry _ => { retries := 1 }
      | _ => { calls := 1 } := by
  cases v <;> rfl

end Books

/-! ## What a send adds to the books -/

/-- What a send adds to the books when it gets from one stage to another; its permit is current or not. -/
def Stage.entry (current : Bool) : Stage → Stage → Books
  | .waiting _, .over _ => { requests := 1, rejected := 1 }
  | .active .., .active _ (.resting _) => { retries := 1 }
  | .active .., .over (.ended ..) => { requests := 1, calls := 1, recorded := current.toNat }
  | _, _ => {}

/-- The permit of a send is of the generation of the circuit. -/
def current (w : World) (s : Send) : Bool :=
  s.stage.permit?.any (·.generation = w.circuit.generation)

section

variable {config : Config} {w : World} {s : Send}

/-- The client counts a call that is over, and nothing else. -/
theorem books_conclude (config : Config) (w : World) (request : Request) (started : Instant)
    (result : Except (GuardedError AttemptError) Response) :
    ∃ emitted, Books.of emitted = { requests := 1 } ∧
      conclude config w request started result =
        (w.report emitted,
          .over (.ended (result.mapError ClientError.ofGuarded) (w.now.since started))) := by
  cases result <;> exact ⟨_, rfl, rfl⟩

/-- The breaker counts a call that it rejects. -/
theorem books_asking (config : Config) (w : World) : Books.of (asking config w).2.emitted =
    { rejected := if (asking config w).1 = none then 1 else 0 } := by
  have hlog (message : String) (fields : List (String × String)) :
      Books.of [.log .trace message fields] = {} := Books.of_isLog (by simp [IsLog, Emission.log])
  unfold asking Breaker.acquire
  dsimp only
  rw [Breaker.update_of_reactors_eq_nil rfl (depth_ne_zero config), Books.of_append, hlog,
    Books.add_empty]
  refine (Books.of_events config.name _).trans ?_
  rcases Breaker.told_acquire config.breaker.settings w.now w.circuit with
    ⟨hp, -, hcounted, -⟩ | ⟨hp, -, hcounted, -⟩
  · have hgrants := Option.isSome_iff_ne_none.mp hp
    rw [hcounted, if_neg hgrants]
    rfl
  · rw [hcounted, if_pos hp]
    rfl

/-- The breaker counts the end of a call if its permit is current. -/
theorem books_complete (config : Config) (now : Instant) (c : Breaker.Circuit) (p : Breaker.Permit)
    (failed : Bool) : Books.of (config.breaker.complete now p failed c).emitted =
      { recorded := (decide (p.generation = c.generation)).toNat } := by
  have hcounted := Breaker.counted_complete config.breaker.settings now p failed c
  unfold Breaker.complete
  rw [Breaker.update_of_reactors_eq_nil rfl (depth_ne_zero config)]
  refine (Books.of_events config.name _).trans ?_
  rw [hcounted]
  by_cases hp : p.generation = c.generation
  · cases failed <;> simp [hp]
  · simp [hp]

/-- Controls by hand are no calls. -/
theorem books_control (config : Config) (w : World) (how : Control) :
    Books.of (w.control config how).emitted = Books.of w.emitted := by
  have hnone : (w.circuit.control w.now how).2.filterMap Breaker.Event.counted = [] := by
    cases w.circuit.control_case w.now how with
    | opens _ _ e | staysOpen _ _ e | closes _ _ e | staysClosed _ _ e | resets _ _ e | renews _ _ e =>
      rw [e]
      rfl
  have hevents := Books.of_events config.name (w.circuit.control w.now how).2
  rw [hnone] at hevents
  unfold World.control World.absorb Breaker.control
  rw [Breaker.update_of_reactors_eq_nil rfl (depth_ne_zero config), Books.of_append]
  exact congrArg (Books.of w.emitted + ·) hevents

/-- The end of an attempt itself is not counted. -/
theorem AttemptEnds.books {stage : Stage} {call : Admitted} {later : World}
    {result : Except TransportError Response} (h : AttemptEnds w stage call later result) :
    Books.of later.emitted = Books.of w.emitted := by
  cases h with
  | refused => rfl
  | @answered call ends result =>
    show Books.of (w.emitted ++ Attempt.reports call.request.url result) = _
    rw [Books.of_append, Books.of_isLog (isLog_reports _ _), Books.add_empty]

/-- A send that passes from one stage to the next adds its entry to the books. -/
theorem Pass.books {r : World × Stage} (h : Pass config w s r) :
    Books.of r.1.emitted = Books.of w.emitted + s.stage.entry (current w s) r.2 := by
  cases h with
  | rejected waits refuses =>
    obtain ⟨emitted, hemitted, hc⟩ := books_conclude config (w.absorb (asking config w).2)
      { s.request.withRequestIdIfAbsent w.slot with deadline := w.now.after? config.timeout } w.now
      (.error .rejected)
    rw [hc, waits]
    -- The rejection is in the events of the breaker, and the request in what is reported of the end.
    calc Books.of (w.emitted ++ (asking config w).2.emitted ++ emitted)
        = Books.of w.emitted + Books.of (asking config w).2.emitted + Books.of emitted := by
          rw [Books.of_append, Books.of_append]
      _ = _ := by
          rw [books_asking, hemitted, if_pos refuses]
          ext <;> simp [Stage.entry]
  | admitted waits grants =>
    have hgrants : (asking config w).1 ≠ none := by simp [grants]
    rw [waits]
    show Books.of (w.emitted ++ (asking config w).2.emitted) = _
    rw [Books.of_append, books_asking, if_neg hgrants]
    rfl
  | calls readies ready =>
    rw [readies]
    show Books.of (w.emitted ++ _) = _
    rw [Books.of_append, Books.of_isLog (isLog_prepare _)]
    rfl
  | @rests call later result delay ends verdict =>
    obtain ⟨⟨phase, hactive⟩, -⟩ := ends.leaves
    rw [hactive]
    -- The retry is in the decision of the policy.
    show Books.of (later.emitted ++ (verdictOf config later call (attemptResult result)).emissions _ _) = _
    rw [Books.of_append, ends.books, verdict, Books.of_verdict]
    rfl
  | @finishes call later result ends verdict =>
    obtain ⟨⟨phase, hactive⟩, -, hcircuit, -⟩ := ends.leaves
    obtain ⟨emitted, hemitted, hc⟩ := books_conclude config
      ((decided config later call (attemptResult result)).absorb (config.breaker.complete later.now
        call.permit (countsAsFailure (attemptResult result)) later.circuit))
      call.request call.started ((attemptResult result).mapError .inner)
    -- The call is in the decision, which is not to try again; the outcome, if it is counted, in the
    -- events of the breaker; the request in what is reported of the end.
    have hverdict : Books.of ((verdictOf config later call (attemptResult result)).emissions config.name
        call.attempt) = { calls := 1 } := by
      rw [Books.of_verdict]
      split
      · exact absurd ‹_› (verdict _)
      · rfl
    have hcurrent : current w s = decide (call.permit.generation = later.circuit.generation) := by
      rw [current, hactive, hcircuit]
      rfl
    rw [finished, hc, hactive, hcurrent]
    calc Books.of (later.emitted ++ (verdictOf config later call (attemptResult result)).emissions
            config.name call.attempt ++ (config.breaker.complete later.now call.permit
              (countsAsFailure (attemptResult result)) later.circuit).emitted ++ emitted)
        = Books.of w.emitted + { calls := 1 } +
            { recorded := (decide (call.permit.generation = later.circuit.generation)).toNat } +
            { requests := 1 } := by
          rw [Books.of_append, Books.of_append, Books.of_append, ends.books, hverdict, books_complete,
            hemitted]
      _ = _ := by ext <;> simp [Stage.entry]
  | retries rested =>
    rw [rested]
    rfl
  | drops active =>
    rw [active]
    rfl

end

/-! ## What becomes of a send -/

/-- The send was told that the breaker is open. -/
def Stage.turnedAway : Stage → Bool
  | .over (.ended (.error e) _) => e.isBreakerOpen
  | _ => false

/-- The send has called the transport and waits for the answer. -/
def Stage.awaits : Stage → Bool
  | .active _ (.calling ..) => true
  | _ => false

/-- A send that has come to an end of its own is over. -/
theorem Stage.over_of_ended {stage : Stage} (h : stage.ended = true) :
    stage.begun = true ∧ stage.givenUp = false ∧ stage.awaits = false := by
  rcases stage with _ | ⟨_, _⟩ | ⟨_ | _⟩ <;> first | exact ⟨rfl, rfl, rfl⟩ | cases h

/-- No attempt ends as a rejection. -/
theorem turnedAway_classified (result : Except TransportError Response) (elapsed : Duration) :
    (Stage.over (.ended (classified result) elapsed)).turnedAway = false := by
  rcases result with (_ | _ | _) | response
  · rfl
  · rfl
  · rfl
  · by_cases h : 400 ≤ response.status.code ∧ response.status.code < 600
    · rw [classified, if_pos h]
      rfl
    · rw [classified, if_neg h]
      rfl

section

variable {config : Config} {w : World} {s : Send}

/-- An attempt that the transport has refused has been seen, and one that it has answered is awaited no
longer. -/
theorem AttemptEnds.attempts {stage : Stage} {call : Admitted} {later : World}
    {result : Except TransportError Response} (h : AttemptEnds w stage call later result) :
    later.sightings.length + stage.awaits.toNat = w.sightings.length + 1 := by
  cases h with
  | refused => simp [World.see, Stage.awaits]
  | answered => rfl

/-- What a send adds to the books is what becomes of it. -/
structure Entered (w : World) (before : Stage) (entry : Books) (r : World × Stage) : Prop where
  /-- A request is one that has come to an end. -/
  requests : entry.requests + before.ended.toNat = r.2.ended.toNat
  /-- A rejection is one that is told to the caller. -/
  rejected : entry.rejected + before.turnedAway.toNat = r.2.turnedAway.toNat
  /-- A call is one that has come to an end without being rejected. -/
  calls : entry.calls + (before.ended && !before.turnedAway).toNat =
    (r.2.ended && !r.2.turnedAway).toNat
  /-- The breaker hears of a call when it ends. -/
  recorded : entry.recorded ≤ entry.calls
  /-- The retry policy hears of every attempt that is not awaited any longer, unless it is dropped. -/
  attempts : r.2.givenUp = false → r.1.sightings.length + before.awaits.toNat =
    w.sightings.length + entry.calls + entry.retries + r.2.awaits.toNat

/-- All that a send can do in its turn is entered as what becomes of it. -/
theorem Pass.entered {r : World × Stage} (h : Pass config w s r) :
    Entered w s.stage (s.stage.entry (current w s) r.2) r := by
  cases h.outline with
  | rejected waits refuses same =>
    rw [waits]
    exact ⟨rfl, rfl, rfl, Nat.le_refl _, fun _ => congrArg List.length same.sightings⟩
  | admitted waits grants =>
    rw [waits]
    exact ⟨rfl, rfl, rfl, Nat.le_refl _, fun _ => rfl⟩
  | calls readies =>
    rw [readies]
    exact ⟨rfl, rfl, rfl, Nat.le_refl _, fun _ => List.length_append⟩
  | rests active ends same =>
    have hattempts := ends.attempts
    rw [active] at hattempts ⊢
    exact ⟨rfl, rfl, rfl, Nat.le_refl _, fun _ => (congrArg (·.length + _) same.sightings).trans hattempts⟩
  | finishes active ends same =>
    have hattempts := ends.attempts
    rw [active] at hattempts ⊢
    refine ⟨rfl, ?_, ?_, Bool.toNat_le _, fun _ => ?_⟩
    · rw [turnedAway_classified]
      rfl
    · rw [turnedAway_classified]
      rfl
    · exact (congrArg (·.length + _) same.sightings).trans hattempts
  | retries rested =>
    rw [rested]
    exact ⟨rfl, rfl, rfl, Nat.le_refl _, fun _ => rfl⟩
  | drops active =>
    rw [active]
    exact ⟨rfl, rfl, rfl, Nat.le_refl _, fun h => by cases h⟩

/-- A send is recorded by the breaker if it is admitted and its permit is current when it ends. -/
theorem Pass.recorded {r : World × Stage} {stale : Bool} (h : Pass config w s r)
    (hwaits : s.stage.permit? = none → stale = false)
    (hactive : s.stage.permit?.isSome = true → current w s = !stale) :
    (s.stage.entry (current w s) r.2).recorded + (r.2.ended && stale).toNat =
      (r.2.ended && !r.2.turnedAway).toNat := by
  cases h.outline with
  | rejected waits refuses =>
    rw [waits] at hwaits ⊢
    rw [hwaits rfl]
    rfl
  | admitted waits grants => rw [waits]; rfl
  | calls hstage | rests hstage | retries hstage | drops hstage => rw [hstage]; rfl
  | finishes active ends =>
    have hcurrent := hactive (by rw [active]; rfl)
    rw [turnedAway_classified, hcurrent, active]
    cases stale <;> rfl

/-- A send that passes is not over, and has begun afterwards. -/
theorem Pass.begins {r : World × Stage} (h : Pass config w s r) :
    s.stage.ended = false ∧ s.stage.givenUp = false ∧ s.stage.turnedAway = false ∧
      r.2.begun = true ∧ (s.stage.begun || r.2.permit?.isSome) = !r.2.turnedAway := by
  cases h.outline with
  | rejected hstage | admitted hstage | calls hstage | rests hstage | retries hstage | drops hstage =>
    rw [hstage]
    exact ⟨rfl, rfl, rfl, rfl, rfl⟩
  | finishes active =>
    rw [turnedAway_classified, active]
    exact ⟨rfl, rfl, rfl, rfl, rfl⟩

/-- A send that holds no permit before and afterwards has been rejected. -/
theorem Pass.rejected_of_idle {r : World × Stage} (h : Pass config w s r)
    (hnot : s.stage.permit?.isSome = false) (hnow : r.2.permit?.isSome = false) :
    (asking config w).1 = none ∧ ∀ name, s.stage.heard name r.2 = [.ask name] := by
  cases h.outline with
  | rejected waits refuses =>
    rw [waits]
    exact ⟨refuses, fun _ => rfl⟩
  | admitted => cases hnow
  | calls hstage | rests hstage | finishes hstage | retries hstage | drops hstage =>
    rw [hstage] at hnot
    cases hnot

end

end Client

end GuardedHttp
