import GuardedHttp.Proofs.Breaker.SideBySide
import GuardedHttp.Proofs.Client.Course

/-!
# Sends as callers of the breaker

To the breaker a send is a caller like any other: it asks when it begins, and the breaker hears of it
again when it ends or is given up. Whatever it does in between, waiting for the transport, calling it, or
resting between two attempts, leaves the circuit alone.

A roster `Mirrors` a world if it shows its time and its circuit, and `Stands` for it with a send in it if
the name of the send has its call. What becomes of the send is then a list of moves (`Passes`), of which
those of its name are what the breaker hears of it. A poll of the send has no moves of other names
(`Stands.poll`). In a fleet the moves of all sends are mixed with the time that passes, and each send
passes from its stage to a later one as if it were alone (`Fleet.Stands.run`).
-/

namespace GuardedHttp.Client

open Breaker (Move Outcome Permit Roster Run)

/-- What a caller of a client's breaker does. -/
abbrev SendMove := Move Response AttemptError

namespace Stage

/-- The permit that a send holds. -/
def permit? : Stage → Option Permit
  | .active call _ => some call.permit
  | .waiting _ | .over _ => none

/-- The send has begun. -/
def begun : Stage → Bool
  | .waiting _ => false
  | .active .. | .over _ => true

/-- The send has come to an end of its own. -/
def ended : Stage → Bool
  | .over (.ended ..) => true
  | .waiting _ | .active .. | .over .cancelled => false

/-- The send has been given up. -/
def givenUp : Stage → Bool
  | .over .cancelled => true
  | .waiting _ | .active .. | .over (.ended ..) => false

/-- How many moves a send has left: it asks, and its call ends or is dropped. -/
def movesLeft : Stage → Nat
  | .waiting _ => 2
  | .active .. => 1
  | .over _ => 0

/-- What the breaker hears of a send that does not end: it asks when it begins, and its call is dropped
when it is given up. -/
def visits (name : Nat) (before after : Stage) : List SendMove :=
  (if before.begun = after.begun then [] else [.ask name]) ++
    if before.givenUp = after.givenUp then [] else [.drop name]

/-- Only a send that has begun is given up. -/
theorem begun_of_givenUp {stage : Stage} (h : stage.givenUp = true) : stage.begun = true := by
  cases stage <;> first | rfl | cases h

/-- A send that has not begun has no permit yet. -/
theorem permit?_of_not_begun {stage : Stage} (h : stage.begun = false) : stage.permit? = none := by
  cases stage <;> first | rfl | cases h

end Stage

/-- A roster of the breaker of a client goes through moves of its callers. -/
abbrev follow (config : Config) (x : Roster) (moves : List SendMove) : Roster :=
  x.play config.breaker countsAsFailure moves

/-- A roster shows what the breaker of a world does. -/
structure Mirrors (config : Config) (x : Roster) (w : World) : Prop where
  /-- The names stand for calls of the run. -/
  sound : x.Sound config.breaker.settings
  /-- The time. -/
  now : x.run.now = w.now
  /-- The circuit. -/
  circuit : x.run.circuit = w.circuit

/-- A roster stands for a world with a send at a stage, which has a name. -/
structure Stands (config : Config) (name : Nat) (x : Roster) (w : World) (stage : Stage) : Prop
    extends Mirrors config x w where
  /-- The permit of the send. -/
  held : (x.calls name).map (·.permit) = stage.permit?

/-- A send goes from one stage to another while moves are made, some of them in its name. -/
structure Passes (config : Config) (name : Nat) (x : Roster) (before : Stage) (w : World)
    (after : Stage) (moves : List SendMove) : Prop where
  /-- They lead to where it is. -/
  stands : Stands config name (follow config x moves) w after
  /-- A send that has begun does not wait again. -/
  begun : before.begun = true → after.begun = true
  /-- A send that has been given up remains so. -/
  givenUp : before.givenUp = true → after.givenUp = true
  /-- A send that has ended remains so. -/
  ended : before.ended = true → after.ended = true
  /-- The moves in its name are among those that it had left. -/
  few : (moves.filter (·.name? = some name)).length + after.movesLeft ≤ before.movesLeft
  /-- They are what the breaker hears of it, as long as it does not end. -/
  visits : after.ended = false → moves.filter (·.name? = some name) = before.visits name after

variable {config : Config} {name : Nat} {x : Roster} {w later last : World} {s : Send}
  {call other : Admitted} {phase next : Phase} {before between after : Stage}
  {result : Except AttemptError Response} {moves more : List SendMove}

/-- A roster follows moves one after another. -/
theorem follow_append : follow config x (moves ++ more) = follow config (follow config x moves) more :=
  Roster.play_append ..

/-! ## From stage to stage -/

/-- What the breaker hears of a send from one stage to a later one it hears in two parts, wherever the
send is in between. -/
theorem Stage.visits_append (hbegun : before.begun = true → between.begun = true)
    (hbegun' : between.begun = true → after.begun = true)
    (hgivenUp : before.givenUp = true → between.givenUp = true)
    (hgivenUp' : between.givenUp = true → after.givenUp = true) :
    before.visits name between ++ between.visits name after = before.visits name after := by
  cases hg : between.givenUp with
  | true =>
    -- A send that has been given up has begun, so that it does not ask after its drop.
    have hb := begun_of_givenUp hg
    simp [visits, hg, hb, hbegun' hb, hgivenUp' hg]
  | false =>
    have hnot : before.givenUp = false :=
      Bool.eq_false_iff.mpr fun h => Bool.false_ne_true (hg.symm.trans (hgivenUp h))
    cases hb : between.begun with
    | true => simp [visits, hg, hnot, hb, hbegun' hb]
    | false =>
      have hwaits : before.begun = false :=
        Bool.eq_false_iff.mpr fun h => Bool.false_ne_true (hb.symm.trans (hbegun h))
      simp [visits, hg, hnot, hb, hwaits]

/-- A send goes from one stage to another by way of a third. -/
theorem Passes.trans (h : Passes config name x before w between moves)
    (hrest : Passes config name (follow config x moves) between later after more) :
    Passes config name x before later after (moves ++ more) := by
  have hfew := h.few
  have hfew' := hrest.few
  refine ⟨?_, fun hb => hrest.begun (h.begun hb), fun hg => hrest.givenUp (h.givenUp hg),
    fun he => hrest.ended (h.ended he), ?_, fun hafter => ?_⟩
  · rw [follow_append]
    exact hrest.stands
  · rw [List.filter_append, List.length_append]
    omega
  · have hbetween : between.ended = false := by
      by_contra hne
      rw [hrest.ended (by simpa using hne)] at hafter
      cases hafter
    rw [List.filter_append, h.visits hbetween, hrest.visits hafter]
    exact Stage.visits_append h.begun hrest.begun h.givenUp hrest.givenUp

/-- A send stays where it is while others make moves. -/
theorem Stands.keeps (h : Stands config name x w before) (hmoves : ∀ m ∈ moves, m.name? ≠ some name)
    (hlater : Mirrors config (follow config x moves) later) :
    Passes config name x before later before moves := by
  have hnone : moves.filter (·.name? = some name) = [] := by
    simpa [List.filter_eq_nil_iff] using hmoves
  refine ⟨⟨hlater, ?_⟩, id, id, id, ?_, fun _ => ?_⟩
  · rw [follow, Roster.calls_play_of_ne hmoves]
    exact h.held
  · rw [hnone, List.length_nil, Nat.zero_add]
  · rw [hnone]
    simp [Stage.visits]

/-- Without a move a send stays where it is. -/
theorem Stands.refl (h : Stands config name x w before) : Passes config name x before w before [] :=
  h.keeps (fun _ hm => absurd hm List.not_mem_nil) h.toMirrors

/-- A call that goes on with its permit makes no move. -/
theorem Stands.goes (h : Stands config name x w (.active call phase)) (hnow : later.now = w.now)
    (hcircuit : later.circuit = w.circuit) (hpermit : other.permit = call.permit) :
    Passes config name x (.active call phase) later (.active other next) [] :=
  ⟨⟨⟨h.sound, h.now.trans hnow.symm, h.circuit.trans hcircuit.symm⟩,
      h.held.trans (congrArg some hpermit.symm)⟩, id, id, id, Nat.le_refl _, fun _ => rfl⟩

/-- A send that begins asks, and gets what the circuit gives. -/
theorem Stands.ask (h : Stands config name x w before) (hbefore : before.permit? = none)
    (hnow : later.now = w.now)
    (hcircuit : later.circuit = (w.circuit.acquire config.breaker.settings w.now).2.1)
    (hpermit : after.permit? = (w.circuit.acquire config.breaker.settings w.now).1) :
    Stands config name (follow config x [.ask name]) later after := by
  rw [← h.now, ← h.circuit] at hcircuit hpermit
  refine ⟨⟨h.sound.play countsAsFailure _, h.now.trans hnow.symm, hcircuit.symm⟩, ?_⟩
  show ((x.step config.breaker countsAsFailure (.ask name)).calls name).map (·.permit) = _
  rw [hpermit]
  cases ha : x.admission config.breaker with
  | none =>
    rw [Roster.step_ask_of_none ha, Option.map_eq_none_iff.mp ha]
    exact h.held.trans hbefore
  | some a =>
    obtain ⟨p, hp, rfl⟩ := Option.map_eq_some_iff.mp ha
    rw [Roster.step_ask_of_some ha, hp]
    simp

/-- A send that is over has taken a last step with the permit that it held. -/
theorem Stands.finish (h : Stands config name x w (.active call phase))
    (outcome : Outcome Response AttemptError) (hnow : later.now = w.now)
    (hcircuit : ∀ a, a.permit = call.permit → later.circuit =
      (x.run.effect config.breaker.settings (outcome.deed countsAsFailure a)).1)
    (hafter : after.permit? = none) :
    Stands config name (follow config x [.finish name outcome]) later after := by
  obtain ⟨a, ha, hpermit⟩ := Option.map_eq_some_iff.mp h.held
  have hallows : x.run.Allows (outcome.deed countsAsFailure a) :=
    Roster.allows_deed (h.sound.out _ _ ha)
  have hfollow : follow config x [.finish name outcome] =
      ⟨x.run.step config.breaker.settings (outcome.deed countsAsFailure a),
        Function.update x.calls name none⟩ := Roster.step_finish_of_some ha
  have hsound : (follow config x [.finish name outcome]).Sound config.breaker.settings :=
    h.sound.play countsAsFailure _
  rw [hfollow] at hsound ⊢
  refine ⟨⟨hsound, ?_, ?_⟩, ?_⟩
  · show (x.run.step config.breaker.settings _).now = _
    rw [Run.now_step _ _ _ hallows, hnow, ← h.now]
    cases outcome <;> rfl
  · show (x.run.step config.breaker.settings _).circuit = _
    rw [Run.circuit_step _ hallows, hcircuit a hpermit]
  · rw [hafter]
    simp

/-- A send that is given up drops its call, and nothing else becomes of the world. -/
theorem Stands.drop (h : Stands config name x w (.active call phase)) :
    Passes config name x (.active call phase) { w with circuit := w.circuit.release call.permit }
      (.over .cancelled) [.drop name] := by
  refine ⟨h.finish (.panicked "") rfl (fun a ha => ?_) rfl, fun _ => rfl, fun _ => rfl,
    fun he => he, ?_, fun _ => ?_⟩
  · rw [← ha, ← h.circuit]
    rfl
  · simp [Move.name?, Stage.movesLeft]
  · simp [Move.name?, Stage.visits, Stage.begun, Stage.givenUp]

/-! ## A poll of a send -/

/-- All moves are made in one name. -/
def Own (name : Nat) (moves : List SendMove) : Prop := ∀ m ∈ moves, m.name? = some name

/-- Where there are no moves, there are none in another name. -/
theorem own_nil : Own name [] := fun _ hm => absurd hm List.not_mem_nil

/-- A move in a name is one of that name alone. -/
theorem own_singleton {m : SendMove} (h : m.name? = some name) : Own name [m] := by
  rintro _ hm
  rw [List.mem_singleton.mp hm, h]

/-- Moves in one name stay so when more of them follow. -/
theorem Own.append (h : Own name moves) (hmore : Own name more) : Own name (moves ++ more) :=
  fun m hm => (List.mem_append.mp hm).elim (h m) (hmore m)

/-- Of moves in one name that name has made all. -/
theorem Own.filter_eq (h : Own name moves) : moves.filter (·.name? = some name) = moves := by
  simpa [Own, List.filter_eq_self] using h

/-- After an attempt a send rests with its permit, or tells the breaker and is over. -/
theorem Stands.settle (h : Stands config name x w (.active call phase)) :
    ∃ moves, Own name moves ∧ Passes config name x (.active call phase)
      (settle config w call result).1 (settle config w call result).2 moves := by
  -- A retry keeps the permit; any other verdict gives it back, with what the call came to.
  by_cases hv : ∃ delay, verdictOf config w call result = .retry delay
  · obtain ⟨delay, hv⟩ := hv
    rw [settle_of_retry hv]
    exact ⟨[], own_nil, h.goes rfl rfl rfl⟩
  · obtain ⟨_, -, hc⟩ := conclude_case config
      ((decided config w call result).absorb
        (config.breaker.complete w.now call.permit (countsAsFailure result) w.circuit))
      call.request call.started (result.mapError .inner)
    rw [settle_of_final (not_exists.mp hv), finished, hc]
    refine ⟨[.finish name (.returned result)], own_singleton rfl, ?_, fun _ => rfl, fun hg => ?_,
      fun _ => rfl, ?_, fun he => ?_⟩
    · refine h.finish (.returned result) rfl (fun a ha => ?_) rfl
      have hcircuit := (Breaker.complete_spec (b := config.breaker) rfl (depth_ne_zero config) w.now
        w.circuit call.permit (countsAsFailure result)).1
      rw [← ha, ← h.now, ← h.circuit] at hcircuit
      rw [← ha, ← h.now, ← h.circuit]
      exact hcircuit
    · cases hg
    · simp [Move.name?, Stage.movesLeft]
    · cases he

/-- A send that begins asks, and is rejected or makes its first attempt. -/
theorem Stands.begin {due : Instant} (s : Send) (h : Stands config name x w (.waiting due)) :
    Passes config name x (.waiting due) (s.begin config w).1 (s.begin config w).2 [.ask name] := by
  obtain ⟨hpermit, hcircuit, -⟩ := Breaker.acquire_spec (b := config.breaker) rfl (depth_ne_zero config)
    w.now w.circuit
  unfold Send.begin
  dsimp only
  split
  · rename_i hnone
    obtain ⟨_, -, hc⟩ := conclude_case config _ _ _ _
    rw [hc]
    refine ⟨h.ask rfl rfl hcircuit ?_, fun _ => rfl, fun hg => ?_, fun _ => rfl, ?_, fun he => ?_⟩
    · rw [← hpermit, hnone]
      rfl
    · cases hg
    · simp [Move.name?, Stage.movesLeft]
    · cases he
  · rename_i p hsome
    refine ⟨h.ask rfl rfl hcircuit ?_, fun _ => rfl, id, id, ?_, fun _ => ?_⟩
    · rw [← hpermit, hsome]
      rfl
    · simp [Move.name?, launch, Stage.movesLeft]
    · simp [Move.name?, launch, Stage.visits, Stage.begun, Stage.givenUp]

/-- What becomes of a send in one stage. -/
theorem Stands.step (h : Stands config name x w s.stage) :
    ∃ moves, Own name moves ∧
      Passes config name x s.stage (s.step config w).1 (s.step config w).2 moves := by
  unfold Send.step
  split <;> rename_i hs <;> rw [hs] at h ⊢
  · exact ⟨_, own_singleton rfl, h.begin s⟩
  · unfold Send.place
    split
    · exact Stands.settle ⟨⟨h.sound, h.now, h.circuit⟩, h.held⟩
    · exact ⟨[], own_nil, h.goes rfl rfl rfl⟩
  · exact Stands.settle ⟨⟨h.sound, h.now, h.circuit⟩, h.held⟩
  · exact ⟨[], own_nil, h.goes rfl rfl rfl⟩
  · exact ⟨[], own_nil, h.refl⟩

/-- What becomes of a send that runs as far as it gets. -/
theorem Stands.run (h : Stands config name x w s.stage) (stages : Nat) :
    ∃ moves, Own name moves ∧ Passes config name x s.stage (s.run config stages w).1
      (s.run config stages w).2.stage moves := by
  induction stages generalizing x w s with
  | zero => exact ⟨[], own_nil, h.refl⟩
  | succ stages ih =>
    unfold Send.run
    split
    · obtain ⟨moves, hown, hstep⟩ := h.step
      obtain ⟨more, hmore, hrest⟩ := ih (s := { s with stage := (s.step config w).2 }) hstep.stands
      exact ⟨moves ++ more, hown.append hmore, hstep.trans hrest⟩
    · exact ⟨[], own_nil, h.refl⟩

/-- Giving a send up drops its call, and does nothing else to the world. -/
theorem dropIfGivenUp_case (w : World) (s : Send) : s.dropIfGivenUp w = (w, s) ∨
    ∃ call phase, s.stage = .active call phase ∧ s.dropIfGivenUp w =
      ({ w with circuit := w.circuit.release call.permit }, { s with stage := .over .cancelled }) := by
  unfold Send.dropIfGivenUp
  split
  · rename_i call phase hs
    split
    · split
      · refine .inr ⟨call, phase, hs, ?_⟩
        simp [World.absorb, Breaker.abandon]
      · exact .inl rfl
    · exact .inl rfl
  · exact .inl rfl

/-- A poll of a send makes moves of its name only. -/
theorem Stands.poll (h : Stands config name x w s.stage) :
    ∃ moves, Own name moves ∧
      Passes config name x s.stage (s.poll config w).1 (s.poll config w).2.stage moves := by
  -- The scopes of the send are none of the breaker's business.
  have hinside : Stands config name x (w.inside s) s.stage := ⟨⟨h.sound, h.now, h.circuit⟩, h.held⟩
  obtain ⟨moves, hown, hrun⟩ := hinside.run (Send.stageLimit config)
  rcases hr : s.run config (Send.stageLimit config) (w.inside s) with ⟨later, t⟩
  rw [hr] at hrun
  have hpoll : s.poll config w =
      ({ (t.dropIfGivenUp later).1 with slot := w.slot }, (t.dropIfGivenUp later).2) := by
    have hinner : s.run config (Send.stageLimit config)
        { w with slot := Correlation.enterAll s.scopes w.slot } = (later, t) := hr
    simp only [Send.poll, hinner]
  have hleaves {w : World} {stage : Stage} {moves : List SendMove} {slot : Correlation.Slot}
      (hp : Passes config name x s.stage w stage moves) :
      Passes config name x s.stage { w with slot := slot } stage moves :=
    ⟨⟨⟨hp.stands.sound, hp.stands.now, hp.stands.circuit⟩, hp.stands.held⟩, hp.begun, hp.givenUp,
      hp.ended, hp.few, hp.visits⟩
  rw [hpoll]
  rcases dropIfGivenUp_case later t with hdrop | ⟨call, phase, ht, hdrop⟩ <;> rw [hdrop]
  · exact ⟨moves, hown, hleaves hrun⟩
  · -- The call that is dropped is the one that the send has held until now.
    dsimp only at hrun
    rw [ht] at hrun
    exact ⟨moves ++ [.drop name], hown.append (own_singleton rfl),
      hleaves (hrun.trans hrun.stands.drop)⟩

/-! ## Sends that take turns -/

namespace Fleet

/-- A roster stands for a world with a fleet in it, whose sends are numbered from some name on. -/
structure Stands (config : Config) (first : Nat) (x : Roster) (w : World) (fleet : Fleet) : Prop
    extends Mirrors config x w where
  /-- It stands for each of them. -/
  sends : ∀ i s, fleet[i]? = some s → Client.Stands config (first + i) x w s.stage

/-- How many moves the sends have left. -/
def movesLeft (fleet : Fleet) : Nat := (fleet.map (·.stage.movesLeft)).sum

/-- The sends of a fleet have left what its first one and the others have left. -/
theorem movesLeft_cons {fleet : Fleet} :
    movesLeft (s :: fleet) = s.stage.movesLeft + movesLeft fleet := rfl

/-- A fleet goes on while moves are made. -/
structure Passes (config : Config) (first : Nat) (x : Roster) (fleet : Fleet) (w : World)
    (later : Fleet) (moves : List SendMove) : Prop where
  /-- They lead to where it is. -/
  mirrors : Mirrors config (follow config x moves) w
  /-- It has as many sends as before. -/
  length : later.length = fleet.length
  /-- Each of them has gone from one stage to another. -/
  sends : ∀ i s t, fleet[i]? = some s → later[i]? = some t →
    Client.Passes config (first + i) x s.stage w t.stage moves
  /-- No move is made in an earlier name. -/
  names : ∀ m ∈ moves, ∀ name, m.name? = some name → first ≤ name
  /-- The moves do not begin more generations than its sends have moves. -/
  few : (moves.map Move.maxBumps).sum + movesLeft later ≤ movesLeft fleet

variable {first : Nat} {fleet middle final : Fleet}

/-- Sends that all wait are any names that have no calls. -/
theorem stands_of_waiting (h : Mirrors config x w) (hfree : ∀ name, x.calls name = none)
    (hwaits : ∀ s ∈ fleet, s.stage.begun = false) : Stands config first x w fleet := by
  refine ⟨h, fun i s hs => ⟨h, ?_⟩⟩
  rw [hfree, Stage.permit?_of_not_begun (hwaits s (List.mem_of_getElem? hs)), Option.map_none]

/-- Each send has two moves at most. -/
theorem movesLeft_le (fleet : Fleet) : movesLeft fleet ≤ 2 * fleet.length := by
  have htwo : ∀ k ∈ fleet.map (·.stage.movesLeft), k ≤ 2 := by
    intro k hk
    obtain ⟨s, -, rfl⟩ := List.mem_map.mp hk
    cases s.stage <;> simp [Stage.movesLeft]
  simpa [movesLeft, Nat.mul_comm] using List.sum_le_card_nsmul _ 2 htwo

/-- Where a fleet goes, the roster stands for it again. -/
theorem Passes.stands (h : Passes config first x fleet w final moves) :
    Stands config first (follow config x moves) w final := by
  refine ⟨h.mirrors, fun i t ht => ?_⟩
  obtain ⟨hi, -⟩ := List.getElem?_eq_some_iff.mp ht
  exact (h.sends i _ t (List.getElem?_eq_getElem (h.length ▸ hi)) ht).stands

/-- A fleet goes on by way of another. -/
theorem Passes.trans (h : Passes config first x fleet w middle moves)
    (hrest : Passes config first (follow config x moves) middle later final more) :
    Passes config first x fleet later final (moves ++ more) := by
  have hfew := h.few
  have hfew' := hrest.few
  refine ⟨?_, hrest.length.trans h.length, fun i s t hs ht => ?_, fun m hm => ?_, ?_⟩
  · rw [follow_append]
    exact hrest.mirrors
  · obtain ⟨hi, -⟩ := List.getElem?_eq_some_iff.mp hs
    have hmiddle := List.getElem?_eq_getElem (l := middle) (h.length ▸ hi)
    exact (h.sends i s _ hs hmiddle).trans (hrest.sends i _ t hmiddle ht)
  · exact (List.mem_append.mp hm).elim (h.names m) (hrest.names m)
  · rw [List.map_append, List.sum_append]
    omega

/-- A fleet stays where it is while nobody makes a move. -/
theorem Stands.keeps (h : Stands config first x w fleet) (hmoves : ∀ m ∈ moves, m.name? = none)
    (hbumps : (moves.map Move.maxBumps).sum = 0)
    (hlater : Mirrors config (follow config x moves) later) :
    Passes config first x fleet later fleet moves := by
  refine ⟨hlater, rfl, fun i s t hs ht => ?_, fun m hm name hname => ?_, ?_⟩
  · obtain rfl : s = t := Option.some.inj (hs.symm.trans ht)
    exact (h.sends i s hs).keeps (fun m hm => by simp [hmoves m hm]) hlater
  · rw [hmoves m hm] at hname
    cases hname
  · rw [hbumps, Nat.zero_add]

/-- Moves of one send begin no more generations than there are moves. -/
theorem sum_maxBumps_le (h : Own name moves) : (moves.map Move.maxBumps).sum ≤ moves.length := by
  have hone : ∀ k ∈ moves.map Move.maxBumps, k ≤ 1 := by
    intro k hk
    obtain ⟨m, hm, rfl⟩ := List.mem_map.mp hk
    cases m <;> first | exact Nat.le_refl 1 | exact absurd (h _ hm) (by simp [Move.name?])
  simpa using List.sum_le_card_nsmul _ 1 hone

/-- The other sends stay where they are while the first one makes moves. -/
theorem Stands.others (h : Stands config first x w (s :: fleet)) (hown : Own first moves)
    (hlater : Mirrors config (follow config x moves) later) (i : Nat) (t : Send)
    (ht : fleet[i]? = some t) :
    Client.Passes config (first + 1 + i) x t.stage later t.stage moves := by
  have hname : first + (i + 1) = first + 1 + i := by omega
  have hstands := h.sends (i + 1) t ht
  rw [hname] at hstands
  refine hstands.keeps (fun m hm => ?_) hlater
  rw [hown m hm, Ne, Option.some.injEq]
  omega

/-- The first send makes its moves, and the others theirs. -/
theorem Passes.cons {t : Send} (h : Stands config first x w (s :: fleet)) (hown : Own first moves)
    (hhead : Client.Passes config first x s.stage later t.stage moves)
    (hrest : Passes config (first + 1) (follow config x moves) fleet last final more) :
    Passes config first x (s :: fleet) last (t :: final) (moves ++ more) := by
  refine ⟨?_, congrArg (· + 1) hrest.length, ?_, fun m hm name hname => ?_, ?_⟩
  · rw [follow_append]
    exact hrest.mirrors
  · rintro (_ | i) s' t' hs ht
    · obtain rfl : s = s' := Option.some.inj hs
      obtain rfl : t = t' := Option.some.inj ht
      refine hhead.trans (hhead.stands.keeps (fun m hm hname => ?_) hrest.mirrors)
      have hle := hrest.names m hm _ hname
      omega
    · have hname : first + (i + 1) = first + 1 + i := by omega
      rw [hname]
      exact (h.others hown hhead.stands.toMirrors i s' hs).trans (hrest.sends i s' t' hs ht)
  · rcases List.mem_append.mp hm with hm | hm
    · exact Nat.le_of_eq (Option.some.inj ((hown m hm).symm.trans hname))
    · exact Nat.le_of_succ_le (hrest.names m hm name hname)
  · -- A move of the first send begins one generation at most, and is one of those that it had left.
    have hfirst := hhead.few
    have hothers := hrest.few
    have hbound := sum_maxBumps_le hown
    rw [hown.filter_eq] at hfirst
    rw [List.map_append, List.sum_append, movesLeft_cons, movesLeft_cons]
    omega

/-- What becomes of the sends of a fleet that take turns. -/
theorem Stands.poll (h : Stands config first x w fleet) :
    ∃ moves, Passes config first x fleet (fleet.poll config w).1 (fleet.poll config w).2 moves := by
  -- By induction on the sends. The names go up, so that the first send is none of the others.
  induction fleet generalizing first x w with
  | nil =>
    exact ⟨[], h.toMirrors, rfl, fun i s t hs => absurd hs (by simp),
      fun m hm => absurd hm List.not_mem_nil, Nat.le_refl _⟩
  | cons s rest ih =>
    obtain ⟨moves, hown, hhead⟩ := (h.sends 0 s rfl).poll
    have hlater := hhead.stands.toMirrors
    obtain ⟨more, hrest⟩ := ih ⟨hlater, fun i t ht => (h.others hown hlater i t ht).stands⟩
    exact ⟨moves ++ more, .cons h hown hhead hrest⟩

end Fleet

/-! ## Until they are over -/

/-- The shortest time that can pass. -/
def tick : Duration := ⟨1, by decide⟩

/-- A roster keeps step with a world in which time passes. -/
theorem Mirrors.advance (h : Mirrors config x w) (d : Duration) :
    Mirrors config (follow config x [.advance d]) (w.advance d) :=
  ⟨h.sound.play countsAsFailure _, congrArg (·.after d) h.now, h.circuit⟩

/-- Time passes one tick after another. -/
theorem Mirrors.ticks (h : Mirrors config x w) (n : Nat) :
    Mirrors config (follow config x (List.replicate n (.advance tick)))
      { w with now := ⟨w.now.nanos + n⟩ } := by
  induction n with
  | zero => exact h
  | succ n ih =>
    rw [List.replicate_succ', follow_append]
    exact ih.advance tick

/-- A roster can wait for a moment. -/
theorem Mirrors.until (h : Mirrors config x w) (moment : Instant) :
    ∃ n, Mirrors config (follow config x (List.replicate n (.advance tick))) (w.until moment) := by
  have hle : w.now.nanos ≤ (max w.now moment).nanos := by
    rw [Instant.nanos_max]
    exact Nat.le_max_left ..
  refine ⟨(max w.now moment).nanos - w.now.nanos, ?_⟩
  have hwaited := h.ticks ((max w.now moment).nanos - w.now.nanos)
  rwa [Nat.add_sub_cancel' hle] at hwaited

/-- What becomes of a fleet that runs, the clock jumping so many times. -/
theorem Fleet.Stands.run {first : Nat} {fleet : Fleet} (h : Fleet.Stands config first x w fleet)
    (jumps : Nat) : ∃ moves, Fleet.Passes config first x fleet (fleet.run config jumps w).1
      (fleet.run config jumps w).2 moves := by
  -- By induction on the jumps. Between two polls time passes, and that is all that the roster hears.
  induction jumps generalizing x w fleet with
  | zero => exact ⟨[], h.keeps (by simp) rfl h.toMirrors⟩
  | succ jumps ih =>
    obtain ⟨moves, hpoll⟩ := h.poll
    unfold Fleet.run
    dsimp only
    split
    · exact ⟨moves, hpoll⟩
    · rename_i moment _
      obtain ⟨n, hwaited⟩ := hpoll.mirrors.until moment
      have hwait := hpoll.stands.keeps (by simp [Move.name?]) (by simp [Move.maxBumps]) hwaited
      obtain ⟨more, hmore⟩ := ih hwait.stands
      rw [← follow_append] at hmore
      exact ⟨_, (hpoll.trans hwait).trans hmore⟩

end GuardedHttp.Client
