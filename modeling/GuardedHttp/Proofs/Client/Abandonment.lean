import GuardedHttp.Proofs.Breaker.Abandonment
import GuardedHttp.Proofs.Client.Callers

/-!
# Sends that are given up

A send that is given up has asked when it began, and its call is dropped in the end; whatever it was
doing at that moment, the breaker has heard nothing of it in between. So it is a call that is dropped like
any other (`Passes.neutral`), among the moves of the sends that it shares the client with.

Main statement: `abandoning_is_neutral`.
-/

namespace GuardedHttp.Client

open Breaker (Move Roster Run)

/-- Among the moves are a call that asks under a name and its drop, and both are neutral. -/
def Abandons (config : Config) (name : Nat) (x : Roster) (moves : List SendMove) : Prop :=
  ∃ before during after, moves = before ++ (.ask name :: during ++ .drop name :: after) ∧
    (follow config x before).Neutral config.breaker countsAsFailure name during

variable {config : Config} {name : Nat} {x : Roster} {w : World} {before after : Stage}
  {moves : List SendMove}

/-- The moves of a call that asks and is dropped, and those of others before, in between and after. -/
theorem split_of_filter_eq (h : moves.filter (·.name? = some name) = [.ask name, .drop name]) :
    ∃ before during after, moves = before ++ (.ask name :: during ++ .drop name :: after) ∧
      (∀ m ∈ before, m.name? ≠ some name) ∧ ∀ m ∈ during, m.name? ≠ some name := by
  obtain ⟨before, rest, rfl, hbefore, -, hrest⟩ := List.filter_eq_cons_iff.mp h
  obtain ⟨during, after, rfl, hduring, -, -⟩ := List.filter_eq_cons_iff.mp hrest
  exact ⟨before, during, after, rfl, by simpa using hbefore, by simpa using hduring⟩

/-- The breaker hears two things of a send that is given up. -/
theorem visits_of_givenUp (hwaits : before.begun = false) (hgivenUp : after.givenUp = true) :
    before.visits name after = [.ask name, .drop name] := by
  have hbegun := Stage.begun_of_givenUp hgivenUp
  have hnot : before.givenUp = false :=
    Bool.eq_false_iff.mpr fun hg => by simp [Stage.begun_of_givenUp hg] at hwaits
  simp [Stage.visits, hwaits, hgivenUp, hbegun, hnot]

/-- A send that waits at first and has been given up in the end is a call that is neutral. -/
theorem Passes.neutral (h : Passes config name x before w after moves)
    (hx : x.Sound config.breaker.settings) (hfree : x.calls name = none)
    (hb : (follow config x moves).run.bumps < 2 ^ 64) (hwaits : before.begun = false)
    (hgivenUp : after.givenUp = true) : Abandons config name x moves := by
  have hended : after.ended = false := by
    rcases after with due | ⟨call, phase⟩ | ⟨_ | _⟩ <;> first | rfl | cases hgivenUp
  have hvisits := (h.visits hended).trans (visits_of_givenUp hwaits hgivenUp)
  obtain ⟨earlier, during, later, rfl, hearlier, hduring⟩ := split_of_filter_eq hvisits
  refine ⟨earlier, during, later, rfl, (hx.play countsAsFailure earlier).neutral ?_ hduring ?_⟩
  · rw [Roster.calls_play_of_ne hearlier, hfree]
  · -- What has happened while the call is in flight is part of the whole run.
    have hpart := Roster.past_play config.breaker countsAsFailure
      ((follow config x earlier).holding config.breaker countsAsFailure name during)
      (.drop name :: later)
    rw [follow_append, follow_append] at hb
    exact lt_of_le_of_lt (Run.bumps_mono hpart) hb

/-- Abandoning a call is neutral. A call that was admitted in the closed state leaves no trace: after its
drop, whenever it comes, the breaker and every other caller are where they would be without its
admission and its drop. A trial is given back by its drop as long as its half-open period lasts, and a
drop does nothing else and is not reported. A send of a client is such a call, in whatever stage it is
given up and whatever sends it shares the client with: a fleet is a list of moves, in which the send asks
once and drops once. -/
theorem abandoning_is_neutral :
    (∀ {α ε : Type} {b : Breaker} {classify : Breaker.Classifier α ε} {x : Roster} {name : Nat}
      {during : List (Move α ε)}, x.Sound b.settings → x.calls name = none →
      (∀ m ∈ during, m.name? ≠ some name) →
      (x.holding b classify name during).run.bumps < 2 ^ 64 → x.Neutral b classify name during) ∧
    (∀ {config : Config} {first : Nat} {x : Roster} {w : World} {fleet : Fleet},
      Fleet.Stands config first x w fleet → ∀ jumps, ∃ moves,
        Fleet.Passes config first x fleet (fleet.run config jumps w).1 (fleet.run config jumps w).2
          moves ∧
        (follow config x moves).run.bumps ≤ x.run.bumps + 2 * fleet.length ∧
        ((follow config x moves).run.bumps < 2 ^ 64 → ∀ i s t, fleet[i]? = some s →
          (fleet.run config jumps w).2[i]? = some t → s.stage.begun = false →
          t.stage.givenUp = true → Abandons config (first + i) x moves)) ∧
    ∀ (w : World) (s : Send), (s.dropIfGivenUp w).1 =
      { w with circuit := (s.dropIfGivenUp w).1.circuit } := by
  refine ⟨fun hx hfree hduring hb => hx.neutral hfree hduring hb,
    fun {config} first x w fleet h jumps => ?_, fun w s => ?_⟩
  · obtain ⟨moves, hruns⟩ := h.run jumps
    refine ⟨moves, hruns, ?_, fun hb i s t hs ht hwaits hgivenUp => ?_⟩
    · have hbumps : (follow config x moves).run.bumps ≤ _ := Roster.bumps_play_le ..
      have hfew := hruns.few
      have hleft := fleet.movesLeft_le
      omega
    · have hheld := (h.sends i s hs).held
      rw [Stage.permit?_of_not_begun hwaits, Option.map_eq_none_iff] at hheld
      exact (hruns.sends i s t hs ht).neutral h.sound hheld hb hwaits hgivenUp
  · rcases dropIfGivenUp_case w s with h | ⟨call, phase, -, h⟩ <;> rw [h]

/-- While a call is in flight, another one fails and opens the circuit, and later a third one becomes a
trial. -/
def meanwhile : List (Move Nat Nat) :=
  [.ask 1, .finish 1 (.returned (.error 1)), .advance (.ofSeconds 5), .ask 2]

/-- A send whose caller gives it up after a second. -/
def hasty : Send := { visit with patience := some (.ofSeconds 1) }

/-- A call is dropped after its circuit has opened and become half-open, and a send of two that share a
client is given up: both leave no trace. -/
theorem abandoned_meanwhile :
    ((Roster.fresh .start).holding { settings := Breaker.twoTrials } Breaker.anyError 0
        meanwhile).run.bumps < 2 ^ 64 ∧
      ((Roster.fresh .start).play { settings := Breaker.twoTrials } Breaker.anyError
        (.ask 0 :: meanwhile ++ .drop 0 :: [.finish 2 (.returned (.ok 2))])).run.circuit =
      ((Roster.fresh .start).play { settings := Breaker.twoTrials } Breaker.anyError
        (meanwhile ++ [.finish 2 (.returned (.ok 2))])).run.circuit ∧
      Fleet.Stands .default 0 (Roster.fresh .start) silent [hasty, visit] ∧
      ∃ moves, Fleet.Passes .default 0 (Roster.fresh .start) [hasty, visit]
          (Fleet.run .default 2 silent [hasty, visit]).1 (Fleet.run .default 2 silent [hasty, visit]).2
          moves ∧
        Abandons .default 0 (Roster.fresh .start) moves := by
  obtain ⟨hneutral, hfleet, -⟩ := abandoning_is_neutral
  have hsound := Roster.sound_fresh Breaker.twoTrials .start
  have hb : ((Roster.fresh .start).holding { settings := Breaker.twoTrials } Breaker.anyError 0
      meanwhile).run.bumps < 2 ^ 64 := by decide
  have hothers : ∀ m ∈ meanwhile, m.name? ≠ some 0 := by simp [meanwhile, Move.name?]
  have hundone := (hneutral (b := { settings := Breaker.twoTrials }) hsound rfl hothers hb).undone rfl
  have hstands : Fleet.Stands .default 0 (Roster.fresh .start) silent [hasty, visit] :=
    Fleet.stands_of_waiting ⟨Roster.sound_fresh _ _, rfl, rfl⟩ (fun _ => rfl)
      (by simp [hasty, visit, Stage.begun])
  obtain ⟨moves, hpasses, hbumps, habandons⟩ := hfleet hstands 2
  have hgone : (Fleet.run .default 2 silent [hasty, visit]).2[0]?.map (·.stage.givenUp) = some true := by
    decide +kernel
  obtain ⟨t, ht, hgivenUp⟩ := Option.map_eq_some_iff.mp hgone
  have hfew : (follow .default (Roster.fresh .start) moves).run.bumps < 2 ^ 64 :=
    lt_of_le_of_lt hbumps (by decide)
  exact ⟨hb, (hundone _).circuit, hstands, moves, hpasses,
    habandons hfew 0 hasty t rfl ht rfl hgivenUp⟩

end GuardedHttp.Client
