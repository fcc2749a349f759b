import GuardedHttp.Proofs.Breaker.History
import GuardedHttp.Proofs.Breaker.SideBySide

/-!
# Calls that are dropped

A caller may drop its call at any time, and the breaker then takes the call's trial back, if it is one of
the half-open period that lasts, and does nothing else. A call that was admitted in the closed state has
no trial to give back: if its period still lasts, the circuit is still closed (`Roster.lasts_play`), and
otherwise its permit is of an older generation. So a run that has such a call, and the run without it, go
on side by side (`Roster.OneMore`).

Main statement: `Roster.Sound.neutral`.
-/

namespace GuardedHttp.Breaker

open Circuit (AcquireCase ReleaseCase shiftPermit)

variable {α ε : Type}

namespace Roster

/-- The first roster has gone through the same as the second one, and has admitted one more call in the
closed state. It differs in nothing but the calls of the names that are left out. -/
structure OneMore (b : Breaker) (classify : Classifier α ε) (before : List Event)
    (leftOut : Nat → Prop) (x y : Roster) : Prop where
  /-- It is the same time. -/
  now : x.run.now = y.run.now
  /-- The circuits are the same. -/
  circuit : x.run.circuit = y.run.circuit
  /-- The other callers hold the same permits. -/
  permits : ∀ name, ¬ leftOut name → (x.calls name).map (·.permit) = (y.calls name).map (·.permit)
  /-- The next move is answered alike, unless it ends one of the calls that are left out. -/
  replies : ∀ m : Move α ε, (∀ name, m.ends = some name → ¬ leftOut name) →
    x.reply b classify m = y.reply b classify m
  /-- The events are the same, but for the admission of the call. -/
  events : ∃ later, x.run.events = before ++ .permitted .closed :: later ∧
    y.run.events = before ++ later

/-- The roster while a call, which has asked under a name, is in flight. -/
def holding (b : Breaker) (classify : Classifier α ε) (x : Roster) (name : Nat)
    (during : List (Move α ε)) : Roster :=
  x.play b classify (.ask name :: during)

/-- What the drop of a call does. -/
structure Releases (b : Breaker) (a : Admission) (held later : Roster) : Prop where
  /-- The trial of a half-open period that lasts is given back. -/
  trial : held.run.Current a → held.run.circuit.state = .halfOpen → 0 < held.run.circuit.inFlight ∧
    later.run.circuit = { held.run.circuit with inFlight := held.run.circuit.inFlight - 1 }
  /-- Otherwise the circuit stays as it is. -/
  idle : ¬ (held.run.Current a ∧ held.run.circuit.state = .halfOpen) →
    later.run.circuit = held.run.circuit
  /-- Nothing but the number of running trials ever changes. -/
  rest : { later.run.circuit with inFlight := held.run.circuit.inFlight } = held.run.circuit
  /-- Nothing is recorded. -/
  events : later.run.events = held.run.events
  /-- Nothing is reported or heard. -/
  update : abandon a.permit held.run.circuit = { circuit := later.run.circuit }

/-- A call that has asked under a name is dropped later on, which is neutral. -/
structure Neutral (b : Breaker) (classify : Classifier α ε) (x : Roster) (name : Nat)
    (during : List (Move α ε)) : Prop where
  /-- While a call of the closed state is in flight, everything is as it would be without it. -/
  unseen : x.run.circuit.state = .closed →
    OneMore b classify x.run.events (· = name) (x.holding b classify name during)
      (x.play b classify during)
  /-- Once it has been dropped, everything is as it would be without its admission and its drop. -/
  undone : x.run.circuit.state = .closed → ∀ after,
    OneMore b classify x.run.events (fun _ => False)
      (x.play b classify (.ask name :: during ++ .drop name :: after))
      (x.play b classify (during ++ after))
  /-- A call that is admitted in another state is a trial as long as its period lasts. -/
  state : ∀ a, x.admission b = some a → x.run.circuit.state ≠ .closed →
    (x.holding b classify name during).run.Current a →
    (x.holding b classify name during).run.circuit.state = .halfOpen
  /-- Its drop gives back a trial that lasts, and does nothing else. -/
  drop : ∀ a, x.admission b = some a →
    Releases b a (x.holding b classify name during)
      ((x.holding b classify name during).step b classify (.drop name))

section

variable {b : Breaker} {classify : Classifier α ε} {x y : Roster} {name : Nat} {a : Admission}
  {moves : List (Move α ε)} {state : CircuitState}

/-! ## While a call is in flight -/

/-- The call has been admitted, and as long as its period lasts the circuit is in this state. -/
structure Lasts (a : Admission) (state : CircuitState) (r : Run) : Prop where
  /-- The call was admitted by an earlier step. -/
  number_lt : a.number < r.past.length
  /-- The state is that of the period. -/
  state_of_current : r.Current a → r.circuit.state = state

/-- A call lasts through every step, or its period ends. -/
theorem Lasts.step {r : Run} (h : Lasts a state r) (settings : Settings) (deed : Deed) :
    Lasts a state (r.step settings deed) := by
  by_cases hallows : r.Allows deed
  swap
  · rw [Run.step_of_not_allows hallows]
    exact h
  have hf := Run.follows_effect settings hallows
  refine ⟨?_, fun hcurrent => ?_⟩
  · rw [hf.past, List.length_cons]
    exact Nat.lt_succ_of_lt h.number_lt
  · cases he : (Record.of deed r.now r.circuit (r.effect settings deed)).breaks with
    | false =>
      rw [hf.state_of_continues he]
      exact h.state_of_current ((hf.current_of_continues he a).mp hcurrent)
    | true => exact absurd ((hf.current_of_ends he a).mp hcurrent) (Nat.not_le_of_lt h.number_lt)

/-- A call that has been admitted lasts in the state that its admission has left. -/
theorem lasts_ask (h : x.admission b = some a) :
    Lasts a (x.step b classify (.ask name)).run.circuit.state (x.step b classify (.ask name)).run := by
  refine ⟨?_, fun _ => rfl⟩
  rw [number_of_admission h]
  exact Nat.lt_succ_self _

/-- A call lasts through any moves, or its period ends. -/
theorem lasts_play (h : Lasts a state x.run) (moves : List (Move α ε)) :
    Lasts a state (x.play b classify moves).run := by
  refine List.foldlRecOn (motive := fun y : Roster => Lasts a state y.run) moves _ h fun y hy m _ => ?_
  unfold step
  cases y.deed classify m with
  | none => exact hy
  | some deed => exact hy.step b.settings deed

/-- A call that has asked lasts in the state that its admission has left, or its period ends. -/
theorem lasts_holding (classify : Classifier α ε) (name : Nat) (h : x.admission b = some a)
    (during : List (Move α ε)) :
    Lasts a (x.step b classify (.ask name)).run.circuit.state
      (x.holding b classify name during).run :=
  lasts_play (lasts_ask h) during

/-- A call keeps its name while others make moves. -/
theorem calls_holding (classify : Classifier α ε) (h : x.admission b = some a) {during : List (Move α ε)}
    (hduring : ∀ m ∈ during, m.name? ≠ some name) :
    (x.holding b classify name during).calls name = some a := by
  have hask : (x.step b classify (.ask name)).calls name = some a := by
    rw [step_ask_of_some h]
    exact Function.update_self ..
  exact (calls_play_of_ne hduring).trans hask

/-- A name has no call when it has been dropped. -/
theorem calls_drop : (x.step b classify (.drop name)).calls = Function.update x.calls name none := rfl

/-- Dropping a call takes no time. -/
theorem now_drop : (x.step b classify (.drop name)).run.now = x.run.now := by
  rw [step_drop]
  cases hx : x.calls name with
  | none => rw [step_finish_of_none hx]
  | some a =>
    rw [step_finish_of_some hx]
    by_cases ha : x.run.Allows (.abandon a)
    · exact Run.now_step b.settings x.run (.abandon a) ha
    · have hsame : x.run.step b.settings (.abandon a) = x.run := Run.step_of_not_allows ha
      exact congrArg (fun r : Run => r.now) hsame

/-- The drop of a call in flight gives its trial back, if it has one, and does nothing else. -/
theorem Sound.releases (classify : Classifier α ε) (h : x.Sound b.settings)
    (hb : x.run.bumps < 2 ^ 64) (ha : x.calls name = some a) :
    Releases b a x (x.step b classify (.drop name)) := by
  have hout := h.out _ _ ha
  have hrun : (x.step b classify (.drop name)).run = x.run.step b.settings (.abandon a) := by
    rw [step_drop, step_finish_of_some ha]
    rfl
  have hcircuit : (x.step b classify (.drop name)).run.circuit = x.run.circuit.release a.permit := by
    rw [hrun, Run.circuit_abandon hout]
  have hevents : (x.step b classify (.drop name)).run.events = x.run.events := by
    rw [hrun, Run.events_step b.settings (show x.run.Allows (.abandon a) from hout)]
    exact List.append_nil _
  have hcurrent := (h.reached.dated hb).current_iff a hout
  have hupdate : abandon a.permit x.run.circuit =
      { circuit := (x.step b classify (.drop name)).run.circuit } := by
    rw [hcircuit]
    rfl
  cases x.run.circuit.release_case a.permit with
  | frees hg hs e =>
    rw [e] at hcircuit
    refine ⟨fun _ _ => ⟨?_, hcircuit⟩, fun hidle => absurd ⟨hcurrent.mp hg, hs⟩ hidle, ?_, hevents,
      hupdate⟩
    · -- The call itself is one of those that are counted.
      obtain ⟨hinFlight, -⟩ := (h.reached.counted hb).halfOpen hs
      rw [hinFlight]
      exact List.countP_pos_iff.mpr ⟨a, hout, decide_eq_true hg⟩
    · rw [hcircuit]
  | idle hnone e =>
    rw [e] at hcircuit
    refine ⟨fun h hs => absurd ⟨hcurrent.mpr h, hs⟩ hnone, fun _ => hcircuit, ?_, hevents, hupdate⟩
    rw [hcircuit]

/-! ## A call of the closed state -/

/-- A closed circuit admits a call without a change. -/
theorem admission_of_closed (hs : x.run.circuit.state = .closed) :
    x.admission b = some ⟨x.run.past.length, ⟨x.run.circuit.generation⟩⟩ ∧
      x.run.effect b.settings .acquire = (x.run.circuit, [.permitted .closed]) := by
  cases x.run.circuit.acquire_case b.settings x.run.now with
  | passes _ e => simp [admission, Run.effect, e]
  | probes hs' | joins hs' | early hs' | full hs' =>
    rw [hs] at hs'
    cases hs'

/-- Right after its admission in the closed state a call is all that is different. -/
theorem Sound.together_ask (classify : Classifier α ε) (h : x.Sound b.settings)
    (hs : x.run.circuit.state = .closed) (hfree : x.calls name = none) :
    (x.step b classify (.ask name)).Alike b.settings 0 (fun other _ => other = name) x ∧
      (x.step b classify (.ask name)).run.events = x.run.events ++ [.permitted .closed] := by
  obtain ⟨hadmission, heffect⟩ := admission_of_closed (b := b) hs
  have hallows : x.run.Allows .acquire := trivial
  have hcircuit := Run.circuit_step b.settings hallows
  have hevents := Run.events_step b.settings hallows
  have hsound := h.step classify (.ask name)
  rw [heffect] at hcircuit hevents
  rw [step_ask_of_some hadmission] at hsound ⊢
  refine ⟨⟨hsound, h, ⟨rfl, ?_⟩, fun other => ?_⟩, hevents⟩
  · rw [Circuit.shift_zero]
    exact hcircuit
  · by_cases hn : other = name
    · subst hn
      exact .inr ⟨hfree, _, Function.update_self .., rfl⟩
    · exact .inl (by simp [Agree, hn])

/-- Rosters that are alike in every field of the circuit differ in nothing that can be seen. -/
theorem Alike.oneMore {leftOut : Nat → Prop} {before later : List Event}
    (h : x.Alike b.settings 0 (fun name _ => leftOut name) y)
    (hx : x.run.events = before ++ .permitted .closed :: later)
    (hy : y.run.events = before ++ later) : OneMore b classify before leftOut x y := by
  have hagree (name : Nat) (hn : ¬ leftOut name) : Agree 0 (x.calls name) (y.calls name) :=
    (h.calls name).resolve_right fun ⟨_, _, _, hout⟩ => hn hout
  refine ⟨h.run.now, ?_, fun name hn => ?_, fun m hm => ?_, later, hx, hy⟩
  · rw [h.run.circuit, Circuit.shift_zero]
  · have hpermits := hagree name hn
    simpa [Agree] using hpermits
  · exact h.reply_eq fun name hname => hagree name (hm name hname)

/-- Whoever is admitted leaves the circuit closed if it was, and half-open otherwise. -/
theorem state_ask (h : x.admission b = some a) : (x.step b classify (.ask name)).run.circuit.state =
    if x.run.circuit.state = .closed then .closed else .halfOpen := by
  have hcircuit : (x.step b classify (.ask name)).run.circuit =
      (x.run.circuit.acquire b.settings x.run.now).2.1 := rfl
  rw [hcircuit]
  cases x.run.circuit.acquire_case b.settings x.run.now with
  | passes hs e | joins hs _ e => simp [e, hs]
  | probes hs _ e => simp [e, hs]
  | early _ _ e | full _ _ e => simp [admission, e] at h

/-- A call of the closed state remains all that is different while it is in flight. -/
theorem Sound.together_holding (classify : Classifier α ε) (h : x.Sound b.settings)
    (hs : x.run.circuit.state = .closed) (hfree : x.calls name = none) {during : List (Move α ε)}
    (hduring : ∀ m ∈ during, m.name? ≠ some name) :
    (x.holding b classify name during).Alike b.settings 0 (fun other _ => other = name)
        (x.play b classify during) ∧
      ∃ later, (x.holding b classify name during).run.events =
          x.run.events ++ .permitted .closed :: later ∧
        (x.play b classify during).run.events = x.run.events ++ later := by
  obtain ⟨halike, hask⟩ := h.together_ask classify hs hfree
  have hharmless (done : List (Move α ε)) (m : Move α ε) (rest : List (Move α ε))
      (he : during = done ++ m :: rest) : Harmless (fun other _ => other = name)
        ((x.step b classify (.ask name)).play b classify done) m := by
    intro other a hends _ hother
    -- The others leave the call in flight.
    subst hother
    exact absurd (Move.name?_of_ends hends) (hduring m (by simp [he]))
  obtain ⟨hlater, later, hwith, hwithout⟩ := halike.play hharmless
  refine ⟨hlater, later, ?_, hwithout⟩
  rw [hask, List.append_assoc, List.singleton_append] at hwith
  exact hwith

/-- The drop of a call of the closed state leaves nothing that is different. -/
theorem Sound.together_drop (h : x.Sound b.settings) (hs : x.run.circuit.state = .closed)
    (hfree : x.calls name = none) {during : List (Move α ε)}
    (hduring : ∀ m ∈ during, m.name? ≠ some name)
    (hb : (x.holding b classify name during).run.bumps < 2 ^ 64) :
    ((x.holding b classify name during).step b classify (.drop name)).Alike b.settings 0
        (fun _ _ => False) (x.play b classify during) := by
  obtain ⟨hadmission, -⟩ := admission_of_closed (b := b) hs
  obtain ⟨halike, -⟩ := h.together_holding classify hs hfree hduring
  have hheld := calls_holding classify hadmission hduring
  have hlasts := lasts_holding classify name hadmission during
  have hreleases := halike.left.releases classify hb hheld
  -- Either its period lasts and the circuit is closed, or its permit is of an older generation.
  have hcircuit := hreleases.idle fun ⟨hcurrent, hhalf⟩ => by
    have hstate := hlasts.state_of_current hcurrent
    rw [hhalf, state_ask hadmission, if_pos hs] at hstate
    cases hstate
  refine ⟨halike.left.step classify _, halike.right, ⟨?_, ?_⟩, fun other => .inl ?_⟩
  · rw [now_drop]
    exact halike.run.now
  · rw [hcircuit]
    exact halike.run.circuit
  · rw [calls_drop]
    by_cases hn : other = name
    · subst hn
      rw [Function.update_self, agree_none, calls_play_of_ne hduring]
      exact hfree
    · rw [Function.update_of_ne hn]
      exact (halike.calls other).resolve_right fun ⟨_, _, _, hother⟩ => hn hother

/-- A call that asks under a name that is free, and is dropped at any time, is neutral. -/
theorem Sound.neutral (h : x.Sound b.settings) (hfree : x.calls name = none)
    {during : List (Move α ε)} (hduring : ∀ m ∈ during, m.name? ≠ some name)
    (hb : (x.holding b classify name during).run.bumps < 2 ^ 64) :
    x.Neutral b classify name during := by
  have hsound : (x.holding b classify name during).Sound b.settings := h.play classify _
  refine ⟨fun hs => ?_, fun hs after => ?_, fun a ha hs hcurrent => ?_, fun a ha => ?_⟩
  · obtain ⟨halike, later, hwith, hwithout⟩ := h.together_holding classify hs hfree hduring
    exact halike.oneMore hwith hwithout
  · obtain ⟨-, later, hwith, hwithout⟩ := h.together_holding classify hs hfree hduring
    have hdropped := h.together_drop hs hfree hduring hb
    have hheld := calls_holding classify (admission_of_closed (b := b) hs).1 hduring
    have hharmless (done : List (Move α ε)) (m : Move α ε) (rest : List (Move α ε))
        (_ : after = done ++ m :: rest) : Harmless (fun _ _ => False)
          (((x.holding b classify name during).step b classify (.drop name)).play b classify done)
          m := fun _ _ _ _ hfalse => hfalse.elim
    obtain ⟨hlater, more, hx, hy⟩ := hdropped.play hharmless
    rw [(hsound.releases classify hb hheld).events, hwith, List.append_assoc, List.cons_append] at hx
    rw [hwithout, List.append_assoc] at hy
    rw [play_append, play_append]
    exact hlater.oneMore hx hy
  · rw [(lasts_holding classify name ha during).state_of_current hcurrent, state_ask ha, if_neg hs]
  · exact hsound.releases classify hb (calls_holding classify ha hduring)

end

end Roster

end GuardedHttp.Breaker
