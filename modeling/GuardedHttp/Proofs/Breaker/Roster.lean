import GuardedHttp.Breaker.Session
import GuardedHttp.Proofs.Breaker.Stale

/-!
# Runs whose callers have names

A run knows its calls by the steps that admitted them, and these differ from one run to another. In order
to say that two runs go on in the same way, callers have names here: a `Roster` is a run together with
the call that each name has in flight, and a `Move` is what a caller, or whoever controls the breaker,
does. Any list of moves can be played by any roster, and `Roster.reply` is what a move is answered.

A roster is `Sound` if its run is reachable and no two names share a call. Moves keep it so
(`Sound.play`), and every reachable run has a sound roster in which all its outstanding calls have names
(`Reachable.roster_spec`).
-/

namespace GuardedHttp.Breaker

open Circuit (Control)

variable {α ε : Type}

/-- Something that a caller does, or whoever controls the breaker. -/
inductive Move (α ε : Type) where
  /-- A call asks for a permit. If it gets one, it is the call of this name from now on. -/
  | ask (name : Nat)
  /-- The call of a name ends. -/
  | finish (name : Nat) (outcome : Outcome α ε)
  /-- The call of a name is dropped before it ends. -/
  | drop (name : Nat)
  /-- The breaker is controlled by hand. -/
  | control (how : Control)
  /-- Time passes. -/
  | advance (d : Duration)

namespace Move

/-- The name of the caller, if it is a caller's move. -/
def name? : Move α ε → Option Nat
  | ask name | finish name _ | drop name => some name
  | control _ | advance _ => none

/-- The name of the call that the move ends or drops, if it does. -/
def ends : Move α ε → Option Nat
  | finish name _ | drop name => some name
  | ask _ | control _ | advance _ => none

/-- How many generations the move can begin at most. -/
def maxBumps : Move α ε → Nat
  | ask _ | finish .. | drop _ => 1
  | control _ => 2
  | advance _ => 0

/-- A move that ends the call of a name is made in that name. -/
theorem name?_of_ends {m : Move α ε} {name : Nat} (h : m.ends = some name) : m.name? = some name := by
  cases m <;> first | exact h | cases h

end Move

/-- The step in which an admitted call ends. One that panics is given up. -/
def Outcome.deed (classify : Classifier α ε) (a : Admission) : Outcome α ε → Deed
  | .returned result => .complete a (classify result)
  | .panicked _ => .abandon a

/-- A run whose callers have names. -/
structure Roster where
  /-- The run. -/
  run : Run
  /-- The call that a name has in flight. -/
  calls : Nat → Option Admission := fun _ => none

namespace Roster

/-- A breaker that has just been built. -/
def fresh (now : Instant) : Roster := { run := .fresh now }

section

variable (b : Breaker) (classify : Classifier α ε) (x : Roster)

/-- The step of the run that a move is; the end of a call that is not in flight is none. -/
def deed : Move α ε → Option Deed
  | .ask _ => some .acquire
  | .finish name outcome => (x.calls name).map (outcome.deed classify)
  | .drop name => (x.calls name).map .abandon
  | .control how => some (.control how)
  | .advance d => some (.advance d)

/-- The call that is admitted if one asks now. -/
def admission : Option Admission :=
  (x.run.circuit.acquire b.settings x.run.now).1.map (⟨x.run.past.length, ·⟩)

/-- The calls in flight after a move. -/
def callsAfter : Move α ε → Nat → Option Admission
  | .ask name => (x.admission b).elim x.calls fun a => Function.update x.calls name (some a)
  | .finish name _ | .drop name => Function.update x.calls name none
  | .control _ | .advance _ => x.calls

/-- One move. -/
def step (m : Move α ε) : Roster where
  run := (x.deed classify m).elim x.run (x.run.step b.settings)
  calls := x.callsAfter b m

/-- Any number of moves. -/
def play (moves : List (Move α ε)) : Roster := moves.foldl (step b classify) x

/-- What a move is answered. -/
def reply : Move α ε → Reply α ε
  | .ask _ =>
    if (b.start x.run.now x.run.circuit).1.isSome then .pending else .result (.ended (.error .rejected))
  | .finish name outcome =>
    (x.calls name).elim .absent fun a =>
      .result (b.finish classify x.run.now a.permit outcome x.run.circuit).1
  | .drop name => if (x.calls name).isSome then .dropped else .absent
  | .control _ | .advance _ => .done

end

/-- The names stand for calls of the run, each for one of its own. -/
structure Sound (settings : Settings) (x : Roster) : Prop where
  /-- Some steps have led to the run. -/
  reached : Reachable settings x.run
  /-- Every call in flight is outstanding. -/
  out : ∀ name a, x.calls name = some a → a ∈ x.run.outstanding
  /-- No two names have the same call. -/
  apart : ∀ name other a, x.calls name = some a → x.calls other = some a → name = other

/-! ## Moves are steps -/

variable {b : Breaker} {classify : Classifier α ε} {x : Roster} {outcome : Outcome α ε} {name : Nat}
  {a : Admission}

/-- Before anybody has asked, no name has a call. -/
theorem sound_fresh (settings : Settings) (now : Instant) : (fresh now).Sound settings := by
  refine ⟨.fresh now, ?_, ?_⟩ <;> intros <;> contradiction

/-- Dropping a call is one of the ways to end it. -/
theorem step_drop : x.step b classify (.drop name) =
    x.step b classify (.finish name (.panicked "")) := rfl

/-- A name without a call can lose none. -/
theorem update_of_none (h : x.calls name = none) : Function.update x.calls name none = x.calls := by
  rw [← h]
  exact Function.update_eq_self _ _

/-- Ending a call that is not in flight does nothing. -/
theorem step_finish_of_none (h : x.calls name = none) :
    x.step b classify (.finish name outcome) = x := by
  simp [step, deed, callsAfter, h, update_of_none h]

/-- Ending a call that is in flight is a step of the run, and leaves the name without a call. -/
theorem step_finish_of_some (h : x.calls name = some a) :
    x.step b classify (.finish name outcome) =
      ⟨x.run.step b.settings (outcome.deed classify a), Function.update x.calls name none⟩ := by
  simp [step, deed, callsAfter, h]

/-- A call that is admitted is the call of its name. -/
theorem step_ask_of_some (h : x.admission b = some a) : x.step b classify (.ask name) =
    ⟨x.run.step b.settings .acquire, Function.update x.calls name (some a)⟩ := by
  simp [step, deed, callsAfter, h]

/-- A call that is rejected leaves the names as they are. -/
theorem step_ask_of_none (h : x.admission b = none) : x.step b classify (.ask name) =
    ⟨x.run.step b.settings .acquire, x.calls⟩ := by
  simp [step, deed, callsAfter, h]

/-- A call is numbered by how many steps were taken before it. -/
theorem number_of_admission (h : x.admission b = some a) : a.number = x.run.past.length := by
  obtain ⟨p, -, rfl⟩ := Option.map_eq_some_iff.mp h
  rfl

/-- An outstanding call can end. -/
theorem allows_deed {r : Run} (h : a ∈ r.outstanding) : r.Allows (outcome.deed classify a) := by
  cases outcome <;> exact h

/-- A call that ends is outstanding no longer, however it ends. -/
theorem outstanding_deed {r : Run} (h : a ∈ r.outstanding) :
    (r.step b.settings (outcome.deed classify a)).outstanding = r.outstanding.erase a := by
  cases outcome with
  | returned result => exact Run.outstanding_complete h
  | panicked message => exact Run.outstanding_abandon h

/-- The names still stand for outstanding calls when one of them has lost its call. -/
theorem Sound.lose (h : x.Sound b.settings) (ha : x.calls name = some a) {r : Run}
    (hr : Reachable b.settings r) (hout : r.outstanding = x.run.outstanding.erase a) :
    (⟨r, Function.update x.calls name none⟩ : Roster).Sound b.settings := by
  have hcalls {other : Nat} {c : Admission} (hc : Function.update x.calls name none other = some c) :
      other ≠ name ∧ x.calls other = some c := by
    rw [Function.update_apply] at hc
    split at hc
    · cases hc
    · exact ⟨‹_›, hc⟩
  refine ⟨hr, fun other c hc => ?_, fun one other c hone hother => ?_⟩
  · obtain ⟨hne, hc⟩ := hcalls hc
    have hac : c ≠ a := by
      rintro rfl
      exact hne (h.apart _ _ _ hc ha)
    show c ∈ r.outstanding
    rw [hout]
    exact (List.mem_erase_of_ne hac).mpr (h.out _ _ hc)
  · exact h.apart _ _ _ (hcalls hone).2 (hcalls hother).2

/-- The names still stand for outstanding calls when one of them has got a new call. -/
theorem Sound.gain (h : x.Sound b.settings) {r : Run} (hr : Reachable b.settings r)
    (hnew : ∀ c ∈ x.run.outstanding, c ≠ a) (hout : r.outstanding = x.run.outstanding ++ [a]) :
    (⟨r, Function.update x.calls name (some a)⟩ : Roster).Sound b.settings := by
  have hcalls {other : Nat} {c : Admission}
      (hc : Function.update x.calls name (some a) other = some c) :
      other = name ∧ c = a ∨ x.calls other = some c ∧ c ≠ a := by
    rw [Function.update_apply] at hc
    split at hc
    · exact .inl ⟨‹_›, (Option.some.inj hc).symm⟩
    · exact .inr ⟨hc, hnew c (h.out _ _ hc)⟩
  refine ⟨hr, fun other c hc => ?_, fun one other c hone hother => ?_⟩
  · -- Either it is the new call, or it has been in flight before.
    show c ∈ r.outstanding
    rw [hout, List.mem_append, List.mem_singleton]
    rcases hcalls hc with ⟨-, hc⟩ | ⟨hc, -⟩
    · exact .inr hc
    · exact .inl (h.out _ _ hc)
  · rcases hcalls hone with ⟨hone, heq⟩ | ⟨hone, hne⟩ <;>
      rcases hcalls hother with ⟨hother, heq'⟩ | ⟨hother, hne'⟩
    · exact hone.trans hother.symm
    · exact absurd heq hne'
    · exact absurd heq' hne
    · exact h.apart _ _ _ hone hother

/-- The names of a sound roster still stand for outstanding calls after a move. -/
theorem Sound.step (h : x.Sound b.settings) (classify : Classifier α ε) (m : Move α ε) :
    (x.step b classify m).Sound b.settings := by
  have hends (name : Nat) (outcome : Outcome α ε) :
      (x.step b classify (.finish name outcome)).Sound b.settings := by
    cases ha : x.calls name with
    | none =>
      rw [step_finish_of_none ha]
      exact h
    | some a =>
      rw [step_finish_of_some ha]
      exact h.lose ha (h.reached.step _) (outstanding_deed (h.out _ _ ha))
  cases m with
  | ask name =>
    have hout : (x.step b classify (.ask name)).run.outstanding =
        x.run.outstanding ++ (x.admission b).toList := rfl
    have hr := h.reached.step .acquire
    cases ha : x.admission b with
    | none =>
      rw [ha, Option.toList_none, List.append_nil] at hout
      rw [step_ask_of_none ha] at hout ⊢
      exact ⟨hr, fun name c hc => hout ▸ h.out name c hc, h.apart⟩
    | some a =>
      rw [ha, Option.toList_some] at hout
      rw [step_ask_of_some ha] at hout ⊢
      refine h.gain hr (fun c hc he => ?_) hout
      -- Whoever is outstanding was admitted by an earlier step.
      have hlt := h.reached.number_lt c hc
      rw [he, number_of_admission ha] at hlt
      exact Nat.lt_irrefl _ hlt
  | finish name outcome => exact hends name outcome
  | drop name => exact hends name (.panicked "")
  | control how => exact ⟨h.reached.step (.control how), h.out, h.apart⟩
  | advance d => exact ⟨h.reached.step (.advance d), h.out, h.apart⟩

/-- Any moves keep the names standing for calls of the run. -/
theorem Sound.play (h : x.Sound b.settings) (classify : Classifier α ε) (moves : List (Move α ε)) :
    (x.play b classify moves).Sound b.settings :=
  List.foldlRecOn moves _ h fun _ hx m _ => hx.step classify m

/-! ## What any moves leave -/

/-- Moves are made one after another. -/
theorem play_append (b : Breaker) (classify : Classifier α ε) (x : Roster)
    (moves more : List (Move α ε)) :
    x.play b classify (moves ++ more) = (x.play b classify moves).play b classify more :=
  List.foldl_append

/-- Moves add to the records of the run. -/
theorem past_step (b : Breaker) (classify : Classifier α ε) (x : Roster) (m : Move α ε) :
    x.run.past <:+ (x.step b classify m).run.past := by
  unfold step
  cases x.deed classify m with
  | none => exact List.suffix_refl _
  | some deed => exact Run.past_suffix_step b.settings x.run deed

/-- Moves only add to the history. -/
theorem past_play (b : Breaker) (classify : Classifier α ε) (x : Roster) (moves : List (Move α ε)) :
    x.run.past <:+ (x.play b classify moves).run.past :=
  List.foldlRecOn (motive := fun y : Roster => x.run.past <:+ y.run.past) moves _ (List.suffix_refl _)
    fun _ hy m _ => hy.trans (past_step b classify _ m)

/-- What others do in one move leaves the call of a name in flight. -/
theorem calls_step_of_ne {m : Move α ε} (h : m.name? ≠ some name) :
    (x.step b classify m).calls name = x.calls name := by
  cases m with
  | ask other =>
    have hne : name ≠ other := fun he => h (congrArg some he.symm)
    show (x.admission b).elim x.calls _ name = _
    cases x.admission b with
    | none => rfl
    | some a => exact Function.update_of_ne hne _ _
  | finish other outcome => exact Function.update_of_ne (fun he => h (congrArg some he.symm)) _ _
  | drop other => exact Function.update_of_ne (fun he => h (congrArg some he.symm)) _ _
  | control how => rfl
  | advance d => rfl

/-- What others do leaves the call of a name in flight. -/
theorem calls_play_of_ne {moves : List (Move α ε)} (h : ∀ m ∈ moves, m.name? ≠ some name) :
    (x.play b classify moves).calls name = x.calls name := by
  induction moves generalizing x with
  | nil => rfl
  | cons m rest ih =>
    exact (ih fun m' hm' => h m' (List.mem_cons_of_mem _ hm')).trans
      (calls_step_of_ne (h m List.mem_cons_self))

/-- A move begins no more generations than its kind can. -/
theorem bumps_step_le (b : Breaker) (classify : Classifier α ε) (x : Roster) (m : Move α ε) :
    (x.step b classify m).run.bumps ≤ x.run.bumps + m.maxBumps := by
  have hends (name : Nat) (outcome : Outcome α ε) :
      (x.step b classify (.finish name outcome)).run.bumps ≤ x.run.bumps + 1 := by
    cases ha : x.calls name with
    | none =>
      rw [step_finish_of_none ha]
      exact Nat.le_succ _
    | some a =>
      rw [step_finish_of_some ha]
      cases outcome <;> exact Run.bumps_step_le b.settings x.run _
  cases m with
  | ask name => exact Run.bumps_step_le b.settings x.run .acquire
  | finish name outcome => exact hends name outcome
  | drop name => exact hends name (.panicked "")
  | control how => exact Run.bumps_step_le b.settings x.run (.control how)
  | advance d => exact Run.bumps_step_le b.settings x.run (.advance d)

/-- Moves begin no more generations than they can. -/
theorem bumps_play_le (b : Breaker) (classify : Classifier α ε) (x : Roster)
    (moves : List (Move α ε)) :
    (x.play b classify moves).run.bumps ≤ x.run.bumps + (moves.map Move.maxBumps).sum := by
  induction moves generalizing x with
  | nil => exact Nat.le_refl _
  | cons m rest ih =>
    have hstep := bumps_step_le b classify x m
    have hrest := ih (x.step b classify m)
    rw [List.map_cons, List.sum_cons]
    show ((x.step b classify m).play b classify rest).run.bumps ≤ _
    omega

end Roster

/-! ## Every run has a roster -/

/-- Every outstanding call of a run under its own number. -/
def Run.roster (r : Run) : Roster where
  run := r
  calls name := r.outstanding.find? (·.number = name)

section

variable {settings : Settings} {r : Run}

/-- No two outstanding calls have the same number. -/
theorem Reachable.nodup_numbers (hr : Reachable settings r) :
    (r.outstanding.map (·.number)).Nodup := by
  induction hr with
  | fresh now => exact List.nodup_nil
  | @step r hr deed ih =>
    -- Only an admission adds a number, and those who end or are dropped take theirs with them.
    have hfewer (a : Admission) : ((r.outstanding.erase a).map (·.number)).Nodup :=
      (List.erase_sublist.map _).nodup ih
    by_cases h : r.Allows deed
    swap
    · rw [Run.step_of_not_allows h]
      exact ih
    cases deed with
    | acquire =>
      rw [Run.outstanding_acquire]
      cases (r.circuit.acquire settings r.now).1 with
      | none => simpa using ih
      | some p =>
        -- The new number is the number of steps, and the older ones are below it.
        simp only [Option.map_some, Option.toList_some, List.map_append, List.map_singleton]
        refine ih.append (List.nodup_singleton _) (List.disjoint_singleton.mpr fun hmem => ?_)
        obtain ⟨a, ha, he⟩ := List.mem_map.mp hmem
        exact Nat.ne_of_lt (hr.number_lt a ha) he
    | complete a failed =>
      rw [Run.outstanding_complete h]
      exact hfewer a
    | abandon a =>
      rw [Run.outstanding_abandon h]
      exact hfewer a
    | control how => exact ih
    | advance d => exact ih

/-- In the roster of a run a call has its own number as its name, and is outstanding. -/
theorem calls_roster {name : Nat} {a : Admission} (h : r.roster.calls name = some a) :
    a.number = name ∧ a ∈ r.outstanding := by
  replace h : r.outstanding.find? (·.number = name) = some a := h
  exact ⟨by simpa using List.find?_some h, List.mem_of_find?_eq_some h⟩

/-- In every reachable run every outstanding call can have a name. -/
theorem Reachable.roster_spec (hr : Reachable settings r) :
    r.roster.Sound settings ∧ ∀ a ∈ r.outstanding, r.roster.calls a.number = some a := by
  refine ⟨⟨hr, fun name a h => (calls_roster h).2, fun name other a hn ho => ?_⟩, fun a ha => ?_⟩
  · exact (calls_roster hn).1.symm.trans (calls_roster ho).1
  · cases h : r.roster.calls a.number with
    | none => exact absurd (decide_eq_true rfl) (List.find?_eq_none.mp h a ha)
    | some c =>
      obtain ⟨hnumber, hc⟩ := calls_roster h
      rw [List.inj_on_of_nodup_map hr.nodup_numbers hc ha hnumber]

end

end GuardedHttp.Breaker
