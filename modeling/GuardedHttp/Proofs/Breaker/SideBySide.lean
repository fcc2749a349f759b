import GuardedHttp.Proofs.Breaker.Roster

/-!
# Two rosters side by side

`Alike` relates two rosters whose circuits differ in nothing but the generations that came before, and of
which the first one may have calls that the second one does not know, the odd ones. Main statement:
`Alike.play`, the two remain alike, and see the same events, whatever moves they both play, as long as no
odd call ends in its own period. Callers who hold the same get the same answers (`Alike.reply_eq`).

A step of one run is matched by a step of the other that differs in its permit only (`Deed.Matches`), and
that the circuit does the same with both is what the lemmas on `Circuit.shift` say. The end of an odd
call has no match: it is none of the circuit's business, and the second roster waits.
-/

namespace GuardedHttp.Breaker

open Circuit (Control shiftPermit)

variable {α ε : Type}

/-! ## Runs -/

/-- The two steps are the same, but for the generations that came before. -/
inductive Deed.Matches (k : UInt64) : Deed → Deed → Prop
  /-- Both ask. -/
  | acquire : Matches k .acquire .acquire
  /-- A call ends for both. -/
  | complete {a c : Admission} (h : a.permit = shiftPermit k c.permit) (failed : Bool) :
      Matches k (.complete a failed) (.complete c failed)
  /-- A call is dropped for both. -/
  | abandon {a c : Admission} (h : a.permit = shiftPermit k c.permit) :
      Matches k (.abandon a) (.abandon c)
  /-- Both are controlled by hand. -/
  | control (how : Control) : Matches k (.control how) (.control how)
  /-- Time passes for both. -/
  | advance (d : Duration) : Matches k (.advance d) (.advance d)

/-- The time after a step. -/
def Deed.clock (now : Instant) : Deed → Instant
  | .advance d => now.after d
  | .acquire | .complete .. | .abandon _ | .control _ => now

/-- Only passing time moves the clock. -/
theorem Run.now_step (settings : Settings) (r : Run) (deed : Deed) (h : r.Allows deed) :
    (r.step settings deed).now = deed.clock r.now := by
  cases deed with
  | complete | abandon => simp only [step, if_pos (show _ ∈ r.outstanding from h), note, Deed.clock]
  | acquire | control | advance => rfl

/-- Two runs show the same time and, but for the generations that came before, the same circuit. -/
structure Run.Alike (k : UInt64) (r q : Run) : Prop where
  /-- The time. -/
  now : r.now = q.now
  /-- The circuit. -/
  circuit : r.circuit = q.circuit.shift k

namespace Run.Alike

variable {k : UInt64} {r q : Run} {d e : Deed}

/-- The same step has the same effect on runs that are alike. -/
theorem effect (settings : Settings) (h : r.Alike k q) (hd : d.Matches k e) :
    r.effect settings d = (q.effect settings e).shift k := by
  cases hd with
  | acquire => simp only [Run.effect, h.now, h.circuit, Circuit.acquire_shift]
  | complete hp failed => simp only [Run.effect, h.now, h.circuit, hp, Circuit.complete_shift]
  | abandon hp => simp only [Run.effect, h.circuit, hp, Circuit.release_shift, Circuit.Step.shift]
  | control how => simp only [Run.effect, h.now, h.circuit, Circuit.control_shift]
  | advance d => simp only [Run.effect, h.circuit, Circuit.Step.shift]

/-- The same step leads to runs that are alike, and has the same events. -/
theorem step (settings : Settings) (h : r.Alike k q) (hd : d.Matches k e) (hr : r.Allows d)
    (hq : q.Allows e) : (r.step settings d).Alike k (q.step settings e) ∧
      ∃ events, (r.step settings d).events = r.events ++ events ∧
        (q.step settings e).events = q.events ++ events := by
  have heffect := h.effect settings hd
  refine ⟨⟨?_, ?_⟩, (q.effect settings e).2, ?_, events_step settings hq⟩
  · rw [now_step settings r d hr, now_step settings q e hq, h.now]
    cases hd <;> rfl
  · rw [circuit_step settings hr, circuit_step settings hq, heffect]
    rfl
  · rw [events_step settings hr, heffect]
    rfl

end Run.Alike

/-! ## Rosters -/

namespace Roster

/-- Two callers hold the same permit, but for the generations that came before, or both hold none. -/
def Agree (k : UInt64) (a c : Option Admission) : Prop :=
  a.map (·.permit) = c.map (shiftPermit k ·.permit)

/-- Only who holds nothing agrees with nothing. -/
theorem agree_none {k : UInt64} {c : Option Admission} : Agree k none c ↔ c = none := by
  cases c <;> simp [Agree]

/-- Who agrees with a call has one whose permit corresponds. -/
theorem agree_some {k : UInt64} {a : Admission} {c : Option Admission} :
    Agree k (some a) c ↔ ∃ d, c = some d ∧ a.permit = shiftPermit k d.permit := by
  cases c <;> simp [Agree]

/-- The callers of a name hold the same, or the first one has an odd call and the second one none. -/
def Shares (k : UInt64) (odd : Nat → Admission → Prop) (name : Nat) (a c : Option Admission) : Prop :=
  Agree k a c ∨ c = none ∧ ∃ d, a = some d ∧ odd name d

/-- Two rosters are alike, but for odd calls that only the first one knows. -/
structure Alike (settings : Settings) (k : UInt64) (odd : Nat → Admission → Prop) (x y : Roster) :
    Prop where
  /-- The names of the first one stand for calls of its run. -/
  left : x.Sound settings
  /-- The names of the second one stand for calls of its run. -/
  right : y.Sound settings
  /-- The runs show the same. -/
  run : x.run.Alike k y.run
  /-- The callers hold the same, but for the odd calls. -/
  calls : ∀ name, Shares k odd name (x.calls name) (y.calls name)

/-- A move that ends an odd call does so when its permit is of an older generation. -/
def Harmless (odd : Nat → Admission → Prop) (x : Roster) (m : Move α ε) : Prop :=
  ∀ name a, m.ends = some name → x.calls name = some a → odd name a →
    a.permit.generation ≠ x.run.circuit.generation

/-- Two rosters have gone on with the same events, and are alike. -/
def Together (settings : Settings) (k : UInt64) (odd : Nat → Admission → Prop)
    (x y later other : Roster) : Prop :=
  later.Alike settings k odd other ∧
    ∃ events, later.run.events = x.run.events ++ events ∧ other.run.events = y.run.events ++ events

section

variable {settings : Settings} {b : Breaker} {classify : Classifier α ε} {k : UInt64}
  {odd : Nat → Admission → Prop} {x y x₁ y₁ x₂ y₂ : Roster} {m : Move α ε} {name : Nat}
  {a c : Admission} {outcome : Outcome α ε}

/-- Rosters that are alike are so before anything happens. -/
theorem Alike.together (h : x.Alike settings k odd y) : Together settings k odd x y x y :=
  ⟨h, [], by simp⟩

/-- Rosters that have gone on together can go on together. -/
theorem Together.trans (h : Together settings k odd x y x₁ y₁)
    (hrest : Together settings k odd x₁ y₁ x₂ y₂) : Together settings k odd x y x₂ y₂ := by
  obtain ⟨-, first, hx, hy⟩ := h
  obtain ⟨halike, rest, hx', hy'⟩ := hrest
  exact ⟨halike, first ++ rest, by rw [hx', hx, List.append_assoc], by rw [hy', hy, List.append_assoc]⟩

/-- Calls whose permits correspond end in the same step. -/
theorem matches_deed (h : a.permit = shiftPermit k c.permit) :
    (outcome.deed classify a).Matches k (outcome.deed classify c) := by
  cases outcome with
  | returned result => exact .complete h _
  | panicked message => exact .abandon h

/-- The end of a call with a permit of another generation is no step of the circuit. -/
theorem effect_deed_of_ne {r : Run} (h : a.permit.generation ≠ r.circuit.generation) :
    r.effect settings (outcome.deed classify a) = (r.circuit, []) := by
  cases outcome with
  | returned result => exact Circuit.complete_of_ne h
  | panicked message => exact Prod.ext (Circuit.release_of_ne h) rfl

/-- Rosters that are alike admit the same caller. -/
theorem Alike.admission (h : x.Alike b.settings k odd y) :
    Agree k (x.admission b) (y.admission b) := by
  unfold Roster.admission Agree
  rw [h.run.now, h.run.circuit, Circuit.acquire_shift]
  cases (y.run.circuit.acquire b.settings y.run.now).1 <;> rfl

/-- Calls are alike after the same has become of both calls of a name. -/
theorem Alike.calls_update (h : x.Alike settings k odd y) (name : Nat) {a c : Option Admission}
    (hac : Agree k a c) (other : Nat) :
    Shares k odd other (Function.update x.calls name a other) (Function.update y.calls name c other) := by
  by_cases hn : other = name
  · subst hn
    rw [Function.update_self, Function.update_self]
    exact .inl hac
  · rw [Function.update_of_ne hn, Function.update_of_ne hn]
    exact h.calls other

/-- Two rosters go on together with the same step. -/
theorem Alike.both (h : x.Alike b.settings k odd y) {d e : Deed} (hd : d.Matches k e)
    (hx : x.run.Allows d) (hy : y.run.Allows e)
    (hrun : (x.step b classify m).run = x.run.step b.settings d ∧
      (y.step b classify m).run = y.run.step b.settings e)
    (hcalls : ∀ name, Shares k odd name ((x.step b classify m).calls name)
      ((y.step b classify m).calls name)) :
    Together b.settings k odd x y (x.step b classify m) (y.step b classify m) := by
  obtain ⟨halike, hevents⟩ := h.run.step b.settings hd hx hy
  rw [← hrun.1, ← hrun.2] at halike hevents
  exact ⟨⟨h.left.step classify m, h.right.step classify m, halike, hcalls⟩, hevents⟩

/-- Two rosters go on together when a call ends. -/
theorem Alike.finish (h : x.Alike b.settings k odd y)
    (hm : Harmless odd x (.finish name outcome : Move α ε)) :
    Together b.settings k odd x y (x.step b classify (.finish name outcome))
      (y.step b classify (.finish name outcome)) := by
  have hlost := h.calls_update name (agree_none.mpr rfl)
  rcases h.calls name with hagree | ⟨hy, a, hx, hodd⟩
  · cases hx : x.calls name with
    | none =>
      rw [hx, agree_none] at hagree
      rw [step_finish_of_none hx, step_finish_of_none hagree]
      exact h.together
    | some a =>
      rw [hx, agree_some] at hagree
      obtain ⟨c, hy, hp⟩ := hagree
      have hd : (outcome.deed classify a).Matches k (outcome.deed classify c) := matches_deed hp
      refine h.both hd (allows_deed (h.left.out _ _ hx)) (allows_deed (h.right.out _ _ hy))
        ⟨?_, ?_⟩ ?_ <;> simp only [step_finish_of_some hx, step_finish_of_some hy]
      exact hlost
  -- An odd call ends for the first roster only, and too late to be noticed.
  · have ha := h.left.out _ _ hx
    have hallows : x.run.Allows (outcome.deed classify a) := allows_deed ha
    have heffect : x.run.effect b.settings (outcome.deed classify a) = (x.run.circuit, []) :=
      effect_deed_of_ne (hm name a rfl hx hodd)
    have hnow := Run.now_step b.settings x.run _ hallows
    have hcircuit := Run.circuit_step b.settings hallows
    have hevents := Run.events_step b.settings hallows
    have hsound := h.left.step classify (.finish name outcome)
    rw [heffect] at hcircuit hevents
    rw [step_finish_of_some hx] at hsound ⊢
    rw [step_finish_of_none hy]
    rw [update_of_none hy] at hlost
    refine ⟨⟨hsound, h.right, ⟨?_, hcircuit.trans h.run.circuit⟩, hlost⟩, [], hevents, by simp⟩
    rw [hnow, ← h.run.now]
    cases outcome <;> rfl

/-- Two rosters go on together when a call asks. -/
theorem Alike.ask (h : x.Alike b.settings k odd y) :
    Together b.settings k odd x y (x.step b classify (.ask name))
      (y.step b classify (.ask name)) := by
  have hagree := h.admission
  refine h.both .acquire trivial trivial ⟨rfl, rfl⟩ ?_
  cases hx : x.admission b with
  | none =>
    rw [hx, agree_none] at hagree
    rw [step_ask_of_none hx, step_ask_of_none hagree]
    exact h.calls
  | some a =>
    rw [hx, agree_some] at hagree
    obtain ⟨c, hy, hp⟩ := hagree
    rw [step_ask_of_some hx, step_ask_of_some hy]
    exact h.calls_update name (agree_some.mpr ⟨c, rfl, hp⟩)

/-- Two rosters go on together with the same move. -/
theorem Alike.step (h : x.Alike b.settings k odd y) (hm : Harmless odd x m) :
    Together b.settings k odd x y (x.step b classify m) (y.step b classify m) := by
  cases m with
  | ask name => exact h.ask
  | finish name outcome => exact h.finish hm
  | drop name =>
    rw [step_drop, step_drop]
    exact h.finish hm
  | control how => exact h.both (.control how) trivial trivial ⟨rfl, rfl⟩ h.calls
  | advance d => exact h.both (.advance d) trivial trivial ⟨rfl, rfl⟩ h.calls

/-- Two rosters go on together with the same moves, as long as no odd call ends in its own period. -/
theorem Alike.play (h : x.Alike b.settings k odd y) {moves : List (Move α ε)}
    (hm : ∀ done m rest, moves = done ++ m :: rest → Harmless odd (x.play b classify done) m) :
    Together b.settings k odd x y (x.play b classify moves) (y.play b classify moves) := by
  -- The moves that are left are harmless at the places that they have in the whole list.
  induction moves generalizing x y with
  | nil => exact h.together
  | cons m rest ih =>
    have hstep : Together b.settings k odd x y (x.step b classify m) (y.step b classify m) :=
      h.step (hm [] m rest rfl)
    refine hstep.trans (ih hstep.1 fun done m' rest' he => ?_)
    exact hm (m :: done) m' rest' (by rw [he, List.cons_append])

/-- Callers who hold the same get the same answer. -/
theorem Alike.reply_eq (h : x.Alike b.settings k odd y)
    (hm : ∀ name, m.ends = some name → Agree k (x.calls name) (y.calls name)) :
    x.reply b classify m = y.reply b classify m := by
  have hheld {name : Nat} (hname : m.ends = some name) :
      x.calls name = none ∧ y.calls name = none ∨
        ∃ a c, x.calls name = some a ∧ y.calls name = some c := by
    have hagree := hm name hname
    cases hx : x.calls name with
    | none =>
      rw [hx, agree_none] at hagree
      exact .inl ⟨rfl, hagree⟩
    | some a =>
      rw [hx, agree_some] at hagree
      obtain ⟨c, hc, -⟩ := hagree
      exact .inr ⟨a, c, rfl, hc⟩
  cases m with
  | ask name =>
    unfold reply
    rw [start_fst, start_fst, h.run.now, h.run.circuit, Circuit.acquire_shift, Option.isSome_map]
  | finish name outcome =>
    rcases hheld rfl with ⟨hx, hy⟩ | ⟨a, c, hx, hy⟩ <;> simp only [reply, hx, hy, Option.elim]
    -- What a caller gets is up to its own call.
    cases outcome <;> simp only [Breaker.finish]
  | drop name =>
    rcases hheld rfl with ⟨hx, hy⟩ | ⟨a, c, hx, hy⟩ <;> simp [reply, hx, hy]
  | control how => rfl
  | advance d => rfl

end

end Roster

end GuardedHttp.Breaker
