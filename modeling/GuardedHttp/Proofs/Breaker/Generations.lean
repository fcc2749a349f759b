import GuardedHttp.Proofs.Breaker.Run
import GuardedHttp.Proofs.Breaker.Steps

/-!
# Generations tell the age of a permit

A circuit never remembers which calls it admitted. It only compares the generation of a permit with
its own, which starts anew with each change of state, each reset and each forced opening. As long as
fewer than `2 ^ 64` generations have begun, no generation comes back, and the comparison says exactly
whether the call was admitted after the latest of these steps (`Run.Dated`, `Reachable.dated`).

`Run.follows_step` says what every step does to the generation, the timer and the outstanding calls;
what holds of generations is derived from it alone.
-/

namespace GuardedHttp.Breaker

open Circuit (AcquireCase CompleteCase ReleaseCase ControlCase)

variable {settings : Settings}

/-- How many generations a step can begin at most. -/
def Deed.maxBumps : Deed → Nat
  | acquire | complete .. | abandon _ => 1
  | control _ => 2
  | advance _ => 0

/-- What a step that is recorded as `e` does, whatever was done. -/
structure Run.Follows (r r' : Run) (e : Record) : Prop where
  /-- The record is the newest one. -/
  past : r'.past = e :: r.past
  /-- It holds the time of the step. -/
  time : e.time = r.now
  /-- It holds the state before. -/
  source : e.source = r.circuit.state
  /-- It holds the state afterwards. -/
  target : e.target = r'.circuit.state
  /-- The clock does not go back. -/
  clock : r.now ≤ r'.now
  /-- The generation has gone up by the new ones, and wraps. -/
  generation : r'.circuit.generation = r.circuit.generation + UInt64.ofNat e.bumps
  /-- Whoever holds a permit held it before, or has just been admitted. -/
  held : ∀ a ∈ r'.outstanding, a ∈ r.outstanding ∨
    a.number = r.past.length ∧ a.permit.generation = r'.circuit.generation
  /-- A step within a period begins no generation and leaves the timer. -/
  continues : e.breaks = false → e.bumps = 0 ∧ r'.circuit.changedAt = r.circuit.changedAt
  /-- A step that ends a period begins a generation and starts the timer. -/
  ends : e.breaks = true → 0 < e.bumps ∧ r'.circuit.changedAt = r.now

namespace Run

/-- The part of `Follows` that concerns the circuit alone. -/
structure Renews (deed : Deed) (now : Instant) (c : Circuit) (s : Circuit.Step) : Prop where
  /-- The generation has gone up by the new ones, and wraps. -/
  generation : s.1.generation = c.generation + UInt64.ofNat (Record.of deed now c s).bumps
  /-- A step within a period begins no generation and leaves the timer. -/
  continues : (Record.of deed now c s).breaks = false →
    (Record.of deed now c s).bumps = 0 ∧ s.1.changedAt = c.changedAt
  /-- A step that ends a period begins a generation and starts the timer. -/
  ends : (Record.of deed now c s).breaks = true →
    0 < (Record.of deed now c s).bumps ∧ s.1.changedAt = now

variable {now : Instant} {c : Circuit} {s : Circuit.Step}

/-- Only counts change: that is a step within a period. -/
theorem Renews.of_same {deed : Deed} (hr : deed ≠ .control .reset)
    (ho : deed ≠ .control .forceOpen) (hs : s.1.state = c.state)
    (hg : s.1.generation = c.generation) (ht : s.1.changedAt = c.changedAt) :
    Renews deed now c s := by
  constructor <;> simp [Record.of, Record.bumps, Record.breaks, hr, ho, hs, hg, ht]

/-- Entering another state by anything but a control begins one generation. -/
theorem Renews.of_enter {deed : Deed} (hd : ∀ how, deed ≠ .control how)
    (hs : c.state ≠ s.1.state) (hg : s.1.generation = c.generation + 1)
    (ht : s.1.changedAt = now) : Renews deed now c s := by
  constructor <;> simp [Record.of, Record.bumps, Record.breaks, hd, hs, hg, ht]

/-- Asking for a permit begins a generation if it lets the first trial pass. -/
theorem renews_acquire : Renews .acquire now c (c.acquire settings now).2 := by
  cases c.acquire_case settings now with
  | passes _ e | joins _ _ e | early _ _ e | full _ _ e =>
    rw [e]
    exact .of_same (by simp) (by simp) rfl rfl rfl
  | probes hs _ e =>
    rw [e]
    exact .of_enter (by simp) (by simp [Circuit.enter, hs]) rfl rfl

/-- The end of a call begins a generation if it changes the state. -/
theorem renews_complete {a : Admission} {failed : Bool} :
    Renews (.complete a failed) now c (c.complete settings now a.permit failed) := by
  cases c.complete_case settings now a.permit failed with
  | stale _ e | succeeds _ _ _ e | trialSucceeds _ _ _ _ e | fails _ _ _ _ e =>
    rw [e]
    exact .of_same (by simp) (by simp) rfl rfl rfl
  | closes _ _ hs _ e | trips _ _ hs _ e | reopens _ _ hs e =>
    rw [e]
    exact .of_enter (by simp) (by simp [Circuit.enter, hs]) rfl rfl
  | whileOpen _ _ e =>
    rw [e]
    cases failed <;> exact .of_same (by simp) (by simp) rfl rfl rfl

/-- A call that is abandoned begins no generation. -/
theorem renews_release {a : Admission} :
    Renews (.abandon a) now c (c.release a.permit, []) := by
  cases c.release_case a.permit with
  | frees _ _ e | idle _ e =>
    rw [e]
    exact .of_same (by simp) (by simp) rfl rfl rfl

/-- A control begins a generation if it changes the state, resets or opens by force. -/
theorem renews_control {how : Circuit.Control} :
    Renews (.control how) now c (c.control now how) := by
  cases c.control_case now how with
  | opens hc hs e | closes hc hs e | resets hc hs e =>
    rw [e, hc]
    constructor <;>
      simp [Record.of, Record.bumps, Record.breaks, Circuit.enter, hs, UInt64.add_assoc]
  | staysOpen hc hs e | staysClosed hc hs e | renews hc hs e =>
    rw [e, hc]
    constructor <;> simp [Record.of, Record.bumps, Record.breaks, hs]

/-- A step of the circuit within a run: the rest of `Follows` is about the clock and the calls. -/
theorem Renews.follows {r r' : Run} {deed : Deed} (h : Renews deed r.now r.circuit s)
    (hc : r'.circuit = s.1) (hp : r'.past = .of deed r.now r.circuit s :: r.past)
    (hn : r.now ≤ r'.now)
    (hh : ∀ a ∈ r'.outstanding, a ∈ r.outstanding ∨
      a.number = r.past.length ∧ a.permit.generation = r'.circuit.generation) :
    r.Follows r' (.of deed r.now r.circuit s) where
  past := hp
  time := rfl
  source := rfl
  target := by rw [hc]; rfl
  clock := hn
  generation := by rw [hc]; exact h.generation
  held := hh
  continues := by rw [hc]; exact h.continues
  ends := by rw [hc]; exact h.ends

/-- A step that cannot be done does nothing. -/
theorem step_of_not_allows {r : Run} {deed : Deed} (h : ¬ r.Allows deed) :
    r.step settings deed = r := by
  cases deed with
  | complete | abandon => exact if_neg h
  | acquire | control | advance => exact absurd trivial h

/-- A step that can be done is recorded and does what `Follows` says. -/
theorem follows_step (settings : Settings) {r : Run} {deed : Deed} (h : r.Allows deed) :
    ∃ e, e.deed = deed ∧ r.Follows (r.step settings deed) e := by
  have now_le : r.now ≤ r.now := Nat.le_refl _
  cases deed with
  | acquire =>
    refine ⟨_, rfl, renews_acquire.follows rfl rfl now_le ?_⟩
    intro a ha
    rcases List.mem_append.mp ha with ha | ha
    · exact .inl ha
    -- Whoever is new holds the permit that the circuit has just given.
    · rw [Option.mem_toList, Option.map_eq_some_iff] at ha
      obtain ⟨p, hp, rfl⟩ := ha
      exact .inr ⟨rfl, Circuit.generation_of_acquire hp⟩
  | complete a failed =>
    simp only [step, if_pos (show a ∈ r.outstanding from h)]
    exact ⟨_, rfl, renews_complete.follows rfl rfl now_le
      fun b hb => .inl (List.mem_of_mem_erase hb)⟩
  | abandon a =>
    simp only [step, if_pos (show a ∈ r.outstanding from h)]
    exact ⟨_, rfl, renews_release.follows rfl rfl now_le
      fun b hb => .inl (List.mem_of_mem_erase hb)⟩
  | control how => exact ⟨_, rfl, renews_control.follows rfl rfl now_le fun _ => .inl⟩
  | advance d =>
    have h : Renews (.advance d) r.now r.circuit (r.circuit, []) :=
      .of_same (by simp) (by simp) rfl rfl rfl
    exact ⟨_, rfl, h.follows rfl rfl (Nat.le_add_right _ _) fun _ => .inl⟩

/-- The record of a step that can be done is made of its effect. -/
theorem follows_effect (settings : Settings) {r : Run} {deed : Deed} (h : r.Allows deed) :
    r.Follows (r.step settings deed) (.of deed r.now r.circuit (r.effect settings deed)) := by
  obtain ⟨e, -, hf⟩ := follows_step settings h
  have hpast := hf.past
  rw [past_step settings h, List.cons.injEq] at hpast
  rw [hpast.1]
  exact hf

/-! ## Counting generations -/

/-- A step adds its new generations to those that have begun. -/
theorem bumps_eq {r r' : Run} {e : Record} (h : r.Follows r' e) :
    r'.bumps = e.bumps + r.bumps := by
  unfold bumps
  rw [h.past, List.map_cons, List.sum_cons]

/-- A step adds at most one record. -/
theorem past_suffix_step (settings : Settings) (r : Run) (deed : Deed) :
    r.past <:+ (r.step settings deed).past := by
  by_cases h : r.Allows deed
  · rw [past_step settings h]
    exact List.suffix_cons _ _
  · rw [step_of_not_allows h]

/-- With more records no fewer generations have begun. -/
theorem bumps_mono {r later : Run} (h : r.past <:+ later.past) : r.bumps ≤ later.bumps := by
  obtain ⟨newer, hnewer⟩ := h
  unfold bumps
  rw [← hnewer, List.map_append, List.sum_append]
  exact Nat.le_add_left _ _

/-- No step takes a generation back. -/
theorem bumps_le_step (settings : Settings) (r : Run) (deed : Deed) :
    r.bumps ≤ (r.step settings deed).bumps :=
  bumps_mono (past_suffix_step settings r deed)

/-- A step begins no more generations than its kind can. -/
theorem bumps_step_le (settings : Settings) (r : Run) (deed : Deed) :
    (r.step settings deed).bumps ≤ r.bumps + deed.maxBumps := by
  by_cases h : r.Allows deed
  swap
  · rw [step_of_not_allows h]
    exact Nat.le_add_right _ _
  have hone (p : Prop) [Decidable p] : (if p then 1 else 0) ≤ 1 := by split <;> omega
  rw [bumps_eq (follows_effect settings h), Nat.add_comm]
  refine Nat.add_le_add_left ?_ _
  cases deed with
  | acquire | complete | abandon =>
    exact Nat.add_le_add (hone _) (Nat.le_of_eq (if_neg (by simp [Record.of])))
  | control how => exact Nat.add_le_add (hone _) (hone _)
  | advance d => simp [Record.bumps, Record.of, effect, Deed.maxBumps]

end Run

/-- The latest record is one of them. -/
theorem latest_le_length (property : Record → Bool) (past : List Record) :
    latest property past ≤ past.length := by
  induction past with
  | nil => exact Nat.le_refl _
  | cons e older ih =>
    unfold latest
    split
    · exact Nat.le_succ _
    · exact Nat.le_succ_of_le ih

/-- More records put the latest one later. -/
theorem latest_mono (property : Record → Bool) {older past : List Record} (h : older <:+ past) :
    latest property older ≤ latest property past := by
  obtain ⟨newer, rfl⟩ := h
  induction newer with
  | nil => exact Nat.le_refl _
  | cons e rest ih =>
    rw [List.cons_append, latest]
    split
    · exact Nat.le_trans ih (latest_le_length _ _)
    · exact ih

/-- What holds of a new breaker and is kept by every step that can be done holds of every reachable
run, as long as fewer than `2 ^ 64` generations have begun. -/
theorem Reachable.induction {P : Run → Prop} (fresh : ∀ now, P (.fresh now))
    (step : ∀ r deed, Reachable settings r → r.Allows deed →
      (r.step settings deed).bumps < 2 ^ 64 → P r → P (r.step settings deed))
    {r : Run} (hr : Reachable settings r) (hb : r.bumps < 2 ^ 64) : P r := by
  induction hr with
  | fresh now => exact fresh now
  | @step r hr deed ih =>
    -- Generations only ever begin, so that the bound holds of the run before, too.
    have hle := Run.bumps_le_step settings r deed
    by_cases ha : r.Allows deed
    · exact step r deed hr ha hb (ih (Nat.lt_of_le_of_lt hle hb))
    · rw [Run.step_of_not_allows ha] at hb ⊢
      exact ih hb

/-- An outstanding call was admitted by an earlier step. -/
theorem Reachable.number_lt {r : Run} (hr : Reachable settings r) :
    ∀ a ∈ r.outstanding, a.number < r.past.length := by
  induction hr with
  | fresh now => exact fun a ha => absurd ha List.not_mem_nil
  | @step r _ deed ih =>
    by_cases h : r.Allows deed
    · obtain ⟨e, -, hf⟩ := Run.follows_step settings h
      intro a ha
      rw [hf.past, List.length_cons]
      rcases hf.held a ha with ha | ⟨hn, -⟩
      · exact Nat.lt_succ_of_lt (ih a ha)
      · exact Nat.lt_succ_of_le (Nat.le_of_eq hn)
    · rw [Run.step_of_not_allows h]
      exact ih

/-! ## Permits and periods -/

/-- The generation of a permit tells whether its call was admitted in the current period. -/
structure Run.Dated (r : Run) : Prop where
  /-- The circuit has the generation that its history gives. -/
  generation : r.circuit.generation.toNat = r.bumps
  /-- An outstanding call was admitted by an earlier step. -/
  number_lt : ∀ a ∈ r.outstanding, a.number < r.past.length
  /-- No permit is of a generation to come. -/
  generation_le : ∀ a ∈ r.outstanding, a.permit.generation.toNat ≤ r.bumps
  /-- A permit is of the current generation exactly if its call was admitted in the current period. -/
  current_iff : ∀ a ∈ r.outstanding,
    a.permit.generation = r.circuit.generation ↔ r.Current a

/-- In a new run there is one period and no call. -/
theorem Run.dated_fresh (now : Instant) : (Run.fresh now).Dated := by
  constructor <;> simp [Run.fresh, Run.bumps, Circuit.new]

namespace Run.Follows

variable {r r' : Run} {e : Record}

/-- Below the bound the generation of the circuit counts how many have begun. -/
theorem generation_toNat (h : r.Follows r' e) (hr : r.circuit.generation.toNat = r.bumps)
    (hb : r'.bumps < 2 ^ 64) : r'.circuit.generation.toNat = r'.bumps := by
  rw [bumps_eq h] at hb ⊢
  -- Below the bound neither the new generations nor their sum with the old ones wrap.
  rw [h.generation, UInt64.toNat_add, hr, UInt64.toNat_ofNat', ← Nat.add_mod_mod]
  omega

/-- A change of state ends a period. -/
theorem breaks_of_state_ne (h : r.Follows r' e) (hs : r.circuit.state ≠ r'.circuit.state) :
    e.breaks = true := by
  simp [Record.breaks, h.source, h.target, hs]

/-- A forced opening ends a period. -/
theorem breaks_of_forceOpen (hd : e.deed = .control .forceOpen) : e.breaks = true := by
  simp [Record.breaks, hd]

/-- Within a period the same calls are current, and the call that is admitted is, too. -/
theorem current_of_continues (h : r.Follows r' e) (he : e.breaks = false) (a : Admission) :
    r'.Current a ↔ r.Current a := by
  unfold Current
  rw [h.past, latest, he, if_neg (by simp)]

/-- When a period ends, no call that was admitted before is current any more. -/
theorem current_of_ends (h : r.Follows r' e) (he : e.breaks = true) (a : Admission) :
    r'.Current a ↔ r.past.length ≤ a.number := by
  unfold Current
  rw [h.past, latest, if_pos he]

/-- Whoever was admitted by the step is current. -/
theorem current_new (h : r.Follows r' e) {a : Admission} (ha : a.number = r.past.length) :
    r'.Current a := by
  cases he : e.breaks with
  | false =>
    rw [h.current_of_continues he]
    unfold Current
    rw [ha]
    exact latest_le_length _ _
  | true =>
    exact (h.current_of_ends he a).mpr (Nat.le_of_eq ha.symm)

/-- No permit that was given before carries a generation that has just begun. -/
theorem generation_ne_of_ends (h : r.Follows r' e) (hr : r.Dated) (hb : r'.bumps < 2 ^ 64)
    (he : e.breaks = true) {a : Admission} (ha : a ∈ r.outstanding) :
    a.permit.generation ≠ r'.circuit.generation := by
  have hg := h.generation_toNat hr.generation hb
  have hbumps := bumps_eq h
  obtain ⟨hpos, -⟩ := h.ends he
  have hle := hr.generation_le a ha
  -- The new generation is above every permit that was given before.
  rw [ne_eq, ← UInt64.toNat_inj, hg]
  omega

/-- The generation tells the age of a permit after a step if it did so before. -/
theorem dated (h : r.Follows r' e) (hr : r.Dated) (hb : r'.bumps < 2 ^ 64) : r'.Dated := by
  have hg := h.generation_toNat hr.generation hb
  have hbumps := bumps_eq h
  refine ⟨hg, ?_, ?_, ?_⟩
  · intro a ha
    rw [h.past, List.length_cons]
    rcases h.held a ha with ha | ⟨hn, -⟩
    · exact Nat.lt_succ_of_lt (hr.number_lt a ha)
    · exact Nat.lt_succ_of_le (Nat.le_of_eq hn)
  · intro a ha
    rcases h.held a ha with ha | ⟨-, hp⟩
    · exact Nat.le_trans (hr.generation_le a ha) (by omega)
    · exact Nat.le_of_eq (by rw [hp, hg])
  · intro a ha
    rcases h.held a ha with ha | ⟨hn, hp⟩
    -- Within a period neither side moves; at its end both fail for every older call.
    · cases he : e.breaks with
      | false =>
        obtain ⟨hz, -⟩ := h.continues he
        have hsame : r'.circuit.generation = r.circuit.generation := by
          rw [← UInt64.toNat_inj, hg, hr.generation, hbumps, hz, Nat.zero_add]
        rw [h.current_of_continues he, hsame]
        exact hr.current_iff a ha
      | true =>
        have hlt := hr.number_lt a ha
        refine iff_of_false (h.generation_ne_of_ends hr hb he ha) ?_
        rw [h.current_of_ends he]
        exact Nat.not_le_of_lt hlt
    · exact iff_of_true hp (h.current_new hn)

end Run.Follows

/-- In every reachable run the generation of a permit tells whether its call is current. -/
theorem Reachable.dated {r : Run} (hr : Reachable settings r) (hb : r.bumps < 2 ^ 64) :
    r.Dated := by
  refine hr.induction Run.dated_fresh ?_ hb
  intro r deed _ ha hb ih
  obtain ⟨e, -, h⟩ := Run.follows_step settings ha
  exact h.dated ih hb

end GuardedHttp.Breaker
