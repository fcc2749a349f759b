import GuardedHttp.Proofs.Client.Books

/-!
# Metrics are conserved across the layers of a client

What a client, its retry policy and its breaker have counted can be balanced against the sends at any
moment, whatever is still under way: `Traffic.Balanced` is the balance of the counts that every send goes
into, `Traffic.Recorded` that of the breaker's successes and failures, which leave out the sends that end
after the period in which they were admitted. While sends do not overlap there are none
(`Traffic.Orderly`).

Main statement: `metrics_conserved`.
-/

namespace GuardedHttp.Client

open Breaker (Roster Run)
open Breaker.Circuit (Control)

namespace Traffic

variable {config : Config} {t : Traffic}

/-! ## The balance -/

/-- What a party remembers of its send agrees with where it is. -/
structure Regular (p : Party) : Prop where
  /-- A send that has begun is admitted, or it has been turned away. -/
  admitted : p.admitted = (p.send.stage.begun && !p.send.stage.turnedAway)
  /-- Only a send that has ended can be late. -/
  late : p.late = true → p.send.stage.ended = true

/-- All parties are regular. -/
def AllRegular (t : Traffic) : Prop :=
  ∀ (i : Nat) (p : Party), t.parties[i]? = some p → Regular p

/-- All parties are regular at the start. -/
theorem allRegular_start (now : Instant) (transport : Transport) (callers : List Caller) :
    (start now transport callers).AllRegular := by
  intro i p hp
  obtain ⟨c, -, rfl⟩ := List.mem_map.mp (List.mem_of_getElem? hp)
  exact ⟨rfl, fun h => by cases h⟩

/-- The turn of a party keeps all parties regular. -/
theorem AllRegular.reach (h : t.AllRegular) {i : Nat} {p : Party} {r : World × Stage}
    (hp : t.parties[i]? = some p) (hr : Pass config (t.world.inside p.send) p.send r) :
    (t.reach config i p r).AllRegular := by
  intro j q hq
  rcases parties_reach hq with ⟨-, rfl⟩ | ⟨-, hq⟩
  · obtain ⟨hended, -, hturnedAway, hbegun, hadmitted⟩ := hr.begins
    have hregular := h i p hp
    refine ⟨?_, fun hlate => ?_⟩
    · show (p.admitted || r.2.permit?.isSome) = (r.2.begun && !r.2.turnedAway)
      rw [hregular.admitted, hturnedAway, hbegun, ← hadmitted]
      simp
    · -- The send has not been over before, so that it has become late by ending.
      have hnot : p.late ≠ true := fun h => by
        have hover : p.send.stage.ended = true := hregular.late h
        rw [hended] at hover
        cases hover
      replace hlate : (p.late || r.2.ended && t.stale i) = true := hlate
      rw [Bool.eq_false_iff.mpr hnot, Bool.false_or, Bool.and_eq_true] at hlate
      exact hlate.1
  · exact h j q hq

/-- All parties stay regular, whatever happens. -/
theorem allRegular_play (config : Config) (now : Instant) (transport : Transport)
    (callers : List Caller) (acts : List Act) :
    ((start now transport callers).play config acts).AllRegular :=
  play_induction (allRegular_start now transport callers) (fun ht hp hr => ht.reach hp hr)
    (fun _ ht => ht) (fun _ ht => ht) acts

/-- The books agree with what has become of the sends. -/
structure Balanced (t : Traffic) : Prop where
  /-- A request is counted when a send ends. -/
  requests : (Books.of t.world.emitted).requests = t.number (·.send.stage.ended)
  /-- A rejection is counted when a send is turned away. -/
  rejected : (Books.of t.world.emitted).rejected = t.number (·.send.stage.turnedAway)
  /-- A call is counted when a send ends that has not been turned away. -/
  calls : (Books.of t.world.emitted).calls =
    t.number fun p => p.send.stage.ended && !p.send.stage.turnedAway
  /-- A success or a failure is counted for no more sends. -/
  recorded : (Books.of t.world.emitted).recorded ≤ (Books.of t.world.emitted).calls
  /-- If no send has been dropped, the transport has seen the attempts that calls and retries have
  counted, and those that are awaited. -/
  attempts : t.number (·.send.stage.givenUp) = 0 → t.world.sightings.length =
    (Books.of t.world.emitted).calls + (Books.of t.world.emitted).retries +
      t.number (·.send.stage.awaits)

/-- The turn of a party adds to the books what becomes of its send. -/
theorem Balanced.reach (h : t.Balanced) {i : Nat} {p : Party} {r : World × Stage}
    (hp : t.parties[i]? = some p) (hr : Pass config (t.world.inside p.send) p.send r) :
    (t.reach config i p r).Balanced := by
  have hentered := hr.entered
  have hbooks : Books.of (t.reach config i p r).world.emitted = Books.of t.world.emitted +
      p.send.stage.entry (current (t.world.inside p.send) p.send) r.2 := hr.books
  generalize p.send.stage.entry (current (t.world.inside p.send) p.send) r.2 = entry at hentered hbooks
  -- Each property is one of the stage, so that the numbers change by what the entry says.
  have hnumber (property : Stage → Bool) :
      (t.reach config i p r).number (fun q => property q.send.stage) + (property p.send.stage).toNat =
        t.number (fun q => property q.send.stage) + (property r.2).toNat :=
    number_reach config hp fun q => property q.send.stage
  refine ⟨?_, ?_, ?_, ?_, fun hnone => ?_⟩ <;> rw [hbooks]
  · have hended := hnumber Stage.ended
    have hbefore := h.requests
    have hentry := hentered.requests
    rw [Books.requests_add]
    omega
  · have hturnedAway := hnumber Stage.turnedAway
    have hbefore := h.rejected
    have hentry := hentered.rejected
    rw [Books.rejected_add]
    omega
  · have hcalls := hnumber fun stage => stage.ended && !stage.turnedAway
    have hbefore := h.calls
    have hentry := hentered.calls
    rw [Books.calls_add]
    omega
  · exact Nat.add_le_add h.recorded hentered.recorded
  · -- No send has been dropped before, and this one is not dropped now.
    have hgivenUp := hnumber Stage.givenUp
    rw [hnone, hr.begins.2.1, Bool.toNat_false] at hgivenUp
    have hawaits := hnumber Stage.awaits
    have hbefore := h.attempts (by omega)
    have hentry := hentered.attempts (Bool.toNat_eq_zero.mp (by omega))
    have hseen : (t.reach config i p r).world.sightings.length = r.1.sightings.length := rfl
    have hinside : (t.world.inside p.send).sightings.length = t.world.sightings.length := rfl
    rw [Books.calls_add, Books.retries_add]
    omega

/-- Callers that wait have no property that a send gets by beginning. -/
theorem number_start (now : Instant) (transport : Transport) (callers : List Caller)
    (property : Party → Bool) (h : ∀ c, property (.of c) = false) :
    (start now transport callers).number property = 0 := by
  refine List.countP_eq_zero.mpr fun p hp => ?_
  obtain ⟨c, -, rfl⟩ := List.mem_map.mp hp
  simp [h]

/-- The books are balanced, whatever happens. -/
theorem balanced_play (config : Config) (now : Instant) (transport : Transport)
    (callers : List Caller) (acts : List Act) :
    ((start now transport callers).play config acts).Balanced := by
  refine play_induction ?_ (fun ht hp hr => ht.reach hp hr) (fun {t} how ht => ?_) (fun _ ht => ?_) acts
  -- At the start all sends wait and nothing has been reported.
  · have hnone (property : Stage → Bool) (h : ∀ due, property (.waiting due) = false) :
        (start now transport callers).number (fun p => property p.send.stage) = 0 :=
      number_start now transport callers _ fun c => h c.due
    refine ⟨(hnone Stage.ended fun _ => rfl).symm, (hnone Stage.turnedAway fun _ => rfl).symm,
      (hnone (fun stage => stage.ended && !stage.turnedAway) fun _ => rfl).symm, Nat.le_refl _,
      fun _ => ?_⟩
    rw [hnone Stage.awaits fun _ => rfl]
    rfl
  · have hbooks : Books.of (t.enact config (.control how)).world.emitted = Books.of t.world.emitted :=
      books_control config t.world how
    refine ⟨?_, ?_, ?_, ?_, fun hnone => ?_⟩ <;> rw [hbooks]
    · exact ht.requests
    · exact ht.rejected
    · exact ht.calls
    · exact ht.recorded
    · exact ht.attempts hnone
  · exact ⟨ht.requests, ht.rejected, ht.calls, ht.recorded, ht.attempts⟩

/-! ## What the breaker leaves out -/

/-- The breaker has counted a success or a failure for every admitted send that has ended, unless it was
late. -/
def Recorded (t : Traffic) : Prop :=
  (Books.of t.world.emitted).recorded + t.number (·.late) =
    t.number fun p => p.send.stage.ended && !p.send.stage.turnedAway

/-- A permit that is current exactly if its period is not over: the breaker leaves out who is late. -/
theorem Recorded.reach (h : t.Recorded) (hregular : t.AllRegular) (hsound : t.Sound config) {i : Nat}
    {p : Party} {r : World × Stage} (hp : t.parties[i]? = some p)
    (hr : Pass config (t.world.inside p.send) p.send r)
    (hcurrent : p.underWay = true → current (t.world.inside p.send) p.send = !t.stale i) :
    (t.reach config i p r).Recorded := by
  -- A send that holds no permit is not stale.
  have hwaits (hnone : p.send.stage.permit? = none) : t.stale i = false := by
    have hheld := hsound.held i p hp
    rw [hnone, Option.map_eq_none_iff] at hheld
    rw [stale, hheld]
    rfl
  -- Only a send that has ended is late, and this one acts.
  have hnot : p.late = false := by
    by_contra hlate
    have hover := (hregular i p hp).late (by simpa using hlate)
    rw [hr.begins.1] at hover
    cases hover
  have hentry := hr.recorded hwaits hcurrent
  have hbooks : (Books.of (t.reach config i p r).world.emitted).recorded =
      (Books.of t.world.emitted).recorded +
        (p.send.stage.entry (current (t.world.inside p.send) p.send) r.2).recorded :=
    congrArg Books.recorded hr.books
  have hlate : (t.reach config i p r).number (·.late) + p.late.toNat =
      t.number (·.late) + (p.late || r.2.ended && t.stale i).toNat := number_reach config hp _
  have hended : (t.reach config i p r).number (fun q => q.send.stage.ended && !q.send.stage.turnedAway) +
      (p.send.stage.ended && !p.send.stage.turnedAway).toNat =
        t.number (fun q => q.send.stage.ended && !q.send.stage.turnedAway) +
          (r.2.ended && !r.2.turnedAway).toNat := number_reach config hp _
  rw [hnot, Bool.false_or, Bool.toNat_false] at hlate
  rw [hr.begins.1, Bool.false_and, Bool.toNat_false] at hended
  unfold Recorded at h ⊢
  omega

/-- While generations do not come back, a permit is current exactly if its period is not over. -/
theorem Sound.current_eq (h : t.Sound config) (hb : t.roster.run.bumps < 2 ^ 64) {i : Nat} {p : Party}
    (hp : t.parties[i]? = some p) (hactive : p.underWay = true) :
    current (t.world.inside p.send) p.send = !t.stale i := by
  obtain ⟨permit, hpermit⟩ := Option.isSome_iff_exists.mp hactive
  have hheld := h.held i p hp
  rw [hpermit] at hheld
  obtain ⟨a, ha, rfl⟩ := Option.map_eq_some_iff.mp hheld
  have hdated := (h.sound.reached.dated hb).current_iff a (h.sound.out i a ha)
  rw [h.circuit] at hdated
  have hcurrent : current (t.world.inside p.send) p.send =
      decide (a.permit.generation = t.world.circuit.generation) := by
    rw [current, hpermit]
    rfl
  rw [hcurrent, stale, ha, Option.any_some, Bool.not_not]
  exact decide_eq_decide.mpr hdated

/-- Before any send the breaker has counted none. -/
theorem recorded_start (now : Instant) (transport : Transport) (callers : List Caller) :
    (start now transport callers).Recorded := by
  have hlate := number_start now transport callers (·.late) fun _ => rfl
  have hended := number_start now transport callers
    (fun p => p.send.stage.ended && !p.send.stage.turnedAway) fun _ => rfl
  unfold Recorded
  rw [hlate, hended]
  rfl

/-- A control counts no send. -/
theorem Recorded.control (h : t.Recorded) (config : Config) (how : Control) :
    (t.enact config (.control how)).Recorded := by
  have hbooks : Books.of (t.enact config (.control how)).world.emitted = Books.of t.world.emitted :=
    books_control config t.world how
  unfold Recorded
  rw [hbooks]
  exact h

/-- While generations do not come back, the breaker counts every admitted send that is not late. -/
theorem recorded_play (config : Config) (now : Instant) (transport : Transport)
    (callers : List Caller) (acts : List Act)
    (hb : ((start now transport callers).play config acts).roster.run.bumps < 2 ^ 64) :
    ((start now transport callers).play config acts).Recorded := by
  refine (play_induction
    (P := fun t => t.Sound config ∧ t.AllRegular ∧ (t.roster.run.bumps < 2 ^ 64 → t.Recorded))
    ⟨sound_start config now transport callers, allRegular_start now transport callers,
      fun _ => recorded_start now transport callers⟩
    (fun {t i p r} ht hp hr => ⟨ht.1.reach hp hr, ht.2.1.reach hp hr, fun hb => ?_⟩)
    (fun {t} how ht => ⟨ht.1.control how, ht.2.1, fun hb => ?_⟩)
    (fun {t} d ht => ⟨ht.1.advance d, ht.2.1, fun hb => ?_⟩) acts).2.2 hb
  -- Generations only ever begin, so that the bound holds of the run before, too.
  all_goals
    have hbefore := lt_of_le_of_lt
      (Run.bumps_mono (Roster.past_play config.breaker countsAsFailure t.roster _)) hb
  · exact (ht.2.2 hbefore).reach ht.2.1 ht.1 hp hr (ht.1.current_eq hbefore hp)
  · exact (ht.2.2 hbefore).control config how
  · exact ht.2.2 hbefore

/-! ## Sends that do not overlap -/

/-- No two sends are ever under way at once, and the breaker is not controlled while one is. -/
def Apart (config : Config) (t : Traffic) : List Act → Prop
  | [] => t.number (·.underWay) ≤ 1
  | a :: rest =>
    t.number (·.underWay) ≤ 1 ∧ (a.isControl = true → t.number (·.underWay) = 0) ∧
      (t.enact config a).Apart config rest

instance decidableApart (config : Config) :
    (t : Traffic) → (acts : List Act) → Decidable (t.Apart config acts)
  | t, [] => inferInstanceAs (Decidable (t.number (·.underWay) ≤ 1))
  | t, a :: rest =>
    have := decidableApart config (t.enact config a) rest
    inferInstanceAs (Decidable (t.number (·.underWay) ≤ 1 ∧
      (a.isControl = true → t.number (·.underWay) = 0) ∧ (t.enact config a).Apart config rest))

/-- The call was admitted in the period that lasts, and so its permit is current. -/
structure InPeriod (r : Run) (a : Breaker.Admission) : Prop where
  /-- By the history of the breaker. -/
  current : r.Current a
  /-- By the generations. -/
  generation : a.permit.generation = r.circuit.generation

/-- A call stays in its period through every step that ends none. -/
theorem InPeriod.follows {r r' : Run} {e : Breaker.Record} {a : Breaker.Admission} (h : InPeriod r a)
    (hf : r.Follows r' e) (he : e.breaks = false) : InPeriod r' a := by
  refine ⟨(hf.current_of_continues he a).mpr h.current, ?_⟩
  have hgeneration := hf.generation
  rw [(hf.continues he).1] at hgeneration
  rw [hgeneration]
  exact h.generation.trans (UInt64.add_zero _).symm

/-- The calls of all sends were admitted in the period that lasts. -/
def Unbroken (t : Traffic) : Prop :=
  ∀ (i : Nat) (p : Party) (a : Breaker.Admission), t.parties[i]? = some p →
    t.roster.calls i = some a → InPeriod t.roster.run a

/-- A party whose call is outstanding is under way. -/
theorem Sound.underWay (h : t.Sound config) {i : Nat} {p : Party} {a : Breaker.Admission}
    (hp : t.parties[i]? = some p) (ha : t.roster.calls i = some a) : p.underWay = true := by
  have hheld := h.held i p hp
  rw [ha] at hheld
  rw [Party.underWay, ← hheld]
  rfl

/-- Of two sends one is not under way. -/
theorem eq_of_number_le (h : t.number (·.underWay) ≤ 1) {i j : Nat} {p q : Party}
    (hp : t.parties[i]? = some p) (hq : t.parties[j]? = some q) (hpu : p.underWay = true)
    (hqu : q.underWay = true) : i = j := by
  -- Two of them would be counted apart, one before the later place and one from there on.
  have htwo {i j : Nat} {p q : Party} (hij : i < j) (hp : t.parties[i]? = some p)
      (hq : t.parties[j]? = some q) (hpu : p.underWay = true) (hqu : q.underWay = true) :
      2 ≤ t.number (·.underWay) := by
    have hfirst : p ∈ t.parties.take j :=
      List.mem_of_getElem? ((List.getElem?_take_of_lt hij).trans hp)
    have hrest : q ∈ t.parties.drop j := by
      refine List.mem_of_getElem? (i := 0) ?_
      rwa [List.getElem?_drop, Nat.add_zero]
    have hone : 0 < (t.parties.take j).countP (·.underWay) := List.countP_pos_iff.mpr ⟨p, hfirst, hpu⟩
    have hother : 0 < (t.parties.drop j).countP (·.underWay) := List.countP_pos_iff.mpr ⟨q, hrest, hqu⟩
    have hsplit : t.number (·.underWay) = (t.parties.take j).countP (·.underWay) +
        (t.parties.drop j).countP (·.underWay) := by
      rw [← List.countP_append, List.take_append_drop]
      rfl
    omega
  rcases Nat.lt_trichotomy i j with hij | hij | hij
  · have := htwo hij hp hq hpu hqu
    omega
  · exact hij
  · have := htwo hij hq hp hqu hpu
    omega

/-- The roster admits whom the breaker of the client admits. -/
theorem Sound.admission (h : t.Sound config) (s : Send) : t.roster.admission config.breaker =
    (asking config (t.world.inside s)).1.map (⟨t.roster.run.past.length, ·⟩) := by
  have hpermit := (Breaker.acquire_spec (b := config.breaker) rfl (depth_ne_zero config) t.world.now
    t.world.circuit).1
  rw [Roster.admission, h.now, h.circuit, ← hpermit]
  rfl

/-- Passing time ends no period. -/
theorem Unbroken.advance (h : t.Unbroken) (d : Duration) :
    (t.enact config (.advance d)).Unbroken := by
  intro i p a hp ha
  have hf := Run.follows_effect config.breaker.settings (r := t.roster.run)
    (show t.roster.run.Allows (.advance d) from trivial)
  exact (h i p a hp ha).follows hf (by simp [Breaker.Record.breaks, Breaker.Record.of, Run.effect])

/-- A send that is rejected leaves the circuit as it is. -/
theorem Unbroken.rejected (h : t.Unbroken) {i j : Nat} {q : Party} {a : Breaker.Admission}
    (hnone : t.roster.admission config.breaker = none) (hq : t.parties[j]? = some q)
    (ha : (follow config t.roster [.ask i]).calls j = some a) :
    InPeriod (follow config t.roster [.ask i]).run a := by
  have hstep : follow config t.roster [.ask i] =
      ⟨t.roster.run.step config.breaker.settings .acquire, t.roster.calls⟩ := Roster.step_ask_of_none hnone
  rw [hstep] at ha ⊢
  have hf := Run.follows_effect config.breaker.settings (r := t.roster.run)
    (show t.roster.run.Allows .acquire from trivial)
  refine (h j q a hq ha).follows hf ?_
  have hrefused : (t.roster.run.circuit.acquire config.breaker.settings t.roster.run.now).1 = none :=
    Option.map_eq_none_iff.mp hnone
  have hsame : (t.roster.run.effect config.breaker.settings .acquire).1 = t.roster.run.circuit := by
    show (t.roster.run.circuit.acquire config.breaker.settings t.roster.run.now).2.1 = _
    cases t.roster.run.circuit.acquire_case config.breaker.settings t.roster.run.now with
    | passes _ e | probes _ _ e | joins _ _ e => rw [e] at hrefused; cases hrefused
    | early _ _ e | full _ _ e => rw [e]
  simp [Breaker.Record.breaks, Breaker.Record.of, hsame]

/-- A send that is admitted is so in the period that lasts. -/
theorem inPeriod_admitted {i : Nat} {a : Breaker.Admission} {permit : Breaker.Permit}
    (hsome : t.roster.admission config.breaker = some ⟨t.roster.run.past.length, permit⟩)
    (ha : (follow config t.roster [.ask i]).calls i = some a) :
    InPeriod (follow config t.roster [.ask i]).run a := by
  have hstep : follow config t.roster [.ask i] = _ := Roster.step_ask_of_some hsome
  rw [hstep] at ha ⊢
  have hnew : some ⟨t.roster.run.past.length, permit⟩ = some a := by
    rw [← ha]
    exact (Function.update_self i _ t.roster.calls).symm
  obtain rfl := Option.some.inj hnew
  have hf := Run.follows_effect config.breaker.settings (r := t.roster.run)
    (show t.roster.run.Allows .acquire from trivial)
  obtain ⟨p, hp, he⟩ := Option.map_eq_some_iff.mp hsome
  cases he
  exact ⟨hf.current_new rfl, Breaker.Circuit.generation_of_acquire hp⟩

/-- A send passes while no other is under way before or afterwards. -/
theorem Unbroken.reach (h : t.Unbroken) (hsound : t.Sound config) {i : Nat} {p : Party}
    {r : World × Stage} (hp : t.parties[i]? = some p)
    (hr : Pass config (t.world.inside p.send) p.send r) (hbefore : t.number (·.underWay) ≤ 1)
    (hafter : (t.reach config i p r).number (·.underWay) ≤ 1) : (t.reach config i p r).Unbroken := by
  intro j q a hq ha
  have hqu := (hsound.reach hp hr).underWay hq ha
  have hadmission := hsound.admission p.send
  rcases parties_reach hq with ⟨rfl, rfl⟩ | ⟨hij, hqold⟩
  · -- The send itself has just been admitted, or has held its permit before.
    replace hqu : r.2.permit?.isSome = true := hqu
    replace ha : (follow config t.roster (p.send.stage.heard j r.2)).calls j = some a := ha
    show InPeriod (follow config t.roster (p.send.stage.heard j r.2)).run a
    cases hr.outline with
    | rejected | finishes | drops => cases hqu
    | admitted waits grants =>
      rw [grants] at hadmission
      rw [waits] at ha ⊢
      exact inPeriod_admitted hadmission ha
    | calls hstage | rests hstage =>
      rw [hstage, Stage.heard_active] at ha ⊢
      exact h j p a hp ha
    | retries rested =>
      rw [rested] at ha ⊢
      exact h j p a hp ha
  · -- Another send is under way, so that this one has been rejected.
    have hnot : p.underWay = false := Bool.eq_false_iff.mpr fun hpu =>
      hij (eq_of_number_le hbefore hqold hp hqu hpu)
    have hnow : r.2.permit?.isSome = false := Bool.eq_false_iff.mpr fun hpu => by
      have hi := (List.getElem?_eq_some_iff.mp hp).1
      have hself : (t.reach config i p r).parties[i]? = some (p.after t.world (t.stale i) r) :=
        List.getElem?_set_self hi
      exact hij (eq_of_number_le hafter hq hself hqu hpu)
    obtain ⟨hrefused, hheard⟩ := hr.rejected_of_idle hnot hnow
    rw [hrefused, Option.map_none] at hadmission
    replace ha : (follow config t.roster (p.send.stage.heard i r.2)).calls j = some a := ha
    show InPeriod (follow config t.roster (p.send.stage.heard i r.2)).run a
    rw [hheard] at ha ⊢
    exact h.rejected hadmission hqold ha

/-- Nothing is under way while the breaker is controlled. -/
theorem Unbroken.control (hsound : t.Sound config) (hnone : t.number (·.underWay) = 0) (how : Control) :
    (t.enact config (.control how)).Unbroken := by
  intro i p a hp ha
  have hunderWay : p.underWay = true := (hsound.control how).underWay hp ha
  exact absurd hunderWay (List.countP_eq_zero.mp hnone p (List.mem_of_getElem? hp))

/-- The permit of a send whose period lasts is current, and not stale. -/
theorem Unbroken.current_eq (h : t.Unbroken) (hsound : t.Sound config) {i : Nat} {p : Party}
    (hp : t.parties[i]? = some p) : t.stale i = false ∧
      (p.underWay = true → current (t.world.inside p.send) p.send = !t.stale i) := by
  have hheld := hsound.held i p hp
  unfold stale
  cases ha : t.roster.calls i with
  | none =>
    rw [ha] at hheld
    refine ⟨rfl, fun hactive => ?_⟩
    rw [Party.underWay, ← hheld] at hactive
    cases hactive
  | some a =>
    rw [ha] at hheld
    obtain ⟨hcurrent, hgeneration⟩ := h i p a hp ha
    rw [hsound.circuit] at hgeneration
    have hstale : (some a).any (fun a => !decide (t.roster.run.Current a)) = false := by
      simp [hcurrent]
    rw [hstale]
    refine ⟨rfl, fun _ => ?_⟩
    rw [current, ← hheld]
    exact decide_eq_true hgeneration

/-- What is kept while sends do not overlap. -/
structure Orderly (config : Config) (t : Traffic) : Prop where
  /-- The roster shows what the breaker does. -/
  sound : t.Sound config
  /-- The parties are regular. -/
  regular : t.AllRegular
  /-- The calls in flight are of the period that lasts. -/
  unbroken : t.Unbroken
  /-- The breaker has counted all sends but the late ones. -/
  recorded : t.Recorded
  /-- There are none. -/
  punctual : t.number (·.late) = 0

/-- The turn of a party keeps the traffic orderly, if one send is under way at most before and after it.
-/
theorem Orderly.reach (h : t.Orderly config) {i : Nat} {p : Party} {r : World × Stage}
    (hp : t.parties[i]? = some p) (hr : Pass config (t.world.inside p.send) p.send r)
    (hbefore : t.number (·.underWay) ≤ 1)
    (hafter : (t.reach config i p r).number (·.underWay) ≤ 1) : (t.reach config i p r).Orderly config := by
  obtain ⟨hstale, hcurrent⟩ := h.unbroken.current_eq h.sound hp
  have hlate : (t.reach config i p r).number (·.late) + p.late.toNat =
      t.number (·.late) + (p.late || r.2.ended && t.stale i).toNat := number_reach config hp _
  rw [hstale, Bool.and_false, Bool.or_false, h.punctual] at hlate
  exact ⟨h.sound.reach hp hr, h.regular.reach hp hr, h.unbroken.reach h.sound hp hr hbefore hafter,
    h.recorded.reach h.regular h.sound hp hr hcurrent, by omega⟩

/-- If sends do not overlap, none of them is late. -/
theorem Orderly.play (h : t.Orderly config) {acts : List Act} (hapart : t.Apart config acts) :
    (t.play config acts).Orderly config := by
  -- By induction on the acts, before and after each of which one send is under way at most.
  induction acts generalizing t with
  | nil => exact h
  | cons a rest ih =>
    obtain ⟨hbefore, hcontrol, hrest⟩ := hapart
    have hafter : (t.enact config a).number (·.underWay) ≤ 1 := by
      cases rest with
      | nil => exact hrest
      | cons b more => exact hrest.1
    refine ih ?_ hrest
    refine enact_induction (P := fun u => u.number (·.underWay) ≤ 1 → u.Orderly config) (fun _ => h)
      (fun hp hr hafter => h.reach hp hr hbefore hafter) (fun how hact _ => ?_) (fun d _ => ?_) hafter
    · subst hact
      exact ⟨h.sound.control how, h.regular, .control h.sound (hcontrol rfl) how,
        h.recorded.control config how, h.punctual⟩
    · exact ⟨h.sound.advance d, h.regular, h.unbroken.advance d, h.recorded, h.punctual⟩

/-- Traffic starts in order. -/
theorem orderly_start (config : Config) (now : Instant) (transport : Transport)
    (callers : List Caller) : (start now transport callers).Orderly config where
  sound := sound_start config now transport callers
  regular := allRegular_start now transport callers
  unbroken _ _ _ _ ha := by cases ha
  recorded := recorded_start now transport callers
  punctual := number_start now transport callers _ fun _ => rfl

/-! ## What the transport has seen -/

/-- A transport that is always ready sees nothing but calls. -/
theorem calls_of_ready (config : Config) (now : Instant) {transport : Transport}
    (hready : transport.AlwaysReady) (callers : List Caller) (acts : List Act) :
    ∀ seen ∈ ((start now transport callers).play config acts).world.sightings, seen.isCall = true := by
  refine planned_induction (P := fun t => ∀ seen ∈ t.world.sightings, seen.isCall = true)
    (fun _ h => absurd h List.not_mem_nil) (fun {t i p r} hplanned hcalls hp hr => ?_) (fun _ ht => ht)
    (fun _ ht => ht) acts
  show ∀ seen ∈ r.1.sightings, seen.isCall = true
  cases hr.outline with
  | rejected waits refuses same =>
    rw [same.sightings]
    exact hcalls
  | admitted | retries | drops => exact hcalls
  | calls readies =>
    intro seen hseen
    rcases List.mem_append.mp hseen with hseen | hseen
    · exact hcalls seen hseen
    · rw [List.mem_singleton.mp hseen]
      rfl
  | rests active ends same | finishes active ends same =>
    -- A transport that is ready at once is never waited for, so that nothing is seen meanwhile.
    obtain ⟨-, rfl⟩ := hplanned.answered hready hp ends
    rw [same.sightings]
    exact hcalls

end Traffic

/-- The metrics of the layers agree. Whatever happens to a client, in whatever order: once all of its
sends have come to an end, it has counted a request for each of them. The breaker has counted a rejection
for each that was told so, and the retry policy a call for each that was admitted. The calls of the
transport, if that is always ready, are as many as these calls and the retries. Successes and failures
are no more than the admitted sends: what they leave out, while generations do not come back, is the sends
that ended after the period in which they were admitted; and they leave out none if sends do not overlap
and the breaker is not controlled during a send. -/
theorem metrics_conserved (config : Config) (now : Instant) {transport : Transport}
    (hready : transport.AlwaysReady) (callers : List Caller) (acts : List Act)
    (hended : ∀ p ∈ ((Traffic.start now transport callers).play config acts).parties,
      p.send.stage.ended = true) :
    let t := (Traffic.start now transport callers).play config acts
    let total := fun name labels => totalOf name labels t.world.emitted
    let recorded := total "circuitbreaker_calls_total" [("outcome", "success")] +
      total "circuitbreaker_calls_total" [("outcome", "failure")]
    total "http_client_requests_total" [] = callers.length ∧
      t.number (·.send.stage.turnedAway) = total "circuitbreaker_calls_total" [("outcome", "rejected")] ∧
      total "retry_calls_total" [] = t.number (·.admitted) ∧
      t.world.sightings.countP (·.isCall) = total "retry_calls_total" [] + total "retry_attempts_total" [] ∧
      recorded ≤ t.number (·.admitted) ∧
      (t.roster.run.bumps < 2 ^ 64 → t.number (·.admitted) - recorded = t.number (·.late)) ∧
      ((Traffic.start now transport callers).Apart config acts →
        recorded = t.number (·.admitted) ∧ t.number (·.late) = 0) := by
  intro t total recorded
  have hbalanced : t.Balanced := Traffic.balanced_play config now transport callers acts
  have hregular : t.AllRegular := Traffic.allRegular_play config now transport callers acts
  have hlength : t.parties.length = callers.length := Traffic.length_play config now transport callers acts
  -- As all sends have ended, none of them waits, has been given up or awaits the transport.
  have hall : t.number (·.send.stage.ended) = callers.length :=
    (List.countP_eq_length.mpr hended).trans hlength
  have hadmitted : t.number (·.admitted) =
      t.number fun p => p.send.stage.ended && !p.send.stage.turnedAway := by
    refine List.countP_congr fun p hp => ?_
    obtain ⟨i, hi⟩ := List.mem_iff_getElem?.mp hp
    rw [(hregular i p hi).admitted, hended p hp, (Stage.over_of_ended (hended p hp)).1]
  have hnone (property : Stage → Bool) (h : ∀ stage, stage.ended = true → property stage = false) :
      t.number (fun p => property p.send.stage) = 0 :=
    List.countP_eq_zero.mpr fun p hp => Bool.eq_false_iff.mp (h _ (hended p hp))
  have hgivenUp := hnone Stage.givenUp fun stage h => (Stage.over_of_ended h).2.1
  have hawaits := hnone Stage.awaits fun stage h => (Stage.over_of_ended h).2.2
  have hcalls : t.world.sightings.countP (·.isCall) = t.world.sightings.length :=
    List.countP_eq_length.mpr (Traffic.calls_of_ready config now hready callers acts)
  -- Since nothing is awaited, the attempts that have been seen are those that are counted.
  have hattempts := hbalanced.attempts hgivenUp
  refine ⟨hbalanced.requests.trans hall, hbalanced.rejected.symm, hbalanced.calls.trans hadmitted.symm,
    ?_, ?_, fun hb => ?_, fun hapart => ?_⟩
  · rw [hcalls, hattempts, hawaits]
    rfl
  · rw [hadmitted, ← hbalanced.calls]
    exact hbalanced.recorded
  · have hrecorded : t.Recorded := Traffic.recorded_play config now transport callers acts hb
    rw [hadmitted, ← hrecorded]
    exact Nat.add_sub_cancel_left ..
  · obtain ⟨-, -, -, hrecorded, hpunctual⟩ : t.Orderly config :=
      (Traffic.orderly_start config now transport callers).play hapart
    have hsum : recorded + t.number (·.late) = t.number (·.admitted) := hrecorded.trans hadmitted.symm
    exact ⟨by omega, hpunctual⟩

/-- A client that tries a call once more, and whose breaker opens at the first failure. -/
def touchy : Config :=
  ⟨{ maxRetries := 1, failureThreshold := 1 }, by decide, by decide, by decide, by decide⟩

/-- A transport that answers its second call well after two seconds, and every other one at once, with an
error of its own. -/
def moody : Transport :=
  .ofTurns #[{ plan := .answer .zero (.error .timeout) },
    { plan := .answer (.ofSeconds 2) (.ok { status := .ok }) }]
    { plan := .answer .zero (.error .timeout) }

/-- The moody transport is always ready. -/
theorem alwaysReady_moody : moody.AlwaysReady := by
  intro k e
  match k with
  | 0 | 1 | k + 2 => exact fun h => by cases h

/-- Three callers of the same resource. -/
def trio : List Caller := List.replicate 3 { request := visit.request }

/-- The first two send at once. The first one fails twice and opens the circuit, the second one gets its
answer too late to count, and the third one is rejected. -/
def overlap : List Act :=
  [.go 0, .go 0, .go 1, .go 1, .go 0, .advance (.ofSeconds 1), .go 0, .go 0, .go 0,
    .advance (.ofSeconds 1), .go 1, .go 2]

/-- They send one after another: the first one gets an answer to its second attempt, the second one fails
twice and opens the circuit, and the third one is rejected. -/
def inTurn : List Act :=
  [.go 0, .go 0, .go 0, .advance (.ofSeconds 1), .go 0, .go 0, .advance (.ofSeconds 2), .go 0, .go 1,
    .go 1, .go 1, .advance (.ofSeconds 1), .go 1, .go 1, .go 1, .go 2]

/-- Three sends, of which two overlap and one counts for nothing; and the same three one after another,
of which none is late. -/
theorem metrics_of_overlap :
    let t := (Traffic.start .start moody trio).play touchy overlap
    let u := (Traffic.start .start moody trio).play touchy inTurn
    moody.AlwaysReady ∧ (∀ p ∈ t.parties, p.send.stage.ended = true) ∧
      totalOf "http_client_requests_total" [] t.world.emitted = 3 ∧
      totalOf "circuitbreaker_calls_total" [("outcome", "rejected")] t.world.emitted = 1 ∧
      totalOf "retry_calls_total" [] t.world.emitted = 2 ∧
      totalOf "retry_attempts_total" [] t.world.emitted = 1 ∧ t.number (·.late) = 1 ∧
      (Traffic.start .start moody trio).Apart touchy inTurn ∧ u.number (·.admitted) = 2 ∧
      u.number (·.late) = 0 := by
  intro t u
  have hended : ∀ p ∈ t.parties, p.send.stage.ended = true := by decide +kernel
  obtain ⟨hrequests, hrejected, hcalls, hattempts, -, -, -⟩ :=
    metrics_conserved touchy .start alwaysReady_moody trio overlap hended
  have hturnedAway : t.number (·.send.stage.turnedAway) = 1 := by decide +kernel
  have hadmitted : t.number (·.admitted) = 2 := by decide +kernel
  have hmade : t.world.sightings.countP (·.isCall) = 3 := by decide +kernel
  have hlate : t.number (·.late) = 1 := by decide +kernel
  have htwo : totalOf "retry_calls_total" [] t.world.emitted = 2 := hcalls.trans hadmitted
  have hthree : totalOf "retry_calls_total" [] t.world.emitted +
      totalOf "retry_attempts_total" [] t.world.emitted = 3 := hattempts.symm.trans hmade
  have hover : ∀ p ∈ u.parties, p.send.stage.ended = true := by decide +kernel
  have hapart : (Traffic.start .start moody trio).Apart touchy inTurn := by decide +kernel
  obtain ⟨-, -, -, -, -, -, hserial⟩ :=
    metrics_conserved touchy .start alwaysReady_moody trio inTurn hover
  exact ⟨alwaysReady_moody, hended, hrequests, hrejected.symm.trans hturnedAway, htwo, by omega, hlate,
    hapart, by decide +kernel, (hserial hapart).2⟩

end GuardedHttp.Client
