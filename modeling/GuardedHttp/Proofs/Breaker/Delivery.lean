import GuardedHttp.Breaker.Call
import GuardedHttp.Proofs.Breaker.Steps

/-!
# What listeners can lead to

While events are delivered, every listener may control the breaker, whose steps are delivered in turn.
However deep this nests, it comes down to three things: a listener hears an event, a command of a
listener is carried out, and events that lie too deep are left over. `deliver_induction` says so, and
what a delivery can lead to is derived from it: it begins no call (`invoked_mem_deliver`), it records no
verdict (`verdicts_deliver`), and it changes the circuit by commands alone (`leaves_deliver`), of which
there are none if the listeners are quiet.
-/

namespace GuardedHttp.Breaker

open Circuit (Control Step)

variable {b : Breaker} {now : Instant}

/-- The event records how a call ended. -/
def Event.isVerdict : Event → Bool
  | success _ | failure .. => true
  | transition .. | permitted _ | rejected => false

/-- The circuit after commands, first one first. -/
def Circuit.commanded (now : Instant) (c : Circuit) (hows : List Control) : Circuit :=
  hows.foldl (fun c how => (c.control now how).1) c

/-- Some listener may give this command. -/
def Commands (b : Breaker) (how : Control) : Prop :=
  ∃ react ∈ b.reactors, ∃ event c, how ∈ (react event c).controls

/-- No listener ever gives a command. -/
def Quiet (b : Breaker) : Prop := ∀ how, ¬ b.Commands how

/-- The update leaves a circuit, but for commands of listeners. -/
def Leaves (b : Breaker) (now : Instant) (c : Circuit) (u : Update) : Prop :=
  ∃ hows, (∀ how ∈ hows, b.Commands how) ∧ u.circuit = c.commanded now hows

/-- Quiet listeners leave the circuit itself. -/
theorem Leaves.circuit_eq {c : Circuit} {u : Update} (h : b.Leaves now c u) (hq : b.Quiet) :
    u.circuit = c := by
  obtain ⟨hows, hall, hu⟩ := h
  have hnone : hows = [] := List.eq_nil_iff_forall_not_mem.mpr fun how hh => hq how (hall how hh)
  rw [hu, hnone]
  rfl

/-- What is kept when a listener hears an event, when a command is carried out and when events are left
over is kept by every delivery. -/
theorem deliver_induction {P : Update → Prop}
    (hears : ∀ u index event, P u →
      P { u with notes := u.notes ++ [.heard index event u.circuit] })
    (takes : ∀ u how, b.Commands how → P u →
      P (u.take b.settings.name (u.circuit.control now how)))
    (leaves : ∀ u events, P u → P { u with undelivered := u.undelivered ++ events })
    (depth : Nat) (events : List Event) {u : Update} (h : P u) :
    P (b.deliver now depth events u) := by
  induction depth generalizing events u with
  | zero => exact leaves u events h
  | succ depth ih =>
    unfold deliver Listeners.emitAll Listeners.emit audience
    -- Three folds: over the events, over the listeners, and over the commands of one of them.
    refine List.foldlRecOn events _ h fun u hu event _ => ?_
    refine List.foldlRecOn _ _ hu fun u hu listener hl => ?_
    obtain ⟨index, hi, rfl⟩ := List.mem_mapIdx.mp hl
    have hheard := hears u index event hu
    refine List.foldlRecOn _ _ hheard fun u hu how hhow => ?_
    exact ih _ (takes u how ⟨_, List.getElem_mem hi, event, _, hhow⟩ hu)

/-- Delivering nothing does nothing. -/
theorem deliver_nil (depth : Nat) (u : Update) : b.deliver now depth [] u = u := by
  cases depth with
  | zero => simp [deliver]
  | succ depth => rfl

/-! ## What a delivery can lead to -/

/-- A command records no verdict. -/
theorem verdicts_control (c : Circuit) (how : Control) :
    (c.control now how).2.filter Event.isVerdict = [] := by
  cases c.control_case now how with
  | opens _ _ e | staysOpen _ _ e | closes _ _ e | staysClosed _ _ e | resets _ _ e
  | renews _ _ e =>
    rw [e]
    rfl

section

variable (b) (now) (depth : Nat) (events : List Event) (u : Update)

/-- A delivery changes the circuit by commands of listeners alone. -/
theorem leaves_deliver : b.Leaves now u.circuit (b.deliver now depth events u) := by
  refine deliver_induction (P := b.Leaves now u.circuit) (fun _ _ _ h => h) ?_ (fun _ _ h => h)
    depth events ⟨[], by simp, rfl⟩
  rintro v how hcommand ⟨hows, hall, hv⟩
  refine ⟨hows ++ [how], ?_, ?_⟩
  · simpa [or_imp, forall_and] using ⟨hall, hcommand⟩
  · simp [Update.take, Circuit.commanded, hv]

/-- A delivery records no verdict. -/
theorem verdicts_deliver : (b.deliver now depth events u).events.filter Event.isVerdict =
    u.events.filter Event.isVerdict := by
  refine deliver_induction (P := fun v =>
    v.events.filter Event.isVerdict = u.events.filter Event.isVerdict)
    (fun _ _ _ h => h) ?_ (fun _ _ h => h) depth events rfl
  intro v how _ hv
  simp [Update.take, verdicts_control, hv]

/-- A delivery begins no call. -/
theorem invoked_mem_deliver :
    .invoked ∈ (b.deliver now depth events u).notes ↔ .invoked ∈ u.notes := by
  refine deliver_induction (P := fun v => .invoked ∈ v.notes ↔ .invoked ∈ u.notes)
    ?_ (fun _ _ _ h => h) (fun _ _ h => h) depth events Iff.rfl
  intro v index event hv
  simp [hv]

/-- A delivery to quiet listeners adds no event. -/
theorem events_deliver (hq : b.Quiet) : (b.deliver now depth events u).events = u.events := by
  refine deliver_induction (P := fun v => v.events = u.events)
    (fun _ _ _ h => h) ?_ (fun _ _ h => h) depth events rfl
  intro v how hcommand
  exact absurd hcommand (hq how)

end

/-! ## The steps of a breaker with listeners -/

variable {c : Circuit} {p : Permit} {failed : Bool}

/-- Beginning a call is the step of the circuit, its delivery, and the code of an admitted call. -/
theorem start_spec (b : Breaker) (now : Instant) (c : Circuit) :
    (b.start now c).1 = (c.acquire b.settings now).1 ∧
      (b.start now c).2.circuit =
        (b.update now (c.acquire b.settings now).2 { circuit := c }).circuit ∧
      (b.start now c).2.events =
        (b.update now (c.acquire b.settings now).2 { circuit := c }).events ∧
      (b.start now c).2.notes =
        (b.update now (c.acquire b.settings now).2 { circuit := c }).notes ++
          if (c.acquire b.settings now).1.isSome then [.invoked] else [] := by
  unfold start acquire
  obtain ⟨_ | p, step⟩ := c.acquire b.settings now <;> simp

/-- A call begins if the circuit gives it a permit. -/
theorem start_fst : (b.start now c).1 = (c.acquire b.settings now).1 := (start_spec b now c).1

/-- Asking for a permit takes the step of the circuit, which listeners may follow up. -/
theorem leaves_start :
    b.Leaves now (c.acquire b.settings now).2.1 (b.start now c).2 := by
  unfold Leaves
  rw [(start_spec b now c).2.1]
  exact leaves_deliver ..

/-- The end of a call takes the step of the circuit, which listeners may follow up. -/
theorem leaves_complete :
    b.Leaves now (c.complete b.settings now p failed).1 (b.complete now p failed c) :=
  leaves_deliver ..

/-- The code of a call runs exactly if the call gets a permit. -/
theorem invoked_mem_start :
    .invoked ∈ (b.start now c).2.notes ↔ (c.acquire b.settings now).1.isSome = true := by
  -- Listeners only hear, so that the note can come from nothing but the call.
  have hnone : .invoked ∉ (b.update now (c.acquire b.settings now).2 { circuit := c }).notes := by
    unfold update
    rw [invoked_mem_deliver]
    exact List.not_mem_nil
  obtain ⟨-, -, -, hnotes⟩ := start_spec b now c
  rw [hnotes, List.mem_append, or_iff_right hnone]
  split <;> simp_all

/-- Asking for a permit of a breaker with quiet listeners has the events of the step. -/
theorem events_start (hq : b.Quiet) :
    (b.start now c).2.events = (c.acquire b.settings now).2.2 := by
  obtain ⟨-, -, hevents, -⟩ := start_spec b now c
  exact hevents.trans (events_deliver _ _ _ _ _ hq)

/-- A call without a permit is over. -/
theorem call_of_none {α ε : Type} {classify : Classifier α ε} {outcome : Outcome α ε}
    (h : (b.start now c).1 = none) :
    b.call classify now outcome c = (.ended (.error .rejected), (b.start now c).2) := by
  unfold call
  rw [← Prod.eta (b.start now c), h]

/-- A call with a permit ends as the permit is used. -/
theorem call_of_some {α ε : Type} {classify : Classifier α ε} {outcome : Outcome α ε}
    (h : (b.start now c).1 = some p) :
    b.call classify now outcome c =
      ((b.finish classify now p outcome (b.start now c).2.circuit).1,
        (b.start now c).2.followedBy (b.finish classify now p outcome (b.start now c).2.circuit).2) := by
  unfold call
  rw [← Prod.eta (b.start now c), h]

/-- The code of a whole call runs exactly if the call gets a permit. -/
theorem invoked_mem_call {α ε : Type} {classify : Classifier α ε} {outcome : Outcome α ε} :
    .invoked ∈ (b.call classify now outcome c).2.notes ↔
      (c.acquire b.settings now).1.isSome = true := by
  cases h : (b.start now c).1 with
  | none => rw [call_of_none h, invoked_mem_start]
  | some p =>
    have hadmitted : (c.acquire b.settings now).1.isSome = true := by rw [← start_fst, h]; rfl
    have hinvoked := invoked_mem_start.mpr hadmitted
    rw [call_of_some h]
    simp [Update.followedBy, hinvoked, hadmitted]

/-- The verdicts that the end of a call records are those of its step. -/
theorem verdicts_complete : (b.complete now p failed c).events.filter Event.isVerdict =
    (c.complete b.settings now p failed).2.filter Event.isVerdict := by
  unfold complete update
  rw [verdicts_deliver]
  rfl

end GuardedHttp.Breaker
