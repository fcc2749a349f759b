import GuardedHttp.Proofs.Breaker.Listening
import GuardedHttp.Proofs.Events.Nesting

/-!
# Listeners that give commands

The listeners of a `Breaker` only give commands: what they do on hearing an event is fixed by the event and
by the circuit. `audienceOf` are these listeners as code. A machine with that audience takes an update of
the breaker to its end, and leaves the circuit, the events and the notes of `Breaker.update`
(`update_reached`), unless callbacks nest deeper than the breaker follows them.

The induction is on the depth, and inside it over the events, the listeners and the commands
(`Agrees.command`, `Agrees.listen`, `Agrees.deliver`).
-/

namespace GuardedHttp.Callbacks

open Breaker (Circuit Note Permit Reactor Settings Update)
open Breaker.Circuit (Control)
open StateTransition (Reaches)

variable {β : Type} {b : Breaker} {now : Instant} {s : Scene} {u : Update}

/-! ## Commands as code -/

/-- Gives commands one after another. -/
def obey (now : Instant) (ending : Ending) : List Control → Code Scene Ending
  | [] => .ends ending
  | how :: rest => .does now (.control how) fun _ _ => obey now ending rest

/-- A listener that gives commands. -/
def reacting (now : Instant) (react : Reactor) : Breaker.Event → Script Scene Ending := fun event s =>
  obey now (if (react event s.circuit).panics then .panicked else .returned)
    (react event s.circuit).controls

/-- The listeners of a breaker. -/
def audienceOf (b : Breaker) (now : Instant) : Audience := { breaker := b.reactors.map (reacting now) }

/-- A listener's hearing of an event of the breaker, as the breaker notes it. -/
def Hearing.note? (h : Hearing) : Option Note :=
  match h.report.news with
  | .breaker event => some (.heard h.listener event h.circuit)
  | .retry _ => none

/-- The scene shows what an update has led to. -/
structure Agrees (b : Breaker) (s : Scene) (u : Update) : Prop where
  /-- The circuit. -/
  circuit : s.circuit = u.circuit
  /-- The events. -/
  events : s.news b.settings = u.events.map .breaker
  /-- The notes of listeners. -/
  notes : s.hearings.filterMap Hearing.note? = u.notes
  /-- Nothing is left in the buffer. -/
  pending : s.pending = []

/-- Going on from a scene, the machine shows what a later update has led to when `stack` is on top. -/
def Shows (b : Breaker) (now : Instant) (m : Machine β) (stack : List Frame) (u : Update) : Prop :=
  u.undelivered ≠ [] ∨ ∃ s, Agrees b s u ∧
    Reaches (Machine.next b.settings (audienceOf b now)) m ⟨s, stack, false, m.user⟩

/-- The news of reports is what they are made of. -/
theorem news_reportsOf (origin : Nat) (news : List News) :
    (reportsOf origin news).map (·.news) = news :=
  List.ext_getElem (by simp [reportsOf]) fun i _ _ => by simp [reportsOf]

/-- An operation shows the step that it takes. -/
theorem Agrees.perform (h : Agrees b s u) (cause : Option Report) {action : Action} {step : Circuit.Step}
    (hstep : (action.step b.settings now s.circuit).2 = step)
    (htold : (action.take step.2).2 = step.2.map .breaker) :
    Agrees b (s.perform b.settings cause now action).2.1 (u.take b.settings.name step) ∧
      (s.perform b.settings cause now action).2.2.map (·.news) = step.2.map .breaker := by
  have hnews : (s.deed cause now action).news b.settings = step.2.map .breaker := by
    have htake := congrArg Prod.snd (take_step b.settings now s.circuit action)
    rw [hstep, htold] at htake
    exact htake.symm
  refine ⟨⟨?_, ?_, h.notes, pending_perform _ _ _ _ h.pending⟩, ?_⟩
  · exact congrArg Prod.fst hstep
  · rw [news_perform, h.events, hnews]
    exact List.map_append.symm
  · rw [perform_reports _ _ _ _ h.pending, news_reportsOf, hnews]

/-! ## Updates of the breaker as turns of the machine -/

variable {m : Machine β} {stack : List Frame} {depth : Nat}

/-- A turn that changes nothing but the stack. -/
theorem Shows.turn {stack' : List Frame} (h : Shows b now m stack u)
    (hturn : ∀ s, Turn b.settings (audienceOf b now) ⟨s, stack, false, m.user⟩
      ⟨s, stack', false, m.user⟩) : Shows b now m stack' u := by
  obtain h | ⟨s, hagrees, hreach⟩ := h
  · exact .inl h
  · exact .inr ⟨s, hagrees, hreach.tail (next_eq_some_iff.mpr (hturn s))⟩

/-- What a callback still has to do shows what its commands lead to, if batches show what their delivery
leads to. -/
theorem shows_obey {r : Report} {batch : List Report} {told : Nat}
    (hdeliver : ∀ {events batch stack u}, batch.map Report.news = events.map .breaker →
      Shows b now m (.telling batch 0 :: stack) u → Shows b now m stack (b.deliver now depth events u))
    (ending : Ending) (hows : List Control) {script : Script Scene Ending} (hagrees : Agrees b s u)
    (hscript : script s = obey now ending hows)
    (hreach : Reaches (Machine.next b.settings (audienceOf b now)) m
      ⟨s, .running r script :: .telling batch told :: stack, false, m.user⟩) :
    Shows b now m (.telling batch told :: stack)
      (hows.foldl (fun u how => b.settle now depth (u.circuit.control now how) u) u) := by
  induction hows generalizing script s u with
  | nil =>
    refine .inr ⟨s, hagrees, ?_⟩
    cases ending with
    | returned => exact hreach.tail (next_eq_some_iff.mpr (.returns hscript))
    | panicked =>
      -- The batch below catches the panic, and goes on as if there had been none.
      have hpanic := hreach.tail (next_eq_some_iff.mpr (.panics hscript))
      exact hpanic.tail (next_eq_some_iff.mpr .catches)
  | cons how hows ih =>
    have hnests := hreach.tail (next_eq_some_iff.mpr (.nests hscript))
    have hstep : (Action.step b.settings now s.circuit (.control how)).2 =
        u.circuit.control now how := by
      rw [hagrees.circuit]
      rfl
    obtain ⟨htaken, hnews⟩ := hagrees.perform (some r) hstep rfl
    have hsettled := hdeliver hnews (.inr ⟨_, htaken, hnests⟩)
    rw [List.foldl_cons]
    obtain hleft | ⟨s', hagrees', hreach'⟩ := hsettled
    · -- What lay too deep stays undelivered, whatever is commanded afterwards.
      refine .inl (List.foldlRecOn (motive := fun v : Update => v.undelivered ≠ []) _ _ hleft ?_)
      intro v hv how _
      exact Breaker.undelivered_deliver _ _ hv
    · exact ih hagrees' rfl hreach'

/-- A batch shows what the delivery of its news leads to. -/
theorem Shows.deliver (depth : Nat) {events : List Breaker.Event} {batch : List Report}
    (hnews : batch.map Report.news = events.map .breaker)
    (h : Shows b now m (.telling batch 0 :: stack) u) :
    Shows b now m stack (b.deliver now depth events u) := by
  induction depth generalizing events batch stack u with
  | zero =>
    cases events with
    | nil =>
      obtain rfl : batch = [] := by simpa using hnews
      rw [Breaker.deliver_nil]
      exact h.turn fun _ => .finishes
    | cons event rest => exact .inl (by simp [Breaker.deliver])
  | succ depth ih =>
    induction events generalizing batch u with
    | nil =>
      obtain rfl : batch = [] := by simpa using hnews
      rw [Breaker.deliver_nil]
      exact h.turn fun _ => .finishes
    | cons event rest ihrest =>
      obtain ⟨r, batch, rfl⟩ : ∃ r rest, batch = r :: rest := by
        cases batch with
        | nil => simp at hnews
        | cons r rest => exact ⟨r, rest, rfl⟩
      obtain ⟨hr, hbatch⟩ := List.cons.inj hnews
      have hcallbacks : (audienceOf b now).callbacks r.news =
          b.reactors.map (reacting now · event) := by
        rw [show r.news = .breaker event from hr]
        simp [audienceOf, Audience.callbacks]
      rw [Breaker.deliver_cons]
      apply ihrest hbatch
      let P : Nat → Update → Prop := fun j v => Shows b now m (.telling (r :: batch) j :: stack) v
      -- A listener hears the event, and then its commands are carried out a level deeper.
      have hnext (j : Nat) (react : Reactor) (v : Update) (hj : b.reactors[j]? = some react)
          (hv : P j v) : P (j + 1) (b.listen now depth j react event v) := by
        obtain hleft | ⟨s, hagrees, hreach⟩ := hv
        · refine .inl (Breaker.listen_induction (P := fun v => v.undelivered ≠ []) hleft ?_)
          exact fun v how _ hv => Breaker.undelivered_deliver _ _ hv
        · have hscript : ((audienceOf b now).callbacks r.news)[j]? = some (reacting now react event) := by
            rw [hcallbacks, List.getElem?_map, hj]
            rfl
          have hhears := hreach.tail (next_eq_some_iff.mpr (.hears hscript))
          have hheard : Agrees b (s.hear j r)
              { v with notes := v.notes ++ [.heard j event v.circuit] } := by
            refine ⟨hagrees.circuit, hagrees.events, ?_, hagrees.pending⟩
            simp [Scene.hear, hagrees.notes, hagrees.circuit, Hearing.note?,
              show r.news = .breaker event from hr]
          refine shows_obey ih (if (react event v.circuit).panics then .panicked else .returned)
            (react event v.circuit).controls hheard ?_ hhears
          show reacting now react event s = _
          unfold reacting
          rw [hagrees.circuit]
      have hlast := Breaker.deliver_one_induction h hnext
      refine hlast.turn fun s => .passes ?_
      rw [hcallbacks]
      simp

/-- Code that carries out one operation and ends with the permit that it got. -/
def once (now : Instant) (action : Action) : Script Circuit (Option Permit) := fun _ =>
  .does now action fun permit _ => .ends permit

/-- An operation that tells what it buffers is the update of the breaker that takes the same step, unless
callbacks nest too deep for it. -/
theorem update_reached (b : Breaker) (now : Instant) (c : Circuit) {action : Action}
    (htold : ∀ events, (action.take events).2 = events.map .breaker)
    (hdepth : (b.update now (action.step b.settings now c).2 { circuit := c }).undelivered = []) :
    ∃ m, Reaches (Machine.next b.settings (audienceOf b now)) (.start c (once now action)) m ∧
      m.Ended (action.step b.settings now c).1 ∧
      Agrees b m.scene (b.update now (action.step b.settings now c).2 { circuit := c }) := by
  let done := ({ circuit := c } : Scene).perform b.settings none now action
  let begun : Machine (Option Permit) :=
    ⟨done.2.1, [.telling done.2.2 0], false, fun _ => .ends done.1⟩
  have hbegins : (Machine.start c (once now action)).next b.settings (audienceOf b now) = some begun :=
    rfl
  have hfirst : Agrees b { circuit := c } { circuit := c } := ⟨rfl, rfl, rfl, rfl⟩
  obtain ⟨htaken, hnews⟩ := hfirst.perform none rfl (htold _)
  have hshows : Shows b now begun [] (b.update now (action.step b.settings now c).2 { circuit := c }) :=
    Shows.deliver b.depth hnews (.inr ⟨_, htaken, .refl⟩)
  obtain hleft | ⟨s, hagrees, hreach⟩ := hshows
  · exact absurd hdepth hleft
  · exact ⟨_, hreach.head hbegins, ⟨rfl, rfl, rfl⟩, hagrees⟩

end GuardedHttp.Callbacks
