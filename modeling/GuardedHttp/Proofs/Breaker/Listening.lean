import GuardedHttp.Proofs.Breaker.EventLog

/-!
# What a listener hears

The events of a step are delivered one by one, each to all listeners in turn. A listener that gives a command
on hearing an event makes a step of its own, whose events are delivered before the rest of the outer ones.
So a listener hears every event once (`Owes.deliver`), but it may hear of a change of state only after it has
heard of a later one.

It does so only if the state is changed while a change of state is on its way to it: by whoever hears the
verdict that has made the change, or by a listener before it that hears of the change. `Discreet` says that
nobody does this. Then there is at most one change of state that the listener has not heard of (`Awaits`),
and whoever changes the state does so when there is none (`Abreast`). `Awaits.deliver` is the induction, over
the depth to which commands nest.

Main statement: `listeners_hear_in_order`.
-/

namespace GuardedHttp.Breaker

open Circuit (Control)

variable {b : Breaker} {now : Instant} {i : Nat} {depth : Nat} {u : Update}

/-! ## Commands -/

/-- The state to which a command takes the circuit. -/
def Circuit.Control.target : Control → CircuitState
  | .forceOpen => .opened
  | .forceClosed | .reset => .closed

/-- A command that finds the circuit where it would take it is no event. -/
theorem Circuit.control_of_eq {c : Circuit} {how : Control} (h : how.target = c.state) :
    (c.control now how).2 = [] ∧ (c.control now how).1.state = c.state := by
  cases c.control_case now how with
  | opens hc hs | closes hc hs | resets hc hs =>
    subst hc
    exact absurd h.symm hs
  | staysOpen _ _ e | staysClosed _ _ e | renews _ _ e =>
    rw [e]
    exact ⟨rfl, rfl⟩

/-- Any other command is a change of state. -/
theorem Circuit.control_of_ne {c : Circuit} {how : Control} (h : how.target ≠ c.state) :
    (c.control now how).2 = [.transition c.state how.target] ∧
      (c.control now how).1.state = how.target := by
  cases c.control_case now how with
  | opens hc _ e | closes hc _ e | resets hc _ e =>
    subst hc
    rw [e]
    exact ⟨rfl, rfl⟩
  | staysOpen hc hs | staysClosed hc hs | renews hc hs =>
    subst hc
    exact absurd hs.symm h

/-! ## Deliveries, listener by listener -/

/-- The event of a note that a listener has heard it. -/
def Note.heardBy (i : Nat) : Note → Option Event
  | heard j event _ => if j = i then some event else none
  | invoked => none

/-- What a listener has heard, in order. -/
def heard (i : Nat) (notes : List Note) : List Event := notes.filterMap (Note.heardBy i)

/-- What is heard of notes and of later ones is heard in that order. -/
theorem heard_append (notes more : List Note) :
    heard i (notes ++ more) = heard i notes ++ heard i more := List.filterMap_append

/-- A listener hears what it is told. -/
theorem heard_self (event : Event) (c : Circuit) : heard i [.heard i event c] = [event] := by
  simp [heard, Note.heardBy]

/-- The code of a call is not heard. -/
theorem heard_invoked : heard i [.invoked] = [] := rfl

/-- What another listener is told is not heard. -/
theorem heard_other {j : Nat} (h : j ≠ i) (event : Event) (c : Circuit) :
    heard i [.heard j event c] = [] := by
  simp [heard, Note.heardBy, h]

/-- Carries out a step during a delivery. -/
def settle (b : Breaker) (now : Instant) (depth : Nat) (step : Circuit.Step) (u : Update) : Update :=
  b.deliver now depth step.2 (u.take b.settings.name step)

/-- What is left once a listener has heard an event and given its commands. -/
def listen (b : Breaker) (now : Instant) (depth index : Nat) (react : Reactor) (event : Event)
    (u : Update) : Update :=
  (hearing now (b.settle now depth) index react event u).state

/-- Events are delivered one by one. -/
theorem deliver_cons (depth : Nat) (event : Event) (rest : List Event) (u : Update) :
    b.deliver now depth (event :: rest) u = b.deliver now depth rest (b.deliver now depth [event] u) := by
  cases depth with
  | zero => simp [deliver]
  | succ depth => rfl

/-- A fold over indexed elements goes through them in order. -/
theorem foldl_mapIdx_induction {α β σ : Type} {f : Nat → α → β} {g : σ → β → σ} {l : List α}
    {P : Nat → σ → Prop} {s : σ} (h : P 0 s)
    (step : ∀ j a s, l[j]? = some a → P j s → P (j + 1) (g s (f j a))) :
    P l.length ((l.mapIdx f).foldl g s) := by
  induction l using List.reverseRecOn with
  | nil => exact h
  | append_singleton l a ih =>
    have hlast := ih fun j a s hj =>
      step j a s (by rw [List.getElem?_append_left (List.getElem?_eq_some_iff.mp hj).1, hj])
    rw [List.mapIdx_concat, List.foldl_append, List.length_append]
    exact step l.length a _ (by simp) hlast

/-- What every listener hears takes a delivery one listener further. -/
theorem deliver_one_induction {P : Nat → Update → Prop} {event : Event} (h : P 0 u)
    (step : ∀ j react u, b.reactors[j]? = some react → P j u →
      P (j + 1) (b.listen now depth j react event u)) :
    P b.reactors.length (b.deliver now (depth + 1) [event] u) :=
  foldl_mapIdx_induction h step

/-- Commands are carried out one by one. -/
theorem listen_induction {P : Update → Prop} {index : Nat} {react : Reactor} {event : Event}
    (h : P { u with notes := u.notes ++ [.heard index event u.circuit] })
    (step : ∀ v, ∀ how ∈ (react event u.circuit).controls, P v →
      P (b.settle now depth (v.circuit.control now how) v)) :
    P (b.listen now depth index react event u) :=
  List.foldlRecOn _ _ h fun v hv how hhow => step v how hhow hv

/-! ## Everything is heard -/

/-- What has happened is what a listener has heard, what lay too deep to be delivered, and what is still on
its way. -/
def Owes (i : Nat) (pending : List Event) (u : Update) : Prop :=
  ∀ e, (heard i u.notes).count e + u.undelivered.count e + pending.count e = u.events.count e

namespace Owes

variable {pending : List Event}

/-- What is on its way may come in any order. -/
theorem perm {others : List Event} (h : Owes i pending u) (hp : pending.Perm others) :
    Owes i others u := by
  intro e
  rw [← h e, hp.count_eq]

/-- The events of a step are on their way once it is taken. -/
theorem take (h : Owes i pending u) (name : String) (step : Circuit.Step) :
    Owes i (pending ++ step.2) (u.take name step) := by
  intro e
  have he := h e
  simp only [Update.take, List.count_append]
  omega

/-- An event that is delivered is on its way to a listener until its turn has come. -/
theorem hear {j : Nat} {event : Event} (h : Owes i (pending ++ if i < j then [] else [event]) u)
    (c : Circuit) : Owes i (pending ++ if i < j + 1 then [] else [event])
      { u with notes := u.notes ++ [.heard j event c] } := by
  intro e
  have he := h e
  simp only [heard_append, List.count_append] at he ⊢
  rcases Nat.lt_trichotomy j i with hj | rfl | hj
  · rw [if_neg (by omega)] at he
    rw [heard_other hj.ne, if_neg (by omega)]
    exact he
  · rw [if_neg (by omega)] at he
    rw [heard_self, if_pos (by omega), List.count_nil]
    omega
  · rw [if_pos hj] at he
    rw [heard_other hj.ne', if_pos (by omega)]
    exact he

/-- What is on its way arrives. -/
theorem deliver (hi : i < b.reactors.length) (depth : Nat) {events : List Event} {u : Update}
    (h : Owes i (pending ++ events) u) : Owes i pending (b.deliver now depth events u) := by
  induction depth generalizing events u pending with
  | zero =>
    intro e
    have he := h e
    simp only [Breaker.deliver, List.count_append] at he ⊢
    omega
  | succ depth ih =>
    induction events generalizing u with
    | nil =>
      rw [deliver_nil]
      simpa using h
    | cons event rest ihrest =>
      rw [deliver_cons]
      apply ihrest
      let P : Nat → Update → Prop := fun j v => Owes i (pending ++ rest ++ if i < j then [] else [event]) v
      have hfirst : P 0 u :=
        h.perm (by simpa using (List.perm_append_singleton event rest).symm.append_left pending)
      -- What a listener commands is on its way after that, and arrives a level deeper.
      have hnext (j : Nat) (react : Reactor) (v : Update) (_ : b.reactors[j]? = some react)
          (hv : P j v) : P (j + 1) (b.listen now depth j react event v) :=
        listen_induction (hv.hear v.circuit) fun w how _ hw => ih (hw.take _ _)
      have hlast := deliver_one_induction hfirst hnext
      unfold P at hlast
      rwa [if_pos hi, List.append_nil] at hlast

end Owes

/-! ## Changes of state are heard in order -/

/-- No listener changes the state while a change of state is on its way to this one: neither on hearing of
the verdict that has just made the change, nor, if it stands before this one, on hearing of the change. -/
structure Discreet (b : Breaker) (i : Nat) : Prop where
  /-- Whoever hears of the verdict that has just changed the state leaves it so. -/
  verdicts : ∀ react ∈ b.reactors, ∀ v failed s c, Event.verdict? v = some (failed, s) → s ≠ c.state →
    c.state = (if failed then .opened else .closed) → ∀ how ∈ (react v c).controls, how.target = c.state
  /-- Whoever stands before this one and hears of a change of state leaves it so. -/
  moves : ∀ j < i, ∀ react, b.reactors[j]? = some react → ∀ s c,
    ∀ how ∈ (react (.transition s c.state) c).controls, how.target = c.state

/-- The listener has heard of all changes of state, unless some event lay too deep to be delivered. -/
def Abreast (i : Nat) (u : Update) : Prop :=
  u.undelivered ≠ [] ∨ moves (heard i u.notes) = moves u.events

/-- The listener has heard of all changes of state but the last, which is on its way, unless some event lay
too deep to be delivered. -/
def Awaits (i : Nat) (source target : CircuitState) (u : Update) : Prop :=
  u.undelivered ≠ [] ∨
    moves (heard i u.notes) ++ [(source, target)] = moves u.events ∧ u.circuit.state = target

section

variable {source target : CircuitState}

/-- What lay too deep stays undelivered. -/
theorem undelivered_deliver (depth : Nat) (events : List Event) (h : u.undelivered ≠ []) :
    (b.deliver now depth events u).undelivered ≠ [] := by
  refine deliver_induction (P := fun v => v.undelivered ≠ []) (fun _ _ _ h => h) (fun _ _ _ h => h)
    ?_ depth events h
  intro v events hv
  simp [hv]

/-- A command that leaves the state leaves what is on its way. -/
theorem Awaits.settle (h : Awaits i source target u) {how : Control} (hh : how.target = target) :
    Awaits i source target (b.settle now depth (u.circuit.control now how) u) := by
  rcases h with h | ⟨h, hs⟩
  · exact .inl (undelivered_deliver _ _ h)
  · obtain ⟨hnone, hsame⟩ := @Circuit.control_of_eq now _ _ (hh.trans hs.symm)
    unfold Breaker.settle
    rw [hnone, deliver_nil]
    refine .inr ⟨?_, hsame.trans hs⟩
    simpa [Update.take, hnone] using h

/-- A change of state is on its way once it is made. -/
theorem Abreast.take (h : Abreast i u) {name : String} {step : Circuit.Step}
    (hstep : step.2 = [.transition source target]) (hs : step.1.state = target) :
    Awaits i source target (u.take name step) := by
  rcases h with h | h
  · exact .inl h
  · refine .inr ⟨?_, hs⟩
    simp only [Update.take, hstep, moves_append, h]
    rfl

/-- A listener that hears the change of state that is on its way to it is abreast. -/
theorem Awaits.hear (h : Awaits i source target u) (c : Circuit) :
    Abreast i { u with notes := u.notes ++ [.heard i (.transition source target) c] } := by
  rcases h with h | ⟨h, -⟩
  · exact .inl h
  · refine .inr ?_
    rw [← h, heard_append, moves_append, heard_self]
    rfl

/-- What others hear, and what is no change of state, is not what a listener waits for. -/
theorem moves_heard {j : Nat} {event : Event} (hj : j ≠ i ∨ event.move? = none) (notes : List Note)
    (c : Circuit) : moves (heard i (notes ++ [.heard j event c])) = moves (heard i notes) := by
  have hnone : moves (heard i [.heard j event c]) = [] := by
    by_cases he : j = i
    · subst he
      rw [heard_self, moves_singleton, hj.resolve_left (fun hne => hne rfl)]
      rfl
    · rw [heard_other he]
      rfl
  rw [heard_append, moves_append, hnone, List.append_nil]

/-- A command of a listener leaves another abreast if changes of state arrive. -/
theorem Abreast.settle (h : Abreast i u) (how : Control)
    (harrives : ∀ source target v, Awaits i source target v →
      Abreast i (b.deliver now depth [.transition source target] v)) :
    Abreast i (b.settle now depth (u.circuit.control now how) u) := by
  unfold Breaker.settle
  by_cases hh : how.target = u.circuit.state
  · obtain ⟨hnone, -⟩ := @Circuit.control_of_eq now _ _ hh
    rw [hnone, deliver_nil]
    rcases h with h | h
    · exact .inl h
    · refine .inr ?_
      simpa [Update.take, hnone] using h
  · obtain ⟨hone, hs⟩ := @Circuit.control_of_ne now _ _ hh
    have hawaits : Awaits i _ _ (u.take b.settings.name (u.circuit.control now how)) := h.take hone hs
    rw [hone]
    exact harrives _ _ _ hawaits

/-- A listener stays abreast of what others hear and of what is no change of state, whatever commands it
leads to. -/
theorem Abreast.listen (h : Abreast i u) {j : Nat} {react : Reactor} {event : Event}
    (hj : j ≠ i ∨ event.move? = none)
    (harrives : ∀ source target v, Awaits i source target v →
      Abreast i (b.deliver now depth [.transition source target] v)) :
    Abreast i (b.listen now depth j react event u) := by
  refine listen_induction ?_ fun v how _ hv => hv.settle how harrives
  unfold Abreast
  rw [moves_heard hj]
  exact h

/-- What is on its way to a listener stays so if nobody who hears something else changes the state. -/
theorem Awaits.listen (h : Awaits i source target u) {j : Nat} {react : Reactor} {event : Event}
    (hj : j ≠ i ∨ event.move? = none)
    (hcommands : u.circuit.state = target →
      ∀ how ∈ (react event u.circuit).controls, how.target = target) :
    Awaits i source target (b.listen now depth j react event u) := by
  rcases h with h | ⟨h, hs⟩
  · exact .inl (listen_induction (P := fun v => v.undelivered ≠ []) h
      fun v how _ hv => undelivered_deliver _ _ hv)
  · refine listen_induction ?_ fun v how hhow hv => hv.settle (hcommands hs how hhow)
    unfold Awaits
    rw [moves_heard hj]
    exact .inr ⟨h, hs⟩

/-- A change of state that is on its way arrives, whatever the listeners do on the way. -/
theorem Awaits.deliver (hd : b.Discreet i) (hi : i < b.reactors.length) (depth : Nat)
    (source target : CircuitState) (u : Update) (h : Awaits i source target u) :
    Abreast i (b.deliver now depth [.transition source target] u) := by
  induction depth generalizing source target u with
  | zero => exact .inl (by simp [Breaker.deliver])
  | succ depth ih =>
    -- It is on its way until it is the listener's turn, and from then on the listener is abreast.
    let P : Nat → Update → Prop := fun j v => if i < j then Abreast i v else Awaits i source target v
    have hfirst : P 0 u := by
      show if i < 0 then _ else _
      rwa [if_neg (Nat.not_lt_zero i)]
    have hnext (j : Nat) (react : Reactor) (v : Update) (hj : b.reactors[j]? = some react)
        (hv : P j v) : P (j + 1) (b.listen now depth j react (.transition source target) v) := by
      unfold P at hv ⊢
      rcases Nat.lt_trichotomy j i with hlt | rfl | hlt
      -- Whoever stands before the listener and hears of the change leaves the state.
      · rw [if_neg (by omega)] at hv ⊢
        refine hv.listen (.inl hlt.ne) ?_
        rintro rfl how hhow
        exact hd.moves j hlt react hj source v.circuit how hhow
      -- The listener hears of it first and commands then, so that its own changes arrive in order.
      · rw [if_neg (by omega)] at hv
        rw [if_pos (by omega)]
        exact listen_induction (hv.hear _) fun w how _ hw => hw.settle how ih
      -- It is past the listener, which hears of nothing but what the others command.
      · rw [if_pos (by omega)] at hv ⊢
        exact hv.listen (.inl hlt.ne') ih
    have hlast := deliver_one_induction hfirst hnext
    unfold P at hlast
    rwa [if_pos hi] at hlast

/-- What is no change of state leaves a listener abreast. -/
theorem Abreast.deliver (hd : b.Discreet i) (hi : i < b.reactors.length) (depth : Nat) {event : Event}
    (he : event.move? = none) (h : Abreast i u) : Abreast i (b.deliver now depth [event] u) := by
  cases depth with
  | zero => exact .inl (by simp [Breaker.deliver])
  | succ depth =>
    exact deliver_one_induction (P := fun _ v => Abreast i v) h fun j react v _ hv =>
      hv.listen (.inr he) (Awaits.deliver hd hi depth)

/-- The verdict that has made a change of state is delivered while the change is on its way. -/
theorem Awaits.deliver_verdict (hd : b.Discreet i) (depth : Nat) {v : Event} {failed : Bool}
    (hv : v.verdict? = some (failed, source)) (hne : source ≠ target)
    (ht : target = if failed then .opened else .closed) (h : Awaits i source target u) :
    Awaits i source target (b.deliver now depth [v] u) := by
  cases depth with
  | zero => exact .inl (by simp [Breaker.deliver])
  | succ depth =>
    refine deliver_one_induction (P := fun _ w => Awaits i source target w) h
      fun j react w hj hw => hw.listen (.inr (Event.move?_of_verdict? hv)) ?_
    intro hs how hhow
    have hmem := List.mem_of_getElem? hj
    rw [← hs] at hne ht ⊢
    exact hd.verdicts react hmem v failed source w.circuit hv hne ht how hhow

end

/-! ## Whole acts -/

/-- A step whose record tells what a step can tell leaves a listener abreast when its events have been
delivered. -/
theorem Record.Told.abreast {deed : Deed} {c : Circuit} {step : Circuit.Step}
    (h : (Record.of deed now c step).Told) (hd : b.Discreet i) (hi : i < b.reactors.length) :
    Abreast i (b.update now step { circuit := c }) := by
  have hmoves : moves step.2 =
      if c.state = step.1.state then [] else [(c.state, step.1.state)] := h.moves_eq
  -- Before the delivery a listener is abreast, or waits for the change that the step has made.
  have hsame (hs : c.state = step.1.state) :
      Abreast i (Update.take b.settings.name { circuit := c } step) := by
    rw [if_pos hs] at hmoves
    exact .inr hmoves.symm
  have hmade (hs : c.state ≠ step.1.state) : Awaits i c.state step.1.state
      (Update.take b.settings.name { circuit := c } step) := by
    rw [if_neg hs] at hmoves
    exact .inr ⟨hmoves.symm, rfl⟩
  unfold Breaker.update
  cases h with
  | silent _ hs he =>
    have htake := hsame hs
    replace he : step.2 = [] := he
    rw [he, deliver_nil]
    exact htake
  | forced _ hchange _ he =>
    have htake := hmade hchange.ne
    replace he : step.2 = [.transition c.state step.1.state] := he
    rw [he]
    exact htake.deliver hd hi _ _ _ _
  | admits _ hs _ he | rejects _ hs _ he =>
    have htake := hsame hs
    replace he : step.2 = [_] := he
    rw [he]
    exact htake.deliver hd hi _ rfl
  | probes _ hs ht he =>
    replace hs : c.state = .opened := hs
    replace ht : step.1.state = .halfOpen := ht
    have htake := hmade (by simp [hs, ht])
    rw [hs, ht] at htake
    replace he : step.2 = [.transition .opened .halfOpen, .permitted .halfOpen] := he
    rw [he, deliver_cons]
    exact (htake.deliver hd hi _ _ _ _).deliver hd hi _ rfl
  | judges _ hs hv he =>
    have htake := hsame hs
    replace he : step.2 = [_] := he
    rw [he]
    exact htake.deliver hd hi _ (Event.move?_of_verdict? hv)
  | decides _ _ hne ht hv he =>
    have htake := hmade hne
    replace he : step.2 = [_, .transition c.state step.1.state] := he
    rw [he, deliver_cons]
    exact (htake.deliver_verdict hd _ hv hne ht).deliver hd hi _ _ _ _

/-- All events of a step are heard. -/
theorem owes_update (hi : i < b.reactors.length) (c : Circuit) (step : Circuit.Step) :
    Owes i [] (b.update now step { circuit := c }) := by
  have hnew : Owes i [] { circuit := c } := fun _ => rfl
  exact (hnew.take b.settings.name step).deliver hi _

section

variable {α ε : Type} {classify : Classifier α ε} {P : Update → Prop}

/-- What holds when nothing is done and when a step of the circuit is taken and delivered, and is kept when
reports are added and when one update follows another, holds of every act. -/
theorem act_induction (idle : ∀ c, P { circuit := c })
    (update : ∀ deed now c step, (Record.of deed now c step).Told →
      P (b.update now step { circuit := c }))
    (line : ∀ u l, P u → P { u with emitted := u.emitted ++ [l] })
    (invoked : ∀ u, P u → P { u with notes := u.notes ++ [.invoked] })
    (followedBy : ∀ u later, P u → P later → P (u.followedBy later))
    (s : Session) (a : Act α ε) : P (s.act b classify a).2.1 := by
  -- The acts are made of these four: to begin a call, to end one, both in one, and to drop one.
  have hstart (c : Circuit) : P (b.start s.now c).2 := by
    have hacquire : P (b.acquire s.now c).2 := line _ _ (update _ _ _ _ (.acquire b.settings s.now c))
    unfold start
    rcases hs : b.acquire s.now c with ⟨_ | p, u⟩ <;> rw [hs] at hacquire
    · exact hacquire
    · exact invoked u hacquire
  have hfinish (p : Permit) (outcome : Outcome α ε) (c : Circuit) :
      P (b.finish classify s.now p outcome c).2 := by
    cases outcome with
    | returned result => exact update _ _ _ _ (.complete b.settings s.now c ⟨0, p⟩ _)
    | panicked message => exact idle _
  have hcall (outcome : Outcome α ε) (c : Circuit) : P (b.call classify s.now outcome c).2 := by
    have hbegun := hstart c
    unfold call
    rcases hs : b.start s.now c with ⟨_ | p, u⟩ <;> rw [hs] at hbegun
    · exact hbegun
    · exact followedBy _ _ hbegun (hfinish p outcome u.circuit)
  have hdropped (name : String) (c : Circuit) : P (Session.dropped s.inFlight name c) := by
    unfold Session.dropped
    cases s.inFlight.lookup name with
    | none => exact idle _
    | some p => exact idle _
  -- Every act is one of them, a step by hand, or idle.
  cases a with
  | call outcome => exact hcall outcome s.circuit
  | use service =>
    cases service with
    | unready e => exact idle _
    | ready outcome => exact hcall outcome s.circuit
  | start name =>
    have hbegun := hstart s.circuit
    rcases hs : b.start s.now s.circuit with ⟨_ | p, u⟩ <;> rw [hs] at hbegun <;>
      simp only [Session.act, hs]
    · exact hbegun
    · exact followedBy _ _ hbegun (hdropped name u.circuit)
  | finish name outcome =>
    cases hp : s.inFlight.lookup name with
    | none =>
      simp only [Session.act, hp]
      exact idle _
    | some p =>
      simp only [Session.act, hp]
      exact hfinish p outcome s.circuit
  | drop name => exact hdropped name s.circuit
  | advance d => exact idle _
  | control how => exact update _ _ _ _ (.control s.now s.circuit how)
  | look => exact idle _

/-- Every act leaves nothing that a listener has not heard, but for what lay too deep. -/
theorem owes_act (hi : i < b.reactors.length) (s : Session) (a : Act α ε) :
    Owes i [] (s.act b classify a).2.1 := by
  refine act_induction (P := Owes i []) (fun _ _ => rfl) (fun _ _ c step _ => owes_update hi c step)
    (fun _ _ h => h) ?_ ?_ s a
  · intro u hu e
    rw [← hu e, heard_append, heard_invoked, List.append_nil]
  · intro u later hu hlater e
    have hue := hu e
    have hle := hlater e
    simp only [Update.followedBy, heard_append, List.count_append, List.count_nil] at hue hle ⊢
    omega

/-- Every act leaves a listener abreast. -/
theorem abreast_act (hd : b.Discreet i) (hi : i < b.reactors.length) (s : Session) (a : Act α ε) :
    Abreast i (s.act b classify a).2.1 := by
  refine act_induction (P := Abreast i) (fun _ => .inr rfl) (fun _ _ _ _ h => h.abreast hd hi)
    (fun _ _ h => h) ?_ ?_ s a
  · rintro u (hu | hu)
    · exact .inl hu
    · refine .inr ?_
      rw [heard_append, heard_invoked, List.append_nil]
      exact hu
  · rintro u later (hu | hu) hlater
    · exact .inl (by simp [Update.followedBy, hu])
    · rcases hlater with hlater | hlater
      · exact .inl (by simp [Update.followedBy, hlater])
      · refine .inr ?_
        simp only [Update.followedBy, heard_append, moves_append, hu, hlater]

/-- What holds of every act holds of all entries of a session. -/
theorem forall_attended {acts : List (Breaker × Act α ε)}
    (h : ∀ x ∈ acts, ∀ s : Session, P (s.act x.1 classify x.2).2.1) (s : Session) :
    ∀ entry ∈ s.attended classify acts, P entry.update := by
  induction acts generalizing s with
  | nil => exact fun entry he => absurd he List.not_mem_nil
  | cons x rest ih =>
    obtain ⟨hx, hrest⟩ := List.forall_mem_cons.mp h
    exact List.forall_mem_cons.mpr ⟨hx s, ih hrest _⟩

/-- A listener hears all events of a session if none lies too deep. -/
theorem perm_heard {entries : List (Session.Entry α ε)} (h : ∀ entry ∈ entries, Owes i [] entry.update)
    (hfinite : ∀ entry ∈ entries, entry.update.undelivered = []) :
    (heard i (entries.flatMap (·.update.notes))).Perm (entries.flatMap (·.update.events)) := by
  induction entries with
  | nil => exact .refl _
  | cons entry rest ih =>
    obtain ⟨hentry, hrest⟩ := List.forall_mem_cons.mp h
    obtain ⟨hnone, hnones⟩ := List.forall_mem_cons.mp hfinite
    have hfirst : (heard i entry.update.notes).Perm entry.update.events := by
      refine List.perm_iff_count.mpr fun e => ?_
      have he := hentry e
      rwa [hnone] at he
    rw [List.flatMap_cons, List.flatMap_cons, heard_append]
    exact hfirst.append (ih hrest hnones)

/-- A listener that is abreast after every act hears the changes of state of a session in order. -/
theorem moves_heard_eq {entries : List (Session.Entry α ε)}
    (h : ∀ entry ∈ entries, Abreast i entry.update)
    (hfinite : ∀ entry ∈ entries, entry.update.undelivered = []) :
    moves (heard i (entries.flatMap (·.update.notes))) =
      moves (entries.flatMap (·.update.events)) := by
  induction entries with
  | nil => rfl
  | cons entry rest ih =>
    obtain ⟨hentry, hrest⟩ := List.forall_mem_cons.mp h
    obtain ⟨hnone, hnones⟩ := List.forall_mem_cons.mp hfinite
    have hfirst := hentry.resolve_left (fun hne => hne hnone)
    rw [List.flatMap_cons, List.flatMap_cons, heard_append, moves_append, moves_append, hfirst,
      ih hrest hnones]

/-- The copy of the state is the state. -/
theorem Reachable.published_eq {settings : Settings} {r : Run} (hr : Reachable settings r) :
    r.circuit.published = r.circuit.state := by
  induction hr with
  | fresh now => rfl
  | @step r _ deed ih =>
    -- What the run does not allow changes nothing; each other deed publishes the state that it leaves.
    by_cases ha : r.Allows deed
    swap
    · rw [Run.step_of_not_allows ha]
      exact ih
    cases deed with
    | acquire =>
      rw [Run.circuit_acquire]
      cases r.circuit.acquire_case settings r.now with
      | passes _ e | probes _ _ e | joins _ _ e | early _ _ e | full _ _ e => simp [e, ih]
    | complete a failed =>
      rw [Run.circuit_complete ha]
      cases r.circuit.complete_case settings r.now a.permit failed with
      | stale _ e | succeeds _ _ _ e | trialSucceeds _ _ _ _ e | closes _ _ _ _ e | fails _ _ _ _ e
      | trips _ _ _ _ e | reopens _ _ _ e => simp [e, ih]
      | whileOpen _ _ e => cases failed <;> simp [e, ih]
    | abandon a =>
      rw [Run.circuit_abandon ha]
      cases r.circuit.release_case a.permit with
      | frees _ _ e | idle _ e => simp [e, ih]
    | control how =>
      rw [Run.circuit_control]
      cases r.circuit.control_case r.now how with
      | opens _ _ e | staysOpen _ _ e | closes _ _ e | staysClosed _ _ e | resets _ _ e
      | renews _ _ e => simp [e, ih]
    | advance d => exact ih

end

/-! ## A listener that closes the circuit -/

/-- A listener that closes the circuit as soon as it hears that it has opened. -/
def closer : Reactor := fun event _ =>
  match event with
  | .transition _ .opened => { controls := [.forceClosed] }
  | .transition _ .closed | .transition _ .halfOpen | .permitted _ | .rejected | .success _
  | .failure .. => {}

/-- A listener that does nothing. -/
def onlooker : Reactor := fun _ _ => {}

/-- A call that fails. -/
def failingCall : Act Unit Unit := .call (.returned (.error ()))

/-- An onlooker in front hears of every change before the closer can make another. -/
theorem discreet_of_onlooker_first :
    Discreet { settings := twoTrials, reactors := [onlooker, closer] } 0 where
  verdicts := by
    intro react hreact v failed s c hv _ _ how hhow
    rcases List.mem_pair.mp hreact with rfl | rfl
    · cases hhow
    · cases v with
      | success | failure => cases hhow
      | transition | permitted | rejected => cases hv
  moves := fun j hj => absurd hj (Nat.not_lt_zero j)

/-! ## Listeners of a session -/

section

variable {α ε : Type} {classify : Classifier α ε}

/-- Listeners hear of changes of state in the order in which they happen, as long as nobody changes the state
while a change is on its way. Whatever the listeners do on hearing an event, and however their commands nest,
the changes of state follow one another from the closed state to the state that is read in the end, and every
listener hears every event once. A listener hears the changes of state in that order, and so the last one
last, if the listeners are discreet towards it. -/
theorem listeners_hear_in_order {settings : Settings} {n : Nat} {acts : List (Breaker × Act α ε)}
    (hb : ∀ x ∈ acts, x.1.settings = settings ∧ x.1.reactors.length = n)
    (hfinite : ∀ entry ∈ ({} : Session).attended classify acts, entry.update.undelivered = []) :
    let entries := ({} : Session).attended classify acts
    let made := moves (entries.flatMap (·.update.events))
    .closed :: made.map Prod.snd =
        made.map Prod.fst ++ [(({} : Session).attend classify acts).circuit.published] ∧
      ∀ i < n,
        (heard i (entries.flatMap (·.update.notes))).Perm (entries.flatMap (·.update.events)) ∧
        ((∀ x ∈ acts, x.1.Discreet i) → moves (heard i (entries.flatMap (·.update.notes))) = made) := by
  intro entries made
  have htells : (({} : Session).attend classify acts).Tells settings _ _ :=
    Session.tells_new.attended fun x hx => (hb x hx).1
  -- What the session tells is the log of a run, which has no listeners.
  obtain ⟨⟨r, hr, -, hc, -, hlog⟩, -⟩ := htells.tells
  obtain ⟨hlegal, hleads⟩ := hr.legal
  refine ⟨?_, fun i hi => ⟨?_, fun hd => ?_⟩⟩
  · have hchain := hlegal.chain
    rw [hleads, ← hr.published_eq, hc, hlog, List.nil_append] at hchain
    exact hchain
  · have howes : ∀ entry ∈ entries, Owes i [] entry.update :=
      forall_attended (fun x hx s => owes_act ((hb x hx).2 ▸ hi) s x.2) {}
    exact perm_heard howes hfinite
  · have habreast : ∀ entry ∈ entries, Abreast i entry.update :=
      forall_attended (fun x hx s => abreast_act (hd x hx) ((hb x hx).2 ▸ hi) s x.2) {}
    exact moves_heard_eq habreast hfinite

end

/-- The onlooker in front hears that the circuit opens and then that it closes. -/
theorem onlooker_first_hears_in_order :
    let b : Breaker := { settings := twoTrials, reactors := [onlooker, closer] }
    let entries := ({} : Session).attended anyError [(b, failingCall)]
    (∀ entry ∈ entries, entry.update.undelivered = []) ∧ b.Discreet 0 ∧
      moves (heard 0 (entries.flatMap (·.update.notes))) = [(.closed, .opened), (.opened, .closed)] := by
  intro b entries
  have hfinite : ∀ entry ∈ entries, entry.update.undelivered = [] := by decide
  have hb : ∀ x ∈ [(b, failingCall)], x.1.settings = twoTrials ∧ x.1.reactors.length = 2 := by
    simp [b]
  obtain ⟨-, hlisteners⟩ := listeners_hear_in_order hb hfinite
  obtain ⟨-, horder⟩ := hlisteners 0 (by decide)
  refine ⟨hfinite, discreet_of_onlooker_first, ?_⟩
  rw [horder (by simpa using discreet_of_onlooker_first)]
  decide

/-- A listener that stands behind one that closes the circuit hears of the closing first, and last that the
circuit has opened, which is closed by then. -/
theorem onlooker_last_hears_in_reverse :
    let b : Breaker := { settings := twoTrials, reactors := [closer, onlooker] }
    let entries := ({} : Session).attended anyError [(b, failingCall)]
    (∀ entry ∈ entries, entry.update.undelivered = []) ∧
      moves (heard 1 (entries.flatMap (·.update.notes))) = [(.opened, .closed), (.closed, .opened)] ∧
      (({} : Session).attend anyError [(b, failingCall)]).circuit.published = .closed := by
  decide

end GuardedHttp.Breaker
