import GuardedHttp.Proofs.Breaker.Run
import GuardedHttp.Proofs.Breaker.Delivery
import GuardedHttp.Proofs.Events.Nesting

/-!
# Listeners that do not call back make no difference

A machine of which only finitely many operations are begun comes to an end
(`exists_ended_of_bounded`): between two operations every turn leaves less to do (`Machine.work`).

If no callback begins an operation, what the user will come to is settled from the start: it is what the
user's code comes to with nobody listening (`Code.result`), and no turn changes it (`outlook_turn`). The
operations that are still to come are then bounded, too (`comesTo_of_silent`). For a call through the
breaker and for a retried call the code comes to what `Breaker.call` and `Retry.Policy.run` say.

Main statement: `delivery_complete_and_isolated`.
-/

namespace GuardedHttp.Callbacks

open Breaker (CallResult Circuit Classifier Outcome Permit Settings)
open Retry (Policy Run Trial)
open StateTransition (Reaches)

variable {β : Type} {settings : Settings} {audience : Audience} {m m' : Machine β} {c : Circuit}

/-! ## Coming to an end -/

/-- What is left to do on a frame if nothing more is begun. -/
def Frame.work (audience : Audience) (f : Frame) : Nat :=
  match f with
  | telling batch _ => 3 * (f.owes audience).length + batch.length + 1
  | running .. => 2

/-- What is left to do if nothing more is begun. -/
def Machine.work (audience : Audience) (m : Machine β) : Nat :=
  (m.stack.map (Frame.work audience)).sum + if m.panicking then 1 else 0

/-- A turn begins an operation, or leaves less to do. -/
theorem deeds_or_work (h : Turn settings audience m m') :
    m'.scene.deeds.length = m.scene.deeds.length + 1 ∨
      m'.scene.deeds = m.scene.deeds ∧ m'.work audience < m.work audience := by
  cases h with
  | begins | nests => exact .inl (by simp)
  | hears hscript =>
    have hdue := dueFrom_of_some hscript
    refine .inr ⟨rfl, ?_⟩
    simp [Machine.work, Frame.work, Frame.owes, hdue]
    omega
  | @passes s r batch told rest user hnone =>
    have hhead := dueFrom_of_none hnone
    have howes := owes_telling_zero audience batch
    refine .inr ⟨rfl, ?_⟩
    simp only [Machine.work, List.map_cons, List.sum_cons, Frame.work, howes]
    simp [Frame.owes, hhead]
  | finishes | returns | panics | catches | unwinds =>
    refine .inr ⟨rfl, ?_⟩
    simp [Machine.work, Frame.work] <;> omega

/-- As long as something has begun and has not ended, there is a turn to take. -/
theorem exists_turn (settings : Settings) (audience : Audience) (h : m.stack ≠ []) :
    ∃ m', Turn settings audience m m' := by
  obtain ⟨s, stack, panicking, user⟩ := m
  obtain ⟨f, rest, rfl⟩ := List.exists_cons_of_ne_nil h
  -- Unwinding or not, the frame on top says which turn is next.
  cases panicking with
  | false =>
    rcases f with ⟨_ | ⟨r, batch⟩, told⟩ | ⟨r, script⟩
    · exact ⟨_, .finishes⟩
    · cases hcallback : (audience.callbacks r.news)[told]? with
      | none => exact ⟨_, .passes hcallback⟩
      | some script => exact ⟨_, .hears hcallback⟩
    · cases hscript : script s with
      | ends ending =>
        cases ending with
        | returned => exact ⟨_, .returns hscript⟩
        | panicked => exact ⟨_, .panics hscript⟩
      | does now action go => exact ⟨_, .nests hscript⟩
  | true =>
    cases f with
    | telling batch told => exact ⟨_, .catches⟩
    | running r script => exact ⟨_, .unwinds⟩

/-- A machine that takes no more turns has come to an end, if its panics are caught. -/
theorem ended_of_next_eq_none (hm : Shielded m) (h : m.next settings audience = none) :
    ∃ x, m.Ended x := by
  have hidle : m.stack = [] := by
    by_contra hne
    obtain ⟨m', hturn⟩ := exists_turn settings audience hne
    exact absurd (next_eq_some_iff.mpr hturn) (by simp [h])
  have hcalm : m.panicking = false := hm.calm hidle
  cases hu : m.user m.scene.circuit with
  | ends x => exact ⟨x, hidle, hcalm, hu⟩
  | does now action go => simp [Machine.next, hidle, hcalm, hu] at h

/-- A machine that has come to an end takes no more turns. -/
theorem next_eq_none_of_ended {x : β} (h : m.Ended x) : m.next settings audience = none := by
  obtain ⟨hstack, hpanic, hu⟩ := h
  simp only [Machine.next, hstack, hpanic, hu]

/-- A machine comes to an end if no more than so many operations are ever begun. -/
theorem exists_ended_of_bounded {bound : Nat} {m : Machine β} (hm : Shielded m)
    (h : ∀ m', Reaches (Machine.next settings audience) m m' → m'.scene.deeds.length ≤ bound) :
    ∃ m' x, Reaches (Machine.next settings audience) m m' ∧ m'.Ended x := by
  cases hnext : m.next settings audience with
  | none =>
    obtain ⟨x, hx⟩ := ended_of_next_eq_none hm hnext
    exact ⟨m, x, .refl, hx⟩
  | some m₁ =>
    have hturn := next_eq_some_iff.mp hnext
    have hfirst : Reaches (Machine.next settings audience) m m₁ := .single hnext
    have hbound := h m₁ hfirst
    have hprogress := deeds_or_work hturn
    obtain ⟨m', x, hreach, hx⟩ := exists_ended_of_bounded (hm.turn hturn)
      fun m' hreach => h m' (hfirst.trans hreach)
    exact ⟨m', x, hfirst.trans hreach, hx⟩
termination_by (bound - m.scene.deeds.length, m.work audience)
decreasing_by
  obtain hmore | ⟨hsame, hless⟩ := hprogress
  · exact Prod.Lex.left _ _ (by omega)
  · rw [hsame]
    exact Prod.Lex.right _ hless

/-- Of an operation begun nothing is undone. -/
theorem deeds_le_of_reaches (h : Reaches (Machine.next settings audience) m m') :
    m.scene.deeds.length ≤ m'.scene.deeds.length := by
  refine reaches_induction (P := fun m' => m.scene.deeds.length ≤ m'.scene.deeds.length) h
    (Nat.le_refl _) fun hturn hle => ?_
  obtain hmore | ⟨hsame, -⟩ := deeds_or_work hturn
  · omega
  · rw [hsame]
    exact hle

/-- A machine comes to an end exactly if only finitely many operations are ever begun. -/
theorem exists_ended_iff_bounded (hm : Shielded m) :
    (∃ m' x, Reaches (Machine.next settings audience) m m' ∧ m'.Ended x) ↔
      ∃ bound, ∀ m', Reaches (Machine.next settings audience) m m' →
        m'.scene.deeds.length ≤ bound := by
  constructor
  · rintro ⟨last, x, hlast, hended⟩
    refine ⟨last.scene.deeds.length, fun m' hreach => ?_⟩
    -- A machine that has come to an end goes nowhere else, so that it is reached from `m'`.
    obtain h | h := StateTransition.reaches_total hreach hlast
    · exact deeds_le_of_reaches h
    · have hstays : m' = last := by
        obtain rfl | ⟨b, hnext, -⟩ := Relation.ReflTransGen.cases_head h
        · rfl
        · rw [next_eq_none_of_ended hended] at hnext
          cases hnext
      rw [hstays]
  · rintro ⟨bound, hbound⟩
    exact exists_ended_of_bounded hm hbound

/-! ## Listeners that do not call back -/

/-- No callback begins an operation, though it may panic. -/
def Audience.Silent (audience : Audience) : Prop :=
  ∀ news, ∀ script ∈ audience.callbacks news, ∀ s, ∃ ending, script s = .ends ending

/-- The scene without what has been heard. -/
def Scene.unheard (s : Scene) : Scene := { s with hearings := [] }

/-- What code comes to when nobody listens. -/
def Code.result (settings : Settings) : Code Circuit β → Scene → β × Scene
  | ends x, s => (x, s)
  | does now action go, s =>
    let done := s.perform settings none now action
    (go done.1 done.2.1.circuit).result settings done.2.1

/-- What the user will come to when nobody listens any more. -/
def Machine.outlook (settings : Settings) (m : Machine β) : β × Scene :=
  (m.user m.scene.circuit).result settings m.scene.unheard

/-- The callbacks on a stack begin no operation. -/
def Still (stack : List Frame) : Prop :=
  ∀ r script, .running r script ∈ stack → ∀ s, ∃ ending, script s = .ends ending

/-- A stack with fewer callbacks is still as well. -/
theorem Still.of_subset {stack stack' : List Frame} (h : Still stack)
    (hsub : ∀ r script, .running r script ∈ stack' → .running r script ∈ stack) : Still stack' :=
  fun r script hmem => h r script (hsub r script hmem)

/-- On a still stack the callback that is running begins no operation. -/
theorem Still.ne_does {r : Report} {script : Script Scene Ending} {rest : List Frame} {s : Scene}
    {now : Instant} {action : Action} {go : Option Permit → Script Scene Ending}
    (h : Still (.running r script :: rest)) : script s ≠ .does now action go := by
  obtain ⟨ending, hending⟩ := h r script List.mem_cons_self s
  simp [hending]

/-- If no callback begins an operation, every turn leaves the stack still. -/
theorem Still.turn (hsilent : audience.Silent) (h : Turn settings audience m m')
    (hm : Still m.stack) : Still m'.stack := by
  cases h with
  | begins => exact fun _ _ hmem => by simp at hmem
  | nests hscript => exact absurd hscript hm.ne_does
  | hears hscript =>
    intro r script hmem
    obtain heq | hmem := List.mem_cons.mp hmem
    · cases heq
      exact hsilent _ _ (List.mem_of_getElem? hscript)
    · exact hm r script (by simpa using hmem)
  | passes => exact hm.of_subset fun r script hmem => by simpa using hmem
  | finishes | returns | panics | unwinds =>
    exact hm.of_subset fun r script hmem => List.mem_cons_of_mem _ hmem
  | catches => exact hm

/-- If no callback begins an operation, no turn changes what the user will come to. -/
theorem outlook_turn (h : Turn settings audience m m') (hm : Still m.stack) :
    m'.outlook settings = m.outlook settings := by
  cases h with
  | begins hu =>
    -- What has been heard so far does not matter to an operation.
    simp only [Machine.outlook, hu]
    rfl
  | nests hscript => exact absurd hscript hm.ne_does
  | hears | passes | finishes | returns | panics | catches | unwinds => rfl

/-- Code undoes nothing that has been done. -/
theorem deeds_le_result (settings : Settings) (code : Code Circuit β) (s : Scene) :
    s.deeds.length ≤ (code.result settings s).2.deeds.length := by
  induction code generalizing s with
  | ends x => exact Nat.le_refl _
  | does now action go ih =>
    have hrest := ih (s.perform settings none now action).1
      (s.perform settings none now action).2.1.circuit (s.perform settings none now action).2.1
    rw [deeds_perform, List.length_append] at hrest
    exact Nat.le_trans (Nat.le_add_right ..) hrest

/-- The machine comes to an end: the user gets this result, and leaves this scene but for what has been
heard. -/
def ComesTo (settings : Settings) (audience : Audience) (c : Circuit) (user : Script Circuit β) (x : β)
    (s : Scene) : Prop :=
  ∃ m ∈ StateTransition.eval (Machine.next settings audience) (.start c user),
    m.Ended x ∧ m.scene.unheard = s

/-- A machine comes to one end only. -/
theorem ComesTo.unique {user : Script Circuit β} {x y : β} {s s' : Scene}
    (h : ComesTo settings audience c user x s) (h' : ComesTo settings audience c user y s') :
    x = y ∧ s = s' := by
  obtain ⟨m, hm, hx, rfl⟩ := h
  obtain ⟨m', hm', hy, rfl⟩ := h'
  obtain rfl := Part.mem_unique hm hm'
  have hsame : Code.ends x = Code.ends y := hx.2.2.symm.trans hy.2.2
  cases hsame
  exact ⟨rfl, rfl⟩

/-- Silent listeners leave the user what the user's code comes to when nobody listens. -/
theorem comesTo_of_silent (hsilent : audience.Silent) (settings : Settings) (c : Circuit)
    (user : Script Circuit β) : ComesTo settings audience c user
      ((user c).result settings { circuit := c }).1 ((user c).result settings { circuit := c }).2 := by
  have hinvariant {m : Machine β} (h : Reaches (Machine.next settings audience) (.start c user) m) :
      Still m.stack ∧ m.outlook settings = (user c).result settings { circuit := c } := by
    refine reaches_induction (P := fun m => Still m.stack ∧
      m.outlook settings = (user c).result settings { circuit := c }) h ?_ fun hturn hm => ?_
    · exact ⟨fun _ _ hmem => by simp [Machine.start] at hmem, rfl⟩
    · exact ⟨hm.1.turn hsilent hturn, (outlook_turn hturn hm.1).trans hm.2⟩
  -- What the user will come to bounds the operations that are ever begun.
  have hbounded {m : Machine β} (h : Reaches (Machine.next settings audience) (.start c user) m) :
      m.scene.deeds.length ≤ ((user c).result settings { circuit := c }).2.deeds.length := by
    rw [← (hinvariant h).2]
    exact deeds_le_result settings _ m.scene.unheard
  obtain ⟨m, x, hreach, hended⟩ :=
    exists_ended_of_bounded (shielded_start c user) fun _ => hbounded
  have houtlook := (hinvariant hreach).2
  simp only [Machine.outlook, hended.2.2, Code.result] at houtlook
  have hlast : m ∈ StateTransition.eval (Machine.next settings audience) (.start c user) :=
    StateTransition.mem_eval.mpr ⟨hreach, next_eq_none_of_ended hended⟩
  rw [← houtlook]
  exact ⟨m, hlast, hended, rfl⟩

/-- Where nobody listens, all is silent. -/
theorem silent_empty : ({} : Audience).Silent := by
  intro news script hmem
  cases news <;> simp [Audience.callbacks] at hmem

/-! ## Calls and retried calls -/

section

variable {α ε γ : Type}

/-- Code that is followed by other code comes to what the other comes to afterwards. -/
theorem result_bind (settings : Settings) (code : Code Circuit β) (f : β → Script Circuit γ)
    (s : Scene) : (code.bind f s.circuit).result settings s =
      (f (code.result settings s).1 (code.result settings s).2.circuit).result settings
        (code.result settings s).2 := by
  induction code generalizing s with
  | ends x => rfl
  | does now action go ih => exact ih _ _ (s.perform settings none now action).2.1

/-- A call whose code does not use the breaker comes to what a breaker without listeners makes of it, and
produces the events that it has there. -/
theorem result_guarded (settings : Settings) (classify : Classifier α ε) (now : Instant)
    (outcome : Outcome α ε) (s : Scene) :
    let done := (guarded classify now (fun _ => .ends (now, outcome)) s.circuit).result settings s
    let call := ({ settings } : Breaker).call classify now outcome s.circuit
    done.1 = call.1 ∧ done.2.circuit = call.2.circuit ∧
      done.2.news settings = s.news settings ++ call.2.events.map .breaker := by
  intro done call
  -- Without listeners the breaker takes the steps of the circuit alone, and so does the code.
  have hquiet : ({ settings } : Breaker).Quiet := by
    rintro how ⟨react, hreact, -⟩
    cases hreact
  have hfirst : (({ settings } : Breaker).start now s.circuit).1 =
      (s.circuit.acquire settings now).1 := Breaker.start_fst
  have hcircuit : (({ settings } : Breaker).start now s.circuit).2.circuit =
      (s.circuit.acquire settings now).2.1 := Breaker.leaves_start.circuit_eq hquiet
  have hbegins : (({ settings } : Breaker).start now s.circuit).2.events =
      (s.circuit.acquire settings now).2.2 := Breaker.events_start hquiet
  -- The code of the call runs if there is a permit, and its end gives the permit back.
  cases hpermit : (s.circuit.acquire settings now).1 with
  | none =>
    have hcall : call = _ := Breaker.call_of_none (hfirst.trans hpermit)
    have hdone : done = (.ended (.error .rejected), (s.perform settings none now .acquire).2.1) := by
      simp [done, guarded, Code.result, Scene.perform, Action.step, hpermit]
    rw [hcall, hdone, hcircuit, hbegins, news_perform]
    exact ⟨rfl, rfl, rfl⟩
  | some p =>
    have hcall : call = _ := Breaker.call_of_some (hfirst.trans hpermit)
    rw [hcircuit] at hcall
    cases outcome with
    | returned result =>
      have hends : (({ settings } : Breaker).complete now p (classify result)
          (s.circuit.acquire settings now).2.1).circuit =
          ((s.circuit.acquire settings now).2.1.complete settings now p (classify result)).1 :=
        Breaker.leaves_complete.circuit_eq hquiet
      have hcounts : (({ settings } : Breaker).complete now p (classify result)
          (s.circuit.acquire settings now).2.1).events =
          ((s.circuit.acquire settings now).2.1.complete settings now p (classify result)).2 :=
        Breaker.events_deliver _ _ _ _ _ hquiet
      have hdone : done = (.ended (result.mapError .inner),
          ((s.perform settings none now .acquire).2.1.perform settings none now
            (.complete p (classify result))).2.1) := by
        simp [done, guarded, Code.result, Code.bind, conclude, Scene.perform, Action.step, hpermit]
      rw [hcall, hdone, news_perform, news_perform]
      refine ⟨rfl, hends.symm, ?_⟩
      show _ = _ ++ List.map _ (_ ++ Breaker.Update.events (Breaker.complete _ _ _ _ _))
      rw [hbegins, hcounts, List.map_append, List.append_assoc]
      rfl
    | panicked message =>
      have hdone : done = (.panicked message,
          ((s.perform settings none now .acquire).2.1.perform settings none now (.abandon p)).2.1) := by
        simp [done, guarded, Code.result, Code.bind, conclude, Scene.perform, Action.step, hpermit]
      rw [hcall, hdone, news_perform, news_perform]
      refine ⟨rfl, rfl, ?_⟩
      show _ = _ ++ List.map _ (_ ++ [])
      rw [hbegins, List.append_nil, List.append_assoc]
      exact congrArg _ (List.append_nil _)

/-- The event of an attempt and its decision is the decision. -/
theorem events_attempt (trial : Trial α ε) (now ended : Instant) (event : Retry.Event)
    (emitted : List Emission) (result : Except ε α) :
    Run.events { happenings := [(now, Policy.opening trial), (ended, .event event)], emitted, result, ended } =
      [event] := by
  cases trial <;> rfl

/-- The events of a run with another attempt in front begin with the decision after that attempt. -/
theorem events_prepend (trial : Trial α ε) (now ended : Instant) (event : Retry.Event)
    (emitted : List Emission) (run : Run α ε) :
    (run.prepend [(now, Policy.opening trial), (ended, .event event)] emitted).events = event :: run.events := by
  cases trial <;> rfl

/-- After the decision to retry, the code comes to what the next attempts come to. -/
theorem result_decide_of_retry {p : Policy ε} {started now : Instant} {index : Nat}
    {trial : Trial α ε} {delay : Duration}
    (h : p.judge ((now.wake trial.lasts).since started) index trial.result = .retry delay)
    (settings : Settings) (again : Instant → Script Circuit (Run α ε)) (s : Scene) :
    let ended := now.wake trial.lasts
    let announced := (s.perform settings none ended (.announce (.retry index delay))).2.1
    let later := (again (ended.wake delay) announced.circuit).result settings announced
    (decide p started index now (some again) trial).result settings s =
      (later.1.prepend [(now, Policy.opening trial), (ended, .event (.retry index delay))]
        (Retry.Verdict.emissions p.name index (.retry delay)), later.2) := by
  simp only [decide, h, Code.result]
  rw [result_bind]
  rfl

/-- After any other decision, or if no more attempts may follow, the code has come to its end. -/
theorem result_decide_of_final {p : Policy ε} {started now : Instant} {index : Nat} {trial : Trial α ε}
    {again : Option (Instant → Script Circuit (Run α ε))} {verdict : Retry.Verdict}
    (h : p.judge ((now.wake trial.lasts).since started) index trial.result = verdict)
    (hfinal : again = none ∨ ∀ delay, verdict ≠ .retry delay) (settings : Settings) (s : Scene) :
    let ended := now.wake trial.lasts
    (decide p started index now again trial).result settings s =
      ({ happenings := [(now, Policy.opening trial), (ended, .event (verdict.event index))]
         emitted := verdict.emissions p.name index, result := trial.result, ended },
        (s.perform settings none ended (.announce (verdict.event index))).2.1) := by
  obtain rfl | hverdict := hfinal
  · simp only [decide, h, Code.result]
  · cases verdict with
    | retry delay => exact absurd rfl (hverdict delay)
    | success | ignored | exhausted | deadline => simp only [decide, h, Code.result]

/-- A retried call whose attempts do not use the breaker comes to the run of its policy, and produces the
events of the run. -/
theorem result_retriedFrom (settings : Settings) (p : Policy ε) (script : Nat → Trial α ε)
    (started : Instant) (left index : Nat) (now : Instant) (s : Scene) :
    let done := (retriedFrom p (fun k _ _ => .ends (script k)) started left index now s.circuit).result
      settings s
    let run := p.runFrom script started left index now
    done.1 = run ∧ done.2.news settings = s.news settings ++ run.events.map .retry := by
  induction left generalizing index now s with
  | zero =>
    unfold retriedFrom Policy.runFrom
    dsimp only [Code.bind]
    cases hverdict : p.judge ((now.wake (script index).lasts).since started) index (script index).result <;>
    · rw [result_decide_of_final hverdict (.inl rfl), news_perform, events_attempt]
      exact ⟨rfl, rfl⟩
  | succ left ih =>
    unfold retriedFrom Policy.runFrom
    dsimp only [Code.bind]
    cases hverdict : p.judge ((now.wake (script index).lasts).since started) index (script index).result with
    -- The decision to retry is announced, and the rest starts where the delay ends.
    | retry delay =>
      obtain ⟨hrun, hnews⟩ := ih (index + 1) ((now.wake (script index).lasts).wake delay)
        (s.perform settings none (now.wake (script index).lasts) (.announce (.retry index delay))).2.1
      rw [result_decide_of_retry hverdict]
      dsimp only
      rw [hrun, hnews, news_perform, List.append_assoc]
      exact ⟨rfl, congrArg _ (congrArg (List.map News.retry) (events_prepend ..).symm)⟩
    | success | ignored | exhausted | deadline =>
      rw [result_decide_of_final hverdict (.inr (by simp)), news_perform, events_attempt]
      exact ⟨rfl, rfl⟩

/-- A whole retried call, from its first attempt on. -/
theorem result_retried (settings : Settings) (p : Policy ε) (script : Nat → Trial α ε) (now : Instant)
    (s : Scene) :
    let done := (retried p (fun k _ _ => .ends (script k)) now s.circuit).result settings s
    done.1 = p.run script now ∧
      done.2.news settings = s.news settings ++ (p.run script now).events.map .retry :=
  result_retriedFrom ..

end

/-! ## Delivery -/

/-- Delivery is complete and isolated, whatever the listeners of a breaker and of a retry loop do on hearing
an event, and whichever of them panic.

Whenever no operation is going on, no panic has come through to the user, nothing is left in the buffer, and
every event of every operation, nested ones included, has been heard once by every listener: what the circuit
has reported of its own steps, and the decisions of retry loops. At any moment, every operation has acted on
what the operation that triggered it left, but for those nested under the same one. The user gets to the end
exactly if only finitely many operations are ever begun. And if no callback begins any, the user gets there
with the result, the operations and the breaker that there would be without listeners; for a retried call and
for a call through the breaker these are those of `Retry.Policy.run` and of `Breaker.call`, whose events are
what the call has produced. -/
theorem delivery_complete_and_isolated (settings : Settings) (audience : Audience) (c : Circuit)
    (user : Script Circuit β) :
    (∀ m, Reaches (Machine.next settings audience) (.start c user) m →
      ActsInside settings c m.scene ∧
        (m.Idle → m.panicking = false ∧ m.scene.pending = [] ∧ HeardOnce settings audience m.scene)) ∧
    ((∃ m x, Reaches (Machine.next settings audience) (.start c user) m ∧ m.Ended x) ↔
      ∃ bound, ∀ m, Reaches (Machine.next settings audience) (.start c user) m →
        m.scene.deeds.length ≤ bound) ∧
    (audience.Silent →
      (∃ x s, ComesTo settings audience c user x s ∧ ComesTo settings {} c user x s) ∧
      (∀ {α ε : Type} (p : Policy ε) (script : Nat → Trial α ε) (now : Instant),
        ∃ s, ComesTo settings audience c (retried p (fun k _ _ => .ends (script k)) now)
            (p.run script now) s ∧
          s.news settings = (p.run script now).events.map .retry) ∧
      ∀ {α ε : Type} (classify : Classifier α ε) (now : Instant) (outcome : Outcome α ε),
        ∃ s, ComesTo settings audience c (guarded classify now fun _ => .ends (now, outcome))
            (({ settings } : Breaker).call classify now outcome c).1 s ∧
          s.circuit = (({ settings } : Breaker).call classify now outcome c).2.circuit ∧
          s.news settings = (({ settings } : Breaker).call classify now outcome c).2.events.map .breaker) := by
  refine ⟨fun m hreach => ?_, exists_ended_iff_bounded (shielded_start c user), fun hsilent => ?_⟩
  · have hsound := Sound.of_reaches hreach
    exact ⟨hsound.actsInside, fun hidle =>
      ⟨hsound.shielded.calm hidle, hsound.pending, hsound.told.heardOnce hidle⟩⟩
  · refine ⟨⟨_, _, comesTo_of_silent hsilent settings c user,
      comesTo_of_silent silent_empty settings c user⟩, ?_, ?_⟩
    · intro α ε p script now
      have hcomes := comesTo_of_silent hsilent settings c
        (retried p (fun k _ _ => .ends (script k)) now)
      obtain ⟨hresult, hnews⟩ := result_retried settings p script now { circuit := c }
      exact ⟨_, hresult ▸ hcomes, hnews⟩
    · intro α ε classify now outcome
      have hcomes := comesTo_of_silent hsilent settings c
        (guarded classify now fun _ => .ends (now, outcome))
      obtain ⟨hresult, hcircuit, hnews⟩ := result_guarded settings classify now outcome { circuit := c }
      exact ⟨_, hresult ▸ hcomes, hcircuit, hnews⟩

/-- Two listeners of a breaker and one of a retry loop. The first one closes the circuit as soon as it hears
that it has opened, and panics then. The one of the retry loop asks for a permit when it hears of a retry,
gives it back and panics. The others panic on every event. -/
def rowdy : Audience where
  breaker := [fun event _ =>
    if event = .transition .closed .opened then
      .does .start (.control .forceClosed) fun _ _ => .ends .panicked
    else .ends .returned, fun _ _ => .ends .panicked]
  retry := [fun event _ =>
    match event with
    | .retry .. => .does .start .acquire fun permit _ =>
      permit.elim (.ends .panicked) fun p => .does .start (.abandon p) fun _ _ => .ends .panicked
    | _ => .ends .panicked]

/-- Listeners that panic on every event. -/
def skittish : Audience where
  breaker := [fun _ _ => .ends .panicked]
  retry := [fun _ _ => .ends .panicked]

/-- Two attempts, the second one right after the first. -/
def twice : Policy Nat := { maxAttempts := 2, backoff := .linear .zero none, retryOn := some fun _ => true }

/-- A retried call whose attempts fail. -/
def outage : Script Circuit (Instant × Outcome Nat Nat) := fun circuit =>
  (retried twice (fun _ _ _ => .ends (.made .zero (.error 503))) .start circuit).bind
    (fun run _ => .ends (run.ended, .returned run.result)) circuit

/-- The retried call through the breaker, and then a call that succeeds. -/
def failsFirst : Script Circuit (CallResult Nat Nat × CallResult Nat Nat) := fun circuit =>
  (guarded Breaker.anyError .start outage circuit).bind (fun first circuit =>
    (guarded Breaker.anyError .start (fun _ => .ends (.start, .returned (.ok 200))) circuit).bind
      (fun second _ => .ends (first, second)) circuit) circuit

deriving instance DecidableEq for CallResult

/-- Listeners that only panic do not call back. -/
theorem skittish_silent : skittish.Silent := by
  intro news script hmem s
  cases news <;>
  · obtain rfl : script = fun _ => .ends .panicked := by simpa [skittish, Audience.callbacks] using hmem
    exact ⟨.panicked, rfl⟩

/-- A call whose two attempts fail opens the circuit, a listener closes it before the other one has heard of
it, and the next call passes. Everything has been heard, the retry and what its listener did included.
Without these listeners the next call is rejected, with panics as without them; and the retry loop makes the
run of its policy. -/
theorem delivery_to_rowdy_listeners :
    let m := (Machine.start (.new .start) failsFirst).run Breaker.twoTrials rowdy 120
    (Reaches (Machine.next Breaker.twoTrials rowdy) (.start (.new .start) failsFirst) m ∧ m.Idle ∧
      m.Ended (.ended (.error (.inner 503)), .ended (.ok 200)) ∧
      m.scene.news Breaker.twoTrials =
        [.breaker (.permitted .closed), .retry (.retry 0 .zero), .breaker (.permitted .closed),
          .retry (.exhausted 2), .breaker (.failure .closed 1), .breaker (.transition .closed .opened),
          .breaker (.transition .opened .closed), .breaker (.permitted .closed),
          .breaker (.success .closed)] ∧
      m.scene.heard.length = 16 ∧ m.scene.heard.count (0, ⟨1, 0, .retry (.retry 0 .zero)⟩) = 1 ∧
      ActsInside Breaker.twoTrials (.new .start) m.scene ∧ HeardOnce Breaker.twoTrials rowdy m.scene ∧
      ∃ bound, ∀ m, Reaches (Machine.next Breaker.twoTrials rowdy) (.start (.new .start) failsFirst) m →
        m.scene.deeds.length ≤ bound) ∧
    skittish.Silent ∧
      (∃ s, ComesTo Breaker.twoTrials skittish (.new .start) failsFirst
          (.ended (.error (.inner 503)), .ended (.error .rejected)) s ∧
        ComesTo Breaker.twoTrials {} (.new .start) failsFirst
          (.ended (.error (.inner 503)), .ended (.error .rejected)) s) ∧
      ∃ s, ComesTo Breaker.twoTrials skittish (.new .start)
          (retried twice (fun _ _ _ => .ends (.made .zero (.error 503) : Trial Nat Nat)) .start)
          (twice.run (fun _ => .made .zero (.error 503)) .start) s ∧
        s.news Breaker.twoTrials = [.retry (.retry 0 .zero), .retry (.exhausted 2)] := by
  intro m
  have hreach : Reaches (Machine.next Breaker.twoTrials rowdy) (.start (.new .start) failsFirst) m :=
    reaches_run ..
  have hended : m.Ended (.ended (.error (.inner 503)), .ended (.ok 200)) := by decide +kernel
  obtain ⟨hdelivered, hfinite, -⟩ :=
    delivery_complete_and_isolated Breaker.twoTrials rowdy (.new .start) failsFirst
  obtain ⟨hinside, hidle⟩ := hdelivered m hreach
  obtain ⟨-, -, honce⟩ := hidle hended.1
  have hbounded := hfinite.mp ⟨m, _, hreach, hended⟩
  -- The retry is the only news of the second operation, and one listener is due to hear it.
  have hsecond : m.scene.deeds[1]? = some ⟨none, .start, .announce (.retry 0 .zero), .new .start⟩ := by
    decide +kernel
  have hretry : m.scene.heard.count (0, ⟨1, 0, .retry (.retry 0 .zero)⟩) = 1 :=
    honce.once hsecond rfl 0 Nat.zero_lt_one
  -- What the user gets from the listeners that panic is computed where there are none.
  obtain ⟨-, -, hisolated⟩ :=
    delivery_complete_and_isolated Breaker.twoTrials skittish (.new .start) failsFirst
  obtain ⟨⟨x, s, hpanicking, halone⟩, hretried, -⟩ := hisolated skittish_silent
  have hcomputed := comesTo_of_silent silent_empty Breaker.twoTrials (.new .start) failsFirst
  obtain ⟨rfl, -⟩ := halone.unique hcomputed
  obtain ⟨s', hruns, hnews⟩ := hretried twice (fun _ => .made .zero (.error 503) : _ → Trial Nat Nat) .start
  exact ⟨⟨hreach, hended.1, hended, by decide +kernel, by decide +kernel, hretry, hinside, honce, hbounded⟩,
    skittish_silent, ⟨s, hpanicking, halone⟩, s', hruns, hnews.trans (by decide +kernel)⟩

end GuardedHttp.Callbacks
