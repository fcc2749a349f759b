import GuardedHttp.Events.Callbacks
import Mathlib.Computability.StateTransition
import Mathlib.Data.List.Perm.Basic
import Mathlib.Data.List.Nodup

/-!
# Nothing is told twice, and nothing is forgotten

`Action.effect` says what an operation makes of the circuit and what it produces for listeners to hear,
in terms of the circuit and of the decision alone: neither the buffer nor the telling comes into it.

`Turn` lists what one turn of a machine can be, and whatever each kind of turn keeps holds of all that is
reachable (`reaches_induction`).

A panic always has a batch below it that catches it (`Shielded`). An operation leaves nothing behind in
the buffer of the circuit (`pending_turn`), so that what it tells is what it has produced itself
(`perform_reports`). And what listeners have heard together with what the batches on the stack still owe
them is, at any moment, exactly what they are due of the reports so far (`Conserved`).
-/

namespace GuardedHttp.Callbacks

open Breaker (Circuit Permit Settings)
open StateTransition (Reaches)

variable {β : Type} {settings : Settings} {audience : Audience} {m m' : Machine β} {s : Scene}

/-! ## What is produced -/

/-- What an operation makes of the circuit, and what it produces for listeners to hear, in order: what the
circuit reports of its own step, or the decision that is announced. -/
def Action.effect (settings : Settings) (now : Instant) (c : Circuit) : Action → Circuit × List News
  | acquire => ((c.acquire settings now).2.1, (c.acquire settings now).2.2.map .breaker)
  | complete p failed =>
    ((c.complete settings now p failed).1, (c.complete settings now p failed).2.map .breaker)
  | abandon p => (c.release p, [])
  | control how => ((c.control now how).1, (c.control now how).2.map .breaker)
  | announce event => (c, [.retry event])

/-- The circuit that a deed left. -/
def Deed.after (settings : Settings) (d : Deed) : Circuit :=
  (d.action.effect settings d.now d.before).1

/-- What a deed produced for listeners to hear, in order. -/
def Deed.news (settings : Settings) (d : Deed) : List News :=
  (d.action.effect settings d.now d.before).2

/-- All that was produced in a scene, in order. -/
def Scene.news (settings : Settings) (s : Scene) : List News := s.deeds.flatMap (Deed.news settings)

/-- All reports of deeds that were done one after another. -/
def reports (settings : Settings) (deeds : List Deed) : List Report :=
  deeds.zipIdx.flatMap fun (d, origin) => reportsOf origin (d.news settings)

/-! ## Turns -/

/-- What one turn of a machine can be. -/
inductive Turn (settings : Settings) (audience : Audience) : Machine β → Machine β → Prop where
  /-- The user begins an operation. -/
  | begins {s user now action go} (h : user s.circuit = Code.does now action go) :
      Turn settings audience ⟨s, [], false, user⟩
        ⟨(s.perform settings none now action).2.1,
          [.telling (s.perform settings none now action).2.2 0], false,
          go (s.perform settings none now action).1⟩
  /-- A callback begins one. -/
  | nests {s report script rest user now action go} (h : script s = Code.does now action go) :
      Turn settings audience ⟨s, .running report script :: rest, false, user⟩
        ⟨(s.perform settings (some report) now action).2.1,
          .telling (s.perform settings (some report) now action).2.2 0 ::
            .running report (go (s.perform settings (some report) now action).1) :: rest,
          false, user⟩
  /-- A listener hears a report. -/
  | hears {s report batch told script rest user}
      (h : (audience.callbacks report.news)[told]? = some script) :
      Turn settings audience ⟨s, .telling (report :: batch) told :: rest, false, user⟩
        ⟨s.hear told report, .running report script :: .telling (report :: batch) (told + 1) :: rest,
          false, user⟩
  /-- All listeners have heard a report. -/
  | passes {s report batch told rest user} (h : (audience.callbacks report.news)[told]? = none) :
      Turn settings audience ⟨s, .telling (report :: batch) told :: rest, false, user⟩
        ⟨s, .telling batch 0 :: rest, false, user⟩
  /-- All reports of a batch have been told: its operation returns. -/
  | finishes {s told rest user} :
      Turn settings audience ⟨s, .telling [] told :: rest, false, user⟩ ⟨s, rest, false, user⟩
  /-- A callback returns. -/
  | returns {s report script rest user} (h : script s = Code.ends Ending.returned) :
      Turn settings audience ⟨s, .running report script :: rest, false, user⟩ ⟨s, rest, false, user⟩
  /-- A callback panics. -/
  | panics {s report script rest user} (h : script s = Code.ends Ending.panicked) :
      Turn settings audience ⟨s, .running report script :: rest, false, user⟩ ⟨s, rest, true, user⟩
  /-- A batch catches a panic. -/
  | catches {s batch told rest user} :
      Turn settings audience ⟨s, .telling batch told :: rest, true, user⟩
        ⟨s, .telling batch told :: rest, false, user⟩
  /-- A panic passes through a callback. -/
  | unwinds {s report script rest user} :
      Turn settings audience ⟨s, .running report script :: rest, true, user⟩ ⟨s, rest, true, user⟩

/-- A machine takes these turns and no others. -/
theorem next_eq_some_iff : m.next settings audience = some m' ↔ Turn settings audience m m' := by
  constructor
  · intro h
    obtain ⟨s, stack, panicking, user⟩ := m
    -- By what is on top of the stack, and whether it panics.
    rcases stack with _ | ⟨⟨_ | ⟨report, batch⟩, told⟩ | ⟨report, script⟩, rest⟩ <;> cases panicking
    case nil.false =>
      cases hu : user s.circuit with
      | ends x => simp [Machine.next, hu] at h
      | does now action go =>
        simp only [Machine.next, hu, Option.some.injEq] at h
        exact h ▸ .begins hu
    case nil.true => simp [Machine.next] at h
    case cons.telling.nil.false =>
      simp only [Machine.next, Option.some.injEq] at h
      exact h ▸ .finishes
    case cons.telling.cons.false =>
      cases hc : (audience.callbacks report.news)[told]? with
      | none =>
        simp only [Machine.next, hc, Option.some.injEq] at h
        exact h ▸ .passes hc
      | some script =>
        simp only [Machine.next, hc, Option.some.injEq] at h
        exact h ▸ .hears hc
    case cons.running.false =>
      cases hs : script s with
      | ends ending =>
        cases ending <;> simp only [Machine.next, hs, Option.some.injEq] at h
        · exact h ▸ .returns hs
        · exact h ▸ .panics hs
      | does now action go =>
        simp only [Machine.next, hs, Option.some.injEq] at h
        exact h ▸ .nests hs
    case cons.running.true =>
      simp only [Machine.next, Option.some.injEq] at h
      exact h ▸ .unwinds
    all_goals
      simp only [Machine.next, Option.some.injEq] at h
      exact h ▸ .catches
  -- The other way round each turn is what the machine does there.
  · intro h
    cases h <;> simp [Machine.next, *]

/-- Whatever holds at first and is kept by every turn holds of all that is reachable. -/
theorem reaches_induction {P : Machine β → Prop} (h : Reaches (Machine.next settings audience) m m')
    (hm : P m) (turn : ∀ {a b}, Turn settings audience a b → P a → P b) : P m' := by
  induction h with
  | refl => exact hm
  | tail _ hnext ih => exact turn (next_eq_some_iff.mp hnext) ih

/-- Any number of turns leads to what is reachable. -/
theorem reaches_run (settings : Settings) (audience : Audience) (turns : Nat) (m : Machine β) :
    Reaches (Machine.next settings audience) m (m.run settings audience turns) := by
  induction turns generalizing m with
  | zero => exact .refl
  | succ turns ih =>
    unfold Machine.run
    cases hnext : m.next settings audience with
    | none => exact .refl
    | some m₁ => exact (ih m₁).head hnext

/-! ## Panics -/

/-- Every callback on the stack stands on the batch whose report it heard. -/
def Caught : List Frame → Prop
  | [] => True
  | .telling .. :: rest => Caught rest
  | .running .. :: rest => (∃ batch told below, rest = .telling batch told :: below) ∧ Caught rest

/-- Whatever panics or is about to has a batch right below it. -/
structure Shielded (m : Machine β) : Prop where
  /-- Every callback has one. -/
  caught : Caught m.stack
  /-- A panic that is on its way has one. -/
  panic : m.panicking = true → ∃ batch told below, m.stack = .telling batch told :: below

/-- At the start there is neither a callback nor a panic. -/
theorem shielded_start (c : Circuit) (user : Script Circuit β) : Shielded (.start c user) :=
  ⟨trivial, by simp [Machine.start]⟩

/-- Every turn leaves a batch below whatever panics. -/
theorem Shielded.turn (h : Turn settings audience m m') (hm : Shielded m) : Shielded m' := by
  obtain ⟨hcaught, hpanic⟩ := hm
  cases h with
  | begins => exact ⟨trivial, by simp⟩
  | nests => exact ⟨hcaught, by simp⟩
  | hears => exact ⟨⟨⟨_, _, _, rfl⟩, hcaught⟩, by simp⟩
  | passes => exact ⟨hcaught, by simp⟩
  | finishes => exact ⟨hcaught, by simp⟩
  | returns => exact ⟨hcaught.2, by simp⟩
  | panics => exact ⟨hcaught.2, fun _ => hcaught.1⟩
  | catches => exact ⟨hcaught, by simp⟩
  -- No callback is unwound: a panic leaves the stack with the callback that panicked.
  | unwinds => simp at hpanic

/-- No panic comes through to the user: it would have a batch below it, and there is none. -/
theorem Shielded.calm (hm : Shielded m) (hidle : m.Idle) : m.panicking = false := by
  by_contra hpanic
  obtain ⟨batch, told, below, hstack⟩ := hm.panic (by simpa using hpanic)
  exact absurd (hidle.symm.trans hstack) (by simp)

/-! ## Operations -/

variable {cause : Option Report} {now : Instant} {action : Action}

/-- The deed that an operation is, done in a scene. -/
def Scene.deed (s : Scene) (cause : Option Report) (now : Instant) (action : Action) : Deed :=
  ⟨cause, now, action, s.circuit⟩

/-- An operation makes of the circuit what it should. -/
theorem step_eq_effect (settings : Settings) (now : Instant) (c : Circuit) (action : Action) :
    (action.step settings now c).2.1 = (action.effect settings now c).1 := by
  cases action <;> rfl

/-- Of what a step buffers, nothing is left behind and nothing is added: an operation tells what it has
produced. -/
theorem take_step (settings : Settings) (now : Instant) (c : Circuit) (action : Action) :
    action.take (action.step settings now c).2.2 = ([], (action.effect settings now c).2) := by
  cases action <;> rfl

section

variable (settings) (cause) (now) (action) (hs : s.pending = [])

/-- An operation leaves the circuit that its deed leads to. -/
@[simp]
theorem circuit_perform : (s.perform settings cause now action).2.1.circuit =
    (s.deed cause now action).after settings := step_eq_effect ..

/-- An operation is one more deed. -/
@[simp]
theorem deeds_perform : (s.perform settings cause now action).2.1.deeds =
    s.deeds ++ [s.deed cause now action] := rfl

/-- An operation has the news of its deed, behind all earlier news. -/
theorem news_perform : (s.perform settings cause now action).2.1.news settings =
    s.news settings ++ (s.deed cause now action).news settings := by
  simp [Scene.news]

/-- An operation is not heard of before it has told its reports. -/
@[simp]
theorem hearings_perform : (s.perform settings cause now action).2.1.hearings = s.hearings := rfl

include hs

/-- An operation leaves nothing in the buffer. -/
theorem pending_perform : (s.perform settings cause now action).2.1.pending = [] := by
  show (action.take (s.pending ++ _)).1 = []
  rw [hs, List.nil_append, take_step]

/-- An operation in a scene whose buffer is empty tells what it produced itself. -/
theorem perform_reports : (s.perform settings cause now action).2.2 =
    reportsOf s.deeds.length ((s.deed cause now action).news settings) := by
  show reportsOf _ (action.take (s.pending ++ _)).2 = _
  rw [hs, List.nil_append, take_step]
  rfl

end

/-- Whenever the lock is free, the buffer is empty. -/
theorem pending_turn (h : Turn settings audience m m') (hm : m.scene.pending = []) :
    m'.scene.pending = [] := by
  cases h with
  | begins | nests => exact pending_perform _ _ _ _ hm
  | hears | passes | finishes | returns | panics | catches | unwinds => exact hm

/-! ## Reports -/

/-- The reports of a deed bear its number. -/
theorem origin_of_mem_reportsOf {origin : Nat} {news : List News} {r : Report}
    (h : r ∈ reportsOf origin news) : r.origin = origin := by
  obtain ⟨place, -, rfl⟩ := List.mem_mapIdx.mp h
  rfl

/-- The reports of a deed differ from each other, in their places. -/
theorem nodup_reportsOf (origin : Nat) (news : List News) : (reportsOf origin news).Nodup := by
  have hplaces : ((reportsOf origin news).map (·.place)).Nodup := by
    have heq : (reportsOf origin news).map (·.place) = List.range news.length := by
      refine List.ext_getElem (by simp [reportsOf]) fun i _ _ => ?_
      simp [reportsOf]
    exact heq ▸ List.nodup_range
  exact hplaces.of_map _

variable {deeds : List Deed} {r : Report}

/-- The reports of a deed come after those of all deeds before it. -/
theorem reports_append (settings : Settings) (deeds : List Deed) (d : Deed) :
    reports settings (deeds ++ [d]) =
      reports settings deeds ++ reportsOf deeds.length (d.news settings) := by
  simp [reports, List.zipIdx_append]

/-- A report belongs to the deed of its number, and has the news of its place there. -/
theorem mem_reports_iff : r ∈ reports settings deeds ↔
    ∃ d, deeds[r.origin]? = some d ∧ (d.news settings)[r.place]? = some r.news := by
  unfold reports
  rw [List.mem_flatMap]
  constructor
  · rintro ⟨⟨d, origin⟩, hd, hr⟩
    obtain ⟨place, hplace, rfl⟩ := List.mem_mapIdx.mp hr
    exact ⟨d, List.mk_mem_zipIdx_iff_getElem?.mp hd, List.getElem?_eq_getElem hplace⟩
  · rintro ⟨d, hd, hnews⟩
    obtain ⟨hplace, heq⟩ := List.getElem?_eq_some_iff.mp hnews
    refine ⟨(d, r.origin), List.mk_mem_zipIdx_iff_getElem?.mpr hd, ?_⟩
    exact List.mem_mapIdx.mpr ⟨r.place, hplace, by rw [heq]⟩

/-- What is reported has been done. -/
theorem origin_lt_of_mem_reports (h : r ∈ reports settings deeds) : r.origin < deeds.length := by
  obtain ⟨d, hd, -⟩ := mem_reports_iff.mp h
  exact (List.getElem?_eq_some_iff.mp hd).1

/-- No report is like another. -/
theorem nodup_reports (settings : Settings) (deeds : List Deed) : (reports settings deeds).Nodup := by
  induction deeds using List.reverseRecOn with
  | nil => exact List.nodup_nil
  | append_singleton deeds d ih =>
    rw [reports_append]
    refine ih.append (nodup_reportsOf ..) fun r hr hlast => ?_
    have hlt := origin_lt_of_mem_reports hr
    rw [origin_of_mem_reportsOf hlast] at hlt
    exact Nat.lt_irrefl _ hlt

/-! ## Hearing -/

/-- How many listeners a piece of news has. -/
def Audience.size (audience : Audience) : News → Nat
  | .breaker _ => audience.breaker.length
  | .retry _ => audience.retry.length

/-- Every listener has a callback. -/
theorem length_callbacks (audience : Audience) (news : News) :
    (audience.callbacks news).length = audience.size news := by
  cases news <;> exact List.length_map _

/-- Who is due to hear a report. -/
def Audience.due (audience : Audience) (r : Report) : List (Nat × Report) :=
  (List.range (audience.size r.news)).map (·, r)

/-- Who is still due to hear a report when some have. -/
def Audience.dueFrom (audience : Audience) (told : Nat) (r : Report) : List (Nat × Report) :=
  (List.range' told (audience.size r.news - told)).map (·, r)

/-- Who is still due to hear what. -/
def Frame.owes (audience : Audience) : Frame → List (Nat × Report)
  | telling [] _ => []
  | telling (r :: batch) told => audience.dueFrom told r ++ batch.flatMap audience.due
  | running .. => []

/-- Who has heard what. -/
def Scene.heard (s : Scene) : List (Nat × Report) := s.hearings.map fun h => (h.listener, h.report)

/-- What has been heard and what is still owed is what is due. -/
def Conserved (settings : Settings) (audience : Audience) (m : Machine β) : Prop :=
  (m.scene.heard ++ m.stack.flatMap (Frame.owes audience)).Perm
    ((reports settings m.scene.deeds).flatMap audience.due)

/-- As long as nobody has been told, everybody is due to hear a report. -/
theorem dueFrom_zero (audience : Audience) (r : Report) : audience.dueFrom 0 r = audience.due r := by
  simp [Audience.dueFrom, Audience.due, List.range_eq_range']

/-- A batch of which nothing has been told is owed to everybody. -/
theorem owes_telling_zero (audience : Audience) (batch : List Report) :
    (Frame.telling batch 0).owes audience = batch.flatMap audience.due := by
  cases batch with
  | nil => rfl
  | cons r batch => simp [Frame.owes, dueFrom_zero]

/-- The next listener in turn is the first of those who are still due. -/
theorem dueFrom_of_some {r : Report} {told : Nat} {script : Script Scene Ending}
    (h : (audience.callbacks r.news)[told]? = some script) :
    audience.dueFrom told r = (told, r) :: audience.dueFrom (told + 1) r := by
  have hlt : told < audience.size r.news := length_callbacks audience r.news ▸ (List.getElem?_eq_some_iff.mp h).1
  have hleft : audience.size r.news - told = (audience.size r.news - (told + 1)) + 1 := by omega
  simp [Audience.dueFrom, hleft, List.range'_succ]

/-- When there is no next listener, nobody is due any more. -/
theorem dueFrom_of_none {r : Report} {told : Nat} (h : (audience.callbacks r.news)[told]? = none) :
    audience.dueFrom told r = [] := by
  have hle : audience.size r.news ≤ told := length_callbacks audience r.news ▸ List.getElem?_eq_none_iff.mp h
  simp [Audience.dueFrom, Nat.sub_eq_zero_of_le hle]

/-- An operation owes its listeners what it has produced. -/
theorem Conserved.perform {stack rest : List Frame} {panicking : Bool} {user user' : Script Circuit β}
    (h : Conserved settings audience ⟨s, stack, panicking, user⟩) (hs : s.pending = [])
    (hrest : rest.flatMap (Frame.owes audience) = stack.flatMap (Frame.owes audience)) :
    Conserved settings audience ⟨(s.perform settings cause now action).2.1,
      .telling (s.perform settings cause now action).2.2 0 :: rest, panicking, user'⟩ := by
  unfold Conserved Scene.heard at h ⊢
  simp only [hearings_perform, deeds_perform, reports_append, List.flatMap_append, List.flatMap_cons,
    owes_telling_zero, perform_reports settings cause now action hs, hrest] at h ⊢
  -- What is new stands before what the stack owed on the left, and behind all reports on the right.
  refine List.Perm.trans ?_ (h.append_right _)
  rw [List.append_assoc]
  exact List.perm_append_comm.append_left _

/-- Every turn keeps what has been heard and what is owed together what is due. -/
theorem Conserved.turn (h : Turn settings audience m m') (hs : m.scene.pending = [])
    (hm : Conserved settings audience m) : Conserved settings audience m' := by
  cases h with
  | begins => exact hm.perform hs rfl
  | nests => exact hm.perform hs rfl
  | hears hscript =>
    -- The listener moves from those who are owed the report to those who have heard it.
    have hdue := dueFrom_of_some hscript
    simpa [Conserved, Scene.heard, Scene.hear, Frame.owes, hdue] using hm
  | passes hnone =>
    unfold Conserved at hm ⊢
    rw [List.flatMap_cons, owes_telling_zero]
    simpa [Frame.owes, dueFrom_of_none hnone] using hm
  | finishes | returns | panics | unwinds => simpa [Conserved, Frame.owes] using hm
  | catches => exact hm

/-- Every piece of news has been heard by every listener once, and nothing else has been heard. -/
structure HeardOnce (settings : Settings) (audience : Audience) (s : Scene) : Prop where
  /-- The news of each deed, by each of its listeners. -/
  once : ∀ {n place d news}, s.deeds[n]? = some d → (d.news settings)[place]? = some news →
    ∀ i < audience.size news, s.heard.count (i, ⟨n, place, news⟩) = 1
  /-- What has been heard is news of a deed, and who heard it is one of its listeners. -/
  only : ∀ {i n place news}, (i, ⟨n, place, news⟩) ∈ s.heard →
    i < audience.size news ∧
      ∃ d, s.deeds[n]? = some d ∧ (d.news settings)[place]? = some news

/-- Listeners are due to hear the reports that they have a place for. -/
theorem mem_flatMap_due {i : Nat} {r : Report} {rs : List Report} :
    (i, r) ∈ rs.flatMap audience.due ↔ r ∈ rs ∧ i < audience.size r.news := by
  simp [Audience.due]

/-- Nobody is due to hear anything twice. -/
theorem nodup_due (settings : Settings) (audience : Audience) (deeds : List Deed) :
    ((reports settings deeds).flatMap audience.due).Nodup := by
  refine List.nodup_flatMap.mpr ⟨fun r _ => ?_, (nodup_reports settings deeds).imp fun hne => ?_⟩
  · exact List.nodup_range.map fun i j h => congrArg Prod.fst h
  · rintro ⟨i, r⟩ hleft hright
    simp only [Audience.due, List.mem_map, Prod.mk.injEq] at hleft hright
    obtain ⟨_, _, _, rfl⟩ := hleft
    obtain ⟨_, _, _, rfl⟩ := hright
    exact hne rfl

/-- Once nothing is owed any more, everything has been heard once. -/
theorem Conserved.heardOnce (h : Conserved settings audience m) (hidle : m.Idle) :
    HeardOnce settings audience m.scene := by
  have hperm : m.scene.heard.Perm ((reports settings m.scene.deeds).flatMap audience.due) := by
    unfold Conserved at h
    rw [show m.stack = [] from hidle] at h
    simpa using h
  constructor
  · intro n place d news hd hnews i hi
    have hmem : (⟨n, place, news⟩ : Report) ∈ reports settings m.scene.deeds :=
      mem_reports_iff.mpr ⟨d, hd, hnews⟩
    rw [hperm.count_eq]
    exact List.count_eq_one_of_mem (nodup_due ..) (mem_flatMap_due.mpr ⟨hmem, hi⟩)
  · intro i n place news hmem
    obtain ⟨hreport, hi⟩ := mem_flatMap_due.mp (hperm.mem_iff.mp hmem)
    exact ⟨hi, mem_reports_iff.mp hreport⟩

end GuardedHttp.Callbacks
