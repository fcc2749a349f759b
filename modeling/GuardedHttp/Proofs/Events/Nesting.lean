import GuardedHttp.Proofs.Events.Delivery

/-!
# Operations inside operations

The circuit is, at any moment, what the deeds make of the first one in order (`Replayed`). A report that is
on the stack is of a deed under which all later deeds are nested, the innermost one of the latest deed
(`Nests`). A deed that a listener does is therefore separated from the deed that it heard of by nothing
but deeds nested under that one: it acts on what its trigger has left, but for what others have done
inside it (`Sound.actsInside`).

`Sound` collects what holds of all that a machine reaches, whatever its listeners do.
-/

namespace GuardedHttp.Callbacks

open Breaker (Circuit Permit Settings)
open StateTransition (Reaches)

variable {β : Type} {settings : Settings} {audience : Audience} {m m' : Machine β} {s : Scene}
  {cause : Option Report} {now : Instant} {action : Action} {deeds : List Deed} {r : Report}

/-! ## The circuit -/

/-- What deeds make of a circuit, first one first. -/
def replay (settings : Settings) (c : Circuit) (deeds : List Deed) : Circuit :=
  deeds.foldl (fun c d => (d.action.effect settings d.now c).1) c

/-- The circuit is what the deeds have made of the first one, and each of them acted on what those before
it had left. -/
structure Replayed (settings : Settings) (c : Circuit) (s : Scene) : Prop where
  /-- The circuit now. -/
  now : s.circuit = replay settings c s.deeds
  /-- The circuit before each deed. -/
  before : ∀ {n d}, s.deeds[n]? = some d → d.before = replay settings c (s.deeds.take n)

variable {c : Circuit}

/-- A deed of those done so far and one more is one of them or that one. -/
theorem getElem?_append_deed {deeds : List Deed} {d e : Deed} {k : Nat}
    (h : (deeds ++ [d])[k]? = some e) : deeds[k]? = some e ∨ (k = deeds.length ∧ d = e) := by
  rw [List.getElem?_append] at h
  split at h
  · exact .inl h
  · obtain ⟨hk, heq⟩ := List.getElem?_eq_some_iff.mp h
    simp only [List.length_singleton] at hk
    exact .inr ⟨by omega, by simpa using heq⟩

/-- Deeds are replayed one after another. -/
@[simp]
theorem replay_append (settings : Settings) (c : Circuit) (deeds later : List Deed) :
    replay settings c (deeds ++ later) = replay settings (replay settings c deeds) later :=
  List.foldl_append

/-- An operation acts on what the deeds before it have left. -/
theorem Replayed.perform (h : Replayed settings c s) :
    Replayed settings c (s.perform settings cause now action).2.1 where
  now := by
    rw [circuit_perform, deeds_perform, replay_append, ← h.now]
    rfl
  before {n d} hd := by
    rw [deeds_perform] at hd ⊢
    obtain hd | ⟨rfl, rfl⟩ := getElem?_append_deed hd
    · have hlt := (List.getElem?_eq_some_iff.mp hd).1
      rw [List.take_append_of_le_length (Nat.le_of_lt hlt)]
      exact h.before hd
    · rw [List.take_left]
      exact h.now

/-- Every turn leaves the circuit what the deeds have made of it. -/
theorem Replayed.turn (h : Turn settings audience m m') (hm : Replayed settings c m.scene) :
    Replayed settings c m'.scene := by
  cases h with
  | begins | nests => exact hm.perform
  | hears => exact ⟨hm.now, hm.before⟩
  | passes | finishes | returns | panics | catches | unwinds => exact hm

/-! ## Nesting -/

/-- The deed of a number was done by a listener that heard a report of another one. -/
def Triggers (deeds : List Deed) (n k : Nat) : Prop :=
  ∃ d r, deeds[k]? = some d ∧ d.cause = some r ∧ r.origin = n

/-- A deed was done by a listener that heard a report of another one, or of one that is nested under
it. -/
abbrev NestedUnder (deeds : List Deed) : Nat → Nat → Prop := Relation.TransGen (Triggers deeds)

/-- All deeds since the deed of a number are nested under it. -/
def Encloses (deeds : List Deed) (n : Nat) : Prop :=
  ∀ k, n < k → k < deeds.length → NestedUnder deeds n k

/-- Nested deeds have a report of an earlier deed as their cause, and between the two there is nothing
but deeds nested under the earlier one. -/
def WellNested (settings : Settings) (deeds : List Deed) : Prop :=
  ∀ {k d r}, deeds[k]? = some d → d.cause = some r →
    r.origin < k ∧ r ∈ reports settings deeds ∧
      ∀ l, r.origin < l → l < k → NestedUnder deeds r.origin l

/-- The reports that a frame is about. -/
def Frame.reports : Frame → List Report
  | telling batch _ => batch
  | running r _ => [r]

/-- The reports on a stack are of deeds that enclose what has been done since, the innermost one of the
latest deed. -/
structure Nests (settings : Settings) (m : Machine β) : Prop where
  /-- What has been done is nested well. -/
  wellNested : WellNested settings m.scene.deeds
  /-- The reports are of deeds that have been done. -/
  reported : ∀ r ∈ m.stack.flatMap Frame.reports, r ∈ Callbacks.reports settings m.scene.deeds
  /-- Their deeds enclose all later ones. -/
  encloses : ∀ r ∈ m.stack.flatMap Frame.reports, Encloses m.scene.deeds r.origin
  /-- Inner ones are of later deeds. -/
  ordered : (m.stack.flatMap Frame.reports).Pairwise fun r r' => r'.origin ≤ r.origin

/-- What is nested stays nested when more is done. -/
theorem NestedUnder.append {n k : Nat} (h : NestedUnder deeds n k) (later : List Deed) :
    NestedUnder (deeds ++ later) n k := by
  refine Relation.TransGen.mono (fun n k => ?_) _ _ h
  rintro ⟨d, r, hd, hcause, horigin⟩
  have hlt := (List.getElem?_eq_some_iff.mp hd).1
  exact ⟨d, r, by rw [List.getElem?_append_left hlt, hd], hcause, horigin⟩

/-- What has been reported stays reported when more is done. -/
theorem mem_reports_append (h : r ∈ reports settings deeds) (d : Deed) :
    r ∈ reports settings (deeds ++ [d]) := by
  rw [reports_append]
  exact List.mem_append_left _ h

/-- A deed keeps what is nested well, if its cause encloses all that has been done since. -/
theorem WellNested.append (h : WellNested settings deeds) {d : Deed}
    (hcause : ∀ r, d.cause = some r → r ∈ reports settings deeds ∧ Encloses deeds r.origin) :
    WellNested settings (deeds ++ [d]) := by
  intro k e r he hr
  obtain he | ⟨rfl, rfl⟩ := getElem?_append_deed he
  · obtain ⟨horigin, hmem, hwithin⟩ := h he hr
    exact ⟨horigin, mem_reports_append hmem d, fun l hl hk => (hwithin l hl hk).append _⟩
  · obtain ⟨hmem, hencloses⟩ := hcause r hr
    exact ⟨origin_lt_of_mem_reports hmem, mem_reports_append hmem d,
      fun l hl hk => (hencloses l hl hk).append _⟩

/-- A deed that a listener does on hearing a report is nested under all that encloses the report. -/
theorem Encloses.append {n : Nat} {d : Deed} (h : Encloses deeds n) (hr : r ∈ reports settings deeds)
    (hcause : d.cause = some r) (hn : n ≤ r.origin) : Encloses (deeds ++ [d]) n := by
  intro k hnk hk
  obtain hlt | hge := Nat.lt_or_ge k deeds.length
  · exact (h k hnk hlt).append _
  · obtain rfl : k = deeds.length := by simp at hk; omega
    have htriggers : Triggers (deeds ++ [d]) r.origin deeds.length := ⟨d, r, by simp, hcause, rfl⟩
    obtain heq | hlt := Nat.eq_or_lt_of_le hn
    · exact heq ▸ .single htriggers
    · exact ((h r.origin hlt (origin_lt_of_mem_reports hr)).append _).tail htriggers

/-- An operation that the callback on top begins is nested under all that the stack is about. -/
theorem Nests.perform {stack rest : List Frame} {panicking : Bool} {user user' : Script Circuit β}
    (h : Nests settings ⟨s, stack, panicking, user⟩) (hs : s.pending = [])
    (hrest : rest.flatMap Frame.reports = stack.flatMap Frame.reports)
    (hcause : ∀ r ∈ stack.flatMap Frame.reports, ∃ top ∈ stack.flatMap Frame.reports,
      cause = some top ∧ r.origin ≤ top.origin)
    (hmem : ∀ r, cause = some r → r ∈ stack.flatMap Frame.reports) :
    Nests settings ⟨(s.perform settings cause now action).2.1,
      .telling (s.perform settings cause now action).2.2 0 :: rest, panicking, user'⟩ := by
  obtain ⟨hnested, hreported, hencloses, hordered⟩ := h
  have hlast : ∀ r ∈ (s.perform settings cause now action).2.2, r.origin = s.deeds.length := by
    rw [perform_reports settings cause now action hs]
    exact fun r hr => origin_of_mem_reportsOf hr
  have hdeeds := deeds_perform (s := s) settings cause now action
  refine ⟨?_, ?_, ?_, ?_⟩
  · rw [hdeeds]
    exact hnested.append fun r hr => ⟨hreported r (hmem r hr), hencloses r (hmem r hr)⟩
  · intro r hr
    rw [List.flatMap_cons, List.mem_append, hrest] at hr
    obtain hr | hr := hr
    · rw [hdeeds, reports_append, List.mem_append]
      exact .inr (perform_reports settings cause now action hs ▸ hr)
    · exact hdeeds ▸ mem_reports_append (hreported r hr) _
  · intro r hr
    rw [List.flatMap_cons, List.mem_append, hrest] at hr
    rw [hdeeds]
    obtain hr | hr := hr
    · -- Nothing has been done since the operation that has just begun.
      intro k hk hlt
      rw [hlast r hr] at hk
      simp at hlt
      omega
    · obtain ⟨top, htop, htopCause, hle⟩ := hcause r hr
      exact (hencloses r hr).append (hreported top htop) htopCause hle
  · rw [List.flatMap_cons, hrest, List.pairwise_append]
    refine ⟨List.pairwise_of_forall_mem_list fun r hr r' hr' => ?_, hordered, fun r hr r' hr' => ?_⟩
    · exact (hlast r' hr').trans (hlast r hr).symm |>.le
    · exact hlast r hr ▸ (origin_lt_of_mem_reports (hreported r' hr')).le

/-- What is about less is nested, too. -/
theorem Nests.sublist {stack stack' : List Frame} {panicking panicking' : Bool}
    {user user' : Script Circuit β} (h : Nests settings ⟨s, stack, panicking, user⟩)
    (hsub : (stack'.flatMap Frame.reports).Sublist (stack.flatMap Frame.reports)) :
    Nests settings ⟨s, stack', panicking', user'⟩ where
  wellNested := h.wellNested
  reported r hr := h.reported r (hsub.subset hr)
  encloses r hr := h.encloses r (hsub.subset hr)
  ordered := h.ordered.sublist hsub

/-- Every turn keeps deeds nested well. -/
theorem Nests.turn (h : Turn settings audience m m') (hs : m.scene.pending = [])
    (hm : Nests settings m) : Nests settings m' := by
  cases h with
  | begins => exact hm.perform hs rfl (by simp) (by simp)
  | nests =>
    refine hm.perform hs rfl (fun r hr => ⟨_, List.mem_cons_self, rfl, ?_⟩) ?_
    · -- The callback that is running heard the report of the latest deed of all.
      obtain rfl | hr := List.mem_cons.mp hr
      · exact le_refl _
      · exact List.rel_of_pairwise_cons hm.ordered hr
    · rintro r ⟨⟩
      exact List.mem_cons_self
  | hears =>
    obtain ⟨hnested, hreported, hencloses, hordered⟩ := hm
    refine ⟨hnested, ?_, ?_, ?_⟩
    · simpa [Frame.reports, Scene.hear] using hreported
    · simpa [Frame.reports, Scene.hear] using hencloses
    · -- The report of the callback is the first one of the batch below.
      refine List.Pairwise.cons (fun r hr => ?_) hordered
      obtain rfl | hr := List.mem_cons.mp hr
      · exact le_refl _
      · exact List.rel_of_pairwise_cons hordered hr
  | passes => exact hm.sublist (List.sublist_cons_self ..)
  | finishes => exact hm.sublist (List.Sublist.refl _)
  | returns | panics | unwinds => exact hm.sublist (List.sublist_cons_self ..)
  | catches => exact hm.sublist (List.Sublist.refl _)

/-! ## All of it -/

/-- What holds of a machine at any moment. -/
structure Sound (settings : Settings) (audience : Audience) (c : Circuit) (m : Machine β) : Prop where
  /-- Panics are caught. -/
  shielded : Shielded m
  /-- The buffer of the circuit is empty. -/
  pending : m.scene.pending = []
  /-- What has been heard and what is still owed is what is due. -/
  told : Conserved settings audience m
  /-- The circuit is what the deeds have made of the first one. -/
  replayed : Replayed settings c m.scene
  /-- Deeds are nested well. -/
  nests : Nests settings m

/-- Every turn keeps a machine sound. -/
theorem Sound.turn (h : Turn settings audience m m') (hm : Sound settings audience c m) :
    Sound settings audience c m' where
  shielded := hm.shielded.turn h
  pending := pending_turn h hm.pending
  told := hm.told.turn h hm.pending
  replayed := hm.replayed.turn h
  nests := hm.nests.turn h hm.pending

/-- A machine is sound at the start, when nothing has been done and nothing is owed. -/
theorem sound_start (user : Script Circuit β) : Sound settings audience c (.start c user) where
  shielded := shielded_start c user
  pending := rfl
  told := List.Perm.refl []
  replayed := ⟨rfl, fun hd => by simp [Machine.start] at hd⟩
  nests := ⟨fun hd => by simp [Machine.start] at hd, by simp [Machine.start],
    by simp [Machine.start], List.Pairwise.nil⟩

/-- Whatever listeners do, all that a machine reaches is sound. -/
theorem Sound.of_reaches {user : Script Circuit β}
    (h : Reaches (Machine.next settings audience) (.start c user) m) : Sound settings audience c m :=
  reaches_induction h (sound_start user) fun hturn hm => hm.turn hturn

/-- Every deed acts on what those before it have left; one that a listener did, on what the deed that it
heard of had left, but for deeds nested under that one. -/
structure ActsInside (settings : Settings) (c : Circuit) (s : Scene) : Prop where
  /-- The circuit now is what the deeds have made of the first one. -/
  now : s.circuit = replay settings c s.deeds
  /-- The circuit before a deed is what the earlier deeds have made of the first one. -/
  before : ∀ {k d}, s.deeds[k]? = some d → d.before = replay settings c (s.deeds.take k)
  /-- The circuit before a nested deed is what the deeds nested under its trigger have made of the
  circuit that the trigger left. -/
  inside : ∀ {k d r}, s.deeds[k]? = some d → d.cause = some r →
    ∃ t, s.deeds[r.origin]? = some t ∧ (t.news settings)[r.place]? = some r.news ∧ r.origin < k ∧
      (∀ l, r.origin < l → l < k → NestedUnder s.deeds r.origin l) ∧
      d.before = replay settings (t.after settings) ((s.deeds.take k).drop (r.origin + 1))

/-- In a sound machine every deed acts on what it should. -/
theorem Sound.actsInside (h : Sound settings audience c m) : ActsInside settings c m.scene where
  now := h.replayed.now
  before hd := h.replayed.before hd
  inside {k d r} hd hr := by
    obtain ⟨hlt, hmem, hwithin⟩ := h.nests.wellNested hd hr
    obtain ⟨t, ht, hnews⟩ := mem_reports_iff.mp hmem
    refine ⟨t, ht, hnews, hlt, hwithin, ?_⟩
    -- The deeds before it are those before the trigger, the trigger, and those nested under it.
    obtain ⟨hlength, hget⟩ := List.getElem?_eq_some_iff.mp ht
    have htake : (m.scene.deeds.take k).take (r.origin + 1) = m.scene.deeds.take r.origin ++ [t] := by
      rw [List.take_take, Nat.min_eq_left hlt, List.take_succ_eq_append_getElem hlength, hget]
    have hafter : replay settings c (m.scene.deeds.take r.origin ++ [t]) = t.after settings := by
      rw [replay_append, ← h.replayed.before ht]
      rfl
    calc d.before
        = replay settings c (m.scene.deeds.take k) := h.replayed.before hd
      _ = replay settings c ((m.scene.deeds.take k).take (r.origin + 1) ++
            (m.scene.deeds.take k).drop (r.origin + 1)) := by rw [List.take_append_drop]
      _ = replay settings (replay settings c (m.scene.deeds.take r.origin ++ [t]))
            ((m.scene.deeds.take k).drop (r.origin + 1)) := by rw [replay_append, htake]
      _ = replay settings (t.after settings) ((m.scene.deeds.take k).drop (r.origin + 1)) := by
        rw [hafter]

end GuardedHttp.Callbacks
