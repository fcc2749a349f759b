import GuardedHttp.Client.Correlation

/-!
# Scopes keep apart

Branches of work take turns with a slot that they share. What a branch sees of it is what its own scopes
say, as if it ran alone: `Step.sees` reads this off the steps that it has left and the scopes that it has
open, and no turn changes what has been seen and what is still to be seen taken together
(`Branch.resume_sees`). Leaving scopes, or dropping them before they have come to their end, puts back the
id of the scope around them (`Running.Nested.unwind_take`), so that the slot is the same between turns.

Main statements: `Crowd.play_spec`, for any order of turns and drops, and `runBranches_eq`.
-/

namespace GuardedHttp.Correlation

/-- The current id inside open scopes, innermost first, around which the slot holds something. -/
def current (scopes : List RequestId) (base : Slot) : Slot := scopes.head?.or base

/-- What steps see, one after another, inside open scopes, innermost first. -/
def Step.sees (base : Slot) : (scopes : List RequestId) → List Step → List Slot
  | _, [] => []
  | scopes, .observe :: rest => current scopes base :: sees base scopes rest
  | scopes, .enter id :: rest => sees base (id :: scopes) rest
  | scopes, .leave :: rest => sees base scopes.tail rest
  | scopes, .pause :: rest => sees base scopes rest

mutual

/-- The steps of an item see what the item sees. -/
theorem Item.sees_steps (base : Slot) (scopes : List RequestId) (rest : List Step) :
    (item : Item) → Step.sees base scopes (item.steps ++ rest) =
      item.sees (current scopes base) ++ Step.sees base scopes rest
  | .observe => rfl
  | .pause => rfl
  | .within id items => by
    have hinside := Item.sees_stepsOf base (id :: scopes) (.leave :: rest) items
    rw [Item.steps, List.cons_append, List.cons_append, List.append_assoc]
    exact hinside

/-- The steps of items see what the items see. -/
theorem Item.sees_stepsOf (base : Slot) (scopes : List RequestId) (rest : List Step) :
    (items : List Item) → Step.sees base scopes (Item.stepsOf items ++ rest) =
      Item.seesAll (current scopes base) items ++ Step.sees base scopes rest
  | [] => rfl
  | item :: items => by
    have hfirst := Item.sees_steps base scopes (Item.stepsOf items ++ rest) item
    have hothers := Item.sees_stepsOf base scopes rest items
    rw [Item.stepsOf, List.append_assoc, hfirst, hothers, Item.seesAll, List.append_assoc]

end

/-! ## A branch that is running -/

namespace Running

/-- The ids of the open scopes, innermost first. -/
def scopes (r : Running) : List RequestId := r.frames.map (·.id)

/-- Every open scope has found the id of the scope around it. -/
def FoundIn (base : Slot) : List Frame → Prop
  | [] => True
  | f :: rest => f.found = current (rest.map (·.id)) base ∧ FoundIn base rest

/-- The open scopes are nested, and the slot holds the id of the innermost one. -/
structure Nested (base : Slot) (r : Running) : Prop where
  /-- The current id. -/
  slot : r.slot = current r.scopes base
  /-- What the scopes have found. -/
  found : FoundIn base r.frames

variable {base : Slot} {r : Running}

/-- Scopes stay nested when one is entered. -/
theorem Nested.enter (h : r.Nested base) (id : RequestId) : (r.enter id).Nested base :=
  ⟨rfl, h.slot, h.found⟩

/-- Scopes stay nested when the innermost one is left. -/
theorem Nested.leave (h : r.Nested base) : r.leave.Nested base := by
  obtain ⟨frames, slot, seen⟩ := r
  cases frames with
  | nil => exact h
  | cons f rest => exact ⟨h.found.1, h.found.2⟩

/-- Leaving closes the innermost scope. -/
theorem scopes_leave (r : Running) : r.leave.scopes = r.scopes.tail := by
  obtain ⟨frames, slot, seen⟩ := r
  cases frames <;> rfl

/-- Leaving a scope is not seen. -/
theorem seen_leave (r : Running) : r.leave.seen = r.seen := by
  obtain ⟨frames, slot, seen⟩ := r
  cases frames <;> rfl

/-- A branch that runs sees what its steps see inside its scopes, and stops with what is left of this. -/
theorem Nested.run (h : r.Nested base) (steps : List Step) :
    (run steps r).2.Nested base ∧
      (run steps r).2.seen ++ Step.sees base (run steps r).2.scopes (run steps r).1 =
        r.seen ++ Step.sees base r.scopes steps := by
  induction steps generalizing r with
  | nil => exact ⟨h, rfl⟩
  | cons s rest ih =>
    cases s with
    | pause => exact ⟨h, rfl⟩
    | observe =>
      obtain ⟨hnested, hsees⟩ := ih (r := { r with seen := r.seen ++ [r.slot] }) ⟨h.slot, h.found⟩
      refine ⟨hnested, hsees.trans ?_⟩
      rw [List.append_assoc, h.slot]
      rfl
    | enter id => exact ih (h.enter id)
    | leave =>
      obtain ⟨hnested, hsees⟩ := ih h.leave
      rw [scopes_leave, seen_leave] at hsees
      exact ⟨hnested, hsees⟩

/-- Leaving the innermost scopes, however many, puts back the id of the scope around them. -/
theorem Nested.unwind_take (h : r.Nested base) (k : Nat) :
    unwind (r.frames.take k) r.slot = current (r.scopes.drop k) base := by
  induction k generalizing r with
  | zero => exact h.slot
  | succ k ih =>
    obtain ⟨frames, slot, seen⟩ := r
    cases frames with
    | nil => exact h.slot
    | cons f rest => exact ih h.leave

/-- A branch that runs takes a step at least, if there is one. -/
theorem length_run (steps : List Step) (r : Running) : (run steps r).1.length ≤ steps.length - 1 := by
  induction steps generalizing r with
  | nil => exact Nat.le_refl _
  | cons s rest ih =>
    have hshorter (r : Running) : (run rest r).1.length ≤ rest.length :=
      Nat.le_trans (ih r) (Nat.sub_le _ _)
    cases s with
    | pause => exact Nat.le_refl _
    | observe | enter | leave => exact hshorter _

end Running

/-! ## A branch that takes turns -/

namespace Branch

variable (b : Branch) (slot : Slot)

/-- The branch of some work before it begins. -/
def «of» (items : List Item) : Branch := { steps := Item.stepsOf items }

/-- The branch with its open scopes entered again. -/
def entered : Running := b.scopes.foldl Running.enter { frames := [], slot, seen := b.seen }

/-- The branch where it stops again. -/
def stopped : List Step × Running := Running.run b.steps (b.entered slot)

/-- What the branch will see. -/
def sees : List Slot := Step.sees slot b.scopes.reverse b.steps

/-- A branch that is resumed runs on inside its scopes and leaves them where it stops. -/
theorem resume_eq : b.resume slot =
    ({ scopes := (b.stopped slot).2.scopes.reverse, steps := (b.stopped slot).1,
       seen := (b.stopped slot).2.seen },
      Running.unwind (b.stopped slot).2.frames (b.stopped slot).2.slot) := rfl

/-- To enter the scopes of a branch again nests them in the slot as it is, and shows nothing new. -/
theorem entered_spec : (b.entered slot).Nested slot ∧ (b.entered slot).scopes = b.scopes.reverse ∧
    (b.entered slot).seen = b.seen := by
  have entering (ids : List RequestId) (r : Running) (h : r.Nested slot) :
      (ids.foldl Running.enter r).Nested slot ∧
        (ids.foldl Running.enter r).scopes = ids.reverse ++ r.scopes ∧
        (ids.foldl Running.enter r).seen = r.seen := by
    induction ids generalizing r with
    | nil => exact ⟨h, rfl, rfl⟩
    | cons id rest ih =>
      obtain ⟨hnested, hscopes, hseen⟩ := ih (r.enter id) (h.enter id)
      refine ⟨hnested, hscopes.trans ?_, hseen⟩
      rw [List.reverse_cons, List.append_assoc]
      rfl
  have h := entering b.scopes { frames := [], slot, seen := b.seen } ⟨rfl, trivial⟩
  rwa [show Running.scopes { frames := [], slot, seen := b.seen } = [] from rfl, List.append_nil] at h

/-- Where a branch stops, its scopes are nested. -/
theorem nested_stopped : (b.stopped slot).2.Nested slot :=
  ((b.entered_spec slot).1.run b.steps).1

/-- What a branch has seen and will see, taken together, stays the same when it takes a turn. -/
theorem resume_sees : (b.resume slot).1.seen ++ (b.resume slot).1.sees slot = b.seen ++ b.sees slot := by
  obtain ⟨hnested, hscopes, hseen⟩ := b.entered_spec slot
  have hrun := (hnested.run b.steps).2
  rw [hscopes, hseen] at hrun
  rw [resume_eq, sees, List.reverse_reverse]
  exact hrun

/-- A branch takes a step at least in its turn, if there is one. -/
theorem length_resume : (b.resume slot).1.steps.length ≤ b.steps.length - 1 :=
  Running.length_run _ _

/-- A branch that has not begun will see what its work sees. -/
theorem sees_of (items : List Item) : (Branch.of items).sees slot = Item.seesAll slot items := by
  have h := Item.sees_stepsOf slot [] [] items
  rwa [List.append_nil, show Step.sees slot [] [] = [] from rfl, List.append_nil] at h

/-- The slot after the branch has been dropped. Its scopes are entered while what is inside them goes away,
and left again. -/
def discard : Slot := (({ b with steps := [] } : Branch).resume slot).2

/-- A branch that is dropped leaves the slot as it found it. -/
theorem discard_eq : b.discard slot = slot := Branch.resume_slot _ _

end Branch

/-! ## Branches in any order -/

/-- Whose turn it is, or who is dropped. -/
inductive Pick where
  /-- A branch runs up to its next pause. -/
  | resume (i : Nat)
  /-- A branch is dropped, wherever it has stopped. -/
  | discard (i : Nat)

/-- Branches that share a slot; those that have been dropped are gone. -/
structure Crowd where
  /-- The branches. -/
  branches : List (Option Branch)
  /-- The current id. -/
  slot : Slot := none

namespace Crowd

/-- Branches that have not begun. -/
def start (work : List (List Item)) : Crowd := { branches := work.map fun items => some (.of items) }

/-- Something happens to one branch, if it is there. -/
def turnOf (c : Crowd) (i : Nat) (what : Branch → Slot → Option Branch × Slot) : Crowd :=
  match c.branches[i]? with
  | some (some b) =>
    { branches := c.branches.set i (what b c.slot).1, slot := (what b c.slot).2 }
  | some none | none => c

/-- A branch has its turn, or is dropped. -/
def pick (c : Crowd) : Pick → Crowd
  | .resume i => c.turnOf i fun b slot => (some (b.resume slot).1, (b.resume slot).2)
  | .discard i => c.turnOf i fun b slot => (none, b.discard slot)

/-- Any number of turns and drops. -/
def play (c : Crowd) (picks : List Pick) : Crowd := picks.foldl pick c

/-- The slot is empty between turns, and every branch sees what its work sees alone. -/
structure Apart (work : List (List Item)) (c : Crowd) : Prop where
  /-- No id is current. -/
  slot : c.slot = none
  /-- What a branch has seen and will see. -/
  sees : ∀ (i : Nat) (items : List Item) (b : Branch), work[i]? = some items →
    c.branches[i]? = some (some b) → b.seen ++ b.sees none = Item.seesAll none items

variable {work : List (List Item)} {c : Crowd}

/-- At the start no id is current, and every branch has all that it sees before it. -/
theorem apart_start (work : List (List Item)) : (start work).Apart work := by
  refine ⟨rfl, fun i items b hitems hb => ?_⟩
  rw [start, List.getElem?_map, hitems] at hb
  cases hb
  exact Branch.sees_of none items

/-- Branches stay apart through what one of them does, if this leaves the slot and what the branch sees
on the whole. -/
theorem Apart.turnOf (h : c.Apart work) (i : Nat) (what : Branch → Slot → Option Branch × Slot)
    (hslot : ∀ b slot, (what b slot).2 = slot) (hsees : ∀ b slot, ∀ after ∈ (what b slot).1,
      after.seen ++ after.sees slot = b.seen ++ b.sees slot) : (c.turnOf i what).Apart work := by
  unfold Crowd.turnOf
  split
  · rename_i b hb
    refine ⟨(hslot _ _).trans h.slot, fun j items other hitems hother => ?_⟩
    simp only [List.getElem?_set] at hother
    split at hother
    · rename_i hij
      subst hij
      split at hother
      · have hafter := hsees b c.slot other (Option.some.inj hother)
        rw [h.slot] at hafter
        exact hafter.trans (h.sees i items b hitems hb)
      · cases hother
    · exact h.sees j items other hitems hother
  all_goals exact h

/-- Branches stay apart whoever takes a turn or is dropped. -/
theorem Apart.pick (h : c.Apart work) (p : Pick) : (c.pick p).Apart work := by
  cases p with
  | resume i =>
    refine h.turnOf i (fun b slot => (some (b.resume slot).1, (b.resume slot).2))
      (fun b slot => b.resume_slot slot) fun b slot after hafter => ?_
    rw [← Option.some.inj hafter]
    exact b.resume_sees slot
  | discard i =>
    exact h.turnOf i (fun b slot => (none, b.discard slot)) (fun b slot => b.discard_eq slot)
      fun b slot after hafter => by cases hafter

/-- Whoever takes turns and whoever is dropped, the slot is empty in between, and what a branch has seen
is the beginning of what its work sees alone. -/
theorem play_spec (work : List (List Item)) (picks : List Pick) :
    ((start work).play picks).Apart work :=
  List.foldlRecOn picks _ (apart_start work) fun _ h p _ => h.pick p

end Crowd

/-! ## Branches in turns -/

/-- In a round every branch takes its turn with the slot as it was at the beginning. -/
theorem round_eq (branches : List Branch) (slot : Slot) :
    round branches slot = (branches.map fun b => (b.resume slot).1, slot) := by
  have hfold (done : List Branch) : branches.foldl
      (fun past b => (past.1 ++ [(b.resume past.2).1], (b.resume past.2).2)) (done, slot) =
        (done ++ branches.map fun b => (b.resume slot).1, slot) := by
    induction branches generalizing done with
    | nil => rw [List.foldl_nil, List.map_nil, List.append_nil]
    | cons b rest ih =>
      have hslot := b.resume_slot slot
      rw [List.foldl_cons, List.map_cons]
      dsimp only
      rw [hslot, ih, List.append_assoc]
      rfl
  exact hfold []

/-- With turns enough, the branches come to their ends. -/
theorem rounds_spec (slot : Slot) (times : Nat) (branches : List Branch)
    (h : ∀ b ∈ branches, b.steps.length ≤ times) :
    (rounds times branches slot).1.map (·.seen) = branches.map fun b => b.seen ++ b.sees slot := by
  -- By induction on the turns, each of which shortens what is left of every branch.
  induction times generalizing branches with
  | zero =>
    refine List.map_congr_left fun b hb => ?_
    have hnone : b.steps = [] := List.eq_nil_of_length_eq_zero (Nat.le_zero.mp (h b hb))
    rw [Branch.sees, hnone, Step.sees, List.append_nil]
  | succ times ih =>
    have hshorter : ∀ b ∈ branches.map fun b => (b.resume slot).1, b.steps.length ≤ times := by
      intro b hb
      obtain ⟨earlier, hearlier, rfl⟩ := List.mem_map.mp hb
      have hresume := earlier.length_resume slot
      have hlength := h earlier hearlier
      omega
    rw [rounds, round_eq]
    dsimp only
    rw [ih _ hshorter, List.map_map]
    exact List.map_congr_left fun b _ => b.resume_sees slot

/-- Branches that run in turns see what they would see alone. -/
theorem runBranches_eq (work : List (List Item)) : runBranches work = work.map (Item.seesAll none) := by
  have hturns (branches : List Branch) (n : Nat) :
      n ≤ branches.foldl (fun n b => max n (b.steps.length + 1)) n ∧
      ∀ b ∈ branches, b.steps.length ≤ branches.foldl (fun n b => max n (b.steps.length + 1)) n := by
    induction branches generalizing n with
    | nil => exact ⟨Nat.le_refl _, fun _ hb => absurd hb List.not_mem_nil⟩
    | cons first rest ih =>
      obtain ⟨hle, hrest⟩ := ih (max n (first.steps.length + 1))
      rw [List.foldl_cons]
      refine ⟨by omega, fun b hb => ?_⟩
      rcases List.mem_cons.mp hb with rfl | hb
      · omega
      · exact hrest b hb
  have hspec := rounds_spec none _ (work.map .of) (hturns _ 0).2
  refine hspec.trans ?_
  rw [List.map_map]
  exact List.map_congr_left fun items _ => Branch.sees_of none items

end GuardedHttp.Correlation
