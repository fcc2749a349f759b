import GuardedHttp.Http.Message

/-!
# Request ids in scope

Work that runs inside a scope sees the id of that scope as the current one. Several branches of work
take turns, so the current id is a slot that they share: a branch that resumes enters its open scopes
again, outermost first, each remembering what it found in the slot, and a branch that stops leaves them
in the opposite order, each putting back what it found.

Main statements: `Branch.resume_slot`, a branch that stops leaves the slot as it found it, and
`enterAll_eq`, inside scopes the innermost one counts.
-/

namespace GuardedHttp.Correlation

/-- The current request id, if there is one. -/
abbrev Slot := Option RequestId

/-- What the slot holds inside scopes, the first one outermost. -/
def enterAll (ids : List RequestId) (slot : Slot) : Slot := ids.foldl (fun _ id => some id) slot

/-- Inside scopes the current id is that of the innermost one. -/
theorem enterAll_eq (ids : List RequestId) (slot : Slot) : enterAll ids slot = ids.getLast?.or slot := by
  induction ids generalizing slot with
  | nil => rfl
  | cons id rest ih =>
    show enterAll rest (some id) = _
    rw [ih]
    cases rest with
    | nil => rfl
    | cons a b => rw [List.getLast?_cons_cons, List.getLast?_cons]; rfl

/-! ## Work -/

/-- Work, as far as it has to do with request ids. -/
inductive Item where
  /-- Looks at the current id. -/
  | observe
  /-- Does work inside a scope. -/
  | within (id : RequestId) (items : List Item)
  /-- Lets other branches run. -/
  | pause

instance : Inhabited Item := ⟨.pause⟩

/-- A step of work, with scopes entered and left. -/
inductive Step where
  /-- Looks at the current id. -/
  | observe
  /-- Enters a scope. -/
  | enter (id : RequestId)
  /-- Leaves the innermost scope. -/
  | leave
  /-- Lets other branches run. -/
  | pause

mutual

/-- The steps of an item. -/
def Item.steps : Item → List Step
  | .observe => [.observe]
  | .within id items => .enter id :: Item.stepsOf items ++ [.leave]
  | .pause => [.pause]

/-- The steps of items, one after another. -/
def Item.stepsOf : List Item → List Step
  | [] => []
  | item :: rest => item.steps ++ Item.stepsOf rest

end

mutual

/-- The ids that an item sees when the current one is given and nothing interferes. -/
def Item.sees (current : Slot) : Item → List Slot
  | .observe => [current]
  | .within id items => Item.seesAll (some id) items
  | .pause => []

/-- The ids that items see, one after another. -/
def Item.seesAll (current : Slot) : List Item → List Slot
  | [] => []
  | item :: rest => item.sees current ++ Item.seesAll current rest

end

/-! ## Running a branch -/

/-- An open scope. -/
structure Frame where
  /-- Its id. -/
  id : RequestId
  /-- What the slot held when the scope was entered. -/
  found : Slot

/-- A branch of work that is running. -/
structure Running where
  /-- The open scopes, innermost first. -/
  frames : List Frame
  /-- The current id. -/
  slot : Slot
  /-- The ids that it has seen. -/
  seen : List Slot

namespace Running

/-- Enters a scope. -/
def enter (r : Running) (id : RequestId) : Running :=
  { r with frames := ⟨id, r.slot⟩ :: r.frames, slot := some id }

/-- Leaves the innermost scope. -/
def leave (r : Running) : Running :=
  match r.frames with
  | [] => r
  | f :: rest => { r with frames := rest, slot := f.found }

/-- What the slot holds after all of these scopes have been left. -/
def unwind : List Frame → Slot → Slot
  | [], slot => slot
  | f :: rest, _ => unwind rest f.found

/-- Takes the steps up to the next pause; what is left is returned too. -/
def run : List Step → Running → List Step × Running
  | [], r => ([], r)
  | .pause :: rest, r => (rest, r)
  | .observe :: rest, r => run rest { r with seen := r.seen ++ [r.slot] }
  | .enter id :: rest, r => run rest (r.enter id)
  | .leave :: rest, r => run rest r.leave

/-- Leaving all scopes gives the same slot before and after any steps. -/
theorem unwind_run (steps : List Step) (r : Running) :
    unwind (run steps r).2.frames (run steps r).2.slot = unwind r.frames r.slot := by
  induction steps generalizing r with
  | nil => rfl
  | cons s rest ih =>
    cases s with
    | pause => rfl
    | observe => exact ih _
    | enter id => exact ih _
    | leave =>
      refine (ih _).trans ?_
      obtain ⟨frames, slot, seen⟩ := r
      cases frames <;> rfl

end Running

/-- A branch of work that has stopped. -/
structure Branch where
  /-- The ids of the open scopes, outermost first. -/
  scopes : List RequestId := []
  /-- The steps that are left. -/
  steps : List Step
  /-- The ids that it has seen. -/
  seen : List Slot := []

namespace Branch

/-- The branch runs up to its next pause, and its scopes are left again. -/
def resume (b : Branch) (slot : Slot) : Branch × Slot :=
  let entered := b.scopes.foldl Running.enter { frames := [], slot, seen := b.seen }
  let (steps, r) := Running.run b.steps entered
  ({ scopes := (r.frames.map (·.id)).reverse, steps, seen := r.seen }, Running.unwind r.frames r.slot)

/-- A branch that stops leaves the slot as it found it. -/
theorem resume_slot (b : Branch) (slot : Slot) : (b.resume slot).2 = slot := by
  have entering (ids : List RequestId) (r : Running) :
      Running.unwind (ids.foldl Running.enter r).frames (ids.foldl Running.enter r).slot =
        Running.unwind r.frames r.slot := by
    induction ids generalizing r with
    | nil => rfl
    | cons id rest ih => exact ih _
  exact (Running.unwind_run ..).trans (entering ..)

end Branch

/-! ## Branches in turns -/

/-- Lets every branch run up to its next pause, in order. -/
def round (branches : List Branch) (slot : Slot) : List Branch × Slot :=
  branches.foldl (fun (done, slot) b => let (b, slot) := b.resume slot; (done ++ [b], slot)) ([], slot)

/-- Lets branches run in turns, so many times. -/
def rounds : (times : Nat) → List Branch → Slot → List Branch × Slot
  | 0, branches, slot => (branches, slot)
  | times + 1, branches, slot => let (branches, slot) := round branches slot; rounds times branches slot

/-- Lets the given branches run in turns to their ends; the result is what each has seen. Every turn
takes one step at least, so that there are turns enough. -/
def runBranches (branches : List (List Item)) : List (List Slot) :=
  let branches := branches.map fun items => ({ steps := Item.stepsOf items } : Branch)
  let turns := branches.foldl (fun n b => max n (b.steps.length + 1)) 0
  (rounds turns branches none).1.map (·.seen)

end GuardedHttp.Correlation
