import GuardedHttp.Proofs.Breaker.EventLog
import GuardedHttp.Proofs.Breaker.Serial

/-!
# Every call is accounted for

A call begins when it asks for a permit, and it comes to one end: it is rejected at once, or it is admitted
and later succeeds, fails, ends too late to count, or is dropped. `calls` are the calls of the records of a
run, under the numbers of the steps in which they asked, and `endings` what became of them.

`Run.Accounted` says that no call is lost or counted twice: the calls are those that have come to an end
and those that are outstanding, each once. It also ties the endings to the events, one to one and in order.
Every step that can be done keeps it (`Accounted.step`), and the sums follow from it by counting.

Main statement: `calls_accounted`.
-/

namespace GuardedHttp.Breaker

variable {settings : Settings}

/-! ## What becomes of calls -/

/-- What becomes of a call. -/
inductive Fate where
  /-- It is not admitted. -/
  | rejected
  /-- It ends in its period as a success. -/
  | succeeded
  /-- It ends in its period as a failure. -/
  | failed
  /-- It ends after its period. -/
  | late
  /-- It is dropped before it ends. -/
  | abandoned
deriving DecidableEq

/-- What the verdict on a call that has ended makes of it. -/
def Fate.ofVerdict : Option Bool → Fate
  | none => late
  | some true => failed
  | some false => succeeded

/-- The outcome under which a fate is reported, if it is. -/
def Fate.label? : Fate → Option String
  | rejected => some "rejected"
  | succeeded => some "success"
  | failed => some "failure"
  | late | abandoned => none

/-- The end of a call. -/
structure Ending where
  /-- The number of the step in which the call asked for a permit. -/
  call : Nat
  /-- What became of it. -/
  fate : Fate

/-- The end that a call comes to by a step. -/
def Record.ending? (e : Record) (older : List Record) : Option Ending :=
  match e.deed with
  | .acquire => if .rejected ∈ e.events then some ⟨older.length, .rejected⟩ else none
  | .complete a _ => some ⟨a.number, .ofVerdict (e.verdict older)⟩
  | .abandon a => some ⟨a.number, .abandoned⟩
  | .control _ | .advance _ => none

/-- The calls, newest first. -/
def calls : List Record → List Nat
  | [] => []
  | e :: older => (if e.deed = .acquire then [older.length] else []) ++ calls older

/-- The ends of calls, newest first. -/
def endings : List Record → List Ending
  | [] => []
  | e :: older => (e.ending? older).toList ++ endings older

/-- How many calls came to an end. -/
def Run.ended (r : Run) (fate : Fate) : Nat := (endings r.past).countP (·.fate = fate)

/-- How many events of a kind there have been. -/
def Run.told (r : Run) (kind : String) : Nat := r.events.countP (·.kind = kind)

/-- No call has a number that is still to come. -/
theorem lt_of_mem_calls {past : List Record} {n : Nat} (h : n ∈ calls past) : n < past.length := by
  induction past with
  | nil => cases h
  | cons e older ih =>
    rw [List.length_cons]
    rcases List.mem_append.mp h with h | h
    · split at h
      · rw [List.mem_singleton.mp h]
        exact Nat.lt_succ_self _
      · cases h
    · exact Nat.lt_succ_of_lt (ih h)

/-- No two calls have the same number. -/
theorem nodup_calls (past : List Record) : (calls past).Nodup := by
  induction past with
  | nil => exact List.nodup_nil
  | cons e older ih =>
    unfold calls
    split
    · exact List.nodup_cons.mpr ⟨fun h => Nat.lt_irrefl _ (lt_of_mem_calls h), ih⟩
    · exact ih

/-- An end is one of five. -/
theorem length_eq_fates (l : List Ending) : l.length =
    l.countP (·.fate = .rejected) + l.countP (·.fate = .succeeded) + l.countP (·.fate = .failed) +
      l.countP (·.fate = .late) + l.countP (·.fate = .abandoned) := by
  induction l with
  | nil => rfl
  | cons e rest ih =>
    simp only [List.length_cons, List.countP_cons, ih]
    cases e.fate <;> simp <;> omega

/-! ## What steps report of calls -/

/-- A call was admitted. -/
def Event.isPermitted : Event → Bool
  | permitted _ => true
  | transition .. | rejected | success _ | failure .. => false

/-- A call that asks is reported at once if it is rejected, and an admission is an event if it is not. -/
theorem told_acquire (settings : Settings) (now : Instant) (c : Circuit) :
    ((c.acquire settings now).1.isSome = true ∧ .rejected ∉ (c.acquire settings now).2.2 ∧
      (c.acquire settings now).2.2.filterMap Event.counted = [] ∧
      (c.acquire settings now).2.2.countP Event.isPermitted = 1) ∨
    ((c.acquire settings now).1 = none ∧ .rejected ∈ (c.acquire settings now).2.2 ∧
      (c.acquire settings now).2.2.filterMap Event.counted = ["rejected"] ∧
      (c.acquire settings now).2.2.countP Event.isPermitted = 0) := by
  cases c.acquire_case settings now with
  | passes _ e | probes _ _ e | joins _ _ e =>
    rw [e]
    exact .inl ⟨rfl, by simp, rfl, rfl⟩
  | early _ _ e | full _ _ e =>
    rw [e]
    exact .inr ⟨rfl, by simp, rfl, rfl⟩

/-- The end of a call is reported if its permit is of the generation of the circuit. -/
theorem counted_complete (settings : Settings) (now : Instant) (p : Permit) (failed : Bool)
    (c : Circuit) : (c.complete settings now p failed).2.filterMap Event.counted =
      if p.generation = c.generation then [if failed then "failure" else "success"] else [] := by
  cases c.complete_case settings now p failed with
  | stale hg e =>
    rw [e, if_neg hg]
    rfl
  | succeeds hg hv _ e | trialSucceeds hg hv _ _ e | closes hg hv _ _ e | fails hg hv _ _ e
  | trips hg hv _ _ e | reopens hg hv _ e =>
    rw [e, if_pos hg, hv]
    rfl
  | whileOpen hg _ e =>
    rw [e, if_pos hg]
    cases failed <;> rfl

/-- Nobody is admitted but by asking. -/
theorem Record.Told.permitted_of_ne {e : Record} (h : e.Told) (hd : e.deed ≠ .acquire) :
    e.events.countP Event.isPermitted = 0 := by
  have hverdict {v : Event} {failed : Bool} {s : CircuitState}
      (hv : v.verdict? = some (failed, s)) : v.isPermitted = false := by
    cases v <;> first | rfl | cases hv
  cases h with
  | silent _ _ he | forced _ _ _ he =>
    rw [he]
    rfl
  | admits hacquire | probes hacquire | rejects hacquire => exact absurd hacquire hd
  | judges _ _ hv he | decides _ _ _ _ hv he =>
    rw [he, List.countP_cons_of_neg (by simp [hverdict hv])]
    rfl

/-- A step that is neither the beginning nor the end of a call reports none. -/
theorem Record.Told.counted_of_ne {e : Record} (h : e.Told) (hd : e.deed ≠ .acquire)
    (hend : ∀ a failed, e.deed ≠ .complete a failed) : e.events.filterMap Event.counted = [] := by
  cases h with
  | silent _ _ he | forced _ _ _ he =>
    rw [he]
    rfl
  | admits hacquire | probes hacquire | rejects hacquire => exact absurd hacquire hd
  | judges hcomplete | decides hcomplete => exact absurd hcomplete (hend _ _)

/-! ## The accounts -/

/-- No call is lost or counted twice, and the events tell the same story as the records. -/
structure Run.Accounted (r : Run) : Prop where
  /-- Every call has come to an end or is outstanding, and to one of these alone. -/
  calls : (calls r.past).Perm ((endings r.past).map (·.call) ++ r.outstanding.map (·.number))
  /-- What is reported of calls is how they ended, in order. -/
  outcomes : r.events.filterMap Event.counted = (endings r.past).reverse.filterMap (·.fate.label?)
  /-- Whoever asks is admitted or rejected. -/
  answers : (Breaker.calls r.past).length =
    r.events.countP Event.isPermitted + (r.events.filterMap Event.counted).count "rejected"

namespace Run.Accounted

variable {r : Run}

/-- A new run is accounted for: nobody has called. -/
theorem fresh (now : Instant) : (Run.fresh now).Accounted := ⟨.refl _, rfl, rfl⟩

/-- What a step must agree with: whom it lets begin and whom it ends changes the outstanding calls by just
that, and the events of the step tell of it. -/
theorem of_step (h : r.Accounted) {deed : Deed} (ha : r.Allows deed) {begun : List Nat}
    {ended : List Ending} (hbegun : begun = if deed = .acquire then [r.past.length] else [])
    (hended : ((Record.of deed r.now r.circuit (r.effect settings deed)).ending? r.past).toList = ended)
    (hperm : (begun ++ r.outstanding.map (·.number)).Perm
      (ended.map (·.call) ++ (r.step settings deed).outstanding.map (·.number)))
    (houtcomes : (r.effect settings deed).2.filterMap Event.counted = ended.filterMap (·.fate.label?))
    (hanswers : begun.length = (r.effect settings deed).2.countP Event.isPermitted +
      ((r.effect settings deed).2.filterMap Event.counted).count "rejected") :
    (r.step settings deed).Accounted := by
  have hpast := Run.past_step settings ha
  have hevents := Run.events_step settings ha
  have hcalls : Breaker.calls (r.step settings deed).past = begun ++ Breaker.calls r.past := by
    rw [hpast, hbegun]
    rfl
  have hends : endings (r.step settings deed).past = ended ++ endings r.past := by
    rw [hpast, endings, hended]
  refine ⟨?_, ?_, ?_⟩
  · rw [hcalls, hends, List.map_append, List.append_assoc]
    -- The older ends stand between the new ones and the outstanding calls on both sides.
    have hold := (h.calls.append_left begun).trans (List.perm_append_comm_assoc ..)
    exact (hold.trans (hperm.append_left _)).trans (List.perm_append_comm_assoc ..)
  · have hreverse : ended.reverse = ended := by
      rw [← hended]
      cases (Record.of deed r.now r.circuit (r.effect settings deed)).ending? r.past <;> rfl
    rw [hevents, hends, List.reverse_append, hreverse, List.filterMap_append, List.filterMap_append,
      h.outcomes, houtcomes]
  · have hold := h.answers
    rw [hcalls, hevents, List.length_append, List.countP_append, List.filterMap_append,
      List.count_append]
    omega

/-- A step by which no call begins or ends. -/
theorem of_idle (h : r.Accounted) {deed : Deed} (ha : r.Allows deed) (hd : deed ≠ .acquire)
    (hend : ∀ a failed, deed ≠ .complete a failed)
    (hnone : (Record.of deed r.now r.circuit (r.effect settings deed)).ending? r.past = none)
    (hout : (r.step settings deed).outstanding = r.outstanding) :
    (r.step settings deed).Accounted := by
  have htold := Run.told_effect settings r deed
  have hcounted : (r.effect settings deed).2.filterMap Event.counted = [] :=
    htold.counted_of_ne hd hend
  have hpermitted : (r.effect settings deed).2.countP Event.isPermitted = 0 :=
    htold.permitted_of_ne hd
  apply h.of_step ha (if_neg hd).symm (congrArg Option.toList hnone)
  · rw [hout]
    exact .refl _
  · exact hcounted
  · rw [hpermitted, hcounted]
    rfl

/-- A step by which an outstanding call ends. -/
theorem of_end (h : r.Accounted) {deed : Deed} (ha : r.Allows deed) (hd : deed ≠ .acquire)
    {a : Admission} (hmem : a ∈ r.outstanding) {fate : Fate}
    (hended : (Record.of deed r.now r.circuit (r.effect settings deed)).ending? r.past =
      some ⟨a.number, fate⟩)
    (hout : (r.step settings deed).outstanding = r.outstanding.erase a)
    (hcounted : (r.effect settings deed).2.filterMap Event.counted = fate.label?.toList)
    (hfate : fate ≠ .rejected) : (r.step settings deed).Accounted := by
  have hpermitted : (r.effect settings deed).2.countP Event.isPermitted = 0 :=
    (Run.told_effect settings r deed).permitted_of_ne hd
  apply h.of_step ha (if_neg hd).symm (congrArg Option.toList hended)
  · rw [hout]
    exact (List.perm_cons_erase hmem).map (·.number)
  · rw [hcounted]
    cases fate <;> rfl
  · rw [hpermitted, hcounted]
    cases fate <;> first | rfl | contradiction

/-- Who asks is admitted and outstanding, or rejected and so at an end. -/
theorem acquire (h : r.Accounted) : (r.step settings .acquire).Accounted := by
  have hallows : r.Allows .acquire := trivial
  rcases told_acquire settings r.now r.circuit with
    ⟨hp, hmem, hcounted, hpermitted⟩ | ⟨hp, hmem, hcounted, hpermitted⟩
  · -- An admitted call is outstanding from now on.
    obtain ⟨p, hp⟩ := Option.isSome_iff_exists.mp hp
    have hended : (Record.of .acquire r.now r.circuit (r.effect settings .acquire)).ending? r.past =
        none := if_neg hmem
    apply h.of_step hallows (if_pos rfl).symm (congrArg Option.toList hended)
    · rw [Run.outstanding_acquire, hp, List.map_append]
      exact List.perm_append_comm
    · exact hcounted
    · exact (congrArg₂ (fun n l => n + List.count "rejected" l) hpermitted hcounted).symm
  · -- A rejected call has come to its end at once.
    have hended : (Record.of .acquire r.now r.circuit (r.effect settings .acquire)).ending? r.past =
        some ⟨r.past.length, .rejected⟩ := if_pos hmem
    apply h.of_step hallows (if_pos rfl).symm (congrArg Option.toList hended)
    · rw [Run.outstanding_acquire, hp]
      simp
    · exact hcounted
    · exact (congrArg₂ (fun n l => n + List.count "rejected" l) hpermitted hcounted).symm

/-- A call that ends is outstanding no longer, and its end is reported if it counts. -/
theorem complete (h : r.Accounted) (hd : r.Dated) {a : Admission} {failed : Bool}
    (ha : a ∈ r.outstanding) : (r.step settings (.complete a failed)).Accounted := by
  have hallows : r.Allows (.complete a failed) := ha
  have hcurrent := hd.current_iff a ha
  have hcounted := counted_complete settings r.now a.permit failed r.circuit
  apply h.of_end hallows (by simp) ha rfl (Run.outstanding_complete ha)
  · -- The circuit goes by the generation of the permit, and the records by the number of the call.
    have hverdict : (Record.of (.complete a failed) r.now r.circuit
        (r.effect settings (.complete a failed))).verdict r.past =
          if r.Current a then some failed else none := rfl
    rw [hverdict]
    by_cases hc : r.Current a
    · rw [if_pos hc]
      rw [if_pos (hcurrent.mpr hc)] at hcounted
      refine hcounted.trans ?_
      cases failed <;> rfl
    · rw [if_neg hc]
      rw [if_neg (mt hcurrent.mp hc)] at hcounted
      exact hcounted
  · unfold Fate.ofVerdict
    split <;> simp

/-- A call that is abandoned is outstanding no longer, and nothing is reported of it. -/
theorem abandon (h : r.Accounted) {a : Admission} (ha : a ∈ r.outstanding) :
    (r.step settings (.abandon a)).Accounted := by
  have hallows : r.Allows (.abandon a) := ha
  exact h.of_end hallows (by simp) ha rfl (Run.outstanding_abandon ha) rfl (by simp)

/-- A step that can be done keeps the accounts. -/
theorem step (h : r.Accounted) (hd : r.Dated) {deed : Deed} (ha : r.Allows deed) :
    (r.step settings deed).Accounted := by
  cases deed with
  | acquire => exact h.acquire
  | complete a failed => exact h.complete hd ha
  | abandon a => exact h.abandon ha
  | control how => exact h.of_idle trivial (by simp) (by simp) rfl rfl
  | advance d => exact h.of_idle trivial (by simp) (by simp) rfl rfl

end Run.Accounted

/-- The accounts of every reachable run are in order. -/
theorem Reachable.accounted {r : Run} (hr : Reachable settings r) (hb : r.bumps < 2 ^ 64) :
    r.Accounted := by
  refine hr.induction .fresh ?_ hb
  intro r deed hr ha hb ih
  have hle := Nat.lt_of_le_of_lt (Run.bumps_le_step settings r deed) hb
  exact ih.step (hr.dated hle) ha

/-! ## The sums -/

/-- The events of a kind are those of the outcome under which it is reported. -/
theorem told_eq_count (r : Run) {kind label : String}
    (h : ∀ e : Event, e.kind = kind ↔ e.counted = some label) :
    r.told kind = (r.events.filterMap Event.counted).count label := by
  unfold Run.told
  rw [List.count, List.countP_filterMap]
  refine List.countP_congr fun e _ => ?_
  have he := h e
  cases hc : e.counted <;> simp_all

/-- The events of a kind are the ends of calls that are reported so. -/
theorem Run.Accounted.told_eq_ended {r : Run} (h : r.Accounted) {kind label : String} {fate : Fate}
    (hkind : ∀ e : Event, e.kind = kind ↔ e.counted = some label)
    (hfate : ∀ f : Fate, f.label? = some label ↔ f = fate) : r.told kind = r.ended fate := by
  rw [told_eq_count r hkind, h.outcomes]
  unfold Run.ended
  rw [List.count, List.countP_filterMap, List.countP_reverse]
  refine List.countP_congr fun e _ => ?_
  have he := hfate e.fate
  cases hl : e.fate.label? <;> simp_all

/-- The events of the kind of admissions are the admissions. -/
theorem told_permitted (r : Run) : r.told "CallPermitted" = r.events.countP Event.isPermitted := by
  refine List.countP_congr fun e _ => ?_
  cases e <;> simp [Event.kind, Event.isPermitted]

/-- The outcomes of calls and the kinds of their events. -/
theorem kind_eq_iff (e : Event) : (e.kind = "CallRejected" ↔ e.counted = some "rejected") ∧
    (e.kind = "SuccessRecorded" ↔ e.counted = some "success") ∧
    (e.kind = "FailureRecorded" ↔ e.counted = some "failure") := by
  cases e <;> simp [Event.kind, Event.counted]

/-- The series of the changes of state of the breaker of a name from one state to another. -/
def movesSeries (name : String) (source target : CircuitState) : Series :=
  ⟨"circuitbreaker_transitions_total",
    [("circuitbreaker", name), ("from", source.name), ("to", target.name)]⟩

/-- States with the same name are the same. -/
theorem name_inj {s t : CircuitState} : s.name = t.name ↔ s = t := by
  cases s <;> cases t <;> simp [CircuitState.name]

/-- The changes of state that a breaker reports are those of its events. -/
theorem countOf_movesSeries (name : String) (source target : CircuitState) (log : List Event) :
    countOf (movesSeries name source target) (log.flatMap (Event.emissions name)) =
      log.count (.transition source target) := by
  induction log with
  | nil => rfl
  | cons e rest ih =>
    rw [List.flatMap_cons, countOf_append, ih, List.count_cons, Nat.add_comm]
    congr 1
    cases e with
    | transition s t =>
      by_cases h : s = source ∧ t = target
      · obtain ⟨rfl, rfl⟩ := h
        simp [countOf, movesSeries, Event.emissions, Emission.count, Emission.log]
      · have hne : ¬(s.name = source.name ∧ t.name = target.name) := by
          rwa [name_inj, name_inj]
        simp [countOf, movesSeries, Event.emissions, Emission.count, Emission.log, h, hne]
    | permitted | rejected | success | failure =>
      simp [countOf, movesSeries, Event.emissions, Emission.count]

/-- The metrics of a session count the events of its acts, whatever its listeners do. -/
theorem Session.Tells.counted {s : Session} {log : List Event} {emitted : List Emission}
    (h : s.Tells settings log emitted) :
    (∀ outcome, countOf (callsSeries settings.name outcome) emitted =
      (log.filterMap Event.counted).count outcome) ∧
    ∀ source target, countOf (movesSeries settings.name source target) emitted =
      log.count (.transition source target) := by
  obtain ⟨-, hsamples⟩ := h.tells
  refine ⟨fun outcome => ?_, fun source target => ?_⟩
  · rw [countOf_congr hsamples, countOf_emissions]
  · rw [countOf_congr hsamples, countOf_movesSeries]

/-- Every call is accounted for once. The calls have different numbers, and they are those that have come
to an end and those that are outstanding, each once. Whoever asks is rejected or permitted; whoever is
permitted succeeds, fails, ends too late, is dropped, or is outstanding; and the events of rejections,
successes and failures are as many as the calls that ended so. The metrics of calls and of changes of
state count these events. -/
theorem calls_accounted {r : Run} (hr : Reachable settings r) (hb : r.bumps < 2 ^ 64) :
    ((endings r.past).map (·.call) ++ r.outstanding.map (·.number)).Nodup ∧
    (calls r.past).Perm ((endings r.past).map (·.call) ++ r.outstanding.map (·.number)) ∧
    (calls r.past).length = r.told "CallRejected" + r.told "CallPermitted" ∧
    r.told "CallPermitted" = r.told "SuccessRecorded" + r.told "FailureRecorded" +
      r.ended .late + r.ended .abandoned + r.outstanding.length ∧
    (r.told "CallRejected" = r.ended .rejected ∧ r.told "SuccessRecorded" = r.ended .succeeded ∧
      r.told "FailureRecorded" = r.ended .failed) ∧
    ∀ name, let emitted := r.events.flatMap (Event.emissions name)
      countOf (callsSeries name "rejected") emitted = r.told "CallRejected" ∧
      countOf (callsSeries name "success") emitted = r.told "SuccessRecorded" ∧
      countOf (callsSeries name "failure") emitted = r.told "FailureRecorded" ∧
      ∀ source target, countOf (movesSeries name source target) emitted =
        r.events.count (.transition source target) := by
  have h := hr.accounted hb
  have hrejected : r.told "CallRejected" = r.ended .rejected := h.told_eq_ended
    (fun e => (kind_eq_iff e).1) (by intro f; cases f <;> simp [Fate.label?])
  have hsuccess : r.told "SuccessRecorded" = r.ended .succeeded := h.told_eq_ended
    (fun e => (kind_eq_iff e).2.1) (by intro f; cases f <;> simp [Fate.label?])
  have hfailure : r.told "FailureRecorded" = r.ended .failed := h.told_eq_ended
    (fun e => (kind_eq_iff e).2.2) (by intro f; cases f <;> simp [Fate.label?])
  have hanswers : (calls r.past).length = r.told "CallRejected" + r.told "CallPermitted" := by
    rw [h.answers, told_permitted, told_eq_count r (fun e => (kind_eq_iff e).1), Nat.add_comm]
  -- Every call has ended or is outstanding, and there is one ending for each fate.
  have hlength : (calls r.past).length = (endings r.past).length + r.outstanding.length := by
    rw [h.calls.length_eq, List.length_append, List.length_map, List.length_map]
  have hfates := length_eq_fates (endings r.past)
  refine ⟨h.calls.nodup_iff.mp (nodup_calls _), h.calls, hanswers, ?_,
    ⟨hrejected, hsuccess, hfailure⟩, fun name => ⟨?_, ?_, ?_, ?_⟩⟩
  · unfold Run.ended at *
    omega
  · rw [countOf_emissions, told_eq_count r fun e => (kind_eq_iff e).1]
  · rw [countOf_emissions, told_eq_count r fun e => (kind_eq_iff e).2.1]
  · rw [countOf_emissions, told_eq_count r fun e => (kind_eq_iff e).2.2]
  · exact fun source target => countOf_movesSeries name source target r.events

/-- Four calls of a run, of which two have ended and two are outstanding. -/
theorem accounts_overlapping :
    Reachable twoTrials overlapping ∧ overlapping.bumps < 2 ^ 64 ∧
      calls overlapping.past = [5, 4, 1, 0] ∧ overlapping.told "CallPermitted" = 4 ∧
      overlapping.outstanding.length = 2 := by
  obtain ⟨-, -, hasked, hadmitted, ⟨hrejected, hsuccess, hfailure⟩, -⟩ :=
    calls_accounted reachable_overlapping bumps_overlapping
  have hcalls : calls overlapping.past = [5, 4, 1, 0] := by decide
  have hnone : overlapping.ended .rejected = 0 := by decide
  rw [hcalls, hrejected, hnone] at hasked
  exact ⟨reachable_overlapping, bumps_overlapping, hcalls, by simpa using hasked.symm, by decide⟩

end GuardedHttp.Breaker
