import GuardedHttp.Proofs.Breaker.Admission
import GuardedHttp.Proofs.Breaker.Serial

/-!
# No state is a dead end

Whatever a breaker has been through, a few successful calls bring it back. Calls that are made one after
another and succeed take the machine of `Serial` straight to its closed state (`Serial.Mended`), and the
circuit with it (`Run.Recovering`): each is admitted and leaves a success more, until there are as many as
trials. Two things have to be right at the beginning. No trial may be taken by a call that is not there
any more, which is what `Run.Counted` says once all calls have been dropped. And no call from before may
interfere, which the generations see to: a recovery goes through those of the open, the half-open and the
closed state, and no older permit is of one of them (`Outlived`).

Main statement: `never_wedged`.
-/

namespace GuardedHttp

/-- How many changes of state lead from a state to the closed one. -/
def CircuitState.ahead : CircuitState → Nat
  | closed => 0
  | halfOpen => 1
  | opened => 2

namespace Breaker

open Circuit (AcquireCase CompleteCase ReleaseCase)

variable {settings : Settings} {old : List Admission}

/-- The deed lets time pass, or ends or drops one of these calls. -/
def Deed.Aside (old : List Admission) : Deed → Prop
  | .advance _ => True
  | .complete a _ | .abandon a => a ∈ old
  | .acquire | .control _ => False

/-- The deed lets time pass or drops a call. -/
def Deed.Vacates : Deed → Prop
  | .advance _ | .abandon _ => True
  | .acquire | .complete .. | .control _ => False

namespace Run

/-- A call that begins now and succeeds after some other deeds, if it is admitted. -/
def serve (settings : Settings) (during : List Deed) (r : Run) : Option Run :=
  (r.circuit.acquire settings r.now).1.map fun p =>
    ((r.step settings .acquire).play settings during).step settings
      (.complete ⟨r.past.length, p⟩ false)

/-- Calls one after another, if all are admitted: before each of them and while it runs other deeds are
done. -/
def serveAll (settings : Settings) : List (List Deed × List Deed) → Run → Option Run
  | [], r => some r
  | (before, during) :: rest, r =>
    ((r.play settings before).serve settings during).bind (serveAll settings rest)

end Run

/-- The circuit is closed, with nothing counted. -/
structure Circuit.Restored (c : Circuit) : Prop where
  /-- It is closed. -/
  state : c.state = .closed
  /-- There are no failures. -/
  failures : c.failures = 0
  /-- No trial is taken. -/
  inFlight : c.inFlight = 0
  /-- No trial has succeeded. -/
  successes : c.successes = 0

/-! ## Older permits -/

/-- The circuit has stayed in its state, or has gone on towards the closed one with a new generation. -/
def Circuit.Nears (c later : Circuit) : Prop :=
  later.generation = c.generation ∧ later.state = c.state ∨
    later.generation = c.generation + 1 ∧ later.state.ahead + 1 = c.state.ahead

namespace Circuit

variable {c : Circuit} {now : Instant} {p : Permit}

/-- Whoever asks brings the circuit nearer to the closed state, or leaves it. -/
theorem nears_acquire : c.Nears (c.acquire settings now).2.1 := by
  cases c.acquire_case settings now with
  | passes _ e | joins _ _ e | early _ _ e | full _ _ e =>
    rw [e]
    exact .inl ⟨rfl, rfl⟩
  | probes hs _ e =>
    rw [e]
    exact .inr ⟨rfl, by rw [hs]; rfl⟩

/-- A success leads towards the closed state. -/
theorem nears_succeed : c.Nears (c.complete settings now p false).1 := by
  cases c.complete_case settings now p false with
  | stale _ e | succeeds _ _ _ e | trialSucceeds _ _ _ _ e | whileOpen _ _ e =>
    rw [e]
    exact .inl ⟨rfl, rfl⟩
  | closes _ _ hs _ e =>
    rw [e]
    exact .inr ⟨rfl, by rw [hs]; rfl⟩
  | fails _ hv | trips _ hv | reopens _ hv => cases hv

end Circuit

/-- No permit of these calls is of the generation of the circuit, or of one that it goes through until
it is closed. -/
def Outlived (old : List Admission) (c : Circuit) : Prop :=
  ∀ a ∈ old, ∀ k ≤ c.state.ahead, a.permit.generation ≠ c.generation + UInt64.ofNat k

/-- No permit of these calls is current. -/
theorem Outlived.ne {c : Circuit} (h : Outlived old c) {a : Admission} (ha : a ∈ old) :
    a.permit.generation ≠ c.generation := by
  simpa using h a ha 0 (Nat.zero_le _)

/-- On the way to the closed state nothing changes about it. -/
theorem Outlived.of_nears {c later : Circuit} (h : Outlived old c) (hn : c.Nears later) :
    Outlived old later := by
  intro a ha k hk
  rcases hn with ⟨hg, hs⟩ | ⟨hg, hs⟩
  · rw [hs] at hk
    rw [hg]
    exact h a ha k hk
  · have hne := h a ha (1 + k) (by omega)
    rwa [UInt64.ofNat_add, ← UInt64.add_assoc, UInt64.ofNat_one, ← hg] at hne

/-! ## Deeds that are done meanwhile -/

/-- Meanwhile the circuit has not changed, and its own calls are still out. -/
structure Run.Sits (r later : Run) : Prop where
  /-- The circuit is the same. -/
  circuit : later.circuit = r.circuit
  /-- No generation has begun. -/
  bumps : later.bumps = r.bumps
  /-- The clock does not go back. -/
  clock : r.now ≤ later.now
  /-- The calls of the current generation are still out. -/
  kept : ∀ a ∈ r.outstanding, a.permit.generation = r.circuit.generation → a ∈ later.outstanding

namespace Run

variable {r later : Run} {deed : Deed}

/-- When nothing is done, the circuit sits. -/
theorem Sits.refl (r : Run) : r.Sits r := ⟨rfl, rfl, Nat.le_refl _, fun _ ha _ => ha⟩

/-- A circuit that sits for a while and then for another has sat all along. -/
theorem Sits.trans {last : Run} (h : r.Sits later) (h' : later.Sits last) : r.Sits last where
  circuit := h'.circuit.trans h.circuit
  bumps := h'.bumps.trans h.bumps
  clock := Nat.le_trans h.clock h'.clock
  kept a ha hg := h'.kept a (h.kept a ha hg) (hg.trans (by rw [h.circuit]))

/-- A step that is no control begins a generation exactly if it changes the state. -/
theorem bumps_step (settings : Settings) (hd : ∀ how, deed ≠ .control how) (ha : r.Allows deed) :
    (r.step settings deed).bumps =
      r.bumps + if r.circuit.state = (r.step settings deed).circuit.state then 0 else 1 := by
  rw [bumps_eq (follows_effect settings ha), circuit_step settings ha, Nat.add_comm]
  by_cases hs : r.circuit.state = (r.effect settings deed).1.state <;>
    simp [Record.bumps, Record.of, hd, hs]

/-- On the way to the closed state each generation that begins leaves one less to come. -/
theorem bumps_of_nears (settings : Settings) (hd : ∀ how, deed ≠ .control how) (ha : r.Allows deed)
    (hn : r.circuit.Nears (r.step settings deed).circuit) :
    (r.step settings deed).bumps + (r.step settings deed).circuit.state.ahead =
      r.bumps + r.circuit.state.ahead := by
  rw [bumps_step settings hd ha]
  rcases hn with ⟨-, hs⟩ | ⟨-, hs⟩
  · rw [hs, if_pos rfl, Nat.add_zero]
  · have hne : r.circuit.state ≠ (r.step settings deed).circuit.state := by
      intro hsame
      rw [← hsame] at hs
      omega
    rw [if_neg hne]
    omega

/-- Older calls end and are dropped without consequence. -/
theorem sits_step (hold : ∀ a ∈ old, a.permit.generation ≠ r.circuit.generation)
    (h : deed.Aside old) : r.Sits (r.step settings deed) := by
  by_cases ha : r.Allows deed
  swap
  · rw [step_of_not_allows ha]
    exact .refl r
  have hd : ∀ how, deed ≠ .control how := by
    rintro how rfl
    exact h
  have hf := follows_effect settings ha
  have hbumps := bumps_step settings hd ha
  -- An older call is none of the current ones, so that they stay when it goes.
  have erased {a b : Admission} (hb : b ∈ r.outstanding) (haold : a ∈ old)
      (hg : b.permit.generation = r.circuit.generation) : b ∈ r.outstanding.erase a :=
    (List.mem_erase_of_ne fun hba => hold a haold (by rw [← hba]; exact hg)).mpr hb
  -- Its permit is of another generation, so that the circuit does not look at it.
  have hcircuit : (r.step settings deed).circuit = r.circuit := by
    rw [circuit_step settings ha]
    cases deed with
    | complete a failed =>
      cases r.circuit.complete_case settings r.now a.permit failed with
      | stale _ e => simp only [effect, e]
      | succeeds hg | trialSucceeds hg | closes hg | fails hg | trips hg | reopens hg
      | whileOpen hg => exact absurd hg (hold a h)
    | abandon a =>
      cases r.circuit.release_case a.permit with
      | frees hg => exact absurd hg (hold a h)
      | idle _ e => exact e
    | advance d => rfl
    | acquire | control => exact h.elim
  rw [hcircuit, if_pos rfl] at hbumps
  refine ⟨hcircuit, hbumps, hf.clock, fun b hb hg => ?_⟩
  cases deed with
  | complete a failed =>
    rw [outstanding_complete ha]
    exact erased hb h hg
  | abandon a =>
    rw [outstanding_abandon ha]
    exact erased hb h hg
  | advance d => exact hb
  | acquire | control => exact h.elim

/-- Older calls leave the circuit as it is, whatever becomes of them. -/
theorem sits_play (settings : Settings)
    (hold : ∀ a ∈ old, a.permit.generation ≠ r.circuit.generation) {deeds : List Deed}
    (h : ∀ deed ∈ deeds, deed.Aside old) : r.Sits (r.play settings deeds) := by
  induction deeds generalizing r with
  | nil => exact .refl r
  | cons deed rest ih =>
    have hstep : r.Sits (r.step settings deed) := sits_step hold (h deed List.mem_cons_self)
    refine hstep.trans (ih ?_ fun deed hd => h deed (List.mem_cons_of_mem _ hd))
    rw [hstep.circuit]
    exact hold

/-- While calls are dropped no generation begins, and the timer runs on. -/
theorem vacates_play (settings : Settings) {deeds : List Deed} (h : ∀ deed ∈ deeds, deed.Vacates) :
    (r.play settings deeds).bumps = r.bumps ∧
      (r.play settings deeds).circuit.changedAt = r.circuit.changedAt := by
  induction deeds generalizing r with
  | nil => exact ⟨rfl, rfl⟩
  | cons deed rest ih =>
    have hrest := ih (r := r.step settings deed) fun deed hd => h deed (List.mem_cons_of_mem _ hd)
    have hdeed := h deed List.mem_cons_self
    suffices hstep : (r.step settings deed).bumps = r.bumps ∧
        (r.step settings deed).circuit.changedAt = r.circuit.changedAt from
      ⟨hrest.1.trans hstep.1, hrest.2.trans hstep.2⟩
    by_cases ha : r.Allows deed
    swap
    · rw [step_of_not_allows ha]
      exact ⟨rfl, rfl⟩
    have hf := follows_effect settings ha
    -- Giving a place back or letting time pass leaves the state.
    have hsame : (r.step settings deed).circuit.state = r.circuit.state := by
      rw [circuit_step settings ha]
      cases deed with
      | abandon a =>
        cases r.circuit.release_case a.permit with
        | frees _ _ e | idle _ e => simp only [effect, e]
      | advance d => rfl
      | acquire | complete | control => exact hdeed.elim
    have hcontinues := hf.continues (hf.breaks_eq_false (by rintro how rfl; exact hdeed) hsame)
    exact ⟨by rw [bumps_eq hf, hcontinues.1, Nat.zero_add], hcontinues.2⟩

end Run

/-! ## One call after another -/

namespace Serial

variable {m : Serial} {now later : Instant} {served : Nat}

/-- The machine lets calls pass, and shows the successes of so many. -/
def Mended (settings : Settings) (now : Instant) (served : Nat) : Serial → Prop
  | closed failures => served = 0 ∨ failures = 0
  | opened since => served = 0 ∧ since.after settings.openDuration ≤ now
  | halfOpen successes => served ≤ successes

/-- A machine that is mended stays so as time passes. -/
theorem Mended.mono (h : m.Mended settings now served) (hle : now ≤ later) :
    m.Mended settings later served := by
  cases m with
  | closed | halfOpen => exact h
  | opened since => exact ⟨h.1, Nat.le_trans h.2 hle⟩

/-- The next call passes, and its success is one more. -/
theorem Mended.ask (h : m.Mended settings now served) : ∃ next, m.ask settings now = some next ∧
    ∀ ended, (next.record settings ended false).Mended settings ended (served + 1) := by
  have succeeded (successes : Nat) (hs : served ≤ successes) (ended : Instant) :
      ((halfOpen successes).record settings ended false).Mended settings ended (served + 1) := by
    by_cases hlast : settings.trials.toNat ≤ successes + 1
    · simp [record, hlast, Mended]
    · simp [record, hlast, Mended, hs]
  cases m with
  | closed failures => exact ⟨_, rfl, fun ended => .inr rfl⟩
  | halfOpen successes => exact ⟨_, rfl, succeeded successes h⟩
  | opened since =>
    obtain ⟨rfl, hwaited⟩ := h
    have hle : since ≤ now := Nat.le_trans (Nat.le_add_right _ _) hwaited
    refine ⟨halfOpen 0, ?_, succeeded 0 (Nat.le_refl 0)⟩
    simp only [Serial.ask, if_pos ((Instant.le_since_iff hle).mpr hwaited)]

end Serial

namespace Circuit

variable {c : Circuit} {now : Instant} {p : Permit}

/-- Asking for a permit takes no trial of a circuit that stays closed. -/
theorem vacant_acquire (h : c.state = .closed → c.inFlight = 0 ∧ c.successes = 0) :
    (c.acquire settings now).2.1.state = .closed →
      (c.acquire settings now).2.1.inFlight = 0 ∧ (c.acquire settings now).2.1.successes = 0 := by
  cases c.acquire_case settings now with
  | passes _ e | early _ _ e | full _ _ e =>
    rw [e]
    exact h
  | probes hs _ e | joins hs _ e => simp [e, hs]

/-- A success leaves no trials in a circuit that is closed afterwards. -/
theorem vacant_succeed (h : c.state = .closed → c.inFlight = 0 ∧ c.successes = 0) :
    (c.complete settings now p false).1.state = .closed →
      (c.complete settings now p false).1.inFlight = 0 ∧
        (c.complete settings now p false).1.successes = 0 := by
  cases c.complete_case settings now p false with
  | stale _ e | succeeds _ _ _ e | whileOpen _ _ e =>
    rw [e]
    exact h
  | trialSucceeds _ _ hs _ e => simp [e, hs]
  | closes _ _ _ _ e => simp [e]
  | fails _ hv | trips _ hv | reopens _ hv => cases hv

end Circuit

namespace Run

/-- Nothing stands in the way of a recovery. -/
structure Unhindered (old : List Admission) (total : Nat) (r : Run) : Prop where
  /-- A closed circuit has no trials. -/
  vacant : r.circuit.state = .closed → r.circuit.inFlight = 0 ∧ r.circuit.successes = 0
  /-- Older calls do not interfere. -/
  outlived : Outlived old r.circuit
  /-- In the closed state so many generations will have begun. -/
  bumps : r.bumps + r.circuit.state.ahead = total

/-- The breaker is recovering, and has served so many calls. -/
structure Recovering (settings : Settings) (old : List Admission) (total served : Nat) (r : Run) :
    Prop extends Unhindered old total r where
  /-- No call is running, and the machine lets the next one pass. -/
  mended : ∃ m : Serial, m.Describes settings 0 r.circuit ∧ m.Mended settings r.now served

/-- The breaker is recovering, and serves a call after so many. -/
structure Serving (settings : Settings) (old : List Admission) (total served : Nat) (a : Admission)
    (r : Run) : Prop extends Unhindered old total r where
  /-- The call is out. -/
  out : a ∈ r.outstanding
  /-- Its permit is current. -/
  current : a.permit.generation = r.circuit.generation
  /-- No other call is running, and the success of this one takes the machine further. -/
  mended : ∃ m : Serial, m.Describes settings 1 r.circuit ∧
    ∀ ended, (m.record settings ended false).Mended settings ended (served + 1)

variable {r later : Run} {a : Admission} {total served : Nat}

/-- A run stays unhindered while its circuit sits. -/
theorem Unhindered.sits (h : r.Unhindered old total) (hsits : r.Sits later) :
    later.Unhindered old total := by
  constructor <;> rw [hsits.circuit]
  · exact h.vacant
  · exact h.outlived
  · rw [hsits.bumps]
    exact h.bumps

/-- Older calls do not hold a recovery up. -/
theorem Recovering.aside (h : r.Recovering settings old total served) {deeds : List Deed}
    (hdeeds : ∀ deed ∈ deeds, deed.Aside old) :
    (r.play settings deeds).Recovering settings old total served := by
  obtain ⟨m, hdescribes, hmended⟩ := h.mended
  have hsits := sits_play settings (fun _ => h.outlived.ne) hdeeds
  refine ⟨h.toUnhindered.sits hsits, m, ?_, hmended.mono hsits.clock⟩
  rw [hsits.circuit]
  exact hdescribes

/-- Older calls do not disturb a call that is served. -/
theorem Serving.aside (h : r.Serving settings old total served a) {deeds : List Deed}
    (hdeeds : ∀ deed ∈ deeds, deed.Aside old) :
    (r.play settings deeds).Serving settings old total served a := by
  have hsits := sits_play settings (fun _ => h.outlived.ne) hdeeds
  refine ⟨h.toUnhindered.sits hsits, hsits.kept a h.out h.current, ?_, ?_⟩ <;> rw [hsits.circuit]
  · exact h.current
  · exact h.mended

/-- The next call is admitted. -/
theorem Recovering.begin (h : r.Recovering settings old total served) :
    ∃ p, (r.circuit.acquire settings r.now).1 = some p ∧
      (r.step settings .acquire).Serving settings old total served ⟨r.past.length, p⟩ := by
  obtain ⟨m, hdescribes, hmended⟩ := h.mended
  obtain ⟨next, hask, hnext⟩ := hmended.ask
  obtain ⟨p, admitted, events, hacquire, hgeneration, hrunning, -⟩ :=
    Serial.acquire_of_ask_eq_some hdescribes hask
  have hcircuit : (r.step settings .acquire).circuit = admitted := by rw [circuit_acquire, hacquire]
  have hnears : r.circuit.Nears (r.step settings .acquire).circuit := Circuit.nears_acquire
  refine ⟨p, by rw [hacquire], ⟨?_, h.outlived.of_nears hnears, ?_⟩, ?_, ?_, ?_⟩
  · exact Circuit.vacant_acquire h.vacant
  · rw [bumps_of_nears settings (by simp) (show r.Allows .acquire from trivial) hnears]
    exact h.bumps
  · simp [hacquire]
  · rw [hcircuit]
    exact hgeneration
  · rw [hcircuit]
    exact ⟨next, hrunning, hnext⟩

/-- The success of the call that is served takes the recovery further. -/
theorem Serving.finish (h : r.Serving settings old total served a) :
    (r.step settings (.complete a false)).Recovering settings old total (served + 1) := by
  obtain ⟨m, hrunning, hnext⟩ := h.mended
  have hallows : r.Allows (.complete a false) := h.out
  have hcircuit : (r.step settings (.complete a false)).circuit =
      (r.circuit.complete settings r.now a.permit false).1 := circuit_complete h.out
  have hnears : r.circuit.Nears (r.step settings (.complete a false)).circuit := by
    rw [hcircuit]
    exact Circuit.nears_succeed
  refine ⟨⟨?_, h.outlived.of_nears hnears, ?_⟩, _, ?_, hnext _⟩
  · rw [hcircuit]
    exact Circuit.vacant_succeed h.vacant
  · rw [bumps_of_nears settings (by simp) hallows hnears]
    exact h.bumps
  · rw [hcircuit]
    exact (Serial.complete_describes _ false hrunning h.current).1

/-- The next call is admitted, and its success takes the recovery further. -/
theorem Recovering.serve (h : r.Recovering settings old total served) {during : List Deed}
    (hdeeds : ∀ deed ∈ during, deed.Aside old) :
    ∃ later, r.serve settings during = some later ∧
      later.Recovering settings old total (served + 1) := by
  obtain ⟨p, hadmitted, hserving⟩ := h.begin
  refine ⟨_, ?_, (hserving.aside hdeeds).finish⟩
  rw [Run.serve, hadmitted, Option.map_some]

/-- All calls are admitted. -/
theorem Recovering.serveAll (h : r.Recovering settings old total served)
    {calls : List (List Deed × List Deed)}
    (hcalls : ∀ call ∈ calls, ∀ deed ∈ call.1 ++ call.2, deed.Aside old) :
    ∃ later, r.serveAll settings calls = some later ∧
      later.Recovering settings old total (served + calls.length) := by
  induction calls generalizing r served with
  | nil => exact ⟨r, rfl, h⟩
  | cons call rest ih =>
    obtain ⟨before, during⟩ := call
    have hcall := hcalls _ List.mem_cons_self
    have hbefore := h.aside fun deed hd => hcall deed (List.mem_append_left _ hd)
    obtain ⟨middle, hserve, hmiddle⟩ :=
      hbefore.serve fun deed hd => hcall deed (List.mem_append_right _ hd)
    obtain ⟨later, hrest, hlater⟩ :=
      ih hmiddle fun call hc => hcalls call (List.mem_cons_of_mem _ hc)
    refine ⟨later, ?_, ?_⟩
    · rw [Run.serveAll, hserve, Option.bind_some, hrest]
    · rwa [List.length_cons, Nat.add_comm rest.length, ← Nat.add_assoc]

/-- After as many calls as trials the circuit is closed. -/
theorem Recovering.restored (h : r.Recovering settings old total served)
    (hall : served = settings.trials.toNat) : r.circuit.Restored := by
  obtain ⟨m, hdescribes, hmended⟩ := h.mended
  have hpos := trials_pos settings
  cases m with
  | closed failures =>
    obtain ⟨hs, hf, -⟩ := hdescribes
    obtain ⟨hi, hw⟩ := h.vacant hs
    have hzero : failures = 0 := hmended.resolve_left (by omega)
    exact ⟨hs, hf.trans hzero, hi, hw⟩
  | opened since => exact absurd hmended.1 (by omega)
  | halfOpen successes =>
    obtain ⟨-, -, hmore, -⟩ := hdescribes
    have hle : served ≤ successes := hmended
    omega

end Run

/-! ## Where a recovery begins -/

section

variable {r : Run} {lull : List Deed}

/-- A breaker recovers once its calls have been dropped and the open duration has passed. -/
theorem Reachable.recovering_of_vacates (hr : Reachable settings r) (hb : r.bumps < 2 ^ 64)
    (hlull : ∀ deed ∈ lull, deed.Vacates) (hnone : (r.play settings lull).outstanding = [])
    (hwait : r.now.after settings.openDuration ≤ (r.play settings lull).now) :
    ∃ total, (r.play settings lull).Recovering settings [] total 0 := by
  obtain ⟨hbumps, htimer⟩ := Run.vacates_play settings hlull
  have hc := (hr.play lull).counted (by rw [hbumps]; exact hb)
  have hle := hr.changedAt_le hb
  have hrunning : (r.play settings lull).running = 0 := by rw [Run.running, hnone]; rfl
  refine ⟨_, ⟨?_, ?_, rfl⟩, ?_⟩
  · intro hs
    obtain ⟨hi, hw, -⟩ := hc.closed hs
    exact ⟨hi, hw⟩
  · exact fun a ha => absurd ha List.not_mem_nil
  · -- The machine is read off the circuit, whose trials are all free.
    cases hs : (r.play settings lull).circuit.state with
    | closed =>
      obtain ⟨-, -, hf⟩ := hc.closed hs
      exact ⟨.closed _, ⟨hs, rfl, hf⟩, .inl rfl⟩
    | opened =>
      refine ⟨.opened _, ⟨hs, rfl, rfl⟩, rfl, ?_⟩
      rw [htimer]
      exact Nat.le_trans (Nat.add_le_add_right hle _) hwait
    | halfOpen =>
      obtain ⟨hi, hw, -⟩ := hc.halfOpen hs
      exact ⟨.halfOpen _, ⟨hs, rfl, hw, hi.trans hrunning⟩, Nat.zero_le _⟩

/-- No older permit is of a generation that an open circuit goes through until it is closed. -/
theorem Reachable.outlived_of_opened (hr : Reachable settings r) (hb : r.bumps + 2 < 2 ^ 64)
    (hs : r.circuit.state = .opened) : Outlived r.outstanding r.circuit := by
  have hfew : r.bumps < 2 ^ 64 := by omega
  have hd := hr.dated hfew
  have hg := hd.generation
  intro a ha k hk he
  have hle := hd.generation_le a ha
  have hne := (hr.counted hfew).generation_ne hs ha
  have hk2 : k ≤ 2 := by rwa [hs] at hk
  -- The generations ahead do not wrap, so that all are above the older permit.
  have hsum : a.permit.generation.toNat = r.bumps + k := by
    rw [he, UInt64.toNat_add, UInt64.toNat_ofNat', hg]
    omega
  refine hne (UInt64.toNat_inj.mp ?_)
  omega

/-- An open breaker recovers once the open duration has passed, whatever older calls do. -/
theorem Reachable.recovering_of_opened (hr : Reachable settings r) (hb : r.bumps + 2 < 2 ^ 64)
    (hs : r.circuit.state = .opened) (hlull : ∀ deed ∈ lull, deed.Aside r.outstanding)
    (hwait : r.now.after settings.openDuration ≤ (r.play settings lull).now) :
    (r.play settings lull).Recovering settings r.outstanding (r.bumps + 2) 0 := by
  have hle := hr.changedAt_le (Nat.lt_of_le_of_lt (Nat.le_add_right _ 2) hb)
  have houtlived := hr.outlived_of_opened hb hs
  have hsits := Run.sits_play settings (fun _ => houtlived.ne) hlull
  have hclear : r.Unhindered r.outstanding (r.bumps + 2) :=
    ⟨fun h => absurd (hs.symm.trans h) (by simp), houtlived, by rw [hs]; rfl⟩
  refine ⟨hclear.sits hsits, .opened r.circuit.changedAt, ?_, rfl, ?_⟩
  · rw [hsits.circuit]
    exact ⟨hs, rfl, rfl⟩
  · exact Nat.le_trans (Nat.add_le_add_right hle _) hwait

end

/-- No reachable state is a dead end. Once all outstanding calls have been dropped and the open duration
has passed, as many successful calls as trials, one after another, are all admitted and leave the circuit
closed with nothing counted. If the circuit is open, the outstanding calls need not be dropped: they may
end in any way, at any time, during and after the recovery, which begins two generations. -/
theorem never_wedged {r : Run} (hr : Reachable settings r) (hb : r.bumps < 2 ^ 64)
    {lull : List Deed} (hwait : r.now.after settings.openDuration ≤ (r.play settings lull).now)
    {calls : List (List Deed × List Deed)} (hcount : calls.length = settings.trials.toNat) :
    ((∀ deed ∈ lull, deed.Vacates) → (r.play settings lull).outstanding = [] →
      (∀ call ∈ calls, ∀ deed ∈ call.1 ++ call.2, deed.Aside []) →
      ∃ later, (r.play settings lull).serveAll settings calls = some later ∧
        later.circuit.Restored) ∧
    (r.circuit.state = .opened → r.bumps + 2 < 2 ^ 64 →
      (∀ deed ∈ lull, deed.Aside r.outstanding) →
      (∀ call ∈ calls, ∀ deed ∈ call.1 ++ call.2, deed.Aside r.outstanding) →
      ∃ later, (r.play settings lull).serveAll settings calls = some later ∧
        later.bumps = r.bumps + 2 ∧
        ∀ after, (∀ deed ∈ after, deed.Aside r.outstanding) →
          (later.play settings after).circuit.Restored) := by
  have hserved : 0 + calls.length = settings.trials.toNat := by rw [Nat.zero_add, hcount]
  refine ⟨fun hlull hnone hcalls => ?_, fun hs hfew hlull hcalls => ?_⟩
  · obtain ⟨total, hbegins⟩ := hr.recovering_of_vacates hb hlull hnone hwait
    obtain ⟨later, hall, hlater⟩ := hbegins.serveAll hcalls
    exact ⟨later, hall, hlater.restored hserved⟩
  · have hbegins := hr.recovering_of_opened hfew hs hlull hwait
    obtain ⟨later, hall, hlater⟩ := hbegins.serveAll hcalls
    have hrestored := hlater.restored hserved
    have hbumps : later.bumps = r.bumps + 2 := by
      have htotal := hlater.bumps
      rwa [hrestored.state] at htotal
    exact ⟨later, hall, hbumps, fun after hafter => (hlater.aside hafter).restored hserved⟩

/-- The second trial has failed, and a call of the closed period is still out. -/
def reopened : Run := overlapping.step twoTrials (.complete ⟨5, ⟨1 + 1⟩⟩ true)

/-- A half-open circuit recovers when its calls have been dropped, and one that is open again recovers
although an older call fails in the middle of it. -/
theorem recovery_overlapping :
    (Reachable twoTrials overlapping ∧ overlapping.circuit.inFlight = 1 ∧
      ∃ later, (overlapping.play twoTrials
          [.abandon ⟨5, ⟨1 + 1⟩⟩, .advance (.ofSeconds 5), .abandon ⟨1, ⟨0⟩⟩]).serveAll twoTrials
            [([], []), ([.advance (.ofSeconds 1)], [])] = some later ∧ later.circuit.Restored) ∧
    Reachable twoTrials reopened ∧ reopened.circuit.state = .opened ∧
      ∃ later, (reopened.play twoTrials [.advance (.ofSeconds 5)]).serveAll twoTrials
          [([], [.complete ⟨1, ⟨0⟩⟩ true]), ([.advance (.ofSeconds 1)], [])] = some later ∧
        later.circuit.Restored := by
  have hr : Reachable twoTrials reopened := reachable_overlapping.step _
  have hs : reopened.circuit.state = .opened := by decide
  have hold : ⟨1, ⟨0⟩⟩ ∈ reopened.outstanding := by decide
  have hwait : overlapping.now.after twoTrials.openDuration ≤ (overlapping.play twoTrials
      [.abandon ⟨5, ⟨1 + 1⟩⟩, .advance (.ofSeconds 5), .abandon ⟨1, ⟨0⟩⟩]).now := by decide
  have hreopened : reopened.now.after twoTrials.openDuration ≤
      (reopened.play twoTrials [.advance (.ofSeconds 5)]).now := by decide
  have hvacated := never_wedged reachable_overlapping bumps_overlapping hwait
    (show [([], []), ([.advance (.ofSeconds 1)], [])].length = twoTrials.trials.toNat from rfl)
  have hopened := never_wedged hr (by decide) hreopened
    (show [([], [.complete ⟨1, ⟨0⟩⟩ true]), ([.advance (.ofSeconds 1)], [])].length =
      twoTrials.trials.toNat from rfl)
  obtain ⟨later, hall, -, hrestored⟩ := hopened.2 hs (by decide) (by simp [Deed.Aside])
    (by simpa [Deed.Aside] using hold)
  refine ⟨⟨reachable_overlapping, by decide, ?_⟩, hr, hs, later, hall, hrestored [] (by simp)⟩
  exact hvacated.1 (by simp [Deed.Vacates]) (by decide) (by simp [Deed.Aside])

end Breaker

end GuardedHttp
