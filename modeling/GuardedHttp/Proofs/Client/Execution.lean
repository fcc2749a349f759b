import GuardedHttp.Client.Schedule
import GuardedHttp.Proofs.Breaker.Serial
import GuardedHttp.Proofs.Retry.Timeline

/-!
# A call on its own

A single call whose caller has patience goes from stage to stage, the clock moving on to the moment at
which each stage ends. `Send.next` is one such move, and `Fleet.complete` takes exactly the moves that
there are: `complete_eq_of_reaches`. Behind this is a measure that every stage lowers (`Stage.left`), so
that neither the stages of a poll nor the jumps of the clock run out.

The stages themselves are opened here and nowhere else: `settle_of_retry` and `settle_of_final` for the
end of an attempt, `conclude_case` for the end of the call, `frame_step` for what no stage touches.
-/

namespace GuardedHttp.Client

open StateTransition (Reaches)

variable {config : Config} {w : World} {s : Send} {call : Admitted}

/-! ## What a stage does to the world -/

/-- The series in which the breaker of a client counts calls. -/
def callsOf (config : Config) (outcome : String) : Series := Breaker.callsSeries config.name outcome

/-- The listeners of a client's breaker hear of every event, however deep. -/
theorem depth_ne_zero (config : Config) : config.breaker.depth ≠ 0 := Nat.succ_ne_zero 63

/-- Reporting the end of a call changes nothing else, and counts nothing for the breaker. -/
theorem conclude_case (config : Config) (w : World) (request : Request) (started : Instant)
    (result : Except (GuardedError AttemptError) Response) :
    ∃ emitted, (∀ outcome, countOf (callsOf config outcome) emitted = 0) ∧
      conclude config w request started result =
        (w.report emitted,
          .over (.ended (result.mapError ClientError.ofGuarded) (w.now.since started))) := by
  cases result with
  | ok response => exact ⟨_, fun _ => rfl, rfl⟩
  | error e => exact ⟨_, fun _ => rfl, rfl⟩

/-- What the retry policy decides after an attempt that has just ended. -/
def verdictOf (config : Config) (w : World) (call : Admitted)
    (result : Except AttemptError Response) : Retry.Verdict :=
  config.retryPolicy.judge (w.now.since call.started) call.attempt result

/-- The world with the decision after an attempt reported. -/
def decided (config : Config) (w : World) (call : Admitted)
    (result : Except AttemptError Response) : World :=
  w.report ((verdictOf config w call result).emissions config.name call.attempt)

variable {result : Except AttemptError Response}

/-- The call over, with the breaker told of its last attempt. -/
def finished (config : Config) (w : World) (call : Admitted)
    (result : Except AttemptError Response) : World × Stage :=
  conclude config
    ((decided config w call result).absorb
      (config.breaker.complete w.now call.permit (countsAsFailure result) w.circuit))
    call.request call.started (result.mapError .inner)

/-- A call rests after an attempt that is to be followed by another, and otherwise finishes. -/
theorem settle_eq : settle config w call result =
    match verdictOf config w call result with
    | .retry delay => (decided config w call result, .active call (.resting (w.now.wake delay)))
    | _ => finished config w call result := rfl

/-- The call rests if another attempt is to follow. -/
theorem settle_of_retry {delay : Duration} (h : verdictOf config w call result = .retry delay) :
    settle config w call result =
      (decided config w call result, .active call (.resting (w.now.wake delay))) := by
  rw [settle_eq, h]

/-- The breaker hears of the attempt if no other is to follow, and the call is over. -/
theorem settle_of_final (h : ∀ delay, verdictOf config w call result ≠ .retry delay) :
    settle config w call result = finished config w call result := by
  rw [settle_eq]
  split
  · rename_i delay hv
    exact absurd hv (h delay)
  · rfl

/-- The clock stands still and the current request id stays while a call runs. -/
structure SameFrame (w later : World) : Prop where
  /-- The time. -/
  now : later.now = w.now
  /-- The current request id. -/
  slot : later.slot = w.slot

/-- Reporting the end of a call takes no time and leaves the current request id. -/
theorem frame_conclude {request : Request} {started : Instant}
    {outcome : Except (GuardedError AttemptError) Response} :
    SameFrame w (conclude config w request started outcome).1 := by
  obtain ⟨_, -, h⟩ := conclude_case config w request started outcome
  rw [h]
  exact ⟨rfl, rfl⟩

/-- Judging an attempt takes no time and leaves the current request id. -/
theorem frame_settle : SameFrame w (settle config w call result).1 := by
  have hfinished : SameFrame w (finished config w call result).1 :=
    ⟨frame_conclude.now, frame_conclude.slot⟩
  by_cases h : ∃ delay, verdictOf config w call result = .retry delay
  · obtain ⟨delay, hv⟩ := h
    rw [settle_of_retry hv]
    exact ⟨rfl, rfl⟩
  · rw [settle_of_final (not_exists.mp h)]
    exact hfinished

/-- A stage takes no time and leaves the current request id. -/
theorem frame_step : SameFrame w (s.step config w).1 := by
  unfold Send.step
  split
  · unfold Send.begin
    dsimp only
    split
    · exact ⟨frame_conclude.now, frame_conclude.slot⟩
    · exact ⟨rfl, rfl⟩
  · unfold Send.place
    split
    · exact ⟨frame_settle.now, frame_settle.slot⟩
    · exact ⟨rfl, rfl⟩
  · exact ⟨frame_settle.now, frame_settle.slot⟩
  · exact ⟨rfl, rfl⟩
  · exact ⟨rfl, rfl⟩

/-! ## Every stage is one of the last -/

/-- How many attempts may follow the one that a call is making. -/
def Admitted.further (config : Config) (call : Admitted) : Nat := config.maxAttempts - 1 - call.attempt

/-- How many stages a call has left. A rest is followed by another attempt. -/
def Stage.left (config : Config) : Stage → Nat
  | .waiting _ => 3 * config.maxAttempts
  | .active call (.readying ..) => 3 * call.further config + 2
  | .active call (.calling ..) => 3 * call.further config + 1
  | .active call (.resting _) => 3 * max (call.further config) 1
  | .over _ => 0

/-- The policy asks for as many attempts as the configuration. -/
theorem attemptLimit_eq (config : Config) : config.retryPolicy.attemptLimit = config.maxAttempts :=
  Nat.max_eq_left (Nat.le_add_left 1 _)

/-- No stage has more stages left than a call can have. -/
theorem left_le_stageLimit (config : Config) (stage : Stage) :
    stage.left config ≤ Send.stageLimit config := by
  unfold Send.stageLimit Stage.left Admitted.further
  have hpos : 1 ≤ config.maxAttempts := Nat.le_add_left 1 _
  split <;> omega

/-- A call that has been concluded has no stage left. -/
theorem left_conclude {request : Request} {started : Instant}
    {outcome : Except (GuardedError AttemptError) Response} :
    (conclude config w request started outcome).2.left config = 0 := by
  obtain ⟨_, -, h⟩ := conclude_case config w request started outcome
  rw [h]
  rfl

/-- Once an attempt has ended, at most the further attempts are left. -/
theorem left_settle_le :
    (settle config w call result).2.left config ≤ 3 * call.further config := by
  by_cases h : ∃ delay, verdictOf config w call result = .retry delay
  · obtain ⟨delay, hv⟩ := h
    -- Only while attempts are left does the policy ask for another one.
    have hlt := (Retry.Policy.attempts_lt_of_judge_eq_retry hv).1
    rw [attemptLimit_eq] at hlt
    rw [settle_of_retry hv]
    simp only [Stage.left, Admitted.further]
    omega
  · rw [settle_of_final (not_exists.mp h), finished, left_conclude]
    exact Nat.zero_le _

/-- Every stage lowers the number of those that are left. -/
theorem left_step_lt (config : Config) (w : World) {due : Instant} (h : s.stage.due = some due) :
    (s.step config w).2.left config < s.stage.left config := by
  have hpos : 1 ≤ config.maxAttempts := Nat.le_add_left 1 _
  unfold Send.step
  split <;> rename_i hs <;> rw [hs] at h ⊢
  · -- The breaker rejects the call, or the first attempt is launched.
    unfold Send.begin
    dsimp only
    split
    · rw [left_conclude]
      simp only [Stage.left]
      omega
    · simp only [launch, Stage.left, Admitted.further]
      omega
  · -- The transport refuses the attempt, or is called.
    unfold Send.place
    split
    · exact lt_of_le_of_lt left_settle_le (Nat.lt_add_of_pos_right Nat.two_pos)
    · exact Nat.lt_succ_self _
  · exact lt_of_le_of_lt left_settle_le (Nat.lt_succ_self _)
  · -- The next attempt is launched after a rest.
    simp only [launch, Stage.left, Admitted.further]
    omega
  · cases h

/-! ## From stage to stage -/

/-- The caller will not give the call up. -/
structure Send.Patient (s : Send) : Prop where
  /-- The caller has set no limit. -/
  patience : s.patience = none
  /-- The call as it was admitted knows of none. -/
  admitted : ∀ call phase, s.stage = .active call phase → call.givenUpAt = none

/-- The world at a moment that has come. -/
def World.until (w : World) (moment : Instant) : World := { w with now := max w.now moment }

/-- A call at a stage, in its world. -/
def Send.staged (s : Send) (r : World × Stage) : World × Send := (r.1, { s with stage := r.2 })

/-- One stage of a call; the clock moves on to the moment at which it is due. -/
def Send.next (config : Config) : World × Send → Option (World × Send)
  | (w, s) => s.stage.due.map fun due => s.staged (s.step config (w.until due))

/-- The world inside the scopes of a call. -/
def World.inside (w : World) (s : Send) : World :=
  { w with slot := Correlation.enterAll s.scopes w.slot }

/-- A moment that has passed has come. -/
theorem World.until_of_le {moment : Instant} (h : moment ≤ w.now) : w.until moment = w := by
  rw [World.until, Instant.max_eq_left h]

/-- The clock moves on to a moment that has not come yet. -/
theorem World.until_of_ge {moment : Instant} (h : w.now ≤ moment) :
    w.until moment = { w with now := moment } := by
  rw [World.until, Instant.max_eq_right h]

/-- A moment that has come has come. -/
theorem World.until_until {moment : Instant} : (w.until moment).until moment = w.until moment :=
  until_of_le (Instant.le_max_right _ _)

/-- A call is due if the moment has come at which it goes on. -/
theorem isDue_iff {now : Instant} :
    s.isDue now = true ↔ ∃ due, s.stage.due = some due ∧ due ≤ now := by
  unfold Send.isDue
  cases s.stage.due <;> simp

/-- A call at a stage goes on when the stage is due. -/
theorem next_staged {stage : Stage} {due : Instant} (h : stage.due = some due) :
    Send.next config (s.staged (w, stage)) =
      some (s.staged (({ s with stage } : Send).step config (w.until due))) := by
  simp [Send.next, Send.staged, h]

/-- A call comes no further exactly if its stage is never due. -/
theorem next_eq_none_iff : Send.next config (w, s) = none ↔ s.stage.due = none :=
  Option.map_eq_none_iff

/-- A call that is due goes on without the clock. -/
theorem next_of_isDue (h : s.isDue w.now = true) :
    Send.next config (w, s) = some (s.staged (s.step config w)) := by
  obtain ⟨due, hdue, hle⟩ := isDue_iff.mp h
  simp only [Send.next, hdue, World.until_of_le hle, Option.map_some]

/-- Judging an attempt sets no limit to the patience of a caller who has none. -/
theorem patient_settle {w : World} (hnone : call.givenUpAt = none) {later : Admitted} {phase : Phase}
    (h : (settle config w call result).2 = .active later phase) : later.givenUpAt = none := by
  by_cases hv : ∃ delay, verdictOf config w call result = .retry delay
  · obtain ⟨delay, hv⟩ := hv
    rw [settle_of_retry hv] at h
    cases h
    exact hnone
  · obtain ⟨_, -, hc⟩ := conclude_case config _ _ _ _
    rw [settle_of_final (not_exists.mp hv), finished, hc] at h
    cases h

/-- A stage ends with a patient caller if it began with one. -/
theorem Send.Patient.step (config : Config) (w : World) (h : s.Patient) :
    ({ s with stage := (s.step config w).2 } : Send).Patient where
  patience := h.patience
  admitted later phase hlater := by
    replace hlater : (s.step config w).2 = .active later phase := hlater
    unfold Send.step at hlater
    -- Only the beginning gives the call its patience, and each later stage keeps the call.
    split at hlater <;> rename_i hs
    · unfold Send.begin at hlater
      dsimp only at hlater
      split at hlater
      · obtain ⟨_, -, hc⟩ := conclude_case config _ _ _ _
        rw [hc] at hlater
        cases hlater
      · cases hlater
        simp [h.patience]
    · unfold Send.place at hlater
      split at hlater
      · exact patient_settle (h.admitted _ _ hs) hlater
      · cases hlater
        exact h.admitted _ _ hs
    · exact patient_settle (h.admitted _ _ hs) hlater
    · cases hlater
      have hnone := h.admitted _ _ hs
      exact hnone
    · rw [hs] at hlater
      cases hlater

/-- Nobody gives a call up whose caller is patient. -/
theorem Send.Patient.dropIfGivenUp (h : s.Patient) : s.dropIfGivenUp w = (w, s) := by
  unfold Send.dropIfGivenUp
  split
  · rename_i call phase hs
    rw [h.admitted call phase hs]
  · rfl

/-- A call of a patient caller runs again when it is due. -/
theorem Send.Patient.wake_eq (h : s.Patient) : s.stage.wake = s.stage.due := by
  unfold Stage.wake
  split
  · rename_i call phase hs
    rw [h.admitted call phase hs, hs]
    cases hd : phase.due <;> simp [earlier, Stage.due, hd]
  · rfl

/-! ## As far as a call gets at one moment -/

/-- What a call that runs as far as it gets comes to. -/
structure RunsTo (config : Config) (w : World) (s : Send) (r : World × Send) : Prop where
  /-- It goes from stage to stage. -/
  reaches : Reaches (Send.next config) (w, s) r
  /-- The clock stands still, and the current request id stays. -/
  frame : SameFrame w r.1
  /-- Its caller remains patient. -/
  patient : r.2.Patient
  /-- Its scopes remain. -/
  scopes : r.2.scopes = s.scopes
  /-- It has no more stages left than before. -/
  left_le : r.2.stage.left config ≤ s.stage.left config
  /-- It has fewer left if it was due. -/
  left_lt : s.isDue w.now = true → r.2.stage.left config < s.stage.left config
  /-- It is not due any more. -/
  idle : r.2.isDue r.1.now = false

/-- A call that is not due stays where it is. -/
theorem RunsTo.refl (hp : s.Patient) (h : s.isDue w.now = false) : RunsTo config w s (w, s) :=
  ⟨.refl, ⟨rfl, rfl⟩, hp, rfl, le_rfl, fun hdue => absurd (h.symm.trans hdue) Bool.false_ne_true, h⟩

/-- With stages enough a call runs until it is not due any more. -/
theorem run_runsTo (config : Config) (w : World) {stages : Nat} (hp : s.Patient)
    (h : s.stage.left config ≤ stages) : RunsTo config w s (s.run config stages w) := by
  -- By induction on the stages, each of which lowers what is left.
  induction stages generalizing w s with
  | zero =>
    refine .refl hp (Bool.eq_false_iff.mpr fun hdue => ?_)
    obtain ⟨due, hd, -⟩ := isDue_iff.mp hdue
    have hlt := left_step_lt config w hd
    omega
  | succ stages ih =>
    unfold Send.run
    split
    · rename_i hdue
      obtain ⟨due, hd, -⟩ := isDue_iff.mp hdue
      have hlt := left_step_lt config w hd
      have hrest := ih (s.step config w).1 (hp.step config w)
        (show (s.step config w).2.left config ≤ stages by omega)
      have hlater := lt_of_le_of_lt hrest.left_le hlt
      exact ⟨.head (next_of_isDue hdue) hrest.reaches,
        ⟨hrest.frame.now.trans frame_step.now, hrest.frame.slot.trans frame_step.slot⟩,
        hrest.patient, hrest.scopes, hlater.le, fun _ => hlater, hrest.idle⟩
    · rename_i hidle
      exact .refl hp (Bool.eq_false_iff.mpr hidle)

/-- Inside its scopes a call runs as far as it gets, and leaves the slot as it found it. -/
theorem poll_eq (config : Config) (w : World) (hp : s.Patient) :
    ∃ r, RunsTo config (w.inside s) s r ∧ s.poll config w = ({ r.1 with slot := w.slot }, r.2) := by
  have hrun := run_runsTo config (w.inside s) hp (left_le_stageLimit config s.stage)
  refine ⟨_, hrun, ?_⟩
  have hkept := hrun.patient.dropIfGivenUp (w := (s.run config (Send.stageLimit config) (w.inside s)).1)
  exact congrArg (fun r : World × Send => (({ r.1 with slot := w.slot } : World), r.2)) hkept

/-! ## Until the call is over -/

/-- Two states that go on alike come to the same end. -/
theorem reaches_of_next_eq {a b c : World × Send} (h : Send.next config a = Send.next config b)
    (hgoes : Send.next config b ≠ none) (hc : Send.next config c = none)
    (hreach : Reaches (Send.next config) b c) : Reaches (Send.next config) a c := by
  rcases Relation.ReflTransGen.cases_head hreach with rfl | ⟨b', hb, hrest⟩
  · exact absurd hc hgoes
  · exact .head (h ▸ hb) hrest

/-- With jumps enough a call that is due comes to its end. -/
theorem run_singleton {jumps : Nat} (hp : s.Patient) (hdue : s.isDue w.now = true)
    (h : s.stage.left config ≤ jumps) :
    ∃ r, Reaches (Send.next config) (w.inside s, s) r ∧ Send.next config r = none ∧
      Fleet.run config jumps w [s] = ({ r.1 with slot := w.slot }, [r.2]) := by
  -- By induction on the jumps: after each the call is due again, and has fewer stages left.
  induction jumps generalizing w s with
  | zero =>
    obtain ⟨due, hd, -⟩ := isDue_iff.mp hdue
    have hlt := left_step_lt config w hd
    omega
  | succ jumps ih =>
    obtain ⟨⟨w₁, s₁⟩, hrun, hpoll⟩ := poll_eq config w hp
    have hlt := hrun.left_lt hdue
    have hfleet : Fleet.run config (jumps + 1) w [s] =
        s₁.stage.due.elim ({ w₁ with slot := w.slot }, [s₁]) fun moment =>
          Fleet.run config jumps (World.until { w₁ with slot := w.slot } moment) [s₁] := by
      simp only [Fleet.run, Fleet.poll, hpoll, Fleet.wake, List.foldl_cons, List.foldl_nil,
        hrun.patient.wake_eq]
      cases s₁.stage.due <;> rfl
    cases hd : s₁.stage.due with
    | none =>
      rw [hd] at hfleet
      exact ⟨(w₁, s₁), hrun.reaches, next_eq_none_iff.mpr hd, hfleet⟩
    | some moment =>
      rw [hd] at hfleet
      have hagain := ih (w := World.until { w₁ with slot := w.slot } moment) hrun.patient
        (isDue_iff.mpr ⟨moment, hd, Instant.le_max_right _ _⟩) (by omega)
      obtain ⟨r, hreach, hend, hr⟩ := hagain
      -- The scopes that the call enters again lead to where it was.
      have hinside : (World.until { w₁ with slot := w.slot } moment).inside s₁ = w₁.until moment := by
        have hslot : Correlation.enterAll s₁.scopes w.slot = w₁.slot := by
          rw [hrun.scopes]
          exact hrun.frame.slot.symm
        simp only [World.inside, World.until, hslot]
      have hnext : Send.next config (w₁, s₁) = Send.next config (w₁.until moment, s₁) := by
        simp only [Send.next, hd, Option.map_some, World.until_until]
      have hgoes : Send.next config (w₁.until moment, s₁) ≠ none := by
        rw [Ne, next_eq_none_iff, hd]
        simp
      rw [hinside] at hreach
      exact ⟨r, hrun.reaches.trans (reaches_of_next_eq hnext hgoes hend hreach), hend,
        hfleet.trans hr⟩

/-- A call that is due comes to the end of its stages, wherever that is. -/
theorem complete_eq_of_reaches {r : World × Send} (hp : s.Patient) (hdue : s.isDue w.now = true)
    (hreach : Reaches (Send.next config) (w.inside s, s) r) (hend : Send.next config r = none) :
    Fleet.complete config w [s] = ({ r.1 with slot := w.slot }, [r.2]) := by
  have hjumps : s.stage.left config ≤ Fleet.jumpLimit config [s] := by
    have hstages := left_le_stageLimit config s.stage
    simp only [Fleet.jumpLimit, List.length_singleton]
    omega
  obtain ⟨r', hreach', hend', hr'⟩ := run_singleton hp hdue hjumps
  -- There is but one way to go, and so but one end.
  have hsame : r' = r := Part.mem_unique (StateTransition.mem_eval.mpr ⟨hreach', hend'⟩)
    (StateTransition.mem_eval.mpr ⟨hreach, hend⟩)
  rw [← hsame]
  exact hr'

/-- The result of a call that is due is that of the end of its stages. -/
theorem send_eq_of_reaches {r : World × Send} (hp : s.Patient) (hdue : s.isDue w.now = true)
    (hreach : Reaches (Send.next config) (w.inside s, s) r) (hend : Send.next config r = none) :
    send config w s = ({ r.1 with slot := w.slot }, r.2.stage.result?) := by
  unfold send
  rw [complete_eq_of_reaches hp hdue hreach hend]
  rfl

end GuardedHttp.Client
