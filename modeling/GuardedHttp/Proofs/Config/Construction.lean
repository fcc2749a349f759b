import GuardedHttp.Client.Assembly
import GuardedHttp.Config.Document
import GuardedHttp.Proofs.Config.Assignments

/-!
# From settings to a client

Settings are checked once, when they are built into a configuration. `Draft.written` is what setters leave:
of each setting the value that was written last, and the default where none was. `Draft.Sound` are the four
conditions, and `Draft.Faulty` says which of them fails first.

Main statement: `clients_can_be_built`. Setters lead to a configuration exactly if what they have written is
sound, and otherwise to the error of the first condition that fails; every way to a configuration leads to
sound settings and to all of them; and a client can be put together from each, its breaker and its retry
policy with the values that are configured.
-/

namespace GuardedHttp

/-! ## What is written -/

/-- The values of a setting. -/
def Setting.Value : Setting → Type
  | timeout | dialTimeout | retryDelay | openDuration => Duration
  | maxRetries | failureThreshold | halfOpenTrials => UInt32
  | name => String

namespace Draft

/-- The value of a setting. -/
def get (draft : Draft) : (setting : Setting) → setting.Value
  | .timeout => draft.timeout
  | .dialTimeout => draft.dialTimeout
  | .maxRetries => draft.maxRetries
  | .retryDelay => draft.retryDelay
  | .failureThreshold => draft.failureThreshold
  | .openDuration => draft.openDuration
  | .halfOpenTrials => draft.halfOpenTrials
  | .name => draft.name

/-- The value that an edit writes into a setting, if it writes that one. -/
def Edit.value? : (setting : Setting) → Edit → Option setting.Value
  | .timeout, .timeout d => some d
  | .dialTimeout, .dialTimeout d => some d
  | .maxRetries, .maxRetries n => some n
  | .retryDelay, .retryDelay d => some d
  | .failureThreshold, .failureThreshold n => some n
  | .openDuration, .openDuration d => some d
  | .halfOpenTrials, .halfOpenTrials n => some n
  | .name, .name s => some s
  | _, _ => none

/-- The value of a setting that edits write last, or its default. -/
def lastWritten (edits : List Edit) (setting : Setting) : setting.Value :=
  (edits.filterMap (Edit.value? setting)).getLast?.getD (get {} setting)

/-- What edits leave, setting by setting. -/
def written (edits : List Edit) : Draft where
  timeout := lastWritten edits .timeout
  dialTimeout := lastWritten edits .dialTimeout
  maxRetries := lastWritten edits .maxRetries
  retryDelay := lastWritten edits .retryDelay
  failureThreshold := lastWritten edits .failureThreshold
  openDuration := lastWritten edits .openDuration
  halfOpenTrials := lastWritten edits .halfOpenTrials
  name := lastWritten edits .name

variable {draft : Draft}

/-- Drafts with the same values are the same. -/
theorem ext_get {a b : Draft} (h : ∀ setting, a.get setting = b.get setting) : a = b := by
  have hall := And.intro (h .timeout) <| And.intro (h .dialTimeout) <| And.intro (h .maxRetries) <|
    And.intro (h .retryDelay) <| And.intro (h .failureThreshold) <| And.intro (h .openDuration) <|
      And.intro (h .halfOpenTrials) (h .name)
  cases a
  cases b
  simp only [get] at hall
  obtain ⟨rfl, rfl, rfl, rfl, rfl, rfl, rfl, rfl⟩ := hall
  rfl

/-- An edit writes one setting and leaves the others. -/
theorem get_edit (draft : Draft) (e : Edit) (setting : Setting) :
    (draft.edit e).get setting = (e.value? setting).getD (draft.get setting) := by
  cases e <;> cases setting <;> rfl

/-- After edits every setting has the value written last, or the one that it had. -/
theorem get_editAll (draft : Draft) (edits : List Edit) (setting : Setting) :
    (draft.editAll edits).get setting =
      (edits.filterMap (Edit.value? setting)).getLast?.getD (draft.get setting) := by
  -- What an edit writes is the default for the edits after it.
  induction edits generalizing draft with
  | nil => rfl
  | cons e rest ih =>
    have hrest := ih (draft.edit e)
    rw [get_edit] at hrest
    refine hrest.trans ?_
    cases he : e.value? setting with
    | none => rw [List.filterMap_cons_none he]; rfl
    | some v => rw [List.filterMap_cons_some he, List.getLast?_cons]; rfl

/-- Edits of the defaults write what is written last. -/
theorem editAll_eq_written (edits : List Edit) : editAll {} edits = written edits := by
  refine ext_get fun setting => ?_
  rw [get_editAll]
  cases setting <;> rfl

/-! ## What is checked -/

/-- Settings that make sense together. -/
structure Sound (draft : Draft) : Prop where
  /-- There is time for a call. -/
  timeout_pos : .zero < draft.timeout
  /-- It takes a failure to open the circuit. -/
  failureThreshold_pos : 0 < draft.failureThreshold
  /-- A half-open circuit admits a trial. -/
  halfOpenTrials_pos : 0 < draft.halfOpenTrials
  /-- A connection may not take longer than the whole call. -/
  dialTimeout_le : draft.dialTimeout ≤ draft.timeout

/-- Settings whose first fault is reported by an error. -/
inductive Faulty (draft : Draft) : ConfigError → Prop
  | timeout (h : draft.timeout = .zero) : Faulty draft (.zero .timeout)
  | failureThreshold (htimeout : .zero < draft.timeout) (h : draft.failureThreshold = 0) :
      Faulty draft (.zero .failureThreshold)
  | halfOpenTrials (htimeout : .zero < draft.timeout) (hthreshold : 0 < draft.failureThreshold)
      (h : draft.halfOpenTrials = 0) : Faulty draft (.zero .halfOpenTrials)
  | dialTimeout (htimeout : .zero < draft.timeout) (hthreshold : 0 < draft.failureThreshold)
      (htrials : 0 < draft.halfOpenTrials) (h : draft.timeout < draft.dialTimeout) :
      Faulty draft (.dialExceedsTimeout draft.dialTimeout draft.timeout)

/-- A duration is zero exactly if it is the empty one. -/
theorem isZero_iff {d : Duration} : d.isZero = true ↔ d = .zero := by
  unfold Duration.isZero
  rw [beq_iff_eq]
  exact ⟨fun h => Duration.ext_nanos h, fun h => h ▸ rfl⟩

/-- A duration is positive exactly if it is not zero. -/
theorem zero_lt_iff {d : Duration} : .zero < d ↔ d.isZero = false := by
  rw [Duration.lt_iff, ← Bool.not_eq_true, isZero_iff]
  exact ⟨fun h e => absurd (e ▸ h) (Nat.lt_irrefl _), fun h =>
    Nat.pos_of_ne_zero fun e => h (Duration.ext_nanos e)⟩

end Draft

namespace Config

/-- Configurations with the same settings are the same. -/
theorem ext_draft {a b : Config} (h : a.toDraft = b.toDraft) : a = b := by
  cases a
  cases b
  cases h
  rfl

/-- The settings of a configuration are sound. -/
theorem sound (config : Config) : config.toDraft.Sound where
  timeout_pos := Draft.zero_lt_iff.mpr config.timeout_pos
  failureThreshold_pos := UInt32.pos_iff_ne_zero.mpr config.failureThreshold_pos
  halfOpenTrials_pos := UInt32.pos_iff_ne_zero.mpr config.halfOpenTrials_pos
  dialTimeout_le := config.dialTimeout_le

end Config

namespace Draft

variable {draft : Draft}

/-- Sound settings pass the checks. -/
theorem Sound.exists_build (h : draft.Sound) : ∃ config, draft.build = .ok config :=
  build_eq_ok_iff.mpr ⟨zero_lt_iff.mp h.timeout_pos, UInt32.pos_iff_ne_zero.mp h.failureThreshold_pos,
    UInt32.pos_iff_ne_zero.mp h.halfOpenTrials_pos, h.dialTimeout_le⟩

/-- Sound settings, and no others, are built into a configuration, which has them. -/
theorem build_eq_ok_iff_sound {config : Config} :
    draft.build = .ok config ↔ draft.Sound ∧ config.toDraft = draft := by
  constructor
  · intro h
    obtain rfl := toDraft_of_build h
    exact ⟨config.sound, rfl⟩
  · rintro ⟨h, hdraft⟩
    obtain ⟨built, hbuilt⟩ := h.exists_build
    rw [hbuilt, Config.ext_draft ((toDraft_of_build hbuilt).trans hdraft.symm)]

/-- The error of a draft that cannot be built is that of its first fault. -/
theorem build_eq_error_iff_faulty {e : ConfigError} : draft.build = .error e ↔ draft.Faulty e := by
  constructor
  · intro h
    -- Each check that is passed is a condition that the later faults come with.
    unfold build at h
    split at h
    case isTrue ht =>
      cases h
      exact .timeout (isZero_iff.mp ht)
    case isFalse ht =>
      have htimeout := zero_lt_iff.mpr (Bool.eq_false_iff.mpr ht)
      split at h
      case isTrue hf =>
        cases h
        exact .failureThreshold htimeout hf
      case isFalse hf =>
        have hthreshold := UInt32.pos_iff_ne_zero.mpr hf
        split at h
        case isTrue hh =>
          cases h
          exact .halfOpenTrials htimeout hthreshold hh
        case isFalse hh =>
          split at h
          case isTrue => cases h
          case isFalse hd =>
            cases h
            exact .dialTimeout htimeout hthreshold (UInt32.pos_iff_ne_zero.mpr hh) (Nat.lt_of_not_le hd)
  · intro h
    unfold build
    cases h with
    | timeout h => rw [dif_pos (isZero_iff.mpr h)]
    | failureThreshold ht h =>
      rw [dif_neg (Bool.eq_false_iff.mp (zero_lt_iff.mp ht)), dif_pos h]
    | halfOpenTrials ht hf h =>
      rw [dif_neg (Bool.eq_false_iff.mp (zero_lt_iff.mp ht)), dif_neg (UInt32.pos_iff_ne_zero.mp hf),
        dif_pos h]
    | dialTimeout ht hf hh h =>
      rw [dif_neg (Bool.eq_false_iff.mp (zero_lt_iff.mp ht)), dif_neg (UInt32.pos_iff_ne_zero.mp hf),
        dif_neg (UInt32.pos_iff_ne_zero.mp hh),
        dif_neg (show ¬ draft.dialTimeout ≤ draft.timeout from Nat.not_le_of_lt h)]

/-- The edits that write every setting. -/
def edits (draft : Draft) : List Edit :=
  [.timeout draft.timeout, .dialTimeout draft.dialTimeout, .maxRetries draft.maxRetries,
    .retryDelay draft.retryDelay, .failureThreshold draft.failureThreshold,
    .openDuration draft.openDuration, .halfOpenTrials draft.halfOpenTrials, .name draft.name]

/-- Every draft can be written, setting by setting. -/
theorem editAll_edits (draft : Draft) : editAll {} draft.edits = draft := by
  refine ext_get fun setting => ?_
  rw [get_editAll]
  cases setting <;> rfl

end Draft

/-! ## Ways to a configuration -/

/-- The ways to a configuration. -/
inductive Config.Obtained (config : Config) : Prop
  /-- Setters write settings, which are then checked. -/
  | set (edits : List Draft.Edit) (h : (Draft.editAll {} edits).build = .ok config)
  /-- Environment variables are read. -/
  | loaded (lookup : String → Option String) (h : Config.fromEnvironment lookup = .ok config)
  /-- A document is read. -/
  | read (document : Text.Bytes) (h : Config.ofDocument document = .ok config)
  /-- A document is read as settings that are not checked before setters have written others. -/
  | drafted (document : Text.Bytes) (draft : Draft) (edits : List Draft.Edit)
      (hdraft : Draft.ofDocument document = .ok draft) (h : (draft.editAll edits).build = .ok config)
  /-- Nothing is written, and nothing is checked. -/
  | unset (h : config = .default)

/-- The settings that configurations have are the sound ones. -/
theorem Config.exists_obtained_iff {draft : Draft} :
    (∃ config : Config, config.Obtained ∧ config.toDraft = draft) ↔ draft.Sound := by
  constructor
  · rintro ⟨config, -, rfl⟩
    exact config.sound
  · intro h
    obtain ⟨config, hconfig⟩ := h.exists_build
    exact ⟨config, .set draft.edits (draft.editAll_edits.symm ▸ hconfig), Draft.toDraft_of_build hconfig⟩

/-! ## What a client is put together from -/

/-- A client is put together with what is configured. -/
structure Assembly.Carries (a : Assembly) (config : Config) : Prop where
  /-- Breaker and retry policy have the name of the client. -/
  name : a.breaker.settings.name = config.name ∧ a.policy.name = config.name
  /-- The circuit opens at the configured number of failures. -/
  threshold : a.breaker.settings.threshold = config.failureThreshold
  /-- It stays open for the configured time. -/
  openDuration : a.breaker.settings.openDuration = config.openDuration
  /-- It then admits the configured number of trials. -/
  trials : a.breaker.settings.trials = config.halfOpenTrials
  /-- Nobody listens to the breaker. -/
  reactors : a.breaker.reactors = []
  /-- Calls count as failures that another attempt might have mended. -/
  classify : a.classify = countsAsFailure
  /-- One attempt is made, and the configured number of retries. -/
  attempts : a.policy.attemptLimit = config.maxRetries.toNat + 1
  /-- The delays grow by the configured one. -/
  backoff : a.policy.backoff = .linear config.retryDelay none
  /-- The configured time bounds attempts and delays. -/
  budget : a.policy.budget = some config.timeout
  /-- Only errors that another attempt might mend are tried again. -/
  retryOn : a.policy.retryOn = some AttemptError.isRetryable
  /-- This is what the calls of the client are made with. -/
  running : a.breaker = config.breaker ∧ a.policy = config.retryPolicy

/-- A client can be put together from every configuration, and carries it. -/
theorem Config.exists_assemble (config : Config) :
    ∃ a, config.toDraft.assemble = .ok a ∧ a.Carries config := by
  let told : Breaker.Draft :=
    { name := config.name
      threshold := config.failureThreshold
      openDuration := config.openDuration
      trials := config.halfOpenTrials }
  have hbuild : told.build = .ok config.breakerSettings := by
    unfold Breaker.Draft.build
    rw [dif_neg config.failureThreshold_pos, dif_neg config.halfOpenTrials_pos]
    rfl
  -- Whatever the builder is told before it is given the classifier, it still knows afterwards.
  have hassemble : config.toDraft.assemble = told.build.map fun settings =>
      ⟨{ settings }, countsAsFailure, config.retryPolicy⟩ := by
    show (told.build.map _ >>= _) = told.build.map _
    cases told.build <;> rfl
  rw [hassemble, hbuild]
  refine ⟨_, rfl, ?_⟩
  exact
    { name := ⟨rfl, rfl⟩
      threshold := rfl
      openDuration := rfl
      trials := rfl
      reactors := rfl
      classify := rfl
      attempts := Nat.max_eq_left (Nat.le_add_left ..)
      backoff := rfl
      budget := rfl
      retryOn := rfl
      running := ⟨rfl, rfl⟩ }

/-- A client can be built from a configuration. Setters lead to a configuration exactly if what they have
written is sound, and to the error of its first fault otherwise. The settings that can be had, on whatever
way, are the sound ones, and from each of them a client is put together that carries them. -/
theorem clients_can_be_built :
    (∀ edits : List Draft.Edit,
      (∀ config, (Draft.editAll {} edits).build = .ok config ↔
        (Draft.written edits).Sound ∧ config.toDraft = Draft.written edits) ∧
      ∀ e, (Draft.editAll {} edits).build = .error e ↔ (Draft.written edits).Faulty e) ∧
    (∀ draft : Draft, (∃ config : Config, config.Obtained ∧ config.toDraft = draft) ↔ draft.Sound) ∧
    ∀ config : Config, ∃ a, config.toDraft.assemble = .ok a ∧ a.Carries config := by
  refine ⟨fun edits => ?_, fun _ => Config.exists_obtained_iff, Config.exists_assemble⟩
  rw [Draft.editAll_eq_written]
  exact ⟨fun _ => Draft.build_eq_ok_iff_sound, fun _ => Draft.build_eq_error_iff_faulty⟩

end GuardedHttp
