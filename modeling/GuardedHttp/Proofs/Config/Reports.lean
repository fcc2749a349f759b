import GuardedHttp.Proofs.Config.Construction
import GuardedHttp.Proofs.Config.Loading

/-!
# What is reported of variables

A text that is no value for its setting is reported with its variable, and nothing else is said about the
environment: neither later variables nor the checks on the settings read so far have a part in it. Where all
texts are values, loading is building. `Setting.parse` says what a text denotes, setting by setting, without
the detour over edits; `fault?_eq_some_iff` and `get_editAll_edit?` tie it to the loading.

Main statement: `environment_errors_reported`.
-/

namespace GuardedHttp

namespace Setting

/-- The settings whose texts are parsed, in the order in which their variables are looked up. -/
def parsed : List Setting :=
  [timeout, dialTimeout, maxRetries, retryDelay, failureThreshold, openDuration, halfOpenTrials]

/-- The value that a text denotes for a setting, or the reason of its parser. The name is any text, blanks
included. -/
def parse : (setting : Setting) → String → Except SettingError setting.Value
  | timeout, text | dialTimeout, text | retryDelay, text | openDuration, text =>
    (Duration.ofSpans (Text.trim text)).mapError .span
  | maxRetries, text | failureThreshold, text | halfOpenTrials, text =>
    (Numeric.ofNumeral (Text.trim text)).mapError .count
  | name, text => .ok text

variable (lookup : String → Option String)

/-- The variable of a setting is set to a text that its parser refuses for a reason. -/
structure Misread (setting : Setting) (text : String) (reason : SettingError) : Prop where
  /-- The variable is set to the text. -/
  set : lookup setting.envName = some text
  /-- The text is no value. -/
  refused : setting.parse text = .error reason

/-- The variable of a setting is the first one that is misread. -/
structure FirstMisread (setting : Setting) (text : String) (reason : SettingError) : Prop
    extends Misread lookup setting text reason where
  /-- No variable before it is. -/
  first : ∃ earlier later, parsed = earlier ++ setting :: later ∧
    ∀ other ∈ earlier, ∀ text reason, ¬ Misread lookup other text reason

end Setting

/-- Every setting of a draft has the value that its variable denotes, or its default if the variable is not
set. -/
def Draft.Describes (lookup : String → Option String) (draft : Draft) : Prop :=
  ∀ setting : Setting,
    match lookup setting.envName with
    | none => draft.get setting = Draft.get {} setting
    | some text => setting.parse text = .ok (draft.get setting)

/-! ## Reading a variable -/

namespace Setting

/-- The edit that writes a value. -/
def write : (setting : Setting) → setting.Value → Draft.Edit
  | timeout, d => .timeout d
  | dialTimeout, d => .dialTimeout d
  | maxRetries, n => .maxRetries n
  | retryDelay, d => .retryDelay d
  | failureThreshold, n => .failureThreshold n
  | openDuration, d => .openDuration d
  | halfOpenTrials, n => .halfOpenTrials n
  | name, s => .name s

/-- A text is read as the edit that writes its value. -/
theorem read_eq_map_parse (setting : Setting) (text : String) :
    setting.read text = (setting.parse text).map setting.write := by
  cases setting <;> rfl

/-- An edit of a setting writes its value. -/
theorem value?_write (setting : Setting) (value : setting.Value) :
    Draft.Edit.value? setting (setting.write value) = some value := by
  cases setting <;> rfl

/-- An edit of a setting writes no value of another one. -/
theorem value?_write_of_ne {setting other : Setting} (h : other ≠ setting) (value : other.Value) :
    Draft.Edit.value? setting (other.write value) = none := by
  cases setting <;> cases other <;> first | rfl | exact absurd rfl h

variable {lookup : String → Option String}

/-- A setting has a fault if its variable is misread. -/
theorem fault?_eq_some_iff {setting : Setting} {fault : Fault} :
    setting.fault? lookup = some fault ↔
      fault.setting = setting ∧ Misread lookup setting fault.text fault.reason := by
  have hmisread : Misread lookup setting fault.text fault.reason ↔
      lookup setting.envName = some fault.text ∧ setting.parse fault.text = .error fault.reason :=
    ⟨fun h => ⟨h.set, h.refused⟩, fun h => ⟨h.1, h.2⟩⟩
  obtain ⟨faulty, found, why⟩ := fault
  rw [hmisread]
  unfold fault?
  cases lookup setting.envName with
  | none => simp
  | some text =>
    rw [Option.bind_some, read_eq_map_parse]
    cases hparse : setting.parse text with
    | ok value =>
      refine ⟨nofun, ?_⟩
      rintro ⟨-, htext, hrefused⟩
      cases htext
      rw [hparse] at hrefused
      cases hrefused
    | error reason =>
      constructor
      · intro h
        cases h
        exact ⟨rfl, rfl, hparse⟩
      · rintro ⟨rfl, htext, hrefused⟩
        cases htext
        rw [hparse] at hrefused
        cases hrefused
        rfl

/-- After loading, a setting has the value that its variable denotes, if it is set to one. -/
theorem get_editAll_edit? (setting : Setting) :
    (Draft.editAll {} (all.filterMap (edit? lookup))).get setting =
      ((lookup setting.envName).bind fun text => (setting.parse text).toOption).getD
        (Draft.get {} setting) := by
  have hedit (s : Setting) : edit? lookup s =
      ((lookup s.envName).bind fun text => (s.parse text).toOption).map s.write := by
    unfold edit?
    cases lookup s.envName with
    | none => rfl
    | some text =>
      rw [Option.bind_some, Option.bind_some, read_eq_map_parse]
      cases s.parse text <;> rfl
  have hother (s : Setting) (hs : s ≠ setting) :
      (edit? lookup s).bind (Draft.Edit.value? setting) = none := by
    rw [hedit]
    cases (lookup s.envName).bind fun text => (s.parse text).toOption with
    | none => rfl
    | some value => exact value?_write_of_ne hs value
  have hself : (edit? lookup setting).bind (Draft.Edit.value? setting) =
      (lookup setting.envName).bind fun text => (setting.parse text).toOption := by
    rw [hedit]
    cases (lookup setting.envName).bind fun text => (setting.parse text).toOption with
    | none => rfl
    | some value => exact value?_write setting value
  -- Only the variable of the setting itself is written into it, and that once.
  have hwritten : all.filterMap (fun s => (edit? lookup s).bind (Draft.Edit.value? setting)) =
      ((edit? lookup setting).bind (Draft.Edit.value? setting)).toList := by
    obtain ⟨earlier, later, hall⟩ := List.append_of_mem setting.mem_all
    have hnodup : (earlier ++ setting :: later).Nodup := hall ▸ (by decide : all.Nodup)
    obtain ⟨-, hlater, hapart⟩ := List.nodup_append.mp hnodup
    have hbefore : earlier.filterMap (fun s => (edit? lookup s).bind (Draft.Edit.value? setting)) = [] :=
      List.filterMap_eq_nil_iff.mpr fun s hs => hother s (hapart s hs setting List.mem_cons_self)
    have hafter : later.filterMap (fun s => (edit? lookup s).bind (Draft.Edit.value? setting)) = [] :=
      List.filterMap_eq_nil_iff.mpr fun s hs => hother s fun e => (List.nodup_cons.mp hlater).1 (e ▸ hs)
    rw [hall, List.filterMap_append, hbefore, List.nil_append, List.filterMap_cons, hafter]
    cases (edit? lookup setting).bind (Draft.Edit.value? setting) <;> rfl
  rw [Draft.get_editAll, List.filterMap_filterMap, hwritten, hself]
  cases (lookup setting.envName).bind fun text => (setting.parse text).toOption <;> rfl

/-- A setting has no fault if its variable is not misread. -/
theorem fault?_eq_none_iff {setting : Setting} :
    setting.fault? lookup = none ↔ ∀ text reason, ¬ Misread lookup setting text reason := by
  rw [Option.eq_none_iff_forall_ne_some]
  constructor
  · exact fun h text reason hmisread => h ⟨setting, text, reason⟩ (fault?_eq_some_iff.mpr ⟨rfl, hmisread⟩)
  · exact fun h fault hfault => h fault.text fault.reason (fault?_eq_some_iff.mp hfault).2

/-- The first fault is that of the first variable that is misread. -/
theorem findSome?_fault?_eq_some_iff {fault : Fault} :
    all.findSome? (fault? lookup) = some fault ↔
      FirstMisread lookup fault.setting fault.text fault.reason := by
  -- The name comes last, and has no fault.
  have hname : [name].findSome? (fault? lookup) = none := by
    rw [List.findSome?_singleton, fault?_eq_none_iff]
    rintro text reason ⟨-, hrefused⟩
    cases hrefused
  have hall : all.findSome? (fault? lookup) = parsed.findSome? (fault? lookup) := by
    show (parsed ++ [name]).findSome? _ = _
    rw [List.findSome?_append, hname, Option.or_none]
  rw [hall, List.findSome?_eq_some_iff]
  constructor
  · rintro ⟨earlier, setting, later, hparsed, hfault, hbefore⟩
    obtain ⟨rfl, hmisread⟩ := fault?_eq_some_iff.mp hfault
    exact ⟨hmisread, earlier, later, hparsed, fun other ho => fault?_eq_none_iff.mp (hbefore other ho)⟩
  · rintro ⟨hmisread, earlier, later, hparsed, hbefore⟩
    exact ⟨earlier, fault.setting, later, hparsed, fault?_eq_some_iff.mpr ⟨rfl, hmisread⟩,
      fun other ho => fault?_eq_none_iff.mpr (hbefore other ho)⟩

/-- If a variable is misread, one of them is the first. -/
theorem exists_firstMisread {setting : Setting} {text : String} {reason : SettingError}
    (h : Misread lookup setting text reason) :
    ∃ fault : Fault, all.findSome? (fault? lookup) = some fault := by
  refine Option.ne_none_iff_exists'.mp fun hnone => ?_
  rw [List.findSome?_eq_none_iff] at hnone
  exact fault?_eq_none_iff.mp (hnone setting setting.mem_all) text reason h

end Setting

/-! ## Loading -/

section

variable {lookup : String → Option String}

/-- The first variable that is misread is reported, if its parser returns. -/
theorem Config.fromEnvironment_of_fault {fault : Setting.Fault}
    (hfault : Setting.all.findSome? (Setting.fault? lookup) = some fault)
    (hreturns : fault.reason ≠ .span .carryOverflow) :
    Config.fromEnvironment lookup =
      .error (.refused (.invalidVariable fault.setting fault.text fault.reason)) := by
  rw [Config.fromEnvironment_eq_of_faults, hfault]
  rcases fault.failure_case with ⟨hreason, -⟩ | ⟨-, hfailure⟩
  · exact absurd hreason hreturns
  · exact congrArg Except.error hfailure

/-- If no variable is misread, loading is building the draft that the variables describe. -/
theorem Config.fromEnvironment_of_readable
    (hreadable : ∀ setting text reason, ¬ Setting.Misread lookup setting text reason) :
    ∃ draft : Draft, draft.Describes lookup ∧
      Config.fromEnvironment lookup = draft.build.mapError .refused := by
  have hnone : Setting.all.findSome? (Setting.fault? lookup) = none :=
    List.findSome?_eq_none_iff.mpr fun setting _ =>
      Setting.fault?_eq_none_iff.mpr (hreadable setting)
  refine ⟨Draft.editAll {} (Setting.all.filterMap (Setting.edit? lookup)), fun setting => ?_, ?_⟩
  · rw [Setting.get_editAll_edit?]
    cases hset : lookup setting.envName with
    | none => rfl
    | some text =>
      cases hparse : setting.parse text with
      | error reason => exact absurd ⟨hset, hparse⟩ (hreadable setting text reason)
      | ok value => simp [hparse, Except.toOption]
  · rw [Config.fromEnvironment_eq_of_faults, hnone]

/-- The checks on settings are not about the texts of variables. -/
theorem Draft.build_ne_invalidVariable (draft : Draft) (setting : Setting) (text : String)
    (reason : SettingError) :
    draft.build.mapError LoadFailure.refused ≠
      .error (.refused (.invalidVariable setting text reason)) := by
  intro h
  cases hbuild : draft.build with
  | ok config =>
    rw [hbuild] at h
    cases h
  | error e =>
    rw [hbuild] at h
    cases h
    cases Draft.build_eq_error_iff_faulty.mp hbuild

/-- Only the variables of the settings are looked up. -/
theorem Config.fromEnvironment_congr {other : String → Option String}
    (h : ∀ setting : Setting, other setting.envName = lookup setting.envName) :
    Config.fromEnvironment other = Config.fromEnvironment lookup := by
  have hread : Draft.readVariable other = Draft.readVariable lookup := by
    funext draft setting
    unfold Draft.readVariable
    rw [h setting]
  unfold Config.fromEnvironment
  rw [hread]

/-- Errors in the environment are reported one at a time, and none is left out. If the parser of durations
returns on all texts, loading reports a variable with a text and a reason exactly if it is the first one, in
the order of the look-ups, whose text is no value, and for that reason. So it reports one exactly if there is
one, whatever the later variables hold and whatever the settings read so far are worth. If there is none, it
comes to what building the settings comes to that the variables describe. It sees the variables of the
settings and no others. -/
theorem environment_errors_reported
    (hreturns : ∀ setting text reason, Setting.Misread lookup setting text reason →
      reason ≠ .span .carryOverflow) :
    Setting.parsed.map Setting.envName =
        ["HTTP_TIMEOUT", "HTTP_DIAL_TIMEOUT", "HTTP_MAX_RETRIES", "HTTP_RETRY_DELAY",
          "HTTP_CB_THRESHOLD", "HTTP_CB_TIMEOUT", "HTTP_CB_HALF_OPEN_TRIALS"] ∧
      (∀ setting text reason,
        Config.fromEnvironment lookup = .error (.refused (.invalidVariable setting text reason)) ↔
          Setting.FirstMisread lookup setting text reason) ∧
      ((∃ setting text reason,
        Config.fromEnvironment lookup = .error (.refused (.invalidVariable setting text reason))) ↔
          ∃ setting ∈ Setting.parsed, ∃ text reason, Setting.Misread lookup setting text reason) ∧
      ((∀ setting text reason, ¬ Setting.Misread lookup setting text reason) →
        ∃ draft : Draft, draft.Describes lookup ∧
          Config.fromEnvironment lookup = draft.build.mapError .refused) ∧
      ∀ other : String → Option String,
        (∀ setting : Setting, other setting.envName = lookup setting.envName) →
          Config.fromEnvironment other = Config.fromEnvironment lookup := by
  -- No carry stops the program here, so that the first fault is reported.
  have hreport {fault : Setting.Fault}
      (hfault : Setting.all.findSome? (Setting.fault? lookup) = some fault) :
      Config.fromEnvironment lookup =
        .error (.refused (.invalidVariable fault.setting fault.text fault.reason)) := by
    have hfound := Setting.findSome?_fault?_eq_some_iff.mp hfault
    exact Config.fromEnvironment_of_fault hfault (hreturns _ _ _ hfound.toMisread)
  have hfirst (setting : Setting) (text : String) (reason : SettingError) :
      Config.fromEnvironment lookup = .error (.refused (.invalidVariable setting text reason)) ↔
        Setting.FirstMisread lookup setting text reason := by
    constructor
    · intro h
      -- The error comes from a variable: the checks that follow have errors of their own.
      by_cases hmisread : ∃ setting text reason, Setting.Misread lookup setting text reason
      · obtain ⟨_, _, _, hmisread⟩ := hmisread
        obtain ⟨fault, hfault⟩ := Setting.exists_firstMisread hmisread
        have hfound := Setting.findSome?_fault?_eq_some_iff.mp hfault
        rw [hreport hfault] at h
        cases h
        exact hfound
      · obtain ⟨draft, -, hbuild⟩ := Config.fromEnvironment_of_readable fun setting text reason h =>
          hmisread ⟨setting, text, reason, h⟩
        exact absurd (hbuild.symm.trans h) (draft.build_ne_invalidVariable setting text reason)
    · intro h
      have hfault : Setting.all.findSome? (Setting.fault? lookup) = some ⟨setting, text, reason⟩ :=
        Setting.findSome?_fault?_eq_some_iff.mpr h
      exact hreport hfault
  refine ⟨rfl, hfirst, ⟨?_, ?_⟩, Config.fromEnvironment_of_readable,
    fun _ => Config.fromEnvironment_congr⟩
  · rintro ⟨setting, text, reason, h⟩
    obtain ⟨hmisread, earlier, later, hparsed, -⟩ := (hfirst setting text reason).mp h
    exact ⟨setting, hparsed ▸ List.mem_append_right _ List.mem_cons_self, text, reason, hmisread⟩
  · rintro ⟨setting, -, text, reason, hmisread⟩
    obtain ⟨fault, hfault⟩ := Setting.exists_firstMisread hmisread
    exact ⟨fault.setting, fault.text, fault.reason, hreport hfault⟩

end

/-- A time-out that no configuration may have, then one with blanks around it, and after them a number and a
duration that are none. -/
def jumbled : String → Option String
  | "HTTP_TIMEOUT" => some "0s"
  | "HTTP_DIAL_TIMEOUT" => some " 250ms\n"
  | "HTTP_MAX_RETRIES" => some " -1 "
  | "HTTP_CB_TIMEOUT" => some "soon"
  | "HTTP_CLIENT_NAME" => some " spare "
  | _ => none

/-- Two values with blanks around them. -/
def padded : String → Option String
  | "HTTP_TIMEOUT" => some "\t2m "
  | "HTTP_MAX_RETRIES" => some " 5 "
  | _ => none

/-- Blanks around a value do not make it one that is misread. The first text that is none is reported as it
stands, and where there is none, the values are those without the blanks. -/
theorem jumbled_environment_reported :
    (∀ setting text reason, Setting.Misread jumbled setting text reason →
      reason ≠ .span .carryOverflow) ∧
      Setting.FirstMisread jumbled .maxRetries " -1 " (.count .invalidDigit) ∧
      Config.fromEnvironment jumbled =
        .error (.refused (.invalidVariable .maxRetries " -1 " (.count .invalidDigit))) ∧
      (∀ setting text reason, ¬ Setting.Misread padded setting text reason) ∧
      ∃ draft : Draft, draft.Describes padded ∧ draft.maxRetries = 5 ∧ draft.timeout = .ofSeconds 120 ∧
        Config.fromEnvironment padded = draft.build.mapError .refused := by
  have hreasons : ∀ setting ∈ Setting.all, ∀ fault ∈ setting.fault? jumbled,
      fault.reason ≠ .span .carryOverflow := by decide +kernel
  have hreturns : ∀ setting text reason, Setting.Misread jumbled setting text reason →
      reason ≠ .span .carryOverflow := fun setting text reason h =>
    hreasons setting setting.mem_all ⟨setting, text, reason⟩ (Setting.fault?_eq_some_iff.mpr ⟨rfl, h⟩)
  have hfault : Setting.all.findSome? (Setting.fault? jumbled) =
      some ⟨.maxRetries, " -1 ", .count .invalidDigit⟩ := by decide +kernel
  have hfirst := Setting.findSome?_fault?_eq_some_iff.mp hfault
  obtain ⟨-, hreports, -⟩ := environment_errors_reported hreturns
  have hnone : ∀ setting ∈ Setting.all, setting.fault? padded = none := by decide +kernel
  have hreadable : ∀ setting text reason, ¬ Setting.Misread padded setting text reason := by
    intro setting text reason h
    have hsome : setting.fault? padded = some ⟨setting, text, reason⟩ :=
      Setting.fault?_eq_some_iff.mpr ⟨rfl, h⟩
    cases (hnone setting setting.mem_all).symm.trans hsome
  obtain ⟨-, -, -, hbuilds, -⟩ :=
    environment_errors_reported fun setting text reason h => absurd h (hreadable setting text reason)
  obtain ⟨draft, hdescribes, hbuild⟩ := hbuilds hreadable
  -- What the two texts denote is what the draft has.
  have hretries : Numeric.ofNumeral (Text.trim " 5 ") = .ok (5 : UInt32) := by decide +kernel
  have htimeout : Duration.ofSpans (Text.trim "\t2m ") = .ok (.ofSeconds 120) := by decide +kernel
  have hfive := (hdescribes .maxRetries).symm.trans (congrArg (Except.mapError .count) hretries)
  have hminutes := (hdescribes .timeout).symm.trans (congrArg (Except.mapError .span) htimeout)
  exact ⟨hreturns, hfirst, (hreports ..).mpr hfirst, hreadable, draft, hdescribes, Except.ok.inj hfive,
    Except.ok.inj hminutes, hbuild⟩

end GuardedHttp
