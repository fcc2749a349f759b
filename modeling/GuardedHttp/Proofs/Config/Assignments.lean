import GuardedHttp.Config.Environment
import GuardedHttp.Proofs.Numeric.Numerals
import Mathlib.Data.List.Nodup

/-!
# Values for settings

An `Assignment` gives numbers for some of the counts and texts for some of the other settings. What it
means for a draft does not depend on the order in which the settings are written: each is written by an
edit of its own, and edits of different settings commute (`foldl_apply_eq`). Whoever writes them one
after another, and stops at the first text that is no duration, comes to the result of `writes`; for
environment variables this is `fromEnvironment_eq`.
-/

namespace GuardedHttp

/-! ## What is given -/

namespace Setting

/-- Every setting is one of all. -/
theorem mem_all (setting : Setting) : setting ∈ all := by
  cases setting <;> decide

/-- What is given for a setting: a number for a count, and a text for any other. -/
def Raw : Setting → Type
  | maxRetries | failureThreshold | halfOpenTrials => UInt32
  | timeout | dialTimeout | retryDelay | openDuration | name => String

/-- What is given as a text; a number is written as its decimal numeral. -/
def rawText : (setting : Setting) → setting.Raw → String
  | maxRetries, n | failureThreshold, n | halfOpenTrials, n => toString (UInt32.toNat n)
  | timeout, text | dialTimeout, text | retryDelay, text | openDuration, text | name, text => text

/-- The value of what is given, as an edit: a duration is read from its text without the blanks around
it. -/
def rawEdit : (setting : Setting) → setting.Raw → Except SpanError Draft.Edit
  | timeout, text => (Duration.ofSpans (Text.trim text)).map .timeout
  | dialTimeout, text => (Duration.ofSpans (Text.trim text)).map .dialTimeout
  | maxRetries, n => .ok (.maxRetries n)
  | retryDelay, text => (Duration.ofSpans (Text.trim text)).map .retryDelay
  | failureThreshold, n => .ok (.failureThreshold n)
  | openDuration, text => (Duration.ofSpans (Text.trim text)).map .openDuration
  | halfOpenTrials, n => .ok (.halfOpenTrials n)
  | name, text => .ok (.name text)

end Setting

/-- The setting that an edit writes. -/
def Draft.Edit.setting : Draft.Edit → Setting
  | timeout _ => .timeout
  | dialTimeout _ => .dialTimeout
  | maxRetries _ => .maxRetries
  | retryDelay _ => .retryDelay
  | failureThreshold _ => .failureThreshold
  | openDuration _ => .openDuration
  | halfOpenTrials _ => .halfOpenTrials
  | name _ => .name

/-- Values for some of the settings. -/
abbrev Assignment := (setting : Setting) → Option setting.Raw

namespace Assignment

variable (a : Assignment)

/-- The settings that are given, each once, in some order. -/
structure Orders (order : List Setting) : Prop where
  /-- Each of them once. -/
  nodup : order.Nodup
  /-- All of them, and no others. -/
  mem : ∀ setting, setting ∈ order ↔ (a setting).isSome

/-- The variables of the settings have what is given as texts. -/
def Lists (lookup : String → Option String) : Prop :=
  ∀ setting : Setting, lookup setting.envName = (a setting).map setting.rawText

/-- Why what is given for a setting is no value for it, if it is none. -/
def fault? (setting : Setting) : Option SpanError :=
  (a setting).bind fun raw =>
    match setting.rawEdit raw with
    | .ok _ => none
    | .error e => some e

/-- The draft with a setting written, if a value is given for it. -/
def apply (draft : Draft) (setting : Setting) : Draft :=
  (a setting).elim draft fun raw =>
    match setting.rawEdit raw with
    | .ok edit => draft.edit edit
    | .error _ => draft

/-- The draft with settings written one after another, up to the first text that is no value. -/
def writes {ε : Type} (failure : Setting → SpanError → ε) (order : List Setting) (draft : Draft) :
    Except ε Draft :=
  order.foldlM (fun draft setting =>
    (a.fault? setting).elim (.ok (a.apply draft setting)) fun e => .error (failure setting e)) draft

/-! ## The order does not matter -/

variable {a}

/-- What is given for a setting edits that setting. -/
theorem setting_of_rawEdit {setting : Setting} {raw : setting.Raw} {edit : Draft.Edit}
    (h : setting.rawEdit raw = .ok edit) : edit.setting = setting := by
  have hspan {make : Duration → Draft.Edit} {text : String} {s : Setting}
      (hmake : ∀ d, (make d).setting = s) (h : (Duration.ofSpans (Text.trim text)).map make = .ok edit) :
      edit.setting = s := by
    cases hd : Duration.ofSpans (Text.trim text) with
    | error e => rw [hd] at h; cases h
    | ok d => rw [hd] at h; cases h; exact hmake d
  cases setting with
  | timeout | dialTimeout | retryDelay | openDuration => exact hspan (fun _ => rfl) h
  | maxRetries | failureThreshold | halfOpenTrials | name => cases h; rfl

/-- Edits of different settings commute. -/
theorem edit_comm (draft : Draft) {e f : Draft.Edit} (h : e.setting ≠ f.setting) :
    (draft.edit e).edit f = (draft.edit f).edit e := by
  cases e <;> cases f <;> first | rfl | exact absurd rfl h

/-- It makes no difference which of two settings is written first. -/
theorem apply_comm (draft : Draft) (s t : Setting) :
    a.apply (a.apply draft s) t = a.apply (a.apply draft t) s := by
  by_cases hst : s = t
  · rw [hst]
  · unfold apply
    cases a s with
    | none => rfl
    | some rawS =>
      cases a t with
      | none => rfl
      | some rawT =>
        dsimp only [Option.elim_some]
        cases hs : s.rawEdit rawS with
        | error e => rfl
        | ok editS =>
          cases ht : t.rawEdit rawT with
          | error e => rfl
          | ok editT =>
            refine edit_comm draft ?_
            rwa [setting_of_rawEdit hs, setting_of_rawEdit ht]

/-- The settings that are given can be written in any order. -/
theorem foldl_apply_eq {order : List Setting} (h : a.Orders order) (draft : Draft) :
    order.foldl a.apply draft = Setting.all.foldl a.apply draft := by
  have hperm : order.Perm (Setting.all.filter fun setting => (a setting).isSome) := by
    refine (List.perm_ext_iff_of_nodup h.nodup (List.Nodup.filter _ (by decide))).mpr fun setting => ?_
    rw [h.mem, List.mem_filter]
    exact ⟨fun hsome => ⟨setting.mem_all, hsome⟩, fun hmem => hmem.2⟩
  have hskip : (fun draft setting => if (a setting).isSome = true then a.apply draft setting else draft) =
      a.apply := by
    funext draft setting
    unfold apply
    cases a setting <;> rfl
  rw [hperm.foldl_eq' (fun s _ t _ draft => apply_comm draft s t), List.foldl_filter, hskip]

/-! ## Writing settings one after another -/

variable {ε : Type} {failure : Setting → SpanError → ε}

/-- If everything that is given is a value, everything is written. -/
theorem writes_eq_ok {order : List Setting} (h : ∀ setting, a.fault? setting = none) (draft : Draft) :
    a.writes failure order draft = .ok (order.foldl a.apply draft) := by
  induction order generalizing draft with
  | nil => rfl
  | cons setting order ih =>
    rw [List.foldl_cons, ← ih]
    unfold writes
    rw [List.foldlM_cons, h setting]
    rfl

variable (failure) in
/-- Otherwise the first setting without a value decides. -/
theorem writes_eq_error {order : List Setting} {setting : Setting} (hmem : setting ∈ order)
    (h : a.fault? setting ≠ none) (draft : Draft) :
    ∃ first e, a.fault? first = some e ∧ a.writes failure order draft = .error (failure first e) := by
  induction order generalizing draft with
  | nil => cases hmem
  | cons s order ih =>
    unfold writes at ih ⊢
    rw [List.foldlM_cons]
    cases hs : a.fault? s with
    | some e => exact ⟨s, e, hs, rfl⟩
    | none =>
      have hlater : setting ∈ order := by
        rcases List.mem_cons.mp hmem with rfl | hmem
        · exact absurd hs h
        · exact hmem
      exact ih hlater (a.apply draft s)

/-! ## Environment variables -/

/-- The failure of reading variables that a text causes which is no value. -/
def envFailure (setting : Setting) (e : SpanError) : LoadFailure :=
  .ofReason setting (((a setting).map setting.rawText).getD "") (.span e)

/-- A text is read as the value that is given. -/
theorem read_rawText (setting : Setting) (raw : setting.Raw) :
    setting.read (setting.rawText raw) = (setting.rawEdit raw).mapError .span := by
  have hspan (make : Duration → Draft.Edit) (text : String) :
      ((Duration.ofSpans (Text.trim text)).mapError SettingError.span).map make =
        ((Duration.ofSpans (Text.trim text)).map make).mapError .span := by
    cases Duration.ofSpans (Text.trim text) <;> rfl
  have hcount (make : UInt32 → Draft.Edit) (n : UInt32) :
      ((Numeric.ofNumeral (Text.trim (toString n.toNat))).mapError SettingError.count).map make =
        .ok (make n) := by
    rw [Numeric.trim_toString, Numeric.ofNumeral_toString]
    rfl
  cases setting with
  | timeout => exact hspan .timeout raw
  | dialTimeout => exact hspan .dialTimeout raw
  | retryDelay => exact hspan .retryDelay raw
  | openDuration => exact hspan .openDuration raw
  | maxRetries => exact hcount .maxRetries raw
  | failureThreshold => exact hcount .failureThreshold raw
  | halfOpenTrials => exact hcount .halfOpenTrials raw
  | name => rfl

/-- A variable is written, or the loading fails with its fault. -/
theorem readVariable_eq {lookup : String → Option String} (h : a.Lists lookup) (draft : Draft)
    (setting : Setting) : draft.readVariable lookup setting =
      (a.fault? setting).elim (.ok (a.apply draft setting)) fun e =>
        .error (a.envFailure setting e) := by
  unfold Draft.readVariable fault? apply envFailure
  rw [h setting]
  cases a setting with
  | none => rfl
  | some raw =>
    dsimp only [Option.map_some, Option.bind_some, Option.elim_some]
    rw [read_rawText]
    cases setting.rawEdit raw <;> rfl

/-- Variables are read one after another, and then the settings are checked. -/
theorem fromEnvironment_eq {lookup : String → Option String} (h : a.Lists lookup) :
    Config.fromEnvironment lookup =
      a.writes a.envFailure Setting.all {} >>= fun draft => draft.build.mapError .refused := by
  unfold Config.fromEnvironment writes
  have hstep : Draft.readVariable lookup = fun draft setting =>
      (a.fault? setting).elim (.ok (a.apply draft setting)) fun e => .error (a.envFailure setting e) :=
    funext fun draft => funext fun setting => readVariable_eq h draft setting
  rw [hstep]

end Assignment

end GuardedHttp
