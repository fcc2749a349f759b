import GuardedHttp.Config.Environment
import Mathlib.Data.List.Basic

/-!
# Loading a configuration from variables

Variables are looked up one after another, and the first text that is no value for its setting ends the
loading. `Config.fromEnvironment_eq_of_faults` says so for any variables; what comes of the loading is then
read off the first fault alone.

Main statement: `loading_stops_iff`, loading a configuration stops the program exactly if the first fault is
a duration that misses the range in its last carry; any other fault is reported. `carry_stops_loading` shows
that there are such durations: the spans of one add up to `2 ^ 64` seconds, and the last of these seconds is
made of nanoseconds (`Duration.addParts_eq_carryOverflow_iff`).
-/

namespace GuardedHttp

namespace Setting

variable (lookup : String → Option String)

/-- The variable of a setting is set to a text that is no value for it, for a reason. -/
structure Fault where
  /-- The setting. -/
  setting : Setting
  /-- The text of its variable. -/
  text : String
  /-- Why that is no value. -/
  reason : SettingError
deriving DecidableEq

/-- The fault of a setting, if its variable is set to a text that is no value. -/
def fault? (setting : Setting) : Option Fault :=
  (lookup setting.envName).bind fun text =>
    match setting.read text with
    | .ok _ => none
    | .error reason => some ⟨setting, text, reason⟩

/-- The edit that the variable of a setting asks for, if it is set to a value. -/
def edit? (setting : Setting) : Option Draft.Edit :=
  (lookup setting.envName).bind fun text => (setting.read text).toOption

/-- What the fault of a variable makes of the loading. -/
def Fault.failure (fault : Fault) : LoadFailure := .ofReason fault.setting fault.text fault.reason

end Setting

variable {lookup : String → Option String}

/-- A variable that is set is written, or ends the loading. -/
theorem Draft.readVariable_eq_of_fault (draft : Draft) (setting : Setting) :
    draft.readVariable lookup setting =
      match setting.fault? lookup with
      | some fault => .error fault.failure
      | none => .ok (draft.editAll (setting.edit? lookup).toList) := by
  unfold readVariable Setting.fault? Setting.edit?
  cases lookup setting.envName with
  | none => rfl
  | some text =>
    dsimp only [Option.bind_some]
    cases setting.read text <;> rfl

/-- Variables are written in order, up to the first fault. -/
theorem Draft.foldlM_readVariable (order : List Setting) (draft : Draft) :
    order.foldlM (Draft.readVariable lookup) draft =
      match order.findSome? (Setting.fault? lookup) with
      | some fault => .error fault.failure
      | none => .ok (draft.editAll (order.filterMap (Setting.edit? lookup))) := by
  -- The draft is general, as the rest goes on from what the first variable has written.
  induction order generalizing draft with
  | nil => rfl
  | cons setting order ih =>
    rw [List.foldlM_cons, readVariable_eq_of_fault, List.findSome?_cons]
    cases setting.fault? lookup with
    | some fault => rfl
    | none =>
      show order.foldlM _ (draft.editAll (setting.edit? lookup).toList) = _
      rw [ih]
      cases he : setting.edit? lookup with
      | none => rw [List.filterMap_cons_none he]; rfl
      | some e => rw [List.filterMap_cons_some he]; rfl

/-- The first fault of the variables decides the loading; if there is none, all values are written and then
checked. -/
theorem Config.fromEnvironment_eq_of_faults (lookup : String → Option String) :
    Config.fromEnvironment lookup =
      match Setting.all.findSome? (Setting.fault? lookup) with
      | some fault => .error fault.failure
      | none =>
        (Draft.editAll {} (Setting.all.filterMap (Setting.edit? lookup))).build.mapError .refused := by
  unfold fromEnvironment
  rw [Draft.foldlM_readVariable]
  cases Setting.all.findSome? (Setting.fault? lookup) <;> rfl

/-- A fault is reported with its variable, its text and its reason, unless the reason stops the program. -/
theorem Setting.Fault.failure_case (fault : Setting.Fault) :
    (fault.reason = .span .carryOverflow ∧ fault.failure = .fatal .carryOverflow) ∨
      fault.reason ≠ .span .carryOverflow ∧
        fault.failure = .refused (.invalidVariable fault.setting fault.text fault.reason) := by
  obtain ⟨setting, text, reason⟩ := fault
  cases reason with
  | count e => exact .inr ⟨nofun, rfl⟩
  | span e =>
    cases e with
    | carryOverflow => exact .inl ⟨rfl, rfl⟩
    | empty | invalidCharacter | numberExpected | unitNeeded | unknownUnit | overflow =>
      exact .inr ⟨nofun, rfl⟩

/-- Loading stops the program exactly if the first fault of the variables is a duration whose last carry
does not fit. It ends with a configuration or with an error in any other case, and if there is a fault, the
error is that of the first one. -/
theorem loading_stops_iff (lookup : String → Option String) :
    ((∃ e, Config.fromEnvironment lookup = .error (.fatal e)) ↔
      ∃ fault, Setting.all.findSome? (Setting.fault? lookup) = some fault ∧
        fault.reason = .span .carryOverflow) ∧
    ∀ fault, Setting.all.findSome? (Setting.fault? lookup) = some fault →
      fault.reason ≠ .span .carryOverflow →
        Config.fromEnvironment lookup =
          .error (.refused (.invalidVariable fault.setting fault.text fault.reason)) := by
  rw [Config.fromEnvironment_eq_of_faults]
  cases Setting.all.findSome? (Setting.fault? lookup) with
  | none =>
    -- All values have been read, and the checks on them refuse without stopping the program.
    refine ⟨⟨fun ⟨e, h⟩ => ?_, fun ⟨_, h, _⟩ => nomatch h⟩, fun _ h => nomatch h⟩
    dsimp only at h
    cases hbuild : (Draft.editAll {} (Setting.all.filterMap (Setting.edit? lookup))).build with
    | ok config => rw [hbuild] at h; cases h
    | error refusal => rw [hbuild] at h; cases h
  | some fault =>
    dsimp only
    rcases fault.failure_case with ⟨hreason, hfailure⟩ | ⟨hreason, hfailure⟩ <;> rw [hfailure]
    · refine ⟨⟨fun _ => ⟨fault, rfl, hreason⟩, fun _ => ⟨_, rfl⟩⟩, fun other h hother => ?_⟩
      cases h
      exact absurd hreason hother
    · refine ⟨⟨fun ⟨e, h⟩ => (nomatch h), fun ⟨other, h, hother⟩ => ?_⟩, fun other h _ => ?_⟩
      · cases h
        exact absurd hother hreason
      · cases h
        rfl

/-! ## The last carry -/

section

variable {α β : Type} (k : α → Except SpanError β)

/-- A computation goes on with a value. -/
theorem SpanError.ok_bind (a : α) : (Except.ok a >>= k) = k a := rfl

/-- A computation ends with its first error. -/
theorem SpanError.error_bind (e : SpanError) : (Except.error e >>= k) = .error e := rfl

end

/-- A number is a word if it fits, and too large otherwise. -/
theorem Duration.word_case (n : Nat) :
    (n < UInt64.size ∧ word n = .ok n) ∨ UInt64.size ≤ n ∧ word n = .error .overflow := by
  unfold word
  split
  · rename_i h
    exact .inl ⟨h, rfl⟩
  · rename_i h
    exact .inr ⟨Nat.le_of_not_lt h, rfl⟩

/-- The seconds and nanoseconds of a sum make a duration, unless they are `2 ^ 64` seconds and more. -/
theorem Duration.ofNanos?_eq_none_iff {n : Nat} : ofNanos? n = none ↔ limit ≤ n := by
  unfold ofNanos?
  rw [dite_eq_right_iff]
  constructor
  · intro hnone
    exact Nat.le_of_not_lt fun hlt => Option.some_ne_none _ (hnone hlt)
  · intro hle hlt
    exact absurd hlt (Nat.not_lt_of_le hle)

/-- Seconds that fit and a second of nanoseconds are too long only together, at their greatest. -/
theorem Duration.limit_le_iff {whole part : Nat} (hwhole : whole < UInt64.size)
    (hpart : part ≤ nanosPerSecond) : limit ≤ whole * nanosPerSecond + part ↔
      whole = UInt64.size - 1 ∧ part = nanosPerSecond := by
  have hsize : UInt64.size = 18446744073709551616 := rfl
  simp only [limit, hsize, nanosPerSecond] at *
  omega

/-- The last step of a sum: seconds that have to fit, and at most one more second of nanoseconds. -/
theorem Duration.carry_iff {whole part : Nat} (hpart : part ≤ nanosPerSecond) :
    (word whole >>= fun whole => match ofNanos? (whole * nanosPerSecond + part) with
      | some sum => .ok sum
      | none => .error .carryOverflow) = (.error .carryOverflow : Except SpanError Duration) ↔
        whole = UInt64.size - 1 ∧ part = nanosPerSecond := by
  have hsize : UInt64.size = 18446744073709551616 := rfl
  rcases word_case whole with ⟨hwhole, e⟩ | ⟨hwhole, e⟩
  · rw [e, SpanError.ok_bind, ← limit_le_iff hwhole hpart, ← ofNanos?_eq_none_iff]
    cases ofNanos? (whole * nanosPerSecond + part) with
    | none => exact ⟨fun _ => rfl, fun _ => rfl⟩
    | some sum => exact ⟨nofun, nofun⟩
  · rw [e, SpanError.error_bind]
    exact ⟨nofun, fun h => by omega⟩

/-- Adding a span stops the program exactly if the seconds come to the greatest word and the nanoseconds
to one more second, so that the sum is `2 ^ 64` seconds. -/
theorem Duration.addParts_eq_carryOverflow_iff {total : Duration} {seconds nanos : Nat} :
    total.addParts seconds nanos = .error .carryOverflow ↔
      total.seconds + seconds = UInt64.size - 1 ∧ total.subsecond + nanos = nanosPerSecond := by
  have hsize : UInt64.size = 18446744073709551616 := rfl
  have hsecond : nanosPerSecond = 1000000000 := rfl
  unfold addParts
  rcases word_case (total.subsecond + nanos) with ⟨hsub, e⟩ | ⟨hsub, e⟩
  · rw [e, SpanError.ok_bind]
    by_cases hcarry : nanosPerSecond < total.subsecond + nanos
    -- More than a second is carried before the seconds are added, and less than a second is left.
    · rw [if_pos hcarry]
      have hless : (total.subsecond + nanos) % nanosPerSecond < nanosPerSecond :=
        Nat.mod_lt _ (by decide)
      rcases word_case (seconds + (total.subsecond + nanos) / nanosPerSecond) with ⟨-, e⟩ | ⟨-, e⟩ <;>
        rw [e]
      · rw [SpanError.ok_bind]
        exact (carry_iff (Nat.le_of_lt hless)).trans
          ⟨fun h => absurd h.2 (Nat.ne_of_lt hless), fun h => absurd h.2 (Nat.ne_of_gt hcarry)⟩
      · rw [SpanError.error_bind]
        exact ⟨nofun, fun h => absurd h.2 (Nat.ne_of_gt hcarry)⟩
    · rw [if_neg hcarry]
      exact carry_iff (Nat.le_of_not_lt hcarry)
  · rw [e, SpanError.error_bind]
    exact ⟨nofun, fun h => by omega⟩

/-- Nearly `2 ^ 64` seconds, and then another one in nanoseconds. -/
def brimming (name : String) : Option String :=
  if name = "HTTP_TIMEOUT" then some "18446744073709551615s 1000000000ns" else none

/-- Some variables lead neither to a configuration nor to an error. -/
theorem carry_stops_loading : ¬ ∀ lookup, (∃ config, Config.fromEnvironment lookup = .ok config) ∨
    ∃ e, Config.fromEnvironment lookup = .error (.refused e) := by
  intro hends
  have hstops : Config.fromEnvironment brimming = .error (.fatal .carryOverflow) := by decide +kernel
  rcases hends brimming with ⟨config, h⟩ | ⟨e, h⟩ <;> rw [hstops] at h <;> cases h

end GuardedHttp
