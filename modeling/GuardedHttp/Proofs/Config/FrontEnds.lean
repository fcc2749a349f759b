import GuardedHttp.Config.Document
import GuardedHttp.Proofs.Config.Assignments
import GuardedHttp.Proofs.Json.Spelling

/-!
# Ways to a configuration

The same values can be given to a client as environment variables, as the members of a JSON object in any
order, as the elements of a JSON array, and by setters in any order. `front_ends_agree` says that all of
these come to the same configuration or fail together, whatever the values are and however the document is
spelled, and that the failures say the same.
-/

namespace GuardedHttp

open Json (Blanks Row SpellsText SpellsNatural SpellsMember SpellsBytes EndsNumber Starts byte blanks_nil)
open Text (Bytes)

/-! ## Documents -/

/-- How what is given for a setting is spelled in a document. -/
def Setting.Spells : (setting : Setting) → setting.Raw → Bytes → Prop
  | maxRetries, n | failureThreshold, n | halfOpenTrials, n => SpellsNatural (UInt32.toNat n)
  | timeout, text | dialTimeout, text | retryDelay, text | openDuration, text | name, text =>
    SpellsText text

namespace Assignment

variable (a : Assignment)

/-- How the value of a setting that is given is spelled in a document. -/
def Spelled (setting : Setting) (text : Bytes) : Prop :=
  ∃ raw, a setting = some raw ∧ setting.Spells raw text

/-- A document with an object that has the settings in an order as its members. -/
inductive ObjectOf (order : List Setting) : Bytes → Prop
  | mk {before row after : Bytes} (hbefore : Blanks before) (hafter : Blanks after)
      (hrow : Row (byte '\x7d') (fun setting => SpellsMember setting.key (a.Spelled setting)) true
        order row) :
      ObjectOf order (before ++ byte '\x7b' :: (row ++ after))

/-- A document with an array that has the values of the settings in an order as its elements. -/
inductive ArrayOf (order : List Setting) : Bytes → Prop
  | mk {before row after : Bytes} (hbefore : Blanks before) (hafter : Blanks after)
      (hrow : Row (byte ']') a.Spelled true order row) : ArrayOf order (before ++ byte '[' :: (row ++ after))

/-- The failure of reading a document that a text causes which is no value. -/
def documentFailure (_ : Setting) (e : SpanError) : Json.Fault :=
  if e.fatal then .fatal e.message else .mismatch (.refused e.message)

variable {a}

/-! ## Spellings -/

/-- What is given can be spelled. -/
theorem exists_spelled {setting : Setting} (h : (a setting).isSome) : ∃ text, a.Spelled setting text := by
  obtain ⟨raw, hraw⟩ := Option.isSome_iff_exists.mp h
  have hspells : ∃ text, setting.Spells raw text := by
    cases setting with
    | timeout | dialTimeout | retryDelay | openDuration | name =>
      exact ⟨_, Json.spellsText_writeString (show String from raw)⟩
    | maxRetries | failureThreshold | halfOpenTrials => exact ⟨_, .numeral⟩
  obtain ⟨text, htext⟩ := hspells
  exact ⟨text, raw, hraw, htext⟩

/-- What is given in some order can be spelled as an object and as an array. -/
theorem exists_document {order : List Setting} (h : a.Orders order) :
    (∃ document, a.ObjectOf order document) ∧ ∃ document, a.ArrayOf order document := by
  have hspelled : ∀ setting ∈ order, ∃ text, a.Spelled setting text := fun setting hmem =>
    exists_spelled ((h.mem setting).mp hmem)
  have hmember : ∀ setting ∈ order, ∃ text, SpellsMember setting.key (a.Spelled setting) text := by
    intro setting hmem
    obtain ⟨text, htext⟩ := hspelled setting hmem
    exact ⟨_, .mk (Json.spellsText_writeString setting.key) blanks_nil blanks_nil htext⟩
  obtain ⟨members, hmembers⟩ := Json.exists_row hmember true
  obtain ⟨elements, helements⟩ := Json.exists_row hspelled true
  exact ⟨⟨_, .mk blanks_nil blanks_nil hmembers⟩, _, .mk blanks_nil blanks_nil helements⟩

/-! ## Values -/

/-- A value is read from any of its spellings. -/
theorem readValue_spells {setting : Setting} {raw : setting.Raw} {text before rest : Bytes}
    (h : setting.Spells raw text) (hbefore : Blanks before) (hrest : EndsNumber rest) :
    setting.readValue (before ++ (text ++ rest)) =
      ((setting.rawEdit raw).mapError (documentFailure setting)).map (·, rest) := by
  -- A setting is a span or a count, apart from the name.
  have hspan (make : Duration → Draft.Edit) (hmake : setting.durationEdit? = some make) (s : String)
      (h : SpellsText s text) : setting.readValue (before ++ (text ++ rest)) =
        (((Duration.ofSpans (Text.trim s)).map make).mapError (documentFailure setting)).map (·, rest) := by
    unfold Setting.readValue
    rw [hmake, Json.expectText_of_spells h hbefore]
    dsimp only [bind, Except.bind]
    cases Duration.ofSpans (Text.trim s) <;> rfl
  have hcount (make : UInt32 → Draft.Edit) (hnone : setting.durationEdit? = none)
      (hmake : setting.countEdit? = some make) (n : UInt32) (h : SpellsNatural n.toNat text) :
      setting.readValue (before ++ (text ++ rest)) = .ok (make n, rest) := by
    have hword : n.toNat < UInt64.size := Nat.lt_trans n.toNat_lt_size (by decide)
    unfold Setting.readValue
    rw [hnone, hmake, Json.expectNatural_of_spells n.toNat_lt_size hword "u32" h hbefore hrest]
    dsimp only [bind, Except.bind]
    rw [UInt32.ofNat_toNat]
    rfl
  cases setting with
  | timeout => exact hspan .timeout rfl raw h
  | dialTimeout => exact hspan .dialTimeout rfl raw h
  | retryDelay => exact hspan .retryDelay rfl raw h
  | openDuration => exact hspan .openDuration rfl raw h
  | maxRetries => exact hcount .maxRetries rfl rfl raw h
  | failureThreshold => exact hcount .failureThreshold rfl rfl raw h
  | halfOpenTrials => exact hcount .halfOpenTrials rfl rfl raw h
  | name =>
    have htext : SpellsText raw text := h
    unfold Setting.readValue
    dsimp only [Setting.durationEdit?, Setting.countEdit?]
    rw [Json.expectText_of_spells htext hbefore]
    rfl

/-- The value of a setting that is given is read and written, or the reading ends there. -/
theorem readValue_spelled {setting : Setting} {text before rest : Bytes} (h : a.Spelled setting text)
    (hbefore : Blanks before) (hrest : EndsNumber rest) {β : Type}
    (next : Draft → Bytes → Except Json.Fault β) (draft : Draft) :
    (setting.readValue (before ++ (text ++ rest)) >>= fun r => next (draft.edit r.1) r.2) =
      (a.fault? setting).elim (next (a.apply draft setting) rest) fun e =>
        .error (documentFailure setting e) := by
  obtain ⟨raw, hraw, hspells⟩ := h
  rw [readValue_spells hspells hbefore hrest]
  unfold fault? apply
  rw [hraw]
  dsimp only [Option.bind_some, Option.elim_some]
  cases setting.rawEdit raw <;> rfl

/-- Every spelling of a value begins with something other than a bracket. -/
theorem starts_of_spelled {setting : Setting} {text : Bytes} (h : a.Spelled setting text) :
    Starts (byte ']') text := by
  obtain ⟨raw, -, hspells⟩ := h
  have htext (s : String) (h : SpellsText s text) : Starts (byte ']') text := by
    obtain ⟨h⟩ := h
    exact ⟨_, _, rfl, by decide, by decide⟩
  have hnatural (n : Nat) (h : SpellsNatural n text) : Starts (byte ']') text := by
    obtain ⟨⟩ := h
    obtain ⟨b, bytes, hdigits, hb⟩ := Json.exists_digit_cons n
    exact ⟨b, bytes, (Json.utf8_numeral n).trans hdigits, Json.isBlank_of_isDigit hb,
      Json.ne_of_isDigit hb (by decide)⟩
  cases setting with
  | timeout | dialTimeout | retryDelay | openDuration | name => exact htext raw hspells
  | maxRetries | failureThreshold | halfOpenTrials => exact hnatural (UInt32.toNat raw) hspells

/-! ## Arrays -/

/-- Elements are read one after another, up to the first text that is no value. -/
theorem readElements_row {first : Bool} {order : List Setting} {bytes : Bytes}
    (h : Row (byte ']') a.Spelled first order bytes) (more : List Setting) (draft : Draft) (rest : Bytes) :
    (Draft.readElements (order ++ more) first draft (bytes ++ rest) >>= fun r =>
        (Json.endArray r.2).map (r.1, ·)) =
      (a.writes documentFailure order draft).map (·, rest) := by
  induction order generalizing first bytes draft with
  | nil =>
    obtain ⟨hnone, hend⟩ := Json.nextElement_closed h rest
    -- The array may end before all settings are given.
    have hread : Draft.readElements more first draft (bytes ++ rest) = .ok (draft, bytes ++ rest) := by
      cases more with
      | nil => rfl
      | cons setting more =>
        unfold Draft.readElements
        rw [hnone]
        rfl
    rw [List.nil_append, hread]
    show (Json.endArray (bytes ++ rest)).map (draft, ·) = _
    rw [hend]
    rfl
  | cons setting order ih =>
    obtain ⟨text, after, htext, hafter, hnext⟩ :=
      Json.nextElement_row h (fun text htext => starts_of_spelled htext) rest
    -- What follows an element is a comma or the bracket, so that a number ends there.
    have hends : EndsNumber (after ++ rest) :=
      hafter.endsNumber (fun b hb => by cases hb; decide) rest
    have hvalue := readValue_spelled htext blanks_nil hends (Draft.readElements (order ++ more) false) draft
    rw [List.cons_append]
    unfold Draft.readElements writes
    rw [hnext, List.foldlM_cons]
    show ((setting.readValue (text ++ (after ++ rest)) >>= fun r =>
      Draft.readElements (order ++ more) false (draft.edit r.1) r.2) >>= fun r =>
        (Json.endArray r.2).map (r.1, ·)) = _
    rw [← List.nil_append (text ++ (after ++ rest)), hvalue]
    cases a.fault? setting with
    | some e => rfl
    | none => exact ih hafter (a.apply draft setting)

/-! ## Objects -/

/-- A setting is found by its own key. -/
theorem ofKey?_key (setting : Setting) : Setting.ofKey? setting.key = some setting := by
  cases setting <;> decide

/-- A member of a setting that has not been given before is read and written, or the reading ends
there. -/
theorem readMember_spelled {setting : Setting} {given : List Setting} {before between text rest : Bytes}
    (hnot : setting ∉ given) (h : a.Spelled setting text) (hbefore : Blanks before)
    (hbetween : Blanks between) (hrest : EndsNumber rest) {β : Type}
    (next : Draft.Progress → Bytes → Except Json.Fault β) (draft : Draft) :
    (Draft.readMember ⟨draft, given⟩ setting.key
        (before ++ byte ':' :: (between ++ (text ++ rest))) >>= fun r => next r.1 r.2) =
      (a.fault? setting).elim (next ⟨a.apply draft setting, setting :: given⟩ rest) fun e =>
        .error (documentFailure setting e) := by
  have hvalue := readValue_spelled h hbetween hrest (fun draft => next ⟨draft, setting :: given⟩) draft
  rw [← hvalue]
  unfold Draft.readMember
  rw [ofKey?_key]
  dsimp only
  rw [if_neg hnot, Json.colon_append hbefore]
  show (setting.readValue (between ++ (text ++ rest)) >>= fun r => .ok (_, r.2)) >>= _ = _
  cases setting.readValue (between ++ (text ++ rest)) <;> rfl

/-- Members are read one after another, up to the first text that is no value. -/
theorem foldMembers_row {first : Bool} {order given : List Setting} {bytes : Bytes} {fuel : Nat}
    (h : Row (byte '\x7d') (fun setting => SpellsMember setting.key (a.Spelled setting)) first order bytes)
    (hnodup : order.Nodup) (hnew : ∀ setting ∈ order, setting ∉ given) (hfuel : order.length < fuel)
    (draft : Draft) (rest : Bytes) :
    (Json.foldMembers .keeping Draft.readMember fuel first ⟨draft, given⟩ (bytes ++ rest) >>= fun r =>
        (Json.endObject r.2).map (r.1.draft, ·)) =
      (a.writes documentFailure order draft).map (·, rest) := by
  -- By induction on the settings, with what has been read so far growing.
  induction order generalizing first given bytes fuel draft with
  | nil =>
    obtain ⟨fuel, rfl⟩ := Nat.exists_eq_succ_of_ne_zero (Nat.ne_zero_of_lt hfuel)
    obtain ⟨hnone, hend⟩ := Json.nextKey_closed h rest
    unfold Json.foldMembers
    rw [hnone]
    show (Json.endObject (bytes ++ rest)).map (draft, ·) = _
    rw [hend]
    rfl
  | cons setting order ih =>
    obtain ⟨fuel, rfl⟩ := Nat.exists_eq_succ_of_ne_zero (Nat.ne_zero_of_lt hfuel)
    obtain ⟨spelled, before, between, text, after, hkey, hbefore, hbetween, htext, hafter, hnext⟩ :=
      Json.nextKey_row h rest
    obtain ⟨hfresh, hnodup⟩ := List.nodup_cons.mp hnodup
    have hends : EndsNumber (after ++ rest) :=
      hafter.endsNumber (fun b hb => by cases hb; decide) rest
    have hlater : ∀ s ∈ order, s ∉ setting :: given := by
      intro s hs hmem
      rcases List.mem_cons.mp hmem with rfl | hmem
      · exact hfresh hs
      · exact hnew s (List.mem_cons_of_mem _ hs) hmem
    have hmember := readMember_spelled (hnew setting List.mem_cons_self) htext hbefore hbetween hends
      (Json.foldMembers .keeping Draft.readMember fuel false) draft
    -- The key is read off, then its value, then the rest.
    unfold Json.foldMembers writes
    rw [hnext, List.foldlM_cons]
    show ((Json.text .keeping
      (spelled ++ byte '"' :: (before ++ byte ':' :: (between ++ (text ++ (after ++ rest))))) >>= fun r =>
        Draft.readMember ⟨draft, given⟩ r.1 r.2 >>= fun r =>
          Json.foldMembers .keeping Draft.readMember fuel false r.1 r.2) >>= fun r =>
            (Json.endObject r.2).map (r.1.draft, ·)) = _
    rw [Json.text_of_spells hkey]
    show ((Draft.readMember ⟨draft, given⟩ setting.key
      (before ++ byte ':' :: (between ++ (text ++ (after ++ rest)))) >>= fun r =>
        Json.foldMembers .keeping Draft.readMember fuel false r.1 r.2) >>= fun r =>
          (Json.endObject r.2).map (r.1.draft, ·)) = _
    rw [hmember]
    cases a.fault? setting with
    | some e => rfl
    | none => exact ih hafter hnodup hlater (Nat.lt_of_succ_lt_succ hfuel) (a.apply draft setting)

/-! ## Whole documents -/

/-- Behind the settings of a document there is nothing but blanks, and the settings are checked. -/
theorem ofDocument_of_read {order : List Setting} {document after : Bytes} (hafter : Blanks after)
    (h : Draft.read document = (a.writes documentFailure order {}).map (·, after)) :
    Config.ofDocument document = a.writes documentFailure order {} >>= fun draft =>
      draft.build.mapError fun e => .mismatch (.refused e.message) := by
  have hend : Json.skipBlanks after = [] := by
    rw [← List.append_nil after, Json.skipBlanks_append hafter]
    rfl
  unfold Config.ofDocument Json.readAll Config.read
  rw [h]
  cases a.writes documentFailure order {} with
  | error e => rfl
  | ok draft =>
    dsimp only [Except.map, bind, Except.bind]
    cases draft.build with
    | error e => rfl
    | ok config =>
      dsimp only [pure, Except.pure]
      rw [hend]
      rfl

/-- An object is read in the order of its members. -/
theorem ofDocument_object {order : List Setting} {document : Bytes} (h : a.ObjectOf order document)
    (hnodup : order.Nodup) :
    Config.ofDocument document = a.writes documentFailure order {} >>= fun draft =>
      draft.build.mapError fun e => .mismatch (.refused e.message) := by
  obtain @⟨before, row, after, hbefore, hafter, hrow⟩ := h
  -- Each member takes at least one byte, so that the fuel lasts.
  have hfuel : order.length < (row ++ after).length + 1 := by
    have hlength := hrow.length_le.1
    rw [List.length_append]
    omega
  have hmembers := foldMembers_row hrow hnodup (fun _ _ => List.not_mem_nil) hfuel {} after
  have hfound : Json.found (before ++ byte '\x7b' :: (row ++ after)) = .ok (.object, row ++ after) := by
    unfold Json.found
    rw [Json.skipBlanks_append_cons hbefore (by decide)]
    rfl
  refine ofDocument_of_read hafter ?_
  rw [← hmembers]
  unfold Draft.read Json.object
  rw [hfound]
  show (Json.foldMembers .keeping Draft.readMember ((row ++ after).length + 1) true ⟨{}, []⟩ (row ++ after)
    >>= _) >>= _ = _
  cases Json.foldMembers .keeping Draft.readMember ((row ++ after).length + 1) true ⟨{}, []⟩
    (row ++ after) with
  | error e => rfl
  | ok r =>
    show (Json.endObject r.2 >>= _) >>= _ = (Json.endObject r.2).map _
    cases Json.endObject r.2 <;> rfl

/-- An array is read in the order of its elements, which is that of the settings. -/
theorem ofDocument_array {order : List Setting} {document : Bytes} (h : a.ArrayOf order document)
    (hfront : order <+: Setting.all) :
    Config.ofDocument document = a.writes documentFailure order {} >>= fun draft =>
      draft.build.mapError fun e => .mismatch (.refused e.message) := by
  obtain @⟨before, row, after, hbefore, hafter, hrow⟩ := h
  obtain ⟨more, hmore⟩ := hfront
  have helements := readElements_row hrow more {} after
  rw [hmore] at helements
  have hfound : Json.found (before ++ byte '[' :: (row ++ after)) = .ok (.array, row ++ after) := by
    unfold Json.found
    rw [Json.skipBlanks_append_cons hbefore (by decide)]
    rfl
  refine ofDocument_of_read hafter ?_
  rw [← helements]
  unfold Draft.read
  rw [hfound]
  show Draft.readElements Setting.all true {} (row ++ after) >>= _ = _
  cases Draft.readElements Setting.all true {} (row ++ after) with
  | error e => rfl
  | ok r =>
    show Json.endArray r.2 >>= _ = (Json.endArray r.2).map _
    cases Json.endArray r.2 <;> rfl

/-! ## Agreement -/

variable (a) in
/-- Variables and a document that hold the same values come to the same. -/
structure Agrees (env : Except LoadFailure Config) (document : Except Json.Fault Config) : Prop where
  /-- They give the same configuration, or none. -/
  outcome : document.toOption = env.toOption
  /-- If a single text is no duration, and does not stop the program, both give the same reason. -/
  reason : ∀ setting e, a.fault? setting = some e → e.fatal = false →
    (∀ other, other ≠ setting → a.fault? other = none) → ∃ text reason mismatch,
      env = .error (.refused (.invalidVariable setting text reason)) ∧
        document = .error (.mismatch mismatch) ∧ mismatch.message = reason.message
  /-- If all texts are durations and the settings are refused, both give the same reason. -/
  refusal : (∀ setting, a.fault? setting = none) → ∀ e, env = .error (.refused e) →
    ∃ mismatch, document = .error (.mismatch mismatch) ∧ mismatch.message = e.message

/-- A setting without a value is one for which something is given. -/
theorem mem_of_fault? {order : List Setting} (h : a.Orders order) {setting : Setting}
    (hfault : a.fault? setting ≠ none) : setting ∈ order := by
  rw [h.mem]
  cases hraw : a setting with
  | none =>
    unfold fault? at hfault
    rw [hraw] at hfault
    exact absurd rfl hfault
  | some raw => rfl

/-- Settings that are written in any order and then checked agree with environment variables. -/
theorem agrees_of_writes {lookup : String → Option String} (hlookup : a.Lists lookup) {order : List Setting}
    (horder : a.Orders order) {document : Bytes}
    (h : Config.ofDocument document = a.writes documentFailure order {} >>= fun draft =>
      draft.build.mapError fun e => .mismatch (.refused e.message)) :
    a.Agrees (Config.fromEnvironment lookup) (Config.ofDocument document) := by
  rw [h, fromEnvironment_eq hlookup]
  -- If everything is a value, the same draft is checked on both sides.
  have hall (hnone : ∀ setting, a.fault? setting = none) :
      a.writes documentFailure order {} = .ok (Setting.all.foldl a.apply {}) ∧
        a.writes a.envFailure Setting.all {} = .ok (Setting.all.foldl a.apply {}) := by
    rw [writes_eq_ok hnone, writes_eq_ok hnone, foldl_apply_eq horder]
    exact ⟨rfl, rfl⟩
  refine ⟨?_, fun setting e hfault hfatal hothers => ?_, fun hnone e he => ?_⟩
  · by_cases hnone : ∀ setting, a.fault? setting = none
    · obtain ⟨hdocument, henv⟩ := hall hnone
      rw [hdocument, henv]
      show ((Setting.all.foldl a.apply {}).build.mapError _).toOption =
        ((Setting.all.foldl a.apply {}).build.mapError _).toOption
      cases (Setting.all.foldl a.apply {}).build <;> rfl
    · obtain ⟨setting, hfault⟩ := not_forall.mp hnone
      obtain ⟨_, _, -, hdocument⟩ := writes_eq_error documentFailure
        (mem_of_fault? horder hfault) hfault {}
      obtain ⟨_, _, -, henv⟩ := writes_eq_error a.envFailure setting.mem_all hfault {}
      rw [hdocument, henv]
      rfl
  · have hne : a.fault? setting ≠ none := by
      rw [hfault]
      exact Option.some_ne_none e
    have honly {first : Setting} {f : SpanError} (hfirst : a.fault? first = some f) :
        first = setting ∧ f = e := by
      have hsame : first = setting := by
        by_contra hother
        rw [hothers first hother] at hfirst
        cases hfirst
      subst hsame
      exact ⟨rfl, Option.some.inj (hfirst.symm.trans hfault)⟩
    obtain ⟨s, f, hs, hdocument⟩ := writes_eq_error documentFailure
      (mem_of_fault? horder hne) hne {}
    obtain ⟨s', f', hs', henv⟩ := writes_eq_error a.envFailure setting.mem_all hne {}
    obtain ⟨rfl, rfl⟩ := honly hs
    obtain ⟨rfl, rfl⟩ := honly hs'
    refine ⟨((a s').map s'.rawText).getD "", .span f', .refused f'.message, ?_, ?_, rfl⟩
    · rw [henv]
      unfold envFailure LoadFailure.ofReason
      dsimp only
      rw [hfatal]
      rfl
    · rw [hdocument]
      unfold documentFailure
      rw [hfatal]
      rfl
  · obtain ⟨hdocument, henv⟩ := hall hnone
    rw [henv] at he
    rw [hdocument]
    replace he : (Setting.all.foldl a.apply {}).build.mapError LoadFailure.refused = .error (.refused e) := he
    show ∃ mismatch, (Setting.all.foldl a.apply {}).build.mapError _ = _ ∧ _
    cases hbuild : (Setting.all.foldl a.apply {}).build with
    | ok config => rw [hbuild] at he; cases he
    | error refusal =>
      rw [hbuild] at he
      cases he
      exact ⟨.refused e.message, rfl, rfl⟩

/-- Setters write what is given, each its own setting. -/
theorem editAll_eq {order : List Setting} {edits : List Draft.Edit}
    (h : List.Forall₂ (fun setting edit => ∃ raw, a setting = some raw ∧ setting.rawEdit raw = .ok edit)
      order edits) (draft : Draft) :
    draft.editAll edits = order.foldl a.apply draft ∧ ∀ setting ∈ order, a.fault? setting = none := by
  induction h generalizing draft with
  | nil => exact ⟨rfl, fun _ hmem => absurd hmem List.not_mem_nil⟩
  | @cons setting edit order edits hfirst hrest ih =>
    obtain ⟨raw, hraw, hedit⟩ := hfirst
    have happly : a.apply draft setting = draft.edit edit := by
      unfold apply
      rw [hraw]
      dsimp only [Option.elim_some]
      rw [hedit]
    obtain ⟨hall, hnone⟩ := ih (draft.edit edit)
    refine ⟨?_, fun other hmem => ?_⟩
    · rw [List.foldl_cons, happly, ← hall]
      rfl
    · rcases List.mem_cons.mp hmem with rfl | hmem
      · unfold fault?
        rw [hraw]
        dsimp only [Option.bind_some]
        rw [hedit]
      · exact hnone other hmem

/-! ## Two minutes for six attempts -/

/-- The variables that hold what is given, and no others. -/
def environment (a : Assignment) (name : String) : Option String :=
  (Setting.all.find? (·.envName == name)).bind fun setting => (a setting).map setting.rawText

/-- The environment of an assignment holds what is given, under the names of the settings. -/
theorem lists_environment (a : Assignment) : a.Lists a.environment := by
  intro setting
  have hfind : Setting.all.find? (·.envName == setting.envName) = some setting := by
    cases setting <;> decide
  unfold environment
  rw [hfind]
  rfl

/-- Two minutes for up to six attempts. -/
def patient : Assignment
  | .timeout => some "2m"
  | .maxRetries => some (5 : UInt32)
  | _ => none

/-- An object with the same, the retries first and a digit of the timeout escaped. -/
def patientObject : Bytes := Text.utf8 "\x7b\"max_retries\": 5, \"timeout\": \"\\u0032m\"\x7d"

/-- The patient assignment gives the retries and the timeout, and nothing else. -/
theorem orders_patient : patient.Orders [.maxRetries, .timeout] where
  nodup := by decide
  mem setting := by cases setting <;> decide

/-- The object is one of the spellings of the patient assignment. -/
theorem objectOf_patient : patient.ObjectOf [.maxRetries, .timeout] patientObject := by
  have hspace : Blanks [byte ' '] := by
    intro b hb
    cases List.mem_singleton.mp hb
    decide
  have hminutes : SpellsText "2m" (byte '"' ::
      ([byte '\\', byte 'u', byte '0', byte '0', byte '3', byte '2', byte 'm'] ++ [byte '"'])) := by
    have hdigit : Json.hexUnit? (byte '0') (byte '0') (byte '3') (byte '2') = some 0x32 := rfl
    have hletter : SpellsBytes [byte 'm'] [byte 'm'] :=
      .plain (by decide) (by decide) (by decide) .done
    refine .quoted ?_
    rw [Text.utf8_eq]
    exact .unit hdigit rfl rfl hletter
  have hretries : SpellsMember "max_retries" (patient.Spelled .maxRetries) _ :=
    .mk (Json.spellsText_writeString "max_retries") blanks_nil hspace ⟨(5 : UInt32), rfl, .numeral⟩
  have htimeout : SpellsMember "timeout" (patient.Spelled .timeout) _ :=
    .mk (Json.spellsText_writeString "timeout") blanks_nil hspace ⟨"2m", rfl, hminutes⟩
  have hrow : Row (byte '\x7d') (fun setting => SpellsMember setting.key (patient.Spelled setting)) true
      [Setting.maxRetries, Setting.timeout] _ :=
    .first blanks_nil hretries (.next blanks_nil hspace htimeout (.closed blanks_nil))
  refine Eq.subst (motive := patient.ObjectOf [.maxRetries, .timeout]) ?_
    (ObjectOf.mk blanks_nil blanks_nil hrow)
  unfold patientObject
  simp only [Text.utf8_eq]
  decide +kernel

end Assignment

/-! ## The result -/

/-- The ways to a configuration agree. Given the same values, environment variables and a JSON document
come to the same, be it an object with the settings in any order or an array of the first settings, and
however it is spelled; and so do setters of the parsed values in any order. In each order what is given
can be spelled both as an object and as an array. -/
theorem front_ends_agree (a : Assignment) {lookup : String → Option String} (hlookup : a.Lists lookup) :
    (∀ order document, a.Orders order →
      a.ObjectOf order document ∨ order <+: Setting.all ∧ a.ArrayOf order document →
        a.Agrees (Config.fromEnvironment lookup) (Config.ofDocument document)) ∧
    (∀ order edits, a.Orders order →
      List.Forall₂ (fun setting edit => ∃ raw, a setting = some raw ∧ setting.rawEdit raw = .ok edit)
        order edits →
      Config.fromEnvironment lookup = (Draft.editAll {} edits).build.mapError .refused) ∧
    ∀ order, a.Orders order →
      (∃ document, a.ObjectOf order document) ∧ ∃ document, a.ArrayOf order document := by
  refine ⟨?_, ?_, fun order horder => Assignment.exists_document horder⟩
  · rintro order document horder (hobject | ⟨hfront, harray⟩)
    · exact Assignment.agrees_of_writes hlookup horder (Assignment.ofDocument_object hobject horder.nodup)
    · exact Assignment.agrees_of_writes hlookup horder (Assignment.ofDocument_array harray hfront)
  · intro order edits horder hedits
    obtain ⟨hall, hnone⟩ := Assignment.editAll_eq hedits {}
    have hvalues : ∀ setting, a.fault? setting = none := by
      intro setting
      by_contra hfault
      exact hfault (hnone setting (Assignment.mem_of_fault? horder hfault))
    rw [Assignment.fromEnvironment_eq hlookup, Assignment.writes_eq_ok hvalues, hall,
      Assignment.foldl_apply_eq horder]
    rfl

open Assignment in
/-- Six attempts within two minutes, from variables, from an object and from setters. -/
theorem front_ends_agree_patient :
    patient.Lists patient.environment ∧
      patient.Agrees (Config.fromEnvironment patient.environment) (Config.ofDocument patientObject) ∧
      Config.fromEnvironment patient.environment =
        (Draft.editAll {} [.maxRetries 5, .timeout (.ofSeconds 120)]).build.mapError .refused ∧
      (Config.fromEnvironment patient.environment).toOption.map (·.toDraft) =
        some { maxRetries := 5, timeout := .ofSeconds 120 } := by
  have hlists := lists_environment patient
  have hminutes : Duration.ofSpans (Text.trim "2m") = .ok (.ofSeconds 120) := by decide +kernel
  obtain ⟨hdocument, hsetters, -⟩ := front_ends_agree patient hlists
  refine ⟨hlists, hdocument _ _ orders_patient (.inl objectOf_patient), hsetters _ _ orders_patient ?_, ?_⟩
  · exact .cons ⟨(5 : UInt32), rfl, rfl⟩
      (.cons ⟨"2m", rfl, congrArg (Except.map Draft.Edit.timeout) hminutes⟩ .nil)
  · decide +kernel

end GuardedHttp
