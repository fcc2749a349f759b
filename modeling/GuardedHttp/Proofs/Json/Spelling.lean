import GuardedHttp.Json.Reader
import GuardedHttp.Json.Writer
import GuardedHttp.Proofs.Numeric.Numerals
import GuardedHttp.Proofs.Text.Utf8

/-!
# Spellings

A JSON document can be spelled in many ways: there may be blanks between its parts, and characters of a
text may be escaped. `SpellsText`, `SpellsNatural` and `Row` are the spellings of texts, of naturals and of
what stands between brackets or braces, and the readers read all of them: the front of what is spelled is
taken off, and whatever follows is left. Every text has a spelling, that of the writer
(`spellsText_writeString`).
-/

namespace GuardedHttp.Json

open Text (Bytes)

/-! ## Spellings -/

/-- Nothing but blanks. -/
def Blanks (bytes : Bytes) : Prop := ∀ b ∈ bytes, isBlank b = true

/-- What stands between the quotes of a text, and the bytes of the text. -/
inductive SpellsBytes : (spelled bytes : Bytes) → Prop
  /-- Nothing is left. -/
  | done : SpellsBytes [] []
  /-- A byte that stands for itself. -/
  | plain {b : UInt8} {spelled bytes : Bytes} (shows : ¬ b < 0x20) (quote : b ≠ byte '"')
      (slash : b ≠ byte '\\') (rest : SpellsBytes spelled bytes) : SpellsBytes (b :: spelled) (b :: bytes)
  /-- A short escape. -/
  | short {e c : UInt8} {spelled bytes : Bytes} (escape : shortEscape? e = some c)
      (rest : SpellsBytes spelled bytes) : SpellsBytes (byte '\\' :: e :: spelled) (c :: bytes)
  /-- A character escaped by its number. -/
  | unit {a b c d : UInt8} {unit : Nat} {spelled bytes : Bytes} (hex : hexUnit? a b c d = some unit)
      (low : isLowSurrogate unit = false) (high : isHighSurrogate unit = false)
      (rest : SpellsBytes spelled bytes) :
      SpellsBytes (byte '\\' :: byte 'u' :: a :: b :: c :: d :: spelled)
        (String.utf8EncodeChar (Char.ofNat unit) ++ bytes)
  /-- A character escaped as a pair. -/
  | pair {a b c d a' b' c' d' : UInt8} {high low : Nat} {spelled bytes : Bytes}
      (hex : hexUnit? a b c d = some high) (first : isHighSurrogate high = true)
      (hex' : hexUnit? a' b' c' d' = some low) (second : isLowSurrogate low = true)
      (rest : SpellsBytes spelled bytes) :
      SpellsBytes (byte '\\' :: byte 'u' :: a :: b :: c :: d :: byte '\\' :: byte 'u' :: a' :: b' :: c' ::
        d' :: spelled) (String.utf8EncodeChar (pairChar high low) ++ bytes)

/-- A text between its quotes. -/
inductive SpellsText (s : String) : Bytes → Prop
  | quoted {spelled : Bytes} (h : SpellsBytes spelled (Text.utf8 s)) :
      SpellsText s (byte '"' :: (spelled ++ [byte '"']))

/-- A natural is spelled by its numeral alone. -/
inductive SpellsNatural (n : Nat) : Bytes → Prop
  | numeral : SpellsNatural n (Text.utf8 (toString n))

/-- A member of an object. -/
inductive SpellsMember (key : String) (value : Bytes → Prop) : Bytes → Prop
  | mk {keyText before after valueText : Bytes} (hkey : SpellsText key keyText) (hbefore : Blanks before)
      (hafter : Blanks after) (hvalue : value valueText) :
      SpellsMember key value (keyText ++ (before ++ byte ':' :: (after ++ valueText)))

/-- What stands behind an opening bracket or brace, up to the closing one: items with commas between
them. -/
inductive Row {α : Type} (closing : UInt8) (item : α → Bytes → Prop) : (first : Bool) → List α → Bytes → Prop
  /-- There are no more items. -/
  | closed {first : Bool} {before : Bytes} (hbefore : Blanks before) :
      Row closing item first [] (before ++ [closing])
  /-- The first item. -/
  | first {x : α} {xs : List α} {before text after : Bytes} (hbefore : Blanks before) (hitem : item x text)
      (rest : Row closing item false xs after) : Row closing item true (x :: xs) (before ++ (text ++ after))
  /-- Another item. -/
  | next {x : α} {xs : List α} {before between text after : Bytes} (hbefore : Blanks before)
      (hbetween : Blanks between) (hitem : item x text) (rest : Row closing item false xs after) :
      Row closing item false (x :: xs) (before ++ byte ',' :: (between ++ (text ++ after)))

/-! ## Blanks -/

variable {before : Bytes}

/-- Where there is nothing, there is nothing but blanks. -/
theorem blanks_nil : Blanks [] := fun _ h => absurd h List.not_mem_nil

/-- Blanks are skipped. -/
theorem skipBlanks_append (h : Blanks before) (rest : Bytes) :
    skipBlanks (before ++ rest) = skipBlanks rest := by
  induction before with
  | nil => rfl
  | cons b before ih =>
    have hb : isBlank b = true := h b List.mem_cons_self
    have hrest := ih fun c hc => h c (List.mem_cons_of_mem _ hc)
    rw [List.cons_append, ← hrest]
    exact List.dropWhile_cons_of_pos hb

/-- What is no blank is not skipped. -/
theorem skipBlanks_cons {b : UInt8} (h : isBlank b = false) (rest : Bytes) :
    skipBlanks (b :: rest) = b :: rest := List.dropWhile_cons_of_neg (Bool.eq_false_iff.mp h)

/-- Blanks end where something else stands. -/
theorem skipBlanks_append_cons (h : Blanks before) {b : UInt8} (hb : isBlank b = false) (rest : Bytes) :
    skipBlanks (before ++ b :: rest) = b :: rest := by
  rw [skipBlanks_append h, skipBlanks_cons hb]

/-! ## What the writer puts -/

/-- The byte stands for itself inside a text: it is no control, no quote and no backslash. -/
def Plain (b : UInt8) : Prop := ¬ b < 0x20 ∧ b ≠ byte '"' ∧ b ≠ byte '\\'

/-- Bytes that stand for themselves can be put in front. -/
theorem SpellsBytes.plain_append {front spelled bytes : Bytes} (h : ∀ b ∈ front, Plain b)
    (rest : SpellsBytes spelled bytes) : SpellsBytes (front ++ spelled) (front ++ bytes) := by
  induction front with
  | nil => exact rest
  | cons b front ih =>
    obtain ⟨hshows, hquote, hslash⟩ := h b List.mem_cons_self
    exact .plain hshows hquote hslash (ih fun c hc => h c (List.mem_cons_of_mem _ hc))

/-- The bytes from 0x80 on stand for themselves. -/
theorem plain_of_le {n : Nat} (hge : 0x80 ≤ n) (hlt : n < 256) : Plain (.ofNat n) := by
  have hbyte : (UInt8.ofNat n).toNat = n := Text.toNat_ofNat hlt
  have hne {b : UInt8} (hb : b.toNat < 0x80) : UInt8.ofNat n ≠ b := by
    rintro rfl
    omega
  refine ⟨?_, hne (by decide), hne (by decide)⟩
  rw [UInt8.lt_iff_toNat_lt, hbyte]
  exact Nat.not_lt.mpr (Nat.le_trans (by decide) hge)

/-- A character that is no control, no quote and no backslash stands for itself. -/
theorem plain_of_mem_encodeChar {c : Char} (hshows : ¬ c.toNat < 0x20) (hquote : c ≠ '"')
    (hslash : c ≠ '\\') : ∀ b ∈ String.utf8EncodeChar c, Plain b := by
  by_cases hascii : c.toNat < 0x80
  · have hsingle : String.utf8EncodeChar c = [.ofNat c.toNat] := by
      unfold String.utf8EncodeChar
      exact if_pos (Nat.le_of_lt_succ hascii)
    have hbyte : (UInt8.ofNat c.toNat).toNat = c.toNat := Text.toNat_ofNat (by omega)
    have hne {d : Char} (hd : c ≠ d) (hvalue : (byte d).toNat = d.toNat) : UInt8.ofNat c.toNat ≠ byte d := by
      intro hsame
      rw [← UInt8.toNat_inj, hbyte, hvalue] at hsame
      exact hd (Char.toNat_inj.mp hsame)
    rw [hsingle]
    rintro _ (_ | ⟨_, ⟨⟩⟩)
    refine ⟨?_, hne hquote rfl, hne hslash rfl⟩
    rw [UInt8.lt_iff_toNat_lt, hbyte]
    exact hshows
  · -- Each of several bytes is 0x80 at least.
    have hvalid : c.val.toNat < 0xD800 ∨ 0xDFFF < c.val.toNat ∧ c.val.toNat < 0x110000 := c.valid
    replace hascii : ¬ c.val.toNat < 0x80 := hascii
    unfold String.utf8EncodeChar
    dsimp only
    rw [if_neg (by omega)]
    split
    · simp only [List.forall_mem_cons, List.not_mem_nil, false_implies, implies_true, and_true]
      exact ⟨plain_of_le (by omega) (by omega), plain_of_le (by omega) (by omega)⟩
    split
    · simp only [List.forall_mem_cons, List.not_mem_nil, false_implies, implies_true, and_true]
      exact ⟨plain_of_le (by omega) (by omega), plain_of_le (by omega) (by omega),
        plain_of_le (by omega) (by omega)⟩
    · simp only [List.forall_mem_cons, List.not_mem_nil, false_implies, implies_true, and_true]
      exact ⟨plain_of_le (by omega) (by omega), plain_of_le (by omega) (by omega),
        plain_of_le (by omega) (by omega), plain_of_le (by omega) (by omega)⟩

/-- A control is escaped by its number. -/
theorem SpellsBytes.control_append {n : Nat} (h : n < 0x20) {spelled bytes : Bytes}
    (rest : SpellsBytes spelled bytes) :
    SpellsBytes ((['\\', 'u'] ++ Text.hexPadded 4 n).flatMap String.utf8EncodeChar ++ spelled)
      (String.utf8EncodeChar (Char.ofNat n) ++ bytes) := by
  have hescape : ∃ a b c d, Text.hexPadded 4 n = [a, b, c, d] ∧ 
      [a, b, c, d].flatMap String.utf8EncodeChar = [byte a, byte b, byte c, byte d] ∧
      hexUnit? (byte a) (byte b) (byte c) (byte d) = some n := by
    interval_cases n <;> exact ⟨_, _, _, _, rfl, by decide, by decide⟩
  have hsingle : isLowSurrogate n = false ∧ isHighSurrogate n = false := by
    interval_cases n <;> decide
  obtain ⟨a, b, c, d, hdigits, hbytes, hunit⟩ := hescape
  rw [List.flatMap_append, hdigits, hbytes]
  exact .unit hunit hsingle.1 hsingle.2 rest

/-- What the writer puts for a character spells it. -/
theorem SpellsBytes.escapeChar_append (c : Char) {spelled bytes : Bytes} (rest : SpellsBytes spelled bytes) :
    SpellsBytes ((escapeChar c).flatMap String.utf8EncodeChar ++ spelled)
      (String.utf8EncodeChar c ++ bytes) := by
  unfold escapeChar
  split_ifs with hquote hslash _ _ _ _ _ hcontrol
  -- The characters with an escape of their own.
  any_goals
    subst c
    exact .short rfl rest
  · have hspells := SpellsBytes.control_append hcontrol rest
    rwa [Char.ofNat_toNat] at hspells
  · rw [List.flatMap_singleton]
    exact .plain_append (plain_of_mem_encodeChar hcontrol hquote hslash) rest

/-- What the writer puts for a text spells it, so that every text has a spelling. -/
theorem spellsText_writeString (s : String) : SpellsText s (Text.utf8 (writeString s)) := by
  have hinner (cs : List Char) : SpellsBytes ((cs.flatMap escapeChar).flatMap String.utf8EncodeChar)
      (cs.flatMap String.utf8EncodeChar) := by
    induction cs with
    | nil => exact .done
    | cons c cs ih =>
      rw [List.flatMap_cons, List.flatMap_append]
      exact .escapeChar_append c ih
  have hquote : String.utf8EncodeChar '"' = [byte '"'] := by decide
  have hbytes : Text.utf8 (writeString s) =
      byte '"' :: ((s.toList.flatMap escapeChar).flatMap String.utf8EncodeChar ++ [byte '"']) := by
    unfold writeString
    rw [Text.utf8_eq, String.toList_ofList, List.flatMap_append, List.flatMap_cons, hquote,
      List.flatMap_singleton, hquote]
    rfl
  rw [hbytes]
  refine .quoted ?_
  rw [Text.utf8_eq]
  exact hinner s.toList

/-! ## Reading texts -/

/-- The bytes of a text are read back from any spelling, up to the closing quote. -/
theorem textBytes_of_spells {spelled bytes : Bytes} (h : SpellsBytes spelled bytes) (done rest : Bytes) :
    textBytes .keeping done (spelled ++ byte '"' :: rest) = .ok (done.reverse ++ bytes, rest) := by
  have pushed (done bytes : Bytes) (c : Char) :
      (pushChar done c).reverse ++ bytes = done.reverse ++ (String.utf8EncodeChar c ++ bytes) := by
    unfold pushChar
    rw [List.reverse_append, List.reverse_reverse, List.append_assoc]
  have hslash : ¬ byte '\\' < 0x20 := by decide
  have hquote : byte '\\' ≠ byte '"' := by decide
  induction h generalizing done with
  | done =>
    rw [List.nil_append, List.append_nil]
    unfold textBytes
    rw [if_pos rfl]
  | @plain b spelled bytes shows quote slash _ ih =>
    rw [List.cons_append]
    unfold textBytes
    rw [if_neg quote, if_neg shows, if_pos slash, ih, List.reverse_cons, List.append_assoc]
    rfl
  | @short e c spelled bytes escape _ ih =>
    have hu : e ≠ byte 'u' := by
      rintro rfl
      cases escape
    rw [List.cons_append, List.cons_append]
    unfold textBytes
    rw [if_neg hquote, if_neg hslash, if_neg (not_not_intro rfl)]
    dsimp only
    rw [if_pos hu, escape]
    dsimp only
    rw [ih, List.reverse_cons, List.append_assoc]
    rfl
  | @unit a b c d unit spelled bytes hex low high _ ih =>
    simp only [List.cons_append]
    unfold textBytes
    rw [if_neg hquote, if_neg hslash, if_neg (not_not_intro rfl)]
    dsimp only
    rw [if_neg (not_not_intro rfl), hex]
    dsimp only
    rw [low, high, ← pushed, ← ih]
    rfl
  | @pair a b c d a' b' c' d' high low spelled bytes hex first hex' second _ ih =>
    simp only [List.cons_append]
    unfold textBytes
    rw [if_neg hquote, if_neg hslash, if_neg (not_not_intro rfl)]
    dsimp only
    rw [if_neg (not_not_intro rfl), hex]
    dsimp only
    -- The first half of a pair is no second half.
    have hsingle : isLowSurrogate high = false := by
      simp only [isHighSurrogate, Bool.and_eq_true, decide_eq_true_eq] at first
      simp only [isLowSurrogate, Bool.and_eq_false_iff, decide_eq_false_iff_not]
      omega
    have hmark : ¬ (byte '\\' ≠ byte '\\' ∨ byte 'u' ≠ byte 'u') := by decide
    have hstrict : ¬ (!Rules.keeping.strict) = true := by decide
    have hpaired : ¬ (!true) = true := by decide
    rw [hsingle, first, if_neg hstrict, if_neg Bool.false_ne_true, if_neg hpaired, if_neg hmark, hex']
    dsimp only
    rw [if_pos second, ih, pushed]

/-- A text is read back from any of its spellings. -/
theorem text_of_spells {s : String} {spelled : Bytes} (h : SpellsBytes spelled (Text.utf8 s)) (rest : Bytes) :
    text .keeping (spelled ++ byte '"' :: rest) = .ok (s, rest) := by
  unfold text
  rw [textBytes_of_spells h]
  dsimp only [bind, Except.bind]
  rw [List.reverse_nil, List.nil_append, Text.decode?_utf8]
  rfl

/-- A text stands where one is expected. -/
theorem expectText_of_spells {s : String} {spelled : Bytes} (h : SpellsText s spelled)
    (hbefore : Blanks before) (rest : Bytes) : expectText (before ++ (spelled ++ rest)) = .ok (s, rest) := by
  obtain @⟨spelled, h⟩ := h
  have hquote : isBlank (byte '"') = false := by decide
  have hscalar : scalar .keeping (byte '"') (spelled ++ byte '"' :: rest) = .ok (.string s, rest) := by
    unfold scalar
    rw [if_neg (by decide), if_neg (by decide), if_neg (by decide), if_pos rfl, text_of_spells h]
    rfl
  have hfound : found (before ++ (byte '"' :: (spelled ++ [byte '"']) ++ rest)) = .ok (.string s, rest) := by
    unfold found
    rw [List.cons_append, List.append_assoc, skipBlanks_append_cons hbefore hquote]
    dsimp only
    rw [if_neg (by decide), if_neg (by decide)]
    exact hscalar
  unfold expectText
  rw [hfound]
  rfl

/-! ## Naturals -/

/-- No number goes on with what stands here. -/
def EndsNumber (rest : Bytes) : Prop :=
  ∀ b ∈ rest.head?, isDigit b = false ∧ b ≠ byte '.' ∧ b ≠ byte 'e' ∧ b ≠ byte 'E'

/-- A digit is one byte. -/
theorem isDigit_byte {c : Char} (h : c.isDigit = true) :
    isDigit (byte c) = true ∧ (byte c - byte '0').toNat = Numeric.digitValue c ∧
      String.utf8EncodeChar c = [byte c] := by
  obtain ⟨hge, hle⟩ := Numeric.isDigit_iff.mp h
  rw [← Char.ofNat_toNat c]
  generalize c.toNat = n at hge hle
  interval_cases n <;> exact ⟨by decide, by decide, by decide⟩

/-- The bytes of a numeral are its digits. -/
theorem utf8_numeral (n : Nat) : Text.utf8 (toString n) = (Nat.toDigits 10 n).map byte := by
  have hlist : (toString n).toList = Nat.toDigits 10 n := Nat.toList_repr
  have hbytes (cs : List Char) (h : ∀ c ∈ cs, c.isDigit = true) :
      cs.flatMap String.utf8EncodeChar = cs.map byte := by
    induction cs with
    | nil => rfl
    | cons c rest ih =>
      obtain ⟨-, -, hc⟩ := isDigit_byte (h c List.mem_cons_self)
      rw [List.flatMap_cons, hc, ih fun d hd => h d (List.mem_cons_of_mem _ hd)]
      rfl
  rw [Text.utf8_eq, hlist]
  exact hbytes _ fun c hc => Numeric.isDigit_of_mem_numeral hc

/-- The digits of a numeral are taken off the front. -/
theorem takeDigits_numeral (n : Nat) {rest : Bytes} (h : EndsNumber rest) :
    takeDigits ((Nat.toDigits 10 n).map byte ++ rest) =
      ((Nat.toDigits 10 n).map Numeric.digitValue, rest) := by
  have hdigits : ∀ b ∈ (Nat.toDigits 10 n).map byte, isDigit b = true := by
    intro b hb
    obtain ⟨c, hc, rfl⟩ := List.mem_map.mp hb
    exact (isDigit_byte (Numeric.isDigit_of_mem_numeral hc)).1
  have hrest : rest.takeWhile isDigit = [] ∧ rest.dropWhile isDigit = rest := by
    cases rest with
    | nil => exact ⟨rfl, rfl⟩
    | cons b rest =>
      have hb := Bool.eq_false_iff.mp (h b rfl).1
      exact ⟨List.takeWhile_cons_of_neg hb, List.dropWhile_cons_of_neg hb⟩
  unfold takeDigits
  rw [List.takeWhile_append_of_pos hdigits, List.dropWhile_append_of_pos hdigits, hrest.1, hrest.2,
    List.append_nil, List.map_map]
  have hvalues : (Nat.toDigits 10 n).map ((fun b => (b - byte '0').toNat) ∘ byte) =
      (Nat.toDigits 10 n).map Numeric.digitValue :=
    List.map_congr_left fun c hc => (isDigit_byte (Numeric.isDigit_of_mem_numeral hc)).2.1
  rw [hvalues]

/-- The value of a numeral is read from its digits, as long as it fits into a word. -/
theorem leadingDigits_numeral {n : Nat} (h : n < UInt64.size) (more : List Nat) :
    leadingDigits 0 ((Nat.toDigits 10 n).map Numeric.digitValue ++ more) = leadingDigits n more := by
  refine Numeric.toDigits_induction (P := fun n cs => n < UInt64.size → ∀ more,
    leadingDigits 0 (cs.map Numeric.digitValue ++ more) = leadingDigits n more)
    (fun d hd hlt more => ?_) (fun n d hn hd ih hlt more => ?_) n h more
  · rw [List.map_singleton, Numeric.digitValue_digitChar hd, List.singleton_append, leadingDigits,
      Nat.mul_zero, Nat.zero_add, if_pos hlt]
  · rw [List.map_append, List.append_assoc, ih (by omega), List.map_singleton,
      Numeric.digitValue_digitChar hd, List.singleton_append, leadingDigits, if_pos hlt]

/-- A numeral has no digit too many in front. -/
theorem wholeDigits_numeral (n : Nat) {rest : Bytes} (h : EndsNumber rest) :
    wholeDigits .keeping ((Nat.toDigits 10 n).map byte ++ rest) =
      .ok ((Nat.toDigits 10 n).map Numeric.digitValue, rest) := by
  obtain ⟨d, digits, hdigits, hfirst⟩ : ∃ d digits, (Nat.toDigits 10 n).map Numeric.digitValue = d :: digits ∧
      (d = 0 → digits = []) := by
    by_cases hn : n = 0
    · subst hn
      exact ⟨0, [], rfl, fun _ => rfl⟩
    · obtain ⟨c, cs, hcs, hc⟩ := Numeric.head_numeral hn
      exact ⟨_, _, by rw [hcs]; rfl, fun hzero => absurd hzero hc⟩
  have hsome : someDigits .keeping ((Nat.toDigits 10 n).map byte ++ rest) = .ok (d :: digits, rest) := by
    unfold someDigits
    rw [takeDigits_numeral n h, hdigits]
  unfold wholeDigits
  rw [hsome, hdigits]
  dsimp only [bind, Except.bind]
  split
  · rename_i hzero
    cases hzero
    cases hfirst rfl
  · rfl

/-- A natural is read back from its numeral. -/
theorem number_numeral {n : Nat} (hn : n < UInt64.size) {rest : Bytes} (h : EndsNumber rest) :
    number .keeping false ((Nat.toDigits 10 n).map byte ++ rest) = .ok (.natural n, rest) := by
  -- What follows the digits is neither a point nor an exponent.
  have hfraction : fractionPart .keeping rest = .ok (none, rest) := by
    cases rest with
    | nil => rfl
    | cons b rest =>
      obtain ⟨-, hpoint, -, -⟩ := h b rfl
      rw [fractionPart, if_neg hpoint]
  have hexponent : exponentPart .keeping rest = .ok (none, rest) := by
    cases rest with
    | nil => rfl
    | cons b rest =>
      obtain ⟨-, -, hlower, hupper⟩ := h b rfl
      rw [exponentPart, if_neg (not_or.mpr ⟨hlower, hupper⟩)]
  have hleading : leadingDigits 0 ((Nat.toDigits 10 n).map Numeric.digitValue) = (n, 0) := by
    have hmore := leadingDigits_numeral hn []
    rwa [List.append_nil] at hmore
  have hvalue : Numeral.number? ⟨false, (Nat.toDigits 10 n).map Numeric.digitValue, none, none⟩ =
      some (.natural n) := by
    simp [Numeral.number?, hleading]
  unfold number numeral
  rw [wholeDigits_numeral n h]
  dsimp only [bind, Except.bind]
  rw [hfraction]
  dsimp only
  rw [hexponent]
  dsimp only [pure, Except.pure]
  rw [hvalue]

/-- A digit is none of the other bytes that can begin a value. -/
theorem ne_of_isDigit {b c : UInt8} (hb : isDigit b = true) (hc : isDigit c = false) : b ≠ c := by
  rintro rfl
  exact Bool.false_ne_true (hc.symm.trans hb)

/-- A digit is no blank. -/
theorem isBlank_of_isDigit {b : UInt8} (h : isDigit b = true) : isBlank b = false := by
  unfold isBlank
  rw [beq_false_of_ne (ne_of_isDigit h (by decide)), beq_false_of_ne (ne_of_isDigit h (by decide)),
    beq_false_of_ne (ne_of_isDigit h (by decide)), beq_false_of_ne (ne_of_isDigit h (by decide))]
  rfl

/-- A numeral has a digit in front. -/
theorem exists_digit_cons (n : Nat) :
    ∃ b bytes, (Nat.toDigits 10 n).map byte = b :: bytes ∧ isDigit b = true := by
  obtain ⟨c, cs, hcs⟩ := List.exists_cons_of_ne_nil (Nat.toDigits_ne_nil (n := n) (b := 10))
  have hdigit : c.isDigit = true := Numeric.isDigit_of_mem_numeral (by rw [hcs]; exact List.mem_cons_self)
  exact ⟨byte c, cs.map byte, by rw [hcs, List.map_cons], (isDigit_byte hdigit).1⟩

/-- A natural stands where one is expected. -/
theorem expectNatural_of_spells {n bound : Nat} (hlt : n < bound) (hn : n < UInt64.size) (expected : String)
    {spelled : Bytes} (h : SpellsNatural n spelled) (hbefore : Blanks before) {rest : Bytes}
    (hrest : EndsNumber rest) :
    expectNatural bound expected (before ++ (spelled ++ rest)) = .ok (n, rest) := by
  obtain ⟨⟩ := h
  have hnumber := number_numeral hn hrest
  rw [utf8_numeral]
  obtain ⟨b, bytes, hdigits, hb⟩ := exists_digit_cons n
  rw [hdigits] at hnumber ⊢
  have hscalar : scalar .keeping b (bytes ++ rest) = .ok (.number (.natural n), rest) := by
    unfold scalar
    -- A digit opens none of the other values, nor is it blank or a sign.
    rw [if_neg (ne_of_isDigit hb (by decide)), if_neg (ne_of_isDigit hb (by decide)),
      if_neg (ne_of_isDigit hb (by decide)), if_neg (ne_of_isDigit hb (by decide)),
      if_neg (ne_of_isDigit hb (by decide)), if_pos hb, ← List.cons_append, hnumber]
    rfl
  have hfound : found (before ++ (b :: bytes ++ rest)) = .ok (.number (.natural n), rest) := by
    unfold found
    rw [List.cons_append, skipBlanks_append_cons hbefore (isBlank_of_isDigit hb)]
    dsimp only
    rw [if_neg (ne_of_isDigit hb (by decide)), if_neg (ne_of_isDigit hb (by decide))]
    exact hscalar
  unfold expectNatural
  rw [hfound]
  dsimp only [bind, Except.bind]
  rw [if_pos hlt]
  rfl

/-! ## Rows -/

variable {α : Type} {closing : UInt8} {item : α → Bytes → Prop} {first : Bool} {x : α} {xs : List α}
  {bytes : Bytes}

/-- Something other than a closing byte begins here. -/
def Starts (closing : UInt8) (text : Bytes) : Prop :=
  ∃ b tail, text = b :: tail ∧ isBlank b = false ∧ b ≠ closing

/-- Items that can be spelled can stand in a row. -/
theorem exists_row (h : ∀ x ∈ xs, ∃ text, item x text) (first : Bool) :
    ∃ bytes, Row closing item first xs bytes := by
  induction xs generalizing first with
  | nil => exact ⟨_, .closed blanks_nil⟩
  | cons x xs ih =>
    obtain ⟨text, htext⟩ := h x List.mem_cons_self
    obtain ⟨after, hafter⟩ := ih (fun y hy => h y (List.mem_cons_of_mem _ hy)) false
    cases first with
    | true => exact ⟨_, .first blanks_nil htext hafter⟩
    | false => exact ⟨_, .next blanks_nil blanks_nil htext hafter⟩

/-- Every item takes a byte at least. -/
theorem Row.length_le (h : Row closing item first xs bytes) :
    xs.length ≤ bytes.length ∧ (first = false → xs.length < bytes.length) := by
  induction h with
  | closed => simp
  | @first x xs before text after hbefore hitem rest ih =>
    have hlt := ih.2 rfl
    refine ⟨?_, nofun⟩
    simp only [List.length_cons, List.length_append]
    omega
  | @next x xs before between text after hbefore hbetween hitem rest ih =>
    have hlt := ih.2 rfl
    simp only [List.length_cons, List.length_append]
    omega

/-- No number goes on behind an item. -/
theorem Row.endsNumber (h : Row closing item false xs bytes) (hclosing : EndsNumber [closing])
    (rest : Bytes) : EndsNumber (bytes ++ rest) := by
  have hcons {c : UInt8} (hc : EndsNumber [c]) (tail : Bytes) : EndsNumber (c :: tail) := hc
  have hcomma : EndsNumber [byte ','] := fun b hb => by cases hb; decide
  have hblank {c : UInt8} (hc : isBlank c = true) : EndsNumber [c] := by
    simp only [isBlank, Bool.or_eq_true, beq_iff_eq] at hc
    rintro b ⟨⟩
    rcases hc with ((rfl | rfl) | rfl) | rfl <;> decide
  have hbehind {before : Bytes} (hbefore : Blanks before) {c : UInt8} (hc : EndsNumber [c]) (tail : Bytes) :
      EndsNumber (before ++ c :: tail) := by
    cases before with
    | nil => exact hcons hc tail
    | cons b before => exact hcons (hblank (hbefore b List.mem_cons_self)) _
  cases h with
  | closed hbefore =>
    rw [List.append_assoc]
    exact hbehind hbefore hclosing _
  | next hbefore =>
    rw [List.append_assoc]
    exact hbehind hbefore hcomma _

/-- There is no element before the closing bracket. -/
theorem nextElement_closed (h : Row (byte ']') item first [] bytes) (rest : Bytes) :
    nextElement first (bytes ++ rest) = .ok none ∧ endArray (bytes ++ rest) = .ok rest := by
  cases h with
  | closed hbefore =>
    have hskip := skipBlanks_append_cons hbefore (b := byte ']') (by decide) rest
    unfold nextElement endArray
    rw [List.append_assoc, List.singleton_append, hskip]
    exact ⟨rfl, rfl⟩

/-- The next element begins where it is spelled. -/
theorem nextElement_row (h : Row (byte ']') item first (x :: xs) bytes)
    (hstarts : ∀ text, item x text → Starts (byte ']') text) (rest : Bytes) :
    ∃ text after, item x text ∧ Row (byte ']') item false xs after ∧
      nextElement first (bytes ++ rest) = .ok (some (text ++ (after ++ rest))) := by
  cases h with
  | @first _ _ before text after hbefore hitem hrest =>
    obtain ⟨b, tail, rfl, hb, hne⟩ := hstarts text hitem
    refine ⟨_, after, hitem, hrest, ?_⟩
    have hskip := skipBlanks_append_cons hbefore hb (tail ++ (after ++ rest))
    unfold nextElement
    simp only [List.append_assoc, List.cons_append, hskip]
    rw [if_neg hne, if_pos trivial]
  | @next _ _ before between text after hbefore hbetween hitem hrest =>
    obtain ⟨b, tail, rfl, hb, hne⟩ := hstarts text hitem
    refine ⟨_, after, hitem, hrest, ?_⟩
    have hcomma := skipBlanks_append_cons hbefore (b := byte ',') (by decide)
      (between ++ (b :: (tail ++ (after ++ rest))))
    have hskip := skipBlanks_append_cons hbetween hb (tail ++ (after ++ rest))
    unfold nextElement
    simp only [List.append_assoc, List.cons_append, hcomma, hskip]
    rw [if_neg (by decide), if_neg Bool.false_ne_true, if_neg (by decide), if_neg hne]

/-- There is no key before the closing brace. -/
theorem nextKey_closed (h : Row (byte '\x7d') item first [] bytes) (rest : Bytes) :
    nextKey first (bytes ++ rest) = .ok none ∧ endObject (bytes ++ rest) = .ok rest := by
  cases h with
  | closed hbefore =>
    have hskip := skipBlanks_append_cons hbefore (b := byte '\x7d') (by decide) rest
    unfold nextKey endObject
    rw [List.append_assoc, List.singleton_append, hskip]
    exact ⟨rfl, rfl⟩

/-- The value of a member stands behind a colon. -/
theorem colon_append (h : Blanks before) (rest : Bytes) :
    colon (before ++ byte ':' :: rest) = .ok rest := by
  unfold colon
  rw [skipBlanks_append_cons h (by decide)]
  rfl

/-- The next key begins behind its quote. -/
theorem nextKey_row {key : α → String} {value : α → Bytes → Prop}
    (h : Row (byte '\x7d') (fun x => SpellsMember (key x) (value x)) first (x :: xs) bytes) (rest : Bytes) :
    ∃ spelled before after text tail, SpellsBytes spelled (Text.utf8 (key x)) ∧ Blanks before ∧
      Blanks after ∧ value x text ∧
      Row (byte '\x7d') (fun x => SpellsMember (key x) (value x)) false xs tail ∧
      nextKey first (bytes ++ rest) =
        .ok (some (spelled ++ byte '"' :: (before ++ byte ':' :: (after ++ (text ++ (tail ++ rest)))))) := by
  have hquote : isBlank (byte '"') = false := by decide
  cases h with
  | @first _ _ blanks _ tail hblanks hitem hrest =>
    obtain @⟨_, before, after, text, ⟨hkey⟩, hbefore, hafter, hvalue⟩ := hitem
    refine ⟨_, before, after, text, tail, hkey, hbefore, hafter, hvalue, hrest, ?_⟩
    unfold nextKey
    simp only [List.append_assoc, List.cons_append, List.nil_append, skipBlanks_append_cons hblanks hquote]
    rfl
  | @next _ _ blanks between _ tail hblanks hbetween hitem hrest =>
    obtain @⟨_, before, after, text, ⟨hkey⟩, hbefore, hafter, hvalue⟩ := hitem
    refine ⟨_, before, after, text, tail, hkey, hbefore, hafter, hvalue, hrest, ?_⟩
    have hcomma : isBlank (byte ',') = false := by decide
    unfold nextKey
    simp only [List.append_assoc, List.cons_append, List.nil_append, skipBlanks_append_cons hblanks hcomma,
      skipBlanks_append_cons hbetween hquote]
    rfl

end GuardedHttp.Json
