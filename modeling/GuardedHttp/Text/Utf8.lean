import GuardedHttp.Text.Hex

/-!
# Reading UTF-8

`decodePieces` cuts a string of bytes into characters and maximal parts that are no character.
`decode?` accepts only bytes that are characters throughout; `decodeLossy` puts U+FFFD for every part
that is none.

Main statement: `decodeLossy_eq_of_decode?`, bytes that are a text are read as that text.
-/

namespace GuardedHttp.Text

/-- What a leading byte of more than one promises: how many bytes follow, and the range of the first of
them. The ranges shut out overlong forms, surrogates and numbers beyond U+10FFFF. -/
structure LeadByte where
  /-- The number of bytes that follow. -/
  following : Nat
  /-- The least byte that may come second. -/
  low : UInt8
  /-- The greatest byte that may come second. -/
  high : UInt8
  /-- The bits of the leading byte that belong to the character. -/
  bits : Nat

/-- What a byte promises, if it can lead a character of more than one byte. -/
def leadByte? (b : UInt8) : Option LeadByte :=
  if 0xC2 ≤ b ∧ b ≤ 0xDF then some ⟨1, 0x80, 0xBF, b.toNat - 0xC0⟩
  else if b = 0xE0 then some ⟨2, 0xA0, 0xBF, 0⟩
  else if b = 0xED then some ⟨2, 0x80, 0x9F, 0xD⟩
  else if 0xE1 ≤ b ∧ b ≤ 0xEF then some ⟨2, 0x80, 0xBF, b.toNat - 0xE0⟩
  else if b = 0xF0 then some ⟨3, 0x90, 0xBF, 0⟩
  else if 0xF1 ≤ b ∧ b ≤ 0xF3 then some ⟨3, 0x80, 0xBF, b.toNat - 0xF0⟩
  else if b = 0xF4 then some ⟨3, 0x80, 0x8F, 4⟩
  else none

/-- Takes the bytes that a leading byte promised, as far as they are there. -/
def takeFollowing : (following : Nat) → (low high : UInt8) → (bits : Nat) → Bytes → Option Char × Bytes
  | 0, _, _, bits, rest => (some (Char.ofNat bits), rest)
  | _ + 1, _, _, _, [] => (none, [])
  | following + 1, low, high, bits, b :: rest =>
    if low ≤ b ∧ b ≤ high then
      takeFollowing following 0x80 0xBF (64 * bits + b.toNat % 64) rest
    else (none, b :: rest)

/-- Bytes are only taken off. -/
theorem length_takeFollowing (following : Nat) (low high : UInt8) (bits : Nat) (bytes : Bytes) :
    (takeFollowing following low high bits bytes).2.length ≤ bytes.length := by
  induction following generalizing low high bits bytes with
  | zero => simp [takeFollowing]
  | succ n ih =>
    cases bytes with
    | nil => simp [takeFollowing]
    | cons b rest =>
      simp only [takeFollowing]
      split
      · exact Nat.le_trans (ih ..) (Nat.le_succ _)
      · exact Nat.le_refl _

/-- The characters of a string of bytes, in order, with `none` for every maximal part that is none. -/
def decodePieces : Bytes → List (Option Char)
  | [] => []
  | b :: rest =>
    if b < 0x80 then some (Char.ofNat b.toNat) :: decodePieces rest
    else match leadByte? b with
      | none => none :: decodePieces rest
      | some lead =>
        let taken := takeFollowing lead.following lead.low lead.high lead.bits rest
        taken.1 :: decodePieces taken.2
termination_by bytes => bytes.length
decreasing_by
  · simp
  · simp
  · exact Nat.lt_succ_of_le (length_takeFollowing ..)

/-- The text that a string of bytes encodes, if it is one. -/
def decode? (bytes : Bytes) : Option String :=
  ((decodePieces bytes).mapM id).map String.ofList

/-- The text of a string of bytes, with U+FFFD for every maximal part that is no character. -/
def decodeLossy (bytes : Bytes) : String :=
  String.ofList ((decodePieces bytes).map (·.getD '\ufffd'))

/-- If all pieces are characters, none is replaced. -/
theorem map_getD_of_mapM {pieces : List (Option Char)} {cs : List Char}
    (h : pieces.mapM id = some cs) : pieces.map (·.getD '\ufffd') = cs := by
  induction pieces generalizing cs with
  | nil => simpa using h
  | cons p rest ih =>
    cases p with
    | none => simp [List.mapM_cons] at h
    | some c =>
      simp only [List.mapM_cons, id_eq, Option.bind_eq_bind, Option.bind_some, Option.pure_def,
        Option.bind_eq_some_iff, Option.some.injEq] at h
      obtain ⟨tail, ht, rfl⟩ := h
      simp [ih ht]

/-- Bytes that encode a text are read as that text. -/
theorem decodeLossy_eq_of_decode? {bytes : Bytes} {s : String} (h : decode? bytes = some s) :
    decodeLossy bytes = s := by
  simp only [decode?, Option.map_eq_some_iff] at h
  obtain ⟨cs, hcs, rfl⟩ := h
  simp [decodeLossy, map_getD_of_mapM hcs]

end GuardedHttp.Text
