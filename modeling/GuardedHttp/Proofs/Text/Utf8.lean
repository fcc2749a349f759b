import GuardedHttp.Text.Utf8
import Mathlib.Tactic.IntervalCases

/-!
# Reading back what has been encoded

The bytes of a text are those of its characters, one after another. The reader takes the bytes of one
character as that character and goes on behind them (`decodePieces_encodeChar`), so that the bytes of a
text are read as that text (`decode?_utf8`).
-/

namespace GuardedHttp.Text

/-! ## The bytes of a text -/

/-- The bytes of an array in a list are those of its data. -/
theorem toList_eq_toList_data (bytes : ByteArray) : bytes.toList = bytes.data.toList := by
  have hloop (i : Nat) (done : List UInt8) :
      ByteArray.toList.loop bytes i done = done.reverse ++ bytes.data.toList.drop i := by
    fun_induction ByteArray.toList.loop bytes i done with
    | case1 i done hlt ih =>
      have hlength : i < bytes.data.toList.length := hlt
      have hget : bytes.get! i = bytes.data.toList[i] := getElem!_pos bytes.data i hlt
      rw [ih, List.drop_eq_getElem_cons hlength, hget, List.reverse_cons, List.append_assoc]
      rfl
    | case2 i done hnot =>
      rw [List.drop_eq_nil_of_le (Nat.le_of_not_lt hnot), List.append_nil]
  rw [ByteArray.toList, hloop]
  rfl

/-- The bytes of a text are those of its characters. -/
theorem utf8_eq (s : String) : utf8 s = s.toList.flatMap String.utf8EncodeChar := by
  unfold utf8 String.toUTF8
  rw [toList_eq_toList_data, ← String.utf8Encode_toList, List.utf8Encode, List.data_toByteArray]

/-! ## The bytes of a character -/

/-- What is less than 256 fits into a byte. -/
theorem toNat_ofNat {n : Nat} (h : n < 256) : (UInt8.ofNat n).toNat = n := by
  rw [UInt8.toNat_ofNat']
  exact Nat.mod_eq_of_lt h

/-- The bytes that lead a character of two promise one that follows. -/
theorem leadByte?_two {n : Nat} (hge : 0xC2 ≤ n) (hle : n ≤ 0xDF) :
    leadByte? (.ofNat n) = some ⟨1, 0x80, 0xBF, n - 0xC0⟩ := by
  interval_cases n <;> rfl

/-- The bytes that lead a character of three promise two that follow, the first of them in a smaller
range if the character could be written with fewer bytes or were a surrogate. -/
theorem leadByte?_three {n : Nat} (hge : 0xE0 ≤ n) (hle : n ≤ 0xEF) : leadByte? (.ofNat n) =
    some ⟨2, if n = 0xE0 then 0xA0 else 0x80, if n = 0xED then 0x9F else 0xBF, n - 0xE0⟩ := by
  interval_cases n <;> rfl

/-- The bytes that lead a character of four promise three that follow, the first of them in a smaller
range if the character could be written with fewer bytes or were beyond the last one. -/
theorem leadByte?_four {n : Nat} (hge : 0xF0 ≤ n) (hle : n ≤ 0xF4) : leadByte? (.ofNat n) =
    some ⟨3, if n = 0xF0 then 0x90 else 0x80, if n = 0xF4 then 0x8F else 0xBF, n - 0xF0⟩ := by
  interval_cases n <;> rfl

/-- A byte that follows adds six bits to the character. -/
theorem takeFollowing_succ (following bits : Nat) {low high : UInt8} {m : Nat} (hm : m < 64)
    (hlow : low.toNat ≤ m + 128) (hhigh : m + 128 ≤ high.toNat) (rest : Bytes) :
    takeFollowing (following + 1) low high bits (.ofNat (m + 128) :: rest) =
      takeFollowing following 0x80 0xBF (64 * bits + m) rest := by
  have hbyte : (UInt8.ofNat (m + 128)).toNat = m + 128 := toNat_ofNat (by omega)
  have hsix : (m + 128) % 64 = m := by omega
  rw [takeFollowing, if_pos, hbyte, hsix]
  rw [UInt8.le_iff_toNat_le, UInt8.le_iff_toNat_le, hbyte]
  exact ⟨hlow, hhigh⟩

/-- A byte that leads a character is no character by itself. -/
theorem decodePieces_lead {n : Nat} (hge : 0x80 ≤ n) (hlt : n < 256) {lead : LeadByte}
    (h : leadByte? (.ofNat n) = some lead) (rest : Bytes) : decodePieces (.ofNat n :: rest) =
      (takeFollowing lead.following lead.low lead.high lead.bits rest).1 ::
        decodePieces (takeFollowing lead.following lead.low lead.high lead.bits rest).2 := by
  have hnot : ¬ UInt8.ofNat n < 0x80 := by
    rw [UInt8.lt_iff_toNat_lt, toNat_ofNat hlt]
    exact Nat.not_lt.mpr hge
  rw [decodePieces, if_neg hnot]
  split
  · rename_i hnone
    rw [h] at hnone
    cases hnone
  · rename_i other hother
    obtain rfl : lead = other := Option.some.inj (h.symm.trans hother)
    rfl

/-- The bytes of a character are read as that character. -/
theorem decodePieces_encodeChar (c : Char) (rest : Bytes) :
    decodePieces (String.utf8EncodeChar c ++ rest) = some c :: decodePieces rest := by
  have hback : Char.ofNat c.val.toNat = c := Char.ofNat_toNat c
  have hvalid : c.val.toNat < 0xD800 ∨ 0xDFFF < c.val.toNat ∧ c.val.toNat < 0x110000 := c.valid
  unfold String.utf8EncodeChar
  dsimp only
  generalize c.val.toNat = v at hback hvalid
  split
  · -- One byte.
    have hbyte : (UInt8.ofNat v).toNat = v := toNat_ofNat (by omega)
    have hlt : UInt8.ofNat v < 0x80 := by
      rw [UInt8.lt_iff_toNat_lt, hbyte]
      exact Nat.lt_succ_of_le ‹_›
    rw [List.cons_append, List.nil_append, decodePieces, if_pos hlt, hbyte, hback]
  split
  · -- Two bytes.
    have hlead := leadByte?_two (n := v / 64 % 32 + 192) (by omega) (by omega)
    have hwhole : 64 * (v / 64 % 32 + 192 - 0xC0) + v % 64 = v := by omega
    simp only [List.cons_append, List.nil_append]
    rw [decodePieces_lead (by omega) (by omega) hlead]
    dsimp only
    rw [takeFollowing_succ _ _ (Nat.mod_lt _ (by decide)) (Nat.le_add_left ..) (by simp; omega), hwhole,
      takeFollowing, hback]
  split
  · -- Three bytes.
    have hlead := leadByte?_three (n := v / 4096 % 16 + 224) (by omega) (by omega)
    have hwhole : 64 * (64 * (v / 4096 % 16 + 224 - 0xE0) + v / 64 % 64) + v % 64 = v := by omega
    simp only [List.cons_append, List.nil_append]
    rw [decodePieces_lead (by omega) (by omega) hlead]
    dsimp only
    rw [takeFollowing_succ _ _ (Nat.mod_lt _ (by decide)) (by split <;> simp; omega)
      (by split <;> simp <;> omega), takeFollowing_succ _ _ (Nat.mod_lt _ (by decide))
      (Nat.le_add_left ..) (by simp; omega), hwhole, takeFollowing, hback]
  · -- Four bytes.
    have hlead := leadByte?_four (n := v / 262144 % 8 + 240) (by omega) (by omega)
    have hwhole : 64 * (64 * (64 * (v / 262144 % 8 + 240 - 0xF0) + v / 4096 % 64) + v / 64 % 64) + v % 64 =
        v := by omega
    simp only [List.cons_append, List.nil_append]
    rw [decodePieces_lead (by omega) (by omega) hlead]
    dsimp only
    rw [takeFollowing_succ _ _ (Nat.mod_lt _ (by decide)) (by split <;> simp; omega)
      (by split <;> simp <;> omega), takeFollowing_succ _ _ (Nat.mod_lt _ (by decide))
      (Nat.le_add_left ..) (by simp; omega), takeFollowing_succ _ _ (Nat.mod_lt _ (by decide))
      (Nat.le_add_left ..) (by simp; omega), hwhole, takeFollowing, hback]

/-! ## The text of bytes -/

/-- The bytes of characters are read as those characters. -/
theorem decodePieces_encode (cs : List Char) :
    decodePieces (cs.flatMap String.utf8EncodeChar) = cs.map some := by
  induction cs with
  | nil =>
    rw [List.flatMap_nil, decodePieces]
    rfl
  | cons c rest ih => rw [List.flatMap_cons, decodePieces_encodeChar, ih, List.map_cons]

/-- The bytes of a text are read as that text. -/
theorem decode?_utf8 (s : String) : decode? (utf8 s) = some s := by
  have hpieces : (s.toList.map some).mapM id = some s.toList := by
    induction s.toList with
    | nil => rfl
    | cons c rest ih =>
      rw [List.map_cons, List.mapM_cons, ih]
      rfl
  rw [decode?, utf8_eq, decodePieces_encode, hpieces, Option.map_some, String.ofList_toList]

end GuardedHttp.Text
