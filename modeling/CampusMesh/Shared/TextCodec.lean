import CampusMesh.Shared.EncoderFields

/-!
# Texts on the wire

Resource ids cross the wire as UTF-8. The decoder gives every text back (`decodeFrom_textEncode`)
except that it drops a byte order mark at the beginning. So a text comes back unless it starts with
that mark (`roundTripsText_iff`), and a message comes back unless its resource id does, or does not
fit its length byte, or a number does not fit its field (`decodes_encodeMessage_iff`).
-/

set_option autoImplicit false
set_option relaxedAutoImplicit false

namespace CampusMesh.Shared

open Library

/-! ### Bytes of characters -/

section Steps

variable {registers : Utf8Registers} {byte : ℕ}

/-- A byte of a character that is not its last one. -/
theorem decodeByte_middle (hneeded : 1 < registers.needed)
    (hbounds : registers.lower ≤ byte ∧ byte ≤ registers.upper) :
    decodeByte registers byte =
      ([], ⟨registers.needed - 1, registers.codePoint * 0x40 + byte % 0x40, 0x80, 0xBF⟩) := by
  unfold decodeByte
  rw [if_neg (by omega), if_pos hbounds]
  exact if_neg (by omega)

/-- The last byte of a character. -/
theorem decodeByte_last (hneeded : registers.needed = 1)
    (hbounds : registers.lower ≤ byte ∧ byte ≤ registers.upper) :
    decodeByte registers byte =
      ([Char.ofNat (registers.codePoint * 0x40 + byte % 0x40)], .fresh) := by
  unfold decodeByte
  rw [if_neg (by omega), if_pos hbounds]
  exact if_pos hneeded

/-- Between two characters, a byte leads the next one. -/
theorem decodeByte_fresh (byte : ℕ) : decodeByte .fresh byte = decodeLeadByte byte := rfl

/-- A byte that leads a character of two bytes. -/
theorem decodeByte_leadTwo (hbyte : 0xC2 ≤ byte ∧ byte ≤ 0xDF) :
    decodeByte .fresh byte = ([], ⟨1, byte % 0x20, 0x80, 0xBF⟩) := by
  rw [decodeByte_fresh, decodeLeadByte, if_neg (by omega), if_pos hbyte]

/-- A byte that leads a character of three bytes. -/
theorem decodeByte_leadThree (hbyte : 0xE0 ≤ byte ∧ byte ≤ 0xEF) :
    decodeByte .fresh byte = ([], ⟨2, byte % 0x10, if byte = 0xE0 then 0xA0 else 0x80,
      if byte = 0xED then 0x9F else 0xBF⟩) := by
  rw [decodeByte_fresh, decodeLeadByte, if_neg (by omega), if_neg (by omega), if_pos hbyte]

/-- A byte that leads a character of four bytes. -/
theorem decodeByte_leadFour (hbyte : 0xF0 ≤ byte ∧ byte ≤ 0xF4) :
    decodeByte .fresh byte = ([], ⟨3, byte % 0x08, if byte = 0xF0 then 0x90 else 0x80,
      if byte = 0xF4 then 0x8F else 0xBF⟩) := by
  rw [decodeByte_fresh, decodeLeadByte, if_neg (by omega), if_neg (by omega), if_neg (by omega),
    if_pos hbyte]

end Steps

/-! ### Characters -/

/-- The numbers of characters leave out the surrogates. -/
theorem toNat_cases (char : Char) :
    char.toNat < 0xD800 ∨ 0xDFFF < char.toNat ∧ char.toNat < 0x110000 := char.valid

/-- The number of a byte. -/
theorem toNat_ofNat_byte {value : ℕ} (hvalue : value < 256) : (UInt8.ofNat value).toNat = value :=
  UInt8.toNat_ofNat_of_lt' hvalue

/-- **A character comes back.** The bounds for continuation bytes leave out the long forms and the
surrogates, and no character has one of those. -/
theorem decodeFrom_utf8EncodeChar (char : Char) (rest : Bytes) :
    decodeFrom .fresh (String.utf8EncodeChar char ++ rest) = char :: decodeFrom .fresh rest := by
  have hvalid := toNat_cases char
  have hchar : ∀ value, value = char.toNat → Char.ofNat value = char := by
    rintro value rfl
    exact Char.ofNat_toNat char
  have hnumber : char.val.toNat = char.toNat := rfl
  unfold String.utf8EncodeChar
  simp only [hnumber]
  split_ifs with hone htwo hthree
  · rw [List.singleton_append, decodeFrom, toNat_ofNat_byte (by omega), decodeByte_fresh,
      decodeLeadByte, if_pos hone, hchar _ rfl]
    rfl
  · simp only [List.cons_append, List.nil_append, decodeFrom]
    rw [toNat_ofNat_byte (by omega), toNat_ofNat_byte (by omega), decodeByte_leadTwo (by omega)]
    simp only
    rw [decodeByte_last rfl (by simp only; omega)]
    simp only
    rw [hchar _ (by omega)]
    rfl
  · simp only [List.cons_append, List.nil_append, decodeFrom]
    rw [toNat_ofNat_byte (by omega), toNat_ofNat_byte (by omega), toNat_ofNat_byte (by omega),
      decodeByte_leadThree (by omega)]
    simp only
    rw [decodeByte_middle (by simp) (by simp only; split_ifs <;> omega)]
    simp only
    rw [decodeByte_last rfl (by simp only; omega)]
    simp only
    rw [hchar _ (by omega)]
    rfl
  · simp only [List.cons_append, List.nil_append, decodeFrom]
    rw [toNat_ofNat_byte (by omega), toNat_ofNat_byte (by omega), toNat_ofNat_byte (by omega),
      toNat_ofNat_byte (by omega), decodeByte_leadFour (by omega)]
    simp only
    rw [decodeByte_middle (by simp) (by simp only; split_ifs <;> omega)]
    simp only
    rw [decodeByte_middle (by simp) (by simp only; omega)]
    simp only
    rw [decodeByte_last rfl (by simp only; omega)]
    simp only
    rw [hchar _ (by omega)]
    rfl

/-! ### Texts -/

/-- **The bytes of a text mean the text.** -/
theorem decodeFrom_textEncode (text : String) :
    decodeFrom .fresh (textEncode text) = text.toList := by
  unfold textEncode
  induction text.toList with
  | nil => rfl
  | cons char rest ih => rw [List.flatMap_cons, decodeFrom_utf8EncodeChar, ih]

/-- The byte order mark. -/
def byteOrderMark : Char := Char.ofNat 0xFEFF

/-- The text starts with the mark that the decoder drops. -/
def StartsWithMark (text : String) : Prop := text.toList.head? = some byteOrderMark

instance (text : String) : Decidable (StartsWithMark text) :=
  inferInstanceAs (Decidable (text.toList.head? = some byteOrderMark))

/-- The bytes that the decoder drops are those of the mark. -/
theorem take_textEncode_iff {text : String} :
    (textEncode text).take 3 = [0xEF, 0xBB, 0xBF] ↔ StartsWithMark text := by
  have hmark : String.utf8EncodeChar byteOrderMark = [0xEF, 0xBB, 0xBF] := by decide
  constructor
  · intro htake
    have hbytes := List.take_append_drop 3 (textEncode text)
    have hchars := decodeFrom_textEncode text
    rw [← hbytes, htake, ← hmark, decodeFrom_utf8EncodeChar] at hchars
    rw [StartsWithMark, ← hchars]
    rfl
  · intro hstarts
    obtain ⟨rest, hrest⟩ := List.head?_eq_some_iff.mp hstarts
    rw [textEncode, hrest, List.flatMap_cons, hmark]
    rfl

/-- **Which texts come back.** -/
theorem roundTripsText_iff {text : String} : RoundTripsText text ↔ ¬ StartsWithMark text := by
  unfold RoundTripsText textDecode
  constructor
  · intro hback hstarts
    obtain ⟨rest, hrest⟩ := List.head?_eq_some_iff.mp hstarts
    have hdropped : (textEncode text).drop 3 = textEncode (String.ofList rest) := by
      rw [textEncode, hrest, List.flatMap_cons, textEncode, String.toList_ofList]
      exact List.drop_left' (by decide)
    simp only [if_pos (take_textEncode_iff.mpr hstarts)] at hback
    rw [hdropped, decodeFrom_textEncode, String.toList_ofList] at hback
    rw [← hback, String.toList_ofList] at hrest
    exact absurd (congrArg List.length hrest) (by simp)
  · intro hplain
    simp only [if_neg fun htake ↦ hplain (take_textEncode_iff.mp htake)]
    rw [decodeFrom_textEncode, String.ofList_toList]

/-- A mark in front of an id gets lost. -/
example : textDecode (textEncode "\ufeffres_1") = "res_1" := by decide

/-! ### Messages -/

/-- What a frame decodes to has the resource id that its header means. -/
theorem resourceId_of_decodes {message decoded : WireMessage} {frame : Bytes}
    (hframe : encodeMessage message = .ok frame) (hdecodes : decodeMessage frame = .ok decoded) :
    decoded.resourceId = textDecode (textEncode message.resourceId) := by
  obtain ⟨hfits, rfl⟩ := encodeMessage_eq_ok_iff.mp hframe
  obtain ⟨type, -, -, -, hresource, -⟩ := carries_of_decodes hdecodes
  have hidByte : (headerBytes message.type message.resourceId ++ message.payload).getD 2 0 =
    UInt8.ofNat (textEncode message.resourceId).length := rfl
  have hidBytes : subarray (headerBytes message.type message.resourceId ++ message.payload) 3
      (3 + (textEncode message.resourceId).length) = textEncode message.resourceId := by
    rw [subarray, headerBytes, List.append_assoc, Nat.add_sub_cancel_left]
    exact List.take_left
  rw [hresource, hidByte, toNat_ofNat_byte (Nat.lt_succ_of_le hfits), hidBytes]

/-- **Which messages come back.** A message that is encoded and decoded is itself again exactly if
its numbers fit their fields, and its resource id fits the length byte and does not start with a
byte order mark. -/
theorem decodes_encodeMessage_iff (message : WireMessage) :
    Decodes (encodeMessage message) message ↔
      FitsHeader message.resourceId ∧ ¬ StartsWithMark message.resourceId ∧ message.FieldsFit := by
  constructor
  · rintro ⟨frame, hframe, hdecodes⟩
    refine ⟨(encodeMessage_eq_ok_iff.mp hframe).1, ?_, fieldsFit_of_decodes hdecodes⟩
    exact roundTripsText_iff.mp (resourceId_of_decodes hframe hdecodes).symm
  · rintro ⟨hfits, hplain, hfields⟩
    have hframe := encodeMessage_eq_ok_iff.mpr ⟨hfits, rfl⟩
    exact ⟨_, hframe, decodeMessage_encodeMessage (roundTripsText_iff.mpr hplain) hfields hframe⟩

end CampusMesh.Shared
