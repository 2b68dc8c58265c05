import CampusMesh.Shared.Runtime
import Mathlib.Data.List.Range
import Mathlib.Data.Nat.Bits

/-!
# Bitfields of chunk availability

The `Bitfield` class: one bit for each chunk of a resource, most significant bit first. The bytes
are exactly as many as the chunks need, which the structure carries as a field. `has_new` and
`has_of_set` describe the class through `has` alone; everything the program computes from a bitfield
(counting, completeness, the lists of available and of missing chunks) follows from them.
-/

set_option autoImplicit false
set_option relaxedAutoImplicit false

namespace CampusMesh.Shared

open Library

/-- `Math.ceil(totalChunks / 8)`. -/
def requiredBytes (totalChunks : ℕ) : ℕ := (totalChunks + 7) / 8

/-- Chunk availability, one bit for each chunk. -/
structure Bitfield where
  totalChunks : ℕ
  bytes : Bytes
  length_bytes : bytes.length = requiredBytes totalChunks

namespace Bitfield

/-- The bit of a chunk in its byte: `1 << (7 - (chunkIndex % 8))`. -/
def bitMask (chunkIndex : ℕ) : UInt8 := 1 <<< UInt8.ofNat (7 - chunkIndex % 8)

/-- `new Bitfield(totalChunks)`: no chunk is available. -/
def new (totalChunks : ℕ) : Bitfield :=
  ⟨totalChunks, List.replicate (requiredBytes totalChunks) 0, List.length_replicate⟩

/-- `Bitfield.fromBytes(totalChunks, bytes)`, which copies the bytes if their number fits. -/
def fromBytes (totalChunks : ℕ) (bytes : Bytes) : Except JsError Bitfield :=
  if hlength : bytes.length = requiredBytes totalChunks then .ok ⟨totalChunks, bytes, hlength⟩
  else .error (.error ("Invalid bitfield byte length: expected " ++
    toString (requiredBytes totalChunks) ++ ", got " ++ toString bytes.length))

/-- Whether a chunk is available. -/
def has (bitfield : Bitfield) (chunkIndex : ℕ) : Bool :=
  if bitfield.totalChunks ≤ chunkIndex then false
  else (bitfield.bytes.getD (chunkIndex / 8) 0 &&& bitMask chunkIndex) != 0

/-- The error of `assertBounds`. -/
def outOfBounds (bitfield : Bitfield) (index : ℕ) : JsError :=
  .rangeError ("Chunk index " ++ toString index ++ " is out of bounds for bitfield with " ++
    toString bitfield.totalChunks ++ " chunks")

/-- Marks a chunk as available. -/
def set (bitfield : Bitfield) (chunkIndex : ℕ) : Except JsError Bitfield :=
  if bitfield.totalChunks ≤ chunkIndex then .error (bitfield.outOfBounds chunkIndex)
  else .ok
    { bitfield with
      bytes := bitfield.bytes.set (chunkIndex / 8)
        (bitfield.bytes.getD (chunkIndex / 8) 0 ||| bitMask chunkIndex)
      length_bytes := by rw [List.length_set, bitfield.length_bytes] }

/-- Marks a chunk as missing. -/
def clear (bitfield : Bitfield) (chunkIndex : ℕ) : Except JsError Bitfield :=
  if bitfield.totalChunks ≤ chunkIndex then .error (bitfield.outOfBounds chunkIndex)
  else .ok
    { bitfield with
      bytes := bitfield.bytes.set (chunkIndex / 8)
        (bitfield.bytes.getD (chunkIndex / 8) 0 &&& ~~~bitMask chunkIndex)
      length_bytes := by rw [List.length_set, bitfield.length_bytes] }

/-- The available chunks, ascending. -/
def getAvailableIndices (bitfield : Bitfield) : List ℕ :=
  (List.range bitfield.totalChunks).filter bitfield.has

/-- The missing chunks, ascending. -/
def getMissingIndices (bitfield : Bitfield) : List ℕ :=
  (List.range bitfield.totalChunks).filter fun index ↦ !bitfield.has index

/-- How many chunks are available. -/
def count (bitfield : Bitfield) : ℕ := (List.range bitfield.totalChunks).countP bitfield.has

/-- Whether all chunks are available. -/
def isComplete (bitfield : Bitfield) : Bool :=
  if bitfield.totalChunks = 0 then true else bitfield.count = bitfield.totalChunks

/-- A copy of the bytes. -/
def toBytes (bitfield : Bitfield) : Bytes := bitfield.bytes

/-! ### One bit of one byte -/

private theorem shifted_eq_twoPow {place : ℕ} (hplace : place < 8) :
    ((1 : UInt8) <<< UInt8.ofNat place).toBitVec = BitVec.twoPow 8 place := by
  interval_cases place <;> decide

private theorem and_shifted_ne_zero (byte : UInt8) {place : ℕ} (hplace : place < 8) :
    (byte &&& (1 <<< UInt8.ofNat place) != 0) = byte.toBitVec.getLsbD place := by
  have hzero : (byte &&& (1 <<< UInt8.ofNat place) = 0) ↔
      byte.toBitVec &&& BitVec.twoPow 8 place = 0#8 := by
    rw [← shifted_eq_twoPow hplace, ← UInt8.toBitVec_and, ← UInt8.toBitVec_inj]
    rfl
  rw [Bool.eq_iff_iff, bne_iff_ne, ne_eq, hzero, BitVec.and_twoPow]
  cases hbit : byte.toBitVec.getLsbD place with
  | true =>
    simp only [if_true, iff_true]
    intro hnone
    have hvalue := congrArg (fun bits : BitVec 8 ↦ bits.getLsbD place) hnone
    simp [hplace] at hvalue
  | false => simp

private theorem or_shifted_and_ne_zero (byte : UInt8) {place other : ℕ} (hplace : place < 8)
    (hother : other < 8) :
    ((byte ||| (1 <<< UInt8.ofNat place)) &&& (1 <<< UInt8.ofNat other) != 0) =
      (decide (place = other) || (byte &&& (1 <<< UInt8.ofNat other) != 0)) := by
  rw [and_shifted_ne_zero _ hother, and_shifted_ne_zero _ hother, UInt8.toBitVec_or,
    BitVec.getLsbD_or, shifted_eq_twoPow hplace, BitVec.getLsbD_twoPow]
  simp [hplace, Bool.or_comm]

private theorem and_not_shifted_and_ne_zero (byte : UInt8) {place other : ℕ} (hplace : place < 8)
    (hother : other < 8) :
    ((byte &&& ~~~(1 <<< UInt8.ofNat place)) &&& (1 <<< UInt8.ofNat other) != 0) =
      (!decide (place = other) && (byte &&& (1 <<< UInt8.ofNat other) != 0)) := by
  rw [and_shifted_ne_zero _ hother, and_shifted_ne_zero _ hother, UInt8.toBitVec_and,
    BitVec.getLsbD_and, UInt8.toBitVec_not, BitVec.getLsbD_not, shifted_eq_twoPow hplace,
    BitVec.getLsbD_twoPow]
  simp [hplace, hother, Bool.and_comm]

/-- The bit that a mask picks out of a byte, most significant first. -/
theorem and_bitMask_ne_zero (byte : UInt8) (chunkIndex : ℕ) :
    (byte &&& bitMask chunkIndex != 0) = byte.toBitVec.getMsbD (chunkIndex % 8) := by
  have hplace : chunkIndex % 8 < 8 := Nat.mod_lt _ (by decide)
  rw [bitMask, and_shifted_ne_zero byte (by omega), BitVec.getMsbD, decide_eq_true hplace,
    Bool.true_and]

/-! ### The bitfield as a set of chunks -/

theorem byte_lt_length (bitfield : Bitfield) {index : ℕ} (hindex : index < bitfield.totalChunks) :
    index / 8 < bitfield.bytes.length := by
  rw [bitfield.length_bytes, requiredBytes]
  omega

/-- No chunk beyond the last is available. -/
theorem lt_of_has {bitfield : Bitfield} {index : ℕ} (hhas : bitfield.has index = true) :
    index < bitfield.totalChunks := by
  unfold has at hhas
  split_ifs at hhas with hout
  omega

@[simp] theorem has_new (totalChunks index : ℕ) : (new totalChunks).has index = false := by
  unfold has
  split_ifs with hout
  · rfl
  · have hbyte := (new totalChunks).byte_lt_length (not_le.mp hout)
    have hlength : index / 8 < requiredBytes totalChunks := by
      simpa [new] using hbyte
    simp [new, List.getD_eq_getElem?_getD, hlength]

@[simp] theorem totalChunks_new (totalChunks : ℕ) : (new totalChunks).totalChunks = totalChunks :=
  rfl

/-- Marking throws exactly for an index beyond the last chunk. -/
theorem set_isOk_iff {bitfield : Bitfield} {index : ℕ} :
    (∃ result, bitfield.set index = .ok result) ↔ index < bitfield.totalChunks := by
  unfold set
  split_ifs with hout
  · simp only [exists_false, false_iff]
    omega
  · simp only [Except.ok.injEq, exists_eq', true_iff]
    omega

theorem totalChunks_of_set {bitfield result : Bitfield} {index : ℕ}
    (hset : bitfield.set index = .ok result) : result.totalChunks = bitfield.totalChunks := by
  unfold set at hset
  split_ifs at hset
  rw [← Except.ok.inj hset]

theorem has_eq (bitfield : Bitfield) (index : ℕ) :
    bitfield.has index = (decide (index < bitfield.totalChunks) &&
      (bitfield.bytes.getD (index / 8) 0 &&& bitMask index != 0)) := by
  unfold has
  split_ifs with hout
  · simp [not_lt.mpr hout]
  · simp [not_le.mp hout]

/-- When the byte of a chunk is replaced, that of the chunks in other bytes stays. -/
theorem has_of_bytes {bitfield result : Bitfield} {index : ℕ} {byte : UInt8}
    (htotal : result.totalChunks = bitfield.totalChunks) (hindex : index < bitfield.totalChunks)
    (hbytes : result.bytes = bitfield.bytes.set (index / 8) byte) (other : ℕ) :
    result.has other = if other / 8 = index / 8 then
        decide (other < bitfield.totalChunks) && (byte &&& bitMask other != 0)
      else bitfield.has other := by
  rw [has_eq, has_eq, htotal, hbytes, List.getD_eq_getElem?_getD, List.getElem?_set]
  have hlength := bitfield.byte_lt_length hindex
  by_cases hbyte : index / 8 = other / 8
  · rw [if_pos hbyte, if_pos hlength, Option.getD_some, if_pos hbyte.symm]
  · rw [if_neg hbyte, if_neg (Ne.symm hbyte), ← List.getD_eq_getElem?_getD]

/-- After marking a chunk it is available, and every other chunk is as before. -/
theorem has_of_set {bitfield result : Bitfield} {index : ℕ}
    (hset : bitfield.set index = .ok result) (other : ℕ) :
    result.has other = (decide (other = index) || bitfield.has other) := by
  have hindex := set_isOk_iff.mp ⟨result, hset⟩
  have htotal := totalChunks_of_set hset
  unfold set at hset
  rw [if_neg (by omega)] at hset
  rw [has_of_bytes htotal hindex (congrArg Bitfield.bytes (Except.ok.inj hset)).symm]
  split_ifs with hbyte
  · have hplaces := or_shifted_and_ne_zero (bitfield.bytes.getD (index / 8) 0)
      (by omega : 7 - index % 8 < 8) (by omega : 7 - other % 8 < 8)
    have hsame : (7 - index % 8 = 7 - other % 8) ↔ other = index := by omega
    simp only [hsame] at hplaces
    rw [has_eq, hbyte, bitMask, bitMask, hplaces]
    by_cases hother : other = index
    · simp [hother, hindex]
    · simp [hother]
  · have hne : other ≠ index := fun heq ↦ hbyte (by rw [heq])
    simp [hne]

/-- Clearing throws exactly for an index beyond the last chunk. -/
theorem clear_isOk_iff {bitfield : Bitfield} {index : ℕ} :
    (∃ result, bitfield.clear index = .ok result) ↔ index < bitfield.totalChunks := by
  unfold clear
  split_ifs with hout
  · simp only [exists_false, false_iff]
    omega
  · simp only [Except.ok.injEq, exists_eq', true_iff]
    omega

theorem totalChunks_of_clear {bitfield result : Bitfield} {index : ℕ}
    (hclear : bitfield.clear index = .ok result) :
    result.totalChunks = bitfield.totalChunks := by
  unfold clear at hclear
  split_ifs at hclear
  rw [← Except.ok.inj hclear]

/-- After clearing a chunk it is missing, and every other chunk is as before. -/
theorem has_of_clear {bitfield result : Bitfield} {index : ℕ}
    (hclear : bitfield.clear index = .ok result) (other : ℕ) :
    result.has other = (!decide (other = index) && bitfield.has other) := by
  have htotal := totalChunks_of_clear hclear
  unfold clear at hclear
  split_ifs at hclear with hout
  rw [has_of_bytes htotal (not_le.mp hout) (congrArg Bitfield.bytes (Except.ok.inj hclear)).symm]
  split_ifs with hbyte
  · have hplaces := and_not_shifted_and_ne_zero (bitfield.bytes.getD (index / 8) 0)
      (by omega : 7 - index % 8 < 8) (by omega : 7 - other % 8 < 8)
    have hsame : (7 - index % 8 = 7 - other % 8) ↔ other = index := by omega
    simp only [hsame] at hplaces
    rw [has_eq, hbyte, bitMask, bitMask, hplaces]
    exact Bool.and_left_comm _ _ _
  · have hne : other ≠ index := fun heq ↦ hbyte (by rw [heq])
    simp [hne]

theorem mem_getMissingIndices {bitfield : Bitfield} {index : ℕ} :
    index ∈ bitfield.getMissingIndices ↔
      index < bitfield.totalChunks ∧ bitfield.has index = false := by
  simp [getMissingIndices]

theorem nodup_getMissingIndices (bitfield : Bitfield) : bitfield.getMissingIndices.Nodup :=
  List.nodup_range.filter _

/-- A bitfield is complete exactly when every chunk is available. -/
theorem isComplete_iff {bitfield : Bitfield} :
    bitfield.isComplete = true ↔ ∀ index < bitfield.totalChunks, bitfield.has index = true := by
  have hall : bitfield.count = bitfield.totalChunks ↔
      ∀ index < bitfield.totalChunks, bitfield.has index = true := by
    have hlength : (List.range bitfield.totalChunks).length = bitfield.totalChunks :=
      List.length_range
    rw [count]
    nth_rewrite 2 [← hlength]
    rw [List.countP_eq_length]
    simp
  unfold isComplete
  split_ifs with hzero
  · simp [hzero]
  · rw [decide_eq_true_eq, hall]

/-- An incomplete bitfield has a missing chunk. -/
theorem getMissingIndices_ne_nil {bitfield : Bitfield} (hincomplete : bitfield.isComplete = false) :
    bitfield.getMissingIndices ≠ [] := by
  intro hnil
  have hcomplete : bitfield.isComplete = true := isComplete_iff.mpr fun index hindex ↦ by
    by_contra hmissing
    have hmem := mem_getMissingIndices.mpr ⟨hindex, by simpa using hmissing⟩
    rw [hnil] at hmem
    simp at hmem
  rw [hincomplete] at hcomplete
  exact absurd hcomplete (by simp)

/-- More available chunks count for more. -/
theorem count_mono {bitfield result : Bitfield} (htotal : result.totalChunks = bitfield.totalChunks)
    (hmarks : ∀ chunkIndex, bitfield.has chunkIndex = true → result.has chunkIndex = true) :
    bitfield.count ≤ result.count := by
  unfold count
  rw [htotal]
  exact List.countP_mono_left fun chunkIndex _ ↦ hmarks chunkIndex

/-- Marking a missing chunk adds one to the count. -/
theorem count_of_set {bitfield result : Bitfield} {index : ℕ}
    (hset : bitfield.set index = .ok result) (hmissing : bitfield.has index = false) :
    result.count = bitfield.count + 1 := by
  have hindex := set_isOk_iff.mp ⟨result, hset⟩
  have hsplit : ∀ chunks : List ℕ, chunks.Nodup → chunks.countP result.has =
      chunks.countP bitfield.has + if index ∈ chunks then 1 else 0 := by
    intro chunks
    induction chunks with
    | nil => simp
    | cons chunk rest ih =>
      intro hnodup
      obtain ⟨hfresh, hrest⟩ := List.nodup_cons.mp hnodup
      rw [List.countP_cons, List.countP_cons, ih hrest, has_of_set hset chunk]
      by_cases hchunk : chunk = index
      · subst hchunk
        simp [hmissing, hfresh]
      · have hne : index ≠ chunk := fun heq ↦ hchunk heq.symm
        simp only [hchunk, decide_false, Bool.false_or, List.mem_cons, hne, false_or]
        omega
  rw [count, count, totalChunks_of_set hset, hsplit _ List.nodup_range,
    if_pos (List.mem_range.mpr hindex)]

end Bitfield

end CampusMesh.Shared
