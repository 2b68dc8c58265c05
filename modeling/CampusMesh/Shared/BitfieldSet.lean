import CampusMesh.Library.Runs
import CampusMesh.Shared.Bitfield
import Mathlib.Data.Finset.Sort

/-!
# Bitfields are sets of chunks

`Bitfield` as the program computes it: indices are numbers, which may be negative, the operators
`<<`, `|`, `&` and `~` work on 32-bit integers, and writing to the byte array reduces modulo 256.
These operations are those on bytes (`setAt_natCast`, `clearAt_natCast`, `hasAt_natCast`), and so
after any calls a bitfield is the set of the chunks that were marked in its bytes and by the calls
(`bitfield_represents`), whatever the padding bits are.
-/

set_option autoImplicit false
set_option relaxedAutoImplicit false

namespace CampusMesh.Shared

open Library

namespace Bitfield

/-! ### Operations -/

/-- `1 << (7 - (chunkIndex % 8))`, a 32-bit integer. -/
def mask32 (chunkIndex : ℕ) : BitVec 32 := 1#32 <<< (7 - chunkIndex % 8)

/-- A byte of the array as an operand. -/
def int32 (byte : UInt8) : BitVec 32 := byte.toBitVec.setWidth 32

/-- The byte that is stored when a number is written to the array. -/
def storedByte (value : BitVec 32) : UInt8 := UInt8.ofBitVec (value.setWidth 8)

/-- `assertBounds(index)`. -/
def assertBounds (bitfield : Bitfield) (index : ℤ) : Except JsError Unit :=
  if index < 0 ∨ bitfield.totalChunks ≤ index then
    .error (.rangeError ("Chunk index " ++ toString index ++
      " is out of bounds for bitfield with " ++ toString bitfield.totalChunks ++ " chunks"))
  else .ok ()

/-- The byte at an index. -/
def byteAt (bitfield : Bitfield) (byteIdx : ℕ) : UInt8 := bitfield.bytes.getD byteIdx 0

/-- Replaces the byte at an index. -/
def writeByte (bitfield : Bitfield) (byteIdx : ℕ) (value : BitVec 32) : Bitfield :=
  { bitfield with
    bytes := bitfield.bytes.set byteIdx (storedByte value)
    length_bytes := by rw [List.length_set, bitfield.length_bytes] }

/-- `set(chunkIndex)`. -/
def setAt (bitfield : Bitfield) (chunkIndex : ℤ) : Except JsError Bitfield := do
  bitfield.assertBounds chunkIndex
  let byteIdx := chunkIndex.toNat / 8
  return bitfield.writeByte byteIdx (int32 (bitfield.byteAt byteIdx) ||| mask32 chunkIndex.toNat)

/-- `clear(chunkIndex)`. -/
def clearAt (bitfield : Bitfield) (chunkIndex : ℤ) : Except JsError Bitfield := do
  bitfield.assertBounds chunkIndex
  let byteIdx := chunkIndex.toNat / 8
  return bitfield.writeByte byteIdx (int32 (bitfield.byteAt byteIdx) &&& ~~~mask32 chunkIndex.toNat)

/-- `has(chunkIndex)`. -/
def hasAt (bitfield : Bitfield) (chunkIndex : ℤ) : Bool :=
  if chunkIndex < 0 ∨ bitfield.totalChunks ≤ chunkIndex then false
  else (int32 (bitfield.byteAt (chunkIndex.toNat / 8)) &&& mask32 chunkIndex.toNat) != 0

/-- `Bitfield.all(totalChunks)`. -/
def all (totalChunks : ℕ) : Except JsError Bitfield :=
  (List.range totalChunks).foldlM (fun bitfield (chunkIndex : ℕ) ↦ bitfield.setAt chunkIndex)
    (new totalChunks)

/-! ### 32-bit integers and bytes -/

theorem setWidth_mask32 (chunkIndex : ℕ) :
    (mask32 chunkIndex).setWidth 8 = (bitMask chunkIndex).toBitVec := by
  have hplace : 7 - chunkIndex % 8 < 8 := by omega
  unfold mask32 bitMask
  generalize 7 - chunkIndex % 8 = place at hplace
  interval_cases place <;> decide

theorem mask32_eq (chunkIndex : ℕ) :
    mask32 chunkIndex = (bitMask chunkIndex).toBitVec.setWidth 32 := by
  have hplace : 7 - chunkIndex % 8 < 8 := by omega
  unfold mask32 bitMask
  generalize 7 - chunkIndex % 8 = place at hplace
  interval_cases place <;> decide

theorem storedByte_or (byte : UInt8) (chunkIndex : ℕ) :
    storedByte (int32 byte ||| mask32 chunkIndex) = byte ||| bitMask chunkIndex := by
  refine UInt8.toBitVec_inj.mp ?_
  rw [storedByte, BitVec.setWidth_or, setWidth_mask32, int32, BitVec.setWidth_setWidth_of_le _
    (by decide), BitVec.setWidth_eq]
  rfl

theorem storedByte_and_not (byte : UInt8) (chunkIndex : ℕ) :
    storedByte (int32 byte &&& ~~~mask32 chunkIndex) = byte &&& ~~~bitMask chunkIndex := by
  refine UInt8.toBitVec_inj.mp ?_
  rw [storedByte, BitVec.setWidth_and, BitVec.setWidth_not (by decide), setWidth_mask32, int32,
    BitVec.setWidth_setWidth_of_le _ (by decide), BitVec.setWidth_eq]
  rfl

theorem int32_and_ne_zero (byte : UInt8) (chunkIndex : ℕ) :
    ((int32 byte &&& mask32 chunkIndex) != 0) = ((byte &&& bitMask chunkIndex) != 0) := by
  rw [int32, mask32_eq, ← BitVec.setWidth_and, ← UInt8.toBitVec_and, Bool.eq_iff_iff, bne_iff_ne,
    bne_iff_ne, not_iff_not, ← UInt8.toBitVec_inj]
  constructor
  · intro hzero
    have hback := congrArg (BitVec.setWidth 8) hzero
    rw [BitVec.setWidth_setWidth_of_le _ (by decide), BitVec.setWidth_eq] at hback
    exact hback
  · intro hzero
    rw [hzero]
    rfl

/-! ### Indices -/

variable {bitfield : Bitfield}

theorem hasAt_natCast (chunkIndex : ℕ) :
    bitfield.hasAt chunkIndex = bitfield.has chunkIndex := by
  unfold hasAt has
  rw [Int.toNat_natCast, byteAt, int32_and_ne_zero]
  refine if_congr ?_ rfl rfl
  omega

/-- An index is refused just when it is not one of a chunk. -/
theorem assertBounds_eq (index : ℤ) :
    (∃ error, bitfield.assertBounds index = .error error) ∧
        (index < 0 ∨ bitfield.totalChunks ≤ index) ∨
      bitfield.assertBounds index = .ok () ∧ 0 ≤ index ∧ index < bitfield.totalChunks := by
  unfold assertBounds
  split_ifs with hout
  · exact Or.inl ⟨⟨_, rfl⟩, hout⟩
  · exact Or.inr ⟨rfl, by omega, by omega⟩

theorem assertBounds_natCast (index : ℕ) : bitfield.assertBounds index =
    if bitfield.totalChunks ≤ index then .error (bitfield.outOfBounds index) else .ok () := by
  refine if_congr ?_ rfl rfl
  omega

theorem setAt_natCast (chunkIndex : ℕ) :
    bitfield.setAt chunkIndex = bitfield.set chunkIndex := by
  rw [setAt, set, assertBounds_natCast, Int.toNat_natCast]
  split_ifs
  · rfl
  · change Except.ok (bitfield.writeByte (chunkIndex / 8) _) = _
    simp only [writeByte, storedByte_or]
    rfl

theorem clearAt_natCast (chunkIndex : ℕ) :
    bitfield.clearAt chunkIndex = bitfield.clear chunkIndex := by
  rw [clearAt, clear, assertBounds_natCast, Int.toNat_natCast]
  split_ifs
  · rfl
  · change Except.ok (bitfield.writeByte (chunkIndex / 8) _) = _
    simp only [writeByte, storedByte_and_not]
    rfl

end Bitfield

/-! ### The tracked set -/

/-- A call that changes a bitfield. -/
inductive BitfieldCall
  | set (chunkIndex : ℤ)
  | clear (chunkIndex : ℤ)

namespace BitfieldCall

def chunkIndex : BitfieldCall → ℤ
  | set chunkIndex | clear chunkIndex => chunkIndex

/-- The call on a bitfield. -/
def perform (bitfield : Bitfield) : BitfieldCall → Except JsError Bitfield
  | set chunkIndex => bitfield.setAt chunkIndex
  | clear chunkIndex => bitfield.clearAt chunkIndex

/-- The call on a set of chunks; nothing happens outside of the chunks that there are. -/
def track (totalChunks : ℕ) (tracked : Finset ℕ) (call : BitfieldCall) : Finset ℕ :=
  if 0 ≤ call.chunkIndex ∧ call.chunkIndex < totalChunks then
    match call with
    | set chunkIndex => insert chunkIndex.toNat tracked
    | clear chunkIndex => tracked.erase chunkIndex.toNat
  else tracked

end BitfieldCall

/-- The bitfield after a call, which changes nothing when it throws. -/
def bitfieldStep (bitfield : Bitfield) (call : BitfieldCall) : Bitfield :=
  match call.perform bitfield with
  | .ok next => next
  | .error _ => bitfield

/-- The chunks that are marked in bytes, most significant bit first. -/
def markedIn (totalChunks : ℕ) (bytes : Bytes) : Finset ℕ :=
  (Finset.range totalChunks).filter fun chunk ↦
    (bytes.getD (chunk / 8) 0).toBitVec.getMsbD (chunk % 8) = true

/-- The bitfield is a set of chunks: whatever is asked of it is answered from the set, calls on
other indices throw, and the bytes give the same bitfield again. -/
structure Represents (bitfield : Bitfield) (totalChunks : ℕ) (tracked : Finset ℕ) : Prop where
  has : ∀ index : ℤ, bitfield.hasAt index = true ↔ ∃ chunk ∈ tracked, index = chunk
  within : tracked ⊆ Finset.range totalChunks
  throws : ∀ call : BitfieldCall, (∃ error, call.perform bitfield = .error error) ↔
    call.chunkIndex < 0 ∨ totalChunks ≤ call.chunkIndex
  count : bitfield.count = tracked.card
  available : bitfield.getAvailableIndices = tracked.sort (· ≤ ·)
  missing : bitfield.getMissingIndices = (Finset.range totalChunks \ tracked).sort (· ≤ ·)
  complete : bitfield.isComplete = true ↔ tracked = Finset.range totalChunks
  roundTrip : Bitfield.fromBytes totalChunks bitfield.toBytes = .ok bitfield

/-- The available chunks are those of the set. -/
structure Tracks (bitfield : Bitfield) (totalChunks : ℕ) (tracked : Finset ℕ) : Prop where
  totalChunks : bitfield.totalChunks = totalChunks
  has : ∀ chunk, bitfield.has chunk = true ↔ chunk ∈ tracked

section Tracking

variable {bitfield : Bitfield} {totalChunks : ℕ} {tracked : Finset ℕ}

theorem Tracks.within (htracks : Tracks bitfield totalChunks tracked) :
    tracked ⊆ Finset.range totalChunks := by
  intro chunk hchunk
  rw [Finset.mem_range, ← htracks.totalChunks]
  exact Bitfield.lt_of_has ((htracks.has chunk).mpr hchunk)

/-- The chunks that pass a test, in ascending order. -/
theorem filter_range_eq_sort {test : ℕ → Bool} {chunks : Finset ℕ}
    (hmem : ∀ chunk, chunk ∈ chunks ↔ chunk < totalChunks ∧ test chunk = true) :
    (List.range totalChunks).filter test = chunks.sort (· ≤ ·) := by
  have hnodup : ((List.range totalChunks).filter test).Nodup := List.nodup_range.filter _
  have hsorted : ((List.range totalChunks).filter test).Pairwise (· ≤ ·) :=
    List.pairwise_le_range.filter _
  rw [← (List.toFinset_sort (· ≤ ·) hnodup).mpr hsorted]
  congr 1
  ext chunk
  rw [List.mem_toFinset, List.mem_filter, List.mem_range, hmem]

theorem Tracks.available (htracks : Tracks bitfield totalChunks tracked) :
    bitfield.getAvailableIndices = tracked.sort (· ≤ ·) := by
  rw [Bitfield.getAvailableIndices, htracks.totalChunks]
  refine filter_range_eq_sort fun chunk ↦ ?_
  rw [htracks.has]
  exact (and_iff_right_of_imp fun hchunk ↦ Finset.mem_range.mp (htracks.within hchunk)).symm

theorem Tracks.missing (htracks : Tracks bitfield totalChunks tracked) :
    bitfield.getMissingIndices = (Finset.range totalChunks \ tracked).sort (· ≤ ·) := by
  rw [Bitfield.getMissingIndices, htracks.totalChunks]
  refine filter_range_eq_sort fun chunk ↦ ?_
  rw [Finset.mem_sdiff, Finset.mem_range, ← htracks.has]
  simp

theorem Tracks.count (htracks : Tracks bitfield totalChunks tracked) :
    bitfield.count = tracked.card := by
  rw [Bitfield.count, List.countP_eq_length_filter]
  exact (congrArg List.length htracks.available).trans (Finset.length_sort _)

theorem Tracks.complete (htracks : Tracks bitfield totalChunks tracked) :
    bitfield.isComplete = true ↔ tracked = Finset.range totalChunks := by
  rw [Bitfield.isComplete_iff, htracks.totalChunks]
  constructor
  · intro hall
    exact htracks.within.antisymm fun chunk hchunk ↦
      (htracks.has chunk).mp (hall chunk (Finset.mem_range.mp hchunk))
  · intro hall chunk hchunk
    rw [htracks.has, hall]
    exact Finset.mem_range.mpr hchunk

/-- Asking for any number: negative ones and those past the last chunk are not in the set. -/
theorem Tracks.hasAt (htracks : Tracks bitfield totalChunks tracked) (index : ℤ) :
    bitfield.hasAt index = true ↔ ∃ chunk ∈ tracked, index = chunk := by
  rcases lt_or_ge index 0 with hnegative | hnatural
  · rw [Bitfield.hasAt, if_pos (Or.inl hnegative)]
    refine iff_of_false Bool.false_ne_true ?_
    rintro ⟨chunk, _, rfl⟩
    omega
  · lift index to ℕ using hnatural
    rw [Bitfield.hasAt_natCast, htracks.has]
    constructor
    · exact fun hchunk ↦ ⟨index, hchunk, rfl⟩
    · rintro ⟨chunk, hchunk, hsame⟩
      rwa [Int.ofNat_inj.mp hsame]

/-- A call throws, and leaves set and bitfield as they are, just when its index is not one of a
chunk; otherwise it does to the bitfield what it does to the set. -/
theorem Tracks.perform (htracks : Tracks bitfield totalChunks tracked) (call : BitfieldCall) :
    (∃ error, call.perform bitfield = .error error) ∧
        (call.chunkIndex < 0 ∨ totalChunks ≤ call.chunkIndex) ∨
      (0 ≤ call.chunkIndex ∧ call.chunkIndex < totalChunks) ∧
        ∃ next, call.perform bitfield = .ok next ∧
          Tracks next totalChunks (call.track totalChunks tracked) := by
  rcases bitfield.assertBounds_eq call.chunkIndex with
    ⟨⟨error, herror⟩, hout⟩ | ⟨_, hnatural, hbound⟩
  · rw [htracks.totalChunks] at hout
    refine Or.inl ⟨⟨error, ?_⟩, hout⟩
    cases call with
    | set index =>
      rw [BitfieldCall.perform, Bitfield.setAt, show bitfield.assertBounds index = _ from herror]
      rfl
    | clear index =>
      rw [BitfieldCall.perform, Bitfield.clearAt, show bitfield.assertBounds index = _ from herror]
      rfl
  · have hlimit := hbound
    rw [htracks.totalChunks] at hlimit
    refine Or.inr ⟨⟨hnatural, hlimit⟩, ?_⟩
    cases call with
    | set index =>
      rw [BitfieldCall.track, if_pos ⟨hnatural, hlimit⟩]
      change 0 ≤ index at hnatural
      lift index to ℕ using hnatural
      obtain ⟨next, hset⟩ := Bitfield.set_isOk_iff.mpr (Int.ofNat_lt.mp hbound)
      refine ⟨next, (bitfield.setAt_natCast index).trans hset,
        (Bitfield.totalChunks_of_set hset).trans htracks.totalChunks, fun chunk ↦ ?_⟩
      rw [Bitfield.has_of_set hset, Bool.or_eq_true, decide_eq_true_eq, htracks.has]
      exact Finset.mem_insert.symm
    | clear index =>
      rw [BitfieldCall.track, if_pos ⟨hnatural, hlimit⟩]
      change 0 ≤ index at hnatural
      lift index to ℕ using hnatural
      obtain ⟨next, hclear⟩ := Bitfield.clear_isOk_iff.mpr (Int.ofNat_lt.mp hbound)
      refine ⟨next, (bitfield.clearAt_natCast index).trans hclear,
        (Bitfield.totalChunks_of_clear hclear).trans htracks.totalChunks, fun chunk ↦ ?_⟩
      rw [Bitfield.has_of_clear hclear, Bool.and_eq_true, Bool.not_eq_true',
        decide_eq_false_iff_not, htracks.has]
      exact Finset.mem_erase.symm

theorem Tracks.throws_iff (htracks : Tracks bitfield totalChunks tracked) (call : BitfieldCall) :
    (∃ error, call.perform bitfield = .error error) ↔
      call.chunkIndex < 0 ∨ totalChunks ≤ call.chunkIndex := by
  rcases htracks.perform call with ⟨hthrows, hout⟩ | ⟨⟨hnatural, hlimit⟩, next, hnext, _⟩
  · exact iff_of_true hthrows hout
  · refine iff_of_false ?_ (by omega)
    rintro ⟨error, herror⟩
    rw [hnext] at herror
    exact absurd herror (by simp)

/-- Every call does the same to the bitfield and to the set. -/
theorem Tracks.step (htracks : Tracks bitfield totalChunks tracked) (call : BitfieldCall) :
    Tracks (bitfieldStep bitfield call) totalChunks (call.track totalChunks tracked) := by
  rcases htracks.perform call with ⟨⟨error, herror⟩, hout⟩ | ⟨_, next, hnext, hsame⟩
  · have hkept : call.track totalChunks tracked = tracked := by
      rw [BitfieldCall.track.eq_def, if_neg (by omega)]
    rw [bitfieldStep, herror, hkept]
    exact htracks
  · rw [bitfieldStep, hnext]
    exact hsame

theorem Tracks.run (htracks : Tracks bitfield totalChunks tracked) (calls : List BitfieldCall) :
    Tracks (Library.run bitfieldStep bitfield calls) totalChunks
      (Library.run (BitfieldCall.track totalChunks) tracked calls) := by
  induction calls generalizing bitfield tracked with
  | nil => exact htracks
  | cons call rest ih => exact ih (htracks.step call)

theorem Tracks.represents (htracks : Tracks bitfield totalChunks tracked) :
    Represents bitfield totalChunks tracked where
  has := htracks.hasAt
  within := htracks.within
  throws := htracks.throws_iff
  count := htracks.count
  available := htracks.available
  missing := htracks.missing
  complete := htracks.complete
  roundTrip := by
    obtain rfl := htracks.totalChunks
    exact dif_pos bitfield.length_bytes

/-- A bitfield made from bytes is the set of the chunks that are marked in them. -/
theorem tracks_fromBytes {bytes : Bytes} (hlength : bytes.length = requiredBytes totalChunks) :
    Tracks ⟨totalChunks, bytes, hlength⟩ totalChunks (markedIn totalChunks bytes) := by
  refine ⟨rfl, fun chunk ↦ ?_⟩
  rw [Bitfield.has_eq, Bitfield.and_bitMask_ne_zero, markedIn, Finset.mem_filter, Finset.mem_range,
    Bool.and_eq_true, decide_eq_true_eq]

/-- A new bitfield is the empty set. -/
theorem tracks_new (totalChunks : ℕ) : Tracks (Bitfield.new totalChunks) totalChunks ∅ :=
  ⟨rfl, fun chunk ↦ by simp⟩

/-- Setting the first chunks, one after the other. -/
theorem tracks_foldlM {count : ℕ} (hcount : count ≤ totalChunks) :
    ∃ bitfield, (List.range count).foldlM
        (fun bitfield (chunkIndex : ℕ) ↦ Bitfield.setAt bitfield chunkIndex)
        (Bitfield.new totalChunks) = .ok bitfield ∧
      Tracks bitfield totalChunks (Finset.range count) := by
  induction count with
  | zero => exact ⟨_, rfl, tracks_new totalChunks⟩
  | succ count ih =>
    obtain ⟨bitfield, hfold, htracks⟩ := ih (by omega)
    rcases htracks.perform (.set count) with ⟨_, hout⟩ | ⟨hin, next, hnext, hsame⟩
    · exact absurd hout (by simp only [BitfieldCall.chunkIndex]; omega)
    · rw [BitfieldCall.track, if_pos hin] at hsame
      refine ⟨next, ?_, ?_⟩
      · rw [List.range_succ, List.foldlM_append, hfold]
        exact (bind_pure _).trans hnext
      · rw [Finset.range_add_one]
        exact hsame

end Tracking

/-- **A bitfield is a set of chunks.** Made from any bytes of the right number, whatever their
padding bits are, and after any calls, it represents the set of the chunks marked in the bytes as
the calls change it; and `Bitfield.all` is complete. -/
theorem bitfield_represents (totalChunks : ℕ) (bytes : Bytes)
    (hlength : bytes.length = requiredBytes totalChunks) (calls : List BitfieldCall) :
    (∃ bitfield, Bitfield.fromBytes totalChunks bytes = .ok bitfield ∧
      Represents (run bitfieldStep bitfield calls) totalChunks
        (run (BitfieldCall.track totalChunks) (markedIn totalChunks bytes) calls)) ∧
    ∃ full, Bitfield.all totalChunks = .ok full ∧ full.isComplete = true ∧
      Represents full totalChunks (Finset.range totalChunks) := by
  constructor
  · exact ⟨⟨totalChunks, bytes, hlength⟩, dif_pos hlength,
      ((tracks_fromBytes hlength).run calls).represents⟩
  · obtain ⟨full, hall, htracks⟩ := tracks_foldlM (le_refl totalChunks)
    exact ⟨full, hall, htracks.complete.mpr rfl, htracks.represents⟩

/-- Padding bits are set, and calls are in and out of bounds. -/
theorem bitfield_represents_padded : ∃ bitfield, Bitfield.fromBytes 5 [0xAF] = .ok bitfield ∧
    (run bitfieldStep bitfield [.set 1, .clear 0, .set 5, .clear (-1)]).count = 3 := by
  obtain ⟨⟨bitfield, hbytes, hrepresents⟩, _⟩ :=
    bitfield_represents 5 [0xAF] rfl [.set 1, .clear 0, .set 5, .clear (-1)]
  exact ⟨bitfield, hbytes, hrepresents.count.trans (by decide)⟩

end CampusMesh.Shared
