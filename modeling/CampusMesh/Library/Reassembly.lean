import CampusMesh.Library.ByteBuffer
import CampusMesh.Library.Slicing
import Mathlib.Algebra.Order.BigOperators.Group.Finset
import Mathlib.Order.Interval.Finset.Nat

/-!
# Putting slices together in any order

The slices of a sequence come in any order. Which have come is a set of indices; the number of items
in them says whether that set is complete (`sum_length_slice_eq_iff`), because every slice has some.
Writing slices at their places in a buffer makes it agree with the sequence on the positions they
cover (`Filled`), so once every position is covered the buffer is the sequence.
-/

set_option autoImplicit false
set_option relaxedAutoImplicit false

namespace CampusMesh.Library

open Finset

universe u

variable {α : Type u} {size : ℕ} {items : List α}

/-! ### Counting -/

/-- All slices together have as many items as the sequence. -/
theorem sum_length_slice (hsize : 0 < size) (items : List α) :
    ∑ index ∈ range (sliceCount size items.length), (slice size items index).length =
      items.length := by
  have hlength := congrArg List.length (flatMap_slice hsize items)
  rw [List.length_flatMap] at hlength
  exact hlength

/-- A slice has an item. -/
theorem length_slice_pos (hsize : 0 < size) {index : ℕ}
    (hindex : index < sliceCount size items.length) : 0 < (slice size items index).length := by
  have hstart := mul_lt_length_of_lt_sliceCount hsize hindex
  rw [length_slice]
  omega

/-- The slices that have come have all items exactly when all have come. -/
theorem sum_length_slice_eq_iff (hsize : 0 < size) {received : Finset ℕ}
    (hreceived : received ⊆ range (sliceCount size items.length)) :
    items.length ≤ ∑ index ∈ received, (slice size items index).length ↔
      received = range (sliceCount size items.length) := by
  refine ⟨fun henough ↦ hreceived.antisymm fun index hindex ↦ ?_, fun hall ↦ ?_⟩
  · by_contra hmissing
    have hless : ∑ index ∈ received, (slice size items index).length <
        ∑ index ∈ range (sliceCount size items.length), (slice size items index).length :=
      sum_lt_sum_of_subset hreceived hindex hmissing
        (length_slice_pos hsize (mem_range.mp hindex)) fun _ _ _ ↦ Nat.zero_le _
    rw [sum_length_slice hsize items] at hless
    exact absurd henough (Nat.not_le_of_lt hless)
  · rw [hall, sum_length_slice hsize items]

/-! ### Filling a buffer -/

/-- A buffer agrees with a sequence of the same length on some positions. -/
structure Filled (items : List α) (covered : Set ℕ) (buffer : List α) : Prop where
  length : buffer.length = items.length
  agrees : ∀ position ∈ covered, buffer[position]? = items[position]?

theorem filled_empty {buffer : List α} (hlength : buffer.length = items.length) :
    Filled items ∅ buffer :=
  ⟨hlength, fun _ hmem ↦ hmem.elim⟩

/-- The piece is what the sequence has at its offset. -/
def IsPieceOf (items : List α) (piece : ℕ × List α) : Prop :=
  piece.1 + piece.2.length ≤ items.length ∧ (items.drop piece.1).take piece.2.length = piece.2

/-- The positions of a piece. -/
def positions (piece : ℕ × List α) : Finset ℕ := Ico piece.1 (piece.1 + piece.2.length)

/-- A piece that is written at its place fills its positions. -/
theorem Filled.blit {covered : Set ℕ} {buffer : List α} (hfilled : Filled items covered buffer)
    {piece : ℕ × List α} (hpiece : IsPieceOf items piece) :
    ∃ result, blit buffer piece.1 piece.2 = some result ∧
      Filled items (covered ∪ positions piece) result := by
  obtain ⟨hfits, hdata⟩ := hpiece
  rw [← hfilled.length] at hfits
  refine ⟨_, if_pos hfits, ?_, fun position hposition ↦ ?_⟩
  · rw [← hfilled.length, List.length_append, List.length_append, List.length_take,
      List.length_drop]
    omega
  rw [List.append_assoc, List.getElem?_append, List.length_take, min_eq_left (by omega)]
  split_ifs with hbefore
  · -- in front of the piece nothing changes
    rw [List.getElem?_take_of_lt hbefore]
    rcases hposition with hold | hnew
    · exact hfilled.agrees position hold
    · exact absurd (mem_Ico.mp hnew).1 (Nat.not_le_of_lt hbefore)
  · rw [List.getElem?_append]
    split_ifs with hinside
    · rw [← hdata, List.getElem?_take_of_lt hinside, List.getElem?_drop,
        Nat.add_sub_cancel' (Nat.le_of_not_lt hbefore)]
    · -- behind it the buffer is as before
      rw [List.getElem?_drop, show piece.1 + piece.2.length +
        (position - piece.1 - piece.2.length) = position by omega]
      rcases hposition with hold | hnew
      · exact hfilled.agrees position hold
      · exact absurd (mem_Ico.mp hnew).2 (by omega)

/-- A buffer filled everywhere is the sequence. -/
theorem Filled.eq {covered : Set ℕ} {buffer : List α} (hfilled : Filled items covered buffer)
    (hall : ∀ position < items.length, position ∈ covered) : buffer = items := by
  refine List.ext_getElem? fun position ↦ ?_
  by_cases hposition : position < items.length
  · exact hfilled.agrees position (hall position hposition)
  · rw [List.getElem?_eq_none (by rw [hfilled.length]; omega), List.getElem?_eq_none (by omega)]

/-! ### Slices -/

/-- The positions of a slice. -/
def slicePositions (size index : ℕ) : Set ℕ :=
  {position | index * size ≤ position ∧ position < (index + 1) * size}

/-- A slice is what the sequence has at its place. -/
theorem isPieceOf_slice (hsize : 0 < size) {index : ℕ}
    (hindex : index < sliceCount size items.length) :
    IsPieceOf items (index * size, slice size items index) := by
  have hstart := mul_lt_length_of_lt_sliceCount hsize hindex
  have hlength := length_slice size items index
  refine ⟨?_, ?_⟩
  · rw [hlength]
    omega
  · rw [hlength, slice, List.take_eq_take_iff, List.length_drop]
    omega

/-- It has all of its positions up to the end of the sequence. -/
theorem mem_positions_slice {index position : ℕ} (hmem : position ∈ slicePositions size index)
    (hposition : position < items.length) :
    position ∈ positions (index * size, slice size items index) := by
  obtain ⟨hstart, hend⟩ := hmem
  rw [Nat.add_mul, Nat.one_mul] at hend
  rw [positions, mem_Ico, length_slice]
  omega

/-- The slices cover every position. -/
theorem exists_slicePositions (hsize : 0 < size) {length position : ℕ}
    (hposition : position < length) :
    ∃ index < sliceCount size length, position ∈ slicePositions size index := by
  have hdiv := Nat.div_add_mod position size
  have hmod := Nat.mod_lt position hsize
  have hbounds : position / size * size ≤ position ∧ position < (position / size + 1) * size := by
    rw [Nat.add_mul, Nat.one_mul, Nat.mul_comm]
    omega
  refine ⟨position / size, ?_, hbounds⟩
  have hcount := length_le_sliceCount_mul hsize length
  exact Nat.lt_of_mul_lt_mul_right (hbounds.1.trans_lt (hposition.trans_le hcount))

end CampusMesh.Library
