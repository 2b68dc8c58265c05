import Mathlib.Data.List.Range
import Mathlib.Data.Rat.Floor
import Mathlib.Tactic.Ring

/-!
# Cutting a sequence into slices of one size

`slice size items index` is the part of a sequence that starts at `index * size`; all slices but the
last are of the full size. The slices that meet a sequence are `sliceCount` many, and one after the
other they are the sequence (`flatMap_slice`). A slice that is complete does not change when the
sequence grows (`slice_append`), which is why a sequence can be cut while it is being read.
-/

set_option autoImplicit false
set_option relaxedAutoImplicit false

namespace CampusMesh.Library

universe u

variable {α : Type u} {size : ℕ}

/-- The slice at an index. -/
def slice (size : ℕ) (items : List α) (index : ℕ) : List α := (items.drop (index * size)).take size

/-- The number of slices of a sequence: its length over the size, rounded up. -/
def sliceCount (size length : ℕ) : ℕ := (length + size - 1) / size

theorem length_slice (size : ℕ) (items : List α) (index : ℕ) :
    (slice size items index).length = min size (items.length - index * size) := by
  rw [slice, List.length_take, List.length_drop]

/-- A complete slice stays as it is when the sequence grows. -/
theorem slice_append {front : List α} {index : ℕ} (hcomplete : (index + 1) * size ≤ front.length)
    (back : List α) : slice size (front ++ back) index = slice size front index := by
  have hstart : index * size + size ≤ front.length := by
    rwa [Nat.add_mul, Nat.one_mul] at hcomplete
  have hdrop : index * size ≤ front.length := by omega
  have htake : size ≤ (front.drop (index * size)).length := by
    rw [List.length_drop]
    omega
  rw [slice, slice, List.drop_append_of_le_length hdrop, List.take_append_of_le_length htake]

/-- The first slices, one after the other. -/
theorem flatMap_slice_range (size : ℕ) (items : List α) (count : ℕ) :
    (List.range count).flatMap (slice size items) = items.take (count * size) := by
  induction count with
  | zero => rw [List.range_zero, List.flatMap_nil, Nat.zero_mul, List.take_zero]
  | succ count ih =>
    rw [List.range_succ, List.flatMap_append, ih, List.flatMap_singleton, slice, Nat.add_mul,
      Nat.one_mul, List.take_add]

/-- There are enough slices. -/
theorem length_le_sliceCount_mul (hsize : 0 < size) (length : ℕ) :
    length ≤ sliceCount size length * size := by
  have hmod := Nat.mod_lt (length + size - 1) hsize
  have hdiv := Nat.div_add_mod (length + size - 1) size
  rw [sliceCount, Nat.mul_comm]
  omega

/-- Every slice but the last is complete. -/
theorem mul_lt_length_of_lt_sliceCount (hsize : 0 < size) {length index : ℕ}
    (hindex : index < sliceCount size length) : index * size < length := by
  have hle : (index + 1) * size ≤ length + size - 1 :=
    (Nat.le_div_iff_mul_le hsize).mp hindex
  rw [Nat.add_mul, Nat.one_mul] at hle
  omega

/-- **All slices.** One after the other they are the sequence. -/
theorem flatMap_slice (hsize : 0 < size) (items : List α) :
    (List.range (sliceCount size items.length)).flatMap (slice size items) = items := by
  rw [flatMap_slice_range]
  exact List.take_of_length_le (length_le_sliceCount_mul hsize items.length)

/-- The number of slices when so many are complete and some items are left. -/
theorem sliceCount_of_rest {length count : ℕ} (hrest : 0 < length - count * size)
    (hlast : length - count * size < size) : sliceCount size length = count + 1 := by
  have hsize : 0 < size := hrest.trans hlast
  have hsum : length + size - 1 = (length - count * size - 1) + size * (count + 1) := by
    rw [Nat.mul_add, Nat.mul_one, Nat.mul_comm size count]
    omega
  rw [sliceCount, hsum, Nat.add_mul_div_left _ _ hsize, Nat.div_eq_of_lt (by omega), Nat.zero_add]

/-- The number of slices when nothing is left. -/
theorem sliceCount_of_whole (hsize : 0 < size) {length count : ℕ} (hwhole : length = count * size) :
    sliceCount size length = count := by
  have hsum : length + size - 1 = (size - 1) + size * count := by
    rw [hwhole, Nat.mul_comm count size]
    omega
  rw [sliceCount, hsum, Nat.add_mul_div_left _ _ hsize, Nat.div_eq_of_lt (by omega), Nat.zero_add]

/-- So many slices cover a sequence, and no fewer. -/
theorem sliceCount_le_iff (hsize : 0 < size) {length count : ℕ} :
    sliceCount size length ≤ count ↔ length ≤ count * size := by
  constructor
  · intro hcount
    exact (length_le_sliceCount_mul hsize length).trans (Nat.mul_le_mul_right size hcount)
  · intro hlength
    by_contra hmore
    exact absurd (mul_lt_length_of_lt_sliceCount hsize (not_le.mp hmore)) (not_lt.mpr hlength)

/-- The number of slices is the length over the size, rounded up. -/
theorem sliceCount_eq_ceil (hsize : 0 < size) (length : ℕ) :
    sliceCount size length = ⌈(length : ℚ) / size⌉₊ := by
  refine eq_of_forall_ge_iff fun count ↦ ?_
  have hpositive : (0 : ℚ) < size := Nat.cast_pos.mpr hsize
  rw [sliceCount_le_iff hsize, Nat.ceil_le, div_le_iff₀ hpositive]
  norm_cast

end CampusMesh.Library
