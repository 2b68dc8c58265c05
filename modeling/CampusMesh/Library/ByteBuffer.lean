import Mathlib.Algebra.Group.Nat.Defs
import Mathlib.Data.List.Basic

/-!
# Fixed-size byte buffers

A byte buffer of a fixed length is a list; writing a slice at an offset either fits and replaces
exactly the bytes it covers, or is refused (`blit`). `blit_middle` is the rule by which a buffer is
filled: writing at the end of a part that is already there replaces the part that follows.

`uint32Bytes` is the big-endian encoding of a number reduced modulo `2 ^ 32`, and `readUint32` reads
four bytes back at an offset. `readUint32_append` says that what was written is what is read,
whatever stands before and after it.
-/

set_option autoImplicit false
set_option relaxedAutoImplicit false

namespace CampusMesh.Library

universe u

/-- A sequence of bytes. -/
abbrev Bytes := List UInt8

section Blit

variable {α : Type u}

/-- Overwrites the part of a buffer that starts at an offset, if the slice fits there. -/
def blit (buffer : List α) (offset : ℕ) (slice : List α) : Option (List α) :=
  if offset + slice.length ≤ buffer.length then
    some (buffer.take offset ++ slice ++ buffer.drop (offset + slice.length))
  else none

theorem blit_isSome_iff {buffer slice : List α} {offset : ℕ} :
    (blit buffer offset slice).isSome ↔ offset + slice.length ≤ buffer.length := by
  unfold blit
  split_ifs with hfits <;> simp [hfits]

/-- A write keeps the length of the buffer. -/
theorem length_of_blit {buffer slice result : List α} {offset : ℕ}
    (hblit : blit buffer offset slice = some result) : result.length = buffer.length := by
  unfold blit at hblit
  split_ifs at hblit with hfits
  rw [← Option.some.inj hblit]
  simp only [List.length_append, List.length_take, List.length_drop]
  omega

/-- Writing behind a part already there replaces as many bytes as are written. -/
theorem blit_middle {front old slice back : List α} {offset : ℕ} (hoffset : offset = front.length)
    (hlength : slice.length = old.length) :
    blit (front ++ (old ++ back)) offset slice = some (front ++ (slice ++ back)) := by
  have hfits : offset + slice.length ≤ (front ++ (old ++ back)).length := by
    simp only [List.length_append]
    omega
  have hdrop : (front ++ (old ++ back)).drop (offset + slice.length) = back := by
    rw [hoffset, hlength, ← List.append_assoc, ← List.length_append, List.drop_left]
  rw [blit, if_pos hfits, hdrop, hoffset, List.take_left, List.append_assoc]

end Blit

/-! ### Big-endian numbers -/

/-- The four big-endian bytes of a number modulo `2 ^ 32`. -/
def uint32Bytes (value : ℕ) : Bytes :=
  [UInt8.ofNat (value / 2 ^ 24), UInt8.ofNat (value / 2 ^ 16), UInt8.ofNat (value / 2 ^ 8),
    UInt8.ofNat value]

@[simp] theorem length_uint32Bytes (value : ℕ) : (uint32Bytes value).length = 4 := rfl

/-- Numbers that differ by a multiple of `2 ^ 32` have the same bytes. -/
theorem uint32Bytes_mod (value : ℕ) : uint32Bytes (value % 2 ^ 32) = uint32Bytes value := by
  simp only [uint32Bytes, List.cons.injEq, and_true, ← UInt8.toNat_inj, UInt8.toNat_ofNat']
  omega

/-- The number whose big-endian bytes stand at an offset. -/
def readUint32 (bytes : Bytes) (offset : ℕ) : Option ℕ :=
  match bytes.drop offset with
  | first :: second :: third :: fourth :: _ =>
    some (((first.toNat * 256 + second.toNat) * 256 + third.toNat) * 256 + fourth.toNat)
  | _ => none

/-- Reading back a number that was written between any two parts of a buffer. -/
theorem readUint32_append {front back : Bytes} {offset : ℕ} (hoffset : offset = front.length)
    (value : ℕ) :
    readUint32 (front ++ (uint32Bytes value ++ back)) offset = some (value % 2 ^ 32) := by
  rw [readUint32, hoffset, List.drop_left]
  simp only [uint32Bytes, List.cons_append, List.nil_append, UInt8.toNat_ofNat']
  congr 1
  omega

/-- The bytes of the number that four bytes stand for. -/
theorem uint32Bytes_of_toNat (first second third fourth : UInt8) :
    uint32Bytes (((first.toNat * 256 + second.toNat) * 256 + third.toNat) * 256 +
      fourth.toNat) = [first, second, third, fourth] := by
  have hfirst := first.toNat_lt
  have hsecond := second.toNat_lt
  have hthird := third.toNat_lt
  have hfourth := fourth.toNat_lt
  simp only [uint32Bytes, List.cons.injEq, and_true, ← UInt8.toNat_inj, UInt8.toNat_ofNat']
  omega

/-- Bytes are too few for a number, or begin with the bytes of one. -/
theorem uint32_cases (bytes : Bytes) :
    bytes.length < 4 ∨ ∃ value < 2 ^ 32, ∃ rest, bytes = uint32Bytes value ++ rest := by
  match bytes with
  | [] | [_] | [_, _] | [_, _, _] => exact Or.inl (by simp)
  | first :: second :: third :: fourth :: rest =>
    have hfirst := first.toNat_lt
    have hsecond := second.toNat_lt
    have hthird := third.toNat_lt
    have hfourth := fourth.toNat_lt
    refine Or.inr ⟨((first.toNat * 256 + second.toNat) * 256 + third.toNat) * 256 +
      fourth.toNat, by omega, rest, ?_⟩
    rw [uint32Bytes_of_toNat]
    rfl

end CampusMesh.Library
