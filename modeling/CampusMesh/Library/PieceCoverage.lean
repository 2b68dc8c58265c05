import CampusMesh.Library.Reassembly

/-!
# Counting what pieces cover

Pieces of a sequence may overlap. The items that they have together are the positions that they
cover and, in addition, those positions that they have more than once (`received_eq`). So a count of
received items says that all positions are covered exactly when it exceeds the length of the
sequence by as many items as were received more than once (`range_subset_covered_iff`).

A receiver that keeps pieces by their offset keeps the first one of each offset (`firstPieces`).
-/

set_option autoImplicit false
set_option relaxedAutoImplicit false

namespace CampusMesh.Library

open Finset

universe u

variable {α : Type u} {items : List α} {pieces : List (ℕ × List α)} {piece : ℕ × List α}

/-! ### Coverage -/

/-- The positions that the pieces have. -/
def covered : List (ℕ × List α) → Finset ℕ
  | [] => ∅
  | piece :: rest => positions piece ∪ covered rest

/-- How many items the pieces have together. -/
def received (pieces : List (ℕ × List α)) : ℕ := (pieces.map fun piece ↦ piece.2.length).sum

/-- How many positions the pieces have again, once for each further piece that has the position. -/
def repeated : List (ℕ × List α) → ℕ
  | [] => 0
  | piece :: rest => (positions piece ∩ covered rest).card + repeated rest

theorem mem_covered {position : ℕ} :
    position ∈ covered pieces ↔ ∃ piece ∈ pieces, position ∈ positions piece := by
  induction pieces with
  | nil => simp [covered]
  | cons piece rest ih => rw [covered, mem_union, ih, List.exists_mem_cons_iff]

theorem card_positions (piece : ℕ × List α) : (positions piece).card = piece.2.length := by
  rw [positions, Nat.card_Ico, Nat.add_sub_cancel_left]

/-- The items are the positions and those that come again. -/
theorem received_eq (pieces : List (ℕ × List α)) :
    received pieces = (covered pieces).card + repeated pieces := by
  induction pieces with
  | nil => rfl
  | cons piece rest ih =>
    have hunion := card_union_add_card_inter (positions piece) (covered rest)
    rw [card_positions] at hunion
    rw [covered, repeated, received, List.map_cons, List.sum_cons]
    unfold received at ih
    omega

theorem covered_subset_range (hpieces : ∀ piece ∈ pieces, IsPieceOf items piece) :
    covered pieces ⊆ range items.length := by
  intro position hmem
  obtain ⟨piece, hpiece, hposition⟩ := mem_covered.mp hmem
  rw [mem_range]
  exact (mem_Ico.mp hposition).2.trans_le (hpieces piece hpiece).1

/-- **When a count says that everything is covered.** -/
theorem range_subset_covered_iff (hpieces : ∀ piece ∈ pieces, IsPieceOf items piece) :
    range items.length ⊆ covered pieces ↔ items.length + repeated pieces ≤ received pieces := by
  have hsubset := covered_subset_range hpieces
  have hreceived := received_eq pieces
  constructor
  · intro hall
    have hcard := card_le_card hall
    rw [card_range] at hcard
    omega
  · intro henough
    have hcard : (range items.length).card ≤ (covered pieces).card := by
      rw [card_range]
      omega
    exact (eq_of_subset_of_card_le hsubset hcard).symm.subset

/-! ### The first piece of each offset -/

/-- Keeps a piece unless one with its offset is kept already. -/
def keepFirst (kept : List (ℕ × List α)) (piece : ℕ × List α) : List (ℕ × List α) :=
  if piece.1 ∈ kept.map Prod.fst then kept else kept ++ [piece]

/-- Of the pieces of each offset the first one. -/
def firstPieces (pieces : List (ℕ × List α)) : List (ℕ × List α) := pieces.foldl keepFirst []

theorem firstPieces_append (pieces : List (ℕ × List α)) (piece : ℕ × List α) :
    firstPieces (pieces ++ [piece]) = keepFirst (firstPieces pieces) piece :=
  List.foldl_append

theorem mem_of_mem_firstPieces (hmem : piece ∈ firstPieces pieces) : piece ∈ pieces := by
  induction pieces using List.reverseRecOn with
  | nil => exact hmem
  | append_singleton part last ih =>
    rw [firstPieces_append, keepFirst] at hmem
    split_ifs at hmem
    · exact List.mem_append_left _ (ih hmem)
    · exact (List.mem_append.mp hmem).elim (fun hold ↦ List.mem_append_left _ (ih hold))
        fun hnew ↦ List.mem_append_right _ hnew

end CampusMesh.Library
