import Mathlib.Data.List.Sort

/-!
# The head of a list sorted by a key

A stable sort by a key puts in front the first of the elements with the least key
(`head?_insertionSort_iff`). Filtering does not change which one that is as long as what is filtered
out has larger keys (`IsFirstLeast.of_filter`).
-/

set_option autoImplicit false
set_option relaxedAutoImplicit false

namespace CampusMesh.Library

universe u v

variable {α : Type u} {β : Type v} [LinearOrder β] {key : α → β} {items : List α} {item : α}

/-- The item is the first one with the least key. -/
def IsFirstLeast (key : α → β) (items : List α) (item : α) : Prop :=
  ∃ earlier later, items = earlier ++ item :: later ∧
    (∀ other ∈ earlier, key item < key other) ∧ ∀ other ∈ later, key item ≤ key other

theorem IsFirstLeast.mem (hfirst : IsFirstLeast key items item) : item ∈ items := by
  obtain ⟨earlier, later, rfl, -, -⟩ := hfirst
  simp

theorem IsFirstLeast.le (hfirst : IsFirstLeast key items item) {other : α} (hmem : other ∈ items) :
    key item ≤ key other := by
  obtain ⟨earlier, later, rfl, hearlier, hlater⟩ := hfirst
  rcases List.mem_append.mp hmem with hbefore | hafter
  · exact (hearlier other hbefore).le
  · rcases List.mem_cons.mp hafter with rfl | hafter
    · exact le_rfl
    · exact hlater other hafter

theorem isFirstLeast_cons {head : α} :
    IsFirstLeast key (head :: items) item ↔
      (item = head ∧ ∀ other ∈ items, key head ≤ key other) ∨
        IsFirstLeast key items item ∧ key item < key head := by
  constructor
  · rintro ⟨earlier, later, hsplit, hearlier, hlater⟩
    cases earlier with
    | nil =>
      obtain ⟨rfl, rfl⟩ := List.cons.inj hsplit
      exact .inl ⟨rfl, hlater⟩
    | cons first rest =>
      obtain ⟨rfl, rfl⟩ := List.cons.inj hsplit
      exact .inr ⟨⟨rest, later, rfl, fun other hmem ↦ hearlier other (List.mem_cons_of_mem _ hmem),
        hlater⟩, hearlier _ List.mem_cons_self⟩
  · rintro (⟨rfl, hleast⟩ | ⟨⟨earlier, later, rfl, hearlier, hlater⟩, hless⟩)
    · exact ⟨[], items, rfl, by simp, hleast⟩
    · exact ⟨head :: earlier, later, rfl, List.forall_mem_cons.mpr ⟨hless, hearlier⟩, hlater⟩

/-- The head of the sorted list. -/
theorem head?_insertionSort_iff :
    (items.insertionSort fun first second ↦ key first ≤ key second).head? = some item ↔
      IsFirstLeast key items item := by
  induction items generalizing item with
  | nil => simp [IsFirstLeast]
  | cons head rest ih =>
    rw [isFirstLeast_cons, List.insertionSort_cons]
    cases hsorted : rest.insertionSort fun first second ↦ key first ≤ key second with
    | nil =>
      have hnil : rest = [] := List.length_eq_zero_iff.mp (by
        rw [← List.length_insertionSort fun first second ↦ key first ≤ key second, hsorted,
          List.length_nil])
      subst hnil
      simp [IsFirstLeast, eq_comm]
    | cons least others =>
      have hleast : IsFirstLeast key rest least := ih.mp (by rw [hsorted]; rfl)
      rw [List.orderedInsert_cons]
      split_ifs with hle
      · rw [List.head?_cons, Option.some.injEq]
        constructor
        · rintro rfl
          exact .inl ⟨rfl, fun other hmem ↦ hle.trans (hleast.le hmem)⟩
        · rintro (⟨rfl, -⟩ | ⟨hfirst, hless⟩)
          · rfl
          · exact absurd (hle.trans (hleast.le hfirst.mem)) (not_le.mpr hless)
      · rw [List.head?_cons, Option.some.injEq]
        constructor
        · rintro rfl
          exact .inr ⟨hleast, not_le.mp hle⟩
        · rintro (⟨rfl, hall⟩ | ⟨hfirst, -⟩)
          · exact absurd (hall least hleast.mem) hle
          · have hhead := ih.mpr hfirst
            rw [hsorted, List.head?_cons, Option.some.injEq] at hhead
            exact hhead

/-- There is one such item. -/
theorem IsFirstLeast.unique {other : α} (hfirst : IsFirstLeast key items item)
    (hother : IsFirstLeast key items other) : item = other := by
  rw [← head?_insertionSort_iff] at hfirst hother
  rw [hfirst, Option.some.injEq] at hother
  exact hother

/-- What is filtered out does not matter when its keys are larger. -/
theorem IsFirstLeast.of_filter {keep : α → Bool}
    (hfirst : IsFirstLeast key (items.filter keep) item)
    (hout : ∀ other ∈ items, keep other = false → key item < key other) :
    IsFirstLeast key items item := by
  induction items with
  | nil => exact hfirst
  | cons head rest ih =>
    have hrest : ∀ other ∈ rest, keep other = false → key item < key other :=
      fun other hmem ↦ hout other (List.mem_cons_of_mem head hmem)
    rw [isFirstLeast_cons]
    cases hkeep : keep head with
    | false =>
      rw [List.filter_cons_of_neg (by simp [hkeep])] at hfirst
      exact .inr ⟨ih hfirst hrest, hout head List.mem_cons_self hkeep⟩
    | true =>
      rw [List.filter_cons_of_pos hkeep, isFirstLeast_cons] at hfirst
      rcases hfirst with ⟨rfl, hleast⟩ | ⟨hlater, hless⟩
      · refine .inl ⟨rfl, fun other hmem ↦ ?_⟩
        cases hother : keep other with
        | false => exact (hrest other hmem hother).le
        | true => exact hleast other (List.mem_filter.mpr ⟨hmem, hother⟩)
      · exact .inr ⟨ih hlater hrest, hless⟩

end CampusMesh.Library
