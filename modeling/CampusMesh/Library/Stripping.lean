import Mathlib.Data.List.DropRight

/-!
# Stripping lists

`strip` drops the elements of a kind at both ends of a list, and `lastComponent` takes what stands
behind the last separator that is not at the end. What they yield is found between what they leave
out (`exists_strip`, `exists_lastComponent`), and what is so enclosed is what they yield
(`strip_append`, `lastComponent_append`).
-/

set_option autoImplicit false
set_option relaxedAutoImplicit false

namespace CampusMesh.Library

universe u

variable {α : Type u} {kind : α → Bool} {list : List α}

/-! ### One end -/

section Ends

theorem dropWhile_eq_self_of_head? (hfirst : ∀ first ∈ list.head?, kind first = false) :
    list.dropWhile kind = list := by
  cases list with
  | nil => rfl
  | cons first rest => rw [List.dropWhile_cons_of_neg (by simp [hfirst first rfl])]

theorem head?_dropWhile (kind : α → Bool) (list : List α) :
    ∀ first ∈ (list.dropWhile kind).head?, kind first = false := by
  intro first hfirst
  have hnot := List.head?_dropWhile_not kind list
  rw [Option.mem_def.mp hfirst] at hnot
  simpa using hnot

theorem rdropWhile_eq_self_of_getLast? (hlast : ∀ last ∈ list.getLast?, kind last = false) :
    list.rdropWhile kind = list := by
  rw [List.rdropWhile, dropWhile_eq_self_of_head? (by rwa [List.head?_reverse]),
    List.reverse_reverse]

theorem getLast?_rdropWhile (kind : α → Bool) (list : List α) :
    ∀ last ∈ (list.rdropWhile kind).getLast?, kind last = false := by
  rw [List.rdropWhile, List.getLast?_reverse]
  exact head?_dropWhile kind list.reverse

theorem rdropWhile_append_of_pos {trail : List α} (htrail : ∀ element ∈ trail, kind element) :
    (list ++ trail).rdropWhile kind = list.rdropWhile kind := by
  rw [List.rdropWhile, List.reverse_append, List.dropWhile_append_of_pos (by simpa using htrail),
    List.rdropWhile]

end Ends

/-! ### Both ends -/

section Strip

/-- The list without the elements of a kind at its ends. -/
def strip (kind : α → Bool) (list : List α) : List α := (list.dropWhile kind).rdropWhile kind

/-- Neither end of the list is of the kind. -/
def Stripped (kind : α → Bool) (list : List α) : Prop :=
  (∀ first ∈ list.head?, kind first = false) ∧ ∀ last ∈ list.getLast?, kind last = false

instance (kind : α → Bool) (list : List α) : Decidable (Stripped kind list) :=
  inferInstanceAs (Decidable ((∀ first ∈ list.head?, _) ∧ ∀ last ∈ list.getLast?, _))

/-- What is left is between elements of the kind. -/
theorem exists_strip (kind : α → Bool) (list : List α) :
    ∃ lead trail, list = lead ++ strip kind list ++ trail ∧ (∀ element ∈ lead, kind element) ∧
      ∀ element ∈ trail, kind element := by
  refine ⟨list.takeWhile kind, (list.dropWhile kind).rtakeWhile kind, ?_,
    fun element hmem ↦ List.mem_takeWhile_imp hmem, fun element hmem ↦ List.mem_rtakeWhile_imp hmem⟩
  rw [strip, List.append_assoc, List.rdropWhile_append_rtakeWhile,
    List.takeWhile_append_dropWhile]

theorem mem_of_mem_strip {element : α} (hmem : element ∈ strip kind list) : element ∈ list := by
  obtain ⟨lead, trail, hlist, -, -⟩ := exists_strip kind list
  rw [hlist]
  exact List.mem_append_left _ (List.mem_append_right _ hmem)

theorem stripped_strip (kind : α → Bool) (list : List α) : Stripped kind (strip kind list) := by
  refine ⟨fun first hfirst ↦ ?_, getLast?_rdropWhile kind _⟩
  have hprefix : strip kind list <+: list.dropWhile kind := List.rdropWhile_prefix kind _
  obtain ⟨rest, hrest⟩ := hprefix
  refine head?_dropWhile kind list first ?_
  rw [← hrest, List.head?_append, Option.mem_def.mp hfirst]
  rfl

theorem strip_eq_self (hstripped : Stripped kind list) : strip kind list = list := by
  rw [strip, dropWhile_eq_self_of_head? hstripped.1, rdropWhile_eq_self_of_getLast? hstripped.2]

/-- What stands between elements of the kind is left. -/
theorem strip_append {lead core trail : List α} (hcore : core ≠ []) (hstripped : Stripped kind core)
    (hlead : ∀ element ∈ lead, kind element) (htrail : ∀ element ∈ trail, kind element) :
    strip kind (lead ++ core ++ trail) = core := by
  have hfirst : ∀ first ∈ (core ++ trail).head?, kind first = false := by
    cases core with
    | nil => exact absurd rfl hcore
    | cons first rest => exact hstripped.1
  rw [strip, List.append_assoc, List.dropWhile_append_of_pos hlead,
    dropWhile_eq_self_of_head? hfirst, rdropWhile_append_of_pos htrail,
    rdropWhile_eq_self_of_getLast? hstripped.2]

end Strip

/-! ### Components -/

section Components

/-- The part behind the last separator that is not at the end. -/
def lastComponent (kind : α → Bool) (list : List α) : List α :=
  (list.rdropWhile kind).rtakeWhile fun element ↦ !kind element

theorem kind_of_mem_lastComponent {element : α} (hmem : element ∈ lastComponent kind list) :
    kind element = false := by
  simpa using List.mem_rtakeWhile_imp hmem

/-- The last component stands behind a separator, or at the start, and before separators. -/
theorem exists_lastComponent (kind : α → Bool) (list : List α) :
    ∃ front trail, list = front ++ lastComponent kind list ++ trail ∧
      (∀ last ∈ front.getLast?, kind last = true) ∧ ∀ element ∈ trail, kind element := by
  refine ⟨(list.rdropWhile kind).rdropWhile fun element ↦ !kind element, list.rtakeWhile kind, ?_,
    fun last hlast ↦ ?_, fun element hmem ↦ List.mem_rtakeWhile_imp hmem⟩
  · rw [lastComponent, List.rdropWhile_append_rtakeWhile, List.rdropWhile_append_rtakeWhile]
  · simpa using getLast?_rdropWhile (fun element ↦ !kind element) _ last hlast

theorem mem_of_mem_lastComponent {element : α} (hmem : element ∈ lastComponent kind list) :
    element ∈ list := by
  obtain ⟨front, trail, hlist, -, -⟩ := exists_lastComponent kind list
  rw [hlist]
  exact List.mem_append_left _ (List.mem_append_right _ hmem)

/-- What stands behind a separator, or at the start, and before separators is the last component. -/
theorem lastComponent_append {front component trail : List α} (hcomponent : component ≠ [])
    (hfront : ∀ last ∈ front.getLast?, kind last = true)
    (hplain : ∀ element ∈ component, kind element = false)
    (htrail : ∀ element ∈ trail, kind element) :
    lastComponent kind (front ++ component ++ trail) = component := by
  have hlast : ∀ last ∈ (front ++ component).getLast?, kind last = false := by
    intro last hmem
    rw [List.getLast?_append_of_ne_nil _ hcomponent] at hmem
    exact hplain last (List.mem_of_getLast? hmem)
  have hstop : front.reverse.takeWhile (fun element ↦ !kind element) = [] := by
    rcases List.eq_nil_or_concat front with rfl | ⟨before, last, rfl⟩
    · rfl
    · have hkind := hfront last (by simp)
      simp [hkind]
  rw [lastComponent, rdropWhile_append_of_pos htrail, rdropWhile_eq_self_of_getLast? hlast,
    List.rtakeWhile, List.reverse_append, List.takeWhile_append_of_pos (by simpa using hplain),
    hstop, List.append_nil, List.reverse_reverse]

end Components

end CampusMesh.Library
