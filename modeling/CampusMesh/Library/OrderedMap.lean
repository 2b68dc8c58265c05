import Mathlib.Data.List.Nodup
import Mathlib.Data.List.Pairwise
import Mathlib.Data.Finset.Card

/-!
# Maps that remember insertion order

A map with distinct keys whose entries are listed in the order in which their keys were first
inserted. Assigning to a present key keeps its place, deleting a key frees it, and a key inserted
after its deletion goes to the end. Every operation is described by its effect on lookup
(`get?_set`, `get?_delete`), so a proof about a program that uses such a map never looks at the
list of entries, except where the program itself iterates over it (`mem_entries_iff`).
-/

set_option autoImplicit false
set_option relaxedAutoImplicit false

namespace CampusMesh.Library

universe u v

/-- A finite map with distinct keys, listed in insertion order. -/
@[ext] structure OrderedMap (κ : Type u) (α : Type v) where
  entries : List (κ × α)
  nodup_keys : (entries.map Prod.fst).Nodup

namespace OrderedMap

variable {κ : Type u} {α : Type v}

/-- The map with no entries. -/
def empty : OrderedMap κ α := ⟨[], List.nodup_nil⟩

/-- The keys in insertion order. -/
def keys (map : OrderedMap κ α) : List κ := map.entries.map Prod.fst

/-- The values in the order of their keys. -/
def values (map : OrderedMap κ α) : List α := map.entries.map Prod.snd

/-- The number of entries. -/
def size (map : OrderedMap κ α) : ℕ := map.entries.length

variable [DecidableEq κ]

/-- The value at a key, if the key is present. -/
def get? (map : OrderedMap κ α) (key : κ) : Option α :=
  (map.entries.find? fun entry ↦ entry.1 = key).map Prod.snd

/-- Whether a key is present. -/
def has (map : OrderedMap κ α) (key : κ) : Bool := (map.get? key).isSome

/-- The entries with the value at `key` replaced. -/
private def replaced (entries : List (κ × α)) (key : κ) (value : α) : List (κ × α) :=
  entries.map fun entry ↦ if entry.1 = key then (key, value) else entry

private theorem map_fst_replaced (entries : List (κ × α)) (key : κ) (value : α) :
    (replaced entries key value).map Prod.fst = entries.map Prod.fst := by
  rw [replaced, List.map_map]
  refine List.map_congr_left fun entry _ ↦ ?_
  by_cases hkey : entry.1 = key <;> simp [hkey]

omit [DecidableEq κ] in
/-- A key is listed by its entry. -/
theorem mem_keys_of_mem {map : OrderedMap κ α} {key : κ} {value : α}
    (hmem : (key, value) ∈ map.entries) : key ∈ map.keys :=
  List.mem_map.mpr ⟨(key, value), hmem, rfl⟩

/-- An entry is in the list exactly when lookup finds it. -/
theorem mem_entries_iff {map : OrderedMap κ α} {key : κ} {value : α} :
    (key, value) ∈ map.entries ↔ map.get? key = some value := by
  constructor
  · intro hmem
    cases hfind : map.entries.find? fun entry ↦ entry.1 = key with
    | none =>
      have hnone := List.find?_eq_none.mp hfind (key, value) hmem
      simp at hnone
    | some entry =>
      have hentry := List.mem_of_find?_eq_some hfind
      have hkey : entry.1 = key := by simpa using List.find?_some hfind
      have hsame := List.inj_on_of_nodup_map map.nodup_keys hentry hmem hkey
      simp [get?, hfind, hsame]
  · intro hget
    simp only [get?, Option.map_eq_some_iff] at hget
    obtain ⟨entry, hfind, hvalue⟩ := hget
    have hkey : entry.1 = key := by simpa using List.find?_some hfind
    have hmem := List.mem_of_find?_eq_some hfind
    rw [← hkey, ← hvalue]
    exact hmem

/-- Two maps with the same entries at every key agree on lookup, and an absent key is one that no
entry carries. -/
theorem get?_eq_none_iff {map : OrderedMap κ α} {key : κ} :
    map.get? key = none ↔ key ∉ map.keys := by
  constructor
  · intro hnone hmem
    obtain ⟨entry, hentry, hkey⟩ := List.mem_map.mp hmem
    have hget : map.get? key = some entry.2 :=
      mem_entries_iff.mp (by rw [← hkey]; exact hentry)
    rw [hnone] at hget
    exact absurd hget (by simp)
  · intro habsent
    cases hget : map.get? key with
    | none => rfl
    | some value => exact absurd (mem_keys_of_mem (mem_entries_iff.mpr hget)) habsent

theorem mem_keys_iff {map : OrderedMap κ α} {key : κ} :
    key ∈ map.keys ↔ map.has key = true := by
  rw [has, Option.isSome_iff_ne_none, ne_eq, get?_eq_none_iff, not_not]

theorem mem_values_iff {map : OrderedMap κ α} {value : α} :
    value ∈ map.values ↔ ∃ key, map.get? key = some value := by
  constructor
  · intro hmem
    obtain ⟨entry, hentry, rfl⟩ := List.mem_map.mp hmem
    exact ⟨entry.1, mem_entries_iff.mp hentry⟩
  · rintro ⟨key, hget⟩
    exact List.mem_map.mpr ⟨(key, value), mem_entries_iff.mpr hget, rfl⟩

/-- A map with one key has one value. -/
theorem values_eq_singleton {map : OrderedMap κ α} {key : κ} {value : α}
    (hget : map.get? key = some value) (hother : ∀ other, other ≠ key → map.get? other = none) :
    map.values = [value] := by
  have hown : ∀ entry ∈ map.entries, entry = (key, value) := by
    rintro ⟨other, found⟩ hmem
    have hfound := mem_entries_iff.mp hmem
    by_cases hsame : other = key
    · rw [hsame, hget] at hfound
      rw [hsame, Option.some.inj hfound]
    · rw [hother other hsame] at hfound
      exact absurd hfound (by simp)
  have hmem := mem_entries_iff.mpr hget
  have hnodup := map.nodup_keys
  rw [List.eq_replicate_of_mem hown, List.map_replicate, List.nodup_replicate] at hnodup
  have hlength : map.entries.length = 1 :=
    Nat.le_antisymm hnodup (List.length_pos_of_mem hmem)
  rw [values, List.eq_replicate_of_mem hown, hlength]
  rfl

theorem has_iff_exists {map : OrderedMap κ α} {key : κ} :
    map.has key = true ↔ ∃ value, map.get? key = some value :=
  Option.isSome_iff_exists

theorem has_eq_false_iff {map : OrderedMap κ α} {key : κ} :
    map.has key = false ↔ map.get? key = none := by
  simp [has]

/-- Assigns to a key: in place when it is present, at the end when it is not. -/
def set (map : OrderedMap κ α) (key : κ) (value : α) : OrderedMap κ α :=
  if hkey : key ∈ map.keys then
    ⟨replaced map.entries key value, by rw [map_fst_replaced]; exact map.nodup_keys⟩
  else
    ⟨map.entries ++ [(key, value)], by
      rw [List.map_append]
      exact List.Nodup.append map.nodup_keys (List.nodup_singleton key)
        (List.disjoint_singleton.mpr hkey)⟩

/-- A new key goes to the end. -/
theorem entries_set_of_fresh {map : OrderedMap κ α} {key : κ} (hfresh : map.has key = false)
    (value : α) : (map.set key value).entries = map.entries ++ [(key, value)] := by
  have hkey : key ∉ map.keys := by
    rw [mem_keys_iff, hfresh]
    exact Bool.false_ne_true
  rw [set, dif_neg hkey]

/-- Removes a key. -/
def delete (map : OrderedMap κ α) (key : κ) : OrderedMap κ α :=
  ⟨map.entries.filter fun entry ↦ entry.1 ≠ key,
    List.Nodup.sublist (List.Sublist.map Prod.fst List.filter_sublist) map.nodup_keys⟩

private theorem mem_set_iff {map : OrderedMap κ α} {key other : κ} {value result : α} :
    (other, result) ∈ (map.set key value).entries ↔
      if other = key then result = value else (other, result) ∈ map.entries := by
  unfold set
  split_ifs with hkey hsame hsame
  · subst hsame
    simp only [replaced, List.mem_map]
    constructor
    · rintro ⟨entry, _, hentry⟩
      split_ifs at hentry with hmatch
      · exact (Prod.mk.inj hentry).2.symm
      · exact absurd (by rw [hentry]) hmatch
    · rintro rfl
      obtain ⟨entry, hentry, hfst⟩ := List.mem_map.mp hkey
      exact ⟨entry, hentry, by rw [if_pos hfst]⟩
  · simp only [replaced, List.mem_map]
    constructor
    · rintro ⟨entry, hentry, heq⟩
      split_ifs at heq with hmatch
      · exact absurd (Prod.mk.inj heq).1.symm hsame
      · rwa [← heq]
    · intro hmem
      exact ⟨(other, result), hmem, by rw [if_neg hsame]⟩
  · subst hsame
    simp only [List.mem_append, List.mem_singleton, Prod.mk.injEq, true_and]
    exact ⟨fun h ↦ h.resolve_left fun hmem ↦ hkey (mem_keys_of_mem hmem), Or.inr⟩
  · simp [hsame]

@[simp] theorem get?_empty (key : κ) : (empty : OrderedMap κ α).get? key = none := rfl

@[simp] theorem has_empty (key : κ) : (empty : OrderedMap κ α).has key = false := rfl

/-- Lookup after an assignment. -/
theorem get?_set (map : OrderedMap κ α) (key other : κ) (value : α) :
    (map.set key value).get? other = if other = key then some value else map.get? other := by
  refine Option.ext fun result ↦ ?_
  rw [← mem_entries_iff, mem_set_iff]
  split_ifs with hsame
  · rw [Option.some.injEq, eq_comm]
  · rw [mem_entries_iff]

@[simp] theorem get?_set_self (map : OrderedMap κ α) (key : κ) (value : α) :
    (map.set key value).get? key = some value := by
  rw [get?_set, if_pos rfl]

theorem get?_set_of_ne (map : OrderedMap κ α) {key other : κ} (hne : other ≠ key) (value : α) :
    (map.set key value).get? other = map.get? other := by
  rw [get?_set, if_neg hne]

/-- Lookup after a deletion. -/
theorem get?_delete (map : OrderedMap κ α) (key other : κ) :
    (map.delete key).get? other = if other = key then none else map.get? other := by
  refine Option.ext fun result ↦ ?_
  rw [← mem_entries_iff, delete]
  simp only [List.mem_filter, decide_eq_true_eq]
  split_ifs with hsame
  · simp [hsame]
  · rw [mem_entries_iff]
    simp [hsame]

@[simp] theorem get?_delete_self (map : OrderedMap κ α) (key : κ) :
    (map.delete key).get? key = none := by
  rw [get?_delete, if_pos rfl]

theorem get?_delete_of_ne (map : OrderedMap κ α) {key other : κ} (hne : other ≠ key) :
    (map.delete key).get? other = map.get? other := by
  rw [get?_delete, if_neg hne]

theorem has_set (map : OrderedMap κ α) (key other : κ) (value : α) :
    (map.set key value).has other = (decide (other = key) || map.has other) := by
  rw [has, get?_set]
  split_ifs with hsame <;> simp [hsame, has]

theorem has_delete (map : OrderedMap κ α) (key other : κ) :
    (map.delete key).has other = (!decide (other = key) && map.has other) := by
  rw [has, get?_delete]
  split_ifs with hsame <;> simp [hsame, has]

/-- Lookup after deleting several keys. -/
theorem get?_foldl_delete {β : Type*} (key : β → κ) (items : List β) (map : OrderedMap κ α)
    (other : κ) :
    (items.foldl (fun reached item ↦ reached.delete (key item)) map).get? other =
      if other ∈ items.map key then none else map.get? other := by
  induction items generalizing map with
  | nil => simp
  | cons item rest ih =>
    rw [List.foldl_cons, ih, get?_delete]
    simp only [List.map_cons, List.mem_cons]
    split_ifs <;> tauto

/-- Lookup after setting several entries with distinct keys. -/
theorem get?_foldl_set {entries : List (κ × α)} (hnodup : (entries.map Prod.fst).Nodup)
    (map : OrderedMap κ α) (other : κ) :
    (entries.foldl (fun reached entry ↦ reached.set entry.1 entry.2) map).get? other =
      ((entries.find? fun entry ↦ entry.1 = other).map Prod.snd).or (map.get? other) := by
  induction entries generalizing map with
  | nil => simp
  | cons entry rest ih =>
    obtain ⟨hfresh, hrest⟩ := List.nodup_cons.mp hnodup
    rw [List.foldl_cons, ih hrest, get?_set, List.find?_cons]
    by_cases hsame : entry.1 = other
    · have hnone : (rest.find? fun later ↦ later.1 = other) = none := by
        refine List.find?_eq_none.mpr fun later hlater hkey ↦ hfresh ?_
        rw [hsame, ← of_decide_eq_true hkey]
        exact List.mem_map_of_mem hlater
      simp [hsame, hnone]
    · simp [hsame, Ne.symm hsame]

/-- Setting all entries of a map in the empty map looks like the map. -/
theorem get?_foldl_set_entries (map : OrderedMap κ α) (other : κ) :
    (map.entries.foldl (fun reached entry ↦ reached.set entry.1 entry.2) empty).get? other =
      map.get? other := by
  rw [get?_foldl_set map.nodup_keys, get?_empty, Option.or_none]
  rfl

/-- The entries whose keys pass a test. -/
def filter (keep : κ → Bool) (map : OrderedMap κ α) : OrderedMap κ α :=
  ⟨map.entries.filter fun entry ↦ keep entry.1,
    List.Nodup.sublist (List.Sublist.map Prod.fst List.filter_sublist) map.nodup_keys⟩

/-- Lookup among the entries whose keys pass a test. -/
theorem get?_filter (keep : κ → Bool) (map : OrderedMap κ α) (key : κ) :
    (map.filter keep).get? key = if keep key then map.get? key else none := by
  refine Option.ext fun result ↦ ?_
  rw [← mem_entries_iff, filter, List.mem_filter, mem_entries_iff]
  split_ifs with hkeep
  · simp [hkeep]
  · simp [hkeep]

/-- Maps with the same keys have the same size. -/
theorem size_eq_of_has {β : Type*} {map : OrderedMap κ α} {other : OrderedMap κ β}
    (hhas : ∀ key, map.has key = other.has key) : map.size = other.size := by
  have hkeys : ∀ key, key ∈ map.keys ↔ key ∈ other.keys := fun key ↦ by
    rw [mem_keys_iff, mem_keys_iff, hhas key]
  have hperm := (List.perm_ext_iff_of_nodup map.nodup_keys other.nodup_keys).mpr hkeys
  have hlength := hperm.length_eq
  simp only [List.length_map] at hlength
  exact hlength

/-- A map without keys has no entries, and the other way round. -/
theorem size_eq_zero_iff {map : OrderedMap κ α} :
    map.size = 0 ↔ ∀ key, map.get? key = none := by
  rw [size, List.length_eq_zero_iff]
  constructor
  · intro hnil key
    rw [get?_eq_none_iff, keys, hnil]
    simp
  · intro hnone
    refine List.eq_nil_iff_forall_not_mem.mpr fun entry hmem ↦ ?_
    have hget := mem_entries_iff.mp (show (entry.1, entry.2) ∈ map.entries from hmem)
    rw [hnone] at hget
    exact absurd hget (by simp)

/-- Assigning to a present key keeps the number of entries, and to an absent one adds one. -/
theorem size_set (map : OrderedMap κ α) (key : κ) (value : α) :
    (map.set key value).size = if map.has key then map.size else map.size + 1 := by
  unfold set
  split_ifs with hmem hhas hhas
  · simp [size, replaced]
  · exact absurd (mem_keys_iff.mp hmem) hhas
  · exact absurd (mem_keys_iff.mpr hhas) hmem
  · simp [size]

/-- Assigning the value that is there changes nothing. -/
theorem set_eq_self {map : OrderedMap κ α} {key : κ} {value : α}
    (hget : map.get? key = some value) : map.set key value = map := by
  have hmem : key ∈ map.keys := mem_keys_iff.mpr (has_iff_exists.mpr ⟨value, hget⟩)
  ext1
  rw [set, dif_pos hmem]
  refine (List.map_congr_left fun entry hentry ↦ ?_).trans (List.map_id _)
  split_ifs with hkey
  · have hother : map.get? entry.1 = some entry.2 := mem_entries_iff.mp hentry
    rw [hkey, hget, Option.some.injEq] at hother
    exact Prod.ext hkey.symm hother
  · rfl

/-- Deleting a key keeps the other values in their order. -/
theorem sublist_values_delete (map : OrderedMap κ α) (key : κ) :
    (map.delete key).values.Sublist map.values :=
  List.filter_sublist.map _

theorem size_delete_le (map : OrderedMap κ α) (key : κ) : (map.delete key).size ≤ map.size :=
  List.length_filter_le _ _

/-- Deleting a present key removes one entry. -/
theorem size_delete {map : OrderedMap κ α} {key : κ} (hhas : map.has key = true) :
    (map.delete key).size + 1 = map.size := by
  have hcount : map.keys.count key = 1 :=
    List.count_eq_one_of_mem map.nodup_keys (mem_keys_iff.mpr hhas)
  have hmatching : (map.entries.countP fun entry ↦ decide (¬ decide (entry.1 ≠ key) = true)) =
      1 := by
    rw [← hcount, keys, List.count, List.countP_map]
    refine List.countP_congr fun entry _ ↦ ?_
    simp
  have hsplit : map.entries.length = (map.entries.countP fun entry ↦ decide (entry.1 ≠ key)) +
      map.entries.countP fun entry ↦ decide (¬ decide (entry.1 ≠ key) = true) :=
    List.length_eq_countP_add_countP _
  rw [hmatching, List.countP_eq_length_filter] at hsplit
  exact hsplit.symm

omit [DecidableEq κ] in
/-- What the keys of a map give has no duplicates exactly when no two keys give the same. -/
theorem nodup_filterMap_keys_iff {β : Type*} (map : OrderedMap κ α) (find : κ → Option β) :
    (map.keys.filterMap find).Nodup ↔ ∀ first ∈ map.keys, ∀ second ∈ map.keys, ∀ value,
      find first = some value → find second = some value → first = second := by
  rw [List.Nodup, List.pairwise_filterMap]
  constructor
  · intro hpairwise first hfirst second hsecond value hfind hsame
    have hsymm : Std.Symm fun first second ↦ ∀ value, find first = some value →
        ∀ other, find second = some other → value ≠ other :=
      ⟨fun _ _ h value hvalue other hother ↦ (h other hother value hvalue).symm⟩
    by_contra hne
    exact hpairwise.forall hfirst hsecond hne value hfind value hsame rfl
  · intro hinj
    refine List.Pairwise.imp_of_mem ?_ map.nodup_keys
    rintro first second hfirst hsecond hne value hvalue other hother rfl
    exact hne (hinj first hfirst second hsecond value hvalue hother)

end OrderedMap

end CampusMesh.Library
