import CampusMesh.Library.Runs
import CampusMesh.Shared.Runtime
import CampusMesh.Web.ChunkMap

/-!
# The in-memory store as a map

`MemoryChunkStore` keys a chunk by the text `<resourceId>::<chunkIndex>`, and lists and clears a
resource by the beginning of the keys. Reading and writing single chunks is exact, whatever the
resource ids are. But the keys of another resource may begin in the same way, so a listing is exact
just when no stored resource poses as indices of it (`Poses`), and `clear` just when none is covered
by it (`Covers`): `memoryStore_refines_iff`.
-/

set_option autoImplicit false
set_option relaxedAutoImplicit false

namespace CampusMesh.Web

open Library Shared

/-! ### The methods -/

/-- The text without a sign in front. -/
def skipSign (text : List Char) : List Char :=
  if text.head? = some '-' ∨ text.head? = some '+' then text.tail else text

/-- `parseInt(text, 10)`, and nothing for `NaN`: white space and a sign are skipped, and the digits
that follow are read. An index is a safe integer and read exactly; a larger number, as a resource id
may contain it, may be rounded. -/
def parseInt (text : List Char) : Option ℤ :=
  let trimmed := text.dropWhile isTrimmed
  let digits := (skipSign trimmed).takeWhile Char.isDigit
  if digits = [] then none
  else if trimmed.head? = some '-' then some (-(Nat.ofDigitChars 10 digits 0 : ℤ))
  else some (Nat.ofDigitChars 10 digits 0 : ℤ)

namespace MemoryStorage

/-- The beginning of the keys of a resource: `${resourceId}::`. -/
def keyStart (resourceId : String) : List Char := (resourceId ++ "::").toList

/-- The key starts as those of the resource. -/
def startsWith (resourceId key : String) : Bool := (keyStart resourceId).isPrefixOf key.toList

/-- The index that a key is taken to have in a resource. -/
def indexIn (resourceId key : String) : Option ℤ :=
  if startsWith resourceId key then parseInt (key.toList.drop (keyStart resourceId).length)
  else none

def has (resourceId : String) (chunkIndex : ℕ) (storage : MemoryStorage) : Bool :=
  OrderedMap.has storage (makeKey resourceId chunkIndex)

def delete (resourceId : String) (chunkIndex : ℕ) (storage : MemoryStorage) : MemoryStorage :=
  OrderedMap.delete storage (makeKey resourceId chunkIndex)

def getAvailableChunks (resourceId : String) (storage : MemoryStorage) : List ℤ :=
  (storage.keys.filterMap (indexIn resourceId)).insertionSort (· ≤ ·)

def clear (resourceId : String) (storage : MemoryStorage) : MemoryStorage :=
  (storage.keys.filter (startsWith resourceId)).foldl
    (fun reached key ↦ OrderedMap.delete reached key) storage

/-- A call of the store. -/
def call (storage : MemoryStorage) : StoreCall → MemoryStorage × StoreResult
  | .put resourceId chunkIndex data =>
    (MemoryChunkStore.put storage resourceId chunkIndex data, .done)
  | .get resourceId chunkIndex =>
    (storage, .data (MemoryChunkStore.get storage resourceId chunkIndex))
  | .has resourceId chunkIndex => (storage, .present (has resourceId chunkIndex storage))
  | .delete resourceId chunkIndex => (delete resourceId chunkIndex storage, .done)
  | .getAvailableChunks resourceId => (storage, .indices (getAvailableChunks resourceId storage))
  | .clear resourceId => (clear resourceId storage, .done)

end MemoryStorage

open MemoryStorage

/-! ### The promise -/

/-- The storage holds the chunks of the map. -/
def Holds (storage : MemoryStorage) (map : ChunkMap) : Prop :=
  ∀ resourceId chunkIndex, OrderedMap.get? storage (makeKey resourceId chunkIndex) =
    map resourceId chunkIndex

/-- A call on the store and on the map. -/
def memoryStep (state : MemoryStorage × ChunkMap) (storeCall : StoreCall) :
    MemoryStorage × ChunkMap :=
  ((MemoryStorage.call state.1 storeCall).1, state.2.call storeCall)

/-- The call resolves with what the map says, and leaves the store with the chunks of the map. -/
def Refines (state : MemoryStorage × ChunkMap) (storeCall : StoreCall) : Prop :=
  state.2.Answers storeCall (MemoryStorage.call state.1 storeCall).2 ∧
    Holds (memoryStep state storeCall).1 (memoryStep state storeCall).2

/-! ### The condition -/

/-- The keys of the other resource begin as those of the resource. -/
def Covers (resourceId other : String) : Prop :=
  other = resourceId ++ ":" ∨ ∃ rest, other = resourceId ++ "::" ++ rest

/-- The keys of the other resource go on with a number after the beginning of those of the
resource. -/
def Poses (resourceId other : String) : Prop :=
  ∃ rest, other = resourceId ++ "::" ++ rest ∧ (parseInt rest.toList).isSome = true

/-- A resource is listed when no chunk is stored of one that poses as it, and is cleared when none
is stored of one that it covers. -/
def Unshadowed (state : MemoryStorage × ChunkMap) : StoreCall → Prop
  | .getAvailableChunks resourceId => ∀ other chunkIndex,
    (state.2 other chunkIndex).isSome = true → ¬ Poses resourceId other
  | .clear resourceId => ∀ other chunkIndex,
    (state.2 other chunkIndex).isSome = true → ¬ Covers resourceId other
  | .put .. | .get .. | .has .. | .delete .. => True

/-! ### Keys -/

theorem toList_makeKey (resourceId : String) (chunkIndex : ℕ) :
    (makeKey resourceId chunkIndex).toList =
      resourceId.toList ++ [':', ':'] ++ Nat.toDigits 10 chunkIndex := by
  simp only [makeKey, String.toList_append, Nat.toString_eq_repr, Nat.toList_repr]
  rfl

theorem toList_keyStart (resourceId : String) :
    keyStart resourceId = resourceId.toList ++ [':', ':'] := by
  rw [keyStart, String.toList_append]
  rfl

/-- A text that ends in a colon begins a text with digits just when it begins what is before the
digits. -/
theorem colon_isPrefix_append_iff {start front digits : List Char} (hdigits : ':' ∉ digits) :
    start ++ [':'] <+: front ++ digits ↔ start ++ [':'] <+: front := by
  constructor
  · rintro ⟨back, hback⟩
    rcases List.append_eq_append_iff.mp hback with ⟨more, hfront, _⟩ | ⟨more, hstart, hrest⟩
    · exact ⟨more, hfront.symm⟩
    · rcases List.eq_nil_or_concat more with rfl | ⟨init, last, rfl⟩
      · rw [List.append_nil] at hstart
        exact hstart ▸ List.prefix_rfl
      · rw [List.concat_eq_append, ← List.append_assoc] at hstart
        obtain ⟨_, hlast⟩ := List.append_inj' hstart rfl
        obtain rfl : ':' = last := List.head_eq_of_cons_eq hlast
        exact absurd (hrest ▸ by simp) hdigits
  · exact fun hstart ↦ hstart.trans (List.prefix_append front digits)

/-- The two colons after a resource id begin those after another one just for the same id and for
ids that it covers. -/
theorem colons_isPrefix_iff {resourceId other : String} :
    resourceId.toList ++ [':', ':'] <+: other.toList ++ [':', ':'] ↔
      other = resourceId ∨ Covers resourceId other := by
  constructor
  · rintro ⟨back, hback⟩
    rcases List.eq_nil_or_concat back with rfl | ⟨init, last, rfl⟩
    · rw [List.append_nil] at hback
      exact Or.inl (String.toList_injective (List.append_cancel_right hback)).symm
    · rcases List.eq_nil_or_concat init with rfl | ⟨rest, colon, rfl⟩
      · have hsplit : (resourceId.toList ++ [':']) ++ [':', last] = other.toList ++ [':', ':'] := by
          simpa using hback
        obtain ⟨hfront, _⟩ := List.append_inj' hsplit rfl
        exact Or.inr (Or.inl (String.toList_injective (by simp [← hfront])))
      · have hsplit : (resourceId.toList ++ [':', ':'] ++ rest) ++ [colon, last] =
            other.toList ++ [':', ':'] := by
          simpa using hback
        obtain ⟨hfront, _⟩ := List.append_inj' hsplit rfl
        exact Or.inr (Or.inr ⟨String.ofList rest, String.toList_injective (by simp [← hfront])⟩)
  · rintro (rfl | rfl | ⟨rest, rfl⟩)
    · exact List.prefix_rfl
    · exact ⟨[':'], by simp⟩
    · exact ⟨rest.toList ++ [':', ':'], by simp⟩

/-- The keys that begin as those of a resource: its own, and those of resources that it covers. -/
theorem startsWith_makeKey {resourceId other : String} {chunkIndex : ℕ} :
    startsWith resourceId (makeKey other chunkIndex) = true ↔
      other = resourceId ∨ Covers resourceId other := by
  have hcolons : ∀ text : List Char, text ++ [':', ':'] = (text ++ [':']) ++ [':'] := by simp
  rw [startsWith, List.isPrefixOf_iff_prefix, toList_keyStart, toList_makeKey, hcolons,
    colon_isPrefix_append_iff (colon_not_mem_toDigits chunkIndex), ← hcolons, colons_isPrefix_iff]

/-! ### Numbers -/

/-- The number of a text without white space and signs in front. -/
theorem parseInt_eq {text : List Char} (hplain : ∀ char ∈ text.head?, char.isDigit = true) :
    parseInt text = if text = [] then none
      else some (Nat.ofDigitChars 10 (text.takeWhile Char.isDigit) 0 : ℤ) := by
  cases text with
  | nil => rfl
  | cons char rest =>
    have hdigit : char.isDigit = true := hplain char rfl
    have hminus : char ≠ '-' := by
      rintro rfl
      exact absurd hdigit (by decide)
    have hplus : char ≠ '+' := by
      rintro rfl
      exact absurd hdigit (by decide)
    have htrimmed : (char :: rest).dropWhile isTrimmed = char :: rest := by
      rw [List.dropWhile_cons_of_neg (by simp [isTrimmed_of_isDigit hdigit])]
    simp [parseInt, skipSign, htrimmed, hminus, hplus, hdigit]

theorem parseInt_toDigits (chunkIndex : ℕ) :
    parseInt (Nat.toDigits 10 chunkIndex) = some (chunkIndex : ℤ) := by
  have hdigit : ∀ char ∈ Nat.toDigits 10 chunkIndex, char.isDigit = true :=
    fun char hmem ↦ Nat.isDigit_of_mem_toDigits (by decide) (by decide) hmem
  have hall : (Nat.toDigits 10 chunkIndex).takeWhile Char.isDigit = Nat.toDigits 10 chunkIndex :=
    List.takeWhile_eq_self_iff.mpr hdigit
  rw [parseInt_eq fun char hhead ↦ hdigit char (List.mem_of_mem_head? hhead),
    if_neg Nat.toDigits_ne_nil, hall, Nat.ofDigitChars_ten_toDigits]

/-- A colon ends what `parseInt` reads. -/
theorem parseInt_append_isSome (text back : List Char) :
    (parseInt (text ++ ':' :: back)).isSome = (parseInt text).isSome := by
  have hisSome : ∀ text : List Char, (parseInt text).isSome = true ↔
      (skipSign (text.dropWhile isTrimmed)).takeWhile Char.isDigit ≠ [] := by
    intro text
    unfold parseInt
    simp only
    split_ifs with hdigits hminus
    · simp [hdigits]
    · simp [hdigits]
    · simp [hdigits]
  have hdigits : ∀ text : List Char, (text ++ ':' :: back).takeWhile Char.isDigit = [] ↔
      text.takeWhile Char.isDigit = [] := by
    intro text
    cases text with
    | nil => simp
    | cons char rest => cases hdigit : char.isDigit <;> simp [hdigit]
  rw [Bool.eq_iff_iff, hisSome, hisSome, List.dropWhile_append]
  cases htrimmed : text.dropWhile isTrimmed with
  | nil =>
    have hcolon : (':' :: back).dropWhile isTrimmed = ':' :: back :=
      List.dropWhile_cons_of_neg (by decide)
    simp [hcolon, skipSign]
  | cons char rest =>
    have hskip :
        skipSign (char :: rest ++ ':' :: back) = skipSign (char :: rest) ++ ':' :: back := by
      rw [skipSign, skipSign, List.cons_append, List.head?_cons, List.head?_cons]
      by_cases hsign : some char = some '-' ∨ some char = some '+'
      · rw [if_pos hsign, if_pos hsign]
        rfl
      · rw [if_neg hsign, if_neg hsign]
        rfl
    rw [List.isEmpty_cons, if_neg Bool.false_ne_true, hskip, not_iff_not, hdigits]

/-! ### Entries -/

/-- A key of the resource itself is taken for its index. -/
theorem indexIn_makeKey_self (resourceId : String) (chunkIndex : ℕ) :
    indexIn resourceId (makeKey resourceId chunkIndex) = some (chunkIndex : ℤ) := by
  rw [indexIn, if_pos (startsWith_makeKey.mpr (Or.inl rfl)), toList_makeKey, toList_keyStart,
    List.drop_left, parseInt_toDigits]

/-- A key of another resource is taken for some index just when that resource poses as this one. -/
theorem indexIn_makeKey_isSome {resourceId other : String} (hne : other ≠ resourceId)
    (chunkIndex : ℕ) : (indexIn resourceId (makeKey other chunkIndex)).isSome = true ↔
      Poses resourceId other := by
  have hextends : ∀ rest : String, other = resourceId ++ "::" ++ rest →
      (indexIn resourceId (makeKey other chunkIndex)).isSome = (parseInt rest.toList).isSome := by
    rintro rest rfl
    have hkey : (makeKey (resourceId ++ "::" ++ rest) chunkIndex).toList =
        keyStart resourceId ++ (rest.toList ++ ':' :: ':' :: Nat.toDigits 10 chunkIndex) := by
      rw [toList_makeKey, toList_keyStart]
      simp
    rw [indexIn, if_pos (startsWith_makeKey.mpr (Or.inr (Or.inr ⟨rest, rfl⟩))), hkey,
      List.drop_left, parseInt_append_isSome]
  constructor
  · intro hindex
    have hstarts : startsWith resourceId (makeKey other chunkIndex) = true := by
      by_contra hnot
      rw [indexIn, if_neg hnot] at hindex
      exact Bool.false_ne_true hindex
    rcases startsWith_makeKey.mp hstarts with hsame | rfl | ⟨rest, hrest⟩
    · exact absurd hsame hne
    · -- after `::` such a key goes on with a colon, which is no number
      have hkey : (makeKey (resourceId ++ ":") chunkIndex).toList =
          keyStart resourceId ++ ([] ++ ':' :: Nat.toDigits 10 chunkIndex) := by
        rw [toList_makeKey, toList_keyStart]
        simp
      rw [indexIn, if_pos hstarts, hkey, List.drop_left, parseInt_append_isSome] at hindex
      exact absurd hindex (by decide)
    · exact ⟨rest, hrest, hextends rest hrest ▸ hindex⟩
  · rintro ⟨rest, hrest, hnumber⟩
    rw [hextends rest hrest]
    exact hnumber

/-! ### What calls leave -/

/-- What is found after a call that does not clear. -/
theorem get_call_of_ne_clear {storeCall : StoreCall}
    (hkeeps : ∀ resourceId, storeCall ≠ .clear resourceId) (storage : MemoryStorage)
    (other : String) (otherIndex : ℕ) :
    MemoryChunkStore.get (MemoryStorage.call storage storeCall).1 other otherIndex =
      ChunkMap.call (MemoryChunkStore.get storage) storeCall other otherIndex := by
  cases storeCall with
  | put resourceId chunkIndex data =>
    exact MemoryChunkStore.get_put storage resourceId chunkIndex data other otherIndex
  | delete resourceId chunkIndex =>
    change OrderedMap.get? (OrderedMap.delete storage (makeKey resourceId chunkIndex)) _ = _
    rw [OrderedMap.get?_delete]
    exact if_congr makeKey_inj rfl rfl
  | clear resourceId => exact absurd rfl (hkeeps resourceId)
  | get | has | getAvailableChunks => rfl

/-- What is found after clearing: nothing under the keys that begin as those of the resource. -/
theorem get_clear (storage : MemoryStorage) (resourceId other : String) (otherIndex : ℕ) :
    MemoryChunkStore.get (clear resourceId storage) other otherIndex =
      if startsWith resourceId (makeKey other otherIndex) then none
      else MemoryChunkStore.get storage other otherIndex := by
  change OrderedMap.get? (clear resourceId storage) _ = _
  rw [clear, OrderedMap.get?_foldl_delete, List.map_id']
  by_cases hstarts : startsWith resourceId (makeKey other otherIndex) = true
  · rw [if_pos hstarts]
    split_ifs with hmem
    · rfl
    · have hfresh : makeKey other otherIndex ∉ OrderedMap.keys storage :=
        fun hkey ↦ hmem (List.mem_filter.mpr ⟨hkey, hstarts⟩)
      rw [OrderedMap.mem_keys_iff, OrderedMap.has] at hfresh
      simpa using hfresh
  · rw [if_neg hstarts, if_neg fun hmem ↦ hstarts (List.mem_filter.mp hmem).2]
    rfl

/-! ### States -/

/-- What runs keep: every key is that of a chunk, and the store holds the chunks of the map. -/
structure Mapped (state : MemoryStorage × ChunkMap) : Prop where
  keyed : ∀ key ∈ OrderedMap.keys state.1, ∃ resourceId chunkIndex,
    key = makeKey resourceId chunkIndex
  holds : Holds state.1 state.2

theorem mapped_empty : Mapped (OrderedMap.empty, ChunkMap.empty) where
  keyed _ hkey := absurd hkey List.not_mem_nil
  holds _ _ := rfl

section States

variable {state : MemoryStorage × ChunkMap} {resourceId : String}

theorem Mapped.mem_keys_iff (hmapped : Mapped state) {other : String} {chunkIndex : ℕ} :
    makeKey other chunkIndex ∈ OrderedMap.keys state.1 ↔
      (state.2 other chunkIndex).isSome = true := by
  rw [OrderedMap.mem_keys_iff, OrderedMap.has, hmapped.holds]

theorem Covers.ne {other : String} (hcovers : Covers resourceId other) : other ≠ resourceId := by
  intro hsame
  have hlength := congrArg String.length hsame
  rcases hcovers with rfl | ⟨rest, rfl⟩
  · simp at hlength
  · rw [String.length_append, String.length_append] at hlength
    have htwo : "::".length = 2 := rfl
    omega

/-- Whoever poses as a resource is covered by it. -/
theorem Poses.covers {other : String} (hposes : Poses resourceId other) :
    Covers resourceId other :=
  Or.inr ⟨hposes.choose, hposes.choose_spec.1⟩

theorem mem_getAvailableChunks_iff (storage : MemoryStorage) (index : ℤ) :
    index ∈ getAvailableChunks resourceId storage ↔
      ∃ key ∈ OrderedMap.keys storage, indexIn resourceId key = some index := by
  rw [getAvailableChunks, List.mem_insertionSort, List.mem_filterMap]

/-- A listing is right just when no stored resource poses as the one that is listed. -/
theorem Mapped.lists_iff (hmapped : Mapped state) :
    state.2.Lists resourceId (getAvailableChunks resourceId state.1) ↔
      ∀ other chunkIndex, (state.2 other chunkIndex).isSome = true → ¬ Poses resourceId other := by
  have hperm : (getAvailableChunks resourceId state.1).Perm
      ((OrderedMap.keys state.1).filterMap (indexIn resourceId)) := List.perm_insertionSort _ _
  constructor
  · intro hlists other chunkIndex hstored hposes
    obtain ⟨index, hindex⟩ := Option.isSome_iff_exists.mp
      ((indexIn_makeKey_isSome hposes.covers.ne chunkIndex).mpr hposes)
    have hkey := hmapped.mem_keys_iff.mpr hstored
    -- the index is listed for a chunk of the resource, so it is listed twice
    obtain ⟨own, rfl, hown⟩ := (hlists.mem_iff index).mp
      ((mem_getAvailableChunks_iff _ _).mpr ⟨_, hkey, hindex⟩)
    have hnodup := hperm.nodup_iff.mp (hlists.ascending.imp fun hlt ↦ hlt.ne)
    have hsame := (OrderedMap.nodup_filterMap_keys_iff _ _).mp hnodup _ hkey _
      (hmapped.mem_keys_iff.mpr hown) _ hindex (indexIn_makeKey_self resourceId own)
    exact hposes.covers.ne (makeKey_inj.mp hsame).1
  · intro hunposed
    have hindex : ∀ key ∈ OrderedMap.keys state.1, ∀ index, indexIn resourceId key = some index →
        ∃ chunkIndex : ℕ, index = chunkIndex ∧ key = makeKey resourceId chunkIndex := by
      intro key hkey index hfound
      obtain ⟨other, chunkIndex, rfl⟩ := hmapped.keyed key hkey
      by_cases hsame : other = resourceId
      · subst hsame
        rw [indexIn_makeKey_self] at hfound
        exact ⟨chunkIndex, (Option.some.inj hfound).symm, rfl⟩
      · exact absurd ((indexIn_makeKey_isSome hsame chunkIndex).mp (by simp [hfound]))
          (hunposed other chunkIndex (hmapped.mem_keys_iff.mp hkey))
    constructor
    · have hnodup : (getAvailableChunks resourceId state.1).Nodup := by
        rw [hperm.nodup_iff, OrderedMap.nodup_filterMap_keys_iff]
        intro first hfirst second hsecond index hfound hfoundSecond
        obtain ⟨chunkIndex, rfl, rfl⟩ := hindex first hfirst index hfound
        obtain ⟨otherIndex, hsame, rfl⟩ := hindex second hsecond _ hfoundSecond
        rw [Int.ofNat_inj.mp hsame]
      exact ((List.pairwise_insertionSort _ _).and hnodup).imp fun h ↦ lt_of_le_of_ne h.1 h.2
    · intro index
      rw [mem_getAvailableChunks_iff]
      constructor
      · rintro ⟨key, hkey, hfound⟩
        obtain ⟨chunkIndex, rfl, rfl⟩ := hindex key hkey index hfound
        exact ⟨chunkIndex, rfl, hmapped.mem_keys_iff.mp hkey⟩
      · rintro ⟨chunkIndex, rfl, hstored⟩
        exact ⟨_, hmapped.mem_keys_iff.mpr hstored, indexIn_makeKey_self resourceId chunkIndex⟩

/-- Clearing is right just when no stored resource is covered by the one that is cleared. -/
theorem Mapped.clear_iff (hmapped : Mapped state) :
    Holds (clear resourceId state.1) (state.2.call (.clear resourceId)) ↔
      ∀ other chunkIndex, (state.2 other chunkIndex).isSome = true →
        ¬ Covers resourceId other := by
  have hcleared : ∀ other chunkIndex,
      OrderedMap.get? (clear resourceId state.1) (makeKey other chunkIndex) =
        if startsWith resourceId (makeKey other chunkIndex) then none
        else state.2 other chunkIndex := by
    intro other chunkIndex
    rw [← hmapped.holds]
    exact get_clear state.1 resourceId other chunkIndex
  constructor
  · intro hholds other chunkIndex hstored hcovers
    have hkept := hholds other chunkIndex
    rw [hcleared, if_pos (startsWith_makeKey.mpr (Or.inr hcovers))] at hkept
    change none = (if other = resourceId then none else state.2 other chunkIndex) at hkept
    rw [if_neg hcovers.ne] at hkept
    rw [← hkept] at hstored
    exact Bool.false_ne_true hstored
  · intro huncovered other chunkIndex
    rw [hcleared]
    change _ = if other = resourceId then none else state.2 other chunkIndex
    by_cases hsame : other = resourceId
    · rw [if_pos hsame, if_pos (startsWith_makeKey.mpr (Or.inl hsame))]
    · rw [if_neg hsame]
      split_ifs with hstarts
      · have hfree : ¬ (state.2 other chunkIndex).isSome = true := fun hstored ↦
          huncovered other chunkIndex hstored ((startsWith_makeKey.mp hstarts).resolve_left hsame)
        exact (Option.not_isSome_iff_eq_none.mp hfree).symm
      · rfl

/-- A call does what the map says just when no other resource gets in its way. -/
theorem Mapped.refines_iff (hmapped : Mapped state) (storeCall : StoreCall) :
    Refines state storeCall ↔ Unshadowed state storeCall := by
  have hmap : MemoryChunkStore.get state.1 = state.2 := funext₂ hmapped.holds
  have hkept : (∀ resourceId, storeCall ≠ .clear resourceId) →
      Holds (memoryStep state storeCall).1 (memoryStep state storeCall).2 := by
    intro hkeeps other otherIndex
    exact (get_call_of_ne_clear hkeeps state.1 other otherIndex).trans (by rw [hmap]; rfl)
  cases storeCall with
  | put => exact iff_of_true ⟨rfl, hkept (by simp)⟩ trivial
  | get resourceId chunkIndex =>
    exact iff_of_true ⟨congrArg StoreResult.data (hmapped.holds resourceId chunkIndex),
      hkept (by simp)⟩ trivial
  | has resourceId chunkIndex =>
    refine iff_of_true ⟨congrArg StoreResult.present ?_, hkept (by simp)⟩ trivial
    rw [MemoryStorage.has, OrderedMap.has, hmapped.holds]
  | delete => exact iff_of_true ⟨rfl, hkept (by simp)⟩ trivial
  | getAvailableChunks resourceId =>
    change (∃ indices, StoreResult.indices _ = .indices indices ∧ _) ∧ Holds state.1 state.2 ↔ _
    simp only [StoreResult.indices.injEq, exists_eq_left', hmapped.lists_iff, hmapped.holds,
      and_true]
    rfl
  | clear resourceId => exact (and_iff_right rfl).trans hmapped.clear_iff

/-- The keys of the store stay keys of chunks. -/
theorem Mapped.keyed_step (hmapped : Mapped state) (storeCall : StoreCall) :
    ∀ key ∈ OrderedMap.keys (memoryStep state storeCall).1, ∃ resourceId chunkIndex,
      key = makeKey resourceId chunkIndex := by
  intro key hkey
  rw [OrderedMap.mem_keys_iff] at hkey
  cases storeCall with
  | put resourceId chunkIndex data =>
    change OrderedMap.has (OrderedMap.set state.1 _ data) key = true at hkey
    rw [OrderedMap.has_set, Bool.or_eq_true, decide_eq_true_eq] at hkey
    rcases hkey with hnew | hkey
    · exact ⟨resourceId, chunkIndex, hnew⟩
    · exact hmapped.keyed key (OrderedMap.mem_keys_iff.mpr hkey)
  | delete resourceId chunkIndex =>
    change OrderedMap.has (OrderedMap.delete state.1 _) key = true at hkey
    rw [OrderedMap.has_delete, Bool.and_eq_true] at hkey
    exact hmapped.keyed key (OrderedMap.mem_keys_iff.mpr hkey.2)
  | clear resourceId =>
    change OrderedMap.has (clear resourceId state.1) key = true at hkey
    rw [OrderedMap.has, clear, OrderedMap.get?_foldl_delete] at hkey
    split_ifs at hkey
    · exact absurd hkey Bool.false_ne_true
    · exact hmapped.keyed key (OrderedMap.mem_keys_iff.mpr hkey)
  | get | has | getAvailableChunks =>
    exact hmapped.keyed key (OrderedMap.mem_keys_iff.mpr hkey)

end States

/-- **The in-memory store is a map, as far as ids allow.** In a run from the empty store every call
resolves with what the map says and leaves the store with the chunks of the map, exactly when each
`getAvailableChunks` is made while no resource is stored that poses as the one asked for, and each
`clear` while none is stored that it covers. -/
theorem memoryStore_refines_iff (calls : List StoreCall) :
    Along memoryStep Refines (OrderedMap.empty, ChunkMap.empty) calls ↔
      Along memoryStep Unshadowed (OrderedMap.empty, ChunkMap.empty) calls := by
  constructor
  · refine along_of_invariant Mapped (fun state storeCall hmapped hrefines ↦ ?_)
      (fun state storeCall hmapped ↦ (hmapped.refines_iff storeCall).mp) mapped_empty
    exact ⟨hmapped.keyed_step storeCall, hrefines.2⟩
  · refine along_of_invariant Mapped (fun state storeCall hmapped hunshadowed ↦ ?_)
      (fun state storeCall hmapped ↦ (hmapped.refines_iff storeCall).mpr) mapped_empty
    exact ⟨hmapped.keyed_step storeCall, ((hmapped.refines_iff storeCall).mpr hunshadowed).2⟩

/-- A chunk of one resource is listed as another one's, and clearing a resource removes a chunk of
another. -/
theorem memoryStore_not_refines :
    ¬ Along memoryStep Refines (OrderedMap.empty, ChunkMap.empty)
        [.put "a::5" 7 [1], .getAvailableChunks "a"] ∧
      ¬ Along memoryStep Refines (OrderedMap.empty, ChunkMap.empty)
        [.put "a:" 0 [1], .clear "a"] := by
  constructor
  · rintro ⟨_, ⟨⟨indices, hindices, hlists⟩, _⟩, _⟩
    obtain rfl : [5] = indices := StoreResult.indices.inj hindices
    obtain ⟨chunkIndex, _, hstored⟩ := (hlists.mem_iff 5).mp List.mem_cons_self
    exact Bool.false_ne_true hstored
  · rintro ⟨_, ⟨_, hholds⟩, _⟩
    exact absurd (hholds "a:" 0) (by decide)

end CampusMesh.Web
