import CampusMesh.Library.ByteBuffer
import CampusMesh.Library.OrderedMap
import Mathlib.Data.List.Sort

/-!
# Chunk stores

`IChunkStore` is the part of the storage interface that downloading uses, on stores of some type:
writing and reading a chunk, with the law that ties them together. `MemoryChunkStore` and
`IndexedDbChunkStore` are its two implementations. Both key a chunk by the text
`<resourceId>::<chunkIndex>`, which determines resource and index (`makeKey_inj`). The database also
indexes its records by resource, and so lists the chunks of one (`ListingStore`).
-/

set_option autoImplicit false
set_option relaxedAutoImplicit false

namespace CampusMesh.Web

open Library

/-- A store of chunks: reading gives back what was last written under the same resource and
index. -/
structure IChunkStore (σ : Type) where
  put : σ → String → ℕ → Bytes → σ
  get : σ → String → ℕ → Option Bytes
  get_put : ∀ store resourceId chunkIndex data other otherIndex,
    get (put store resourceId chunkIndex data) other otherIndex =
      if other = resourceId ∧ otherIndex = chunkIndex then some data else get store other otherIndex

/-- A store that also lists the chunks it holds of a resource. -/
structure ListingStore (σ : Type) extends IChunkStore σ where
  getAvailableChunks : σ → String → List ℕ
  mem_getAvailableChunks : ∀ store resourceId chunkIndex,
    chunkIndex ∈ getAvailableChunks store resourceId ↔
      (get store resourceId chunkIndex).isSome = true

/-! ### Keys -/

/-- The key of a chunk: `${resourceId}::${chunkIndex}`. Indices are safe integers, which JavaScript
writes in decimal digits. -/
def makeKey (resourceId : String) (chunkIndex : ℕ) : String :=
  resourceId ++ "::" ++ toString chunkIndex

/-- Two texts that end in a colon and further characters without colons have the same end. -/
private theorem append_colon_inj {front back front' back' : List Char}
    (hback : ':' ∉ back) (hback' : ':' ∉ back')
    (heq : front ++ ':' :: back = front' ++ ':' :: back') : front = front' ∧ back = back' := by
  induction front generalizing front' with
  | nil =>
    cases front' with
    | nil => exact ⟨rfl, (List.cons.inj heq).2⟩
    | cons char rest =>
      rw [List.nil_append, List.cons_append, List.cons.injEq] at heq
      exact absurd (heq.2 ▸ List.mem_append_right rest List.mem_cons_self) hback
  | cons char rest ih =>
    cases front' with
    | nil =>
      rw [List.nil_append, List.cons_append, List.cons.injEq] at heq
      exact absurd (heq.2.symm ▸ List.mem_append_right rest List.mem_cons_self) hback'
    | cons char' rest' =>
      rw [List.cons_append, List.cons_append, List.cons.injEq] at heq
      obtain ⟨hrest, hends⟩ := ih heq.2
      exact ⟨by rw [heq.1, hrest], hends⟩

theorem colon_not_mem_toDigits (value : ℕ) : ':' ∉ Nat.toDigits 10 value := fun hmem ↦
  absurd (Nat.isDigit_of_mem_toDigits (by decide) (by decide) hmem) (by decide)

/-- The key of a chunk determines its resource and its index, whatever the resource id is. -/
theorem makeKey_inj {resourceId other : String} {chunkIndex otherIndex : ℕ} :
    makeKey resourceId chunkIndex = makeKey other otherIndex ↔
      resourceId = other ∧ chunkIndex = otherIndex := by
  constructor
  · intro heq
    have hchars := congrArg String.toList heq
    simp only [makeKey, String.toList_append, Nat.toString_eq_repr, Nat.toList_repr] at hchars
    have hsplit : ∀ text digits : List Char,
        text ++ "::".toList ++ digits = (text ++ [':']) ++ ':' :: digits := fun text digits ↦ by
      rw [List.append_assoc, List.append_assoc]
      rfl
    rw [hsplit, hsplit] at hchars
    obtain ⟨hfront, hdigits⟩ := append_colon_inj (colon_not_mem_toDigits chunkIndex)
      (colon_not_mem_toDigits otherIndex) hchars
    refine ⟨String.toList_injective (List.append_cancel_right hfront), ?_⟩
    rw [← Nat.ofDigitChars_ten_toDigits (n := chunkIndex), hdigits,
      Nat.ofDigitChars_ten_toDigits]
  · rintro ⟨rfl, rfl⟩
    rfl

/-! ### The two stores -/

/-- The storage of a `MemoryChunkStore`. -/
abbrev MemoryStorage := OrderedMap String Bytes

/-- The in-memory chunk store. -/
def MemoryChunkStore : IChunkStore MemoryStorage where
  put storage resourceId chunkIndex data := storage.set (makeKey resourceId chunkIndex) data
  get storage resourceId chunkIndex := storage.get? (makeKey resourceId chunkIndex)
  get_put storage resourceId chunkIndex data other otherIndex := by
    rw [OrderedMap.get?_set]
    simp only [makeKey_inj]

/-- A record of the object store. -/
structure ChunkRecord where
  resourceId : String
  chunkIndex : ℕ
  data : Bytes

/-- The records of the object store, whose key path is `key`. Every record carries the resource and
the index that its key names. -/
structure ChunkRecords where
  records : OrderedMap String ChunkRecord
  key_eq : ∀ key record, records.get? key = some record →
    key = makeKey record.resourceId record.chunkIndex

/-- The object store without records. -/
def ChunkRecords.empty : ChunkRecords := ⟨OrderedMap.empty, fun _ _ hget ↦ by simp at hget⟩

/-- `IndexedDbChunkStore.put` on an open database. -/
def ChunkRecords.put (store : ChunkRecords) (resourceId : String) (chunkIndex : ℕ) (data : Bytes) :
    ChunkRecords where
  records := store.records.set (makeKey resourceId chunkIndex) ⟨resourceId, chunkIndex, data⟩
  key_eq key record hget := by
    rw [OrderedMap.get?_set] at hget
    split_ifs at hget with hkey
    · rw [hkey, ← Option.some.inj hget]
    · exact store.key_eq key record hget

/-- `IndexedDbChunkStore.get` on an open database. -/
def ChunkRecords.get (store : ChunkRecords) (resourceId : String) (chunkIndex : ℕ) : Option Bytes :=
  (store.records.get? (makeKey resourceId chunkIndex)).map ChunkRecord.data

/-- `IndexedDbChunkStore.getAvailableChunks` on an open database: the records of the resource, by
index. -/
def ChunkRecords.getAvailableChunks (store : ChunkRecords) (resourceId : String) : List ℕ :=
  ((store.records.values.filter fun record ↦ record.resourceId = resourceId).map
    ChunkRecord.chunkIndex).insertionSort (· ≤ ·)

/-- The chunk store of the browser, on a database that stays open. -/
def IndexedDbChunkStore : ListingStore ChunkRecords where
  put := ChunkRecords.put
  get := ChunkRecords.get
  get_put store resourceId chunkIndex data other otherIndex := by
    rw [ChunkRecords.get, ChunkRecords.put, OrderedMap.get?_set]
    simp only [makeKey_inj]
    split_ifs <;> rfl
  getAvailableChunks := ChunkRecords.getAvailableChunks
  mem_getAvailableChunks store resourceId chunkIndex := by
    rw [ChunkRecords.getAvailableChunks, List.mem_insertionSort, ChunkRecords.get,
      Option.isSome_map, Option.isSome_iff_exists]
    simp only [List.mem_map, List.mem_filter, decide_eq_true_eq, OrderedMap.mem_values_iff]
    constructor
    · rintro ⟨record, ⟨⟨key, hget⟩, rfl⟩, rfl⟩
      rw [← store.key_eq key record hget]
      exact ⟨record, hget⟩
    · rintro ⟨record, hget⟩
      obtain ⟨hresource, hindex⟩ := makeKey_inj.mp (store.key_eq _ record hget)
      exact ⟨record, ⟨⟨_, hget⟩, hresource.symm⟩, hindex.symm⟩

end CampusMesh.Web
