import CampusMesh.Web.ChunkStore

/-!
# What a chunk store is for

A chunk store is a map from resources and indices to chunks. `ChunkMap` is this map, `StoreCall` are
the methods of `IChunkStore`, `ChunkMap.call` says what each does to the map, and `ChunkMap.Answers`
what it resolves with. The stores of the browser are compared with it.
-/

set_option autoImplicit false
set_option relaxedAutoImplicit false

namespace CampusMesh.Web

open Library

/-- A call of a store. -/
inductive StoreCall
  | put (resourceId : String) (chunkIndex : ℕ) (data : Bytes)
  | get (resourceId : String) (chunkIndex : ℕ)
  | has (resourceId : String) (chunkIndex : ℕ)
  | delete (resourceId : String) (chunkIndex : ℕ)
  | getAvailableChunks (resourceId : String)
  | clear (resourceId : String)

/-- What a call resolves with. -/
inductive StoreResult
  | done
  | data (found : Option Bytes)
  | present (found : Bool)
  | indices (found : List ℤ)
  deriving DecidableEq

/-- The chunks that are stored. -/
abbrev ChunkMap := String → ℕ → Option Bytes

namespace ChunkMap

/-- The map without chunks. -/
def empty : ChunkMap := fun _ _ ↦ none

/-- What a call does to the map. -/
def call (map : ChunkMap) : StoreCall → ChunkMap
  | .put resourceId chunkIndex data => fun other otherIndex ↦
    if other = resourceId ∧ otherIndex = chunkIndex then some data else map other otherIndex
  | .delete resourceId chunkIndex => fun other otherIndex ↦
    if other = resourceId ∧ otherIndex = chunkIndex then none else map other otherIndex
  | .clear resourceId => fun other otherIndex ↦
    if other = resourceId then none else map other otherIndex
  | .get .. | .has .. | .getAvailableChunks .. => map

/-- The list has the indices that are there of the resource, each once, in ascending order. -/
structure Lists (map : ChunkMap) (resourceId : String) (indices : List ℤ) : Prop where
  ascending : indices.Pairwise (· < ·)
  mem_iff : ∀ index : ℤ, index ∈ indices ↔
    ∃ chunkIndex : ℕ, index = chunkIndex ∧ (map resourceId chunkIndex).isSome = true

/-- The result that a call has to resolve with. -/
def Answers (map : ChunkMap) : StoreCall → StoreResult → Prop
  | .put .., result | .delete .., result | .clear .., result => result = .done
  | .get resourceId chunkIndex, result => result = .data (map resourceId chunkIndex)
  | .has resourceId chunkIndex, result => result = .present (map resourceId chunkIndex).isSome
  | .getAvailableChunks resourceId, result =>
    ∃ indices, result = .indices indices ∧ map.Lists resourceId indices

end ChunkMap

end CampusMesh.Web
