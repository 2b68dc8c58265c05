import CampusMesh.Web.MemoryChunkMap

/-!
# The chunk store of the browser

The class `IndexedDbChunkStore` with its methods as they interleave. A method asks `getDb` for the
database. The first one to ask opens it; others that ask meanwhile wait for the same promise. When
it opens, all go on with the database, and so do all later ones. When it fails to open, `getDb`
catches that for the method that opened it, which goes on with a store in memory, and not for those
that waited with it, which reject; the next one that asks opens the database again.

Operations go on in the order in which they were called: continuations run in turn, an event of the
request for opening comes when none is left, and of two transactions on the object store the one
created first goes first. Transactions on an open database are reliable.
-/

set_option autoImplicit false
set_option relaxedAutoImplicit false

namespace CampusMesh.Web

open Library

/-! ### The database -/

namespace ChunkRecords

/-- `count(key) > 0`. -/
def has (store : ChunkRecords) (resourceId : String) (chunkIndex : ℕ) : Bool :=
  store.records.has (makeKey resourceId chunkIndex)

def delete (store : ChunkRecords) (resourceId : String) (chunkIndex : ℕ) : ChunkRecords where
  records := store.records.delete (makeKey resourceId chunkIndex)
  key_eq key record hget := by
    rw [OrderedMap.get?_delete] at hget
    split_ifs at hget
    exact store.key_eq key record hget

/-- The cursor goes over the records of the resource, and deletes each by its primary key. -/
def clear (store : ChunkRecords) (resourceId : String) : ChunkRecords where
  records := (store.records.entries.filter fun entry ↦ entry.2.resourceId = resourceId).foldl
    (fun reached entry ↦ reached.delete entry.1) store.records
  key_eq key record hget := by
    rw [OrderedMap.get?_foldl_delete] at hget
    split_ifs at hget
    exact store.key_eq key record hget

/-- A transaction. -/
def call (store : ChunkRecords) : StoreCall → ChunkRecords × StoreResult
  | .put resourceId chunkIndex data => (store.put resourceId chunkIndex data, .done)
  | .get resourceId chunkIndex => (store, .data (store.get resourceId chunkIndex))
  | .has resourceId chunkIndex => (store, .present (store.has resourceId chunkIndex))
  | .delete resourceId chunkIndex => (store.delete resourceId chunkIndex, .done)
  | .getAvailableChunks resourceId =>
    (store, .indices ((store.getAvailableChunks resourceId).map Int.ofNat))
  | .clear resourceId => (store.clear resourceId, .done)

theorem get_delete (store : ChunkRecords) (resourceId : String) (chunkIndex : ℕ) (other : String)
    (otherIndex : ℕ) : (store.delete resourceId chunkIndex).get other otherIndex =
      if other = resourceId ∧ otherIndex = chunkIndex then none
      else store.get other otherIndex := by
  rw [get, delete, OrderedMap.get?_delete]
  simp only [makeKey_inj]
  split_ifs <;> rfl

/-- Clearing is by the resource that a record carries, so it is exact. -/
theorem get_clear (store : ChunkRecords) (resourceId other : String) (otherIndex : ℕ) :
    (store.clear resourceId).get other otherIndex =
      if other = resourceId then none else store.get other otherIndex := by
  have hmem : makeKey other otherIndex ∈ (store.records.entries.filter fun entry ↦
        decide (entry.2.resourceId = resourceId)).map Prod.fst ↔
      other = resourceId ∧ (store.records.get? (makeKey other otherIndex)).isSome = true := by
    rw [List.mem_map, Option.isSome_iff_exists]
    constructor
    · rintro ⟨⟨key, record⟩, hentry, rfl⟩
      obtain ⟨hentry, hresource⟩ := List.mem_filter.mp hentry
      have hget := OrderedMap.mem_entries_iff.mp hentry
      have hkey := makeKey_inj.mp (store.key_eq _ record hget)
      exact ⟨hkey.1.trans (of_decide_eq_true hresource), record, hget⟩
    · rintro ⟨rfl, record, hget⟩
      have hkey := makeKey_inj.mp (store.key_eq _ record hget)
      exact ⟨⟨_, record⟩, List.mem_filter.mpr
        ⟨OrderedMap.mem_entries_iff.mpr hget, decide_eq_true hkey.1.symm⟩, rfl⟩
  rw [get, clear, OrderedMap.get?_foldl_delete]
  simp only [hmem]
  by_cases hsame : other = resourceId
  · rw [if_pos hsame]
    cases hget : store.records.get? (makeKey other otherIndex) with
    | none => simp
    | some record => simp [hsame]
  · rw [if_neg hsame, if_neg fun h ↦ hsame (And.left h), get]

/-- A transaction does to the records what the map says. -/
theorem get_call (store : ChunkRecords) (storeCall : StoreCall) :
    (store.call storeCall).1.get = ChunkMap.call store.get storeCall := by
  funext other otherIndex
  cases storeCall with
  | put resourceId chunkIndex data =>
    exact IndexedDbChunkStore.get_put store resourceId chunkIndex data other otherIndex
  | delete resourceId chunkIndex => exact store.get_delete resourceId chunkIndex other otherIndex
  | clear resourceId => exact store.get_clear resourceId other otherIndex
  | get | has | getAvailableChunks => rfl

end ChunkRecords

/-! ### Operations -/

/-- The promise of the database. -/
inductive DbPromise
  | unset | pending | resolved
  deriving DecidableEq

/-- How far an operation is with `getDb`. -/
inductive DbStage
  /-- It opened the database, and waits in the `try` for the promise. -/
  | opener
  /-- It waits for the promise that another one made. -/
  | joiner
  /-- `getDb` resolved with `null`. -/
  | null
  /-- `getDb` resolved with the database. -/
  | database
  /-- `getDb` rejected. -/
  | thrown
  deriving DecidableEq

namespace DbStage

def isWaiting : DbStage → Bool
  | opener | joiner => true
  | null | database | thrown => false

/-- The stage once the database has opened. -/
def afterSuccess : DbStage → DbStage
  | opener | joiner => database
  | stage => stage

/-- The stage once opening has failed. -/
def afterFailure : DbStage → DbStage
  | opener => null
  | joiner => thrown
  | stage => stage

end DbStage

/-- A call that has not gone on from `getDb` yet. -/
structure StoreOperation where
  storeCall : StoreCall
  stage : DbStage

/-- The fields of the store, the records of the database, and whether there is `indexedDB` at all.
For the history, the calls that have gone on, in order, with what they resolve with; nothing for one
that rejects. -/
structure IndexedDbState where
  available : Bool
  dbPromise : DbPromise
  memoryFallback : Option MemoryStorage
  records : ChunkRecords
  operations : List StoreOperation
  settled : List (StoreCall × Option StoreResult)

namespace IndexedDbState

/-- A new store, on a database with records from earlier on. -/
def new (available : Bool) (records : ChunkRecords) : IndexedDbState :=
  ⟨available, .unset, none, records, [], []⟩

def getFallback (state : IndexedDbState) : MemoryStorage :=
  state.memoryFallback.getD OrderedMap.empty

/-- `getDb`, up to where it waits. -/
def getDb (state : IndexedDbState) : IndexedDbState × DbStage :=
  if state.available = false then (state, .null)
  else
    match state.dbPromise with
    | .resolved => (state, .database)
    | .pending => (state, .joiner)
    | .unset => ({ state with dbPromise := .pending }, .opener)

/-- A method is called. -/
def call (storeCall : StoreCall) (state : IndexedDbState) : IndexedDbState :=
  let (asked, stage) := state.getDb
  { asked with operations := asked.operations ++ [⟨storeCall, stage⟩] }

/-- The request for opening may fire an event: no continuation is left that could run first. -/
def mayFire (state : IndexedDbState) : Bool :=
  decide (state.dbPromise = .pending) && state.operations.all fun operation ↦
    operation.stage.isWaiting

/-- `request.onsuccess`. -/
def openSucceeds (state : IndexedDbState) : IndexedDbState :=
  if state.mayFire then
    { state with
      dbPromise := .resolved
      operations := state.operations.map fun operation ↦
        { operation with stage := operation.stage.afterSuccess } }
  else state

/-- `request.onerror`. -/
def openFails (state : IndexedDbState) : IndexedDbState :=
  if state.mayFire then
    { state with
      dbPromise := .unset
      operations := state.operations.map fun operation ↦
        { operation with stage := operation.stage.afterFailure } }
  else state

/-- The oldest operation goes on, if it does not wait for the promise. -/
def proceed (state : IndexedDbState) : IndexedDbState :=
  match state.operations with
  | [] => state
  | ⟨storeCall, stage⟩ :: rest =>
    match stage with
    | .opener | .joiner => state
    | .null =>
      let (storage, result) := MemoryStorage.call state.getFallback storeCall
      { state with
        memoryFallback := some storage
        operations := rest
        settled := state.settled ++ [(storeCall, some result)] }
    | .database =>
      let (records, result) := state.records.call storeCall
      { state with
        records := records
        operations := rest
        settled := state.settled ++ [(storeCall, some result)] }
    | .thrown =>
      { state with
        operations := rest
        settled := state.settled ++ [(storeCall, none)] }

end IndexedDbState

/-- What can happen. -/
inductive DbEvent
  | call (storeCall : StoreCall)
  | openSucceeds
  | openFails
  | proceed

/-- The call that the event makes. -/
def DbEvent.storeCall : DbEvent → Option StoreCall
  | .call storeCall => some storeCall
  | _ => none

/-- One step. -/
def dbStep (state : IndexedDbState) : DbEvent → IndexedDbState
  | .call storeCall => state.call storeCall
  | .openSucceeds => state.openSucceeds
  | .openFails => state.openFails
  | .proceed => state.proceed

/-- The run of a new store. -/
def dbRun (available : Bool) (records : ChunkRecords) (events : List DbEvent) : IndexedDbState :=
  run dbStep (IndexedDbState.new available records) events

end CampusMesh.Web
