import CampusMesh.Library.Runs
import CampusMesh.Web.IndexedDbStore

/-!
# When the fallback keeps the promise of one map

A chunk that was put is to be seen by every later operation until it is deleted, cleared or put
again, and no operation is to reject because the database did not open (`OneMap`). Three things
break this: opening fails while an operation waits that did not open the database itself; the
database opens while the store in memory holds a chunk that it does not; and the store in memory
clears a resource whose keys begin as those of another one. A run in which none of these happens
(`Harmless`) keeps the promise, and any other breaks it (`oneMap_iff`).
-/

set_option autoImplicit false
set_option relaxedAutoImplicit false

namespace CampusMesh.Web

open Library IndexedDbState

/-! ### The promise -/

/-- The map that the calls that have gone on make, in their order. One that rejects does nothing. -/
def mapOf (settled : List (StoreCall × Option StoreResult)) : ChunkMap :=
  settled.foldl (fun map entry ↦ if entry.2.isSome then map.call entry.1 else map) ChunkMap.empty

/-- The operation sees the chunks of the map. -/
def Sees (map : ChunkMap) : StoreCall → StoreResult → Prop
  | .get resourceId chunkIndex, result =>
    ∀ data, map resourceId chunkIndex = some data → result = .data (some data)
  | .has resourceId chunkIndex, result =>
    ∀ data, map resourceId chunkIndex = some data → result = .present true
  | .getAvailableChunks resourceId, result => ∃ indices, result = .indices indices ∧
    ∀ chunkIndex data, map resourceId chunkIndex = some data → (chunkIndex : ℤ) ∈ indices
  | .put .., _ | .delete .., _ | .clear .., _ => True

/-- Where operations look from now on, unless the database opens first. -/
def IndexedDbState.found (state : IndexedDbState) : ChunkMap :=
  if state.dbPromise = .resolved then state.records.get
  else MemoryChunkStore.get state.getFallback

/-- The chunks of the map are in the other one. -/
def ChunkMap.Within (map other : ChunkMap) : Prop :=
  ∀ resourceId chunkIndex data, map resourceId chunkIndex = some data →
    other resourceId chunkIndex = some data

/-- Every operation that has gone on resolves, and has seen the chunks that were there; none is
bound to reject; and the chunks that are there now are found from now on. -/
structure OneMap (state : IndexedDbState) : Prop where
  seen : ∀ before entry after, state.settled = before ++ entry :: after →
    ∃ result, entry.2 = some result ∧ Sees (mapOf before) entry.1 result
  answering : ∀ operation ∈ state.operations, operation.stage ≠ .thrown
  found : (mapOf state.settled).Within state.found

/-! ### The condition -/

/-- When opening fails nobody waits but the one that opened the database; when the database opens it
holds what is in memory; and the store in memory clears a resource only while it holds no chunk of
one that it covers. -/
def Harmless (state : IndexedDbState) : DbEvent → Prop
  | .call _ => True
  | .openFails => state.mayFire = true → ∀ operation ∈ state.operations, operation.stage ≠ .joiner
  | .openSucceeds => state.mayFire = true →
    ChunkMap.Within (MemoryChunkStore.get state.getFallback) state.records.get
  | .proceed => ∀ resourceId rest, state.operations = ⟨.clear resourceId, .null⟩ :: rest →
    ∀ other chunkIndex, (MemoryChunkStore.get state.getFallback other chunkIndex).isSome = true →
      ¬ Covers resourceId other

/-! ### What every run keeps -/

/-- Who got the database did so once it was open, who got `null` before; and until then what is in
memory was put there and not removed. -/
structure Staged (state : IndexedDbState) : Prop where
  unavailable : state.available = false → state.dbPromise = .unset
  database : ∀ operation ∈ state.operations, operation.stage = .database →
    state.dbPromise = .resolved
  null : ∀ operation ∈ state.operations, operation.stage = .null → state.dbPromise ≠ .resolved
  waiting : ∀ operation ∈ state.operations, operation.stage.isWaiting = true →
    state.dbPromise = .pending
  memory : state.dbPromise ≠ .resolved →
    ChunkMap.Within (MemoryChunkStore.get state.getFallback) (mapOf state.settled)

theorem mapOf_append (settled : List (StoreCall × Option StoreResult)) (storeCall : StoreCall)
    (result : Option StoreResult) : mapOf (settled ++ [(storeCall, result)]) =
      if result.isSome then (mapOf settled).call storeCall else mapOf settled := by
  rw [mapOf, List.foldl_append]
  rfl

/-- A call does more for a map with more chunks. -/
theorem ChunkMap.Within.call {map other : ChunkMap} (hwithin : map.Within other)
    (storeCall : StoreCall) : (map.call storeCall).Within (other.call storeCall) := by
  intro resourceId chunkIndex data hdata
  cases storeCall with
  | put putId putIndex putData =>
    simp only [ChunkMap.call] at hdata ⊢
    split_ifs at hdata ⊢
    · exact hdata
    · exact hwithin _ _ _ hdata
  | delete deleteId deleteIndex =>
    simp only [ChunkMap.call] at hdata ⊢
    split_ifs at hdata ⊢
    exact hwithin _ _ _ hdata
  | clear clearId =>
    simp only [ChunkMap.call] at hdata ⊢
    split_ifs at hdata ⊢
    exact hwithin _ _ _ hdata
  | get | has | getAvailableChunks => exact hwithin _ _ _ hdata

/-- The store in memory finds no more after a call than the map says. -/
theorem memory_call_within (storage : MemoryStorage) (storeCall : StoreCall) :
    ChunkMap.Within (MemoryChunkStore.get (MemoryStorage.call storage storeCall).1)
      (ChunkMap.call (MemoryChunkStore.get storage) storeCall) := by
  intro other otherIndex data hdata
  by_cases hclear : ∃ resourceId, storeCall = .clear resourceId
  · obtain ⟨resourceId, rfl⟩ := hclear
    change MemoryChunkStore.get (MemoryStorage.clear resourceId storage) _ _ = _ at hdata
    rw [get_clear] at hdata
    split_ifs at hdata with hstarts
    have hne : other ≠ resourceId := fun hsame ↦ hstarts (startsWith_makeKey.mpr (Or.inl hsame))
    exact (if_neg hne).trans hdata
  · rw [get_call_of_ne_clear (fun resourceId h ↦ hclear ⟨resourceId, h⟩)] at hdata
    exact hdata

theorem staged_new (available : Bool) (records : ChunkRecords) :
    Staged (IndexedDbState.new available records) where
  unavailable _ := rfl
  database _ h := absurd h List.not_mem_nil
  null _ h := absurd h List.not_mem_nil
  waiting _ h := absurd h List.not_mem_nil
  memory _ _ _ _ h := h

/-- What holds of every entry of a list and those before it, and of a further one, holds of the
longer list. -/
theorem forall_split_append {α : Type} {holds : List α → α → Prop} {items : List α} {last : α}
    (hitems : ∀ before entry after, items = before ++ entry :: after → holds before entry)
    (hlast : holds items last) (before : List α) (entry : α) (after : List α)
    (hsplit : items ++ [last] = before ++ entry :: after) : holds before entry := by
  rcases List.eq_nil_or_concat after with rfl | ⟨init, final, rfl⟩
  · obtain ⟨rfl, hentry⟩ := List.append_inj' hsplit rfl
    exact List.head_eq_of_cons_eq hentry ▸ hlast
  · rw [List.concat_eq_append, ← List.cons_append, ← List.append_assoc] at hsplit
    exact hitems before entry init (List.append_inj' hsplit rfl).1

/-- What the store in memory resolves with shows the chunks that it holds. -/
theorem memory_sees {map : ChunkMap} {storage : MemoryStorage}
    (hwithin : map.Within (MemoryChunkStore.get storage)) (storeCall : StoreCall) :
    Sees map storeCall (MemoryStorage.call storage storeCall).2 := by
  cases storeCall with
  | put | delete | clear => trivial
  | get resourceId chunkIndex =>
    exact fun data hdata ↦ congrArg StoreResult.data (hwithin _ _ data hdata)
  | has resourceId chunkIndex =>
    exact fun data hdata ↦ congrArg StoreResult.present
      (OrderedMap.has_iff_exists.mpr ⟨data, hwithin _ _ data hdata⟩)
  | getAvailableChunks resourceId =>
    refine ⟨_, rfl, fun chunkIndex data hdata ↦ (mem_getAvailableChunks_iff _ _).mpr
      ⟨_, OrderedMap.mem_keys_iff.mpr ?_, indexIn_makeKey_self resourceId chunkIndex⟩⟩
    exact OrderedMap.has_iff_exists.mpr ⟨data, hwithin _ _ data hdata⟩

/-- What a transaction resolves with shows the chunks that the database holds. -/
theorem database_sees {map : ChunkMap} {records : ChunkRecords} (hwithin : map.Within records.get)
    (storeCall : StoreCall) : Sees map storeCall (records.call storeCall).2 := by
  cases storeCall with
  | put | delete | clear => trivial
  | get resourceId chunkIndex =>
    exact fun data hdata ↦ congrArg StoreResult.data (hwithin _ _ data hdata)
  | has resourceId chunkIndex =>
    refine fun data hdata ↦ congrArg StoreResult.present ?_
    obtain ⟨record, hrecord, _⟩ := Option.map_eq_some_iff.mp (hwithin _ _ data hdata)
    exact OrderedMap.has_iff_exists.mpr ⟨record, hrecord⟩
  | getAvailableChunks resourceId =>
    refine ⟨_, rfl, fun chunkIndex data hdata ↦ List.mem_map.mpr ⟨chunkIndex, ?_, rfl⟩⟩
    refine (IndexedDbChunkStore.mem_getAvailableChunks records resourceId chunkIndex).mpr ?_
    exact Option.isSome_iff_exists.mpr ⟨data, hwithin _ _ data hdata⟩

section Steps

variable {state : IndexedDbState}

/-- A call asks `getDb`, and gets in line. -/
theorem Staged.call_eq (hstaged : Staged state) (storeCall : StoreCall) :
    ∃ dbPromise stage, state.call storeCall =
        { state with
          dbPromise := dbPromise
          operations := state.operations ++ [⟨storeCall, stage⟩] } ∧
      (dbPromise = .resolved ↔ state.dbPromise = .resolved) ∧
      (state.dbPromise = .pending → dbPromise = .pending) ∧
      (state.available = false → dbPromise = .unset) ∧
      (stage = .database → dbPromise = .resolved) ∧ (stage = .null → dbPromise ≠ .resolved) ∧
      (stage.isWaiting = true → dbPromise = .pending) ∧ stage ≠ .thrown := by
  unfold IndexedDbState.call getDb
  cases havailable : state.available with
  | false =>
    have hunset := hstaged.unavailable havailable
    exact ⟨.unset, .null, by simp [havailable, hunset], by simp [hunset], by simp [hunset],
      by simp [DbStage.isWaiting]⟩
  | true =>
    cases hpromise : state.dbPromise with
    | resolved =>
      exact ⟨.resolved, .database, by simp [havailable, hpromise], by simp [DbStage.isWaiting]⟩
    | pending => exact ⟨.pending, .joiner, by simp [havailable, hpromise], by simp⟩
    | unset => exact ⟨.pending, .opener, by simp, by simp⟩

theorem Staged.call (hstaged : Staged state) (storeCall : StoreCall) :
    Staged (state.call storeCall) := by
  obtain ⟨dbPromise, stage, hcall, hresolved, hpending, hunavailable, hdatabase, hnull, hwaiting,
    _⟩ := hstaged.call_eq storeCall
  rw [hcall]
  refine ⟨hunavailable, fun operation hmem hstage ↦ ?_, fun operation hmem hstage ↦ ?_,
    fun operation hmem hstage ↦ ?_, fun hnot ↦ hstaged.memory (mt hresolved.mpr hnot)⟩
  all_goals
    rcases List.mem_append.mp hmem with hold | hnew
  · exact hresolved.mpr (hstaged.database operation hold hstage)
  · obtain rfl := List.mem_singleton.mp hnew
    exact hdatabase hstage
  · exact mt hresolved.mp (hstaged.null operation hold hstage)
  · obtain rfl := List.mem_singleton.mp hnew
    exact hnull hstage
  · exact hpending (hstaged.waiting operation hold hstage)
  · obtain rfl := List.mem_singleton.mp hnew
    exact hwaiting hstage

/-- A call does not change where chunks are found, and is not bound to reject. -/
theorem OneMap.call (honeMap : OneMap state) (hstaged : Staged state) (storeCall : StoreCall) :
    OneMap (state.call storeCall) := by
  obtain ⟨dbPromise, stage, hcall, hresolved, _, _, _, _, _, hthrown⟩ :=
    hstaged.call_eq storeCall
  rw [hcall]
  refine ⟨honeMap.seen, fun operation hmem ↦ ?_, ?_⟩
  · rcases List.mem_append.mp hmem with hold | hnew
    · exact honeMap.answering operation hold
    · exact List.mem_singleton.mp hnew ▸ hthrown
  · have hfound := honeMap.found
    unfold IndexedDbState.found at hfound ⊢
    simp only [hresolved]
    exact hfound

/-- When the request may fire its event, the promise is pending and everybody waits for it. -/
theorem mayFire_iff : state.mayFire = true ↔ state.dbPromise = .pending ∧
    ∀ operation ∈ state.operations, operation.stage.isWaiting = true := by
  rw [mayFire, Bool.and_eq_true, decide_eq_true_eq, List.all_eq_true]

theorem DbStage.afterSuccess_eq {stage : DbStage} (hwaiting : stage.isWaiting = true) :
    stage.afterSuccess = .database := by
  cases stage with
  | opener | joiner => rfl
  | null | database | thrown => exact absurd hwaiting Bool.false_ne_true

theorem DbStage.afterFailure_eq {stage : DbStage} (hwaiting : stage.isWaiting = true) :
    stage.afterFailure = if stage = .joiner then .thrown else .null := by
  cases stage with
  | opener | joiner => rfl
  | null | database | thrown => exact absurd hwaiting Bool.false_ne_true

theorem Staged.openSucceeds (hstaged : Staged state) : Staged state.openSucceeds := by
  unfold IndexedDbState.openSucceeds
  split_ifs with hfire
  · obtain ⟨hpending, hwaiting⟩ := mayFire_iff.mp hfire
    have hstage : ∀ operation ∈ state.operations.map fun operation ↦
        { operation with stage := operation.stage.afterSuccess },
          operation.stage = .database := by
      intro operation hmem
      obtain ⟨asked, hasked, rfl⟩ := List.mem_map.mp hmem
      exact DbStage.afterSuccess_eq (hwaiting asked hasked)
    refine ⟨fun hunavailable ↦ ?_, fun _ _ _ ↦ rfl, fun operation hmem hnull ↦ ?_,
      fun operation hmem hnot ↦ ?_, fun hnot ↦ absurd rfl hnot⟩
    · exact absurd (hpending.symm.trans (hstaged.unavailable hunavailable)) (by decide)
    · exact absurd ((hstage operation hmem).symm.trans hnull) (by decide)
    · rw [hstage operation hmem] at hnot
      exact absurd hnot Bool.false_ne_true
  · exact hstaged

theorem Staged.openFails (hstaged : Staged state) : Staged state.openFails := by
  unfold IndexedDbState.openFails
  split_ifs with hfire
  · obtain ⟨hpending, hwaiting⟩ := mayFire_iff.mp hfire
    have hstage : ∀ operation ∈ state.operations.map fun operation ↦
        { operation with stage := operation.stage.afterFailure },
          operation.stage = .thrown ∨ operation.stage = .null := by
      intro operation hmem
      obtain ⟨asked, hasked, rfl⟩ := List.mem_map.mp hmem
      simp only [DbStage.afterFailure_eq (hwaiting asked hasked)]
      split_ifs
      · exact Or.inl rfl
      · exact Or.inr rfl
    refine ⟨fun _ ↦ rfl, fun operation hmem hdatabase ↦ ?_, fun _ _ _ ↦ by simp,
      fun operation hmem hnot ↦ ?_, fun _ ↦ hstaged.memory (by simp [hpending])⟩
    · rcases hstage operation hmem with hthrown | hnull
      · exact absurd (hthrown.symm.trans hdatabase) (by decide)
      · exact absurd (hnull.symm.trans hdatabase) (by decide)
    · rcases hstage operation hmem with hthrown | hnull
      · exact absurd hnot (by rw [hthrown]; exact Bool.false_ne_true)
      · exact absurd hnot (by rw [hnull]; exact Bool.false_ne_true)
  · exact hstaged

/-- Opening keeps the promise just when the database holds what is in memory. -/
theorem OneMap.openSucceeds_iff (honeMap : OneMap state) (hstaged : Staged state) :
    OneMap state.openSucceeds ↔ Harmless state .openSucceeds := by
  unfold IndexedDbState.openSucceeds
  change _ ↔ (state.mayFire = true → _)
  split_ifs with hfire
  · obtain ⟨hpending, hwaiting⟩ := mayFire_iff.mp hfire
    have hclosed : state.dbPromise ≠ .resolved := by simp [hpending]
    have hheld := honeMap.found
    rw [IndexedDbState.found, if_neg hclosed] at hheld
    rw [imp_iff_right hfire]
    constructor
    · intro hopened resourceId chunkIndex data hdata
      exact hopened.found resourceId chunkIndex data
        (hstaged.memory hclosed resourceId chunkIndex data hdata)
    · intro hwithin
      refine ⟨honeMap.seen, fun operation hmem ↦ ?_, fun resourceId chunkIndex data hdata ↦ ?_⟩
      · obtain ⟨asked, hasked, rfl⟩ := List.mem_map.mp hmem
        simp [DbStage.afterSuccess_eq (hwaiting asked hasked)]
      · exact hwithin resourceId chunkIndex data (hheld resourceId chunkIndex data hdata)
  · exact iff_of_true honeMap fun h ↦ absurd h hfire

/-- Failing to open keeps the promise just when nobody waits for the one that opened. -/
theorem OneMap.openFails_iff (honeMap : OneMap state) :
    OneMap state.openFails ↔ Harmless state .openFails := by
  unfold IndexedDbState.openFails
  change _ ↔ (state.mayFire = true → _)
  split_ifs with hfire
  · obtain ⟨hpending, hwaiting⟩ := mayFire_iff.mp hfire
    rw [imp_iff_right hfire]
    constructor
    · intro hfailed operation hmem hjoiner
      refine hfailed.answering _ (List.mem_map.mpr ⟨operation, hmem, rfl⟩) ?_
      rw [hjoiner]
      rfl
    · intro hopeners
      refine ⟨honeMap.seen, fun operation hmem ↦ ?_, ?_⟩
      · obtain ⟨asked, hasked, rfl⟩ := List.mem_map.mp hmem
        simp [DbStage.afterFailure_eq (hwaiting asked hasked), hopeners asked hasked]
      · have hheld := honeMap.found
        rw [IndexedDbState.found, if_neg (by simp [hpending])] at hheld
        exact hheld
  · exact iff_of_true honeMap fun h ↦ absurd h hfire

/-! ### Going on -/

variable {storeCall : StoreCall} {rest : List StoreOperation}

/-- An operation goes on with the store in memory. -/
def IndexedDbState.inMemory (state : IndexedDbState) (storeCall : StoreCall)
    (rest : List StoreOperation) : IndexedDbState :=
  { state with
    memoryFallback := some (MemoryStorage.call state.getFallback storeCall).1
    operations := rest
    settled := state.settled ++
      [(storeCall, some (MemoryStorage.call state.getFallback storeCall).2)] }

/-- An operation goes on with the database. -/
def IndexedDbState.inDatabase (state : IndexedDbState) (storeCall : StoreCall)
    (rest : List StoreOperation) : IndexedDbState :=
  { state with
    records := (state.records.call storeCall).1
    operations := rest
    settled := state.settled ++ [(storeCall, some (state.records.call storeCall).2)] }

/-- The operations behind the oldest one are at the same stages. -/
theorem Staged.tail {next : IndexedDbState} {operation : StoreOperation} (hstaged : Staged state)
    (hoperations : state.operations = operation :: rest) (hrest : next.operations = rest)
    (havailable : next.available = state.available) (hpromise : next.dbPromise = state.dbPromise)
    (hmemory : next.dbPromise ≠ .resolved →
      ChunkMap.Within (MemoryChunkStore.get next.getFallback) (mapOf next.settled)) :
    Staged next := by
  have hbehind : ∀ other ∈ next.operations, other ∈ state.operations := by
    intro other hmem
    rw [hoperations]
    exact List.mem_cons_of_mem _ (hrest ▸ hmem)
  exact ⟨fun h ↦ hpromise.trans (hstaged.unavailable (havailable.symm.trans h)),
    fun other hmem h ↦ hpromise.trans (hstaged.database other (hbehind other hmem) h),
    fun other hmem h ↦ hpromise ▸ hstaged.null other (hbehind other hmem) h,
    fun other hmem h ↦ hpromise.trans (hstaged.waiting other (hbehind other hmem) h), hmemory⟩

theorem Staged.inMemory (hstaged : Staged state)
    (hoperations : state.operations = ⟨storeCall, .null⟩ :: rest) :
    Staged (state.inMemory storeCall rest) := by
  refine hstaged.tail hoperations rfl rfl rfl fun hclosed ↦ ?_
  intro resourceId chunkIndex data hdata
  rw [IndexedDbState.inMemory, mapOf_append, Option.isSome_some, if_pos rfl]
  exact (hstaged.memory hclosed).call storeCall resourceId chunkIndex data
    (memory_call_within state.getFallback storeCall resourceId chunkIndex data hdata)

theorem Staged.inDatabase (hstaged : Staged state)
    (hoperations : state.operations = ⟨storeCall, .database⟩ :: rest) :
    Staged (state.inDatabase storeCall rest) := by
  refine hstaged.tail hoperations rfl rfl rfl fun hclosed ↦ ?_
  exact absurd (hstaged.database _ (hoperations ▸ List.mem_cons_self) rfl) hclosed

/-- Every step keeps the stages. -/
theorem Staged.proceed (hstaged : Staged state) : Staged state.proceed := by
  unfold IndexedDbState.proceed
  split
  · exact hstaged
  next storeCall stage rest hoperations =>
    cases stage with
    | opener => exact hstaged
    | joiner => exact hstaged
    | null => exact hstaged.inMemory hoperations
    | database => exact hstaged.inDatabase hoperations
    | thrown =>
      refine hstaged.tail hoperations rfl rfl rfl fun hclosed ↦ ?_
      rw [mapOf_append]
      exact hstaged.memory hclosed

/-- Going on in memory keeps the promise just when what is cleared covers nothing stored. -/
theorem OneMap.inMemory_iff (honeMap : OneMap state) (hstaged : Staged state)
    (hoperations : state.operations = ⟨storeCall, .null⟩ :: rest) :
    OneMap (state.inMemory storeCall rest) ↔ Harmless state .proceed := by
  have hclosed := hstaged.null _ (hoperations ▸ List.mem_cons_self) rfl
  have hheld := honeMap.found
  rw [IndexedDbState.found, if_neg hclosed] at hheld
  have hmap : mapOf (state.inMemory storeCall rest).settled =
      (mapOf state.settled).call storeCall := by
    rw [IndexedDbState.inMemory, mapOf_append, Option.isSome_some, if_pos rfl]
  have hfound : (state.inMemory storeCall rest).found =
      MemoryChunkStore.get (MemoryStorage.call state.getFallback storeCall).1 :=
    if_neg hclosed
  constructor
  · intro hnext resourceId behind hclear other chunkIndex hstored hcovers
    rw [hoperations, List.cons.injEq, StoreOperation.mk.injEq] at hclear
    obtain ⟨⟨rfl, _⟩, _⟩ := hclear
    obtain ⟨data, hdata⟩ := Option.isSome_iff_exists.mp hstored
    have hkept := hnext.found other chunkIndex data
    rw [hmap, hfound] at hkept
    have hlost := hkept ((if_neg hcovers.ne).trans (hstaged.memory hclosed _ _ _ hdata))
    change MemoryChunkStore.get (MemoryStorage.clear resourceId state.getFallback) _ _ = _ at hlost
    rw [get_clear, if_pos (startsWith_makeKey.mpr (Or.inr hcovers))] at hlost
    exact absurd hlost (by simp)
  · intro hharmless
    refine ⟨forall_split_append honeMap.seen ⟨_, rfl, memory_sees hheld storeCall⟩,
      fun operation hmem ↦ honeMap.answering operation ?_, ?_⟩
    · rw [hoperations]
      exact List.mem_cons_of_mem _ hmem
    · rw [hmap, hfound]
      intro other chunkIndex data hdata
      have hstored := hheld.call storeCall other chunkIndex data hdata
      by_cases hclear : ∃ resourceId, storeCall = .clear resourceId
      · obtain ⟨resourceId, rfl⟩ := hclear
        change (if other = resourceId then none else _) = _ at hstored
        split_ifs at hstored with hsame
        have hkept : ¬ MemoryStorage.startsWith resourceId (makeKey other chunkIndex) = true := by
          rw [startsWith_makeKey]
          rintro (h | hcovers)
          · exact hsame h
          · exact hharmless resourceId rest hoperations other chunkIndex
              (Option.isSome_iff_exists.mpr ⟨data, hstored⟩) hcovers
        change MemoryChunkStore.get (MemoryStorage.clear resourceId state.getFallback) _ _ = _
        rw [get_clear, if_neg hkept]
        exact hstored
      · rw [get_call_of_ne_clear fun resourceId h ↦ hclear ⟨resourceId, h⟩]
        exact hstored

/-- Going on with the database keeps the promise. -/
theorem OneMap.inDatabase (honeMap : OneMap state) (hstaged : Staged state)
    (hoperations : state.operations = ⟨storeCall, .database⟩ :: rest) :
    OneMap (state.inDatabase storeCall rest) := by
  have hopen := hstaged.database _ (hoperations ▸ List.mem_cons_self) rfl
  have hheld := honeMap.found
  rw [IndexedDbState.found, if_pos hopen] at hheld
  refine ⟨forall_split_append honeMap.seen ⟨_, rfl, database_sees hheld storeCall⟩,
    fun operation hmem ↦ honeMap.answering operation ?_, ?_⟩
  · rw [hoperations]
    exact List.mem_cons_of_mem _ hmem
  · have hfound : (state.inDatabase storeCall rest).found = (state.records.call storeCall).1.get :=
      if_pos hopen
    rw [hfound, IndexedDbState.inDatabase, mapOf_append, Option.isSome_some, if_pos rfl,
      ChunkRecords.get_call]
    exact hheld.call storeCall

theorem OneMap.proceed_iff (honeMap : OneMap state) (hstaged : Staged state) :
    OneMap state.proceed ↔ Harmless state .proceed := by
  have hharmless : ∀ operation rest, state.operations = operation :: rest →
      operation.stage ≠ .null → Harmless state .proceed := by
    intro operation rest hoperations hstage resourceId behind hclear
    rw [hoperations, List.cons.injEq] at hclear
    exact absurd (congrArg StoreOperation.stage hclear.1) hstage
  unfold IndexedDbState.proceed
  split
  next hnone =>
    refine iff_of_true honeMap fun resourceId behind hclear ↦ ?_
    rw [hnone] at hclear
    exact absurd hclear (by simp)
  next storeCall stage rest hoperations =>
    cases stage with
    | opener => exact iff_of_true honeMap (hharmless _ rest hoperations (by simp))
    | joiner => exact iff_of_true honeMap (hharmless _ rest hoperations (by simp))
    | null => exact honeMap.inMemory_iff hstaged hoperations
    | database =>
      exact iff_of_true (honeMap.inDatabase hstaged hoperations)
        (hharmless _ rest hoperations (by simp))
    | thrown =>
      exact absurd rfl (honeMap.answering _ (hoperations ▸ List.mem_cons_self))

/-- A step gets calls in line, and takes the oldest one out. -/
theorem order_step (state : IndexedDbState) (event : DbEvent) :
    (dbStep state event).settled.map Prod.fst ++
        (dbStep state event).operations.map StoreOperation.storeCall =
      state.settled.map Prod.fst ++ state.operations.map StoreOperation.storeCall ++
        event.storeCall.toList := by
  cases event with
  | call storeCall =>
    have hasked : state.getDb.1.settled = state.settled ∧
        state.getDb.1.operations = state.operations := by
      unfold getDb
      split_ifs
      · exact ⟨rfl, rfl⟩
      · split
        all_goals exact ⟨rfl, rfl⟩
    change state.getDb.1.settled.map Prod.fst ++
      (state.getDb.1.operations ++ [_]).map StoreOperation.storeCall = _
    rw [hasked.1, hasked.2, List.map_append, List.append_assoc]
    rfl
  | openSucceeds =>
    simp only [dbStep, IndexedDbState.openSucceeds]
    split_ifs
    · simp [Function.comp_def, DbEvent.storeCall]
    · exact (List.append_nil _).symm
  | openFails =>
    simp only [dbStep, IndexedDbState.openFails]
    split_ifs
    · simp [Function.comp_def, DbEvent.storeCall]
    · exact (List.append_nil _).symm
  | proceed =>
    simp only [dbStep, IndexedDbState.proceed]
    split
    · exact (List.append_nil _).symm
    next storeCall stage rest hoperations =>
      rw [hoperations]
      cases stage with
      | opener | joiner => simp [hoperations, DbEvent.storeCall]
      | null | database | thrown => simp [DbEvent.storeCall]

end Steps

/-! ### Runs -/

/-- Operations go on in the order in which they were called. -/
theorem order_run (available : Bool) (records : ChunkRecords) (events : List DbEvent) :
    (dbRun available records events).settled.map Prod.fst ++
        (dbRun available records events).operations.map StoreOperation.storeCall =
      events.filterMap DbEvent.storeCall := by
  induction events using List.reverseRecOn with
  | nil => rfl
  | append_singleton earlier event ih =>
    rw [dbRun, run_append, run_cons, run_nil, order_step, List.filterMap_append]
    change (dbRun available records earlier).settled.map _ ++
      (dbRun available records earlier).operations.map _ ++ _ = _
    rw [ih]
    cases hcall : event.storeCall <;> simp [hcall]

theorem Staged.step {state : IndexedDbState} (hstaged : Staged state) (event : DbEvent) :
    Staged (dbStep state event) := by
  cases event with
  | call storeCall => exact hstaged.call storeCall
  | openSucceeds => exact hstaged.openSucceeds
  | openFails => exact hstaged.openFails
  | proceed => exact hstaged.proceed

/-- A step keeps the promise just when it is harmless. -/
theorem OneMap.step_iff {state : IndexedDbState} (honeMap : OneMap state) (hstaged : Staged state)
    (event : DbEvent) : OneMap (dbStep state event) ↔ Harmless state event := by
  cases event with
  | call storeCall => exact iff_of_true (honeMap.call hstaged storeCall) trivial
  | openSucceeds => exact honeMap.openSucceeds_iff hstaged
  | openFails => exact honeMap.openFails_iff
  | proceed => exact honeMap.proceed_iff hstaged

theorem oneMap_new (available : Bool) (records : ChunkRecords) :
    OneMap (IndexedDbState.new available records) where
  seen before entry after h := absurd h (by simp [IndexedDbState.new])
  answering _ h := absurd h List.not_mem_nil
  found _ _ _ h := absurd h (by simp [IndexedDbState.new, mapOf, ChunkMap.empty])

/-- **The store is one map in harmless runs, and in no others.** However calls, the outcomes of
opening and the steps of the operations interleave, operations go on in the order in which they were
called, and the promise holds in every state of a run exactly when every step of it is harmless. -/
theorem oneMap_iff (available : Bool) (records : ChunkRecords) (events : List DbEvent) :
    (dbRun available records events).settled.map Prod.fst ++
          (dbRun available records events).operations.map StoreOperation.storeCall =
        events.filterMap DbEvent.storeCall ∧
      ((∀ before later, events = before ++ later → OneMap (dbRun available records before)) ↔
        Along dbStep Harmless (IndexedDbState.new available records) events) :=
  ⟨order_run available records events,
    forall_prefix_iff_along Staged (fun _ event hstaged ↦ hstaged.step event)
      (fun _ event hstaged honeMap ↦ honeMap.step_iff hstaged event)
      (staged_new available records) (oneMap_new available records) events⟩

/-- The database opens at the second attempt. -/
def lateOpening : List DbEvent :=
  [.call (.put "resource" 0 [1]), .openFails, .proceed, .call (.get "resource" 0), .openSucceeds,
    .proceed]

/-- Two calls wait for one attempt, which fails. -/
def sharedOpening : List DbEvent :=
  [.call (.put "resource" 0 [1]), .call (.put "resource" 1 [2]), .openFails, .proceed, .proceed]

/-- A chunk that was put is not found once the database opens, and a call rejects because opening
failed for another one. -/
theorem oneMap_fails : ¬ OneMap (dbRun true ChunkRecords.empty lateOpening) ∧
    ¬ OneMap (dbRun true ChunkRecords.empty sharedOpening) := by
  constructor
  · intro honeMap
    obtain ⟨result, hresult, hsees⟩ := honeMap.seen [(.put "resource" 0 [1], some .done)]
      (.get "resource" 0, some (.data none)) [] rfl
    obtain rfl := Option.some.inj hresult
    exact absurd (hsees [1] rfl) (by decide)
  · intro honeMap
    obtain ⟨result, hresult, _⟩ := honeMap.seen [(.put "resource" 0 [1], some .done)]
      (.put "resource" 1 [2], none) [] rfl
    exact absurd hresult (by simp)

end CampusMesh.Web
