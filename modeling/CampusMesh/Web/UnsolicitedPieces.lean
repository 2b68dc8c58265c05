import CampusMesh.Web.CoordinatorInvariants
import CampusMesh.Web.HonestTransfer

/-!
# Pieces that were not asked for

The coordinator hands a block to the scheduler without saying from whom it came, and the scheduler
takes it for the chunk that it has requested, from whatever peer. So a block of a requested chunk is
kept and counted unless one with its offset is there already (`ignored_iff`).
-/

set_option autoImplicit false
set_option relaxedAutoImplicit false

namespace CampusMesh.Web

open Library Shared SchedulerState CoordinatorState

variable {σ : Type}

/-! ### The promise -/

/-- A PIECE frame has no effect: the coordinator with its schedulers, its store and its download is
as before, and the scheduler, if the block is handed to it, makes no call. -/
structure Ignored (digest : Bytes → Bytes) (chunkStore : ListingStore σ) (env : Env)
    (remotePeerId : String) (raw : Bytes) (state : CoordinatorState σ)
    (scheduler : ChunkScheduler) :
    Prop where
  unchanged : coordinatorStep digest chunkStore state (env, .dataMessage remotePeerId raw) = state
  silent : ∀ chunkIndex beginOffset totalLength data,
    decodeMessage raw = .ok (.PIECE scheduler.manifest.resourceId chunkIndex beginOffset totalLength
      data) →
    (handlePiece env chunkIndex beginOffset totalLength data
      (state.schedulerState scheduler)).1.calls = []

/-! ### Blocks in the books -/

/-- The blocks in the books of a chunk have not all come. -/
def Short (chunkIndex : ℕ) (state : SchedulerState σ) : Prop :=
  ∀ item, state.reassembly.get? chunkIndex = some item → item.receivedBytes < item.totalLength

section Short

variable {digest : Bytes → Bytes} {chunkStore : IChunkStore σ} {env : Env} {chunkIndex : ℕ}
  {state next : SchedulerState σ}

theorem Rebooks.short {mayRelease : Prop} (hrebooks : Rebooks chunkIndex mayRelease state next)
    (hshort : Short chunkIndex state) : Short chunkIndex next := by
  induction hrebooks with
  | refl => exact hshort
  | tail _ hrebook ih =>
    intro item hitem
    cases hrebook with
    | kept _ hblocks => exact ih item (hblocks ▸ hitem)
    | request _ hblocks => exact ih item (hblocks ▸ hitem)
    | release _ _ hblocks =>
      rw [hblocks] at hitem
      exact absurd hitem (by simp)

/-- With its last block a chunk leaves the books. -/
theorem perform_short (hwf : WellFormed state) (hshort : Short chunkIndex state)
    (event : SchedulerEvent) :
    Short chunkIndex (perform digest chunkStore env event state).1 := by
  by_cases hpiece : ∃ beginOffset totalLength data,
      event = .handlePiece chunkIndex beginOffset totalLength data
  · obtain ⟨beginOffset, totalLength, data, rfl⟩ := hpiece
    simp only [perform, handlePiece]
    split
    · exact hshort
    · next request hrequest =>
      split_ifs with hcomplete
      · have hcompleted := @completePiece_rebooks σ env chunkIndex True state chunkIndex request
          (receive chunkIndex beginOffset totalLength data state) fun _ ↦ trivial
        exact hcompleted.short hshort
      · intro item hitem
        change (state.reassembly.set chunkIndex _).get? chunkIndex = some item at hitem
        rw [OrderedMap.get?_set_self, Option.some.injEq] at hitem
        rw [← hitem]
        exact not_le.mp hcomplete
  · exact (perform_rebooks hwf fun beginOffset totalLength data heq ↦
      hpiece ⟨beginOffset, totalLength, data, heq⟩).short hshort

end Short

/-- A scheduler whose books are in order and hold no chunk whose blocks have all come. -/
structure AwaitsBlocks (σ : Type) (scheduler : ChunkScheduler) : Prop where
  wellFormed : ∀ heap store calls, WellFormed
    ({ scheduler with heap := heap, store := store, calls := calls } : SchedulerState σ)
  short : ∀ chunkIndex item, scheduler.reassembly.get? chunkIndex = some item →
    item.receivedBytes < item.totalLength

theorem awaitsBlocks_new (manifest : ResourceManifest) (localBitfield : Bitfield) :
    AwaitsBlocks σ (ChunkScheduler.new manifest localBitfield) where
  wellFormed heap store _ := by
    have h := wellFormed_new manifest localBitfield heap store
    exact ⟨h.1, h.2, h.3, h.4, h.5⟩
  short chunkIndex item hitem := by simp [ChunkScheduler.new] at hitem

theorem awaitsBlocks_kept (digest : Bytes → Bytes) (chunkStore : ListingStore σ) :
    KeptByEvents digest chunkStore (AwaitsBlocks σ) := by
  intro env event state hawaits
  have hwf : WellFormed state := hawaits.wellFormed state.heap state.store state.calls
  have h := (@schedulerStep_wellFormed σ digest chunkStore.toIChunkStore state hwf (env, event)).1
  exact ⟨fun _ _ _ ↦ ⟨h.1, h.2, h.3, h.4, h.5⟩, fun chunkIndex ↦
    perform_short hwf (hawaits.short chunkIndex) event⟩

/-! ### One block -/

section Block

variable {env : Env} {chunkIndex beginOffset : ℕ} {state : SchedulerState σ}

/-- A block whose offset is there already is dropped. -/
theorem handlePiece_of_has {item : ChunkReassembly}
    (hitem : state.reassembly.get? chunkIndex = some item)
    (hshort : item.receivedBytes < item.totalLength) (hhas : item.parts.has beginOffset = true)
    (totalLength : ℕ) (data : Bytes) :
    handlePiece env chunkIndex beginOffset totalLength data state = (state, none) := by
  have hreceived : receive chunkIndex beginOffset totalLength data state = item := by
    rw [receive, hitem, Option.getD_some, ChunkReassembly.add, if_pos hhas]
  unfold handlePiece
  split
  · rfl
  · simp only
    rw [hreceived, if_neg (not_le.mpr hshort), OrderedMap.set_eq_self hitem]

/-- A block that was added is there. -/
theorem has_add (item : ChunkReassembly) (beginOffset : ℕ) (data : Bytes) :
    (item.add beginOffset data).parts.has beginOffset = true := by
  unfold ChunkReassembly.add
  split_ifs with hhas
  · exact hhas
  · rw [OrderedMap.has_set, decide_eq_true rfl, Bool.true_or]

/-- Any other block of a requested chunk changes the books. -/
theorem has_of_handlePiece_eq {request : InFlightRequest}
    (hrequest : state.inFlight.get? chunkIndex = some request) {totalLength : ℕ} {data : Bytes}
    (hsame : (handlePiece env chunkIndex beginOffset totalLength data state).1.toChunkScheduler =
      state.toChunkScheduler) :
    ∃ item, state.reassembly.get? chunkIndex = some item ∧ item.parts.has beginOffset = true := by
  have hinFlight := congrArg ChunkScheduler.inFlight hsame
  have hblocks := congrArg ChunkScheduler.reassembly hsame
  simp only [handlePiece, hrequest] at hinFlight hblocks
  split_ifs at hinFlight hblocks with hcomplete
  · -- The request would be off the books.
    have hreleased : (completePiece env chunkIndex request
        (receive chunkIndex beginOffset totalLength data state) state).1.inFlight.get? chunkIndex =
          none := by
      rw [completePiece_eq]
      split
      · exact OrderedMap.get?_delete_self _ _
      · rw [inFlight_declareAssembled]
        exact OrderedMap.get?_delete_self _ _
    rw [hinFlight, hrequest] at hreleased
    exact absurd hreleased (by simp)
  · have hitem : state.reassembly.get? chunkIndex =
        some (receive chunkIndex beginOffset totalLength data state) := by
      rw [← hblocks]
      exact OrderedMap.get?_set_self _ _ _
    exact ⟨_, hitem, has_add _ beginOffset data⟩

end Block

/-- **When a block that was not asked for has no effect.** In every reachable state with a requested
chunk, whoever of the connected peers sends a block of it and whatever is in it: exactly when it is
not for the resource that is being downloaded, or a block with its offset has come already. The peer
that was asked and any other are treated alike. -/
theorem ignored_iff (digest : Bytes → Bytes) (chunkStore : ListingStore σ) (localPeerId : String)
    (store : σ) (inputs : List CoordinatorInput) (env : Env) {index : ℕ}
    {scheduler : ChunkScheduler}
    {remotePeerId resourceId : String} {raw data : Bytes} {chunkIndex beginOffset totalLength : ℕ}
    {request : InFlightRequest}
    (hcurrent : (coordinatorRun digest chunkStore localPeerId store inputs).scheduler = some index)
    (hscheduler : (coordinatorRun digest chunkStore localPeerId store inputs).schedulers[index]? =
      some scheduler)
    (hrequest : scheduler.inFlight.get? chunkIndex = some request)
    (hconnected :
      (coordinatorRun digest chunkStore localPeerId store inputs).peers.has remotePeerId = true)
    (hframe : decodeMessage raw = .ok (.PIECE resourceId chunkIndex beginOffset totalLength data)) :
    Ignored digest chunkStore env remotePeerId raw
        (coordinatorRun digest chunkStore localPeerId store inputs) scheduler ↔
      resourceId ≠ scheduler.manifest.resourceId ∨
        ∃ item, scheduler.reassembly.get? chunkIndex = some item ∧
          item.parts.has beginOffset = true := by
  have hawaits := allSchedulers_run (awaitsBlocks_kept digest chunkStore) awaitsBlocks_new
    localPeerId
    store inputs scheduler (List.mem_of_getElem? hscheduler)
  generalize coordinatorRun digest chunkStore localPeerId store inputs = state at *
  have hstep : coordinatorStep digest chunkStore state (env, .dataMessage remotePeerId raw) =
      if scheduler.manifest.resourceId = resourceId then
        (onScheduler digest chunkStore env index
          (.handlePiece chunkIndex beginOffset totalLength data) state).1
      else state := by
    simp only [coordinatorStep, hconnected, if_true, handleDataMessage, hframe, onSchedulerFor,
      onCurrentScheduler, isCurrentResource, hcurrent, hscheduler, Option.bind_some,
      Option.map_some, Option.some.injEq, decide_eq_true_eq]
  by_cases hother : scheduler.manifest.resourceId = resourceId
  · subst hother
    rw [if_pos rfl] at hstep
    rw [or_iff_right (not_not_intro rfl)]
    constructor
    · intro hignored
      have hkept := @get_onScheduler σ digest chunkStore env state index scheduler hscheduler
        (.handlePiece chunkIndex beginOffset totalLength data)
      rw [hstep.symm.trans hignored.unchanged, hscheduler, Option.some.injEq] at hkept
      exact @has_of_handlePiece_eq σ env chunkIndex beginOffset (state.schedulerState scheduler)
        request hrequest totalLength data hkept.symm
    · rintro ⟨item, hitem, hhas⟩
      have hdropped : ∀ totalLength data, handlePiece env chunkIndex beginOffset totalLength data
          (state.schedulerState scheduler) = (state.schedulerState scheduler, none) :=
        handlePiece_of_has hitem (hawaits.short chunkIndex item hitem) hhas
      constructor
      · rw [hstep]
        exact onScheduler_of_idle hscheduler (congrArg Prod.fst (hdropped totalLength data))
      · intro otherIndex otherOffset otherLength otherData hother
        rw [hframe, Except.ok.injEq, WireMessage.PIECE.injEq] at hother
        obtain ⟨-, rfl, rfl, rfl, rfl⟩ := hother
        rw [hdropped]
        rfl
  · refine iff_of_true ⟨hstep.trans (if_neg hother), ?_⟩ (.inl fun hsame ↦ hother hsame.symm)
    intro otherIndex otherOffset otherLength otherData hsame
    rw [hframe, Except.ok.injEq, WireMessage.PIECE.injEq] at hsame
    exact absurd hsame.1.symm hother

/-! ### A block of another peer -/

/-- The frame in which a peer says that it has the chunk of `res_1`. -/
def wholeFrame : Bytes := [1, 1, 5, 114, 101, 115, 95, 49, 0, 0, 0, 1, 0x80]

/-- The frame with a wrong byte for the chunk of `res_1`. -/
def forgedFrame : Bytes :=
  [1, 4, 5, 114, 101, 115, 95, 49, 0, 0, 0, 0, 0, 0, 0, 0, 0, 0, 0, 1, 0, 0, 0, 1, 8]

/-- Of two connected peers one has the chunk. -/
def awaitingRun : List CoordinatorInput :=
  [(calmEnv, .peerDiscovered "peer"), (calmEnv, .peerDiscovered "other"),
    (calmEnv, .channelOpened "peer"), (calmEnv, .channelOpened "other"),
    (calmEnv, .startDownload oneChunkManifest), (calmEnv, .dataMessage "peer" wholeFrame),
    (calmEnv, .startRead 0), (calmEnv, .startResumed 0)]

/-- The chunk is requested from that peer. -/
def awaitingState : CoordinatorState ChunkRecords :=
  coordinatorRun id IndexedDbChunkStore "me" ChunkRecords.empty awaitingRun

def awaitingScheduler : ChunkScheduler :=
  awaitingState.schedulers[0]?.getD (ChunkScheduler.new oneChunkManifest (Bitfield.new 1))

theorem awaitingState_schedulers : awaitingState.schedulers[0]? = some awaitingScheduler := by
  have hsome : awaitingState.schedulers[0]?.isSome = true := by decide +kernel
  obtain ⟨scheduler, hscheduler⟩ := Option.isSome_iff_exists.mp hsome
  rw [awaitingScheduler, hscheduler, Option.getD_some]

theorem awaitingState_request :
    awaitingScheduler.inFlight.get? 0 = some ⟨0, "peer", 0, 0, 1000⟩ := by rfl

set_option maxRecDepth 2000 in
theorem decodeMessage_forgedFrame : decodeMessage forgedFrame = .ok (.PIECE "res_1" 0 0 1 [8]) := by
  rfl

theorem ignored_iff_awaitingRun :
    Ignored id IndexedDbChunkStore calmEnv "other" forgedFrame awaitingState awaitingScheduler ↔
      "res_1" ≠ awaitingScheduler.manifest.resourceId ∨
        ∃ item, awaitingScheduler.reassembly.get? 0 = some item ∧ item.parts.has 0 = true :=
  ignored_iff id IndexedDbChunkStore "me" ChunkRecords.empty awaitingRun calmEnv
    (by decide +kernel) awaitingState_schedulers awaitingState_request (by decide +kernel)
    decodeMessage_forgedFrame

/-- The chunk is requested from one peer, and the block of another ends the request. -/
theorem awaitingRun_takes_unsolicited :
    awaitingState.scheduler = some 0 ∧ awaitingState.schedulers[0]? = some awaitingScheduler ∧
      awaitingScheduler.inFlight.get? 0 = some ⟨0, "peer", 0, 0, 1000⟩ ∧
      awaitingState.peers.has "other" = true ∧
      decodeMessage forgedFrame = .ok (.PIECE "res_1" 0 0 1 [8]) ∧
      ¬ Ignored id IndexedDbChunkStore calmEnv "other" forgedFrame awaitingState
        awaitingScheduler := by
  refine ⟨by decide +kernel, awaitingState_schedulers, awaitingState_request, by decide +kernel,
    decodeMessage_forgedFrame, fun hignored ↦ ?_⟩
  have hrequested := congrArg (fun reached : CoordinatorState ChunkRecords ↦
    reached.schedulers.map fun scheduler ↦ scheduler.inFlight.has 0) hignored.unchanged
  revert hrequested
  decide +kernel

end CampusMesh.Web
