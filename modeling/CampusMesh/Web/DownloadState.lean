import CampusMesh.Web.CoordinatorInvariants

/-!
# The download record

The record `state.download` says truthfully how far its download is when it says nothing about
another one: a completed download has all its chunks in the store, and everything counted in it is a
chunk of its resource (`TruthfulDownload`).

A scheduler that was stopped still finishes what it waits for, and its callbacks write to the record
of its successor. `ReportsOwn` is the condition that no scheduler reports progress while the record
is about another download; under it the record is truthful after every run
(`truthfulDownload_of_reportsOwn`).
-/

set_option autoImplicit false
set_option relaxedAutoImplicit false

namespace CampusMesh.Web

open Library Shared SchedulerState CoordinatorState

variable {σ : Type}

/-! ### The promise -/

/-- How many of the first chunks of a resource are stored. -/
def storedChunks (chunkStore : IChunkStore σ) (store : σ) : Option String → ℕ → ℕ
  | none, _ => 0
  | some resourceId, totalChunks =>
    (List.range totalChunks).countP fun chunkIndex ↦
      (chunkStore.get store resourceId chunkIndex).isSome

/-- All chunks of the download on record are stored. -/
def AllStored (chunkStore : IChunkStore σ) (store : σ) (download : Download) : Prop :=
  ∃ resourceId, download.resourceId = some resourceId ∧
    ∀ chunkIndex < download.totalChunks, Present chunkStore store resourceId chunkIndex

/-- The bytes of the chunks counted from peers or from the origin. -/
def creditedBytes (fromP2P : Bool) (credits : List Credit) : ℕ :=
  ((credits.filter fun credit ↦ credit.fromP2P = fromP2P).map Credit.byteLength).sum

/-- How many chunks were counted from peers or from the origin. -/
def creditedChunks (fromP2P : Bool) (credits : List Credit) : ℕ :=
  credits.countP fun credit ↦ credit.fromP2P = fromP2P

/-- The download record is about one download: completed only if all its chunks are stored, and it
counts nothing but its chunks. -/
structure TruthfulDownload (chunkStore : IChunkStore σ) (state : CoordinatorState σ) : Prop where
  completed : state.download.status = .completed → AllStored chunkStore state.store state.download
  completedChunks : state.download.completedChunks ≤
    storedChunks chunkStore state.store state.download.resourceId state.download.totalChunks
  credits : ∀ credit ∈ state.history.credits, state.download.resourceId = some credit.resourceId ∧
    credit.chunkIndex < state.download.totalChunks
  chunksFromP2P : state.download.chunksFromP2P = creditedChunks true state.history.credits
  chunksFromOrigin : state.download.chunksFromOrigin = creditedChunks false state.history.credits
  bytesFromP2P : state.download.bytesFromP2P = creditedBytes true state.history.credits
  bytesFromOrigin : state.download.bytesFromOrigin = creditedBytes false state.history.credits

/-- A scheduler is for the download on record. -/
def IsFor (download : Download) (scheduler : ChunkScheduler) : Prop :=
  download.resourceId = some scheduler.manifest.resourceId ∧
    download.totalChunks = scheduler.manifest.totalChunks

/-- The event makes a scheduler report progress: it goes on behind a finished write, or it runs the
loop of a complete download. -/
def ReportsProgress (state : SchedulerState σ) (event : SchedulerEvent) : Prop :=
  Stores state event ∨ (RunsLoop state event ∧ state.localBitfield.isComplete = true)

/-- A frame that runs the loop of the scheduler for a resource. -/
def RunsLoopOf (resourceId : String) : WireMessage → Prop
  | .BITFIELD other _ _ | .HAVE other _ | .UNCHOKE other => other = resourceId
  | _ => False

/-- A scheduler that reports progress in this event is for the download on record. -/
def ReportsOwn (state : CoordinatorState σ) : CoordinatorEvent → Prop
  | .timeout index timer => ∀ scheduler, state.schedulers[index]? = some scheduler →
    ReportsProgress (state.schedulerState scheduler) (.timeout timer) →
      IsFor state.download scheduler
  | .settled index task settlement => ∀ scheduler, state.schedulers[index]? = some scheduler →
    ReportsProgress (state.schedulerState scheduler) (.settled task settlement) →
      IsFor state.download scheduler
  | .peerLeft _ => ∀ scheduler, IsCurrent state scheduler → scheduler.isRunning = true →
    scheduler.localBitfield.isComplete = true → IsFor state.download scheduler
  | .channelClosed remotePeerId => state.peers.has remotePeerId = true →
    ∀ scheduler, IsCurrent state scheduler → scheduler.isRunning = true →
      scheduler.localBitfield.isComplete = true → IsFor state.download scheduler
  | .dataMessage remotePeerId raw => state.peers.has remotePeerId = true →
    ∀ message, decodeMessage raw = .ok message → ∀ scheduler, IsCurrent state scheduler →
      RunsLoopOf scheduler.manifest.resourceId message → scheduler.isRunning = true →
        scheduler.localBitfield.isComplete = true → IsFor state.download scheduler
  | _ => True

/-! ### Calls -/

section Calls

variable {chunkStore : IChunkStore σ} {state next : CoordinatorState σ}

theorem storedChunks_mono {store larger : σ} (hgrows : StoreGrows chunkStore store larger)
    (resourceId : Option String) (totalChunks : ℕ) :
    storedChunks chunkStore store resourceId totalChunks ≤
      storedChunks chunkStore larger resourceId totalChunks := by
  cases resourceId with
  | none => exact le_rfl
  | some resourceId => exact List.countP_mono_left fun chunkIndex _ h ↦ hgrows _ _ h

theorem AllStored.mono {store larger : σ} (hgrows : StoreGrows chunkStore store larger)
    {download : Download} (hstored : AllStored chunkStore store download) :
    AllStored chunkStore larger download := by
  obtain ⟨resourceId, hid, hall⟩ := hstored
  exact ⟨resourceId, hid, fun chunkIndex hrange ↦ hgrows _ _ (hall chunkIndex hrange)⟩

/-- The record stays truthful while the store grows. -/
theorem TruthfulDownload.mono (htruthful : TruthfulDownload chunkStore state)
    (hgrows : StoreGrows chunkStore state.store next.store)
    (hdownload : next.download = state.download)
    (hcredits : next.history.credits = state.history.credits) :
    TruthfulDownload chunkStore next where
  completed hstatus := by
    rw [hdownload] at hstatus ⊢
    exact (htruthful.completed hstatus).mono hgrows
  completedChunks := by
    rw [hdownload]
    exact le_trans htruthful.completedChunks (storedChunks_mono hgrows _ _)
  credits := by
    rw [hdownload, hcredits]
    exact htruthful.credits
  chunksFromP2P := by rw [hdownload, hcredits, htruthful.chunksFromP2P]
  chunksFromOrigin := by rw [hdownload, hcredits, htruthful.chunksFromOrigin]
  bytesFromP2P := by rw [hdownload, hcredits, htruthful.bytesFromP2P]
  bytesFromOrigin := by rw [hdownload, hcredits, htruthful.bytesFromOrigin]

/-- What a report of a scheduler for a resource says of the download on record. -/
def CallTruthful (chunkStore : IChunkStore σ) (state : CoordinatorState σ) (resourceId : String) :
    Call → Prop
  | .onChunkCompleted chunkIndex _ _ _ =>
    state.download.resourceId = some resourceId ∧ chunkIndex < state.download.totalChunks
  | .onDownloadProgress completed _ => completed ≤
    storedChunks chunkStore state.store state.download.resourceId state.download.totalChunks
  | .onDownloadComplete => AllStored chunkStore state.store state.download
  | _ => True

theorem callTruthful_of_silent (state : CoordinatorState σ) (resourceId : String) {call : Call}
    (hsilent : call.isProgress = false) : CallTruthful chunkStore state resourceId call := by
  cases call <;> trivial

/-- What a report says does not depend on what other calls change. -/
theorem CallTruthful.reported {resourceId : String} {call : Call}
    (hcall : CallTruthful chunkStore state resourceId call) (hreported : Reported state next) :
    CallTruthful chunkStore next resourceId call := by
  cases call with
  | onChunkCompleted chunkIndex fromP2P byteLength latencyMs =>
    rw [CallTruthful, hreported.resourceId, hreported.totalChunks]
    exact hcall
  | onDownloadProgress completed total =>
    rw [CallTruthful, hreported.store, hreported.resourceId, hreported.totalChunks]
    exact hcall
  | onDownloadComplete =>
    rw [CallTruthful, AllStored, hreported.store, hreported.resourceId, hreported.totalChunks]
    exact hcall
  | _ => trivial

theorem TruthfulDownload.send (htruthful : TruthfulDownload chunkStore state) (peerId : String)
    (buffer : Bytes) : TruthfulDownload chunkStore (send peerId buffer state) := by
  unfold CoordinatorState.send
  split
  · split_ifs
    · exact htruthful.mono (StoreGrows.refl _ _) rfl rfl
    · exact htruthful
  · exact htruthful

/-- A chunk of the download on record is counted. -/
theorem TruthfulDownload.onChunkCompleted (htruthful : TruthfulDownload chunkStore state)
    {resourceId : String} {chunkIndex : ℕ} (hid : state.download.resourceId = some resourceId)
    (hrange : chunkIndex < state.download.totalChunks) (fromP2P : Bool) (byteLength : ℕ) :
    TruthfulDownload chunkStore
      (onChunkCompleted resourceId chunkIndex fromP2P byteLength state) := by
  have hcredits : ∀ credit ∈ state.history.credits ++
      [(⟨resourceId, chunkIndex, fromP2P, byteLength⟩ : Credit)],
      state.download.resourceId = some credit.resourceId ∧
        credit.chunkIndex < state.download.totalChunks := by
    intro credit hmem
    rcases List.mem_append.mp hmem with hold | hnew
    · exact htruthful.credits credit hold
    · rw [List.mem_singleton.mp hnew]
      exact ⟨hid, hrange⟩
  cases fromP2P with
  | true =>
    refine ⟨htruthful.completed, htruthful.completedChunks, hcredits, ?_, ?_, ?_, ?_⟩
    · simp [Web.onChunkCompleted, creditedChunks, htruthful.chunksFromP2P]
    · simp [Web.onChunkCompleted, creditedChunks, htruthful.chunksFromOrigin]
    · simp [Web.onChunkCompleted, creditedBytes, htruthful.bytesFromP2P]
    · simp [Web.onChunkCompleted, creditedBytes, htruthful.bytesFromOrigin]
  | false =>
    refine ⟨htruthful.completed, htruthful.completedChunks, hcredits, ?_, ?_, ?_, ?_⟩
    · simp [Web.onChunkCompleted, creditedChunks, htruthful.chunksFromP2P]
    · simp [Web.onChunkCompleted, creditedChunks, htruthful.chunksFromOrigin]
    · simp [Web.onChunkCompleted, creditedBytes, htruthful.bytesFromP2P]
    · simp [Web.onChunkCompleted, creditedBytes, htruthful.bytesFromOrigin]

/-- A true report keeps the record truthful. -/
theorem TruthfulDownload.applyCall (htruthful : TruthfulDownload chunkStore state)
    {resourceId : String} {call : Call}
    (hcall : CallTruthful chunkStore state resourceId call) :
    TruthfulDownload chunkStore (applyCall resourceId state call) := by
  cases call with
  | sendToPeer peerId buffer sent => exact htruthful.send peerId buffer
  | onChunkCompleted chunkIndex fromP2P byteLength latencyMs =>
    exact htruthful.onChunkCompleted hcall.1 hcall.2 fromP2P byteLength
  | onDownloadProgress completed total =>
    exact ⟨htruthful.1, hcall, htruthful.3, htruthful.4, htruthful.5, htruthful.6, htruthful.7⟩
  | onDownloadComplete =>
    exact ⟨fun _ ↦ hcall, htruthful.2, htruthful.3, htruthful.4, htruthful.5, htruthful.6,
      htruthful.7⟩
  | onError message =>
    exact ⟨htruthful.1, htruthful.2, htruthful.3, htruthful.4, htruthful.5, htruthful.6,
      htruthful.7⟩
  | broadcastToPeers buffer => exact htruthful.mono (StoreGrows.refl _ _) rfl rfl
  | _ => exact htruthful

theorem TruthfulDownload.applyCalls {resourceId : String} {calls : List Call}
    (htruthful : TruthfulDownload chunkStore state)
    (hcalls : ∀ call ∈ calls, CallTruthful chunkStore state resourceId call) :
    TruthfulDownload chunkStore (calls.foldl (Web.applyCall resourceId) state) := by
  induction calls generalizing state with
  | nil => exact htruthful
  | cons call rest ih =>
    refine ih (htruthful.applyCall (hcalls call List.mem_cons_self)) fun other hother ↦ ?_
    exact (hcalls other (List.mem_cons_of_mem call hother)).reported
      (reported_applyCall resourceId state call)

end Calls

/-! ### Events -/

/-- A grounded coordinator whose download record is truthful. -/
structure Truthful (chunkStore : IChunkStore σ) (state : CoordinatorState σ) : Prop where
  grounded : Grounded chunkStore state
  download : TruthfulDownload chunkStore state

section Events

variable {chunkStore : ListingStore σ} {state next : CoordinatorState σ}

/-- The reports of a scheduler that is for the download on record are true of it. -/
theorem callTruthful_of_isFor {chunkStore : IChunkStore σ} {scheduler : ChunkScheduler}
    {reached : SchedulerState σ}
    (hok : SchedulerOk chunkStore reached.store reached.toChunkScheduler)
    (hperformed : Performed chunkStore state.store scheduler reached)
    (hfor : IsFor state.download scheduler) (hstore : next.store = reached.store)
    (hdownload : next.download = state.download) :
    ∀ call ∈ reached.calls, CallTruthful chunkStore next scheduler.manifest.resourceId call := by
  intro call hmem
  have htotal : reached.localBitfield.totalChunks = state.download.totalChunks := by
    rw [hok.totalChunks, hperformed.manifest, hfor.2]
  have hpresent : ∀ chunkIndex, reached.localBitfield.has chunkIndex = true →
      Present chunkStore reached.store scheduler.manifest.resourceId chunkIndex := by
    intro chunkIndex hmarked
    have h := hok.present hmarked
    rwa [hperformed.manifest] at h
  have hreport := hperformed.reports call hmem
  cases call with
  | onChunkCompleted chunkIndex fromP2P byteLength latencyMs =>
    rw [CallTruthful, hdownload]
    exact ⟨hfor.1, htotal ▸ Bitfield.lt_of_has hreport⟩
  | onDownloadProgress completed total =>
    rw [CallTruthful, hdownload, hstore, hfor.1]
    refine le_trans hreport ?_
    rw [Bitfield.count, htotal]
    exact List.countP_mono_left fun chunkIndex _ hmarked ↦ hpresent chunkIndex hmarked
  | onDownloadComplete =>
    rw [CallTruthful, AllStored, hdownload, hstore]
    refine ⟨_, hfor.1, fun chunkIndex hrange ↦ hpresent chunkIndex ?_⟩
    exact Bitfield.isComplete_iff.mp hreport chunkIndex (htotal.symm ▸ hrange)
  | _ => trivial

/-- An event of a scheduler that reports progress only for the download on record. -/
theorem Truthful.onScheduler (htruthful : Truthful chunkStore.toIChunkStore state)
    (digest : Bytes → Bytes) (env : Env) (index : ℕ) (event : SchedulerEvent)
    (hown : ∀ scheduler, state.schedulers[index]? = some scheduler →
      ReportsProgress (state.schedulerState scheduler) event → IsFor state.download scheduler) :
    Truthful chunkStore.toIChunkStore
      (onScheduler digest chunkStore env index event state).1 := by
  refine ⟨(onScheduler_onward digest chunkStore env index event state htruthful.grounded).1, ?_⟩
  cases hget : state.schedulers[index]? with
  | none =>
    rw [onScheduler_of_none hget]
    exact htruthful.download
  | some scheduler =>
    have hok := htruthful.grounded.schedulers scheduler (List.mem_of_getElem? hget)
    have hperformed := hok.performed digest env event state.heap
    rw [onScheduler_of_get hget]
    have hmiddle : TruthfulDownload chunkStore.toIChunkStore (performedState state index
        (perform digest chunkStore.toIChunkStore env event (state.schedulerState scheduler)).1) :=
      htruthful.download.mono hperformed.grows rfl rfl
    refine hmiddle.applyCalls ?_
    by_cases hprogress : ReportsProgress (state.schedulerState scheduler) event
    · exact callTruthful_of_isFor (hperformed.ok hok) hperformed (hown scheduler hget hprogress)
        rfl rfl
    · rw [ReportsProgress, not_or, not_and, Bool.not_eq_true] at hprogress
      have hsilent : Unreported (state.schedulerState scheduler)
          (perform digest chunkStore.toIChunkStore env event
            (state.schedulerState scheduler)).1 :=
        perform_unreported (hok.wellFormed state.heap) event hprogress.1 hprogress.2
      obtain ⟨calls, hcalls, hnone⟩ := hsilent.calls
      rw [hcalls]
      exact fun call hmem ↦ callTruthful_of_silent _ _ (hnone call hmem)

/-- An event of the current scheduler. -/
theorem Truthful.onCurrentScheduler (htruthful : Truthful chunkStore.toIChunkStore state)
    (digest : Bytes → Bytes) (env : Env) (event : SchedulerEvent)
    (hown : ∀ scheduler, IsCurrent state scheduler →
      ReportsProgress (state.schedulerState scheduler) event → IsFor state.download scheduler) :
    Truthful chunkStore.toIChunkStore
      (onCurrentScheduler digest chunkStore env event state) := by
  unfold Web.onCurrentScheduler
  split
  · next index hcurrent =>
    exact htruthful.onScheduler digest env index event fun scheduler hget ↦
      hown scheduler ⟨index, hcurrent, hget⟩
  · exact htruthful

/-- An event of the current scheduler if it is for a resource. -/
theorem Truthful.onSchedulerFor (htruthful : Truthful chunkStore.toIChunkStore state)
    (digest : Bytes → Bytes) (env : Env) (resourceId : String) (event : SchedulerEvent)
    (hown : ∀ scheduler, IsCurrent state scheduler → scheduler.manifest.resourceId = resourceId →
      ReportsProgress (state.schedulerState scheduler) event → IsFor state.download scheduler) :
    Truthful chunkStore.toIChunkStore
      (onSchedulerFor digest chunkStore env resourceId event state) := by
  unfold Web.onSchedulerFor
  split_ifs with hresource
  · refine htruthful.onCurrentScheduler digest env event fun scheduler hcurrent ↦
      hown scheduler hcurrent ?_
    obtain ⟨index, hindex, hget⟩ := hcurrent
    simpa [isCurrentResource, hindex, hget] using hresource
  · exact htruthful

/-- Changes that leave schedulers, store and record alone. -/
theorem Truthful.of_eq {chunkStore : IChunkStore σ} (htruthful : Truthful chunkStore state)
    (hschedulers : next.schedulers = state.schedulers)
    (hscheduler : next.scheduler = state.scheduler)
    (hstarts : ∀ start ∈ next.starts, start ∈ state.starts) (hstore : next.store = state.store)
    (hdownload : next.download = state.download)
    (hcredits : next.history.credits = state.history.credits) : Truthful chunkStore next where
  grounded := (Onward.of_eq hschedulers (Or.inl hscheduler) hstarts hstore htruthful.grounded).1
  download := htruthful.download.mono (hstore ▸ StoreGrows.refl chunkStore _) hdownload hcredits

theorem Truthful.send {chunkStore : IChunkStore σ} (htruthful : Truthful chunkStore state)
    (peerId : String) (buffer : Bytes) : Truthful chunkStore (send peerId buffer state) :=
  ⟨(send_onward chunkStore peerId buffer state htruthful.grounded).1,
    htruthful.download.send peerId buffer⟩

/-- A complete download reports progress when its loop runs; events that are silent otherwise. -/
theorem isFor_of_loop {scheduler : ChunkScheduler} {schedulerState : SchedulerState σ}
    {event : SchedulerEvent} (hscheduler : schedulerState.toChunkScheduler = scheduler)
    (hstores : ¬ Stores schedulerState event)
    (hloop : RunsLoop schedulerState event → scheduler.isRunning = true)
    (hown : scheduler.isRunning = true → scheduler.localBitfield.isComplete = true →
      IsFor state.download scheduler)
    (hprogress : ReportsProgress schedulerState event) : IsFor state.download scheduler := by
  obtain ⟨hruns, hcomplete⟩ := hprogress.resolve_left hstores
  exact hown (hloop hruns) (hscheduler ▸ hcomplete)

theorem handlePeerLeft_truthful (htruthful : Truthful chunkStore.toIChunkStore state)
    (digest : Bytes → Bytes) (env : Env) (remotePeerId : String)
    (hown : ∀ scheduler, IsCurrent state scheduler → scheduler.isRunning = true →
      scheduler.localBitfield.isComplete = true → IsFor state.download scheduler) :
    Truthful chunkStore.toIChunkStore
      (handlePeerLeft digest chunkStore env remotePeerId state) := by
  have hforgotten : Truthful chunkStore.toIChunkStore { state with
      peers := state.peers.delete remotePeerId
      peerBitfields := state.peerBitfields.delete remotePeerId
      history := { state.history with
        announcements := state.history.announcements.delete remotePeerId } } :=
    htruthful.of_eq rfl rfl (fun _ ↦ id) rfl rfl rfl
  refine hforgotten.onCurrentScheduler digest env (.removePeer remotePeerId)
    fun scheduler hcurrent ↦ ?_
  exact isFor_of_loop rfl id id (hown scheduler hcurrent)

theorem handleHave_truthful (htruthful : Truthful chunkStore.toIChunkStore state)
    (digest : Bytes → Bytes) (env : Env) (remotePeerId resourceId : String) (chunkIndex : ℕ)
    (hown : ∀ scheduler, IsCurrent state scheduler → scheduler.manifest.resourceId = resourceId →
      scheduler.isRunning = true → scheduler.localBitfield.isComplete = true →
        IsFor state.download scheduler) :
    Truthful chunkStore.toIChunkStore
      (handleHave digest chunkStore env remotePeerId resourceId chunkIndex state) := by
  have hrecorded : ∃ heap peerBitfields, (recordedBitfield remotePeerId state).1 =
      { state with heap := heap, peerBitfields := peerBitfields } := by
    unfold recordedBitfield
    split <;> exact ⟨_, _, rfl⟩
  obtain ⟨heap, peerBitfields, heq⟩ := hrecorded
  have hmarked : ∀ objects, Truthful chunkStore.toIChunkStore
      { state with heap := objects, peerBitfields := peerBitfields } := fun objects ↦
    htruthful.of_eq rfl rfl (fun _ ↦ id) rfl rfl rfl
  have hnoted : ∀ objects, Truthful chunkStore.toIChunkStore
      (onSchedulerFor digest chunkStore env resourceId (.updatePeerHave remotePeerId chunkIndex)
        { state with heap := objects, peerBitfields := peerBitfields }) := fun objects ↦
    (hmarked objects).onSchedulerFor digest env resourceId _ fun scheduler hcurrent hresource ↦
      isFor_of_loop rfl id And.left (hown scheduler hcurrent hresource)
  unfold handleHave
  simp only [heq]
  split
  · exact hnoted heap
  · split
    · exact hmarked heap
    · exact hnoted _

theorem handleDataMessage_truthful (htruthful : Truthful chunkStore.toIChunkStore state)
    (digest : Bytes → Bytes) (env : Env) (remotePeerId : String) (raw : Bytes)
    (hown : ∀ message, decodeMessage raw = .ok message → ∀ scheduler, IsCurrent state scheduler →
      RunsLoopOf scheduler.manifest.resourceId message → scheduler.isRunning = true →
        scheduler.localBitfield.isComplete = true → IsFor state.download scheduler) :
    Truthful chunkStore.toIChunkStore
      (handleDataMessage digest chunkStore env remotePeerId raw state) := by
  have hannounced : ∀ announcement, Truthful chunkStore.toIChunkStore
      (announce remotePeerId announcement state) := fun _ ↦
    htruthful.of_eq rfl rfl (fun _ ↦ id) rfl rfl rfl
  unfold handleDataMessage
  split
  · exact htruthful
  · next resourceId totalChunks bitfield hdecoded =>
    have hrecorded : Truthful chunkStore.toIChunkStore
        { announce remotePeerId (.bitfield resourceId bitfield) state with
          heap := state.heap ++ [bitfield]
          peerBitfields := state.peerBitfields.set remotePeerId state.heap.length } :=
      (hannounced (.bitfield resourceId bitfield)).of_eq rfl rfl (fun _ ↦ id) rfl rfl rfl
    refine hrecorded.onSchedulerFor digest env resourceId
      (.updatePeerBitfield remotePeerId state.heap.length) fun scheduler hcurrent hresource ↦ ?_
    exact isFor_of_loop rfl id id (hown _ hdecoded scheduler hcurrent hresource.symm)
  · next resourceId chunkIndex hdecoded =>
    refine handleHave_truthful (hannounced (.have resourceId chunkIndex)) digest env
      remotePeerId resourceId chunkIndex fun scheduler hcurrent hresource ↦ ?_
    exact hown _ hdecoded scheduler hcurrent hresource.symm
  · exact htruthful.of_eq rfl rfl (fun _ ↦ id) rfl rfl rfl
  · exact htruthful.onSchedulerFor digest env _ _ fun scheduler _ _ hprogress ↦
      (hprogress.elim id And.left).elim
  · refine htruthful.onSchedulerFor digest env _ _ fun scheduler _ _ hprogress ↦ ?_
    exact absurd (hprogress.resolve_left id).1.2 (by simp)
  · next resourceId hdecoded =>
    refine htruthful.onSchedulerFor digest env _ _ fun scheduler hcurrent hresource ↦ ?_
    exact isFor_of_loop rfl id And.left (hown _ hdecoded scheduler hcurrent hresource.symm)

theorem resumeServe_truthful {chunkStore : IChunkStore σ} (htruthful : Truthful chunkStore state)
    (serve : PendingServe) : Truthful chunkStore (resumeServe serve state) := by
  have hsends : ∀ (frames : List Bytes) (reached : CoordinatorState σ),
    Truthful chunkStore reached → Truthful chunkStore (frames.foldl
        (fun current pieceMsg ↦ CoordinatorState.send serve.peerId pieceMsg current) reached) := by
    intro frames
    induction frames with
    | nil => exact fun _ h ↦ h
    | cons frame rest ih => exact fun reached h ↦ ih _ (h.send serve.peerId frame)
  unfold resumeServe
  split
  · exact hsends _ state htruthful
  · exact htruthful

/-- Stopping the current scheduler reports nothing. -/
theorem Truthful.stopScheduler (htruthful : Truthful chunkStore.toIChunkStore state)
    (digest : Bytes → Bytes) (env : Env) :
    Truthful chunkStore.toIChunkStore
      (Web.onCurrentScheduler digest chunkStore env .stop state) :=
  htruthful.onCurrentScheduler digest env .stop fun _ _ hprogress ↦
    (hprogress.elim id And.left).elim

/-- A download that begins counts what the store listed. -/
theorem beginDownload_truthful (hgrounded : Grounded chunkStore.toIChunkStore state)
    {manifest : ResourceManifest} {localBitfield : Bitfield} {available : List ℕ}
    (hlisted : ∀ chunkIndex ∈ available,
      Present chunkStore.toIChunkStore state.store manifest.resourceId chunkIndex)
    (hmarked : markAll (Bitfield.new manifest.totalChunks) available = .ok localBitfield) :
    Truthful chunkStore.toIChunkStore (beginDownload manifest localBitfield state) := by
  obtain ⟨htotal, hhas⟩ := localBitfield_spec hmarked
  have hpresent : ∀ chunkIndex, localBitfield.has chunkIndex = true →
      Present chunkStore.toIChunkStore state.store manifest.resourceId chunkIndex :=
    fun chunkIndex h ↦ hlisted chunkIndex ((hhas chunkIndex).mp h)
  have hbegun : Grounded chunkStore.toIChunkStore (beginDownload manifest localBitfield state) :=
    ⟨hgrounded.schedulers, hgrounded.current, hgrounded.starts⟩
  refine ⟨hbegun, fun hstatus ↦ ?_, ?_, ?_, rfl, rfl, rfl, rfl⟩
  · refine ⟨manifest.resourceId, rfl, fun chunkIndex hrange ↦ hpresent chunkIndex ?_⟩
    have hcomplete : localBitfield.isComplete = true := by
      by_contra hincomplete
      simp [beginDownload, Download.begin, hincomplete] at hstatus
    exact Bitfield.isComplete_iff.mp hcomplete chunkIndex (htotal.symm ▸ hrange)
  · change localBitfield.count ≤ storedChunks chunkStore.toIChunkStore state.store
      (some manifest.resourceId) manifest.totalChunks
    rw [Bitfield.count, htotal]
    exact List.countP_mono_left fun chunkIndex _ h ↦ hpresent chunkIndex h
  · exact fun credit hmem ↦ absurd hmem List.not_mem_nil

/-- The current scheduler is for the download on record. -/
def OwnCurrent (state : CoordinatorState σ) : Prop :=
  ∀ scheduler, IsCurrent state scheduler → IsFor state.download scheduler

/-- It stays so whatever it does. -/
theorem OwnCurrent.onCurrentScheduler (hgrounded : Grounded chunkStore.toIChunkStore state)
    (hown : OwnCurrent state) (digest : Bytes → Bytes) (env : Env) (event : SchedulerEvent) :
    OwnCurrent (onCurrentScheduler digest chunkStore env event state) := by
  have hsame := onCurrentScheduler_uninvolved digest chunkStore env event state
  rintro later ⟨index, hindex, hget⟩
  obtain ⟨earlier, hearlier, hmanifest, _⟩ :=
    onCurrentScheduler_schedulers hgrounded digest env event hget
  rw [IsFor, hsame.resourceId, hsame.totalChunks, hmanifest]
  exact hown earlier ⟨index, hsame.scheduler ▸ hindex, hearlier⟩

theorem provideBitfields_truthful (htruthful : Truthful chunkStore.toIChunkStore state)
    (hown : OwnCurrent state) (digest : Bytes → Bytes) (env : Env) :
    Truthful chunkStore.toIChunkStore (provideBitfields digest chunkStore env state) ∧
      OwnCurrent (provideBitfields digest chunkStore env state) := by
  unfold provideBitfields
  generalize state.peerBitfields.entries = entries
  induction entries generalizing state with
  | nil => exact ⟨htruthful, hown⟩
  | cons entry rest ih =>
    exact ih (htruthful.onCurrentScheduler digest env _ fun scheduler hcurrent _ ↦
      hown scheduler hcurrent) (hown.onCurrentScheduler htruthful.grounded digest env _)

/-- The scheduler that a download installs is for it. -/
theorem ownCurrent_installScheduler (start : PendingStart) (localBitfield : Bitfield)
    (state : CoordinatorState σ) :
    OwnCurrent (installScheduler start localBitfield
      (beginDownload start.manifest localBitfield state)) := by
  rintro scheduler ⟨index, hindex, hget⟩
  change some state.schedulers.length = some index at hindex
  change (state.schedulers ++ [_])[index]? = some scheduler at hget
  rw [← Option.some.inj hindex, List.getElem?_append_right le_rfl, Nat.sub_self,
    List.getElem?_cons_zero, Option.some.injEq] at hget
  subst hget
  exact ⟨rfl, rfl⟩

theorem Truthful.returnStart {chunkStore : IChunkStore σ} (htruthful : Truthful chunkStore state)
    (start : PendingStart) : Truthful chunkStore (returnStart start state) := by
  unfold Web.returnStart
  split_ifs
  · exact htruthful.of_eq rfl rfl (fun _ ↦ id) rfl rfl rfl
  · exact htruthful

/-- A call of `startDownload` that goes on makes the record that of its download. -/
theorem resumeStart_truthful (htruthful : Truthful chunkStore.toIChunkStore state)
    (digest : Bytes → Bytes) (env : Env) (start : PendingStart) {available : List ℕ}
    (hlisted : ∀ chunkIndex ∈ available,
      Present chunkStore.toIChunkStore state.store start.manifest.resourceId chunkIndex) :
    Truthful chunkStore.toIChunkStore
      (resumeStart digest chunkStore env start available state) := by
  unfold resumeStart
  simp only
  split
  · exact htruthful
  next localBitfield hmarked =>
  obtain ⟨htotal, hhas⟩ := localBitfield_spec hmarked
  have hbegun := beginDownload_truthful htruthful.grounded hlisted hmarked
  have hinstalled : Truthful chunkStore.toIChunkStore (installScheduler start
      localBitfield (beginDownload start.manifest localBitfield state)) :=
    ⟨(installScheduler_onward (beginDownload start.manifest localBitfield state)
      (schedulerOk_new htotal fun chunkIndex h ↦ hlisted chunkIndex ((hhas chunkIndex).mp h))
      hbegun.grounded).1, hbegun.download.mono (StoreGrows.refl _ _) rfl rfl⟩
  obtain ⟨hprovided, hown⟩ := provideBitfields_truthful hinstalled
    (ownCurrent_installScheduler start localBitfield state) digest env
  split_ifs
  · exact hbegun.returnStart start
  split
  · exact hprovided
  · next bfWire _ =>
    have hbroadcast : Truthful chunkStore.toIChunkStore (broadcast bfWire
        (provideBitfields digest chunkStore env (installScheduler start localBitfield
          (beginDownload start.manifest localBitfield state)))) :=
      hprovided.of_eq rfl rfl (fun _ ↦ id) rfl rfl rfl
    exact (hbroadcast.onCurrentScheduler digest env .start fun scheduler hcurrent _ ↦
      hown scheduler hcurrent).returnStart start

theorem Truthful.channelOpen (htruthful : Truthful chunkStore.toIChunkStore state)
    (remotePeerId : String) :
    Truthful chunkStore.toIChunkStore (channelOpen remotePeerId state) := by
  unfold Web.channelOpen
  split
  · next connection _ =>
    have hopened : Truthful chunkStore.toIChunkStore { state with
        peers := state.peers.set remotePeerId { connection with channelOpen := true } } :=
      htruthful.of_eq rfl rfl (fun _ ↦ id) rfl rfl rfl
    rcases handleChannelOpen_cases remotePeerId { state with
        peers := state.peers.set remotePeerId { connection with channelOpen := true } } with
      heq | ⟨frame, heq⟩ | ⟨first, second, heq⟩
    · rw [heq]
      exact hopened
    · rw [heq]
      exact hopened.send remotePeerId frame
    · rw [heq]
      exact (hopened.send remotePeerId first).send remotePeerId second
  · exact htruthful

/-- Every step whose schedulers report only for the download on record keeps it truthful. -/
theorem coordinatorStep_truthful (htruthful : Truthful chunkStore.toIChunkStore state)
    (digest : Bytes → Bytes) (input : CoordinatorInput) (hown : ReportsOwn state input.2) :
    Truthful chunkStore.toIChunkStore (coordinatorStep digest chunkStore state input) := by
  obtain ⟨env, event⟩ := input
  have hgrounded := (coordinatorStep_onward digest chunkStore state (env, event)
    htruthful.grounded).1
  have htransition := coordinatorStep_transition digest chunkStore env state event
  generalize coordinatorStep digest chunkStore state (env, event) = next
    at hgrounded htransition ⊢
  cases htransition with
  | ignored => exact htruthful
  | peerDiscovered remotePeerId | signalOffer remotePeerId =>
    refine ⟨hgrounded, ?_⟩
    unfold connect
    split_ifs
    · exact htruthful.download
    · exact htruthful.download.mono (StoreGrows.refl _ _) rfl rfl
  | peerLeft remotePeerId => exact handlePeerLeft_truthful htruthful digest env remotePeerId hown
  | channelClosed remotePeerId hconnected =>
    exact handlePeerLeft_truthful htruthful digest env remotePeerId (hown hconnected)
  | channelOpened remotePeerId => exact htruthful.channelOpen remotePeerId
  | dataMessage remotePeerId raw hconnected =>
    exact handleDataMessage_truthful htruthful digest env remotePeerId raw (hown hconnected)
  | serveRead | serveFailed => exact htruthful.of_eq rfl rfl (fun _ ↦ id) rfl rfl rfl
  | serveResumed index serve =>
    have herased : Truthful chunkStore.toIChunkStore
        { state with serves := state.serves.eraseIdx index } :=
      htruthful.of_eq rfl rfl (fun _ ↦ id) rfl rfl rfl
    exact resumeServe_truthful herased serve
  | startDownload manifest =>
    exact ⟨hgrounded, ((htruthful.stopScheduler digest env).download).mono (StoreGrows.refl _ _)
      rfl rfl⟩
  | startRead => exact ⟨hgrounded, htruthful.download.mono (StoreGrows.refl _ _) rfl rfl⟩
  | startResumed index start available hstart havailable =>
    have hok := htruthful.grounded.starts start (List.mem_of_getElem? hstart)
    have herased : Truthful chunkStore.toIChunkStore
        { state with starts := state.starts.eraseIdx index } :=
      htruthful.of_eq rfl rfl (fun _ ↦ List.mem_of_mem_eraseIdx) rfl rfl rfl
    exact resumeStart_truthful herased digest env start (hok.available available havailable).1
  | startFailed index =>
    exact htruthful.of_eq rfl rfl (fun _ ↦ List.mem_of_mem_eraseIdx) rfl rfl rfl
  | timeout scheduler | settled scheduler =>
    exact htruthful.onScheduler digest env scheduler _ hown
  | stop =>
    refine ⟨hgrounded, ?_⟩
    have h := (htruthful.stopScheduler digest env).download
    exact ⟨fun hstatus ↦ by simp [stopCoordinator] at hstatus, h.2, h.3, h.4, h.5, h.6, h.7⟩

end Events

/-- **The download record.** After every run of a new coordinator in which schedulers report
progress only while the record is about their download: a completed download has all its chunks in
the store, and the record counts only chunks of its resource. -/
theorem truthfulDownload_of_reportsOwn (digest : Bytes → Bytes) (chunkStore : ListingStore σ)
    (localPeerId : String) (store : σ) (inputs : List CoordinatorInput)
    (hown : Along (coordinatorStep digest chunkStore) (fun state input ↦ ReportsOwn state input.2)
      (CoordinatorState.new localPeerId store) inputs) :
    TruthfulDownload chunkStore.toIChunkStore
      (coordinatorRun digest chunkStore localPeerId store inputs) := by
  have hinit : Truthful chunkStore.toIChunkStore (CoordinatorState.new localPeerId store) :=
    ⟨grounded_new chunkStore.toIChunkStore localPeerId store,
      fun h ↦ by simp [CoordinatorState.new, Download.initial] at h, le_rfl,
      fun _ h ↦ absurd h List.not_mem_nil, rfl, rfl, rfl, rfl⟩
  exact (run_invariant (Truthful chunkStore.toIChunkStore)
    (fun state input hinv hallowed ↦ coordinatorStep_truthful hinv digest input hallowed) hinit
    hown).download

/-! ### Runs -/

/-- While the origin still answers for one download another begins, and then the chunk of the first
arrives. -/
def supersededRun : List CoordinatorInput :=
  [(calmEnv, .startDownload oneChunkManifest), (calmEnv, .startRead 0), (calmEnv, .startResumed 0),
    (calmEnv, .startDownload otherManifest), (calmEnv, .startRead 0), (calmEnv, .startResumed 0),
    (calmEnv, .settled 0 0 (.fetched [7])), (calmEnv, .settled 0 0 .verified),
    (calmEnv, .settled 0 0 .written), (calmEnv, .settled 0 0 .putDone)]

/-- The record says that the second download is completed, and nothing of it is stored. -/
theorem supersededRun_completes_other : ¬ TruthfulDownload IndexedDbChunkStore.toIChunkStore
    (coordinatorRun id IndexedDbChunkStore "me" ChunkRecords.empty supersededRun) := by
  intro htruthful
  obtain ⟨resourceId, hid, hall⟩ := htruthful.completed (by decide +kernel)
  have hother : resourceId = "res_2" := by
    have h : (coordinatorRun id IndexedDbChunkStore "me" ChunkRecords.empty
      supersededRun).download.resourceId = some "res_2" := by decide +kernel
    exact Option.some.inj (hid.symm.trans h)
  have hpresent := hall 0 (by decide +kernel)
  subst hother
  unfold Present at hpresent
  revert hpresent
  decide +kernel

/-- A scheduler at an index is for the download on record if its manifest names the same resource.
-/
theorem isFor_of_map_eq {state : CoordinatorState σ} {index : ℕ} {scheduler : ChunkScheduler}
    (hget : state.schedulers[index]? = some scheduler)
    (heq : (state.schedulers[index]?.map fun found ↦
        (found.manifest.resourceId, found.manifest.totalChunks)) =
      state.download.resourceId.map fun resourceId ↦ (resourceId, state.download.totalChunks)) :
    IsFor state.download scheduler := by
  rw [hget, Option.map_some] at heq
  obtain ⟨resourceId, hid, hpair⟩ := Option.map_eq_some_iff.mp heq.symm
  obtain ⟨hresource, htotal⟩ := Prod.mk.inj hpair
  exact ⟨hid.trans (congrArg some hresource), htotal⟩

/-- The one chunk comes from the origin and is stored. -/
theorem truthfulDownload_of_reportsOwn_origin : TruthfulDownload IndexedDbChunkStore.toIChunkStore
    (coordinatorRun id IndexedDbChunkStore "me" ChunkRecords.empty
      [(calmEnv, .startDownload oneChunkManifest), (calmEnv, .startRead 0),
        (calmEnv, .startResumed 0), (calmEnv, .settled 0 0 (.fetched [7])),
        (calmEnv, .settled 0 0 .verified), (calmEnv, .settled 0 0 .written),
        (calmEnv, .settled 0 0 .putDone), (calmEnv, .settled 0 0 .resumed)]) := by
  refine truthfulDownload_of_reportsOwn id IndexedDbChunkStore "me" ChunkRecords.empty _
    ⟨trivial, trivial, trivial, ?_, ?_, ?_, ?_, ?_, trivial⟩ <;>
    exact fun scheduler hget _ ↦ isFor_of_map_eq hget (by decide +kernel)

end CampusMesh.Web
