import CampusMesh.Web.ConnectionTable
import CampusMesh.Web.SchedulerPeers

/-!
# No trace of departed peers

The coordinator keeps its connections and the bitfields that peers announced, and its scheduler
keeps tables of its own. A frame is taken only from a connected peer, a new scheduler is told the
recorded bitfields, and a departure is told to the current scheduler. So whatever the order of
events, every peer in one of these tables is connected (`onlyConnected_run`).
-/

set_option autoImplicit false
set_option relaxedAutoImplicit false

namespace CampusMesh.Web

open Library Shared CoordinatorState

variable {σ : Type}

/-! ### Peers that a coordinator refers to -/

/-- The peers that have a connection. -/
def connectedPeers (state : CoordinatorState σ) : Set String :=
  {peerId | state.peers.has peerId = true}

/-- There are not too many connections, and every peer that the coordinator or its current scheduler
refers to has one. -/
structure OnlyConnected (state : CoordinatorState σ) : Prop where
  atMost : state.peers.size ≤ MAX_PEER_CONNECTIONS
  recorded : ∀ peerId, state.peerBitfields.has peerId = true → state.peers.has peerId = true
  current : ∀ scheduler, IsCurrent state scheduler → Acquainted (connectedPeers state) scheduler

section Coordinator

variable {digest : Bytes → Bytes} {chunkStore : ListingStore σ} {env : Env}
  {state next : CoordinatorState σ} {known left : Set String}

theorem OnlyConnected.congr (hconnected : OnlyConnected state) (hpeers : next.peers = state.peers)
    (hbitfields : ∀ peerId, next.peerBitfields.has peerId = true →
      state.peerBitfields.has peerId = true)
    (hcurrent : ∀ scheduler, IsCurrent next scheduler →
      Acquainted (connectedPeers state) scheduler) : OnlyConnected next where
  atMost := hpeers ▸ hconnected.atMost
  recorded peerId h := hpeers ▸ hconnected.recorded peerId (hbitfields peerId h)
  current scheduler h := by
    unfold connectedPeers
    rw [hpeers]
    exact hcurrent scheduler h

/-- Changes elsewhere. -/
theorem OnlyConnected.of_eq (hconnected : OnlyConnected state) (hpeers : next.peers = state.peers)
    (hbitfields : next.peerBitfields = state.peerBitfields)
    (hscheduler : next.scheduler = state.scheduler)
    (hschedulers : next.schedulers = state.schedulers) : OnlyConnected next :=
  hconnected.congr hpeers (fun _ h ↦ hbitfields ▸ h) fun scheduler h ↦
    hconnected.current scheduler (by
      obtain ⟨index, hindex, hget⟩ := h
      exact ⟨index, hscheduler ▸ hindex, hschedulers ▸ hget⟩)

theorem OnlyConnected.reported (hconnected : OnlyConnected state)
    (hreported : Reported state next) : OnlyConnected next :=
  hconnected.of_eq hreported.peers hreported.peerBitfields hreported.scheduler
    hreported.schedulers

/-- The current scheduler after an event of a scheduler. -/
theorem isCurrent_onScheduler (index : ℕ) (event : SchedulerEvent) {later : ChunkScheduler}
    (hlater : IsCurrent (onScheduler digest chunkStore env index event state).1 later) :
    ∃ earlier, IsCurrent state earlier ∧ (later = earlier ∧ state.scheduler ≠ some index ∨
      state.scheduler = some index ∧ later = (perform digest chunkStore.toIChunkStore env event
        (state.schedulerState earlier)).1.toChunkScheduler) := by
  obtain ⟨current, hcurrent, hget⟩ := hlater
  rw [(onScheduler_uninvolved digest chunkStore env index event state).scheduler] at hcurrent
  cases hold : state.schedulers[index]? with
  | none =>
    rw [onScheduler_of_none hold] at hget
    refine ⟨later, ⟨current, hcurrent, hget⟩, Or.inl ⟨rfl, fun hsame ↦ ?_⟩⟩
    rw [hcurrent, Option.some.injEq] at hsame
    rw [hsame, hold] at hget
    exact absurd hget (by simp)
  | some scheduler =>
    by_cases hsame : current = index
    · subst hsame
      rw [get_onScheduler hold, Option.some.injEq] at hget
      exact ⟨scheduler, ⟨current, hcurrent, hold⟩, Or.inr ⟨hcurrent, hget.symm⟩⟩
    · rw [onScheduler_of_get hold, (reported_applyCalls _ _ _).schedulers, performedState,
        List.getElem?_set_ne (Ne.symm hsame)] at hget
      refine ⟨later, ⟨current, hcurrent, hget⟩, Or.inl ⟨rfl, fun hother ↦ hsame ?_⟩⟩
      rw [hcurrent, Option.some.injEq] at hother
      exact hother

/-- An event of the current scheduler takes it from one set of peers to another. -/
theorem acquainted_onCurrentScheduler {event : SchedulerEvent} {later : ChunkScheduler}
    (hlater : IsCurrent (onCurrentScheduler digest chunkStore env event state) later)
    (hcurrent : ∀ scheduler, IsCurrent state scheduler → Acquainted known scheduler)
    (hevent : ∀ reached : SchedulerState σ, Acquainted known reached.toChunkScheduler →
      Acquainted left
        (perform digest chunkStore.toIChunkStore env event reached).1.toChunkScheduler) :
    Acquainted left later := by
  unfold onCurrentScheduler at hlater
  split at hlater
  · next index hindex =>
    obtain ⟨earlier, hearlier, hcases⟩ := isCurrent_onScheduler index event hlater
    rcases hcases with ⟨-, hother⟩ | ⟨-, rfl⟩
    · exact absurd hindex hother
    · exact hevent (state.schedulerState earlier) (hcurrent earlier hearlier)
  · next hnone =>
    obtain ⟨index, hindex, -⟩ := hlater
    rw [hnone] at hindex
    exact absurd hindex (by simp)

theorem OnlyConnected.onScheduler (hconnected : OnlyConnected state) (index : ℕ)
    {event : SchedulerEvent} (hevent : event.Concerns (connectedPeers state)) :
    OnlyConnected (onScheduler digest chunkStore env index event state).1 := by
  have huninvolved := onScheduler_uninvolved digest chunkStore env index event state
  refine hconnected.congr huninvolved.peers (fun _ h ↦ huninvolved.peerBitfields ▸ h)
    fun later hlater ↦ ?_
  obtain ⟨earlier, hearlier, hcases⟩ := isCurrent_onScheduler index event hlater
  have hacquainted := hconnected.current earlier hearlier
  rcases hcases with ⟨rfl, -⟩ | ⟨-, rfl⟩
  · exact hacquainted
  · exact perform_acquainted digest chunkStore.toIChunkStore env hacquainted hevent

theorem OnlyConnected.onCurrentScheduler (hconnected : OnlyConnected state)
    {event : SchedulerEvent} (hevent : event.Concerns (connectedPeers state)) :
    OnlyConnected (onCurrentScheduler digest chunkStore env event state) := by
  unfold Web.onCurrentScheduler
  split
  · exact hconnected.onScheduler _ hevent
  · exact hconnected

theorem OnlyConnected.onSchedulerFor (hconnected : OnlyConnected state) (resourceId : String)
    {event : SchedulerEvent} (hevent : event.Concerns (connectedPeers state)) :
    OnlyConnected (onSchedulerFor digest chunkStore env resourceId event state) := by
  unfold Web.onSchedulerFor
  split_ifs
  · exact hconnected.onCurrentScheduler hevent
  · exact hconnected

/-! ### Connections -/

/-- A connection is added when there is room. -/
theorem OnlyConnected.connect (hconnected : OnlyConnected state) {remotePeerId : String}
    (hnew : state.peers.has remotePeerId = false) (isInitiator : Bool) :
    OnlyConnected (connect remotePeerId isInitiator state) := by
  unfold Web.connect
  split_ifs with hfull
  · exact hconnected
  have hwider : ∀ peerId, state.peers.has peerId = true →
      (state.peers.set remotePeerId ⟨isInitiator, false⟩).has peerId = true := by
    intro peerId hhas
    rw [OrderedMap.has_set, hhas, Bool.or_true]
  refine ⟨?_, fun peerId h ↦ hwider peerId (hconnected.recorded peerId h), fun scheduler h ↦ ?_⟩
  · change (state.peers.set remotePeerId _).size ≤ _
    rw [OrderedMap.size_set, hnew]
    exact Nat.succ_le_of_lt (not_le.mp hfull)
  · exact (hconnected.current scheduler h).mono hwider

/-- A peer that left is forgotten by the coordinator and by its scheduler. -/
theorem OnlyConnected.handlePeerLeft (hconnected : OnlyConnected state) (remotePeerId : String) :
    OnlyConnected (handlePeerLeft digest chunkStore env remotePeerId state) := by
  have hleft : ∀ peerId, peerId ≠ remotePeerId → state.peers.has peerId = true →
      (state.peers.delete remotePeerId).has peerId = true := by
    intro peerId hne hhas
    rw [OrderedMap.has_delete, hhas]
    simpa using hne
  have huninvolved := onCurrentScheduler_uninvolved digest chunkStore env
    (.removePeer remotePeerId) { state with
      peers := state.peers.delete remotePeerId
      peerBitfields := state.peerBitfields.delete remotePeerId
      history := { state.history with
        announcements := state.history.announcements.delete remotePeerId } }
  unfold Web.handlePeerLeft
  refine ⟨?_, fun peerId hhas ↦ ?_, fun later hlater ↦ ?_⟩
  · rw [huninvolved.peers]
    exact (state.peers.size_delete_le remotePeerId).trans hconnected.atMost
  · rw [huninvolved.peers]
    rw [huninvolved.peerBitfields] at hhas
    change (state.peerBitfields.delete remotePeerId).has peerId = true at hhas
    rw [OrderedMap.has_delete, Bool.and_eq_true, Bool.not_eq_true', decide_eq_false_iff_not] at hhas
    exact hleft peerId hhas.1 (hconnected.recorded peerId hhas.2)
  · unfold connectedPeers
    rw [huninvolved.peers]
    refine acquainted_onCurrentScheduler hlater hconnected.current fun reached hreached ↦ ?_
    exact removePeer_acquainted hreached fun other hmem hne ↦ hleft other hne hmem

/-! ### Frames -/

theorem OnlyConnected.handleBitfield (hconnected : OnlyConnected state) {remotePeerId : String}
    (hpeer : state.peers.has remotePeerId = true) (resourceId : String) (bitfield : Bitfield) :
    OnlyConnected (handleBitfield digest chunkStore env remotePeerId resourceId bitfield state) :=
    by
  have hrecorded : OnlyConnected { state with
      heap := state.heap ++ [bitfield]
      peerBitfields := state.peerBitfields.set remotePeerId state.heap.length } :=
    ⟨hconnected.atMost, @mem_of_has_set (connectedPeers state) _ _ _ _ hpeer hconnected.recorded,
      hconnected.current⟩
  exact hrecorded.onSchedulerFor resourceId hpeer

theorem recordedBitfield_onlyConnected (hconnected : OnlyConnected state) {remotePeerId : String}
    (hpeer : state.peers.has remotePeerId = true) :
    OnlyConnected (recordedBitfield remotePeerId state).1 ∧
      (recordedBitfield remotePeerId state).1.peers = state.peers := by
  unfold recordedBitfield
  split
  · exact ⟨hconnected, rfl⟩
  · exact ⟨⟨hconnected.atMost,
      @mem_of_has_set (connectedPeers state) _ _ _ _ hpeer hconnected.recorded,
      hconnected.current⟩, rfl⟩
  · exact ⟨hconnected, rfl⟩

theorem OnlyConnected.handleHave (hconnected : OnlyConnected state) {remotePeerId : String}
    (hpeer : state.peers.has remotePeerId = true) (resourceId : String) (chunkIndex : ℕ) :
    OnlyConnected (handleHave digest chunkStore env remotePeerId resourceId chunkIndex state) := by
  obtain ⟨hrecorded, hpeers⟩ := recordedBitfield_onlyConnected hconnected hpeer
  have hconcerns : SchedulerEvent.Concerns
      (connectedPeers (recordedBitfield remotePeerId state).1)
      (.updatePeerHave remotePeerId chunkIndex) := by
    change (recordedBitfield remotePeerId state).1.peers.has remotePeerId = true
    rw [hpeers]
    exact hpeer
  unfold Web.handleHave
  simp only
  split
  · exact hrecorded.onSchedulerFor resourceId hconcerns
  · split
    · exact hrecorded
    · refine OnlyConnected.onSchedulerFor ?_ resourceId hconcerns
      exact hrecorded.of_eq rfl rfl rfl rfl

/-- A frame from a connected peer is about this peer. -/
theorem OnlyConnected.handleDataMessage (hconnected : OnlyConnected state) {remotePeerId : String}
    (hpeer : state.peers.has remotePeerId = true) (raw : Bytes) :
    OnlyConnected (handleDataMessage digest chunkStore env remotePeerId raw state) := by
  have hannounced : ∀ announcement,
      OnlyConnected (announce remotePeerId announcement state) := fun _ ↦
    hconnected.of_eq rfl rfl rfl rfl
  unfold Web.handleDataMessage
  split
  · exact hconnected
  · exact (hannounced _).handleBitfield hpeer _ _
  · exact (hannounced _).handleHave hpeer _ _
  · exact hconnected.of_eq rfl rfl rfl rfl
  · exact hconnected.onSchedulerFor _ trivial
  · exact hconnected.onSchedulerFor _ hpeer
  · exact hconnected.onSchedulerFor _ hpeer

theorem OnlyConnected.channelOpen (hconnected : OnlyConnected state) (remotePeerId : String) :
    OnlyConnected (channelOpen remotePeerId state) := by
  unfold Web.channelOpen
  split
  · next connection hconnection =>
    have hpeer : state.peers.has remotePeerId = true :=
      OrderedMap.has_iff_exists.mpr ⟨connection, hconnection⟩
    have hwider : ∀ peerId, state.peers.has peerId = true →
        (state.peers.set remotePeerId { connection with channelOpen := true }).has peerId =
          true := by
      intro peerId hhas
      rw [OrderedMap.has_set, hhas, Bool.or_true]
    have hopened : OnlyConnected { state with
        peers := state.peers.set remotePeerId { connection with channelOpen := true } } := by
      refine ⟨?_, fun peerId h ↦ hwider peerId (hconnected.recorded peerId h),
        fun scheduler h ↦ (hconnected.current scheduler h).mono hwider⟩
      change (state.peers.set remotePeerId _).size ≤ _
      rw [OrderedMap.size_set, if_pos hpeer]
      exact hconnected.atMost
    exact hopened.reported (reported_handleChannelOpen _ _)
  · exact hconnected

/-! ### Downloads -/

/-- The new scheduler is told the recorded bitfields, which are those of connected peers. -/
theorem OnlyConnected.provideBitfields (hconnected : OnlyConnected state) :
    OnlyConnected (provideBitfields digest chunkStore env state) := by
  have hentries : ∀ entry ∈ state.peerBitfields.entries, state.peers.has entry.1 = true :=
    fun entry hentry ↦ hconnected.recorded entry.1
      (OrderedMap.has_iff_exists.mpr ⟨entry.2, OrderedMap.mem_entries_iff.mp hentry⟩)
  unfold Web.provideBitfields
  generalize state.peerBitfields.entries = entries at hentries
  induction entries generalizing state with
  | nil => exact hconnected
  | cons entry rest ih =>
    have hentry := hentries entry List.mem_cons_self
    refine ih (hconnected.onCurrentScheduler hentry) fun other hother ↦ ?_
    rw [(onCurrentScheduler_uninvolved digest chunkStore env _ state).peers]
    exact hentries other (List.mem_cons_of_mem entry hother)

theorem OnlyConnected.resumeStart (hconnected : OnlyConnected state) (start : PendingStart)
    (available : List ℕ) :
    OnlyConnected (resumeStart digest chunkStore env start available state) := by
  have hreturned : ∀ reached : CoordinatorState σ, OnlyConnected reached →
      OnlyConnected (returnStart start reached) := by
    intro reached hreached
    unfold returnStart
    split_ifs
    · exact hreached.of_eq rfl rfl rfl rfl
    · exact hreached
  unfold Web.resumeStart
  simp only
  split
  · exact hconnected
  next localBitfield _ =>
  have hinstalled : OnlyConnected (installScheduler start localBitfield
      (beginDownload start.manifest localBitfield state)) := by
    refine ⟨hconnected.atMost, hconnected.recorded, fun scheduler hcurrent ↦ ?_⟩
    obtain ⟨index, hindex, hget⟩ := hcurrent
    change some state.schedulers.length = some index at hindex
    change (state.schedulers ++ [_])[index]? = some scheduler at hget
    rw [← Option.some.inj hindex, List.getElem?_concat_length, Option.some.injEq] at hget
    rw [← hget]
    exact acquainted_new _ start.manifest localBitfield
  split_ifs
  · exact hreturned _ (hconnected.of_eq rfl rfl rfl rfl)
  split
  · exact hinstalled.provideBitfields
  · refine hreturned _ (OnlyConnected.onCurrentScheduler ?_ trivial)
    exact hinstalled.provideBitfields.of_eq rfl rfl rfl rfl

theorem OnlyConnected.resumeServe (hconnected : OnlyConnected state) (serve : PendingServe) :
    OnlyConnected (resumeServe serve state) := by
  unfold Web.resumeServe
  split
  · next chunkData _ =>
    generalize servePieces serve.resourceId serve.chunkIndex chunkData
      (blockOffsets chunkData.length) = frames
    induction frames generalizing state with
    | nil => exact hconnected
    | cons frame rest ih => exact ih (hconnected.reported (reported_send _ _ _))
  · exact hconnected

/-! ### Every run -/

/-- Every event keeps the tables aligned. -/
theorem OnlyConnected.step (hconnected : OnlyConnected state) (input : CoordinatorInput) :
    OnlyConnected (coordinatorStep digest chunkStore state input) := by
  obtain ⟨env, event⟩ := input
  have htransition := coordinatorStep_transition digest chunkStore env state event
  generalize coordinatorStep digest chunkStore state (env, event) = next at htransition ⊢
  cases htransition with
  | ignored => exact hconnected
  | peerDiscovered remotePeerId hunknown | signalOffer remotePeerId hunknown =>
    exact hconnected.connect hunknown _
  | peerLeft remotePeerId | channelClosed remotePeerId =>
    exact hconnected.handlePeerLeft remotePeerId
  | channelOpened remotePeerId => exact hconnected.channelOpen remotePeerId
  | dataMessage remotePeerId raw hpeer => exact hconnected.handleDataMessage hpeer raw
  | serveRead | serveFailed | startRead | startFailed => exact hconnected.of_eq rfl rfl rfl rfl
  | serveResumed index serve =>
    have herased : OnlyConnected { state with serves := state.serves.eraseIdx index } :=
      hconnected.of_eq rfl rfl rfl rfl
    exact herased.resumeServe serve
  | startDownload manifest =>
    have hstopped : OnlyConnected (Web.onCurrentScheduler digest chunkStore env .stop state) :=
      hconnected.onCurrentScheduler trivial
    exact hstopped.of_eq rfl rfl rfl rfl
  | startResumed index start available =>
    have herased : OnlyConnected { state with starts := state.starts.eraseIdx index } :=
      hconnected.of_eq rfl rfl rfl rfl
    exact herased.resumeStart start available
  | timeout scheduler | settled scheduler => exact hconnected.onScheduler scheduler trivial
  | stop =>
    refine ⟨Nat.zero_le _, fun peerId h ↦ ?_, fun scheduler h ↦ ?_⟩
    · exact absurd h (by simp [stopCoordinator])
    · obtain ⟨index, hindex, -⟩ := h
      exact absurd hindex (by simp [stopCoordinator])

end Coordinator

/-- **No trace of departed peers.** After every run of a coordinator there are not too many
connections, every peer in a table of the coordinator or of its current scheduler is connected, and
no event replaces a connection by another. With the connection objects numbered as in signaling, a
peer that is connected stays connected by the same object until this is dropped. -/
theorem onlyConnected_run (digest : Bytes → Bytes) (chunkStore : ListingStore σ)
    (localPeerId : String) (store : σ) (inputs : List CoordinatorInput) :
    OnlyConnected (coordinatorRun digest chunkStore localPeerId store inputs) ∧
      (∀ input peerId connection,
        (coordinatorRun digest chunkStore localPeerId store inputs).peers.get? peerId =
            some connection →
          Remains input.2 peerId connection
            ((coordinatorRun digest chunkStore localPeerId store (inputs ++ [input])).peers.get?
              peerId)) ∧
      ∀ (peer : SignalingPeer) (event : SignalingEvent) remotePeerId connection,
        peer.peers.get? remotePeerId = some connection →
          SameObject connection ((signalingStep peer event).1.peers.get? remotePeerId) := by
  have hnew : OnlyConnected (CoordinatorState.new localPeerId store) := by
    refine ⟨Nat.zero_le _, fun peerId h ↦ absurd h (by simp [CoordinatorState.new]), ?_⟩
    rintro scheduler ⟨index, hindex, -⟩
    exact absurd hindex (by simp [CoordinatorState.new])
  refine ⟨run_invariant_of_step OnlyConnected (fun _ input hconnected ↦ hconnected.step input) hnew
    inputs, fun input peerId connection hconnection ↦ ?_,
    fun _ event _ _ hconnection ↦ signalingStep_sameObject hconnection event⟩
  rw [coordinatorRun, run_append]
  exact coordinatorStep_remains digest chunkStore hconnection input

end CampusMesh.Web
