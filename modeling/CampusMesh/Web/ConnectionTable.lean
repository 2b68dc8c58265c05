import CampusMesh.Web.CoordinatorInvariants
import CampusMesh.Web.PeerSignaling

/-!
# The table of connections

The handlers of discoveries and offers create a connection only for a peer that has none, frames and
downloads leave the table alone, and a departure takes an entry away. So no event puts a connection
in the place of another (`coordinatorStep_remains`). Where the connection objects are numbered, as
in signaling, this says that a peer is connected by the same object until the object is dropped
(`signalingStep_sameObject`).
-/

set_option autoImplicit false
set_option relaxedAutoImplicit false

namespace CampusMesh.Web

open Library Shared CoordinatorState

variable {σ : Type}

/-! ### What becomes of a connection -/

/-- What a step makes of a connection: it is gone, or it is the same and its channel may have been
opened. A connection that takes the place of another starts with its channel closed. -/
def Remains (event : CoordinatorEvent) (peerId : String) (connection : WebRtcPeerConnection)
    (after : Option WebRtcPeerConnection) : Prop :=
  after = none ∨ after = some connection ∨
    event = .channelOpened peerId ∧ after = some { connection with channelOpen := true }

section Peers

variable (digest : Bytes → Bytes) (chunkStore : ListingStore σ) (env : Env)

theorem onSchedulerFor_peers (resourceId : String) (event : SchedulerEvent)
    (state : CoordinatorState σ) :
    (onSchedulerFor digest chunkStore env resourceId event state).peers = state.peers := by
  unfold onSchedulerFor
  split_ifs
  · exact (onCurrentScheduler_uninvolved digest chunkStore env event state).peers
  · rfl

theorem recordedBitfield_peers (remotePeerId : String) (state : CoordinatorState σ) :
    (recordedBitfield remotePeerId state).1.peers = state.peers := by
  unfold recordedBitfield
  split <;> rfl

theorem handleHave_peers (remotePeerId resourceId : String) (chunkIndex : ℕ)
    (state : CoordinatorState σ) :
    (handleHave digest chunkStore env remotePeerId resourceId chunkIndex state).peers =
      state.peers := by
  have hrecorded := recordedBitfield_peers remotePeerId state
  unfold handleHave
  simp only
  split
  · exact (onSchedulerFor_peers digest chunkStore env _ _ _).trans hrecorded
  · split
    · exact hrecorded
    · exact (onSchedulerFor_peers digest chunkStore env _ _ _).trans hrecorded

/-- No frame changes the connections. -/
theorem handleDataMessage_peers (remotePeerId : String) (raw : Bytes)
    (state : CoordinatorState σ) :
    (handleDataMessage digest chunkStore env remotePeerId raw state).peers = state.peers := by
  unfold handleDataMessage
  split
  · rfl
  · exact onSchedulerFor_peers digest chunkStore env _ _ _
  · exact handleHave_peers digest chunkStore env _ _ _ _
  · rfl
  · exact onSchedulerFor_peers digest chunkStore env _ _ _
  · exact onSchedulerFor_peers digest chunkStore env _ _ _
  · exact onSchedulerFor_peers digest chunkStore env _ _ _

theorem resumeServe_peers (serve : PendingServe) (state : CoordinatorState σ) :
    (resumeServe serve state).peers = state.peers := by
  unfold resumeServe
  split
  · next chunkData _ =>
    generalize servePieces serve.resourceId serve.chunkIndex chunkData
      (blockOffsets chunkData.length) = frames
    induction frames generalizing state with
    | nil => rfl
    | cons frame rest ih => exact (ih _).trans (reported_send _ _ state).peers
  · rfl

theorem provideBitfields_peers (state : CoordinatorState σ) :
    (provideBitfields digest chunkStore env state).peers = state.peers := by
  unfold provideBitfields
  generalize state.peerBitfields.entries = entries
  induction entries generalizing state with
  | nil => rfl
  | cons entry rest ih =>
    exact (ih _).trans (onCurrentScheduler_uninvolved digest chunkStore env _ state).peers

theorem returnStart_peers (start : PendingStart) (state : CoordinatorState σ) :
    (returnStart start state).peers = state.peers := by
  unfold returnStart
  split_ifs <;> rfl

theorem resumeStart_peers (start : PendingStart) (available : List ℕ)
    (state : CoordinatorState σ) :
    (resumeStart digest chunkStore env start available state).peers = state.peers := by
  unfold resumeStart
  simp only
  split
  · rfl
  split_ifs
  · exact returnStart_peers start _
  split
  · exact provideBitfields_peers digest chunkStore env _
  · rw [returnStart_peers, (onCurrentScheduler_uninvolved digest chunkStore env .start _).peers]
    exact provideBitfields_peers digest chunkStore env _

end Peers

section Connections

variable {digest : Bytes → Bytes} {chunkStore : ListingStore σ} {env : Env}
  {state next : CoordinatorState σ}

variable {peerId : String} {connection : WebRtcPeerConnection} {event : CoordinatorEvent}

theorem Remains.of_peers_eq (hconnection : state.peers.get? peerId = some connection)
    (hpeers : next.peers = state.peers) :
    Remains event peerId connection (next.peers.get? peerId) := by
  rw [hpeers]
  exact Or.inr (Or.inl hconnection)

theorem connect_remains (hconnection : state.peers.get? peerId = some connection)
    {remotePeerId : String} (hnew : state.peers.has remotePeerId = false) (isInitiator : Bool) :
    Remains event peerId connection
      ((connect remotePeerId isInitiator state).peers.get? peerId) := by
  unfold connect
  split_ifs
  · exact .of_peers_eq hconnection rfl
  · refine Or.inr (Or.inl ?_)
    have hne : peerId ≠ remotePeerId := by
      rintro rfl
      rw [OrderedMap.has, hconnection] at hnew
      exact absurd hnew (by simp)
    exact (OrderedMap.get?_set_of_ne _ hne _).trans hconnection

theorem handlePeerLeft_remains (hconnection : state.peers.get? peerId = some connection)
    (remotePeerId : String) : Remains event peerId connection
      ((handlePeerLeft digest chunkStore env remotePeerId state).peers.get? peerId) := by
  unfold handlePeerLeft
  rw [(onCurrentScheduler_uninvolved digest chunkStore env _ _).peers, OrderedMap.get?_delete]
  split_ifs
  · exact Or.inl rfl
  · exact Or.inr (Or.inl hconnection)

theorem channelOpen_remains (hconnection : state.peers.get? peerId = some connection)
    (remotePeerId : String) : Remains (.channelOpened remotePeerId) peerId connection
      ((channelOpen remotePeerId state).peers.get? peerId) := by
  unfold channelOpen
  split
  · next other hother =>
    rw [(reported_handleChannelOpen remotePeerId _).peers, OrderedMap.get?_set]
    split_ifs with hsame
    · subst hsame
      rw [hconnection, Option.some.injEq] at hother
      subst hother
      exact Or.inr (Or.inr ⟨rfl, rfl⟩)
    · exact Or.inr (Or.inl hconnection)
  · exact .of_peers_eq hconnection rfl

/-- No event puts a connection in the place of another. -/
theorem coordinatorStep_remains (digest : Bytes → Bytes) (chunkStore : ListingStore σ)
    (hconnection : state.peers.get? peerId = some connection) (input : CoordinatorInput) :
    Remains input.2 peerId connection
      ((coordinatorStep digest chunkStore state input).peers.get? peerId) := by
  obtain ⟨env, event⟩ := input
  have htransition := coordinatorStep_transition digest chunkStore env state event
  generalize coordinatorStep digest chunkStore state (env, event) = next at htransition ⊢
  cases htransition with
  | ignored => exact .of_peers_eq hconnection rfl
  | peerDiscovered remotePeerId hunknown | signalOffer remotePeerId hunknown =>
    exact connect_remains hconnection hunknown _
  | peerLeft remotePeerId | channelClosed remotePeerId =>
    exact handlePeerLeft_remains hconnection remotePeerId
  | channelOpened remotePeerId => exact channelOpen_remains hconnection remotePeerId
  | dataMessage remotePeerId raw =>
    exact .of_peers_eq hconnection
      (handleDataMessage_peers digest chunkStore env remotePeerId raw state)
  | serveRead | serveFailed | startRead | startFailed => exact .of_peers_eq hconnection rfl
  | serveResumed index serve => exact .of_peers_eq hconnection (resumeServe_peers serve _)
  | startDownload manifest =>
    exact .of_peers_eq hconnection
      (onCurrentScheduler_uninvolved digest chunkStore env .stop state).peers
  | startResumed index start available =>
    exact .of_peers_eq hconnection (resumeStart_peers digest chunkStore env start available _)
  | timeout scheduler | settled scheduler =>
    exact .of_peers_eq hconnection
      (onScheduler_uninvolved digest chunkStore env scheduler _ state).peers
  | stop => exact Or.inl rfl

end Connections

/-! ### Connection objects -/

section Objects

variable {peer : SignalingPeer} {remotePeerId : String} {connection : PeerConnection}

/-- What a peer is connected by is there no more or is the same object. -/
def SameObject (connection : PeerConnection) (after : Option PeerConnection) : Prop :=
  ∀ later, after = some later → later.id = connection.id

theorem sameObject_of_eq {after : Option PeerConnection} (hsame : after = some connection) :
    SameObject connection after := by
  rintro later hlater
  rw [hsame, Option.some.injEq] at hlater
  rw [hlater]

theorem sameObject_openConnection (hconnection : peer.peers.get? remotePeerId = some connection)
    {other : String} (hnew : peer.peers.get? other = none) (isInitiator : Bool) :
    (peer.openConnection other isInitiator).peers.get? remotePeerId = some connection := by
  have hne : remotePeerId ≠ other := by
    rintro rfl
    rw [hconnection] at hnew
    exact absurd hnew (by simp)
  exact (OrderedMap.get?_set_of_ne _ hne _).trans hconnection

theorem handlePeerDiscovered_sameObject
    (hconnection : peer.peers.get? remotePeerId = some connection) (other : String) :
    SameObject connection ((peer.handlePeerDiscovered other).peers.get? remotePeerId) := by
  unfold SignalingPeer.handlePeerDiscovered
  by_cases hknown : peer.peers.has other = true
  · rw [if_pos hknown, ite_self]
    exact sameObject_of_eq hconnection
  have hnew := OrderedMap.has_eq_false_iff.mp (Bool.eq_false_of_not_eq_true hknown)
  split_ifs
  · exact sameObject_of_eq hconnection
  · exact sameObject_of_eq hconnection
  · exact sameObject_of_eq (sameObject_openConnection hconnection hnew _)
  · exact sameObject_of_eq (sameObject_openConnection hconnection hnew _)

/-- An offer for a connection that is there is given to this one. -/
theorem setRemoteOffer_sameObject {other : String} {offered : PeerConnection}
    (hconnection : peer.peers.get? remotePeerId = some connection)
    (hoffered : other = remotePeerId → offered = connection) (offeredBy : ℕ) :
    SameObject connection
      ((peer.setRemoteOffer other offered offeredBy).peers.get? remotePeerId) := by
  intro later hlater
  change (peer.peers.set other _).get? remotePeerId = some later at hlater
  rw [OrderedMap.get?_set] at hlater
  split_ifs at hlater with hsame
  · rw [← Option.some.inj hlater, hoffered hsame.symm]
  · exact sameObject_of_eq hconnection later hlater

theorem handleSignal_sameObject (hconnection : peer.peers.get? remotePeerId = some connection)
    (other : String) (signal : Signal) :
    SameObject connection ((peer.handleSignal other signal).peers.get? remotePeerId) := by
  unfold SignalingPeer.handleSignal
  cases signal with
  | offer offeredBy =>
    simp only [SignalingPeer.handleSignalOffer]
    split
    · next offered hoffered =>
      refine setRemoteOffer_sameObject hconnection (fun hsame ↦ ?_) offeredBy
      rw [hsame, hconnection, Option.some.injEq] at hoffered
      exact hoffered.symm
    · next hnew =>
      split_ifs
      · exact sameObject_of_eq hconnection
      · refine setRemoteOffer_sameObject (sameObject_openConnection hconnection hnew false)
          (fun hsame ↦ ?_) offeredBy
        rw [hsame, hconnection] at hnew
        exact absurd hnew (by simp)
  | answer offeredBy answeredBy =>
    simp only [SignalingPeer.handleSignalAnswer]
    split
    · exact sameObject_of_eq hconnection
    · exact sameObject_of_eq hconnection
  | ice => exact sameObject_of_eq hconnection

/-- No event of signaling puts another object in the place of one. -/
theorem signalingStep_sameObject (hconnection : peer.peers.get? remotePeerId = some connection)
    (event : SignalingEvent) :
    SameObject connection ((signalingStep peer event).1.peers.get? remotePeerId) := by
  unfold signalingStep
  cases event with
  | peerDiscovered other => exact handlePeerDiscovered_sameObject hconnection other
  | peerLeft other =>
    intro later hlater
    change (peer.peers.delete other).get? remotePeerId = some later at hlater
    rw [OrderedMap.get?_delete] at hlater
    split_ifs at hlater
    exact sameObject_of_eq hconnection later hlater
  | signaled other signal => exact handleSignal_sameObject hconnection other signal
  | stop => exact fun later hlater ↦ absurd hlater (by simp [SignalingPeer.stop])
  | offerCreated index | answerCreated index =>
    simp only
    split
    · exact sameObject_of_eq hconnection
    · exact sameObject_of_eq hconnection
  | iceCandidate other =>
    simp only
    split_ifs
    · exact sameObject_of_eq hconnection
    · exact sameObject_of_eq hconnection
  | offerFailed index | answerFailed index => exact sameObject_of_eq hconnection

end Objects

end CampusMesh.Web
