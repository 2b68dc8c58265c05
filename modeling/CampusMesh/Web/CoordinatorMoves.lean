import CampusMesh.Web.PeerMeshCoordinator
import Mathlib.Logic.Relation

/-!
# What handling an event can do

Between two awaits the coordinator does three things: it changes its books on peers, it hands frames
to open channels, and it lets a scheduler do its part. Everything but the opening of a channel and
the methods that start and stop downloads is a sequence of such moves, and none of these frames is a
BITFIELD (`coordinatorStep_handles`). Invariants of the coordinator are proved on the moves.
-/

set_option autoImplicit false
set_option relaxedAutoImplicit false

namespace CampusMesh.Web

open Library Shared SchedulerState CoordinatorState Relation

variable {σ : Type}

/-- One thing that handling an event does: the connections, the recorded bitfields, what was
announced and the requests being served change, a frame other than a BITFIELD goes out, or a
scheduler acts. -/
inductive CoordinatorMove (digest : Bytes → Bytes) (chunkStore : ListingStore σ) (env : Env) :
    CoordinatorState σ → CoordinatorState σ → Prop
  | books (state : CoordinatorState σ) (peers : OrderedMap String WebRtcPeerConnection)
      (peerBitfields : OrderedMap String ℕ) (heap : List Bitfield) (serves : List PendingServe)
      (announcements : OrderedMap String (List Announcement)) :
      CoordinatorMove digest chunkStore env state
        { state with
          peers := peers
          peerBitfields := peerBitfields
          heap := heap
          serves := serves
          history := { state.history with announcements := announcements } }
  | deliver (state : CoordinatorState σ) (peerId : String) (frame : Bytes)
      (hplain : ¬ HasType .BITFIELD frame) :
      CoordinatorMove digest chunkStore env state
        { state with sent := state.sent ++ [(peerId, frame)] }
  | scheduler (state : CoordinatorState σ) (index : ℕ) (event : SchedulerEvent) :
      CoordinatorMove digest chunkStore env state
        (onScheduler digest chunkStore env index event state).1

/-- A sequence of moves. -/
def Handles (digest : Bytes → Bytes) (chunkStore : ListingStore σ) (env : Env) :
    CoordinatorState σ → CoordinatorState σ → Prop :=
  ReflTransGen (CoordinatorMove digest chunkStore env)

section Handles

variable (digest : Bytes → Bytes) (chunkStore : ListingStore σ) (env : Env)

theorem Handles.refl (state : CoordinatorState σ) : Handles digest chunkStore env state state :=
  ReflTransGen.refl

/-- Changes of the books on peers. -/
theorem handles_books (state : CoordinatorState σ) (peers : OrderedMap String WebRtcPeerConnection)
    (peerBitfields : OrderedMap String ℕ) (heap : List Bitfield) (serves : List PendingServe)
    (announcements : OrderedMap String (List Announcement)) :
    Handles digest chunkStore env state
      { state with
        peers := peers
        peerBitfields := peerBitfields
        heap := heap
        serves := serves
        history := { state.history with announcements := announcements } } :=
  ReflTransGen.single (.books state peers peerBitfields heap serves announcements)

variable {digest chunkStore env} in
/-- What every move keeps holds after any number of moves. -/
theorem Handles.keeps (Inv : CoordinatorState σ → Prop)
    (hkeeps : ∀ first second, CoordinatorMove digest chunkStore env first second →
      Inv first → Inv second)
    {state next : CoordinatorState σ} (hhandles : Handles digest chunkStore env state next)
    (hstart : Inv state) : Inv next := by
  induction hhandles with
  | refl => exact hstart
  | tail _ hmove ih => exact hkeeps _ _ hmove ih

/-! ### Methods -/

theorem send_handles (peerId : String) {frame : Bytes} (hplain : ¬ HasType .BITFIELD frame)
    (state : CoordinatorState σ) :
    Handles digest chunkStore env state (send peerId frame state) := by
  unfold send
  split
  · split_ifs
    · exact ReflTransGen.single (.deliver state peerId frame hplain)
    · exact Handles.refl digest chunkStore env state
  · exact Handles.refl digest chunkStore env state

theorem onCurrentScheduler_handles (event : SchedulerEvent) (state : CoordinatorState σ) :
    Handles digest chunkStore env state (onCurrentScheduler digest chunkStore env event state) := by
  unfold onCurrentScheduler
  split
  · exact ReflTransGen.single (.scheduler state _ event)
  · exact Handles.refl digest chunkStore env state

theorem onSchedulerFor_handles (resourceId : String) (event : SchedulerEvent)
    (state : CoordinatorState σ) :
    Handles digest chunkStore env state
      (onSchedulerFor digest chunkStore env resourceId event state) := by
  unfold onSchedulerFor
  split_ifs
  · exact onCurrentScheduler_handles digest chunkStore env event state
  · exact Handles.refl digest chunkStore env state

theorem connect_handles (remotePeerId : String) (isInitiator : Bool) (state : CoordinatorState σ) :
    Handles digest chunkStore env state (connect remotePeerId isInitiator state) := by
  unfold connect
  split_ifs
  · exact Handles.refl digest chunkStore env state
  · exact handles_books digest chunkStore env state (state.peers.set remotePeerId _)
      state.peerBitfields state.heap state.serves state.history.announcements

theorem handlePeerLeft_handles (remotePeerId : String) (state : CoordinatorState σ) :
    Handles digest chunkStore env state
      (handlePeerLeft digest chunkStore env remotePeerId state) := by
  have hforgotten := handles_books digest chunkStore env state (state.peers.delete remotePeerId)
    (state.peerBitfields.delete remotePeerId) state.heap state.serves
    (state.history.announcements.delete remotePeerId)
  exact hforgotten.trans (onCurrentScheduler_handles digest chunkStore env _ _)

theorem handleBitfield_handles (remotePeerId resourceId : String) (bitfield : Bitfield)
    (state : CoordinatorState σ) :
    Handles digest chunkStore env state
      (handleBitfield digest chunkStore env remotePeerId resourceId bitfield state) := by
  have hrecorded := handles_books digest chunkStore env state state.peers
    (state.peerBitfields.set remotePeerId state.heap.length) (state.heap ++ [bitfield])
    state.serves state.history.announcements
  exact hrecorded.trans (onSchedulerFor_handles digest chunkStore env _ _ _)

theorem recordedBitfield_handles (remotePeerId : String) (state : CoordinatorState σ) :
    Handles digest chunkStore env state (recordedBitfield remotePeerId state).1 := by
  unfold recordedBitfield
  split
  · exact Handles.refl digest chunkStore env state
  · exact handles_books digest chunkStore env state state.peers
      (state.peerBitfields.set remotePeerId state.heap.length) (state.heap ++ [_]) state.serves
      state.history.announcements
  · exact Handles.refl digest chunkStore env state

theorem handleHave_handles (remotePeerId resourceId : String) (chunkIndex : ℕ)
    (state : CoordinatorState σ) :
    Handles digest chunkStore env state
      (handleHave digest chunkStore env remotePeerId resourceId chunkIndex state) := by
  have hrecorded := recordedBitfield_handles digest chunkStore env remotePeerId state
  unfold handleHave
  simp only
  split
  · exact hrecorded.trans (onSchedulerFor_handles digest chunkStore env _ _ _)
  · next address _ =>
    split
    · exact hrecorded
    · next bitfield _ =>
      have hmarked := handles_books digest chunkStore env (recordedBitfield remotePeerId state).1
        (recordedBitfield remotePeerId state).1.peers
        (recordedBitfield remotePeerId state).1.peerBitfields
        ((recordedBitfield remotePeerId state).1.heap.set address bitfield)
        (recordedBitfield remotePeerId state).1.serves
        (recordedBitfield remotePeerId state).1.history.announcements
      exact hrecorded.trans (hmarked.trans (onSchedulerFor_handles digest chunkStore env _ _ _))

theorem handleDataMessage_handles (remotePeerId : String) (raw : Bytes)
    (state : CoordinatorState σ) :
    Handles digest chunkStore env state
      (handleDataMessage digest chunkStore env remotePeerId raw state) := by
  have hannounced : ∀ announcement, Handles digest chunkStore env state
      (announce remotePeerId announcement state) := fun announcement ↦
    handles_books digest chunkStore env state state.peers state.peerBitfields state.heap
      state.serves _
  unfold handleDataMessage
  split
  · exact Handles.refl digest chunkStore env state
  · next resourceId totalChunks bitfield _ =>
    exact (hannounced (.bitfield resourceId bitfield)).trans
      (handleBitfield_handles digest chunkStore env _ _ _ _)
  · next resourceId chunkIndex _ =>
    exact (hannounced (.have resourceId chunkIndex)).trans
      (handleHave_handles digest chunkStore env _ _ _ _)
  · exact handles_books digest chunkStore env state state.peers state.peerBitfields state.heap _
      state.history.announcements
  · exact onSchedulerFor_handles digest chunkStore env _ _ state
  · exact onSchedulerFor_handles digest chunkStore env _ _ state
  · exact onSchedulerFor_handles digest chunkStore env _ _ state

/-- The frames that serve a chunk are PIECE frames. -/
theorem hasType_of_mem_servePieces {resourceId : String} {chunkIndex : ℕ} {chunkData frame : Bytes}
    {offsets : List ℕ} (hmem : frame ∈ servePieces resourceId chunkIndex chunkData offsets) :
    HasType .PIECE frame := by
  induction offsets with
  | nil => exact absurd hmem List.not_mem_nil
  | cons offset rest ih =>
    unfold servePieces at hmem
    split at hmem
    · exact absurd hmem List.not_mem_nil
    · next pieceMsg hpiece =>
      rcases List.mem_cons.mp hmem with rfl | hrest
      · exact hasType_of_encodePiece hpiece
      · exact ih hrest

theorem resumeServe_handles (serve : PendingServe) (state : CoordinatorState σ) :
    Handles digest chunkStore env state (resumeServe serve state) := by
  have hsends : ∀ (frames : List Bytes) (reached : CoordinatorState σ),
      (∀ frame ∈ frames, HasType .PIECE frame) → Handles digest chunkStore env reached
        (frames.foldl (fun current pieceMsg ↦ send serve.peerId pieceMsg current) reached) := by
    intro frames
    induction frames with
    | nil => exact fun reached _ ↦ Handles.refl digest chunkStore env reached
    | cons frame rest ih =>
      intro reached htype
      have hplain : ¬ HasType .BITFIELD frame := fun h ↦
        absurd (h.unique (htype frame List.mem_cons_self)) (by decide)
      exact (send_handles digest chunkStore env serve.peerId hplain reached).trans
        (ih _ fun other hmem ↦ htype other (List.mem_cons_of_mem frame hmem))
  unfold resumeServe
  split
  · exact hsends _ state fun _ ↦ hasType_of_mem_servePieces
  · exact Handles.refl digest chunkStore env state

/-- Hands the recorded bitfields to the current scheduler. -/
theorem provideBitfields_handles (state : CoordinatorState σ) :
    Handles digest chunkStore env state (provideBitfields digest chunkStore env state) := by
  unfold provideBitfields
  generalize state.peerBitfields.entries = entries
  induction entries generalizing state with
  | nil => exact Handles.refl digest chunkStore env state
  | cons entry rest ih =>
    exact (onCurrentScheduler_handles digest chunkStore env _ state).trans (ih _)

/-! ### Events -/

/-- What a step does: an event is ignored, or it is handled by one of the methods. -/
inductive CoordinatorTransition (digest : Bytes → Bytes) (chunkStore : ListingStore σ) (env : Env)
    (state : CoordinatorState σ) : CoordinatorEvent → CoordinatorState σ → Prop
  | ignored {event : CoordinatorEvent}
      (hother : ∀ remotePeerId, event ≠ .channelOpened remotePeerId) :
      CoordinatorTransition digest chunkStore env state event state
  | peerDiscovered (remotePeerId : String) (hunknown : state.peers.has remotePeerId = false) :
      CoordinatorTransition digest chunkStore env state (.peerDiscovered remotePeerId)
        (connect remotePeerId (precedes remotePeerId state.localPeerId) state)
  | signalOffer (remotePeerId : String) (hunknown : state.peers.has remotePeerId = false) :
      CoordinatorTransition digest chunkStore env state (.signalOffer remotePeerId)
        (connect remotePeerId false state)
  | peerLeft (remotePeerId : String) :
      CoordinatorTransition digest chunkStore env state (.peerLeft remotePeerId)
        (handlePeerLeft digest chunkStore env remotePeerId state)
  | channelOpened (remotePeerId : String) :
      CoordinatorTransition digest chunkStore env state (.channelOpened remotePeerId)
        (channelOpen remotePeerId state)
  | channelClosed (remotePeerId : String) (hconnected : state.peers.has remotePeerId = true) :
      CoordinatorTransition digest chunkStore env state (.channelClosed remotePeerId)
        (handlePeerLeft digest chunkStore env remotePeerId state)
  | dataMessage (remotePeerId : String) (raw : Bytes)
      (hconnected : state.peers.has remotePeerId = true) :
      CoordinatorTransition digest chunkStore env state (.dataMessage remotePeerId raw)
        (handleDataMessage digest chunkStore env remotePeerId raw state)
  | serveRead (index : ℕ) (serve : PendingServe) (hserve : state.serves[index]? = some serve) :
      CoordinatorTransition digest chunkStore env state (.serveRead index)
        { state with serves := state.serves.set index { serve with
            answer := some (chunkStore.get state.store serve.resourceId serve.chunkIndex) } }
  | serveResumed (index : ℕ) (serve : PendingServe) (hserve : state.serves[index]? = some serve)
      (hanswer : serve.answer.isSome = true) :
      CoordinatorTransition digest chunkStore env state (.serveResumed index)
        (resumeServe serve { state with serves := state.serves.eraseIdx index })
  | serveFailed (index : ℕ) :
      CoordinatorTransition digest chunkStore env state (.serveFailed index)
        { state with serves := state.serves.eraseIdx index }
  | startDownload (manifest : ResourceManifest) :
      CoordinatorTransition digest chunkStore env state (.startDownload manifest)
        (startDownload digest chunkStore env manifest state)
  | startRead (index : ℕ) (start : PendingStart) (hstart : state.starts[index]? = some start) :
      CoordinatorTransition digest chunkStore env state (.startRead index)
        { state with starts := state.starts.set index { start with
            available :=
              some (chunkStore.getAvailableChunks state.store start.manifest.resourceId) } }
  | startResumed (index : ℕ) (start : PendingStart) (available : List ℕ)
      (hstart : state.starts[index]? = some start) (havailable : start.available = some available) :
      CoordinatorTransition digest chunkStore env state (.startResumed index)
        (resumeStart digest chunkStore env start available
          { state with starts := state.starts.eraseIdx index })
  | startFailed (index : ℕ) :
      CoordinatorTransition digest chunkStore env state (.startFailed index)
        { state with starts := state.starts.eraseIdx index }
  | timeout (scheduler timer : ℕ) :
      CoordinatorTransition digest chunkStore env state (.timeout scheduler timer)
        (onScheduler digest chunkStore env scheduler (.timeout timer) state).1
  | settled (scheduler index : ℕ) (settlement : Settlement) :
      CoordinatorTransition digest chunkStore env state (.settled scheduler index settlement)
        (onScheduler digest chunkStore env scheduler (.settled index settlement) state).1
  | stop :
      CoordinatorTransition digest chunkStore env state .stop
        (stopCoordinator digest chunkStore env state)

/-- Every step is one of these. -/
theorem coordinatorStep_transition (state : CoordinatorState σ) (event : CoordinatorEvent) :
    CoordinatorTransition digest chunkStore env state event
      (coordinatorStep digest chunkStore state (env, event)) := by
  unfold coordinatorStep
  cases event with
  | peerDiscovered remotePeerId =>
    simp only [handlePeerDiscovered]
    split_ifs with _ hknown
    · exact .ignored (by simp)
    · exact .ignored (by simp)
    · exact .peerDiscovered remotePeerId (Bool.eq_false_iff.mpr hknown)
  | signalOffer remotePeerId =>
    simp only [handleSignalOffer]
    split_ifs with hknown
    · exact .ignored (by simp)
    · exact .signalOffer remotePeerId (Bool.eq_false_iff.mpr hknown)
  | peerLeft remotePeerId => exact .peerLeft remotePeerId
  | channelOpened remotePeerId => exact .channelOpened remotePeerId
  | channelClosed remotePeerId =>
    simp only [channelClose]
    split_ifs with hconnected
    · exact .channelClosed remotePeerId hconnected
    · exact .ignored (by simp)
  | dataMessage remotePeerId raw =>
    simp only
    split_ifs with hconnected
    · exact .dataMessage remotePeerId raw hconnected
    · exact .ignored (by simp)
  | serveRead index =>
    simp only
    split
    · next serve hserve => exact .serveRead index serve hserve
    · exact .ignored (by simp)
  | serveResumed index =>
    simp only
    split
    · next serve hserve =>
      split_ifs with hanswer
      · exact .serveResumed index serve hserve hanswer
      · exact .ignored (by simp)
    · exact .ignored (by simp)
  | serveFailed index => exact .serveFailed index
  | startDownload manifest => exact .startDownload manifest
  | startRead index =>
    simp only
    split
    · next start hstart => exact .startRead index start hstart
    · exact .ignored (by simp)
  | startResumed index =>
    simp only
    split
    · next start hstart =>
      split
      · next available havailable => exact .startResumed index start available hstart havailable
      · exact .ignored (by simp)
    · exact .ignored (by simp)
  | startFailed index => exact .startFailed index
  | timeout scheduler timer => exact .timeout scheduler timer
  | settled scheduler index settlement => exact .settled scheduler index settlement
  | stop => exact .stop

/-- Events that neither open a channel nor start or stop a download. -/
def CoordinatorEvent.isHandled : CoordinatorEvent → Bool
  | .channelOpened _ | .startDownload _ | .startRead _ | .startResumed _ | .startFailed _
  | .stop => false
  | _ => true

/-- Such an event is handled in moves. -/
theorem coordinatorStep_handles (state : CoordinatorState σ) {event : CoordinatorEvent}
    (hevent : event.isHandled = true) :
    Handles digest chunkStore env state (coordinatorStep digest chunkStore state (env, event)) := by
  have htransition := coordinatorStep_transition digest chunkStore env state event
  generalize coordinatorStep digest chunkStore state (env, event) = next at htransition ⊢
  cases htransition with
  | ignored => exact Handles.refl digest chunkStore env state
  | peerDiscovered remotePeerId | signalOffer remotePeerId =>
    exact connect_handles digest chunkStore env remotePeerId _ state
  | peerLeft remotePeerId | channelClosed remotePeerId =>
    exact handlePeerLeft_handles digest chunkStore env remotePeerId state
  | dataMessage remotePeerId raw =>
    exact handleDataMessage_handles digest chunkStore env remotePeerId raw state
  | serveRead index | serveFailed index =>
    exact handles_books digest chunkStore env state state.peers state.peerBitfields state.heap _
      state.history.announcements
  | serveResumed index serve =>
    have herased := handles_books digest chunkStore env state state.peers state.peerBitfields
      state.heap (state.serves.eraseIdx index) state.history.announcements
    exact herased.trans (resumeServe_handles digest chunkStore env serve _)
  | timeout scheduler | settled scheduler =>
    exact ReflTransGen.single (.scheduler state scheduler _)
  | channelOpened | startDownload | startRead | startResumed | startFailed | stop =>
    exact absurd hevent Bool.false_ne_true

end Handles

end CampusMesh.Web
