import CampusMesh.Web.SchedulerRuns

/-!
# The peer mesh coordinator

The class `PeerMeshCoordinator`: the connections to peers, the handling of their frames, and the
downloads. Like the scheduler's, its methods run up to their next `await`; `startDownload` waits for
the list of stored chunks, and serving a chunk waits for its bytes. Frames that arrive over a
connection, and the opening and closing of its channel, are ignored once the connection is closed,
as `WebRtcPeerConnection` does.

Every scheduler that was ever created stays in `schedulers`: what a superseded one still waits for
goes on, and its callbacks write to the one download record. A scheduler is named by its index
there.
-/

set_option autoImplicit false
set_option relaxedAutoImplicit false

namespace CampusMesh.Web

open Library Shared SchedulerState

/-! ### Data -/

/-- A connection to a peer. -/
structure WebRtcPeerConnection where
  isInitiator : Bool
  channelOpen : Bool

inductive DownloadStatus
  | idle | downloading | completed | error
  deriving DecidableEq

/-- The record `state.download`. -/
structure Download where
  resourceId : Option String
  fileName : Option String
  totalChunks : ℕ
  completedChunks : ℕ
  bytesFromP2P : ℕ
  bytesFromOrigin : ℕ
  chunksFromP2P : ℕ
  chunksFromOrigin : ℕ
  status : DownloadStatus
  lastError : Option String

/-- The record before the first download. -/
def Download.initial : Download := ⟨none, none, 0, 0, 0, 0, 0, 0, .idle, none⟩

/-- A call of `startDownload` that waits for `getAvailableChunks`; the list is there once the store
has been read. For the history, its number among all calls and the chunks stored when it was made.
-/
structure PendingStart where
  manifest : ResourceManifest
  available : Option (List ℕ)
  call : ℕ
  stored : List ℕ

/-- A REQUEST that waits for `chunkStore.get`; the answer is there once the store has been read. -/
structure PendingServe where
  peerId : String
  resourceId : String
  chunkIndex : ℕ
  answer : Option (Option Bytes)

/-- A chunk counted by `onChunkCompleted`. -/
structure Credit where
  resourceId : String
  chunkIndex : ℕ
  fromP2P : Bool
  byteLength : ℕ

/-- A frame in which a peer says what it has. -/
inductive Announcement
  | bitfield (resourceId : String) (bitfield : Bitfield)
  | have (resourceId : String) (chunkIndex : ℕ)

/-- What statements about runs refer to and the program does not keep: the chunks counted in the
download record, the number of calls of `startDownload`, the number of the call that installed the
scheduler, the manifest of the latest call if it has returned and nothing was started or stopped
since, with the chunks stored when it was called, and what each connected peer has announced, the
latest last. -/
structure History where
  credits : List Credit
  startCalls : ℕ
  installed : Option ℕ
  returned : Option (ResourceManifest × List ℕ)
  announcements : OrderedMap String (List Announcement)

/-- The fields of the coordinator with its pending continuations. -/
structure PeerMeshCoordinator where
  localPeerId : String
  peers : OrderedMap String WebRtcPeerConnection
  peerBitfields : OrderedMap String ℕ
  scheduler : Option ℕ
  currentManifest : Option ResourceManifest
  download : Download
  starts : List PendingStart
  serves : List PendingServe

/-- A coordinator in its surroundings: all its schedulers, the bitfield objects that it shares with
them, the chunk store, and the frames handed to open channels. -/
structure CoordinatorState (σ : Type) extends PeerMeshCoordinator where
  schedulers : List ChunkScheduler
  heap : List Bitfield
  store : σ
  sent : List (String × Bytes)
  history : History

namespace CoordinatorState

variable {σ : Type}

/-- `new PeerMeshCoordinator(config)`. -/
def new (localPeerId : String) (store : σ) : CoordinatorState σ where
  localPeerId := localPeerId
  peers := OrderedMap.empty
  peerBitfields := OrderedMap.empty
  scheduler := none
  currentManifest := none
  download := Download.initial
  starts := []
  serves := []
  schedulers := []
  heap := []
  store := store
  sent := []
  history := ⟨[], 0, none, none, OrderedMap.empty⟩

/-- `connection.send`. -/
def send (peerId : String) (buffer : Bytes) (state : CoordinatorState σ) : CoordinatorState σ :=
  match state.peers.get? peerId with
  | some connection =>
    if connection.channelOpen then
      { state with sent := state.sent ++ [(peerId, buffer)] }
    else state
  | none => state

/-- The peers whose channel is open. -/
def openPeers (state : CoordinatorState σ) : List String :=
  (state.peers.entries.filter fun entry ↦ entry.2.channelOpen).map Prod.fst

/-- Sends a frame to all peers whose channel is open. -/
def broadcast (buffer : Bytes) (state : CoordinatorState σ) : CoordinatorState σ :=
  { state with sent := state.sent ++ state.openPeers.map fun peerId ↦ (peerId, buffer) }

/-- What a peer announces. -/
def announce (peerId : String) (announcement : Announcement) (state : CoordinatorState σ) :
    CoordinatorState σ :=
  { state with history := { state.history with
      announcements := state.history.announcements.set peerId
        ((state.history.announcements.get? peerId).getD [] ++ [announcement]) } }

end CoordinatorState

open CoordinatorState

variable {σ : Type}

/-! ### Schedulers -/

/-- The callback `onChunkCompleted`. -/
def onChunkCompleted (resourceId : String) (chunkIdx : ℕ) (fromP2P : Bool) (byteLength : ℕ)
    (state : CoordinatorState σ) : CoordinatorState σ :=
  let download := state.download
  { state with
    download :=
      if fromP2P then
        { download with
          bytesFromP2P := download.bytesFromP2P + byteLength
          chunksFromP2P := download.chunksFromP2P + 1 }
      else
        { download with
          bytesFromOrigin := download.bytesFromOrigin + byteLength
          chunksFromOrigin := download.chunksFromOrigin + 1 }
    history := { state.history with
      credits := state.history.credits ++ [⟨resourceId, chunkIdx, fromP2P, byteLength⟩] } }

/-- What a call of the scheduler for a resource does to the coordinator. -/
def applyCall (resourceId : String) (state : CoordinatorState σ) : Call → CoordinatorState σ
  | .sendToPeer peerId buffer _ => send peerId buffer state
  | .broadcastToPeers buffer => broadcast buffer state
  | .onChunkCompleted chunkIdx fromP2P byteLength _ =>
    onChunkCompleted resourceId chunkIdx fromP2P byteLength state
  | .onDownloadProgress completed _ =>
    { state with download := { state.download with completedChunks := completed } }
  | .onDownloadComplete => { state with download := { state.download with status := .completed } }
  | .onError message => { state with download := { state.download with lastError := some message } }
  | _ => state

section Methods

variable (digest : Bytes → Bytes) (chunkStore : ListingStore σ) (env : Env)

/-- A scheduler in the surroundings of the coordinator. -/
def CoordinatorState.schedulerState (state : CoordinatorState σ) (scheduler : ChunkScheduler) :
    SchedulerState σ :=
  { scheduler with heap := state.heap, store := state.store, calls := [] }

/-- An event of a scheduler, with what its calls do, and the error that it throws. -/
def onScheduler (index : ℕ) (event : SchedulerEvent) :
    Action (CoordinatorState σ) JsError := fun state ↦
  match state.schedulers[index]? with
  | none => (state, none)
  | some scheduler =>
    let outcome := perform digest chunkStore.toIChunkStore env event
      (state.schedulerState scheduler)
    (outcome.1.calls.foldl (applyCall scheduler.manifest.resourceId)
      { state with
        schedulers := state.schedulers.set index outcome.1.toChunkScheduler
        heap := outcome.1.heap
        store := outcome.1.store }, outcome.2)

/-- `if (this.scheduler) { … }`. -/
def onCurrentScheduler (event : SchedulerEvent) (state : CoordinatorState σ) : CoordinatorState σ :=
  match state.scheduler with
  | some index => (onScheduler digest chunkStore env index event state).1
  | none => state

/-- `this.scheduler && this.scheduler.resourceId === resourceId`. -/
def isCurrentResource (resourceId : String) (state : CoordinatorState σ) : Bool :=
  ((state.scheduler.bind fun index ↦ state.schedulers[index]?).map fun scheduler ↦
    scheduler.manifest.resourceId) = some resourceId

/-- An event of the current scheduler if it is for a resource. -/
def onSchedulerFor (resourceId : String) (event : SchedulerEvent) (state : CoordinatorState σ) :
    CoordinatorState σ :=
  if isCurrentResource resourceId state then onCurrentScheduler digest chunkStore env event state
  else state

/-! ### Peers -/

/-- Adds a connection unless there are too many. -/
def connect (remotePeerId : String) (isInitiator : Bool) (state : CoordinatorState σ) :
    CoordinatorState σ :=
  if MAX_PEER_CONNECTIONS ≤ state.peers.size then state
  else { state with peers := state.peers.set remotePeerId ⟨isInitiator, false⟩ }

/-- A peer of the room became known; the one with the higher id initiates. -/
def handlePeerDiscovered (remotePeerId : String) (state : CoordinatorState σ) :
    CoordinatorState σ :=
  if remotePeerId = state.localPeerId then state
  else if state.peers.has remotePeerId then state
  else connect remotePeerId (precedes remotePeerId state.localPeerId) state

/-- An offer came from a peer. -/
def handleSignalOffer (remotePeerId : String) (state : CoordinatorState σ) : CoordinatorState σ :=
  if state.peers.has remotePeerId then state else connect remotePeerId false state

/-- A peer left the room. -/
def handlePeerLeft (remotePeerId : String) (state : CoordinatorState σ) : CoordinatorState σ :=
  onCurrentScheduler digest chunkStore env (.removePeer remotePeerId)
    { state with
      peers := state.peers.delete remotePeerId
      peerBitfields := state.peerBitfields.delete remotePeerId
      history := { state.history with
        announcements := state.history.announcements.delete remotePeerId } }

/-- A data channel opened: the peer is told which chunks are here. -/
def handleChannelOpen (remotePeerId : String) (state : CoordinatorState σ) : CoordinatorState σ :=
  if state.peers.has remotePeerId = false then state
  else
    match state.currentManifest, state.scheduler.bind fun index ↦ state.schedulers[index]? with
    | some manifest, some scheduler =>
      match encodeBitfield manifest.resourceId manifest.totalChunks scheduler.localBitfield,
        encodeUnchoke manifest.resourceId with
      | .ok bfBytes, .ok unchoke => send remotePeerId unchoke (send remotePeerId bfBytes state)
      | .ok bfBytes, .error _ => send remotePeerId bfBytes state
      | .error _, _ => state
    | _, _ => state

/-- The channel of a connection opens. -/
def channelOpen (remotePeerId : String) (state : CoordinatorState σ) : CoordinatorState σ :=
  match state.peers.get? remotePeerId with
  | some connection =>
    handleChannelOpen remotePeerId
      { state with peers := state.peers.set remotePeerId { connection with channelOpen := true } }
  | none => state

/-- The channel of a connection closes. -/
def channelClose (remotePeerId : String) (state : CoordinatorState σ) : CoordinatorState σ :=
  if state.peers.has remotePeerId then handlePeerLeft digest chunkStore env remotePeerId state
  else state

/-! ### Frames -/

/-- A BITFIELD frame: a new bitfield object, shared with the scheduler for its resource. -/
def handleBitfield (remotePeerId resourceId : String) (bitfield : Bitfield)
    (state : CoordinatorState σ) : CoordinatorState σ :=
  onSchedulerFor digest chunkStore env resourceId
    (.updatePeerBitfield remotePeerId state.heap.length)
    { state with
      heap := state.heap ++ [bitfield]
      peerBitfields := state.peerBitfields.set remotePeerId state.heap.length }

/-- The bitfield object recorded for a peer, made for the current manifest if there is none. -/
def recordedBitfield (remotePeerId : String) (state : CoordinatorState σ) :
    CoordinatorState σ × Option ℕ :=
  match state.peerBitfields.get? remotePeerId, state.currentManifest with
  | some address, _ => (state, some address)
  | none, some manifest =>
    ({ state with
        heap := state.heap ++ [Bitfield.new manifest.totalChunks]
        peerBitfields := state.peerBitfields.set remotePeerId state.heap.length },
      some state.heap.length)
  | none, none => (state, none)

/-- A HAVE frame: marks the chunk in the recorded bitfield object, whatever resource that is about,
and tells the scheduler for its resource. A chunk that does not fit the object throws. -/
def handleHave (remotePeerId resourceId : String) (chunkIndex : ℕ) (state : CoordinatorState σ) :
    CoordinatorState σ :=
  let recorded := recordedBitfield remotePeerId state
  match recorded.2 with
  | none => onSchedulerFor digest chunkStore env resourceId
      (.updatePeerHave remotePeerId chunkIndex) recorded.1
  | some address =>
    match (recorded.1.heap.getD address (Bitfield.new 0)).set chunkIndex with
    | .error _ => recorded.1
    | .ok bitfield =>
      onSchedulerFor digest chunkStore env resourceId (.updatePeerHave remotePeerId chunkIndex)
        { recorded.1 with heap := recorded.1.heap.set address bitfield }

/-- A frame that arrives over a connection. Whatever throws is caught. -/
def handleDataMessage (remotePeerId : String) (raw : Bytes) (state : CoordinatorState σ) :
    CoordinatorState σ :=
  match decodeMessage raw with
  | .error _ => state
  | .ok (.BITFIELD resourceId _ bitfield) =>
    handleBitfield digest chunkStore env remotePeerId resourceId bitfield
      (announce remotePeerId (.bitfield resourceId bitfield) state)
  | .ok (.HAVE resourceId chunkIndex) =>
    handleHave digest chunkStore env remotePeerId resourceId chunkIndex
      (announce remotePeerId (.have resourceId chunkIndex) state)
  | .ok (.REQUEST resourceId chunkIndex) =>
    { state with serves := state.serves ++ [⟨remotePeerId, resourceId, chunkIndex, none⟩] }
  | .ok (.PIECE resourceId chunkIndex beginOffset totalLength data) =>
    onSchedulerFor digest chunkStore env resourceId
      (.handlePiece chunkIndex beginOffset totalLength data) state
  | .ok (.CHOKE resourceId) =>
    onSchedulerFor digest chunkStore env resourceId (.setPeerChoked remotePeerId true) state
  | .ok (.UNCHOKE resourceId) =>
    onSchedulerFor digest chunkStore env resourceId (.setPeerChoked remotePeerId false) state

/-- The frames that serve a chunk, until one does not encode. -/
def servePieces (resourceId : String) (chunkIndex : ℕ) (chunkData : Bytes) : List ℕ → List Bytes
  | [] => []
  | offset :: rest =>
    match encodePiece resourceId chunkIndex offset chunkData.length
      (subarray chunkData offset (min (offset + P2P_BLOCK_SIZE) chunkData.length)) with
    | .error _ => []
    | .ok pieceMsg => pieceMsg :: servePieces resourceId chunkIndex chunkData rest

/-- The offsets of the blocks of a chunk. -/
def blockOffsets (length : ℕ) : List ℕ :=
  (List.range ((length + P2P_BLOCK_SIZE - 1) / P2P_BLOCK_SIZE)).map (· * P2P_BLOCK_SIZE)

/-- A REQUEST goes on: the chunk is sent in blocks if it is here and the channel is still open. -/
def resumeServe (serve : PendingServe) (state : CoordinatorState σ) : CoordinatorState σ :=
  match serve.answer with
  | some (some chunkData) =>
    (servePieces serve.resourceId serve.chunkIndex chunkData (blockOffsets chunkData.length)).foldl
      (fun reached pieceMsg ↦ send serve.peerId pieceMsg reached) state
  | _ => state

/-! ### Downloads -/

/-- The part of `startDownload` before its `await`. -/
def startDownload (manifest : ResourceManifest) (state : CoordinatorState σ) :
    CoordinatorState σ :=
  let state := onCurrentScheduler digest chunkStore env .stop state
  { state with
    currentManifest := some manifest
    starts := state.starts ++ [⟨manifest, none, state.history.startCalls,
      chunkStore.getAvailableChunks state.store manifest.resourceId⟩]
    history := { state.history with
      startCalls := state.history.startCalls + 1
      returned := none } }

/-- Marks chunks one after the other. -/
def markAll : Bitfield → List ℕ → Except JsError Bitfield
  | bitfield, [] => .ok bitfield
  | bitfield, chunkIndex :: rest => do
    let bitfield ← bitfield.set chunkIndex
    markAll bitfield rest

/-- The record of a download that begins. -/
def Download.begin (manifest : ResourceManifest) (localBitfield : Bitfield) : Download where
  resourceId := some manifest.resourceId
  fileName := some manifest.fileName
  totalChunks := manifest.totalChunks
  completedChunks := localBitfield.count
  bytesFromP2P := 0
  bytesFromOrigin := 0
  chunksFromP2P := 0
  chunksFromOrigin := 0
  status := if localBitfield.isComplete then .completed else .downloading
  lastError := none

/-- `this.state.download = { … }`. -/
def beginDownload (manifest : ResourceManifest) (localBitfield : Bitfield)
    (state : CoordinatorState σ) : CoordinatorState σ :=
  { state with
    download := Download.begin manifest localBitfield
    history := { state.history with credits := [] } }

/-- `this.scheduler = new ChunkScheduler(…)` in a call of `startDownload`. -/
def installScheduler (start : PendingStart) (localBitfield : Bitfield)
    (state : CoordinatorState σ) : CoordinatorState σ :=
  { state with
    schedulers := state.schedulers ++ [ChunkScheduler.new start.manifest localBitfield]
    scheduler := some state.schedulers.length
    history := { state.history with installed := some start.call } }

/-- Provides the recorded bitfields to the scheduler. -/
def provideBitfields (state : CoordinatorState σ) : CoordinatorState σ :=
  state.peerBitfields.entries.foldl (fun reached entry ↦ onCurrentScheduler digest chunkStore env
    (.updatePeerBitfield entry.1 entry.2) reached) state

/-- `startDownload` returns. -/
def returnStart (start : PendingStart) (state : CoordinatorState σ) : CoordinatorState σ :=
  if start.call + 1 = state.history.startCalls then
    { state with history := { state.history with returned := some (start.manifest, start.stored) } }
  else state

/-- The part of `startDownload` after its `await`. -/
def resumeStart (start : PendingStart) (available : List ℕ) (state : CoordinatorState σ) :
    CoordinatorState σ :=
  let manifest := start.manifest
  match markAll (Bitfield.new manifest.totalChunks) available with
  | .error _ => state
  | .ok localBitfield =>
    let state := beginDownload manifest localBitfield state
    if localBitfield.isComplete then returnStart start state
    else
      let state := provideBitfields digest chunkStore env
        (installScheduler start localBitfield state)
      match encodeBitfield manifest.resourceId manifest.totalChunks localBitfield with
      | .error _ => state
      | .ok bfWire =>
        returnStart start
          (onCurrentScheduler digest chunkStore env .start (broadcast bfWire state))

/-- Stops everything. -/
def stopCoordinator (state : CoordinatorState σ) : CoordinatorState σ :=
  let state := onCurrentScheduler digest chunkStore env .stop state
  { state with
    scheduler := none
    peers := OrderedMap.empty
    peerBitfields := OrderedMap.empty
    download := { state.download with status := .idle }
    history := { state.history with
      installed := none
      returned := none
      announcements := OrderedMap.empty } }

end Methods

/-! ### Events and runs -/

/-- What can happen to a coordinator. -/
inductive CoordinatorEvent
  | peerDiscovered (remotePeerId : String)
  | signalOffer (remotePeerId : String)
  | peerLeft (remotePeerId : String)
  | channelOpened (remotePeerId : String)
  | channelClosed (remotePeerId : String)
  | dataMessage (remotePeerId : String) (raw : Bytes)
  /-- The store is read for the REQUEST at an index, and the REQUEST goes on. -/
  | serveRead (index : ℕ)
  | serveResumed (index : ℕ)
  | serveFailed (index : ℕ)
  | startDownload (manifest : ResourceManifest)
  /-- The store is read for the call at an index, and `startDownload` goes on. -/
  | startRead (index : ℕ)
  | startResumed (index : ℕ)
  | startFailed (index : ℕ)
  /-- A request timer of a scheduler fires. -/
  | timeout (scheduler timer : ℕ)
  /-- A promise settles for which a task of a scheduler waits. -/
  | settled (scheduler index : ℕ) (settlement : Settlement)
  | stop

/-- One event with the answers of the surroundings. -/
abbrev CoordinatorInput := Env × CoordinatorEvent

variable (digest : Bytes → Bytes) (chunkStore : ListingStore σ)

/-- One step of a coordinator. -/
def coordinatorStep (state : CoordinatorState σ) (input : CoordinatorInput) : CoordinatorState σ :=
  let env := input.1
  match input.2 with
  | .peerDiscovered remotePeerId => handlePeerDiscovered remotePeerId state
  | .signalOffer remotePeerId => handleSignalOffer remotePeerId state
  | .peerLeft remotePeerId => handlePeerLeft digest chunkStore env remotePeerId state
  | .channelOpened remotePeerId => channelOpen remotePeerId state
  | .channelClosed remotePeerId => channelClose digest chunkStore env remotePeerId state
  | .dataMessage remotePeerId raw =>
    if state.peers.has remotePeerId then
      handleDataMessage digest chunkStore env remotePeerId raw state
    else state
  | .serveRead index =>
    match state.serves[index]? with
    | some serve =>
      { state with serves := state.serves.set index { serve with
          answer := some (chunkStore.get state.store serve.resourceId serve.chunkIndex) } }
    | none => state
  | .serveResumed index =>
    match state.serves[index]? with
    | some serve =>
      if serve.answer.isSome then
        resumeServe serve { state with serves := state.serves.eraseIdx index }
      else state
    | none => state
  | .serveFailed index => { state with serves := state.serves.eraseIdx index }
  | .startDownload manifest => startDownload digest chunkStore env manifest state
  | .startRead index =>
    match state.starts[index]? with
    | some start =>
      { state with starts := state.starts.set index { start with
          available :=
            some (chunkStore.getAvailableChunks state.store start.manifest.resourceId) } }
    | none => state
  | .startResumed index =>
    match state.starts[index]? with
    | some start =>
      match start.available with
      | some available =>
        resumeStart digest chunkStore env start available
          { state with starts := state.starts.eraseIdx index }
      | none => state
    | none => state
  | .startFailed index => { state with starts := state.starts.eraseIdx index }
  | .timeout scheduler timer =>
    (onScheduler digest chunkStore env scheduler (.timeout timer) state).1
  | .settled scheduler index settlement =>
    (onScheduler digest chunkStore env scheduler (.settled index settlement) state).1
  | .stop => stopCoordinator digest chunkStore env state

/-- The run of a new coordinator. -/
def coordinatorRun (localPeerId : String) (store : σ) (inputs : List CoordinatorInput) :
    CoordinatorState σ :=
  run (coordinatorStep digest chunkStore) (CoordinatorState.new localPeerId store) inputs

end CampusMesh.Web
