import CampusMesh.Library.Duplex
import CampusMesh.Web.PeerMeshCoordinator

/-!
# Signaling between coordinators

How two coordinators negotiate a connection: `handlePeerDiscovered`, `handleSignalOffer`,
`handleSignalAnswer` and `handlePeerLeft` with the connection objects that they create and drop, the
promises of `createOffer` and `setRemoteOffer` that are still pending, and the offers, answers and
ICE candidates on their way. The frames carry the peer id of the sender only; which connection
object created an offer, and which answered it, is in their description texts, which no code here
reads.

Two coordinators form a `Duplex`: the room tells each of discoveries and departures at any time, its
promises settle in any order, and what one sends arrives at the other in order, late or not at all.
Other peers of the room may send them anything.
-/

set_option autoImplicit false
set_option relaxedAutoImplicit false

namespace CampusMesh.Web

open Library Shared

/-! ### Data -/

/-- A connection object as negotiation sees it. For the history, its number among the objects of its
coordinator, and the objects of the other side whose offers it was given. -/
structure PeerConnection where
  id : ℕ
  isInitiator : Bool
  remoteOffers : List ℕ
  deriving DecidableEq

/-- What peers send each other: the offer of a connection object, the answer of one to the offer of
another, or an ICE candidate. -/
inductive Signal
  | offer (offeredBy : ℕ)
  | answer (offeredBy answeredBy : ℕ)
  | ice
  deriving DecidableEq

/-- A call on a connection object. -/
inductive NegotiationCall
  | setRemoteOffer (connection : PeerConnection) (offeredBy : ℕ)
  | setRemoteAnswer (connection : PeerConnection) (offeredBy answeredBy : ℕ)
  deriving DecidableEq

/-- A call of `createOffer` that has not settled. -/
structure PendingOffer where
  remotePeerId : String
  connection : ℕ

/-- A call of `setRemoteOffer` that has not settled. -/
structure PendingAnswer where
  remotePeerId : String
  connection : ℕ
  offeredBy : ℕ

/-- A coordinator as signaling sees it. For the history, the number of connection objects created so
far, all signals sent, and all calls on connection objects. -/
structure SignalingPeer where
  localPeerId : String
  peers : OrderedMap String PeerConnection
  offering : List PendingOffer
  answering : List PendingAnswer
  created : ℕ
  sent : List (String × Signal)
  calls : List (String × NegotiationCall)

/-- A coordinator without connections. -/
def SignalingPeer.new (localPeerId : String) : SignalingPeer :=
  ⟨localPeerId, OrderedMap.empty, [], [], 0, [], []⟩

namespace SignalingPeer

/-! ### Handlers -/

/-- `new WebRtcPeerConnection(remotePeerId, isInitiator, …)`, put into the map. -/
def openConnection (remotePeerId : String) (isInitiator : Bool) (peer : SignalingPeer) :
    SignalingPeer :=
  { peer with
    peers := peer.peers.set remotePeerId ⟨peer.created, isInitiator, []⟩
    created := peer.created + 1 }

/-- `connection.createOffer()`. -/
def createOffer (remotePeerId : String) (connection : ℕ) (peer : SignalingPeer) : SignalingPeer :=
  { peer with offering := peer.offering ++ [⟨remotePeerId, connection⟩] }

/-- `connection.setRemoteOffer(offer)`. -/
def setRemoteOffer (remotePeerId : String) (connection : PeerConnection) (offeredBy : ℕ)
    (peer : SignalingPeer) : SignalingPeer :=
  { peer with
    peers := peer.peers.set remotePeerId
      { connection with remoteOffers := connection.remoteOffers ++ [offeredBy] }
    answering := peer.answering ++ [⟨remotePeerId, connection.id, offeredBy⟩]
    calls := peer.calls ++ [(remotePeerId, .setRemoteOffer connection offeredBy)] }

/-- `connection.setRemoteAnswer(answer)`. -/
def setRemoteAnswer (remotePeerId : String) (connection : PeerConnection)
    (offeredBy answeredBy : ℕ) (peer : SignalingPeer) : SignalingPeer :=
  { peer with
    calls := peer.calls ++ [(remotePeerId, .setRemoteAnswer connection offeredBy answeredBy)] }

/-- A peer of the room became known. The higher peer id initiates, the lower one waits. -/
def handlePeerDiscovered (remotePeerId : String) (peer : SignalingPeer) : SignalingPeer :=
  if remotePeerId = peer.localPeerId then peer
  else if peer.peers.has remotePeerId then peer
  else if MAX_PEER_CONNECTIONS ≤ peer.peers.size then peer
  else if precedes remotePeerId peer.localPeerId then
    createOffer remotePeerId peer.created (openConnection remotePeerId true peer)
  else openConnection remotePeerId false peer

/-- An offer came from a peer; without a connection to it one is created, which does not initiate.
-/
def handleSignalOffer (remotePeerId : String) (offeredBy : ℕ) (peer : SignalingPeer) :
    SignalingPeer :=
  match peer.peers.get? remotePeerId with
  | some connection => setRemoteOffer remotePeerId connection offeredBy peer
  | none =>
    if MAX_PEER_CONNECTIONS ≤ peer.peers.size then peer
    else setRemoteOffer remotePeerId ⟨peer.created, false, []⟩ offeredBy
      (openConnection remotePeerId false peer)

/-- An answer came from a peer. -/
def handleSignalAnswer (remotePeerId : String) (offeredBy answeredBy : ℕ) (peer : SignalingPeer) :
    SignalingPeer :=
  match peer.peers.get? remotePeerId with
  | some connection => setRemoteAnswer remotePeerId connection offeredBy answeredBy peer
  | none => peer

/-- A peer left the room, or the channel to it closed: its connection is closed and dropped. -/
def handlePeerLeft (remotePeerId : String) (peer : SignalingPeer) : SignalingPeer :=
  { peer with peers := peer.peers.delete remotePeerId }

/-- `coordinator.stop()`: all connections are closed and dropped. -/
def stop (peer : SignalingPeer) : SignalingPeer := { peer with peers := OrderedMap.empty }

/-- A signal arrives, routed by its type. An ICE candidate is handed to the connection, or kept
there until the description of the other side is set. -/
def handleSignal (remotePeerId : String) (signal : Signal) (peer : SignalingPeer) : SignalingPeer :=
  match signal with
  | .offer offeredBy => handleSignalOffer remotePeerId offeredBy peer
  | .answer offeredBy answeredBy => handleSignalAnswer remotePeerId offeredBy answeredBy peer
  | .ice => peer

/-- `this.sendSignaling(type, targetPeerId, payload)`. -/
def sendSignaling (targetPeerId : String) (signal : Signal) (peer : SignalingPeer) :
    SignalingPeer × List (String × Signal) :=
  ({ peer with sent := peer.sent ++ [(targetPeerId, signal)] }, [(targetPeerId, signal)])

end SignalingPeer

/-! ### Events -/

/-- What can happen to a coordinator besides the signals of the other one. -/
inductive SignalingEvent
  | peerDiscovered (remotePeerId : String)
  /-- The room says that a peer left, or the channel of its connection closes. -/
  | peerLeft (remotePeerId : String)
  /-- The call of `createOffer` at an index resolves, or rejects. -/
  | offerCreated (index : ℕ)
  | offerFailed (index : ℕ)
  /-- The call of `setRemoteOffer` at an index resolves, or rejects. -/
  | answerCreated (index : ℕ)
  | answerFailed (index : ℕ)
  /-- A connection finds an ICE candidate. -/
  | iceCandidate (remotePeerId : String)
  /-- A signal of another peer of the room. -/
  | signaled (remotePeerId : String) (signal : Signal)
  | stop

/-- One event at a coordinator, with what it sends. -/
def signalingStep (peer : SignalingPeer) : SignalingEvent →
    SignalingPeer × List (String × Signal)
  | .peerDiscovered remotePeerId => (peer.handlePeerDiscovered remotePeerId, [])
  | .peerLeft remotePeerId => (peer.handlePeerLeft remotePeerId, [])
  | .offerCreated index =>
    match peer.offering[index]? with
    | some pending => { peer with offering := peer.offering.eraseIdx index }.sendSignaling
        pending.remotePeerId (.offer pending.connection)
    | none => (peer, [])
  | .offerFailed index => ({ peer with offering := peer.offering.eraseIdx index }, [])
  | .answerCreated index =>
    match peer.answering[index]? with
    | some pending => { peer with answering := peer.answering.eraseIdx index }.sendSignaling
        pending.remotePeerId (.answer pending.offeredBy pending.connection)
    | none => (peer, [])
  | .answerFailed index => ({ peer with answering := peer.answering.eraseIdx index }, [])
  | .iceCandidate remotePeerId =>
    if peer.peers.has remotePeerId then peer.sendSignaling remotePeerId .ice else (peer, [])
  | .signaled remotePeerId signal => (peer.handleSignal remotePeerId signal, [])
  | .stop => (peer.stop, [])

/-! ### Two coordinators -/

/-- What of a list is about a peer. -/
def about {α : Type} (remotePeerId : String) (entries : List (String × α)) : List α :=
  (entries.filter fun entry ↦ entry.1 = remotePeerId).map Prod.snd

section Pair

variable (ids : Side → String)

/-- An event at one of two coordinators. What comes in the name of the other one comes by its
channel only: the relay writes the sender into each frame. -/
def actBetween (side : Side) (event : SignalingEvent) (peer : SignalingPeer) :
    SignalingPeer × List Signal :=
  match event with
  | .signaled remotePeerId signal =>
    if remotePeerId = ids side.other then (peer, [])
    else (peer.handleSignal remotePeerId signal, [])
  | _ => ((signalingStep peer event).1, about (ids side.other) (signalingStep peer event).2)

/-- A signal of the other coordinator arrives. -/
def receiveBetween (side : Side) (signal : Signal) (peer : SignalingPeer) :
    SignalingPeer × List Signal :=
  (peer.handleSignal (ids side.other) signal, [])

/-- One step of two coordinators. -/
def pairStep (pair : Duplex SignalingPeer Signal) (event : DuplexEvent SignalingEvent) :
    Duplex SignalingPeer Signal :=
  duplexStep (actBetween ids) (receiveBetween ids) pair event

/-- Two coordinators before anything happened. -/
def newPair : Duplex SignalingPeer Signal where
  parties := fun side ↦ SignalingPeer.new (ids side)
  incoming := fun _ ↦ []

/-- The run of two new coordinators. -/
def pairRun (events : List (DuplexEvent SignalingEvent)) : Duplex SignalingPeer Signal :=
  run (pairStep ids) (newPair ids) events

end Pair

end CampusMesh.Web
