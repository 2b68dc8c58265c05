import CampusMesh.Server.ResourceService
import CampusMesh.Server.TelemetryManager
import CampusMesh.Library.Runs

/-!
# The signaling hub

The server as its class sessions see it: sockets that connect and send frames,
`handleSignalingConnection` with its listeners, `endSession`, and the reset of the telemetry. Its
state is the database, the rooms, the reports and the sockets, with the frames that were sent in
their order. A frame is the record that `JSON.stringify` is called with.

A listener that throws outside of a `try` ends the process (`halted`), and then nothing happens any
more. The only listener for which this is possible is that of a socket that closes or fails: it
computes the metrics of the session and writes them as text, and what either throws is not caught.
The frames that the server makes of texts and numbers alone can always be written, so only frames
with values of clients are checked (`broadcastToRoom`, `handleMessage`).
-/

set_option autoImplicit false
set_option relaxedAutoImplicit false

namespace CampusMesh.Server

open Library Shared

variable {ν : Type}

/-! ### State -/

inductive ReadyState
  | OPEN | CLOSING | CLOSED
  deriving DecidableEq

/-- The state of the server; its sockets are those of which it listens to messages. -/
structure SignalingHub (ν : Type) where
  db : Database
  rooms : Rooms
  reports : Reports ν
  sockets : OrderedMap Socket ReadyState
  sent : List (Socket × Json.Fields ν)
  halted : Bool

namespace SignalingHub

/-- The server at its start. -/
def new (db : Database) : SignalingHub ν where
  db := db
  rooms := OrderedMap.empty
  reports := OrderedMap.empty
  sockets := OrderedMap.empty
  sent := []
  halted := false

/-- `socket.readyState === 1`. -/
def isOpen (socket : Socket) (hub : SignalingHub ν) : Bool :=
  hub.sockets.get? socket = some .OPEN

/-- `socket.send`. -/
def send (socket : Socket) (frame : Json.Fields ν) (hub : SignalingHub ν) : SignalingHub ν :=
  { hub with sent := hub.sent ++ [(socket, frame)] }

/-- `socket.close`. -/
def close (socket : Socket) (hub : SignalingHub ν) : SignalingHub ν :=
  if hub.isOpen socket then { hub with sockets := hub.sockets.set socket .CLOSING } else hub

/-- Those who get a frame that is broadcast: the peers of the room but the excluded one, as far as
their sockets are open. -/
def receivers (sessionId : String) (excludePeerId : Option String) (hub : SignalingHub ν) :
    List Socket :=
  (((RoomManager.getRoomPeers sessionId hub.rooms).filter fun peer ↦
    !excludePeerId.any fun excluded ↦ excluded ≠ "" && peer.peerId = excluded).map
      ConnectedPeer.socket).filter fun socket ↦ hub.isOpen socket

/-- The loop of `roomManager.broadcastToRoom`, for a frame that is written as text. -/
def sendToRoom (sessionId : String) (message : Json.Fields ν) (excludePeerId : Option String)
    (hub : SignalingHub ν) : SignalingHub ν :=
  { hub with
    sent := hub.sent ++ (hub.receivers sessionId excludePeerId).map fun socket ↦ (socket, message) }

/-- `roomManager.broadcastToRoom`; nothing if `JSON.stringify` throws, before anything is sent. -/
def broadcastToRoom (host : Host ν) (sessionId : String) (message : Json.Fields ν)
    (excludePeerId : Option String) (hub : SignalingHub ν) : Option (SignalingHub ν) :=
  if host.serializes (.object message) then some (sendToRoom sessionId message excludePeerId hub)
  else none

end SignalingHub

open SignalingHub

/-! ### Frames -/

section Frames

variable (host : Host ν)

def UserRole.text : UserRole → String
  | instructor => "instructor"
  | student => "student"

/-- A frame of the server. -/
def envelope (type : SignalingEventType) (sessionId senderPeerId : String) (payload : Json ν) :
    Json.Fields ν :=
  [("type", .string type.text), ("sessionId", .string sessionId),
    ("senderPeerId", .string senderPeerId), ("payload", payload)]

/-- What others are told of a peer. -/
def peerInfo (peer : ConnectedPeer) : Json ν :=
  .object [("peerId", .string peer.peerId), ("displayName", .string peer.displayName),
    ("role", .string peer.role.text), ("joinedAt", host.natural peer.joinedAt)]

def rosterFrame (sessionId : String) (existingPeers : List ConnectedPeer) : Json.Fields ν :=
  envelope .ROOM_ROSTER sessionId "server" (.object [("sessionId", .string sessionId),
    ("peers", .array (existingPeers.map (peerInfo host)))])

def joinedFrame (peer : ConnectedPeer) : Json.Fields ν :=
  envelope .PEER_JOINED peer.sessionId peer.peerId (peerInfo host peer)

def leftFrame (sessionId peerId : String) : Json.Fields ν :=
  envelope .PEER_LEFT sessionId peerId (.object [("peerId", .string peerId)])

/-- Metrics as they are sent. -/
def SwarmMetrics.toJson (metrics : SwarmMetrics ν) : Json ν :=
  .object [("sessionId", .string metrics.sessionId),
    ("totalPeers", host.natural metrics.totalPeers),
    ("activeDataChannels", metrics.activeDataChannels), ("totalBytesP2P", metrics.totalBytesP2P),
    ("totalBytesServer", metrics.totalBytesServer),
    ("bandwidthSavedBytes", metrics.bandwidthSavedBytes),
    ("swarmEfficiencyPercent", metrics.swarmEfficiencyPercent),
    ("estimatedBaselineBytes", metrics.estimatedBaselineBytes),
    ("peerReports", .array (metrics.peerReports.map .object)),
    ("lastUpdated", host.natural metrics.lastUpdated)]

def metricsFrame (sessionId : String) (metrics : SwarmMetrics ν) : Json.Fields ν :=
  envelope .SWARM_METRICS_UPDATE sessionId "server" (metrics.toJson host)

def endedFrame (sessionId : String) : Json.Fields ν :=
  [("type", .string SignalingEventType.SESSION_ENDED.text), ("sessionId", .string sessionId),
    ("payload", .object [("sessionId", .string sessionId),
      ("reason", .string "Instructor ended the class session.")])]

end Frames

/-! ### Connections -/

/-- The last characters of a text: `text.slice(-count)`. -/
def lastChars (count : ℕ) (text : String) : String :=
  String.ofList (text.toList.drop (text.toList.length - count))

/-- The id under which a token's bearer is registered. -/
def peerIdOf (payload : AuthTokenPayload) : String :=
  match payload.peerId with
  | some peerId => if peerId ≠ "" then peerId else "instructor_" ++ lastChars 6 payload.sessionId
  | none => "instructor_" ++ lastChars 6 payload.sessionId

/-- The name under which a token's bearer is shown. -/
def displayNameOf (payload : AuthTokenPayload) : String :=
  if payload.displayName ≠ "" then payload.displayName
  else if payload.role = .instructor then "Instructor" else "Student"

/-- The peer that connects by a socket. -/
def connectedPeer (socket : Socket) (now : ℕ) : ConnectedPeer where
  peerId := peerIdOf socket.payload
  sessionId := socket.payload.sessionId
  displayName := displayNameOf socket.payload
  role := socket.payload.role
  socket := socket
  joinedAt := now

section Handlers

variable (host : Host ν)

/-- A peer is let in: it is registered, gets the roster, and the others learn of it. -/
def letIn (socket : Socket) (now : ℕ) (hub : SignalingHub ν) : SignalingHub ν :=
  let sessionId := socket.payload.sessionId
  let peer := connectedPeer socket now
  let rooms := RoomManager.addPeer sessionId peer hub.rooms
  let existingPeers := (RoomManager.getRoomPeers sessionId rooms).filter fun other ↦
    other.peerId ≠ peer.peerId
  sendToRoom sessionId (joinedFrame host peer) (some peer.peerId)
    (send socket (rosterFrame host sessionId existingPeers)
      { hub with rooms := rooms, sockets := hub.sockets.set socket .OPEN })

/-- `handleSignalingConnection` for a valid token. A socket that is refused is closed and not
listened to. -/
def handleSignalingConnection (socket : Socket) (now : ℕ) (hub : SignalingHub ν) :
    SignalingHub ν :=
  match SessionRepository.findById socket.payload.sessionId hub.db with
  | none => hub
  | some session =>
    if session.isActive = false then hub
    else if session.expiresAt < now then
      { hub with db := SessionRepository.deactivate session.id hub.db }
    else letIn host socket now hub

/-! ### Frames of clients -/

/-- The frame with the session and the sender that the server knows. -/
def stamp (socket : Socket) (fields : Json.Fields ν) : Json.Fields ν :=
  Json.setField "senderPeerId" (.string (peerIdOf socket.payload))
    (Json.setField "sessionId" (.string socket.payload.sessionId) fields)

/-- The type of a frame. -/
def hasType (type : SignalingEventType) (fields : Json.Fields ν) : Bool :=
  match Json.getField "type" fields with
  | some (.string text) => text = type.text
  | _ => false

/-- Copies a field of the payload to the top if it is only there. -/
def liftField (key inner : String) (payload : Json ν) (fields : Json.Fields ν) : Json.Fields ν :=
  match payload.get? inner with
  | some value => Json.setField key value fields
  | none => fields

/-- Brings offers, answers and candidates from the top into the payload, or the other way round. -/
def normalize (fields : Json.Fields ν) : Json.Fields ν :=
  let top key := Json.getField key fields
  let payload := top "payload"
  if host.truthy (top "offer") ∧ ¬ host.truthy payload then
    Json.setField "payload" (.object [("sdp", (top "offer").getD .null)]) fields
  else if host.truthy (top "answer") ∧ ¬ host.truthy payload then
    Json.setField "payload" (.object [("sdp", (top "answer").getD .null)]) fields
  else if host.truthy (top "candidate") ∧ ¬ host.truthy payload then
    Json.setField "payload" (.object [("candidate", (top "candidate").getD .null)]) fields
  else if host.truthy payload then
    let p := payload.getD .null
    if hasType .SIGNAL_OFFER fields ∧ host.truthy (p.get? "sdp") ∧ ¬ host.truthy (top "offer") then
      liftField "offer" "sdp" p fields
    else if hasType .SIGNAL_ANSWER fields ∧ host.truthy (p.get? "sdp") ∧
        ¬ host.truthy (top "answer") then
      liftField "answer" "sdp" p fields
    else if hasType .SIGNAL_ICE fields ∧ host.truthy (p.get? "candidate") ∧
        ¬ host.truthy (top "candidate") then
      liftField "candidate" "candidate" p fields
    else fields
  else fields

/-- The frame in a message, as the server handles it: not too long, a record, and with a type. -/
def receivedFrame (socket : Socket) (rawText : String) : Option (Json.Fields ν) :=
  if 65536 < (rawText.toList.flatMap codeUnits).length then none
  else
    match host.parse rawText with
    | some (.object fields) =>
      if host.truthy (Json.getField "type" fields) then some (normalize host (stamp socket fields))
      else none
    | _ => none

/-- A heartbeat: the report is recorded, and the room gets the metrics. A payload that is a
primitive value throws, and so do metrics that cannot be computed or written; all of it is caught,
the latter when the report is recorded. -/
def handleHeartbeat (socket : Socket) (fields : Json.Fields ν) (now : ℕ) (hub : SignalingHub ν) :
    SignalingHub ν :=
  let sessionId := socket.payload.sessionId
  let peerId := peerIdOf socket.payload
  match (host.orElse (Json.getField "payload" fields) (.object [])).asFields with
  | none => hub
  | some payload =>
    let report := Json.setField "displayName" (.string (displayNameOf socket.payload))
      (Json.setField "peerId" (.string peerId) payload)
    let recorded := { hub with
      reports := TelemetryManager.updatePeerReport sessionId peerId report hub.reports }
    match TelemetryManager.getMetrics host sessionId now recorded.rooms recorded.reports with
    | none => recorded
    | some metrics =>
      (broadcastToRoom host sessionId (metricsFrame host sessionId metrics) none recorded).getD
        recorded

/-- The peer that a frame is for, if its socket is open. -/
def relayTarget (socket : Socket) (fields : Json.Fields ν) (hub : SignalingHub ν) :
    Option ConnectedPeer :=
  match Json.getField "targetPeerId" fields with
  | some (.string targetPeerId) =>
    if targetPeerId = "" then none
    else
      (RoomManager.getPeer socket.payload.sessionId targetPeerId hub.rooms).filter fun targetPeer ↦
        hub.isOpen targetPeer.socket
  | _ => none

/-- The listener of `message`. A frame that cannot be written again is dropped. -/
def handleMessage (socket : Socket) (rawText : String) (now : ℕ) (hub : SignalingHub ν) :
    SignalingHub ν :=
  match receivedFrame host socket rawText with
  | none => hub
  | some fields =>
    if hasType .TELEMETRY_HEARTBEAT fields then handleHeartbeat host socket fields now hub
    else
      match relayTarget socket fields hub with
      | some targetPeer =>
        if host.serializes (.object fields) then send targetPeer.socket fields hub else hub
      | none => hub

/-! ### Leaving -/

/-- The listener of `close` and of `error`: the peer is removed if this is its socket, and the
others learn of it. What computing the metrics or writing them throws is not caught. -/
def cleanup (socket : Socket) (now : ℕ) (hub : SignalingHub ν) : SignalingHub ν :=
  let sessionId := socket.payload.sessionId
  let peerId := peerIdOf socket.payload
  match RoomManager.removePeer sessionId peerId (some socket) hub.rooms with
  | (_, none) => hub
  | (rooms, some _) =>
    let removed := { hub with
      rooms := rooms
      reports := TelemetryManager.removePeer sessionId peerId hub.reports }
    match TelemetryManager.getMetrics host sessionId now removed.rooms removed.reports with
    | none => { removed with halted := true }
    | some metrics =>
      let notified := sendToRoom sessionId (leftFrame sessionId peerId) none removed
      match broadcastToRoom host sessionId (metricsFrame host sessionId metrics) none notified with
      | none => { notified with halted := true }
      | some updated => updated

/-! ### Requests -/

/-- What `endSession` resolves with. -/
structure EndSessionResponse where
  success : Bool
  message : String
  sessionId : String

/-- `SessionService.endSession`. -/
def endSession (sessionId : String) (requester : AuthTokenPayload) (hub : SignalingHub ν) :
    SignalingHub ν × Except HttpError EndSessionResponse :=
  if requester.role ≠ .instructor ∨ requester.sessionId ≠ sessionId then
    (hub, .error ⟨403, "Only the instructor of this session can end it."⟩)
  else
    match SessionRepository.findById sessionId hub.db with
    | none => (hub, .error ⟨404, "Session not found."⟩)
    | some _ =>
      let notified := sendToRoom sessionId (endedFrame sessionId) none
        { hub with db := SessionRepository.deactivate sessionId hub.db }
      let (rooms, evictedPeers) := RoomManager.deleteRoom sessionId notified.rooms
      let closed := evictedPeers.foldl (fun reached peer ↦ close peer.socket reached)
        { notified with rooms := rooms }
      ({ closed with reports := TelemetryManager.clearSession sessionId closed.reports },
        .ok ⟨true, "Class session successfully ended and room closed.", sessionId⟩)

/-- The reply to a reset of the telemetry. -/
structure TelemetryResetResponse (ν : Type) where
  success : Bool
  message : String
  metrics : Option (SwarmMetrics ν)

/-- The request that resets the telemetry of a session. -/
def resetTelemetry (sessionId : String) (user : AuthTokenPayload) (now : ℕ)
    (hub : SignalingHub ν) : SignalingHub ν × Except HttpError (TelemetryResetResponse ν) :=
  if user.role ≠ .instructor then
    (hub, .error ⟨403, "Only instructors can reset session telemetry."⟩)
  else if user.sessionId ≠ sessionId then
    (hub, .error ⟨403, "Cannot reset telemetry for another session."⟩)
  else
    match SessionRepository.findById sessionId hub.db with
    | none => (hub, .error ⟨404, "Session does not exist."⟩)
    | some _ =>
      let reports := TelemetryManager.clearSession sessionId hub.reports
      let cleanMetrics := TelemetryManager.getMetrics host sessionId now hub.rooms reports
      ({ hub with reports := reports },
        .ok ⟨true, "Telemetry metrics reset successfully.", cleanMetrics⟩)

/-! ### Events and runs -/

/-- What can happen to the server. -/
inductive HubEvent
  | connection (socket : Socket)
  | message (socket : Socket) (rawText : String)
  /-- The socket is no longer open, and neither `close` nor `error` has fired. -/
  | closing (socket : Socket)
  | close (socket : Socket)
  | error (socket : Socket)
  | endSession (sessionId : String) (requester : AuthTokenPayload)
  | resetTelemetry (sessionId : String) (user : AuthTokenPayload)
  /-- A request of a session's member that only checks whether the session is active. -/
  | sessionCheck (sessionId : String)

/-- An event with the time at which it happens. -/
abbrev HubInput := ℕ × HubEvent

/-- The students of a class connect. -/
def connections : List HubInput := [(1, .connection alice), (2, .connection bob)]

/-- What an event does to a server that runs. Sockets are new when they connect, and one that is
closed has no more messages. -/
def handleEvent (now : ℕ) (hub : SignalingHub ν) : HubEvent → SignalingHub ν
  | .connection socket =>
    if hub.sockets.has socket then hub else handleSignalingConnection host socket now hub
  | .message socket rawText =>
    match hub.sockets.get? socket with
    | some .OPEN | some .CLOSING => handleMessage host socket rawText now hub
    | _ => hub
  | .closing socket => close socket hub
  | .close socket =>
    if hub.sockets.has socket then
      cleanup host socket now { hub with sockets := hub.sockets.set socket .CLOSED }
    else hub
  | .error socket =>
    if hub.sockets.has socket then cleanup host socket now (close socket hub) else hub
  | .endSession sessionId requester => (endSession sessionId requester hub).1
  | .resetTelemetry sessionId user => (resetTelemetry host sessionId user now hub).1
  | .sessionCheck sessionId => { hub with db := (checkSession sessionId now hub.db).1 }

/-- One step of the server. -/
def hubStep (hub : SignalingHub ν) (input : HubInput) : SignalingHub ν :=
  if hub.halted then hub else handleEvent host input.1 hub input.2

/-- The run of a server that starts with a database. -/
def hubRun (db : Database) (inputs : List HubInput) : SignalingHub ν :=
  run (hubStep host) (SignalingHub.new db) inputs

end Handlers

end CampusMesh.Server
