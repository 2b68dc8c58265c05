import CampusMesh.Server.SignalingServer

/-!
# What the listeners of the hub do

Closing a socket changes nothing but the state of this socket. Each listener and request is
described by the fields it changes: who is registered afterwards, which reports there are, and what
was sent (`letIn_spec`, `handleMessage_cases`, `cleanup_cases`, `endSession_cases`). Together they
say what an event can do: it is one of the moves of `HubMove` (`hubStep_move`). Later proofs are by
cases on the moves and never unfold a listener.
-/

set_option autoImplicit false
set_option relaxedAutoImplicit false

namespace CampusMesh.Server

open Library Shared SignalingHub

variable {ν : Type}

/-! ### Closing sockets -/

/-- The states of the sockets after one was closed. -/
def closedIn (sockets : OrderedMap Socket ReadyState) (socket : Socket) :
    OrderedMap Socket ReadyState :=
  if sockets.get? socket = some .OPEN then sockets.set socket .CLOSING else sockets

theorem close_eq (socket : Socket) (hub : SignalingHub ν) :
    close socket hub = { hub with sockets := closedIn hub.sockets socket } := by
  unfold SignalingHub.close isOpen closedIn
  by_cases hopen : hub.sockets.get? socket = some .OPEN
  · rw [if_pos (decide_eq_true hopen), if_pos hopen]
  · rw [if_neg (by simpa using hopen), if_neg hopen]

/-- An open socket that is closed is closing, and all others stay as they are. -/
theorem closedIn_get? (sockets : OrderedMap Socket ReadyState) (socket other : Socket) :
    (closedIn sockets socket).get? other =
      if other = socket ∧ sockets.get? other = some .OPEN then some .CLOSING
      else sockets.get? other := by
  unfold closedIn
  by_cases hopen : sockets.get? socket = some .OPEN
  · rw [if_pos hopen, OrderedMap.get?_set]
    by_cases hsame : other = socket
    · rw [if_pos hsame, if_pos ⟨hsame, hsame ▸ hopen⟩]
    · have hnot : ¬ (other = socket ∧ sockets.get? other = some .OPEN) := fun h ↦ hsame h.1
      rw [if_neg hsame, if_neg hnot]
  · have hnot : ¬ (other = socket ∧ sockets.get? other = some .OPEN) := by
      rintro ⟨rfl, hother⟩
      exact hopen hother
    rw [if_neg hopen, if_neg hnot]

/-- The states of the sockets after those of some peers were closed. -/
def closedAllIn (sockets : OrderedMap Socket ReadyState) (peers : List ConnectedPeer) :
    OrderedMap Socket ReadyState :=
  (peers.map ConnectedPeer.socket).foldl closedIn sockets

theorem foldl_close_eq (peers : List ConnectedPeer) (hub : SignalingHub ν) :
    peers.foldl (fun reached peer ↦ close peer.socket reached) hub =
      { hub with sockets := closedAllIn hub.sockets peers } := by
  induction peers generalizing hub with
  | nil => rfl
  | cons peer rest ih =>
    rw [List.foldl_cons, ih, close_eq]
    rfl

theorem foldl_closedIn_get? (closing : List Socket) (sockets : OrderedMap Socket ReadyState)
    (other : Socket) : (closing.foldl closedIn sockets).get? other =
      if other ∈ closing ∧ sockets.get? other = some .OPEN then some .CLOSING
      else sockets.get? other := by
  induction closing generalizing sockets with
  | nil => simp
  | cons socket rest ih =>
    rw [List.foldl_cons, ih, closedIn_get?]
    simp only [List.mem_cons]
    by_cases hsame : other = socket
    · by_cases hopen : sockets.get? other = some .OPEN <;> simp [hsame.symm, hopen]
    · simp [hsame]

/-! ### Listeners and requests -/

section Listeners

variable {host : Host ν} {now : ℕ} {hub : SignalingHub ν} {socket : Socket}

/-- The frames of a broadcast. -/
def broadcastTo (receivers : List Socket) (message : Json.Fields ν) :
    List (Socket × Json.Fields ν) :=
  receivers.map fun receiver ↦ (receiver, message)

/-- The hub after a peer was added. -/
def admitted (socket : Socket) (now : ℕ) (hub : SignalingHub ν) : SignalingHub ν :=
  { hub with
    rooms := RoomManager.addPeer socket.payload.sessionId (connectedPeer socket now) hub.rooms
    sockets := hub.sockets.set socket .OPEN }

/-- The peers of its room that a peer is told of when it connects. -/
def existingPeers (socket : Socket) (now : ℕ) (hub : SignalingHub ν) : List ConnectedPeer :=
  (RoomManager.getRoomPeers socket.payload.sessionId (admitted socket now hub).rooms).filter
    fun other ↦ other.peerId ≠ peerIdOf socket.payload

/-- The others of its room learn of it. -/
theorem letIn_spec (host : Host ν) (socket : Socket) (now : ℕ) (hub : SignalingHub ν) :
    letIn host socket now hub =
      { admitted socket now hub with
        sent := hub.sent ++ ((socket, rosterFrame host socket.payload.sessionId
            (existingPeers socket now hub)) ::
          broadcastTo ((admitted socket now hub).receivers socket.payload.sessionId
            (some (peerIdOf socket.payload))) (joinedFrame host (connectedPeer socket now))) } := by
  unfold letIn sendToRoom SignalingHub.send
  simp only [List.append_assoc, List.singleton_append]
  rfl

/-- The reports after a heartbeat with a payload. -/
def reportedTo (socket : Socket) (payload : Json.Fields ν) (hub : SignalingHub ν) :
    SignalingHub ν :=
  { hub with
    reports := TelemetryManager.updatePeerReport socket.payload.sessionId (peerIdOf socket.payload)
      (Json.setField "displayName" (.string (displayNameOf socket.payload))
        (Json.setField "peerId" (.string (peerIdOf socket.payload)) payload)) hub.reports }

/-- These are the metrics of the socket's session, and they can be written as text. -/
def Presents (host : Host ν) (now : ℕ) (socket : Socket) (hub : SignalingHub ν)
    (metrics : SwarmMetrics ν) : Prop :=
  TelemetryManager.getMetrics host socket.payload.sessionId now hub.rooms hub.reports =
      some metrics ∧
    host.serializes (.object (metricsFrame host socket.payload.sessionId metrics)) = true

/-- A heartbeat is dropped, or its report is recorded and, if they can be computed and written, the
room gets the metrics. -/
theorem handleHeartbeat_cases (host : Host ν) (socket : Socket) (fields : Json.Fields ν) (now : ℕ)
    (hub : SignalingHub ν) :
    handleHeartbeat host socket fields now hub = hub ∨
      ∃ payload, (host.orElse (Json.getField "payload" fields) (.object [])).asFields =
          some payload ∧
        ((∀ metrics, ¬ Presents host now socket (reportedTo socket payload hub) metrics) ∧
            handleHeartbeat host socket fields now hub = reportedTo socket payload hub ∨
          ∃ metrics, Presents host now socket (reportedTo socket payload hub) metrics ∧
            handleHeartbeat host socket fields now hub =
              { reportedTo socket payload hub with
                sent := hub.sent ++ broadcastTo (hub.receivers socket.payload.sessionId none)
                  (metricsFrame host socket.payload.sessionId metrics) }) := by
  unfold handleHeartbeat
  simp only
  cases hpayload : (host.orElse (Json.getField "payload" fields) (.object [])).asFields with
  | none => exact Or.inl rfl
  | some payload =>
    refine Or.inr ⟨payload, rfl, ?_⟩
    simp only
    unfold reportedTo Presents broadcastToRoom
    simp only
    split
    · next hnone => exact Or.inl ⟨fun metrics hpresents ↦ by simp [hnone] at hpresents, rfl⟩
    · next metrics hmetrics =>
      split_ifs with hserializes
      · exact Or.inr ⟨metrics, ⟨hmetrics, hserializes⟩, rfl⟩
      · refine Or.inl ⟨fun other hpresents ↦ hserializes ?_, rfl⟩
        obtain rfl : metrics = other := Option.some.inj (hmetrics.symm.trans hpresents.1)
        exact hpresents.2

/-- Bringing a frame into its normal form keeps all fields that it does not bring anywhere. -/
theorem getField_normalize (host : Host ν) {key : String} (fields : Json.Fields ν)
    (hkey : key ∉ ["payload", "offer", "answer", "candidate"]) :
    Json.getField key (normalize host fields) = Json.getField key fields := by
  simp only [List.mem_cons, List.not_mem_nil, or_false, not_or] at hkey
  obtain ⟨hpayload, hoffer, hanswer, hcandidate⟩ := hkey
  have hlift : ∀ top inner (payload : Json ν), key ≠ top →
      Json.getField key (liftField top inner payload fields) = Json.getField key fields := by
    intro top inner payload hne
    unfold liftField
    split
    · exact getField_setField_of_ne hne fields
    · rfl
  unfold normalize
  simp only
  split_ifs
  · exact getField_setField_of_ne hpayload fields
  · exact getField_setField_of_ne hpayload fields
  · exact getField_setField_of_ne hpayload fields
  · exact hlift _ _ _ hoffer
  · exact hlift _ _ _ hanswer
  · exact hlift _ _ _ hcandidate
  · rfl
  · rfl

/-- What was received is what was sent, under the session and the sender that the server knows. -/
theorem receivedFrame_fields {host : Host ν} {socket : Socket} {rawText : String}
    {fields : Json.Fields ν} (hreceived : receivedFrame host socket rawText = some fields) :
    Json.getField "senderPeerId" fields = some (.string (peerIdOf socket.payload)) ∧
      Json.getField "sessionId" fields = some (.string socket.payload.sessionId) ∧
      ∃ record, host.parse rawText = some (.object record) ∧
        Json.getField "type" fields = Json.getField "type" record ∧
        Json.getField "targetPeerId" fields = Json.getField "targetPeerId" record := by
  unfold receivedFrame at hreceived
  split_ifs at hreceived
  split at hreceived
  · next record hparse =>
    split_ifs at hreceived
    obtain rfl := Option.some.inj hreceived
    rw [getField_normalize host _ (by decide), getField_normalize host _ (by decide)]
    refine ⟨getField_setField_self _, ?_, record, hparse, ?_, ?_⟩
    · rw [stamp, getField_setField_of_ne (by decide), getField_setField_self]
    · rw [getField_normalize host _ (by decide), stamp, getField_setField_of_ne (by decide),
        getField_setField_of_ne (by decide)]
    · rw [getField_normalize host _ (by decide), stamp, getField_setField_of_ne (by decide),
        getField_setField_of_ne (by decide)]
  · simp at hreceived

/-- A type is a type of the same record when the field is the same. -/
theorem hasType_congr {type : SignalingEventType} {fields record : Json.Fields ν}
    (hfield : Json.getField "type" fields = Json.getField "type" record) :
    hasType type fields = hasType type record := by
  rw [hasType, hasType, hfield]

/-- A frame has one type. -/
theorem hasType_unique {type other : SignalingEventType} {fields : Json.Fields ν}
    (htype : hasType type fields = true) (hother : hasType other fields = true) : type = other := by
  unfold hasType at htype hother
  split at htype
  · next text hfield =>
    rw [hfield] at hother
    exact SignalingEventType.text_injective
      ((of_decide_eq_true htype).symm.trans (of_decide_eq_true hother))
  · exact absurd htype Bool.false_ne_true

/-- A message is dropped, or a heartbeat, or it goes to its target if there is one and it can be
written. -/
theorem handleMessage_cases (host : Host ν) (socket : Socket) (rawText : String) (now : ℕ)
    (hub : SignalingHub ν) :
    handleMessage host socket rawText now hub = hub ∨
      ∃ fields, receivedFrame host socket rawText = some fields ∧
        (hasType .TELEMETRY_HEARTBEAT fields = true ∧
            handleMessage host socket rawText now hub =
              handleHeartbeat host socket fields now hub ∨
          hasType .TELEMETRY_HEARTBEAT fields = false ∧
            host.serializes (.object fields) = true ∧
            ∃ targetPeer, relayTarget socket fields hub = some targetPeer ∧
              handleMessage host socket rawText now hub =
                { hub with sent := hub.sent ++ [(targetPeer.socket, fields)] }) := by
  unfold handleMessage
  cases hreceived : receivedFrame host socket rawText with
  | none => exact Or.inl rfl
  | some fields =>
    simp only
    split_ifs with hbeat hserializes
    · exact Or.inr ⟨fields, rfl, Or.inl ⟨hbeat, rfl⟩⟩
    · cases htarget : relayTarget socket fields hub with
      | none => exact Or.inl rfl
      | some targetPeer =>
        exact Or.inr ⟨fields, rfl, Or.inr ⟨Bool.eq_false_iff.mpr hbeat, hserializes, targetPeer,
          htarget, rfl⟩⟩
    · left
      cases relayTarget socket fields hub with
      | none => rfl
      | some targetPeer => rfl

/-- The target of a frame is registered under the id that the frame names, with an open socket. -/
theorem relayTarget_eq_some {fields : Json.Fields ν} {targetPeer : ConnectedPeer}
    (htarget : relayTarget socket fields hub = some targetPeer) :
    ∃ targetPeerId, Json.getField "targetPeerId" fields = some (.string targetPeerId) ∧
      targetPeerId ≠ "" ∧
      RoomManager.getPeer socket.payload.sessionId targetPeerId hub.rooms = some targetPeer ∧
      hub.isOpen targetPeer.socket = true := by
  unfold relayTarget at htarget
  split at htarget
  · next targetPeerId hfield =>
    split_ifs at htarget with hempty
    obtain ⟨hfound, hopen⟩ := Option.filter_eq_some_iff.mp htarget
    exact ⟨targetPeerId, hfield, hempty, hfound, hopen⟩
  · simp at htarget

/-- The hub after the peer of a socket was removed. -/
def departed (socket : Socket) (room : Room) (hub : SignalingHub ν) : SignalingHub ν :=
  { hub with
    rooms := RoomManager.dropPeer socket.payload.sessionId (peerIdOf socket.payload) room hub.rooms
    reports := TelemetryManager.removePeer socket.payload.sessionId (peerIdOf socket.payload)
      hub.reports }

/-- The peer of the socket is registered by it, in a room. -/
def RegisteredBy (socket : Socket) (room : Room) (hub : SignalingHub ν) : Prop :=
  hub.rooms.get? socket.payload.sessionId = some room ∧
    ∃ peer, room.get? (peerIdOf socket.payload) = some peer ∧ peer.socket = socket

/-- The metrics of the socket's session cannot be shown to its room, and what was sent before this
turned out: nothing if they cannot be computed, and the departure if they cannot be written. -/
def Unpresented (host : Host ν) (now : ℕ) (socket : Socket) (hub : SignalingHub ν)
    (sent : List (Socket × Json.Fields ν)) : Prop :=
  TelemetryManager.getMetrics host socket.payload.sessionId now hub.rooms hub.reports = none ∧
      sent = [] ∨
    ∃ metrics, TelemetryManager.getMetrics host socket.payload.sessionId now hub.rooms
        hub.reports = some metrics ∧
      host.serializes (.object (metricsFrame host socket.payload.sessionId metrics)) = false ∧
      sent = broadcastTo (hub.receivers socket.payload.sessionId none)
        (leftFrame socket.payload.sessionId (peerIdOf socket.payload))

/-- When a socket closes or fails, nothing happens if its peer is not registered by it. Otherwise
the peer is removed; the room learns of it, unless the metrics cannot be computed or written. -/
theorem cleanup_cases (host : Host ν) (socket : Socket) (now : ℕ) (hub : SignalingHub ν) :
    (∀ room, ¬ RegisteredBy socket room hub) ∧ cleanup host socket now hub = hub ∨
      ∃ room, RegisteredBy socket room hub ∧
        ((∃ sent, Unpresented host now socket (departed socket room hub) sent ∧
            cleanup host socket now hub =
              { departed socket room hub with sent := hub.sent ++ sent, halted := true }) ∨
          ∃ metrics, Presents host now socket (departed socket room hub) metrics ∧
            cleanup host socket now hub =
              { departed socket room hub with
                sent := hub.sent ++
                  (broadcastTo ((departed socket room hub).receivers socket.payload.sessionId none)
                      (leftFrame socket.payload.sessionId (peerIdOf socket.payload)) ++
                    broadcastTo ((departed socket room hub).receivers socket.payload.sessionId none)
                      (metricsFrame host socket.payload.sessionId metrics)) }) := by
  unfold cleanup
  simp only
  cases hremoved : RoomManager.removePeer socket.payload.sessionId (peerIdOf socket.payload)
    (some socket) hub.rooms with
  | mk rooms peer =>
    cases peer with
    | none =>
      refine Or.inl ⟨fun room ⟨hroom, found, hfound, hsocket⟩ ↦ ?_, rfl⟩
      simp [RoomManager.removePeer, hroom, hfound, hsocket] at hremoved
    | some found =>
      obtain ⟨room, hroom, hfound, hsocket, rfl⟩ := RoomManager.removePeer_eq_some hremoved
      refine Or.inr ⟨room, ⟨hroom, found, hfound, hsocket socket rfl⟩, ?_⟩
      simp only
      unfold departed Presents Unpresented broadcastToRoom
      simp only
      split
      · next hnone =>
        refine Or.inl ⟨[], Or.inl ⟨hnone, rfl⟩, ?_⟩
        rw [List.append_nil]
      · next metrics hmetrics =>
        by_cases hserializes :
            host.serializes (.object (metricsFrame host socket.payload.sessionId metrics)) = true
        · refine Or.inr ⟨metrics, ⟨hmetrics, hserializes⟩, ?_⟩
          rw [if_pos hserializes]
          unfold sendToRoom broadcastTo
          simp only [List.append_assoc]
          rfl
        · refine Or.inl ⟨_, Or.inr ⟨metrics, hmetrics, Bool.eq_false_iff.mpr hserializes, rfl⟩, ?_⟩
          rw [if_neg hserializes]
          rfl

/-- The hub after a session was ended. -/
def sessionEnded (sessionId : String) (hub : SignalingHub ν) : SignalingHub ν :=
  { hub with
    db := SessionRepository.deactivate sessionId hub.db
    sockets := closedAllIn hub.sockets (RoomManager.getRoomPeers sessionId hub.rooms)
    rooms := hub.rooms.delete sessionId
    reports := TelemetryManager.clearSession sessionId hub.reports
    sent := hub.sent ++ broadcastTo (hub.receivers sessionId none) (endedFrame sessionId) }

/-- A session is ended only by its instructor, and otherwise the request fails. -/
theorem endSession_cases (sessionId : String) (requester : AuthTokenPayload)
    (hub : SignalingHub ν) :
    (∃ error, endSession sessionId requester hub = (hub, .error error)) ∨
      requester.role = .instructor ∧ requester.sessionId = sessionId ∧
        (SessionRepository.findById sessionId hub.db).isSome = true ∧
          (endSession sessionId requester hub).1 = sessionEnded sessionId hub := by
  unfold endSession
  split_ifs with hdenied
  · exact Or.inl ⟨_, rfl⟩
  rw [not_or, not_not, not_not] at hdenied
  cases hsession : SessionRepository.findById sessionId hub.db with
  | none => exact Or.inl ⟨_, rfl⟩
  | some session =>
    refine Or.inr ⟨hdenied.1, hdenied.2, rfl, ?_⟩
    simp only [RoomManager.deleteRoom, foldl_close_eq]
    rfl

/-- Telemetry is reset only by the instructor of the session. -/
theorem resetTelemetry_cases (host : Host ν) (sessionId : String) (user : AuthTokenPayload)
    (now : ℕ) (hub : SignalingHub ν) :
    (resetTelemetry host sessionId user now hub).1 = hub ∨
      user.role = .instructor ∧ user.sessionId = sessionId ∧
        (SessionRepository.findById sessionId hub.db).isSome = true ∧
          (resetTelemetry host sessionId user now hub).1 =
            { hub with reports := TelemetryManager.clearSession sessionId hub.reports } := by
  unfold resetTelemetry
  split_ifs with hrole hsession
  · exact Or.inl rfl
  · exact Or.inl rfl
  · cases hfound : SessionRepository.findById sessionId hub.db with
    | none => exact Or.inl rfl
    | some session => exact Or.inr ⟨not_not.mp hrole, not_not.mp hsession, rfl, rfl⟩

end Listeners

/-! ### Moves -/

/-- A socket closes or fails; the states of the sockets afterwards. -/
def Shuts (hub : SignalingHub ν) (socket : Socket) (sockets : OrderedMap Socket ReadyState) :
    HubEvent → Prop
  | .close other =>
    other = socket ∧ hub.sockets.has socket = true ∧ sockets = hub.sockets.set socket .CLOSED
  | .error other =>
    other = socket ∧ hub.sockets.has socket = true ∧ sockets = closedIn hub.sockets socket
  | _ => False

/-- Messages of the socket are handled: it is open, or closes. -/
def Listens (hub : SignalingHub ν) (socket : Socket) : Prop :=
  hub.sockets.get? socket = some .OPEN ∨ hub.sockets.get? socket = some .CLOSING

/-- The room of a socket gets the metrics, if they can be computed and written. -/
def MetricsSent (host : Host ν) (now : ℕ) (socket : Socket) (hub : SignalingHub ν)
    (sent : List (Socket × Json.Fields ν)) : Prop :=
  (∀ metrics, ¬ Presents host now socket hub metrics) ∧ sent = [] ∨
    ∃ metrics, Presents host now socket hub metrics ∧
      sent = broadcastTo (hub.receivers socket.payload.sessionId none)
        (metricsFrame host socket.payload.sessionId metrics)

/-- What an event can do to a server that runs. -/
inductive HubMove (host : Host ν) (now : ℕ) (hub : SignalingHub ν) :
    HubEvent → SignalingHub ν → Prop
  | idle (event : HubEvent) : HubMove host now hub event hub
  | expired (event : HubEvent) (session : SessionRow)
      (hevent : event = .sessionCheck session.id ∨
        ∃ socket, event = .connection socket ∧ socket.payload.sessionId = session.id)
      (hfound : SessionRepository.findById session.id hub.db = some session)
      (hexpired : session.expiresAt < now) :
      HubMove host now hub event { hub with db := SessionRepository.deactivate session.id hub.db }
  | admitted (socket : Socket) (session : SessionRow) (hfresh : hub.sockets.has socket = false)
      (hfound : SessionRepository.findById socket.payload.sessionId hub.db = some session)
      (hactive : session.isActive = true) (hvalid : ¬ session.expiresAt < now) :
      HubMove host now hub (.connection socket) (letIn host socket now hub)
  | reported (socket : Socket) (rawText : String) (fields payload : Json.Fields ν)
      (sent : List (Socket × Json.Fields ν)) (hlistens : Listens hub socket)
      (hreceived : receivedFrame host socket rawText = some fields)
      (hbeat : hasType .TELEMETRY_HEARTBEAT fields = true)
      (hpayload : (host.orElse (Json.getField "payload" fields) (.object [])).asFields =
        some payload)
      (hsent : MetricsSent host now socket (reportedTo socket payload hub) sent) :
      HubMove host now hub (.message socket rawText)
        { reportedTo socket payload hub with sent := hub.sent ++ sent }
  | relayed (socket : Socket) (rawText : String) (fields : Json.Fields ν)
      (targetPeer : ConnectedPeer) (hlistens : Listens hub socket)
      (hreceived : receivedFrame host socket rawText = some fields)
      (hbeat : hasType .TELEMETRY_HEARTBEAT fields = false)
      (hserializes : host.serializes (.object fields) = true)
      (htarget : relayTarget socket fields hub = some targetPeer) :
      HubMove host now hub (.message socket rawText)
        { hub with sent := hub.sent ++ [(targetPeer.socket, fields)] }
  | closing (socket : Socket) :
      HubMove host now hub (.closing socket) { hub with sockets := closedIn hub.sockets socket }
  | stale (event : HubEvent) (socket : Socket) (sockets : OrderedMap Socket ReadyState)
      (hshuts : Shuts hub socket sockets event) (hstale : ∀ room, ¬ RegisteredBy socket room hub) :
      HubMove host now hub event { hub with sockets := sockets }
  | left (event : HubEvent) (socket : Socket) (sockets : OrderedMap Socket ReadyState) (room : Room)
      (next : SignalingHub ν) (metrics : SwarmMetrics ν) (hshuts : Shuts hub socket sockets event)
      (hregistered : RegisteredBy socket room hub)
      (hnext : next = departed socket room { hub with sockets := sockets })
      (hpresents : Presents host now socket next metrics) :
      HubMove host now hub event
        { next with
          sent := hub.sent ++
            (broadcastTo (next.receivers socket.payload.sessionId none)
                (leftFrame socket.payload.sessionId (peerIdOf socket.payload)) ++
              broadcastTo (next.receivers socket.payload.sessionId none)
                (metricsFrame host socket.payload.sessionId metrics)) }
  | crashed (event : HubEvent) (socket : Socket) (sockets : OrderedMap Socket ReadyState)
      (room : Room) (next : SignalingHub ν) (sent : List (Socket × Json.Fields ν))
      (hshuts : Shuts hub socket sockets event) (hregistered : RegisteredBy socket room hub)
      (hnext : next = departed socket room { hub with sockets := sockets })
      (hunpresented : Unpresented host now socket next sent) :
      HubMove host now hub event { next with sent := hub.sent ++ sent, halted := true }
  | ended (sessionId : String) (requester : AuthTokenPayload)
      (hinstructor : requester.role = .instructor) (hsession : requester.sessionId = sessionId)
      (hfound : (SessionRepository.findById sessionId hub.db).isSome = true) :
      HubMove host now hub (.endSession sessionId requester) (sessionEnded sessionId hub)
  | reset (sessionId : String) (user : AuthTokenPayload) (hinstructor : user.role = .instructor)
      (hsession : user.sessionId = sessionId) :
      HubMove host now hub (.resetTelemetry sessionId user)
        { hub with reports := TelemetryManager.clearSession sessionId hub.reports }

section Moves

variable {host : Host ν} {now : ℕ} {hub : SignalingHub ν} {socket : Socket}

theorem event_of_shuts {sockets : OrderedMap Socket ReadyState}
    {event : HubEvent} (hshuts : Shuts hub socket sockets event) :
    event = .close socket ∨ event = .error socket := by
  cases event with
  | close other => exact Or.inl (congrArg HubEvent.close hshuts.1)
  | error other => exact Or.inr (congrArg HubEvent.error hshuts.1)
  | connection | message | closing | endSession | resetTelemetry | sessionCheck =>
    exact hshuts.elim

/-- Of the sockets only the one that closes or fails changes. -/
theorem Shuts.get?_of_ne {sockets : OrderedMap Socket ReadyState} {event : HubEvent}
    (hshuts : Shuts hub socket sockets event) {own : Socket} (hne : own ≠ socket) :
    sockets.get? own = hub.sockets.get? own := by
  cases event with
  | close shut =>
    obtain ⟨_, _, rfl⟩ := hshuts
    exact OrderedMap.get?_set_of_ne _ hne _
  | error shut =>
    obtain ⟨_, _, rfl⟩ := hshuts
    rw [closedIn_get?, if_neg fun h ↦ hne (And.left h)]
  | connection | message | closing | endSession | resetTelemetry | sessionCheck =>
    exact hshuts.elim

/-- The check of a session deactivates one that has expired. -/
theorem checkSession_move (sessionId : String) :
    HubMove host now hub (.sessionCheck sessionId)
      { hub with db := (checkSession sessionId now hub.db).1 } := by
  unfold checkSession
  cases hsession : SessionRepository.findById sessionId hub.db with
  | none => exact .idle _
  | some session =>
    obtain rfl : session.id = sessionId := hub.db.session_key sessionId session hsession
    simp only
    split_ifs with hactive hexpired
    · exact .idle _
    · exact .expired _ session (Or.inl rfl) hsession hexpired
    · exact .idle _

theorem connection_move (hfresh : hub.sockets.has socket = false) :
    HubMove host now hub (.connection socket) (handleSignalingConnection host socket now hub) := by
  unfold handleSignalingConnection
  cases hsession : SessionRepository.findById socket.payload.sessionId hub.db with
  | none => exact .idle _
  | some session =>
    have hid : session.id = socket.payload.sessionId := hub.db.session_key _ session hsession
    simp only
    split_ifs with hactive hexpired
    · exact .idle _
    · exact .expired _ session (Or.inr ⟨socket, rfl, hid.symm⟩) (hid ▸ hsession) hexpired
    · exact .admitted socket session hfresh hsession (by simpa using hactive) hexpired

theorem message_move (rawText : String) (hlistens : Listens hub socket) :
    HubMove host now hub (.message socket rawText) (handleMessage host socket rawText now hub) := by
  rcases handleMessage_cases host socket rawText now hub with
    hsame | ⟨fields, hreceived, ⟨hbeat, heq⟩ | ⟨hbeat, hserializes, targetPeer, htarget, heq⟩⟩
  · rw [hsame]
    exact .idle _
  · rw [heq]
    rcases handleHeartbeat_cases host socket fields now hub with
      hsame | ⟨payload, hpayload, ⟨hnone, hsame⟩ | ⟨metrics, hpresents, hsent⟩⟩
    · rw [hsame]
      exact .idle _
    · rw [hsame]
      have hmove : HubMove host now hub (.message socket rawText)
          { reportedTo socket payload hub with sent := hub.sent ++ [] } :=
        .reported socket rawText fields payload [] hlistens hreceived hbeat hpayload
          (Or.inl ⟨hnone, rfl⟩)
      rwa [List.append_nil] at hmove
    · rw [hsent]
      exact .reported socket rawText fields payload _ hlistens hreceived hbeat hpayload
        (Or.inr ⟨metrics, hpresents, rfl⟩)
  · rw [heq]
    exact .relayed socket rawText fields targetPeer hlistens hreceived hbeat hserializes htarget

/-- The socket of an event that closes it or fails. -/
theorem cleanup_move {event : HubEvent} {sockets : OrderedMap Socket ReadyState}
    (hshuts : Shuts hub socket sockets event) :
    HubMove host now hub event (cleanup host socket now { hub with sockets := sockets }) := by
  rcases cleanup_cases host socket now { hub with sockets := sockets } with
    ⟨hstale, hsame⟩ | ⟨room, hregistered, ⟨sent, hunpresented, hsame⟩ | ⟨metrics, hpresents, hsent⟩⟩
  · rw [hsame]
    exact .stale event socket sockets hshuts hstale
  · rw [hsame]
    exact .crashed event socket sockets room _ sent hshuts hregistered rfl hunpresented
  · rw [hsent]
    exact .left event socket sockets room _ metrics hshuts hregistered rfl hpresents

/-- An event that is handled is one of the moves. -/
theorem handleEvent_move (host : Host ν) (now : ℕ) (hub : SignalingHub ν) (event : HubEvent) :
    HubMove host now hub event (handleEvent host now hub event) := by
  cases event with
  | connection socket =>
    change HubMove host now hub _ (if hub.sockets.has socket then hub else _)
    split_ifs with hknown
    · exact .idle _
    · exact connection_move (Bool.eq_false_iff.mpr hknown)
  | message socket rawText =>
    cases hstate : hub.sockets.get? socket with
    | none =>
      rw [handleEvent, hstate]
      exact .idle _
    | some state =>
      rw [handleEvent, hstate]
      cases state with
      | OPEN => exact message_move rawText (Or.inl hstate)
      | CLOSING => exact message_move rawText (Or.inr hstate)
      | CLOSED => exact .idle _
  | closing socket =>
    change HubMove host now hub _ (close socket hub)
    rw [close_eq]
    exact .closing socket
  | close socket =>
    change HubMove host now hub _ (if hub.sockets.has socket then _ else hub)
    split_ifs with hknown
    · exact cleanup_move ⟨rfl, hknown, rfl⟩
    · exact .idle _
  | error socket =>
    change HubMove host now hub _ (if hub.sockets.has socket then _ else hub)
    split_ifs with hknown
    · rw [close_eq]
      exact cleanup_move ⟨rfl, hknown, rfl⟩
    · exact .idle _
  | endSession sessionId requester =>
    change HubMove host now hub _ (endSession sessionId requester hub).1
    rcases endSession_cases sessionId requester hub with
      ⟨error, hsame⟩ | ⟨hrole, hown, hfound, hended⟩
    · rw [hsame]
      exact .idle _
    · rw [hended]
      exact .ended sessionId requester hrole hown hfound
  | resetTelemetry sessionId user =>
    change HubMove host now hub _ (resetTelemetry host sessionId user now hub).1
    rcases resetTelemetry_cases host sessionId user now hub with hsame | ⟨hrole, hown, _, hreset⟩
    · rw [hsame]
      exact .idle _
    · rw [hreset]
      exact .reset sessionId user hrole hown
  | sessionCheck sessionId => exact checkSession_move sessionId

/-- **Every step is one of the moves.** -/
theorem hubStep_move (host : Host ν) (hub : SignalingHub ν) (input : HubInput) :
    HubMove host input.1 hub input.2 (hubStep host hub input) := by
  unfold hubStep
  split_ifs
  · exact .idle _
  · exact handleEvent_move host input.1 hub input.2

end Moves

end CampusMesh.Server
