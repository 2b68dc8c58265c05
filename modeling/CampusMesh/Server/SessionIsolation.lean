import CampusMesh.Server.Registration

/-!
# Class sessions do not interfere

What a class session sees of the server: its row, its room, its reports, the states of its own
sockets, and the frames that were sent to these (`Agrees`). Frames go to the session of the event
only (`HubMove.sent_session`). So an event of another session changes nothing of what a session sees
(`HubMove.agrees_of_foreign`), and an event of its own changes it in a way that depends on nothing
else (`handleEvent_agrees`): a session sees the same with and without the events of all other
sessions (`isolated_of_othersPresentable`).

One listener breaks this. A socket that closes makes the server compute metrics and write them as
text. The former throws when a report has a counter that cannot be converted and added, and the
latter when the reports are nested too deep to be written. What is thrown there ends the server for
all sessions. `OthersPresentable` is the condition that this does not happen.
-/

set_option autoImplicit false
set_option relaxedAutoImplicit false

namespace CampusMesh.Server

open Library Shared SignalingHub

variable {ν : Type}

/-! ### The promise -/

/-- The session that an event belongs to, by its token. -/
def HubEvent.session : HubEvent → String
  | .connection socket | .message socket _ | .closing socket | .close socket | .error socket =>
    socket.payload.sessionId
  | .endSession _ requester => requester.sessionId
  | .resetTelemetry _ user => user.sessionId
  | .sessionCheck sessionId => sessionId

/-- The frames that were sent to the sockets of a session. -/
def deliveredTo (sessionId : String) (hub : SignalingHub ν) : List (Socket × Json.Fields ν) :=
  hub.sent.filter fun frame ↦ frame.1.payload.sessionId = sessionId

/-- The events of a session, in their order. -/
abbrev sessionInputs (sessionId : String) (inputs : List HubInput) : List HubInput :=
  purge (fun input : HubInput ↦ input.2.session) sessionId inputs

/-- The frames sent to a session, its room and its metrics at any time are those of the run without
the events of other sessions. -/
def Isolated (host : Host ν) (db : Database) (sessionId : String) (inputs : List HubInput) : Prop :=
  let full := hubRun host db inputs
  let own := hubRun host db (sessionInputs sessionId inputs)
  deliveredTo sessionId full = deliveredTo sessionId own ∧
    full.rooms.get? sessionId = own.rooms.get? sessionId ∧
    ∀ now, TelemetryManager.getMetrics host sessionId now full.rooms full.reports =
      TelemetryManager.getMetrics host sessionId now own.rooms own.reports

/-- The reports of a session can be added up, and the metrics with them can be written as text. -/
structure Presentable (host : Host ν) (now : ℕ) (sessionId : String) (rooms : Rooms)
    (reports : Reports ν) : Prop where
  summable : TelemetryManager.Summable host (TelemetryManager.peerReports sessionId reports)
  serializes : ∀ metrics, TelemetryManager.getMetrics host sessionId now rooms reports =
    some metrics → host.serializes (.object (metricsFrame host sessionId metrics)) = true

/-- When the registered socket of a peer closes or fails, the reports of the others of its session
can be added up, and the metrics with them can be written. -/
def OthersPresentable (host : Host ν) (now : ℕ) (hub : SignalingHub ν) : HubEvent → Prop
  | .close socket | .error socket => ∀ room, RegisteredBy socket room hub →
      Presentable host now socket.payload.sessionId (departed socket room hub).rooms
        (departed socket room hub).reports
  | _ => True

/-! ### What a session sees -/

/-- Two states of the server look the same to a session. -/
structure Agrees (sessionId : String) (first second : SignalingHub ν) : Prop where
  session : SessionRepository.findById sessionId first.db =
    SessionRepository.findById sessionId second.db
  room : first.rooms.get? sessionId = second.rooms.get? sessionId
  reports : first.reports.get? sessionId = second.reports.get? sessionId
  sockets : ∀ socket : Socket, socket.payload.sessionId = sessionId →
    first.sockets.get? socket = second.sockets.get? socket
  delivered : deliveredTo sessionId first = deliveredTo sessionId second

section Congruence

variable {host : Host ν} {now : ℕ} {sessionId : String} {first second third : SignalingHub ν}

theorem Agrees.refl (hub : SignalingHub ν) : Agrees sessionId hub hub :=
  ⟨rfl, rfl, rfl, fun _ _ ↦ rfl, rfl⟩

theorem Agrees.trans (hfirst : Agrees sessionId first second)
    (hsecond : Agrees sessionId second third) : Agrees sessionId first third where
  session := hfirst.session.trans hsecond.session
  room := hfirst.room.trans hsecond.room
  reports := hfirst.reports.trans hsecond.reports
  sockets socket hsocket := (hfirst.sockets socket hsocket).trans (hsecond.sockets socket hsocket)
  delivered := hfirst.delivered.trans hsecond.delivered

/-- The metrics of a session are made from its room and its reports. -/
theorem getMetrics_congr (host : Host ν) (now : ℕ) {rooms otherRooms : Rooms}
    {reports otherReports : Reports ν}
    (hroom : rooms.get? sessionId = otherRooms.get? sessionId)
    (hreports : reports.get? sessionId = otherReports.get? sessionId) :
    TelemetryManager.getMetrics host sessionId now rooms reports =
      TelemetryManager.getMetrics host sessionId now otherRooms otherReports := by
  unfold TelemetryManager.getMetrics TelemetryManager.peerReports RoomManager.getRoomPeers
  rw [hroom, hreports]

/-- Sending the same frames keeps two states alike. -/
theorem Agrees.send (hagrees : Agrees sessionId first second)
    (sent : List (Socket × Json.Fields ν)) :
    Agrees sessionId { first with sent := first.sent ++ sent }
      { second with sent := second.sent ++ sent } := by
  refine { hagrees with delivered := ?_ }
  have hdelivered := hagrees.delivered
  unfold deliveredTo at hdelivered ⊢
  rw [List.filter_append, List.filter_append, hdelivered]

/-- The receivers in the room of a session are its own sockets. -/
theorem Agrees.receivers (hagrees : Agrees sessionId first second) (hown : RoomsOwn first)
    (excludePeerId : Option String) :
    first.receivers sessionId excludePeerId = second.receivers sessionId excludePeerId := by
  unfold SignalingHub.receivers
  have hpeers : RoomManager.getRoomPeers sessionId first.rooms =
      RoomManager.getRoomPeers sessionId second.rooms := by
    rw [RoomManager.getRoomPeers, RoomManager.getRoomPeers, hagrees.room]
  rw [← hpeers]
  refine List.filter_congr fun socket hsocket ↦ ?_
  obtain ⟨peer, hpeer, rfl⟩ := List.mem_map.mp hsocket
  obtain ⟨peerId, hfound⟩ := RoomManager.mem_getRoomPeers.mp (List.mem_filter.mp hpeer).1
  have hsession := (hown sessionId peerId peer hfound).1
  rw [isOpen, isOpen, hagrees.sockets peer.socket hsession]

theorem Agrees.sendToRoom (hagrees : Agrees sessionId first second) (hown : RoomsOwn first)
    (message : Json.Fields ν) (excludePeerId : Option String) :
    Agrees sessionId (sendToRoom sessionId message excludePeerId first)
      (sendToRoom sessionId message excludePeerId second) := by
  unfold SignalingHub.sendToRoom
  rw [← hagrees.receivers hown]
  exact hagrees.send _

theorem Agrees.setSocket (hagrees : Agrees sessionId first second) (socket : Socket)
    (state : ReadyState) :
    Agrees sessionId { first with sockets := first.sockets.set socket state }
      { second with sockets := second.sockets.set socket state } := by
  refine { hagrees with sockets := fun other hother ↦ ?_ }
  rw [OrderedMap.get?_set, OrderedMap.get?_set, hagrees.sockets other hother]

theorem Agrees.deactivate (hagrees : Agrees sessionId first second) :
    Agrees sessionId { first with db := SessionRepository.deactivate sessionId first.db }
      { second with db := SessionRepository.deactivate sessionId second.db } := by
  refine { hagrees with session := ?_ }
  rw [SessionRepository.findById_deactivate, SessionRepository.findById_deactivate,
    hagrees.session]

theorem Agrees.setRoom (hagrees : Agrees sessionId first second) {rooms otherRooms : Rooms}
    (hroom : rooms.get? sessionId = otherRooms.get? sessionId) :
    Agrees sessionId { first with rooms := rooms } { second with rooms := otherRooms } :=
  { hagrees with room := hroom }

theorem Agrees.setReports (hagrees : Agrees sessionId first second)
    {reports otherReports : Reports ν}
    (hreports : reports.get? sessionId = otherReports.get? sessionId) :
    Agrees sessionId { first with reports := reports } { second with reports := otherReports } :=
  { hagrees with reports := hreports }

end Congruence

/-! ### Events of other sessions -/

section Foreign

variable {host : Host ν} {now : ℕ} {sessionId other : String} {hub next : SignalingHub ν}
  {event : HubEvent}

/-- What is broadcast in a room goes to sockets of its session. -/
theorem session_of_mem_broadcastTo (hown : RoomsOwn hub) {excludePeerId : Option String}
    {message : Json.Fields ν} {frame : Socket × Json.Fields ν}
    (hmem : frame ∈ broadcastTo (hub.receivers other excludePeerId) message) :
    frame.1.payload.sessionId = other := by
  obtain ⟨receiver, hreceiver, rfl⟩ := List.mem_map.mp hmem
  obtain ⟨peerId, peer, hfound, rfl, _⟩ := receiver_registered hreceiver
  exact (hown other peerId peer hfound).1

/-- Frames that do not reach a session are not noticed by it. -/
theorem deliveredTo_append {sent : List (Socket × Json.Fields ν)}
    (hsent : next.sent = hub.sent ++ sent)
    (hforeign : sent.filter (fun frame ↦ frame.1.payload.sessionId = sessionId) = []) :
    deliveredTo sessionId next = deliveredTo sessionId hub := by
  unfold deliveredTo
  rw [hsent, List.filter_append, hforeign, List.append_nil]

theorem Shuts.session {socket : Socket} {sockets : OrderedMap Socket ReadyState}
    (hshuts : Shuts hub socket sockets event) : event.session = socket.payload.sessionId := by
  cases event with
  | close shut => rw [hshuts.1]; rfl
  | error shut => rw [hshuts.1]; rfl
  | connection | message | closing | endSession | resetTelemetry | sessionCheck =>
    exact hshuts.elim

/-- The departure of a peer of another session is not noticed. -/
theorem agrees_departed {socket : Socket} {sockets : OrderedMap Socket ReadyState} {room : Room}
    (hshuts : Shuts hub socket sockets event) (hne : socket.payload.sessionId ≠ sessionId) :
    Agrees sessionId (departed socket room { hub with sockets := sockets }) hub where
  session := rfl
  room := RoomManager.get?_dropPeer_of_ne hne.symm room
  reports := TelemetryManager.get?_removePeer_of_ne hne.symm
  sockets _ hsession := hshuts.get?_of_ne fun hsame ↦ hne (hsame ▸ hsession)
  delivered := rfl

/-- Frames are sent to sockets of the session of the event. -/
theorem HubMove.sent_session (hmove : HubMove host now hub event next) (hown : RoomsOwn hub) :
    ∃ sent, next.sent = hub.sent ++ sent ∧
      ∀ frame ∈ sent, frame.1.payload.sessionId = event.session := by
  have hnext : RoomsOwn next := hmove.roomsOwn hown
  have hquiet : ∀ frame ∈ ([] : List (Socket × Json.Fields ν)),
      frame.1.payload.sessionId = event.session := fun _ hmem ↦ absurd hmem List.not_mem_nil
  cases hmove with
  | idle | expired | closing | stale | reset => exact ⟨[], (List.append_nil _).symm, hquiet⟩
  | admitted socket =>
    rw [letIn_spec] at hnext ⊢
    refine ⟨_, rfl, List.forall_mem_cons.mpr ⟨rfl, fun frame hmem ↦ ?_⟩⟩
    have hplaced : RoomsOwn (Server.admitted socket now hub) := hnext
    exact session_of_mem_broadcastTo hplaced hmem
  | reported socket rawText fields payload sent _ _ _ _ hsent =>
    refine ⟨sent, rfl, ?_⟩
    rcases hsent with ⟨_, rfl⟩ | ⟨metrics, _, rfl⟩
    · exact hquiet
    · have hplaced : RoomsOwn (reportedTo socket payload hub) := hown
      exact fun frame hmem ↦ session_of_mem_broadcastTo hplaced hmem
  | relayed socket rawText fields targetPeer _ _ _ _ htarget =>
    obtain ⟨targetPeerId, _, _, hfound, _⟩ := relayTarget_eq_some htarget
    exact ⟨_, rfl, List.forall_mem_singleton.mpr (hown _ _ _ hfound).1⟩
  | left _ socket sockets room between metrics hshuts =>
    have hplaced : RoomsOwn between := hnext
    refine ⟨_, rfl, fun frame hmem ↦ hshuts.session ▸ ?_⟩
    rcases List.mem_append.mp hmem with hleft | hmetrics
    · exact session_of_mem_broadcastTo hplaced hleft
    · exact session_of_mem_broadcastTo hplaced hmetrics
  | crashed _ socket sockets room between sent hshuts _ _ hunpresented =>
    have hplaced : RoomsOwn between := hnext
    refine ⟨sent, rfl, ?_⟩
    rcases hunpresented with ⟨_, rfl⟩ | ⟨metrics, _, _, rfl⟩
    · exact hquiet
    · exact fun frame hmem ↦ hshuts.session ▸ session_of_mem_broadcastTo hplaced hmem
  | ended ended requester _ hsession =>
    exact ⟨_, rfl, fun frame hmem ↦ (session_of_mem_broadcastTo hown hmem).trans hsession.symm⟩

/-- **An event of another session is not noticed.** -/
theorem HubMove.agrees_of_foreign (hmove : HubMove host now hub event next) (hown : RoomsOwn hub)
    (hne : event.session ≠ sessionId) : Agrees sessionId next hub := by
  have hdelivered : deliveredTo sessionId next = deliveredTo sessionId hub := by
    obtain ⟨sent, hsent, hsession⟩ := hmove.sent_session hown
    refine deliveredTo_append hsent (List.filter_eq_nil_iff.mpr fun frame hmem ↦ ?_)
    simpa [hsession frame hmem] using hne
  cases hmove with
  | idle => exact Agrees.refl _
  | expired _ session hevent =>
    have hsession : session.id ≠ sessionId := by
      rcases hevent with rfl | ⟨socket, rfl, hid⟩
      · exact hne
      · exact hid ▸ hne
    refine { Agrees.refl hub with session := ?_ }
    rw [SessionRepository.findById_deactivate, if_neg hsession.symm]
  | admitted socket =>
    have hforeign : socket.payload.sessionId ≠ sessionId := hne
    rw [letIn_spec] at hdelivered ⊢
    refine ⟨rfl, RoomManager.get?_addPeer_of_ne hforeign.symm, rfl, fun own hsession ↦ ?_,
      hdelivered⟩
    have hother : own ≠ socket := fun hsame ↦ hforeign (hsame ▸ hsession)
    exact OrderedMap.get?_set_of_ne _ hother _
  | reported socket =>
    exact ⟨rfl, rfl, OrderedMap.get?_set_of_ne _ (Ne.symm hne) _, fun _ _ ↦ rfl, hdelivered⟩
  | relayed => exact { Agrees.refl hub with delivered := hdelivered }
  | closing socket =>
    have hforeign : socket.payload.sessionId ≠ sessionId := hne
    refine { Agrees.refl hub with sockets := fun own hsession ↦ ?_ }
    have hnot : ¬ (own = socket ∧ hub.sockets.get? own = some .OPEN) :=
      fun h ↦ hforeign (h.1 ▸ hsession)
    rw [closedIn_get?, if_neg hnot]
  | stale _ socket sockets hshuts =>
    refine { Agrees.refl hub with sockets := fun own hsession ↦ hshuts.get?_of_ne fun hsame ↦ ?_ }
    rw [hshuts.session, ← hsame] at hne
    exact hne hsession
  | left _ socket sockets room between metrics hshuts _ hbetween
  | crashed _ socket sockets room between _ hshuts _ hbetween =>
    have hforeign : socket.payload.sessionId ≠ sessionId := hshuts.session ▸ hne
    have hagrees : Agrees sessionId between hub := hbetween ▸ agrees_departed hshuts hforeign
    exact { hagrees with delivered := hdelivered }
  | ended ended requester _ hsession =>
    have hforeign : ended ≠ sessionId := hsession ▸ hne
    refine ⟨?_, OrderedMap.get?_delete_of_ne _ hforeign.symm,
      OrderedMap.get?_delete_of_ne _ hforeign.symm, fun own hsocket ↦ ?_, hdelivered⟩
    · exact (SessionRepository.findById_deactivate ended sessionId hub.db).trans
        (if_neg hforeign.symm)
    · refine (foldl_closedIn_get? _ _ _).trans (if_neg fun h ↦ ?_)
      obtain ⟨peer, hpeer, rfl⟩ := List.mem_map.mp h.1
      obtain ⟨peerId, hfound⟩ := RoomManager.mem_getRoomPeers.mp hpeer
      exact hforeign ((hown ended peerId peer hfound).1.symm.trans hsocket)
  | reset cleared user _ hsession =>
    have hforeign : cleared ≠ sessionId := hsession ▸ hne
    exact { Agrees.refl hub with reports := OrderedMap.get?_delete_of_ne _ hforeign.symm }

end Foreign

/-! ### Events of the session -/

section Own

variable {host : Host ν} {now : ℕ} {sessionId : String} {first second : SignalingHub ν}
  {event : HubEvent}

theorem isOpen_congr (hagrees : Agrees sessionId first second) {socket : Socket}
    (hsession : socket.payload.sessionId = sessionId) :
    first.isOpen socket = second.isOpen socket := by
  rw [isOpen, isOpen, hagrees.sockets socket hsession]

theorem has_congr (hagrees : Agrees sessionId first second) {socket : Socket}
    (hsession : socket.payload.sessionId = sessionId) :
    first.sockets.has socket = second.sockets.has socket := by
  rw [OrderedMap.has, OrderedMap.has, hagrees.sockets socket hsession]

theorem close_agrees (hagrees : Agrees sessionId first second) {socket : Socket}
    (hsession : socket.payload.sessionId = sessionId) :
    Agrees sessionId (close socket first) (close socket second) := by
  unfold SignalingHub.close
  rw [isOpen_congr hagrees hsession]
  split_ifs
  · exact hagrees.setSocket socket .CLOSING
  · exact hagrees

theorem registeredBy_congr {socket : Socket} {room : Room}
    (hagrees : Agrees socket.payload.sessionId first second) :
    RegisteredBy socket room first ↔ RegisteredBy socket room second := by
  unfold RegisteredBy
  rw [hagrees.room]

theorem addPeer_congr {rooms otherRooms : Rooms}
    (hroom : rooms.get? sessionId = otherRooms.get? sessionId) (peer : ConnectedPeer) :
    (RoomManager.addPeer sessionId peer rooms).get? sessionId =
      (RoomManager.addPeer sessionId peer otherRooms).get? sessionId := by
  rw [RoomManager.addPeer, RoomManager.addPeer, OrderedMap.get?_set_self,
    OrderedMap.get?_set_self, hroom]

theorem dropPeer_congr {rooms otherRooms : Rooms} (peerId : String) (room : Room) :
    (RoomManager.dropPeer sessionId peerId room rooms).get? sessionId =
      (RoomManager.dropPeer sessionId peerId room otherRooms).get? sessionId := by
  unfold RoomManager.dropPeer
  split_ifs
  · rw [OrderedMap.get?_delete_self, OrderedMap.get?_delete_self]
  · rw [OrderedMap.get?_set_self, OrderedMap.get?_set_self]

theorem updatePeerReport_congr {reports otherReports : Reports ν}
    (hreports : reports.get? sessionId = otherReports.get? sessionId) (peerId : String)
    (report : PeerTelemetryReport ν) :
    (TelemetryManager.updatePeerReport sessionId peerId report reports).get? sessionId =
      (TelemetryManager.updatePeerReport sessionId peerId report otherReports).get? sessionId := by
  rw [TelemetryManager.updatePeerReport, TelemetryManager.updatePeerReport,
    OrderedMap.get?_set_self, OrderedMap.get?_set_self, hreports]

theorem removePeer_congr {reports otherReports : Reports ν}
    (hreports : reports.get? sessionId = otherReports.get? sessionId) (peerId : String) :
    (TelemetryManager.removePeer sessionId peerId reports).get? sessionId =
      (TelemetryManager.removePeer sessionId peerId otherReports).get? sessionId := by
  unfold TelemetryManager.removePeer
  rw [← hreports]
  split
  · next hnone => rw [hnone, ← hreports, hnone]
  · split_ifs
    · rw [OrderedMap.get?_delete_self, OrderedMap.get?_delete_self]
    · rw [OrderedMap.get?_set_self, OrderedMap.get?_set_self]

theorem letIn_agrees (host : Host ν) (socket : Socket) (now : ℕ)
    (hagrees : Agrees socket.payload.sessionId first second) (hown : RoomsOwn first) :
    Agrees socket.payload.sessionId (letIn host socket now first)
      (letIn host socket now second) := by
  have hroom := addPeer_congr hagrees.room (connectedPeer socket now)
  have hadded := (hagrees.setRoom hroom).setSocket socket .OPEN
  have hpeers : existingPeers socket now first = existingPeers socket now second := by
    unfold existingPeers RoomManager.getRoomPeers
    exact congrArg (fun room ↦ (Option.getD (Option.map OrderedMap.values room) []).filter
      fun other ↦ other.peerId ≠ peerIdOf socket.payload) hroom
  have hreceivers : (admitted socket now first).receivers _ _ =
      (admitted socket now second).receivers _ _ :=
    hadded.receivers (hown.admitted socket now) (some (peerIdOf socket.payload))
  rw [letIn_spec, letIn_spec, hpeers, hreceivers]
  exact hadded.send _

theorem handleSignalingConnection_agrees (host : Host ν) (socket : Socket) (now : ℕ)
    (hagrees : Agrees socket.payload.sessionId first second) (hown : RoomsOwn first) :
    Agrees socket.payload.sessionId (handleSignalingConnection host socket now first)
      (handleSignalingConnection host socket now second) := by
  unfold handleSignalingConnection
  rw [hagrees.session]
  cases hsession : SessionRepository.findById socket.payload.sessionId second.db with
  | none => exact hagrees
  | some session =>
    have hid : session.id = socket.payload.sessionId := second.db.session_key _ _ hsession
    simp only
    split_ifs
    · exact hagrees
    · rw [hid]
      exact hagrees.deactivate
    · exact letIn_agrees host socket now hagrees hown

theorem handleHeartbeat_agrees (host : Host ν) (socket : Socket) (fields : Json.Fields ν) (now : ℕ)
    (hagrees : Agrees socket.payload.sessionId first second) (hown : RoomsOwn first) :
    Agrees socket.payload.sessionId (handleHeartbeat host socket fields now first)
      (handleHeartbeat host socket fields now second) := by
  unfold handleHeartbeat
  simp only
  split
  · exact hagrees
  · next payload _ =>
    have hreports := updatePeerReport_congr hagrees.reports (peerIdOf socket.payload)
      (Json.setField "displayName" (.string (displayNameOf socket.payload))
        (Json.setField "peerId" (.string (peerIdOf socket.payload)) payload))
    rw [getMetrics_congr host now hagrees.room hreports]
    unfold SignalingHub.broadcastToRoom
    split
    · exact hagrees.setReports hreports
    · split_ifs
      · exact (hagrees.setReports hreports).sendToRoom hown _ _
      · exact hagrees.setReports hreports

theorem handleMessage_agrees (host : Host ν) (socket : Socket) (rawText : String) (now : ℕ)
    (hagrees : Agrees socket.payload.sessionId first second) (hown : RoomsOwn first) :
    Agrees socket.payload.sessionId (handleMessage host socket rawText now first)
      (handleMessage host socket rawText now second) := by
  have htarget : ∀ fields : Json.Fields ν,
      relayTarget socket fields first = relayTarget socket fields second := by
    intro fields
    unfold relayTarget
    split
    · next targetPeerId _ =>
      split_ifs
      · rfl
      · have hsame : RoomManager.getPeer socket.payload.sessionId targetPeerId first.rooms =
            RoomManager.getPeer socket.payload.sessionId targetPeerId second.rooms := by
          rw [RoomManager.getPeer, RoomManager.getPeer, hagrees.room]
        rw [← hsame]
        cases hfound : RoomManager.getPeer socket.payload.sessionId targetPeerId first.rooms with
        | none => rfl
        | some peer =>
          rw [Option.filter_some, Option.filter_some,
            isOpen_congr hagrees (hown _ targetPeerId peer hfound).1]
    · rfl
  unfold handleMessage
  split
  · exact hagrees
  · next fields _ =>
    rw [htarget fields]
    split_ifs
    · exact handleHeartbeat_agrees host socket fields now hagrees hown
    · split
      · exact hagrees.send _
      · exact hagrees
    · split
      · exact hagrees
      · exact hagrees

theorem presents_congr {socket : Socket} (hagrees : Agrees socket.payload.sessionId first second)
    {metrics : SwarmMetrics ν} :
    Presents host now socket first metrics ↔ Presents host now socket second metrics := by
  unfold Presents
  rw [getMetrics_congr host now hagrees.room hagrees.reports]

theorem unpresented_congr {socket : Socket}
    (hagrees : Agrees socket.payload.sessionId first second) (hown : RoomsOwn first)
    {sent : List (Socket × Json.Fields ν)} :
    Unpresented host now socket first sent ↔ Unpresented host now socket second sent := by
  unfold Unpresented
  rw [getMetrics_congr host now hagrees.room hagrees.reports, hagrees.receivers hown]

/-- Metrics are shown to the room, or not. -/
theorem Unpresented.not_presents {socket : Socket} {hub : SignalingHub ν}
    {sent : List (Socket × Json.Fields ν)} (hunpresented : Unpresented host now socket hub sent)
    (metrics : SwarmMetrics ν) : ¬ Presents host now socket hub metrics := by
  rintro ⟨hmetrics, hserializes⟩
  rcases hunpresented with ⟨hnone, _⟩ | ⟨other, hother, hunserialized, _⟩
  · simp [hnone] at hmetrics
  · obtain rfl : other = metrics := Option.some.inj (hother.symm.trans hmetrics)
    simp [hserializes] at hunserialized

/-- What was sent before metrics turned out not to be shown is determined. -/
theorem Unpresented.unique {socket : Socket} {hub : SignalingHub ν}
    {sent other : List (Socket × Json.Fields ν)} (hsent : Unpresented host now socket hub sent)
    (hother : Unpresented host now socket hub other) : sent = other := by
  rcases hsent with ⟨hnone, rfl⟩ | ⟨metrics, hmetrics, _, rfl⟩
  · rcases hother with ⟨_, rfl⟩ | ⟨metrics, hmetrics, _⟩
    · rfl
    · simp [hnone] at hmetrics
  · rcases hother with ⟨hnone, _⟩ | ⟨_, _, _, rfl⟩
    · simp [hnone] at hmetrics
    · rfl

theorem cleanup_agrees (host : Host ν) (socket : Socket) (now : ℕ)
    (hagrees : Agrees socket.payload.sessionId first second) (hown : RoomsOwn first) :
    Agrees socket.payload.sessionId (cleanup host socket now first)
      (cleanup host socket now second) := by
  rcases cleanup_cases host socket now first with ⟨hstale, hfirst⟩ | ⟨room, hregistered, hfirst⟩
  · rcases cleanup_cases host socket now second with ⟨_, hsecond⟩ | ⟨room, hregistered, _⟩
    · rw [hfirst, hsecond]
      exact hagrees
    · exact absurd ((registeredBy_congr hagrees).mpr hregistered) (hstale room)
  · rcases cleanup_cases host socket now second with ⟨hstale, _⟩ | ⟨other, hother, hsecond⟩
    · exact absurd ((registeredBy_congr hagrees).mp hregistered) (hstale room)
    · obtain rfl : room = other := by
        have hroom := ((registeredBy_congr hagrees).mp hregistered).1
        exact Option.some.inj (hroom.symm.trans hother.1)
      have hdeparted : Agrees socket.payload.sessionId (departed socket room first)
          (departed socket room second) :=
        (hagrees.setRoom (dropPeer_congr _ room)).setReports (removePeer_congr hagrees.reports _)
      have hplaced : RoomsOwn (departed socket room first) :=
        hown.departed hregistered first.sockets
      rcases hfirst with ⟨sent, hunpresented, hfirst⟩ | ⟨metrics, hpresents, hfirst⟩
      · have hsame := (unpresented_congr hdeparted hplaced).mp hunpresented
        rcases hsecond with ⟨sentToo, hunpresentedToo, hsecond⟩ | ⟨metrics, hpresents, _⟩
        · obtain rfl := hsame.unique hunpresentedToo
          rw [hfirst, hsecond]
          exact { hdeparted.send sent with }
        · exact absurd hpresents (hsame.not_presents metrics)
      · have hsame := (presents_congr hdeparted).mp hpresents
        rcases hsecond with ⟨_, hunpresented, _⟩ | ⟨metricsToo, hpresentsToo, hsecond⟩
        · exact absurd hsame (hunpresented.not_presents metrics)
        · obtain rfl : metrics = metricsToo := Option.some.inj (hsame.1.symm.trans hpresentsToo.1)
          rw [hfirst, hsecond, hdeparted.receivers hplaced]
          exact hdeparted.send _

theorem sessionEnded_agrees (hagrees : Agrees sessionId first second) (hown : RoomsOwn first) :
    Agrees sessionId (sessionEnded sessionId first) (sessionEnded sessionId second) := by
  have hpeers : RoomManager.getRoomPeers sessionId first.rooms =
      RoomManager.getRoomPeers sessionId second.rooms := by
    rw [RoomManager.getRoomPeers, RoomManager.getRoomPeers, hagrees.room]
  refine ⟨hagrees.deactivate.session, ?_, ?_, fun socket hsession ↦ ?_, ?_⟩
  · exact (OrderedMap.get?_delete_self _ _).trans (OrderedMap.get?_delete_self _ _).symm
  · exact (OrderedMap.get?_delete_self _ _).trans (OrderedMap.get?_delete_self _ _).symm
  · unfold sessionEnded closedAllIn
    simp only
    rw [foldl_closedIn_get?, foldl_closedIn_get?, hpeers, hagrees.sockets socket hsession]
  · unfold sessionEnded
    rw [hagrees.receivers hown]
    exact (hagrees.send _).delivered

theorem endSession_agrees (sessionId : String) (requester : AuthTokenPayload)
    (hagrees : Agrees requester.sessionId first second) (hown : RoomsOwn first) :
    Agrees requester.sessionId (endSession sessionId requester first).1
      (endSession sessionId requester second).1 := by
  unfold endSession
  split_ifs with hdenied
  · exact hagrees
  · rw [not_or, not_not, not_not] at hdenied
    obtain ⟨_, rfl⟩ := hdenied
    rw [hagrees.session]
    cases SessionRepository.findById requester.sessionId second.db with
    | none => exact hagrees
    | some session =>
      simp only [RoomManager.deleteRoom, foldl_close_eq]
      exact sessionEnded_agrees hagrees hown

theorem resetTelemetry_agrees (host : Host ν) (sessionId : String) (user : AuthTokenPayload)
    (now : ℕ) (hagrees : Agrees user.sessionId first second) :
    Agrees user.sessionId (resetTelemetry host sessionId user now first).1
      (resetTelemetry host sessionId user now second).1 := by
  unfold resetTelemetry
  split_ifs with hrole hsession
  · exact hagrees
  · exact hagrees
  · obtain rfl := not_not.mp hsession
    rw [hagrees.session]
    cases SessionRepository.findById user.sessionId second.db with
    | none => exact hagrees
    | some session =>
      refine hagrees.setReports ?_
      exact (OrderedMap.get?_delete_self _ _).trans (OrderedMap.get?_delete_self _ _).symm

theorem checkSession_agrees (sessionId : String) (now : ℕ)
    (hagrees : Agrees sessionId first second) :
    Agrees sessionId { first with db := (checkSession sessionId now first.db).1 }
      { second with db := (checkSession sessionId now second.db).1 } := by
  unfold checkSession
  rw [hagrees.session]
  cases hsession : SessionRepository.findById sessionId second.db with
  | none => exact hagrees
  | some session =>
    have hid : session.id = sessionId := second.db.session_key _ _ hsession
    simp only
    split_ifs
    · exact hagrees
    · rw [hid]
      exact hagrees.deactivate
    · exact hagrees

/-- **An event of a session takes states that look the same to it to such states.** -/
theorem handleEvent_agrees (host : Host ν) (now : ℕ) (event : HubEvent)
    (hagrees : Agrees event.session first second) (hown : RoomsOwn first) :
    Agrees event.session (handleEvent host now first event)
      (handleEvent host now second event) := by
  cases event with
  | connection socket =>
    unfold handleEvent
    simp only
    rw [has_congr hagrees rfl]
    split_ifs
    · exact hagrees
    · exact handleSignalingConnection_agrees host socket now hagrees hown
  | message socket rawText =>
    unfold handleEvent
    simp only
    rw [hagrees.sockets socket rfl]
    split
    · exact handleMessage_agrees host socket rawText now hagrees hown
    · exact handleMessage_agrees host socket rawText now hagrees hown
    · exact hagrees
  | closing socket => exact close_agrees hagrees rfl
  | close socket =>
    unfold handleEvent
    simp only
    rw [has_congr hagrees rfl]
    split_ifs
    · exact cleanup_agrees host socket now (hagrees.setSocket socket .CLOSED) hown
    · exact hagrees
  | error socket =>
    unfold handleEvent
    simp only
    rw [has_congr hagrees rfl]
    split_ifs
    · refine cleanup_agrees host socket now (close_agrees hagrees rfl) ?_
      rw [close_eq]
      exact hown
    · exact hagrees
  | endSession sessionId requester => exact endSession_agrees sessionId requester hagrees hown
  | resetTelemetry sessionId user => exact resetTelemetry_agrees host sessionId user now hagrees
  | sessionCheck sessionId => exact checkSession_agrees sessionId now hagrees

end Own

/-! ### Runs -/

section Runs

variable {host : Host ν} {hub : SignalingHub ν}

/-- The server goes on when the metrics with the reports of the others can be shown. -/
theorem HubMove.halted_eq_false {now : ℕ} {next : SignalingHub ν} {event : HubEvent}
    (hmove : HubMove host now hub event next) (hruns : hub.halted = false)
    (hpresentable : OthersPresentable host now hub event) : next.halted = false := by
  cases hmove with
  | idle | expired | reported | relayed | closing | stale | ended | reset => exact hruns
  | admitted =>
    rw [letIn_spec]
    exact hruns
  | left _ socket sockets room between metrics _ _ hbetween =>
    subst hbetween
    exact hruns
  | crashed _ socket sockets room between sent hshuts hregistered hbetween hunpresented =>
    subst hbetween
    have hothers : Presentable host now socket.payload.sessionId (departed socket room hub).rooms
        (departed socket room hub).reports := by
      rcases event_of_shuts hshuts with rfl | rfl
      · exact hpresentable room hregistered
      · exact hpresentable room hregistered
    rcases hunpresented with ⟨hnone, _⟩ | ⟨metrics, hmetrics, hunserialized, _⟩
    · rw [← Option.not_isSome_iff_eq_none, TelemetryManager.getMetrics_isSome_iff] at hnone
      exact absurd hothers.summable hnone
    · have hserializes := hothers.serializes metrics hmetrics
      simp [hunserialized] at hserializes

theorem presentable_congr {now : ℕ} {sessionId : String} {first second : SignalingHub ν}
    (hagrees : Agrees sessionId first second)
    (hpresentable : Presentable host now sessionId first.rooms first.reports) :
    Presentable host now sessionId second.rooms second.reports where
  summable := by
    have hsummable := hpresentable.summable
    rwa [TelemetryManager.peerReports, hagrees.reports] at hsummable
  serializes metrics hmetrics := by
    rw [← getMetrics_congr host now hagrees.room hagrees.reports] at hmetrics
    exact hpresentable.serializes metrics hmetrics

theorem othersPresentable_congr {now : ℕ} {first second : SignalingHub ν} {event : HubEvent}
    (hagrees : Agrees event.session first second)
    (hpresentable : OthersPresentable host now first event) :
    OthersPresentable host now second event := by
  have hshut : ∀ socket : Socket, Agrees socket.payload.sessionId first second →
      OthersPresentable host now first (.close socket) →
        OthersPresentable host now second (.close socket) := by
    intro socket hagrees hpresentable room hregistered
    have hdeparted : Agrees socket.payload.sessionId (departed socket room first)
        (departed socket room second) :=
      (hagrees.setRoom (dropPeer_congr _ room)).setReports (removePeer_congr hagrees.reports _)
    exact presentable_congr hdeparted
      (hpresentable room ((registeredBy_congr hagrees).mpr hregistered))
  cases event with
  | close socket => exact hshut socket hagrees hpresentable
  | error socket => exact hshut socket hagrees hpresentable
  | connection | message | closing | endSession | resetTelemetry | sessionCheck => trivial

end Runs

/-- **Class sessions do not interfere** in any run in which no socket closes while its session holds
reports of others that cannot be added up or written. -/
theorem isolated_of_othersPresentable (host : Host ν) (db : Database) (sessionId : String)
    (inputs : List HubInput)
    (hpresentable : Along (hubStep host)
      (fun hub input ↦ OthersPresentable host input.1 hub input.2) (SignalingHub.new db) inputs) :
    Isolated host db sessionId inputs := by
  have hagrees : Agrees sessionId (hubRun host db inputs)
      (hubRun host db (sessionInputs sessionId inputs)) := by
    refine run_purge (fun hub ↦ RoomsOwn hub ∧ hub.halted = false)
      (fun _ _ _ hfirst hsecond ↦ hfirst.trans hsecond) ?_ ?_ ?_ ?_
      ⟨roomsOwn_new db, rfl⟩ ⟨roomsOwn_new db, rfl⟩ hpresentable (Agrees.refl _)
    · intro hub input hinv hinput
      have hmove := hubStep_move host hub input
      exact ⟨hmove.roomsOwn hinv.1, hmove.halted_eq_false hinv.2 hinput⟩
    · intro hub input hinv _ hne
      exact (hubStep_move host hub input).agrees_of_foreign hinv.1 hne
    · rintro first second input hagrees rfl hinput
      exact othersPresentable_congr hagrees hinput
    · rintro first second input hfirst hsecond _ rfl hagrees
      rw [hubStep, hubStep, if_neg (by simp [hfirst.2]), if_neg (by simp [hsecond.2])]
      exact handleEvent_agrees host input.1 input.2 hagrees hfirst.1
  exact ⟨hagrees.delivered, hagrees.room, fun now ↦ getMetrics_congr host now hagrees.room
    hagrees.reports⟩

/-- A student reports, another one of the class leaves, and then one of another class connects. -/
def reportingRun (rawText : String) : List HubInput :=
  [(1, .connection alice), (2, .connection bob), (3, .message alice rawText), (4, .close bob),
    (5, .connection carol)]

theorem isolated_of_othersPresentable_heartbeat :
    Isolated telemetryHost classroom "seminar" (reportingRun heartbeat) := by
  refine isolated_of_othersPresentable telemetryHost classroom "seminar" _
    ⟨trivial, trivial, trivial, fun room hregistered ↦ ⟨?_, fun _ _ ↦ rfl⟩, trivial, trivial⟩
  have hsummable : TelemetryManager.Summable telemetryHost (TelemetryManager.peerReports "session"
      (TelemetryManager.removePeer "session" "bob"
        (hubRun telemetryHost classroom ((reportingRun heartbeat).take 3)).reports)) := by
    decide +kernel
  exact hsummable

/-- The student of the other class gets no roster, for the server has ended. -/
theorem brokenHeartbeat_not_isolated :
    ¬ Isolated telemetryHost classroom "seminar" (reportingRun brokenHeartbeat) := by
  intro hisolated
  have hlength := congrArg List.length hisolated.1
  revert hlength
  decide +kernel

end CampusMesh.Server
