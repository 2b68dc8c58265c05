import CampusMesh.Server.HubEffects

/-!
# Who is registered

A peer is in the room of the session that its token names, under the id that the token gives it
(`RoomsOwn`), in every reachable state (`HubMove.roomsOwn`). So whom a frame reaches is decided by
the token of the receiver, whatever ids clients write into their frames.
-/

set_option autoImplicit false
set_option relaxedAutoImplicit false

namespace CampusMesh.Server

open Library Shared SignalingHub

variable {ν : Type}

/-- The peer of a session that is registered under an id. -/
abbrev registered (hub : SignalingHub ν) (sessionId peerId : String) : Option ConnectedPeer :=
  RoomManager.getPeer sessionId peerId hub.rooms

/-- Every peer is registered in the session and under the id of its socket's token. -/
def RoomsOwn (hub : SignalingHub ν) : Prop :=
  ∀ sessionId peerId peer, registered hub sessionId peerId = some peer →
    peer.socket.payload.sessionId = sessionId ∧ peerIdOf peer.socket.payload = peerId ∧
      peer.peerId = peerId

/-! ### What the moves do to the rooms -/

section Moves

variable {host : Host ν} {now : ℕ} {hub next : SignalingHub ν} {event : HubEvent}

theorem registered_letIn (socket : Socket) (sessionId peerId : String) :
    registered (letIn host socket now hub) sessionId peerId =
      if sessionId = socket.payload.sessionId ∧ peerId = peerIdOf socket.payload then
        some (connectedPeer socket now)
      else registered hub sessionId peerId := by
  rw [letIn_spec]
  exact RoomManager.getPeer_addPeer _

theorem registered_departed {socket : Socket} {room : Room}
    (hregistered : RegisteredBy socket room hub) (sockets : OrderedMap Socket ReadyState)
    (sessionId peerId : String) :
    registered (departed socket room { hub with sockets := sockets }) sessionId peerId =
      if sessionId = socket.payload.sessionId ∧ peerId = peerIdOf socket.payload then none
      else registered hub sessionId peerId :=
  RoomManager.getPeer_dropPeer hregistered.1 _

theorem registered_sessionEnded (ended sessionId peerId : String) :
    registered (sessionEnded ended hub) sessionId peerId =
      if sessionId = ended then none else registered hub sessionId peerId :=
  RoomManager.getPeer_delete _

theorem RoomsOwn.admitted (hown : RoomsOwn hub) (socket : Socket) (now : ℕ) :
    RoomsOwn (admitted socket now hub) := by
  intro sessionId peerId peer hpeer
  have hfound : registered (Server.admitted socket now hub) sessionId peerId =
      if sessionId = socket.payload.sessionId ∧ peerId = peerIdOf socket.payload then
        some (connectedPeer socket now)
      else registered hub sessionId peerId := RoomManager.getPeer_addPeer _
  rw [hfound] at hpeer
  split_ifs at hpeer with hnew
  · obtain rfl := Option.some.inj hpeer
    exact ⟨hnew.1.symm, hnew.2.symm, hnew.2.symm⟩
  · exact hown sessionId peerId peer hpeer

theorem RoomsOwn.departed (hown : RoomsOwn hub) {socket : Socket} {room : Room}
    (hregistered : RegisteredBy socket room hub) (sockets : OrderedMap Socket ReadyState) :
    RoomsOwn (departed socket room { hub with sockets := sockets }) := by
  intro sessionId peerId peer hpeer
  rw [registered_departed hregistered] at hpeer
  split_ifs at hpeer
  exact hown sessionId peerId peer hpeer

/-- Who is registered after a move was so before, or has just connected. -/
theorem HubMove.registered_cases (hmove : HubMove host now hub event next)
    {sessionId peerId : String} {peer : ConnectedPeer}
    (hpeer : registered next sessionId peerId = some peer) :
    registered hub sessionId peerId = some peer ∨
      ∃ socket, event = .connection socket ∧ next = letIn host socket now hub ∧
        (∃ session, SessionRepository.findById socket.payload.sessionId hub.db = some session ∧
          session.isActive = true) ∧
        sessionId = socket.payload.sessionId ∧ peerId = peerIdOf socket.payload ∧
          peer = connectedPeer socket now := by
  cases hmove with
  | idle | expired | reported | relayed | closing | stale | reset => exact Or.inl hpeer
  | admitted socket session hfresh hfound hactive =>
    rw [registered_letIn] at hpeer
    split_ifs at hpeer with hnew
    · exact Or.inr ⟨socket, rfl, rfl, ⟨session, hfound, hactive⟩, hnew.1, hnew.2,
        (Option.some.inj hpeer).symm⟩
    · exact Or.inl hpeer
  | left _ socket sockets room between metrics _ hregistered hnext =>
    subst hnext
    change registered (departed socket room { hub with sockets := sockets }) _ _ = _ at hpeer
    rw [registered_departed hregistered] at hpeer
    split_ifs at hpeer
    exact Or.inl hpeer
  | crashed _ socket sockets room between _ _ hregistered hnext =>
    subst hnext
    change registered (departed socket room { hub with sockets := sockets }) _ _ = _ at hpeer
    rw [registered_departed hregistered] at hpeer
    split_ifs at hpeer
    exact Or.inl hpeer
  | ended ended =>
    rw [registered_sessionEnded] at hpeer
    split_ifs at hpeer
    exact Or.inl hpeer

theorem HubMove.roomsOwn (hmove : HubMove host now hub event next) (hown : RoomsOwn hub) :
    RoomsOwn next := by
  intro sessionId peerId peer hpeer
  rcases hmove.registered_cases hpeer with hbefore | ⟨socket, _, _, _, rfl, rfl, rfl⟩
  · exact hown sessionId peerId peer hbefore
  · exact ⟨rfl, rfl, rfl⟩

end Moves

theorem roomsOwn_new (db : Database) : RoomsOwn (SignalingHub.new db : SignalingHub ν) := by
  intro sessionId peerId peer hpeer
  simp [registered, RoomManager.getPeer, SignalingHub.new] at hpeer

/-! ### Rosters and receivers -/

section Receivers

variable {hub : SignalingHub ν} {sessionId : String}

/-- A room lists each of its peers once. -/
theorem peerIds_nodup (hown : RoomsOwn hub) (sessionId : String) :
    ((RoomManager.getRoomPeers sessionId hub.rooms).map ConnectedPeer.peerId).Nodup := by
  unfold RoomManager.getRoomPeers
  cases hroom : hub.rooms.get? sessionId with
  | none => exact List.nodup_nil
  | some room =>
    have hkeys : room.values.map ConnectedPeer.peerId = room.keys := by
      rw [OrderedMap.values, OrderedMap.keys, List.map_map]
      refine List.map_congr_left fun entry hentry ↦ ?_
      have hpeer : registered hub sessionId entry.1 = some entry.2 := by
        rw [registered, RoomManager.getPeer, hroom, Option.bind_some]
        exact OrderedMap.mem_entries_iff.mp hentry
      exact (hown sessionId entry.1 entry.2 hpeer).2.2
    rw [Option.map_some, Option.getD_some, hkeys]
    exact room.nodup_keys

theorem mem_peerIds_iff (hown : RoomsOwn hub) (peerId : String) :
    peerId ∈ (RoomManager.getRoomPeers sessionId hub.rooms).map ConnectedPeer.peerId ↔
      (registered hub sessionId peerId).isSome = true := by
  rw [Option.isSome_iff_exists, List.mem_map]
  constructor
  · rintro ⟨peer, hpeer, rfl⟩
    obtain ⟨id, hfound⟩ := RoomManager.mem_getRoomPeers.mp hpeer
    have hid := (hown sessionId id peer hfound).2.2
    exact ⟨peer, hid ▸ hfound⟩
  · rintro ⟨peer, hfound⟩
    exact ⟨peer, RoomManager.mem_getRoomPeers.mpr ⟨peerId, hfound⟩,
      (hown sessionId peerId peer hfound).2.2⟩

/-- Who gets a frame that is broadcast in a room. -/
theorem receiver_registered {excludePeerId : Option String} {socket : Socket}
    (hmem : socket ∈ hub.receivers sessionId excludePeerId) :
    ∃ peerId peer, registered hub sessionId peerId = some peer ∧ peer.socket = socket ∧
      hub.isOpen socket = true := by
  obtain ⟨hpeers, hopen⟩ := List.mem_filter.mp hmem
  obtain ⟨peer, hpeer, rfl⟩ := List.mem_map.mp hpeers
  obtain ⟨peerId, hfound⟩ := RoomManager.mem_getRoomPeers.mp (List.mem_filter.mp hpeer).1
  exact ⟨peerId, peer, hfound, rfl, hopen⟩

/-- Nobody gets a frame twice. -/
theorem receivers_nodup (hown : RoomsOwn hub) (sessionId : String)
    (excludePeerId : Option String) : (hub.receivers sessionId excludePeerId).Nodup := by
  refine List.Nodup.filter _ (List.Nodup.of_map (fun socket ↦ peerIdOf socket.payload) ?_)
  rw [List.map_map]
  have hids : ((RoomManager.getRoomPeers sessionId hub.rooms).map
      fun peer ↦ peerIdOf peer.socket.payload).Nodup := by
    have hsame : ((RoomManager.getRoomPeers sessionId hub.rooms).map
        fun peer ↦ peerIdOf peer.socket.payload) =
          (RoomManager.getRoomPeers sessionId hub.rooms).map ConnectedPeer.peerId := by
      refine List.map_congr_left fun peer hpeer ↦ ?_
      obtain ⟨id, hfound⟩ := RoomManager.mem_getRoomPeers.mp hpeer
      exact (hown sessionId id peer hfound).2.1.trans (hown sessionId id peer hfound).2.2.symm
    rw [hsame]
    exact peerIds_nodup hown sessionId
  exact hids.sublist (List.Sublist.map _ List.filter_sublist)

/-- The socket of a peer gets what is broadcast in its room while it is open, unless its peer is
excluded. -/
theorem mem_receivers_iff (hown : RoomsOwn hub) {excludePeerId : Option String} {socket : Socket} :
    socket ∈ hub.receivers sessionId excludePeerId ↔
      (∃ peer, registered hub sessionId (peerIdOf socket.payload) = some peer ∧
        peer.socket = socket) ∧ hub.isOpen socket = true ∧
          ∀ excluded, excludePeerId = some excluded → excluded ≠ "" →
            peerIdOf socket.payload ≠ excluded := by
  have hexcluded : ∀ peerId : String,
      (!excludePeerId.any fun excluded ↦ excluded ≠ "" && peerId = excluded) = true ↔
        ∀ excluded, excludePeerId = some excluded → excluded ≠ "" → peerId ≠ excluded := by
    intro peerId
    cases excludePeerId with
    | none => simp
    | some excluded => simp [or_iff_not_imp_left]
  constructor
  · intro hmem
    obtain ⟨hpeers, hopen⟩ := List.mem_filter.mp hmem
    obtain ⟨peer, hpeer, rfl⟩ := List.mem_map.mp hpeers
    obtain ⟨hlisted, hkept⟩ := List.mem_filter.mp hpeer
    obtain ⟨peerId, hfound⟩ := RoomManager.mem_getRoomPeers.mp hlisted
    obtain ⟨_, hid, hpeerId⟩ := hown sessionId peerId peer hfound
    rw [hid]
    exact ⟨⟨peer, hfound, rfl⟩, hopen, (hexcluded peerId).mp (hpeerId ▸ hkept)⟩
  · rintro ⟨⟨peer, hfound, rfl⟩, hopen, hkept⟩
    refine List.mem_filter.mpr ⟨List.mem_map.mpr ⟨peer, List.mem_filter.mpr ⟨?_, ?_⟩, rfl⟩, hopen⟩
    · exact RoomManager.mem_getRoomPeers.mpr ⟨_, hfound⟩
    · rw [(hown _ _ peer hfound).2.2]
      exact (hexcluded _).mpr hkept

end Receivers

/-- The id of a peer is not empty. -/
theorem peerIdOf_ne_empty (payload : AuthTokenPayload) : peerIdOf payload ≠ "" := by
  have hinstructor : "instructor_" ++ lastChars 6 payload.sessionId ≠ "" := by
    intro hempty
    have hlength := congrArg String.length hempty
    rw [String.length_append] at hlength
    exact absurd hlength (by simp)
  unfold peerIdOf
  split
  · split_ifs with hgiven
    · exact hgiven
    · exact hinstructor
  · exact hinstructor

/-! ### Sockets that are known -/

/-- The sockets of peers, and those that got frames, are ones that connected. -/
structure SocketsKnown (hub : SignalingHub ν) : Prop where
  registered : ∀ sessionId peerId peer, registered hub sessionId peerId = some peer →
    hub.sockets.has peer.socket = true
  receivers : ∀ frame ∈ hub.sent, hub.sockets.has frame.1 = true

/-- The socket has connected and is not open any more. -/
def Gone (hub : SignalingHub ν) (socket : Socket) : Prop :=
  hub.sockets.has socket = true ∧ hub.isOpen socket = false

theorem socketsKnown_new (db : Database) : SocketsKnown (SignalingHub.new db : SignalingHub ν) := by
  constructor
  · intro sessionId peerId peer hpeer
    simp [registered, RoomManager.getPeer, SignalingHub.new] at hpeer
  · simp [SignalingHub.new]

section Known

variable {host : Host ν} {now : ℕ} {hub next : SignalingHub ν} {event : HubEvent}

theorem isOpen_iff {socket : Socket} :
    hub.isOpen socket = true ↔ hub.sockets.get? socket = some .OPEN := by
  unfold isOpen
  exact decide_eq_true_iff

theorem has_of_isOpen {socket : Socket} (hopen : hub.isOpen socket = true) :
    hub.sockets.has socket = true :=
  OrderedMap.has_iff_exists.mpr ⟨_, isOpen_iff.mp hopen⟩

/-- The state of a socket after a move: as before, or no longer open, or it has just connected. -/
theorem HubMove.socket_cases (hmove : HubMove host now hub event next) (socket : Socket) :
    next.sockets.get? socket = hub.sockets.get? socket ∨
      hub.sockets.has socket = true ∧ (next.sockets.get? socket = some .CLOSING ∨
        next.sockets.get? socket = some .CLOSED) ∨
      hub.sockets.has socket = false ∧ event = .connection socket ∧
        next.sockets.get? socket = some .OPEN := by
  have hclosed : ∀ closing : List Socket,
      (closing.foldl closedIn hub.sockets).get? socket = hub.sockets.get? socket ∨
        hub.sockets.has socket = true ∧
          (closing.foldl closedIn hub.sockets).get? socket = some .CLOSING := by
    intro closing
    rw [foldl_closedIn_get?]
    split_ifs with hwas
    · exact Or.inr ⟨OrderedMap.has_iff_exists.mpr ⟨_, hwas.2⟩, rfl⟩
    · exact Or.inl rfl
  have hshut : ∀ {shut : Socket} {sockets : OrderedMap Socket ReadyState},
      Shuts hub shut sockets event → sockets.get? socket = hub.sockets.get? socket ∨
        hub.sockets.has socket = true ∧ (sockets.get? socket = some .CLOSING ∨
          sockets.get? socket = some .CLOSED) := by
    intro shut sockets hshuts
    rcases event_of_shuts hshuts with rfl | rfl
    · obtain ⟨_, hhas, rfl⟩ := hshuts
      rw [OrderedMap.get?_set]
      split_ifs with hsame
      · exact Or.inr ⟨hsame ▸ hhas, Or.inr rfl⟩
      · exact Or.inl rfl
    · obtain ⟨_, hhas, rfl⟩ := hshuts
      exact (hclosed [shut]).imp id fun h ↦ ⟨h.1, Or.inl h.2⟩
  cases hmove with
  | idle | expired | reported | relayed | reset => exact Or.inl rfl
  | admitted connecting session hfresh =>
    rw [letIn_spec]
    change (hub.sockets.set connecting .OPEN).get? socket = _ ∨ _
    by_cases hsame : socket = connecting
    · subst hsame
      exact Or.inr (Or.inr ⟨hfresh, rfl, OrderedMap.get?_set_self _ _ _⟩)
    · exact Or.inl (OrderedMap.get?_set_of_ne _ hsame _)
  | closing shut => exact (hclosed [shut]).imp id fun h ↦ Or.inl ⟨h.1, Or.inl h.2⟩
  | stale _ shut sockets hshuts => exact (hshut hshuts).imp id Or.inl
  | left _ shut sockets room between metrics hshuts _ hbetween =>
    subst hbetween
    exact (hshut hshuts).imp id Or.inl
  | crashed _ shut sockets room between _ hshuts _ hbetween =>
    subst hbetween
    exact (hshut hshuts).imp id Or.inl
  | ended => exact (hclosed _).imp id fun h ↦ Or.inl ⟨h.1, Or.inl h.2⟩

theorem HubMove.has (hmove : HubMove host now hub event next) {socket : Socket}
    (hhas : hub.sockets.has socket = true) : next.sockets.has socket = true := by
  rcases hmove.socket_cases socket with hsame | ⟨_, hclosing | hclosed⟩ | ⟨hfresh, _⟩
  · rw [OrderedMap.has, hsame]
    exact hhas
  · exact OrderedMap.has_iff_exists.mpr ⟨_, hclosing⟩
  · exact OrderedMap.has_iff_exists.mpr ⟨_, hclosed⟩
  · rw [hhas] at hfresh
    exact absurd hfresh (by simp)

/-- A socket that is no longer open stays so. -/
theorem HubMove.gone (hmove : HubMove host now hub event next) {socket : Socket}
    (hgone : Gone hub socket) : Gone next socket := by
  refine ⟨hmove.has hgone.1, ?_⟩
  rw [← Bool.not_eq_true, isOpen_iff]
  intro hopen
  rcases hmove.socket_cases socket with hsame | ⟨_, hclosing | hclosed⟩ | ⟨hfresh, _⟩
  · exact Bool.false_ne_true (hgone.2.symm.trans (isOpen_iff.mpr (hsame ▸ hopen)))
  · exact absurd (hopen.symm.trans hclosing) (by decide)
  · exact absurd (hopen.symm.trans hclosed) (by decide)
  · exact Bool.false_ne_true (hfresh.symm.trans hgone.1)

/-- The socket is that of a registered peer, and open. -/
def Seat (hub : SignalingHub ν) (socket : Socket) : Prop :=
  ∃ sessionId peerId peer, registered hub sessionId peerId = some peer ∧ peer.socket = socket ∧
    hub.isOpen socket = true

/-- Frames are sent to registered peers whose sockets are open. -/
theorem HubMove.sent_seated (hmove : HubMove host now hub event next) :
    ∃ sent, next.sent = hub.sent ++ sent ∧
      ∀ frame ∈ sent, Seat hub frame.1 ∨ Seat next frame.1 := by
  have hquiet : ∀ next : SignalingHub ν, next.sent = hub.sent →
      ∃ sent, next.sent = hub.sent ++ sent ∧
        ∀ frame ∈ sent, Seat hub frame.1 ∨ Seat next frame.1 := by
    intro next hsame
    exact ⟨[], by rw [hsame, List.append_nil], fun _ hmem ↦ absurd hmem List.not_mem_nil⟩
  have hbroadcast : ∀ (sender : SignalingHub ν) sessionId excludePeerId (message : Json.Fields ν),
      ∀ frame ∈ broadcastTo (sender.receivers sessionId excludePeerId) message,
        Seat sender frame.1 := by
    intro sender sessionId excludePeerId message frame hmem
    obtain ⟨receiver, hreceiver, rfl⟩ := List.mem_map.mp hmem
    obtain ⟨peerId, peer, hfound, hsocket, hopen⟩ := receiver_registered hreceiver
    exact ⟨sessionId, peerId, peer, hfound, hsocket, hopen⟩
  cases hmove with
  | idle | expired | closing | stale | reset => exact hquiet _ rfl
  | admitted socket =>
    have hseat : Seat (letIn host socket now hub) socket := by
      refine ⟨socket.payload.sessionId, peerIdOf socket.payload, connectedPeer socket now, ?_, rfl,
        ?_⟩
      · rw [registered_letIn, if_pos ⟨rfl, rfl⟩]
      · rw [letIn_spec]
        exact isOpen_iff.mpr (OrderedMap.get?_set_self _ _ _)
    rw [letIn_spec] at hseat ⊢
    refine ⟨_, rfl, fun frame hmem ↦ Or.inr ?_⟩
    rcases List.mem_cons.mp hmem with rfl | hjoined
    · exact hseat
    · exact hbroadcast (Server.admitted socket now hub) _ _ _ frame hjoined
  | reported socket rawText fields payload sent _ _ _ _ hsent =>
    refine ⟨sent, rfl, fun frame hmem ↦ Or.inl ?_⟩
    rcases hsent with ⟨_, rfl⟩ | ⟨metrics, _, rfl⟩
    · exact absurd hmem List.not_mem_nil
    · exact hbroadcast (reportedTo socket payload hub) _ _ _ frame hmem
  | relayed socket rawText fields targetPeer _ _ _ _ htarget =>
    refine ⟨_, rfl, fun frame hmem ↦ Or.inl ?_⟩
    obtain rfl := List.mem_singleton.mp hmem
    obtain ⟨_, _, _, hfound, hopen⟩ := relayTarget_eq_some htarget
    exact ⟨_, _, targetPeer, hfound, rfl, hopen⟩
  | left _ socket sockets room between metrics =>
    refine ⟨_, rfl, fun frame hmem ↦ Or.inr ?_⟩
    rcases List.mem_append.mp hmem with hleft | hmetrics
    · exact hbroadcast between _ _ _ frame hleft
    · exact hbroadcast between _ _ _ frame hmetrics
  | crashed _ socket sockets room between sent _ _ _ hunpresented =>
    refine ⟨sent, rfl, fun frame hmem ↦ Or.inr ?_⟩
    rcases hunpresented with ⟨_, rfl⟩ | ⟨metrics, _, _, rfl⟩
    · exact absurd hmem List.not_mem_nil
    · exact hbroadcast between _ _ _ frame hmem
  | ended => exact ⟨_, rfl, fun frame hmem ↦ Or.inl (hbroadcast hub _ _ _ frame hmem)⟩

theorem HubMove.socketsKnown (hmove : HubMove host now hub event next)
    (hknown : SocketsKnown hub) : SocketsKnown next := by
  constructor
  · intro sessionId peerId peer hpeer
    rcases hmove.registered_cases hpeer with hbefore | ⟨socket, _, rfl, _, rfl, rfl, rfl⟩
    · exact hmove.has (hknown.registered sessionId peerId peer hbefore)
    · rw [letIn_spec]
      exact OrderedMap.has_iff_exists.mpr ⟨_, OrderedMap.get?_set_self _ _ _⟩
  · obtain ⟨sent, hsent, hseated⟩ := hmove.sent_seated
    rw [hsent]
    intro frame hmem
    rcases List.mem_append.mp hmem with hbefore | hnew
    · exact hmove.has (hknown.receivers frame hbefore)
    · rcases hseated frame hnew with ⟨_, _, _, _, _, hopen⟩ | ⟨_, _, _, _, _, hopen⟩
      · exact hmove.has (has_of_isOpen hopen)
      · exact has_of_isOpen hopen

end Known

end CampusMesh.Server
