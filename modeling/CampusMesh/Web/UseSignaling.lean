import CampusMesh.Server.Registration

/-!
# The list of peers of a client

`useSignaling` keeps the list of the other peers of its room: the roster sets it, and the frames of
peers that join or leave change it. Between the server and a client the invariant is `Replicated`:
what the frames sent to the open socket of a registered peer make of any list has each other peer of
the room once. A step that sends nothing which a client acts on keeps it (`Replicated.of_quiet`); a
connection and a departure change the room and all lists alike.
-/

set_option autoImplicit false
set_option relaxedAutoImplicit false

namespace CampusMesh.Web

open Library Shared Server SignalingHub

variable {ν : Type}

/-! ### The hook -/

/-- The id in the description of a peer. -/
def peerIdIn (value : Json ν) : Option String :=
  match value.get? "peerId" with
  | some (.string peerId) => some peerId
  | _ => none

/-- `socket.onmessage`, as far as it changes the list of peers. The frames that carry peers are
those of the server, which have a payload. -/
def onmessage (peers : List (Json ν)) (message : Json.Fields ν) : List (Json ν) :=
  let payload := (Json.getField "payload" message).getD .null
  if hasType .ROOM_ROSTER message then
    match payload.get? "peers" with
    | some (.array roster) => roster
    | _ => []
  else if hasType .PEER_JOINED message then
    if peers.any fun peer ↦ peerIdIn peer = peerIdIn payload then peers else peers ++ [payload]
  else if hasType .PEER_LEFT message then
    peers.filter fun peer ↦ peerIdIn peer ≠ peerIdIn payload
  else if hasType .SESSION_ENDED message then []
  else peers

/-- The frames to a socket, in their order. -/
def framesIn (socket : Socket) (sent : List (Socket × Json.Fields ν)) : List (Json.Fields ν) :=
  (sent.filter fun frame ↦ frame.1 = socket).map Prod.snd

/-- The list of a client that has processed all frames sent to its socket. -/
def peersAfter (peers : List (Json ν)) (socket : Socket) (hub : SignalingHub ν) : List (Json ν) :=
  (framesIn socket hub.sent).foldl onmessage peers

/-! ### The promise -/

/-- The socket is that by which its peer is registered, and open. -/
structure Connected (hub : SignalingHub ν) (socket : Socket) : Prop where
  runs : hub.halted = false
  registered : ∃ peer, registered hub socket.payload.sessionId (peerIdOf socket.payload) =
    some peer ∧ peer.socket = socket
  opened : hub.isOpen socket = true

/-- The list has each other peer of the room once, and nothing else. -/
def Replicates (hub : SignalingHub ν) (socket : Socket) (peers : List (Json ν)) : Prop :=
  (peers.map peerIdIn).Nodup ∧ ∀ id, id ∈ peers.map peerIdIn ↔
    ∃ peerId, id = some peerId ∧ peerId ≠ peerIdOf socket.payload ∧
      (registered hub socket.payload.sessionId peerId).isSome = true

/-- Every connected client has the list of its room when it has processed its frames. -/
def Replicated (hub : SignalingHub ν) : Prop :=
  ∀ socket, Connected hub socket → ∀ peers, Replicates hub socket (peersAfter peers socket hub)

/-- A client sends offers, answers, candidates and heartbeats. -/
def SendsSignals (host : Host ν) : HubEvent → Prop
  | .message _ rawText => ∀ record, host.parse rawText = some (.object record) →
      hasType .SIGNAL_OFFER record = true ∨ hasType .SIGNAL_ANSWER record = true ∨
        hasType .SIGNAL_ICE record = true ∨ hasType .TELEMETRY_HEARTBEAT record = true
  | _ => True

/-! ### Frames -/

section Frames

variable {peers : List (Json ν)} {message : Json.Fields ν} {socket : Socket}

theorem hasType_eq_false {type other : SignalingEventType} (htype : hasType type message = true)
    (hne : other ≠ type) : hasType other message = false :=
  Bool.eq_false_iff.mpr fun hother ↦ hne (hasType_unique hother htype)

/-- The types of frames that change the list of peers. -/
def ChangesPeers (type : SignalingEventType) : Prop :=
  type = .ROOM_ROSTER ∨ type = .PEER_JOINED ∨ type = .PEER_LEFT ∨ type = .SESSION_ENDED

/-- A frame of another type does not change the list. -/
theorem onmessage_quiet {type : SignalingEventType} (htype : hasType type message = true)
    (hquiet : ¬ ChangesPeers type) (peers : List (Json ν)) : onmessage peers message = peers := by
  have hother : ∀ other, ChangesPeers other → hasType other message = false :=
    fun other hchanges ↦ hasType_eq_false htype fun hsame ↦ hquiet (hsame ▸ hchanges)
  unfold onmessage
  simp only
  rw [hother _ (Or.inl rfl), hother _ (Or.inr (Or.inl rfl)),
    hother _ (Or.inr (Or.inr (Or.inl rfl))), hother _ (Or.inr (Or.inr (Or.inr rfl)))]
  rfl

theorem onmessage_roster (host : Host ν) (sessionId : String) (existing : List ConnectedPeer) :
    onmessage peers (rosterFrame host sessionId existing) = existing.map (peerInfo host) := rfl

theorem onmessage_joined (host : Host ν) (peer : ConnectedPeer) :
    onmessage peers (joinedFrame host peer) =
      if some peer.peerId ∈ peers.map peerIdIn then peers else peers ++ [peerInfo host peer] := by
  change (if (peers.any fun other ↦ peerIdIn other = some peer.peerId) = true then peers else _) = _
  refine if_congr ?_ rfl rfl
  simp only [List.any_eq_true, decide_eq_true_eq, List.mem_map]

theorem onmessage_left (sessionId peerId : String) :
    onmessage peers (leftFrame sessionId peerId) =
      peers.filter fun peer ↦ peerIdIn peer ≠ some peerId := rfl

theorem onmessage_ended (sessionId : String) :
    onmessage peers (endedFrame sessionId : Json.Fields ν) = [] := rfl

theorem framesIn_append (first second : List (Socket × Json.Fields ν)) :
    framesIn socket (first ++ second) = framesIn socket first ++ framesIn socket second := by
  rw [framesIn, List.filter_append, List.map_append]
  rfl

/-- A frame that is broadcast arrives once at each receiver. -/
theorem framesIn_broadcastTo {receivers : List Socket} (hnodup : receivers.Nodup) :
    framesIn socket (broadcastTo receivers message) =
      if socket ∈ receivers then [message] else [] := by
  induction receivers with
  | nil => rfl
  | cons receiver rest ih =>
    obtain ⟨hfresh, hrest⟩ := List.nodup_cons.mp hnodup
    have hcons : framesIn socket (broadcastTo (receiver :: rest) message) =
        (if receiver = socket then [message] else []) ++
          framesIn socket (broadcastTo rest message) := by
      change ((List.filter _ ((receiver, message) :: broadcastTo rest message)).map Prod.snd) = _
      rw [List.filter_cons]
      by_cases hsame : receiver = socket <;> simp [hsame, framesIn]
    rw [hcons, ih hrest]
    by_cases hsame : receiver = socket
    · subst hsame
      simp [hfresh]
    · simp [hsame, Ne.symm hsame]

/-- The list after more frames. -/
theorem peersAfter_append {hub next : SignalingHub ν} {sent : List (Socket × Json.Fields ν)}
    (hsent : next.sent = hub.sent ++ sent) (peers : List (Json ν)) :
    peersAfter peers socket next = (framesIn socket sent).foldl onmessage
      (peersAfter peers socket hub) := by
  rw [peersAfter, hsent, framesIn_append, List.foldl_append]
  rfl

/-- Frames that do not concern the list leave it. -/
theorem foldl_onmessage_quiet {frames : List (Json.Fields ν)}
    (hquiet : ∀ frame ∈ frames, ∀ peers, onmessage peers frame = peers) (peers : List (Json ν)) :
    frames.foldl onmessage peers = peers := by
  induction frames with
  | nil => rfl
  | cons frame rest ih =>
    rw [List.foldl_cons, hquiet frame List.mem_cons_self]
    exact ih fun other hother ↦ hquiet other (List.mem_cons_of_mem frame hother)

end Frames

/-! ### Changes of a room -/

section Lists

variable {hub next : SignalingHub ν} {socket : Socket} {peers : List (Json ν)} {peerId : String}

/-- A peer that joins is appended, unless it is listed already. -/
theorem Replicates.joined (hreplicates : Replicates hub socket peers) {info : Json ν}
    (hinfo : peerIdIn info = some peerId) (hother : peerId ≠ peerIdOf socket.payload)
    (hjoined : (registered next socket.payload.sessionId peerId).isSome = true)
    (hrooms : ∀ id, id ≠ peerId → registered next socket.payload.sessionId id =
      registered hub socket.payload.sessionId id) :
    Replicates next socket (if some peerId ∈ peers.map peerIdIn then peers else peers ++
      [info]) := by
  obtain ⟨hnodup, hmem⟩ := hreplicates
  have hlists : ∀ id, (id ∈ peers.map peerIdIn ∨ id = some peerId) ↔
      ∃ q, id = some q ∧ q ≠ peerIdOf socket.payload ∧
        (registered next socket.payload.sessionId q).isSome = true := by
    intro id
    rw [hmem id]
    constructor
    · rintro (⟨q, rfl, hq, hregistered⟩ | rfl)
      · by_cases hsame : q = peerId
        · subst hsame
          exact ⟨q, rfl, hother, hjoined⟩
        · exact ⟨q, rfl, hq, by rw [hrooms q hsame]; exact hregistered⟩
      · exact ⟨peerId, rfl, hother, hjoined⟩
    · rintro ⟨q, rfl, hq, hregistered⟩
      by_cases hsame : q = peerId
      · exact Or.inr (congrArg some hsame)
      · exact Or.inl ⟨q, rfl, hq, by rw [← hrooms q hsame]; exact hregistered⟩
  split_ifs with hlisted
  · refine ⟨hnodup, fun id ↦ ?_⟩
    rw [← hlists id]
    exact ⟨Or.inl, fun h ↦ h.elim (fun hin ↦ hin) fun hid ↦ hid ▸ hlisted⟩
  · constructor
    · rw [List.map_append, List.map_singleton, hinfo]
      exact List.Nodup.append hnodup (List.nodup_singleton _)
        (List.disjoint_singleton.mpr hlisted)
    · intro id
      rw [List.map_append, List.mem_append, List.map_singleton, List.mem_singleton, hinfo]
      exact hlists id

/-- A peer that leaves is removed. -/
theorem Replicates.left (hreplicates : Replicates hub socket peers)
    (hleft : registered next socket.payload.sessionId peerId = none)
    (hrooms : ∀ id, id ≠ peerId → registered next socket.payload.sessionId id =
      registered hub socket.payload.sessionId id) :
    Replicates next socket (peers.filter fun peer ↦ peerIdIn peer ≠ some peerId) := by
  obtain ⟨hnodup, hmem⟩ := hreplicates
  have hids : (peers.filter fun peer ↦ peerIdIn peer ≠ some peerId).map peerIdIn =
      (peers.map peerIdIn).filter fun id ↦ id ≠ some peerId := by
    rw [List.filter_map]
    rfl
  rw [Replicates, hids]
  refine ⟨hnodup.filter _, fun id ↦ ?_⟩
  rw [List.mem_filter, hmem id, decide_eq_true_eq]
  constructor
  · rintro ⟨⟨q, rfl, hq, hregistered⟩, hne⟩
    have hkept : q ≠ peerId := fun hsame ↦ hne (congrArg some hsame)
    exact ⟨q, rfl, hq, by rw [hrooms q hkept]; exact hregistered⟩
  · rintro ⟨q, rfl, hq, hregistered⟩
    have hkept : q ≠ peerId := by
      rintro rfl
      rw [hleft] at hregistered
      exact Bool.false_ne_true hregistered
    exact ⟨⟨q, rfl, hq, by rw [← hrooms q hkept]; exact hregistered⟩,
      fun hsame ↦ hkept (Option.some.inj hsame)⟩

/-- A room that stays as it is. -/
theorem Replicates.of_rooms (hreplicates : Replicates hub socket peers)
    (hrooms : ∀ id, registered next socket.payload.sessionId id =
      registered hub socket.payload.sessionId id) : Replicates next socket peers := by
  refine ⟨hreplicates.1, fun id ↦ ?_⟩
  rw [hreplicates.2 id]
  simp only [hrooms]

/-- The list of a roster. -/
theorem replicates_roster (host : Host ν) (socket : Socket) (now : ℕ) (hown : RoomsOwn hub) :
    Replicates (letIn host socket now hub) socket
      ((existingPeers socket now hub).map (peerInfo host)) := by
  have hplaced := hown.admitted socket now
  have hids : ((existingPeers socket now hub).map (peerInfo host)).map peerIdIn =
      (((RoomManager.getRoomPeers socket.payload.sessionId (admitted socket now hub).rooms).map
        ConnectedPeer.peerId).filter fun id ↦ id ≠ peerIdOf socket.payload).map some := by
    rw [existingPeers, List.map_map, List.filter_map, List.map_map]
    rfl
  rw [Replicates, hids]
  refine ⟨((peerIds_nodup hplaced _).filter _).map (Option.some_injective _), fun id ↦ ?_⟩
  rw [letIn_spec]
  simp only [List.mem_map, List.mem_filter, decide_eq_true_eq]
  constructor
  · rintro ⟨peerId, ⟨hlisted, hother⟩, rfl⟩
    exact ⟨peerId, rfl, hother, (mem_peerIds_iff hplaced peerId).mp (List.mem_map.mpr hlisted)⟩
  · rintro ⟨peerId, rfl, hother, hregistered⟩
    exact ⟨peerId, ⟨List.mem_map.mp ((mem_peerIds_iff hplaced peerId).mpr hregistered),
      hother⟩, rfl⟩

end Lists

/-! ### Steps -/

section Steps

variable {host : Host ν} {now : ℕ} {hub next : SignalingHub ν} {event : HubEvent} {socket : Socket}

/-- A step that leaves the room of a client as it is, and sends it nothing that it acts on. -/
theorem Replicated.of_quiet (hreplicated : Replicated hub) (hconnected : Connected hub socket)
    (sent : List (Socket × Json.Fields ν)) (hsent : next.sent = hub.sent ++ sent)
    (hquiet : ∀ frame ∈ framesIn socket sent, ∀ peers, onmessage peers frame = peers)
    (hrooms : ∀ id, registered next socket.payload.sessionId id =
      registered hub socket.payload.sessionId id) (peers : List (Json ν)) :
    Replicates next socket (peersAfter peers socket next) := by
  rw [peersAfter_append hsent, foldl_onmessage_quiet hquiet]
  exact (hreplicated socket hconnected peers).of_rooms hrooms

/-- A broadcast reaches no client of another session. -/
theorem framesIn_foreign (hown : RoomsOwn hub) {sessionId : String}
    (hne : socket.payload.sessionId ≠ sessionId) (excludePeerId : Option String)
    (message : Json.Fields ν) :
    framesIn socket (broadcastTo (hub.receivers sessionId excludePeerId) message) = [] := by
  rw [framesIn_broadcastTo (receivers_nodup hown sessionId excludePeerId), if_neg]
  intro hmem
  obtain ⟨⟨peer, hpeer, rfl⟩, _⟩ := (mem_receivers_iff hown).mp hmem
  exact hne (hown _ _ peer hpeer).1

/-- Frames of a type that a client does not act on. -/
theorem quiet_broadcast {receivers : List Socket} {message : Json.Fields ν}
    (hquiet : ∀ peers, onmessage peers message = peers) :
    ∀ frame ∈ framesIn socket (broadcastTo receivers message), ∀ peers,
      onmessage peers frame = peers := by
  intro frame hframe
  obtain ⟨sent, hsent, rfl⟩ := List.mem_map.mp hframe
  obtain ⟨receiver, _, rfl⟩ := List.mem_map.mp (List.mem_filter.mp hsent).1
  exact hquiet

theorem onmessage_metrics (host : Host ν) (sessionId : String) (metrics : SwarmMetrics ν)
    (peers : List (Json ν)) : onmessage peers (metricsFrame host sessionId metrics) = peers := by
  have htype : hasType .SWARM_METRICS_UPDATE (metricsFrame host sessionId metrics) = true := rfl
  exact onmessage_quiet htype (by unfold ChangesPeers; decide) peers

/-- A frame that a client may send changes no list. -/
theorem onmessage_relayed {sender : Socket} {rawText : String} {fields : Json.Fields ν}
    (hsignals : SendsSignals host (.message sender rawText))
    (hreceived : receivedFrame host sender rawText = some fields) (peers : List (Json ν)) :
    onmessage peers fields = peers := by
  obtain ⟨_, _, record, hparse, htype, _⟩ := receivedFrame_fields hreceived
  rcases hsignals record hparse with hoffer | hanswer | hice | hbeat
  · rw [← hasType_congr htype] at hoffer
    exact onmessage_quiet hoffer (by unfold ChangesPeers; decide) peers
  · rw [← hasType_congr htype] at hanswer
    exact onmessage_quiet hanswer (by unfold ChangesPeers; decide) peers
  · rw [← hasType_congr htype] at hice
    exact onmessage_quiet hice (by unfold ChangesPeers; decide) peers
  · rw [← hasType_congr htype] at hbeat
    exact onmessage_quiet hbeat (by unfold ChangesPeers; decide) peers

/-- The list of a client after a connection. -/
theorem peersAfter_letIn (host : Host ν) (hown : RoomsOwn hub) (connecting : Socket) (now : ℕ)
    (peers : List (Json ν)) :
    peersAfter peers socket (letIn host connecting now hub) =
      ((if connecting = socket then [rosterFrame host connecting.payload.sessionId
          (existingPeers connecting now hub)] else []) ++
        if socket ∈ (admitted connecting now hub).receivers connecting.payload.sessionId
            (some (peerIdOf connecting.payload)) then
          [joinedFrame host (connectedPeer connecting now)] else []).foldl onmessage
        (peersAfter peers socket hub) := by
  have hplaced := hown.admitted connecting now
  rw [letIn_spec, peersAfter_append rfl,
    ← framesIn_broadcastTo (receivers_nodup hplaced connecting.payload.sessionId _)]
  refine congrArg (List.foldl onmessage _) ?_
  rw [framesIn, List.filter_cons]
  by_cases hsame : connecting = socket <;> simp [hsame, framesIn]

/-- The client that connects gets the roster, and nothing else. -/
theorem replicates_letIn_self (host : Host ν) (connecting : Socket) (now : ℕ)
    (hown : RoomsOwn hub) (hknown : SocketsKnown hub)
    (hfresh : hub.sockets.has connecting = false) (peers : List (Json ν)) :
    Replicates (letIn host connecting now hub) connecting
      (peersAfter peers connecting (letIn host connecting now hub)) := by
  have hplaced := hown.admitted connecting now
  have hnot : connecting ∉ (admitted connecting now hub).receivers connecting.payload.sessionId
      (some (peerIdOf connecting.payload)) := by
    intro hmem
    exact ((mem_receivers_iff hplaced).mp hmem).2.2 _ rfl (peerIdOf_ne_empty _) rfl
  have hnone : framesIn connecting hub.sent = [] := by
    rw [framesIn, List.map_eq_nil_iff, List.filter_eq_nil_iff]
    intro frame hmem hreceiver
    have hhas := hknown.receivers frame hmem
    rw [of_decide_eq_true hreceiver, hfresh] at hhas
    exact Bool.false_ne_true hhas
  rw [peersAfter_letIn host hown, peersAfter, hnone, if_pos rfl, if_neg hnot, List.append_nil,
    List.foldl_cons, onmessage_roster]
  exact replicates_roster host connecting now hown

/-- The other clients learn of it, if it is in their room. -/
theorem replicates_letIn_other (host : Host ν) (connecting : Socket) (now : ℕ)
    (hown : RoomsOwn hub) (hreplicated : Replicated hub) (hother : connecting ≠ socket)
    (hconnected : Connected (letIn host connecting now hub) socket) (peers : List (Json ν)) :
    Replicates (letIn host connecting now hub) socket
      (peersAfter peers socket (letIn host connecting now hub)) := by
  have hplaced := hown.admitted connecting now
  have hrooms : ∀ id, registered (letIn host connecting now hub) socket.payload.sessionId id =
      if socket.payload.sessionId = connecting.payload.sessionId ∧
          id = peerIdOf connecting.payload then some (connectedPeer connecting now)
      else registered hub socket.payload.sessionId id :=
    registered_letIn connecting socket.payload.sessionId
  obtain ⟨peer, hpeer, hsocket⟩ := hconnected.registered
  have hnew : ¬ (socket.payload.sessionId = connecting.payload.sessionId ∧
      peerIdOf socket.payload = peerIdOf connecting.payload) := by
    intro hnew
    rw [hrooms, if_pos hnew] at hpeer
    obtain rfl := Option.some.inj hpeer
    exact hother hsocket
  have hbefore : Connected hub socket := by
    rw [letIn_spec] at hconnected
    refine ⟨hconnected.runs, ⟨peer, ?_, hsocket⟩, ?_⟩
    · rw [hrooms, if_neg hnew] at hpeer
      exact hpeer
    · have hopen := isOpen_iff.mp hconnected.opened
      exact isOpen_iff.mpr ((OrderedMap.get?_set_of_ne _ hother.symm _).symm.trans hopen)
  have hreplicates := hreplicated socket hbefore peers
  rw [peersAfter_letIn host hown, if_neg hother, List.nil_append]
  by_cases hroom : socket.payload.sessionId = connecting.payload.sessionId
  · have hdifferent : peerIdOf socket.payload ≠ peerIdOf connecting.payload :=
      fun hsame ↦ hnew ⟨hroom, hsame⟩
    have hreceives : socket ∈ (admitted connecting now hub).receivers
        connecting.payload.sessionId (some (peerIdOf connecting.payload)) := by
      rw [letIn_spec] at hconnected hpeer
      refine (mem_receivers_iff hplaced).mpr ⟨⟨peer, hroom ▸ hpeer, hsocket⟩,
        hconnected.opened, fun excluded hexcluded _ ↦ ?_⟩
      exact Option.some.inj hexcluded ▸ hdifferent
    rw [if_pos hreceives, List.foldl_cons, onmessage_joined]
    refine hreplicates.joined rfl hdifferent.symm ?_ fun id hid ↦ ?_
    · rw [hrooms, if_pos ⟨hroom, rfl⟩]
      rfl
    · exact (hrooms id).trans (if_neg fun h ↦ hid h.2)
  · have hdeaf : socket ∉ (admitted connecting now hub).receivers
        connecting.payload.sessionId (some (peerIdOf connecting.payload)) := by
      intro hmem
      obtain ⟨⟨found, hfound, rfl⟩, _⟩ := (mem_receivers_iff hplaced).mp hmem
      exact hroom (hplaced _ _ found hfound).1
    rw [if_neg hdeaf]
    exact hreplicates.of_rooms fun id ↦ (hrooms id).trans (if_neg fun h ↦ hroom h.1)

/-- A departure: the others of the room learn of it. -/
theorem replicates_left (host : Host ν) {leaving : Socket} {sockets : OrderedMap Socket ReadyState}
    {room : Room} {metrics : SwarmMetrics ν} (hown : RoomsOwn hub) (hreplicated : Replicated hub)
    (hregistered : RegisteredBy leaving room hub)
    (hplain : next = departed leaving room { hub with sockets := sockets })
    (hopen : next.isOpen socket = true → hub.isOpen socket = true)
    {sent : List (Socket × Json.Fields ν)}
    (hsent : sent = broadcastTo (next.receivers leaving.payload.sessionId none)
          (leftFrame leaving.payload.sessionId (peerIdOf leaving.payload)) ++
        broadcastTo (next.receivers leaving.payload.sessionId none)
          (metricsFrame host leaving.payload.sessionId metrics))
    (hconnected : Connected next socket) (peers : List (Json ν)) :
    Replicates next socket ((framesIn socket sent).foldl onmessage
      (peersAfter peers socket hub)) := by
  have hplaced : RoomsOwn next := by
    rw [hplain]
    exact hown.departed hregistered sockets
  have hrooms : ∀ id, registered next socket.payload.sessionId id =
      if socket.payload.sessionId = leaving.payload.sessionId ∧ id = peerIdOf leaving.payload then
        none
      else registered hub socket.payload.sessionId id := by
    rw [hplain]
    exact registered_departed hregistered sockets socket.payload.sessionId
  obtain ⟨peer, hpeer, hsocket⟩ := hconnected.registered
  have hstays : ¬ (socket.payload.sessionId = leaving.payload.sessionId ∧
      peerIdOf socket.payload = peerIdOf leaving.payload) := by
    intro hleaves
    rw [hrooms, if_pos hleaves] at hpeer
    simp at hpeer
  have hbefore : Connected hub socket := by
    refine ⟨?_, ⟨peer, ?_, hsocket⟩, hopen hconnected.opened⟩
    · have hruns := hconnected.runs
      rw [hplain] at hruns
      exact hruns
    · rw [hrooms, if_neg hstays] at hpeer
      exact hpeer
  have hreplicates := hreplicated socket hbefore peers
  rw [hsent, framesIn_append, List.foldl_append,
    foldl_onmessage_quiet (quiet_broadcast (onmessage_metrics host _ metrics))]
  by_cases hroom : socket.payload.sessionId = leaving.payload.sessionId
  · have hreceives : socket ∈ next.receivers leaving.payload.sessionId none := by
      refine (mem_receivers_iff hplaced).mpr ⟨⟨peer, hroom ▸ hpeer, hsocket⟩,
        hconnected.opened, fun excluded hexcluded ↦ ?_⟩
      simp at hexcluded
    rw [framesIn_broadcastTo (receivers_nodup hplaced _ _), if_pos hreceives, List.foldl_cons,
      onmessage_left]
    refine hreplicates.left ?_ fun id hid ↦ ?_
    · rw [hrooms, if_pos ⟨hroom, rfl⟩]
    · exact (hrooms id).trans (if_neg fun h ↦ hid h.2)
  · rw [framesIn_foreign hplaced hroom]
    exact hreplicates.of_rooms fun id ↦ (hrooms id).trans (if_neg fun h ↦ hroom h.1)

/-- The end of a session: the others learn nothing. -/
theorem replicates_sessionEnded (ended : String) (hown : RoomsOwn hub) (hknown : SocketsKnown hub)
    (hreplicated : Replicated hub) (hconnected : Connected (sessionEnded ended hub) socket)
    (hopen : hub.sockets.has socket = true → hub.isOpen socket = true) (peers : List (Json ν)) :
    Replicates (sessionEnded ended hub) socket
      (peersAfter peers socket (sessionEnded ended hub)) := by
  have hrooms : ∀ id, registered (sessionEnded ended hub) socket.payload.sessionId id =
      if socket.payload.sessionId = ended then none
      else registered hub socket.payload.sessionId id :=
    registered_sessionEnded ended socket.payload.sessionId
  obtain ⟨peer, hpeer, hsocket⟩ := hconnected.registered
  have hother : socket.payload.sessionId ≠ ended := by
    intro hsame
    rw [hrooms, if_pos hsame] at hpeer
    simp at hpeer
  rw [hrooms, if_neg hother] at hpeer
  have hbefore : Connected hub socket := ⟨hconnected.runs, ⟨peer, hpeer, hsocket⟩,
    hopen (hsocket ▸ hknown.registered _ _ peer hpeer)⟩
  refine hreplicated.of_quiet hbefore _ rfl ?_ (fun id ↦ ?_) peers
  · rw [framesIn_foreign hown hother]
    exact fun frame hframe ↦ absurd hframe List.not_mem_nil
  · rw [hrooms, if_neg hother]

/-- **A step keeps the lists of all clients.** -/
theorem replicated_move (hmove : HubMove host now hub event next) (hown : RoomsOwn hub)
    (hknown : SocketsKnown hub) (hsignals : SendsSignals host event)
    (hreplicated : Replicated hub) : Replicated next := by
  have hopen : ∀ socket, hub.sockets.has socket = true → next.isOpen socket = true →
      hub.isOpen socket = true := by
    intro socket hhas hopened
    by_contra hclosed
    have hgone := hmove.gone ⟨hhas, Bool.eq_false_iff.mpr hclosed⟩
    exact Bool.false_ne_true (hgone.2.symm.trans hopened)
  intro socket hconnected peers
  have hsame : next.rooms = hub.rooms → (next.halted = false → hub.halted = false) →
      Connected hub socket := by
    intro hrooms hruns
    obtain ⟨peer, hpeer, hsocket⟩ := hconnected.registered
    have hbefore : registered hub socket.payload.sessionId (peerIdOf socket.payload) =
      some peer := by
      rw [registered, ← hrooms]
      exact hpeer
    refine ⟨hruns hconnected.runs, ⟨peer, hbefore, hsocket⟩, hopen socket ?_ hconnected.opened⟩
    exact hsocket ▸ hknown.registered _ _ peer hbefore
  have hsilent : next.sent = hub.sent → next.rooms = hub.rooms →
      (next.halted = false → hub.halted = false) →
        Replicates next socket (peersAfter peers socket next) := by
    intro hsent hrooms hruns
    refine hreplicated.of_quiet (hsame hrooms hruns) [] ?_ ?_ (fun id ↦ ?_) peers
    · rw [hsent, List.append_nil]
    · exact fun frame hframe ↦ absurd hframe (by simp [framesIn])
    · rw [registered, hrooms]
  cases hmove with
  | idle | expired | closing | stale | reset => exact hsilent rfl rfl id
  | crashed => exact absurd hconnected.runs (by simp)
  | admitted connecting session hfresh =>
    by_cases hself : connecting = socket
    · subst hself
      exact replicates_letIn_self host connecting now hown hknown hfresh peers
    · exact replicates_letIn_other host connecting now hown hreplicated hself hconnected peers
  | reported sender rawText fields payload sent _ _ _ _ hsent =>
    refine hreplicated.of_quiet (hsame rfl id) sent ?_ ?_ ?_ peers
    · rfl
    · rcases hsent with ⟨_, rfl⟩ | ⟨metrics, _, rfl⟩
      · exact fun frame hframe ↦ absurd hframe (by simp [framesIn])
      · exact quiet_broadcast (onmessage_metrics host _ metrics)
    · exact fun _ ↦ rfl
  | relayed sender rawText fields targetPeer _ hreceived _ _ htarget =>
    refine hreplicated.of_quiet (hsame rfl id) (broadcastTo [targetPeer.socket] fields) ?_ ?_ ?_
      peers
    · rfl
    · exact quiet_broadcast (onmessage_relayed hsignals hreceived)
    · exact fun _ ↦ rfl
  | left _ leaving sockets room between metrics hshuts hregistered hbetween =>
    have hstill : Connected between socket :=
      ⟨hconnected.runs, hconnected.registered, hconnected.opened⟩
    have hknownSocket : hub.sockets.has socket = true := by
      obtain ⟨peer, hpeer, rfl⟩ := hstill.registered
      rw [hbetween, registered_departed hregistered] at hpeer
      split_ifs at hpeer
      exact hknown.registered _ _ peer hpeer
    rw [peersAfter_append rfl]
    exact (replicates_left host hown hreplicated hregistered hbetween
      (fun _ ↦ hopen socket hknownSocket hconnected.opened) rfl hstill peers).of_rooms fun _ ↦ rfl
  | ended ended =>
    exact replicates_sessionEnded ended hown hknown hreplicated hconnected
      (fun hhas ↦ hopen socket hhas hconnected.opened) peers

end Steps

/-! ### Runs -/

section Runs

variable {host : Host ν} {hub : SignalingHub ν} {socket : Socket}

/-- What holds of the server between two steps. -/
structure Consistent (hub : SignalingHub ν) : Prop where
  own : RoomsOwn hub
  known : SocketsKnown hub
  replicated : Replicated hub

theorem consistent_new (db : Database) : Consistent (SignalingHub.new db : SignalingHub ν) where
  own := roomsOwn_new db
  known := socketsKnown_new db
  replicated := by
    intro socket hconnected
    have hopen := isOpen_iff.mp hconnected.opened
    simp [SignalingHub.new] at hopen

theorem consistent_step (hub : SignalingHub ν) (input : HubInput) (hconsistent : Consistent hub)
    (hsignals : SendsSignals host input.2) : Consistent (hubStep host hub input) := by
  have hmove := hubStep_move host hub input
  exact ⟨hmove.roomsOwn hconsistent.own, hmove.socketsKnown hconsistent.known,
    replicated_move hmove hconsistent.own hconsistent.known hsignals hconsistent.replicated⟩

/-- A socket that is no longer open gets nothing more. -/
theorem peersAfter_gone {now : ℕ} {event : HubEvent} {next : SignalingHub ν}
    (hmove : HubMove host now hub event next) (hgone : Gone hub socket) (peers : List (Json ν)) :
    peersAfter peers socket next = peersAfter peers socket hub := by
  obtain ⟨sent, hsent, hseated⟩ := hmove.sent_seated
  have hnone : framesIn socket sent = [] := by
    rw [framesIn, List.map_eq_nil_iff, List.filter_eq_nil_iff]
    intro frame hmem hreceiver
    obtain rfl := of_decide_eq_true hreceiver
    rcases hseated frame hmem with ⟨_, _, _, _, _, hbefore⟩ | ⟨_, _, _, _, _, hafter⟩
    · exact Bool.false_ne_true (hgone.2.symm.trans hbefore)
    · exact Bool.false_ne_true ((hmove.gone hgone).2.symm.trans hafter)
  rw [peersAfter_append hsent, hnone]
  rfl

theorem peersAfter_run_gone (later : List HubInput) (hgone : Gone hub socket)
    (peers : List (Json ν)) :
    peersAfter peers socket (run (hubStep host) hub later) = peersAfter peers socket hub := by
  induction later generalizing hub with
  | nil => rfl
  | cons input rest ih =>
    have hmove := hubStep_move host hub input
    rw [run_cons, ih (hmove.gone hgone), peersAfter_gone hmove hgone]

/-- When a session is ended its clients empty their lists, and are no longer served. -/
theorem sessionEnded_client (hown : RoomsOwn hub) (hconnected : Connected hub socket)
    (peers : List (Json ν)) :
    Gone (sessionEnded socket.payload.sessionId hub) socket ∧
      peersAfter peers socket (sessionEnded socket.payload.sessionId hub) = [] := by
  obtain ⟨peer, hpeer, hsocket⟩ := hconnected.registered
  have hopen := isOpen_iff.mp hconnected.opened
  constructor
  · have hstate : (sessionEnded socket.payload.sessionId hub).sockets.get? socket =
        some .CLOSING := by
      refine (foldl_closedIn_get? _ _ _).trans (if_pos ⟨?_, hopen⟩)
      exact List.mem_map.mpr ⟨peer, RoomManager.mem_getRoomPeers.mpr ⟨_, hpeer⟩, hsocket⟩
    refine ⟨OrderedMap.has_iff_exists.mpr ⟨_, hstate⟩, ?_⟩
    rw [← Bool.not_eq_true, isOpen_iff, hstate]
    decide
  · have hreceives : socket ∈ hub.receivers socket.payload.sessionId none := by
      refine (mem_receivers_iff hown).mpr ⟨⟨peer, hpeer, hsocket⟩, hconnected.opened, ?_⟩
      exact fun excluded hexcluded ↦ absurd hexcluded (by simp)
    rw [peersAfter_append rfl, framesIn_broadcastTo (receivers_nodup hown _ _), if_pos hreceives,
      List.foldl_cons, onmessage_ended]
    rfl

end Runs

/-- **The list of every connected client is the roster of its room**, after every run in which
clients send signals and heartbeats, once it has processed all frames sent to its socket. When the
session is ended the list is empty, and stays so. -/
theorem roster_replicated (host : Host ν) (db : Database) (inputs : List HubInput)
    (hsignals : ∀ input ∈ inputs, SendsSignals host input.2) (socket : Socket)
    (hconnected : Connected (hubRun host db inputs) socket) (peers : List (Json ν)) :
    Replicates (hubRun host db inputs) socket (peersAfter peers socket (hubRun host db inputs)) ∧
      ∀ now requester response later,
        (endSession socket.payload.sessionId requester (hubRun host db inputs)).2 = .ok response →
          peersAfter peers socket (hubRun host db
            (inputs ++ (now, .endSession socket.payload.sessionId requester) :: later)) = [] := by
  have hconsistent : Consistent (hubRun host db inputs) :=
    run_invariant Consistent (fun hub input hinv hinput ↦ consistent_step hub input hinv hinput)
      (consistent_new db) (along_of_forall hsignals _)
  refine ⟨hconsistent.replicated socket hconnected peers, fun now requester response later hok ↦ ?_⟩
  have hended : hubStep host (hubRun host db inputs)
      (now, .endSession socket.payload.sessionId requester) =
        sessionEnded socket.payload.sessionId (hubRun host db inputs) := by
    rw [hubStep, if_neg (by rw [hconnected.runs]; exact Bool.false_ne_true)]
    rcases endSession_cases socket.payload.sessionId requester (hubRun host db inputs) with
      ⟨error, hdenied⟩ | ⟨_, _, _, hended⟩
    · rw [hdenied] at hok
      simp at hok
    · exact hended
  obtain ⟨hgone, hempty⟩ := sessionEnded_client hconsistent.own hconnected peers
  rw [hubRun, run_append, run_cons]
  change peersAfter peers socket (run (hubStep host)
    (hubStep host (hubRun host db inputs) (now, .endSession socket.payload.sessionId requester))
      later) = []
  rw [hended, peersAfter_run_gone later hgone, hempty]

/-- The first student has the second one in its list. -/
theorem roster_replicated_connections :
    Replicates (hubRun (tableHost []) classroom connections) alice
        (peersAfter [] alice (hubRun (tableHost []) classroom connections)) ∧
      ∀ now requester response later,
        (endSession "session" requester (hubRun (tableHost []) classroom connections)).2 =
            .ok response →
          peersAfter [] alice (hubRun (tableHost []) classroom
            (connections ++ (now, .endSession "session" requester) :: later)) = [] := by
  refine roster_replicated (tableHost []) classroom connections (fun input hinput ↦ ?_) alice ?_ []
  · rcases List.mem_cons.mp hinput with rfl | hinput
    · trivial
    · obtain rfl := List.mem_singleton.mp hinput
      trivial
  · exact ⟨by decide +kernel, ⟨connectedPeer alice 1, by decide +kernel, rfl⟩, by decide +kernel⟩

end CampusMesh.Web
