import CampusMesh.Server.HubEffects

/-!
# Who produced a frame

Every frame that a client receives comes from one event of the server. The server's own frames
(`Generated`) are a roster, a peer that joined or left, metrics, or the end of a session, each for
the event that it reports. What else is sent is the frame of a client that is relayed
(`HubMove.sent`).

The relay does not look at the type of a frame, so a client can send a control event to any peer of
its room. `RelaysSignals` is the condition that no client does: a frame that is relayed is an offer,
an answer or a candidate. Under it everything sent is authentic (`authentic_of_relaysSignals`).
-/

set_option autoImplicit false
set_option relaxedAutoImplicit false

namespace CampusMesh.Server

open Library Shared SignalingHub

variable {ν : Type}

/-! ### The promise -/

/-- The receiver is the socket of a peer in the room. -/
def InRoom (sessionId : String) (socket : Socket) (hub : SignalingHub ν) : Prop :=
  ∃ peer ∈ RoomManager.getRoomPeers sessionId hub.rooms, peer.socket = socket

/-- A frame that the server itself generates for an event: the roster and the arrival of a peer just
added, the departure of a peer just removed, the metrics of the session, and the end of a session by
its instructor. -/
inductive Generated (host : Host ν) (now : ℕ) (hub next : SignalingHub ν) :
    HubEvent → Socket → Json.Fields ν → Prop
  | roster (socket : Socket)
      (hadded : RoomManager.getPeer socket.payload.sessionId (peerIdOf socket.payload) next.rooms =
        some (connectedPeer socket now)) :
      Generated host now hub next (.connection socket) socket
        (rosterFrame host socket.payload.sessionId
          ((RoomManager.getRoomPeers socket.payload.sessionId next.rooms).filter fun other ↦
            other.peerId ≠ peerIdOf socket.payload))
  | joined (socket receiver : Socket)
      (hadded : RoomManager.getPeer socket.payload.sessionId (peerIdOf socket.payload) next.rooms =
        some (connectedPeer socket now))
      (hroom : InRoom socket.payload.sessionId receiver next) :
      Generated host now hub next (.connection socket) receiver
        (joinedFrame host (connectedPeer socket now))
  | left (event : HubEvent) (socket receiver : Socket) (peer : ConnectedPeer)
      (hevent : event = .close socket ∨ event = .error socket)
      (hbefore : RoomManager.getPeer socket.payload.sessionId (peerIdOf socket.payload) hub.rooms =
        some peer)
      (hsocket : peer.socket = socket)
      (hremoved : RoomManager.getPeer socket.payload.sessionId
        (peerIdOf socket.payload) next.rooms = none)
      (hroom : InRoom socket.payload.sessionId receiver next) :
      Generated host now hub next event receiver
        (leftFrame socket.payload.sessionId (peerIdOf socket.payload))
  | metrics (event : HubEvent) (sessionId : String) (receiver : Socket) (metrics : SwarmMetrics ν)
      (hmetrics : TelemetryManager.getMetrics host sessionId now next.rooms next.reports =
        some metrics)
      (hroom : InRoom sessionId receiver next) :
      Generated host now hub next event receiver (metricsFrame host sessionId metrics)
  | ended (sessionId : String) (requester : AuthTokenPayload) (receiver : Socket)
      (hinstructor : requester.role = .instructor) (hsession : requester.sessionId = sessionId)
      (hroom : InRoom sessionId receiver hub) :
      Generated host now hub next (.endSession sessionId requester) receiver (endedFrame sessionId)

/-- A frame is an offer, an answer or a candidate. -/
def IsSignal (fields : Json.Fields ν) : Prop :=
  hasType .SIGNAL_OFFER fields = true ∨ hasType .SIGNAL_ANSWER fields = true ∨
    hasType .SIGNAL_ICE fields = true

/-- A frame that was received from a client in the event. -/
def FromClient (host : Host ν) (event : HubEvent) (fields : Json.Fields ν) : Prop :=
  ∃ socket rawText, event = .message socket rawText ∧
    receivedFrame host socket rawText = some fields

/-- What a step sends is generated by the server, or relayed and then a signal. -/
def Authentic (host : Host ν) (hub : SignalingHub ν) (input : HubInput) : Prop :=
  ∃ sent, (hubStep host hub input).sent = hub.sent ++ sent ∧ ∀ socket fields,
    (socket, fields) ∈ sent →
      Generated host input.1 hub (hubStep host hub input) input.2 socket fields ∨
        FromClient host input.2 fields ∧ IsSignal fields

/-- A message that the server relays is a signal. It relays what it receives by a socket that it
listens to, if this is no heartbeat, names a peer of the room with an open socket, and can be
written again. -/
def RelaysSignals (host : Host ν) (hub : SignalingHub ν) : HubEvent → Prop
  | .message socket rawText => hub.halted = false → Listens hub socket → ∀ fields targetPeer,
      receivedFrame host socket rawText = some fields →
      hasType .TELEMETRY_HEARTBEAT fields = false →
      relayTarget socket fields hub = some targetPeer →
      host.serializes (.object fields) = true → IsSignal fields
  | _ => True

/-! ### What a step sends -/

section Steps

variable {host : Host ν} {now : ℕ} {hub : SignalingHub ν}

theorem mem_receivers {sessionId : String} {excludePeerId : Option String} {socket : Socket}
    (hmem : socket ∈ hub.receivers sessionId excludePeerId) : InRoom sessionId socket hub := by
  obtain ⟨peer, hpeer, rfl⟩ := List.mem_map.mp (List.mem_filter.mp hmem).1
  exact ⟨peer, (List.mem_filter.mp hpeer).1, rfl⟩

theorem mem_broadcast {sessionId : String} {message fields : Json.Fields ν}
    {excludePeerId : Option String} {socket : Socket}
    (hmem : (socket, fields) ∈
      (hub.receivers sessionId excludePeerId).map fun receiver ↦ (receiver, message)) :
    fields = message ∧ InRoom sessionId socket hub := by
  obtain ⟨receiver, hreceiver, heq⟩ := List.mem_map.mp hmem
  obtain ⟨rfl, rfl⟩ := Prod.mk.inj heq
  exact ⟨rfl, mem_receivers hreceiver⟩

/-- The departure of a peer that was just removed. -/
theorem generated_left {event : HubEvent} {socket receiver : Socket}
    {sockets : OrderedMap Socket ReadyState} {room : Room} {next : SignalingHub ν}
    (hshuts : Shuts hub socket sockets event) (hregistered : RegisteredBy socket room hub)
    (hrooms : next.rooms = (departed socket room { hub with sockets := sockets }).rooms)
    (hreceiver : InRoom socket.payload.sessionId receiver
      (departed socket room { hub with sockets := sockets })) :
    Generated host now hub next event receiver
      (leftFrame socket.payload.sessionId (peerIdOf socket.payload)) := by
  obtain ⟨hroom, peer, hpeer, hsocket⟩ := hregistered
  refine .left event socket receiver peer (event_of_shuts hshuts) ?_ hsocket ?_ ?_
  · rw [RoomManager.getPeer, hroom, Option.bind_some, hpeer]
  · rw [hrooms]
    exact (RoomManager.getPeer_dropPeer hroom _).trans (if_pos ⟨rfl, rfl⟩)
  · rw [InRoom, hrooms]
    exact hreceiver

/-- What an event makes the server send. -/
theorem HubMove.sent {event : HubEvent} {next : SignalingHub ν}
    (hmove : HubMove host now hub event next) (hruns : hub.halted = false)
    (hrelays : RelaysSignals host hub event) :
    ∃ sent, next.sent = hub.sent ++ sent ∧ ∀ receiver fields, (receiver, fields) ∈ sent →
      Generated host now hub next event receiver fields ∨
        FromClient host event fields ∧ IsSignal fields := by
  have hquiet : ∀ next : SignalingHub ν, next.sent = hub.sent → ∃ sent,
      next.sent = hub.sent ++ sent ∧ ∀ receiver fields, (receiver, fields) ∈ sent →
        Generated host now hub next event receiver fields ∨
          FromClient host event fields ∧ IsSignal fields := by
    intro next hsame
    exact ⟨[], by rw [hsame, List.append_nil], fun _ _ hmem ↦ absurd hmem List.not_mem_nil⟩
  cases hmove with
  | idle | expired | closing | stale | reset => exact hquiet _ rfl
  | admitted socket session =>
    have hadded : RoomManager.getPeer socket.payload.sessionId (connectedPeer socket now).peerId
        (Server.admitted socket now hub).rooms = some (connectedPeer socket now) :=
      RoomManager.getPeer_addPeer_self
    rw [letIn_spec]
    refine ⟨_, rfl, fun receiver message hmem ↦ Or.inl ?_⟩
    rcases List.mem_cons.mp hmem with hroster | hjoined
    · obtain ⟨rfl, rfl⟩ := Prod.mk.inj hroster
      exact .roster receiver hadded
    · obtain ⟨rfl, hreceiver⟩ := mem_broadcast hjoined
      exact .joined socket receiver hadded hreceiver
  | reported socket rawText fields payload sent hlistens hreceived hbeat _ hsent =>
    refine ⟨sent, rfl, fun receiver message hmem ↦ Or.inl ?_⟩
    rcases hsent with ⟨_, rfl⟩ | ⟨metrics, hpresents, rfl⟩
    · exact absurd hmem List.not_mem_nil
    · obtain ⟨rfl, hroom⟩ := mem_broadcast hmem
      exact .metrics _ _ receiver metrics hpresents.1 hroom
  | relayed socket rawText fields targetPeer hlistens hreceived hbeat hserializes htarget =>
    refine ⟨_, rfl, fun receiver message hmem ↦ Or.inr ?_⟩
    obtain ⟨rfl, rfl⟩ := Prod.mk.inj (List.mem_singleton.mp hmem)
    exact ⟨⟨socket, rawText, rfl, hreceived⟩,
      hrelays hruns hlistens _ targetPeer hreceived hbeat htarget hserializes⟩
  | left _ socket sockets room between metrics hshuts hregistered hnext hpresents =>
    subst hnext
    refine ⟨_, rfl, fun receiver message hmem ↦ Or.inl ?_⟩
    rcases List.mem_append.mp hmem with hleft | hupdate
    · obtain ⟨rfl, hreceiver⟩ := mem_broadcast hleft
      exact generated_left hshuts hregistered rfl hreceiver
    · obtain ⟨rfl, hreceiver⟩ := mem_broadcast hupdate
      exact .metrics event _ receiver metrics hpresents.1 hreceiver
  | crashed _ socket sockets room between sent hshuts hregistered hnext hunpresented =>
    subst hnext
    refine ⟨_, rfl, fun receiver message hmem ↦ Or.inl ?_⟩
    rcases hunpresented with ⟨_, rfl⟩ | ⟨metrics, _, _, rfl⟩
    · exact absurd hmem List.not_mem_nil
    · obtain ⟨rfl, hreceiver⟩ := mem_broadcast hmem
      exact generated_left hshuts hregistered rfl hreceiver
  | ended sessionId requester hinstructor hsession =>
    refine ⟨_, rfl, fun receiver fields hmem ↦ Or.inl ?_⟩
    obtain ⟨rfl, hroom⟩ := mem_broadcast hmem
    exact .ended sessionId requester receiver hinstructor hsession hroom

end Steps

/-! ### Runs -/

/-- **Control events are authentic** in every run in which only signals are relayed: a frame that is
sent is the server's own for the event that it reports, or a client's signal. -/
theorem authentic_of_relaysSignals (host : Host ν) (db : Database) (inputs : List HubInput)
    (hrelays : Along (hubStep host) (fun hub input ↦ RelaysSignals host hub input.2)
      (SignalingHub.new db) inputs) :
    Along (hubStep host) (Authentic host) (SignalingHub.new db) inputs := by
  refine along_of_invariant (fun _ ↦ True) (fun _ _ _ _ ↦ trivial) (fun hub input _ hinput ↦ ?_)
    trivial hrelays
  by_cases hhalted : hub.halted = true
  · refine ⟨[], ?_, fun _ _ hmem ↦ absurd hmem List.not_mem_nil⟩
    rw [hubStep, if_pos hhalted, List.append_nil]
  · exact (hubStep_move host hub input).sent (Bool.eq_false_iff.mpr hhalted) hinput

/-- A message of an offer to the second student. -/
def offerToBob : String := "\x7b\"type\":\"signal-offer\",\"targetPeerId\":\"bob\"\x7d"

/-- A message to the second student that the class has ended. -/
def forgedEnd : String := "\x7b\"type\":\"session-ended\",\"targetPeerId\":\"bob\"\x7d"

/-- What the messages parse to. -/
def signalingHost : Host Rat := tableHost
  [(offerToBob, .object [("type", .string "signal-offer"), ("targetPeerId", .string "bob")]),
    (forgedEnd, .object [("type", .string "session-ended"), ("targetPeerId", .string "bob")])]

theorem authentic_of_relaysSignals_offer :
    Along (hubStep signalingHost) (Authentic signalingHost) (SignalingHub.new classroom)
      (connections ++ [(3, .message alice offerToBob)]) := by
  refine authentic_of_relaysSignals signalingHost classroom _
    ((along_append _ _ _).mpr ⟨⟨trivial, trivial, trivial⟩, ?_, trivial⟩)
  intro _ _ fields targetPeer hreceived _ _ _
  have hframe : receivedFrame signalingHost alice offerToBob = some (stamp alice
      [("type", .string "signal-offer"), ("targetPeerId", .string "bob")]) := rfl
  obtain rfl := Option.some.inj (hframe.symm.trans hreceived)
  exact Or.inl rfl

/-- The second student is told by the first one that the class has ended. -/
theorem forgedEnd_not_authentic :
    ¬ Along (hubStep signalingHost) (Authentic signalingHost) (SignalingHub.new classroom)
      (connections ++ [(3, .message alice forgedEnd)]) := by
  intro halong
  obtain ⟨sent, hsent, hall⟩ := ((along_append _ _ _).mp halong).2.1
  have hbefore : (run (hubStep signalingHost) (SignalingHub.new classroom) connections).sent.any
      (fun frame ↦ hasType .SESSION_ENDED frame.2) = false := by decide +kernel
  have hafter : (hubStep signalingHost
      (run (hubStep signalingHost) (SignalingHub.new classroom) connections)
      (3, .message alice forgedEnd)).sent.any
        (fun frame ↦ hasType .SESSION_ENDED frame.2) = true := by decide +kernel
  rw [hsent, List.any_append, hbefore, Bool.false_or, List.any_eq_true] at hafter
  obtain ⟨⟨receiver, fields⟩, hmem, hended⟩ := hafter
  rcases hall receiver fields hmem with hgenerated | ⟨_, hsignal⟩
  · cases hgenerated with
    | left _ _ _ _ hevent => exact hevent.elim (by simp) (by simp)
    | metrics => exact absurd hended Bool.false_ne_true
  · rcases hsignal with hoffer | hanswer | hice
    · exact absurd (hasType_unique hended hoffer) (by decide)
    · exact absurd (hasType_unique hended hanswer) (by decide)
    · exact absurd (hasType_unique hended hice) (by decide)

end CampusMesh.Server
