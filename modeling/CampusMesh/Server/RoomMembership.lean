import CampusMesh.Server.Registration

/-!
# Membership follows the latest socket

A peer may connect again before its old socket has closed, and every socket may fire `close` and
`error`, late and in any order. `RoomManager.addPeer` replaces the entry of a peer, and
`RoomManager.removePeer` removes it only for the socket that it was added with. So who is registered
is decided by the socket that was let in last (`latest`), and by nothing that older sockets do; and
the room is told that a peer left once for each step in which it goes (`departures`).

The events are those of sockets, and the requests that do not end a session. Messages are left out:
a client can send a frame of any type to another one, and reports that cannot be added up end the
process when a socket closes.
-/

set_option autoImplicit false
set_option relaxedAutoImplicit false

namespace CampusMesh.Server

open Library Shared SignalingHub

variable {ν : Type}

/-! ### The history of a peer -/

/-- The event is no message, and does not end a session. -/
def HubEvent.isOrdinary : HubEvent → Bool
  | .message .. | .endSession .. => false
  | _ => true

/-- A socket that connects is let in: its session is active and has not expired. -/
def letsIn (now : ℕ) (socket : Socket) (hub : SignalingHub ν) : Bool :=
  !hub.sockets.has socket &&
    (SessionRepository.findById socket.payload.sessionId hub.db).any fun session ↦
      session.isActive && !decide (session.expiresAt < (now : ℤ))

/-- The entry of the peer whose socket is let in now. -/
def arrival (sessionId peerId : String) (hub : SignalingHub ν) (input : HubInput) :
    Option ConnectedPeer :=
  match input.2 with
  | .connection socket =>
    if letsIn input.1 socket hub ∧ socket.payload.sessionId = sessionId ∧
        peerIdOf socket.payload = peerId then some (connectedPeer socket input.1)
    else none
  | _ => none

/-- The socket fires `close` or `error`. -/
def fires (socket : Socket) (input : HubInput) : Bool :=
  match input.2 with
  | .close other | .error other => other = socket
  | _ => false

section Histories

variable (host : Host ν) (sessionId peerId : String)

/-- The entry of the socket of the peer that was let in last, and what happened since then. -/
def latest (hub : SignalingHub ν) : List HubInput → Option (ConnectedPeer × List HubInput)
  | [] => none
  | input :: rest =>
    (latest (hubStep host hub input) rest).or
      ((arrival sessionId peerId hub input).map fun peer ↦ (peer, rest))

/-- The states right after the steps in which the peer goes from present to absent. -/
def departures (hub : SignalingHub ν) : List HubInput → List (SignalingHub ν)
  | [] => []
  | input :: rest =>
    let next := hubStep host hub input
    if (registered hub sessionId peerId).isSome ∧ registered next sessionId peerId = none then
      next :: departures next rest
    else departures next rest

end Histories

/-- The text in a field. -/
def hasText (key text : String) (fields : Json.Fields ν) : Bool :=
  match Json.getField key fields with
  | some (.string found) => found = text
  | _ => false

/-- A frame that says that the peer left. -/
def announcesLeft (sessionId peerId : String) (frame : Socket × Json.Fields ν) : Bool :=
  hasType .PEER_LEFT frame.2 && hasText "sessionId" sessionId frame.2 &&
    hasText "senderPeerId" peerId frame.2

/-! ### What a step does -/

/-- What runs keep: the rooms follow the tokens, registered sockets have connected, there are no
reports, and the process has not ended. -/
structure Serving (hub : SignalingHub ν) : Prop where
  own : RoomsOwn hub
  known : SocketsKnown hub
  quiet : ∀ sessionId, TelemetryManager.peerReports sessionId hub.reports = []
  running : hub.halted = false

/-- What an ordinary event does to the rooms: a peer enters, or the one registered by the socket
leaves, or nothing changes, and then no registered socket has fired. -/
inductive Change (host : Host ν) (hub : SignalingHub ν) (input : HubInput) :
    SignalingHub ν → Prop
  | entered (socket : Socket) (hevent : input.2 = .connection socket)
      (hletsIn : letsIn input.1 socket hub = true) :
      Change host hub input (letIn host socket input.1 hub)
  | left (socket : Socket) (sockets : OrderedMap Socket ReadyState) (room : Room)
      (next : SignalingHub ν) (metrics : SwarmMetrics ν)
      (hfires : ∀ other, fires other input = decide (socket = other))
      (hevent : ∀ other, input.2 ≠ .connection other) (hregistered : RegisteredBy socket room hub)
      (hnext : next = departed socket room { hub with sockets := sockets }) :
      Change host hub input
        { next with
          sent := hub.sent ++
            (broadcastTo (next.receivers socket.payload.sessionId none)
                (leftFrame socket.payload.sessionId (peerIdOf socket.payload)) ++
              broadcastTo (next.receivers socket.payload.sessionId none)
                (metricsFrame host socket.payload.sessionId metrics)) }
  | same (next : SignalingHub ν) (hrooms : next.rooms = hub.rooms) (hsent : next.sent = hub.sent)
      (hreports : ∀ sessionId, TelemetryManager.peerReports sessionId next.reports = [])
      (hhalted : next.halted = false)
      (harrival : ∀ sessionId peerId, arrival sessionId peerId hub input = none)
      (hfires : ∀ sessionId peerId peer, registered hub sessionId peerId = some peer →
        fires peer.socket input = false) :
      Change host hub input next

section Steps

variable {host : Host ν} {hub next : SignalingHub ν} {input : HubInput} {sessionId peerId : String}

/-- A registered peer is in a room, under the session and the id of its token. -/
theorem RoomsOwn.registeredBy (hown : RoomsOwn hub) {peer : ConnectedPeer}
    (hpeer : registered hub sessionId peerId = some peer) :
    ∃ room, RegisteredBy peer.socket room hub := by
  obtain ⟨hsession, hid, _⟩ := hown sessionId peerId peer hpeer
  obtain ⟨room, hroom, hfound⟩ := Option.bind_eq_some_iff.mp hpeer
  exact ⟨room, by rw [hsession]; exact hroom, peer, by rw [hid]; exact hfound, rfl⟩

/-- Whom the socket registered is found under the session and the id of its token. -/
theorem RegisteredBy.registered_eq {socket : Socket} {room : Room}
    (hregistered : RegisteredBy socket room hub) :
    ∃ peer, registered hub socket.payload.sessionId (peerIdOf socket.payload) = some peer ∧
      peer.socket = socket := by
  obtain ⟨hroom, peer, hpeer, hsocket⟩ := hregistered
  exact ⟨peer, Option.bind_eq_some_iff.mpr ⟨room, hroom, hpeer⟩, hsocket⟩

/-- Where there are no reports, there are none among fewer. -/
theorem peerReports_eq_nil {reports fewer : Reports ν}
    (hquiet : ∀ sessionId, TelemetryManager.peerReports sessionId reports = [])
    (hfewer : ∀ sessionId id report, TelemetryManager.getReport sessionId id fewer = some report →
      TelemetryManager.getReport sessionId id reports = some report) (sessionId : String) :
    TelemetryManager.peerReports sessionId fewer = [] := by
  refine List.eq_nil_iff_forall_not_mem.mpr fun report hreport ↦ ?_
  obtain ⟨id, hfound⟩ := TelemetryManager.mem_peerReports.mp hreport
  have hmem := TelemetryManager.mem_peerReports.mpr ⟨id, hfewer sessionId id report hfound⟩
  rw [hquiet] at hmem
  exact absurd hmem List.not_mem_nil

theorem peerReports_departed (socket : Socket) (room : Room)
    (hquiet : ∀ sessionId, TelemetryManager.peerReports sessionId hub.reports = []) :
    ∀ sessionId, TelemetryManager.peerReports sessionId
      (departed socket room hub).reports = [] := by
  refine peerReports_eq_nil hquiet fun sessionId id report hfound ↦ ?_
  rw [departed, TelemetryManager.getReport_removePeer] at hfound
  split_ifs at hfound
  exact hfound

/-- Metrics without reports can be computed and written. -/
theorem not_unpresented {now : ℕ} {socket : Socket} {sent : List (Socket × Json.Fields ν)}
    (hquiet : TelemetryManager.peerReports socket.payload.sessionId hub.reports = []) :
    ¬ Unpresented host now socket hub sent := by
  have hnothing : ([] : List (PeerTelemetryReport ν)).foldlM (TelemetryManager.addReport host)
      ⟨host.natural 0, host.natural 0, host.natural 0⟩ =
        some ⟨host.natural 0, host.natural 0, host.natural 0⟩ := rfl
  unfold Unpresented TelemetryManager.getMetrics
  rw [hquiet, TelemetryManager.sumReports_of_totals hnothing]
  rintro (⟨hnone, _⟩ | ⟨metrics, hmetrics, hunserialized, _⟩)
  · simp at hnone
  · obtain rfl := Option.some.inj hmetrics
    refine Bool.false_ne_true (hunserialized.symm.trans (host.serializes_of_bare _ ?_))
    simp [metricsFrame, envelope, SwarmMetrics.toJson, Json.isBare, Host.natural,
      TelemetryManager.figuresOf]

/-- The listener of `close` and `error`. -/
theorem Serving.cleanup_change (hserving : Serving hub) (socket : Socket)
    (sockets : OrderedMap Socket ReadyState)
    (hfires : ∀ other, fires other input = decide (socket = other))
    (hevent : ∀ other, input.2 ≠ .connection other) :
    Change host hub input (cleanup host socket input.1 { hub with sockets := sockets }) := by
  have hquiet : ∀ room sessionId, TelemetryManager.peerReports sessionId
      (departed socket room { hub with sockets := sockets }).reports = [] :=
    fun room ↦ peerReports_departed socket room hserving.quiet
  rcases cleanup_cases host socket input.1 { hub with sockets := sockets } with
    ⟨hstale, hsame⟩ | ⟨room, hregistered, ⟨sent, hunpresented, _⟩ | ⟨metrics, _, hsent⟩⟩
  · rw [hsame]
    refine .same _ rfl rfl hserving.quiet hserving.running (fun _ _ ↦ ?_)
      fun sessionId peerId peer hpeer ↦ ?_
    · unfold arrival
      split
      · next other hconnection => exact absurd hconnection (hevent other)
      · rfl
    · rw [hfires, decide_eq_false_iff_not]
      rintro rfl
      obtain ⟨room, hregistered⟩ := hserving.own.registeredBy hpeer
      exact hstale room hregistered
  · exact absurd hunpresented (not_unpresented (hquiet room socket.payload.sessionId))
  · rw [hsent]
    exact .left socket sockets room _ metrics hfires hevent hregistered rfl

/-- A connection lets a peer in, or is refused. -/
theorem Serving.connection_change (hserving : Serving hub) {now : ℕ} {socket : Socket} :
    Change host hub (now, .connection socket)
      (handleEvent host now hub (.connection socket)) := by
  have hrefused : ∀ next : SignalingHub ν, next.rooms = hub.rooms → next.sent = hub.sent →
      next.reports = hub.reports → next.halted = hub.halted → letsIn now socket hub = false →
        Change host hub (now, .connection socket) next := by
    intro next hrooms hsent hreports hhalted hrefused
    refine .same next hrooms hsent (hreports ▸ hserving.quiet) (hhalted ▸ hserving.running)
      (fun _ _ ↦ ?_) fun _ _ _ _ ↦ rfl
    simp [arrival, hrefused]
  change Change host hub _ (if hub.sockets.has socket then hub else _)
  split_ifs with hknown
  · exact hrefused hub rfl rfl rfl rfl (by simp [letsIn, hknown])
  unfold handleSignalingConnection
  cases hsession : SessionRepository.findById socket.payload.sessionId hub.db with
  | none => exact hrefused hub rfl rfl rfl rfl (by simp [letsIn, hsession])
  | some session =>
    simp only
    split_ifs with hactive hexpired
    · exact hrefused hub rfl rfl rfl rfl (by simp [letsIn, hsession, hactive])
    · exact hrefused _ rfl rfl rfl rfl (by simp [letsIn, hsession, hexpired])
    · refine .entered socket rfl ?_
      simp only [letsIn, hsession, Option.any_some, Bool.and_eq_true, Bool.not_eq_true',
        decide_eq_false_iff_not]
      exact ⟨Bool.eq_false_iff.mpr hknown, by simpa using hactive, hexpired⟩

/-- Every ordinary event is one of the changes. -/
theorem Serving.change (hserving : Serving hub) (hordinary : input.2.isOrdinary = true) :
    Change host hub input (hubStep host hub input) := by
  obtain ⟨now, event⟩ := input
  rw [hubStep, if_neg (by simp [hserving.running])]
  have hquiet : ∀ next : SignalingHub ν, next.rooms = hub.rooms → next.sent = hub.sent →
      next.reports = hub.reports → next.halted = hub.halted →
      (∀ sessionId peerId, arrival sessionId peerId hub (now, event) = none) →
      (∀ socket, fires socket (now, event) = false) → Change host hub (now, event) next :=
    fun next hrooms hsent hreports hhalted harrival hfires ↦
      .same next hrooms hsent (hreports ▸ hserving.quiet) (hhalted ▸ hserving.running) harrival
        fun _ _ _ _ ↦ hfires _
  have hunknown : ∀ socket, hub.sockets.has socket = false →
      (∀ other, fires other (now, event) = decide (socket = other)) →
      (∀ sessionId peerId, arrival sessionId peerId hub (now, event) = none) →
        Change host hub (now, event) hub := by
    intro socket hfresh hfires harrival
    refine .same hub rfl rfl hserving.quiet hserving.running harrival
      fun sessionId peerId peer hpeer ↦ ?_
    rw [hfires, decide_eq_false_iff_not]
    rintro rfl
    exact Bool.false_ne_true
      (hfresh.symm.trans (hserving.known.registered sessionId peerId peer hpeer))
  cases event with
  | connection socket => exact hserving.connection_change
  | message => exact absurd hordinary Bool.false_ne_true
  | endSession => exact absurd hordinary Bool.false_ne_true
  | closing socket =>
    change Change host hub _ (close socket hub)
    rw [close_eq]
    exact hquiet _ rfl rfl rfl rfl (fun _ _ ↦ rfl) fun _ ↦ rfl
  | close socket =>
    change Change host hub _ (if hub.sockets.has socket then _ else hub)
    split_ifs with hknown
    · exact hserving.cleanup_change socket _ (fun _ ↦ rfl) (by simp)
    · exact hunknown socket (Bool.eq_false_iff.mpr hknown) (fun _ ↦ rfl) fun _ _ ↦ rfl
  | error socket =>
    change Change host hub _ (if hub.sockets.has socket then _ else hub)
    split_ifs with hknown
    · rw [close_eq]
      exact hserving.cleanup_change socket _ (fun _ ↦ rfl) (by simp)
    · exact hunknown socket (Bool.eq_false_iff.mpr hknown) (fun _ ↦ rfl) fun _ _ ↦ rfl
  | resetTelemetry sessionId user =>
    change Change host hub _ (resetTelemetry host sessionId user now hub).1
    rcases resetTelemetry_cases host sessionId user now hub with hsame | ⟨_, _, _, hreset⟩
    · rw [hsame]
      exact hquiet _ rfl rfl rfl rfl (fun _ _ ↦ rfl) fun _ ↦ rfl
    · rw [hreset]
      refine .same _ rfl rfl (peerReports_eq_nil hserving.quiet fun other id report hfound ↦ ?_)
        hserving.running (fun _ _ ↦ rfl) fun _ _ _ _ ↦ rfl
      rw [TelemetryManager.getReport_clearSession] at hfound
      split_ifs at hfound
      exact hfound
  | sessionCheck sessionId => exact hquiet _ rfl rfl rfl rfl (fun _ _ ↦ rfl) fun _ ↦ rfl

/-- No change brings a report or ends the process. -/
theorem Change.quiet (hchange : Change host hub input next) (hserving : Serving hub) :
    (∀ sessionId, TelemetryManager.peerReports sessionId next.reports = []) ∧
      next.halted = false := by
  cases hchange with
  | entered socket =>
    rw [letIn_spec]
    exact ⟨hserving.quiet, hserving.running⟩
  | left socket sockets room between metrics _ _ _ hnext =>
    subst hnext
    exact ⟨peerReports_departed socket room hserving.quiet, hserving.running⟩
  | same _ _ _ hreports hhalted => exact ⟨hreports, hhalted⟩

/-- Ordinary events keep the invariant. -/
theorem Serving.step (hserving : Serving hub) (hordinary : input.2.isOrdinary = true) :
    Serving (hubStep host hub input) := by
  have hmove := hubStep_move host hub input
  obtain ⟨hquiet, hrunning⟩ := (hserving.change hordinary).quiet hserving
  exact ⟨hmove.roomsOwn hserving.own, hmove.socketsKnown hserving.known, hquiet, hrunning⟩

/-- Who is registered after an ordinary event: the peer that just entered, and otherwise the one
registered before, unless its socket fires. -/
theorem Change.registered_eq (hchange : Change host hub input next) (hserving : Serving hub) :
    registered next sessionId peerId =
      (arrival sessionId peerId hub input).or
        ((registered hub sessionId peerId).filter fun peer ↦ !fires peer.socket input) := by
  cases hchange with
  | entered socket hevent hletsIn =>
    have hkept : (registered hub sessionId peerId).filter (fun peer ↦ !fires peer.socket input) =
        registered hub sessionId peerId := by
      cases registered hub sessionId peerId with
      | none => rfl
      | some peer => simp [fires, hevent]
    rw [registered_letIn, hkept, arrival, hevent]
    simp only [hletsIn, true_and]
    by_cases hown : socket.payload.sessionId = sessionId ∧ peerIdOf socket.payload = peerId
    · rw [if_pos ⟨hown.1.symm, hown.2.symm⟩, if_pos hown, Option.some_or]
    · rw [if_neg fun h ↦ hown ⟨h.1.symm, h.2.symm⟩, if_neg hown, Option.none_or]
  | left socket sockets room between metrics hfires hevent hregistered hnext =>
    subst hnext
    have harrival : arrival sessionId peerId hub input = none := by
      unfold arrival
      split
      · next other hconnection => exact absurd hconnection (hevent other)
      · rfl
    change registered (departed socket room { hub with sockets := sockets }) _ _ = _
    rw [registered_departed hregistered, harrival, Option.none_or]
    split_ifs with hown
    · obtain ⟨rfl, rfl⟩ := hown
      obtain ⟨peer, hpeer, hsocket⟩ := hregistered.registered_eq
      rw [hpeer, Option.filter_some, hfires, if_neg (by simp [hsocket])]
    · cases hpeer : registered hub sessionId peerId with
      | none => rfl
      | some peer =>
        obtain ⟨hsession, hid, _⟩ := hserving.own sessionId peerId peer hpeer
        have hother : socket ≠ peer.socket := by
          rintro rfl
          exact hown ⟨hsession.symm, hid.symm⟩
        rw [Option.filter_some, hfires, if_pos (by simp [hother])]
  | same _ hrooms _ _ _ harrival hfires =>
    rw [harrival, Option.none_or, registered, hrooms]
    cases hpeer : registered hub sessionId peerId with
    | none => exact hpeer
    | some peer =>
      rw [Option.filter_some, hfires sessionId peerId peer hpeer]
      exact hpeer

/-- A broadcast of anything else does not say that a peer left. -/
theorem filter_broadcast_other (receivers : List Socket) {message : Json.Fields ν}
    (hother : hasType .PEER_LEFT message = false) :
    (broadcastTo receivers message).filter (announcesLeft sessionId peerId) = [] := by
  refine List.filter_eq_nil_iff.mpr fun frame hframe ↦ ?_
  obtain ⟨receiver, _, rfl⟩ := List.mem_map.mp hframe
  simp [announcesLeft, hother]

/-- The broadcast that a peer left says so of this peer. -/
theorem filter_broadcast_left (receivers : List Socket) (leaving leavingId : String) :
    (broadcastTo receivers (leftFrame leaving leavingId : Json.Fields ν)).filter
        (announcesLeft sessionId peerId) =
      if sessionId = leaving ∧ peerId = leavingId then
        broadcastTo receivers (leftFrame leaving leavingId)
      else [] := by
  have hannounces : ∀ receiver : Socket,
      announcesLeft sessionId peerId (receiver, (leftFrame leaving leavingId : Json.Fields ν)) =
        (decide (leaving = sessionId) && decide (leavingId = peerId)) := fun _ ↦ rfl
  split_ifs with hown
  · refine List.filter_eq_self.mpr fun frame hframe ↦ ?_
    obtain ⟨receiver, _, rfl⟩ := List.mem_map.mp hframe
    rw [hannounces, hown.1, hown.2, decide_eq_true rfl, decide_eq_true rfl, Bool.and_true]
  · refine List.filter_eq_nil_iff.mpr fun frame hframe ↦ ?_
    obtain ⟨receiver, _, rfl⟩ := List.mem_map.mp hframe
    rw [hannounces, Bool.and_eq_true, decide_eq_true_eq, decide_eq_true_eq]
    exact fun h ↦ hown ⟨h.1.symm, h.2.symm⟩

/-- An ordinary event that makes the peer go from present to absent sends the frame that says so to
everybody left in its room; no other one sends such a frame. -/
theorem Change.sent_eq (hchange : Change host hub input next) (sessionId peerId : String) :
    ∃ sent, next.sent = hub.sent ++ sent ∧ sent.filter (announcesLeft sessionId peerId) =
      if (registered hub sessionId peerId).isSome ∧ registered next sessionId peerId = none then
        broadcastTo (next.receivers sessionId none) (leftFrame sessionId peerId)
      else [] := by
  cases hchange with
  | entered socket hevent hletsIn =>
    have hstays : ¬ ((registered hub sessionId peerId).isSome = true ∧
        registered (letIn host socket input.1 hub) sessionId peerId = none) := by
      rw [registered_letIn]
      rintro ⟨hpresent, habsent⟩
      split_ifs at habsent
      rw [habsent] at hpresent
      exact Bool.false_ne_true hpresent
    rw [if_neg hstays, letIn_spec]
    refine ⟨_, rfl, ?_⟩
    rw [List.filter_cons_of_neg Bool.false_ne_true]
    exact filter_broadcast_other _ rfl
  | left socket sockets room between metrics hfires hevent hregistered hnext =>
    subst hnext
    refine ⟨_, rfl, ?_⟩
    change _ = if (registered hub sessionId peerId).isSome = true ∧ registered
      (departed socket room { hub with sockets := sockets }) sessionId peerId = none then _ else _
    rw [List.filter_append, filter_broadcast_left, filter_broadcast_other _ rfl, List.append_nil,
      registered_departed hregistered]
    by_cases hown : sessionId = socket.payload.sessionId ∧ peerId = peerIdOf socket.payload
    · obtain ⟨rfl, rfl⟩ := hown
      obtain ⟨peer, hpeer, _⟩ := hregistered.registered_eq
      rw [if_pos ⟨rfl, rfl⟩, hpeer, if_pos ⟨rfl, if_pos ⟨rfl, rfl⟩⟩]
      rfl
    · rw [if_neg hown, if_neg hown, if_neg]
      rintro ⟨hpresent, habsent⟩
      rw [show registered hub sessionId peerId = none from habsent] at hpresent
      exact Bool.false_ne_true hpresent
  | same _ hrooms hsent =>
    refine ⟨[], by rw [hsent, List.append_nil], ?_⟩
    rw [registered, registered, hrooms, if_neg (by rintro ⟨h, h'⟩; simp [h'] at h)]
    rfl

end Steps

/-! ### Runs -/

section Runs

variable {host : Host ν} {hub : SignalingHub ν} {inputs : List HubInput}

theorem serving_new (db : Database) : Serving (SignalingHub.new db : SignalingHub ν) where
  own := roomsOwn_new db
  known := socketsKnown_new db
  quiet _ := rfl
  running := rfl

/-- The entry of a peer, unless its socket fires `close` or `error` in the run. -/
def survivor (inputs : List HubInput) (entry : Option ConnectedPeer) : Option ConnectedPeer :=
  entry.filter fun peer ↦ !inputs.any (fires peer.socket)

theorem survivor_nil (entry : Option ConnectedPeer) : survivor [] entry = entry := by
  cases entry with
  | none => rfl
  | some peer => rfl

theorem survivor_cons (input : HubInput) (rest : List HubInput) (entry : Option ConnectedPeer) :
    survivor (input :: rest) entry =
      survivor rest (entry.filter fun peer ↦ !fires peer.socket input) := by
  cases entry with
  | none => rfl
  | some peer =>
    rw [survivor, Option.filter_some, List.any_cons, Option.filter_some]
    cases fires peer.socket input with
    | false => rfl
    | true => rfl

/-- Who is registered after a run: the peer of the socket that was let in last, or the one that was
registered before the run if none was; nobody once that socket has fired. -/
theorem Serving.registered_run (hserving : Serving hub)
    (hordinary : ∀ input ∈ inputs, input.2.isOrdinary = true) (sessionId peerId : String) :
    registered (run (hubStep host) hub inputs) sessionId peerId =
      match latest host sessionId peerId hub inputs with
      | some (peer, later) => survivor later (some peer)
      | none => survivor inputs (registered hub sessionId peerId) := by
  induction inputs generalizing hub with
  | nil => exact (survivor_nil _).symm
  | cons input rest ih =>
    have hfirst := hordinary input List.mem_cons_self
    have hnext : registered (hubStep host hub input) sessionId peerId =
        (arrival sessionId peerId hub input).or
          ((registered hub sessionId peerId).filter fun peer ↦ !fires peer.socket input) :=
      (hserving.change hfirst).registered_eq hserving
    rw [run_cons, ih (hserving.step hfirst) fun other hother ↦
      hordinary other (List.mem_cons_of_mem input hother), latest]
    cases latest host sessionId peerId (hubStep host hub input) rest with
    | some entry => rfl
    | none =>
      rw [Option.none_or]
      cases harrival : arrival sessionId peerId hub input with
      | some peer => simp only [hnext, harrival, Option.some_or, Option.map_some]
      | none => simp only [hnext, harrival, Option.none_or, Option.map_none, survivor_cons]

/-- The frames of a run that say that the peer left: one broadcast to everybody left in the room for
each step in which it goes. -/
theorem Serving.sent_run (hserving : Serving hub)
    (hordinary : ∀ input ∈ inputs, input.2.isOrdinary = true) (sessionId peerId : String) :
    ∃ sent, (run (hubStep host) hub inputs).sent = hub.sent ++ sent ∧
      sent.filter (announcesLeft sessionId peerId) =
        (departures host sessionId peerId hub inputs).flatMap fun next ↦
          broadcastTo (next.receivers sessionId none) (leftFrame sessionId peerId) := by
  induction inputs generalizing hub with
  | nil => exact ⟨[], (List.append_nil _).symm, rfl⟩
  | cons input rest ih =>
    have hfirst := hordinary input List.mem_cons_self
    have hchange : Change host hub input (hubStep host hub input) := hserving.change hfirst
    obtain ⟨sent, hsent, hleft⟩ := hchange.sent_eq sessionId peerId
    obtain ⟨later, hlater, hdeparted⟩ := ih (hserving.step hfirst) fun other hother ↦
      hordinary other (List.mem_cons_of_mem input hother)
    refine ⟨sent ++ later, by rw [run_cons, hlater, hsent, List.append_assoc], ?_⟩
    rw [List.filter_append, hleft, hdeparted, departures]
    split_ifs
    · rw [List.flatMap_cons]
    · rfl

/-- The states in which the departures of a run end keep the invariant. -/
theorem Serving.departures_own (hserving : Serving hub)
    (hordinary : ∀ input ∈ inputs, input.2.isOrdinary = true) {sessionId peerId : String}
    {next : SignalingHub ν} (hdeparture : next ∈ departures host sessionId peerId hub inputs) :
    RoomsOwn next := by
  induction inputs generalizing hub with
  | nil => exact absurd hdeparture List.not_mem_nil
  | cons input rest ih =>
    have hstep : Serving (hubStep host hub input) :=
      hserving.step (hordinary input List.mem_cons_self)
    have hrest := ih hstep fun other hother ↦ hordinary other (List.mem_cons_of_mem input hother)
    rw [departures] at hdeparture
    split_ifs at hdeparture
    · rcases List.mem_cons.mp hdeparture with rfl | hlater
      · exact hstep.own
      · exact hrest hlater
    · exact hrest hdeparture

end Runs

/-- **Membership follows the latest socket.** After every run of sockets that connect, close and
fail, `getPeer` finds the entry of the socket of the peer that was let in last, if that socket has
fired neither `close` nor `error` since, and nothing otherwise. For each step in which the peer goes
from present to absent its room is told once that it left, and nobody is told so otherwise. -/
theorem membership_run (host : Host ν) (db : Database) (inputs : List HubInput)
    (hordinary : ∀ input ∈ inputs, input.2.isOrdinary = true) (sessionId peerId : String) :
    RoomManager.getPeer sessionId peerId (hubRun host db inputs).rooms =
        ((latest host sessionId peerId (SignalingHub.new db) inputs).bind fun entry ↦
          if entry.2.any (fires entry.1.socket) then none else some entry.1) ∧
      (hubRun host db inputs).sent.filter (announcesLeft sessionId peerId) =
        ((departures host sessionId peerId (SignalingHub.new db) inputs).flatMap fun hub ↦
          broadcastTo (hub.receivers sessionId none) (leftFrame sessionId peerId)) ∧
      ∀ hub ∈ departures host sessionId peerId (SignalingHub.new db) inputs,
        (hub.receivers sessionId none).Nodup := by
  have hserving : Serving (SignalingHub.new db : SignalingHub ν) := serving_new db
  refine ⟨?_, ?_, fun hub hdeparture ↦
    receivers_nodup (hserving.departures_own hordinary hdeparture) sessionId none⟩
  · refine (hserving.registered_run hordinary sessionId peerId).trans ?_
    cases latest host sessionId peerId (SignalingHub.new db) inputs with
    | none => rfl
    | some entry =>
      change survivor entry.2 (some entry.1) = if _ then _ else _
      rw [survivor, Option.filter_some]
      cases entry.2.any (fires entry.1.socket) with
      | false => rfl
      | true => rfl
  · have hsent : ∃ sent, (hubRun host db inputs).sent = [] ++ sent ∧ _ :=
      hserving.sent_run hordinary sessionId peerId
    obtain ⟨sent, hsent, hleft⟩ := hsent
    rw [← hleft, hsent, List.nil_append]

/-- The first student connects again, and then its old socket fails and closes. -/
def reconnection : List HubInput :=
  connections ++ [(3, .connection (studentSocket 4 "session" "alice")), (4, .error alice),
    (5, .close alice), (6, .close alice)]

theorem membership_run_reconnection :
    RoomManager.getPeer "session" "alice" (hubRun telemetryHost classroom reconnection).rooms =
      some (connectedPeer (studentSocket 4 "session" "alice") 3) :=
  (membership_run telemetryHost classroom reconnection (by decide) "session" "alice").1.trans
    (by decide +kernel)

end CampusMesh.Server
