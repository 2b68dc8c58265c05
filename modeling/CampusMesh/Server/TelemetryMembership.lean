import CampusMesh.Server.Registration

/-!
# Reports belong to members

Rooms and reports are two maps that are kept in step by hand: whoever is removed from a room loses
its report, and a session that ends loses its room and its reports. A heartbeat breaks this. It is
recorded for whoever sends it, and a socket still sends when its peer was registered by another one
that has closed, or when the session has ended and the closing handshake is not done.
`ReportsAsMember` is the condition that this does not happen, and under it every report is that of a
peer in the room (`telemetryOfMembers_of_reportsAsMember`).
-/

set_option autoImplicit false
set_option relaxedAutoImplicit false

namespace CampusMesh.Server

open Library Shared SignalingHub

variable {ν : Type}

/-! ### The promise -/

/-- The report of a peer of a session. -/
abbrev reportOf (hub : SignalingHub ν) (sessionId peerId : String) :
    Option (PeerTelemetryReport ν) :=
  TelemetryManager.getReport sessionId peerId hub.reports

/-- Whoever has a report is in the room. -/
def ReportsOfMembers (hub : SignalingHub ν) : Prop :=
  ∀ sessionId peerId, (reportOf hub sessionId peerId).isSome = true →
    (registered hub sessionId peerId).isSome = true

/-- All sockets of a session have closed. -/
def AllClosed (hub : SignalingHub ν) (sessionId : String) : Prop :=
  ∀ socket : Socket, socket.payload.sessionId = sessionId → hub.sockets.has socket = true →
    hub.sockets.get? socket = some .CLOSED

/-- `endSession` resolves for the session when the server is in this state. -/
def Ends (hub : SignalingHub ν) (sessionId : String) (requester : AuthTokenPayload) : Prop :=
  hub.halted = false ∧ ∃ response, (endSession sessionId requester hub).2 = .ok response

/-- In a run, whoever has a report is in the room; a session whose sockets have all closed has no
reports, nor has one that was ended. -/
def TelemetryOfMembers (host : Host ν) (db : Database) (inputs : List HubInput) : Prop :=
  ReportsOfMembers (hubRun host db inputs) ∧
    (∀ sessionId, AllClosed (hubRun host db inputs) sessionId →
      ∀ peerId, reportOf (hubRun host db inputs) sessionId peerId = none) ∧
    ∀ sessionId before now requester later,
      inputs = before ++ (now, .endSession sessionId requester) :: later →
        Ends (hubRun host db before) sessionId requester →
          ∀ peerId, reportOf (hubRun host db inputs) sessionId peerId = none

/-- A heartbeat that is recorded is that of a peer in the room. -/
def ReportsAsMember (host : Host ν) (hub : SignalingHub ν) : HubEvent → Prop
  | .message socket rawText => Listens hub socket →
      ∀ fields, receivedFrame host socket rawText = some fields →
        hasType .TELEMETRY_HEARTBEAT fields = true →
          ((host.orElse (Json.getField "payload" fields) (.object [])).asFields).isSome = true →
            (registered hub socket.payload.sessionId (peerIdOf socket.payload)).isSome = true
  | _ => True

/-! ### Steps -/

section Steps

variable {host : Host ν} {now : ℕ} {hub next : SignalingHub ν} {event : HubEvent}

theorem reportOf_departed {socket : Socket} {room : Room} (sessionId peerId : String) :
    reportOf (departed socket room hub) sessionId peerId =
      if sessionId = socket.payload.sessionId ∧ peerId = peerIdOf socket.payload then none
      else reportOf hub sessionId peerId :=
  TelemetryManager.getReport_removePeer _

theorem reportOf_reportedTo {socket : Socket} (payload : Json.Fields ν)
    (sessionId peerId : String) :
    (reportOf (reportedTo socket payload hub) sessionId peerId).isSome = true ↔
      (sessionId = socket.payload.sessionId ∧ peerId = peerIdOf socket.payload) ∨
        (reportOf hub sessionId peerId).isSome = true := by
  unfold reportOf reportedTo
  rw [TelemetryManager.getReport_updatePeerReport]
  split_ifs with hsame
  · simp [hsame]
  · simp [hsame]

/-- The report and the room lose the same peer. -/
theorem reportsOfMembers_departed {socket : Socket} {room : Room}
    {sockets : OrderedMap Socket ReadyState} (hmembers : ReportsOfMembers hub)
    (hregistered : RegisteredBy socket room hub) :
    ReportsOfMembers (departed socket room { hub with sockets := sockets }) := by
  intro sessionId peerId hreport
  rw [reportOf_departed] at hreport
  rw [registered_departed hregistered]
  split_ifs at hreport ⊢
  · exact hreport
  · exact hmembers sessionId peerId hreport

theorem HubMove.reportsOfMembers (hmove : HubMove host now hub event next)
    (hmembers : ReportsOfMembers hub) (hmember : ReportsAsMember host hub event) :
    ReportsOfMembers next := by
  cases hmove with
  | idle | expired | relayed | closing | stale => exact hmembers
  | admitted socket =>
    intro sessionId peerId hreport
    rw [registered_letIn]
    split_ifs
    · rfl
    · refine hmembers sessionId peerId ?_
      rw [letIn_spec] at hreport
      exact hreport
  | reported socket rawText fields payload sent hlistens hreceived hbeat hpayload =>
    intro sessionId peerId hreport
    rcases (reportOf_reportedTo payload sessionId peerId).mp hreport with ⟨rfl, rfl⟩ | hbefore
    · exact hmember hlistens fields hreceived hbeat (by rw [hpayload]; rfl)
    · exact hmembers sessionId peerId hbefore
  | left _ socket sockets room between metrics _ hregistered hbetween =>
    subst hbetween
    exact reportsOfMembers_departed hmembers hregistered
  | crashed _ socket sockets room between _ _ hregistered hbetween =>
    subst hbetween
    exact reportsOfMembers_departed hmembers hregistered
  | ended ended =>
    intro sessionId peerId hreport
    rw [registered_sessionEnded]
    have hgone : reportOf (sessionEnded ended hub) sessionId peerId =
        if sessionId = ended then none else reportOf hub sessionId peerId :=
      TelemetryManager.getReport_clearSession _
    rw [hgone] at hreport
    split_ifs at hreport ⊢
    · exact hreport
    · exact hmembers sessionId peerId hreport
  | reset cleared =>
    intro sessionId peerId hreport
    refine hmembers sessionId peerId ?_
    have hgone : TelemetryManager.getReport sessionId peerId
        (TelemetryManager.clearSession cleared hub.reports) =
          if sessionId = cleared then none else reportOf hub sessionId peerId :=
      TelemetryManager.getReport_clearSession _
    rw [reportOf, hgone] at hreport
    split_ifs at hreport
    · exact absurd hreport (by simp)
    · exact hreport

/-- The socket of a registered peer has not closed. -/
def PeersNotClosed (hub : SignalingHub ν) : Prop :=
  ∀ sessionId peerId peer, registered hub sessionId peerId = some peer →
    hub.sockets.get? peer.socket ≠ some .CLOSED

/-- A socket that closes is no longer that of a registered peer. -/
theorem HubMove.peersNotClosed (hmove : HubMove host now hub event next) (hown : RoomsOwn hub)
    (hopen : PeersNotClosed hub) : PeersNotClosed next := by
  have hclosing : ∀ (closing : List Socket) socket, hub.sockets.get? socket ≠ some .CLOSED →
      (closing.foldl closedIn hub.sockets).get? socket ≠ some .CLOSED := by
    intro closing socket hstate
    rw [foldl_closedIn_get?]
    split_ifs
    · decide
    · exact hstate
  have hshut : ∀ {shut socket : Socket} {sockets : OrderedMap Socket ReadyState},
      Shuts hub shut sockets event → socket ≠ shut → hub.sockets.get? socket ≠ some .CLOSED →
        sockets.get? socket ≠ some .CLOSED := by
    intro shut socket sockets hshuts hother hstate
    rw [hshuts.get?_of_ne hother]
    exact hstate
  have hdeparted : ∀ {shut : Socket} {sockets : OrderedMap Socket ReadyState} {room : Room},
      Shuts hub shut sockets event → RegisteredBy shut room hub →
        PeersNotClosed (departed shut room { hub with sockets := sockets }) := by
    intro shut sockets room hshuts hregistered sessionId peerId peer hpeer
    rw [registered_departed hregistered] at hpeer
    split_ifs at hpeer with hgone
    have hplace := hown sessionId peerId peer hpeer
    refine hshut hshuts (fun hsame ↦ hgone ?_) (hopen sessionId peerId peer hpeer)
    rw [← hsame]
    exact ⟨hplace.1.symm, hplace.2.1.symm⟩
  cases hmove with
  | idle | expired | reported | relayed | reset => exact hopen
  | admitted socket session hfresh =>
    intro sessionId peerId peer hpeer
    rw [registered_letIn] at hpeer
    rw [letIn_spec]
    change (hub.sockets.set socket .OPEN).get? peer.socket ≠ _
    by_cases hsame : peer.socket = socket
    · rw [hsame, OrderedMap.get?_set_self]
      decide
    · rw [OrderedMap.get?_set_of_ne _ hsame]
      split_ifs at hpeer with hnew
      · obtain rfl := Option.some.inj hpeer
        exact absurd rfl hsame
      · exact hopen sessionId peerId peer hpeer
  | closing shut =>
    exact fun sessionId peerId peer hpeer ↦ hclosing [shut] peer.socket
      (hopen sessionId peerId peer hpeer)
  | stale _ shut sockets hshuts hstale =>
    intro sessionId peerId peer hpeer
    refine hshut hshuts (fun hsame ↦ ?_) (hopen sessionId peerId peer hpeer)
    obtain ⟨hsession, hid, _⟩ := hown sessionId peerId peer hpeer
    rw [hsame] at hsession hid
    subst hsession hid
    obtain ⟨room, hroom, hfound⟩ := Option.bind_eq_some_iff.mp hpeer
    exact hstale room ⟨hroom, peer, hfound, hsame⟩
  | left _ shut sockets room between metrics hshuts hregistered hbetween =>
    subst hbetween
    exact hdeparted hshuts hregistered
  | crashed _ shut sockets room between _ hshuts hregistered hbetween =>
    subst hbetween
    exact hdeparted hshuts hregistered
  | ended ended =>
    intro sessionId peerId peer hpeer
    rw [registered_sessionEnded] at hpeer
    split_ifs at hpeer
    exact hclosing _ peer.socket (hopen sessionId peerId peer hpeer)

/-- The session is inactive and nobody is in its room. -/
def Evicted (hub : SignalingHub ν) (sessionId : String) : Prop :=
  (∃ row, SessionRepository.findById sessionId hub.db = some row ∧ row.isActive = false) ∧
    ∀ peerId, registered hub sessionId peerId = none

/-- The row of a session after another one, or itself, was deactivated. -/
theorem inactive_deactivate {db : Database} {sessionId : String} {row : SessionRow}
    (hrow : SessionRepository.findById sessionId db = some row) (hinactive : row.isActive = false)
    (id : String) : ∃ row, SessionRepository.findById sessionId
      (SessionRepository.deactivate id db) = some row ∧ row.isActive = false := by
  rw [SessionRepository.findById_deactivate]
  split_ifs with hsame
  · rw [← hsame, hrow]
    exact ⟨_, rfl, rfl⟩
  · exact ⟨row, hrow, hinactive⟩

/-- Nobody comes back to a session that was ended. -/
theorem HubMove.evicted (hmove : HubMove host now hub event next) {sessionId : String}
    (hevicted : Evicted hub sessionId) : Evicted next sessionId := by
  obtain ⟨⟨row, hrow, hinactive⟩, hempty⟩ := hevicted
  constructor
  · cases hmove with
    | idle | reported | relayed | closing | stale | reset => exact ⟨row, hrow, hinactive⟩
    | expired _ session => exact inactive_deactivate hrow hinactive session.id
    | admitted =>
      rw [letIn_spec]
      exact ⟨row, hrow, hinactive⟩
    | left _ _ _ _ between _ _ _ hbetween =>
      subst hbetween
      exact ⟨row, hrow, hinactive⟩
    | crashed _ _ _ _ between _ _ _ hbetween =>
      subst hbetween
      exact ⟨row, hrow, hinactive⟩
    | ended ended => exact inactive_deactivate hrow hinactive ended
  · intro peerId
    refine Option.eq_none_iff_forall_ne_some.mpr fun peer hpeer ↦ ?_
    rcases hmove.registered_cases hpeer with
      hbefore | ⟨socket, _, _, ⟨session, hfound, hactive⟩, rfl, _⟩
    · rw [hempty] at hbefore
      simp at hbefore
    · rw [hrow] at hfound
      rw [← Option.some.inj hfound, hinactive] at hactive
      exact Bool.false_ne_true hactive

/-- A session that was ended is evicted. -/
theorem evicted_sessionEnded {sessionId : String}
    (hfound : (SessionRepository.findById sessionId hub.db).isSome = true) :
    Evicted (sessionEnded sessionId hub) sessionId := by
  obtain ⟨row, hrow⟩ := Option.isSome_iff_exists.mp hfound
  refine ⟨⟨{ row with isActive := false }, ?_, rfl⟩, fun peerId ↦ ?_⟩
  · refine (SessionRepository.findById_deactivate sessionId sessionId hub.db).trans ?_
    rw [if_pos rfl, hrow]
    rfl
  · rw [registered_sessionEnded, if_pos rfl]

end Steps

/-! ### Runs -/

section Runs

variable {host : Host ν} {db : Database}

/-- After an `endSession` that resolves nobody is in the room of the session any more. -/
theorem evicted_of_ends {sessionId : String} {before later : List HubInput} {now : ℕ}
    {requester : AuthTokenPayload} (hends : Ends (hubRun host db before) sessionId requester) :
    Evicted (hubRun host db (before ++ (now, .endSession sessionId requester) :: later))
      sessionId := by
  obtain ⟨hruns, response, hok⟩ := hends
  have hstep : Evicted (hubStep host (hubRun host db before)
      (now, .endSession sessionId requester)) sessionId := by
    rw [hubStep, if_neg (by rw [hruns]; exact Bool.false_ne_true)]
    rcases endSession_cases sessionId requester (hubRun host db before) with
      ⟨error, hdenied⟩ | ⟨_, _, hfound, hended⟩
    · rw [hdenied] at hok
      simp at hok
    · rw [handleEvent, hended]
      exact evicted_sessionEnded hfound
  rw [hubRun, run_append, run_cons]
  exact run_invariant_of_step (Evicted · sessionId)
    (fun hub input hevicted ↦ (hubStep_move host hub input).evicted hevicted) hstep later

/-- What holds of the sockets of registered peers between two steps. -/
structure Seated (hub : SignalingHub ν) : Prop where
  own : RoomsOwn hub
  known : SocketsKnown hub
  notClosed : PeersNotClosed hub

theorem seated_run (host : Host ν) (db : Database) (inputs : List HubInput) :
    Seated (hubRun host db inputs) := by
  refine run_invariant_of_step Seated (fun hub input hseated ↦ ?_) ?_ inputs
  · have hmove := hubStep_move host hub input
    exact ⟨hmove.roomsOwn hseated.own, hmove.socketsKnown hseated.known,
      hmove.peersNotClosed hseated.own hseated.notClosed⟩
  · refine ⟨roomsOwn_new db, socketsKnown_new db, fun sessionId peerId peer hpeer ↦ ?_⟩
    simp [registered, RoomManager.getPeer, SignalingHub.new] at hpeer

/-- Nobody is in a room of which all sockets have closed. -/
theorem Seated.empty_of_allClosed {hub : SignalingHub ν} (hseated : Seated hub) {sessionId : String}
    (hclosed : AllClosed hub sessionId) (peerId : String) :
    registered hub sessionId peerId = none := by
  refine Option.eq_none_iff_forall_ne_some.mpr fun peer hpeer ↦ ?_
  exact hseated.notClosed sessionId peerId peer hpeer
    (hclosed peer.socket (hseated.own sessionId peerId peer hpeer).1
      (hseated.known.registered sessionId peerId peer hpeer))

/-- **Telemetry does not outlive membership** in any run in which every heartbeat that is recorded
is that of a peer in its room. -/
theorem telemetryOfMembers_of_reportsAsMember (host : Host ν) (db : Database)
    (inputs : List HubInput)
    (hmember : Along (hubStep host) (fun hub input ↦ ReportsAsMember host hub input.2)
      (SignalingHub.new db) inputs) : TelemetryOfMembers host db inputs := by
  have hmembers : ReportsOfMembers (hubRun host db inputs) := by
    refine run_invariant ReportsOfMembers (fun hub input hinv hinput ↦
      (hubStep_move host hub input).reportsOfMembers hinv hinput) ?_ hmember
    intro sessionId peerId hreport
    simp [TelemetryManager.getReport, SignalingHub.new] at hreport
  have hnone : ∀ sessionId, (∀ peerId, registered (hubRun host db inputs) sessionId peerId = none) →
      ∀ peerId, reportOf (hubRun host db inputs) sessionId peerId = none := by
    intro sessionId hempty peerId
    rw [← Option.not_isSome_iff_eq_none]
    intro hreport
    have hpeer := hmembers sessionId peerId hreport
    rw [hempty] at hpeer
    exact Bool.false_ne_true hpeer
  refine ⟨hmembers, fun sessionId hclosed ↦ hnone sessionId ?_, ?_⟩
  · exact (seated_run host db inputs).empty_of_allClosed hclosed
  · rintro sessionId before now requester later rfl hends
    exact hnone sessionId (evicted_of_ends hends).2

end Runs

/-- A second socket with the token of the first student. -/
def aliceAgain : Socket := studentSocket 4 "session" "alice"

/-- The student connects twice, and the later connection closes. -/
def supersededRun : List HubInput :=
  [(1, .connection alice), (2, .connection aliceAgain), (3, .close aliceAgain)]

/-- A student reports while it is in the room, and then leaves. -/
theorem telemetryOfMembers_of_reportsAsMember_leaving :
    TelemetryOfMembers telemetryHost classroom
      [(1, .connection alice), (2, .message alice heartbeat), (3, .close alice)] := by
  refine telemetryOfMembers_of_reportsAsMember telemetryHost classroom _
    ⟨trivial, fun _ _ _ _ _ ↦ ?_, trivial, trivial⟩
  decide +kernel

/-- The first socket is still open, and its heartbeat is recorded for a peer that is not in the
room. -/
theorem supersededRun_not_telemetryOfMembers :
    ¬ TelemetryOfMembers telemetryHost classroom
      (supersededRun ++ [(4, .message alice heartbeat)]) := by
  intro hmembers
  have hpeer := hmembers.1 "session" "alice" (by decide +kernel)
  revert hpeer
  decide +kernel

end CampusMesh.Server
