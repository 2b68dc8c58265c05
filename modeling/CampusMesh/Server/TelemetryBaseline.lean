import CampusMesh.Server.HubEffects
import CampusMesh.Web.P2PTelemetry
import Mathlib.Algebra.BigOperators.Group.Finset.Basic
import Mathlib.Algebra.BigOperators.Group.Finset.Piecewise
import Mathlib.Algebra.Order.BigOperators.Group.List

/-!
# The baseline of the telemetry

The counters of the transferred bytes live in every client and are sent as they stand; a reset
clears only the reports that the server has. So the next heartbeat of a client brings back what it
had received before. The steps of a swarm on the reports are those of the hub
(`HubMove.reports_cases`). The totals after a reset count from the reset on exactly when there is
nothing to report at the reset (`freshBaseline_iff`): no client of the session has received bytes
since it started its download, and no heartbeat under way says otherwise. The invariant compares
what each client has counted, has sent and has had recorded with what its peer verified after the
reset.
-/

set_option autoImplicit false
set_option relaxedAutoImplicit false

namespace CampusMesh.Server

open Library Web

/-! ### The swarm -/

/-- A page of a student, with the identity that its token gives it. -/
structure Client where
  sessionId : String
  peerId : String
  displayName : String
  page : ℕ
  deriving DecidableEq

/-- The telemetry of a page, with its heartbeats under way, oldest first. -/
structure Reporter (ν : Type) where
  telemetry : P2PTelemetry
  underway : List (HeartbeatReport ν)

/-- The pages of the students and the reports that the server has. -/
structure Swarm (ν : Type) where
  clients : Client → Reporter ν
  reports : Reports ν

/-- What can happen to the telemetry of the students and of the server. -/
inductive SwarmEvent
  | startSession (client : Client) (resourceId : String) (now : ℕ)
  | chunkReceived (client : Client) (fromP2P : Bool) (byteLength latencyMs : ℕ)
  | bytesUploaded (client : Client) (byteLength : ℕ)
  /-- A heartbeat is sent. -/
  | heartbeat (client : Client) (activeResourceId : Option String)
      (connectedPeersCount progressPercent now : ℕ)
  /-- The server gets the oldest heartbeat that is under way. -/
  | arrives (client : Client)
  /-- The connection of a page is lost, with its heartbeats. -/
  | lost (client : Client)
  /-- A peer leaves its room. -/
  | left (sessionId peerId : String)
  /-- The reports of a session are cleared, by its end or by a reset. -/
  | cleared (sessionId : String)

namespace Swarm

variable {ν : Type}

/-- Before anything has happened. -/
def new : Swarm ν := ⟨fun _ ↦ ⟨P2PTelemetry.new, []⟩, OrderedMap.empty⟩

/-- Changes what a client has. -/
def modify (client : Client) (change : Reporter ν → Reporter ν) (swarm : Swarm ν) : Swarm ν :=
  { swarm with clients := Function.update swarm.clients client (change (swarm.clients client)) }

theorem modify_clients (client other : Client) (change : Reporter ν → Reporter ν)
    (swarm : Swarm ν) :
    (swarm.modify client change).clients other =
      if other = client then change (swarm.clients client) else swarm.clients other :=
  Function.update_apply _ _ _ _

/-- Changes the telemetry of a client. -/
def modifyTelemetry (client : Client) (change : P2PTelemetry → P2PTelemetry) (swarm : Swarm ν) :
    Swarm ν :=
  swarm.modify client fun reporter ↦ { reporter with telemetry := change reporter.telemetry }

/-- The reports of a session are cleared. -/
def clear (sessionId : String) (swarm : Swarm ν) : Swarm ν :=
  { swarm with reports := TelemetryManager.clearSession sessionId swarm.reports }

end Swarm

/-- What the server records of a heartbeat, under the identity of the token. -/
def recorded {ν : Type} (host : Host ν) (client : Client) (report : HeartbeatReport ν) :
    PeerTelemetryReport ν :=
  Json.setField "displayName" (.string client.displayName)
    (Json.setField "peerId" (.string client.peerId) (report.fields host))

section Steps

variable {ν : Type} (host : Host ν)

/-- One step of the swarm. -/
def swarmStep (swarm : Swarm ν) : SwarmEvent → Swarm ν
  | .startSession client resourceId now =>
    swarm.modifyTelemetry client (P2PTelemetry.startSession resourceId now)
  | .chunkReceived client fromP2P byteLength latencyMs =>
    swarm.modifyTelemetry client (P2PTelemetry.recordChunkReceived fromP2P byteLength latencyMs)
  | .bytesUploaded client byteLength =>
    swarm.modifyTelemetry client (P2PTelemetry.recordBytesUploaded byteLength)
  | .heartbeat client activeResourceId connectedPeersCount progressPercent now =>
    swarm.modify client fun reporter ↦
      { reporter with
        underway := reporter.underway ++ [getHeartbeatReport host client.peerId client.displayName
          activeResourceId connectedPeersCount progressPercent now reporter.telemetry] }
  | .arrives client =>
    match (swarm.clients client).underway with
    | [] => swarm
    | report :: rest =>
      { swarm.modify client fun reporter ↦ { reporter with underway := rest } with
        reports := TelemetryManager.updatePeerReport client.sessionId client.peerId
          (recorded host client report) swarm.reports }
  | .lost client => swarm.modify client fun reporter ↦ { reporter with underway := [] }
  | .left sessionId peerId =>
    { swarm with reports := TelemetryManager.removePeer sessionId peerId swarm.reports }
  | .cleared sessionId => swarm.clear sessionId

/-- The run of a swarm. -/
def swarmRun (swarm : Swarm ν) (events : List SwarmEvent) : Swarm ν :=
  run (swarmStep host) swarm events

end Steps

/-- **What the hub does to the reports.** A heartbeat is recorded, a peer is removed, or a session
is cleared; every other event leaves them alone. -/
theorem HubMove.reports_cases {ν : Type} {host : Host ν} {now : ℕ} {hub next : SignalingHub ν}
    {event : HubEvent} (hmove : HubMove host now hub event next) :
    next.reports = hub.reports ∨
      (∃ socket payload, next.reports = (reportedTo socket payload hub).reports) ∨
      (∃ sessionId peerId,
        next.reports = TelemetryManager.removePeer sessionId peerId hub.reports) ∨
      ∃ sessionId, next.reports = TelemetryManager.clearSession sessionId hub.reports := by
  cases hmove with
  | idle | expired | relayed | closing | stale => exact .inl rfl
  | admitted =>
    rw [letIn_spec]
    exact .inl rfl
  | reported socket rawText fields payload => exact .inr (.inl ⟨socket, payload, rfl⟩)
  | left _ socket sockets room between metrics hshuts hregistered hbetween =>
    subst hbetween
    exact .inr (.inr (.inl ⟨_, _, rfl⟩))
  | crashed _ socket sockets room between _ hshuts hregistered hbetween =>
    subst hbetween
    exact .inr (.inr (.inl ⟨_, _, rfl⟩))
  | ended sessionId => exact .inr (.inr (.inr ⟨sessionId, rfl⟩))
  | reset sessionId => exact .inr (.inr (.inr ⟨sessionId, rfl⟩))

/-! ### The promise -/

/-- The bytes of one of the two sources that the given clients verify in an event. -/
def verifiedIn (counts : Client → Bool) (fromP2P : Bool) : SwarmEvent → ℕ
  | .chunkReceived client received byteLength _ =>
    if counts client ∧ received = fromP2P then byteLength else 0
  | _ => 0

/-- The bytes that they verify in a list of events. -/
def verifiedBytes (counts : Client → Bool) (fromP2P : Bool) (events : List SwarmEvent) : ℕ :=
  (events.map (verifiedIn counts fromP2P)).sum

/-- The clients of a session. -/
def ofSession (sessionId : String) (client : Client) : Bool := client.sessionId = sessionId

/-- The clients of a peer of a session. -/
def ofPeer (sessionId peerId : String) (client : Client) : Bool :=
  client.sessionId = sessionId ∧ client.peerId = peerId

section Promise

variable (table : List (String × Json Rat)) (sessionId : String) (swarm : Swarm Rat)

/-- After a reset of a session, in every state that is reached, the totals are at most what its
peers have verified since. -/
def FreshBaseline : Prop :=
  ∀ later now rooms, ∃ metrics totalP2P totalServer,
    TelemetryManager.getMetrics (tableHost table) sessionId now rooms
        (swarmRun (tableHost table) (swarm.clear sessionId) later).reports = some metrics ∧
      metrics.totalBytesP2P = (tableHost table).natural totalP2P ∧
      metrics.totalBytesServer = (tableHost table).natural totalServer ∧
      totalP2P ≤ verifiedBytes (ofSession sessionId) true later ∧
      totalServer ≤ verifiedBytes (ofSession sessionId) false later

/-- No client of the session has received bytes since it started its download, and no heartbeat of
it that is under way reports any. -/
def NothingToReport : Prop :=
  ∀ client, client.sessionId = sessionId → ∀ fromP2P,
    (swarm.clients client).telemetry.bytesReceived fromP2P = 0 ∧
      ∀ report ∈ (swarm.clients client).underway, report.downloadedBytes fromP2P = 0

end Promise

/-! ### Verified bytes -/

section Verified

variable (sessionId : String) (fromP2P : Bool)

@[simp] theorem verifiedBytes_nil (counts : Client → Bool) :
    verifiedBytes counts fromP2P [] = 0 := rfl

theorem verifiedBytes_cons (counts : Client → Bool) (event : SwarmEvent) (rest : List SwarmEvent) :
    verifiedBytes counts fromP2P (event :: rest) =
      verifiedIn counts fromP2P event + verifiedBytes counts fromP2P rest := List.sum_cons

/-- A client belongs to one peer. -/
theorem sum_verifiedIn_le (peers : Finset String) (event : SwarmEvent) :
    ∑ peerId ∈ peers, verifiedIn (ofPeer sessionId peerId) fromP2P event ≤
      verifiedIn (ofSession sessionId) fromP2P event := by
  cases event with
  | chunkReceived client received byteLength latencyMs =>
    by_cases hcounts : client.sessionId = sessionId ∧ received = fromP2P
    · have hpeer : ∀ peerId, verifiedIn (ofPeer sessionId peerId) fromP2P
          (.chunkReceived client received byteLength latencyMs) =
            if client.peerId = peerId then byteLength else 0 := by
        intro peerId
        simp [verifiedIn, ofPeer, hcounts]
      have hsession : verifiedIn (ofSession sessionId) fromP2P
          (.chunkReceived client received byteLength latencyMs) = byteLength := by
        simp [verifiedIn, ofSession, hcounts]
      rw [Finset.sum_congr rfl fun peerId _ ↦ hpeer peerId, Finset.sum_ite_eq, hsession]
      split_ifs
      · exact le_rfl
      · exact Nat.zero_le _
    · rw [Finset.sum_eq_zero fun peerId _ ↦ ?_]
      · exact Nat.zero_le _
      · refine if_neg fun hpeer ↦ hcounts ⟨?_, hpeer.2⟩
        exact (of_decide_eq_true hpeer.1).1
  | _ => simp [verifiedIn]

/-- What the peers of a session verify is at most what the session verifies. -/
theorem sum_verifiedBytes_le (peers : Finset String) (events : List SwarmEvent) :
    ∑ peerId ∈ peers, verifiedBytes (ofPeer sessionId peerId) fromP2P events ≤
      verifiedBytes (ofSession sessionId) fromP2P events := by
  induction events with
  | nil => simp
  | cons event rest ih =>
    simp only [verifiedBytes_cons, Finset.sum_add_distrib]
    exact Nat.add_le_add (sum_verifiedIn_le sessionId fromP2P peers event) ih

end Verified

/-! ### Totals -/

section Totals

variable {table : List (String × Json Rat)}

theorem addCounter_natural {key : String} {report : PeerTelemetryReport Rat} {count : ℕ}
    (hfield : Json.getField key report = some ((tableHost table).natural count)) (total : ℕ) :
    TelemetryManager.addCounter (tableHost table) key report ((tableHost table).natural total) =
      some ((tableHost table).natural (total + count)) := by
  have hcounter : (tableHost table).orElse (some ((tableHost table).natural count))
      ((tableHost table).natural 0) = (tableHost table).natural count := by
    unfold Host.orElse
    by_cases hzero : count = 0
    · subst hzero
      split_ifs <;> rfl
    · rw [if_pos]
      · rfl
      · simp [Host.truthy, Host.natural, tableHost, hzero]
  rw [TelemetryManager.addCounter, hfield, hcounter]
  simp [Host.natural, tableHost]

/-- The server adds what a heartbeat reports. -/
theorem addReport_recorded (client : Client) (report : HeartbeatReport Rat)
    (totalP2P totalServer channels : ℕ) :
    TelemetryManager.addReport (tableHost table)
        ⟨(tableHost table).natural totalP2P, (tableHost table).natural totalServer,
          (tableHost table).natural channels⟩ (recorded (tableHost table) client report) =
      some ⟨(tableHost table).natural (totalP2P + report.downloadedBytes true),
        (tableHost table).natural (totalServer + report.downloadedBytes false),
        (tableHost table).natural (channels + report.connectedPeersCount)⟩ := by
  have hfield : ∀ key, key ≠ "displayName" → key ≠ "peerId" →
      Json.getField key (recorded (tableHost table) client report) =
        Json.getField key (report.fields (tableHost table)) := fun key hname hpeer ↦ by
    rw [recorded, getField_setField_of_ne hname, getField_setField_of_ne hpeer]
  rw [TelemetryManager.addReport,
    addCounter_natural (hfield "downloadedBytesP2P" (by decide) (by decide)),
    Option.bind_eq_bind, Option.bind_some,
    addCounter_natural (hfield "downloadedBytesServer" (by decide) (by decide)), Option.bind_some,
    addCounter_natural (hfield "connectedPeersCount" (by decide) (by decide))]
  rfl

/-- Reports under bounds of their peers have totals under the sum of the bounds. -/
theorem foldlM_addReport_le {bounds : String → Bool → ℕ}
    {entries : List (String × PeerTelemetryReport Rat)}
    (hbounded : ∀ entry ∈ entries, ∃ client report,
      entry.2 = recorded (tableHost table) client report ∧
        ∀ fromP2P, report.downloadedBytes fromP2P ≤ bounds entry.1 fromP2P)
    (totalP2P totalServer channels : ℕ) :
    ∃ moreP2P moreServer reached,
      (entries.map Prod.snd).foldlM (TelemetryManager.addReport (tableHost table))
          ⟨(tableHost table).natural totalP2P, (tableHost table).natural totalServer,
            (tableHost table).natural channels⟩ =
        some ⟨(tableHost table).natural (totalP2P + moreP2P),
          (tableHost table).natural (totalServer + moreServer), (tableHost table).natural reached⟩ ∧
      moreP2P ≤ (entries.map fun entry ↦ bounds entry.1 true).sum ∧
      moreServer ≤ (entries.map fun entry ↦ bounds entry.1 false).sum := by
  induction entries generalizing totalP2P totalServer channels with
  | nil => exact ⟨0, 0, channels, rfl, le_rfl, le_rfl⟩
  | cons entry rest ih =>
    obtain ⟨client, report, hreport, hbound⟩ := hbounded entry List.mem_cons_self
    obtain ⟨moreP2P, moreServer, reached, htotals, hP2P, hServer⟩ :=
      ih (fun other hother ↦ hbounded other (List.mem_cons_of_mem entry hother))
        (totalP2P + report.downloadedBytes true) (totalServer + report.downloadedBytes false)
        (channels + report.connectedPeersCount)
    refine ⟨report.downloadedBytes true + moreP2P,
      report.downloadedBytes false + moreServer, reached, ?_, ?_, ?_⟩
    · rw [List.map_cons, List.foldlM_cons, hreport, addReport_recorded, Option.bind_eq_bind,
        Option.bind_some, htotals, Nat.add_assoc, Nat.add_assoc]
    · rw [List.map_cons, List.sum_cons]
      exact Nat.add_le_add (hbound true) hP2P
    · rw [List.map_cons, List.sum_cons]
      exact Nat.add_le_add (hbound false) hServer

/-- The metrics have the totals that are added up. -/
theorem getMetrics_of_totals {ν : Type} {host : Host ν} {sessionId : String} {reports : Reports ν}
    {totalP2P totalServer channels : ℕ}
    (htotals : (TelemetryManager.peerReports sessionId reports).foldlM
      (TelemetryManager.addReport host) ⟨host.natural 0, host.natural 0, host.natural 0⟩ =
        some ⟨host.natural totalP2P, host.natural totalServer, host.natural channels⟩)
    (now : ℕ) (rooms : Rooms) :
    ∃ metrics, TelemetryManager.getMetrics host sessionId now rooms reports = some metrics ∧
      metrics.totalBytesP2P = host.natural totalP2P ∧
        metrics.totalBytesServer = host.natural totalServer := by
  rw [TelemetryManager.getMetrics, TelemetryManager.sumReports_of_totals htotals]
  exact ⟨_, rfl, rfl, rfl⟩

end Totals

/-! ### What clients may have counted -/

section Accounts

variable {ν : Type} {host : Host ν} {sessionId : String} {bounds more : String → Bool → ℕ}
  {swarm : Swarm ν}

/-- What the clients of a session have counted, what their heartbeats report and what the server has
recorded of them is under bounds of their peers. -/
structure Accounted (host : Host ν) (sessionId : String) (bounds : String → Bool → ℕ)
    (swarm : Swarm ν) : Prop where
  received : ∀ client, client.sessionId = sessionId → ∀ fromP2P,
    (swarm.clients client).telemetry.bytesReceived fromP2P ≤ bounds client.peerId fromP2P
  underway : ∀ client, client.sessionId = sessionId →
    ∀ report ∈ (swarm.clients client).underway, ∀ fromP2P,
      report.downloadedBytes fromP2P ≤ bounds client.peerId fromP2P
  reports : ∀ peerId stored, TelemetryManager.getReport sessionId peerId swarm.reports =
    some stored → ∃ client report, stored = recorded host client report ∧
      ∀ fromP2P, report.downloadedBytes fromP2P ≤ bounds peerId fromP2P

theorem Accounted.mono (haccounted : Accounted host sessionId bounds swarm)
    (hmore : ∀ peerId fromP2P, bounds peerId fromP2P ≤ more peerId fromP2P) :
    Accounted host sessionId more swarm where
  received client hclient fromP2P := (haccounted.received client hclient fromP2P).trans (hmore _ _)
  underway client hclient report hmem fromP2P :=
    (haccounted.underway client hclient report hmem fromP2P).trans (hmore _ _)
  reports peerId stored hstored := by
    obtain ⟨client, report, heq, hbound⟩ := haccounted.reports peerId stored hstored
    exact ⟨client, report, heq, fun fromP2P ↦ (hbound fromP2P).trans (hmore _ _)⟩

/-- A client that changes stays accounted for by itself. -/
theorem Accounted.modify (haccounted : Accounted host sessionId bounds swarm) {client : Client}
    {change : Reporter ν → Reporter ν}
    (hreceived : client.sessionId = sessionId → ∀ fromP2P,
      (change (swarm.clients client)).telemetry.bytesReceived fromP2P ≤
        bounds client.peerId fromP2P)
    (hunderway : client.sessionId = sessionId →
      ∀ report ∈ (change (swarm.clients client)).underway, ∀ fromP2P,
        report.downloadedBytes fromP2P ≤ bounds client.peerId fromP2P) :
    Accounted host sessionId bounds (swarm.modify client change) where
  received other hother := by
    rw [Swarm.modify_clients]
    split_ifs with hsame
    · rw [hsame] at hother ⊢
      exact hreceived hother
    · exact haccounted.received other hother
  underway other hother := by
    rw [Swarm.modify_clients]
    split_ifs with hsame
    · rw [hsame] at hother ⊢
      exact hunderway hother
    · exact haccounted.underway other hother
  reports := haccounted.reports

theorem Accounted.modifyTelemetry (haccounted : Accounted host sessionId bounds swarm)
    {client : Client} {change : P2PTelemetry → P2PTelemetry}
    (hreceived : client.sessionId = sessionId → ∀ fromP2P,
      (change (swarm.clients client).telemetry).bytesReceived fromP2P ≤
        bounds client.peerId fromP2P) :
    Accounted host sessionId bounds (swarm.modifyTelemetry client change) :=
  haccounted.modify hreceived fun hclient ↦ haccounted.underway client hclient

/-- Reports that go leave the others accounted for. -/
theorem Accounted.drop (haccounted : Accounted host sessionId bounds swarm) {reports : Reports ν}
    (hkept : ∀ peerId stored, TelemetryManager.getReport sessionId peerId reports = some stored →
      TelemetryManager.getReport sessionId peerId swarm.reports = some stored) :
    Accounted host sessionId bounds { swarm with reports := reports } where
  received := haccounted.received
  underway := haccounted.underway
  reports peerId stored hstored := haccounted.reports peerId stored (hkept peerId stored hstored)

/-- The server records the oldest heartbeat of a client. -/
theorem Accounted.arrive (haccounted : Accounted host sessionId bounds swarm) {client : Client}
    {report : HeartbeatReport ν} {rest : List (HeartbeatReport ν)}
    (hunderway : (swarm.clients client).underway = report :: rest) :
    Accounted host sessionId bounds
      { swarm.modify client fun reporter ↦ { reporter with underway := rest } with
        reports := TelemetryManager.updatePeerReport client.sessionId client.peerId
          (recorded host client report) swarm.reports } := by
  have hsent : client.sessionId = sessionId → ∀ other ∈ report :: rest, ∀ fromP2P,
      other.downloadedBytes fromP2P ≤ bounds client.peerId fromP2P := fun hclient other hmem ↦
    haccounted.underway client hclient other (hunderway ▸ hmem)
  have hmodified : Accounted host sessionId bounds
      (swarm.modify client fun reporter ↦ { reporter with underway := rest }) :=
    haccounted.modify (fun hclient ↦ haccounted.received client hclient)
      fun hclient other hmem ↦ hsent hclient other (List.mem_cons_of_mem report hmem)
  refine ⟨hmodified.received, hmodified.underway, fun peerId stored hstored ↦ ?_⟩
  rw [TelemetryManager.getReport_updatePeerReport] at hstored
  split_ifs at hstored with hown
  · obtain ⟨hsession, rfl⟩ := hown
    exact ⟨client, report, (Option.some.inj hstored).symm,
      hsent hsession.symm report List.mem_cons_self⟩
  · exact haccounted.reports peerId stored hstored

/-- **A step.** What a peer verifies in it is allowed for. -/
theorem swarmStep_accounted (haccounted : Accounted host sessionId bounds swarm)
    (event : SwarmEvent) :
    Accounted host sessionId
      (fun peerId fromP2P ↦
        bounds peerId fromP2P + verifiedIn (ofPeer sessionId peerId) fromP2P event)
      (swarmStep host swarm event) := by
  have hmore := haccounted.mono (fun peerId fromP2P ↦ Nat.le_add_right (bounds peerId fromP2P)
    (verifiedIn (ofPeer sessionId peerId) fromP2P event))
  cases event with
  | startSession client resourceId now =>
    refine hmore.modifyTelemetry fun _ fromP2P ↦ ?_
    rw [P2PTelemetry.bytesReceived_startSession]
    exact Nat.zero_le _
  | chunkReceived client received byteLength latencyMs =>
    refine hmore.modifyTelemetry fun hclient fromP2P ↦ ?_
    simp only [P2PTelemetry.bytesReceived_recordChunkReceived, verifiedIn, ofPeer, hclient,
      decide_true, and_self, true_and]
    exact Nat.add_le_add_right (haccounted.received client hclient fromP2P) _
  | bytesUploaded client byteLength =>
    refine hmore.modifyTelemetry fun hclient fromP2P ↦ ?_
    rw [P2PTelemetry.bytesReceived_recordBytesUploaded]
    exact hmore.received client hclient fromP2P
  | heartbeat client activeResourceId connectedPeersCount progressPercent now =>
    simp only [swarmStep]
    refine hmore.modify (fun hclient ↦ hmore.received client hclient)
      fun hclient report hmem fromP2P ↦ ?_
    rcases List.mem_append.mp hmem with hbefore | hnew
    · exact hmore.underway client hclient report hbefore fromP2P
    · rw [List.mem_singleton.mp hnew, downloadedBytes_getHeartbeatReport]
      exact hmore.received client hclient fromP2P
  | arrives client =>
    simp only [swarmStep]
    split
    · exact hmore
    · next hunderway => exact hmore.arrive hunderway
  | lost client =>
    simp only [swarmStep]
    exact hmore.modify (fun hclient ↦ hmore.received client hclient) fun _ _ hmem ↦ by simp at hmem
  | left leftSession leftPeer =>
    refine hmore.drop fun peerId stored hstored ↦ ?_
    rw [TelemetryManager.getReport_removePeer] at hstored
    split_ifs at hstored
    exact hstored
  | cleared clearedSession =>
    refine hmore.drop fun peerId stored hstored ↦ ?_
    rw [TelemetryManager.getReport_clearSession] at hstored
    split_ifs at hstored
    exact hstored

/-- A run: all that the peers verify in it is allowed for. -/
theorem swarmRun_accounted (haccounted : Accounted host sessionId bounds swarm)
    (events : List SwarmEvent) :
    Accounted host sessionId
      (fun peerId fromP2P ↦
        bounds peerId fromP2P + verifiedBytes (ofPeer sessionId peerId) fromP2P events)
      (swarmRun host swarm events) := by
  induction events generalizing swarm bounds with
  | nil => exact haccounted
  | cons event rest ih =>
    refine (ih (swarmStep_accounted haccounted event)).mono fun peerId fromP2P ↦ ?_
    rw [verifiedBytes_cons, Nat.add_assoc]

end Accounts

/-! ### Resets -/

section Resets

variable {table : List (String × Json Rat)} {sessionId : String} {swarm : Swarm Rat}

/-- The totals of reports that are accounted for. -/
theorem Accounted.totals {later : List SwarmEvent}
    (haccounted : Accounted (tableHost table) sessionId
      (fun peerId fromP2P ↦ verifiedBytes (ofPeer sessionId peerId) fromP2P later) swarm) :
    ∃ totalP2P totalServer channels,
      (TelemetryManager.peerReports sessionId swarm.reports).foldlM
          (TelemetryManager.addReport (tableHost table)) ⟨(tableHost table).natural 0,
            (tableHost table).natural 0, (tableHost table).natural 0⟩ =
        some ⟨(tableHost table).natural totalP2P, (tableHost table).natural totalServer,
          (tableHost table).natural channels⟩ ∧
      totalP2P ≤ verifiedBytes (ofSession sessionId) true later ∧
      totalServer ≤ verifiedBytes (ofSession sessionId) false later := by
  unfold TelemetryManager.peerReports
  cases hsession : swarm.reports.get? sessionId with
  | none => exact ⟨0, 0, 0, rfl, Nat.zero_le _, Nat.zero_le _⟩
  | some sessionMap =>
    have hbounded : ∀ entry ∈ sessionMap.entries, ∃ client report,
        entry.2 = recorded (tableHost table) client report ∧ ∀ fromP2P,
          report.downloadedBytes fromP2P ≤
            verifiedBytes (ofPeer sessionId entry.1) fromP2P later := by
      intro entry hmem
      refine haccounted.reports entry.1 entry.2 ?_
      rw [TelemetryManager.getReport, hsession, Option.bind_some]
      exact OrderedMap.mem_entries_iff.mp hmem
    have hsum : ∀ fromP2P, (sessionMap.entries.map fun entry ↦
        verifiedBytes (ofPeer sessionId entry.1) fromP2P later).sum ≤
          verifiedBytes (ofSession sessionId) fromP2P later := by
      intro fromP2P
      refine le_trans (le_of_eq ?_)
        (sum_verifiedBytes_le sessionId fromP2P sessionMap.keys.toFinset later)
      rw [OrderedMap.keys, List.sum_toFinset _ sessionMap.nodup_keys, List.map_map]
      rfl
    obtain ⟨totalP2P, totalServer, channels, htotals, hP2P, hServer⟩ := @foldlM_addReport_le table
      (fun peerId fromP2P ↦ verifiedBytes (ofPeer sessionId peerId) fromP2P later)
      sessionMap.entries hbounded 0 0 0
    refine ⟨0 + totalP2P, 0 + totalServer, channels, htotals, ?_, ?_⟩
    · rw [Nat.zero_add]
      exact hP2P.trans (hsum true)
    · rw [Nat.zero_add]
      exact hServer.trans (hsum false)

/-- When there is nothing to report, the totals count from the reset on. -/
theorem freshBaseline_of_nothingToReport (hnothing : NothingToReport sessionId swarm) :
    FreshBaseline table sessionId swarm := by
  intro later now rooms
  have hinit : Accounted (tableHost table) sessionId (fun _ _ ↦ 0) (swarm.clear sessionId) := by
    refine ⟨fun client hclient fromP2P ↦ ?_, fun client hclient report hmem fromP2P ↦ ?_,
      fun peerId stored hstored ↦ ?_⟩
    · exact ((hnothing client hclient fromP2P).1).le
    · exact ((hnothing client hclient fromP2P).2 report hmem).le
    · rw [Swarm.clear, TelemetryManager.getReport_clearSession, if_pos rfl] at hstored
      exact absurd hstored (by simp)
  have hreached := (swarmRun_accounted hinit later).mono fun peerId fromP2P ↦
    (Nat.zero_add (verifiedBytes (ofPeer sessionId peerId) fromP2P later)).le
  obtain ⟨totalP2P, totalServer, channels, htotals, hP2P, hServer⟩ := hreached.totals
  obtain ⟨metrics, hmetrics, htotalP2P, htotalServer⟩ := getMetrics_of_totals htotals now rooms
  exact ⟨metrics, totalP2P, totalServer, hmetrics, htotalP2P, htotalServer, hP2P, hServer⟩

/-- If nobody else has a report, a peer's report is the only one of the session when it is recorded.
-/
theorem peerReports_updatePeerReport {ν : Type} {sessionId peerId : String} {reports : Reports ν}
    (hothers : ∀ other, other ≠ peerId →
      TelemetryManager.getReport sessionId other reports = none) (stored : PeerTelemetryReport ν) :
    TelemetryManager.peerReports sessionId
      (TelemetryManager.updatePeerReport sessionId peerId stored reports) = [stored] := by
  rw [TelemetryManager.peerReports, TelemetryManager.updatePeerReport, OrderedMap.get?_set_self,
    Option.map_some, Option.getD_some]
  refine OrderedMap.values_eq_singleton (OrderedMap.get?_set_self _ peerId stored)
    fun other hother ↦ ?_
  rw [OrderedMap.get?_set_of_ne _ hother]
  have hnone := hothers other hother
  unfold TelemetryManager.getReport at hnone
  cases hsession : reports.get? sessionId with
  | none => rfl
  | some sessionMap =>
    rw [hsession] at hnone
    exact hnone

/-- The heartbeats of a client arrive in their order, and the last one stays. -/
theorem swarmRun_arrives {ν : Type} {host : Host ν} {client : Client} {report : HeartbeatReport ν}
    {older newer : List (HeartbeatReport ν)} {reached : Swarm ν}
    (hunderway : (reached.clients client).underway = older ++ report :: newer)
    (hothers : ∀ other, other ≠ client.peerId →
      TelemetryManager.getReport client.sessionId other reached.reports = none) :
    TelemetryManager.peerReports client.sessionId
        (swarmRun host reached (List.replicate (older.length + 1) (.arrives client))).reports =
      [recorded host client report] := by
  induction older generalizing reached with
  | nil =>
    change TelemetryManager.peerReports client.sessionId
      (swarmStep host reached (.arrives client)).reports = _
    simp only [swarmStep, hunderway, List.nil_append]
    exact peerReports_updatePeerReport hothers _
  | cons first rest ih =>
    rw [List.length_cons, List.replicate_succ]
    change TelemetryManager.peerReports client.sessionId
      (swarmRun host (swarmStep host reached (.arrives client)) _).reports = _
    have hstep : swarmStep host reached (.arrives client) =
        { reached.modify client fun reporter ↦
            { reporter with underway := rest ++ report :: newer } with
          reports := TelemetryManager.updatePeerReport client.sessionId client.peerId
            (recorded host client first) reached.reports } := by
      simp only [swarmStep, hunderway, List.cons_append]
    rw [hstep]
    refine ih ?_ fun other hother ↦ ?_
    · rw [Swarm.modify_clients, if_pos rfl]
    · rw [TelemetryManager.getReport_updatePeerReport, if_neg fun h ↦ hother h.2]
      exact hothers other hother

/-- A baseline is fresh only if a heartbeat that becomes the only report reports nothing. -/
theorem FreshBaseline.downloadedBytes_eq_zero (hfresh : FreshBaseline table sessionId swarm)
    {client : Client} {report : HeartbeatReport Rat} {later : List SwarmEvent}
    (hquiet : ∀ fromP2P, verifiedBytes (ofSession sessionId) fromP2P later = 0)
    (hsole : TelemetryManager.peerReports sessionId
      (swarmRun (tableHost table) (swarm.clear sessionId) later).reports =
        [recorded (tableHost table) client report]) (fromP2P : Bool) :
    report.downloadedBytes fromP2P = 0 := by
  obtain ⟨metrics, totalP2P, totalServer, hmetrics, htotalP2P, htotalServer, hP2P, hServer⟩ :=
    hfresh later 0 OrderedMap.empty
  obtain ⟨reached, hreached, hreachedP2P, hreachedServer⟩ := getMetrics_of_totals
    (by rw [hsole, List.foldlM_cons, addReport_recorded]; rfl) 0 OrderedMap.empty
  obtain rfl := Option.some.inj (hmetrics.symm.trans hreached)
  have hinj : ∀ {first second : ℕ},
      (tableHost table).natural first = (tableHost table).natural second → first = second := by
    intro first second heq
    simpa [Host.natural, tableHost] using heq
  have hfirst := hinj (htotalP2P.symm.trans hreachedP2P)
  have hsecond := hinj (htotalServer.symm.trans hreachedServer)
  rw [hquiet] at hP2P hServer
  cases fromP2P with
  | true => omega
  | false => omega

/-- A fresh baseline is one at which there is nothing to report. -/
theorem FreshBaseline.nothingToReport (hfresh : FreshBaseline table sessionId swarm) :
    NothingToReport sessionId swarm := by
  rintro client rfl fromP2P
  have hcleared : ∀ other, other ≠ client.peerId → TelemetryManager.getReport client.sessionId other
      (swarm.clear client.sessionId).reports = none := fun other _ ↦ by
    rw [Swarm.clear, TelemetryManager.getReport_clearSession, if_pos rfl]
  constructor
  · -- The connection is lost with its heartbeats, and the first one of the next connection arrives.
    have hsent : ((swarmRun (tableHost table) (swarm.clear client.sessionId)
        [.lost client, .heartbeat client none 0 0 0]).clients client).underway =
          [] ++ getHeartbeatReport (tableHost table) client.peerId client.displayName none 0 0 0
            (swarm.clients client).telemetry :: [] := by
      simp [swarmRun, swarmStep, Swarm.modify_clients, Swarm.clear]
    have hsole : TelemetryManager.peerReports client.sessionId
        (swarmRun (tableHost table) (swarm.clear client.sessionId)
          [.lost client, .heartbeat client none 0 0 0, .arrives client]).reports = _ :=
      swarmRun_arrives hsent hcleared
    have hzero := hfresh.downloadedBytes_eq_zero (fun _ ↦ rfl) hsole fromP2P
    rwa [downloadedBytes_getHeartbeatReport] at hzero
  · intro report hmem
    obtain ⟨older, newer, hsplit⟩ := List.append_of_mem hmem
    refine hfresh.downloadedBytes_eq_zero (fun _ ↦ ?_) (swarmRun_arrives hsplit hcleared) fromP2P
    simp [verifiedBytes, verifiedIn]

/-- **When a reset starts a fresh baseline.** Exactly when no client of the session has received
bytes since it started its download, and no heartbeat under way reports any. -/
theorem freshBaseline_iff (table : List (String × Json Rat)) (sessionId : String)
    (swarm : Swarm Rat) :
    FreshBaseline table sessionId swarm ↔ NothingToReport sessionId swarm :=
  ⟨FreshBaseline.nothingToReport, freshBaseline_of_nothingToReport⟩

/-- A student who has received a chunk of its download. -/
def downloading : Swarm Rat :=
  swarmRun (tableHost []) Swarm.new
    [.startSession ⟨"session", "alice", "Alice", 0⟩ "res_07" 1,
      .chunkReceived ⟨"session", "alice", "Alice", 0⟩ true 262144 12]

/-- After a reset its next heartbeat brings the bytes of this chunk back. -/
theorem downloading_not_freshBaseline : ¬ FreshBaseline [] "session" downloading := by
  intro hfresh
  have hreceived := (hfresh.nothingToReport ⟨"session", "alice", "Alice", 0⟩ rfl true).1
  exact absurd hreceived (by decide)

end Resets

end CampusMesh.Server
