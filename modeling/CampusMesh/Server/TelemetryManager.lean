import CampusMesh.Server.Json
import CampusMesh.Server.RoomManager

/-!
# Telemetry

`TelemetryManager`: the latest report of every peer of a session, and the metrics that are summed up
from them. A report is whatever record a client sent; its counters are added up as they are, so an
addition throws when a counter cannot be converted to a primitive value.
-/

set_option autoImplicit false
set_option relaxedAutoImplicit false

namespace CampusMesh.Server

open Library

variable {ν : Type}

/-- The report of a peer: the fields that it sent, with its own id and name. -/
abbrev PeerTelemetryReport (ν : Type) := Json.Fields ν

/-- The reports by session and peer. -/
abbrev Reports (ν : Type) := OrderedMap String (OrderedMap String (PeerTelemetryReport ν))

/-- The metrics of a session. -/
structure SwarmMetrics (ν : Type) where
  sessionId : String
  totalPeers : ℕ
  activeDataChannels : Json ν
  totalBytesP2P : Json ν
  totalBytesServer : Json ν
  bandwidthSavedBytes : Json ν
  swarmEfficiencyPercent : Json ν
  estimatedBaselineBytes : Json ν
  peerReports : List (PeerTelemetryReport ν)
  lastUpdated : ℕ

/-- The sums over the reports of a session. -/
structure Totals (ν : Type) where
  totalBytesP2P : Json ν
  totalBytesServer : Json ν
  sumDataChannels : Json ν

/-- What the metrics say of the reports. -/
structure Figures (ν : Type) where
  activeDataChannels : ν
  totalBytesP2P : Json ν
  totalBytesServer : Json ν
  totalBytes : Json ν
  swarmEfficiencyPercent : ν

namespace TelemetryManager

/-- Records the report of a peer. -/
def updatePeerReport (sessionId peerId : String) (report : PeerTelemetryReport ν)
    (reports : Reports ν) : Reports ν :=
  reports.set sessionId (((reports.get? sessionId).getD OrderedMap.empty).set peerId report)

/-- Removes the report of a peer. The metrics that the method also computes are those that its
caller computes next. -/
def removePeer (sessionId peerId : String) (reports : Reports ν) : Reports ν :=
  match reports.get? sessionId with
  | none => reports
  | some sessionMap =>
    if (sessionMap.delete peerId).size = 0 then reports.delete sessionId
    else reports.set sessionId (sessionMap.delete peerId)

/-- Removes all reports of a session. -/
def clearSession (sessionId : String) (reports : Reports ν) : Reports ν := reports.delete sessionId

/-- The reports of a session. -/
def peerReports (sessionId : String) (reports : Reports ν) : List (PeerTelemetryReport ν) :=
  ((reports.get? sessionId).map OrderedMap.values).getD []

/-- The report of a peer. -/
def getReport (sessionId peerId : String) (reports : Reports ν) : Option (PeerTelemetryReport ν) :=
  (reports.get? sessionId).bind fun sessionMap ↦ sessionMap.get? peerId

/-! ### Which reports there are -/

section Lookup

variable {sessionId peerId other : String} {reports : Reports ν}

theorem mem_peerReports {report : PeerTelemetryReport ν} :
    report ∈ peerReports sessionId reports ↔
      ∃ id, getReport sessionId id reports = some report := by
  unfold peerReports getReport
  cases hsession : reports.get? sessionId with
  | none => simp
  | some sessionMap => simp [OrderedMap.mem_values_iff]

theorem getReport_updatePeerReport (report : PeerTelemetryReport ν) (id : String) :
    getReport other id (updatePeerReport sessionId peerId report reports) =
      if other = sessionId ∧ id = peerId then some report else getReport other id reports := by
  unfold getReport updatePeerReport
  rw [OrderedMap.get?_set]
  by_cases hsame : other = sessionId
  · subst hsame
    rw [if_pos rfl, Option.bind_some, OrderedMap.get?_set]
    cases hsession : reports.get? other with
    | none => simp
    | some sessionMap => simp
  · simp [hsame]

theorem get?_removePeer_of_ne (hne : other ≠ sessionId) :
    (removePeer sessionId peerId reports).get? other = reports.get? other := by
  unfold removePeer
  split
  · rfl
  · split_ifs
    · exact OrderedMap.get?_delete_of_ne _ hne
    · exact OrderedMap.get?_set_of_ne _ hne _

theorem getReport_removePeer (id : String) :
    getReport other id (removePeer sessionId peerId reports) =
      if other = sessionId ∧ id = peerId then none else getReport other id reports := by
  by_cases hsame : other = sessionId
  · subst hsame
    unfold getReport removePeer
    cases hsession : reports.get? other with
    | none => simp [hsession]
    | some sessionMap =>
      simp only [Option.bind_some]
      split_ifs with hempty hgone hgone
      · rw [OrderedMap.get?_delete_self, Option.bind_none]
      · rw [OrderedMap.get?_delete_self, Option.bind_none,
          ← OrderedMap.size_eq_zero_iff.mp hempty id,
          OrderedMap.get?_delete_of_ne _ fun h ↦ hgone ⟨trivial, h⟩]
      · rw [OrderedMap.get?_set_self, Option.bind_some, hgone.2, OrderedMap.get?_delete_self]
      · rw [OrderedMap.get?_set_self, Option.bind_some,
          OrderedMap.get?_delete_of_ne _ fun h ↦ hgone ⟨trivial, h⟩]
  · rw [getReport, getReport, get?_removePeer_of_ne hsame, if_neg fun h ↦ hsame (And.left h)]

theorem getReport_clearSession (id : String) :
    getReport other id (clearSession sessionId reports) =
      if other = sessionId then none else getReport other id reports := by
  unfold getReport clearSession
  rw [OrderedMap.get?_delete]
  split_ifs with hsame
  · rfl
  · rfl

end Lookup

section Metrics

variable (host : Host ν)

/-- `total += report[key] || 0`; nothing if that throws. -/
def addCounter (key : String) (report : PeerTelemetryReport ν) (total : Json ν) :
    Option (Json ν) :=
  host.plus total (host.orElse (Json.getField key report) (host.natural 0))

/-- Adds the counters of a report. -/
def addReport (totals : Totals ν) (report : PeerTelemetryReport ν) : Option (Totals ν) := do
  let totalBytesP2P ← addCounter host "downloadedBytesP2P" report totals.totalBytesP2P
  let totalBytesServer ← addCounter host "downloadedBytesServer" report totals.totalBytesServer
  let sumDataChannels ← addCounter host "connectedPeersCount" report totals.sumDataChannels
  return { totalBytesP2P, totalBytesServer, sumDataChannels }

/-- What the metrics say of reports; nothing if an addition throws. -/
def sumReports (peerReports : List (PeerTelemetryReport ν)) : Option (Figures ν) := do
  let zero := host.natural 0
  let totals ← peerReports.foldlM (addReport host) ⟨zero, zero, zero⟩
  let sumDataChannels ← host.toNumber totals.sumDataChannels
  let totalBytes ← host.plus totals.totalBytesP2P totals.totalBytesServer
  let fromPeers ← host.toNumber totals.totalBytesP2P
  let fromAll ← host.toNumber totalBytes
  return {
    activeDataChannels :=
      host.max (host.ofNat 0) (host.round (host.dividedBy sumDataChannels (host.ofNat 2)))
    totalBytesP2P := totals.totalBytesP2P
    totalBytesServer := totals.totalBytesServer
    totalBytes := totalBytes
    swarmEfficiencyPercent :=
      if host.isGreater fromAll (host.ofNat 0) then
        host.dividedBy (host.round (host.times (host.dividedBy fromPeers fromAll)
          (host.ofNat 1000))) (host.ofNat 10)
      else host.ofNat 0 }

/-- The metrics of a session; nothing if an addition throws. -/
def getMetrics (sessionId : String) (now : ℕ) (rooms : Rooms) (reports : Reports ν) :
    Option (SwarmMetrics ν) := do
  let roomPeers := RoomManager.getRoomPeers sessionId rooms
  let figures ← sumReports host (peerReports sessionId reports)
  return {
    sessionId := sessionId
    totalPeers := (roomPeers.filter fun peer ↦ peer.role ≠ .instructor).length
    activeDataChannels := .number figures.activeDataChannels
    totalBytesP2P := figures.totalBytesP2P
    totalBytesServer := figures.totalBytesServer
    bandwidthSavedBytes := figures.totalBytesP2P
    swarmEfficiencyPercent := .number figures.swarmEfficiencyPercent
    estimatedBaselineBytes := figures.totalBytes
    peerReports := peerReports sessionId reports
    lastUpdated := now }

end Metrics

/-! ### Which metrics can be computed -/

section Summable

variable {host : Host ν}

/-- The counters of the reports can be added up. -/
def Summable (host : Host ν) (peerReports : List (PeerTelemetryReport ν)) : Prop :=
  (sumReports host peerReports).isSome = true

instance (peerReports : List (PeerTelemetryReport ν)) : Decidable (Summable host peerReports) :=
  inferInstanceAs (Decidable (_ = true))

/-- The metrics can be computed exactly when the reports of the session can be added up. -/
theorem getMetrics_isSome_iff {sessionId : String} {now : ℕ} {rooms : Rooms} {reports : Reports ν} :
    (getMetrics host sessionId now rooms reports).isSome = true ↔
      Summable host (peerReports sessionId reports) := by
  unfold getMetrics Summable
  cases sumReports host (peerReports sessionId reports) with
  | none => simp
  | some figures => simp

/-- What the metrics say when the sums are numbers. -/
def figuresOf (host : Host ν) (totalBytesP2P totalBytesServer sumDataChannels : ν) : Figures ν where
  activeDataChannels :=
    host.max (host.ofNat 0) (host.round (host.dividedBy sumDataChannels (host.ofNat 2)))
  totalBytesP2P := .number totalBytesP2P
  totalBytesServer := .number totalBytesServer
  totalBytes := .number (host.add totalBytesP2P totalBytesServer)
  swarmEfficiencyPercent :=
    if host.isGreater (host.add totalBytesP2P totalBytesServer) (host.ofNat 0) then
      host.dividedBy (host.round (host.times (host.dividedBy totalBytesP2P
        (host.add totalBytesP2P totalBytesServer)) (host.ofNat 1000))) (host.ofNat 10)
    else host.ofNat 0

/-- Sums that are numbers do not make anything throw. -/
theorem sumReports_of_totals {peerReports : List (PeerTelemetryReport ν)}
    {totalBytesP2P totalBytesServer sumDataChannels : ν}
    (htotals : peerReports.foldlM (addReport host)
        ⟨host.natural 0, host.natural 0, host.natural 0⟩ =
      some ⟨.number totalBytesP2P, .number totalBytesServer, .number sumDataChannels⟩) :
    sumReports host peerReports =
      some (figuresOf host totalBytesP2P totalBytesServer sumDataChannels) := by
  simp only [sumReports, htotals, Host.toNumber_number, Host.plus_number, Option.bind_eq_bind,
    Option.bind_some]
  rfl

end Summable

end TelemetryManager

/-! ### Sample heartbeats -/

/-- A heartbeat with a counter. -/
def heartbeat : String :=
  "\x7b\"type\":\"telemetry-heartbeat\",\"payload\":\x7b\"downloadedBytesP2P\":7\x7d\x7d"

/-- A heartbeat with a counter that cannot be added. -/
def brokenHeartbeat : String :=
  "\x7b\"type\":\"telemetry-heartbeat\",\"payload\":" ++
    "\x7b\"downloadedBytesP2P\":\x7b\"toString\":0\x7d\x7d\x7d"

/-- The frame of a heartbeat. -/
def heartbeatFrame (downloadedBytesP2P : Json ν) : Json ν :=
  .object [("type", .string "telemetry-heartbeat"),
    ("payload", .object [("downloadedBytesP2P", downloadedBytesP2P)])]

/-- What the heartbeats parse to. -/
def telemetryHost : Host Rat := tableHost
  [(heartbeat, heartbeatFrame (.number 7)),
    (brokenHeartbeat, heartbeatFrame (.object [("toString", .number 0)]))]

end CampusMesh.Server
