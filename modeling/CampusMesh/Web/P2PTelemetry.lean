import CampusMesh.Server.TelemetryManager
import Mathlib.Algebra.GroupWithZero.Nat

/-!
# The telemetry of a student

`P2PTelemetry`, as far as its heartbeats read it. The counters of received bytes and chunks are set
back when a download starts, and only then; a heartbeat carries them as they stand.
-/

set_option autoImplicit false
set_option relaxedAutoImplicit false

namespace CampusMesh.Web

open Server

variable {ν : Type}

/-! ### State -/

/-- The counters of a `P2PTelemetry` that a heartbeat reads. -/
structure P2PTelemetry where
  resourceId : Option String
  bytesFromP2P : ℕ
  bytesFromOrigin : ℕ
  bytesUploadedP2P : ℕ
  chunksFromP2P : ℕ
  chunksFromOrigin : ℕ
  downloadStartedAt : Option ℕ
  p2pLatencies : List ℕ

namespace P2PTelemetry

/-- A new instance. -/
def new : P2PTelemetry := ⟨none, 0, 0, 0, 0, 0, none, []⟩

/-- `startSession`. -/
def startSession (resourceId : String) (now : ℕ) (telemetry : P2PTelemetry) : P2PTelemetry :=
  { telemetry with
    resourceId := some resourceId
    downloadStartedAt := some now
    bytesFromP2P := 0
    bytesFromOrigin := 0
    chunksFromP2P := 0
    chunksFromOrigin := 0
    p2pLatencies := [] }

/-- The last fifty latencies. -/
def pushLatency (latencyMs : ℕ) (latencies : List ℕ) : List ℕ :=
  let pushed := latencies ++ [latencyMs]
  if 50 < pushed.length then pushed.tail else pushed

/-- `recordChunkReceived`. -/
def recordChunkReceived (fromP2P : Bool) (byteLength latencyMs : ℕ) (telemetry : P2PTelemetry) :
    P2PTelemetry :=
  if fromP2P then
    { telemetry with
      bytesFromP2P := telemetry.bytesFromP2P + byteLength
      chunksFromP2P := telemetry.chunksFromP2P + 1
      p2pLatencies := pushLatency latencyMs telemetry.p2pLatencies }
  else
    { telemetry with
      bytesFromOrigin := telemetry.bytesFromOrigin + byteLength
      chunksFromOrigin := telemetry.chunksFromOrigin + 1 }

/-- `recordBytesUploaded`. -/
def recordBytesUploaded (byteLength : ℕ) (telemetry : P2PTelemetry) : P2PTelemetry :=
  { telemetry with bytesUploadedP2P := telemetry.bytesUploadedP2P + byteLength }

end P2PTelemetry

/-! ### Heartbeats -/

/-- What a heartbeat reports. -/
structure HeartbeatReport (ν : Type) where
  peerId : String
  displayName : String
  activeResourceId : Option String
  downloadedBytesP2P : ℕ
  downloadedBytesServer : ℕ
  uploadedBytesP2P : ℕ
  connectedPeersCount : ℕ
  progressPercent : ℕ
  transferRateBps : ν
  chunkCountP2P : ℕ
  chunkCountServer : ℕ
  averageLatencyMs : ν

section Reports

variable (host : Host ν)

/-- `calculateTransferRate`. -/
def calculateTransferRate (verifiedBytes : ℕ) (elapsedSeconds : ν) : ν :=
  if host.isGreater elapsedSeconds (host.ofNat 0) = false ∨ verifiedBytes = 0 then host.ofNat 0
  else host.round (host.dividedBy (host.ofNat verifiedBytes) elapsedSeconds)

/-- The seconds since the download was started, at least a tenth. A start at zero counts as none. -/
def elapsedSeconds (now : ℕ) (telemetry : P2PTelemetry) : ν :=
  match telemetry.downloadStartedAt with
  | none | some 0 => host.ofNat 0
  | some startedAt =>
    host.max (host.dividedBy (host.ofNat 1) (host.ofNat 10))
      (host.dividedBy (host.ofNat (now - startedAt)) (host.ofNat 1000))

/-- The mean of the latencies. -/
def averageLatencyMs (telemetry : P2PTelemetry) : ν :=
  if telemetry.p2pLatencies.length = 0 then host.ofNat 0
  else host.round (host.dividedBy (host.ofNat telemetry.p2pLatencies.sum)
    (host.ofNat telemetry.p2pLatencies.length))

/-- `getHeartbeatReport`. -/
def getHeartbeatReport (peerId displayName : String) (activeResourceId : Option String)
    (connectedPeersCount progressPercent now : ℕ)
    (telemetry : P2PTelemetry) : HeartbeatReport ν where
  peerId := peerId
  displayName := displayName
  activeResourceId := (activeResourceId.filter fun id ↦ id ≠ "").or telemetry.resourceId
  downloadedBytesP2P := telemetry.bytesFromP2P
  downloadedBytesServer := telemetry.bytesFromOrigin
  uploadedBytesP2P := telemetry.bytesUploadedP2P
  connectedPeersCount := connectedPeersCount
  progressPercent := progressPercent
  transferRateBps := calculateTransferRate host (telemetry.bytesFromP2P + telemetry.bytesFromOrigin)
    (elapsedSeconds host now telemetry)
  chunkCountP2P := telemetry.chunksFromP2P
  chunkCountServer := telemetry.chunksFromOrigin
  averageLatencyMs := averageLatencyMs host telemetry

/-- The record that is sent. -/
def HeartbeatReport.fields (report : HeartbeatReport ν) : PeerTelemetryReport ν :=
  [("peerId", .string report.peerId), ("displayName", .string report.displayName),
    ("activeResourceId", (report.activeResourceId.map Json.string).getD .null),
    ("downloadedBytesP2P", host.natural report.downloadedBytesP2P),
    ("downloadedBytesServer", host.natural report.downloadedBytesServer),
    ("uploadedBytesP2P", host.natural report.uploadedBytesP2P),
    ("connectedPeersCount", host.natural report.connectedPeersCount),
    ("progressPercent", host.natural report.progressPercent),
    ("transferRateBps", .number report.transferRateBps),
    ("chunkCountP2P", host.natural report.chunkCountP2P),
    ("chunkCountServer", host.natural report.chunkCountServer),
    ("averageLatencyMs", .number report.averageLatencyMs)]

end Reports

/-! ### Received bytes -/

namespace P2PTelemetry

/-- The bytes received from one of the two sources. -/
def bytesReceived (fromP2P : Bool) (telemetry : P2PTelemetry) : ℕ :=
  if fromP2P then telemetry.bytesFromP2P else telemetry.bytesFromOrigin

variable {telemetry : P2PTelemetry}

@[simp] theorem bytesReceived_startSession (fromP2P : Bool) (resourceId : String) (now : ℕ) :
    (telemetry.startSession resourceId now).bytesReceived fromP2P = 0 := by
  cases fromP2P <;> rfl

@[simp] theorem bytesReceived_recordBytesUploaded (fromP2P : Bool) (byteLength : ℕ) :
    (telemetry.recordBytesUploaded byteLength).bytesReceived fromP2P =
      telemetry.bytesReceived fromP2P := by
  cases fromP2P <;> rfl

@[simp] theorem bytesReceived_recordChunkReceived (fromP2P received : Bool)
    (byteLength latencyMs : ℕ) :
    (telemetry.recordChunkReceived received byteLength latencyMs).bytesReceived fromP2P =
      telemetry.bytesReceived fromP2P + if received = fromP2P then byteLength else 0 := by
  cases fromP2P <;> cases received <;> rfl

end P2PTelemetry

/-- The bytes that a heartbeat reports of one of the two sources. -/
def HeartbeatReport.downloadedBytes (fromP2P : Bool) (report : HeartbeatReport ν) : ℕ :=
  if fromP2P then report.downloadedBytesP2P else report.downloadedBytesServer

/-- A heartbeat reports all bytes that were received since the download was started. -/
@[simp] theorem downloadedBytes_getHeartbeatReport (host : Host ν) (fromP2P : Bool)
    (peerId displayName : String) (activeResourceId : Option String)
    (connectedPeersCount progressPercent now : ℕ) (telemetry : P2PTelemetry) :
    (getHeartbeatReport host peerId displayName activeResourceId connectedPeersCount progressPercent
      now telemetry).downloadedBytes fromP2P = telemetry.bytesReceived fromP2P := by
  cases fromP2P <;> rfl

end CampusMesh.Web
