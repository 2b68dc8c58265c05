import CampusMesh.Library.FloatingPoint
import CampusMesh.Server.TelemetryMembership
import CampusMesh.Server.TelemetryBaseline

/-!
# Meaningful metrics

The counters of a heartbeat are numbers that a client sends. The server sums them up as they are, in
doubles; of the three sums only that of the data channels is kept from being negative. For counters
that are numbers the metrics are given in closed form (`getMetrics_of_numbers`). They are meaningful
exactly if no sum of bytes is negative, that of the bytes from peers is not infinite, and that of
the data channels is a number (`meaningful_iff`). So they stay meaningful over every run in which no
heartbeat has a negative number of bytes and nothing overflows (`metrics_meaningful`), and a single
heartbeat is enough to spoil them. Numbers of usual size never overflow, however many are added
(`noOverflow_of_small`).
-/

set_option autoImplicit false
set_option relaxedAutoImplicit false

namespace CampusMesh.Server

open Library Shared SignalingHub

/-! ### Doubles -/

/-- The numbers of the host are doubles. -/
structure ComputesWithDoubles (host : Host Double) : Prop where
  ofNat : ∀ value : ℕ, host.ofNat value = .ofRat value
  isTruthyNumber : ∀ value, host.isTruthyNumber value = value.isTruthy
  add : ∀ first second, host.add first second = first.add second
  times : ∀ first second, host.times first second = first.mul second
  dividedBy : ∀ first second, host.dividedBy first second = first.div second
  isGreater : ∀ first second, host.isGreater first second = second.lt first
  round : ∀ value, host.round value = value.round
  max : ∀ first second, host.max first second = first.max second

/-- A host with doubles, for texts of which it is given what they parse to. Any operand that is not
a number makes it throw, and it can write everything. -/
def doubleHost (table : List (String × Json Double)) : Host Double where
  parse text := (table.find? fun entry ↦ entry.1 = text).map Prod.snd
  serializes _ := true
  serializes_of_bare _ _ := rfl
  ofNat value := .ofRat value
  isTruthyNumber := Floating.isTruthy
  add := Floating.add
  concat _ _ := none
  convert _ := none
  times := Floating.mul
  dividedBy := Floating.div
  isGreater first second := second.lt first
  round := Floating.round
  max := Floating.max

theorem computesWithDoubles_doubleHost (table : List (String × Json Double)) :
    ComputesWithDoubles (doubleHost table) :=
  ⟨fun _ ↦ rfl, fun _ ↦ rfl, fun _ _ ↦ rfl, fun _ _ ↦ rfl, fun _ _ ↦ rfl, fun _ _ ↦ rfl,
    fun _ ↦ rfl, fun _ _ ↦ rfl⟩

theorem ofRat_zero : (.ofRat 0 : Double) = .zero :=
  Floating.ofRat_of_representable binary64.representable_zero

/-! ### Counters -/

/-- The fields of a heartbeat that are summed up. -/
def counterKeys : List String :=
  ["downloadedBytesP2P", "downloadedBytesServer", "connectedPeersCount"]

/-- A counter of a record that has a number there or nothing. -/
def countOf (key : String) (fields : Json.Fields Double) : Double :=
  match Json.getField key fields with
  | some (.number value) => value
  | _ => .zero

/-- The counters of a record are numbers or missing. An integer that a client sends is the double
that is nearest to it, or an infinity; what is not a number has no text. -/
def NumericCounts (fields : Json.Fields Double) : Prop :=
  ∀ key ∈ counterKeys, ∀ value, Json.getField key fields = some value →
    ∃ count, value = .number count ∧ count ≠ .nan

/-- The numbers of bytes of a record are not negative. -/
def NonnegativeBytes (fields : Json.Fields Double) : Prop :=
  (countOf "downloadedBytesP2P" fields).IsNonneg ∧
    (countOf "downloadedBytesServer" fields).IsNonneg

instance (fields : Json.Fields Double) : Decidable (NonnegativeBytes fields) :=
  inferInstanceAs (Decidable (_ ∧ _))

/-- The sum of a counter over reports, in their order. -/
def sumOf (key : String) (peerReports : List (PeerTelemetryReport Double)) : Double :=
  peerReports.foldl (fun total report ↦ total.add (countOf key report)) .zero

section Counters

variable {host : Host Double} {report : PeerTelemetryReport Double} {key : String}

theorem addCounter_number (hdoubles : ComputesWithDoubles host) (hkey : key ∈ counterKeys)
    (hcounts : NumericCounts report) (total : Double) :
    TelemetryManager.addCounter host key report (.number total) =
      some (.number (total.add (countOf key report))) := by
  have hzero : host.natural 0 = .number .zero := by
    rw [Host.natural, hdoubles.ofNat, Nat.cast_zero, ofRat_zero]
  unfold TelemetryManager.addCounter countOf
  cases hfield : Json.getField key report with
  | none =>
    rw [hzero]
    exact congrArg (some ∘ Json.number) (hdoubles.add total .zero)
  | some value =>
    obtain ⟨count, rfl, hnan⟩ := hcounts key hkey value hfield
    have hcount : host.orElse (some (.number count)) (host.natural 0) = .number count := by
      have htruth : host.truthy (some (.number count)) = count.isTruthy :=
        hdoubles.isTruthyNumber count
      rw [Host.orElse, htruth, hzero]
      split_ifs with htruthy
      · rfl
      · -- Of the numbers only zero is not true.
        cases count with
        | finite value =>
          have hvalue : value = ⟨0, binary64.representable_zero⟩ :=
            Subtype.ext (by simpa [Floating.isTruthy] using htruthy)
          rw [hvalue]
          rfl
        | infinity => exact absurd rfl htruthy
        | nan => exact absurd rfl hnan
    rw [hcount]
    exact congrArg (some ∘ Json.number) (hdoubles.add total count)

/-- Counters that are numbers are added up. -/
theorem foldlM_addReport_numbers (hdoubles : ComputesWithDoubles host)
    {peerReports : List (PeerTelemetryReport Double)}
    (hcounts : ∀ report ∈ peerReports, NumericCounts report)
    (totalP2P totalServer channels : Double) :
    peerReports.foldlM (TelemetryManager.addReport host)
        ⟨.number totalP2P, .number totalServer, .number channels⟩ =
      some ⟨.number (peerReports.foldl (fun total report ↦
          total.add (countOf "downloadedBytesP2P" report)) totalP2P),
        .number (peerReports.foldl (fun total report ↦
          total.add (countOf "downloadedBytesServer" report)) totalServer),
        .number (peerReports.foldl (fun total report ↦
          total.add (countOf "connectedPeersCount" report)) channels)⟩ := by
  induction peerReports generalizing totalP2P totalServer channels with
  | nil => rfl
  | cons report rest ih =>
    have hreport := hcounts report List.mem_cons_self
    have hadd : TelemetryManager.addReport host
        ⟨.number totalP2P, .number totalServer, .number channels⟩ report =
        some ⟨.number (totalP2P.add (countOf "downloadedBytesP2P" report)),
          .number (totalServer.add (countOf "downloadedBytesServer" report)),
          .number (channels.add (countOf "connectedPeersCount" report))⟩ := by
      rw [TelemetryManager.addReport, addCounter_number hdoubles (by decide) hreport,
        Option.bind_eq_bind, Option.bind_some, addCounter_number hdoubles (by decide) hreport,
        Option.bind_some, addCounter_number hdoubles (by decide) hreport]
      rfl
    rw [List.foldlM_cons, hadd, Option.bind_eq_bind, Option.bind_some]
    exact ih (fun other hother ↦ hcounts other (List.mem_cons_of_mem _ hother)) _ _ _

end Counters

/-! ### Metrics -/

/-- The share of the bytes that came from peers, in percent with one digit behind the point. -/
def efficiencyOf (totalBytesP2P totalBytesServer : Double) : Double :=
  let totalBytes := totalBytesP2P.add totalBytesServer
  if Floating.lt .zero totalBytes then
    ((totalBytesP2P.div totalBytes).mul (.ofRat 1000)).round.div (.ofRat 10)
  else .zero

/-- Half of the data channels that are reported, rounded and not below zero. -/
def channelsOf (sumDataChannels : Double) : Double :=
  Floating.max .zero (sumDataChannels.div (.ofRat 2)).round

example : efficiencyOf (.ofRat 201) (.ofRat 199) = .ofRat 50.2 := by decide +kernel

section Metrics

variable {host : Host Double} {sessionId : String} {now : ℕ} {rooms : Rooms}
  {reports : Reports Double}

/-- The metrics of a session whose reports have counters that are numbers. -/
def numericMetrics (sessionId : String) (now : ℕ) (rooms : Rooms) (reports : Reports Double) :
    SwarmMetrics Double :=
  let peerReports := TelemetryManager.peerReports sessionId reports
  let totalBytesP2P := sumOf "downloadedBytesP2P" peerReports
  let totalBytesServer := sumOf "downloadedBytesServer" peerReports
  { sessionId := sessionId
    totalPeers := ((RoomManager.getRoomPeers sessionId rooms).filter fun peer ↦
      peer.role ≠ .instructor).length
    activeDataChannels := .number (channelsOf (sumOf "connectedPeersCount" peerReports))
    totalBytesP2P := .number totalBytesP2P
    totalBytesServer := .number totalBytesServer
    bandwidthSavedBytes := .number totalBytesP2P
    swarmEfficiencyPercent := .number (efficiencyOf totalBytesP2P totalBytesServer)
    estimatedBaselineBytes := .number (totalBytesP2P.add totalBytesServer)
    peerReports := peerReports
    lastUpdated := now }

theorem getMetrics_of_numbers (hdoubles : ComputesWithDoubles host)
    (hcounts : ∀ report ∈ TelemetryManager.peerReports sessionId reports, NumericCounts report) :
    TelemetryManager.getMetrics host sessionId now rooms reports =
      some (numericMetrics sessionId now rooms reports) := by
  have hofNat : ∀ value : ℕ, host.ofNat value = .ofRat value := hdoubles.ofNat
  have hzero : host.ofNat 0 = .zero := by rw [hofNat, Nat.cast_zero, ofRat_zero]
  have htotals := foldlM_addReport_numbers hdoubles hcounts .zero .zero .zero
  rw [← hzero] at htotals
  rw [TelemetryManager.getMetrics, TelemetryManager.sumReports_of_totals htotals, hzero]
  simp only [TelemetryManager.figuresOf, hzero, hofNat, hdoubles.add, hdoubles.times,
    hdoubles.dividedBy, hdoubles.isGreater, hdoubles.round, hdoubles.max]
  rfl

end Metrics

/-! ### What metrics mean -/

/-- A number in a range. -/
def InRange (least : Double) (most : Option Double) (value : Json Double) : Prop :=
  ∃ number, value = .number number ∧ least.le number = true ∧ ∀ bound ∈ most, number.le bound = true

/-- Metrics that mean something: no total is negative, the saved bytes are those from peers, the
baseline is the sum of both totals, and the efficiency is a percentage. -/
structure Meaningful (metrics : SwarmMetrics Double) : Prop where
  totalBytesP2P : InRange .zero none metrics.totalBytesP2P
  totalBytesServer : InRange .zero none metrics.totalBytesServer
  bandwidthSavedBytes : metrics.bandwidthSavedBytes = metrics.totalBytesP2P
  estimatedBaselineBytes : ∃ totalP2P totalServer : Double,
    metrics.totalBytesP2P = .number totalP2P ∧ metrics.totalBytesServer = .number totalServer ∧
    metrics.estimatedBaselineBytes = .number (totalP2P.add totalServer)
  activeDataChannels : InRange .zero none metrics.activeDataChannels
  swarmEfficiencyPercent : InRange .zero (some (.ofRat 100)) metrics.swarmEfficiencyPercent

section Meaning

variable {totalP2P totalServer channels : Double}

/-- What is rounded and not below zero is not negative, if it is a number. -/
theorem isNonneg_channelsOf_iff : (channelsOf channels).IsNonneg ↔ channels ≠ .nan := by
  have htwo : (.ofRat 2 : Double) = .finite ⟨2, by decide +kernel⟩ :=
    Floating.ofRat_of_representable _
  rw [channelsOf, Floating.isNonneg_max_zero_iff, not_iff_not, Floating.round_eq_nan_iff, htwo,
    Floating.div_eq_nan_iff (by norm_num)]

/-- The efficiency is a percentage when no total is negative and the bytes from peers are not
infinite. -/
theorem efficiencyOf_mem (hP2P : totalP2P.IsNonneg) (hfinite : totalP2P ≠ .infinity false)
    (hServer : totalServer.IsNonneg) :
    ∃ percentage, efficiencyOf totalP2P totalServer = .finite percentage ∧ 0 ≤ percentage.1 ∧
      percentage.1 ≤ 100 := by
  have hone : binary64.Representable 1 := by decide +kernel
  have hten : binary64.Representable 10 := by decide +kernel
  have hhundred : binary64.Representable 100 := by decide +kernel
  have hthousand : binary64.Representable (1000 : ℤ) := by decide +kernel
  cases totalP2P with
  | infinity negative =>
    rw [Floating.isNonneg_infinity.mp hP2P] at hfinite
    exact absurd rfl hfinite
  | nan => exact absurd hP2P Floating.not_isNonneg_nan
  | finite fromPeers =>
    unfold efficiencyOf
    simp only
    split_ifs with hpositive
    · obtain ⟨share, hshare, hleast, hmost⟩ := Floating.div_mem hone
        (Floating.isNonneg_finite.mp hP2P) (Floating.le_add_of_isNonneg hServer) hpositive
      have hscaled : 0 ≤ share.1 * 1000 ∧ share.1 * 1000 ≤ (1000 : ℤ) :=
        ⟨by linarith, by push_cast; linarith⟩
      obtain ⟨perMille, hperMille, hlower, hupper⟩ :=
        Floating.ofRat_mem binary64.representable_zero hthousand hscaled.1 hscaled.2
      obtain ⟨rounded, hrounded, hroundedLower, hroundedUpper⟩ :=
        Floating.round_mem hthousand hlower hupper
      rw [hshare, Floating.ofRat_of_representable hten,
        Floating.ofRat_of_representable (by exact_mod_cast hthousand), Floating.mul, hperMille,
        hrounded, Floating.div, if_pos (by norm_num)]
      push_cast at hroundedUpper
      exact Floating.ofRat_mem binary64.representable_zero hhundred
        (div_nonneg hroundedLower (by norm_num)) (by rw [div_le_iff₀ (by norm_num)]; linarith)
    · exact ⟨_, rfl, le_rfl, by norm_num⟩

/-- The efficiency is no percentage when the bytes from peers are infinite. -/
theorem not_inRange_efficiencyOf (hServer : totalServer.IsNonneg) :
    ¬ InRange .zero (some (.ofRat 100))
      (.number (efficiencyOf (.infinity false) totalServer)) := by
  have hall : (Floating.infinity false : Double).add totalServer = .infinity false := by
    cases totalServer with
    | finite => rfl
    | infinity negative => simp [Floating.add, Floating.isNonneg_infinity.mp hServer]
    | nan => exact absurd hServer Floating.not_isNonneg_nan
  have hnan : efficiencyOf (.infinity false) totalServer = .nan := by
    rw [efficiencyOf, hall]
    rfl
  rintro ⟨number, hnumber, hleast, _⟩
  rw [hnan] at hnumber
  rw [← Json.number.inj hnumber] at hleast
  exact Bool.false_ne_true hleast

section Iff

variable {sessionId : String} {now : ℕ} {rooms : Rooms} {reports : Reports Double}

theorem inRange_zero_iff {number : Double} :
    InRange .zero none (.number number) ↔ number.IsNonneg := by
  constructor
  · rintro ⟨other, hother, hleast, _⟩
    rwa [← Json.number.inj hother] at hleast
  · exact fun hleast ↦ ⟨number, rfl, hleast, by simp⟩

/-- The sums that the metrics are made of: no sum of bytes is negative, that of the bytes from peers
is not infinite, and that of the data channels is a number. -/
theorem meaningful_iff :
    Meaningful (numericMetrics sessionId now rooms reports) ↔
      (sumOf "downloadedBytesP2P" (TelemetryManager.peerReports sessionId reports)).IsNonneg ∧
      sumOf "downloadedBytesP2P" (TelemetryManager.peerReports sessionId reports) ≠
        .infinity false ∧
      (sumOf "downloadedBytesServer" (TelemetryManager.peerReports sessionId reports)).IsNonneg ∧
      sumOf "connectedPeersCount" (TelemetryManager.peerReports sessionId reports) ≠ .nan := by
  constructor
  · intro hmeaning
    have hServer := inRange_zero_iff.mp hmeaning.totalBytesServer
    refine ⟨inRange_zero_iff.mp hmeaning.totalBytesP2P, fun hinfinite ↦ ?_, hServer,
      isNonneg_channelsOf_iff.mp (inRange_zero_iff.mp hmeaning.activeDataChannels)⟩
    have hefficiency := hmeaning.swarmEfficiencyPercent
    unfold numericMetrics at hefficiency
    simp only [hinfinite] at hefficiency
    exact not_inRange_efficiencyOf hServer hefficiency
  · rintro ⟨hP2P, hfinite, hServer, hchannels⟩
    have hhundred : (.ofRat 100 : Double) = .finite ⟨100, by decide +kernel⟩ :=
      Floating.ofRat_of_representable _
    obtain ⟨percentage, hpercentage, hleast, hmost⟩ := efficiencyOf_mem hP2P hfinite hServer
    have hpercent : ∀ bound ∈ some (.ofRat 100 : Double),
        (Floating.finite percentage).le bound = true := by
      rintro _ ⟨⟩
      rw [hhundred]
      exact decide_eq_true hmost
    exact
      { totalBytesP2P := inRange_zero_iff.mpr hP2P
        totalBytesServer := inRange_zero_iff.mpr hServer
        bandwidthSavedBytes := rfl
        estimatedBaselineBytes := ⟨_, _, rfl, rfl, rfl⟩
        activeDataChannels := inRange_zero_iff.mpr (isNonneg_channelsOf_iff.mpr hchannels)
        swarmEfficiencyPercent := ⟨.finite percentage, congrArg Json.number hpercentage,
          decide_eq_true hleast, hpercent⟩ }

end Iff

end Meaning

/-! ### Sums -/

/-- The bytes from peers do not add up to an infinity, nor the data channels to what is not a
number. -/
def NoOverflow (peerReports : List (PeerTelemetryReport Double)) : Prop :=
  sumOf "downloadedBytesP2P" peerReports ≠ .infinity false ∧
    sumOf "connectedPeersCount" peerReports ≠ .nan

instance (peerReports : List (PeerTelemetryReport Double)) : Decidable (NoOverflow peerReports) :=
  inferInstanceAs (Decidable (_ ∧ _))

/-- A counter of usual size: anything up to `2 ^ 969`. -/
def SmallCount (count : Double) : Prop :=
  ∃ value, count = .finite value ∧ |value.1| ≤ 2 ^ 969

section Sums

variable {peerReports : List (PeerTelemetryReport Double)} {key : String}

/-- What holds of nothing, and is kept by adding a counter, holds of a sum. -/
theorem sumOf_induction (holds : Double → Prop) (hzero : holds .zero)
    (hadd : ∀ total, ∀ report ∈ peerReports, holds total → holds (total.add (countOf key report))) :
    holds (sumOf key peerReports) := by
  refine List.foldlRecOn peerReports _ hzero fun total htotal report hreport ↦ ?_
  exact hadd total report hreport htotal

theorem isNonneg_sumOf (hcounts : ∀ report ∈ peerReports, (countOf key report).IsNonneg) :
    (sumOf key peerReports).IsNonneg :=
  sumOf_induction Floating.IsNonneg (Floating.isNonneg_finite.mpr le_rfl)
    fun _ report hreport htotal ↦ htotal.add (hcounts report hreport)

/-- However many counters of usual size are added, the sum stays below `2 ^ 1023`: from there on
they are too small to change it. -/
theorem sumOf_small (hsmall : ∀ report ∈ peerReports, SmallCount (countOf key report)) :
    ∃ total, sumOf key peerReports = .finite total ∧ |total.1| ≤ 2 ^ 1023 := by
  have hbound : binary64.Representable (2 ^ 1023) := by decide +kernel
  have habsorbs : binary64.nearest (2 ^ 1023 + 2 ^ 969) = 2 ^ 1023 := by decide +kernel
  refine sumOf_induction (fun total ↦ ∃ value, total = .finite value ∧ |value.1| ≤ 2 ^ 1023)
    ⟨_, rfl, by simp⟩ ?_
  rintro _ report hreport ⟨total, rfl, htotal⟩
  obtain ⟨count, hcount, hle⟩ := hsmall report hreport
  rw [hcount]
  exact Floating.add_absorbed hbound habsorbs htotal hle

/-- **Numbers of usual size never overflow**, however many reports there are. -/
theorem noOverflow_of_small
    (hsmall : ∀ report ∈ peerReports, SmallCount (countOf "downloadedBytesP2P" report) ∧
      SmallCount (countOf "connectedPeersCount" report)) : NoOverflow peerReports := by
  obtain ⟨fromPeers, hfromPeers, _⟩ := sumOf_small fun report hreport ↦ (hsmall report hreport).1
  obtain ⟨channels, hchannels, _⟩ := sumOf_small fun report hreport ↦ (hsmall report hreport).2
  constructor
  · rw [hfromPeers]
    nofun
  · rw [hchannels]
    nofun

end Sums

/-! ### Heartbeats -/

/-- The event is a heartbeat with this payload. -/
def HeartbeatOf {ν : Type} (host : Host ν) (event : HubEvent) (payload : Json.Fields ν) : Prop :=
  ∃ socket rawText fields, event = .message socket rawText ∧
    receivedFrame host socket rawText = some fields ∧
    hasType .TELEMETRY_HEARTBEAT fields = true ∧
    (host.orElse (Json.getField "payload" fields) (.object [])).asFields = some payload

section Reports

variable {ν : Type} {host : Host ν} {now : ℕ} {hub next : SignalingHub ν} {event : HubEvent}

/-- All reports that the server has are of a kind. -/
def AllReports (kind : Json.Fields ν → Prop) (hub : SignalingHub ν) : Prop :=
  ∀ sessionId peerId report, reportOf hub sessionId peerId = some report → kind report

/-- The departure of a peer takes reports away only. -/
theorem AllReports.departed {kind : Json.Fields ν → Prop} (hall : AllReports kind hub)
    (socket : Socket) (room : Room) : AllReports kind (departed socket room hub) := by
  intro sessionId peerId report hreport
  rw [reportOf_departed] at hreport
  split_ifs at hreport
  exact hall sessionId peerId report hreport

theorem AllReports.clearSession {kind : Json.Fields ν → Prop} (hall : AllReports kind hub)
    (cleared : String)
    (hreports : next.reports = TelemetryManager.clearSession cleared hub.reports) :
    AllReports kind next := by
  intro sessionId peerId report hreport
  rw [reportOf, hreports, TelemetryManager.getReport_clearSession] at hreport
  split_ifs at hreport
  exact hall sessionId peerId report hreport

/-- The server has reports of those kinds only that heartbeats have, also when they are recorded
under the identity of the socket. -/
theorem HubMove.allReports (hmove : HubMove host now hub event next)
    {kind : Json.Fields ν → Prop} (hall : AllReports kind hub)
    (hstamp : ∀ payload peerId displayName, kind payload →
      kind (Json.setField "displayName" (.string displayName)
        (Json.setField "peerId" (.string peerId) payload)))
    (hbeats : ∀ payload, HeartbeatOf host event payload → kind payload) :
    AllReports kind next := by
  cases hmove with
  | idle | expired | relayed | closing | stale => exact hall
  | admitted socket =>
    rw [letIn_spec]
    exact hall
  | reported socket rawText fields payload sent hlistens hreceived hbeat hpayload =>
    intro sessionId peerId report hreport
    have hkind := hbeats payload ⟨socket, rawText, fields, rfl, hreceived, hbeat, hpayload⟩
    unfold reportOf reportedTo at hreport
    rw [TelemetryManager.getReport_updatePeerReport] at hreport
    split_ifs at hreport with hsame
    · rw [← Option.some.inj hreport]
      exact hstamp payload _ _ hkind
    · exact hall sessionId peerId report hreport
  | left _ socket sockets room between metrics _ _ hbetween =>
    subst hbetween
    exact hall.departed socket room
  | crashed _ socket sockets room between _ _ _ hbetween =>
    subst hbetween
    exact hall.departed socket room
  | ended sessionId => exact hall.clearSession sessionId rfl
  | reset sessionId => exact hall.clearSession sessionId rfl

end Reports

/-! ### Runs -/

section Runs

variable {host : Host Double} {db : Database} {inputs : List HubInput}

/-- The counters of a report are those of the payload. -/
theorem getField_stamped {key : String} (hkey : key ∈ counterKeys) (peerId displayName : String)
    (payload : Json.Fields Double) :
    Json.getField key (Json.setField "displayName" (.string displayName)
      (Json.setField "peerId" (.string peerId) payload)) = Json.getField key payload := by
  have hother : key ≠ "displayName" ∧ key ≠ "peerId" := by
    revert key
    decide
  rw [getField_setField_of_ne hother.1, getField_setField_of_ne hother.2]

theorem countOf_stamped {key : String} (hkey : key ∈ counterKeys) (peerId displayName : String)
    (payload : Json.Fields Double) :
    countOf key (Json.setField "displayName" (.string displayName)
      (Json.setField "peerId" (.string peerId) payload)) = countOf key payload := by
  unfold countOf
  rw [getField_stamped hkey]

theorem numericCounts_stamped (peerId displayName : String) {payload : Json.Fields Double} :
    NumericCounts (Json.setField "displayName" (.string displayName)
      (Json.setField "peerId" (.string peerId) payload)) ↔ NumericCounts payload := by
  refine forall₂_congr fun key hkey ↦ ?_
  rw [getField_stamped hkey]

theorem nonnegativeBytes_stamped (peerId displayName : String) {payload : Json.Fields Double} :
    NonnegativeBytes (Json.setField "displayName" (.string displayName)
      (Json.setField "peerId" (.string peerId) payload)) ↔ NonnegativeBytes payload := by
  unfold NonnegativeBytes
  rw [countOf_stamped (by decide), countOf_stamped (by decide)]

/-- In every state of a run the metrics of every session can be computed and are meaningful. -/
def MetricsMeaningful (host : Host Double) (db : Database) (inputs : List HubInput) : Prop :=
  ∀ before later, inputs = before ++ later → ∀ sessionId now, ∃ metrics,
    TelemetryManager.getMetrics host sessionId now (hubRun host db before).rooms
        (hubRun host db before).reports = some metrics ∧ Meaningful metrics

/-- In every state of a run the numbers that a session has reported add up. -/
def NeverOverflows (host : Host Double) (db : Database) (inputs : List HubInput) : Prop :=
  ∀ before later, inputs = before ++ later → ∀ sessionId,
    NoOverflow (TelemetryManager.peerReports sessionId (hubRun host db before).reports)

/-- The reports of a run are of the kind of its heartbeats. -/
theorem hubRun_allReports (kind : Json.Fields Double → Prop)
    (hstamp : ∀ payload peerId displayName, kind payload →
      kind (Json.setField "displayName" (.string displayName)
        (Json.setField "peerId" (.string peerId) payload)))
    (hbeats : ∀ input ∈ inputs, ∀ payload, HeartbeatOf host input.2 payload → kind payload) :
    ∀ sessionId, ∀ report ∈ TelemetryManager.peerReports sessionId (hubRun host db inputs).reports,
      kind report := by
  have hall : AllReports kind (hubRun host db inputs) := by
    refine run_invariant (AllReports kind) (fun hub input hall hallowed ↦
      (hubStep_move host hub input).allReports hall hstamp hallowed) ?_
      (along_of_forall hbeats _)
    intro sessionId peerId report hreport
    cases hreport
  intro sessionId report hmem
  obtain ⟨peerId, hreport⟩ := TelemetryManager.mem_peerReports.mp hmem
  exact hall sessionId peerId report hreport

/-- Heartbeats with numbers of usual size never make a sum overflow. -/
theorem neverOverflows_of_small
    (hsmall : ∀ input ∈ inputs, ∀ payload, HeartbeatOf host input.2 payload →
      SmallCount (countOf "downloadedBytesP2P" payload) ∧
        SmallCount (countOf "connectedPeersCount" payload)) : NeverOverflows host db inputs := by
  rintro before later rfl sessionId
  refine noOverflow_of_small (hubRun_allReports _ (fun payload peerId displayName hkind ↦ ?_)
    (fun input hinput payload hbeat ↦
      hsmall input (List.mem_append_left later hinput) payload hbeat) sessionId)
  rwa [countOf_stamped (by decide), countOf_stamped (by decide)]

/-- The reports of a session that has one. -/
theorem peerReports_lone (sessionId peerId : String) (report : PeerTelemetryReport Double) :
    TelemetryManager.peerReports sessionId
      (TelemetryManager.updatePeerReport sessionId peerId report OrderedMap.empty) = [report] := by
  unfold TelemetryManager.peerReports TelemetryManager.updatePeerReport
  rw [OrderedMap.get?_set_self, Option.map_some, Option.getD_some]
  exact OrderedMap.values_eq_singleton (OrderedMap.get?_set_self _ _ _) fun other hne ↦
    OrderedMap.get?_set_of_ne _ hne _

/-- The sum of one counter. -/
theorem sumOf_singleton (key : String) (report : PeerTelemetryReport Double) :
    sumOf key [report] = countOf key report := by
  change Floating.add .zero (countOf key report) = countOf key report
  cases countOf key report with
  | finite value =>
    change (.ofRat (0 + value.1) : Double) = _
    rw [zero_add, Floating.ofRat_of_representable value.2]
  | infinity | nan => rfl

/-- Of a session with a single report the metrics are meaningful exactly if its numbers of bytes are
not negative, and that of the bytes from peers is not infinite. -/
theorem meaningful_lone_iff (hdoubles : ComputesWithDoubles host) {payload : Json.Fields Double}
    (hpayload : NumericCounts payload) (sessionId peerId displayName : String) (now : ℕ)
    (rooms : Rooms) :
    (∃ metrics, TelemetryManager.getMetrics host sessionId now rooms
        (TelemetryManager.updatePeerReport sessionId peerId
          (Json.setField "displayName" (.string displayName)
            (Json.setField "peerId" (.string peerId) payload)) OrderedMap.empty) =
      some metrics ∧ Meaningful metrics) ↔
      NonnegativeBytes payload ∧ countOf "downloadedBytesP2P" payload ≠ .infinity false := by
  have hlone := peerReports_lone sessionId peerId
    (Json.setField "displayName" (.string displayName)
      (Json.setField "peerId" (.string peerId) payload))
  have hstamped := (numericCounts_stamped peerId displayName).mpr hpayload
  have hchannels : countOf "connectedPeersCount" payload ≠ .nan := by
    unfold countOf
    split
    · next value hfield =>
      obtain ⟨count, hcount, hnan⟩ := hpayload "connectedPeersCount" (by decide) _ hfield
      rwa [Json.number.inj hcount]
    · nofun
  rw [getMetrics_of_numbers hdoubles (by rw [hlone]; simpa using hstamped)]
  simp only [Option.some.injEq, exists_eq_left', meaningful_iff, hlone, sumOf_singleton]
  rw [countOf_stamped (by decide), countOf_stamped (by decide), countOf_stamped (by decide)]
  constructor
  · rintro ⟨hP2P, hfinite, hServer, _⟩
    exact ⟨⟨hP2P, hServer⟩, hfinite⟩
  · rintro ⟨⟨hP2P, hServer⟩, hfinite⟩
    exact ⟨hP2P, hfinite, hServer, hchannels⟩

/-- **When metrics are meaningful.** In every run in which the counters of the heartbeats are
numbers or missing, their numbers of bytes are not negative, and no sum overflows, all metrics that
the server can compute are meaningful. Of a session with a single report they are so exactly if its
numbers of bytes are not negative, and that of the bytes from peers is not infinite. -/
theorem metrics_meaningful (hdoubles : ComputesWithDoubles host)
    (hcounts : ∀ input ∈ inputs, ∀ payload, HeartbeatOf host input.2 payload →
      NumericCounts payload) :
    ((∀ input ∈ inputs, ∀ payload, HeartbeatOf host input.2 payload → NonnegativeBytes payload) →
      NeverOverflows host db inputs → MetricsMeaningful host db inputs) ∧
    ∀ sessionId peerId displayName payload now rooms, NumericCounts payload →
      ((∃ metrics, TelemetryManager.getMetrics host sessionId now rooms
          (TelemetryManager.updatePeerReport sessionId peerId
            (Json.setField "displayName" (.string displayName)
              (Json.setField "peerId" (.string peerId) payload)) OrderedMap.empty) =
        some metrics ∧ Meaningful metrics) ↔
        NonnegativeBytes payload ∧ countOf "downloadedBytesP2P" payload ≠ .infinity false) := by
  constructor
  · rintro hbytes hoverflow before later rfl sessionId now
    have hsession : ∀ report ∈ TelemetryManager.peerReports sessionId
        (hubRun host db before).reports, NumericCounts report ∧ NonnegativeBytes report := by
      refine hubRun_allReports (fun report ↦ NumericCounts report ∧ NonnegativeBytes report)
        (fun payload peerId displayName hkind ↦ ?_) (fun input hinput payload hbeat ↦ ?_) sessionId
      · exact ⟨(numericCounts_stamped peerId displayName).mpr hkind.1,
          (nonnegativeBytes_stamped peerId displayName).mpr hkind.2⟩
      · have hmem := List.mem_append_left later hinput
        exact ⟨hcounts input hmem payload hbeat, hbytes input hmem payload hbeat⟩
    obtain ⟨hfinite, hchannels⟩ := hoverflow before later rfl sessionId
    exact ⟨_, getMetrics_of_numbers hdoubles fun report hmem ↦ (hsession report hmem).1,
      meaningful_iff.mpr ⟨isNonneg_sumOf fun report hmem ↦ (hsession report hmem).2.1, hfinite,
        isNonneg_sumOf fun report hmem ↦ (hsession report hmem).2.2, hchannels⟩⟩
  · intro sessionId peerId displayName payload now rooms hpayload
    exact meaningful_lone_iff hdoubles hpayload sessionId peerId displayName now rooms

end Runs

/-! ### A negative number of bytes -/

/-- A heartbeat that reports a number of bytes from peers. -/
def heartbeatTable (downloadedBytesP2P : ℤ) : List (String × Json Double) :=
  [(heartbeat, heartbeatFrame (.number (.ofRat downloadedBytesP2P)))]

/-- A student connects and sends the heartbeat. -/
def lone : List HubInput := [(1, .connection alice), (2, .message alice heartbeat)]

/-- The payload of the heartbeat. -/
theorem heartbeatOf_lone {downloadedBytesP2P : ℤ} {input : HubInput} (hinput : input ∈ lone)
    {payload : Json.Fields Double}
    (hbeat : HeartbeatOf (doubleHost (heartbeatTable downloadedBytesP2P)) input.2 payload) :
    payload = [("downloadedBytesP2P", .number (.ofRat downloadedBytesP2P))] := by
  obtain ⟨socket, rawText, fields, hevent, hreceived, _, hpayload⟩ := hbeat
  simp only [lone, List.mem_cons, List.not_mem_nil, or_false] at hinput
  rcases hinput with rfl | rfl
  · cases hevent
  · cases hevent
    have hframe : receivedFrame (doubleHost (heartbeatTable downloadedBytesP2P)) alice heartbeat =
        some (stamp alice [("type", .string "telemetry-heartbeat"),
          ("payload", .object [("downloadedBytesP2P",
            .number (.ofRat (downloadedBytesP2P : ℚ)))])]) := rfl
    rw [hframe] at hreceived
    obtain rfl := Option.some.inj hreceived
    exact (Option.some.inj hpayload).symm

theorem numericCounts_single (count : ℤ) :
    NumericCounts [("downloadedBytesP2P", .number (.ofRat count))] := by
  intro key _ value hfield
  by_cases hkey : "downloadedBytesP2P" = key
  · rw [← hkey] at hfield
    exact ⟨.ofRat count, (Option.some.inj hfield).symm, Floating.ofRat_ne_nan _⟩
  · simp [Json.getField, hkey] at hfield

/-- The counters of the heartbeat are numbers. -/
theorem numericCounts_lone {downloadedBytesP2P : ℤ} {input : HubInput} (hinput : input ∈ lone)
    {payload : Json.Fields Double}
    (hbeat : HeartbeatOf (doubleHost (heartbeatTable downloadedBytesP2P)) input.2 payload) :
    NumericCounts payload := by
  rw [heartbeatOf_lone hinput hbeat]
  exact numericCounts_single downloadedBytesP2P

/-- A student who has received seven bytes from peers. -/
theorem metrics_meaningful_lone :
    MetricsMeaningful (doubleHost (heartbeatTable 7)) classroom lone := by
  have hseven : (.ofRat ((7 : ℤ) : ℚ) : Double) = .finite ⟨7, by decide +kernel⟩ :=
    Floating.ofRat_of_representable _
  refine (metrics_meaningful (computesWithDoubles_doubleHost _)
    fun input hinput payload hbeat ↦ numericCounts_lone hinput hbeat).1
      (fun input hinput payload hbeat ↦ ?_) (neverOverflows_of_small
        fun input hinput payload hbeat ↦ ?_)
  · rw [heartbeatOf_lone hinput hbeat, hseven]
    decide +kernel
  · rw [heartbeatOf_lone hinput hbeat, hseven]
    exact ⟨⟨_, rfl, by decide +kernel⟩, ⟨_, rfl, by decide +kernel⟩⟩

/-- A heartbeat with one negative number is shown to the room as a negative total. -/
theorem metrics_negative :
    (∀ input ∈ lone, ∀ payload, HeartbeatOf (doubleHost (heartbeatTable (-1))) input.2 payload →
      NumericCounts payload) ∧
    ¬ MetricsMeaningful (doubleHost (heartbeatTable (-1))) classroom lone := by
  refine ⟨fun input hinput payload hbeat ↦ numericCounts_lone hinput hbeat, fun hmeaning ↦ ?_⟩
  have hnumeric : ∀ report ∈ TelemetryManager.peerReports "session"
      (hubRun (doubleHost (heartbeatTable (-1))) classroom lone).reports, NumericCounts report :=
    hubRun_allReports NumericCounts
      (fun _ peerId displayName ↦ (numericCounts_stamped peerId displayName).mpr)
      (fun input hinput payload hbeat ↦ numericCounts_lone hinput hbeat) "session"
  obtain ⟨metrics, hmetrics, htotals⟩ := hmeaning lone [] rfl "session" 3
  rw [getMetrics_of_numbers (computesWithDoubles_doubleHost _) hnumeric] at hmetrics
  rw [← Option.some.inj hmetrics, meaningful_iff] at htotals
  exact absurd htotals.1 (by decide +kernel)

end CampusMesh.Server
