import CampusMesh.Library.Network
import CampusMesh.Web.GenuineChunks

/-!
# Swarms

The peers of a room together, each a coordinator with its schedulers and its store, over data
channels that may delay, reorder, repeat and drop frames. The peers trust each other in a circle:
what one serves another stores and serves again. `network_invariant` cuts the circle.

The rule is stated for any custody that the schedulers keep (`accepting_of_kept`). So in a swarm
whose frames all come from its peers and whose origin delivers the file, no check of a chunk ever
fails (`honest_swarm`). In any swarm, whatever frames are forged and whatever the origin delivers,
no peer stores or serves a byte that is not part of a chunk that passed the check of a known
manifest (`pollution_contained`).
-/

set_option autoImplicit false
set_option relaxedAutoImplicit false

namespace CampusMesh.Web

open Library Shared SchedulerState CoordinatorState

variable {σ : Type} (digest : Bytes → Bytes) (chunkStore : ListingStore σ)

/-! ### The system -/

/-- Coordinators as parties: they hand frames to channels, and a frame that arrives is a message
from its sender. -/
def swarmKind : PartyKind String (CoordinatorState σ) CoordinatorInput Bytes Env where
  step := coordinatorStep digest chunkStore
  record := CoordinatorState.sent
  arrival env sender frame := (env, .dataMessage sender frame)

/-- A swarm of new peers with their stores. -/
def newSwarm (stores : String → σ) : String → CoordinatorState σ := fun peerId ↦
  CoordinatorState.new peerId (stores peerId)

abbrev SwarmEvent := NetworkEvent String CoordinatorInput Env

/-- The run of a swarm. -/
def swarmRun (stores : String → σ) (events : List SwarmEvent) : String → CoordinatorState σ :=
  run (networkStep (swarmKind digest chunkStore)) (newSwarm stores) events

section Custody

variable {digest chunkStore} {custody : Custody} {known : ResourceManifest → Prop}
  {allowed : ChunkScheduler → SchedulerEvent → Prop}

/-- Every peer holds and sends accepted chunks only, if what comes from outside is allowed, and what
the peers send each other is. -/
theorem accepting_of_kept (hkept : custody.Kept digest known allowed)
    (hwired : Wired custody.accepted) {stores : String → σ}
    (hstores : ∀ peerId, StoreAccepts custody.accepted chunkStore.toIChunkStore (stores peerId))
    (harrives : ∀ (state : CoordinatorState σ) sender frame,
      CarriesAccepted custody.accepted frame →
        InputAllowed known allowed state (.dataMessage sender frame))
    {events : List SwarmEvent}
    (hallowed : Along (networkStep (swarmKind digest chunkStore))
      (ActsAllowed fun _ state input ↦ InputAllowed known allowed state input.2)
      (newSwarm stores) events) (peerId : String) :
    Accepting chunkStore.toIChunkStore custody.accepted known (custody.Holds known)
      (swarmRun digest chunkStore stores events peerId) :=
  network_invariant (fun _ frame ↦ CarriesAccepted custody.accepted frame)
    (fun _ _ _ haccepting hinput ↦
      haccepting.step (hkept.guards chunkStore.toIChunkStore) hwired hinput)
    (fun _ state _ sender frame _ hcarries ↦ harrives state sender frame hcarries)
    (fun _ _ haccepting ↦ haccepting.sent)
    (fun party ↦ accepting_new chunkStore.toIChunkStore _ _ _ party (hstores party)) hallowed peerId

end Custody

/-! ### Honest swarms -/

/-- What comes to an honest peer from outside the swarm: downloads of known resources and what the
origin delivers, the chunk that was asked for. No frame comes from outside. -/
def HonestInput (truth : String → ℕ → Option Bytes) (known : ResourceManifest → Prop) (_ : String)
    (state : CoordinatorState σ) (input : CoordinatorInput) : Prop :=
  match input.2 with
  | .dataMessage _ _ => False
  | .startDownload manifest => known manifest
  | .settled index task (.fetched data) =>
    ∀ scheduler, state.schedulers[index]? = some scheduler →
      ∀ waiting, scheduler.tasks[task]? = some waiting →
        truth scheduler.manifest.resourceId waiting.chunkIndex = some data
  | _ => True

variable {digest chunkStore} {truth : String → ℕ → Option Bytes} {known : ResourceManifest → Prop}

/-- What comes from outside brings only bytes of the file. -/
theorem inputAllowed_of_honest (peerId : String) {state : CoordinatorState σ}
    {input : CoordinatorInput} (hhonest : HonestInput truth known peerId state input) :
    InputAllowed known (BringsGenuine truth) state input.2 := by
  obtain ⟨env, event⟩ := input
  cases event with
  | dataMessage => exact absurd hhonest id
  | startDownload manifest => exact hhonest
  | settled index task settlement =>
    intro scheduler hscheduler
    cases settlement with
    | fetched data => exact hhonest scheduler hscheduler
    | _ => trivial
  | _ => trivial

/-- A task at hand waits for the chunk that the origin delivers. -/
theorem honestInput_of_waiting {peerId : String} {state : CoordinatorState σ} {env : Env}
    {index task : ℕ} {data : Bytes}
    (hwaiting : (state.schedulers[index]?.bind fun scheduler ↦ scheduler.tasks[task]?.map
      fun waiting ↦ truth scheduler.manifest.resourceId waiting.chunkIndex) = some (some data)) :
    HonestInput truth known peerId state (env, .settled index task (.fetched data)) := by
  intro scheduler hscheduler waiting htask
  rw [hscheduler, Option.bind_some, htask, Option.map_some] at hwaiting
  exact Option.some.inj hwaiting

/-- So does a frame that carries an accepted chunk. -/
theorem inputAllowed_of_carries {state : CoordinatorState σ} {sender : String} {frame : Bytes}
    (hcarries : CarriesAccepted (IsTrue truth) frame) :
    InputAllowed known (BringsGenuine truth) state (.dataMessage sender frame) := by
  intro resourceId chunkIndex beginOffset totalLength data hdecodes scheduler _ hresource
  rw [BringsGenuine, hresource]
  exact hcarries resourceId chunkIndex beginOffset totalLength data hdecodes

/-- Every peer of an honest swarm holds and sends only what is in the file. -/
theorem accepting_of_honest (hwired : Wired (IsTrue truth)) {stores : String → σ}
    (hstores : ∀ peerId, StoreAccepts (IsTrue truth) chunkStore.toIChunkStore (stores peerId))
    {events : List SwarmEvent}
    (hhonest : Along (networkStep (swarmKind digest chunkStore))
      (ActsAllowed (HonestInput truth known)) (newSwarm stores) events) (peerId : String) :
    Accepting chunkStore.toIChunkStore (IsTrue truth) known ((genuineCustody truth).Holds known)
      (swarmRun digest chunkStore stores events peerId) := by
  refine accepting_of_kept (kept_genuine digest truth known) hwired hstores
    (fun _ _ _ hcarries ↦ inputAllowed_of_carries hcarries)
    (hhonest.mono fun system event hevent ↦ ?_) peerId
  cases event with
  | acts party input => exact inputAllowed_of_honest party hevent
  | delivers => trivial

/-- **Honest swarms never fail a check.** Frames come from peers only, in any order and number, and
the origin delivers what is in the file. Then at every peer, whatever else happens, the store holds
the file, every PIECE that was sent is a block of it, and whenever bytes wait for verification they
are those of the file and will pass. -/
theorem honest_swarm (digest : Bytes → Bytes) (chunkStore : ListingStore σ)
    (truth : String → ℕ → Option Bytes) (known : ResourceManifest → Prop)
    (hwired : Wired (IsTrue truth)) (hpublished : ∀ manifest, known manifest →
      Publishes truth digest manifest)
    (stores : String → σ)
    (hstores : ∀ peerId, StoreAccepts (IsTrue truth) chunkStore.toIChunkStore (stores peerId))
    (events : List SwarmEvent)
    (hhonest : Along (networkStep (swarmKind digest chunkStore))
      (ActsAllowed (HonestInput truth known)) (newSwarm stores) events) (peerId : String) :
    let reached := swarmRun digest chunkStore stores events peerId
    StoreAccepts (IsTrue truth) chunkStore.toIChunkStore reached.store ∧
      (∀ entry ∈ reached.sent, CarriesAccepted (IsTrue truth) entry.2) ∧
      ∀ scheduler ∈ reached.schedulers, ∀ task ∈ scheduler.tasks, ∀ expected data latencyMs,
        task.stage = .verifying expected data latencyMs →
          truth scheduler.manifest.resourceId task.chunkIndex = some data ∧
            (verify digest data expected).valid = true := by
  intro reached
  have haccepting : Accepting chunkStore.toIChunkStore (IsTrue truth) known
      ((genuineCustody truth).Holds known) reached :=
    accepting_of_honest hwired hstores hhonest peerId
  refine ⟨haccepting.store, haccepting.sent, fun scheduler hscheduler task htask expected data
    latencyMs hstage ↦ ?_⟩
  have hholds := haccepting.schedulers scheduler hscheduler
  have hwf := (haccepting.grounded.schedulers scheduler hscheduler).wellFormed []
  exact ⟨(hholds.tasks task htask).verifying expected data latencyMs hstage,
    valid_of_genuine hholds (hpublished _ hholds.known) hwf.tasks_ok htask hstage⟩

/-- The one chunk of the one resource. -/
def oneChunkTruth (resourceId : String) (chunkIndex : ℕ) : Option Bytes :=
  if resourceId = "res_1" ∧ chunkIndex = 0 then some [7] else none

theorem isTrue_oneChunkTruth {resourceId : String} {chunkIndex : ℕ} {data : Bytes} :
    IsTrue oneChunkTruth resourceId chunkIndex data ↔
      resourceId = "res_1" ∧ chunkIndex = 0 ∧ data = [7] := by
  unfold IsTrue oneChunkTruth
  split_ifs with hone
  · rw [Option.some.injEq, eq_comm]
    exact ⟨fun hdata ↦ ⟨hone.1, hone.2, hdata⟩, fun h ↦ h.2.2⟩
  · exact iff_of_false (by simp) fun h ↦ hone ⟨h.1, h.2.1⟩

/-- A peer downloads the chunk from the origin and announces it to another one, which requests it
and is served. The first two lines connect them. -/
def relayedRun : List SwarmEvent :=
  [.acts "a" (calmEnv, .peerDiscovered "b"), .acts "a" (calmEnv, .channelOpened "b"),
    .acts "b" (calmEnv, .peerDiscovered "a"), .acts "b" (calmEnv, .channelOpened "a"),
    .acts "a" (calmEnv, .startDownload oneChunkManifest), .acts "a" (calmEnv, .startRead 0),
    .acts "a" (calmEnv, .startResumed 0), .acts "a" (calmEnv, .settled 0 0 (.fetched [7])),
    .acts "a" (calmEnv, .settled 0 0 .verified), .acts "a" (calmEnv, .settled 0 0 .written),
    .acts "a" (calmEnv, .settled 0 0 .putDone),
    .acts "b" (calmEnv, .startDownload oneChunkManifest), .delivers "a" "b" 1 calmEnv,
    .acts "b" (calmEnv, .startRead 0), .acts "b" (calmEnv, .startResumed 0),
    .delivers "b" "a" 1 calmEnv, .acts "a" (calmEnv, .serveRead 0),
    .acts "a" (calmEnv, .serveResumed 0), .delivers "a" "b" 2 calmEnv]

/-- The chunk that the second peer waits to verify is the one of the file. -/
theorem honest_swarm_relayedRun :
    let reached := swarmRun id IndexedDbChunkStore (fun _ ↦ ChunkRecords.empty) relayedRun "b"
    (reached.schedulers.map fun scheduler ↦ scheduler.tasks.length) = [1] ∧
      ∀ scheduler ∈ reached.schedulers, ∀ task ∈ scheduler.tasks, ∀ expected data latencyMs,
        task.stage = .verifying expected data latencyMs →
          oneChunkTruth scheduler.manifest.resourceId task.chunkIndex = some data ∧
            (verify id data expected).valid = true := by
  have hwired : Wired (IsTrue oneChunkTruth) := by
    constructor
    all_goals
      intro resourceId chunkIndex data htrue
      obtain ⟨rfl, rfl, rfl⟩ := isTrue_oneChunkTruth.mp htrue
      decide
  have hpublished : ∀ manifest, manifest = oneChunkManifest →
      Publishes oneChunkTruth id manifest := by
    rintro manifest rfl chunkIndex expected data hexpected htrue
    obtain ⟨-, rfl, rfl⟩ := isTrue_oneChunkTruth.mp htrue
    rw [← Option.some.inj ((show expectedHash oneChunkManifest 0 = some "07" from rfl).symm.trans
      hexpected)]
    decide
  have hstores : ∀ peerId : String, StoreAccepts (IsTrue oneChunkTruth)
      IndexedDbChunkStore.toIChunkStore ((fun _ ↦ ChunkRecords.empty) peerId) := by
    intro peerId resourceId chunkIndex data hget
    cases hget
  refine ⟨by decide +kernel, (honest_swarm id IndexedDbChunkStore oneChunkTruth
    (fun manifest ↦ manifest = oneChunkManifest) hwired hpublished _ hstores relayedRun ?_ "b").2.2⟩
  refine ⟨trivial, trivial, trivial, trivial, rfl, trivial, trivial, ?_, trivial, trivial, trivial,
    rfl, trivial, trivial, trivial, trivial, trivial, trivial, trivial, trivial⟩
  change HonestInput oneChunkTruth (fun manifest ↦ manifest = oneChunkManifest) "a" _
    (calmEnv, .settled 0 0 (.fetched [7]))
  exact honestInput_of_waiting (by decide +kernel)

/-! ### Any swarm -/

/-- Downloads are of known resources, and chunks that the origin delivers are short, where a check
would let them pass. -/
def DeliversShort (digest : Bytes → Bytes) (known : ResourceManifest → Prop) :
    SwarmEvent → Prop
  | .acts _ (_, .startDownload manifest) => known manifest
  | .acts _ (_, .settled _ _ (.fetched data)) => ∀ resourceId chunkIndex,
    Checked digest known resourceId chunkIndex data → data.length < 2 ^ 32
  | _ => True

/-- Any frame may come from outside. -/
theorem inputAllowed_of_short {event : SwarmEvent} (hshort : DeliversShort digest known event)
    (system : String → CoordinatorState σ) :
    ActsAllowed (fun _ state input ↦
      InputAllowed known (fun _ ↦ BringsShort digest known) state input.2) system event := by
  cases event with
  | delivers => trivial
  | acts party input =>
    obtain ⟨env, event⟩ := input
    cases event with
    | startDownload manifest => exact hshort
    | dataMessage sender frame =>
      intro resourceId chunkIndex beginOffset totalLength data hdecodes _ _ _
      exact (fieldsFit_of_decodes hdecodes).2.2.1
    | settled index task settlement =>
      intro _ _
      cases settlement with
      | fetched data => exact hshort
      | _ => trivial
    | _ => trivial

/-- **Pollution is contained.** Frames may be forged in the name of any peer and the origin may
deliver anything, if only what passes a check is not longer than a PIECE can tell. If the stores
hold nothing else at the beginning, then at every peer all that the store holds, and all chunks that
the PIECEs it sent are blocks of, pass the check of a known manifest. -/
theorem pollution_contained (digest : Bytes → Bytes) (chunkStore : ListingStore σ)
    (known : ResourceManifest → Prop) (hwired : Wired (ShortChecked digest known))
    (stores : String → σ)
    (hstores : ∀ peerId, StoreAccepts (ShortChecked digest known) chunkStore.toIChunkStore
      (stores peerId))
    (events : List SwarmEvent) (hshort : ∀ event ∈ events, DeliversShort digest known event)
    (peerId : String) :
    let reached := swarmRun digest chunkStore stores events peerId
    StoreAccepts (ShortChecked digest known) chunkStore.toIChunkStore reached.store ∧
      ∀ entry ∈ reached.sent, CarriesAccepted (ShortChecked digest known) entry.2 := by
  intro reached
  have hallowed : Along (networkStep (swarmKind digest chunkStore))
      (ActsAllowed fun _ state input ↦
        InputAllowed known (fun _ ↦ BringsShort digest known) state input.2)
      (newSwarm stores) events :=
    (along_of_forall hshort _).mono fun system event hevent ↦ inputAllowed_of_short hevent system
  have haccepting : Accepting chunkStore.toIChunkStore (ShortChecked digest known) known
      ((checkedCustody digest known).Holds known) reached :=
    accepting_of_kept (kept_checked digest known) hwired hstores
      (fun _ _ _ _ resourceId chunkIndex beginOffset totalLength data hdecodes _ _ _ ↦
        (fieldsFit_of_decodes hdecodes).2.2.1) hallowed peerId
  exact ⟨haccepting.store, haccepting.sent⟩

/-- A stranger announces the chunk, sends a forged byte, and later asks for the chunk, which the
peer meanwhile has from the origin. -/
def forgedRun : List SwarmEvent :=
  [.peerDiscovered "b", .channelOpened "b", .startDownload oneChunkManifest,
    .dataMessage "b" [1, 2, 5, 114, 101, 115, 95, 49, 0, 0, 0, 0], .startRead 0, .startResumed 0,
    .dataMessage "b" [1, 4, 5, 114, 101, 115, 95, 49, 0, 0, 0, 0, 0, 0, 0, 0, 0, 0, 0, 1, 0, 0, 0,
      1, 8],
    .settled 0 0 .verified, .settled 0 1 (.fetched [7]), .settled 0 1 .verified,
    .settled 0 1 .written, .settled 0 1 .putDone,
    .dataMessage "b" [1, 3, 5, 114, 101, 115, 95, 49, 0, 0, 0, 0], .serveRead 0,
    .serveResumed 0].map fun event ↦ .acts "a" (calmEnv, event)

/-- The chunk is served, and what is served passed the check. -/
theorem pollution_contained_forgedRun :
    let reached := swarmRun id IndexedDbChunkStore (fun _ ↦ ChunkRecords.empty) forgedRun "a"
    (reached.sent.map fun entry ↦ (entry.1, decide (HasType .PIECE entry.2))) =
        [("b", false), ("b", false), ("b", false), ("b", true)] ∧
      ∀ entry ∈ reached.sent,
        CarriesAccepted (ShortChecked id fun manifest ↦ manifest = oneChunkManifest) entry.2 := by
  have hone : ∀ resourceId chunkIndex data,
      Checked id (fun manifest ↦ manifest = oneChunkManifest) resourceId chunkIndex data →
        resourceId = "res_1" ∧ chunkIndex = 0 ∧ data = [7] := by
    rintro _ chunkIndex data ⟨manifest, rfl, rfl, hverified⟩
    cases chunkIndex with
    | zero => exact ⟨rfl, rfl, eq_of_verified (fun _ _ h ↦ h)
        (show expectedHash oneChunkManifest 0 = some (hexText [7]) by decide) hverified⟩
    | succ index =>
      obtain ⟨expected, hexpected, -⟩ := hverified
      exact absurd hexpected (by simp [expectedHash, oneChunkManifest, truthyText])
  have hwired : Wired (ShortChecked id fun manifest ↦ manifest = oneChunkManifest) := by
    constructor
    all_goals
      intro resourceId chunkIndex data hchecked
      obtain ⟨rfl, rfl, rfl⟩ := hone resourceId chunkIndex data hchecked.1
      decide
  have hstores : ∀ peerId : String,
      StoreAccepts (ShortChecked id fun manifest ↦ manifest = oneChunkManifest)
        IndexedDbChunkStore.toIChunkStore ((fun _ ↦ ChunkRecords.empty) peerId) := by
    intro peerId resourceId chunkIndex data hget
    cases hget
  refine ⟨by decide +kernel, (pollution_contained id IndexedDbChunkStore
    (fun manifest ↦ manifest = oneChunkManifest) hwired _ hstores forgedRun ?_ "a").2⟩
  refine List.forall_mem_map.mpr ?_
  simp only [List.forall_mem_cons]
  refine ⟨trivial, trivial, rfl, trivial, trivial, trivial, trivial, trivial, ?_, trivial, trivial,
    trivial, trivial, trivial, trivial, fun _ hmem ↦ absurd hmem List.not_mem_nil⟩
  intro resourceId chunkIndex _
  decide

end CampusMesh.Web
