import CampusMesh.Web.CoordinatorInvariants
import CampusMesh.Shared.WireGrammar

/-!
# What the coordinator advertises

A BITFIELD frame goes out when a data channel opens and when a download begins. It is truthful when
it decodes to the resource and the size of one manifest and marks only stored chunks of that
resource (`TruthfulFrame`).

When a channel opens, the frame takes the resource from `currentManifest` and the marks from the
scheduler. `startDownload` changes the former at once and the latter only behind its `await`, or not
at all when everything is cached. `AdvertisesOwn` is the condition that both are about the same
download; under it every step advertises truthfully, and a peer whose channel opens after
`startDownload` has returned learns of every chunk that was stored
(`truthfulAdvertisement_of_advertisesOwn`).
-/

set_option autoImplicit false
set_option relaxedAutoImplicit false

namespace CampusMesh.Web

open Library Shared SchedulerState CoordinatorState

variable {σ : Type}

/-! ### The promise -/

/-- The manifest was handed to `startDownload` in these inputs. -/
def Started (inputs : List CoordinatorInput) (manifest : ResourceManifest) : Prop :=
  ∃ input ∈ inputs, input.2 = .startDownload manifest

/-- A manifest whose resource id and size survive the wire. -/
structure Sendable (manifest : ResourceManifest) : Prop where
  fits : FitsHeader manifest.resourceId
  text : RoundTripsText manifest.resourceId
  total : manifest.totalChunks < 2 ^ 32

/-- Two manifests are about the same resource in the same number of chunks. -/
structure SameDownload (first second : ResourceManifest) : Prop where
  resourceId : first.resourceId = second.resourceId
  totalChunks : first.totalChunks = second.totalChunks

/-- If the frame is a BITFIELD, it decodes to the resource and the size of one manifest and marks
only chunks that are stored of this resource. -/
def TruthfulFrame (known : ResourceManifest → Prop) (chunkStore : IChunkStore σ) (store : σ)
    (frame : Bytes) : Prop :=
  HasType .BITFIELD frame → ∃ manifest bitfield, known manifest ∧
    decodeMessage frame = .ok (.BITFIELD manifest.resourceId manifest.totalChunks bitfield) ∧
    ∀ chunkIndex, bitfield.has chunkIndex = true →
      Present chunkStore store manifest.resourceId chunkIndex

/-- A BITFIELD frame for a manifest that marks given chunks. -/
def Advertises (manifest : ResourceManifest) (stored : List ℕ) (frame : Bytes) : Prop :=
  ∃ bitfield, decodeMessage frame =
      .ok (.BITFIELD manifest.resourceId manifest.totalChunks bitfield) ∧
    ∀ chunkIndex ∈ stored, bitfield.has chunkIndex = true

/-- The frames that a step hands to channels. -/
def newFrames (state next : CoordinatorState σ) : List (String × Bytes) :=
  next.sent.drop state.sent.length

/-- A step advertises truthfully: its BITFIELD frames are truthful, and when a channel opens after
`startDownload` has returned, its peer gets one that marks every chunk stored at the call. -/
structure TruthfulStep (known : ResourceManifest → Prop) (chunkStore : IChunkStore σ)
    (state : CoordinatorState σ) (event : CoordinatorEvent) (next : CoordinatorState σ) : Prop where
  frames : ∀ entry ∈ newFrames state next, TruthfulFrame known chunkStore next.store entry.2
  opened : ∀ remotePeerId, event = .channelOpened remotePeerId →
    state.peers.has remotePeerId = true → ∀ manifest stored,
      state.history.returned = some (manifest, stored) →
        ∃ frame, (remotePeerId, frame) ∈ newFrames state next ∧ Advertises manifest stored frame

/-- Every step of the run of a new coordinator advertises truthfully. -/
def TruthfulAdvertisement (digest : Bytes → Bytes) (chunkStore : ListingStore σ)
    (localPeerId : String) (store : σ) (inputs : List CoordinatorInput) : Prop :=
  Along (coordinatorStep digest chunkStore) (fun state input ↦
      TruthfulStep (Started inputs) chunkStore.toIChunkStore state input.2
        (coordinatorStep digest chunkStore state input))
    (CoordinatorState.new localPeerId store) inputs

/-- When a channel opens, the scheduler is for the current manifest, and if `startDownload` has
returned, there is one: the one that this call installed, or one that has all chunks. -/
def AdvertisesOwn (state : CoordinatorState σ) : CoordinatorEvent → Prop
  | .channelOpened remotePeerId => state.peers.has remotePeerId = true →
    ∀ manifest, state.currentManifest = some manifest →
      (∀ scheduler, IsCurrent state scheduler → SameDownload scheduler.manifest manifest) ∧
      (state.history.returned.isSome = true → ∃ scheduler, IsCurrent state scheduler ∧
        (scheduler.localBitfield.isComplete = true ∨
          ∃ call, state.history.installed = some call ∧ call + 1 = state.history.startCalls))
  | _ => True

/-! ### Frames -/

section Frames

variable {digest : Bytes → Bytes} {chunkStore : ListingStore σ} {env : Env}
  {state next last : CoordinatorState σ} {ok : Bytes → Prop}

/-- Only frames with a property are added. -/
def Adds (ok : Bytes → Prop) (state next : CoordinatorState σ) : Prop :=
  ∃ frames : List (String × Bytes), next.sent = state.sent ++ frames ∧
    ∀ entry ∈ frames, ok entry.2

theorem adds_of_eq (ok : Bytes → Prop) (heq : next.sent = state.sent) : Adds ok state next :=
  ⟨[], by rw [heq, List.append_nil], fun _ h ↦ absurd h List.not_mem_nil⟩

theorem Adds.trans (hfirst : Adds ok state next) (hsecond : Adds ok next last) :
    Adds ok state last := by
  obtain ⟨first, hnext, hokFirst⟩ := hfirst
  obtain ⟨second, hlast, hokSecond⟩ := hsecond
  refine ⟨first ++ second, by rw [hlast, hnext, List.append_assoc], fun entry hmem ↦ ?_⟩
  exact (List.mem_append.mp hmem).elim (hokFirst entry) (hokSecond entry)

theorem Adds.mono {weaker : Bytes → Prop} (hadds : Adds ok state next)
    (hweaker : ∀ frame, ok frame → weaker frame) : Adds weaker state next := by
  obtain ⟨frames, hsent, hok⟩ := hadds
  exact ⟨frames, hsent, fun entry hmem ↦ hweaker _ (hok entry hmem)⟩

/-- The frames of a step are those added. -/
theorem Adds.newFrames (hadds : Adds ok state next) :
    ∀ entry ∈ Web.newFrames state next, ok entry.2 := by
  obtain ⟨frames, hsent, hok⟩ := hadds
  rwa [Web.newFrames, hsent, List.drop_left]

theorem adds_send (peerId : String) {frame : Bytes} (hok : ok frame) (state : CoordinatorState σ) :
    Adds ok state (send peerId frame state) := by
  unfold send
  split
  · split_ifs
    · exact ⟨[(peerId, frame)], rfl, fun entry hmem ↦ by rw [List.mem_singleton.mp hmem]; exact hok⟩
    · exact adds_of_eq ok rfl
  · exact adds_of_eq ok rfl

theorem adds_broadcast {frame : Bytes} (hok : ok frame) (state : CoordinatorState σ) :
    Adds ok state (broadcast frame state) := by
  refine ⟨_, rfl, fun entry hmem ↦ ?_⟩
  obtain ⟨peerId, _, rfl⟩ := List.mem_map.mp hmem
  exact hok

/-- A frame of another type than BITFIELD. -/
def PlainFrame (frame : Bytes) : Prop := ¬ HasType .BITFIELD frame

theorem plainFrame_of_hasType {type : WireMessageType} {frame : Bytes} (hframe : HasType type frame)
    (hne : type ≠ .BITFIELD) : PlainFrame frame := fun h ↦ hne (hframe.unique h)

theorem PlainFrame.truthful {frame : Bytes} (hplain : PlainFrame frame)
    (known : ResourceManifest → Prop) (chunkStore : IChunkStore σ) (store : σ) :
    TruthfulFrame known chunkStore store frame := fun h ↦ absurd h hplain

/-- The calls of a scheduler send requests and announcements of chunks. -/
theorem adds_applyCall {reached : SchedulerState σ} {call : Call}
    (hcall : CallOk anyBytes chunkStore.toIChunkStore reached call) (resourceId : String)
    (state : CoordinatorState σ) : Adds PlainFrame state (applyCall resourceId state call) := by
  cases call with
  | sendToPeer peerId frame sent =>
    obtain ⟨chunkIndex, hframe⟩ := hcall
    exact adds_send peerId
      (plainFrame_of_hasType (hasType_of_encodeChunkIndex hframe) (by decide)) state
  | broadcastToPeers frame =>
    obtain ⟨chunkIndex, hframe, _⟩ := hcall
    exact adds_broadcast
      (plainFrame_of_hasType (hasType_of_encodeChunkIndex hframe) (by decide)) state
  | _ => exact adds_of_eq PlainFrame rfl

theorem adds_applyCalls {reached : SchedulerState σ} {calls : List Call}
    (hcalls : ∀ call ∈ calls, CallOk anyBytes chunkStore.toIChunkStore reached call)
    (resourceId : String) (state : CoordinatorState σ) :
    Adds PlainFrame state (calls.foldl (applyCall resourceId) state) := by
  induction calls generalizing state with
  | nil => exact adds_of_eq PlainFrame rfl
  | cons call rest ih =>
    exact (adds_applyCall (hcalls call List.mem_cons_self) resourceId state).trans
      (ih (fun other hmem ↦ hcalls other (List.mem_cons_of_mem call hmem)) _)

theorem adds_onScheduler (hgrounded : Grounded chunkStore.toIChunkStore state)
    (digest : Bytes → Bytes) (env : Env) (index : ℕ) (event : SchedulerEvent) :
    Adds PlainFrame state (onScheduler digest chunkStore env index event state).1 := by
  rcases onScheduler_cases hgrounded digest env index event with
    heq | ⟨scheduler, reached, _, hperformed, _, heq⟩
  · exact adds_of_eq PlainFrame (by rw [heq])
  · have hactive : Adds PlainFrame state (performedState state index reached) :=
      adds_of_eq PlainFrame rfl
    rw [heq]
    exact hactive.trans (adds_applyCalls hperformed.holds.calls _ _)

end Frames

/-! ### Moves -/

section Moves

variable {digest : Bytes → Bytes} {chunkStore : ListingStore σ} {env : Env}
  {state next last : CoordinatorState σ}

/-- What handling an event leaves alone: which downloads were started and installed. Schedulers keep
their manifests and their marks. -/
structure Undisturbed (state next : CoordinatorState σ) : Prop where
  currentManifest : next.currentManifest = state.currentManifest
  scheduler : next.scheduler = state.scheduler
  starts : next.starts = state.starts
  startCalls : next.history.startCalls = state.history.startCalls
  installed : next.history.installed = state.history.installed
  returned : next.history.returned = state.history.returned
  schedulers : ∀ (index : ℕ) (later : ChunkScheduler), next.schedulers[index]? = some later →
    ∃ earlier : ChunkScheduler, state.schedulers[index]? = some earlier ∧
      later.manifest = earlier.manifest ∧
      ∀ chunkIndex, earlier.localBitfield.has chunkIndex = true →
        later.localBitfield.has chunkIndex = true

theorem Undisturbed.of_eq (hcoordinator : next.currentManifest = state.currentManifest)
    (hscheduler : next.scheduler = state.scheduler) (hstarts : next.starts = state.starts)
    (hstartCalls : next.history.startCalls = state.history.startCalls)
    (hinstalled : next.history.installed = state.history.installed)
    (hreturned : next.history.returned = state.history.returned)
    (hschedulers : next.schedulers = state.schedulers) : Undisturbed state next :=
  ⟨hcoordinator, hscheduler, hstarts, hstartCalls, hinstalled, hreturned,
    fun _ later hlater ↦ ⟨later, hschedulers ▸ hlater, rfl, fun _ ↦ id⟩⟩

theorem undisturbed_broadcast (frame : Bytes) (state : CoordinatorState σ) :
    Undisturbed state (broadcast frame state) := .of_eq rfl rfl rfl rfl rfl rfl rfl

theorem Undisturbed.trans (hfirst : Undisturbed state next) (hsecond : Undisturbed next last) :
    Undisturbed state last where
  currentManifest := hsecond.currentManifest.trans hfirst.currentManifest
  scheduler := hsecond.scheduler.trans hfirst.scheduler
  starts := hsecond.starts.trans hfirst.starts
  startCalls := hsecond.startCalls.trans hfirst.startCalls
  installed := hsecond.installed.trans hfirst.installed
  returned := hsecond.returned.trans hfirst.returned
  schedulers index later hlater := by
    obtain ⟨middle, hmiddle, hmanifest, hmarks⟩ := hsecond.schedulers index later hlater
    obtain ⟨earlier, hearlier, hmanifest', hmarks'⟩ := hfirst.schedulers index middle hmiddle
    exact ⟨earlier, hearlier, hmanifest.trans hmanifest', fun chunkIndex h ↦
      hmarks chunkIndex (hmarks' chunkIndex h)⟩

theorem onScheduler_undisturbed (hgrounded : Grounded chunkStore.toIChunkStore state)
    (digest : Bytes → Bytes) (env : Env) (index : ℕ) (event : SchedulerEvent) :
    Undisturbed state (onScheduler digest chunkStore env index event state).1 := by
  have h := onScheduler_uninvolved digest chunkStore env index event state
  exact ⟨h.currentManifest, h.scheduler, h.starts, h.startCalls, h.installed, h.returned,
    fun _ _ hlater ↦ onScheduler_schedulers hgrounded digest env index event hlater⟩

/-- Handling leaves the downloads alone and sends no BITFIELD frame. -/
theorem Handles.undisturbed (hhandles : Handles digest chunkStore env state next)
    (hgrounded : Grounded chunkStore.toIChunkStore state) :
    Undisturbed state next ∧ Adds PlainFrame state next := by
  have hkept : Onward chunkStore.toIChunkStore state next ∧
      Undisturbed state next ∧ Adds PlainFrame state next := by
    refine hhandles.keeps (fun reached ↦ Onward chunkStore.toIChunkStore state reached ∧
      Undisturbed state reached ∧ Adds PlainFrame state reached)
      (fun first second hmove ⟨honward, hsame, hadds⟩ ↦ ?_)
      ⟨Onward.refl _ state, .of_eq rfl rfl rfl rfl rfl rfl rfl, adds_of_eq PlainFrame rfl⟩
    have hstep : Handles digest chunkStore env first second := Relation.ReflTransGen.single hmove
    refine ⟨honward.trans hstep.onward, ?_⟩
    cases hmove with
    | books =>
      exact ⟨hsame.trans (.of_eq rfl rfl rfl rfl rfl rfl rfl),
        hadds.trans (adds_of_eq PlainFrame rfl)⟩
    | deliver peerId frame hplain =>
      exact ⟨hsame.trans (.of_eq rfl rfl rfl rfl rfl rfl rfl),
        hadds.trans ⟨[(peerId, frame)], rfl, fun entry hmem ↦ by
          rw [List.mem_singleton.mp hmem]; exact hplain⟩⟩
    | scheduler index event =>
      have hfirst := (honward hgrounded).1
      exact ⟨hsame.trans (onScheduler_undisturbed hfirst digest env index event),
        hadds.trans (adds_onScheduler hfirst digest env index event)⟩
  exact hkept.2

end Moves

/-! ### The invariant -/

/-- The current scheduler, if there is one, has marked given chunks. -/
def CurrentMarks (state : CoordinatorState σ) (stored : List ℕ) : Prop :=
  ∀ scheduler, IsCurrent state scheduler → ∀ chunkIndex ∈ stored,
    scheduler.localBitfield.has chunkIndex = true

/-- What is known once the latest call of `startDownload` has returned. -/
structure Returned (state : CoordinatorState σ) (manifest : ResourceManifest)
    (stored : List ℕ) : Prop where
  current : state.currentManifest = some manifest
  inRange : ∀ chunkIndex ∈ stored, chunkIndex < manifest.totalChunks
  notPending : ∀ start ∈ state.starts, start.call + 1 ≠ state.history.startCalls
  marks : ∀ call, state.history.installed = some call → call + 1 = state.history.startCalls →
    CurrentMarks state stored

/-- The books on calls of `startDownload`: they are about known manifests, every call has its own
number, the latest is for the current manifest, and none that still waits has installed the
scheduler. -/
structure Advertising (known : ResourceManifest → Prop) (chunkStore : IChunkStore σ)
    (state : CoordinatorState σ) : Prop where
  grounded : Grounded chunkStore state
  current : ∀ manifest, state.currentManifest = some manifest → known manifest
  starts : ∀ start ∈ state.starts, known start.manifest
  numbered : ∀ start ∈ state.starts, start.call < state.history.startCalls
  latest : ∀ start ∈ state.starts, start.call + 1 = state.history.startCalls →
    state.currentManifest = some start.manifest
  distinct : (state.starts.map PendingStart.call).Nodup
  uninstalled : ∀ start ∈ state.starts, state.history.installed ≠ some start.call
  earlier : ∀ call, state.history.installed = some call → call < state.history.startCalls
  returned : ∀ manifest stored, state.history.returned = some (manifest, stored) →
    Returned state manifest stored

section Invariant

variable {digest : Bytes → Bytes} {chunkStore : ListingStore σ} {env : Env}
  {known : ResourceManifest → Prop} {state next : CoordinatorState σ}

theorem CurrentMarks.undisturbed {stored : List ℕ} (hmarks : CurrentMarks state stored)
    (hsame : Undisturbed state next) : CurrentMarks next stored := by
  rintro later ⟨index, hindex, hlater⟩ chunkIndex hmem
  obtain ⟨earlier, hearlier, _, hkept⟩ := hsame.schedulers index later hlater
  exact hkept chunkIndex
    (hmarks earlier ⟨index, hsame.scheduler ▸ hindex, hearlier⟩ chunkIndex hmem)

theorem Returned.undisturbed {manifest : ResourceManifest} {stored : List ℕ}
    (hreturned : Returned state manifest stored) (hsame : Undisturbed state next) :
    Returned next manifest stored where
  current := hsame.currentManifest.trans hreturned.current
  inRange := hreturned.inRange
  notPending := by
    rw [hsame.starts, hsame.startCalls]
    exact hreturned.notPending
  marks := by
    rw [hsame.installed, hsame.startCalls]
    exact fun call hcall hlatest ↦ (hreturned.marks call hcall hlatest).undisturbed hsame

/-- The books stay in order while downloads are left alone. -/
theorem Advertising.undisturbed {chunkStore : IChunkStore σ}
    (hinv : Advertising known chunkStore state) (hsame : Undisturbed state next)
    (hgrounded : Grounded chunkStore next) : Advertising known chunkStore next where
  grounded := hgrounded
  current := by
    rw [hsame.currentManifest]
    exact hinv.current
  starts := by
    rw [hsame.starts]
    exact hinv.starts
  numbered := by
    rw [hsame.starts, hsame.startCalls]
    exact hinv.numbered
  latest := by
    rw [hsame.starts, hsame.startCalls, hsame.currentManifest]
    exact hinv.latest
  distinct := by
    rw [hsame.starts]
    exact hinv.distinct
  uninstalled := by
    rw [hsame.starts, hsame.installed]
    exact hinv.uninstalled
  earlier := by
    rw [hsame.installed, hsame.startCalls]
    exact hinv.earlier
  returned := by
    rw [hsame.returned]
    exact fun manifest stored h ↦ (hinv.returned manifest stored h).undisturbed hsame

theorem Advertising.handles (hinv : Advertising known chunkStore.toIChunkStore state)
    (hhandles : Handles digest chunkStore env state next) :
    Advertising known chunkStore.toIChunkStore next :=
  hinv.undisturbed (hhandles.undisturbed hinv.grounded).1 (hhandles.onward hinv.grounded).1

/-- A call of `startDownload` that goes on no longer waits. -/
theorem Advertising.erase {chunkStore : IChunkStore σ} (hinv : Advertising known chunkStore state)
    (index : ℕ) :
    Advertising known chunkStore { state with starts := state.starts.eraseIdx index } := by
  have hsubset : ∀ start ∈ state.starts.eraseIdx index, start ∈ state.starts := fun _ ↦
    List.mem_of_mem_eraseIdx
  refine ⟨⟨hinv.grounded.schedulers, hinv.grounded.current, fun start hmem ↦
    hinv.grounded.starts start (hsubset start hmem)⟩, hinv.current, fun start hmem ↦
    hinv.starts start (hsubset start hmem), fun start hmem ↦
    hinv.numbered start (hsubset start hmem), fun start hmem ↦
    hinv.latest start (hsubset start hmem), ?_, fun start hmem ↦
    hinv.uninstalled start (hsubset start hmem), hinv.earlier, fun manifest stored h ↦ ?_⟩
  · exact hinv.distinct.sublist ((List.eraseIdx_sublist _ _).map PendingStart.call)
  · have hreturned := hinv.returned manifest stored h
    exact ⟨hreturned.current, hreturned.inRange, fun start hmem ↦
      hreturned.notPending start (hsubset start hmem), hreturned.marks⟩

end Invariant

/-! ### Downloads -/

section Downloads

variable {digest : Bytes → Bytes} {chunkStore : ListingStore σ} {env : Env}
  {known : ResourceManifest → Prop} {state : CoordinatorState σ}

/-- A BITFIELD frame for a manifest with a bitfield of its size. -/
theorem decodeMessage_of_encodeBitfield {manifest : ResourceManifest}
    (hsendable : Sendable manifest)
    {bitfield : Bitfield} (htotal : bitfield.totalChunks = manifest.totalChunks) {frame : Bytes}
    (hframe : encodeBitfield manifest.resourceId manifest.totalChunks bitfield = .ok frame) :
    decodeMessage frame =
      .ok (.BITFIELD manifest.resourceId manifest.totalChunks bitfield) := by
  have hbound : bitfield.totalChunks < 2 ^ 32 := htotal ▸ hsendable.total
  obtain ⟨sent, hsent, hdecode⟩ := decodes_encodeBitfield hsendable.fits hsendable.text hbound
  rw [htotal] at hsent hdecode
  rw [← Except.ok.inj (hsent.symm.trans hframe)]
  exact hdecode

/-- Such a frame is truthful if it marks stored chunks only. -/
theorem truthfulFrame_of_encodeBitfield {manifest : ResourceManifest} (hknown : known manifest)
    (hsendable : Sendable manifest) {bitfield : Bitfield}
    (htotal : bitfield.totalChunks = manifest.totalChunks) {chunkStore : IChunkStore σ} {store : σ}
    (hpresent : ∀ chunkIndex, bitfield.has chunkIndex = true →
      Present chunkStore store manifest.resourceId chunkIndex) {frame : Bytes}
    (hframe : encodeBitfield manifest.resourceId manifest.totalChunks bitfield = .ok frame) :
    TruthfulFrame known chunkStore store frame := fun _ ↦
  ⟨manifest, bitfield, hknown, decodeMessage_of_encodeBitfield hsendable htotal hframe, hpresent⟩

/-- A new call of `startDownload`. -/
theorem startDownload_advertising (hinv : Advertising known chunkStore.toIChunkStore state)
    (digest : Bytes → Bytes) (env : Env) {manifest : ResourceManifest} (hknown : known manifest) :
    Advertising known chunkStore.toIChunkStore
      (startDownload digest chunkStore env manifest state) := by
  have hgrounded := (startDownload_onward digest chunkStore env manifest state hinv.grounded).1
  have hstopped := hinv.handles (onCurrentScheduler_handles digest chunkStore env .stop state)
  unfold startDownload at hgrounded ⊢
  generalize onCurrentScheduler digest chunkStore env .stop state = stopped at hgrounded hstopped ⊢
  simp only at hgrounded ⊢
  generalize hnew : PendingStart.mk manifest none stopped.history.startCalls
    (chunkStore.getAvailableChunks stopped.store manifest.resourceId) = new at hgrounded ⊢
  have hcall : new.call = stopped.history.startCalls := hnew ▸ rfl
  have hcases : ∀ start ∈ stopped.starts ++ [new], start ∈ stopped.starts ∨ start = new :=
    fun start hmem ↦ (List.mem_append.mp hmem).imp id List.mem_singleton.mp
  refine ⟨hgrounded, ?_, fun start hmem ↦ ?_, fun start hmem ↦ ?_, fun start hmem hlatest ↦ ?_, ?_,
    fun start hmem hinstalled ↦ ?_, fun call hinstalled ↦ ?_, fun _ _ h ↦ absurd h (by simp)⟩
  · rintro current ⟨⟩
    exact hknown
  · rcases hcases start hmem with hold | rfl
    · exact hstopped.starts start hold
    · rw [← hnew]
      exact hknown
  · rcases hcases start hmem with hold | rfl
    · exact Nat.lt_succ_of_lt (hstopped.numbered start hold)
    · exact hcall ▸ Nat.lt_succ_self _
  · rcases hcases start hmem with hold | rfl
    · exact absurd (Nat.succ_injective hlatest) (hstopped.numbered start hold).ne
    · rw [← hnew]
  · rw [List.map_append, List.nodup_append]
    refine ⟨hstopped.distinct, List.nodup_singleton _, ?_⟩
    rintro call hmem other hother rfl
    obtain ⟨start, hstart, rfl⟩ := List.mem_map.mp hmem
    rw [List.map_singleton, List.mem_singleton, hcall] at hother
    exact (hstopped.numbered start hstart).ne hother
  · rcases hcases start hmem with hold | rfl
    · exact hstopped.uninstalled start hold hinstalled
    · exact absurd hcall (hstopped.earlier start.call hinstalled).ne
  · exact Nat.lt_succ_of_lt (hstopped.earlier call hinstalled)

/-- Reading the store for a call changes neither its number nor its manifest. -/
theorem startRead_advertising (hinv : Advertising known chunkStore.toIChunkStore state) {index : ℕ}
    {start : PendingStart} (hstart : state.starts[index]? = some start) (available : List ℕ)
    (hgrounded : Grounded chunkStore.toIChunkStore { state with
      starts := state.starts.set index { start with available := some available } }) :
    Advertising known chunkStore.toIChunkStore { state with
      starts := state.starts.set index { start with available := some available } } := by
  have hsame : ∀ other ∈ state.starts.set index { start with available := some available },
      ∃ old ∈ state.starts, old.manifest = other.manifest ∧ old.call = other.call := by
    intro other hmem
    rcases List.mem_or_eq_of_mem_set hmem with hold | rfl
    · exact ⟨other, hold, rfl, rfl⟩
    · exact ⟨start, List.mem_of_getElem? hstart, rfl, rfl⟩
  refine ⟨hgrounded, hinv.current, fun other hmem ↦ ?_, fun other hmem ↦ ?_,
    fun other hmem hlatest ↦ ?_, ?_, fun other hmem ↦ ?_, hinv.earlier, fun manifest stored h ↦ ?_⟩
  · obtain ⟨old, hold, hmanifest, _⟩ := hsame other hmem
    exact hmanifest ▸ hinv.starts old hold
  · obtain ⟨old, hold, _, hcall⟩ := hsame other hmem
    exact hcall ▸ hinv.numbered old hold
  · obtain ⟨old, hold, hmanifest, hcall⟩ := hsame other hmem
    exact hmanifest ▸ hinv.latest old hold (hcall ▸ hlatest)
  · change ((state.starts.set index _).map PendingStart.call).Nodup
    rw [map_call_set hstart (some available)]
    exact hinv.distinct
  · obtain ⟨old, hold, _, hcall⟩ := hsame other hmem
    exact hcall ▸ hinv.uninstalled old hold
  · have hreturned := hinv.returned manifest stored h
    refine ⟨hreturned.current, hreturned.inRange, fun other hmem ↦ ?_, hreturned.marks⟩
    obtain ⟨old, hold, _, hcall⟩ := hsame other hmem
    exact hcall ▸ hreturned.notPending old hold

/-- Stopping forgets the scheduler and what has returned. -/
theorem stopCoordinator_advertising (hinv : Advertising known chunkStore.toIChunkStore state)
    (digest : Bytes → Bytes) (env : Env) :
    Advertising known chunkStore.toIChunkStore (stopCoordinator digest chunkStore env state) := by
  have hstopped := hinv.handles (onCurrentScheduler_handles digest chunkStore env .stop state)
  exact ⟨(stopCoordinator_onward digest chunkStore env state hinv.grounded).1, hstopped.current,
    hstopped.starts, hstopped.numbered, hstopped.latest, hstopped.distinct,
    fun _ _ h ↦ absurd h (by simp [stopCoordinator]),
    fun _ h ↦ absurd h (by simp [stopCoordinator]),
    fun _ _ h ↦ absurd h (by simp [stopCoordinator])⟩

/-- What is known when a call of `startDownload` goes on: it no longer waits, and its number is its
own. -/
structure Resuming (known : ResourceManifest → Prop) (chunkStore : IChunkStore σ)
    (state : CoordinatorState σ) (start : PendingStart) (available : List ℕ) : Prop where
  books : Advertising known chunkStore state
  manifest : known start.manifest
  numbered : start.call < state.history.startCalls
  latest : start.call + 1 = state.history.startCalls → state.currentManifest = some start.manifest
  others : ∀ other ∈ state.starts, other.call ≠ start.call
  uninstalled : state.history.installed ≠ some start.call
  unreturned : start.call + 1 = state.history.startCalls → state.history.returned = none
  listed : ∀ chunkIndex ∈ available,
    Present chunkStore state.store start.manifest.resourceId chunkIndex
  stored : ∀ chunkIndex ∈ start.stored, chunkIndex ∈ available

theorem Advertising.resuming {chunkStore : IChunkStore σ}
    (hinv : Advertising known chunkStore state)
    {index : ℕ} {start : PendingStart} (hstart : state.starts[index]? = some start)
    {available : List ℕ} (havailable : start.available = some available) :
    Resuming known chunkStore { state with starts := state.starts.eraseIdx index } start
      available := by
  have hmem := List.mem_of_getElem? hstart
  obtain ⟨hlisted, hstored⟩ := (hinv.grounded.starts start hmem).available available havailable
  refine ⟨hinv.erase index, hinv.starts start hmem, hinv.numbered start hmem,
    hinv.latest start hmem, fun other ↦ call_ne_of_mem_eraseIdx hinv.distinct hstart,
    hinv.uninstalled start hmem, fun hlatest ↦ ?_, hlisted, hstored⟩
  change state.history.returned = none
  cases hreturned : state.history.returned with
  | none => rfl
  | some pair =>
    obtain ⟨manifest, stored⟩ := pair
    exact absurd hlatest ((hinv.returned manifest stored hreturned).notPending start hmem)

theorem returnStart_sent (start : PendingStart) (state : CoordinatorState σ) :
    (returnStart start state).sent = state.sent := by
  unfold returnStart
  split_ifs <;> rfl

/-- `startDownload` returns. -/
theorem returnStart_advertising {chunkStore : IChunkStore σ} {start : PendingStart}
    (hinv : Advertising known chunkStore state)
    (hreturned : start.call + 1 = state.history.startCalls →
      Returned state start.manifest start.stored) :
    Advertising known chunkStore (returnStart start state) := by
  unfold returnStart
  split_ifs with hlatest
  · refine ⟨⟨hinv.grounded.schedulers, hinv.grounded.current, hinv.grounded.starts⟩, hinv.current,
      hinv.starts, hinv.numbered, hinv.latest, hinv.distinct, hinv.uninstalled, hinv.earlier,
      fun manifest stored h ↦ ?_⟩
    obtain ⟨rfl, rfl⟩ := Prod.mk.inj (Option.some.inj h)
    have hnow := hreturned hlatest
    exact ⟨hnow.current, hnow.inRange, hnow.notPending, hnow.marks⟩
  · exact hinv

variable {start : PendingStart} {available : List ℕ} {localBitfield : Bitfield}

/-- The marked chunks of a download that begins are in range. -/
theorem Resuming.inRange {chunkStore : IChunkStore σ}
    (hresuming : Resuming known chunkStore state start available)
    (hmarked : markAll (Bitfield.new start.manifest.totalChunks) available = .ok localBitfield) :
    ∀ chunkIndex ∈ start.stored, chunkIndex < start.manifest.totalChunks := by
  intro chunkIndex hmem
  obtain ⟨htotal, hhas⟩ := localBitfield_spec hmarked
  rw [← htotal]
  exact Bitfield.lt_of_has ((hhas chunkIndex).mpr (hresuming.stored chunkIndex hmem))

/-- The latest call returns at once. -/
theorem Resuming.returned {chunkStore : IChunkStore σ}
    (hresuming : Resuming known chunkStore state start available)
    (hmarked : markAll (Bitfield.new start.manifest.totalChunks) available = .ok localBitfield)
    (hlatest : start.call + 1 = state.history.startCalls) :
    Returned state start.manifest start.stored where
  current := hresuming.latest hlatest
  inRange := hresuming.inRange hmarked
  notPending other hmem heq := hresuming.others other hmem (by omega)
  marks call hcall heq := by
    have hsame : call = start.call := by omega
    exact absurd (hsame ▸ hcall) hresuming.uninstalled

/-- The call installs its scheduler. -/
theorem Resuming.install {chunkStore : IChunkStore σ}
    (hresuming : Resuming known chunkStore state start available)
    (hmarked : markAll (Bitfield.new start.manifest.totalChunks) available = .ok localBitfield) :
    Advertising known chunkStore (installScheduler start localBitfield state) ∧
      (start.call + 1 = state.history.startCalls →
        Returned (installScheduler start localBitfield state) start.manifest start.stored) := by
  obtain ⟨htotal, hhas⟩ := localBitfield_spec hmarked
  have hbooks := hresuming.books
  have hgrounded := (installScheduler_onward state (schedulerOk_new htotal fun chunkIndex h ↦
    hresuming.listed chunkIndex ((hhas chunkIndex).mp h)) hbooks.grounded).1
  refine ⟨⟨hgrounded, hbooks.current, hbooks.starts, hbooks.numbered, hbooks.latest,
    hbooks.distinct, fun other hmem heq ↦ ?_, fun call hcall ↦ ?_, fun manifest stored h ↦ ?_⟩,
    fun hlatest ↦ ⟨hresuming.latest hlatest, hresuming.inRange hmarked, fun other hmem heq ↦ ?_,
      fun _ _ _ ↦ ?_⟩⟩
  · exact hresuming.others other hmem (Option.some.inj heq).symm
  · rw [← Option.some.inj hcall]
    exact hresuming.numbered
  · have hold := hbooks.returned manifest stored h
    refine ⟨hold.current, hold.inRange, hold.notPending, fun call hcall hlatest ↦ ?_⟩
    have hnone := hresuming.unreturned (Option.some.inj hcall ▸ hlatest)
    exact absurd (hnone.symm.trans h) (by simp)
  · have hsame : start.call + 1 = state.history.startCalls := hlatest
    have hother : other.call + 1 = state.history.startCalls := heq
    exact hresuming.others other hmem (by omega)
  · rintro scheduler ⟨index, hindex, hget⟩ chunkIndex hmem
    change some state.schedulers.length = some index at hindex
    change (state.schedulers ++ [_])[index]? = some scheduler at hget
    rw [← Option.some.inj hindex, List.getElem?_append_right le_rfl, Nat.sub_self,
      List.getElem?_cons_zero, Option.some.injEq] at hget
    subst hget
    exact (hhas chunkIndex).mpr (hresuming.stored chunkIndex hmem)

/-- A call of `startDownload` that goes on keeps the books and broadcasts a truthful frame. -/
theorem resumeStart_advertising (hsendable : ∀ manifest, known manifest → Sendable manifest)
    (hresuming : Resuming known chunkStore.toIChunkStore state start available)
    (digest : Bytes → Bytes) (env : Env) {store : σ}
    (hgrows : StoreGrows chunkStore.toIChunkStore state.store store) :
    Advertising known chunkStore.toIChunkStore
        (resumeStart digest chunkStore env start available state) ∧
      Adds (TruthfulFrame known chunkStore.toIChunkStore store) state
        (resumeStart digest chunkStore env start available state) := by
  have hplain : ∀ {first second : CoordinatorState σ}, Adds PlainFrame first second →
      Adds (TruthfulFrame known chunkStore.toIChunkStore store) first second := fun hadds ↦
    hadds.mono fun _ h ↦ h.truthful known chunkStore.toIChunkStore store
  unfold resumeStart
  simp only
  split
  · exact ⟨hresuming.books, adds_of_eq _ rfl⟩
  next localBitfield hmarked =>
  obtain ⟨htotal, hhas⟩ := localBitfield_spec hmarked
  have hbegun : Resuming known chunkStore.toIChunkStore
      (beginDownload start.manifest localBitfield state) start available := by
    have h := hresuming
    refine ⟨h.books.undisturbed (.of_eq rfl rfl rfl rfl rfl rfl rfl) ?_, h.2, h.3, h.4, h.5, h.6,
      h.7, h.8, h.9⟩
    exact ⟨h.books.grounded.schedulers, h.books.grounded.current, h.books.grounded.starts⟩
  split_ifs with hcomplete
  · exact ⟨returnStart_advertising hbegun.books (hbegun.returned hmarked),
      adds_of_eq _ (returnStart_sent start _)⟩
  obtain ⟨hinstalled, hreturns⟩ := hbegun.install hmarked
  have hprovides := provideBitfields_handles digest chunkStore env
    (installScheduler start localBitfield (beginDownload start.manifest localBitfield state))
  have hsaid : Adds (TruthfulFrame known chunkStore.toIChunkStore store) state
      (provideBitfields digest chunkStore env (installScheduler start localBitfield
        (beginDownload start.manifest localBitfield state))) :=
    (adds_of_eq _ rfl).trans (hplain (hprovides.undisturbed hinstalled.grounded).2)
  split
  · exact ⟨hinstalled.handles hprovides, hsaid⟩
  next bfWire hframe =>
  have htruthful : TruthfulFrame known chunkStore.toIChunkStore store bfWire :=
    truthfulFrame_of_encodeBitfield hresuming.manifest (hsendable _ hresuming.manifest) htotal
      (fun chunkIndex h ↦ hgrows _ _ (hresuming.listed chunkIndex ((hhas chunkIndex).mp h))) hframe
  have hprovided := hinstalled.handles hprovides
  have hbroadcast : Advertising known chunkStore.toIChunkStore
      (broadcast bfWire (provideBitfields digest chunkStore env (installScheduler start
        localBitfield (beginDownload start.manifest localBitfield state)))) :=
    hprovided.undisturbed (undisturbed_broadcast bfWire _)
      ⟨hprovided.grounded.schedulers, hprovided.grounded.current, hprovided.grounded.starts⟩
  have hstarts := onCurrentScheduler_handles digest chunkStore env .start
    (broadcast bfWire (provideBitfields digest chunkStore env (installScheduler start
      localBitfield (beginDownload start.manifest localBitfield state))))
  obtain ⟨hstarted, hquiet⟩ := hstarts.undisturbed hbroadcast.grounded
  have hsame := ((hprovides.undisturbed hinstalled.grounded).1.trans
    (undisturbed_broadcast bfWire _)).trans hstarted
  refine ⟨returnStart_advertising (hbroadcast.handles hstarts) fun hlatest ↦ ?_,
    ((hsaid.trans (adds_broadcast htruthful _)).trans (hplain hquiet)).trans
      (adds_of_eq _ (returnStart_sent start _))⟩
  exact (hreturns (hsame.startCalls ▸ hlatest)).undisturbed hsame

end Downloads

/-! ### Channels -/

section Channels

variable {chunkStore : IChunkStore σ} {known : ResourceManifest → Prop} {state : CoordinatorState σ}

/-- The frame that greets a peer goes out over its channel. -/
theorem send_sent {peerId : String} {connection : WebRtcPeerConnection}
    (hget : state.peers.get? peerId = some connection) (hopen : connection.channelOpen = true)
    (frame : Bytes) : (send peerId frame state).sent = state.sent ++ [(peerId, frame)] ∧
      (send peerId frame state).peers = state.peers := by
  unfold send
  rw [hget]
  simp only [if_pos hopen, and_self]

/-- A scheduler of the size of its manifest has marked what the latest call found stored. -/
theorem Advertising.marks_of_advertisesOwn (hinv : Advertising known chunkStore state)
    {manifest : ResourceManifest} {stored : List ℕ}
    (hreturned : state.history.returned = some (manifest, stored)) {scheduler : ChunkScheduler}
    (hcurrent : IsCurrent state scheduler) (hsame : SameDownload scheduler.manifest manifest)
    (hready : scheduler.localBitfield.isComplete = true ∨
      ∃ call, state.history.installed = some call ∧ call + 1 = state.history.startCalls) :
    ∀ chunkIndex ∈ stored, scheduler.localBitfield.has chunkIndex = true := by
  intro chunkIndex hmem
  have h := hinv.returned manifest stored hreturned
  rcases hready with hcomplete | ⟨call, hinstalled, hlatest⟩
  · obtain ⟨index, _, hget⟩ := hcurrent
    have htotal := (hinv.grounded.schedulers scheduler (List.mem_of_getElem? hget)).totalChunks
    refine Bitfield.isComplete_iff.mp hcomplete chunkIndex ?_
    rw [htotal, hsame.totalChunks]
    exact h.inRange chunkIndex hmem
  · exact h.marks call hinstalled hlatest scheduler hcurrent chunkIndex hmem

/-- What a channel that opens sends: the frame for the current manifest with the marks of the
current scheduler, and an UNCHOKE. -/
theorem handleChannelOpen_sent (hsendable : ∀ manifest, known manifest → Sendable manifest)
    (hinv : Advertising known chunkStore state) {remotePeerId : String}
    {connection : WebRtcPeerConnection} (hget : state.peers.get? remotePeerId = some connection)
    (hopen : connection.channelOpen = true) {manifest : ResourceManifest}
    (hmanifest : state.currentManifest = some manifest) {scheduler : ChunkScheduler}
    (hcurrent : IsCurrent state scheduler) :
    ∃ bfBytes unchoke,
      encodeBitfield manifest.resourceId manifest.totalChunks scheduler.localBitfield =
        .ok bfBytes ∧ PlainFrame unchoke ∧
      (handleChannelOpen remotePeerId state).sent =
        state.sent ++ [(remotePeerId, bfBytes), (remotePeerId, unchoke)] := by
  have hfits := (hsendable manifest (hinv.current manifest hmanifest)).fits
  have hbitfield := encodeBitfield_eq hfits manifest.totalChunks scheduler.localBitfield
  have hunchoke : encodeUnchoke manifest.resourceId = _ := encodeHeaderOnly_eq hfits .UNCHOKE
  refine ⟨_, _, hbitfield, plainFrame_of_hasType (hasType_of_encodeHeaderOnly hunchoke) (by decide),
    ?_⟩
  have hhas : ¬ state.peers.has remotePeerId = false := by
    rw [Bool.not_eq_false, OrderedMap.has_iff_exists]
    exact ⟨connection, hget⟩
  obtain ⟨hsent, hpeers⟩ := send_sent hget hopen
    (headerBytes .BITFIELD manifest.resourceId ++
      (uint32Bytes manifest.totalChunks ++ scheduler.localBitfield.bytes))
  rw [handleChannelOpen, if_neg hhas, hmanifest, isCurrent_iff.mp hcurrent]
  simp only [hbitfield, hunchoke]
  rw [(send_sent (hpeers ▸ hget) hopen _).1, hsent, List.append_assoc]
  rfl

theorem channelOpen_undisturbed (remotePeerId : String) (state : CoordinatorState σ) :
    Undisturbed state (channelOpen remotePeerId state) := by
  unfold channelOpen
  split
  · next connection _ =>
    have hopened : Undisturbed state { state with
        peers := state.peers.set remotePeerId { connection with channelOpen := true } } :=
      .of_eq rfl rfl rfl rfl rfl rfl rfl
    have hgreeted := reported_handleChannelOpen remotePeerId { state with
        peers := state.peers.set remotePeerId { connection with channelOpen := true } }
    exact hopened.trans (.of_eq hgreeted.currentManifest hgreeted.scheduler hgreeted.starts
      hgreeted.startCalls hgreeted.installed hgreeted.returned hgreeted.schedulers)
  · exact .of_eq rfl rfl rfl rfl rfl rfl rfl

/-- Without a current manifest or a scheduler nothing is sent. -/
theorem handleChannelOpen_silent {remotePeerId : String}
    (hnone : ¬ ∃ manifest scheduler, state.currentManifest = some manifest ∧
      IsCurrent state scheduler) : (handleChannelOpen remotePeerId state).sent = state.sent := by
  unfold handleChannelOpen
  split_ifs
  · rfl
  split
  · next manifest scheduler hmanifest hcurrent =>
    exact absurd ⟨manifest, scheduler, hmanifest, isCurrent_iff.mpr hcurrent⟩ hnone
  · rfl

/-- A step that sends nothing is truthful unless it has to greet a peer. -/
theorem truthfulStep_of_silent {event : CoordinatorEvent} {next : CoordinatorState σ}
    (hsent : next.sent = state.sent)
    (hnone : ∀ remotePeerId, event = .channelOpened remotePeerId →
      state.peers.has remotePeerId = true → state.history.returned = none) :
    TruthfulStep known chunkStore state event next := by
  refine ⟨(adds_of_eq _ hsent).newFrames, fun remotePeerId hevent hhas manifest stored h ↦ ?_⟩
  exact absurd ((hnone remotePeerId hevent hhas).symm.trans h) (by simp)

/-- A channel opens: the peer is greeted truthfully. -/
theorem channelOpen_truthful (hsendable : ∀ manifest, known manifest → Sendable manifest)
    (hinv : Advertising known chunkStore state) {remotePeerId : String}
    (hown : AdvertisesOwn state (.channelOpened remotePeerId)) :
    TruthfulStep known chunkStore state (.channelOpened remotePeerId)
      (channelOpen remotePeerId state) := by
  cases hget : state.peers.get? remotePeerId with
  | none =>
    refine truthfulStep_of_silent (by rw [channelOpen, hget]) fun other hevent hhas ↦ ?_
    obtain ⟨connection, hconnection⟩ := OrderedMap.has_iff_exists.mp hhas
    cases hevent
    exact absurd (hget.symm.trans hconnection) (by simp)
  | some connection =>
  have hhas : state.peers.has remotePeerId = true :=
    OrderedMap.has_iff_exists.mpr ⟨connection, hget⟩
  rw [channelOpen, hget]
  by_cases hpair : ∃ manifest scheduler, state.currentManifest = some manifest ∧
      IsCurrent state scheduler
  · obtain ⟨manifest, scheduler, hmanifest, hcurrent⟩ := hpair
    have hbooks : Advertising known chunkStore { state with
        peers := state.peers.set remotePeerId { connection with channelOpen := true } } :=
      hinv.undisturbed (.of_eq rfl rfl rfl rfl rfl rfl rfl)
        ⟨hinv.grounded.schedulers, hinv.grounded.current, hinv.grounded.starts⟩
    obtain ⟨bfBytes, unchoke, hframe, hplain, hsent⟩ := handleChannelOpen_sent hsendable hbooks
      (OrderedMap.get?_set_self state.peers remotePeerId _) rfl hmanifest hcurrent
    obtain ⟨hsame, hready⟩ := hown hhas manifest hmanifest
    have hfits := hsame scheduler hcurrent
    have hknown := hinv.current manifest hmanifest
    obtain ⟨index, _, hindex⟩ := id hcurrent
    have hok := hinv.grounded.schedulers scheduler (List.mem_of_getElem? hindex)
    have htotal := hok.totalChunks.trans hfits.totalChunks
    have hnew : newFrames state (handleChannelOpen remotePeerId { state with
        peers := state.peers.set remotePeerId { connection with channelOpen := true } }) =
        [(remotePeerId, bfBytes), (remotePeerId, unchoke)] := by
      rw [newFrames, hsent, List.drop_left]
    refine ⟨fun entry hmem ↦ ?_, ?_⟩
    · have hgrows := (handleChannelOpen_onward chunkStore remotePeerId _ hbooks.grounded).2
      rw [hnew, List.mem_cons, List.mem_singleton] at hmem
      rcases hmem with rfl | rfl
      · refine truthfulFrame_of_encodeBitfield hknown (hsendable manifest hknown) htotal
          (fun chunkIndex hmarked ↦ hgrows _ _ ?_) hframe
        rw [← hfits.resourceId]
        exact hok.present hmarked
      · exact hplain.truthful known chunkStore _
    · rintro _ ⟨⟩ _ latest stored hreturned
      have hlatest : manifest = latest := Option.some.inj
        (hmanifest.symm.trans (hinv.returned latest stored hreturned).current)
      subst hlatest
      obtain ⟨other, hother, hcase⟩ := hready (by rw [hreturned]; rfl)
      have hunique : other = scheduler := Option.some.inj
        ((isCurrent_iff.mp hother).symm.trans (isCurrent_iff.mp hcurrent))
      subst hunique
      refine ⟨bfBytes, by rw [hnew]; exact List.mem_cons_self, other.localBitfield,
        decodeMessage_of_encodeBitfield (hsendable manifest hknown) htotal hframe,
        hinv.marks_of_advertisesOwn hreturned hcurrent hfits hcase⟩
  · refine truthfulStep_of_silent (handleChannelOpen_silent hpair) fun _ _ _ ↦ ?_
    cases hreturned : state.history.returned with
    | none => rfl
    | some pair =>
      have hmanifest := (hinv.returned pair.1 pair.2 hreturned).current
      obtain ⟨scheduler, hcurrent, _⟩ := (hown hhas pair.1 hmanifest).2 (by rw [hreturned]; rfl)
      exact absurd ⟨pair.1, scheduler, hmanifest, hcurrent⟩ hpair

end Channels

/-! ### Runs -/

section Runs

variable {digest : Bytes → Bytes} {chunkStore : ListingStore σ}
  {known : ResourceManifest → Prop} {state : CoordinatorState σ}

/-- Every step in which an opening channel finds the scheduler of the current download keeps the
books and advertises truthfully. -/
theorem coordinatorStep_advertising (hsendable : ∀ manifest, known manifest → Sendable manifest)
    (hinv : Advertising known chunkStore.toIChunkStore state) (digest : Bytes → Bytes)
    (input : CoordinatorInput) (hown : AdvertisesOwn state input.2)
    (hknown : ∀ manifest, input.2 = .startDownload manifest → known manifest) :
    Advertising known chunkStore.toIChunkStore (coordinatorStep digest chunkStore state input) ∧
      TruthfulStep known chunkStore.toIChunkStore state input.2
        (coordinatorStep digest chunkStore state input) := by
  obtain ⟨env, event⟩ := input
  have honward := coordinatorStep_onward digest chunkStore state (env, event) hinv.grounded
  cases hevent : event.isHandled with
  | true =>
    have hhandles := coordinatorStep_handles digest chunkStore env state hevent
    have hquiet := (hhandles.undisturbed hinv.grounded).2
    refine ⟨hinv.handles hhandles, ⟨(hquiet.mono fun _ h ↦
      h.truthful known chunkStore.toIChunkStore _).newFrames, fun _ h ↦ ?_⟩⟩
    have hopened : event = .channelOpened _ := h
    rw [hopened] at hevent
    exact absurd hevent Bool.false_ne_true
  | false =>
  have hquiet : (∀ remotePeerId, event ≠ .channelOpened remotePeerId) →
      Adds PlainFrame state (coordinatorStep digest chunkStore state (env, event)) →
      TruthfulStep known chunkStore.toIChunkStore state event
        (coordinatorStep digest chunkStore state (env, event)) := fun hother hadds ↦
    ⟨(hadds.mono fun _ h ↦ h.truthful known chunkStore.toIChunkStore _).newFrames,
      fun remotePeerId h ↦ absurd h (hother remotePeerId)⟩
  have htransition := coordinatorStep_transition digest chunkStore env state event
  generalize coordinatorStep digest chunkStore state (env, event) = next
    at honward hquiet htransition ⊢
  cases htransition with
  | ignored hother => exact ⟨hinv, hquiet hother (adds_of_eq _ rfl)⟩
  | channelOpened remotePeerId =>
    exact ⟨hinv.undisturbed (channelOpen_undisturbed remotePeerId state) honward.1,
      channelOpen_truthful hsendable hinv hown⟩
  | startDownload manifest =>
    have hstop := onCurrentScheduler_handles digest chunkStore env .stop state
    exact ⟨startDownload_advertising hinv digest env (hknown manifest rfl),
      hquiet (fun _ ↦ by simp) ((hstop.undisturbed hinv.grounded).2.trans (adds_of_eq _ rfl))⟩
  | startRead index start hstart =>
    exact ⟨startRead_advertising hinv hstart _ honward.1,
      hquiet (fun _ ↦ by simp) (adds_of_eq _ rfl)⟩
  | startResumed index start available hstart havailable =>
    obtain ⟨hbooks, hadds⟩ := resumeStart_advertising hsendable
      (hinv.resuming hstart havailable) digest env honward.2
    exact ⟨hbooks, hadds.newFrames, fun _ h ↦ absurd h (by simp)⟩
  | startFailed index => exact ⟨hinv.erase index, hquiet (fun _ ↦ by simp) (adds_of_eq _ rfl)⟩
  | stop =>
    have hstop := onCurrentScheduler_handles digest chunkStore env .stop state
    exact ⟨stopCoordinator_advertising hinv digest env,
      hquiet (fun _ ↦ by simp) ((hstop.undisturbed hinv.grounded).2.trans (adds_of_eq _ rfl))⟩
  | _ => exact absurd hevent.symm Bool.false_ne_true

end Runs

/-- **Truthful advertisement.** In every run of a new coordinator on manifests whose ids and sizes
survive the wire, in which every channel that opens finds the scheduler of the current download: all
BITFIELD frames are truthful, and after `startDownload` has returned every peer whose channel opens
learns of all chunks that were stored at the call. -/
theorem truthfulAdvertisement_of_advertisesOwn (digest : Bytes → Bytes)
    (chunkStore : ListingStore σ) (localPeerId : String) (store : σ)
    (inputs : List CoordinatorInput)
    (hsendable : ∀ manifest, Started inputs manifest → Sendable manifest)
    (hown : Along (coordinatorStep digest chunkStore)
      (fun state input ↦ AdvertisesOwn state input.2)
      (CoordinatorState.new localPeerId store) inputs) :
    TruthfulAdvertisement digest chunkStore localPeerId store inputs := by
  have hinit : Advertising (Started inputs) chunkStore.toIChunkStore
      (CoordinatorState.new localPeerId store) := by
    refine ⟨grounded_new chunkStore.toIChunkStore localPeerId store, ?_, ?_, ?_, ?_, ?_, ?_, ?_, ?_⟩
    all_goals simp [CoordinatorState.new]
  refine along_of_invariant (Advertising (Started inputs) chunkStore.toIChunkStore)
    (fun state input hinv hallowed ↦ ?_) (fun state input hinv hallowed ↦ ?_) hinit hown.and_mem
  · exact (coordinatorStep_advertising hsendable hinv digest input hallowed.1
      fun manifest h ↦ ⟨input, hallowed.2, h⟩).1
  · exact (coordinatorStep_advertising hsendable hinv digest input hallowed.1
      fun manifest h ↦ ⟨input, hallowed.2, h⟩).2

/-- The first download is complete, the second one waits for the list of stored chunks. -/
def switchingRun : List CoordinatorInput :=
  [(calmEnv, .startDownload oneChunkManifest), (calmEnv, .startRead 0), (calmEnv, .startResumed 0),
    (calmEnv, .settled 0 0 (.fetched [7])), (calmEnv, .settled 0 0 .verified),
    (calmEnv, .settled 0 0 .written), (calmEnv, .settled 0 0 .putDone),
    (calmEnv, .peerDiscovered "peer"), (calmEnv, .startDownload otherManifest)]

/-- Everything of the download is cached, so `startDownload` returns without a scheduler. -/
def cachedRun : List CoordinatorInput :=
  [(calmEnv, .startDownload oneChunkManifest), (calmEnv, .startRead 0), (calmEnv, .startResumed 0),
    (calmEnv, .peerDiscovered "peer")]

/-- A channel that opens during the switch gets the second resource with the marks of the first, and
one that opens after the cached download gets nothing. -/
theorem switchingRun_misleads :
    ¬ TruthfulAdvertisement id IndexedDbChunkStore "me" ChunkRecords.empty
        (switchingRun ++ [(calmEnv, .channelOpened "peer")]) ∧
      ¬ TruthfulAdvertisement id IndexedDbChunkStore "me"
        (IndexedDbChunkStore.put ChunkRecords.empty "res_1" 0 [7])
        (cachedRun ++ [(calmEnv, .channelOpened "peer")]) := by
  constructor
  · intro htruthful
    have hlast := ((along_append _ _ _).mp htruthful).2.1.frames
      ("peer", [1, 1, 5, 114, 101, 115, 95, 50, 0, 0, 0, 1, 128]) (by decide +kernel)
    obtain ⟨manifest, bitfield, _, hdecode, hpresent⟩ := hlast (by decide +kernel)
    have hframe : decodeMessage [1, 1, 5, 114, 101, 115, 95, 50, 0, 0, 0, 1, 128] =
      .ok (.BITFIELD "res_2" 1 oneChunkBitfield) := by rfl
    rw [hframe] at hdecode
    obtain ⟨hid, _, hbitfield⟩ := WireMessage.BITFIELD.inj (Except.ok.inj hdecode)
    have hstored := hpresent 0 (by rw [← hbitfield]; decide)
    rw [← hid] at hstored
    revert hstored
    unfold Present
    decide +kernel
  · intro htruthful
    obtain ⟨frame, hframe, _⟩ := ((along_append _ _ _).mp htruthful).2.1.opened "peer" rfl
      (by decide +kernel) oneChunkManifest [0] (by decide +kernel)
    refine absurd (List.length_pos_of_mem hframe) ?_
    decide +kernel

/-- A current scheduler is for the download of a manifest with the same resource and size. -/
theorem sameDownload_of_map_eq {state : CoordinatorState σ} {scheduler : ChunkScheduler}
    {manifest : ResourceManifest} (hcurrent : IsCurrent state scheduler)
    (heq : ((state.scheduler.bind fun index ↦ state.schedulers[index]?).map fun found ↦
        (found.manifest.resourceId, found.manifest.totalChunks)) =
      some (manifest.resourceId, manifest.totalChunks)) :
    SameDownload scheduler.manifest manifest := by
  rw [isCurrent_iff.mp hcurrent, Option.map_some, Option.some.injEq, Prod.mk.injEq] at heq
  exact ⟨heq.1, heq.2⟩

/-- Two of eight chunks are stored at first. -/
def partlyStored : ChunkRecords :=
  IndexedDbChunkStore.put (IndexedDbChunkStore.put ChunkRecords.empty "res_1" 0 [7]) "res_1" 3 [7]

/-- A channel opens after `startDownload` has installed its scheduler. -/
def greetingRun : List CoordinatorInput :=
  [(calmEnv, .startDownload eightChunkManifest), (calmEnv, .startRead 0),
    (calmEnv, .startResumed 0), (calmEnv, .peerDiscovered "peer"), (calmEnv, .channelOpened "peer")]

/-- The peer is told of the two chunks. -/
theorem truthfulAdvertisement_of_advertisesOwn_greeting :
    TruthfulAdvertisement id IndexedDbChunkStore "me" partlyStored greetingRun ∧
      ("peer", [1, 1, 5, 114, 101, 115, 95, 49, 0, 0, 0, 8, 0x90]) ∈
        (coordinatorRun id IndexedDbChunkStore "me" partlyStored greetingRun).sent := by
  refine ⟨truthfulAdvertisement_of_advertisesOwn id IndexedDbChunkStore "me" partlyStored _ ?_
    ⟨trivial, trivial, trivial, trivial, fun _ manifest hmanifest ↦ ?_, trivial⟩,
      by decide +kernel⟩
  · rintro manifest ⟨input, hmem, hinput⟩
    simp only [greetingRun, List.mem_cons, List.not_mem_nil, or_false] at hmem
    rcases hmem with rfl | rfl | rfl | rfl | rfl
    · cases hinput
      exact ⟨by decide, by decide, by decide⟩
    all_goals exact absurd hinput (by simp)
  · have hsame : manifest = eightChunkManifest := by
      have h : some manifest = some eightChunkManifest := hmanifest.symm.trans (by decide +kernel)
      exact Option.some.inj h
    subst hsame
    refine ⟨fun scheduler hcurrent ↦ ?_, fun _ ↦ ?_⟩
    · exact sameDownload_of_map_eq hcurrent (by decide +kernel)
    · exact ⟨_, isCurrent_iff.mpr (Option.eq_some_of_isSome (by decide +kernel)),
        Or.inr ⟨0, by decide +kernel, by decide +kernel⟩⟩

end CampusMesh.Web
