import CampusMesh.Web.Advertisement
import CampusMesh.Web.HonestTransfer

/-!
# What a coordinator serves

Which bytes a peer hands on depends on which bytes it wrote, and that is up to its schedulers.
`Guards` is what has to be known of one scheduler: a property that its events keep as long as they
are allowed, and under which it writes accepted bytes only. From it follows that a coordinator holds
nothing but accepted chunks and that every PIECE it ever sends is a block of one of them, between
all the reads, serves and downloads that overlap (`Accepting.step`).
-/

set_option autoImplicit false
set_option relaxedAutoImplicit false

namespace CampusMesh.Web

open Library Shared SchedulerState CoordinatorState

variable {σ : Type}

/-! ### Accepted chunks -/

section Accepted

variable (accepts : String → ℕ → Bytes → Prop)

/-- Every chunk in the store is accepted. -/
def StoreAccepts (chunkStore : IChunkStore σ) (store : σ) : Prop :=
  ∀ resourceId chunkIndex data, chunkStore.get store resourceId chunkIndex = some data →
    accepts resourceId chunkIndex data

/-- A piece is a block of an accepted chunk. -/
def IsBlockOf (resourceId : String) (chunkIndex beginOffset totalLength : ℕ) (data : Bytes) :
    Prop :=
  ∃ chunkData, accepts resourceId chunkIndex chunkData ∧ totalLength = chunkData.length ∧
    ∃ index < blockCount chunkData,
      beginOffset = index * P2P_BLOCK_SIZE ∧ data = block chunkData index

/-- If the frame is a PIECE, it carries a block of an accepted chunk. -/
def CarriesAccepted (frame : Bytes) : Prop :=
  ∀ resourceId chunkIndex beginOffset totalLength data,
    decodeMessage frame = .ok (.PIECE resourceId chunkIndex beginOffset totalLength data) →
      IsBlockOf accepts resourceId chunkIndex beginOffset totalLength data

/-- Accepted chunks can be put on the wire. -/
structure Wired : Prop where
  fits : ∀ resourceId chunkIndex data, accepts resourceId chunkIndex data → FitsHeader resourceId
  text : ∀ resourceId chunkIndex data, accepts resourceId chunkIndex data →
    RoundTripsText resourceId
  index : ∀ resourceId chunkIndex data, accepts resourceId chunkIndex data → chunkIndex < 2 ^ 32
  length : ∀ resourceId chunkIndex data, accepts resourceId chunkIndex data →
    data.length < 2 ^ 32

variable {accepts} {resourceId : String} {chunkIndex : ℕ} {chunkData : Bytes}

theorem StoreAccepts.put {chunkStore : IChunkStore σ} {store : σ}
    (hstore : StoreAccepts accepts chunkStore store)
    (haccepted : accepts resourceId chunkIndex chunkData) :
    StoreAccepts accepts chunkStore (chunkStore.put store resourceId chunkIndex chunkData) := by
  intro other otherIndex data hget
  rw [chunkStore.get_put] at hget
  split_ifs at hget with hsame
  · obtain ⟨rfl, rfl⟩ := hsame
    rwa [← Option.some.inj hget]
  · exact hstore other otherIndex data hget

section Mono

variable {looser : String → ℕ → Bytes → Prop}
  (himp : ∀ resourceId chunkIndex data, accepts resourceId chunkIndex data →
    looser resourceId chunkIndex data)

include himp

theorem StoreAccepts.mono {chunkStore : IChunkStore σ} {store : σ}
    (hstore : StoreAccepts accepts chunkStore store) : StoreAccepts looser chunkStore store :=
  fun resourceId chunkIndex data hget ↦
    himp resourceId chunkIndex data (hstore resourceId chunkIndex data hget)

theorem CarriesAccepted.mono {frame : Bytes} (hcarries : CarriesAccepted accepts frame) :
    CarriesAccepted looser frame := by
  intro resourceId chunkIndex beginOffset totalLength data hdecodes
  obtain ⟨chunkData, haccepted, hblock⟩ :=
    hcarries resourceId chunkIndex beginOffset totalLength data hdecodes
  exact ⟨chunkData, himp resourceId chunkIndex chunkData haccepted, hblock⟩

theorem Wired.mono (hwired : Wired looser) : Wired accepts where
  fits _ _ _ haccepted := hwired.fits _ _ _ (himp _ _ _ haccepted)
  text _ _ _ haccepted := hwired.text _ _ _ (himp _ _ _ haccepted)
  index _ _ _ haccepted := hwired.index _ _ _ (himp _ _ _ haccepted)
  length _ _ _ haccepted := hwired.length _ _ _ (himp _ _ _ haccepted)

end Mono

/-- A frame of another type carries nothing. -/
theorem carriesAccepted_of_hasType {type : WireMessageType} {frame : Bytes}
    (hframe : HasType type frame) (hne : type ≠ .PIECE) : CarriesAccepted accepts frame :=
  fun _ _ _ _ _ hdecodes ↦ absurd (hframe.unique (hasType_of_decodes hdecodes)) hne

theorem mem_blockOffsets {length offset : ℕ} :
    offset ∈ blockOffsets length ↔
      ∃ index < sliceCount P2P_BLOCK_SIZE length, offset = index * P2P_BLOCK_SIZE := by
  simp only [blockOffsets, List.mem_map, List.mem_range, eq_comm]
  rfl

/-- A block of a chunk, as the serving loop cuts it out. -/
theorem subarray_block (chunkData : Bytes) (index : ℕ) :
    subarray chunkData (index * P2P_BLOCK_SIZE)
      (min (index * P2P_BLOCK_SIZE + P2P_BLOCK_SIZE) chunkData.length) = block chunkData index := by
  rw [subarray, block, Library.slice, List.take_eq_take_iff, List.length_drop]
  omega

/-- The frames that serve an accepted chunk carry its blocks. -/
theorem carriesAccepted_of_mem_transferFrames (hwired : Wired accepts)
    (haccepted : accepts resourceId chunkIndex chunkData) {frame : Bytes}
    (hframe : frame ∈ transferFrames resourceId chunkIndex chunkData) :
    CarriesAccepted accepts frame := by
  have hoffsets : ∀ offset ∈ blockOffsets chunkData.length, offset < chunkData.length := by
    intro offset hmem
    obtain ⟨index, hindex, rfl⟩ := mem_blockOffsets.mp hmem
    exact mul_lt_length_of_lt_sliceCount P2P_BLOCK_SIZE_pos hindex
  have hdecoded := map_decodeMessage_servePieces (hwired.fits _ _ _ haccepted)
    (hwired.text _ _ _ haccepted) (hwired.index _ _ _ haccepted) (hwired.length _ _ _ haccepted)
    hoffsets
  intro other otherIndex beginOffset totalLength data hdecodes
  have hmem : decodeMessage frame ∈ (transferFrames resourceId chunkIndex chunkData).map
      decodeMessage := List.mem_map_of_mem hframe
  rw [transferFrames, hdecoded, hdecodes] at hmem
  obtain ⟨offset, hoffset, heq⟩ := List.mem_map.mp hmem
  obtain ⟨index, hindex, rfl⟩ := mem_blockOffsets.mp hoffset
  rw [Except.ok.injEq, WireMessage.PIECE.injEq] at heq
  obtain ⟨rfl, rfl, rfl, rfl, rfl⟩ := heq
  exact ⟨chunkData, haccepted, rfl, index, hindex, rfl, subarray_block chunkData index⟩

end Accepted

/-! ### Schedulers -/

/-- The event neither brings a piece nor settles a promise. -/
def SchedulerEvent.IsInternal : SchedulerEvent → Prop
  | .handlePiece _ _ _ _ | .settled _ _ => False
  | _ => True

/-- A property of schedulers under which they write accepted bytes only: those for known resources
begin with it, and allowed events keep it. -/
structure Guards (digest : Bytes → Bytes) (chunkStore : IChunkStore σ)
    (accepts : String → ℕ → Bytes → Prop) (known : ResourceManifest → Prop)
    (guarded : ChunkScheduler → Prop) (allowed : ChunkScheduler → SchedulerEvent → Prop) :
    Prop where
  new : ∀ manifest localBitfield, known manifest →
    guarded (ChunkScheduler.new manifest localBitfield)
  internal : ∀ scheduler event, event.IsInternal → allowed scheduler event
  perform : ∀ (env : Env) (event : SchedulerEvent) (state : SchedulerState σ), WellFormed state →
    guarded state.toChunkScheduler → allowed state.toChunkScheduler event →
    StoreAccepts accepts chunkStore state.store →
      guarded (perform digest chunkStore env event state).1.toChunkScheduler ∧
        StoreAccepts accepts chunkStore (perform digest chunkStore env event state).1.store

/-- What comes to a coordinator from outside is allowed: downloads are of known resources, and the
pieces and reports that come are allowed for the schedulers that they come to. -/
def InputAllowed (known : ResourceManifest → Prop)
    (allowed : ChunkScheduler → SchedulerEvent → Prop) (state : CoordinatorState σ) :
    CoordinatorEvent → Prop
  | .dataMessage _ raw =>
    ∀ resourceId chunkIndex beginOffset totalLength data,
      decodeMessage raw = .ok (.PIECE resourceId chunkIndex beginOffset totalLength data) →
      ∀ scheduler ∈ state.schedulers, scheduler.manifest.resourceId = resourceId →
        allowed scheduler (.handlePiece chunkIndex beginOffset totalLength data)
  | .settled index task settlement =>
    ∀ scheduler, state.schedulers[index]? = some scheduler →
      allowed scheduler (.settled task settlement)
  | .startDownload manifest => known manifest
  | _ => True

/-! ### The coordinator -/

/-- A coordinator holds accepted chunks, reads accepted chunks for what it serves, and has sent only
blocks of accepted chunks. -/
structure Accepting (chunkStore : IChunkStore σ) (accepts : String → ℕ → Bytes → Prop)
    (known : ResourceManifest → Prop) (guarded : ChunkScheduler → Prop)
    (state : CoordinatorState σ) : Prop where
  grounded : Grounded chunkStore state
  store : StoreAccepts accepts chunkStore state.store
  schedulers : AllSchedulers guarded state
  starts : ∀ start ∈ state.starts, known start.manifest
  serves : ∀ serve ∈ state.serves, ∀ data, serve.answer = some (some data) →
    accepts serve.resourceId serve.chunkIndex data
  sent : ∀ entry ∈ state.sent, CarriesAccepted accepts entry.2

section Accepting

variable {digest : Bytes → Bytes} {chunkStore : ListingStore σ} {env : Env}
  {accepts : String → ℕ → Bytes → Prop} {known : ResourceManifest → Prop}
  {guarded : ChunkScheduler → Prop} {allowed : ChunkScheduler → SchedulerEvent → Prop}
  {state next : CoordinatorState σ}

theorem accepting_new (chunkStore : IChunkStore σ) (accepts : String → ℕ → Bytes → Prop)
    (known : ResourceManifest → Prop) (guarded : ChunkScheduler → Prop) (localPeerId : String)
    {store : σ} (hstore : StoreAccepts accepts chunkStore store) :
    Accepting chunkStore accepts known guarded (CoordinatorState.new localPeerId store) where
  grounded := grounded_new chunkStore localPeerId store
  store := hstore
  schedulers := fun _ hmem ↦ absurd hmem List.not_mem_nil
  starts := fun _ hmem ↦ absurd hmem List.not_mem_nil
  serves := fun _ hmem ↦ absurd hmem List.not_mem_nil
  sent := fun _ hmem ↦ absurd hmem List.not_mem_nil

/-- Frames that are added carry accepted chunks. -/
theorem Accepting.sent_of_adds
    (haccepting : Accepting chunkStore.toIChunkStore accepts known guarded state)
    (hadds : Adds (CarriesAccepted accepts) state next) :
    ∀ entry ∈ next.sent, CarriesAccepted accepts entry.2 := by
  obtain ⟨frames, hsent, hok⟩ := hadds
  intro entry hmem
  rw [hsent] at hmem
  exact (List.mem_append.mp hmem).elim (haccepting.sent entry) (hok entry)

/-- Changes that leave the schedulers and the store alone. -/
theorem Accepting.change
    (haccepting : Accepting chunkStore.toIChunkStore accepts known guarded state)
    (hschedulers : next.schedulers = state.schedulers)
    (hscheduler : next.scheduler = state.scheduler ∨ next.scheduler = none)
    (hstore : next.store = state.store) (hstarts : ∀ start ∈ next.starts, start ∈ state.starts)
    (hserves : ∀ serve ∈ next.serves, serve ∈ state.serves ∨
      ∀ data, serve.answer = some (some data) → accepts serve.resourceId serve.chunkIndex data)
    (hadds : Adds (CarriesAccepted accepts) state next) :
    Accepting chunkStore.toIChunkStore accepts known guarded next where
  grounded := (Onward.of_eq hschedulers hscheduler hstarts hstore haccepting.grounded).1
  store := hstore ▸ haccepting.store
  schedulers := haccepting.schedulers.congr hschedulers
  starts start hmem := haccepting.starts start (hstarts start hmem)
  serves serve hmem := (hserves serve hmem).elim (haccepting.serves serve) id
  sent := haccepting.sent_of_adds hadds

/-- The calls of a scheduler send no PIECE. -/
theorem adds_accepted_applyCalls {reached : SchedulerState σ} {calls : List Call}
    (hcalls : ∀ call ∈ calls, CallOk anyBytes chunkStore.toIChunkStore reached call)
    (resourceId : String) (state : CoordinatorState σ) :
    Adds (CarriesAccepted accepts) state (calls.foldl (applyCall resourceId) state) := by
  induction calls generalizing state with
  | nil => exact adds_of_eq _ rfl
  | cons call rest ih =>
    refine Adds.trans ?_ (ih (fun other hmem ↦ hcalls other (List.mem_cons_of_mem call hmem)) _)
    have hcall := hcalls call List.mem_cons_self
    cases call with
    | sendToPeer peerId frame sent =>
      obtain ⟨chunkIndex, hframe⟩ := hcall
      exact adds_send peerId
        (carriesAccepted_of_hasType (hasType_of_encodeChunkIndex hframe) (by decide)) state
    | broadcastToPeers frame =>
      obtain ⟨chunkIndex, hframe, _⟩ := hcall
      exact adds_broadcast
        (carriesAccepted_of_hasType (hasType_of_encodeChunkIndex hframe) (by decide)) state
    | _ => exact adds_of_eq _ rfl

/-- An allowed event of a scheduler. -/
theorem Accepting.onScheduler
    (hguards : Guards digest chunkStore.toIChunkStore accepts known guarded allowed)
    (haccepting : Accepting chunkStore.toIChunkStore accepts known guarded state) (env : Env)
    {index : ℕ} {event : SchedulerEvent}
    (hallowed : ∀ scheduler, state.schedulers[index]? = some scheduler →
      allowed scheduler event) :
    Accepting chunkStore.toIChunkStore accepts known guarded
      (onScheduler digest chunkStore env index event state).1 := by
  have honward := onScheduler_onward digest chunkStore env index event state haccepting.grounded
  rcases onScheduler_cases haccepting.grounded digest env index event with
    heq | ⟨scheduler, reached, hget, hperformed, hreached, heq⟩
  · rwa [heq]
  have hscheduler := List.mem_of_getElem? hget
  obtain ⟨hguarded, hstore⟩ := hguards.perform env event (state.schedulerState scheduler)
    ((haccepting.grounded.schedulers scheduler hscheduler).wellFormed state.heap)
    (haccepting.schedulers scheduler hscheduler) (hallowed scheduler hget) haccepting.store
  rw [← hreached] at hguarded hstore
  have hreported := reported_applyCalls scheduler.manifest.resourceId reached.calls
    (performedState state index reached)
  have hadds : Adds (CarriesAccepted accepts) (performedState state index reached)
      (reached.calls.foldl (applyCall scheduler.manifest.resourceId)
        (performedState state index reached)) :=
    adds_accepted_applyCalls hperformed.holds.calls _ _
  rw [heq] at honward ⊢
  refine ⟨honward.1, ?_, fun other hmem ↦ ?_, fun start hmem ↦ ?_, fun serve hmem ↦ ?_,
    haccepting.sent_of_adds ((adds_of_eq _ rfl).trans hadds)⟩
  · rw [hreported.store]
    exact hstore
  · rw [hreported.schedulers] at hmem
    rcases List.mem_or_eq_of_mem_set hmem with hold | rfl
    · exact haccepting.schedulers other hold
    · exact hguarded
  · rw [hreported.starts] at hmem
    exact haccepting.starts start hmem
  · rw [hreported.serves] at hmem
    exact haccepting.serves serve hmem

theorem Accepting.onCurrentScheduler
    (hguards : Guards digest chunkStore.toIChunkStore accepts known guarded allowed)
    (haccepting : Accepting chunkStore.toIChunkStore accepts known guarded state) (env : Env)
    {event : SchedulerEvent} (hinternal : event.IsInternal) :
    Accepting chunkStore.toIChunkStore accepts known guarded
      (onCurrentScheduler digest chunkStore env event state) := by
  unfold Web.onCurrentScheduler
  split
  · exact haccepting.onScheduler hguards env fun scheduler _ ↦ hguards.internal _ event hinternal
  · exact haccepting

/-- An event of the scheduler for a resource, if it is allowed there. -/
theorem Accepting.onSchedulerFor
    (hguards : Guards digest chunkStore.toIChunkStore accepts known guarded allowed)
    (haccepting : Accepting chunkStore.toIChunkStore accepts known guarded state) (env : Env)
    {resourceId : String} {event : SchedulerEvent}
    (hallowed : ∀ scheduler ∈ state.schedulers, scheduler.manifest.resourceId = resourceId →
      allowed scheduler event) :
    Accepting chunkStore.toIChunkStore accepts known guarded
      (onSchedulerFor digest chunkStore env resourceId event state) := by
  unfold Web.onSchedulerFor
  split_ifs with hcurrent
  · unfold Web.onCurrentScheduler
    split
    · next index hindex =>
      refine haccepting.onScheduler hguards env fun scheduler hget ↦ ?_
      refine hallowed scheduler (List.mem_of_getElem? hget) ?_
      rw [isCurrentResource, hindex, Option.bind_some, hget] at hcurrent
      simpa using hcurrent
    · exact haccepting
  · exact haccepting

/-! ### Methods -/

/-- Changes of the books on peers. -/
theorem Accepting.books
    (haccepting : Accepting chunkStore.toIChunkStore accepts known guarded state)
    (peers : OrderedMap String WebRtcPeerConnection) (peerBitfields : OrderedMap String ℕ)
    (heap : List Bitfield) (announcements : OrderedMap String (List Announcement)) :
    Accepting chunkStore.toIChunkStore accepts known guarded
      { state with
        peers := peers
        peerBitfields := peerBitfields
        heap := heap
        history := { state.history with announcements := announcements } } :=
  haccepting.change rfl (Or.inl rfl) rfl (fun _ ↦ id) (fun _ ↦ Or.inl) (adds_of_eq _ rfl)

theorem Accepting.send
    (haccepting : Accepting chunkStore.toIChunkStore accepts known guarded state)
    (peerId : String) {frame : Bytes} (hframe : CarriesAccepted accepts frame) :
    Accepting chunkStore.toIChunkStore accepts known guarded (send peerId frame state) := by
  have hreported := reported_send peerId frame state
  exact haccepting.change hreported.schedulers (Or.inl hreported.scheduler) hreported.store
    (fun start hmem ↦ hreported.starts ▸ hmem) (fun serve hmem ↦ Or.inl (hreported.serves ▸ hmem))
    (adds_send peerId hframe state)

theorem Accepting.connect
    (haccepting : Accepting chunkStore.toIChunkStore accepts known guarded state)
    (remotePeerId : String) (isInitiator : Bool) :
    Accepting chunkStore.toIChunkStore accepts known guarded
      (connect remotePeerId isInitiator state) := by
  unfold Web.connect
  split_ifs
  · exact haccepting
  · exact haccepting.books _ state.peerBitfields state.heap state.history.announcements

theorem Accepting.handlePeerLeft
    (hguards : Guards digest chunkStore.toIChunkStore accepts known guarded allowed)
    (haccepting : Accepting chunkStore.toIChunkStore accepts known guarded state) (env : Env)
    (remotePeerId : String) :
    Accepting chunkStore.toIChunkStore accepts known guarded
      (handlePeerLeft digest chunkStore env remotePeerId state) :=
  (haccepting.books (state.peers.delete remotePeerId) (state.peerBitfields.delete remotePeerId)
    state.heap (state.history.announcements.delete remotePeerId)).onCurrentScheduler hguards env
      trivial

/-- The peer is greeted with a BITFIELD and an UNCHOKE. -/
theorem Accepting.channelOpen
    (haccepting : Accepting chunkStore.toIChunkStore accepts known guarded state)
    (remotePeerId : String) :
    Accepting chunkStore.toIChunkStore accepts known guarded (channelOpen remotePeerId state) := by
  unfold Web.channelOpen
  split
  · next connection _ =>
    have hopened := haccepting.books
      (state.peers.set remotePeerId { connection with channelOpen := true }) state.peerBitfields
      state.heap state.history.announcements
    unfold handleChannelOpen
    split_ifs
    · exact hopened
    split
    · split
      · next hbitfield hunchoke =>
        exact (hopened.send remotePeerId
          (carriesAccepted_of_hasType (hasType_of_encodeBitfield hbitfield) (by decide))).send _
          (carriesAccepted_of_hasType (hasType_of_encodeHeaderOnly hunchoke) (by decide))
      · next hbitfield _ =>
        exact hopened.send remotePeerId
          (carriesAccepted_of_hasType (hasType_of_encodeBitfield hbitfield) (by decide))
      · exact hopened
    · exact hopened
  · exact haccepting

theorem Accepting.handleBitfield
    (hguards : Guards digest chunkStore.toIChunkStore accepts known guarded allowed)
    (haccepting : Accepting chunkStore.toIChunkStore accepts known guarded state) (env : Env)
    (remotePeerId resourceId : String) (bitfield : Bitfield) :
    Accepting chunkStore.toIChunkStore accepts known guarded
      (handleBitfield digest chunkStore env remotePeerId resourceId bitfield state) :=
  (haccepting.books state.peers (state.peerBitfields.set remotePeerId state.heap.length)
    (state.heap ++ [bitfield]) state.history.announcements).onSchedulerFor hguards env
      fun scheduler _ _ ↦ hguards.internal scheduler _ trivial

theorem Accepting.handleHave
    (hguards : Guards digest chunkStore.toIChunkStore accepts known guarded allowed)
    (haccepting : Accepting chunkStore.toIChunkStore accepts known guarded state) (env : Env)
    (remotePeerId resourceId : String) (chunkIndex : ℕ) :
    Accepting chunkStore.toIChunkStore accepts known guarded
      (handleHave digest chunkStore env remotePeerId resourceId chunkIndex state) := by
  have hrecorded : Accepting chunkStore.toIChunkStore accepts known guarded
      (recordedBitfield remotePeerId state).1 := by
    unfold recordedBitfield
    split
    · exact haccepting
    · exact haccepting.books state.peers _ _ state.history.announcements
    · exact haccepting
  have hinternal : ∀ scheduler : ChunkScheduler,
      allowed scheduler (.updatePeerHave remotePeerId chunkIndex) := fun scheduler ↦
    hguards.internal scheduler _ trivial
  unfold Web.handleHave
  simp only
  split
  · exact hrecorded.onSchedulerFor hguards env fun scheduler _ _ ↦ hinternal scheduler
  · next address _ =>
    split
    · exact hrecorded
    · next bitfield _ =>
      have hmarked := hrecorded.books (recordedBitfield remotePeerId state).1.peers
        (recordedBitfield remotePeerId state).1.peerBitfields
        ((recordedBitfield remotePeerId state).1.heap.set address bitfield)
        (recordedBitfield remotePeerId state).1.history.announcements
      exact hmarked.onSchedulerFor hguards env fun scheduler _ _ ↦ hinternal scheduler

/-- A frame that arrives. -/
theorem Accepting.handleDataMessage
    (hguards : Guards digest chunkStore.toIChunkStore accepts known guarded allowed)
    (haccepting : Accepting chunkStore.toIChunkStore accepts known guarded state) (env : Env)
    {remotePeerId : String} {raw : Bytes}
    (hallowed : InputAllowed known allowed state (.dataMessage remotePeerId raw)) :
    Accepting chunkStore.toIChunkStore accepts known guarded
      (handleDataMessage digest chunkStore env remotePeerId raw state) := by
  have hannounced : ∀ announcement, Accepting chunkStore.toIChunkStore accepts known guarded
      (announce remotePeerId announcement state) := fun announcement ↦
    haccepting.books state.peers state.peerBitfields state.heap _
  unfold Web.handleDataMessage
  split
  · exact haccepting
  · exact (hannounced _).handleBitfield hguards env _ _ _
  · exact (hannounced _).handleHave hguards env _ _ _
  · refine haccepting.change rfl (Or.inl rfl) rfl (fun _ ↦ id) (fun serve hmem ↦ ?_)
      (adds_of_eq _ rfl)
    refine (List.mem_append.mp hmem).imp id fun hnew data hanswer ↦ ?_
    rw [List.mem_singleton.mp hnew] at hanswer
    exact absurd hanswer (by simp)
  · next hdecodes => exact haccepting.onSchedulerFor hguards env (hallowed _ _ _ _ _ hdecodes)
  · exact haccepting.onSchedulerFor hguards env fun scheduler _ _ ↦
      hguards.internal scheduler _ trivial
  · exact haccepting.onSchedulerFor hguards env fun scheduler _ _ ↦
      hguards.internal scheduler _ trivial

/-- A REQUEST that goes on is answered with blocks of the chunk that was read for it. -/
theorem Accepting.resumeServe (hwired : Wired accepts)
    (haccepting : Accepting chunkStore.toIChunkStore accepts known guarded state)
    {serve : PendingServe} (hserve : ∀ data, serve.answer = some (some data) →
      accepts serve.resourceId serve.chunkIndex data) :
    Accepting chunkStore.toIChunkStore accepts known guarded (resumeServe serve state) := by
  have hsends : ∀ (frames : List Bytes) (reached : CoordinatorState σ),
      (∀ frame ∈ frames, CarriesAccepted accepts frame) →
      Accepting chunkStore.toIChunkStore accepts known guarded reached →
      Accepting chunkStore.toIChunkStore accepts known guarded
        (frames.foldl (fun current pieceMsg ↦ Web.CoordinatorState.send serve.peerId pieceMsg
          current) reached) := by
    intro frames
    induction frames with
    | nil => exact fun _ _ hreached ↦ hreached
    | cons frame rest ih =>
      exact fun reached hframes hreached ↦ ih _
        (fun other hmem ↦ hframes other (List.mem_cons_of_mem frame hmem))
        (hreached.send serve.peerId (hframes frame List.mem_cons_self))
  unfold Web.resumeServe
  split
  · next chunkData hanswer =>
    exact hsends _ state
      (fun frame hframe ↦ carriesAccepted_of_mem_transferFrames hwired (hserve chunkData hanswer)
        hframe) haccepting
  · exact haccepting

theorem Accepting.startDownload
    (hguards : Guards digest chunkStore.toIChunkStore accepts known guarded allowed)
    (haccepting : Accepting chunkStore.toIChunkStore accepts known guarded state) (env : Env)
    {manifest : ResourceManifest} (hknown : known manifest) :
    Accepting chunkStore.toIChunkStore accepts known guarded
      (startDownload digest chunkStore env manifest state) := by
  have hstopped := haccepting.onCurrentScheduler hguards env
    (show SchedulerEvent.stop.IsInternal from trivial)
  have honward := startDownload_onward digest chunkStore env manifest state haccepting.grounded
  refine ⟨honward.1, hstopped.store, hstopped.schedulers, fun start hmem ↦ ?_, hstopped.serves,
    hstopped.sent⟩
  rcases List.mem_append.mp hmem with hold | hnew
  · exact hstopped.starts start hold
  · rw [List.mem_singleton.mp hnew]
    exact hknown

/-- The recorded bitfields are handed to the new scheduler one after the other. -/
theorem Accepting.provideBitfields
    (hguards : Guards digest chunkStore.toIChunkStore accepts known guarded allowed)
    (haccepting : Accepting chunkStore.toIChunkStore accepts known guarded state) (env : Env) :
    Accepting chunkStore.toIChunkStore accepts known guarded
      (provideBitfields digest chunkStore env state) := by
  unfold Web.provideBitfields
  generalize state.peerBitfields.entries = entries
  induction entries generalizing state with
  | nil => exact haccepting
  | cons entry rest ih => exact ih (haccepting.onCurrentScheduler hguards env trivial)

theorem Accepting.returnStart
    (haccepting : Accepting chunkStore.toIChunkStore accepts known guarded state)
    (start : PendingStart) :
    Accepting chunkStore.toIChunkStore accepts known guarded (returnStart start state) := by
  unfold Web.returnStart
  split_ifs
  · exact haccepting.change rfl (Or.inl rfl) rfl (fun _ ↦ id) (fun _ ↦ Or.inl) (adds_of_eq _ rfl)
  · exact haccepting

theorem Accepting.resumeStart
    (hguards : Guards digest chunkStore.toIChunkStore accepts known guarded allowed)
    (haccepting : Accepting chunkStore.toIChunkStore accepts known guarded state) (env : Env)
    {start : PendingStart} (hknown : known start.manifest) {available : List ℕ}
    (hlisted : ∀ chunkIndex ∈ available,
      Present chunkStore.toIChunkStore state.store start.manifest.resourceId chunkIndex) :
    Accepting chunkStore.toIChunkStore accepts known guarded
      (resumeStart digest chunkStore env start available state) := by
  unfold Web.resumeStart
  simp only
  split
  · exact haccepting
  next localBitfield hmarked =>
  have hbegun : Accepting chunkStore.toIChunkStore accepts known guarded
      (beginDownload start.manifest localBitfield state) :=
    haccepting.change rfl (Or.inl rfl) rfl (fun _ ↦ id) (fun _ ↦ Or.inl) (adds_of_eq _ rfl)
  split_ifs
  · exact hbegun.returnStart start
  obtain ⟨htotal, hhas⟩ := localBitfield_spec hmarked
  have hgrounded := (installScheduler_onward (beginDownload start.manifest localBitfield state)
    (schedulerOk_new htotal fun chunkIndex h ↦ hlisted chunkIndex ((hhas chunkIndex).mp h))
    hbegun.grounded).1
  have hinstalled : Accepting chunkStore.toIChunkStore accepts known guarded
      (installScheduler start localBitfield
        (beginDownload start.manifest localBitfield state)) := by
    refine ⟨hgrounded, hbegun.store, fun scheduler hmem ↦ ?_, hbegun.starts, hbegun.serves,
      hbegun.sent⟩
    rcases List.mem_append.mp hmem with hold | hnew
    · exact hbegun.schedulers scheduler hold
    · rw [List.mem_singleton.mp hnew]
      exact hguards.new start.manifest localBitfield hknown
  have hprovided := hinstalled.provideBitfields hguards env
  split
  · exact hprovided
  · next bfWire hwire =>
    have hbroadcast : Accepting chunkStore.toIChunkStore accepts known guarded
        (broadcast bfWire (Web.provideBitfields digest chunkStore env
          (installScheduler start localBitfield
            (beginDownload start.manifest localBitfield state)))) :=
      hprovided.change rfl (Or.inl rfl) rfl (fun _ ↦ id) (fun _ ↦ Or.inl)
        (adds_broadcast
          (carriesAccepted_of_hasType (hasType_of_encodeBitfield hwire) (by decide)) _)
    exact (hbroadcast.onCurrentScheduler hguards env
      (show SchedulerEvent.start.IsInternal from trivial)).returnStart start

/-! ### Every run -/

/-- Every allowed input keeps what a coordinator holds and sends accepted. -/
theorem Accepting.step
    (hguards : Guards digest chunkStore.toIChunkStore accepts known guarded allowed)
    (hwired : Wired accepts)
    (haccepting : Accepting chunkStore.toIChunkStore accepts known guarded state)
    {input : CoordinatorInput} (hallowed : InputAllowed known allowed state input.2) :
    Accepting chunkStore.toIChunkStore accepts known guarded
      (coordinatorStep digest chunkStore state input) := by
  obtain ⟨env, event⟩ := input
  have hkept : ∀ starts : List PendingStart, ∀ serves : List PendingServe,
      Grounded chunkStore.toIChunkStore { state with starts := starts, serves := serves } →
      (∀ start ∈ starts, known start.manifest) →
      (∀ serve ∈ serves, ∀ data, serve.answer = some (some data) →
        accepts serve.resourceId serve.chunkIndex data) →
      Accepting chunkStore.toIChunkStore accepts known guarded
        { state with starts := starts, serves := serves } :=
    fun starts serves hgrounded hstarts hserves ↦
      ⟨hgrounded, haccepting.store, haccepting.schedulers, hstarts, hserves, haccepting.sent⟩
  have hgrounded := (coordinatorStep_onward digest chunkStore state (env, event)
    haccepting.grounded).1
  have htransition := coordinatorStep_transition digest chunkStore env state event
  generalize coordinatorStep digest chunkStore state (env, event) = next at htransition hgrounded ⊢
  cases htransition with
  | ignored => exact haccepting
  | peerDiscovered remotePeerId => exact haccepting.connect remotePeerId _
  | signalOffer remotePeerId => exact haccepting.connect remotePeerId false
  | peerLeft remotePeerId => exact haccepting.handlePeerLeft hguards env remotePeerId
  | channelOpened remotePeerId => exact haccepting.channelOpen remotePeerId
  | channelClosed remotePeerId => exact haccepting.handlePeerLeft hguards env remotePeerId
  | dataMessage remotePeerId raw => exact haccepting.handleDataMessage hguards env hallowed
  | serveRead index serve hserve =>
    refine hkept state.starts _ hgrounded haccepting.starts fun other hmem data hanswer ↦ ?_
    rcases List.mem_or_eq_of_mem_set hmem with hold | rfl
    · exact haccepting.serves other hold data hanswer
    · exact haccepting.store _ _ data (Option.some.inj hanswer)
  | serveResumed index serve hserve =>
    have herased : Accepting chunkStore.toIChunkStore accepts known guarded
        { state with serves := state.serves.eraseIdx index } :=
      haccepting.change rfl (Or.inl rfl) rfl (fun _ ↦ id)
        (fun _ hmem ↦ Or.inl (List.mem_of_mem_eraseIdx hmem)) (adds_of_eq _ rfl)
    exact herased.resumeServe hwired (haccepting.serves serve (List.mem_of_getElem? hserve))
  | serveFailed index =>
    exact hkept state.starts _ hgrounded haccepting.starts fun serve hmem ↦
      haccepting.serves serve (List.mem_of_mem_eraseIdx hmem)
  | startDownload manifest => exact haccepting.startDownload hguards env hallowed
  | startRead index start hstart =>
    refine hkept _ state.serves hgrounded (fun other hmem ↦ ?_) haccepting.serves
    rcases List.mem_or_eq_of_mem_set hmem with hold | rfl
    · exact haccepting.starts other hold
    · exact haccepting.starts start (List.mem_of_getElem? hstart)
  | startResumed index start available hstart havailable =>
    have hmem := List.mem_of_getElem? hstart
    have herased : Accepting chunkStore.toIChunkStore accepts known guarded
        { state with starts := state.starts.eraseIdx index } :=
      haccepting.change rfl (Or.inl rfl) rfl (fun _ ↦ List.mem_of_mem_eraseIdx) (fun _ ↦ Or.inl)
        (adds_of_eq _ rfl)
    exact herased.resumeStart hguards env (haccepting.starts start hmem)
      ((haccepting.grounded.starts start hmem).available available havailable).1
  | startFailed index =>
    exact hkept _ state.serves hgrounded
      (fun start hmem ↦ haccepting.starts start (List.mem_of_mem_eraseIdx hmem)) haccepting.serves
  | timeout scheduler timer =>
    exact haccepting.onScheduler hguards env fun reached _ ↦ hguards.internal reached _ trivial
  | settled scheduler index settlement => exact haccepting.onScheduler hguards env hallowed
  | stop =>
    have hstopped := haccepting.onCurrentScheduler hguards env
      (show SchedulerEvent.stop.IsInternal from trivial)
    exact hstopped.change rfl (Or.inr rfl) rfl (fun _ ↦ id) (fun _ ↦ Or.inl) (adds_of_eq _ rfl)

end Accepting

end CampusMesh.Web
