import CampusMesh.Web.CoordinatorMoves
import CampusMesh.Web.SchedulerIntegrity
import CampusMesh.Web.SchedulerReports

/-!
# What every run of a coordinator keeps

Whatever a scheduler does, it does in small steps, so what it leaves behind is known
(`SchedulerOk.performed`): its books are in order, the chunks it marks are stored, its reports are
true, and the frames it sends are requests and announcements. `Grounded` collects this for all
schedulers of a coordinator and adds that what the store listed for a download is still stored. Its
calls change the download record and the frames sent, and leave the rest of the coordinator alone
(`Reported`).
-/

set_option autoImplicit false
set_option relaxedAutoImplicit false

namespace CampusMesh.Web

open Library Shared SchedulerState CoordinatorState Relation

variable {σ : Type}

/-- The store holds a chunk of a resource. -/
def Present (chunkStore : IChunkStore σ) (store : σ) (resourceId : String)
    (chunkIndex : ℕ) : Prop :=
  (chunkStore.get store resourceId chunkIndex).isSome = true

/-- Bytes of any content. -/
def anyBytes (_ : ResourceManifest) (_ : ℕ) (_ : Bytes) : Prop := True

theorem present_iff_stored {chunkStore : IChunkStore σ} {manifest : ResourceManifest} {store : σ}
    {chunkIndex : ℕ} : Stored anyBytes chunkStore manifest store chunkIndex ↔
      Present chunkStore store manifest.resourceId chunkIndex := by
  rw [Present, Option.isSome_iff_exists]
  exact ⟨fun ⟨data, hdata, _⟩ ↦ ⟨data, hdata⟩, fun ⟨data, hdata⟩ ↦ ⟨data, hdata, trivial⟩⟩

/-- Whatever one store holds another holds too. -/
def StoreGrows (chunkStore : IChunkStore σ) (first second : σ) : Prop :=
  ∀ resourceId chunkIndex, Present chunkStore first resourceId chunkIndex →
    Present chunkStore second resourceId chunkIndex

theorem StoreGrows.refl (chunkStore : IChunkStore σ) (store : σ) :
    StoreGrows chunkStore store store := fun _ _ ↦ id

theorem StoreGrows.trans {chunkStore : IChunkStore σ} {first second third : σ}
    (hfirst : StoreGrows chunkStore first second) (hsecond : StoreGrows chunkStore second third) :
    StoreGrows chunkStore first third := fun resourceId chunkIndex h ↦
  hsecond resourceId chunkIndex (hfirst resourceId chunkIndex h)

/-- Writing takes nothing away. -/
theorem storeGrows_put (chunkStore : IChunkStore σ) (store : σ) (resourceId : String)
    (chunkIndex : ℕ) (data : Bytes) :
    StoreGrows chunkStore store (chunkStore.put store resourceId chunkIndex data) := by
  intro other otherIndex hpresent
  rw [Present, chunkStore.get_put]
  split_ifs
  · rfl
  · exact hpresent

/-! ### One scheduler -/

section Scheduler

variable {digest : Bytes → Bytes} {chunkStore : IChunkStore σ} {env : Env}

theorem Step.storeGrows {state next : SchedulerState σ}
    (hstep : Step digest chunkStore env state next) :
    StoreGrows chunkStore state.store next.store := by
  cases hstep with
  | move hmove => cases hmove <;> exact StoreGrows.refl chunkStore _
  | write => exact storeGrows_put chunkStore _ _ _ _
  | _ => exact StoreGrows.refl chunkStore _

/-- A scheduler whose books are in order and whose marked chunks are stored. -/
structure SchedulerOk (chunkStore : IChunkStore σ) (store : σ) (scheduler : ChunkScheduler) :
    Prop where
  wellFormed : ∀ heap, WellFormed
    ({ scheduler with heap := heap, store := store, calls := [] } : SchedulerState σ)
  holds : ∀ heap, HoldsAccepted anyBytes chunkStore
    ({ scheduler with heap := heap, store := store, calls := [] } : SchedulerState σ)
  totalChunks : scheduler.localBitfield.totalChunks = scheduler.manifest.totalChunks

/-- What a scheduler leaves behind after an event: its books, its marks and the store only grow, its
reports are true, and its calls keep their promise. -/
structure Performed (chunkStore : IChunkStore σ) (store : σ) (scheduler : ChunkScheduler)
    (reached : SchedulerState σ) : Prop where
  wellFormed : WellFormed reached
  holds : HoldsAccepted anyBytes chunkStore reached
  reports : ReportsTrue reached
  manifest : reached.manifest = scheduler.manifest
  totalChunks : reached.localBitfield.totalChunks = scheduler.localBitfield.totalChunks
  marks : ∀ chunkIndex, scheduler.localBitfield.has chunkIndex = true →
    reached.localBitfield.has chunkIndex = true
  grows : StoreGrows chunkStore store reached.store

variable {store : σ} {scheduler : ChunkScheduler}

theorem Performed.step {state next : SchedulerState σ}
    (hperformed : Performed chunkStore store scheduler state)
    (hstep : Step digest chunkStore env state next) :
    Performed chunkStore store scheduler next where
  wellFormed := hperformed.wellFormed.step hstep
  holds := hperformed.holds.step (fun _ _ _ _ ↦ trivial) hstep
  reports := hperformed.reports.step hstep
  manifest := hstep.manifest_totalChunks.1.trans hperformed.manifest
  totalChunks := hstep.manifest_totalChunks.2.trans hperformed.totalChunks
  marks chunkIndex hmarked := hstep.has_mono (hperformed.marks chunkIndex hmarked)
  grows := hperformed.grows.trans hstep.storeGrows

/-- Every event of a scheduler in order leaves it in order. -/
theorem SchedulerOk.performed (hok : SchedulerOk chunkStore store scheduler)
    (digest : Bytes → Bytes) (env : Env) (event : SchedulerEvent) (heap : List Bitfield) :
    Performed chunkStore store scheduler (perform digest chunkStore env event
      { scheduler with heap := heap, store := store, calls := [] }).1 := by
  have hsteps : Steps digest chunkStore env
      { scheduler with heap := heap, store := store, calls := [] }
      (perform digest chunkStore env event
        { scheduler with heap := heap, store := store, calls := [] }).1 :=
    perform_steps (hok.wellFormed heap) event
  generalize (perform digest chunkStore env event
    { scheduler with heap := heap, store := store, calls := [] }).1 = reached at hsteps
  induction hsteps with
  | refl => exact ⟨hok.wellFormed heap, hok.holds heap, fun _ h ↦ absurd h List.not_mem_nil, rfl,
      rfl, fun _ h ↦ h, StoreGrows.refl chunkStore store⟩
  | tail _ hstep ih => exact ih.step hstep

/-- A scheduler after an event is in order again. -/
theorem Performed.ok {reached : SchedulerState σ}
    (hperformed : Performed chunkStore store scheduler reached)
    (hok : SchedulerOk chunkStore store scheduler) :
    SchedulerOk chunkStore reached.store reached.toChunkScheduler where
  wellFormed heap := by
    have h := hperformed.wellFormed
    exact ⟨h.1, h.2, h.3, h.4, h.5⟩
  holds heap := ⟨hperformed.holds.marked, fun _ h ↦ absurd h List.not_mem_nil,
    hperformed.holds.tasks⟩
  totalChunks := by
    rw [hperformed.totalChunks, hok.totalChunks, hperformed.manifest]

/-- A scheduler stays in order while the store grows. -/
theorem SchedulerOk.mono (hok : SchedulerOk chunkStore store scheduler) {larger : σ}
    (hgrows : StoreGrows chunkStore store larger) : SchedulerOk chunkStore larger scheduler where
  wellFormed heap := by
    have h := hok.wellFormed heap
    exact ⟨h.1, h.2, h.3, h.4, h.5⟩
  holds heap := by
    have hstored : ∀ chunkIndex, Stored anyBytes chunkStore scheduler.manifest store chunkIndex →
        Stored anyBytes chunkStore scheduler.manifest larger chunkIndex := fun chunkIndex h ↦
      present_iff_stored.mpr (hgrows _ _ (present_iff_stored.mp h))
    exact (hok.holds heap).grow rfl hstored (fun _ h ↦ Or.inl h) (fun _ h ↦ Or.inl h)
      fun _ h ↦ Or.inl h
  totalChunks := hok.totalChunks

/-- A new scheduler whose bitfield marks stored chunks. -/
theorem schedulerOk_new {manifest : ResourceManifest} {localBitfield : Bitfield}
    (htotal : localBitfield.totalChunks = manifest.totalChunks)
    (hmarked : ∀ chunkIndex, localBitfield.has chunkIndex = true →
      Present chunkStore store manifest.resourceId chunkIndex) :
    SchedulerOk chunkStore store (ChunkScheduler.new manifest localBitfield) where
  wellFormed heap := wellFormed_new manifest localBitfield heap store
  holds heap := holdsAccepted_new heap fun chunkIndex h ↦
    present_iff_stored.mpr (hmarked chunkIndex h)
  totalChunks := htotal

theorem SchedulerOk.present (hok : SchedulerOk chunkStore store scheduler) {chunkIndex : ℕ}
    (hmarked : scheduler.localBitfield.has chunkIndex = true) :
    Present chunkStore store scheduler.manifest.resourceId chunkIndex :=
  present_iff_stored.mp ((hok.holds []).marked chunkIndex hmarked)

end Scheduler

/-! ### What calls leave alone -/

/-- What the calls of schedulers leave alone: everything but the progress of the download, the
chunks counted for it, and the frames sent. -/
structure Reported (state next : CoordinatorState σ) : Prop where
  peers : next.peers = state.peers
  peerBitfields : next.peerBitfields = state.peerBitfields
  scheduler : next.scheduler = state.scheduler
  currentManifest : next.currentManifest = state.currentManifest
  starts : next.starts = state.starts
  serves : next.serves = state.serves
  schedulers : next.schedulers = state.schedulers
  heap : next.heap = state.heap
  store : next.store = state.store
  resourceId : next.download.resourceId = state.download.resourceId
  totalChunks : next.download.totalChunks = state.download.totalChunks
  startCalls : next.history.startCalls = state.history.startCalls
  installed : next.history.installed = state.history.installed
  returned : next.history.returned = state.history.returned
  announcements : next.history.announcements = state.history.announcements

theorem Reported.refl (state : CoordinatorState σ) : Reported state state :=
  ⟨rfl, rfl, rfl, rfl, rfl, rfl, rfl, rfl, rfl, rfl, rfl, rfl, rfl, rfl, rfl⟩

theorem Reported.trans {first second third : CoordinatorState σ} (h : Reported first second)
    (h' : Reported second third) : Reported first third :=
  ⟨h'.1.trans h.1, h'.2.trans h.2, h'.3.trans h.3, h'.4.trans h.4, h'.5.trans h.5, h'.6.trans h.6,
    h'.7.trans h.7, h'.8.trans h.8, h'.9.trans h.9, h'.10.trans h.10, h'.11.trans h.11,
    h'.12.trans h.12, h'.13.trans h.13, h'.14.trans h.14, h'.15.trans h.15⟩

theorem reported_send (peerId : String) (buffer : Bytes) (state : CoordinatorState σ) :
    Reported state (send peerId buffer state) := by
  unfold send
  split
  · split_ifs
    · exact ⟨rfl, rfl, rfl, rfl, rfl, rfl, rfl, rfl, rfl, rfl, rfl, rfl, rfl, rfl, rfl⟩
    · exact Reported.refl state
  · exact Reported.refl state

/-- A peer whose channel opens is sent two frames, one, or none. -/
theorem handleChannelOpen_cases (remotePeerId : String) (state : CoordinatorState σ) :
    handleChannelOpen remotePeerId state = state ∨
      (∃ frame, handleChannelOpen remotePeerId state = send remotePeerId frame state) ∨
      ∃ first second, handleChannelOpen remotePeerId state =
        send remotePeerId second (send remotePeerId first state) := by
  unfold handleChannelOpen
  split_ifs
  · exact Or.inl rfl
  split
  · split
    · exact Or.inr (Or.inr ⟨_, _, rfl⟩)
    · exact Or.inr (Or.inl ⟨_, rfl⟩)
    · exact Or.inl rfl
  · exact Or.inl rfl

theorem reported_handleChannelOpen (remotePeerId : String) (state : CoordinatorState σ) :
    Reported state (handleChannelOpen remotePeerId state) := by
  rcases handleChannelOpen_cases remotePeerId state with
    heq | ⟨frame, heq⟩ | ⟨first, second, heq⟩
  · rw [heq]
    exact Reported.refl state
  · rw [heq]
    exact reported_send remotePeerId frame state
  · rw [heq]
    exact (reported_send _ _ _).trans (reported_send _ _ _)

theorem reported_applyCall (resourceId : String) (state : CoordinatorState σ) (call : Call) :
    Reported state (applyCall resourceId state call) := by
  cases call with
  | sendToPeer peerId buffer sent => exact reported_send peerId buffer state
  | onChunkCompleted chunkIdx fromP2P byteLength latencyMs =>
    cases fromP2P <;>
      exact ⟨rfl, rfl, rfl, rfl, rfl, rfl, rfl, rfl, rfl, rfl, rfl, rfl, rfl, rfl, rfl⟩
  | _ => exact ⟨rfl, rfl, rfl, rfl, rfl, rfl, rfl, rfl, rfl, rfl, rfl, rfl, rfl, rfl, rfl⟩

/-- The calls of an event, one after the other. -/
theorem reported_applyCalls (resourceId : String) (calls : List Call)
    (state : CoordinatorState σ) :
    Reported state (calls.foldl (applyCall resourceId) state) := by
  induction calls generalizing state with
  | nil => exact Reported.refl state
  | cons call rest ih => exact (reported_applyCall resourceId state call).trans (ih _)

/-! ### All schedulers -/

/-- The scheduler is the one in `this.scheduler`. -/
def IsCurrent (state : CoordinatorState σ) (scheduler : ChunkScheduler) : Prop :=
  ∃ index, state.scheduler = some index ∧ state.schedulers[index]? = some scheduler

theorem isCurrent_iff {state : CoordinatorState σ} {scheduler : ChunkScheduler} :
    IsCurrent state scheduler ↔
      (state.scheduler.bind fun index ↦ state.schedulers[index]?) = some scheduler :=
  Option.bind_eq_some_iff.symm

/-- What a pending call of `startDownload` relies on: the chunks stored when it was called, and
those that the store listed since, are still stored, and the list has the former. -/
structure StartOk (chunkStore : IChunkStore σ) (store : σ) (start : PendingStart) : Prop where
  stored : ∀ chunkIndex ∈ start.stored,
    Present chunkStore store start.manifest.resourceId chunkIndex
  available : ∀ available, start.available = some available →
    (∀ chunkIndex ∈ available, Present chunkStore store start.manifest.resourceId chunkIndex) ∧
      ∀ chunkIndex ∈ start.stored, chunkIndex ∈ available

theorem StartOk.mono {chunkStore : IChunkStore σ} {store larger : σ} {start : PendingStart}
    (hok : StartOk chunkStore store start) (hgrows : StoreGrows chunkStore store larger) :
    StartOk chunkStore larger start where
  stored chunkIndex hmem := hgrows _ _ (hok.stored chunkIndex hmem)
  available available havailable :=
    ⟨fun chunkIndex hmem ↦ hgrows _ _ ((hok.available available havailable).1 chunkIndex hmem),
      (hok.available available havailable).2⟩

/-- All schedulers of a coordinator are in order, and so is what its pending calls rely on. -/
structure Grounded (chunkStore : IChunkStore σ) (state : CoordinatorState σ) : Prop where
  schedulers : ∀ scheduler ∈ state.schedulers, SchedulerOk chunkStore state.store scheduler
  current : ∀ index, state.scheduler = some index → index < state.schedulers.length
  starts : ∀ start ∈ state.starts, StartOk chunkStore state.store start

/-- Reading the store for a call keeps its number. -/
theorem map_call_set {starts : List PendingStart} {index : ℕ} {start : PendingStart}
    (hstart : starts[index]? = some start) (available : Option (List ℕ)) :
    (starts.set index { start with available := available }).map PendingStart.call =
      starts.map PendingStart.call := by
  ext position : 1
  rw [List.getElem?_map, List.getElem?_map, List.getElem?_set]
  split_ifs with hposition hrange
  · rw [← hposition, hstart]
    rfl
  · exact absurd (List.getElem?_eq_some_iff.mp hstart).1 hrange
  · rfl

/-- The number of the call that goes on is not that of another that waits. -/
theorem call_ne_of_mem_eraseIdx {starts : List PendingStart} {index : ℕ}
    {start other : PendingStart}
    (hdistinct : (starts.map PendingStart.call).Nodup) (hstart : starts[index]? = some start)
    (hother : other ∈ starts.eraseIdx index) : other.call ≠ start.call := by
  obtain ⟨position, hne, hposition⟩ := List.mem_eraseIdx_iff_getElem?.mp hother
  intro heq
  refine hne ?_
  have hcalls : (starts.map PendingStart.call)[position]? =
      (starts.map PendingStart.call)[index]? := by
    rw [List.getElem?_map, List.getElem?_map, hposition, hstart, Option.map_some, Option.map_some,
      heq]
  refine (List.getElem?_inj ?_ hdistinct).mp hcalls
  rw [List.length_map]
  exact (List.getElem?_eq_some_iff.mp hposition).1

/-- A change that keeps a coordinator grounded and takes nothing from its store. -/
def Onward (chunkStore : IChunkStore σ) (state next : CoordinatorState σ) : Prop :=
  Grounded chunkStore state →
    Grounded chunkStore next ∧ StoreGrows chunkStore state.store next.store

section Onward

variable {digest : Bytes → Bytes} {chunkStore : ListingStore σ} {env : Env}
  {state next : CoordinatorState σ}

theorem Onward.refl (chunkStore : IChunkStore σ) (state : CoordinatorState σ) :
    Onward chunkStore state state := fun hgrounded ↦ ⟨hgrounded, StoreGrows.refl chunkStore _⟩

theorem Onward.trans {chunkStore : IChunkStore σ} {first second third : CoordinatorState σ}
    (hfirst : Onward chunkStore first second) (hsecond : Onward chunkStore second third) :
    Onward chunkStore first third := fun hgrounded ↦
  ⟨(hsecond (hfirst hgrounded).1).1, (hfirst hgrounded).2.trans (hsecond (hfirst hgrounded).1).2⟩

/-- Changes elsewhere. -/
theorem Onward.of_eq {chunkStore : IChunkStore σ} (hschedulers : next.schedulers = state.schedulers)
    (hscheduler : next.scheduler = state.scheduler ∨ next.scheduler = none)
    (hstarts : ∀ start ∈ next.starts, start ∈ state.starts) (hstore : next.store = state.store) :
    Onward chunkStore state next := by
  intro hgrounded
  refine ⟨⟨?_, fun index hindex ↦ ?_, fun start hmem ↦ ?_⟩, ?_⟩
  · rw [hschedulers, hstore]
    exact hgrounded.schedulers
  · rcases hscheduler with hsame | hnone
    · rw [hschedulers]
      exact hgrounded.current index (hsame ▸ hindex)
    · rw [hnone] at hindex
      exact absurd hindex (by simp)
  · rw [hstore]
    exact hgrounded.starts start (hstarts start hmem)
  · rw [hstore]
    exact StoreGrows.refl chunkStore _

theorem Reported.onward {chunkStore : IChunkStore σ} (hreported : Reported state next) :
    Onward chunkStore state next :=
  Onward.of_eq hreported.schedulers (Or.inl hreported.scheduler)
    (fun _ hmem ↦ hreported.starts ▸ hmem) hreported.store

/-- The coordinator in the middle of a scheduler's event: the scheduler has done its part, and its
calls are still to be made. -/
def performedState (state : CoordinatorState σ) (index : ℕ) (reached : SchedulerState σ) :
    CoordinatorState σ :=
  { state with
    schedulers := state.schedulers.set index reached.toChunkScheduler
    heap := reached.heap
    store := reached.store }

/-- An event of a scheduler that is there. -/
theorem onScheduler_of_get {index : ℕ} {scheduler : ChunkScheduler}
    (hget : state.schedulers[index]? = some scheduler) (event : SchedulerEvent) :
    (onScheduler digest chunkStore env index event state).1 =
      (perform digest chunkStore.toIChunkStore env event
        (state.schedulerState scheduler)).1.calls.foldl (applyCall scheduler.manifest.resourceId)
        (performedState state index (perform digest chunkStore.toIChunkStore env event
          (state.schedulerState scheduler)).1) := by
  unfold onScheduler
  rw [hget]
  rfl

theorem onScheduler_of_none {index : ℕ} (hnone : state.schedulers[index]? = none)
    (event : SchedulerEvent) : (onScheduler digest chunkStore env index event state).1 = state := by
  unfold onScheduler
  rw [hnone]

/-- An event of which a scheduler makes nothing has no effect. -/
theorem onScheduler_of_idle {index : ℕ} {scheduler : ChunkScheduler}
    (hget : state.schedulers[index]? = some scheduler) {event : SchedulerEvent}
    (hidle : (perform digest chunkStore.toIChunkStore env event
      (state.schedulerState scheduler)).1 = state.schedulerState scheduler) :
    (onScheduler digest chunkStore env index event state).1 = state := by
  have hset : state.schedulers.set index scheduler = state.schedulers := by
    obtain ⟨hlt, hin⟩ := List.getElem?_eq_some_iff.mp hget
    rw [← hin, List.set_getElem_self]
  rw [onScheduler_of_get hget, hidle]
  change ({ state with schedulers := state.schedulers.set index scheduler } :
    CoordinatorState σ) = state
  rw [hset]

/-- After an event the scheduler is what it has made of itself. -/
theorem get_onScheduler {index : ℕ} {scheduler : ChunkScheduler}
    (hget : state.schedulers[index]? = some scheduler) (event : SchedulerEvent) :
    (onScheduler digest chunkStore env index event state).1.schedulers[index]? =
      some (perform digest chunkStore.toIChunkStore env event
        (state.schedulerState scheduler)).1.toChunkScheduler := by
  rw [onScheduler_of_get hget, (reported_applyCalls _ _ _).schedulers]
  exact List.getElem?_set_self (List.getElem?_eq_some_iff.mp hget).1

/-- A scheduler that did its part leaves a grounded coordinator. -/
theorem performedState_onward {index : ℕ} {scheduler : ChunkScheduler}
    (hget : state.schedulers[index]? = some scheduler) {reached : SchedulerState σ}
    (hperformed : Performed chunkStore.toIChunkStore state.store scheduler reached) :
    Onward chunkStore.toIChunkStore state (performedState state index reached) := by
  intro hgrounded
  have hok := hgrounded.schedulers scheduler (List.mem_of_getElem? hget)
  refine ⟨⟨fun other hmem ↦ ?_, fun current hcurrent ↦ ?_, fun start hmem ↦ ?_⟩, hperformed.grows⟩
  · rcases List.mem_or_eq_of_mem_set hmem with hold | rfl
    · exact (hgrounded.schedulers other hold).mono hperformed.grows
    · exact hperformed.ok hok
  · change current < (state.schedulers.set index reached.toChunkScheduler).length
    rw [List.length_set]
    exact hgrounded.current current hcurrent
  · exact (hgrounded.starts start hmem).mono hperformed.grows

/-- An event of a scheduler of a grounded coordinator: the scheduler does its part, and its calls
are made. -/
theorem onScheduler_cases (hgrounded : Grounded chunkStore.toIChunkStore state)
    (digest : Bytes → Bytes) (env : Env) (index : ℕ) (event : SchedulerEvent) :
    (onScheduler digest chunkStore env index event state).1 = state ∨
      ∃ scheduler reached, state.schedulers[index]? = some scheduler ∧
        Performed chunkStore.toIChunkStore state.store scheduler reached ∧
        reached = (perform digest chunkStore.toIChunkStore env event
          (state.schedulerState scheduler)).1 ∧
        (onScheduler digest chunkStore env index event state).1 =
          reached.calls.foldl (applyCall scheduler.manifest.resourceId)
            (performedState state index reached) := by
  cases hget : state.schedulers[index]? with
  | none => exact Or.inl (onScheduler_of_none hget event)
  | some scheduler =>
    exact Or.inr ⟨scheduler, _, rfl, (hgrounded.schedulers scheduler
      (List.mem_of_getElem? hget)).performed digest env event state.heap, rfl,
      onScheduler_of_get hget event⟩

/-- After an event of a scheduler every scheduler is still for its manifest, and has its marks. -/
theorem onScheduler_schedulers (hgrounded : Grounded chunkStore.toIChunkStore state)
    (digest : Bytes → Bytes) (env : Env) (index : ℕ) (event : SchedulerEvent) {other : ℕ}
    {later : ChunkScheduler} (hlater :
      (onScheduler digest chunkStore env index event state).1.schedulers[other]? = some later) :
    ∃ earlier, state.schedulers[other]? = some earlier ∧ later.manifest = earlier.manifest ∧
      ∀ chunkIndex, earlier.localBitfield.has chunkIndex = true →
        later.localBitfield.has chunkIndex = true := by
  rcases onScheduler_cases hgrounded digest env index event with
    heq | ⟨scheduler, reached, hget, hperformed, _, heq⟩
  · rw [heq] at hlater
    exact ⟨later, hlater, rfl, fun _ ↦ id⟩
  · rw [heq, (reported_applyCalls _ _ _).schedulers] at hlater
    change (state.schedulers.set index reached.toChunkScheduler)[other]? = some later at hlater
    by_cases hother : index = other
    · subst hother
      rw [List.getElem?_set_self (List.getElem?_eq_some_iff.mp hget).1, Option.some.injEq] at hlater
      subst hlater
      exact ⟨scheduler, hget, hperformed.manifest, hperformed.marks⟩
    · rw [List.getElem?_set_ne hother] at hlater
      exact ⟨later, hlater, rfl, fun _ ↦ id⟩

/-- What an event of a scheduler leaves alone. -/
structure Uninvolved (state next : CoordinatorState σ) : Prop where
  peers : next.peers = state.peers
  peerBitfields : next.peerBitfields = state.peerBitfields
  scheduler : next.scheduler = state.scheduler
  currentManifest : next.currentManifest = state.currentManifest
  starts : next.starts = state.starts
  resourceId : next.download.resourceId = state.download.resourceId
  totalChunks : next.download.totalChunks = state.download.totalChunks
  startCalls : next.history.startCalls = state.history.startCalls
  installed : next.history.installed = state.history.installed
  returned : next.history.returned = state.history.returned
  announcements : next.history.announcements = state.history.announcements
  length : next.schedulers.length = state.schedulers.length

theorem Uninvolved.refl (state : CoordinatorState σ) : Uninvolved state state :=
  ⟨rfl, rfl, rfl, rfl, rfl, rfl, rfl, rfl, rfl, rfl, rfl, rfl⟩

theorem onScheduler_uninvolved (digest : Bytes → Bytes) (chunkStore : ListingStore σ) (env : Env)
    (index : ℕ) (event : SchedulerEvent) (state : CoordinatorState σ) :
    Uninvolved state (onScheduler digest chunkStore env index event state).1 := by
  cases hget : state.schedulers[index]? with
  | none =>
    rw [onScheduler_of_none hget]
    exact Uninvolved.refl state
  | some scheduler =>
    rw [onScheduler_of_get hget]
    have h := reported_applyCalls scheduler.manifest.resourceId
      (perform digest chunkStore.toIChunkStore env event (state.schedulerState scheduler)).1.calls
      (performedState state index
        (perform digest chunkStore.toIChunkStore env event (state.schedulerState scheduler)).1)
    refine ⟨h.peers, h.peerBitfields, h.scheduler, h.currentManifest, h.starts, h.resourceId,
      h.totalChunks, h.startCalls, h.installed, h.returned, h.announcements, ?_⟩
    rw [h.schedulers, performedState, List.length_set]

theorem onCurrentScheduler_uninvolved (digest : Bytes → Bytes) (chunkStore : ListingStore σ)
    (env : Env) (event : SchedulerEvent) (state : CoordinatorState σ) :
    Uninvolved state (onCurrentScheduler digest chunkStore env event state) := by
  unfold onCurrentScheduler
  split
  · exact onScheduler_uninvolved digest chunkStore env _ event state
  · exact Uninvolved.refl state

theorem onCurrentScheduler_schedulers (hgrounded : Grounded chunkStore.toIChunkStore state)
    (digest : Bytes → Bytes) (env : Env) (event : SchedulerEvent) {other : ℕ}
    {later : ChunkScheduler} (hlater :
      (onCurrentScheduler digest chunkStore env event state).schedulers[other]? = some later) :
    ∃ earlier, state.schedulers[other]? = some earlier ∧ later.manifest = earlier.manifest ∧
      ∀ chunkIndex, earlier.localBitfield.has chunkIndex = true →
        later.localBitfield.has chunkIndex = true := by
  unfold onCurrentScheduler at hlater
  split at hlater
  · exact onScheduler_schedulers hgrounded digest env _ event hlater
  · exact ⟨later, hlater, rfl, fun _ ↦ id⟩

/-- An event of a scheduler. -/
theorem onScheduler_onward (digest : Bytes → Bytes) (chunkStore : ListingStore σ) (env : Env)
    (index : ℕ) (event : SchedulerEvent) (state : CoordinatorState σ) :
    Onward chunkStore.toIChunkStore state
      (onScheduler digest chunkStore env index event state).1 := by
  cases hget : state.schedulers[index]? with
  | none =>
    rw [onScheduler_of_none hget]
    exact Onward.refl _ state
  | some scheduler =>
    intro hgrounded
    have hperformed := (hgrounded.schedulers scheduler (List.mem_of_getElem? hget)).performed digest
      env event state.heap
    rw [onScheduler_of_get hget]
    exact (performedState_onward hget hperformed).trans (reported_applyCalls _ _ _).onward hgrounded

/-- Every sequence of moves. -/
theorem Handles.onward (hhandles : Handles digest chunkStore env state next) :
    Onward chunkStore.toIChunkStore state next := by
  refine hhandles.keeps (Onward chunkStore.toIChunkStore state)
    (fun first second hmove honward ↦ honward.trans ?_) (Onward.refl _ state)
  cases hmove with
  | books => exact Onward.of_eq rfl (Or.inl rfl) (fun _ ↦ id) rfl
  | deliver => exact Onward.of_eq rfl (Or.inl rfl) (fun _ ↦ id) rfl
  | scheduler index event => exact onScheduler_onward digest chunkStore env index event first

theorem send_onward (chunkStore : IChunkStore σ) (peerId : String) (buffer : Bytes)
    (state : CoordinatorState σ) : Onward chunkStore state (send peerId buffer state) :=
  (reported_send peerId buffer state).onward

theorem handleChannelOpen_onward (chunkStore : IChunkStore σ) (remotePeerId : String)
    (state : CoordinatorState σ) :
    Onward chunkStore state (handleChannelOpen remotePeerId state) :=
  (reported_handleChannelOpen remotePeerId state).onward

theorem channelOpen_onward (chunkStore : IChunkStore σ) (remotePeerId : String)
    (state : CoordinatorState σ) : Onward chunkStore state (channelOpen remotePeerId state) := by
  unfold channelOpen
  split
  · next connection _ =>
    have hopened : Onward chunkStore state { state with
        peers := state.peers.set remotePeerId { connection with channelOpen := true } } :=
      Onward.of_eq rfl (Or.inl rfl) (fun _ ↦ id) rfl
    exact hopened.trans (handleChannelOpen_onward _ _ _)
  · exact Onward.refl _ state

/-! ### Downloads -/

/-- Marking a list of chunks adds exactly these. -/
theorem markAll_spec {bitfield result : Bitfield} {chunks : List ℕ}
    (hmarked : markAll bitfield chunks = .ok result) :
    result.totalChunks = bitfield.totalChunks ∧ ∀ chunkIndex, result.has chunkIndex = true ↔
      bitfield.has chunkIndex = true ∨ chunkIndex ∈ chunks := by
  induction chunks generalizing bitfield with
  | nil =>
    rw [markAll, Except.ok.injEq] at hmarked
    subst hmarked
    exact ⟨rfl, fun chunkIndex ↦ by simp⟩
  | cons first rest ih =>
    cases hset : bitfield.set first with
    | error error => simp [markAll, hset, bind, Except.bind] at hmarked
    | ok marked =>
      simp only [markAll, hset, bind, Except.bind] at hmarked
      obtain ⟨htotal, hhas⟩ := ih hmarked
      refine ⟨htotal.trans (Bitfield.totalChunks_of_set hset), fun chunkIndex ↦ ?_⟩
      rw [hhas, Bitfield.has_of_set hset, Bool.or_eq_true, decide_eq_true_eq, List.mem_cons]
      tauto

/-- The bitfield that a download starts from marks exactly what the store listed. -/
theorem localBitfield_spec {totalChunks : ℕ} {localBitfield : Bitfield} {available : List ℕ}
    (hmarked : markAll (Bitfield.new totalChunks) available = .ok localBitfield) :
    localBitfield.totalChunks = totalChunks ∧
      ∀ chunkIndex, localBitfield.has chunkIndex = true ↔ chunkIndex ∈ available := by
  obtain ⟨htotal, hhas⟩ := markAll_spec hmarked
  refine ⟨htotal, fun chunkIndex ↦ ?_⟩
  rw [hhas, Bitfield.has_new]
  simp

theorem installScheduler_onward {chunkStore : IChunkStore σ} {start : PendingStart}
    {localBitfield : Bitfield} (state : CoordinatorState σ)
    (hok : SchedulerOk chunkStore state.store (ChunkScheduler.new start.manifest localBitfield)) :
    Onward chunkStore state (installScheduler start localBitfield state) := by
  intro hgrounded
  refine ⟨⟨fun scheduler hmem ↦ ?_, fun index hindex ↦ ?_, hgrounded.starts⟩,
    StoreGrows.refl chunkStore _⟩
  · rcases List.mem_append.mp hmem with hold | hnew
    · exact hgrounded.schedulers scheduler hold
    · rw [List.mem_singleton.mp hnew]
      exact hok
  · change some state.schedulers.length = some index at hindex
    change index < (state.schedulers ++ [_]).length
    rw [← Option.some.inj hindex, List.length_append]
    exact Nat.lt_succ_self _

theorem returnStart_onward (chunkStore : IChunkStore σ) (start : PendingStart)
    (state : CoordinatorState σ) : Onward chunkStore state (returnStart start state) := by
  unfold returnStart
  split_ifs
  · exact Onward.of_eq rfl (Or.inl rfl) (fun _ ↦ id) rfl
  · exact Onward.refl _ state

/-- A call of `startDownload` that goes on with stored chunks. -/
theorem resumeStart_onward (digest : Bytes → Bytes) (chunkStore : ListingStore σ) (env : Env)
    (start : PendingStart) {available : List ℕ} (state : CoordinatorState σ)
    (hlisted : ∀ chunkIndex ∈ available,
      Present chunkStore.toIChunkStore state.store start.manifest.resourceId chunkIndex) :
    Onward chunkStore.toIChunkStore state
      (resumeStart digest chunkStore env start available state) := by
  unfold resumeStart
  simp only
  split
  · exact Onward.refl _ state
  next localBitfield hmarked =>
  obtain ⟨htotal, hhas⟩ := localBitfield_spec hmarked
  have hbegun : Onward chunkStore.toIChunkStore state
      (beginDownload start.manifest localBitfield state) :=
    Onward.of_eq rfl (Or.inl rfl) (fun _ ↦ id) rfl
  have hinstalled := hbegun.trans (installScheduler_onward
    (beginDownload start.manifest localBitfield state)
    (schedulerOk_new htotal fun chunkIndex h ↦ hlisted chunkIndex ((hhas chunkIndex).mp h)))
  have hprovided := hinstalled.trans (provideBitfields_handles digest chunkStore env _).onward
  split_ifs
  · exact hbegun.trans (returnStart_onward _ start _)
  split
  · exact hprovided
  · next bfWire _ =>
    have hbroadcast : Onward chunkStore.toIChunkStore
        (provideBitfields digest chunkStore env (installScheduler start localBitfield
          (beginDownload start.manifest localBitfield state)))
        (broadcast bfWire (provideBitfields digest chunkStore env
          (installScheduler start localBitfield
            (beginDownload start.manifest localBitfield state)))) :=
      Onward.of_eq rfl (Or.inl rfl) (fun _ ↦ id) rfl
    exact hprovided.trans (hbroadcast.trans
      ((onCurrentScheduler_handles digest chunkStore env .start _).onward.trans
        (returnStart_onward _ start _)))

theorem startDownload_onward (digest : Bytes → Bytes) (chunkStore : ListingStore σ) (env : Env)
    (manifest : ResourceManifest) (state : CoordinatorState σ) :
    Onward chunkStore.toIChunkStore state (startDownload digest chunkStore env manifest state) := by
  refine (onCurrentScheduler_handles digest chunkStore env .stop state).onward.trans
    fun hgrounded ↦ ?_
  refine ⟨⟨hgrounded.schedulers, hgrounded.current, fun start hmem ↦ ?_⟩, StoreGrows.refl _ _⟩
  rcases List.mem_append.mp hmem with hold | hnew
  · exact hgrounded.starts start hold
  · rw [List.mem_singleton.mp hnew]
    exact ⟨fun chunkIndex hchunk ↦ (chunkStore.mem_getAvailableChunks _ _ _).mp hchunk,
      fun _ h ↦ absurd h (by simp)⟩

/-- Reading the store for a pending call of `startDownload`. -/
theorem startRead_onward (chunkStore : ListingStore σ) {index : ℕ} {start : PendingStart}
    {state : CoordinatorState σ} (hstart : state.starts[index]? = some start) :
    Onward chunkStore.toIChunkStore state
      { state with starts := state.starts.set index { start with
          available := some (chunkStore.getAvailableChunks state.store
            start.manifest.resourceId) } } := by
  intro hgrounded
  refine ⟨⟨hgrounded.schedulers, hgrounded.current, fun other hmem ↦ ?_⟩, StoreGrows.refl _ _⟩
  rcases List.mem_or_eq_of_mem_set hmem with hold | rfl
  · exact hgrounded.starts other hold
  · have hstored := (hgrounded.starts start (List.mem_of_getElem? hstart)).stored
    refine ⟨hstored, fun available havailable ↦ ?_⟩
    rw [← Option.some.inj havailable]
    exact ⟨fun chunkIndex hchunk ↦ (chunkStore.mem_getAvailableChunks _ _ _).mp hchunk,
      fun chunkIndex hchunk ↦
        (chunkStore.mem_getAvailableChunks _ _ _).mpr (hstored chunkIndex hchunk)⟩

theorem stopCoordinator_onward (digest : Bytes → Bytes) (chunkStore : ListingStore σ) (env : Env)
    (state : CoordinatorState σ) :
    Onward chunkStore.toIChunkStore state (stopCoordinator digest chunkStore env state) := by
  unfold stopCoordinator
  exact (onCurrentScheduler_handles digest chunkStore env .stop state).onward.trans
    (Onward.of_eq rfl (Or.inr rfl) (fun _ ↦ id) rfl)

/-- Every step keeps a coordinator grounded. -/
theorem coordinatorStep_onward (digest : Bytes → Bytes) (chunkStore : ListingStore σ)
    (state : CoordinatorState σ) (input : CoordinatorInput) :
    Onward chunkStore.toIChunkStore state (coordinatorStep digest chunkStore state input) := by
  obtain ⟨env, event⟩ := input
  have herased : ∀ index, Onward chunkStore.toIChunkStore state
      { state with starts := state.starts.eraseIdx index } := fun index ↦
    Onward.of_eq rfl (Or.inl rfl) (fun _ ↦ List.mem_of_mem_eraseIdx) rfl
  cases hevent : event.isHandled with
  | true => exact (coordinatorStep_handles digest chunkStore env state hevent).onward
  | false =>
  have htransition := coordinatorStep_transition digest chunkStore env state event
  generalize coordinatorStep digest chunkStore state (env, event) = next at htransition ⊢
  cases htransition with
  | ignored => exact Onward.refl _ state
  | channelOpened remotePeerId => exact channelOpen_onward _ remotePeerId state
  | startDownload manifest => exact startDownload_onward digest chunkStore env manifest state
  | startRead index start hstart => exact startRead_onward chunkStore hstart
  | startResumed index start available hstart havailable =>
    intro hgrounded
    have hok := hgrounded.starts start (List.mem_of_getElem? hstart)
    exact (herased index).trans (resumeStart_onward digest chunkStore env start _
      (hok.available available havailable).1) hgrounded
  | startFailed index => exact herased index
  | stop => exact stopCoordinator_onward digest chunkStore env state
  | _ => exact absurd hevent.symm Bool.false_ne_true

theorem grounded_new (chunkStore : IChunkStore σ) (localPeerId : String) (store : σ) :
    Grounded chunkStore (CoordinatorState.new localPeerId store) where
  schedulers := by simp [CoordinatorState.new]
  current := by simp [CoordinatorState.new]
  starts := by simp [CoordinatorState.new]

end Onward

/-! ### What all schedulers have -/

/-- All schedulers of a coordinator have a property. -/
def AllSchedulers (P : ChunkScheduler → Prop) (state : CoordinatorState σ) : Prop :=
  ∀ scheduler ∈ state.schedulers, P scheduler

section AllSchedulers

variable {digest : Bytes → Bytes} {chunkStore : ListingStore σ} {env : Env}
  {state next : CoordinatorState σ} {P : ChunkScheduler → Prop}

theorem AllSchedulers.congr (hall : AllSchedulers P state)
    (hschedulers : next.schedulers = state.schedulers) : AllSchedulers P next := by
  unfold AllSchedulers
  rw [hschedulers]
  exact hall

/-- No event of a scheduler takes the property away. -/
def KeptByEvents (digest : Bytes → Bytes) (chunkStore : ListingStore σ)
    (P : ChunkScheduler → Prop) : Prop :=
  ∀ (env : Env) (event : SchedulerEvent) (state : SchedulerState σ), P state.toChunkScheduler →
    P (perform digest chunkStore.toIChunkStore env event state).1.toChunkScheduler

theorem AllSchedulers.onScheduler (hkept : KeptByEvents digest chunkStore P)
    (hall : AllSchedulers P state) (index : ℕ) (event : SchedulerEvent) :
    AllSchedulers P (onScheduler digest chunkStore env index event state).1 := by
  cases hget : state.schedulers[index]? with
  | none =>
    rw [onScheduler_of_none hget]
    exact hall
  | some scheduler =>
    rw [onScheduler_of_get hget]
    refine AllSchedulers.congr ?_ (reported_applyCalls _ _ _).schedulers
    intro other hmem
    rcases List.mem_or_eq_of_mem_set hmem with hold | rfl
    · exact hall other hold
    · exact hkept env event (state.schedulerState scheduler)
        (hall scheduler (List.mem_of_getElem? hget))

theorem AllSchedulers.handles (hkept : KeptByEvents digest chunkStore P)
    (hall : AllSchedulers P state) (hhandles : Handles digest chunkStore env state next) :
    AllSchedulers P next := by
  refine hhandles.keeps (AllSchedulers P) (fun first second hmove hfirst ↦ ?_) hall
  cases hmove with
  | books => exact hfirst
  | deliver => exact hfirst
  | scheduler index event => exact hfirst.onScheduler hkept index event

theorem AllSchedulers.channelOpen (hall : AllSchedulers P state) (remotePeerId : String) :
    AllSchedulers P (channelOpen remotePeerId state) := by
  unfold Web.channelOpen
  split
  · next connection _ =>
    have hopened : AllSchedulers P { state with
        peers := state.peers.set remotePeerId { connection with channelOpen := true } } := hall
    exact hopened.congr (reported_handleChannelOpen _ _).schedulers
  · exact hall

theorem AllSchedulers.resumeStart (hkept : KeptByEvents digest chunkStore P)
    (hnew : ∀ manifest localBitfield, P (ChunkScheduler.new manifest localBitfield))
    (hall : AllSchedulers P state) (start : PendingStart) (available : List ℕ) :
    AllSchedulers P (resumeStart digest chunkStore env start available state) := by
  have hreturned : ∀ reached : CoordinatorState σ, AllSchedulers P reached →
      AllSchedulers P (returnStart start reached) := by
    intro reached hreached
    unfold returnStart
    split_ifs
    · exact hreached
    · exact hreached
  unfold Web.resumeStart
  simp only
  split
  · exact hall
  next localBitfield _ =>
  have hbegun : AllSchedulers P (beginDownload start.manifest localBitfield state) := hall
  have hinstalled : AllSchedulers P (installScheduler start localBitfield
      (beginDownload start.manifest localBitfield state)) := by
    intro scheduler hmem
    rcases List.mem_append.mp hmem with hold | hadded
    · exact hall scheduler hold
    · rw [List.mem_singleton.mp hadded]
      exact hnew start.manifest localBitfield
  have hprovided := hinstalled.handles hkept (provideBitfields_handles digest chunkStore env _)
  split_ifs
  · exact hreturned _ hbegun
  split
  · exact hprovided
  · refine hreturned _ (AllSchedulers.handles hkept ?_
      (onCurrentScheduler_handles digest chunkStore env .start _))
    exact hprovided

theorem AllSchedulers.step (hkept : KeptByEvents digest chunkStore P)
    (hnew : ∀ manifest localBitfield, P (ChunkScheduler.new manifest localBitfield))
    (hall : AllSchedulers P state) (input : CoordinatorInput) :
    AllSchedulers P (coordinatorStep digest chunkStore state input) := by
  obtain ⟨env, event⟩ := input
  cases hevent : event.isHandled with
  | true => exact hall.handles hkept (coordinatorStep_handles digest chunkStore env state hevent)
  | false =>
  have htransition := coordinatorStep_transition digest chunkStore env state event
  generalize coordinatorStep digest chunkStore state (env, event) = next at htransition ⊢
  cases htransition with
  | ignored | startRead | startFailed => exact hall
  | channelOpened remotePeerId => exact hall.channelOpen remotePeerId
  | startDownload manifest | stop =>
    exact (hall.handles hkept (onCurrentScheduler_handles digest chunkStore env .stop state)).congr
      rfl
  | startResumed index start available =>
    have herased : AllSchedulers P { state with starts := state.starts.eraseIdx index } := hall
    exact herased.resumeStart hkept hnew start available
  | _ => exact absurd hevent.symm Bool.false_ne_true

/-- What a new scheduler has and no event takes away, all schedulers of a run have. -/
theorem allSchedulers_run (hkept : KeptByEvents digest chunkStore P)
    (hnew : ∀ manifest localBitfield, P (ChunkScheduler.new manifest localBitfield))
    (localPeerId : String) (store : σ) (inputs : List CoordinatorInput) :
    AllSchedulers P (coordinatorRun digest chunkStore localPeerId store inputs) :=
  run_invariant_of_step (AllSchedulers P) (fun _ input hall ↦ hall.step hkept hnew input)
    (fun _ hmem ↦ absurd hmem List.not_mem_nil) inputs

end AllSchedulers

/-- The manifest of another resource with the same one chunk. -/
def otherManifest : ResourceManifest := { oneChunkManifest with resourceId := "res_2" }

end CampusMesh.Web
