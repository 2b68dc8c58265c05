import CampusMesh.Web.CoordinatorInvariants
import CampusMesh.Web.PeerBooks
import CampusMesh.Web.SchedulerBitfields

/-!
# What the scheduler knows of its peers

The bitfield objects of the coordinator and of its current scheduler are the books of `PeerBooks`
(`peerBooks`): every event of the coordinator changes them as hearing a BITFIELD or a HAVE,
forgetting a peer or installing a scheduler does, or not at all.

The coordinator keeps one object for each peer, without the resource that it is about, and a HAVE
for any resource marks it. `Attributable` is the condition that a HAVE is for the resource its peer
speaks of and fits, and that every recorded object is about the resource of a scheduler that is
installed. Under it the scheduler knows exactly what its peers have announced of its resource
(`exactKnowledge_of_attributable`).
-/

set_option autoImplicit false
set_option relaxedAutoImplicit false

namespace CampusMesh.Web

open Library Shared SchedulerState CoordinatorState

variable {σ : Type}

/-! ### The promise -/

/-- `scheduler.peerBitfields.get(peerId)` has a chunk. -/
def peerHas (state : CoordinatorState σ) (scheduler : ChunkScheduler) (peerId : String)
    (chunkIndex : ℕ) : Bool :=
  match scheduler.peerBitfields.get? peerId with
  | some address => (heapAt state.heap address).has chunkIndex
  | none => false

/-- What a peer has announced on its current connection. -/
def ledgerOf (state : CoordinatorState σ) (peerId : String) : List Announcement :=
  (state.history.announcements.get? peerId).getD []

/-- The current scheduler knows exactly which chunks of its resource each connected peer has
announced. -/
def ExactKnowledge (state : CoordinatorState σ) : Prop :=
  ∀ scheduler, IsCurrent state scheduler → ∀ peerId, state.peers.has peerId = true →
    ∀ chunkIndex < scheduler.manifest.totalChunks, peerHas state scheduler peerId chunkIndex =
      announced scheduler.manifest.resourceId chunkIndex (ledgerOf state peerId)

/-- A HAVE is for the resource that its peer speaks of, and its chunk fits the recorded object; from
a peer without one it is for the current manifest. When a scheduler is installed, every peer with a
recorded object speaks of its resource. -/
def Attributable (state : CoordinatorState σ) : CoordinatorEvent → Prop
  | .dataMessage remotePeerId raw => state.peers.has remotePeerId = true →
    ∀ resourceId chunkIndex, decodeMessage raw = .ok (.HAVE resourceId chunkIndex) →
      match state.peerBitfields.get? remotePeerId with
      | some address => subject (ledgerOf state remotePeerId) = some resourceId ∧
          chunkIndex < (heapAt state.heap address).totalChunks
      | none => ∃ manifest, state.currentManifest = some manifest ∧
          manifest.resourceId = resourceId ∧ chunkIndex < manifest.totalChunks
  | .startResumed index => ∀ start available localBitfield, state.starts[index]? = some start →
    start.available = some available →
      markAll (Bitfield.new start.manifest.totalChunks) available = .ok localBitfield →
        localBitfield.isComplete = false →
          ∀ peerId address, state.peerBitfields.get? peerId = some address →
            subject (ledgerOf state peerId) = some start.manifest.resourceId
  | _ => True

/-! ### The books of a coordinator -/

/-- The scheduler in `this.scheduler`. -/
def currentScheduler (state : CoordinatorState σ) : Option ChunkScheduler :=
  state.scheduler.bind fun index ↦ state.schedulers[index]?

/-- What a coordinator and its current scheduler know of peers. -/
def peerBooks (state : CoordinatorState σ) : PeerBooks where
  recorded := state.peerBitfields
  announcements := state.history.announcements
  manifest := (currentScheduler state).map ChunkScheduler.manifest
  told := ((currentScheduler state).map ChunkScheduler.peerBitfields).getD OrderedMap.empty
  heap := state.heap

section Books

variable {digest : Bytes → Bytes} {chunkStore : ListingStore σ} {env : Env}
  {state next : CoordinatorState σ}

/-- The books read these fields only. -/
theorem peerBooks_congr (hrecorded : next.peerBitfields = state.peerBitfields)
    (hannounced : next.history.announcements = state.history.announcements)
    (hscheduler : next.scheduler = state.scheduler)
    (hschedulers : next.schedulers = state.schedulers)
    (hheap : next.heap = state.heap) : peerBooks next = peerBooks state := by
  simp only [peerBooks, currentScheduler, hrecorded, hannounced, hscheduler, hschedulers, hheap]

theorem Reported.peerBooks (hreported : Reported state next) :
    peerBooks next = Web.peerBooks state :=
  peerBooks_congr hreported.peerBitfields hreported.announcements hreported.scheduler
    hreported.schedulers hreported.heap

/-- An event of a scheduler changes the heap, and the told objects if the scheduler is current, as
the event changes the bitfields of the scheduler. -/
theorem peerBooks_onScheduler {index : ℕ} {scheduler : ChunkScheduler}
    (hget : state.schedulers[index]? = some scheduler) (event : SchedulerEvent) :
    peerBooks (onScheduler digest chunkStore env index event state).1 =
      { peerBooks state with
        heap := (bitfieldsAfter (state.schedulerState scheduler) event).heap
        told :=
          if state.scheduler = some index then
            (bitfieldsAfter (state.schedulerState scheduler) event).peerBitfields
          else (peerBooks state).told } := by
  rw [onScheduler_of_get hget, (reported_applyCalls _ _ _).peerBooks]
  obtain ⟨hmanifest, htold, hheap⟩ := perform_bitfields digest chunkStore.toIChunkStore env event
    (state.schedulerState scheduler)
  rw [bitfieldsAfter_manifest] at hmanifest
  generalize (perform digest chunkStore.toIChunkStore env event
    (state.schedulerState scheduler)).1 = reached at hmanifest htold hheap ⊢
  rw [← htold, ← hheap]
  change reached.manifest = scheduler.manifest at hmanifest
  by_cases hcurrent : state.scheduler = some index
  · have hbefore : currentScheduler state = some scheduler := by
      rw [currentScheduler, hcurrent]
      exact hget
    have hafter : currentScheduler (performedState state index reached) =
        some reached.toChunkScheduler := by
      rw [currentScheduler, performedState, hcurrent]
      exact List.getElem?_set_self (List.getElem?_eq_some_iff.mp hget).1
    rw [if_pos hcurrent, peerBooks, hafter, peerBooks, hbefore, Option.map_some, Option.map_some,
      hmanifest]
    rfl
  · have hsame : currentScheduler (performedState state index reached) =
      currentScheduler state := by
      unfold currentScheduler performedState
      cases hscheduler : state.scheduler with
      | none => rfl
      | some current =>
        have hne : index ≠ current := fun heq ↦ hcurrent (heq ▸ hscheduler)
        exact List.getElem?_set_ne hne
    rw [if_neg hcurrent, peerBooks, hsame]
    rfl

/-- An event that leaves the bitfields of its scheduler alone leaves the books alone. -/
theorem peerBooks_onScheduler_idle (index : ℕ) {event : SchedulerEvent}
    (hidle : ∀ reached : SchedulerState σ, bitfieldsAfter reached event = reached) :
    peerBooks (onScheduler digest chunkStore env index event state).1 = peerBooks state := by
  cases hget : state.schedulers[index]? with
  | none => rw [onScheduler_of_none hget]
  | some scheduler =>
    rw [peerBooks_onScheduler hget, hidle]
    by_cases hcurrent : state.scheduler = some index
    · have hbefore : currentScheduler state = some scheduler := by
        rw [currentScheduler, hcurrent]
        exact hget
      rw [if_pos hcurrent, peerBooks, hbefore]
      rfl
    · rw [if_neg hcurrent]
      rfl

theorem peerBooks_onCurrentScheduler_idle {event : SchedulerEvent}
    (hidle : ∀ reached : SchedulerState σ, bitfieldsAfter reached event = reached)
    (state : CoordinatorState σ) :
    peerBooks (onCurrentScheduler digest chunkStore env event state) = peerBooks state := by
  unfold onCurrentScheduler
  split
  · exact peerBooks_onScheduler_idle _ hidle
  · rfl

theorem peerBooks_onSchedulerFor_idle (resourceId : String) {event : SchedulerEvent}
    (hidle : ∀ reached : SchedulerState σ, bitfieldsAfter reached event = reached)
    (state : CoordinatorState σ) :
    peerBooks (onSchedulerFor digest chunkStore env resourceId event state) = peerBooks state := by
  unfold onSchedulerFor
  split_ifs
  · exact peerBooks_onCurrentScheduler_idle hidle state
  · rfl

/-- The event is handled by the scheduler that the books are about, if there is one. -/
theorem peerBooks_onCurrentScheduler (event : SchedulerEvent) (state : CoordinatorState σ) :
    (currentScheduler state = none ∧
        peerBooks (onCurrentScheduler digest chunkStore env event state) = peerBooks state) ∨
      ∃ scheduler, currentScheduler state = some scheduler ∧
        peerBooks (onCurrentScheduler digest chunkStore env event state) =
          { peerBooks state with
            heap := (bitfieldsAfter (state.schedulerState scheduler) event).heap
            told := (bitfieldsAfter (state.schedulerState scheduler) event).peerBitfields } := by
  unfold onCurrentScheduler currentScheduler
  cases hscheduler : state.scheduler with
  | none => exact Or.inl ⟨rfl, rfl⟩
  | some index =>
    cases hget : state.schedulers[index]? with
    | none => exact Or.inl ⟨hget, congrArg peerBooks (onScheduler_of_none hget event)⟩
    | some scheduler =>
      refine Or.inr ⟨scheduler, hget, (peerBooks_onScheduler hget event).trans ?_⟩
      rw [if_pos hscheduler]

/-- The resource check of the coordinator. -/
theorem isCurrentResource_eq (resourceId : String) (state : CoordinatorState σ) :
    isCurrentResource resourceId state = (peerBooks state).isFor resourceId := by
  rw [isCurrentResource, PeerBooks.isFor, peerBooks, Option.map_map]
  rfl

/-- Telling the current scheduler of an object. -/
theorem peerBooks_updatePeerBitfield {manifest : ResourceManifest}
    (hmanifest : (peerBooks state).manifest = some manifest) (peerId : String) (address : ℕ) :
    peerBooks (onCurrentScheduler digest chunkStore env
      (.updatePeerBitfield peerId address) state) = (peerBooks state).tell peerId address := by
  obtain ⟨found, hfound, _⟩ := Option.map_eq_some_iff.mp hmanifest
  rcases peerBooks_onCurrentScheduler (.updatePeerBitfield peerId address) state with
    ⟨hnone, _⟩ | ⟨scheduler, hcurrent, heq⟩
  · exact absurd (hnone.symm.trans hfound) (by simp)
  · have htold : (peerBooks state).told = scheduler.peerBitfields := by
      rw [peerBooks, hcurrent]
      rfl
    rw [heq, PeerBooks.tell, htold]
    rfl

/-- A BITFIELD frame. -/
theorem peerBooks_handleBitfield (remotePeerId resourceId : String) (bitfield : Bitfield)
    (state : CoordinatorState σ) :
    peerBooks (handleBitfield digest chunkStore env remotePeerId resourceId bitfield
      (announce remotePeerId (.bitfield resourceId bitfield) state)) =
        (peerBooks state).hearBitfield remotePeerId resourceId bitfield := by
  unfold handleBitfield
  generalize hheard : { announce remotePeerId (.bitfield resourceId bitfield) state with
    heap := (announce remotePeerId (.bitfield resourceId bitfield) state).heap ++ [bitfield]
    peerBitfields :=
      (announce remotePeerId (.bitfield resourceId bitfield) state).peerBitfields.set remotePeerId
        (announce remotePeerId (.bitfield resourceId bitfield) state).heap.length } = heard
  have hbooks : peerBooks heard = ((peerBooks state).announce remotePeerId
      (.bitfield resourceId bitfield)).record remotePeerId bitfield := by
    rw [← hheard]
    rfl
  have haddress : (announce remotePeerId (.bitfield resourceId bitfield) state).heap.length =
      (peerBooks state).heap.length := rfl
  unfold onSchedulerFor PeerBooks.hearBitfield
  simp only
  rw [isCurrentResource_eq, hbooks, haddress]
  split_ifs with hfor
  · obtain ⟨manifest, hmanifest, _⟩ := PeerBooks.isFor_iff.mp hfor
    rw [peerBooks_updatePeerBitfield (hbooks ▸ hmanifest), hbooks]
  · exact hbooks

/-- `updatePeerHave` marks the chunk in the object that it finds. -/
theorem bitfieldsAfter_updatePeerHave (peerId : String) (chunkIndex : ℕ)
    (state : SchedulerState σ) :
    (bitfieldsAfter state (.updatePeerHave peerId chunkIndex)).peerBitfields =
        (peerBitfield peerId state).1.peerBitfields ∧
      (bitfieldsAfter state (.updatePeerHave peerId chunkIndex)).heap =
        markAt (peerBitfield peerId state).1.heap (peerBitfield peerId state).2 chunkIndex := by
  unfold bitfieldsAfter markAt heapAt bitfieldAt
  simp only
  cases ((peerBitfield peerId state).1.heap.getD (peerBitfield peerId state).2
      (Bitfield.new 0)).set chunkIndex with
  | error _ => exact ⟨rfl, rfl⟩
  | ok _ => exact ⟨rfl, rfl⟩

/-- Telling the current scheduler of a chunk. -/
theorem peerBooks_updatePeerHave {scheduler : ChunkScheduler}
    (hcurrent : currentScheduler state = some scheduler) (peerId : String) (chunkIndex : ℕ) :
    peerBooks (onCurrentScheduler digest chunkStore env (.updatePeerHave peerId chunkIndex) state) =
      (peerBooks state).tellHave peerId chunkIndex := by
  have hbooks : peerBooks state = ⟨state.peerBitfields, state.history.announcements,
      some scheduler.manifest, scheduler.peerBitfields, state.heap⟩ := by
    rw [peerBooks, hcurrent]
    rfl
  rcases peerBooks_onCurrentScheduler (.updatePeerHave peerId chunkIndex) state with
    ⟨hnone, _⟩ | ⟨other, hother, heq⟩
  · exact absurd (hnone.symm.trans hcurrent) (by simp)
  obtain rfl : scheduler = other := Option.some.inj (hcurrent.symm.trans hother)
  obtain ⟨htold, hheap⟩ := bitfieldsAfter_updatePeerHave peerId chunkIndex
    (state.schedulerState scheduler)
  rw [heq, htold, hheap, hbooks, PeerBooks.tellHave, PeerBooks.locate]
  unfold peerBitfield
  cases hget : scheduler.peerBitfields.get? peerId with
  | some address =>
    have hfound : (state.schedulerState scheduler).peerBitfields.get? peerId = some address := hget
    simp only [hfound]
    rfl
  | none =>
    have hfound : (state.schedulerState scheduler).peerBitfields.get? peerId = none := hget
    simp only [hfound]
    rfl

/-- Telling the scheduler of a chunk if it is for the resource. -/
theorem peerBooks_onSchedulerFor_have (resourceId peerId : String) (chunkIndex : ℕ)
    (state : CoordinatorState σ) :
    peerBooks (onSchedulerFor digest chunkStore env resourceId
        (.updatePeerHave peerId chunkIndex) state) =
      if (peerBooks state).isFor resourceId then (peerBooks state).tellHave peerId chunkIndex
      else peerBooks state := by
  rw [onSchedulerFor, isCurrentResource_eq]
  split_ifs with hfor
  · obtain ⟨manifest, hmanifest, _⟩ := PeerBooks.isFor_iff.mp hfor
    obtain ⟨scheduler, hcurrent, _⟩ := Option.map_eq_some_iff.mp hmanifest
    exact peerBooks_updatePeerHave hcurrent peerId chunkIndex
  · rfl

theorem recordedBitfield_of_some {peerId : String} {address : ℕ}
    (hget : state.peerBitfields.get? peerId = some address) :
    recordedBitfield peerId state = (state, some address) := by
  rw [recordedBitfield, hget]

theorem recordedBitfield_of_none {peerId : String} {manifest : ResourceManifest}
    (hget : state.peerBitfields.get? peerId = none)
    (hmanifest : state.currentManifest = some manifest) :
    recordedBitfield peerId state =
      ({ state with
          heap := state.heap ++ [Bitfield.new manifest.totalChunks]
          peerBitfields := state.peerBitfields.set peerId state.heap.length },
        some state.heap.length) := by
  rw [recordedBitfield, hget, hmanifest]

/-- A HAVE frame whose chunk fits the object that is recorded, with the books that it is heard on.
-/
theorem peerBooks_handleHave {remotePeerId resourceId : String} {chunkIndex address : ℕ}
    {heard : CoordinatorState σ} (books : PeerBooks)
    (hlocate : recordedBitfield remotePeerId heard = (next, some address))
    (hheard : peerBooks next = books.announce remotePeerId (.have resourceId chunkIndex))
    (hfits : chunkIndex < (heapAt books.heap address).totalChunks) :
    peerBooks (handleHave digest chunkStore env remotePeerId resourceId chunkIndex heard) =
      books.hearHave remotePeerId resourceId chunkIndex address := by
  have hheap : next.heap = books.heap := congrArg PeerBooks.heap hheard
  rw [← hheap] at hfits
  obtain ⟨bitfield, hset⟩ := Bitfield.set_isOk_iff.mpr hfits
  have hmark : peerBooks { next with heap := next.heap.set address bitfield } =
      (books.announce remotePeerId (.have resourceId chunkIndex)).mark address chunkIndex := by
    have hmarked : (heapAt (peerBooks next).heap address).set chunkIndex = .ok bitfield := hset
    rw [← hheard, PeerBooks.mark, markAt, hmarked]
    rfl
  unfold heapAt at hset
  rw [handleHave, hlocate]
  simp only [hset]
  rw [peerBooks_onSchedulerFor_have, hmark]
  rfl

/-! ### Schedulers come and go -/

variable (digest chunkStore env) in
/-- Handing objects to the current scheduler. -/
theorem peerBooks_provide {manifest : ResourceManifest} (entries : List (String × ℕ))
    (hmanifest : (peerBooks state).manifest = some manifest) :
    peerBooks (entries.foldl (fun reached entry ↦ onCurrentScheduler digest chunkStore env
        (.updatePeerBitfield entry.1 entry.2) reached) state) =
      { peerBooks state with
        told := entries.foldl (fun reached entry ↦ reached.set entry.1 entry.2)
          (peerBooks state).told } := by
  induction entries generalizing state with
  | nil => rfl
  | cons entry rest ih =>
    have htell : peerBooks (onCurrentScheduler digest chunkStore env
          (.updatePeerBitfield entry.1 entry.2) state) = (peerBooks state).tell entry.1 entry.2 :=
      peerBooks_updatePeerBitfield hmanifest entry.1 entry.2
    rw [List.foldl_cons, ih (htell ▸ hmanifest), htell]
    rfl

variable (digest chunkStore env) in
/-- A scheduler that was just installed and provided with the recorded objects was told of exactly
these. -/
theorem peerBooks_provideBitfields (start : PendingStart) (localBitfield : Bitfield)
    (state : CoordinatorState σ) :
    ∃ told : OrderedMap String ℕ,
      (∀ peerId, told.get? peerId = state.peerBitfields.get? peerId) ∧
        peerBooks (provideBitfields digest chunkStore env
            (installScheduler start localBitfield state)) =
          { peerBooks state with manifest := some start.manifest, told := told } := by
  have hcurrent : currentScheduler (installScheduler start localBitfield state) =
      some (ChunkScheduler.new start.manifest localBitfield) := List.getElem?_concat_length
  have hbooks : peerBooks (installScheduler start localBitfield state) =
      { peerBooks state with manifest := some start.manifest, told := OrderedMap.empty } := by
    rw [peerBooks, hcurrent]
    rfl
  refine ⟨state.peerBitfields.entries.foldl (fun reached entry ↦ reached.set entry.1 entry.2)
    OrderedMap.empty, OrderedMap.get?_foldl_set_entries state.peerBitfields, ?_⟩
  have hmanifest : (peerBooks (installScheduler start localBitfield state)).manifest =
      some start.manifest := congrArg PeerBooks.manifest hbooks
  unfold provideBitfields
  rw [peerBooks_provide digest chunkStore env _ hmanifest, hbooks]
  rfl

/-! ### Steps -/

theorem peerBooks_send (peerId : String) (buffer : Bytes) (state : CoordinatorState σ) :
    peerBooks (send peerId buffer state) = peerBooks state :=
  (reported_send peerId buffer state).peerBooks

theorem peerBooks_connect (remotePeerId : String) (isInitiator : Bool)
    (state : CoordinatorState σ) :
    peerBooks (connect remotePeerId isInitiator state) = peerBooks state := by
  unfold connect
  split_ifs <;> rfl

theorem peerBooks_handleChannelOpen (remotePeerId : String) (state : CoordinatorState σ) :
    peerBooks (handleChannelOpen remotePeerId state) = peerBooks state :=
  (reported_handleChannelOpen remotePeerId state).peerBooks

theorem peerBooks_resumeServe (serve : PendingServe) (state : CoordinatorState σ) :
    peerBooks (resumeServe serve state) = peerBooks state := by
  have hsends : ∀ (frames : List Bytes) (reached : CoordinatorState σ), peerBooks
      (frames.foldl (fun current pieceMsg ↦ send serve.peerId pieceMsg current) reached) =
        peerBooks reached := by
    intro frames
    induction frames with
    | nil => exact fun _ ↦ rfl
    | cons frame rest ih => exact fun reached ↦ (ih _).trans (peerBooks_send _ _ reached)
  unfold resumeServe
  split
  · exact hsends _ state
  · rfl

/-- A peer that leaves is forgotten. -/
theorem peerBooks_handlePeerLeft (remotePeerId : String) (state : CoordinatorState σ) :
    peerBooks (handlePeerLeft digest chunkStore env remotePeerId state) =
      (peerBooks state).forget remotePeerId := by
  unfold handlePeerLeft
  generalize hleft : { state with
    peers := state.peers.delete remotePeerId
    peerBitfields := state.peerBitfields.delete remotePeerId
    history := { state.history with
      announcements := state.history.announcements.delete remotePeerId } } = left
  have hbooks : peerBooks left = { peerBooks state with
      recorded := state.peerBitfields.delete remotePeerId
      announcements := state.history.announcements.delete remotePeerId } := by
    rw [← hleft]
    rfl
  have hcurrent : currentScheduler left = currentScheduler state := by
    rw [← hleft]
    rfl
  rcases peerBooks_onCurrentScheduler (.removePeer remotePeerId) left with
    ⟨hnone, heq⟩ | ⟨scheduler, hscheduler, heq⟩
  · have hunmanned : peerBooks state = ⟨state.peerBitfields, state.history.announcements, none,
        OrderedMap.empty, state.heap⟩ := by
      rw [peerBooks, ← hcurrent, hnone]
      rfl
    rw [heq, hbooks, PeerBooks.forget, hunmanned]
    rfl
  · have htold : (peerBooks state).told = scheduler.peerBitfields := by
      rw [peerBooks, ← hcurrent, hscheduler]
      rfl
    rw [heq, hbooks, PeerBooks.forget, htold, bitfieldsAfter]
    rw [← hleft]
    rfl

/-- Nothing is known of peers after `stop`. -/
theorem informed_stopCoordinator (state : CoordinatorState σ) :
    (peerBooks (stopCoordinator digest chunkStore env state)).Informed :=
  PeerBooks.informed_empty rfl rfl rfl

/-- The books stay right when a frame arrives. -/
theorem handleDataMessage_informed (hinv : (peerBooks state).Informed) {remotePeerId : String}
    {raw : Bytes} (hpeer : state.peers.has remotePeerId = true)
    (hattributable : Attributable state (.dataMessage remotePeerId raw)) :
    (peerBooks (handleDataMessage digest chunkStore env remotePeerId raw state)).Informed := by
  unfold handleDataMessage
  split
  · exact hinv
  · next resourceId _ bitfield _ =>
    rw [peerBooks_handleBitfield]
    exact hinv.hearBitfield remotePeerId resourceId bitfield
  · next resourceId chunkIndex hdecode =>
    have hfits := hattributable hpeer resourceId chunkIndex hdecode
    generalize hheard : announce remotePeerId (.have resourceId chunkIndex) state = heard
    have hbooks : peerBooks heard =
        (peerBooks state).announce remotePeerId (.have resourceId chunkIndex) := by
      rw [← hheard]
      rfl
    have hsame : heard.peerBitfields = state.peerBitfields ∧
        heard.currentManifest = state.currentManifest ∧ heard.heap = state.heap := by
      rw [← hheard]
      exact ⟨rfl, rfl, rfl⟩
    obtain ⟨hpeerBitfields, hcurrentManifest, hheap⟩ := hsame
    cases hget : state.peerBitfields.get? remotePeerId with
    | some address =>
      rw [hget] at hfits
      obtain ⟨hsubject, hrange⟩ := hfits
      have hlocate := recordedBitfield_of_some (hpeerBitfields.symm ▸ hget)
      rw [peerBooks_handleHave (peerBooks state) hlocate hbooks hrange]
      exact hinv.hearHave hget hsubject hrange
    | none =>
      rw [hget] at hfits
      obtain ⟨manifest, hmanifest, _, hrange⟩ := hfits
      have hobject : heapAt (state.heap ++ [Bitfield.new manifest.totalChunks]) state.heap.length =
          Bitfield.new manifest.totalChunks := heapAt_append_self
      have hlocate := recordedBitfield_of_none (hpeerBitfields.symm ▸ hget)
        (hcurrentManifest.trans hmanifest)
      rw [peerBooks_handleHave
        ((peerBooks state).record remotePeerId (Bitfield.new manifest.totalChunks)) hlocate ?_ ?_]
      · rw [hheap]
        exact hinv.hearFirstHave hget hrange
      · rw [← hheard]
        rfl
      · rw [hheap]
        change chunkIndex < (heapAt (state.heap ++ [_]) state.heap.length).totalChunks
        rw [hobject, Bitfield.totalChunks_new]
        exact hrange
  · exact hinv
  · rw [peerBooks_onSchedulerFor_idle _ fun _ ↦ rfl]
    exact hinv
  · rw [peerBooks_onSchedulerFor_idle _ fun _ ↦ rfl]
    exact hinv
  · rw [peerBooks_onSchedulerFor_idle _ fun _ ↦ rfl]
    exact hinv

/-- The books stay right when `startDownload` goes on and every peer with a recorded object speaks
of its resource. -/
theorem resumeStart_informed (hinv : (peerBooks state).Informed) (start : PendingStart)
    (available : List ℕ)
    (hspeak : ∀ localBitfield,
      markAll (Bitfield.new start.manifest.totalChunks) available = .ok localBitfield →
        localBitfield.isComplete = false →
          ∀ peerId address, state.peerBitfields.get? peerId = some address →
            subject (ledgerOf state peerId) = some start.manifest.resourceId) :
    (peerBooks (resumeStart digest chunkStore env start available state)).Informed := by
  unfold resumeStart
  simp only
  split
  · exact hinv
  next localBitfield hmarked =>
  have hreturn : ∀ reached : CoordinatorState σ, peerBooks (returnStart start reached) =
      peerBooks reached := by
    intro reached
    unfold returnStart
    split_ifs <;> rfl
  split_ifs with hcomplete
  · rw [hreturn]
    exact hinv
  obtain ⟨told, htold, hbooks⟩ := peerBooks_provideBitfields digest chunkStore env start
    localBitfield (beginDownload start.manifest localBitfield state)
  have hprovided : (peerBooks (provideBitfields digest chunkStore env
      (installScheduler start localBitfield
        (beginDownload start.manifest localBitfield state)))).Informed := by
    rw [hbooks]
    exact hinv.install (hspeak localBitfield hmarked (Bool.eq_false_iff.mpr hcomplete)) rfl rfl rfl
      rfl htold
  split
  · exact hprovided
  · rw [hreturn, peerBooks_onCurrentScheduler_idle fun _ ↦ rfl]
    exact hprovided

/-- Every event that meets the condition leaves the books right. -/
theorem coordinatorStep_informed (hinv : (peerBooks state).Informed) (input : CoordinatorInput)
    (hattributable : Attributable state input.2) :
    (peerBooks (coordinatorStep digest chunkStore state input)).Informed := by
  obtain ⟨env, event⟩ := input
  have htransition := coordinatorStep_transition digest chunkStore env state event
  generalize coordinatorStep digest chunkStore state (env, event) = next at htransition ⊢
  cases htransition with
  | ignored | serveRead | serveFailed | startRead | startFailed => exact hinv
  | peerDiscovered | signalOffer =>
    rw [peerBooks_connect]
    exact hinv
  | peerLeft remotePeerId | channelClosed remotePeerId =>
    rw [peerBooks_handlePeerLeft]
    exact hinv.forget remotePeerId
  | channelOpened remotePeerId =>
    unfold channelOpen
    split
    · rw [peerBooks_handleChannelOpen]
      exact hinv
    · exact hinv
  | dataMessage remotePeerId raw hpeer => exact handleDataMessage_informed hinv hpeer hattributable
  | serveResumed =>
    rw [peerBooks_resumeServe]
    exact hinv
  | startDownload manifest =>
    have hstopped : peerBooks (onCurrentScheduler digest chunkStore env .stop state) =
        peerBooks state := peerBooks_onCurrentScheduler_idle (fun _ ↦ rfl) state
    exact hstopped ▸ hinv
  | startResumed index start available hstart havailable =>
    have herased : (peerBooks { state with starts := state.starts.eraseIdx index }).Informed := hinv
    exact resumeStart_informed herased start available fun localBitfield hmarked hincomplete ↦
      hattributable start available localBitfield hstart havailable hmarked hincomplete
  | timeout | settled =>
    rw [peerBooks_onScheduler_idle _ fun _ ↦ rfl]
    exact hinv
  | stop => exact informed_stopCoordinator state

end Books

/-! ### Runs -/

/-- What the books know is what the scheduler knows. -/
theorem exactKnowledge_of_informed {state : CoordinatorState σ}
    (hinv : (peerBooks state).Informed) : ExactKnowledge state := by
  intro scheduler hcurrent peerId _ chunkIndex hrange
  have hbooks : peerBooks state = ⟨state.peerBitfields, state.history.announcements,
      some scheduler.manifest, scheduler.peerBitfields, state.heap⟩ := by
    rw [peerBooks, currentScheduler, isCurrent_iff.mp hcurrent]
    rfl
  have hknown := (hinv.peers peerId).knowledge scheduler.manifest
    (congrArg PeerBooks.manifest hbooks) chunkIndex hrange
  rw [hbooks] at hknown
  exact hknown

/-- **Knowledge of peers.** After every run of a new coordinator in which every HAVE is
attributable, and every scheduler is installed when its recorded bitfields are about its resource:
the scheduler knows exactly what its peers have announced. -/
theorem exactKnowledge_of_attributable (digest : Bytes → Bytes) (chunkStore : ListingStore σ)
    (localPeerId : String) (store : σ) (inputs : List CoordinatorInput)
    (hattributable : Along (coordinatorStep digest chunkStore)
      (fun state input ↦ Attributable state input.2) (CoordinatorState.new localPeerId store)
      inputs) :
    ExactKnowledge (coordinatorRun digest chunkStore localPeerId store inputs) := by
  have hinit : (peerBooks (CoordinatorState.new localPeerId store)).Informed :=
    PeerBooks.informed_empty rfl rfl rfl
  exact exactKnowledge_of_informed (run_invariant
    (fun state ↦ (peerBooks state).Informed)
    (fun state input hinv hallowed ↦ coordinatorStep_informed hinv input hallowed) hinit
    hattributable)

/-- The frame in which a peer says that it has no chunk of `res_1`. -/
def nothingFrame : Bytes := [1, 1, 5, 114, 101, 115, 95, 49, 0, 0, 0, 1, 0]

/-- The frame in which a peer says that it has the chunk of `res_1`. -/
def haveFrame : Bytes := [1, 2, 5, 114, 101, 115, 95, 49, 0, 0, 0, 0]

/-- The frame in which a peer says that it has the chunk of `res_2`. -/
def otherHaveFrame : Bytes := [1, 2, 5, 114, 101, 115, 95, 50, 0, 0, 0, 0]

/-- A download of `res_1` with a connected peer. -/
def connectedRun : List CoordinatorInput :=
  [(calmEnv, .peerDiscovered "peer"), (calmEnv, .startDownload oneChunkManifest),
    (calmEnv, .startRead 0), (calmEnv, .startResumed 0)]

/-- A HAVE for another resource marks the object that the scheduler shares, and a HAVE that came
before the download is handed over to the scheduler of another resource. -/
theorem connectedRun_misattributes :
    ¬ ExactKnowledge (coordinatorRun id IndexedDbChunkStore "me" ChunkRecords.empty
        (connectedRun ++ [(calmEnv, .dataMessage "peer" nothingFrame),
          (calmEnv, .dataMessage "peer" otherHaveFrame)])) ∧
      ¬ ExactKnowledge (coordinatorRun id IndexedDbChunkStore "me" ChunkRecords.empty
        [(calmEnv, .peerDiscovered "peer"), (calmEnv, .startDownload otherManifest),
          (calmEnv, .dataMessage "peer" otherHaveFrame),
          (calmEnv, .startDownload oneChunkManifest), (calmEnv, .startRead 1),
          (calmEnv, .startResumed 1)]) := by
  constructor
  · intro hexact
    have hknown := hexact _ (isCurrent_iff.mpr (Option.eq_some_of_isSome (by decide +kernel)))
      "peer" (by decide +kernel) 0 (by decide +kernel)
    revert hknown
    decide +kernel
  · intro hexact
    have hknown := hexact _ (isCurrent_iff.mpr (Option.eq_some_of_isSome (by decide +kernel)))
      "peer" (by decide +kernel) 0 (by decide +kernel)
    revert hknown
    decide +kernel

/-- A peer that has nothing at first gets the chunk. -/
theorem exactKnowledge_of_attributable_have :
    ExactKnowledge (coordinatorRun id IndexedDbChunkStore "me" ChunkRecords.empty
      [(calmEnv, .peerDiscovered "peer"), (calmEnv, .startDownload oneChunkManifest),
        (calmEnv, .startRead 0), (calmEnv, .startResumed 0),
        (calmEnv, .dataMessage "peer" nothingFrame),
        (calmEnv, .dataMessage "peer" haveFrame)]) := by
  refine exactKnowledge_of_attributable id IndexedDbChunkStore "me" ChunkRecords.empty _
    ⟨trivial, trivial, trivial, fun _ _ _ _ _ _ _ peerId address hget ↦ ?_,
      fun _ resourceId chunkIndex hdecode ↦ ?_, fun _ resourceId chunkIndex hdecode ↦ ?_, trivial⟩
  · exact absurd (hget.symm.trans (OrderedMap.get?_empty peerId)) (by simp)
  · have hframe : decodeMessage nothingFrame = .ok (.BITFIELD "res_1" 1 (Bitfield.new 1)) := by rfl
    rw [hframe] at hdecode
    exact absurd (Except.ok.inj hdecode) (by simp)
  · have hframe : decodeMessage haveFrame = .ok (.HAVE "res_1" 0) := by rfl
    rw [hframe] at hdecode
    obtain ⟨hresource, hindex⟩ := WireMessage.HAVE.inj (Except.ok.inj hdecode)
    subst hresource
    subst hindex
    split
    · next address hget =>
      obtain rfl : 0 = address := Option.some.inj (hget.symm.trans (by decide +kernel)).symm
      exact ⟨by decide +kernel, by decide +kernel⟩
    · next hget => exact absurd hget (by decide +kernel)

end CampusMesh.Web
