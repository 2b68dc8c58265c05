import CampusMesh.Web.SchedulerRuns
import Mathlib.Data.Set.Insert
import Mathlib.Logic.Relation

/-!
# What scheduling can do

Everything the scheduling methods do is a sequence of moves: offering a frame to a data channel,
booking a request, starting an origin fetch, reporting a complete download. A move names the chunk
it is about and what is known of this chunk when it is made. Invariants of the scheduler are proved
on the moves and never look into the scheduling loops.

A strict move books a request only for a chunk that the origin is not fetching. The scheduling loop
makes strict moves only (`scheduleNext_moves`); rescheduling a single chunk does so when the chunk
is not being fetched (`scheduleChunk_moves`).
-/

set_option autoImplicit false
set_option relaxedAutoImplicit false

namespace CampusMesh.Web

open Library Shared SchedulerState Relation

variable {σ : Type}

/-- One thing that scheduling does about a chunk. -/
inductive Move (env : Env) (strict : Prop) (chunkIndex : ℕ) :
    SchedulerState σ → SchedulerState σ → Prop
  | announce (state : SchedulerState σ) (hcomplete : state.localBitfield.isComplete = true) :
      Move env strict chunkIndex state (state.log [.onDownloadComplete])
  | offer (state : SchedulerState σ) (peerId : String) (buffer : Bytes) (sent : Bool)
      (hframe : encodeRequest state.resourceId chunkIndex = .ok buffer) :
      Move env strict chunkIndex state (state.log [.sendToPeer peerId buffer sent])
  | request (state : SchedulerState σ) (peerId : String) (retries : ℕ)
      (hrange : chunkIndex < state.localBitfield.totalChunks)
      (hmissing : state.localBitfield.has chunkIndex = false)
      (hfree : state.inFlight.get? chunkIndex = none)
      (hstrict : strict → chunkIndex ∉ state.originInFlight) :
      Move env strict chunkIndex state (state.arm chunkIndex peerId retries env.now)
  | fetch (state : SchedulerState σ)
      (hrange : chunkIndex < state.localBitfield.totalChunks)
      (hmissing : state.localBitfield.has chunkIndex = false)
      (hfree : state.inFlight.get? chunkIndex = none)
      (hidle : chunkIndex ∉ state.originInFlight) :
      Move env strict chunkIndex state (state.beginFetch chunkIndex env.now)

/-- A sequence of moves about some chunks. -/
def Moves (env : Env) (strict : Prop) (about : Set ℕ) (first last : SchedulerState σ) : Prop :=
  ReflTransGen (fun state next ↦ ∃ chunkIndex ∈ about, Move env strict chunkIndex state next)
    first last

instance (env : Env) (strict : Prop) (about : Set ℕ) :
    Std.Refl (@Moves σ env strict about) := ⟨fun _ ↦ ReflTransGen.refl⟩

instance (env : Env) (strict : Prop) (about : Set ℕ) :
    IsTrans (SchedulerState σ) (Moves env strict about) := ⟨fun _ _ _ ↦ ReflTransGen.trans⟩

section Moves

variable {env : Env} {strict : Prop} {about : Set ℕ} {state next last : SchedulerState σ}
  {chunkIndex : ℕ}

theorem Move.moves (hmove : Move env strict chunkIndex state next) (hmem : chunkIndex ∈ about) :
    Moves env strict about state next :=
  ReflTransGen.single ⟨chunkIndex, hmem, hmove⟩

/-- Moves may be about more chunks. -/
theorem Moves.mono {wider : Set ℕ} (hmoves : Moves env strict about state last)
    (hwider : about ⊆ wider) : Moves env strict wider state last :=
  ReflTransGen.mono
    (fun _ _ ⟨chunkIndex, hmem, hmove⟩ ↦ ⟨chunkIndex, hwider hmem, hmove⟩) _ _ hmoves

/-- What every move keeps holds after any number of moves. -/
theorem Moves.keeps (Inv : SchedulerState σ → Prop)
    (hkeeps : ∀ chunkIndex ∈ about, ∀ first second : SchedulerState σ,
      Move env strict chunkIndex first second → Inv first → Inv second)
    (hmoves : Moves env strict about state last) (hstart : Inv state) : Inv last := by
  induction hmoves with
  | refl => exact hstart
  | tail _ hmove ih =>
    obtain ⟨chunkIndex, hmem, hmove⟩ := hmove
    exact hkeeps chunkIndex hmem _ _ hmove ih

/-- The fields that scheduling never touches. -/
structure Unmoved (first second : SchedulerState σ) : Prop where
  manifest : second.manifest = first.manifest
  localBitfield : second.localBitfield = first.localBitfield
  isRunning : second.isRunning = first.isRunning
  peerBitfields : second.peerBitfields = first.peerBitfields
  peerChoked : second.peerChoked = first.peerChoked
  reassembly : second.reassembly = first.reassembly
  heap : second.heap = first.heap
  store : second.store = first.store

theorem Moves.unmoved (hmoves : Moves env strict about state last) : Unmoved state last := by
  refine hmoves.keeps (Unmoved state) (fun _ _ first second hmove h ↦ ?_)
    ⟨rfl, rfl, rfl, rfl, rfl, rfl, rfl, rfl⟩
  cases hmove <;> exact ⟨h.1, h.2, h.3, h.4, h.5, h.6, h.7, h.8⟩

/-- A missing chunk that nothing is being done about. -/
structure Free (state : SchedulerState σ) (chunkIndex : ℕ) : Prop where
  inRange : chunkIndex < state.localBitfield.totalChunks
  missing : state.localBitfield.has chunkIndex = false
  notRequested : state.inFlight.get? chunkIndex = none
  notFetched : chunkIndex ∉ state.originInFlight

/-- Moves about other chunks leave a chunk free. -/
theorem Moves.free (hmoves : Moves env strict about state last) (hother : chunkIndex ∉ about)
    (hfree : Free state chunkIndex) : Free last chunkIndex := by
  refine hmoves.keeps (fun reached ↦ Free reached chunkIndex)
    (fun moved hmem first second hmove h ↦ ?_) hfree
  have hne : chunkIndex ≠ moved := fun heq ↦ hother (heq ▸ hmem)
  cases hmove with
  | announce => exact ⟨h.1, h.2, h.3, h.4⟩
  | offer => exact ⟨h.1, h.2, h.3, h.4⟩
  | request => exact ⟨h.1, h.2, (OrderedMap.get?_set_of_ne _ hne _).trans h.3, h.4⟩
  | fetch =>
    refine ⟨h.1, h.2, h.3, fun hin ↦ ?_⟩
    rcases Finset.mem_insert.mp hin with heq | hold
    · exact hne heq
    · exact h.4 hold

/-- Moves about other chunks leave the request for a chunk alone. -/
theorem Moves.get?_inFlight (hmoves : Moves env strict about state last)
    (hother : chunkIndex ∉ about) :
    last.inFlight.get? chunkIndex = state.inFlight.get? chunkIndex := by
  refine hmoves.keeps (fun reached ↦ reached.inFlight.get? chunkIndex =
    state.inFlight.get? chunkIndex) (fun moved hmem first second hmove h ↦ ?_) rfl
  have hne : chunkIndex ≠ moved := fun heq ↦ hother (heq ▸ hmem)
  cases hmove with
  | announce | offer | fetch => exact h
  | request => exact (OrderedMap.get?_set_of_ne _ hne _).trans h

end Moves

/-! ### One chunk -/

section Schedule

variable {strict : Prop}

theorem dispatchOriginFallback_moves (env : Env) {state : SchedulerState σ} {chunkIndex : ℕ}
    (hrange : chunkIndex < state.localBitfield.totalChunks)
    (hfree : state.inFlight.get? chunkIndex = none) :
    Moves env strict {chunkIndex} state (dispatchOriginFallback env chunkIndex state).1 := by
  unfold dispatchOriginFallback
  split_ifs with hidle
  · exact ReflTransGen.refl
  · rw [not_or] at hidle
    exact (Move.fetch state hrange (by simpa using hidle.1) hfree hidle.2).moves rfl

/-- Offering a request and, when it is not taken, trying again. -/
theorem dispatchOrRetry_moves (env : Env) {retry : Method σ} {chunkIndex : ℕ} (peerId : String)
    (retries : ℕ) {state : SchedulerState σ}
    (hrange : chunkIndex < state.localBitfield.totalChunks)
    (hmissing : state.localBitfield.has chunkIndex = false)
    (hfree : state.inFlight.get? chunkIndex = none)
    (hstrict : strict → chunkIndex ∉ state.originInFlight)
    (hretry : ∀ calls, Moves env strict {chunkIndex} (state.log calls)
      (retry (state.log calls)).1) :
    Moves env strict {chunkIndex} state
      (dispatchOrRetry env retry chunkIndex peerId retries state).1 := by
  unfold dispatchOrRetry
  split
  · exact ReflTransGen.refl
  · next wireMsg hframe =>
    have hoffer : Moves env strict {chunkIndex} state
        (state.log [.sendToPeer peerId wireMsg (env.sends state.calls.length)]) :=
      (Move.offer state peerId wireMsg _ hframe).moves rfl
    simp only
    split_ifs with hsent
    · exact hoffer.trans (hretry _)
    · exact hoffer.trans
        ((Move.request (state.log _) peerId retries hrange hmissing hfree hstrict).moves rfl)

theorem scheduleWithin_moves (env : Env) {chunkIndex : ℕ} (attempts : ℕ)
    {state : SchedulerState σ} (hrange : chunkIndex < state.localBitfield.totalChunks)
    (hfree : state.inFlight.get? chunkIndex = none)
    (hstrict : strict → chunkIndex ∉ state.originInFlight) :
    Moves env strict {chunkIndex} state (scheduleWithin env chunkIndex attempts state).1 := by
  induction attempts generalizing state with
  | zero =>
    unfold scheduleWithin
    split_ifs with hmissing
    · exact ReflTransGen.refl
    · exact dispatchOriginFallback_moves env hrange hfree
  | succ attempts ih =>
    unfold scheduleWithin
    split_ifs with hmissing
    · exact ReflTransGen.refl
    · split
      · next peerId _ _ =>
        exact dispatchOrRetry_moves env peerId _ hrange (by simpa using hmissing) hfree hstrict
          fun calls ↦ ih hrange hfree hstrict
      · exact dispatchOriginFallback_moves env hrange hfree

/-- Rescheduling a chunk that is not requested makes moves about this chunk only. -/
theorem scheduleChunk_moves (env : Env) {chunkIndex : ℕ} (retries : ℕ) {state : SchedulerState σ}
    (hrange : chunkIndex < state.localBitfield.totalChunks)
    (hfree : state.inFlight.get? chunkIndex = none)
    (hstrict : strict → chunkIndex ∉ state.originInFlight) :
    Moves env strict {chunkIndex} state (scheduleChunk env chunkIndex retries state).1 :=
  scheduleWithin_moves env _ hrange hfree hstrict

theorem assignToPeer_moves (env : Env) (entry : RarityEntry) {state : SchedulerState σ}
    (hfree : Free state entry.chunkIndex) :
    Moves env strict {entry.chunkIndex} state (assignToPeer env entry state).1 := by
  unfold assignToPeer
  split_ifs with hcapacity
  · exact ReflTransGen.refl
  · simp only
    split
    · exact dispatchOrRetry_moves env _ _ hfree.inRange hfree.missing hfree.notRequested
        (fun _ ↦ hfree.notFetched) fun calls ↦
        scheduleChunk_moves env _ hfree.inRange hfree.notRequested fun _ ↦ hfree.notFetched
    · exact ReflTransGen.refl

theorem assignToOrigin_moves (env : Env) (entry : RarityEntry) {state : SchedulerState σ}
    (hfree : Free state entry.chunkIndex) :
    Moves env strict {entry.chunkIndex} state (assignToOrigin env entry state).1 := by
  unfold assignToOrigin
  split_ifs with hcapacity
  · exact ReflTransGen.refl
  · exact dispatchOriginFallback_moves env hfree.inRange hfree.notRequested

/-! ### The scheduling loop -/

theorem mem_candidateIndices {state : SchedulerState σ} {chunkIndex : ℕ} :
    chunkIndex ∈ candidateIndices state ↔ Free state chunkIndex := by
  simp only [candidateIndices, List.mem_filter, Bitfield.mem_getMissingIndices, Bool.and_eq_true,
    Bool.not_eq_true', decide_eq_false_iff_not, OrderedMap.has_eq_false_iff]
  exact ⟨fun ⟨⟨hrange, hmissing⟩, hrequested, hfetched⟩ ↦ ⟨hrange, hmissing, hrequested, hfetched⟩,
    fun h ↦ ⟨⟨h.1, h.2⟩, h.3, h.4⟩⟩

theorem free_of_mem_rarityMap {state : SchedulerState σ} {entry : RarityEntry}
    (hmem : entry ∈ rarityMap state) : Free state entry.chunkIndex := by
  obtain ⟨chunkIndex, hcandidate, rfl⟩ := List.mem_map.mp hmem
  exact mem_candidateIndices.mp hcandidate

/-- Every candidate has one entry. -/
theorem nodup_rarityMap (state : SchedulerState σ) :
    ((rarityMap state).map RarityEntry.chunkIndex).Nodup := by
  rw [rarityMap, List.map_map]
  refine List.Nodup.map (fun first second heq ↦ heq) ?_
  exact (Bitfield.nodup_getMissingIndices _).filter _

theorem mem_availableFromPeers {entries : List RarityEntry} {entry : RarityEntry} :
    entry ∈ availableFromPeers entries ↔ entry ∈ entries ∧ 0 < entry.rarity := by
  simp [availableFromPeers, List.mem_insertionSort]

theorem mem_unavailableFromPeers {entries : List RarityEntry} {entry : RarityEntry} :
    entry ∈ unavailableFromPeers entries ↔ entry ∈ entries ∧ entry.rarity = 0 := by
  simp [unavailableFromPeers]

theorem nodup_availableFromPeers (state : SchedulerState σ) :
    ((availableFromPeers (rarityMap state)).map RarityEntry.chunkIndex).Nodup := by
  refine ((List.perm_insertionSort _ _).map _).nodup_iff.mpr ?_
  exact (nodup_rarityMap state).sublist (List.filter_sublist.map _)

theorem nodup_unavailableFromPeers (state : SchedulerState σ) :
    ((unavailableFromPeers (rarityMap state)).map RarityEntry.chunkIndex).Nodup :=
  (nodup_rarityMap state).sublist (List.filter_sublist.map _)

/-- No chunk is both available from peers and not. -/
theorem not_mem_available_of_mem_unavailable {state : SchedulerState σ} {entry : RarityEntry}
    (hmem : entry ∈ unavailableFromPeers (rarityMap state)) :
    entry.chunkIndex ∉ (availableFromPeers (rarityMap state)).map RarityEntry.chunkIndex := by
  intro hother
  obtain ⟨other, hother, heq⟩ := List.mem_map.mp hother
  obtain ⟨hotherIn, hpositive⟩ := mem_availableFromPeers.mp hother
  obtain ⟨hin, hzero⟩ := mem_unavailableFromPeers.mp hmem
  obtain ⟨chunkIndex, _, rfl⟩ := List.mem_map.mp hin
  obtain ⟨otherIndex, _, rfl⟩ := List.mem_map.mp hotherIn
  rw [show otherIndex = chunkIndex from heq] at hpositive
  exact absurd hzero hpositive.ne'

section Agenda

variable {env : Env} {state : SchedulerState σ} {entry : RarityEntry}

/-- The candidates in the order in which the two loops come to them. -/
def agenda (state : SchedulerState σ) : List RarityEntry :=
  availableFromPeers (rarityMap state) ++ unavailableFromPeers (rarityMap state)

/-- The body of the loop that comes to a candidate. -/
def assign (env : Env) (entry : RarityEntry) : Method σ :=
  if 0 < entry.rarity then assignToPeer env entry else assignToOrigin env entry

/-- The two loops are one loop over the agenda. -/
theorem scheduleNext_eq_agenda (hrunning : state.isRunning = true)
    (hincomplete : state.localBitfield.isComplete = false)
    (hroom : state.outstanding < maxTotalInFlight) :
    scheduleNext env state = Action.forEach (assign env) (agenda state) state := by
  have hpeers : Action.forEach (assign (σ := σ) env) (availableFromPeers (rarityMap state)) =
      Action.forEach (assignToPeer env) (availableFromPeers (rarityMap state)) :=
    Action.forEach_congr fun entry hmem ↦ if_pos (mem_availableFromPeers.mp hmem).2
  have horigin : Action.forEach (assign (σ := σ) env) (unavailableFromPeers (rarityMap state)) =
      Action.forEach (assignToOrigin env) (unavailableFromPeers (rarityMap state)) :=
    Action.forEach_congr fun entry hmem ↦
      if_neg (by rw [(mem_unavailableFromPeers.mp hmem).2]; exact lt_irrefl 0)
  rw [agenda, Action.forEach_append, hpeers, horigin, scheduleNext,
    if_neg (by simp [hrunning, hincomplete]), if_neg (not_le.mpr hroom)]

/-- A call of `scheduleNext` does nothing, as the scheduler is stopped or full, reports a complete
download, or runs this loop. -/
theorem scheduleNext_cases (env : Env) (state : SchedulerState σ) :
    ((state.isRunning = true → state.localBitfield.isComplete = false →
        maxTotalInFlight ≤ state.outstanding) ∧ scheduleNext env state = (state, none)) ∨
      (state.localBitfield.isComplete = true ∧
        scheduleNext env state = (state.log [.onDownloadComplete], none)) ∨
      (state.isRunning = true ∧ state.localBitfield.isComplete = false ∧
        state.outstanding < maxTotalInFlight) := by
  by_cases hidle : state.isRunning = false ∨ state.localBitfield.isComplete = true
  · unfold scheduleNext
    rw [if_pos hidle]
    split_ifs with hcomplete
    · exact .inr (.inl ⟨hcomplete, rfl⟩)
    · refine .inl ⟨fun hrunning hincomplete ↦ ?_, rfl⟩
      simp [hrunning, hincomplete] at hidle
  · by_cases hfull : maxTotalInFlight ≤ state.outstanding
    · unfold scheduleNext
      rw [if_neg hidle, if_pos hfull]
      exact .inl ⟨fun _ _ ↦ hfull, rfl⟩
    · rw [not_or] at hidle
      exact .inr (.inr ⟨by simpa using hidle.1, by simpa using hidle.2, not_le.mp hfull⟩)

theorem mem_agenda : entry ∈ agenda state ↔ entry ∈ rarityMap state := by
  rw [agenda, List.mem_append, mem_availableFromPeers, mem_unavailableFromPeers, ← and_or_left]
  exact and_iff_left (Nat.eq_zero_or_pos entry.rarity).symm

theorem nodup_agenda (state : SchedulerState σ) :
    ((agenda state).map RarityEntry.chunkIndex).Nodup := by
  rw [agenda, List.map_append, List.nodup_append]
  refine ⟨nodup_availableFromPeers state, nodup_unavailableFromPeers state, ?_⟩
  rintro _ hfirst _ hsecond rfl
  obtain ⟨other, hother, hsame⟩ := List.mem_map.mp hsecond
  exact not_mem_available_of_mem_unavailable hother (hsame ▸ hfirst)

theorem assign_moves (env : Env) (hfree : Free state entry.chunkIndex) :
    Moves env True {entry.chunkIndex} state (assign env entry state).1 := by
  unfold assign
  split_ifs
  · exact assignToPeer_moves env entry hfree
  · exact assignToOrigin_moves env entry hfree

/-- A part of the agenda makes moves about its own candidates only. -/
theorem forEach_assign_moves {items : List RarityEntry}
    (hdistinct : (items.map RarityEntry.chunkIndex).Nodup)
    {reached : SchedulerState σ} (hfree : ∀ entry ∈ items, Free reached entry.chunkIndex) :
    Moves env True {chunkIndex | chunkIndex ∈ items.map RarityEntry.chunkIndex} reached
      (Action.forEach (assign env) items reached).1 := by
  refine Action.forEach_rel_of_distinct RarityEntry.chunkIndex
    (fun chunk between ↦ Free between chunk) hdistinct (fun entry hmem between hready ↦ ?_)
    (fun entry hmem other hother between hready ↦ (assign_moves env hready).free hother) hfree
  refine (assign_moves env hready).mono ?_
  rintro chunkIndex rfl
  exact List.mem_map_of_mem hmem

end Agenda

/-- The scheduling loop makes strict moves only. -/
theorem scheduleNext_moves (env : Env) (state : SchedulerState σ) :
    Moves env True Set.univ state (scheduleNext env state).1 := by
  rcases scheduleNext_cases env state with ⟨-, hidle⟩ | ⟨hcomplete, hreports⟩ |
    ⟨hrunning, hincomplete, hroom⟩
  · rw [hidle]
    exact ReflTransGen.refl
  · rw [hreports]
    exact (Move.announce state hcomplete).moves (Set.mem_univ 0)
  · rw [scheduleNext_eq_agenda hrunning hincomplete hroom]
    exact (forEach_assign_moves (nodup_agenda state) fun entry hmem ↦
      free_of_mem_rarityMap (mem_agenda.mp hmem)).mono (Set.subset_univ _)

theorem scheduleIfRunning_moves (env : Env) (state : SchedulerState σ) :
    Moves env True Set.univ state (scheduleIfRunning env state).1 := by
  unfold scheduleIfRunning
  split_ifs
  · exact scheduleNext_moves env state
  · exact ReflTransGen.refl

end Schedule

end CampusMesh.Web
