import CampusMesh.Web.GreedyScheduling

/-!
# How much is outstanding

`scheduleNext` starts an acquisition only while fewer than eight are outstanding. Everything else
that starts one has released a slot before, but for the fetch of a chunk whose verification failed:
its slot was released when its last block came, and may have been filled since. So the bound holds
in all states of exactly those runs in which there is room whenever a corrupt chunk is fetched again
(`withinCapacity_iff`).
-/

set_option autoImplicit false
set_option relaxedAutoImplicit false

namespace CampusMesh.Web

open Library Shared SchedulerState

variable {σ : Type}

/-! ### The promise -/

/-- At most eight acquisitions are outstanding. -/
def Bounded (state : SchedulerState σ) : Prop := state.outstanding ≤ maxTotalInFlight

/-- In every state of the run at most eight acquisitions are outstanding. -/
def WithinCapacity (digest : Bytes → Bytes) (chunkStore : IChunkStore σ)
    (manifest : ResourceManifest) (localBitfield : Bitfield) (heap : List Bitfield) (store : σ)
    (inputs : List SchedulerInput) : Prop :=
  ∀ before later, inputs = before ++ later →
    Bounded (schedulerRun digest chunkStore manifest localBitfield heap store before)

/-- The event settles the verification of a corrupt chunk that is missing and not being fetched. -/
def Refetches (digest : Bytes → Bytes) (state : SchedulerState σ) (event : SchedulerEvent) : Prop :=
  ∃ index task expected data latencyMs, event = .settled index .verified ∧
    state.tasks[index]? = some task ∧ task.stage = .verifying expected data latencyMs ∧
      (verify digest data expected).valid = false ∧
        state.localBitfield.has task.chunkIndex = false ∧ task.chunkIndex ∉ state.originInFlight

/-- There is room when a corrupt chunk is fetched again. -/
def RefetchHasRoom (digest : Bytes → Bytes) (state : SchedulerState σ) (input : SchedulerInput) :
    Prop :=
  Refetches digest state input.2 → state.outstanding < maxTotalInFlight

/-! ### Methods -/

section Methods

variable {env : Env} {state : SchedulerState σ} {chunkIndex : ℕ}

/-- What is outstanding is counted by two fields. -/
theorem Bounded.congr (hbounded : Bounded state) {next : SchedulerState σ}
    (hinFlight : next.inFlight = state.inFlight)
    (horigin : next.originInFlight = state.originInFlight) : Bounded next := by
  unfold Bounded outstanding
  rw [hinFlight, horigin]
  exact hbounded

theorem scheduleNext_bounded (hbounded : Bounded state) : Bounded (scheduleNext env state).1 := by
  rcases scheduleNext_cases env state with ⟨-, hidle⟩ | ⟨-, hcomplete⟩ |
    ⟨hrunning, hincomplete, hroom⟩
  · rw [hidle]
    exact hbounded
  · rw [hcomplete]
    exact hbounded
  · rw [scheduleNext_eq_agenda hrunning hincomplete hroom]
    exact forEach_assign_bounded hroom.le

theorem scheduleIfRunning_bounded (hbounded : Bounded state) :
    Bounded (scheduleIfRunning env state).1 := by
  unfold scheduleIfRunning
  split_ifs
  · exact scheduleNext_bounded hbounded
  · exact hbounded

/-- A request that is released leaves its slot. -/
theorem outstanding_release (hrequested : state.inFlight.has chunkIndex = true) (timer : ℕ) :
    (release chunkIndex timer state).outstanding + 1 = state.outstanding := by
  have hsize := OrderedMap.size_delete hrequested
  unfold outstanding
  change (state.inFlight.delete chunkIndex).size + state.originInFlight.card + 1 = _
  omega

/-- Scheduling a released chunk again fills its slot at most. -/
theorem reschedule_bounded (hbounded : Bounded state)
    (hrequested : state.inFlight.has chunkIndex = true) (timer retries : ℕ) (calls : List Call) :
    Bounded (scheduleChunk env chunkIndex retries
      ((release chunkIndex timer state).log calls)).1 := by
  have hmore := @atMostOneMore_scheduleChunk σ env chunkIndex retries
    ((release chunkIndex timer state).log calls)
  refine le_trans hmore ?_
  change (release chunkIndex timer state).outstanding + 1 ≤ _
  rw [outstanding_release hrequested]
  exact hbounded

/-- Reassigning the requests of a peer fills their slots at most. -/
theorem removePeer_bounded (hwf : WellFormed state) (hbounded : Bounded state) (peerId : String) :
    Bounded (removePeer env peerId state).1 := by
  have hforgotten : Bounded (forget peerId state) := hbounded.congr rfl rfl
  have hloop : Action.Keeps Bounded (forget peerId state)
      (Action.forEach (reassign env peerId) state.inFlight.entries (forget peerId state)).1 := by
    refine reassign_loop_rel (hwf.forget peerId) peerId
      fun entry _ reached _ hrequest hkept ↦ ?_
    unfold reassign
    split_ifs
    · rw [← log_nil (release entry.1 entry.2.timer reached)]
      exact reschedule_bounded hkept (OrderedMap.has_iff_exists.mpr ⟨_, hrequest⟩) _ _ []
    · exact hkept
  rw [removePeer_eq]
  exact Action.andThen_establishes (hloop hforgotten)
    (scheduleIfRunning_bounded (hloop hforgotten))

theorem handleTimeout_bounded (hbounded : Bounded state) (timer : ℕ) :
    Bounded (handleTimeout env chunkIndex timer state).1 := by
  unfold handleTimeout
  split
  · exact hbounded
  · next request hrequest =>
    have hreached := @reschedule_bounded σ env state chunkIndex hbounded
      (OrderedMap.has_iff_exists.mpr ⟨request, hrequest⟩) timer (request.retries + 1)
      [.onRetry chunkIndex request.peerId]
    exact Action.andThen_establishes hreached (scheduleNext_bounded hreached)

theorem verifyAndStoreChunk_outstanding (chunkIndex : ℕ) (data : Bytes) (latencyMs : ℕ)
    (state : SchedulerState σ) :
    (verifyAndStoreChunk chunkIndex data latencyMs state).1.outstanding = state.outstanding := by
  unfold verifyAndStoreChunk
  split <;> rfl

theorem handlePiece_bounded (hbounded : Bounded state) (beginOffset totalLength : ℕ)
    (data : Bytes) :
    Bounded (handlePiece env chunkIndex beginOffset totalLength data state).1 := by
  unfold handlePiece
  split
  · exact hbounded
  · next request hrequest =>
    simp only
    split_ifs
    · have hreleased : (release chunkIndex request.timer state).outstanding ≤ maxTotalInFlight := by
        have hslot := outstanding_release (OrderedMap.has_iff_exists.mpr ⟨request, hrequest⟩)
          request.timer
        unfold Bounded at hbounded
        omega
      unfold completePiece
      simp only
      split
      · exact hreleased
      · exact (verifyAndStoreChunk_outstanding _ _ _ _).trans_le hreleased
    · exact hbounded.congr rfl rfl

/-- What ends a task takes its mark away first. -/
theorem finish_bounded (hbounded : Bounded state) (index : ℕ) (task : Task) :
    Bounded (finish env index task state) := by
  unfold finish
  simp only
  split_ifs
  · exact scheduleIfRunning_bounded (hbounded.congr rfl rfl)
  · refine scheduleIfRunning_bounded ?_
    have hcard := Finset.card_erase_le (s := state.originInFlight) (a := task.chunkIndex)
    unfold Bounded outstanding at hbounded ⊢
    change state.inFlight.size + (state.originInFlight.erase task.chunkIndex).card ≤ _
    omega

theorem reject_outstanding (index : ℕ) (task : Task) (error : String) (state : SchedulerState σ) :
    (reject index task error state).outstanding = state.outstanding := by
  unfold reject
  split_ifs <;> rfl

theorem afterPut_outstanding (chunkIndex : ℕ) (fromP2P : Bool) (data : Bytes) (latencyMs : ℕ)
    (state : SchedulerState σ) :
    (afterPut chunkIndex fromP2P data latencyMs state).1.outstanding = state.outstanding := by
  unfold afterPut
  split
  · rfl
  · simp only
    split <;> rfl

theorem afterStore_outstanding (index : ℕ) (task : Task)
    (outcome : SchedulerState σ × Option JsError) :
    (afterStore index task outcome).outstanding = outcome.1.outstanding := by
  unfold afterStore
  split
  · rfl
  · exact reject_outstanding _ _ _ _

theorem advance_outstanding (index : ℕ) (task : Task) (stage : Stage) (state : SchedulerState σ) :
    (advance index task stage state).outstanding = state.outstanding := rfl

/-- A fetch that is started is one more. -/
theorem dispatchOriginFallback_outstanding (env : Env) (chunkIndex : ℕ) (state : SchedulerState σ) :
    (dispatchOriginFallback env chunkIndex state).1.outstanding =
      if state.localBitfield.has chunkIndex = false ∧ chunkIndex ∉ state.originInFlight then
        state.outstanding + 1
      else state.outstanding := by
  unfold dispatchOriginFallback
  by_cases hidle : state.localBitfield.has chunkIndex = true ∨ chunkIndex ∈ state.originInFlight
  · rw [if_pos hidle, if_neg (by simpa [or_iff_not_imp_left] using hidle)]
  · rw [if_neg hidle]
    rw [not_or, Bool.not_eq_true] at hidle
    rw [if_pos hidle]
    unfold outstanding
    change state.inFlight.size + (insert chunkIndex state.originInFlight).card = _
    rw [Finset.card_insert_of_notMem hidle.2, Nat.add_assoc]

/-- So is that of a corrupt chunk. -/
theorem afterVerify_outstanding (digest : Bytes → Bytes) (env : Env) (chunkIndex : ℕ)
    (expected : String) (data : Bytes) (latencyMs : ℕ) (state : SchedulerState σ) :
    (afterVerify digest env chunkIndex expected data latencyMs state).1.outstanding =
      if (verify digest data expected).valid = false ∧
          state.localBitfield.has chunkIndex = false ∧ chunkIndex ∉ state.originInFlight then
        state.outstanding + 1
      else state.outstanding := by
  unfold afterVerify
  simp only
  by_cases hvalid : (verify digest data expected).valid = false
  · rw [if_pos hvalid]
    refine (dispatchOriginFallback_outstanding env chunkIndex _).trans ?_
    simp only [hvalid, true_and]
    rfl
  · rw [if_neg hvalid, if_neg fun h ↦ hvalid h.1]
    rfl

end Methods

/-! ### Steps -/

section Steps

variable {digest : Bytes → Bytes} {chunkStore : IChunkStore σ} {env : Env}
  {state : SchedulerState σ}

theorem continueTask_bounded (hbounded : Bounded state) {index : ℕ} {task : Task}
    (htask : state.tasks[index]? = some task) {settlement : Settlement}
    (hroom : RefetchHasRoom digest state (env, .settled index settlement)) :
    Bounded (continueTask digest chunkStore env index task settlement state) := by
  have htransition := continueTask_transition digest chunkStore env index task settlement state
  generalize continueTask digest chunkStore env index task settlement state = next
    at htransition ⊢
  cases htransition with
  | ignored => exact hbounded
  | fetched => exact (verifyAndStoreChunk_outstanding _ _ _ _).trans_le hbounded
  | fetchFailed | written | caught => exact hbounded.congr rfl rfl
  | verified expected data latencyMs hstage =>
    have houtstanding := afterVerify_outstanding digest env task.chunkIndex expected data latencyMs
      state
    unfold Bounded
    rw [advance_outstanding, houtstanding]
    split_ifs with hrefetch
    · exact hroom ⟨index, task, expected, data, latencyMs, rfl, htask, hstage, hrefetch⟩
    · exact hbounded
  | verifyFailed | putFailed => exact (reject_outstanding _ _ _ _).trans_le hbounded
  | putDone =>
    refine (afterStore_outstanding _ _ _).trans_le ?_
    exact (afterPut_outstanding _ _ _ _ _).trans_le hbounded
  | finished => exact finish_bounded hbounded index task

/-- **A step.** With room whenever a corrupt chunk is fetched again, the bound is kept. -/
theorem perform_bounded (hwf : WellFormed state) (hbounded : Bounded state) {event : SchedulerEvent}
    (hroom : RefetchHasRoom digest state (env, event)) :
    Bounded (perform digest chunkStore env event state).1 := by
  cases event with
  | start =>
    simp only [perform, start]
    split_ifs
    · exact hbounded
    · exact scheduleNext_bounded (hbounded.congr rfl rfl)
  | stop => exact Nat.zero_le _
  | updatePeerBitfield peerId address =>
    exact scheduleIfRunning_bounded (hbounded.congr rfl rfl)
  | updatePeerHave peerId chunkIndex =>
    have hlocated : Bounded (peerBitfield peerId state).1 := by
      unfold peerBitfield
      split <;> exact hbounded.congr rfl rfl
    simp only [perform, updatePeerHave]
    split
    · exact hlocated
    · exact scheduleIfRunning_bounded (hlocated.congr rfl rfl)
  | setPeerChoked peerId choked =>
    simp only [perform, setPeerChoked]
    split_ifs
    · exact hbounded.congr rfl rfl
    · exact scheduleIfRunning_bounded (hbounded.congr rfl rfl)
  | removePeer peerId => exact removePeer_bounded hwf hbounded peerId
  | scheduleNext => exact scheduleNext_bounded hbounded
  | handlePiece chunkIndex beginOffset totalLength data =>
    exact handlePiece_bounded hbounded beginOffset totalLength data
  | timeout timer =>
    simp only [perform]
    split
    · exact handleTimeout_bounded hbounded timer
    · exact hbounded
  | settled index settlement =>
    simp only [perform]
    split
    · next htask => exact continueTask_bounded hbounded htask hroom
    · exact hbounded
  | shared heap => exact hbounded.congr rfl rfl

/-- A corrupt chunk that is fetched again without room exceeds the bound. -/
theorem perform_exceeds {event : SchedulerEvent}
    (hfull : ¬ RefetchHasRoom digest state (env, event)) :
    ¬ Bounded (perform digest chunkStore env event state).1 := by
  unfold RefetchHasRoom at hfull
  rw [Classical.not_imp, not_lt] at hfull
  obtain ⟨⟨index, task, expected, data, latencyMs, rfl, htask, hstage, hrefetch⟩, hfull⟩ := hfull
  have houtstanding := afterVerify_outstanding digest env task.chunkIndex expected data
    latencyMs state
  rw [if_pos hrefetch] at houtstanding
  have hnext : (perform digest chunkStore env (.settled index .verified) state).1.outstanding =
      state.outstanding + 1 := by
    simp only [perform, htask, continueTask_verified hstage]
    rw [advance_outstanding, houtstanding]
  unfold Bounded
  omega

end Steps

/-! ### Runs -/

/-- **When at most eight acquisitions are outstanding.** In exactly those runs in which fewer than
eight are whenever a corrupt chunk that is missing and not being fetched is fetched again. -/
theorem withinCapacity_iff (digest : Bytes → Bytes) (chunkStore : IChunkStore σ)
    (manifest : ResourceManifest) (localBitfield : Bitfield) (heap : List Bitfield) (store : σ)
    (inputs : List SchedulerInput) :
    WithinCapacity digest chunkStore manifest localBitfield heap store inputs ↔
      Along (schedulerStep digest chunkStore) (RefetchHasRoom digest)
        (SchedulerState.new manifest localBitfield heap store) inputs := by
  exact forall_prefix_iff_along WellFormed
    (fun state input hwf ↦ (schedulerStep_wellFormed hwf input).1)
    (fun state input hwf hbounded ↦ ⟨fun hnext ↦ by_contra fun hfull ↦ perform_exceeds hfull hnext,
      perform_bounded hwf hbounded⟩)
    (wellFormed_new manifest localBitfield heap store) (Nat.zero_le _) inputs

/-! ### A corrupt chunk -/

/-- The one peer sends a wrong byte, and asks for more work while this byte is verified. -/
def corruptedRun : List SchedulerInput :=
  [.updatePeerBitfield "peer" 0, .start, .handlePiece 0 0 1 [8], .scheduleNext,
    .settled 7 .verified].map fun event ↦ (calmEnv, event)

/-- Nine acquisitions are outstanding then: the first chunk is requested and being fetched. -/
theorem corruptedRun_exceeds : ¬ WithinCapacity id MemoryChunkStore eightChunkManifest
    (Bitfield.new 8) [⟨8, [0x80], rfl⟩] OrderedMap.empty corruptedRun := by
  intro hwithin
  exact absurd (hwithin corruptedRun [] rfl) (by unfold Bounded; decide +kernel)

end CampusMesh.Web
