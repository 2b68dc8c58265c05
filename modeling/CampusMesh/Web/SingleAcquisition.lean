import CampusMesh.Web.SchedulerAcquisition

/-!
# Single acquisition

The scheduler acquires a chunk twice when the scheduling loop runs at the wrong time: `handlePiece`
releases the slot of a chunk before its bytes are verified and stored, and until then the loop takes
the chunk for one that nothing is being done about. `SchedulesSettled` is the condition under which
that does not happen: the loop looks for chunks only while no chunk delivered by a peer awaits
verification or storage. Under it every run acquires each chunk once
(`singleAcquisition_of_schedulesSettled`).
-/

set_option autoImplicit false
set_option relaxedAutoImplicit false

namespace CampusMesh.Web

open Library Shared SchedulerState

variable {σ : Type}

/-! ### Moves take slots -/

section Outstanding

variable {env : Env} {strict : Prop} {about : Set ℕ} {state last : SchedulerState σ}

/-- Moves leave the books as they are or take slots. -/
theorem Moves.outstanding (hmoves : Moves env strict about state last) :
    (last.inFlight = state.inFlight ∧ last.originInFlight = state.originInFlight) ∨
      state.outstanding < last.outstanding := by
  refine hmoves.keeps (fun reached ↦ (reached.inFlight = state.inFlight ∧
    reached.originInFlight = state.originInFlight) ∨ state.outstanding < reached.outstanding)
    (fun moved _ first second hmove h ↦ ?_) (Or.inl ⟨rfl, rfl⟩)
  have hle : state.outstanding ≤ first.outstanding := by
    rcases h with ⟨hinFlight, horigin⟩ | hlt
    · rw [SchedulerState.outstanding, SchedulerState.outstanding, hinFlight, horigin]
    · exact hlt.le
  cases hmove with
  | announce | offer => exact h
  | request peerId retries hrange hmissing hfree =>
    refine Or.inr (lt_of_le_of_lt hle ?_)
    change first.inFlight.size + _ < (first.inFlight.set moved _).size + _
    rw [OrderedMap.size_set, OrderedMap.has_eq_false_iff.mpr hfree]
    exact Nat.add_lt_add_right (Nat.lt_succ_self _) _
  | fetch hrange hmissing hfree hidle =>
    refine Or.inr (lt_of_le_of_lt hle ?_)
    change _ + first.originInFlight.card < _ + (insert moved first.originInFlight).card
    rw [Finset.card_insert_of_notMem hidle]
    exact Nat.add_lt_add_left (Nat.lt_succ_self _) _

/-- Acquiring a chunk takes a slot. -/
theorem Moves.outstanding_lt (hmoves : Moves env strict about state last) {chunkIndex : ℕ}
    (hfree : Free state chunkIndex) (hacquired : Acquired chunkIndex last) :
    state.outstanding < last.outstanding := by
  refine hmoves.outstanding.resolve_left fun ⟨hinFlight, horigin⟩ ↦ ?_
  rcases hacquired with ⟨request, hrequest⟩ | hmem
  · rw [hinFlight, hfree.notRequested] at hrequest
    exact absurd hrequest (by simp)
  · exact hfree.notFetched (horigin ▸ hmem)

theorem NoneDelivered.moves (hnone : NoneDelivered state)
    (hmoves : Moves env strict about state last) : NoneDelivered last := by
  refine hmoves.keeps NoneDelivered (fun moved _ first second hmove h ↦ ?_) hnone
  cases hmove with
  | announce | offer | request => exact h
  | fetch =>
    intro task hmem hpath
    rcases List.mem_append.mp hmem with hold | hnew
    · exact h task hold hpath
    · rw [List.mem_singleton.mp hnew]
      rfl

end Outstanding

/-! ### Events -/

/-- What the handlers that reach the scheduling loop start from and keep. -/
structure Settled (initial : Bitfield) (state : SchedulerState σ) : Prop where
  wellFormed : WellFormed state
  fits : FitsHeader state.resourceId
  exclusive : Exclusive initial state
  calm : Calm state

section Events

variable {initial : Bitfield} {digest : Bytes → Bytes} {chunkStore : IChunkStore σ} {env : Env}
  {state : SchedulerState σ}

/-- Changes of what the scheduler knows about its peers. -/
theorem Exclusive.books (hinv : Exclusive initial state) (peerBitfields : OrderedMap String ℕ)
    (peerChoked : OrderedMap String Bool) (reassembly : OrderedMap ℕ ChunkReassembly)
    (heap : List Bitfield) (store : σ) :
    Exclusive initial { state with
      peerBitfields := peerBitfields
      peerChoked := peerChoked
      reassembly := reassembly
      heap := heap
      store := store } :=
  ⟨hinv.1, hinv.2, hinv.3, hinv.4, hinv.5, hinv.6⟩

theorem Settled.books (hsettled : Settled initial state) (peerBitfields : OrderedMap String ℕ)
    (peerChoked : OrderedMap String Bool) (heap : List Bitfield) :
    Settled initial { state with
      peerBitfields := peerBitfields
      peerChoked := peerChoked
      heap := heap } where
  wellFormed := hsettled.wellFormed.of_tasks rfl rfl rfl rfl rfl hsettled.wellFormed.tasks_ok
    hsettled.wellFormed.fetched
  fits := hsettled.fits
  exclusive := hsettled.exclusive.books peerBitfields peerChoked state.reassembly heap state.store
  calm := hsettled.calm

theorem Settled.scheduleNext (hsettled : Settled initial state) :
    Exclusive initial (scheduleNext env state).1 :=
  scheduleNext_exclusive hsettled.wellFormed hsettled.exclusive hsettled.calm

theorem Settled.scheduleIfRunning (hsettled : Settled initial state) :
    Exclusive initial (scheduleIfRunning env state).1 :=
  scheduleIfRunning_exclusive hsettled.wellFormed hsettled.exclusive hsettled.calm

/-- A released request is scheduled again: the chunk is acquired anew, and takes the slot that its
request had. -/
theorem Settled.reschedule (env : Env) (hsettled : Settled initial state) {chunkIndex : ℕ}
    {request : InFlightRequest} (hrequest : state.inFlight.get? chunkIndex = some request)
    (retries : ℕ) {calls : List Call} (hcalls : ∀ call ∈ calls, call.isCompletion = false) :
    Settled initial (scheduleChunk env chunkIndex retries
      ((release chunkIndex request.timer state).log calls)).1 := by
  obtain ⟨hwf, hfits, hinv, hcalm⟩ := hsettled
  obtain ⟨hmissing, hquiet, hidle⟩ := hinv.of_requested hrequest
  have hrange := hwf.inFlight_lt chunkIndex request hrequest
  have hfree : Free ((release chunkIndex request.timer state).log calls) chunkIndex :=
    ⟨hrange, hmissing, OrderedMap.get?_delete_self _ _, hidle⟩
  have hmoves : Moves env True {chunkIndex} ((release chunkIndex request.timer state).log calls)
      (scheduleChunk env chunkIndex retries
        ((release chunkIndex request.timer state).log calls)).1 :=
    scheduleChunk_moves env retries hrange hfree.notRequested fun _ ↦ hidle
  have hreleased : Exclusive initial ((release chunkIndex request.timer state).log calls) :=
    (hinv.release chunkIndex request.timer).log hcalls
  have hwfReleased : WellFormed ((release chunkIndex request.timer state).log calls) := by
    have h := hwf.release hrequest
    exact ⟨h.1, h.2, h.3, h.4, h.5⟩
  have hprogress := scheduleChunk_progress env chunkIndex retries
    (show FitsHeader ((release chunkIndex request.timer state).log calls).resourceId from hfits)
  have hquietAbout : Quiet {chunkIndex} ((release chunkIndex request.timer state).log calls) := by
    intro other hother _
    rw [Set.mem_singleton_iff.mp hother]
    exact hquiet
  refine ⟨hwfReleased.moves hmoves, ?_, (hreleased.moves hquietAbout hmoves).1,
    fun hrunning ↦ ?_⟩
  · rw [SchedulerState.resourceId, hmoves.unmoved.manifest]
    exact hfits
  · have hstill : state.isRunning = true := hmoves.unmoved.isRunning ▸ hrunning
    refine (hcalm hstill).imp (fun hnone ↦ NoneDelivered.moves hnone hmoves) fun hfull ↦ ?_
    have hslot : (state.inFlight.delete chunkIndex).size + 1 = state.inFlight.size :=
      OrderedMap.size_delete (OrderedMap.has_iff_exists.mpr ⟨request, hrequest⟩)
    have hbefore : ((release chunkIndex request.timer state).log calls).outstanding + 1 =
        state.outstanding := by
      change (state.inFlight.delete chunkIndex).size + state.originInFlight.card + 1 =
        state.inFlight.size + state.originInFlight.card
      omega
    have hafter := hmoves.outstanding_lt hfree (hprogress.2 hmissing)
    unfold Full at hfull ⊢
    omega

/-- The loop of `removePeer` finds every request as it was when the loop began. -/
theorem Settled.reassign_loop (env : Env) (hsettled : Settled initial state) (peerId : String) :
    Settled initial (Action.forEach (reassign env peerId) state.inFlight.entries state).1 := by
  refine reassign_loop_rel (R := Action.Keeps (Settled initial)) hsettled.wellFormed peerId
    (fun entry _ reached _ hentry hreached ↦ ?_) hsettled
  unfold reassign
  split_ifs
  · have hagain := hreached.reschedule env hentry (entry.2.retries + 1)
      (fun call hcall ↦ absurd hcall List.not_mem_nil)
    rwa [log_nil] at hagain
  · exact hreached

theorem removePeer_exclusive (hsettled : Settled initial state) (peerId : String) :
    Exclusive initial (removePeer env peerId state).1 := by
  have hbooks := hsettled.books (state.peerBitfields.delete peerId)
    (state.peerChoked.delete peerId) state.heap
  have hloop := hbooks.reassign_loop env peerId
  exact Action.andThen_establishes hloop.exclusive hloop.scheduleIfRunning

theorem handleTimeout_exclusive (hsettled : Settled initial state) {chunkIndex timer : ℕ}
    (htimer : state.timers.get? timer = some chunkIndex) :
    Exclusive initial (handleTimeout env chunkIndex timer state).1 := by
  obtain ⟨request, hrequest, rfl⟩ := (hsettled.wellFormed.timers_iff timer chunkIndex).mp htimer
  have hagain := hsettled.reschedule env hrequest (request.retries + 1)
    (show ∀ call ∈ [Call.onRetry chunkIndex request.peerId], call.isCompletion = false by
      simp [Call.isCompletion])
  simp only [handleTimeout, hrequest]
  exact Action.andThen_establishes hagain.exclusive hagain.scheduleNext

/-- A completed chunk leaves its slot for verification. -/
theorem handlePiece_exclusive (hinv : Exclusive initial state)
    (chunkIndex beginOffset totalLength : ℕ) (data : Bytes) :
    Exclusive initial (handlePiece env chunkIndex beginOffset totalLength data state).1 := by
  unfold handlePiece
  split
  · exact hinv
  next request hrequest =>
  simp only
  split_ifs
  · obtain ⟨hmissing, hquiet, hidle⟩ := hinv.of_requested hrequest
    have hreleased := hinv.release chunkIndex request.timer
    have hrequested : (state.inFlight.delete chunkIndex).has chunkIndex = false := by
      simp [OrderedMap.has_delete]
    unfold completePiece
    simp only
    split
    · exact hreleased
    · next assembled _ =>
      rcases verifyAndStoreChunk_cases chunkIndex assembled (pieceLatency env request)
        (release chunkIndex request.timer state) with ⟨expected, _, heq⟩ | ⟨_, message, heq⟩
      · simp only [heq]
        exact hreleased.enqueue hmissing hrequested hidle hquiet _
      · simp only [heq]
        have hreported := hreleased.log
          (show ∀ call ∈ [Call.onError message], call.isCompletion = false by
            simp [Call.isCompletion])
        exact hreported.enqueue hmissing hrequested hidle hquiet _
  · exact hinv.books state.peerBitfields state.peerChoked _ state.heap state.store

/-- A rejected task ends or is caught. -/
theorem reject_exclusive (hinv : Exclusive initial state) {index : ℕ} {task : Task}
    (htask : state.tasks[index]? = some task) (error : String) :
    Exclusive initial (reject index task error state) := by
  unfold reject
  split_ifs with hpath
  · exact hinv.settle htask hpath
  · exact hinv.advance htask (by simp [Stage.isAcquiring, Stage.isFetching, Stage.isAwaiting])
      fun h ↦ absurd h hpath

/-- Beginning a fetch and moving a task on commute. -/
theorem advance_beginFetch {index : ℕ} {task : Task} (htask : state.tasks[index]? = some task)
    (stage : Stage) (chunkIndex now : ℕ) :
    advance index task stage (state.beginFetch chunkIndex now) =
      (advance index task stage state).beginFetch chunkIndex now := by
  obtain ⟨hindex, _⟩ := List.getElem?_eq_some_iff.mp htask
  simp only [advance, SchedulerState.beginFetch, List.set_append_left _ _ hindex]

/-- A task whose bytes are corrupt has nothing more to do, and its chunk may be fetched. -/
theorem refuse_exclusive (hinv : Exclusive initial state) {index : ℕ} {task : Task}
    (htask : state.tasks[index]? = some task) (hstage : task.stage.isAcquiring = true) :
    Exclusive initial (advance index task .returned
      (dispatchOriginFallback env task.chunkIndex state).1) := by
  have hreturned := hinv.advance htask
    (show Stage.returned.isAcquiring = true → task.stage.isAcquiring = true from fun _ ↦ hstage)
    fun _ h ↦ absurd h (by simp [Stage.isAwaiting])
  unfold dispatchOriginFallback
  split_ifs with hidle
  · exact hreturned
  · rw [not_or, Bool.not_eq_true] at hidle
    simp only
    rw [advance_beginFetch htask]
    have hin : task ∈ state.tasks := (mem_tasks_iff htask task).mpr (Or.inl rfl)
    have hpos := countTasks_pos (fun task ↦ task.stage.isAcquiring) hin hstage
    have hsingle := hinv.single task.chunkIndex
    have hset := countTasks_set (fun task ↦ task.stage.isAcquiring) task.chunkIndex htask
      { task with stage := .returned }
    have hold : indicator (fun task ↦ task.stage.isAcquiring) task.chunkIndex task = 1 := by
      simp [indicator, hstage]
    have hnew : indicator (fun task ↦ task.stage.isAcquiring) task.chunkIndex
        { task with stage := .returned } = 0 := by
      simp [indicator, Stage.isAcquiring, Stage.isFetching, Stage.isAwaiting]
    rw [acquisitions] at hsingle
    refine hreturned.beginFetch hidle.1 ?_ hidle.2 ?_ _
    · refine Bool.eq_false_iff.mpr fun hrequested ↦ ?_
      change state.inFlight.has task.chunkIndex = true at hrequested
      rw [hrequested, Bool.toNat_true] at hsingle
      omega
    · change countTasks _ _ (state.tasks.set index _) = 0
      omega

/-- The end of a task runs the loop on the books without it. -/
theorem finish_exclusive (hwf : WellFormed state) (hinv : Exclusive initial state) {index : ℕ}
    {task : Task} (htask : state.tasks[index]? = some task)
    (hcalm : state.isRunning = true → NoneDelivered state ∨
      maxTotalInFlight + (if task.fromP2P then 0 else 1) ≤ state.outstanding) :
    Exclusive initial (finish env index task state) := by
  have hrest : ∀ other ∈ state.tasks.eraseIdx index, other ∈ state.tasks := fun other hother ↦
    (mem_tasks_iff htask other).mpr (Or.inr hother)
  unfold finish
  simp only
  split_ifs with hpath
  · refine scheduleIfRunning_exclusive ?_ (hinv.settle htask hpath) fun hrunning ↦ ?_
    · exact hwf.settle htask (Finset.Subset.refl _) fun hnot ↦ by simp [hpath] at hnot
    · rw [if_pos hpath] at hcalm
      exact (hcalm hrunning).imp (fun hnone other hother ↦ hnone other (hrest other hother)) id
  · rw [Bool.not_eq_true] at hpath
    refine scheduleIfRunning_exclusive ?_ (hinv.finish htask hpath) fun hrunning ↦ ?_
    · exact hwf.settle htask (Finset.erase_subset _ _) fun _ ↦ Finset.notMem_erase _ _
    · rw [if_neg (by simp [hpath])] at hcalm
      refine (hcalm hrunning).imp (fun hnone other hother ↦ hnone other (hrest other hother)) ?_
      intro hfull
      have hcard := Finset.pred_card_le_card_erase (s := state.originInFlight)
        (a := task.chunkIndex)
      change maxTotalInFlight ≤ state.inFlight.size +
        (state.originInFlight.erase task.chunkIndex).card
      rw [SchedulerState.outstanding] at hfull
      omega

/-- The loop looks for chunks only while no chunk delivered by a peer awaits verification or
storage: whenever an event runs it on a running scheduler, nothing delivered awaits or no slot is
free. A scheduler is started again only when no task of its former run is left. -/
def SchedulesSettled (state : SchedulerState σ) : SchedulerEvent → Prop
  | .start => state.isRunning = true ∨ state.tasks = []
  | .updatePeerBitfield _ _ | .removePeer _ | .scheduleNext => Calm state
  | .updatePeerHave peerId chunkIndex =>
    let located := peerBitfield peerId state
    chunkIndex < (located.1.bitfieldAt located.2).totalChunks → Calm state
  | .setPeerChoked _ choked => choked = false → Calm state
  | .timeout timer => state.timers.has timer = true → Calm state
  | .settled index .resumed => ∀ task, state.tasks[index]? = some task → task.stage = .returned →
    state.isRunning = true → NoneDelivered state ∨
      maxTotalInFlight + (if task.fromP2P then 0 else 1) ≤ state.outstanding
  | _ => True

theorem continueTask_exclusive (hwf : WellFormed state) (hfits : FitsHeader state.resourceId)
    (hinv : Exclusive initial state) {index : ℕ} {task : Task}
    (htask : state.tasks[index]? = some task) (settlement : Settlement)
    (hsettles : SchedulesSettled state (.settled index settlement)) :
    Exclusive initial (continueTask digest chunkStore env index task settlement state) := by
  have hok := hwf.tasks_ok task ((mem_tasks_iff htask task).mpr (Or.inl rfl))
  have htransition := continueTask_transition digest chunkStore env index task settlement state
  generalize continueTask digest chunkStore env index task settlement state = next
    at htransition ⊢
  cases htransition with
  | ignored => exact hinv
  | fetched fetchStart data hstage =>
    have horigin : task.fromP2P = true → False := fun hpath ↦ by
      have h := hok.onPath hpath
      rw [hstage] at h
      exact h
    rcases verifyAndStoreChunk_cases task.chunkIndex data (latencySince env fetchStart) state with
      ⟨expected, _, heq⟩ | ⟨_, message, heq⟩
    · rw [heq]
      exact hinv.advance htask (by simp [hstage, Stage.isAcquiring, Stage.isFetching])
        fun hpath ↦ (horigin hpath).elim
    · rw [heq]
      exact (hinv.log (by simp [Call.isCompletion])).advance htask
        (by simp [Stage.isAcquiring, Stage.isFetching, Stage.isAwaiting])
        fun hpath ↦ (horigin hpath).elim
  | fetchFailed =>
    exact hinv.advance htask (by simp [Stage.isAcquiring, Stage.isFetching, Stage.isAwaiting])
      (by simp [Stage.isAwaiting])
  | verified expected data latencyMs hstage =>
    unfold afterVerify
    simp only
    split_ifs
    · exact refuse_exclusive (hinv.log (by simp [corruptionCalls, Call.isCompletion])) htask
        (by simp [hstage, Stage.isAcquiring, Stage.isAwaiting])
    · exact (hinv.log (by simp [Call.isCompletion])).advance htask
        (by simp [hstage, Stage.isAcquiring, Stage.isAwaiting])
        (by simp [hstage, Stage.isAwaiting])
  | verifyFailed _ _ _ error | putFailed _ _ _ error => exact reject_exclusive hinv htask error
  | written data latencyMs hstage =>
    exact (hinv.books state.peerBitfields state.peerChoked state.reassembly state.heap
      (chunkStore.put state.store state.resourceId task.chunkIndex data)).advance htask
        (by simp [hstage, Stage.isAcquiring, Stage.isAwaiting])
      (by simp [hstage, Stage.isAwaiting])
  | putDone data latencyMs hstage =>
    obtain ⟨bitfield, haveMsg, hset, -, heq⟩ :=
      afterPut_completes hok.inRange hfits task.fromP2P data latencyMs
    rw [heq]
    exact hinv.complete htask (by simp [hstage, Stage.isAcquiring, Stage.isAwaiting]) hset _ _ _ _
  | caught =>
    exact (hinv.log (by simp [Call.isCompletion])).advance htask
      (by simp [Stage.isAcquiring, Stage.isFetching, Stage.isAwaiting]) (by simp [Stage.isAwaiting])
  | finished hstage => exact finish_exclusive hwf hinv htask (hsettles task htask hstage)

/-- Starting on empty books marks nothing. -/
theorem start_exclusive (hwf : WellFormed state) (hinv : Exclusive initial state)
    (hsettles : SchedulesSettled state .start) : Exclusive initial (start env state).1 := by
  unfold start
  split_ifs with hrunning
  · exact hinv
  · have htasks := hsettles.resolve_left hrunning
    have hidle : ∀ chunkIndex, chunkIndex ∉ state.originInFlight := fun chunkIndex hmem ↦ by
      obtain ⟨task, hin, _⟩ := hwf.fetched chunkIndex hmem
      rw [htasks] at hin
      exact absurd hin List.not_mem_nil
    have hstarted : Exclusive initial { state with isRunning := true } := by
      refine ⟨hinv.single, fun _ chunkIndex ↦ ?_, hinv.apart, hinv.delivered, hinv.completed,
        hinv.count⟩
      rw [decide_eq_false (hidle chunkIndex)]
      change originTasks chunkIndex state.tasks = 0
      rw [htasks]
      rfl
    refine scheduleNext_exclusive (hwf.of_tasks rfl rfl rfl rfl rfl hwf.tasks_ok hwf.fetched)
      hstarted fun _ ↦ Or.inl fun task hmem ↦ ?_
    change task ∈ state.tasks at hmem
    rw [htasks] at hmem
    exact absurd hmem List.not_mem_nil

theorem updatePeerHave_exclusive (hwf : WellFormed state) (hfits : FitsHeader state.resourceId)
    (hinv : Exclusive initial state) (peerId : String) (chunkIndex : ℕ)
    (hsettles : SchedulesSettled state (.updatePeerHave peerId chunkIndex)) :
    Exclusive initial (updatePeerHave env peerId chunkIndex state).1 := by
  have hlocated : ∃ peerBitfields heap, (peerBitfield peerId state).1 =
      { state with peerBitfields := peerBitfields, heap := heap } := by
    unfold peerBitfield
    split
    · exact ⟨state.peerBitfields, state.heap, rfl⟩
    · exact ⟨_, _, rfl⟩
  obtain ⟨peerBitfields, heap, heq⟩ := hlocated
  unfold updatePeerHave
  simp only
  split
  · rw [heq]
    exact hinv.books peerBitfields state.peerChoked state.reassembly heap state.store
  · next bitfield hset =>
    have hcalm := hsettles (Bitfield.set_isOk_iff.mp ⟨bitfield, hset⟩)
    rw [heq]
    exact (Settled.books ⟨hwf, hfits, hinv, hcalm⟩ peerBitfields state.peerChoked
      _).scheduleIfRunning

/-- Every event that schedules settled keeps the invariant. -/
theorem perform_exclusive (hwf : WellFormed state) (hfits : FitsHeader state.resourceId)
    (hinv : Exclusive initial state) (event : SchedulerEvent)
    (hsettles : SchedulesSettled state event) :
    Exclusive initial (perform digest chunkStore env event state).1 := by
  cases event with
  | start => exact start_exclusive hwf hinv hsettles
  | stop => exact hinv.stop
  | updatePeerBitfield peerId address =>
    exact (Settled.books ⟨hwf, hfits, hinv, hsettles⟩ _ _ state.heap).scheduleIfRunning
  | updatePeerHave peerId chunkIndex =>
    exact updatePeerHave_exclusive hwf hfits hinv peerId chunkIndex hsettles
  | setPeerChoked peerId choked =>
    change Exclusive initial (setPeerChoked env peerId choked state).1
    unfold setPeerChoked
    simp only
    split_ifs with hchoked
    · exact hinv.books state.peerBitfields _ state.reassembly state.heap state.store
    · exact (Settled.books ⟨hwf, hfits, hinv, hsettles (by simpa using hchoked)⟩
        state.peerBitfields _ state.heap).scheduleIfRunning
  | removePeer peerId => exact removePeer_exclusive ⟨hwf, hfits, hinv, hsettles⟩ peerId
  | scheduleNext => exact scheduleNext_exclusive hwf hinv hsettles
  | handlePiece chunkIndex beginOffset totalLength data =>
    exact handlePiece_exclusive hinv chunkIndex beginOffset totalLength data
  | timeout timer =>
    simp only [perform]
    split
    · next chunkIndex htimer =>
      have hcalm := hsettles (OrderedMap.has_iff_exists.mpr ⟨chunkIndex, htimer⟩)
      exact handleTimeout_exclusive ⟨hwf, hfits, hinv, hcalm⟩ htimer
    · exact hinv
  | settled index settlement =>
    simp only [perform]
    split
    · next task htask => exact continueTask_exclusive hwf hfits hinv htask settlement hsettles
    · exact hinv
  | shared heap =>
    exact hinv.books state.peerBitfields state.peerChoked state.reassembly heap state.store

end Events

/-- **Single acquisition.** In every run of a new scheduler for a resource whose id fits the frames,
in which the loop looks for chunks only while nothing delivered awaits: every chunk is in at most
one situation, its completion is reported at most once, and there are as many reports as chunks
marked since construction. -/
theorem singleAcquisition_of_schedulesSettled (digest : Bytes → Bytes) (chunkStore : IChunkStore σ)
    (manifest : ResourceManifest) (localBitfield : Bitfield) (heap : List Bitfield) (store : σ)
    (hfits : FitsHeader manifest.resourceId) (inputs : List SchedulerInput)
    (hsettles : Along (schedulerStep digest chunkStore)
      (fun state input ↦ SchedulesSettled state input.2)
      (SchedulerState.new manifest localBitfield heap store) inputs) :
    SingleAcquisition localBitfield
      (schedulerRun digest chunkStore manifest localBitfield heap store inputs) := by
  have hinit : WellFormed (SchedulerState.new manifest localBitfield heap store) ∧
      FitsHeader (SchedulerState.new manifest localBitfield heap store).resourceId ∧
      Exclusive localBitfield (SchedulerState.new manifest localBitfield heap store) :=
    ⟨wellFormed_new manifest localBitfield heap store, hfits,
      Exclusive.new manifest localBitfield heap store⟩
  have hrun := run_invariant
    (fun state : SchedulerState σ ↦ WellFormed state ∧ FitsHeader state.resourceId ∧
      Exclusive localBitfield state)
    (fun state input hinv hallowed ↦ ?_) hinit hsettles
  · exact hrun.2.2.singleAcquisition hrun.1
  · obtain ⟨hwf, hmanifest⟩ := schedulerStep_wellFormed hinv.1 input
    refine ⟨hwf, ?_, perform_exclusive hinv.1 hinv.2.1 hinv.2.2 input.2 hallowed⟩
    rw [SchedulerState.resourceId, hmanifest]
    exact hinv.2.1

/-- While the first copy of the one chunk awaits verification, a HAVE of its peer requests it again,
and the second copy is delivered, verified and stored like the first. -/
def duplicatedRun : List SchedulerInput :=
  [(calmEnv, .updatePeerBitfield "peer" 0), (calmEnv, .start), (calmEnv, .handlePiece 0 0 1 [7]),
    (calmEnv, .updatePeerHave "peer" 0), (calmEnv, .handlePiece 0 0 1 [7]),
    (calmEnv, .settled 0 .verified), (calmEnv, .settled 0 .written), (calmEnv, .settled 0 .putDone),
    (calmEnv, .settled 1 .verified), (calmEnv, .settled 1 .written), (calmEnv, .settled 1 .putDone)]

/-- After the HAVE the chunk is requested while it awaits verification, and in the end its
completion is reported twice. -/
theorem duplicatedRun_acquires_twice :
    ¬ SingleAcquisition (Bitfield.new 1) (schedulerRun id MemoryChunkStore oneChunkManifest
        (Bitfield.new 1) [oneChunkBitfield] OrderedMap.empty (duplicatedRun.take 4)) ∧
      ¬ SingleAcquisition (Bitfield.new 1) (schedulerRun id MemoryChunkStore oneChunkManifest
        (Bitfield.new 1) [oneChunkBitfield] OrderedMap.empty duplicatedRun) := by
  refine ⟨fun hsingle ↦ absurd (hsingle.situation 0) ?_, fun hsingle ↦ absurd (hsingle.once 0) ?_⟩
  · decide +kernel
  · decide +kernel

/-- The one chunk is stored before anything else schedules. -/
theorem singleAcquisition_of_schedulesSettled_stored :
    SingleAcquisition (Bitfield.new 1) (schedulerRun id MemoryChunkStore oneChunkManifest
      (Bitfield.new 1) [oneChunkBitfield] OrderedMap.empty
      [(calmEnv, .updatePeerBitfield "peer" 0), (calmEnv, .start),
        (calmEnv, .handlePiece 0 0 1 [7]), (calmEnv, .settled 0 .verified),
        (calmEnv, .settled 0 .written), (calmEnv, .settled 0 .putDone),
        (calmEnv, .settled 0 .resumed)]) := by
  refine singleAcquisition_of_schedulesSettled id MemoryChunkStore oneChunkManifest
    (Bitfield.new 1) [oneChunkBitfield] OrderedMap.empty (by decide) _
    ⟨fun hrunning ↦ absurd hrunning (by decide), Or.inr rfl, trivial, trivial, trivial, trivial,
      fun _ _ _ _ ↦ Or.inl ?_, trivial⟩
  unfold NoneDelivered
  decide +kernel

end CampusMesh.Web
