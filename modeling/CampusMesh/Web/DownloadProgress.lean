import CampusMesh.Web.RemainingWork
import CampusMesh.Web.SchedulerBitfields
import CampusMesh.Web.SchedulerProgress

/-!
# Downloads come to their end

What a running download can wait for is a request timer or a pending continuation. Such an event
makes progress when it brings what a sound origin, check and store give; the completion of a chunk
out of a peer's blocks, whose bytes nobody has checked yet, and every failure are setbacks
(`progresses`, `setsBack`). All other events, among them everything that peers announce, are
neither.

Progress lowers the remaining work and a setback raises it by no more than a constant
(`remainingWork_perform_le`). So in a run without `stop` the progress is bounded by the chunks
missing at the start and the setbacks on the way, whatever the peers do and in whatever order
promises settle; and since something is always due, every such run can be brought to a complete
download (`download_finishes`).
-/

set_option autoImplicit false
set_option relaxedAutoImplicit false

namespace CampusMesh.Web

open Library Shared SchedulerState Relation

variable {σ : Type}

/-! ### Progress and setbacks -/

/-- The bytes pass the check against the hash that the manifest expects of the chunk. -/
def passes (digest : Bytes → Bytes) (manifest : ResourceManifest) (chunkIndex : ℕ) (data : Bytes) :
    Bool :=
  match expectedHash manifest chunkIndex with
  | some expected => (verify digest data expected).valid
  | none => false

/-- What a sound origin, check or store reports. -/
def Settlement.sound (digest : Bytes → Bytes) (manifest : ResourceManifest) (chunkIndex : ℕ) :
    Settlement → Bool
  | .fetched data => passes digest manifest chunkIndex data
  | .fetchFailed _ | .verifyFailed _ | .putFailed _ => false
  | .verified | .written | .putDone | .resumed => true

/-- A timer that is armed fires, or a task goes on with a sound report that it waits for. -/
def progresses (digest : Bytes → Bytes) (state : SchedulerState σ) : SchedulerEvent → Bool
  | .timeout timer => state.timers.has timer
  | .settled index settlement =>
    match state.tasks[index]? with
    | some task => task.stage.awaits settlement &&
        settlement.sound digest state.manifest task.chunkIndex
    | none => false
  | _ => false

/-- A peer's block completes a chunk, or a task goes on with a report that is not sound. -/
def setsBack (digest : Bytes → Bytes) (state : SchedulerState σ) : SchedulerEvent → Bool
  | .handlePiece chunkIndex beginOffset totalLength data =>
    let item := receive chunkIndex beginOffset totalLength data state
    state.inFlight.has chunkIndex && decide (item.totalLength ≤ item.receivedBytes)
  | .settled index settlement =>
    match state.tasks[index]? with
    | some task => task.stage.awaits settlement &&
        !settlement.sound digest state.manifest task.chunkIndex
    | none => false
  | _ => false

/-- What a setback adds to the remaining work at most. -/
def setbackWork : ℕ := 12

section Tasks

variable (digest : Bytes → Bytes) {state : SchedulerState σ} {index : ℕ} {task : Task}

theorem passes_of_expected {manifest : ResourceManifest} {chunkIndex : ℕ} {data : Bytes}
    {expected : String} (hexpected : expectedHash manifest chunkIndex = some expected) :
    passes digest manifest chunkIndex data = (verify digest data expected).valid := by
  rw [passes, hexpected]

/-- A task that moves on changes the remaining work by its own. -/
theorem remainingWork_advance (htask : state.tasks[index]? = some task) (stage : Stage) :
    remainingWork digest (advance index task stage state) +
        taskWork digest state.localBitfield task =
      remainingWork digest state +
        taskWork digest state.localBitfield { task with stage := stage } := by
  have hbefore := ((perm_of_getElem? htask).map (taskWork digest state.localBitfield)).sum_eq
  have hafter := ((perm_set_of_getElem? htask { task with stage := stage }).map
    (taskWork digest state.localBitfield)).sum_eq
  rw [List.map_cons, List.sum_cons] at hbefore hafter
  have hbooks : ∑ chunkIndex ∈ Finset.range state.localBitfield.totalChunks,
      chunkWork (advance index task stage state) chunkIndex =
        ∑ chunkIndex ∈ Finset.range state.localBitfield.totalChunks,
          chunkWork state chunkIndex := rfl
  simp only [remainingWork, tasksWork, advance] at hbooks ⊢
  omega

theorem remainingWork_settle (htask : state.tasks[index]? = some task) :
    remainingWork digest (settle index state) + taskWork digest state.localBitfield task =
      remainingWork digest state := by
  have hbefore := ((perm_of_getElem? htask).map (taskWork digest state.localBitfield)).sum_eq
  rw [List.map_cons, List.sum_cons] at hbefore
  have hbooks : ∑ chunkIndex ∈ Finset.range state.localBitfield.totalChunks,
      chunkWork (settle index state) chunkIndex =
        ∑ chunkIndex ∈ Finset.range state.localBitfield.totalChunks,
          chunkWork state chunkIndex := rfl
  simp only [remainingWork, tasksWork, settle] at hbooks ⊢
  omega

theorem remainingWork_enqueue (task : Task) :
    remainingWork digest (enqueue task state) =
      remainingWork digest state + taskWork digest state.localBitfield task := by
  have hbooks : ∑ chunkIndex ∈ Finset.range state.localBitfield.totalChunks,
      chunkWork (enqueue task state) chunkIndex =
        ∑ chunkIndex ∈ Finset.range state.localBitfield.totalChunks,
          chunkWork state chunkIndex := rfl
  simp only [remainingWork, tasksWork, enqueue, List.map_append, List.sum_append, List.map_cons,
    List.map_nil, List.sum_cons, List.sum_nil] at hbooks ⊢
  omega

/-- A chunk that gets its mark leaves nothing to do but what is under way. -/
theorem taskWork_mark_le {before after : Bitfield}
    (hkeeps : ∀ chunkIndex, before.has chunkIndex = true → after.has chunkIndex = true)
    (task : Task) : taskWork digest after task ≤ taskWork digest before task := by
  have hreopened : reopenedWork after task ≤ reopenedWork before task := by
    unfold reopenedWork
    split_ifs with hafter hbefore
    · exact le_rfl
    · refine absurd ⟨hafter.1, ?_⟩ hbefore
      by_contra hhas
      rw [hkeeps task.chunkIndex (by simpa using hhas)] at hafter
      exact absurd hafter.2 (by simp)
    · exact Nat.zero_le _
    · exact le_rfl
  unfold taskWork
  split
  · exact le_rfl
  · split_ifs
    · exact le_rfl
    · exact Nat.add_le_add_left hreopened 7
  · exact le_rfl
  · exact le_rfl
  · exact Nat.add_le_add_left hreopened 2
  · exact Nat.add_le_add_left hreopened 1

theorem chunkWork_mark_le {next : SchedulerState σ} {chunkIndex : ℕ}
    (hinFlight : next.inFlight = state.inFlight)
    (horigin : next.originInFlight = state.originInFlight)
    (hkeeps : state.localBitfield.has chunkIndex = true →
      next.localBitfield.has chunkIndex = true) :
    chunkWork next chunkIndex ≤ chunkWork state chunkIndex := by
  unfold chunkWork
  rw [hinFlight, horigin]
  split
  · exact le_rfl
  · split_ifs with hafter hbefore
    · exact le_rfl
    · refine absurd ⟨?_, hafter.2⟩ hbefore
      by_contra hhas
      rw [hkeeps (by simpa using hhas)] at hafter
      exact absurd hafter.1 (by simp)
    · exact Nat.zero_le _
    · exact le_rfl

theorem remainingWork_mark_le {bitfield : Bitfield} {chunkIndex : ℕ}
    (hset : state.localBitfield.set chunkIndex = .ok bitfield) :
    remainingWork digest ({ state with localBitfield := bitfield } : SchedulerState σ) ≤
      remainingWork digest state := by
  have hkeeps : ∀ other, state.localBitfield.has other = true → bitfield.has other = true := by
    intro other hhas
    rw [Bitfield.has_of_set hset, hhas, Bool.or_true]
  have htasks : tasksWork digest bitfield state.tasks ≤
      tasksWork digest state.localBitfield state.tasks :=
    List.sum_le_sum fun task _ ↦ taskWork_mark_le digest hkeeps task
  simp only [remainingWork, Bitfield.totalChunks_of_set hset]
  exact Nat.add_le_add
    (Finset.sum_le_sum fun other _ ↦ chunkWork_mark_le rfl rfl (hkeeps other)) htasks

/-- The mark of an origin fetch goes. -/
def unmark (chunkIndex : ℕ) (state : SchedulerState σ) : SchedulerState σ :=
  { state with originInFlight := state.originInFlight.erase chunkIndex }

/-- When an origin fetch loses its mark, its chunk may be free again. -/
theorem chunkWork_unmark_le (hpath : task.fromP2P = false) :
    chunkWork (unmark task.chunkIndex state) task.chunkIndex ≤
      chunkWork state task.chunkIndex + reopenedWork state.localBitfield task := by
  unfold chunkWork reopenedWork unmark
  simp only [hpath, true_and]
  split
  · exact Nat.le_add_right _ _
  · split_ifs with hafter hbefore hmissing hmissing
    · exact Nat.le_add_right _ _
    · exact absurd hbefore.1 hmissing
    · exact Nat.le_add_left _ _
    · exact absurd hafter.1 hmissing
    all_goals exact Nat.zero_le _

theorem remainingWork_unmark_le (hrange : task.chunkIndex < state.localBitfield.totalChunks)
    (hpath : task.fromP2P = false) :
    remainingWork digest (unmark task.chunkIndex state) ≤
      remainingWork digest state + reopenedWork state.localBitfield task := by
  have htouched := remainingWork_touched digest (unmark task.chunkIndex state) hrange rfl
    (fun _ _ ↦ rfl) (fun other hother ↦ by simp [unmark, Finset.mem_erase, hother])
  have hunmarked : chunkWork (unmark task.chunkIndex state) task.chunkIndex ≤
      chunkWork state task.chunkIndex + reopenedWork state.localBitfield task :=
    chunkWork_unmark_le hpath
  have htasks : (unmark task.chunkIndex state).tasks = state.tasks := rfl
  rw [htasks] at htouched
  omega

end Tasks

/-! ### Events -/

section Events

variable (digest : Bytes → Bytes) {chunkStore : IChunkStore σ} {env : Env}
  {state : SchedulerState σ} {index : ℕ} {task : Task}

theorem remainingWork_scheduleIfRunning_le (state : SchedulerState σ) :
    remainingWork digest (scheduleIfRunning env state).1 ≤ remainingWork digest state :=
  remainingWork_moves digest (scheduleIfRunning_moves env state)

/-- A task that is rejected may leave its chunk to be fetched again. -/
theorem remainingWork_reject_le (htask : state.tasks[index]? = some task) (error : String) :
    remainingWork digest (reject index task error state) ≤
      remainingWork digest state + setbackWork := by
  unfold reject
  split_ifs
  · have hsettled := remainingWork_settle digest htask
    omega
  · have hadvanced := remainingWork_advance digest htask (.rejected error)
    have hreopened := reopenedWork_le state.localBitfield { task with stage := .rejected error }
    have hwork : taskWork digest state.localBitfield { task with stage := .rejected error } =
      2 + reopenedWork state.localBitfield { task with stage := .rejected error } := rfl
    rw [freeWork] at hreopened
    rw [setbackWork]
    omega

/-- The blocks of a chunk are complete: its request makes place for the check of its bytes. -/
theorem remainingWork_completePiece_le (hwf : WellFormed state) {chunkIndex : ℕ}
    {request : InFlightRequest} (hrequest : state.inFlight.get? chunkIndex = some request)
    (item : ChunkReassembly) :
    remainingWork digest (completePiece env chunkIndex request item state).1 ≤
      remainingWork digest state + setbackWork := by
  have hreleased := remainingWork_release digest hrequest
    (hwf.inFlight_lt chunkIndex request hrequest) request.timer
  have hfree : chunkWork (release chunkIndex request.timer state) chunkIndex ≤ freeWork :=
    chunkWork_release_le request.timer
  have hrequestWork := six_le_requestWork request.retries
  unfold completePiece
  rw [freeWork] at hfree
  rw [setbackWork]
  simp only
  split
  · simp only
    omega
  · next data _ =>
    rcases verifyAndStoreChunk_cases chunkIndex data (pieceLatency env request)
      (release chunkIndex request.timer state) with ⟨expected, _, heq⟩ | ⟨_, message, heq⟩
    · have hwork : taskWork digest (release chunkIndex request.timer state).localBitfield
          ⟨chunkIndex, true, .verifying expected data (pieceLatency env request)⟩ ≤ 7 := by
        unfold taskWork reopenedWork
        simp only [Bool.true_eq_false, false_and, if_false]
        split_ifs <;> omega
      rw [heq]
      simp only [remainingWork_enqueue]
      omega
    · have hwork : taskWork digest ((release chunkIndex request.timer state).log
          [.onError message]).localBitfield ⟨chunkIndex, true, .returned⟩ = 1 := rfl
      rw [heq]
      simp only [remainingWork_enqueue, remainingWork_log, hwork]
      omega

/-- The end of a task takes it off the list, and its chunk may be free again. -/
theorem remainingWork_finish_lt (hwf : WellFormed state) (htask : state.tasks[index]? = some task)
    (hstage : task.stage = .returned) :
    remainingWork digest (finish env index task state) < remainingWork digest state := by
  have hsettled := remainingWork_settle digest htask
  have hwork : taskWork digest state.localBitfield task =
      1 + reopenedWork state.localBitfield task := by
    rw [taskWork, hstage]
  unfold finish
  simp only
  split_ifs with hpath
  · have hloop : remainingWork digest (scheduleIfRunning env (settle index state)).1 ≤
        remainingWork digest (settle index state) := remainingWork_scheduleIfRunning_le digest _
    omega
  · have hok := hwf.tasks_ok task ((mem_tasks_iff htask task).mpr (Or.inl rfl))
    have hrange : task.chunkIndex < (settle index state).localBitfield.totalChunks := hok.inRange
    have hunmarked := remainingWork_unmark_le digest hrange (by simpa using hpath)
    refine (remainingWork_scheduleIfRunning_le digest (unmark task.chunkIndex
      (settle index state))).trans_lt ?_
    have hsame : (settle index state).localBitfield = state.localBitfield := rfl
    rw [hsame] at hunmarked
    omega

/-- The check of a task's bytes is done. -/
theorem remainingWork_afterVerify_lt (hwf : WellFormed state)
    (htask : state.tasks[index]? = some task) {expected : String} {data : Bytes} {latencyMs : ℕ}
    (hstage : task.stage = .verifying expected data latencyMs) :
    remainingWork digest (advance index task
        (afterVerify digest env task.chunkIndex expected data latencyMs state).2
        (afterVerify digest env task.chunkIndex expected data latencyMs state).1) <
      remainingWork digest state := by
  have hok := hwf.tasks_ok task ((mem_tasks_iff htask task).mpr (Or.inl rfl))
  unfold afterVerify
  simp only
  split_ifs with hvalid
  · set logged := state.log (corruptionCalls task.chunkIndex expected
      (verify digest data expected).actualHash) with hlogged
    have hfallback : remainingWork digest (dispatchOriginFallback env task.chunkIndex logged).1 ≤
        remainingWork digest state + 5 := by
      rw [← remainingWork_log digest (corruptionCalls task.chunkIndex expected
        (verify digest data expected).actualHash)]
      exact remainingWork_dispatchOriginFallback_le digest hok.inRange
    have hlogged : logged.tasks[index]? = some task := htask
    have hkept : (dispatchOriginFallback env task.chunkIndex logged).1.tasks[index]? = some task :=
      (dispatchOriginFallback_keeps task.chunkIndex hlogged).1
    have hbitfield : (dispatchOriginFallback env task.chunkIndex logged).1.localBitfield =
        state.localBitfield := (dispatchOriginFallback_keeps task.chunkIndex hlogged).2.2
    have hadvanced := remainingWork_advance digest hkept .returned
    have hbefore : taskWork digest state.localBitfield task =
        7 + reopenedWork state.localBitfield task := by
      rw [taskWork, hstage]
      exact if_neg (by simpa using hvalid)
    have hafter : taskWork digest state.localBitfield { task with stage := .returned } =
        1 + reopenedWork state.localBitfield task := rfl
    rw [hbitfield, hbefore, hafter] at hadvanced
    change remainingWork digest (advance index task .returned
      (dispatchOriginFallback env task.chunkIndex logged).1) < _
    omega
  · have hadvanced := remainingWork_advance digest (show (state.log
      [.put state.resourceId task.chunkIndex data]).tasks[index]? = some task from htask)
      (.putting data latencyMs false)
    have hbefore : taskWork digest state.localBitfield task = 4 := by
      rw [taskWork, hstage]
      exact if_pos (by simpa using hvalid)
    have hafter : taskWork digest state.localBitfield
        { task with stage := .putting data latencyMs false } = 3 := rfl
    have hsame : (state.log [.put state.resourceId task.chunkIndex data]).localBitfield =
        state.localBitfield := rfl
    rw [hsame, hbefore, hafter, remainingWork_log] at hadvanced
    change remainingWork digest (advance index task (.putting data latencyMs false)
      (state.log [.put state.resourceId task.chunkIndex data])) < _
    omega

/-- Bytes have come from the origin. -/
theorem remainingWork_fetched_le (htask : state.tasks[index]? = some task) {fetchStart : ℕ}
    (hstage : task.stage = .fetching fetchStart) (data : Bytes) (latencyMs : ℕ) :
    (passes digest state.manifest task.chunkIndex data).toNat +
        remainingWork digest (advance index task
          (verifyAndStoreChunk task.chunkIndex data latencyMs state).2
          (verifyAndStoreChunk task.chunkIndex data latencyMs state).1) ≤
      remainingWork digest state +
        setbackWork * (!passes digest state.manifest task.chunkIndex data).toNat := by
  have hbefore : taskWork digest state.localBitfield task = 5 := by rw [taskWork, hstage]
  have hreopened : ∀ stage, reopenedWork state.localBitfield { task with stage := stage } ≤ 10 :=
    fun stage ↦ reopenedWork_le _ _
  rcases verifyAndStoreChunk_cases task.chunkIndex data latencyMs state with
    ⟨expected, hexpected, heq⟩ | ⟨hexpected, message, heq⟩
  · have hadvanced := remainingWork_advance digest htask (.verifying expected data latencyMs)
    have hafter : taskWork digest state.localBitfield
        { task with stage := .verifying expected data latencyMs } =
          if (verify digest data expected).valid then 4
          else 7 + reopenedWork state.localBitfield
            { task with stage := .verifying expected data latencyMs } := rfl
    rw [heq, passes_of_expected digest hexpected]
    rw [hbefore, hafter] at hadvanced
    cases hvalid : (verify digest data expected).valid with
    | true =>
      rw [hvalid, if_pos rfl] at hadvanced
      simp only [Bool.toNat_true, Bool.not_true, Bool.toNat_false]
      omega
    | false =>
      have hbound := hreopened (.verifying expected data latencyMs)
      rw [hvalid, if_neg (by simp)] at hadvanced
      simp only [Bool.toNat_false, Bool.not_false, Bool.toNat_true, setbackWork]
      omega
  · have hadvanced := remainingWork_advance digest
      (show (state.log [.onError message]).tasks[index]? = some task from htask) .returned
    have hafter : taskWork digest state.localBitfield { task with stage := .returned } =
        1 + reopenedWork state.localBitfield { task with stage := .returned } := rfl
    have hbound := hreopened .returned
    have hsame : (state.log [.onError message]).localBitfield = state.localBitfield := rfl
    have hrefused : passes digest state.manifest task.chunkIndex data = false := by
      rw [passes, hexpected]
    rw [heq, hrefused]
    rw [hsame, hbefore, hafter, remainingWork_log] at hadvanced
    simp only [Bool.toNat_false, Bool.not_false, Bool.toNat_true, setbackWork]
    omega

/-- A chunk is stored: it gets its mark. -/
theorem remainingWork_afterPut_lt (hwf : WellFormed state) (hfits : FitsHeader state.resourceId)
    (htask : state.tasks[index]? = some task) {data : Bytes} {latencyMs : ℕ}
    (hstage : task.stage = .putting data latencyMs true) :
    remainingWork digest (afterStore index task
        (afterPut task.chunkIndex task.fromP2P data latencyMs state)) <
      remainingWork digest state := by
  have hok := hwf.tasks_ok task ((mem_tasks_iff htask task).mpr (Or.inl rfl))
  obtain ⟨bitfield, haveMsg, hset, -, heq⟩ :=
    afterPut_completes hok.inRange hfits task.fromP2P data latencyMs
  set marked : SchedulerState σ := ({ state with localBitfield := bitfield } :
    SchedulerState σ).log (completionCalls state.manifest bitfield haveMsg task.chunkIndex
      task.fromP2P data.length latencyMs) with hmarked
  have hless : remainingWork digest marked ≤ remainingWork digest state := by
    rw [hmarked, remainingWork_log]
    exact remainingWork_mark_le digest hset
  have hadvanced := remainingWork_advance digest
    (show marked.tasks[index]? = some task from htask) .returned
  have hhas : bitfield.has task.chunkIndex = true := by
    rw [Bitfield.has_of_set hset, decide_eq_true rfl, Bool.true_or]
  have hbefore : taskWork digest marked.localBitfield task = 2 := by rw [taskWork, hstage]
  have hafter : taskWork digest marked.localBitfield { task with stage := .returned } = 1 := by
    have hclosed : reopenedWork bitfield { task with stage := .returned } = 0 :=
      if_neg fun h ↦ by simp [hhas] at h
    change 1 + reopenedWork bitfield { task with stage := .returned } = 1
    rw [hclosed]
  rw [hbefore, hafter] at hadvanced
  rw [heq]
  change remainingWork digest (advance index task .returned marked) < _
  omega

/-- What lowers the remaining work pays for one event. -/
theorem paid_of_lt {before after extra : ℕ} (hless : after < before) :
    1 + after ≤ before + extra := by omega

/-- A task that goes on pays for its progress, and a setback for what it leads to. -/
theorem remainingWork_continueTask_le (hwf : WellFormed state) (hfits : FitsHeader state.resourceId)
    (htask : state.tasks[index]? = some task) (settlement : Settlement) :
    (task.stage.awaits settlement &&
          settlement.sound digest state.manifest task.chunkIndex).toNat +
        remainingWork digest (continueTask digest chunkStore env index task settlement state) ≤
      remainingWork digest state + setbackWork * (task.stage.awaits settlement &&
        !settlement.sound digest state.manifest task.chunkIndex).toNat := by
  have htransition := continueTask_transition digest chunkStore env index task settlement state
  generalize continueTask digest chunkStore env index task settlement state = next
    at htransition ⊢
  cases htransition with
  | ignored hidle => simp [hidle]
  | fetched fetchStart data hstage =>
    have hfetched := remainingWork_fetched_le digest htask hstage data (latencySince env fetchStart)
    simp only [hstage, Stage.awaits, Settlement.sound, Bool.true_and]
    exact hfetched
  | verified expected data latencyMs hstage =>
    simp only [hstage, Stage.awaits, Settlement.sound, Bool.and_self, Bool.toNat_true]
    exact paid_of_lt (remainingWork_afterVerify_lt digest hwf htask hstage)
  | putDone data latencyMs hstage =>
    simp only [hstage, Stage.awaits, Settlement.sound, Bool.and_self, Bool.toNat_true]
    exact paid_of_lt (remainingWork_afterPut_lt digest hwf hfits htask hstage)
  | finished hstage =>
    simp only [hstage, Stage.awaits, Settlement.sound, Bool.and_self, Bool.toNat_true]
    exact paid_of_lt (remainingWork_finish_lt digest hwf htask hstage)
  | fetchFailed fetchStart error hstage =>
    have hadvanced := remainingWork_advance digest htask (.rejected error)
    have hreopened := reopenedWork_le state.localBitfield { task with stage := .rejected error }
    have hafter : taskWork digest state.localBitfield { task with stage := .rejected error } =
      2 + reopenedWork state.localBitfield { task with stage := .rejected error } := rfl
    simp only [hstage, Stage.awaits, Settlement.sound, Bool.and_false, Bool.toNat_false,
      Bool.not_false, Bool.and_self, Bool.toNat_true, setbackWork]
    rw [freeWork] at hreopened
    omega
  | verifyFailed expected data latencyMs error hstage =>
    have hrejected := remainingWork_reject_le digest htask error
    simp only [hstage, Stage.awaits, Settlement.sound, Bool.and_false, Bool.toNat_false,
      Bool.not_false, Bool.and_self, Bool.toNat_true]
    omega
  | putFailed data latencyMs done error hstage =>
    have hrejected := remainingWork_reject_le digest htask error
    simp only [hstage, Stage.awaits, Settlement.sound, Bool.and_false, Bool.toNat_false,
      Bool.not_false, Bool.and_self, Bool.toNat_true]
    omega
  | written data latencyMs hstage =>
    have hadvanced := remainingWork_advance digest (show ({ state with
      store := chunkStore.put state.store state.resourceId task.chunkIndex data } :
        SchedulerState σ).tasks[index]? = some task from htask) (.putting data latencyMs true)
    have hbefore : taskWork digest state.localBitfield task = 3 := by rw [taskWork, hstage]
    have hafter : taskWork digest state.localBitfield
        { task with stage := .putting data latencyMs true } = 2 := rfl
    have hsame : remainingWork digest ({ state with
      store := chunkStore.put state.store state.resourceId task.chunkIndex data } :
        SchedulerState σ) = remainingWork digest state := rfl
    rw [hsame, hbefore, hafter] at hadvanced
    simp only [hstage, Stage.awaits, Settlement.sound, Bool.and_self, Bool.toNat_true]
    omega
  | caught error hstage =>
    have hadvanced := remainingWork_advance digest (show (state.log
      [.onError (originFailure task.chunkIndex error)]).tasks[index]? = some task from htask)
      .returned
    have hbefore : taskWork digest state.localBitfield task =
        2 + reopenedWork state.localBitfield task := by rw [taskWork, hstage]
    have hafter : taskWork digest state.localBitfield { task with stage := .returned } =
        1 + reopenedWork state.localBitfield task := rfl
    have hsame : (state.log [.onError (originFailure task.chunkIndex error)]).localBitfield =
        state.localBitfield := rfl
    rw [hsame, hbefore, hafter, remainingWork_log] at hadvanced
    simp only [hstage, Stage.awaits, Settlement.sound, Bool.and_self, Bool.toNat_true]
    omega

/-- No work is added, where the frames fit. -/
def Lighter (digest : Bytes → Bytes) (before after : SchedulerState σ) : Prop :=
  FitsHeader before.resourceId →
    FitsHeader after.resourceId ∧ remainingWork digest after ≤ remainingWork digest before

instance : Std.Refl (@Lighter σ digest) := ⟨fun _ hfits ↦ ⟨hfits, le_rfl⟩⟩

instance : IsTrans (SchedulerState σ) (Lighter digest) :=
  ⟨fun _ _ _ hfirst hsecond hfits ↦
    ⟨(hsecond (hfirst hfits).1).1, (hsecond (hfirst hfits).1).2.trans (hfirst hfits).2⟩⟩

/-- Reassigning the requests of a peer never adds work. -/
theorem reassign_loop_lighter (hwf : WellFormed state) (hbudgeted : Budgeted state)
    (peerId : String) :
    Lighter digest state
      (Action.forEach (reassign env peerId) state.inFlight.entries state).1 := by
  refine reassign_loop_rel hwf peerId fun entry hentry reached hreached hrequest hfits ↦ ?_
  have hretries := (hbudgeted entry.1 entry.2 (OrderedMap.mem_entries_iff.mp hentry)).2
  refine ⟨(reassign_returns env peerId entry hfits).1, ?_⟩
  unfold reassign
  split_ifs
  · rw [← log_nil (release entry.1 entry.2.timer reached)]
    exact (remainingWork_retry digest hfits hrequest hretries
      (hreached.inFlight_lt _ _ hrequest) entry.2.timer []).le
  · exact le_rfl

theorem remainingWork_removePeer_le (hwf : WellFormed state) (hfits : FitsHeader state.resourceId)
    (hbudgeted : Budgeted state) (peerId : String) :
    remainingWork digest (removePeer env peerId state).1 ≤ remainingWork digest state := by
  have hforgotten : Budgeted (forget peerId state) := hbudgeted.congr rfl rfl
  rw [removePeer_eq, andThen_scheduleIfRunning]
  exact (remainingWork_thenLoop_le digest _).trans
    (reassign_loop_lighter digest (hwf.forget peerId) hforgotten peerId hfits).2

theorem remainingWork_handleTimeout_lt (hwf : WellFormed state)
    (hfits : FitsHeader state.resourceId) (hbudgeted : Budgeted state) {chunkIndex timer : ℕ}
    (harmed : state.timers.get? timer = some chunkIndex) :
    remainingWork digest (handleTimeout env chunkIndex timer state).1 <
      remainingWork digest state := by
  obtain ⟨request, hrequest, rfl⟩ := (hwf.timers_iff timer chunkIndex).mp harmed
  simp only [handleTimeout, hrequest]
  rw [andThen_scheduleNext]
  exact (remainingWork_thenLoop_le digest _).trans_lt (remainingWork_retry digest hfits hrequest
    (hbudgeted chunkIndex request hrequest).2 (hwf.inFlight_lt _ _ hrequest) request.timer _)

/-- An event that is neither progress nor a setback adds no work. -/
theorem paid_of_le {before after : ℕ} (hle : after ≤ before) :
    false.toNat + after ≤ before + setbackWork * false.toNat := by
  rwa [Bool.toNat_false, Nat.zero_add, Nat.mul_zero, Nat.add_zero]

/-- **A step.** Every event but `stop` pays for its progress, and a setback for what it leads
to. -/
theorem remainingWork_perform_le (hwf : WellFormed state) (hfits : FitsHeader state.resourceId)
    (hbudgeted : Budgeted state) {event : SchedulerEvent} (hkeeps : event ≠ .stop) :
    (progresses digest state event).toNat +
        remainingWork digest (perform digest chunkStore env event state).1 ≤
      remainingWork digest state + setbackWork * (setsBack digest state event).toNat := by
  have hloop : ∀ reached : SchedulerState σ,
      remainingWork digest (scheduleIfRunning env reached).1 ≤ remainingWork digest reached :=
    remainingWork_scheduleIfRunning_le digest
  cases event with
  | stop => exact absurd rfl hkeeps
  | start =>
    refine paid_of_le ?_
    simp only [perform, start]
    split_ifs
    · exact le_rfl
    · have hstarted : remainingWork digest ({ state with isRunning := true } : SchedulerState σ) =
          remainingWork digest state := rfl
      rw [← hstarted]
      exact remainingWork_moves digest (scheduleNext_moves env _)
  | updatePeerBitfield peerId address => exact paid_of_le (hloop _)
  | updatePeerHave peerId chunkIndex =>
    have hpeer : remainingWork digest (peerBitfield peerId state).1 =
        remainingWork digest state := by
      unfold peerBitfield
      split <;> rfl
    refine paid_of_le ?_
    simp only [perform, updatePeerHave]
    split
    · exact hpeer.le
    · exact (hloop _).trans hpeer.le
  | setPeerChoked peerId choked =>
    refine paid_of_le ?_
    simp only [perform, setPeerChoked]
    split_ifs
    · exact le_rfl
    · exact hloop _
  | removePeer peerId =>
    exact paid_of_le (remainingWork_removePeer_le digest hwf hfits hbudgeted peerId)
  | scheduleNext => exact paid_of_le (remainingWork_moves digest (scheduleNext_moves env state))
  | handlePiece chunkIndex beginOffset totalLength data =>
    simp only [progresses, setsBack, Bool.toNat_false, Nat.zero_add, perform, handlePiece]
    cases hrequest : state.inFlight.get? chunkIndex with
    | none => exact Nat.le_add_right _ _
    | some request =>
      have hhas : state.inFlight.has chunkIndex = true :=
        OrderedMap.has_iff_exists.mpr ⟨request, hrequest⟩
      simp only [hhas, Bool.true_and]
      split_ifs with hfull
      · rw [decide_eq_true hfull, Bool.toNat_true, Nat.mul_one]
        exact remainingWork_completePiece_le digest hwf hrequest _
      · exact Nat.le_add_right _ _
  | timeout timer =>
    simp only [progresses, setsBack, perform, OrderedMap.has]
    cases harmed : state.timers.get? timer with
    | none => exact paid_of_le le_rfl
    | some chunkIndex =>
      have hretried : remainingWork digest (handleTimeout env chunkIndex timer state).1 <
          remainingWork digest state :=
        remainingWork_handleTimeout_lt digest hwf hfits hbudgeted harmed
      simp only [Option.isSome_some, Bool.toNat_true]
      omega
  | settled index settlement =>
    simp only [progresses, setsBack, perform]
    cases htask : state.tasks[index]? with
    | none => exact paid_of_le le_rfl
    | some task => exact remainingWork_continueTask_le digest hwf hfits htask settlement
  | shared heap => exact paid_of_le le_rfl

end Events

/-! ### Something to wait for -/

/-- Of every chunk there are bytes that a sound origin can serve. -/
def Servable (digest : Bytes → Bytes) (manifest : ResourceManifest) (totalChunks : ℕ) : Prop :=
  ∀ chunkIndex < totalChunks, ∃ data, passes digest manifest chunkIndex data = true

section Waiting

variable {digest : Bytes → Bytes} {chunkStore : IChunkStore σ} {env : Env}
  {state : SchedulerState σ}

/-- A pending task can go on. -/
theorem exists_progress_of_task (hwf : WellFormed state)
    (hservable : Servable digest state.manifest state.localBitfield.totalChunks) {task : Task}
    (hmem : task ∈ state.tasks) : ∃ event, progresses digest state event = true := by
  obtain ⟨index, htask⟩ := List.getElem?_of_mem hmem
  have hgoes : ∀ settlement, task.stage.awaits settlement = true →
      settlement.sound digest state.manifest task.chunkIndex = true →
        ∃ event, progresses digest state event = true := by
    intro settlement hawaits hsound
    refine ⟨.settled index settlement, ?_⟩
    rw [progresses, htask]
    simp only [hawaits, hsound, Bool.and_self]
  cases hstage : task.stage with
  | fetching fetchStart =>
    obtain ⟨data, hdata⟩ := hservable task.chunkIndex (hwf.tasks_ok task hmem).inRange
    exact hgoes (.fetched data) (by rw [hstage]; rfl) hdata
  | verifying expected data latencyMs => exact hgoes .verified (by rw [hstage]; rfl) rfl
  | putting data latencyMs written =>
    cases written with
    | false => exact hgoes .written (by rw [hstage]; rfl) rfl
    | true => exact hgoes .putDone (by rw [hstage]; rfl) rfl
  | rejected error => exact hgoes .resumed (by rw [hstage]; rfl) rfl
  | returned => exact hgoes .resumed (by rw [hstage]; rfl) rfl

/-- While a download that never stalls is running and incomplete, some event makes progress. -/
theorem exists_progress (hwf : WellFormed state) (hstall : NoStall state)
    (hservable : Servable digest state.manifest state.localBitfield.totalChunks)
    (hrunning : state.isRunning = true) (hincomplete : state.localBitfield.isComplete = false) :
    ∃ event, progresses digest state event = true := by
  cases htasks : state.tasks with
  | cons task rest =>
    exact exists_progress_of_task hwf hservable (by rw [htasks]; exact List.mem_cons_self)
  | nil =>
    rcases hstall hrunning hincomplete (by simp [htasks]) with
      ⟨chunkIndex, request, hrequest⟩ | ⟨chunkIndex, hfetched⟩
    · refine ⟨.timeout request.timer, ?_⟩
      rw [progresses, OrderedMap.has_iff_exists]
      exact ⟨chunkIndex, hwf.armed hrequest⟩
    · obtain ⟨task, hmem, _⟩ := hwf.fetched chunkIndex hfetched
      rw [htasks] at hmem
      exact absurd hmem List.not_mem_nil

/-- Progress stops nothing. -/
theorem running_of_progresses {event : SchedulerEvent}
    (hprogress : progresses digest state event = true) (running : Bool) :
    event.running running = running := by
  cases event <;> simp [progresses, SchedulerEvent.running] at hprogress ⊢

/-- Progress is not a setback. -/
theorem setsBack_of_progresses {event : SchedulerEvent}
    (hprogress : progresses digest state event = true) : setsBack digest state event = false := by
  cases event with
  | settled index settlement =>
    simp only [progresses, setsBack] at hprogress ⊢
    split
    · next task htask =>
      rw [htask] at hprogress
      simp only [Bool.and_eq_true] at hprogress
      rw [hprogress.2, Bool.not_true, Bool.and_false]
    · rfl
  | handlePiece => simp [progresses] at hprogress
  | _ => rfl

/-- Progress releases safely. -/
theorem releasesSafely_of_progresses {event : SchedulerEvent}
    (hprogress : progresses digest state event = true) : ReleasesSafely state event := by
  cases event with
  | settled index settlement =>
    cases settlement with
    | verifyFailed error =>
      rw [progresses] at hprogress
      split at hprogress <;> simp [Settlement.sound] at hprogress
    | putFailed error =>
      rw [progresses] at hprogress
      split at hprogress <;> simp [Settlement.sound] at hprogress
    | _ => trivial
  | handlePiece => simp [progresses] at hprogress
  | _ => trivial

end Waiting

/-! ### Runs -/

/-- How many events of a run make progress. -/
def progressAlong (digest : Bytes → Bytes) (chunkStore : IChunkStore σ) :
    SchedulerState σ → List SchedulerInput → ℕ :=
  tally (schedulerStep digest chunkStore) fun state input ↦ (progresses digest state input.2).toNat

/-- How many events of a run are setbacks. -/
def setbacksAlong (digest : Bytes → Bytes) (chunkStore : IChunkStore σ) :
    SchedulerState σ → List SchedulerInput → ℕ :=
  tally (schedulerStep digest chunkStore) fun state input ↦ (setsBack digest state input.2).toNat

section Runs

variable {digest : Bytes → Bytes} {chunkStore : IChunkStore σ} {state : SchedulerState σ}
  {inputs : List SchedulerInput}

/-- What the runs of a download keep whose frames fit. -/
structure Fit (state : SchedulerState σ) : Prop where
  wellFormed : WellFormed state
  fits : FitsHeader state.resourceId
  budgeted : Budgeted state

theorem Fit.step (hfit : Fit state) (input : SchedulerInput) :
    Fit (schedulerStep digest chunkStore state input) where
  wellFormed := (schedulerStep_wellFormed hfit.wellFormed input).1
  fits := by
    rw [SchedulerState.resourceId, (schedulerStep_wellFormed hfit.wellFormed input).2]
    exact hfit.fits
  budgeted := perform_budgeted hfit.wellFormed hfit.budgeted input.2

theorem fit_new {manifest : ResourceManifest} (hfits : FitsHeader manifest.resourceId)
    (localBitfield : Bitfield) (heap : List Bitfield) (store : σ) :
    Fit (SchedulerState.new manifest localBitfield heap store) :=
  ⟨wellFormed_new manifest localBitfield heap store, hfits, fun chunkIndex request hrequest ↦ by
    simp [SchedulerState.new, ChunkScheduler.new] at hrequest⟩

/-- **A run.** The progress of a run is paid for by the work at its start and by its setbacks. -/
theorem progressAlong_add_remainingWork_le (hfit : Fit state)
    (hkeeps : Along (schedulerStep digest chunkStore) (fun _ input ↦ input.2 ≠ .stop) state
      inputs) :
    progressAlong digest chunkStore state inputs +
        remainingWork digest (run (schedulerStep digest chunkStore) state inputs) ≤
      remainingWork digest state + setbackWork * setbacksAlong digest chunkStore state inputs := by
  rw [setbacksAlong, ← tally_mul]
  exact tally_add_potential_le Fit (fun reached input hreached hkept ↦ ⟨hreached.step input,
    remainingWork_perform_le digest hreached.wellFormed hreached.fits hreached.budgeted hkept⟩)
    hfit hkeeps

/-- At the start of a download every missing chunk has its whole way before it. -/
theorem remainingWork_new (digest : Bytes → Bytes) (manifest : ResourceManifest)
    (localBitfield : Bitfield) (heap : List Bitfield) (store : σ) :
    remainingWork digest (SchedulerState.new manifest localBitfield heap store) =
      freeWork * localBitfield.getMissingIndices.length := by
  have hchunk : ∀ chunkIndex, chunkWork (SchedulerState.new manifest localBitfield heap store)
      chunkIndex = if localBitfield.has chunkIndex = false then freeWork else 0 := by
    intro chunkIndex
    simp [chunkWork, SchedulerState.new, ChunkScheduler.new]
  have hmissing : localBitfield.getMissingIndices.toFinset =
      (Finset.range localBitfield.totalChunks).filter fun chunkIndex ↦
        localBitfield.has chunkIndex = false := by
    ext chunkIndex
    simp [Bitfield.mem_getMissingIndices]
  rw [← List.toFinset_card_of_nodup (Bitfield.nodup_getMissingIndices localBitfield), hmissing,
    Nat.mul_comm, ← Finset.sum_const_nat (fun _ _ ↦ rfl), Finset.sum_filter]
  exact (Nat.add_zero _).trans (Finset.sum_congr rfl fun chunkIndex _ ↦ hchunk chunkIndex)

/-- A download that releases safely does not stall. -/
theorem run_noStall (hfit : Fit state) (hstall : NoStall state)
    (hsafe : Along (schedulerStep digest chunkStore)
      (fun reached input ↦ ReleasesSafely reached input.2) state inputs) :
    Fit (run (schedulerStep digest chunkStore) state inputs) ∧
      NoStall (run (schedulerStep digest chunkStore) state inputs) :=
  run_invariant (fun reached ↦ Fit reached ∧ NoStall reached)
    (fun _ input hinv hallowed ↦ ⟨hinv.1.step input,
      perform_noStall hinv.1.wellFormed hinv.1.fits hinv.2 input.2 hallowed⟩) ⟨hfit, hstall⟩ hsafe

/-- Progress keeps a download running that does not stall. -/
theorem run_progress (hfit : Fit state) (hstall : NoStall state)
    (hrunning : state.isRunning = true)
    (hprogress : Along (schedulerStep digest chunkStore)
      (fun reached input ↦ progresses digest reached input.2 = true) state inputs) :
    NoStall (run (schedulerStep digest chunkStore) state inputs) ∧
      (run (schedulerStep digest chunkStore) state inputs).isRunning = true := by
  refine (run_invariant (fun reached : SchedulerState σ ↦
    Fit reached ∧ NoStall reached ∧ reached.isRunning = true)
    (fun reached input hinv hallowed ↦ ?_) ⟨hfit, hstall, hrunning⟩ hprogress).2
  refine ⟨hinv.1.step input, perform_noStall hinv.1.wellFormed hinv.1.fits hinv.2.1 input.2
    (releasesSafely_of_progresses hallowed), ?_⟩
  rw [schedulerStep, (perform_cases digest chunkStore input.1 input.2 reached).2,
    running_of_progresses hallowed]
  exact hinv.2.2

/-- Progress alone takes no more events than there is work. -/
theorem length_le_remainingWork (hfit : Fit state)
    (hprogress : Along (schedulerStep digest chunkStore)
      (fun reached input ↦ progresses digest reached input.2 = true) state inputs) :
    inputs.length ≤ remainingWork digest state := by
  have hkeeps : Along (schedulerStep digest chunkStore) (fun _ input ↦ input.2 ≠ .stop) state
      inputs := hprogress.mono fun reached input h heq ↦ by
    simp only [heq, progresses, Bool.false_eq_true] at h
  have hcounted : progressAlong digest chunkStore state inputs = inputs.length :=
    tally_eq_length (hprogress.mono fun reached input h ↦ by rw [h, Bool.toNat_true])
  have hcalm : setbacksAlong digest chunkStore state inputs = 0 :=
    tally_eq_zero (hprogress.mono fun reached input h ↦ by
      rw [setsBack_of_progresses h, Bool.toNat_false])
  have hpaid := progressAlong_add_remainingWork_le hfit hkeeps
  rw [hcounted, hcalm] at hpaid
  omega

end Runs

section Downloads

variable (digest : Bytes → Bytes) (chunkStore : IChunkStore σ) (manifest : ResourceManifest)
  (localBitfield : Bitfield) (heap : List Bitfield) (store : σ)

/-- **Bounded progress.** In every run without `stop` of a new scheduler for a resource whose id
fits the frames, there are at most ten events of progress for every chunk that is missing at the
start and twelve for every setback on the way, whatever the peers do. -/
theorem progress_bounded (hfits : FitsHeader manifest.resourceId) (inputs : List SchedulerInput)
    (hkeeps : ∀ input ∈ inputs, input.2 ≠ .stop) :
    progressAlong digest chunkStore (SchedulerState.new manifest localBitfield heap store) inputs ≤
      10 * localBitfield.getMissingIndices.length +
        12 * setbacksAlong digest chunkStore
          (SchedulerState.new manifest localBitfield heap store) inputs := by
  have hpaid := @progressAlong_add_remainingWork_le σ digest chunkStore _ inputs
    (fit_new hfits localBitfield heap store) (along_of_forall hkeeps _)
  rw [remainingWork_new, freeWork, setbackWork] at hpaid
  omega

/-- A download of one chunk from a peer. -/
def requestedRun : List SchedulerInput :=
  [(calmEnv, .updatePeerBitfield "peer" 0), (calmEnv, .start)]

/-- The peer never answers: the retries run out, and the origin serves the chunk. -/
def silentPeerRun : List SchedulerInput :=
  [.timeout 0, .timeout 1, .timeout 2, .settled 0 (.fetched [7]), .settled 0 .verified,
    .settled 0 .written, .settled 0 .putDone, .settled 0 .resumed].map fun event ↦ (calmEnv, event)

/-- The silent peer costs nothing beyond the ten events of a missing chunk. -/
theorem progress_bounded_silentPeerRun :
    progressAlong id MemoryChunkStore (SchedulerState.new oneChunkManifest (Bitfield.new 1)
        [oneChunkBitfield] OrderedMap.empty) (requestedRun ++ silentPeerRun) ≤
      10 * (Bitfield.new 1).getMissingIndices.length +
        12 * setbacksAlong id MemoryChunkStore (SchedulerState.new oneChunkManifest (Bitfield.new 1)
          [oneChunkBitfield] OrderedMap.empty) (requestedRun ++ silentPeerRun) :=
  progress_bounded id MemoryChunkStore oneChunkManifest (Bitfield.new 1) [oneChunkBitfield]
    OrderedMap.empty (by decide) _ (by simp [requestedRun, silentPeerRun])

/-- **Downloads come to their end.** After every run without `stop` that releases safely and leaves
the download running, of a resource whose chunks a sound origin can serve: events of progress alone,
in whatever order they come, are at most as many as the bound says, and as long as the download is
incomplete there is a next one. -/
theorem download_finishes (hfits : FitsHeader manifest.resourceId)
    (hservable : Servable digest manifest localBitfield.totalChunks) (inputs : List SchedulerInput)
    (hkeeps : ∀ input ∈ inputs, input.2 ≠ .stop)
    (hsafe : Along (schedulerStep digest chunkStore)
      (fun state input ↦ ReleasesSafely state input.2)
      (SchedulerState.new manifest localBitfield heap store) inputs)
    (hrunning : (schedulerRun digest chunkStore manifest localBitfield heap store
      inputs).isRunning = true)
    (later : List SchedulerInput)
    (hprogress : Along (schedulerStep digest chunkStore)
      (fun state input ↦ progresses digest state input.2 = true)
      (schedulerRun digest chunkStore manifest localBitfield heap store inputs) later) :
    later.length ≤ 10 * localBitfield.getMissingIndices.length +
        12 * setbacksAlong digest chunkStore
          (SchedulerState.new manifest localBitfield heap store) inputs ∧
      ((schedulerRun digest chunkStore manifest localBitfield heap store
          (inputs ++ later)).localBitfield.isComplete = true ∨
        ∃ event, progresses digest (schedulerRun digest chunkStore manifest localBitfield heap store
          (inputs ++ later)) event = true) := by
  have hnew := fit_new hfits localBitfield heap store
  have hidle : NoStall (SchedulerState.new manifest localBitfield heap store) :=
    fun hstarted ↦ absurd hstarted (by simp [SchedulerState.new, ChunkScheduler.new])
  have hreached := run_noStall hnew hidle hsafe
  have hpaid := @progressAlong_add_remainingWork_le σ digest chunkStore _ inputs hnew
    (along_of_forall hkeeps _)
  have hlength := length_le_remainingWork hreached.1 hprogress
  rw [remainingWork_new, freeWork, setbackWork] at hpaid
  change later.length ≤ remainingWork digest (run (schedulerStep digest chunkStore)
    (SchedulerState.new manifest localBitfield heap store) inputs) at hlength
  refine ⟨by omega, ?_⟩
  have hends := run_progress hreached.1 hreached.2 hrunning hprogress
  rw [← run_append] at hends
  cases hcomplete : (schedulerRun digest chunkStore manifest localBitfield heap store
      (inputs ++ later)).localBitfield.isComplete with
  | true => exact Or.inl rfl
  | false =>
    obtain ⟨hmanifest, htotal⟩ := schedulerRun_manifest_totalChunks digest chunkStore manifest
      localBitfield heap store (inputs ++ later)
    refine Or.inr (exists_progress (schedulerRun_wellFormed digest chunkStore manifest
      localBitfield heap store (inputs ++ later)) hends.1 ?_ hends.2 hcomplete)
    rwa [hmanifest, htotal]

/-- Eight events of progress after the request, the download is complete. -/
theorem download_finishes_silentPeerRun :
    silentPeerRun.length ≤ 10 * (Bitfield.new 1).getMissingIndices.length +
        12 * setbacksAlong id MemoryChunkStore (SchedulerState.new oneChunkManifest (Bitfield.new 1)
          [oneChunkBitfield] OrderedMap.empty) requestedRun ∧
      ((schedulerRun id MemoryChunkStore oneChunkManifest (Bitfield.new 1) [oneChunkBitfield]
          OrderedMap.empty (requestedRun ++ silentPeerRun)).localBitfield.isComplete = true ∨
        ∃ event, progresses id (schedulerRun id MemoryChunkStore oneChunkManifest (Bitfield.new 1)
          [oneChunkBitfield] OrderedMap.empty (requestedRun ++ silentPeerRun)) event = true) := by
  refine download_finishes id MemoryChunkStore oneChunkManifest (Bitfield.new 1) [oneChunkBitfield]
    OrderedMap.empty (by decide) (fun chunkIndex hrange ↦ ⟨[7], ?_⟩) requestedRun
    (by simp [requestedRun]) ⟨trivial, trivial, trivial⟩ (by decide +kernel) silentPeerRun
    (by decide +kernel)
  obtain rfl : chunkIndex = 0 := Nat.lt_one_iff.mp hrange
  decide +kernel

end Downloads

end CampusMesh.Web
