import CampusMesh.Web.SchedulerIntegrity

/-!
# A stopped scheduler

`stop` empties the books and clears the timers, and the methods look at `isRunning` before they
schedule. The continuations of `verifyAndStoreChunk` do not: after a mismatch the chunk is fetched
from the origin, and after `chunkStore.put` it is announced and reported, whether or not the
scheduler was stopped meanwhile. `Disturbs` says which later events do this, and
`quiet_after_stop_iff` that no other event does.
-/

set_option autoImplicit false
set_option relaxedAutoImplicit false

namespace CampusMesh.Web

open Library Shared SchedulerState

variable {σ : Type}

/-! ### The promise -/

/-- A call that requests, fetches or announces a chunk, or reports progress, completion or a
chunk. -/
def Call.isActive : Call → Bool
  | .sendToPeer _ _ _ | .broadcastToPeers _ | .fetchFromOrigin _ | .onChunkCompleted _ _ _ _
  | .onDownloadProgress _ _ | .onDownloadComplete => true
  | .onError _ | .onCorruption _ _ _ | .onRetry _ _ | .onOriginFallback _ | .put _ _ _ => false

/-- No active call was made since an earlier state. -/
def QuietSince (earlier state : SchedulerState σ) : Prop :=
  ∀ call ∈ state.calls.drop earlier.calls.length, call.isActive = false

instance (earlier state : SchedulerState σ) : Decidable (QuietSince earlier state) :=
  inferInstanceAs (Decidable (∀ call ∈ _, _))

/-- The scheduler does not run and has no request on its books. -/
structure Stopped (state : SchedulerState σ) : Prop where
  isRunning : state.isRunning = false
  inFlight (chunkIndex : ℕ) : state.inFlight.get? chunkIndex = none

/-- The task goes past an `await` of `verifyAndStoreChunk` to an active call: its bytes do not match
and the chunk is neither there nor being fetched, or its bytes are stored and the HAVE frame can be
written. -/
def Task.Disturbs (digest : Bytes → Bytes) (state : SchedulerState σ) (task : Task)
    (settlement : Settlement) : Prop :=
  match task.stage, settlement with
  | .verifying expected data _, .verified =>
    (verify digest data expected).valid = false ∧
      state.localBitfield.has task.chunkIndex = false ∧ task.chunkIndex ∉ state.originInFlight
  | .putting _ _ true, .putDone =>
    task.chunkIndex < state.localBitfield.totalChunks ∧ FitsHeader state.resourceId
  | _, _ => False

/-- The event lets such a task go on. -/
def Disturbs (digest : Bytes → Bytes) (state : SchedulerState σ) (input : SchedulerInput) : Prop :=
  match input.2 with
  | .settled index settlement =>
    ∃ task, state.tasks[index]? = some task ∧ task.Disturbs digest state settlement
  | _ => False

/-- The event is a call that starts the scheduler or runs its loop. -/
def SchedulerEvent.Schedules : SchedulerEvent → Prop
  | .start | .scheduleNext => True
  | _ => False

theorem stopped_stop (state : SchedulerState σ) : Stopped (stop state) := ⟨rfl, fun _ ↦ rfl⟩

/-! ### One step -/

section Steps

variable {digest : Bytes → Bytes} {chunkStore : IChunkStore σ} {env : Env}
  {state reached : SchedulerState σ}

/-- A step of a stopped scheduler: it stays stopped, and the calls added are without an active one
exactly under the condition. -/
structure Rests (quiet : Prop) (state reached : SchedulerState σ) : Prop where
  stopped : Stopped reached
  calls : ∃ added, reached.calls = state.calls ++ added ∧
    ((∀ call ∈ added, call.isActive = false) ↔ quiet)

/-- Without calls there is none that is active. -/
theorem Rests.of_calls_eq {quiet : Prop} (hstopped : Stopped reached)
    (hcalls : reached.calls = state.calls) (hquiet : quiet) : Rests quiet state reached :=
  ⟨hstopped, [], by rw [hcalls, List.append_nil], iff_of_true (by simp) hquiet⟩

theorem scheduleIfRunning_stopped (hstopped : Stopped state) :
    scheduleIfRunning env state = (state, none) := by
  rw [scheduleIfRunning, hstopped.isRunning]
  rfl

/-- The methods that look at `isRunning` make no calls. -/
theorem rests_scheduleIfRunning (hstopped : Stopped reached)
    (hcalls : reached.calls = state.calls) :
    Rests True state (scheduleIfRunning env reached).1 := by
  rw [scheduleIfRunning_stopped hstopped]
  exact .of_calls_eq hstopped hcalls trivial

theorem peerBitfield_stopped (hstopped : Stopped state) (peerId : String) :
    Stopped (peerBitfield peerId state).1 ∧ (peerBitfield peerId state).1.calls = state.calls := by
  unfold peerBitfield
  split
  · exact ⟨hstopped, rfl⟩
  · exact ⟨⟨hstopped.isRunning, hstopped.inFlight⟩, rfl⟩

theorem updatePeerHave_rests (hstopped : Stopped state) (peerId : String) (chunkIndex : ℕ) :
    Rests True state (updatePeerHave env peerId chunkIndex state).1 := by
  obtain ⟨hlocated, hcalls⟩ := peerBitfield_stopped hstopped peerId
  unfold updatePeerHave
  simp only
  split
  · exact .of_calls_eq hlocated hcalls trivial
  · exact rests_scheduleIfRunning ⟨hlocated.isRunning, hlocated.inFlight⟩ hcalls

/-- No request is there to be assigned again. -/
theorem removePeer_rests (hstopped : Stopped state) (peerId : String) :
    Rests True state (removePeer env peerId state).1 := by
  have hnone : state.inFlight.entries = [] := by
    refine List.eq_nil_iff_forall_not_mem.mpr fun entry hentry ↦ ?_
    have hrequest := OrderedMap.mem_entries_iff.mp hentry
    rw [hstopped.inFlight] at hrequest
    exact absurd hrequest (by simp)
  unfold removePeer
  simp only [hnone]
  rw [Action.forEach, Action.andThen_of_returns rfl]
  exact rests_scheduleIfRunning ⟨hstopped.isRunning, hstopped.inFlight⟩ rfl

/-- After a mismatch the chunk is fetched unless it is there or being fetched. -/
theorem afterVerify_rests (hstopped : Stopped state) (chunkIndex : ℕ) (expected : String)
    (data : Bytes) (latencyMs : ℕ) :
    Rests (¬ ((verify digest data expected).valid = false ∧
        state.localBitfield.has chunkIndex = false ∧ chunkIndex ∉ state.originInFlight))
      state (afterVerify digest env chunkIndex expected data latencyMs state).1 := by
  unfold afterVerify
  simp only
  split_ifs with hvalid
  · unfold dispatchOriginFallback
    split_ifs with hpresent
    · refine ⟨⟨hstopped.isRunning, hstopped.inFlight⟩, _, rfl, iff_of_true ?_ ?_⟩
      · simp [corruptionCalls, Call.isActive]
      · rintro ⟨-, hmissing, hfetching⟩
        rcases hpresent with hhas | hfetched
        · exact absurd (hmissing.symm.trans hhas) (by simp)
        · exact hfetching hfetched
    · refine ⟨⟨hstopped.isRunning, hstopped.inFlight⟩, _, List.append_assoc _ _ _,
        iff_of_false ?_ ?_⟩
      · intro hquiet
        exact absurd (hquiet (.fetchFromOrigin chunkIndex) (by simp)) (by simp [Call.isActive])
      · obtain ⟨hmissing, hfetching⟩ := not_or.mp hpresent
        exact not_not_intro ⟨hvalid, Bool.eq_false_of_not_eq_true hmissing, hfetching⟩
  · refine ⟨⟨hstopped.isRunning, hstopped.inFlight⟩, _, rfl, iff_of_true ?_ fun h ↦ hvalid h.1⟩
    simp [Call.isActive]

/-- After the put the chunk is announced unless marking it or writing the frame throws. -/
theorem afterPut_rests (hstopped : Stopped state) (chunkIndex : ℕ) (fromP2P : Bool) (data : Bytes)
    (latencyMs : ℕ) :
    Rests (¬ (chunkIndex < state.localBitfield.totalChunks ∧ FitsHeader state.resourceId))
      state (afterPut chunkIndex fromP2P data latencyMs state).1 := by
  by_cases hfine : chunkIndex < state.localBitfield.totalChunks ∧ FitsHeader state.resourceId
  · obtain ⟨bitfield, haveMsg, -, -, heq⟩ :=
      afterPut_completes hfine.1 hfine.2 fromP2P data latencyMs
    rw [heq]
    refine ⟨⟨hstopped.isRunning, hstopped.inFlight⟩, _, rfl, iff_of_false ?_ (not_not_intro hfine)⟩
    intro hquiet
    exact absurd (hquiet (.broadcastToPeers haveMsg) (by simp [completionCalls]))
      (by simp [Call.isActive])
  · rcases afterPut_cases chunkIndex fromP2P data latencyMs state with
      ⟨bitfield, haveMsg, hset, hhave, heq⟩ | ⟨error, heq, hset⟩ |
        ⟨bitfield, error, hset, hhave, heq⟩
    · have hrange := Bitfield.set_isOk_iff.mp ⟨bitfield, hset⟩
      rw [encodeHave, encodeChunkIndex_error fun hfits ↦ hfine ⟨hrange, hfits⟩] at hhave
      exact absurd hhave (by simp)
    · rw [heq]
      exact .of_calls_eq hstopped rfl hfine
    · rw [heq]
      exact .of_calls_eq ⟨hstopped.isRunning, hstopped.inFlight⟩ rfl hfine

/-- Moving or ending the task adds nothing. -/
theorem Rests.with_tasks {quiet : Prop} (hrests : Rests quiet state reached) (tasks : List Task) :
    Rests quiet state { reached with tasks := tasks } :=
  ⟨⟨hrests.stopped.isRunning, hrests.stopped.inFlight⟩, hrests.calls⟩

theorem Rests.reject {quiet : Prop} (hrests : Rests quiet state reached) (index : ℕ) (task : Task)
    (error : String) : Rests quiet state (reject index task error reached) := by
  unfold Web.reject
  split_ifs
  · exact hrests.with_tasks _
  · exact hrests.with_tasks _

theorem verifyAndStoreChunk_rests (hstopped : Stopped state) (chunkIndex : ℕ) (data : Bytes)
    (latencyMs : ℕ) : Rests True state (verifyAndStoreChunk chunkIndex data latencyMs state).1 := by
  unfold verifyAndStoreChunk
  split
  · refine ⟨⟨hstopped.isRunning, hstopped.inFlight⟩, _, rfl, iff_of_true ?_ trivial⟩
    simp [Call.isActive]
  · exact .of_calls_eq hstopped rfl trivial

theorem finish_rests (hstopped : Stopped state) (index : ℕ) (task : Task) :
    Rests True state (finish env index task state) := by
  unfold finish
  simp only
  split_ifs
  · exact rests_scheduleIfRunning ⟨hstopped.isRunning, hstopped.inFlight⟩ rfl
  · exact rests_scheduleIfRunning ⟨hstopped.isRunning, hstopped.inFlight⟩ rfl

/-- What a settled promise makes a stopped scheduler do. -/
theorem continueTask_rests (hstopped : Stopped state) (index : ℕ) (task : Task)
    (settlement : Settlement) :
    Rests (¬ task.Disturbs digest state settlement) state
      (continueTask digest chunkStore env index task settlement state) := by
  have htransition := continueTask_transition digest chunkStore env index task settlement state
  generalize continueTask digest chunkStore env index task settlement state = next
    at htransition ⊢
  cases htransition with
  | ignored hidle =>
    refine .of_calls_eq hstopped rfl fun hdisturbs ↦ ?_
    unfold Task.Disturbs at hdisturbs
    split at hdisturbs
    · next hstage => simp [hstage, Stage.awaits] at hidle
    · next hstage => simp [hstage, Stage.awaits] at hidle
    · exact hdisturbs
  | fetched fetchStart data hstage =>
    simp only [Task.Disturbs, hstage, not_false_eq_true]
    exact (verifyAndStoreChunk_rests hstopped _ _ _).with_tasks _
  | fetchFailed fetchStart error hstage =>
    simp only [Task.Disturbs, hstage, not_false_eq_true]
    exact .of_calls_eq ⟨hstopped.isRunning, hstopped.inFlight⟩ rfl trivial
  | verified expected data latencyMs hstage =>
    simp only [Task.Disturbs, hstage]
    exact (afterVerify_rests hstopped _ _ _ _).with_tasks _
  | verifyFailed expected data latencyMs error hstage =>
    simp only [Task.Disturbs, hstage, not_false_eq_true]
    exact Rests.reject (.of_calls_eq hstopped rfl trivial) _ _ _
  | written data latencyMs hstage =>
    simp only [Task.Disturbs, hstage, not_false_eq_true]
    exact .of_calls_eq ⟨hstopped.isRunning, hstopped.inFlight⟩ rfl trivial
  | putDone data latencyMs hstage =>
    simp only [Task.Disturbs, hstage]
    have hrests := @afterPut_rests σ state hstopped task.chunkIndex task.fromP2P data latencyMs
    unfold afterStore
    split
    · exact hrests.with_tasks _
    · exact hrests.reject _ _ _
  | putFailed data latencyMs done error hstage =>
    have hnever : ¬ task.Disturbs digest state (.putFailed error) := by
      simp only [Task.Disturbs, hstage, not_false_eq_true]
    exact Rests.reject (.of_calls_eq hstopped rfl hnever) _ _ _
  | caught error hstage =>
    simp only [Task.Disturbs, hstage, not_false_eq_true]
    refine ⟨⟨hstopped.isRunning, hstopped.inFlight⟩, _, rfl, iff_of_true ?_ trivial⟩
    simp [Call.isActive]
  | finished hstage =>
    simp only [Task.Disturbs, hstage, not_false_eq_true]
    exact finish_rests hstopped _ _

/-- What an event does to a stopped scheduler that is not started again. -/
theorem schedulerStep_rests (hstopped : Stopped state) (input : SchedulerInput)
    (hevent : ¬ input.2.Schedules) :
    Rests (¬ Disturbs digest state input) state
      (schedulerStep digest chunkStore state input) := by
  obtain ⟨env, event⟩ := input
  unfold schedulerStep perform
  cases event with
  | start => exact absurd trivial hevent
  | scheduleNext => exact absurd trivial hevent
  | stop => exact .of_calls_eq (stopped_stop state) rfl not_false
  | updatePeerBitfield peerId address =>
    simp only [Disturbs, not_false_eq_true]
    exact rests_scheduleIfRunning ⟨hstopped.isRunning, hstopped.inFlight⟩ rfl
  | updatePeerHave peerId chunkIndex =>
    simp only [Disturbs, not_false_eq_true]
    exact updatePeerHave_rests hstopped peerId chunkIndex
  | setPeerChoked peerId choked =>
    simp only [Disturbs, not_false_eq_true]
    unfold setPeerChoked
    simp only
    split_ifs
    · exact .of_calls_eq ⟨hstopped.isRunning, hstopped.inFlight⟩ rfl trivial
    · exact rests_scheduleIfRunning ⟨hstopped.isRunning, hstopped.inFlight⟩ rfl
  | removePeer peerId =>
    simp only [Disturbs, not_false_eq_true]
    exact removePeer_rests hstopped peerId
  | handlePiece chunkIndex beginOffset totalLength data =>
    simp only [handlePiece, hstopped.inFlight]
    exact .of_calls_eq hstopped rfl not_false
  | timeout timer =>
    simp only
    split
    · simp only [handleTimeout, hstopped.inFlight]
      exact .of_calls_eq ⟨hstopped.isRunning, hstopped.inFlight⟩ rfl not_false
    · exact .of_calls_eq hstopped rfl not_false
  | settled index settlement =>
    simp only [Disturbs]
    split
    · next task htask =>
      simp only [htask, Option.some.injEq, exists_eq_left']
      exact continueTask_rests hstopped index task settlement
    · next hnone =>
      simp only [hnone, reduceCtorEq, false_and, exists_false, not_false_eq_true]
      exact .of_calls_eq hstopped rfl trivial
  | shared heap => exact .of_calls_eq ⟨hstopped.isRunning, hstopped.inFlight⟩ rfl not_false

end Steps

/-! ### Every run -/

section Runs

variable (digest : Bytes → Bytes) (chunkStore : IChunkStore σ)

/-- The calls of a run from a stopped state, by its steps. -/
theorem run_rests {state : SchedulerState σ} (hstopped : Stopped state)
    {later : List SchedulerInput} (hlater : ∀ input ∈ later, ¬ input.2.Schedules) :
    Rests (Along (schedulerStep digest chunkStore)
      (fun reached input ↦ ¬ Disturbs digest reached input) state later)
      state (run (schedulerStep digest chunkStore) state later) := by
  induction later generalizing state with
  | nil => exact .of_calls_eq hstopped rfl trivial
  | cons input rest ih =>
    obtain ⟨hnext, first, hfirst, hquiet⟩ := @schedulerStep_rests σ digest chunkStore state
      hstopped input (hlater input List.mem_cons_self)
    obtain ⟨hlast, second, hsecond, halong⟩ := ih hnext
      fun other hother ↦ hlater other (List.mem_cons_of_mem input hother)
    refine ⟨hlast, first ++ second, ?_, ?_⟩
    · rw [run_cons, hsecond, hfirst, List.append_assoc]
    · rw [along_cons, ← hquiet, ← halong]
      exact List.forall_mem_append

/-- **Quiescence after `stop`.** Whatever was pending when the scheduler was stopped, and in
whatever order the pending operations settle and other methods are called, as long as none starts
it: no request is sent, nothing is fetched or announced, and no progress, completion or chunk is
reported, exactly when no verification ends with a mismatch on a chunk that is neither there nor
being fetched, and no put ends whose chunk can be marked and announced. -/
theorem quiet_after_stop_iff (state : SchedulerState σ) (later : List SchedulerInput)
    (hlater : ∀ input ∈ later, ¬ input.2.Schedules) :
    QuietSince (stop state) (run (schedulerStep digest chunkStore) (stop state) later) ↔
      Along (schedulerStep digest chunkStore) (fun reached input ↦ ¬ Disturbs digest reached input)
        (stop state) later := by
  obtain ⟨-, added, hcalls, hiff⟩ := run_rests digest chunkStore (stopped_stop state) hlater
  rw [← hiff, QuietSince, hcalls, List.drop_left]

end Runs

/-! ### A stop during a download -/

/-- The only chunk, which no peer has, is being fetched from the origin. -/
def fetchingState : SchedulerState MemoryStorage :=
  schedulerRun id MemoryChunkStore oneChunkManifest (Bitfield.new 1) [] OrderedMap.empty
    [(calmEnv, .start)]

/-- The fetch delivers bytes, and their verification ends. -/
def lateBytes (data : Bytes) : List SchedulerInput :=
  [(calmEnv, .settled 0 (.fetched data)), (calmEnv, .settled 0 .verified)]

/-- The write of the bytes ends. -/
def lateWrite : List SchedulerInput :=
  [(calmEnv, .settled 0 .written), (calmEnv, .settled 0 .putDone)]

theorem quiet_after_stop_iff_fetchingState :
    QuietSince (stop fetchingState) (run (schedulerStep id MemoryChunkStore)
        (stop fetchingState) (lateBytes [8])) ↔
      Along (schedulerStep id MemoryChunkStore) (fun reached input ↦ ¬ Disturbs id reached input)
        (stop fetchingState) (lateBytes [8]) :=
  quiet_after_stop_iff id MemoryChunkStore fetchingState (lateBytes [8])
    (by simp [lateBytes, SchedulerEvent.Schedules])

/-- After the stop wrong bytes make the scheduler fetch the chunk again, and right ones make it
announce the chunk and report it and the complete download. -/
theorem fetchingState_disturbed :
    ¬ QuietSince (stop fetchingState) (run (schedulerStep id MemoryChunkStore)
        (stop fetchingState) (lateBytes [8])) ∧
      ¬ QuietSince (stop fetchingState) (run (schedulerStep id MemoryChunkStore)
        (stop fetchingState) (lateBytes [7] ++ lateWrite)) := by
  decide +kernel

end CampusMesh.Web
