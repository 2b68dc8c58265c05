import CampusMesh.Web.SchedulerSteps

/-!
# What a scheduler reports

`onChunkCompleted`, `onDownloadProgress` and `onDownloadComplete` report the progress of a download.
A report is true when it is made, and it stays true because marks are never taken back
(`ReportsTrue`). Progress is reported at two places: where a stored chunk is marked (`Stores`), and
where the scheduling loop (`RunsLoop`) finds the download complete. Every other event is silent
(`perform_unreported`).
-/

set_option autoImplicit false
set_option relaxedAutoImplicit false

namespace CampusMesh.Web

open Library Shared SchedulerState Relation

variable {σ : Type}

/-- The call reports progress. -/
def Call.isProgress : Call → Bool
  | .onChunkCompleted _ _ _ _ | .onDownloadProgress _ _ | .onDownloadComplete => true
  | _ => false

/-! ### Reports are true -/

/-- What a report says about the state. -/
def ReportOk (state : SchedulerState σ) : Call → Prop
  | .onChunkCompleted chunkIndex _ _ _ => state.localBitfield.has chunkIndex = true
  | .onDownloadProgress completed _ => completed ≤ state.localBitfield.count
  | .onDownloadComplete => state.localBitfield.isComplete = true
  | _ => True

/-- Every report made so far is true. -/
def ReportsTrue (state : SchedulerState σ) : Prop := ∀ call ∈ state.calls, ReportOk state call

section Reports

variable {digest : Bytes → Bytes} {chunkStore : IChunkStore σ} {env : Env}
  {state next : SchedulerState σ}

/-- A report stays true as more chunks are marked. -/
theorem ReportOk.mono (htotal : next.localBitfield.totalChunks = state.localBitfield.totalChunks)
    (hmarks : ∀ chunkIndex, state.localBitfield.has chunkIndex = true →
      next.localBitfield.has chunkIndex = true) {call : Call} (hcall : ReportOk state call) :
    ReportOk next call := by
  cases call with
  | onChunkCompleted chunkIndex => exact hmarks chunkIndex hcall
  | onDownloadProgress completed total =>
    exact le_trans hcall (Bitfield.count_mono htotal hmarks)
  | onDownloadComplete =>
    refine Bitfield.isComplete_iff.mpr fun chunkIndex hrange ↦ hmarks chunkIndex ?_
    exact Bitfield.isComplete_iff.mp hcall chunkIndex (htotal ▸ hrange)
  | _ => trivial

theorem ReportsTrue.log (hreports : ReportsTrue state) {calls : List Call}
    (hcalls : ∀ call ∈ calls, ReportOk state call) : ReportsTrue (state.log calls) := by
  intro call hmem
  rcases List.mem_append.mp hmem with hold | hnew
  · exact hreports call hold
  · exact hcalls call hnew

/-- Marks are never taken back. -/
theorem Step.has_mono (hstep : Step digest chunkStore env state next) {chunkIndex : ℕ}
    (hmarked : state.localBitfield.has chunkIndex = true) :
    next.localBitfield.has chunkIndex = true := by
  cases hstep with
  | move hmove => cases hmove <;> exact hmarked
  | mark index task data latencyMs bitfield error htask hstage hset =>
    exact (Bitfield.has_of_set hset chunkIndex).trans (by rw [hmarked, Bool.or_true])
  | complete index task data latencyMs bitfield haveMsg htask hstage hset =>
    exact (Bitfield.has_of_set hset chunkIndex).trans (by rw [hmarked, Bool.or_true])
  | _ => exact hmarked

/-- What is marked stays marked for the rest of the run. -/
theorem schedulerRun_has_append (digest : Bytes → Bytes) (chunkStore : IChunkStore σ)
    (manifest : ResourceManifest) (localBitfield : Bitfield) (heap : List Bitfield) (store : σ)
    (inputs later : List SchedulerInput) {chunkIndex : ℕ}
    (hmarked : (schedulerRun digest chunkStore manifest localBitfield heap store
      inputs).localBitfield.has chunkIndex = true) :
    (schedulerRun digest chunkStore manifest localBitfield heap store
      (inputs ++ later)).localBitfield.has chunkIndex = true := by
  have hwf := schedulerRun_wellFormed digest chunkStore manifest localBitfield heap store inputs
  rw [schedulerRun, run_append]
  exact (run_of_step (fun reached ↦ reached.localBitfield.has chunkIndex = true)
    (fun _ _ _ _ hinv hstep ↦ hstep.has_mono hinv) hwf hmarked later).2

/-- The reports of a stored chunk are true of the bitfield that marks it. -/
theorem reportOk_completionCalls (state : SchedulerState σ) {chunkIndex : ℕ}
    (hmarked : state.localBitfield.has chunkIndex = true) (manifest : ResourceManifest)
    (haveMsg : Bytes) (fromP2P : Bool) (byteLength latencyMs : ℕ) :
    ∀ call ∈ completionCalls manifest state.localBitfield haveMsg chunkIndex fromP2P byteLength
      latencyMs, ReportOk state call := by
  intro call hmem
  rcases List.mem_append.mp hmem with hfirst | hlast
  · simp only [List.mem_cons, List.not_mem_nil, or_false] at hfirst
    rcases hfirst with rfl | rfl | rfl
    · trivial
    · exact hmarked
    · exact le_rfl
  · split_ifs at hlast with hcomplete
    · rw [List.mem_singleton.mp hlast]
      exact hcomplete
    · exact absurd hlast List.not_mem_nil

/-- Every step keeps reports true. -/
theorem ReportsTrue.step (hreports : ReportsTrue state)
    (hstep : Step digest chunkStore env state next) : ReportsTrue next := by
  have hmarks : ∀ chunkIndex, state.localBitfield.has chunkIndex = true →
      next.localBitfield.has chunkIndex = true := fun _ ↦ hstep.has_mono
  cases hstep with
  | move hmove =>
    cases hmove with
    | announce hcomplete => exact hreports.log (by simpa [ReportOk] using hcomplete)
    | offer => exact hreports.log (by simp [ReportOk])
    | request => exact hreports
    | fetch => exact hreports.log (by simp [ReportOk])
  | report call hreport =>
    refine hreports.log fun other hother ↦ ?_
    rw [List.mem_singleton.mp hother]
    cases call <;> trivial
  | refetch => exact hreports.log (by simp [ReportOk])
  | accept => exact hreports.log (by simp [ReportOk])
  | mark index task data latencyMs bitfield error htask hstage hset =>
    exact fun call hmem ↦ (hreports call hmem).mono (Bitfield.totalChunks_of_set hset) hmarks
  | complete index task data latencyMs bitfield haveMsg htask hstage hset =>
    have hmarked : bitfield.has task.chunkIndex = true := by
      rw [Bitfield.has_of_set hset]
      simp
    have hold : ReportsTrue { state with localBitfield := bitfield } := fun call hmem ↦
      (hreports call hmem).mono (Bitfield.totalChunks_of_set hset) hmarks
    exact hold.log (reportOk_completionCalls { state with localBitfield := bitfield } hmarked _ _
      _ _ _)
  | _ => exact hreports

end Reports

/-! ### Silent events -/

/-- Nothing is marked and no progress is reported between two states. -/
structure Unreported (first last : SchedulerState σ) : Prop where
  localBitfield : last.localBitfield = first.localBitfield
  calls : ∃ calls, last.calls = first.calls ++ calls ∧ ∀ call ∈ calls, call.isProgress = false

/-- The same, and the scheduler is neither started nor stopped. -/
structure Silent (first last : SchedulerState σ) : Prop extends Unreported first last where
  isRunning : last.isRunning = first.isRunning

theorem Unreported.of_eq {first last : SchedulerState σ}
    (hbitfield : last.localBitfield = first.localBitfield) (hcalls : last.calls = first.calls) :
    Unreported first last :=
  ⟨hbitfield, [], by rw [hcalls, List.append_nil], by simp⟩

theorem Silent.of_eq {first last : SchedulerState σ}
    (hbitfield : last.localBitfield = first.localBitfield) (hcalls : last.calls = first.calls)
    (hrunning : last.isRunning = first.isRunning) : Silent first last :=
  ⟨Unreported.of_eq hbitfield hcalls, hrunning⟩

theorem Unreported.trans {first second third : SchedulerState σ} (hfirst : Unreported first second)
    (hsecond : Unreported second third) : Unreported first third := by
  obtain ⟨hbitfield, calls, hcalls, hsilent⟩ := hfirst
  obtain ⟨hbitfield', calls', hcalls', hsilent'⟩ := hsecond
  refine ⟨hbitfield'.trans hbitfield, calls ++ calls', ?_, fun call hmem ↦ ?_⟩
  · rw [hcalls', hcalls, List.append_assoc]
  · exact (List.mem_append.mp hmem).elim (hsilent call) (hsilent' call)

theorem Silent.refl (state : SchedulerState σ) : Silent state state := Silent.of_eq rfl rfl rfl

theorem Silent.trans {first second third : SchedulerState σ} (hfirst : Silent first second)
    (hsecond : Silent second third) : Silent first third :=
  ⟨hfirst.toUnreported.trans hsecond.toUnreported, hsecond.isRunning.trans hfirst.isRunning⟩

instance : Std.Refl (@Silent σ) := ⟨Silent.refl⟩

instance : IsTrans (SchedulerState σ) Silent := ⟨fun _ _ _ ↦ Silent.trans⟩

/-- The event goes on behind a finished write, where a stored chunk is marked. -/
def Stores (state : SchedulerState σ) : SchedulerEvent → Prop
  | .settled index .putDone => ∃ task data latencyMs, state.tasks[index]? = some task ∧
    task.stage = .putting data latencyMs true
  | _ => False

/-- The event runs the scheduling loop. -/
def RunsLoop (state : SchedulerState σ) : SchedulerEvent → Prop
  | .start => state.isRunning = false
  | .updatePeerBitfield _ _ | .removePeer _ => state.isRunning = true
  | .updatePeerHave peerId chunkIndex =>
    let located := peerBitfield peerId state
    state.isRunning = true ∧ chunkIndex < (located.1.bitfieldAt located.2).totalChunks
  | .setPeerChoked _ choked => state.isRunning = true ∧ choked = false
  | .scheduleNext => True
  | .timeout timer => state.timers.has timer = true
  | .settled index .resumed => state.isRunning = true ∧
    ∃ task, state.tasks[index]? = some task ∧ task.stage = .returned
  | _ => False

section Silent

variable {digest : Bytes → Bytes} {chunkStore : IChunkStore σ} {env : Env}
  {state last : SchedulerState σ}

theorem silent_log {calls : List Call} (hsilent : ∀ call ∈ calls, call.isProgress = false) :
    Silent state (state.log calls) :=
  ⟨⟨rfl, calls, rfl, hsilent⟩, rfl⟩

theorem silent_beginFetch (state : SchedulerState σ) (chunkIndex now : ℕ) :
    Silent state (state.beginFetch chunkIndex now) :=
  ⟨⟨rfl, [.onOriginFallback chunkIndex, .fetchFromOrigin chunkIndex], rfl,
    by simp [Call.isProgress]⟩, rfl⟩

/-- Moves of an incomplete download are silent. -/
theorem Moves.silent {strict : Prop} {about : Set ℕ} (hmoves : Moves env strict about state last)
    (hincomplete : state.localBitfield.isComplete = false) : Silent state last := by
  refine hmoves.keeps (Silent state) (fun moved _ first second hmove h ↦ ?_) (Silent.refl state)
  cases hmove with
  | announce hcomplete =>
    rw [h.localBitfield, hincomplete] at hcomplete
    exact absurd hcomplete (by simp)
  | offer => exact h.trans (silent_log (by simp [Call.isProgress]))
  | request =>
    refine h.trans ?_
    exact Silent.of_eq rfl rfl rfl
  | fetch => exact h.trans (silent_beginFetch first moved env.now)

theorem scheduleChunk_silent (env : Env) {chunkIndex : ℕ} (retries : ℕ)
    (hrange : chunkIndex < state.localBitfield.totalChunks)
    (hfree : state.inFlight.get? chunkIndex = none) :
    Silent state (scheduleChunk env chunkIndex retries state).1 := by
  cases hcomplete : state.localBitfield.isComplete with
  | false => exact (scheduleChunk_moves env retries hrange hfree False.elim).silent hcomplete
  | true =>
    rw [scheduleChunk_eq, if_pos (Bitfield.isComplete_iff.mp hcomplete chunkIndex hrange)]
    exact Silent.refl state

theorem dispatchOriginFallback_silent (env : Env) (chunkIndex : ℕ) :
    Silent state (dispatchOriginFallback env chunkIndex state).1 := by
  unfold dispatchOriginFallback
  split_ifs
  · exact Silent.refl state
  · exact silent_beginFetch state chunkIndex env.now

theorem scheduleNext_silent (hincomplete : state.localBitfield.isComplete = false) :
    Silent state (scheduleNext env state).1 :=
  (scheduleNext_moves env state).silent hincomplete

theorem scheduleIfRunning_silent
    (hloop : state.isRunning = true → state.localBitfield.isComplete = false) :
    Silent state (scheduleIfRunning env state).1 := by
  unfold scheduleIfRunning
  split_ifs with hrunning
  · exact scheduleNext_silent (hloop hrunning)
  · exact Silent.refl state

/-- Reassigning the requests of a peer is silent. -/
theorem reassign_loop_silent (env : Env) (hwf : WellFormed state) (peerId : String) :
    Silent state (Action.forEach (reassign env peerId) state.inFlight.entries state).1 := by
  refine reassign_loop_rel hwf peerId fun entry _ reached hreached hentry ↦ ?_
  unfold reassign
  split_ifs
  · have hreleased : Silent reached (release entry.1 entry.2.timer reached) :=
      Silent.of_eq rfl rfl rfl
    refine hreleased.trans (scheduleChunk_silent env _ ?_ (OrderedMap.get?_delete_self _ _))
    exact hreached.inFlight_lt entry.1 entry.2 hentry
  · exact Silent.refl reached

theorem removePeer_silent (hwf : WellFormed state) (peerId : String)
    (hloop : state.isRunning = true → state.localBitfield.isComplete = false) :
    Silent state (removePeer env peerId state).1 := by
  have hforgotten : Silent state (forget peerId state) := Silent.of_eq rfl rfl rfl
  have hassigned := hforgotten.trans (reassign_loop_silent env (hwf.forget peerId) peerId)
  rw [removePeer_eq]
  refine Action.andThen_establishes hassigned (hassigned.trans (scheduleIfRunning_silent ?_))
  rw [hassigned.isRunning, hassigned.localBitfield]
  exact hloop

theorem handleTimeout_silent (hwf : WellFormed state) {chunkIndex timer : ℕ}
    (htimer : state.timers.get? timer = some chunkIndex)
    (hincomplete : state.localBitfield.isComplete = false) :
    Silent state (handleTimeout env chunkIndex timer state).1 := by
  obtain ⟨request, hrequest, rfl⟩ := (hwf.timers_iff timer chunkIndex).mp htimer
  simp only [handleTimeout, hrequest]
  have hreleased : Silent state
      ((release chunkIndex request.timer state).log [.onRetry chunkIndex request.peerId]) :=
    ⟨⟨rfl, [.onRetry chunkIndex request.peerId], rfl, by simp [Call.isProgress]⟩, rfl⟩
  have hrange : chunkIndex < ((release chunkIndex request.timer state).log
      [.onRetry chunkIndex request.peerId]).localBitfield.totalChunks :=
    hwf.inFlight_lt chunkIndex request hrequest
  have hagain := hreleased.trans (scheduleChunk_silent env (request.retries + 1) hrange
    (OrderedMap.get?_delete_self _ _))
  refine Action.andThen_establishes hagain (hagain.trans (scheduleNext_silent ?_))
  rw [hagain.localBitfield]
  exact hincomplete

theorem handlePiece_silent (chunkIndex beginOffset totalLength : ℕ) (data : Bytes) :
    Silent state (handlePiece env chunkIndex beginOffset totalLength data state).1 := by
  unfold handlePiece
  split
  · exact Silent.refl state
  next request _ =>
  simp only
  split_ifs
  · unfold completePiece
    simp only
    split
    · exact Silent.of_eq rfl rfl rfl
    · next assembled _ =>
      rcases verifyAndStoreChunk_cases chunkIndex assembled (pieceLatency env request)
        (release chunkIndex request.timer state) with ⟨_, _, heq⟩ | ⟨_, message, heq⟩
      · simp only [heq]
        exact Silent.of_eq rfl rfl rfl
      · simp only [heq]
        exact ⟨⟨rfl, [.onError message], rfl, by simp [Call.isProgress]⟩, rfl⟩
  · exact Silent.of_eq rfl rfl rfl

theorem reject_silent (index : ℕ) (task : Task) (error : String) :
    Silent state (reject index task error state) := by
  unfold reject
  split_ifs <;> exact Silent.of_eq rfl rfl rfl

theorem finish_silent (index : ℕ) (task : Task)
    (hloop : state.isRunning = true → state.localBitfield.isComplete = false) :
    Silent state (finish env index task state) := by
  have hsettled : Silent state (settle index state) := Silent.of_eq rfl rfl rfl
  have hfinished : Silent state { settle index state with
      originInFlight := state.originInFlight.erase task.chunkIndex } := Silent.of_eq rfl rfl rfl
  unfold finish
  simp only
  split_ifs
  · exact hsettled.trans (scheduleIfRunning_silent hloop)
  · exact hfinished.trans (scheduleIfRunning_silent hloop)

/-- A task that goes on anywhere but behind its finished write is silent, as long as the loop does
not find the download complete. -/
theorem continueTask_silent {index : ℕ} {task : Task} (htask : state.tasks[index]? = some task)
    (settlement : Settlement) (hstores : ¬ Stores state (.settled index settlement))
    (hloop : RunsLoop state (.settled index settlement) →
      state.localBitfield.isComplete = false) :
    Silent state (continueTask digest chunkStore env index task settlement state) := by
  have htransition := continueTask_transition digest chunkStore env index task settlement state
  generalize continueTask digest chunkStore env index task settlement state = next
    at htransition ⊢
  cases htransition with
  | ignored => exact Silent.refl state
  | fetched fetchStart data =>
    rcases verifyAndStoreChunk_cases task.chunkIndex data (latencySince env fetchStart) state with
      ⟨_, _, heq⟩ | ⟨_, message, heq⟩
    · rw [heq]
      exact Silent.of_eq rfl rfl rfl
    · rw [heq]
      exact ⟨⟨rfl, [.onError message], rfl, by simp [Call.isProgress]⟩, rfl⟩
  | fetchFailed | written => exact Silent.of_eq rfl rfl rfl
  | verified expected data latencyMs =>
    unfold afterVerify
    simp only
    split_ifs
    · have hreported : Silent state (state.log (corruptionCalls task.chunkIndex expected
          (verify digest data expected).actualHash)) :=
        silent_log (by simp [corruptionCalls, Call.isProgress])
      have hfetched := hreported.trans (dispatchOriginFallback_silent env task.chunkIndex)
      refine hfetched.trans ?_
      exact Silent.of_eq rfl rfl rfl
    · exact ⟨⟨rfl, [.put state.resourceId task.chunkIndex data], rfl, by simp [Call.isProgress]⟩,
        rfl⟩
  | verifyFailed _ _ _ error | putFailed _ _ _ error => exact reject_silent index task error
  | putDone data latencyMs hstage =>
    exact absurd ⟨task, data, latencyMs, htask, hstage⟩ hstores
  | caught error =>
    exact ⟨⟨rfl, [.onError (originFailure task.chunkIndex error)], rfl,
      by simp [Call.isProgress]⟩, rfl⟩
  | finished hstage =>
    exact finish_silent index task fun hrunning ↦ hloop ⟨hrunning, task, htask, hstage⟩

theorem updatePeerHave_silent (peerId : String) (chunkIndex : ℕ)
    (hloop : RunsLoop state (.updatePeerHave peerId chunkIndex) →
      state.localBitfield.isComplete = false) :
    Silent state (updatePeerHave env peerId chunkIndex state).1 := by
  have hlocated : Silent state (peerBitfield peerId state).1 := by
    unfold peerBitfield
    split <;> exact Silent.of_eq rfl rfl rfl
  unfold updatePeerHave
  simp only
  split
  · exact hlocated
  · next bitfield hset =>
    have hmarked : Silent state { (peerBitfield peerId state).1 with
        heap := (peerBitfield peerId state).1.heap.set (peerBitfield peerId state).2 bitfield } :=
      hlocated.trans (Silent.of_eq rfl rfl rfl)
    refine hmarked.trans (scheduleIfRunning_silent fun hrunning ↦ ?_)
    rw [hmarked.localBitfield]
    exact hloop ⟨hmarked.isRunning ▸ hrunning, Bitfield.set_isOk_iff.mp ⟨bitfield, hset⟩⟩

/-- **Silent events.** An event that does not go on behind a finished write marks no chunk, and it
reports no progress as long as the loop, if it runs, does not find the download complete. -/
theorem perform_unreported (hwf : WellFormed state) (event : SchedulerEvent)
    (hstores : ¬ Stores state event)
    (hloop : RunsLoop state event → state.localBitfield.isComplete = false) :
    Unreported state (perform digest chunkStore env event state).1 := by
  cases event with
  | start =>
    change Unreported state (start env state).1
    unfold start
    split_ifs with hrunning
    · exact Unreported.of_eq rfl rfl
    · have hstarted : Unreported state { state with isRunning := true } :=
        Unreported.of_eq rfl rfl
      refine hstarted.trans (scheduleNext_silent ?_).toUnreported
      exact hloop (Bool.eq_false_iff.mpr hrunning)
  | stop => exact Unreported.of_eq rfl rfl
  | updatePeerBitfield peerId address =>
    have hbooks : Silent state { state with
        peerBitfields := state.peerBitfields.set peerId address
        peerChoked :=
          if state.peerChoked.has peerId then state.peerChoked
          else state.peerChoked.set peerId false } := Silent.of_eq rfl rfl rfl
    exact (hbooks.trans (scheduleIfRunning_silent hloop)).toUnreported
  | updatePeerHave peerId chunkIndex =>
    exact (updatePeerHave_silent peerId chunkIndex hloop).toUnreported
  | setPeerChoked peerId choked =>
    have hbooks : Silent state { state with
        peerChoked := state.peerChoked.set peerId choked } := Silent.of_eq rfl rfl rfl
    change Unreported state (setPeerChoked env peerId choked state).1
    unfold setPeerChoked
    simp only
    split_ifs with hchoked
    · exact hbooks.toUnreported
    · exact (hbooks.trans (scheduleIfRunning_silent fun hrunning ↦
        hloop ⟨hrunning, by simpa using hchoked⟩)).toUnreported
  | removePeer peerId => exact (removePeer_silent hwf peerId hloop).toUnreported
  | scheduleNext => exact (scheduleNext_silent (hloop trivial)).toUnreported
  | handlePiece chunkIndex beginOffset totalLength data =>
    exact (handlePiece_silent chunkIndex beginOffset totalLength data).toUnreported
  | timeout timer =>
    simp only [perform]
    split
    · next chunkIndex htimer =>
      exact (handleTimeout_silent hwf htimer
        (hloop (OrderedMap.has_iff_exists.mpr ⟨chunkIndex, htimer⟩))).toUnreported
    · exact Unreported.of_eq rfl rfl
  | settled index settlement =>
    simp only [perform]
    split
    · next task htask => exact (continueTask_silent htask settlement hstores hloop).toUnreported
    · exact Unreported.of_eq rfl rfl
  | shared heap => exact Unreported.of_eq rfl rfl

end Silent

end CampusMesh.Web
