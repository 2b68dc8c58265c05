import CampusMesh.Web.CoordinatorInvariants
import CampusMesh.Web.SchedulerBitfields

/-!
# At most one live download

`startDownload` stops the scheduler that runs, waits for the list of stored chunks, and then
installs and starts its own scheduler. A call that goes on late starts a scheduler beside the one of
a later call, or after `stop()`. `ResumesCurrent` is the condition that a call goes on to start a
scheduler only if it is the latest one and nothing was stopped since; then the scheduler in
`this.scheduler` is the only one that runs (`oneLiveDownload_of_resumesCurrent`). The invariant is
that while the latest call waits nothing runs.
-/

set_option autoImplicit false
set_option relaxedAutoImplicit false

namespace CampusMesh.Web

open Library Shared SchedulerState CoordinatorState

variable {σ : Type}

/-! ### The promise -/

/-- A scheduler that runs is the one in `this.scheduler`, and it is for `currentManifest`. -/
def OneLive (state : CoordinatorState σ) : Prop :=
  ∀ (index : ℕ) (scheduler : ChunkScheduler), state.schedulers[index]? = some scheduler →
    scheduler.isRunning = true →
    state.scheduler = some index ∧ state.currentManifest = some scheduler.manifest

/-- No scheduler runs. -/
def NoneLive (state : CoordinatorState σ) : Prop :=
  ∀ (index : ℕ) (scheduler : ChunkScheduler), state.schedulers[index]? = some scheduler →
    scheduler.isRunning = false

/-- Whether an event is a call of `startDownload`. -/
def CoordinatorEvent.isStart : CoordinatorEvent → Bool
  | .startDownload _ => true
  | _ => false

/-- A coordinator, and for the history the number of calls of `startDownload` when `stop` was last
called. -/
abbrev Tracked (σ : Type) := CoordinatorState σ × ℕ

/-- One step of a coordinator that keeps this number. -/
def trackedStep (digest : Bytes → Bytes) (chunkStore : ListingStore σ) (tracked : Tracked σ)
    (input : CoordinatorInput) : Tracked σ :=
  (coordinatorStep digest chunkStore tracked.1 input,
    match input.2 with
    | .stop => tracked.1.history.startCalls
    | _ => tracked.2)

/-- A call of `startDownload` that goes on, with chunks still missing, is the latest call, and
`stop` was not called since. -/
def ResumesCurrent (tracked : Tracked σ) (input : CoordinatorInput) : Prop :=
  match input.2 with
  | .startResumed index =>
    ∀ start available localBitfield, tracked.1.starts[index]? = some start →
      start.available = some available →
      markAll (Bitfield.new start.manifest.totalChunks) available = .ok localBitfield →
      localBitfield.isComplete = false →
      start.call + 1 = tracked.1.history.startCalls ∧ tracked.2 ≤ start.call
  | _ => True

/-! ### What starts nothing -/

/-- A change that starts no download and no scheduler. -/
structure Unstarted (state next : CoordinatorState σ) : Prop where
  scheduler : next.scheduler = state.scheduler
  currentManifest : next.currentManifest = state.currentManifest
  starts : next.starts = state.starts
  startCalls : next.history.startCalls = state.history.startCalls
  schedulers : ∀ (index : ℕ) (later : ChunkScheduler), next.schedulers[index]? = some later →
    ∃ earlier : ChunkScheduler, state.schedulers[index]? = some earlier ∧
      later.manifest = earlier.manifest ∧ (later.isRunning = true → earlier.isRunning = true)

section Unstarted

variable {digest : Bytes → Bytes} {chunkStore : ListingStore σ} {env : Env}
  {state next : CoordinatorState σ}

theorem Unstarted.of_eq (hscheduler : next.scheduler = state.scheduler)
    (hmanifest : next.currentManifest = state.currentManifest)
    (hstarts : next.starts = state.starts)
    (hcalls : next.history.startCalls = state.history.startCalls)
    (hschedulers : next.schedulers = state.schedulers) : Unstarted state next :=
  ⟨hscheduler, hmanifest, hstarts, hcalls,
    fun _ later hlater ↦ ⟨later, hschedulers ▸ hlater, rfl, id⟩⟩

theorem Unstarted.refl (state : CoordinatorState σ) : Unstarted state state :=
  Unstarted.of_eq rfl rfl rfl rfl rfl

theorem Unstarted.trans {first second third : CoordinatorState σ} (hfirst : Unstarted first second)
    (hsecond : Unstarted second third) : Unstarted first third where
  scheduler := hsecond.scheduler.trans hfirst.scheduler
  currentManifest := hsecond.currentManifest.trans hfirst.currentManifest
  starts := hsecond.starts.trans hfirst.starts
  startCalls := hsecond.startCalls.trans hfirst.startCalls
  schedulers index latest hlatest := by
    obtain ⟨later, hlater, hmanifest, hrunning⟩ := hsecond.schedulers index latest hlatest
    obtain ⟨earlier, hearlier, hmanifest', hrunning'⟩ := hfirst.schedulers index later hlater
    exact ⟨earlier, hearlier, hmanifest.trans hmanifest', hrunning' ∘ hrunning⟩

theorem Reported.unstarted (hreported : Reported state next) : Unstarted state next :=
  Unstarted.of_eq hreported.scheduler hreported.currentManifest hreported.starts
    hreported.startCalls hreported.schedulers

/-- The schedulers after an event of one of them: only `start` and `stop` change whether it runs. -/
theorem onScheduler_running (index : ℕ) (event : SchedulerEvent) {other : ℕ}
    {later : ChunkScheduler} (hlater :
      (onScheduler digest chunkStore env index event state).1.schedulers[other]? = some later) :
    ∃ earlier, state.schedulers[other]? = some earlier ∧ later.manifest = earlier.manifest ∧
      later.isRunning =
        if other = index then event.running earlier.isRunning else earlier.isRunning := by
  cases hget : state.schedulers[index]? with
  | none =>
    rw [onScheduler_of_none hget] at hlater
    refine ⟨later, hlater, rfl, ?_⟩
    rw [if_neg]
    rintro rfl
    rw [hget] at hlater
    cases hlater
  | some scheduler =>
    rw [onScheduler_of_get hget, (reported_applyCalls _ _ _).schedulers, performedState,
      List.getElem?_set] at hlater
    split_ifs at hlater with hsame hin
    · subst hsame
      refine ⟨scheduler, hget, ?_⟩
      rw [if_pos rfl, ← Option.some.inj hlater]
      have hcases := perform_cases digest chunkStore.toIChunkStore env event
        (state.schedulerState scheduler)
      exact ⟨hcases.1.manifest.trans (bitfieldsAfter_manifest _ event), hcases.2⟩
    · refine ⟨later, hlater, rfl, ?_⟩
      rw [if_neg (Ne.symm hsame)]

theorem onScheduler_unstarted (index : ℕ) (event : SchedulerEvent) (hevent : event ≠ .start) :
    Unstarted state (onScheduler digest chunkStore env index event state).1 := by
  have huninvolved := onScheduler_uninvolved digest chunkStore env index event state
  refine ⟨huninvolved.scheduler, huninvolved.currentManifest, huninvolved.starts,
    huninvolved.startCalls, fun other later hlater ↦ ?_⟩
  obtain ⟨earlier, hearlier, hmanifest, hrunning⟩ := onScheduler_running index event hlater
  refine ⟨earlier, hearlier, hmanifest, fun hlive ↦ ?_⟩
  rw [hrunning] at hlive
  split_ifs at hlive
  · cases event with
    | start => exact absurd rfl hevent
    | stop => cases hlive
    | _ => exact hlive
  · exact hlive

theorem onCurrentScheduler_unstarted (event : SchedulerEvent) (hevent : event ≠ .start)
    (state : CoordinatorState σ) :
    Unstarted state (onCurrentScheduler digest chunkStore env event state) := by
  unfold onCurrentScheduler
  split
  · exact onScheduler_unstarted _ event hevent
  · exact Unstarted.refl state

theorem onCurrentScheduler_starts (event : SchedulerEvent) (state : CoordinatorState σ) :
    (onCurrentScheduler digest chunkStore env event state).starts = state.starts ∧
      (onCurrentScheduler digest chunkStore env event state).history.startCalls =
        state.history.startCalls := by
  unfold onCurrentScheduler
  split
  · next index _ =>
    have huninvolved := onScheduler_uninvolved digest chunkStore env index event state
    exact ⟨huninvolved.starts, huninvolved.startCalls⟩
  · exact ⟨rfl, rfl⟩

theorem onSchedulerFor_unstarted (resourceId : String) (event : SchedulerEvent)
    (hevent : event ≠ .start) (state : CoordinatorState σ) :
    Unstarted state (onSchedulerFor digest chunkStore env resourceId event state) := by
  unfold onSchedulerFor
  split_ifs
  · exact onCurrentScheduler_unstarted event hevent state
  · exact Unstarted.refl state

theorem connect_unstarted (remotePeerId : String) (isInitiator : Bool)
    (state : CoordinatorState σ) : Unstarted state (connect remotePeerId isInitiator state) := by
  unfold connect
  split_ifs
  · exact Unstarted.refl state
  · exact Unstarted.of_eq rfl rfl rfl rfl rfl

theorem handlePeerLeft_unstarted (remotePeerId : String) (state : CoordinatorState σ) :
    Unstarted state (handlePeerLeft digest chunkStore env remotePeerId state) := by
  have hforgotten : Unstarted state { state with
      peers := state.peers.delete remotePeerId
      peerBitfields := state.peerBitfields.delete remotePeerId
      history := { state.history with
        announcements := state.history.announcements.delete remotePeerId } } :=
    Unstarted.of_eq rfl rfl rfl rfl rfl
  exact hforgotten.trans (onCurrentScheduler_unstarted (.removePeer remotePeerId) (by simp) _)

theorem channelOpen_unstarted (remotePeerId : String) (state : CoordinatorState σ) :
    Unstarted state (channelOpen remotePeerId state) := by
  unfold channelOpen
  split
  · next connection _ =>
    have hopened : Unstarted state { state with
        peers := state.peers.set remotePeerId { connection with channelOpen := true } } :=
      Unstarted.of_eq rfl rfl rfl rfl rfl
    exact hopened.trans (reported_handleChannelOpen _ _).unstarted
  · exact Unstarted.refl state

theorem recordedBitfield_unstarted (remotePeerId : String) (state : CoordinatorState σ) :
    Unstarted state (recordedBitfield remotePeerId state).1 := by
  unfold recordedBitfield
  split <;> exact Unstarted.of_eq rfl rfl rfl rfl rfl

theorem handleHave_unstarted (remotePeerId resourceId : String) (chunkIndex : ℕ)
    (state : CoordinatorState σ) :
    Unstarted state
      (handleHave digest chunkStore env remotePeerId resourceId chunkIndex state) := by
  have hrecorded := recordedBitfield_unstarted remotePeerId state
  have htold := @onSchedulerFor_unstarted σ digest chunkStore env resourceId
    (.updatePeerHave remotePeerId chunkIndex) (by simp)
  unfold handleHave
  simp only
  split
  · exact hrecorded.trans (htold _)
  · next address _ =>
    split
    · exact hrecorded
    · next bitfield _ =>
      have hmarked : Unstarted (recordedBitfield remotePeerId state).1
          { (recordedBitfield remotePeerId state).1 with
            heap := (recordedBitfield remotePeerId state).1.heap.set address bitfield } :=
        Unstarted.of_eq rfl rfl rfl rfl rfl
      exact hrecorded.trans (hmarked.trans (htold _))

theorem handleBitfield_unstarted (remotePeerId resourceId : String) (bitfield : Bitfield)
    (state : CoordinatorState σ) :
    Unstarted state
      (handleBitfield digest chunkStore env remotePeerId resourceId bitfield state) := by
  have hkept : Unstarted state { state with
      heap := state.heap ++ [bitfield]
      peerBitfields := state.peerBitfields.set remotePeerId state.heap.length } :=
    Unstarted.of_eq rfl rfl rfl rfl rfl
  exact hkept.trans (onSchedulerFor_unstarted resourceId
    (.updatePeerBitfield remotePeerId state.heap.length) (by simp) _)

theorem handleDataMessage_unstarted (remotePeerId : String) (raw : Bytes)
    (state : CoordinatorState σ) :
    Unstarted state (handleDataMessage digest chunkStore env remotePeerId raw state) := by
  have hannounced : ∀ announcement, Unstarted state (announce remotePeerId announcement state) :=
    fun _ ↦ Unstarted.of_eq rfl rfl rfl rfl rfl
  unfold handleDataMessage
  split
  · exact Unstarted.refl state
  · next resourceId totalChunks bitfield _ =>
    exact (hannounced (.bitfield resourceId bitfield)).trans (handleBitfield_unstarted _ _ _ _)
  · next resourceId chunkIndex _ =>
    exact (hannounced (.have resourceId chunkIndex)).trans (handleHave_unstarted _ _ _ _)
  · exact Unstarted.of_eq rfl rfl rfl rfl rfl
  · next resourceId chunkIndex beginOffset totalLength data _ =>
    exact onSchedulerFor_unstarted resourceId
      (.handlePiece chunkIndex beginOffset totalLength data) (by simp) state
  · next resourceId _ =>
    exact onSchedulerFor_unstarted resourceId (.setPeerChoked remotePeerId true) (by simp) state
  · next resourceId _ =>
    exact onSchedulerFor_unstarted resourceId (.setPeerChoked remotePeerId false) (by simp) state

theorem resumeServe_unstarted (serve : PendingServe) (state : CoordinatorState σ) :
    Unstarted state (resumeServe serve state) := by
  have hsends : ∀ (frames : List Bytes) (reached : CoordinatorState σ), Unstarted reached
      (frames.foldl (fun current pieceMsg ↦ send serve.peerId pieceMsg current) reached) := by
    intro frames
    induction frames with
    | nil => exact Unstarted.refl
    | cons frame rest ih =>
      exact fun reached ↦ (reported_send serve.peerId frame reached).unstarted.trans (ih _)
  unfold resumeServe
  split
  · exact hsends _ state
  · exact Unstarted.refl state

theorem provideBitfields_unstarted (state : CoordinatorState σ) :
    Unstarted state (provideBitfields digest chunkStore env state) := by
  unfold provideBitfields
  generalize state.peerBitfields.entries = entries
  induction entries generalizing state with
  | nil => exact Unstarted.refl state
  | cons entry rest ih =>
    exact (onCurrentScheduler_unstarted (.updatePeerBitfield entry.1 entry.2) (by simp) state).trans
      (ih _)

theorem broadcast_unstarted (buffer : Bytes) (state : CoordinatorState σ) :
    Unstarted state (broadcast buffer state) :=
  Unstarted.of_eq rfl rfl rfl rfl rfl

theorem returnStart_unstarted (start : PendingStart) (state : CoordinatorState σ) :
    Unstarted state (returnStart start state) := by
  unfold returnStart
  split_ifs <;> exact Unstarted.of_eq rfl rfl rfl rfl rfl

/-- Events other than those of `startDownload` and `stop` start nothing. -/
theorem coordinatorStep_unstarted {event : CoordinatorEvent}
    (hevent : event.isHandled = true ∨ ∃ remotePeerId, event = .channelOpened remotePeerId)
    (state : CoordinatorState σ) :
    Unstarted state (coordinatorStep digest chunkStore state (env, event)) := by
  have htransition := coordinatorStep_transition digest chunkStore env state event
  generalize coordinatorStep digest chunkStore state (env, event) = next at htransition ⊢
  cases htransition with
  | ignored => exact Unstarted.refl state
  | peerDiscovered remotePeerId | signalOffer remotePeerId =>
    exact connect_unstarted remotePeerId _ state
  | peerLeft remotePeerId | channelClosed remotePeerId =>
    exact handlePeerLeft_unstarted remotePeerId state
  | channelOpened remotePeerId => exact channelOpen_unstarted remotePeerId state
  | dataMessage remotePeerId raw => exact handleDataMessage_unstarted remotePeerId raw state
  | serveRead | serveFailed => exact Unstarted.of_eq rfl rfl rfl rfl rfl
  | serveResumed index serve =>
    have herased : Unstarted state { state with serves := state.serves.eraseIdx index } :=
      Unstarted.of_eq rfl rfl rfl rfl rfl
    exact herased.trans (resumeServe_unstarted serve _)
  | timeout scheduler timer => exact onScheduler_unstarted scheduler (.timeout timer) (by simp)
  | settled scheduler index settlement =>
    exact onScheduler_unstarted scheduler (.settled index settlement) (by simp)
  | startDownload | startRead | startResumed | startFailed | stop =>
    rcases hevent with hhandled | ⟨_, hopened⟩
    · exact absurd hhandled Bool.false_ne_true
    · cases hopened

theorem resumeStart_currentManifest (start : PendingStart) (available : List ℕ)
    (state : CoordinatorState σ) :
    (resumeStart digest chunkStore env start available state).currentManifest =
      state.currentManifest := by
  unfold resumeStart
  simp only
  split
  · rfl
  · next localBitfield _ =>
    split_ifs
    · exact (returnStart_unstarted start _).currentManifest
    · have hprovided := @provideBitfields_unstarted σ digest chunkStore env
        (installScheduler start localBitfield (beginDownload start.manifest localBitfield state))
      split
      · exact hprovided.currentManifest
      · rw [(returnStart_unstarted start _).currentManifest,
          (onCurrentScheduler_uninvolved digest chunkStore env .start _).currentManifest]
        exact hprovided.currentManifest

/-- Only `startDownload` changes the manifest that is current. -/
theorem coordinatorStep_currentManifest {event : CoordinatorEvent}
    (hevent : ∀ manifest, event ≠ .startDownload manifest) (state : CoordinatorState σ) :
    (coordinatorStep digest chunkStore state (env, event)).currentManifest =
      state.currentManifest := by
  cases event with
  | startDownload manifest => exact absurd rfl (hevent manifest)
  | startRead index =>
    simp only [coordinatorStep]
    split <;> rfl
  | startResumed index =>
    simp only [coordinatorStep]
    split
    · split
      · rw [resumeStart_currentManifest]
      · rfl
    · rfl
  | startFailed => rfl
  | stop => exact (onCurrentScheduler_uninvolved digest chunkStore env .stop state).currentManifest
  | channelOpened remotePeerId =>
    exact (coordinatorStep_unstarted (Or.inr ⟨remotePeerId, rfl⟩) state).currentManifest
  | _ => exact (coordinatorStep_unstarted (Or.inl rfl) state).currentManifest

theorem OneLive.unstarted (hlive : OneLive state) (hunstarted : Unstarted state next) :
    OneLive next := by
  intro index later hlater hrunning
  obtain ⟨earlier, hearlier, hmanifest, hran⟩ := hunstarted.schedulers index later hlater
  rw [hunstarted.scheduler, hunstarted.currentManifest, hmanifest]
  exact hlive index earlier hearlier (hran hrunning)

theorem NoneLive.unstarted (hnone : NoneLive state) (hunstarted : Unstarted state next) :
    NoneLive next := by
  intro index later hlater
  obtain ⟨earlier, hearlier, _, hran⟩ := hunstarted.schedulers index later hlater
  rw [Bool.eq_false_iff]
  intro hrunning
  exact absurd (hran hrunning) (by rw [hnone index earlier hearlier]; exact Bool.false_ne_true)

end Unstarted

/-! ### The invariant -/

/-- What holds between the steps of a coordinator: while the latest call of `startDownload` waits no
scheduler runs and its manifest is the current one, and none runs while nothing was started since
the last `stop`. -/
structure Orderly (tracked : Tracked σ) : Prop where
  oneLive : OneLive tracked.1
  calls : ∀ start ∈ tracked.1.starts, start.call < tracked.1.history.startCalls
  distinct : (tracked.1.starts.map PendingStart.call).Nodup
  waiting : ∀ start ∈ tracked.1.starts, start.call + 1 = tracked.1.history.startCalls →
    NoneLive tracked.1 ∧ tracked.1.currentManifest = some start.manifest
  bound : tracked.2 ≤ tracked.1.history.startCalls
  stopped : tracked.2 = tracked.1.history.startCalls → NoneLive tracked.1

section Steps

variable {digest : Bytes → Bytes} {chunkStore : ListingStore σ} {env : Env}
  {state next : CoordinatorState σ} {stoppedAt : ℕ}

theorem orderly_new (localPeerId : String) (store : σ) :
    Orderly (CoordinatorState.new localPeerId store, 0) :=
  ⟨nofun, nofun, List.nodup_nil, nofun, le_rfl, fun _ ↦ nofun⟩

theorem Orderly.unstarted (horderly : Orderly (state, stoppedAt))
    (hunstarted : Unstarted state next) : Orderly (next, stoppedAt) where
  oneLive := horderly.oneLive.unstarted hunstarted
  calls := by
    simp only [hunstarted.starts, hunstarted.startCalls]
    exact horderly.calls
  distinct := by
    simp only [hunstarted.starts]
    exact horderly.distinct
  waiting := by
    simp only [hunstarted.starts, hunstarted.startCalls, hunstarted.currentManifest]
    exact fun start hmem hlatest ↦
      ⟨(horderly.waiting start hmem hlatest).1.unstarted hunstarted,
        (horderly.waiting start hmem hlatest).2⟩
  bound := hunstarted.startCalls ▸ horderly.bound
  stopped := fun hsame ↦
    (horderly.stopped (hsame.trans hunstarted.startCalls)).unstarted hunstarted

/-- Calls that wait may go on or be answered by the store. -/
theorem Orderly.of_starts (horderly : Orderly (state, stoppedAt)) {starts : List PendingStart}
    (hdistinct : (starts.map PendingStart.call).Nodup)
    (hmem : ∀ start ∈ starts, ∃ earlier ∈ state.starts, earlier.call = start.call ∧
      earlier.manifest = start.manifest) :
    Orderly ({ state with starts := starts }, stoppedAt) where
  oneLive := horderly.oneLive
  calls := fun start hstart ↦ by
    obtain ⟨earlier, hearlier, hcall, _⟩ := hmem start hstart
    exact hcall ▸ horderly.calls earlier hearlier
  distinct := hdistinct
  waiting := fun start hstart hlatest ↦ by
    obtain ⟨earlier, hearlier, hcall, hmanifest⟩ := hmem start hstart
    exact hmanifest ▸ horderly.waiting earlier hearlier (hcall.symm ▸ hlatest)
  bound := horderly.bound
  stopped := horderly.stopped

theorem Orderly.erase (horderly : Orderly (state, stoppedAt)) (index : ℕ) :
    Orderly ({ state with starts := state.starts.eraseIdx index }, stoppedAt) :=
  horderly.of_starts (((List.eraseIdx_sublist _ _).map _).nodup horderly.distinct)
    fun start hstart ↦ ⟨start, List.mem_of_mem_eraseIdx hstart, rfl, rfl⟩

/-- Stopping the scheduler that runs leaves none that does. -/
theorem OneLive.stopped (hlive : OneLive state) :
    NoneLive (onCurrentScheduler digest chunkStore env .stop state) := by
  intro index later hlater
  rw [Bool.eq_false_iff]
  intro hrunning
  unfold onCurrentScheduler at hlater
  cases hscheduler : state.scheduler with
  | none =>
    rw [hscheduler] at hlater
    have hcurrent := (hlive index later hlater hrunning).1
    rw [hscheduler] at hcurrent
    cases hcurrent
  | some current =>
    rw [hscheduler] at hlater
    obtain ⟨earlier, hearlier, _, hran⟩ := onScheduler_running current .stop hlater
    rw [hrunning] at hran
    split_ifs at hran with hsame
    · cases hran
    · have hcurrent := (hlive index earlier hearlier hran.symm).1
      rw [hscheduler] at hcurrent
      exact hsame (Option.some.inj hcurrent).symm

theorem startDownload_orderly (horderly : Orderly (state, stoppedAt))
    (manifest : ResourceManifest) :
    Orderly (startDownload digest chunkStore env manifest state, stoppedAt) := by
  have hnone : NoneLive (onCurrentScheduler digest chunkStore env .stop state) :=
    horderly.oneLive.stopped
  have hstopped := horderly.unstarted
    (@onCurrentScheduler_unstarted σ digest chunkStore env .stop (by simp) state)
  have hcalls : ∀ start ∈ (onCurrentScheduler digest chunkStore env .stop state).starts,
      start.call < (onCurrentScheduler digest chunkStore env .stop state).history.startCalls :=
    hstopped.calls
  have hbound : stoppedAt ≤
      (onCurrentScheduler digest chunkStore env .stop state).history.startCalls := hstopped.bound
  refine ⟨fun index later hlater hrunning ↦ ?_, ?_, ?_, ?_, ?_, fun hsame ↦ ?_⟩
  · exact absurd hrunning (by rw [hnone index later hlater]; exact Bool.false_ne_true)
  · intro start hmem
    rcases List.mem_append.mp hmem with hold | hnew
    · exact (hcalls start hold).trans (Nat.lt_succ_self _)
    · rw [List.mem_singleton.mp hnew]
      exact Nat.lt_succ_self _
  · change ((_ ++ [_]).map PendingStart.call).Nodup
    rw [List.map_append]
    refine hstopped.distinct.append (List.nodup_singleton _) ?_
    rw [List.map_singleton, List.disjoint_singleton]
    intro hmem
    obtain ⟨start, hstart, hcall⟩ := List.mem_map.mp hmem
    exact absurd (hcalls start hstart) (by rw [hcall]; exact lt_irrefl _)
  · intro start hmem hlatest
    rcases List.mem_append.mp hmem with hold | hnew
    · have hless := hcalls start hold
      have hlast := Nat.succ.inj hlatest
      omega
    · rw [List.mem_singleton.mp hnew]
      exact ⟨hnone, rfl⟩
  · exact hbound.trans (Nat.le_succ _)
  · exact absurd (hsame.ge.trans hbound) (Nat.not_succ_le_self _)

theorem stopCoordinator_orderly (horderly : Orderly (state, stoppedAt)) :
    Orderly (stopCoordinator digest chunkStore env state, state.history.startCalls) := by
  have hnone : NoneLive (onCurrentScheduler digest chunkStore env .stop state) :=
    horderly.oneLive.stopped
  have hunstarted := @onCurrentScheduler_unstarted σ digest chunkStore env .stop (by simp) state
  have hstopped := horderly.unstarted hunstarted
  refine ⟨fun index later hlater hrunning ↦ ?_, hstopped.calls, hstopped.distinct,
    hstopped.waiting, hunstarted.startCalls.ge, fun _ ↦ hnone⟩
  exact absurd hrunning (by rw [hnone index later hlater]; exact Bool.false_ne_true)

/-- A state in which the scheduler in `this.scheduler` may start: none runs yet, and it is for
`currentManifest`. -/
structure Installed (state : CoordinatorState σ) : Prop where
  noneLive : NoneLive state
  manifest : ∀ (index : ℕ) (scheduler : ChunkScheduler), state.scheduler = some index →
    state.schedulers[index]? = some scheduler → state.currentManifest = some scheduler.manifest

theorem Installed.unstarted (hinstalled : Installed state) (hunstarted : Unstarted state next) :
    Installed next where
  noneLive := hinstalled.noneLive.unstarted hunstarted
  manifest index later hscheduler hlater := by
    obtain ⟨earlier, hearlier, hmanifest, _⟩ := hunstarted.schedulers index later hlater
    rw [hunstarted.scheduler] at hscheduler
    rw [hunstarted.currentManifest, hmanifest]
    exact hinstalled.manifest index earlier hscheduler hearlier

/-- Starting it leaves no other running. -/
theorem Installed.started (hinstalled : Installed state) :
    OneLive (onCurrentScheduler digest chunkStore env .start state) := by
  intro index later hlater hrunning
  unfold onCurrentScheduler at hlater ⊢
  cases hscheduler : state.scheduler with
  | none =>
    rw [hscheduler] at hlater
    rw [hinstalled.noneLive index later hlater] at hrunning
    cases hrunning
  | some current =>
    rw [hscheduler] at hlater
    have huninvolved := onScheduler_uninvolved digest chunkStore env current .start state
    obtain ⟨earlier, hearlier, hmanifest, hran⟩ := onScheduler_running current .start hlater
    rw [hrunning] at hran
    split_ifs at hran with hsame
    · subst hsame
      refine ⟨huninvolved.scheduler.trans hscheduler, huninvolved.currentManifest.trans ?_⟩
      rw [hmanifest]
      exact hinstalled.manifest index earlier hscheduler hearlier
    · rw [hinstalled.noneLive index earlier hearlier] at hran
      cases hran

/-- The scheduler of a call is installed but not yet started. -/
theorem installScheduler_noneLive (hnone : NoneLive state) (start : PendingStart)
    (localBitfield : Bitfield) : NoneLive (installScheduler start localBitfield state) := by
  intro index later hlater
  change (state.schedulers ++ [_])[index]? = some later at hlater
  rw [List.getElem?_append] at hlater
  split_ifs at hlater with hold
  · exact hnone index later hlater
  · rw [List.mem_singleton.mp (List.mem_of_getElem? hlater)]
    rfl

theorem installScheduler_installed (hnone : NoneLive state) {start : PendingStart}
    (hcurrent : state.currentManifest = some start.manifest) (localBitfield : Bitfield) :
    Installed (installScheduler start localBitfield state) where
  noneLive := installScheduler_noneLive hnone start localBitfield
  manifest index later hscheduler hlater := by
    change some state.schedulers.length = some index at hscheduler
    change (state.schedulers ++ [_])[index]? = some later at hlater
    rw [← Option.some.inj hscheduler, List.getElem?_concat_length] at hlater
    rw [← Option.some.inj hlater]
    exact hcurrent

theorem installScheduler_orderly (horderly : Orderly (state, stoppedAt)) (hnone : NoneLive state)
    (start : PendingStart) (localBitfield : Bitfield) :
    Orderly (installScheduler start localBitfield state, stoppedAt) := by
  have hafter := installScheduler_noneLive hnone start localBitfield
  refine ⟨fun index later hlater hrunning ↦ ?_, horderly.calls, horderly.distinct,
    fun waiting hmem hlatest ↦ ⟨hafter, (horderly.waiting waiting hmem hlatest).2⟩,
    horderly.bound, fun _ ↦ hafter⟩
  rw [hafter index later hlater] at hrunning
  cases hrunning

/-- A scheduler may start once the latest call no longer waits. -/
theorem Orderly.started (horderly : Orderly (state, stoppedAt)) (hinstalled : Installed state)
    (hreturned : ∀ start ∈ state.starts, start.call + 1 ≠ state.history.startCalls)
    (hstopped : stoppedAt < state.history.startCalls) :
    Orderly (onCurrentScheduler digest chunkStore env .start state, stoppedAt) := by
  have hkept := @onCurrentScheduler_starts σ digest chunkStore env .start state
  refine ⟨hinstalled.started, ?_, ?_, ?_, ?_, ?_⟩
  all_goals simp only [hkept.1, hkept.2]
  · exact horderly.calls
  · exact horderly.distinct
  · exact fun start hmem hlatest ↦ absurd hlatest (hreturned start hmem)
  · exact horderly.bound
  · exact fun hsame ↦ absurd hstopped (hsame ▸ lt_irrefl _)

/-- `startDownload` goes on: as the latest call and with nothing stopped since, if it starts a
scheduler. -/
theorem resumeStart_orderly (horderly : Orderly (state, stoppedAt)) {index : ℕ}
    {start : PendingStart} {available : List ℕ} (hget : state.starts[index]? = some start)
    (havailable : start.available = some available)
    (hcurrent : ResumesCurrent (state, stoppedAt) (env, .startResumed index)) :
    Orderly (resumeStart digest chunkStore env start available
      { state with starts := state.starts.eraseIdx index }, stoppedAt) := by
  have hmem := List.mem_of_getElem? hget
  have herased := horderly.erase index
  unfold resumeStart
  simp only
  split
  · exact herased
  · next localBitfield hmarked =>
    have hbegun : Unstarted { state with starts := state.starts.eraseIdx index }
        (beginDownload start.manifest localBitfield
          { state with starts := state.starts.eraseIdx index }) :=
      Unstarted.of_eq rfl rfl rfl rfl rfl
    have hready := herased.unstarted hbegun
    split_ifs with hcomplete
    · exact hready.unstarted (returnStart_unstarted start _)
    · obtain ⟨hlatest, hlive⟩ := hcurrent start available localBitfield hget havailable hmarked
        (Bool.eq_false_iff.mpr hcomplete)
      obtain ⟨hnone, hmanifest⟩ := horderly.waiting start hmem hlatest
      have hnone' : NoneLive (beginDownload start.manifest localBitfield
          { state with starts := state.starts.eraseIdx index }) := hnone
      have hprovided := @provideBitfields_unstarted σ digest chunkStore env
        (installScheduler start localBitfield (beginDownload start.manifest localBitfield
          { state with starts := state.starts.eraseIdx index }))
      have horderly' := (installScheduler_orderly hready hnone' start localBitfield).unstarted
        hprovided
      split
      · exact horderly'
      · next bfWire _ =>
        have hbroadcast := hprovided.trans (broadcast_unstarted bfWire _)
        refine Orderly.unstarted ?_ (returnStart_unstarted start _)
        refine Orderly.started (horderly'.unstarted (broadcast_unstarted bfWire _))
          ((installScheduler_installed hnone' hmanifest localBitfield).unstarted hbroadcast) ?_ ?_
        · -- the calls have different numbers, so no other is the latest
          rw [hbroadcast.starts, hbroadcast.startCalls]
          intro other hother hlast
          have hcall : other.call = start.call := Nat.succ.inj (hlast.trans hlatest.symm)
          exact call_ne_of_mem_eraseIdx horderly.distinct hget hother hcall
        · rw [hbroadcast.startCalls]
          exact hlatest ▸ Nat.lt_succ_of_le hlive

/-- Every step keeps the invariant, if calls that start a scheduler are the latest. -/
theorem trackedStep_orderly {tracked : Tracked σ} {input : CoordinatorInput}
    (horderly : Orderly tracked) (hcurrent : ResumesCurrent tracked input) :
    Orderly (trackedStep digest chunkStore tracked input) := by
  obtain ⟨state, stoppedAt⟩ := tracked
  obtain ⟨env, event⟩ := input
  cases event with
  | startDownload manifest => exact startDownload_orderly horderly manifest
  | startRead index =>
    simp only [trackedStep, coordinatorStep]
    cases hget : state.starts[index]? with
    | none => exact horderly
    | some start =>
      refine horderly.of_starts ?_ fun other hother ↦ ?_
      · rw [map_call_set hget]
        exact horderly.distinct
      · rcases List.mem_or_eq_of_mem_set hother with hold | hread
        · exact ⟨other, hold, rfl, rfl⟩
        · exact ⟨start, List.mem_of_getElem? hget, hread ▸ ⟨rfl, rfl⟩⟩
  | startResumed index =>
    simp only [trackedStep, coordinatorStep]
    cases hget : state.starts[index]? with
    | none => exact horderly
    | some start =>
      cases havailable : start.available with
      | none => simpa only [havailable] using horderly
      | some available =>
        simpa only [havailable] using resumeStart_orderly horderly hget havailable hcurrent
  | startFailed index => exact horderly.erase index
  | stop => exact stopCoordinator_orderly horderly
  | channelOpened remotePeerId =>
    exact horderly.unstarted (coordinatorStep_unstarted (Or.inr ⟨remotePeerId, rfl⟩) state)
  | _ => exact horderly.unstarted (coordinatorStep_unstarted (Or.inl rfl) state)

theorem resumeStart_startCalls (start : PendingStart) (available : List ℕ)
    (state : CoordinatorState σ) :
    (resumeStart digest chunkStore env start available state).history.startCalls =
      state.history.startCalls := by
  unfold resumeStart
  simp only
  split
  · rfl
  · next localBitfield _ =>
    split_ifs
    · rw [(returnStart_unstarted start _).startCalls]
      rfl
    · split
      · rw [(provideBitfields_unstarted _).startCalls]
        rfl
      · rw [(returnStart_unstarted start _).startCalls, (onCurrentScheduler_starts _ _).2,
          (broadcast_unstarted _ _).startCalls, (provideBitfields_unstarted _).startCalls]
        rfl

/-- Only `startDownload` counts a call. -/
theorem coordinatorStep_startCalls {input : CoordinatorInput} (hinput : input.2.isStart = false)
    (state : CoordinatorState σ) :
    (coordinatorStep digest chunkStore state input).history.startCalls =
      state.history.startCalls := by
  obtain ⟨env, event⟩ := input
  have hhandled : event.isHandled = true →
      Unstarted state (coordinatorStep digest chunkStore state (env, event)) := fun h ↦
    coordinatorStep_unstarted (Or.inl h) state
  have htransition := coordinatorStep_transition digest chunkStore env state event
  generalize coordinatorStep digest chunkStore state (env, event) = next
    at hhandled htransition ⊢
  cases htransition with
  | ignored | startRead | startFailed => rfl
  | startDownload manifest => cases hinput
  | startResumed index start available => exact resumeStart_startCalls start available _
  | stop => exact (onCurrentScheduler_starts .stop state).2
  | channelOpened remotePeerId => exact (channelOpen_unstarted remotePeerId state).startCalls
  | _ => exact (hhandled rfl).startCalls

/-- After `stop`, and with no call of `startDownload` since, every call was made before. -/
theorem trackedStep_stopped {tracked : Tracked σ} {input : CoordinatorInput}
    (hinput : input.2.isStart = false) (hstopped : tracked.2 = tracked.1.history.startCalls) :
    (trackedStep digest chunkStore tracked input).2 =
      (trackedStep digest chunkStore tracked input).1.history.startCalls := by
  rw [trackedStep, coordinatorStep_startCalls hinput]
  simp only
  split
  · rfl
  · exact hstopped

/-! ### Runs -/

/-- Keeping the number does not change what the coordinator does. -/
theorem run_tracked (tracked : Tracked σ) (inputs : List CoordinatorInput) :
    (run (trackedStep digest chunkStore) tracked inputs).1 =
      run (coordinatorStep digest chunkStore) tracked.1 inputs := by
  induction inputs generalizing tracked with
  | nil => rfl
  | cons input rest ih => exact ih _

end Steps

/-- In every state that a run reaches at most one scheduler runs, the one in `this.scheduler` for
`currentManifest`, and after `stop` none runs before the next call of `startDownload`. -/
structure OneLiveDownload (digest : Bytes → Bytes) (chunkStore : ListingStore σ)
    (localPeerId : String) (store : σ) (inputs : List CoordinatorInput) : Prop where
  oneLive : ∀ passed later, inputs = passed ++ later →
    OneLive (coordinatorRun digest chunkStore localPeerId store passed)
  stopped : ∀ before env after later, inputs = before ++ (env, .stop) :: after ++ later →
    (∀ input ∈ after, input.2.isStart = false) →
    NoneLive (coordinatorRun digest chunkStore localPeerId store (before ++ (env, .stop) :: after))

/-- At most one download is live in every run in which only the latest call of `startDownload`, not
stopped since, goes on to start a scheduler. -/
theorem oneLiveDownload_of_resumesCurrent (digest : Bytes → Bytes) (chunkStore : ListingStore σ)
    (localPeerId : String) (store : σ) (inputs : List CoordinatorInput)
    (hcurrent : Along (trackedStep digest chunkStore) ResumesCurrent
      (CoordinatorState.new localPeerId store, 0) inputs) :
    OneLiveDownload digest chunkStore localPeerId store inputs := by
  have horderly : ∀ passed later, inputs = passed ++ later →
      Orderly (run (trackedStep digest chunkStore)
        (CoordinatorState.new localPeerId store, 0) passed) := by
    rintro passed later rfl
    exact run_invariant Orderly (fun _ _ ↦ trackedStep_orderly) (orderly_new localPeerId store)
      ((along_append _ _ _).mp hcurrent).1
  refine ⟨fun passed later hinputs ↦ ?_, fun before env after later hinputs hcalm ↦ ?_⟩
  · have hlive := (horderly passed later hinputs).oneLive
    rw [run_tracked] at hlive
    exact hlive
  · have hnone := (horderly _ later hinputs).stopped
    rw [run_append, run_cons] at hnone
    -- at the `stop` every call had been made before, and none is made after it
    have hstopped := hnone (run_invariant
      (fun tracked : Tracked σ ↦ tracked.2 = tracked.1.history.startCalls)
      (fun _ _ hsame hinput ↦ trackedStep_stopped hinput hsame)
      (onCurrentScheduler_starts .stop _).2.symm (along_of_forall hcalm _))
    rw [← run_cons, ← run_append, run_tracked] at hstopped
    exact hstopped

/-- Two calls of `startDownload` wait for the store at the same time, and both go on. -/
def racingRun : List CoordinatorInput :=
  [(calmEnv, .startDownload oneChunkManifest), (calmEnv, .startDownload otherManifest),
    (calmEnv, .startRead 0), (calmEnv, .startRead 1), (calmEnv, .startResumed 0),
    (calmEnv, .startResumed 0)]

/-- `stop` is called while `startDownload` waits for the store. -/
def lateRun : List CoordinatorInput :=
  [(calmEnv, .startDownload oneChunkManifest), (calmEnv, .startRead 0), (calmEnv, .stop),
    (calmEnv, .startResumed 0)]

/-- The first run ends with two schedulers that run, the second one with a scheduler that runs after
`stop`. -/
theorem racingRun_twoLive :
    ¬ OneLiveDownload id IndexedDbChunkStore "me" ChunkRecords.empty racingRun ∧
      ¬ OneLiveDownload id IndexedDbChunkStore "me" ChunkRecords.empty lateRun := by
  refine ⟨fun hlive ↦ ?_, fun hlive ↦ ?_⟩
  · have hfirst := hlive.oneLive racingRun [] rfl 0
    cases hscheduler : (coordinatorRun id IndexedDbChunkStore "me" ChunkRecords.empty
        racingRun).schedulers[0]? with
    | none => exact absurd hscheduler (by decide +kernel)
    | some scheduler =>
      have hrunning : ((coordinatorRun id IndexedDbChunkStore "me" ChunkRecords.empty
        racingRun).schedulers[0]?).map ChunkScheduler.isRunning = some true := by decide +kernel
      rw [hscheduler] at hrunning
      exact absurd (hfirst scheduler hscheduler (Option.some.inj hrunning)).1 (by decide +kernel)
  · have hnone := hlive.stopped (lateRun.take 2) calmEnv [(calmEnv, .startResumed 0)] [] rfl
      (by decide) 0
    cases hscheduler : (coordinatorRun id IndexedDbChunkStore "me" ChunkRecords.empty
        lateRun).schedulers[0]? with
    | none => exact absurd hscheduler (by decide +kernel)
    | some scheduler =>
      have hrunning : ((coordinatorRun id IndexedDbChunkStore "me" ChunkRecords.empty
        lateRun).schedulers[0]?).map ChunkScheduler.isRunning = some true := by decide +kernel
      rw [hscheduler] at hrunning
      exact absurd (Option.some.inj hrunning) (by
        rw [hnone scheduler hscheduler]
        exact Bool.false_ne_true)

/-- A second download starts after the first call has gone on, and then everything is stopped. -/
theorem oneLiveDownload_of_resumesCurrent_switched :
    OneLiveDownload id IndexedDbChunkStore "me" ChunkRecords.empty
      [(calmEnv, .startDownload oneChunkManifest), (calmEnv, .startRead 0),
        (calmEnv, .startResumed 0), (calmEnv, .startDownload otherManifest),
        (calmEnv, .startRead 0), (calmEnv, .startResumed 0), (calmEnv, .stop)] := by
  refine oneLiveDownload_of_resumesCurrent id IndexedDbChunkStore "me" ChunkRecords.empty _
    ⟨trivial, trivial, fun start _ _ hstart _ _ _ ↦ ?_, trivial, trivial,
      fun start _ _ hstart _ _ _ ↦ ?_, trivial, trivial⟩
  · have hcall : some start.call = some 0 := (congrArg (Option.map _) hstart).symm.trans
      (by decide +kernel)
    exact ⟨by rw [Option.some.inj hcall]; decide +kernel, Nat.zero_le _⟩
  · have hcall : some start.call = some 1 := (congrArg (Option.map _) hstart).symm.trans
      (by decide +kernel)
    exact ⟨by rw [Option.some.inj hcall]; decide +kernel, Nat.zero_le _⟩

end CampusMesh.Web
