import CampusMesh.Web.SchedulerSteps

/-!
# The request for one chunk and its blocks

What an event does to the books of one chunk: its entry in `inFlight` and its blocks in
`reassembly`. Apart from pieces of the chunk itself every event is a sequence of changes of three
kinds (`Rebook`): nothing happens to the chunk, it is requested while no request is there, or its
request is released with all its blocks. Hence a request that no event releases stays as it is with
the blocks received for it (`Rebooks.requested`), and a request starts without blocks
(`reassembly_of_issued`).
-/

set_option autoImplicit false
set_option relaxedAutoImplicit false

namespace CampusMesh.Web

open Library Shared SchedulerState Relation

variable {σ : Type}

/-- One change to the books of a chunk. -/
inductive Rebook (chunkIndex : ℕ) (mayRelease : Prop) : SchedulerState σ → SchedulerState σ → Prop
  | kept {state next : SchedulerState σ}
      (hrequest : next.inFlight.get? chunkIndex = state.inFlight.get? chunkIndex)
      (hblocks : next.reassembly.get? chunkIndex = state.reassembly.get? chunkIndex) :
      Rebook chunkIndex mayRelease state next
  | request {state next : SchedulerState σ} (hfree : state.inFlight.get? chunkIndex = none)
      (hblocks : next.reassembly.get? chunkIndex = state.reassembly.get? chunkIndex) :
      Rebook chunkIndex mayRelease state next
  | release {state next : SchedulerState σ} (hmay : mayRelease)
      (hreleased : next.inFlight.get? chunkIndex = none)
      (hblocks : next.reassembly.get? chunkIndex = none) :
      Rebook chunkIndex mayRelease state next

/-- Any number of such changes. -/
abbrev Rebooks (chunkIndex : ℕ) (mayRelease : Prop) :
    SchedulerState σ → SchedulerState σ → Prop := ReflTransGen (Rebook chunkIndex mayRelease)

/-- A chunk without a request has no blocks. -/
def NoStrayBlocks (chunkIndex : ℕ) (state : SchedulerState σ) : Prop :=
  state.inFlight.get? chunkIndex = none → state.reassembly.get? chunkIndex = none

/-- Whether an event may release the request for a chunk. -/
def MayRelease (state : SchedulerState σ) (chunkIndex : ℕ) : SchedulerEvent → Prop
  | .stop => True
  | .timeout timer => state.timers.get? timer = some chunkIndex
  | .removePeer peerId => ∃ request, state.inFlight.get? chunkIndex = some request ∧
      request.peerId = peerId
  | .handlePiece index _ _ _ => index = chunkIndex
  | _ => False

section Rebooks

variable {chunkIndex : ℕ} {mayRelease : Prop} {state next last : SchedulerState σ}

theorem Rebooks.of_eq (hinFlight : next.inFlight = state.inFlight)
    (hreassembly : next.reassembly = state.reassembly) : Rebooks chunkIndex mayRelease state next :=
  ReflTransGen.single (.kept (by rw [hinFlight]) (by rw [hreassembly]))

/-- A request that nothing releases stays, with its blocks. -/
theorem Rebooks.requested (hrebooks : Rebooks chunkIndex mayRelease state last)
    (hkept : ¬ mayRelease) {request : InFlightRequest}
    (hrequest : state.inFlight.get? chunkIndex = some request) :
    last.inFlight.get? chunkIndex = some request ∧
      last.reassembly.get? chunkIndex = state.reassembly.get? chunkIndex := by
  induction hrebooks with
  | refl => exact ⟨hrequest, rfl⟩
  | tail _ hrebook ih =>
    obtain ⟨hstill, hblocks⟩ := ih
    cases hrebook with
    | kept hsame hsameBlocks => exact ⟨hsame.trans hstill, hsameBlocks.trans hblocks⟩
    | request hfree => exact absurd hfree (by rw [hstill]; exact Option.some_ne_none request)
    | release hmay => exact absurd hmay hkept

/-- A chunk keeps its request and its blocks, or has no blocks afterwards. -/
theorem Rebooks.renews (hrebooks : Rebooks chunkIndex mayRelease state last)
    (hstray : NoStrayBlocks chunkIndex state) :
    NoStrayBlocks chunkIndex last ∧
      (last.inFlight.get? chunkIndex = state.inFlight.get? chunkIndex ∨
        last.reassembly.get? chunkIndex = none) := by
  have hbooks : (last.inFlight.get? chunkIndex = state.inFlight.get? chunkIndex ∧
      last.reassembly.get? chunkIndex = state.reassembly.get? chunkIndex) ∨
        last.reassembly.get? chunkIndex = none := by
    induction hrebooks with
    | refl => exact Or.inl ⟨rfl, rfl⟩
    | tail _ hrebook ih =>
      cases hrebook with
      | kept hsame hsameBlocks =>
        exact ih.imp (fun h ↦ ⟨hsame.trans h.1, hsameBlocks.trans h.2⟩) hsameBlocks.trans
      | request hfree hsameBlocks =>
        refine Or.inr (hsameBlocks.trans ?_)
        exact ih.elim (fun h ↦ h.2.trans (hstray (h.1.symm.trans hfree))) id
      | release _ _ hgone => exact Or.inr hgone
  refine ⟨fun hfree ↦ ?_, hbooks.imp And.left id⟩
  exact hbooks.elim (fun h ↦ h.2.trans (hstray (h.1.symm.trans hfree))) id

/-- Scheduling requests what is not requested and touches no blocks. -/
theorem Moves.rebooks {env : Env} {strict : Prop} {about : Set ℕ}
    (hmoves : Moves env strict about state last) : Rebooks chunkIndex mayRelease state last := by
  refine hmoves.keeps (Rebooks chunkIndex mayRelease state) (fun moved _ first second hmove h ↦ ?_)
    ReflTransGen.refl
  refine h.tail ?_
  cases hmove with
  | announce | offer | fetch => exact .kept rfl rfl
  | request _ _ _ _ hfree =>
    by_cases hsame : chunkIndex = moved
    · exact .request (hsame ▸ hfree) rfl
    · exact .kept (OrderedMap.get?_set_of_ne _ hsame _) rfl

/-- Releasing a chunk, another one or this one. -/
theorem release_rebooks (released timer : ℕ) (hmay : released = chunkIndex → mayRelease) :
    Rebooks chunkIndex mayRelease state (release released timer state) := by
  refine ReflTransGen.single ?_
  by_cases hsame : chunkIndex = released
  · subst hsame
    exact .release (hmay rfl) (OrderedMap.get?_delete_self _ _) (OrderedMap.get?_delete_self _ _)
  · exact .kept (OrderedMap.get?_delete_of_ne _ hsame) (OrderedMap.get?_delete_of_ne _ hsame)

end Rebooks

/-! ### Events -/

section Events

variable {digest : Bytes → Bytes} {chunkStore : IChunkStore σ} {env : Env} {chunkIndex : ℕ}
  {mayRelease : Prop} {state : SchedulerState σ}

theorem updatePeerHave_rebooks (peerId : String) (index : ℕ) :
    Rebooks chunkIndex mayRelease state (updatePeerHave env peerId index state).1 := by
  have hlocated : Rebooks chunkIndex mayRelease state (peerBitfield peerId state).1 := by
    unfold peerBitfield
    split
    · exact ReflTransGen.refl
    · exact Rebooks.of_eq rfl rfl
  unfold updatePeerHave
  simp only
  split
  · exact hlocated
  · next bitfield _ =>
    have hmarked : Rebooks chunkIndex mayRelease (peerBitfield peerId state).1
        { (peerBitfield peerId state).1 with
          heap := (peerBitfield peerId state).1.heap.set (peerBitfield peerId state).2 bitfield } :=
      Rebooks.of_eq rfl rfl
    exact hlocated.trans (hmarked.trans (scheduleIfRunning_moves env _).rebooks)

/-- Requesting a chunk again after its release. -/
theorem reschedule_rebooks (hwf : WellFormed state) {index : ℕ} {request : InFlightRequest}
    (hrequest : state.inFlight.get? index = some request) (retries : ℕ) (calls : List Call) :
    Rebooks chunkIndex mayRelease ((release index request.timer state).log calls)
      (scheduleChunk env index retries ((release index request.timer state).log calls)).1 := by
  exact (reschedule_moves env hwf hrequest retries calls).rebooks

/-- The loop of `removePeer` releases the requests to the peer only. -/
theorem reassign_loop_rebooks (hwf : WellFormed state) (peerId : String) :
    Rebooks chunkIndex (MayRelease state chunkIndex (.removePeer peerId)) state
      (Action.forEach (reassign env peerId) state.inFlight.entries state).1 := by
  refine reassign_loop_rel hwf peerId fun entry hentry reached hreached hrequest ↦ ?_
  unfold reassign
  split_ifs with hpeer
  · have hagain := @reschedule_rebooks σ env chunkIndex
      (MayRelease state chunkIndex (.removePeer peerId)) reached hreached entry.1 entry.2 hrequest
      (entry.2.retries + 1) []
    rw [log_nil] at hagain
    exact (release_rebooks entry.1 entry.2.timer fun hsame ↦
      ⟨entry.2, hsame ▸ OrderedMap.mem_entries_iff.mp hentry, hpeer⟩).trans hagain
  · exact ReflTransGen.refl

theorem removePeer_rebooks (hwf : WellFormed state) (peerId : String) :
    Rebooks chunkIndex (MayRelease state chunkIndex (.removePeer peerId)) state
      (removePeer env peerId state).1 := by
  have hforgotten : Rebooks chunkIndex (MayRelease state chunkIndex (.removePeer peerId)) state
      (forget peerId state) := Rebooks.of_eq rfl rfl
  refine hforgotten.trans ?_
  rw [removePeer_eq]
  exact Action.andThen_rel (reassign_loop_rebooks (hwf.forget peerId) peerId) fun _ ↦
    (scheduleIfRunning_moves env _).rebooks

theorem handleTimeout_rebooks (hwf : WellFormed state) {index timer : ℕ}
    (htimer : state.timers.get? timer = some index) (hmay : index = chunkIndex → mayRelease) :
    Rebooks chunkIndex mayRelease state (handleTimeout env index timer state).1 := by
  obtain ⟨request, hrequest, rfl⟩ := (hwf.timers_iff timer index).mp htimer
  simp only [handleTimeout, hrequest]
  have hreleased : Rebooks chunkIndex mayRelease state
      ((release index request.timer state).log [.onRetry index request.peerId]) :=
    (release_rebooks index request.timer hmay).trans (Rebooks.of_eq rfl rfl)
  exact hreleased.trans (Action.andThen_rel (reschedule_rebooks hwf hrequest _ _) fun _ ↦
    (scheduleNext_moves env _).rebooks)

/-- Completing a chunk releases it. -/
theorem completePiece_rebooks (index : ℕ) (request : InFlightRequest) (item : ChunkReassembly)
    (hmay : index = chunkIndex → mayRelease) :
    Rebooks chunkIndex mayRelease state (completePiece env index request item state).1 := by
  unfold completePiece
  refine (release_rebooks index request.timer hmay).trans ?_
  split
  · exact ReflTransGen.refl
  · next assembled _ =>
    rcases verifyAndStoreChunk_cases index assembled (pieceLatency env request)
      (release index request.timer state) with ⟨_, _, heq⟩ | ⟨_, _, heq⟩
    all_goals
      simp only [heq]
      exact Rebooks.of_eq rfl rfl

/-- A piece of another chunk. -/
theorem handlePiece_rebooks {index : ℕ} (hother : index ≠ chunkIndex)
    (beginOffset totalLength : ℕ) (data : Bytes) :
    Rebooks chunkIndex mayRelease state
      (handlePiece env index beginOffset totalLength data state).1 := by
  unfold handlePiece
  split
  · exact ReflTransGen.refl
  · next request _ =>
    simp only
    split_ifs
    · exact completePiece_rebooks index request _ fun hsame ↦ absurd hsame hother
    · exact ReflTransGen.single (.kept rfl (OrderedMap.get?_set_of_ne _ (Ne.symm hother) _))

theorem dispatchOriginFallback_rebooks (index : ℕ) :
    Rebooks chunkIndex mayRelease state (dispatchOriginFallback env index state).1 := by
  unfold dispatchOriginFallback
  split_ifs
  · exact ReflTransGen.refl
  · exact Rebooks.of_eq rfl rfl

theorem reject_rebooks (index : ℕ) (task : Task) (error : String) :
    Rebooks chunkIndex mayRelease state (reject index task error state) := by
  unfold reject
  split_ifs
  · exact Rebooks.of_eq rfl rfl
  · exact Rebooks.of_eq rfl rfl

theorem afterVerify_rebooks (index : ℕ) (task : Task) (expected : String) (data : Bytes)
    (latencyMs : ℕ) :
    Rebooks chunkIndex mayRelease state
      (advance index task
        (afterVerify digest env task.chunkIndex expected data latencyMs state).2
        (afterVerify digest env task.chunkIndex expected data latencyMs state).1) := by
  unfold afterVerify
  simp only
  split_ifs
  · have hreported : Rebooks chunkIndex mayRelease state (state.log
        (corruptionCalls task.chunkIndex expected (verify digest data expected).actualHash)) :=
      Rebooks.of_eq rfl rfl
    exact (hreported.trans (dispatchOriginFallback_rebooks task.chunkIndex)).trans
      (Rebooks.of_eq rfl rfl)
  · exact Rebooks.of_eq rfl rfl

theorem afterStore_rebooks (index : ℕ) (task : Task) (data : Bytes) (latencyMs : ℕ) :
    Rebooks chunkIndex mayRelease state
      (afterStore index task (afterPut task.chunkIndex task.fromP2P data latencyMs state)) := by
  rcases afterPut_cases task.chunkIndex task.fromP2P data latencyMs state with
    ⟨bitfield, haveMsg, _, _, heq⟩ | ⟨error, heq, _⟩ | ⟨bitfield, error, _, _, heq⟩
  · rw [heq]
    exact Rebooks.of_eq rfl rfl
  · rw [heq]
    exact reject_rebooks index task _
  · have hmarked : Rebooks chunkIndex mayRelease state { state with localBitfield := bitfield } :=
      Rebooks.of_eq rfl rfl
    rw [heq]
    exact hmarked.trans (reject_rebooks index task _)

theorem finish_rebooks (index : ℕ) (task : Task) :
    Rebooks chunkIndex mayRelease state (finish env index task state) := by
  have hsettled : Rebooks chunkIndex mayRelease state (settle index state) :=
    Rebooks.of_eq rfl rfl
  unfold finish
  simp only
  split_ifs
  · exact hsettled.trans (scheduleIfRunning_moves env _).rebooks
  · have hfetched : Rebooks chunkIndex mayRelease (settle index state)
        { settle index state with
          originInFlight := (settle index state).originInFlight.erase task.chunkIndex } :=
      Rebooks.of_eq rfl rfl
    exact hsettled.trans (hfetched.trans (scheduleIfRunning_moves env _).rebooks)

/-- Continuations touch the books only where they schedule. -/
theorem continueTask_rebooks (index : ℕ) (task : Task) (settlement : Settlement) :
    Rebooks chunkIndex mayRelease state
      (continueTask digest chunkStore env index task settlement state) := by
  have htransition := continueTask_transition digest chunkStore env index task settlement state
  generalize continueTask digest chunkStore env index task settlement state = next
    at htransition ⊢
  cases htransition with
  | ignored => exact ReflTransGen.refl
  | fetched fetchStart data =>
    rcases verifyAndStoreChunk_cases task.chunkIndex data (latencySince env fetchStart) state with
      ⟨_, _, heq⟩ | ⟨_, _, heq⟩
    all_goals
      rw [heq]
      exact Rebooks.of_eq rfl rfl
  | fetchFailed | written | caught => exact Rebooks.of_eq rfl rfl
  | verified expected data latencyMs => exact afterVerify_rebooks index task expected data _
  | verifyFailed _ _ _ error | putFailed _ _ _ error => exact reject_rebooks index task error
  | putDone data latencyMs => exact afterStore_rebooks index task data latencyMs
  | finished => exact finish_rebooks index task

/-- Every event but a piece of the chunk rebooks it. -/
theorem perform_rebooks (hwf : WellFormed state) {event : SchedulerEvent}
    (hevent : ∀ beginOffset totalLength data,
      event ≠ .handlePiece chunkIndex beginOffset totalLength data) :
    Rebooks chunkIndex (MayRelease state chunkIndex event) state
      (perform digest chunkStore env event state).1 := by
  cases event with
  | start =>
    simp only [perform, start]
    split_ifs
    · exact ReflTransGen.refl
    · have hstarted : Rebooks chunkIndex (MayRelease state chunkIndex .start) state
          { state with isRunning := true } := Rebooks.of_eq rfl rfl
      exact hstarted.trans (scheduleNext_moves env _).rebooks
  | stop => exact ReflTransGen.single (.release trivial rfl rfl)
  | updatePeerBitfield peerId address =>
    have hkept : Rebooks chunkIndex (MayRelease state chunkIndex
      (.updatePeerBitfield peerId address))
        state { state with
          peerBitfields := state.peerBitfields.set peerId address
          peerChoked :=
            if state.peerChoked.has peerId then state.peerChoked
            else state.peerChoked.set peerId false } := Rebooks.of_eq rfl rfl
    exact hkept.trans (scheduleIfRunning_moves env _).rebooks
  | updatePeerHave peerId index => exact updatePeerHave_rebooks peerId index
  | setPeerChoked peerId choked =>
    have hkept : Rebooks chunkIndex (MayRelease state chunkIndex (.setPeerChoked peerId choked))
        state { state with peerChoked := state.peerChoked.set peerId choked } :=
      Rebooks.of_eq rfl rfl
    simp only [perform, setPeerChoked]
    split_ifs
    · exact hkept
    · exact hkept.trans (scheduleIfRunning_moves env _).rebooks
  | removePeer peerId => exact removePeer_rebooks hwf peerId
  | scheduleNext => exact (scheduleNext_moves env state).rebooks
  | handlePiece index beginOffset totalLength data =>
    refine handlePiece_rebooks (fun hsame ↦ ?_) beginOffset totalLength data
    subst hsame
    exact hevent beginOffset totalLength data rfl
  | timeout timer =>
    simp only [perform]
    split
    · next index htimer => exact handleTimeout_rebooks hwf htimer fun hsame ↦ hsame ▸ htimer
    · exact ReflTransGen.refl
  | settled index settlement =>
    simp only [perform]
    split
    · next task _ => exact continueTask_rebooks index task settlement
    · exact ReflTransGen.refl
  | shared heap => exact Rebooks.of_eq rfl rfl

/-- After an event a chunk that has a request has the same request as before, or no blocks yet. -/
theorem perform_renews (hwf : WellFormed state) (hstray : NoStrayBlocks chunkIndex state)
    (event : SchedulerEvent) :
    NoStrayBlocks chunkIndex (perform digest chunkStore env event state).1 ∧
      ((perform digest chunkStore env event state).1.inFlight.get? chunkIndex =
          state.inFlight.get? chunkIndex ∨
        (perform digest chunkStore env event state).1.reassembly.get? chunkIndex = none) := by
  by_cases hpiece : ∃ beginOffset totalLength data,
      event = .handlePiece chunkIndex beginOffset totalLength data
  · obtain ⟨beginOffset, totalLength, data, rfl⟩ := hpiece
    simp only [perform, handlePiece]
    split
    · exact ⟨hstray, Or.inl rfl⟩
    · next request hrequest =>
      split_ifs
      · have hcompleted := @completePiece_rebooks σ env chunkIndex True state chunkIndex request
          (receive chunkIndex beginOffset totalLength data state) fun _ ↦ trivial
        exact hcompleted.renews hstray
      · exact ⟨fun hfree ↦ absurd hfree (by rw [hrequest]; exact Option.some_ne_none _), Or.inl rfl⟩
  · exact (perform_rebooks hwf fun beginOffset totalLength data heq ↦
      hpiece ⟨beginOffset, totalLength, data, heq⟩).renews hstray

/-- In every reachable state a chunk without a request has no blocks. -/
theorem schedulerRun_noStrayBlocks (digest : Bytes → Bytes) (chunkStore : IChunkStore σ)
    (manifest : ResourceManifest) (localBitfield : Bitfield) (heap : List Bitfield) (store : σ)
    (inputs : List SchedulerInput) (chunkIndex : ℕ) :
    NoStrayBlocks chunkIndex
      (schedulerRun digest chunkStore manifest localBitfield heap store inputs) := by
  have hinv : WellFormed (schedulerRun digest chunkStore manifest localBitfield heap store inputs) ∧
      NoStrayBlocks chunkIndex
        (schedulerRun digest chunkStore manifest localBitfield heap store inputs) := by
    refine run_invariant_of_step
      (fun reached ↦ WellFormed reached ∧ NoStrayBlocks chunkIndex reached)
      (fun reached input h ↦ ?_)
      ⟨wellFormed_new manifest localBitfield heap store, fun _ ↦ rfl⟩ inputs
    exact ⟨(schedulerStep_wellFormed h.1 input).1, (perform_renews h.1 h.2 input.2).1⟩
  exact hinv.2

/-- A request that an event has made has no blocks yet. -/
theorem reassembly_of_issued (digest : Bytes → Bytes) (chunkStore : IChunkStore σ)
    (manifest : ResourceManifest) (localBitfield : Bitfield) (heap : List Bitfield) (store : σ)
    (before : List SchedulerInput) (input : SchedulerInput) {chunkIndex : ℕ}
    {request : InFlightRequest}
    (hbefore : (schedulerRun digest chunkStore manifest localBitfield heap store
      before).inFlight.get? chunkIndex ≠ some request)
    (hissued : (schedulerRun digest chunkStore manifest localBitfield heap store
      (before ++ [input])).inFlight.get? chunkIndex = some request) :
    (schedulerRun digest chunkStore manifest localBitfield heap store
      (before ++ [input])).reassembly.get? chunkIndex = none := by
  have hwf := schedulerRun_wellFormed digest chunkStore manifest localBitfield heap store before
  have hstray := schedulerRun_noStrayBlocks digest chunkStore manifest localBitfield heap store
    before chunkIndex
  have hstep : schedulerRun digest chunkStore manifest localBitfield heap store
    (before ++ [input]) = schedulerStep digest chunkStore
        (schedulerRun digest chunkStore manifest localBitfield heap store before) input :=
    run_append _ before [input]
  rw [hstep] at hissued ⊢
  rcases (perform_renews hwf hstray input.2).2 with hsame | hnone
  · exact absurd (hsame.symm.trans hissued) hbefore
  · exact hnone

end Events

end CampusMesh.Web
