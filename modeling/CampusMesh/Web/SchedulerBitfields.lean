import CampusMesh.Web.SchedulerSteps

/-!
# What a scheduler does to the bitfields of peers

Three methods change what a scheduler knows of its peers: `updatePeerBitfield` keeps an object,
`updatePeerHave` marks a chunk in one, and `removePeer` forgets one. Whatever else an event does,
the bitfields stay as they are (`perform_bitfields`).
-/

set_option autoImplicit false
set_option relaxedAutoImplicit false

namespace CampusMesh.Web

open Library Shared SchedulerState

variable {σ : Type}

/-- The manifest, the bitfields of peers and the objects on the heap are the same. -/
structure SameBitfields (first last : SchedulerState σ) : Prop where
  manifest : last.manifest = first.manifest
  peerBitfields : last.peerBitfields = first.peerBitfields
  heap : last.heap = first.heap

instance : IsTrans (SchedulerState σ) SameBitfields :=
  ⟨fun _ _ _ hfirst hsecond ↦ ⟨hsecond.1.trans hfirst.1, hsecond.2.trans hfirst.2,
    hsecond.3.trans hfirst.3⟩⟩

/-- The same, and the scheduler runs if and only if it did. -/
structure KeepsRunning (first last : SchedulerState σ) : Prop
    extends SameBitfields first last where
  isRunning : last.isRunning = first.isRunning

instance : Std.Refl (@KeepsRunning σ) := ⟨fun _ ↦ ⟨⟨rfl, rfl, rfl⟩, rfl⟩⟩

instance : IsTrans (SchedulerState σ) KeepsRunning :=
  ⟨fun _ _ _ hfirst hsecond ↦ ⟨trans_of SameBitfields hfirst.1 hsecond.1,
    hsecond.2.trans hfirst.2⟩⟩

/-- Whether a scheduler runs after an event. -/
def SchedulerEvent.running (before : Bool) : SchedulerEvent → Bool
  | .start => true
  | .stop => false
  | _ => before

/-- The state with the bitfields as an event leaves them. -/
def bitfieldsAfter (state : SchedulerState σ) : SchedulerEvent → SchedulerState σ
  | .updatePeerBitfield peerId address =>
    { state with peerBitfields := state.peerBitfields.set peerId address }
  | .updatePeerHave peerId chunkIndex =>
    let located := peerBitfield peerId state
    match (located.1.bitfieldAt located.2).set chunkIndex with
    | .error _ => located.1
    | .ok bitfield => { located.1 with heap := located.1.heap.set located.2 bitfield }
  | .removePeer peerId => { state with peerBitfields := state.peerBitfields.delete peerId }
  | .shared heap => { state with heap := heap }
  | _ => state

section Bitfields

variable {digest : Bytes → Bytes} {chunkStore : IChunkStore σ} {env : Env}
  {first state last : SchedulerState σ}

theorem KeepsRunning.refl (state : SchedulerState σ) : KeepsRunning state state :=
  ⟨⟨rfl, rfl, rfl⟩, rfl⟩

theorem KeepsRunning.trans (hfirst : KeepsRunning first state)
    (hsecond : KeepsRunning state last) : KeepsRunning first last :=
  trans_of KeepsRunning hfirst hsecond

theorem Moves.keepsRunning {strict : Prop} {about : Set ℕ}
    (hmoves : Moves env strict about state last) : KeepsRunning state last := by
  have h := hmoves.unmoved
  exact ⟨⟨h.manifest, h.peerBitfields, h.heap⟩, h.isRunning⟩

theorem scheduleNext_keepsRunning (env : Env) (state : SchedulerState σ) :
    KeepsRunning state (scheduleNext env state).1 := (scheduleNext_moves env state).keepsRunning

theorem scheduleIfRunning_keepsRunning (env : Env) (state : SchedulerState σ) :
    KeepsRunning state (scheduleIfRunning env state).1 :=
  (scheduleIfRunning_moves env state).keepsRunning

theorem dispatchOriginFallback_keepsRunning (env : Env) (chunkIndex : ℕ)
    (state : SchedulerState σ) :
    KeepsRunning state (dispatchOriginFallback env chunkIndex state).1 := by
  unfold dispatchOriginFallback
  split_ifs
  · exact KeepsRunning.refl state
  · exact ⟨⟨rfl, rfl, rfl⟩, rfl⟩

/-- Rescheduling one chunk, whether or not it is requested. -/
theorem scheduleChunk_keepsRunning (env : Env) (chunkIndex retries : ℕ)
    (state : SchedulerState σ) :
    KeepsRunning state (scheduleChunk env chunkIndex retries state).1 := by
  unfold scheduleChunk
  generalize P2P_REQUEST_RETRIES + 1 - retries = attempts
  induction attempts generalizing state with
  | zero =>
    unfold scheduleWithin
    split_ifs
    · exact KeepsRunning.refl state
    · exact dispatchOriginFallback_keepsRunning env chunkIndex state
  | succ attempts ih =>
    unfold scheduleWithin
    split_ifs
    · exact KeepsRunning.refl state
    split
    · unfold dispatchOrRetry
      split
      · exact KeepsRunning.refl state
      · simp only
        split_ifs
        · exact (show KeepsRunning state (state.log _) from ⟨⟨rfl, rfl, rfl⟩, rfl⟩).trans (ih _)
        · exact ⟨⟨rfl, rfl, rfl⟩, rfl⟩
    · exact dispatchOriginFallback_keepsRunning env chunkIndex state

theorem removePeer_keepsRunning (env : Env) (peerId : String) (state : SchedulerState σ) :
    KeepsRunning (bitfieldsAfter state (.removePeer peerId)) (removePeer env peerId state).1 := by
  have hforgotten : KeepsRunning (bitfieldsAfter state (.removePeer peerId))
      (forget peerId state) := ⟨⟨rfl, rfl, rfl⟩, rfl⟩
  refine hforgotten.trans (Action.andThen_rel (Action.forEach_rel (fun entry _ reached ↦ ?_) _)
    fun _ ↦ scheduleIfRunning_keepsRunning env _)
  unfold reassign
  split_ifs
  · have hreleased : KeepsRunning reached (release entry.1 entry.2.timer reached) :=
      ⟨⟨rfl, rfl, rfl⟩, rfl⟩
    exact hreleased.trans (scheduleChunk_keepsRunning env _ _ _)
  · exact KeepsRunning.refl reached

theorem handleTimeout_keepsRunning (env : Env) (chunkIndex timer : ℕ) (state : SchedulerState σ) :
    KeepsRunning state (handleTimeout env chunkIndex timer state).1 := by
  unfold handleTimeout
  split
  · exact ⟨⟨rfl, rfl, rfl⟩, rfl⟩
  · next request _ =>
    have hreleased : KeepsRunning state
        ((release chunkIndex timer state).log [.onRetry chunkIndex request.peerId]) :=
      ⟨⟨rfl, rfl, rfl⟩, rfl⟩
    exact hreleased.trans (Action.andThen_rel (scheduleChunk_keepsRunning env _ _ _)
      fun _ ↦ scheduleNext_keepsRunning env _)

theorem verifyAndStoreChunk_keepsRunning (chunkIndex : ℕ) (data : Bytes) (latencyMs : ℕ)
    (state : SchedulerState σ) :
    KeepsRunning state (verifyAndStoreChunk chunkIndex data latencyMs state).1 := by
  unfold verifyAndStoreChunk
  split <;> exact ⟨⟨rfl, rfl, rfl⟩, rfl⟩

theorem handlePiece_keepsRunning (env : Env) (chunkIndex beginOffset totalLength : ℕ) (data : Bytes)
    (state : SchedulerState σ) :
    KeepsRunning state (handlePiece env chunkIndex beginOffset totalLength data state).1 := by
  unfold handlePiece
  split
  · exact KeepsRunning.refl state
  next request _ =>
  simp only
  split_ifs
  · have hreleased : KeepsRunning state (release chunkIndex request.timer state) :=
      ⟨⟨rfl, rfl, rfl⟩, rfl⟩
    unfold completePiece
    simp only
    split
    · exact hreleased
    · next assembled _ =>
      have hverifying := hreleased.trans (verifyAndStoreChunk_keepsRunning chunkIndex assembled
        (pieceLatency env request) (release chunkIndex request.timer state))
      exact hverifying.trans ⟨⟨rfl, rfl, rfl⟩, rfl⟩
  · exact ⟨⟨rfl, rfl, rfl⟩, rfl⟩

theorem reject_keepsRunning (index : ℕ) (task : Task) (error : String) (state : SchedulerState σ) :
    KeepsRunning state (reject index task error state) := by
  unfold reject
  split_ifs <;> exact ⟨⟨rfl, rfl, rfl⟩, rfl⟩

theorem afterPut_keepsRunning (chunkIndex : ℕ) (fromP2P : Bool) (data : Bytes) (latencyMs : ℕ)
    (state : SchedulerState σ) :
    KeepsRunning state (afterPut chunkIndex fromP2P data latencyMs state).1 := by
  unfold afterPut
  split
  · exact KeepsRunning.refl state
  · simp only
    split <;> exact ⟨⟨rfl, rfl, rfl⟩, rfl⟩

theorem finish_keepsRunning (env : Env) (index : ℕ) (task : Task) (state : SchedulerState σ) :
    KeepsRunning state (finish env index task state) := by
  have hsettled : KeepsRunning state (settle index state) := ⟨⟨rfl, rfl, rfl⟩, rfl⟩
  have hfinished : KeepsRunning state { settle index state with
      originInFlight := state.originInFlight.erase task.chunkIndex } := ⟨⟨rfl, rfl, rfl⟩, rfl⟩
  unfold finish
  simp only
  split_ifs
  · exact hsettled.trans (scheduleIfRunning_keepsRunning env _)
  · exact hfinished.trans (scheduleIfRunning_keepsRunning env _)

/-- A continuation leaves the bitfields of peers alone, and whether the scheduler runs. -/
theorem continueTask_keepsRunning (index : ℕ) (task : Task) (settlement : Settlement)
    (state : SchedulerState σ) :
    KeepsRunning state (continueTask digest chunkStore env index task settlement state) := by
  have hadvance : ∀ (stage : Stage) (reached : SchedulerState σ),
      KeepsRunning reached (advance index task stage reached) := fun _ _ ↦ ⟨⟨rfl, rfl, rfl⟩, rfl⟩
  have htransition := continueTask_transition digest chunkStore env index task settlement state
  generalize continueTask digest chunkStore env index task settlement state = next
    at htransition ⊢
  cases htransition with
  | ignored => exact KeepsRunning.refl state
  | fetched => exact (verifyAndStoreChunk_keepsRunning _ _ _ state).trans (hadvance _ _)
  | fetchFailed => exact hadvance _ state
  | verified =>
    refine KeepsRunning.trans ?_ (hadvance _ _)
    unfold afterVerify
    simp only
    split_ifs
    · exact (show KeepsRunning state (state.log _) from ⟨⟨rfl, rfl, rfl⟩, rfl⟩).trans
        (dispatchOriginFallback_keepsRunning env _ _)
    · exact ⟨⟨rfl, rfl, rfl⟩, rfl⟩
  | verifyFailed _ _ _ error | putFailed _ _ _ error =>
    exact reject_keepsRunning index task error state
  | written | caught => exact ⟨⟨rfl, rfl, rfl⟩, rfl⟩
  | putDone data latencyMs =>
    refine (afterPut_keepsRunning task.chunkIndex task.fromP2P data latencyMs state).trans ?_
    unfold afterStore
    split
    · exact hadvance _ _
    · exact reject_keepsRunning index task _ _
  | finished => exact finish_keepsRunning env index task state

/-- Looking up a bitfield neither starts nor stops the scheduler. -/
theorem peerBitfield_isRunning (peerId : String) (state : SchedulerState σ) :
    (peerBitfield peerId state).1.isRunning = state.isRunning := by
  unfold peerBitfield
  split <;> rfl

theorem bitfieldsAfter_manifest (state : SchedulerState σ) (event : SchedulerEvent) :
    (bitfieldsAfter state event).manifest = state.manifest := by
  cases event with
  | updatePeerHave peerId chunkIndex =>
    have hlocated : (peerBitfield peerId state).1.manifest = state.manifest := by
      unfold peerBitfield
      split <;> rfl
    unfold bitfieldsAfter
    simp only
    split <;> exact hlocated
  | _ => rfl

/-- What an event does to the bitfields of peers, and whether the scheduler runs afterwards. -/
theorem perform_cases (digest : Bytes → Bytes) (chunkStore : IChunkStore σ) (env : Env)
    (event : SchedulerEvent) (state : SchedulerState σ) :
    SameBitfields (bitfieldsAfter state event) (perform digest chunkStore env event state).1 ∧
      (perform digest chunkStore env event state).1.isRunning = event.running state.isRunning := by
  have hsame : ∀ {next : SchedulerState σ}, KeepsRunning state next →
      SameBitfields state next ∧ next.isRunning = state.isRunning :=
    fun hkept ↦ ⟨hkept.toSameBitfields, hkept.isRunning⟩
  cases event with
  | start =>
    change SameBitfields state (start env state).1 ∧ (start env state).1.isRunning = true
    unfold start
    split_ifs with hrunning
    · exact ⟨⟨rfl, rfl, rfl⟩, hrunning⟩
    · have hkept := scheduleNext_keepsRunning env { state with isRunning := true }
      exact ⟨⟨hkept.manifest, hkept.peerBitfields, hkept.heap⟩, hkept.isRunning⟩
  | stop => exact ⟨⟨rfl, rfl, rfl⟩, rfl⟩
  | updatePeerBitfield peerId address =>
    have hkept := scheduleIfRunning_keepsRunning env
      { state with
        peerBitfields := state.peerBitfields.set peerId address
        peerChoked :=
          if state.peerChoked.has peerId then state.peerChoked
          else state.peerChoked.set peerId false }
    exact ⟨⟨hkept.manifest, hkept.peerBitfields, hkept.heap⟩, hkept.isRunning⟩
  | updatePeerHave peerId chunkIndex =>
    change SameBitfields _ (updatePeerHave env peerId chunkIndex state).1 ∧
      (updatePeerHave env peerId chunkIndex state).1.isRunning = state.isRunning
    rw [← peerBitfield_isRunning peerId state]
    unfold updatePeerHave bitfieldsAfter
    simp only
    cases ((peerBitfield peerId state).1.bitfieldAt (peerBitfield peerId state).2).set
      chunkIndex with
    | error error => exact ⟨⟨rfl, rfl, rfl⟩, rfl⟩
    | ok bitfield =>
      have hkept := scheduleIfRunning_keepsRunning env
        { (peerBitfield peerId state).1 with
          heap := (peerBitfield peerId state).1.heap.set (peerBitfield peerId state).2 bitfield }
      exact ⟨hkept.toSameBitfields, hkept.isRunning⟩
  | setPeerChoked peerId choked =>
    have hkept : KeepsRunning state { state with
        peerChoked := state.peerChoked.set peerId choked } := ⟨⟨rfl, rfl, rfl⟩, rfl⟩
    refine @hsame (setPeerChoked env peerId choked state).1 ?_
    unfold setPeerChoked
    simp only
    split_ifs
    · exact hkept
    · exact hkept.trans (scheduleIfRunning_keepsRunning env _)
  | removePeer peerId =>
    have hkept := removePeer_keepsRunning env peerId state
    exact ⟨hkept.toSameBitfields, hkept.isRunning⟩
  | scheduleNext => exact hsame (scheduleNext_keepsRunning env state)
  | handlePiece chunkIndex beginOffset totalLength data =>
    exact hsame (handlePiece_keepsRunning env chunkIndex beginOffset totalLength data state)
  | timeout timer =>
    simp only [perform]
    split
    · exact hsame (handleTimeout_keepsRunning env _ timer state)
    · exact hsame (KeepsRunning.refl state)
  | settled index settlement =>
    simp only [perform]
    split
    · exact hsame (continueTask_keepsRunning index _ settlement state)
    · exact hsame (KeepsRunning.refl state)
  | shared heap => exact ⟨⟨rfl, rfl, rfl⟩, rfl⟩

/-- **Bitfields of peers.** An event changes the bitfields of peers as `bitfieldsAfter` says and in
no other way. -/
theorem perform_bitfields (digest : Bytes → Bytes) (chunkStore : IChunkStore σ) (env : Env)
    (event : SchedulerEvent) (state : SchedulerState σ) :
    SameBitfields (bitfieldsAfter state event) (perform digest chunkStore env event state).1 :=
  (perform_cases digest chunkStore env event state).1

end Bitfields

end CampusMesh.Web
