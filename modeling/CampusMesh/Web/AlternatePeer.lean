import CampusMesh.Web.PeerLoads

/-!
# Where a retry goes

A request that fails is retried by `scheduleChunk`, which takes the first of the least loaded peers
that have the chunk. The peer that failed is one of them. When a data channel does not take a frame,
nothing that the choice depends on has changed, so the frame is offered to the same peer again until
no retries are left. After a timeout the request is off the books, and the peer is chosen again
exactly when it is the first of the least loaded ones then (`alternates_iff`).
-/

set_option autoImplicit false
set_option relaxedAutoImplicit false

namespace CampusMesh.Web

open Library Shared SchedulerState

variable {σ : Type}

/-! ### The promise -/

/-- The peer to which the call sends a request for the chunk. -/
def requestedFrom (resourceId : String) (chunkIndex : ℕ) : Call → Option String
  | .sendToPeer peerId buffer _ =>
    if (encodeRequest resourceId chunkIndex).toOption = some buffer then some peerId else none
  | _ => none

/-- The peer to which the first request for the chunk is sent. -/
def nextRequest (resourceId : String) (chunkIndex : ℕ) (calls : List Call) : Option String :=
  calls.findSome? (requestedFrom resourceId chunkIndex)

/-- A request for the chunk to the peer fails, by a timeout or because the data channel does not
take the frame. The first state is the one right after the failure, in which the chunk is scheduled
again, and the second one the state that the method reaches. -/
inductive Fails (digest : Bytes → Bytes) (chunkStore : IChunkStore σ) (env : Env) (chunkIndex : ℕ)
    (peerId : String) : Bool → ℕ → SchedulerState σ → SchedulerState σ → Prop
  /-- The timer of the request fires. -/
  | timedOut {state : SchedulerState σ} {timer : ℕ} {request : InFlightRequest}
      (harmed : state.timers.get? timer = some chunkIndex)
      (hrequest : state.inFlight.get? chunkIndex = some request)
      (hpeer : request.peerId = peerId) :
      Fails digest chunkStore env chunkIndex peerId true request.retries
        ((release chunkIndex timer state).log [.onRetry chunkIndex peerId])
        (perform digest chunkStore env (.timeout timer) state).1
  /-- `scheduleChunk` selects the peer. -/
  | notSentAgain {state : SchedulerState σ} {retries : ℕ} {wireMsg : Bytes} {rest : List String}
      (hmissing : state.localBitfield.has chunkIndex = false)
      (hretries : retries ≤ P2P_REQUEST_RETRIES)
      (hselected : state.byLoad (state.eligiblePeers chunkIndex) = peerId :: rest)
      (hframe : encodeRequest state.resourceId chunkIndex = .ok wireMsg)
      (hrefused : env.sends state.calls.length = false) :
      Fails digest chunkStore env chunkIndex peerId false retries
        (state.log [.sendToPeer peerId wireMsg false])
        (scheduleChunk env chunkIndex retries state).1
  /-- The loop of `scheduleNext` selects the peer, among those with a free slot. -/
  | notSent {state : SchedulerState σ} {entry : RarityEntry} {wireMsg : Bytes} {rest : List String}
      (hentry : entry.chunkIndex = chunkIndex)
      (hpeers : entry.peers = state.eligiblePeers chunkIndex)
      (hroom : ¬ maxTotalInFlight ≤ state.outstanding)
      (hselected : state.byLoad (entry.peers.filter fun candidate ↦
        state.countInFlightForPeer candidate < maxInFlightPerPeer) = peerId :: rest)
      (hframe : encodeRequest state.resourceId chunkIndex = .ok wireMsg)
      (hrefused : env.sends state.calls.length = false) :
      Fails digest chunkStore env chunkIndex peerId false 0
        (state.log [.sendToPeer peerId wireMsg false]) (assignToPeer env entry state).1

/-- The next request for the chunk is sent to another peer. -/
def Alternates (chunkIndex : ℕ) (peerId : String) (failed reached : SchedulerState σ) : Prop :=
  ∃ receiver, nextRequest failed.resourceId chunkIndex
    (reached.calls.drop failed.calls.length) = some receiver ∧ receiver ≠ peerId

/-! ### The calls of a retry -/

section Calls

variable {env : Env} {state failed reached : SchedulerState σ} {chunkIndex : ℕ}

/-- No call is taken back. -/
theorem Moves.calls_isPrefix {strict : Prop} {about : Set ℕ} {last : SchedulerState σ}
    (hmoves : Moves env strict about state last) : state.calls <+: last.calls := by
  refine hmoves.keeps (fun moved ↦ state.calls <+: moved.calls)
    (fun _ _ first second hmove hfirst ↦ ?_) List.prefix_rfl
  cases hmove with
  | announce | offer | fetch => exact hfirst.trans (List.prefix_append _ _)
  | request => exact hfirst

theorem prefix_calls_log (state : SchedulerState σ) (calls : List Call) :
    state.calls <+: (state.log calls).calls := List.prefix_append _ _

theorem dispatchOriginFallback_calls_isPrefix (env : Env) (chunkIndex : ℕ)
    (state : SchedulerState σ) :
    state.calls <+: (dispatchOriginFallback env chunkIndex state).1.calls := by
  unfold dispatchOriginFallback
  split_ifs
  · exact List.prefix_rfl
  · exact List.prefix_append _ _

theorem scheduleWithin_calls_isPrefix (env : Env) (chunkIndex attempts : ℕ)
    (state : SchedulerState σ) :
    state.calls <+: (scheduleWithin env chunkIndex attempts state).1.calls := by
  induction attempts generalizing state with
  | zero =>
    unfold scheduleWithin
    split_ifs
    · exact List.prefix_rfl
    · exact dispatchOriginFallback_calls_isPrefix env chunkIndex state
  | succ attempts ih =>
    unfold scheduleWithin
    split_ifs
    · exact List.prefix_rfl
    split
    · unfold dispatchOrRetry
      split
      · exact List.prefix_rfl
      · simp only
        split_ifs
        · exact (prefix_calls_log state _).trans (ih (state.log _))
        · exact prefix_calls_log state _
    · exact dispatchOriginFallback_calls_isPrefix env chunkIndex state

/-- What a method has called comes before the calls of the loop. -/
theorem calls_isPrefix_andThen (method : Method σ) (state : SchedulerState σ) :
    (method state).1.calls <+: (Action.andThen method (scheduleNext env) state).1.calls := by
  cases hresult : (method state).2 with
  | none =>
    rw [Action.andThen_of_returns hresult]
    exact (scheduleNext_moves env _).calls_isPrefix
  | some error => rw [Action.andThen_of_throws hresult]

/-- With retries left a missing chunk is requested from the least loaded peer. -/
theorem scheduleChunk_of_selected {retries : ℕ} {peerId : String} {rest : List String}
    (hretries : retries ≤ P2P_REQUEST_RETRIES)
    (hmissing : state.localBitfield.has chunkIndex = false)
    (hselected : state.byLoad (state.eligiblePeers chunkIndex) = peerId :: rest) :
    scheduleChunk env chunkIndex retries state =
      dispatchP2PRequest env chunkIndex peerId retries state := by
  rw [scheduleChunk_eq, if_neg (by simp [hmissing]), if_pos hretries, hselected]

/-- A frame that is not sent is followed by another attempt. -/
theorem dispatchP2PRequest_of_refused {retries : ℕ} {peerId : String} {wireMsg : Bytes}
    (hframe : encodeRequest state.resourceId chunkIndex = .ok wireMsg)
    (hrefused : env.sends state.calls.length = false) :
    dispatchP2PRequest env chunkIndex peerId retries state =
      scheduleChunk env chunkIndex (retries + 1)
        (state.log [.sendToPeer peerId wireMsg false]) := by
  unfold dispatchP2PRequest dispatchOrRetry
  rw [hframe]
  simp only [hrefused, if_true]

/-- The request is the first call. -/
theorem scheduleChunk_requests {retries : ℕ} {peerId : String} {rest : List String}
    {wireMsg : Bytes} (hretries : retries ≤ P2P_REQUEST_RETRIES)
    (hmissing : state.localBitfield.has chunkIndex = false)
    (hselected : state.byLoad (state.eligiblePeers chunkIndex) = peerId :: rest)
    (hframe : encodeRequest state.resourceId chunkIndex = .ok wireMsg) :
    state.calls ++ [.sendToPeer peerId wireMsg (env.sends state.calls.length)] <+:
      (scheduleChunk env chunkIndex retries state).1.calls := by
  rw [scheduleChunk_of_selected hretries hmissing hselected]
  unfold dispatchP2PRequest dispatchOrRetry
  rw [hframe]
  simp only
  split_ifs
  · exact scheduleWithin_calls_isPrefix env chunkIndex _ (state.log _)
  · exact List.prefix_rfl

/-- The first request is found when it is the first call. -/
theorem nextRequest_of_prefix {peerId : String} {wireMsg : Bytes} {sent : Bool}
    (hframe : encodeRequest failed.resourceId chunkIndex = .ok wireMsg)
    (hfirst : failed.calls ++ [.sendToPeer peerId wireMsg sent] <+: reached.calls) :
    nextRequest failed.resourceId chunkIndex (reached.calls.drop failed.calls.length) =
      some peerId := by
  obtain ⟨later, hcalls⟩ := hfirst
  rw [← hcalls, List.append_assoc, List.drop_left, nextRequest, List.singleton_append,
    List.findSome?_cons, requestedFrom, hframe]
  simp [Except.toOption]

/-- No frame is a request with a resource id that is too long for one. -/
theorem nextRequest_of_long {resourceId : String} (hlong : ¬ FitsHeader resourceId)
    (calls : List Call) : nextRequest resourceId chunkIndex calls = none := by
  refine List.findSome?_eq_none_iff.mpr fun call _ ↦ ?_
  unfold requestedFrom
  split
  · rw [encodeRequest, encodeChunkIndex_error hlong]
    simp [Except.toOption]
  · rfl

end Calls

/-! ### Where the next request goes -/

section Failures

variable {digest : Bytes → Bytes} {chunkStore : IChunkStore σ} {env : Env}
  {state failed reached : SchedulerState σ} {chunkIndex retries : ℕ} {peerId : String}
  {timedOut : Bool}

/-- The method schedules the chunk again, and whatever else it does comes later. -/
theorem Fails.retries_chunk
    (hfails : Fails digest chunkStore env chunkIndex peerId timedOut retries failed reached) :
    (scheduleChunk env chunkIndex (retries + 1) failed).1.calls <+: reached.calls := by
  cases hfails with
  | timedOut harmed hrequest hpeer =>
    subst hpeer
    simp only [perform, harmed, handleTimeout, hrequest]
    exact calls_isPrefix_andThen _ _
  | notSentAgain hmissing hallowed hselected hframe hrefused =>
    rw [scheduleChunk_of_selected hallowed hmissing hselected,
      dispatchP2PRequest_of_refused hframe hrefused]
  | notSent hentry hpeers hroom hselected hframe hrefused =>
    subst hentry
    simp only [assignToPeer, if_neg hroom, hselected]
    rw [dispatchP2PRequest_of_refused hframe hrefused]

/-- A peer that does not take a frame is the first of the least loaded ones, and stays so. -/
theorem Fails.isFirstLeast
    (hfails : Fails digest chunkStore env chunkIndex peerId false retries failed reached) :
    IsFirstLeast failed.countInFlightForPeer (failed.eligiblePeers chunkIndex) peerId := by
  cases hfails with
  | notSentAgain hmissing hretries hselected => exact isFirstLeast_of_byLoad hselected
  | notSent hentry hpeers hroom hselected =>
    have hfirst := isFirstLeast_of_byLoad hselected
    have hfree := hfirst.mem
    rw [hpeers] at hfirst hfree
    rw [List.mem_filter, decide_eq_true_eq] at hfree
    refine hfirst.of_filter fun other _ hfull ↦ ?_
    rw [decide_eq_false_iff_not, not_lt] at hfull
    exact hfree.2.trans_le hfull

/-- **Where a retry goes.** In every state, reachable or not: the next request for a missing chunk
that another unchoked peer has is sent to another peer exactly when the request timed out and the
peer is not the first of the least loaded ones once the request is off the books. A resource id that
fits into no frame is not requested at all. -/
theorem alternates_iff
    (hfails : Fails digest chunkStore env chunkIndex peerId timedOut retries failed reached)
    (hretries : retries < P2P_REQUEST_RETRIES)
    (hmissing : failed.localBitfield.has chunkIndex = false)
    (hother : ∃ other ∈ failed.eligiblePeers chunkIndex, other ≠ peerId) :
    Alternates chunkIndex peerId failed reached ↔
      timedOut = true ∧ FitsHeader failed.resourceId ∧
        ¬ IsFirstLeast failed.countInFlightForPeer (failed.eligiblePeers chunkIndex) peerId := by
  by_cases hfits : FitsHeader failed.resourceId
  · -- The least loaded peer is asked first.
    obtain ⟨other, hmem, -⟩ := hother
    obtain ⟨receiver, rest, hselected⟩ : ∃ receiver rest,
        failed.byLoad (failed.eligiblePeers chunkIndex) = receiver :: rest := by
      refine List.exists_cons_of_ne_nil fun hnone ↦ ?_
      rw [byLoad_eq_nil_iff] at hnone
      rw [hnone] at hmem
      exact absurd hmem List.not_mem_nil
    have hframe := encodeChunkIndex_eq hfits .REQUEST chunkIndex
    have hcalls := (@scheduleChunk_requests σ env failed chunkIndex _ _ _ _ hretries hmissing
      hselected hframe).trans hfails.retries_chunk
    have hnext := nextRequest_of_prefix hframe hcalls
    have hfirst := isFirstLeast_of_byLoad hselected
    have halternates : Alternates chunkIndex peerId failed reached ↔ receiver ≠ peerId := by
      unfold Alternates
      rw [hnext]
      simp
    rw [halternates]
    constructor
    · intro hreceiver
      have hnot : ¬ IsFirstLeast failed.countInFlightForPeer (failed.eligiblePeers chunkIndex)
          peerId := fun hsame ↦ hreceiver (hfirst.unique hsame)
      cases timedOut with
      | true => exact ⟨rfl, hfits, hnot⟩
      | false => exact absurd hfails.isFirstLeast hnot
    · rintro ⟨-, -, hnot⟩ rfl
      exact hnot hfirst
  · refine iff_of_false ?_ fun h ↦ hfits h.2.1
    rintro ⟨receiver, hnext, -⟩
    rw [nextRequest_of_long hfits] at hnext
    exact absurd hnext (by simp)

end Failures

/-! ### A silent peer -/

/-- Two peers have the only chunk, and it is requested from the first one. -/
def askedState : SchedulerState MemoryStorage :=
  schedulerRun id MemoryChunkStore oneChunkManifest (Bitfield.new 1) [oneChunkBitfield]
    OrderedMap.empty ([.updatePeerBitfield "first" 0, .updatePeerBitfield "second" 0, .start].map
      fun event ↦ (calmEnv, event))

/-- The request is off the books. -/
def unansweredState : SchedulerState MemoryStorage :=
  (release 0 0 askedState).log [.onRetry 0 "first"]

theorem unansweredState_fails : Fails id MemoryChunkStore calmEnv 0 "first" true 0 unansweredState
    (perform id MemoryChunkStore calmEnv (.timeout 0) askedState).1 := by
  have hrequest : askedState.inFlight.get? 0 = some ⟨0, "first", 0, 0, 1000⟩ := by rfl
  exact .timedOut (by rfl) hrequest rfl

theorem alternates_iff_unansweredState : Alternates 0 "first" unansweredState
      (perform id MemoryChunkStore calmEnv (.timeout 0) askedState).1 ↔
    true = true ∧ FitsHeader unansweredState.resourceId ∧
      ¬ IsFirstLeast unansweredState.countInFlightForPeer
        (unansweredState.eligiblePeers 0) "first" :=
  alternates_iff unansweredState_fails (by decide) (by decide +kernel)
    ⟨"second", by decide +kernel, by decide⟩

/-- The request times out with both retries left, another peer has the chunk, and the same peer is
asked again. -/
theorem unansweredState_asks_again :
    Fails id MemoryChunkStore calmEnv 0 "first" true 0 unansweredState
      (perform id MemoryChunkStore calmEnv (.timeout 0) askedState).1 ∧
    0 < P2P_REQUEST_RETRIES ∧ unansweredState.localBitfield.has 0 = false ∧
      (∃ other ∈ unansweredState.eligiblePeers 0, other ≠ "first") ∧
        ¬ Alternates 0 "first" unansweredState
          (perform id MemoryChunkStore calmEnv (.timeout 0) askedState).1 := by
  refine ⟨unansweredState_fails, by decide, by decide +kernel, ⟨"second", by decide +kernel,
    by decide⟩, ?_⟩
  rintro ⟨receiver, hnext, hreceiver⟩
  have hsame : nextRequest unansweredState.resourceId 0
      ((perform id MemoryChunkStore calmEnv (.timeout 0) askedState).1.calls.drop
        unansweredState.calls.length) = some "first" := by decide +kernel
  rw [hsame, Option.some.injEq] at hnext
  exact hreceiver hnext.symm

end CampusMesh.Web
