import CampusMesh.Web.GreedyScheduling
import CampusMesh.Web.PeerLoads
import CampusMesh.Web.RetryRecursion
import CampusMesh.Web.SchedulerReports

/-!
# The retry budget over a run

A request fails when a data channel does not take it, when its timer fires, or when its peer leaves.
`failuresAlong` counts the failures of a chunk over a part of a run, from the code's own calls: the
refused frames of every call that schedules the chunk, and one more for each timeout and each
departure. The retry count of a request is never behind the failures that led to it (`Tallied`) and
never above the budget (`Budgeted`). So a chunk that fails more often than the budget allows, with
no answer and no stop in between, is being fetched from the origin (`retryRecursion_bounded`).

Every event is a part of its own followed by the scheduling loop, or that part alone
(`perform_eq_beforeLoop`).
-/

set_option autoImplicit false
set_option relaxedAutoImplicit false

namespace CampusMesh.Web

open Library Shared SchedulerState Relation

variable {σ : Type}

/-! ### Events and the scheduling loop -/

/-- What an event does before it comes to `scheduleNext`, and whether it comes there. -/
def beforeLoop (digest : Bytes → Bytes) (chunkStore : IChunkStore σ) (env : Env)
    (event : SchedulerEvent) (state : SchedulerState σ) : SchedulerState σ × Bool :=
  match event with
  | .start => if state.isRunning then (state, false) else ({ state with isRunning := true }, true)
  | .updatePeerBitfield peerId address =>
    ({ state with
        peerBitfields := state.peerBitfields.set peerId address
        peerChoked :=
          if state.peerChoked.has peerId then state.peerChoked
          else state.peerChoked.set peerId false }, state.isRunning)
  | .updatePeerHave peerId chunkIndex =>
    let located := peerBitfield peerId state
    match (located.1.bitfieldAt located.2).set chunkIndex with
    | .error _ => (located.1, false)
    | .ok bitfield =>
      ({ located.1 with heap := located.1.heap.set located.2 bitfield }, located.1.isRunning)
  | .setPeerChoked peerId choked =>
    ({ state with peerChoked := state.peerChoked.set peerId choked }, !choked && state.isRunning)
  | .removePeer peerId =>
    let outcome := Action.forEach (reassign env peerId) state.inFlight.entries
      (forget peerId state)
    (outcome.1, outcome.2.isNone && outcome.1.isRunning)
  | .scheduleNext => (state, true)
  | .timeout timer =>
    match state.timers.get? timer with
    | none => (state, false)
    | some chunkIndex =>
      match state.inFlight.get? chunkIndex with
      | none => ({ state with timers := state.timers.delete timer }, false)
      | some request =>
        let outcome := scheduleChunk env chunkIndex (request.retries + 1)
          ((release chunkIndex timer state).log [.onRetry chunkIndex request.peerId])
        (outcome.1, outcome.2.isNone)
  | .settled index settlement =>
    match state.tasks[index]? with
    | none => (state, false)
    | some task =>
      match task.stage, settlement with
      | .returned, .resumed =>
        (if task.fromP2P then settle index state
          else { settle index state with
            originInFlight := state.originInFlight.erase task.chunkIndex }, state.isRunning)
      | _, _ => (continueTask digest chunkStore env index task settlement state, false)
  | .stop | .handlePiece _ _ _ _ | .shared _ =>
    ((perform digest chunkStore env event state).1, false)

/-- The own part of an event and then, if the event comes there, the loop. -/
def thenLoop (env : Env) (own : SchedulerState σ × Bool) : SchedulerState σ :=
  if own.2 then (scheduleNext env own.1).1 else own.1

section Loop

variable {digest : Bytes → Bytes} {chunkStore : IChunkStore σ} {env : Env}
  {state : SchedulerState σ}

theorem scheduleIfRunning_fst (state : SchedulerState σ) :
    (scheduleIfRunning env state).1 = thenLoop env (state, state.isRunning) := by
  unfold scheduleIfRunning thenLoop
  split_ifs <;> rfl

/-- A method and the loop behind it, which is left out when the method throws. -/
theorem andThen_scheduleNext (method : Method σ) (state : SchedulerState σ) :
    (Action.andThen method (scheduleNext env) state).1 =
      thenLoop env ((method state).1, (method state).2.isNone) := by
  cases hresult : (method state).2 with
  | none =>
    rw [Action.andThen_of_returns hresult]
    rfl
  | some error =>
    rw [Action.andThen_of_throws hresult]
    rfl

theorem andThen_scheduleIfRunning (method : Method σ) (state : SchedulerState σ) :
    (Action.andThen method (scheduleIfRunning env) state).1 =
      thenLoop env ((method state).1, (method state).2.isNone && (method state).1.isRunning) := by
  cases hresult : (method state).2 with
  | none =>
    rw [Action.andThen_of_returns hresult]
    exact scheduleIfRunning_fst _
  | some error =>
    rw [Action.andThen_of_throws hresult]
    rfl

theorem finish_eq_thenLoop (index : ℕ) (task : Task) :
    finish env index task state = thenLoop env
      (if task.fromP2P then settle index state
        else { settle index state with
          originInFlight := state.originInFlight.erase task.chunkIndex }, state.isRunning) := by
  unfold finish
  cases task.fromP2P with
  | true => exact scheduleIfRunning_fst _
  | false => exact scheduleIfRunning_fst _

/-- Every event is its own part and then, if it comes there, the loop. -/
theorem perform_eq_beforeLoop (event : SchedulerEvent) :
    (perform digest chunkStore env event state).1 =
      thenLoop env (beforeLoop digest chunkStore env event state) := by
  cases event with
  | start =>
    simp only [perform, start, beforeLoop]
    by_cases hrunning : state.isRunning = true
    · rw [if_pos hrunning, if_pos hrunning]
      rfl
    · rw [if_neg hrunning, if_neg hrunning]
      rfl
  | updatePeerBitfield peerId address => exact scheduleIfRunning_fst _
  | updatePeerHave peerId chunkIndex =>
    simp only [perform, updatePeerHave, beforeLoop]
    cases ((peerBitfield peerId state).1.bitfieldAt (peerBitfield peerId state).2).set
      chunkIndex with
    | error error => rfl
    | ok bitfield => exact scheduleIfRunning_fst _
  | setPeerChoked peerId choked =>
    cases choked with
    | true => rfl
    | false => exact scheduleIfRunning_fst _
  | removePeer peerId => exact andThen_scheduleIfRunning _ _
  | scheduleNext => rfl
  | timeout timer =>
    simp only [perform, beforeLoop]
    cases state.timers.get? timer with
    | none => rfl
    | some chunkIndex =>
      simp only [handleTimeout]
      cases state.inFlight.get? chunkIndex with
      | none => rfl
      | some request => exact andThen_scheduleNext _ _
  | settled index settlement =>
    simp only [perform, beforeLoop]
    cases state.tasks[index]? with
    | none => rfl
    | some task =>
      by_cases hfinished : task.stage = .returned ∧ settlement = .resumed
      · obtain ⟨hstage, rfl⟩ := hfinished
        simp only [continueTask_finished hstage, hstage]
        exact finish_eq_thenLoop index task
      · simp only
        split
        · next hstage => exact absurd ⟨hstage, rfl⟩ hfinished
        · rfl
  | stop | handlePiece | shared => rfl

end Loop

/-! ### Failures -/

/-- How many frames of one call of a method are refused. -/
def refusals (method : Method σ) (state : SchedulerState σ) : ℕ :=
  (newCalls state (method state).1).countP Call.isRefusal

/-- The refused frames for a chunk when the scheduling loop comes to it. -/
def assignRefusals (env : Env) (chunkIndex : ℕ) (entry : RarityEntry) (state : SchedulerState σ) :
    ℕ := if entry.chunkIndex = chunkIndex then refusals (assign env entry) state else 0

/-- The refused frames for a chunk in a call of `scheduleNext`. -/
def loopRefusals (env : Env) (chunkIndex : ℕ) (state : SchedulerState σ) : ℕ :=
  if state.isRunning = true ∧ state.localBitfield.isComplete = false ∧
      state.outstanding < maxTotalInFlight then
    Action.forEachSum (assignRefusals env chunkIndex) (assign env) (agenda state) state
  else 0

/-- The departure of its peer, and the refused frames when the chunk is scheduled again. -/
def departureFailures (env : Env) (peerId : String) (chunkIndex : ℕ)
    (entry : ℕ × InFlightRequest) (state : SchedulerState σ) : ℕ :=
  if entry.1 = chunkIndex ∧ entry.2.peerId = peerId then
    1 + refusals (reassign env peerId entry) state
  else 0

/-- A timeout, and the refused frames when the chunk is scheduled again. -/
def timeoutFailures (env : Env) (timer chunkIndex : ℕ) (state : SchedulerState σ) : ℕ :=
  match state.inFlight.get? chunkIndex with
  | some request =>
    1 + refusals (scheduleChunk env chunkIndex (request.retries + 1))
      ((release chunkIndex timer state).log [.onRetry chunkIndex request.peerId])
  | none => 0

/-- How often a chunk fails in the own part of an event. -/
def ownFailures (env : Env) (chunkIndex : ℕ) (event : SchedulerEvent) (state : SchedulerState σ) :
    ℕ :=
  match event with
  | .timeout timer =>
    if state.timers.get? timer = some chunkIndex then timeoutFailures env timer chunkIndex state
    else 0
  | .removePeer peerId =>
    Action.forEachSum (departureFailures env peerId chunkIndex) (reassign env peerId)
      state.inFlight.entries (forget peerId state)
  | _ => 0

/-- How often a chunk fails during an event. -/
def failures (digest : Bytes → Bytes) (chunkStore : IChunkStore σ) (env : Env) (chunkIndex : ℕ)
    (event : SchedulerEvent) (state : SchedulerState σ) : ℕ :=
  let own := beforeLoop digest chunkStore env event state
  ownFailures env chunkIndex event state +
    if own.2 then loopRefusals env chunkIndex own.1 else 0

/-- How often a chunk fails during a part of a run. -/
def failuresAlong (digest : Bytes → Bytes) (chunkStore : IChunkStore σ) (chunkIndex : ℕ) :
    SchedulerState σ → List SchedulerInput → ℕ
  | _, [] => 0
  | state, input :: rest =>
    failures digest chunkStore input.1 chunkIndex input.2 state +
      failuresAlong digest chunkStore chunkIndex (schedulerStep digest chunkStore state input) rest

/-- The piece that an event brings completes the chunk. -/
def Fulfills (state : SchedulerState σ) (chunkIndex : ℕ) : SchedulerEvent → Prop
  | .handlePiece index beginOffset totalLength data =>
    index = chunkIndex ∧ (receive index beginOffset totalLength data state).totalLength ≤
      (receive index beginOffset totalLength data state).receivedBytes
  | _ => False

/-- Nothing else happens about the chunk in between: it is not being fetched from the origin yet, no
piece completes it, and the scheduler is not stopped. -/
def Uninterrupted (chunkIndex : ℕ) (state : SchedulerState σ) (input : SchedulerInput) : Prop :=
  chunkIndex ∉ state.originInFlight ∧ ¬ Fulfills state chunkIndex input.2 ∧ input.2 ≠ .stop

/-! ### The budget -/

/-- A request fits into a frame, and its retry count is within the budget. -/
def Budgeted (state : SchedulerState σ) : Prop :=
  ∀ chunkIndex request, state.inFlight.get? chunkIndex = some request →
    FitsHeader state.resourceId ∧ request.retries ≤ P2P_REQUEST_RETRIES

namespace Budgeted

variable {state next : SchedulerState σ}

theorem congr (hbudgeted : Budgeted state) (hmanifest : next.manifest = state.manifest)
    (hinFlight : next.inFlight = state.inFlight) : Budgeted next := by
  unfold Budgeted SchedulerState.resourceId
  rw [hmanifest, hinFlight]
  exact hbudgeted

theorem delete (hbudgeted : Budgeted state) {chunkIndex : ℕ}
    (hmanifest : next.manifest = state.manifest)
    (hinFlight : next.inFlight = state.inFlight.delete chunkIndex) : Budgeted next := by
  intro other request hrequest
  rw [hinFlight, OrderedMap.get?_delete] at hrequest
  split_ifs at hrequest
  unfold SchedulerState.resourceId
  rw [hmanifest]
  exact hbudgeted other request hrequest

theorem release (hbudgeted : Budgeted state) (chunkIndex timer : ℕ) :
    Budgeted (release chunkIndex timer state) := hbudgeted.delete rfl rfl

theorem arm (hbudgeted : Budgeted state) {retries : ℕ} (hfits : FitsHeader state.resourceId)
    (hretries : retries ≤ P2P_REQUEST_RETRIES) (chunkIndex : ℕ) (peerId : String) (now : ℕ) :
    Budgeted (state.arm chunkIndex peerId retries now) := by
  intro other request hrequest
  change (state.inFlight.set chunkIndex _).get? other = some request at hrequest
  rw [OrderedMap.get?_set] at hrequest
  split_ifs at hrequest
  · rw [← Option.some.inj hrequest]
    exact ⟨hfits, hretries⟩
  · exact hbudgeted other request hrequest

variable {env : Env}

theorem dispatchOriginFallback (hbudgeted : Budgeted state) (chunkIndex : ℕ) :
    Budgeted (dispatchOriginFallback env chunkIndex state).1 := by
  unfold Web.dispatchOriginFallback
  split_ifs
  · exact hbudgeted
  · exact hbudgeted.congr rfl rfl

theorem dispatchOrRetry (hbudgeted : Budgeted state) {retry : Method σ} {retries : ℕ}
    (hretries : retries ≤ P2P_REQUEST_RETRIES)
    (hretry : ∀ calls, Budgeted (retry (state.log calls)).1) (chunkIndex : ℕ) (peerId : String) :
    Budgeted (dispatchOrRetry env retry chunkIndex peerId retries state).1 := by
  by_cases hfits : FitsHeader state.resourceId
  · unfold Web.dispatchOrRetry encodeRequest
    rw [encodeChunkIndex_eq hfits]
    simp only
    split_ifs
    · exact hretry _
    · have hoffered : Budgeted (state.log [.sendToPeer peerId
          (headerBytes .REQUEST state.resourceId ++ uint32Bytes chunkIndex)
          (env.sends state.calls.length)]) := hbudgeted.congr rfl rfl
      exact hoffered.arm hfits hretries chunkIndex peerId env.now
  · unfold Web.dispatchOrRetry encodeRequest
    rw [encodeChunkIndex_error hfits]
    exact hbudgeted

/-- The recursion requests a chunk within the budget. -/
theorem scheduleWithin (hbudgeted : Budgeted state) (chunkIndex attempts : ℕ) :
    Budgeted (scheduleWithin env chunkIndex attempts state).1 := by
  induction attempts generalizing state with
  | zero =>
    unfold Web.scheduleWithin
    split_ifs
    · exact hbudgeted
    · exact hbudgeted.dispatchOriginFallback chunkIndex
  | succ attempts ih =>
    unfold Web.scheduleWithin
    split_ifs
    · exact hbudgeted
    split
    · exact hbudgeted.dispatchOrRetry (Nat.sub_le _ _)
        (fun calls ↦ ih (hbudgeted.congr rfl rfl)) chunkIndex _
    · exact hbudgeted.dispatchOriginFallback chunkIndex

theorem scheduleChunk (hbudgeted : Budgeted state) (chunkIndex retries : ℕ) :
    Budgeted (scheduleChunk env chunkIndex retries state).1 :=
  hbudgeted.scheduleWithin chunkIndex _

theorem assign (hbudgeted : Budgeted state) (entry : RarityEntry) :
    Budgeted (assign env entry state).1 := by
  have hlogged : ∀ calls, Budgeted (state.log calls) := fun calls ↦ hbudgeted.congr rfl rfl
  unfold Web.assign
  split_ifs
  · unfold assignToPeer
    split_ifs
    · exact hbudgeted
    simp only
    split
    · exact hbudgeted.dispatchOrRetry (Nat.zero_le _)
        (fun calls ↦ (hlogged calls).scheduleChunk _ _) _ _
    · exact hbudgeted
  · unfold assignToOrigin
    split_ifs
    · exact hbudgeted
    · exact hbudgeted.dispatchOriginFallback _

theorem scheduleNext (hbudgeted : Budgeted state) : Budgeted (scheduleNext env state).1 := by
  rcases scheduleNext_cases env state with ⟨-, hidle⟩ | ⟨-, hreports⟩ |
    ⟨hrunning, hincomplete, hroom⟩
  · rw [hidle]
    exact hbudgeted
  · rw [hreports]
    exact hbudgeted.congr rfl rfl
  · rw [scheduleNext_eq_agenda hrunning hincomplete hroom]
    exact Action.forEach_keeps (fun entry _ _ h ↦ h.assign entry) hbudgeted

theorem reassign (hbudgeted : Budgeted state) (peerId : String) (entry : ℕ × InFlightRequest) :
    Budgeted (reassign env peerId entry state).1 := by
  unfold Web.reassign
  split_ifs
  · exact (hbudgeted.release _ _).scheduleChunk _ _
  · exact hbudgeted

end Budgeted

/-! ### The tally -/

/-- A chunk that is not being fetched has failed at most as often as its request says, and not at
all when it is not requested. -/
def Tallied (chunkIndex failed : ℕ) (state : SchedulerState σ) : Prop :=
  chunkIndex ∈ state.originInFlight ∨
    (∀ request, state.inFlight.get? chunkIndex = some request → failed ≤ request.retries) ∧
      (state.inFlight.get? chunkIndex = none → failed = 0)

section Tallied

variable {env : Env} {state next : SchedulerState σ} {chunkIndex failed : ℕ}

theorem Tallied.congr (htallied : Tallied chunkIndex failed state)
    (hrequest : next.inFlight.get? chunkIndex = state.inFlight.get? chunkIndex)
    (hfetches : chunkIndex ∈ state.originInFlight → chunkIndex ∈ next.originInFlight) :
    Tallied chunkIndex failed next := by
  unfold Tallied
  rw [hrequest]
  exact htallied.imp_left hfetches

theorem Tallied.mono {fewer : ℕ} (htallied : Tallied chunkIndex failed state)
    (hfewer : fewer ≤ failed) : Tallied chunkIndex fewer state :=
  htallied.imp_right fun h ↦
    ⟨fun request hrequest ↦ hfewer.trans (h.1 request hrequest), fun hfree ↦ by
      have hnone := h.2 hfree
      omega⟩

theorem Tallied.moves {strict : Prop} {about : Set ℕ} (htallied : Tallied chunkIndex failed state)
    (hmoves : Moves env strict about state next) (hother : chunkIndex ∉ about) :
    Tallied chunkIndex failed next :=
  htallied.congr (hmoves.get?_inFlight hother) fun hfetched ↦ hmoves.grows.fetches hfetched

/-- The recursion adds its refusals to the retry count. -/
theorem Dispatched.tallied {retries : ℕ} {outcome : SchedulerState σ × Option JsError}
    (hdispatched : Dispatched env chunkIndex retries state outcome) :
    Tallied chunkIndex (retries + (newCalls state outcome.1).countP Call.isRefusal) outcome.1 := by
  cases hdispatched with
  | requested refusing peerId frame =>
    have hcalls : newCalls state
        (((state.log (refusedOffers refusing frame)).log [.sendToPeer peerId frame true]).arm
          chunkIndex peerId (retries + refusing.length) env.now) =
        refusedOffers refusing frame ++ [.sendToPeer peerId frame true] :=
      newCalls_of_append (List.append_assoc _ _ _)
    have hcount : (refusedOffers refusing frame ++ [Call.sendToPeer peerId frame true]).countP
        Call.isRefusal = refusing.length := by
      rw [List.countP_append, countP_refusedOffers refusing frame fun _ ↦ rfl]
      rfl
    rw [hcalls, hcount]
    refine Or.inr ⟨fun request hrequest ↦ ?_, fun hfree ↦ ?_⟩
    · rw [← Option.some.inj ((OrderedMap.get?_set_self _ _ _).symm.trans hrequest)]
    · exact absurd ((OrderedMap.get?_set_self _ _ _).symm.trans hfree) (Option.some_ne_none _)
  | fetched => exact Or.inl (Finset.mem_insert_self _ _)

theorem refusals_of_unchanged {method : Method σ} (hunchanged : (method state).1 = state) :
    refusals method state = 0 := by
  rw [refusals, hunchanged, newCalls, List.drop_length]
  rfl

/-- At its turn a candidate is left alone, or the recursion runs for it. -/
theorem assign_dispatched (env : Env) {entry : RarityEntry}
    (hfree : Unacquired state entry.chunkIndex) :
    (assign env entry state).1 = state ∨
      Dispatched env entry.chunkIndex 0 state (assign env entry state) := by
  unfold assign
  split_ifs
  · unfold assignToPeer
    split_ifs
    · exact Or.inl rfl
    simp only
    split
    · by_cases hfits : FitsHeader state.resourceId
      · exact Or.inr (dispatchP2PRequest_dispatched _ (Nat.zero_le _) hfits hfree)
      · rw [dispatchP2PRequest, dispatchOrRetry, encodeRequest, encodeChunkIndex_error hfits]
        exact Or.inl rfl
    · exact Or.inl rfl
  · unfold assignToOrigin
    split_ifs
    · exact Or.inl rfl
    · exact Or.inr (dispatchOriginFallback_dispatched hfree)

/-- The loop counts the refusals of a chunk once, at its turn; the other turns leave it alone. -/
theorem agenda_tallied (htallied : Tallied chunkIndex failed state) :
    Tallied chunkIndex
      (failed + Action.forEachSum (assignRefusals env chunkIndex) (assign env) (agenda state) state)
      (Action.forEach (assign env) (agenda state) state).1 := by
  refine Action.forEach_sum_of_distinct RarityEntry.chunkIndex
    (fun chunk reached ↦ Free reached chunk) (nodup_agenda state)
    (fun entry _ count reached hfree hcount ↦ ?_)
    (fun entry _ other hother reached hready hkept ↦ (assign_moves env hready).free hother hkept)
    (fun entry hmem ↦ free_of_mem_rarityMap (mem_agenda.mp hmem)) htallied
  by_cases hturn : entry.chunkIndex = chunkIndex
  · subst hturn
    obtain rfl : count = 0 := (hcount.resolve_left hfree.notFetched).2 hfree.notRequested
    rw [assignRefusals, if_pos rfl]
    rcases assign_dispatched env ⟨hfree.missing, hfree.notRequested, hfree.notFetched⟩ with
      hunchanged | hdispatched
    · rw [refusals_of_unchanged hunchanged, hunchanged]
      exact hcount
    · exact hdispatched.tallied
  · rw [assignRefusals, if_neg hturn, Nat.add_zero]
    exact hcount.moves (assign_moves env hfree) (Ne.symm hturn)

theorem scheduleNext_tallied (htallied : Tallied chunkIndex failed state) :
    Tallied chunkIndex (failed + loopRefusals env chunkIndex state) (scheduleNext env state).1 := by
  rcases scheduleNext_cases env state with ⟨hfull, hidle⟩ | ⟨hcomplete, hreports⟩ |
    ⟨hrunning, hincomplete, hroom⟩
  · rw [hidle, loopRefusals, if_neg fun h ↦ not_le.mpr h.2.2 (hfull h.1 h.2.1)]
    exact htallied
  · rw [hreports, loopRefusals, if_neg fun h ↦ by simp [hcomplete] at h]
    exact htallied
  · rw [scheduleNext_eq_agenda hrunning hincomplete hroom, loopRefusals,
      if_pos ⟨hrunning, hincomplete, hroom⟩]
    exact agenda_tallied htallied

end Tallied

/-! ### The own part of an event -/

section Own

variable {digest : Bytes → Bytes} {chunkStore : IChunkStore σ} {env : Env}
  {state : SchedulerState σ} {chunkIndex failed : ℕ} {event : SchedulerEvent}

theorem advance_inFlight (index : ℕ) (task : Task) (stage : Stage) (state : SchedulerState σ) :
    (advance index task stage state).inFlight = state.inFlight := rfl

/-- Before its end a continuation leaves the requests alone. -/
theorem continueTask_inFlight (index : ℕ) (task : Task) (settlement : Settlement)
    (hcontinues : ¬ (task.stage = .returned ∧ settlement = .resumed)) :
    (continueTask digest chunkStore env index task settlement state).inFlight =
      state.inFlight := by
  have htransition := continueTask_transition digest chunkStore env index task settlement state
  generalize continueTask digest chunkStore env index task settlement state = next
    at htransition ⊢
  cases htransition with
  | ignored | fetchFailed | written | caught => rfl
  | fetched => rw [advance_inFlight, verifyAndStoreChunk_inFlight]
  | verified => rw [advance_inFlight, afterVerify_inFlight]
  | verifyFailed _ _ _ error | putFailed _ _ _ error =>
    exact reject_inFlight index task error state
  | putDone data latencyMs =>
    have hput := afterPut_inFlight task.chunkIndex task.fromP2P data latencyMs state
    unfold afterStore
    split
    · rw [advance_inFlight, hput]
    · rw [reject_inFlight, hput]
  | finished hstage => exact absurd ⟨hstage, rfl⟩ hcontinues

theorem completePiece_inFlight (index : ℕ) (request : InFlightRequest) (item : ChunkReassembly) :
    (completePiece env index request item state).1.inFlight = state.inFlight.delete index := by
  unfold completePiece
  simp only
  split
  · rfl
  · exact verifyAndStoreChunk_inFlight _ _ _ _

/-- Only a piece that completes a chunk takes a request away, besides timeouts, departures and
`stop`. -/
theorem beforeLoop_inFlight (htimeout : ∀ timer, event ≠ .timeout timer)
    (hremove : ∀ peerId, event ≠ .removePeer peerId) (hstop : event ≠ .stop) :
    (beforeLoop digest chunkStore env event state).1.inFlight = state.inFlight ∨
      ∃ index, Fulfills state index event ∧
        (beforeLoop digest chunkStore env event state).1.inFlight =
          state.inFlight.delete index := by
  cases event with
  | timeout timer => exact absurd rfl (htimeout timer)
  | removePeer peerId => exact absurd rfl (hremove peerId)
  | stop => exact absurd rfl hstop
  | updatePeerBitfield | setPeerChoked | scheduleNext | shared => exact Or.inl rfl
  | start =>
    left
    unfold beforeLoop
    simp only
    split_ifs <;> rfl
  | updatePeerHave peerId index =>
    have hlocated : (peerBitfield peerId state).1.inFlight = state.inFlight := by
      unfold peerBitfield
      split <;> rfl
    left
    unfold beforeLoop
    simp only
    split
    · exact hlocated
    · exact hlocated
  | handlePiece index beginOffset totalLength data =>
    simp only [beforeLoop, perform, handlePiece]
    split
    · exact Or.inl rfl
    · split_ifs with hcomplete
      · exact Or.inr ⟨index, ⟨rfl, hcomplete⟩, completePiece_inFlight _ _ _⟩
      · exact Or.inl rfl
  | settled index settlement =>
    left
    simp only [beforeLoop]
    split
    · rfl
    · next task _ =>
      by_cases hfinished : task.stage = .returned ∧ settlement = .resumed
      · obtain ⟨hstage, rfl⟩ := hfinished
        simp only [hstage]
        split_ifs <;> rfl
      · split
        · next hstage => exact absurd ⟨hstage, rfl⟩ hfinished
        · exact continueTask_inFlight index task _ hfinished

/-- The own part of an event keeps the manifest and the marks that the event leaves. -/
theorem beforeLoop_unmoved :
    (beforeLoop digest chunkStore env event state).1.manifest =
        (perform digest chunkStore env event state).1.manifest ∧
      (beforeLoop digest chunkStore env event state).1.localBitfield =
        (perform digest chunkStore env event state).1.localBitfield := by
  rw [perform_eq_beforeLoop, thenLoop]
  split_ifs
  · have hunmoved := (scheduleNext_moves env
      (beforeLoop digest chunkStore env event state).1).unmoved
    exact ⟨hunmoved.manifest.symm, hunmoved.localBitfield.symm⟩
  · exact ⟨rfl, rfl⟩

theorem Budgeted.beforeLoop (hwf : WellFormed state) (hbudgeted : Budgeted state) :
    Budgeted (beforeLoop digest chunkStore env event state).1 := by
  have hmanifest : (Web.beforeLoop digest chunkStore env event state).1.manifest =
      state.manifest :=
    beforeLoop_unmoved.1.trans (schedulerStep_wellFormed hwf (env, event)).2
  have hother : (∀ timer, event ≠ .timeout timer) → (∀ peerId, event ≠ .removePeer peerId) →
      event ≠ .stop → Budgeted (Web.beforeLoop digest chunkStore env event state).1 := by
    intro htimeout hremove hstop
    rcases beforeLoop_inFlight htimeout hremove hstop with hsame | ⟨index, _, hreleased⟩
    · exact hbudgeted.congr hmanifest hsame
    · exact hbudgeted.delete hmanifest hreleased
  cases event with
  | stop =>
    intro index request hrequest
    simp [Web.beforeLoop, perform, stop] at hrequest
  | removePeer peerId =>
    have hforgotten : Budgeted (forget peerId state) := hbudgeted.congr rfl rfl
    exact Action.forEach_keeps (fun entry _ _ h ↦ h.reassign peerId entry) hforgotten
  | timeout timer =>
    simp only [Web.beforeLoop]
    split
    · exact hbudgeted
    next index _ =>
    split
    · exact hbudgeted.congr rfl rfl
    · next request _ =>
      have hreleased : Budgeted ((Web.release index timer state).log
          [.onRetry index request.peerId]) := (hbudgeted.release index timer).congr rfl rfl
      exact hreleased.scheduleChunk _ _
  | _ => exact hother (by simp) (by simp) (by simp)

/-- A request that failed is scheduled again with one failure more. -/
theorem retry_tallied (hwf : WellFormed state) (hbudgeted : Budgeted state)
    (hmissing : state.localBitfield.has chunkIndex = false) {request : InFlightRequest}
    (hrequest : state.inFlight.get? chunkIndex = some request) (calls : List Call)
    (htallied : Tallied chunkIndex failed state) :
    Tallied chunkIndex (failed + (1 + refusals (scheduleChunk env chunkIndex (request.retries + 1))
        ((release chunkIndex request.timer state).log calls)))
      (scheduleChunk env chunkIndex (request.retries + 1)
        ((release chunkIndex request.timer state).log calls)).1 := by
  by_cases hfetched : chunkIndex ∈ state.originInFlight
  · exact Or.inl ((reschedule_moves env hwf hrequest _ calls).grows.fetches hfetched)
  · have hfailed : failed ≤ request.retries :=
      (htallied.resolve_left hfetched).1 request hrequest
    have hdispatched : Dispatched env chunkIndex (request.retries + 1)
        ((release chunkIndex request.timer state).log calls)
        (scheduleChunk env chunkIndex (request.retries + 1)
          ((release chunkIndex request.timer state).log calls)) :=
      scheduleChunk_dispatched _ (hbudgeted chunkIndex request hrequest).1
        ⟨hmissing, OrderedMap.get?_delete_self _ _, hfetched⟩
    refine hdispatched.tallied.mono ?_
    unfold refusals
    omega

/-- Scheduling another request again. -/
theorem reschedule_tallied (hwf : WellFormed state) {other : ℕ} (hother : other ≠ chunkIndex)
    {request : InFlightRequest} (hrequest : state.inFlight.get? other = some request)
    (retries : ℕ) (calls : List Call) (htallied : Tallied chunkIndex failed state) :
    Tallied chunkIndex failed (scheduleChunk env other retries
      ((release other request.timer state).log calls)).1 := by
  have hreleased : Tallied chunkIndex failed ((release other request.timer state).log calls) :=
    htallied.congr (OrderedMap.get?_delete_of_ne _ hother.symm) id
  exact hreleased.moves (reschedule_moves env hwf hrequest retries calls) hother.symm

/-- The turn of one request in the loop of `removePeer`. -/
theorem reassign_tallied (hwf : WellFormed state) (hbudgeted : Budgeted state)
    (hmissing : state.localBitfield.has chunkIndex = false) {entry : ℕ × InFlightRequest}
    (hentry : state.inFlight.get? entry.1 = some entry.2) (peerId : String)
    (htallied : Tallied chunkIndex failed state) :
    Tallied chunkIndex (failed + departureFailures env peerId chunkIndex entry state)
      (reassign env peerId entry state).1 := by
  by_cases hpeer : entry.2.peerId = peerId
  · have hreassign : reassign env peerId entry state =
        scheduleChunk env entry.1 (entry.2.retries + 1)
          (release entry.1 entry.2.timer state) := by
      rw [reassign, if_pos hpeer]
    by_cases hturn : entry.1 = chunkIndex
    · subst hturn
      have hretried := @retry_tallied σ env state entry.1 failed hwf hbudgeted hmissing entry.2
        hentry [] htallied
      rw [log_nil] at hretried
      rw [departureFailures, if_pos ⟨rfl, hpeer⟩, refusals, hreassign]
      exact hretried
    · have hretried := @reschedule_tallied σ env state chunkIndex failed hwf entry.1 hturn entry.2
        hentry (entry.2.retries + 1) [] htallied
      rw [log_nil] at hretried
      rw [departureFailures, if_neg fun h ↦ hturn h.1, Nat.add_zero, hreassign]
      exact hretried
  · rw [departureFailures, if_neg fun h ↦ hpeer h.2, Nat.add_zero, reassign, if_neg hpeer]
    exact htallied

theorem reassign_localBitfield (hwf : WellFormed state) {entry : ℕ × InFlightRequest}
    (hentry : state.inFlight.get? entry.1 = some entry.2) (peerId : String) :
    (reassign env peerId entry state).1.localBitfield = state.localBitfield := by
  by_cases hpeer : entry.2.peerId = peerId
  · exact (reassign_moves env hwf hentry hpeer).unmoved.localBitfield
  · rw [reassign, if_neg hpeer]

/-- The loop of `removePeer` counts the departure at the turn of the chunk. -/
theorem reassign_loop_tallied (hwf : WellFormed state) (hbudgeted : Budgeted state)
    (hmissing : state.localBitfield.has chunkIndex = false) (peerId : String)
    (htallied : Tallied chunkIndex failed state) :
    Tallied chunkIndex
      (failed + Action.forEachSum (departureFailures env peerId chunkIndex) (reassign env peerId)
        state.inFlight.entries state)
      (Action.forEach (reassign env peerId) state.inFlight.entries state).1 := by
  have hturn : ∀ entry ∈ state.inFlight.entries, ∀ count (reached : SchedulerState σ),
      WellFormed reached ∧ reached.inFlight.get? (id entry).1 = some (id entry).2 →
      Tallied chunkIndex count reached ∧ Budgeted reached ∧
        reached.localBitfield.has chunkIndex = false →
      Tallied chunkIndex (count + departureFailures env peerId chunkIndex entry reached)
          (reassign env peerId entry reached).1 ∧
        Budgeted (reassign env peerId entry reached).1 ∧
        (reassign env peerId entry reached).1.localBitfield.has chunkIndex = false := by
    rintro entry - count reached ⟨hreached, hentry⟩ ⟨hcount, hbudget, hlacks⟩
    have hbitfield : (reassign env peerId entry reached).1.localBitfield =
        reached.localBitfield := reassign_localBitfield hreached hentry peerId
    refine ⟨reassign_tallied hreached hbudget hlacks hentry peerId hcount,
      hbudget.reassign peerId entry, ?_⟩
    rw [hbitfield]
    exact hlacks
  have hdistinct : (state.inFlight.entries.map id).Nodup := by
    rw [List.map_id]
    exact state.inFlight.nodup_keys.of_map _
  exact (Action.forEach_sum_of_distinct id
    (fun (entry : ℕ × InFlightRequest) (reached : SchedulerState σ) ↦
      WellFormed reached ∧ reached.inFlight.get? entry.1 = some entry.2)
    hdistinct hturn
    (fun entry _ other hother reached hready hkept ↦
      reassign_keeps env hready.1 peerId hready.2 hother hkept.2)
    (fun entry hentry ↦ ⟨hwf, OrderedMap.mem_entries_iff.mp hentry⟩)
    ⟨htallied, hbudgeted, hmissing⟩).1

/-- The own part of an event adds its failures to the tally. -/
theorem beforeLoop_tallied (hwf : WellFormed state) (hbudgeted : Budgeted state)
    (hmissing : state.localBitfield.has chunkIndex = false)
    (huninterrupted : Uninterrupted chunkIndex state (env, event))
    (htallied : Tallied chunkIndex failed state) :
    Tallied chunkIndex (failed + ownFailures env chunkIndex event state)
      (beforeLoop digest chunkStore env event state).1 := by
  obtain ⟨hidle, hunanswered, hrunning⟩ := huninterrupted
  have hother : (∀ timer, event ≠ .timeout timer) → (∀ peerId, event ≠ .removePeer peerId) →
      Tallied chunkIndex failed (beforeLoop digest chunkStore env event state).1 := by
    intro htimeout hremove
    rcases beforeLoop_inFlight htimeout hremove hrunning with hsame | ⟨index, hfulfills, hreleased⟩
    · exact htallied.congr (by rw [hsame]) fun hfetched ↦ absurd hfetched hidle
    · have hne : chunkIndex ≠ index := fun heq ↦ hunanswered (heq ▸ hfulfills)
      refine htallied.congr ?_ fun hfetched ↦ absurd hfetched hidle
      rw [hreleased]
      exact OrderedMap.get?_delete_of_ne _ hne
  cases event with
  | removePeer peerId =>
    have hforgotten : Budgeted (forget peerId state) := hbudgeted.congr rfl rfl
    exact reassign_loop_tallied (hwf.forget peerId) hforgotten hmissing peerId htallied
  | timeout timer =>
    simp only [beforeLoop, ownFailures]
    cases harmed : state.timers.get? timer with
    | none =>
      rw [if_neg (by simp)]
      exact htallied
    | some index =>
      obtain ⟨request, hrequest, rfl⟩ := (hwf.timers_iff timer index).mp harmed
      simp only [hrequest, Option.some.injEq]
      split_ifs with hsame
      · subst hsame
        simp only [timeoutFailures, hrequest]
        exact retry_tallied hwf hbudgeted hmissing hrequest _ htallied
      · exact reschedule_tallied hwf hsame hrequest _ _ htallied
  | _ => exact hother (by simp) (by simp)

/-- **A step.** An event adds its failures to the tally. -/
theorem perform_tallied (hwf : WellFormed state) (hbudgeted : Budgeted state)
    (hmissing : state.localBitfield.has chunkIndex = false)
    (huninterrupted : Uninterrupted chunkIndex state (env, event))
    (htallied : Tallied chunkIndex failed state) :
    Tallied chunkIndex (failed + failures digest chunkStore env chunkIndex event state)
      (perform digest chunkStore env event state).1 := by
  have hown : Tallied chunkIndex (failed + ownFailures env chunkIndex event state)
      (beforeLoop digest chunkStore env event state).1 :=
    beforeLoop_tallied hwf hbudgeted hmissing huninterrupted htallied
  rw [perform_eq_beforeLoop, thenLoop]
  simp only [failures]
  split_ifs
  · rw [← Nat.add_assoc]
    exact scheduleNext_tallied hown
  · exact hown

theorem perform_budgeted (hwf : WellFormed state) (hbudgeted : Budgeted state)
    (event : SchedulerEvent) : Budgeted (perform digest chunkStore env event state).1 := by
  rw [perform_eq_beforeLoop, thenLoop]
  split_ifs
  · exact (hbudgeted.beforeLoop hwf).scheduleNext
  · exact hbudgeted.beforeLoop hwf

end Own

/-! ### Runs -/

section Runs

variable {digest : Bytes → Bytes} {chunkStore : IChunkStore σ} {state : SchedulerState σ}
  {chunkIndex failed : ℕ}

theorem run_budgeted (hwf : WellFormed state) (hbudgeted : Budgeted state)
    (inputs : List SchedulerInput) :
    WellFormed (run (schedulerStep digest chunkStore) state inputs) ∧
      Budgeted (run (schedulerStep digest chunkStore) state inputs) := by
  refine run_invariant_of_step (fun reached ↦ WellFormed reached ∧ Budgeted reached)
    (fun reached input h ↦ ?_) ⟨hwf, hbudgeted⟩ inputs
  exact ⟨(schedulerStep_wellFormed h.1 input).1, perform_budgeted h.1 h.2 input.2⟩

/-- Every reachable state keeps to the budget. -/
theorem schedulerRun_budgeted (digest : Bytes → Bytes) (chunkStore : IChunkStore σ)
    (manifest : ResourceManifest) (localBitfield : Bitfield) (heap : List Bitfield) (store : σ)
    (inputs : List SchedulerInput) :
    WellFormed (schedulerRun digest chunkStore manifest localBitfield heap store inputs) ∧
      Budgeted (schedulerRun digest chunkStore manifest localBitfield heap store inputs) := by
  refine run_budgeted (wellFormed_new manifest localBitfield heap store) ?_ inputs
  intro index request hrequest
  simp [SchedulerState.new, ChunkScheduler.new] at hrequest

theorem run_has_mono (hwf : WellFormed state) (inputs : List SchedulerInput)
    (hmarked : state.localBitfield.has chunkIndex = true) :
    (run (schedulerStep digest chunkStore) state inputs).localBitfield.has chunkIndex = true :=
  (run_of_step (fun reached ↦ reached.localBitfield.has chunkIndex = true)
    (fun _ _ _ _ hinv hstep ↦ hstep.has_mono hinv) hwf hmarked inputs).2

/-- **A run.** As long as nothing else happens about the chunk, its failures stay within its
tally. -/
theorem failuresAlong_tallied {during : List SchedulerInput} (hwf : WellFormed state)
    (hbudgeted : Budgeted state)
    (huninterrupted : Along (schedulerStep digest chunkStore) (Uninterrupted chunkIndex) state
      during)
    (hmissing : (run (schedulerStep digest chunkStore) state
      during).localBitfield.has chunkIndex = false)
    (htallied : Tallied chunkIndex failed state) :
    Tallied chunkIndex (failed + failuresAlong digest chunkStore chunkIndex state during)
      (run (schedulerStep digest chunkStore) state during) := by
  induction during generalizing state failed with
  | nil => exact htallied
  | cons input rest ih =>
    have hlacks : state.localBitfield.has chunkIndex = false := by
      by_contra hmarked
      rw [run_has_mono hwf _ (by simpa using hmarked)] at hmissing
      exact absurd hmissing (by simp)
    have hstep := @perform_tallied σ digest chunkStore input.1 state chunkIndex failed input.2 hwf
      hbudgeted hlacks huninterrupted.1 htallied
    rw [failuresAlong, ← Nat.add_assoc]
    exact ih (schedulerStep_wellFormed hwf input).1 (perform_budgeted hwf hbudgeted input.2)
      huninterrupted.2 hmissing hstep

/-- More failures than the budget allows end in a fetch from the origin. -/
theorem fetched_of_failuresAlong {during : List SchedulerInput} (hwf : WellFormed state)
    (hbudgeted : Budgeted state)
    (huninterrupted : Along (schedulerStep digest chunkStore) (Uninterrupted chunkIndex) state
      during)
    (hfailures : P2P_REQUEST_RETRIES + 1 ≤
      failuresAlong digest chunkStore chunkIndex state during) :
    chunkIndex ∈ (run (schedulerStep digest chunkStore) state during).originInFlight ∨
      (run (schedulerStep digest chunkStore) state during).localBitfield.has chunkIndex = true := by
  by_contra hneither
  rw [not_or, Bool.not_eq_true] at hneither
  have hstart : Tallied chunkIndex 0 state := Or.inr ⟨fun _ _ ↦ Nat.zero_le _, fun _ ↦ rfl⟩
  obtain ⟨hrequested, hfree⟩ := (failuresAlong_tallied hwf hbudgeted huninterrupted hneither.2
    hstart).resolve_left hneither.1
  have hend : Budgeted (run (schedulerStep digest chunkStore) state during) :=
    (run_budgeted hwf hbudgeted during).2
  cases hrequest : (run (schedulerStep digest chunkStore) state during).inFlight.get?
      chunkIndex with
  | none =>
    have hnone := hfree hrequest
    omega
  | some request =>
    have hcount := hrequested request hrequest
    have hbudget := (hend chunkIndex request hrequest).2
    omega

end Runs

/-- **The retry recursion is bounded.** Within one call: for a resource id that fits into a frame,
scheduling a chunk that nothing is being done about ends after at most as many sends as retries are
left, with the chunk either requested or being fetched (`Rescheduled`); for a longer id it throws
before it changes anything, or fetches the chunk at once. Over a run: every request is within the
budget, and a chunk that fails once more than the budget allows, with no answer, no fetch and no
stop in between, is being fetched from the origin or has been stored. -/
theorem retryRecursion_bounded (digest : Bytes → Bytes) (chunkStore : IChunkStore σ)
    (manifest : ResourceManifest) (localBitfield : Bitfield) (heap : List Bitfield) (store : σ) :
    (∀ (env : Env) (state : SchedulerState σ) (chunkIndex retries : ℕ),
      Unacquired state chunkIndex →
      (FitsHeader state.resourceId →
        Rescheduled env chunkIndex retries state (scheduleChunk env chunkIndex retries state) ∧
        ∀ peerId, retries ≤ P2P_REQUEST_RETRIES → Rescheduled env chunkIndex retries state
          (dispatchP2PRequest env chunkIndex peerId retries state)) ∧
      (¬ FitsHeader state.resourceId →
        (∃ error, scheduleChunk env chunkIndex retries state = (state, some error)) ∨
          Rescheduled env chunkIndex retries state
            (scheduleChunk env chunkIndex retries state))) ∧
    (∀ inputs chunkIndex request,
      (schedulerRun digest chunkStore manifest localBitfield heap store
        inputs).inFlight.get? chunkIndex = some request →
      request.retries ≤ P2P_REQUEST_RETRIES) ∧
    ∀ before during chunkIndex,
      Along (schedulerStep digest chunkStore) (Uninterrupted chunkIndex)
        (schedulerRun digest chunkStore manifest localBitfield heap store before) during →
      P2P_REQUEST_RETRIES + 1 ≤ failuresAlong digest chunkStore chunkIndex
        (schedulerRun digest chunkStore manifest localBitfield heap store before) during →
      chunkIndex ∈ (schedulerRun digest chunkStore manifest localBitfield heap store
          (before ++ during)).originInFlight ∨
        (schedulerRun digest chunkStore manifest localBitfield heap store
          (before ++ during)).localBitfield.has chunkIndex = true := by
  refine ⟨fun env state chunkIndex retries hfree ↦ ⟨fun hfits ↦ ⟨?_, fun peerId hretries ↦ ?_⟩,
    fun hlong ↦ scheduleChunk_of_long hlong hfree⟩, fun inputs chunkIndex request hrequest ↦ ?_,
    fun before during chunkIndex huninterrupted hfailures ↦ ?_⟩
  · exact (scheduleChunk_dispatched retries hfits hfree).rescheduled hfree
  · exact (dispatchP2PRequest_dispatched peerId hretries hfits hfree).rescheduled hfree
  · exact ((schedulerRun_budgeted digest chunkStore manifest localBitfield heap store inputs).2
      chunkIndex request hrequest).2
  · obtain ⟨hwf, hbudgeted⟩ :=
      schedulerRun_budgeted digest chunkStore manifest localBitfield heap store before
    have hfetched := fetched_of_failuresAlong hwf hbudgeted huninterrupted hfailures
    rw [schedulerRun, run_append]
    exact hfetched

/-! ### A peer that never answers -/

/-- The only peer has the chunk and is asked for it. -/
def askingRun : List SchedulerInput :=
  [(calmEnv, .updatePeerBitfield "peer" 0), (calmEnv, .start)]

/-- Two timeouts, and then the peer leaves. -/
def unansweredRun : List SchedulerInput :=
  [(calmEnv, .timeout 0), (calmEnv, .timeout 1), (calmEnv, .removePeer "peer")]

/-- After these three failures the chunk is being fetched. -/
theorem retryRecursion_bounded_unansweredRun :
    0 ∈ (schedulerRun id MemoryChunkStore oneChunkManifest (Bitfield.new 1) [oneChunkBitfield]
        OrderedMap.empty (askingRun ++ unansweredRun)).originInFlight ∨
      (schedulerRun id MemoryChunkStore oneChunkManifest (Bitfield.new 1) [oneChunkBitfield]
        OrderedMap.empty (askingRun ++ unansweredRun)).localBitfield.has 0 = true := by
  refine (retryRecursion_bounded id MemoryChunkStore oneChunkManifest (Bitfield.new 1)
    [oneChunkBitfield] OrderedMap.empty).2.2 askingRun unansweredRun 0
    ⟨⟨?_, id, by simp⟩, ⟨?_, id, by simp⟩, ⟨?_, id, by simp⟩, trivial⟩ ?_
  all_goals decide +kernel

/-! ### A long id -/

/-- A manifest whose id is one byte longer than the header can hold. -/
def longIdManifest : ResourceManifest :=
  { oneChunkManifest with resourceId := String.ofList (List.replicate 256 'a') }

/-- A peer has the chunk of this resource. -/
def longIdState : SchedulerState MemoryStorage :=
  schedulerRun id MemoryChunkStore longIdManifest (Bitfield.new 1) [oneChunkBitfield]
    OrderedMap.empty [(calmEnv, .updatePeerBitfield "peer" 0)]

/-- Scheduling the chunk throws and leaves it neither requested nor being fetched. -/
theorem longIdState_unscheduled : Unacquired longIdState 0 ∧
    (scheduleChunk calmEnv 0 0 longIdState).1.inFlight.get? 0 = none ∧
    0 ∉ (scheduleChunk calmEnv 0 0 longIdState).1.originInFlight := by
  have hlong : ¬ FitsHeader (String.ofList (List.replicate 256 'a')) := by
    rw [FitsHeader, textEncode, String.toList_ofList, List.length_flatMap, List.map_replicate,
      List.sum_replicate_nat]
    decide
  have hfree : Unacquired longIdState 0 := ⟨by decide, rfl, by decide⟩
  have hpeers : longIdState.byLoad (longIdState.eligiblePeers 0) ≠ [] := by decide
  obtain ⟨error, hthrows⟩ := @scheduleChunk_throws _ calmEnv longIdState 0 0 hlong hfree.missing
    (Nat.zero_le _) hpeers
  rw [hthrows]
  exact ⟨hfree, hfree.notRequested, hfree.notFetched⟩

end CampusMesh.Web
