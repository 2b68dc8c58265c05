import CampusMesh.Library.Potential
import CampusMesh.Web.RetryBudget

/-!
# The work that is left

How much a download has still to do, as one number: for every chunk what its request or its lack of
one may still lead to, and for every pending continuation the turns it has left. The turns of a
continuation that may end without its chunk count the chunk's way from the start again.

The scheduling loop never adds to this number (`remainingWork_moves`), and neither does a retry that
takes the place of a request (`remainingWork_retry`): a retry has one attempt fewer.
-/

set_option autoImplicit false
set_option relaxedAutoImplicit false

namespace CampusMesh.Web

open Library Shared SchedulerState Relation

variable {σ : Type}

/-! ### Weights -/

/-- What a request may lead to: its retries, and a fetch from the origin. -/
def requestWork (retries : ℕ) : ℕ := 6 + (P2P_REQUEST_RETRIES + 1 - retries)

/-- What a missing chunk may lead to about which nothing is done. -/
def freeWork : ℕ := 10

/-- What is left to do about a chunk, beside the tasks that are about it. -/
def chunkWork (state : SchedulerState σ) (chunkIndex : ℕ) : ℕ :=
  match state.inFlight.get? chunkIndex with
  | some request => requestWork request.retries
  | none =>
    if state.localBitfield.has chunkIndex = false ∧ chunkIndex ∉ state.originInFlight then freeWork
    else 0

/-- What the end of a task may lead to: the mark of an origin fetch goes, and the chunk may still be
missing. -/
def reopenedWork (localBitfield : Bitfield) (task : Task) : ℕ :=
  if task.fromP2P = false ∧ localBitfield.has task.chunkIndex = false then freeWork else 0

/-- What is left to do about a task. Bytes that will not pass the check may lead to a fetch. -/
def taskWork (digest : Bytes → Bytes) (localBitfield : Bitfield) (task : Task) : ℕ :=
  match task.stage with
  | .fetching _ => 5
  | .verifying expected data _ =>
    if (verify digest data expected).valid then 4 else 7 + reopenedWork localBitfield task
  | .putting _ _ false => 3
  | .putting _ _ true => 2
  | .rejected _ => 2 + reopenedWork localBitfield task
  | .returned => 1 + reopenedWork localBitfield task

/-- What is left to do about all tasks. -/
def tasksWork (digest : Bytes → Bytes) (localBitfield : Bitfield) (tasks : List Task) : ℕ :=
  (tasks.map (taskWork digest localBitfield)).sum

/-- What is left to do. -/
def remainingWork (digest : Bytes → Bytes) (state : SchedulerState σ) : ℕ :=
  ∑ chunkIndex ∈ Finset.range state.localBitfield.totalChunks, chunkWork state chunkIndex +
    tasksWork digest state.localBitfield state.tasks

theorem requestWork_lt_freeWork (retries : ℕ) : requestWork retries < freeWork := by
  simp only [requestWork, freeWork, P2P_REQUEST_RETRIES]
  omega

theorem six_le_requestWork (retries : ℕ) : 6 ≤ requestWork retries := Nat.le_add_right 6 _

theorem reopenedWork_le (localBitfield : Bitfield) (task : Task) :
    reopenedWork localBitfield task ≤ freeWork := by
  unfold reopenedWork
  split_ifs
  · exact le_rfl
  · exact Nat.zero_le _

section Weights

variable (digest : Bytes → Bytes) {state next : SchedulerState σ} {chunkIndex : ℕ}

theorem chunkWork_of_requested {request : InFlightRequest}
    (hrequest : state.inFlight.get? chunkIndex = some request) :
    chunkWork state chunkIndex = requestWork request.retries := by
  rw [chunkWork, hrequest]

theorem chunkWork_of_unrequested (hfree : state.inFlight.get? chunkIndex = none) :
    chunkWork state chunkIndex =
      if state.localBitfield.has chunkIndex = false ∧ chunkIndex ∉ state.originInFlight
      then freeWork else 0 := by
  rw [chunkWork, hfree]

theorem chunkWork_of_free (hfree : Unacquired state chunkIndex) :
    chunkWork state chunkIndex = freeWork := by
  rw [chunkWork_of_unrequested hfree.notRequested, if_pos ⟨hfree.missing, hfree.notFetched⟩]

/-- The work about a chunk depends on its request and its two marks. -/
theorem chunkWork_congr
    (hrequest : next.inFlight.get? chunkIndex = state.inFlight.get? chunkIndex)
    (hhas : next.localBitfield.has chunkIndex = state.localBitfield.has chunkIndex)
    (hfetched : chunkIndex ∈ next.originInFlight ↔ chunkIndex ∈ state.originInFlight) :
    chunkWork next chunkIndex = chunkWork state chunkIndex := by
  simp only [chunkWork, hrequest, hhas, hfetched]

/-- Changes that leave the books alone. -/
theorem remainingWork_congr (hbitfield : next.localBitfield = state.localBitfield)
    (hinFlight : next.inFlight = state.inFlight)
    (horigin : next.originInFlight = state.originInFlight) (htasks : next.tasks = state.tasks) :
    remainingWork digest next = remainingWork digest state := by
  simp only [remainingWork, chunkWork, hbitfield, hinFlight, horigin, htasks]

/-- A change about one chunk only. -/
theorem remainingWork_touched (next : SchedulerState σ)
    (hrange : chunkIndex < state.localBitfield.totalChunks)
    (hbitfield : next.localBitfield = state.localBitfield)
    (hinFlight : ∀ other ≠ chunkIndex,
      next.inFlight.get? other = state.inFlight.get? other)
    (horigin : ∀ other ≠ chunkIndex, other ∈ next.originInFlight ↔ other ∈ state.originInFlight) :
    remainingWork digest next + chunkWork state chunkIndex +
        tasksWork digest state.localBitfield state.tasks =
      remainingWork digest state + chunkWork next chunkIndex +
        tasksWork digest state.localBitfield next.tasks := by
  have hsum : ∑ other ∈ Finset.range state.localBitfield.totalChunks, chunkWork next other +
      chunkWork state chunkIndex =
        ∑ other ∈ Finset.range state.localBitfield.totalChunks, chunkWork state other +
          chunkWork next chunkIndex := sum_range_of_touched hrange fun other hother ↦
    chunkWork_congr (hinFlight other hother) (by rw [hbitfield]) (horigin other hother)
  simp only [remainingWork, hbitfield]
  omega

end Weights

/-! ### The books -/

section Books

variable (digest : Bytes → Bytes) {env : Env} {state : SchedulerState σ} {chunkIndex : ℕ}

@[simp] theorem remainingWork_log (calls : List Call) :
    remainingWork digest (state.log calls) = remainingWork digest state :=
  remainingWork_congr digest rfl rfl rfl rfl

theorem tasksWork_append (localBitfield : Bitfield) (first second : List Task) :
    tasksWork digest localBitfield (first ++ second) =
      tasksWork digest localBitfield first + tasksWork digest localBitfield second := by
  simp [tasksWork]

theorem remainingWork_arm (hrange : chunkIndex < state.localBitfield.totalChunks) (peerId : String)
    (retries now : ℕ) :
    remainingWork digest (state.arm chunkIndex peerId retries now) + chunkWork state chunkIndex =
      remainingWork digest state + requestWork retries := by
  have htouched := remainingWork_touched digest (state.arm chunkIndex peerId retries now) hrange rfl
    (fun other hother ↦ OrderedMap.get?_set_of_ne _ hother _) (fun _ _ ↦ Iff.rfl)
  have hrequested : (state.arm chunkIndex peerId retries now).inFlight.get? chunkIndex =
      some ⟨chunkIndex, peerId, retries, state.nextTimer, now⟩ := OrderedMap.get?_set_self _ _ _
  have htasks : (state.arm chunkIndex peerId retries now).tasks = state.tasks := rfl
  have hwork : chunkWork (state.arm chunkIndex peerId retries now) chunkIndex =
      requestWork retries := chunkWork_of_requested hrequested
  rw [hwork, htasks] at htouched
  omega

/-- A fetch that begins about a free chunk. -/
theorem remainingWork_beginFetch (hrange : chunkIndex < state.localBitfield.totalChunks)
    (now : ℕ) :
    remainingWork digest (state.beginFetch chunkIndex now) + chunkWork state chunkIndex =
      remainingWork digest state + chunkWork (state.beginFetch chunkIndex now) chunkIndex + 5 := by
  have htouched := remainingWork_touched digest (state.beginFetch chunkIndex now) hrange rfl
    (fun _ _ ↦ rfl)
    (fun other hother ↦ Finset.mem_insert.trans (or_iff_right hother))
  have htasks : (state.beginFetch chunkIndex now).tasks =
      state.tasks ++ [⟨chunkIndex, false, .fetching now⟩] := rfl
  have hfetch : tasksWork digest state.localBitfield [⟨chunkIndex, false, .fetching now⟩] = 5 := rfl
  rw [htasks, tasksWork_append, hfetch] at htouched
  omega

/-- A fetch leaves nothing to do about an unrequested chunk but its task. -/
theorem chunkWork_beginFetch (hfree : state.inFlight.get? chunkIndex = none) (now : ℕ) :
    chunkWork (state.beginFetch chunkIndex now) chunkIndex = 0 := by
  have hunrequested : (state.beginFetch chunkIndex now).inFlight.get? chunkIndex = none := hfree
  rw [chunkWork_of_unrequested hunrequested]
  exact if_neg fun h ↦ h.2 (Finset.mem_insert_self _ _)

theorem chunkWork_beginFetch_le (now : ℕ) :
    chunkWork (state.beginFetch chunkIndex now) chunkIndex ≤ chunkWork state chunkIndex := by
  cases hrequest : state.inFlight.get? chunkIndex with
  | none =>
    rw [chunkWork_beginFetch hrequest]
    exact Nat.zero_le _
  | some request =>
    have hsame : (state.beginFetch chunkIndex now).inFlight.get? chunkIndex = some request :=
      hrequest
    rw [chunkWork_of_requested hrequest, chunkWork_of_requested hsame]

theorem remainingWork_release {request : InFlightRequest}
    (hrequest : state.inFlight.get? chunkIndex = some request)
    (hrange : chunkIndex < state.localBitfield.totalChunks) (timer : ℕ) :
    remainingWork digest (release chunkIndex timer state) + requestWork request.retries =
      remainingWork digest state + chunkWork (release chunkIndex timer state) chunkIndex := by
  have htouched := remainingWork_touched digest (release chunkIndex timer state) hrange rfl
    (fun other hother ↦ OrderedMap.get?_delete_of_ne _ hother) (fun _ _ ↦ Iff.rfl)
  have htasks : (release chunkIndex timer state).tasks = state.tasks := rfl
  rw [chunkWork_of_requested hrequest, htasks] at htouched
  omega

/-- After its release a chunk has at most its way from the start before it. -/
theorem chunkWork_release_le (timer : ℕ) :
    chunkWork (release chunkIndex timer state) chunkIndex ≤ freeWork := by
  have hreleased : (release chunkIndex timer state).inFlight.get? chunkIndex = none :=
    OrderedMap.get?_delete_self _ _
  rw [chunkWork_of_unrequested hreleased]
  split_ifs
  · exact le_rfl
  · exact Nat.zero_le _

end Books

/-! ### Scheduling -/

section Scheduling

variable (digest : Bytes → Bytes) {env : Env} {state next : SchedulerState σ} {chunkIndex : ℕ}

/-- A strict move never adds work: it is about a free chunk. -/
theorem remainingWork_move (hmove : Move env True chunkIndex state next) :
    remainingWork digest next ≤ remainingWork digest state := by
  cases hmove with
  | announce | offer => rw [remainingWork_log]
  | request peerId retries hrange hmissing hfree hstrict =>
    have harm := remainingWork_arm digest hrange peerId retries env.now
    have hless := requestWork_lt_freeWork retries
    rw [chunkWork_of_free ⟨hmissing, hfree, hstrict trivial⟩] at harm
    omega
  | fetch hrange hmissing hfree hidle =>
    have hfetch := remainingWork_beginFetch digest hrange env.now
    rw [chunkWork_of_free ⟨hmissing, hfree, hidle⟩, chunkWork_beginFetch hfree, freeWork] at hfetch
    omega

theorem remainingWork_moves {about : Set ℕ} (hmoves : Moves env True about state next) :
    remainingWork digest next ≤ remainingWork digest state := by
  refine hmoves.keeps (fun reached ↦ remainingWork digest reached ≤ remainingWork digest state)
    (fun _ _ first second hmove h ↦ ?_) le_rfl
  exact (remainingWork_move digest hmove).trans h

/-- The scheduling loop never adds work. -/
theorem remainingWork_thenLoop_le (own : SchedulerState σ × Bool) :
    remainingWork digest (thenLoop env own) ≤ remainingWork digest own.1 := by
  unfold thenLoop
  split_ifs
  · exact remainingWork_moves digest (scheduleNext_moves env own.1)
  · exact le_rfl

/-- The origin fallback for a chunk that is not requested. -/
theorem remainingWork_dispatchOriginFallback (hrange : chunkIndex < state.localBitfield.totalChunks)
    (hfree : state.inFlight.get? chunkIndex = none) :
    remainingWork digest (dispatchOriginFallback env chunkIndex state).1 +
        chunkWork state chunkIndex ≤ remainingWork digest state + 5 := by
  unfold dispatchOriginFallback
  split_ifs with hidle
  · have hnothing : chunkWork state chunkIndex = 0 := by
      rw [chunkWork_of_unrequested hfree]
      refine if_neg fun h ↦ ?_
      rcases hidle with hhas | hmem
      · rw [h.1] at hhas
        exact absurd hhas (by simp)
      · exact h.2 hmem
    rw [hnothing]
    exact Nat.le_add_right _ 5
  · have hfetch := remainingWork_beginFetch digest hrange env.now
    rw [chunkWork_beginFetch hfree] at hfetch
    simp only
    omega

/-- The origin fallback for any chunk. -/
theorem remainingWork_dispatchOriginFallback_le
    (hrange : chunkIndex < state.localBitfield.totalChunks) :
    remainingWork digest (dispatchOriginFallback env chunkIndex state).1 ≤
      remainingWork digest state + 5 := by
  unfold dispatchOriginFallback
  split_ifs
  · exact Nat.le_add_right _ 5
  · have hfetch := remainingWork_beginFetch digest hrange env.now
    have hless : chunkWork (state.beginFetch chunkIndex env.now) chunkIndex ≤
        chunkWork state chunkIndex := chunkWork_beginFetch_le env.now
    simp only
    omega

/-- Offering a request, when what follows a refusal is known. -/
theorem remainingWork_dispatchOrRetry {retry : Method σ} (peerId : String) {attempts : ℕ}
    (hattempts : attempts ≤ P2P_REQUEST_RETRIES) (hfits : FitsHeader state.resourceId)
    (hrange : chunkIndex < state.localBitfield.totalChunks)
    (hretry : ∀ calls, remainingWork digest (retry (state.log calls)).1 +
        chunkWork (state.log calls) chunkIndex ≤
      remainingWork digest (state.log calls) + 6 + attempts) :
    remainingWork digest (dispatchOrRetry env retry chunkIndex peerId
        (P2P_REQUEST_RETRIES - attempts) state).1 + chunkWork state chunkIndex ≤
      remainingWork digest state + 6 + (attempts + 1) := by
  unfold dispatchOrRetry encodeRequest
  rw [encodeChunkIndex_eq hfits]
  simp only
  split_ifs
  · have hlater := hretry [.sendToPeer peerId
      (headerBytes .REQUEST state.resourceId ++ uint32Bytes chunkIndex)
      (env.sends state.calls.length)]
    rw [remainingWork_log] at hlater
    exact hlater.trans (Nat.le_succ _)
  · have harm := remainingWork_arm digest (show chunkIndex < (state.log [.sendToPeer peerId
      (headerBytes .REQUEST state.resourceId ++ uint32Bytes chunkIndex)
      (env.sends state.calls.length)]).localBitfield.totalChunks from hrange) peerId
      (P2P_REQUEST_RETRIES - attempts) env.now
    rw [remainingWork_log, requestWork] at harm
    refine harm.le.trans ?_
    omega

/-- Scheduling a chunk that is not requested leaves what the attempts may lead to. -/
theorem remainingWork_scheduleWithin {attempts : ℕ} (hattempts : attempts ≤ P2P_REQUEST_RETRIES + 1)
    (hfits : FitsHeader state.resourceId) (hrange : chunkIndex < state.localBitfield.totalChunks)
    (hfree : state.inFlight.get? chunkIndex = none) :
    remainingWork digest (scheduleWithin env chunkIndex attempts state).1 +
        chunkWork state chunkIndex ≤ remainingWork digest state + 6 + attempts := by
  have hpossessed : state.localBitfield.has chunkIndex = true → chunkWork state chunkIndex = 0 := by
    intro hhas
    rw [chunkWork_of_unrequested hfree]
    exact if_neg fun h ↦ by simp [hhas] at h
  induction attempts generalizing state with
  | zero =>
    unfold scheduleWithin
    split_ifs with hhas
    · rw [hpossessed hhas, Nat.add_zero, Nat.add_assoc]
      exact Nat.le_add_right _ _
    · exact (remainingWork_dispatchOriginFallback digest hrange hfree).trans (by omega)
  | succ attempts ih =>
    unfold scheduleWithin
    split_ifs with hhas
    · rw [hpossessed hhas, Nat.add_zero, Nat.add_assoc]
      exact Nat.le_add_right _ _
    · split
      · next peerId _ _ =>
        exact remainingWork_dispatchOrRetry digest peerId (Nat.le_of_succ_le_succ hattempts) hfits
          hrange fun calls ↦ ih (Nat.le_of_succ_le hattempts) hfits hrange hfree hpossessed
      · exact (remainingWork_dispatchOriginFallback digest hrange hfree).trans (by omega)

/-- A retry has one attempt fewer than the request whose place it takes. -/
theorem remainingWork_retry (hfits : FitsHeader state.resourceId) {request : InFlightRequest}
    (hrequest : state.inFlight.get? chunkIndex = some request)
    (hretries : request.retries ≤ P2P_REQUEST_RETRIES)
    (hrange : chunkIndex < state.localBitfield.totalChunks) (timer : ℕ) (calls : List Call) :
    remainingWork digest (scheduleChunk env chunkIndex (request.retries + 1)
      ((release chunkIndex timer state).log calls)).1 < remainingWork digest state := by
  have hreleased := remainingWork_release digest hrequest hrange timer
  have hscheduled : remainingWork digest (scheduleChunk env chunkIndex (request.retries + 1)
      ((release chunkIndex timer state).log calls)).1 +
        chunkWork ((release chunkIndex timer state).log calls) chunkIndex ≤
      remainingWork digest ((release chunkIndex timer state).log calls) + 6 +
        (P2P_REQUEST_RETRIES + 1 - (request.retries + 1)) :=
    remainingWork_scheduleWithin digest (Nat.sub_le _ _) hfits hrange
      (OrderedMap.get?_delete_self _ _)
  have hsame : chunkWork ((release chunkIndex timer state).log calls) chunkIndex =
      chunkWork (release chunkIndex timer state) chunkIndex := rfl
  rw [remainingWork_log, hsame] at hscheduled
  rw [requestWork] at hreleased
  omega

end Scheduling

end CampusMesh.Web
