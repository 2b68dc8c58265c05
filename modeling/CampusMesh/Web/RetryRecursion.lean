import CampusMesh.Web.SchedulerMoves

/-!
# One acquisition of a chunk

`scheduleChunk` and `dispatchP2PRequest` call each other until a data channel takes the frame, no
peer that has the chunk is left, or the retries are used up. For a chunk that nothing is being done
about the recursion ends in one of two ways (`Dispatched`): after some refused offers the chunk is
requested, with the refusals added to its retry count, or it is being fetched from the origin. What
follows for the books is `Rescheduled`.

The one thing that can come in between is the guard of the header encoder: it throws on a resource
id of more than 255 bytes, before anything is sent.
-/

set_option autoImplicit false
set_option relaxedAutoImplicit false

namespace CampusMesh.Web

open Library Shared SchedulerState Relation

variable {σ : Type}

/-! ### What is promised -/

/-- A frame offered to a data channel. -/
def Call.isSend : Call → Bool
  | .sendToPeer _ _ _ => true
  | _ => false

/-- A frame that the data channel does not take. -/
def Call.isRefusal : Call → Bool
  | .sendToPeer _ _ sent => !sent
  | _ => false

/-- A fetch from the origin. -/
def Call.isFetch : Call → Bool
  | .fetchFromOrigin _ => true
  | _ => false

/-- The calls made since an earlier state. -/
def newCalls (before after : SchedulerState σ) : List Call := after.calls.drop before.calls.length

/-- The scheduler does nothing about a chunk that it does not have. -/
structure Unacquired (state : SchedulerState σ) (chunkIndex : ℕ) : Prop where
  missing : state.localBitfield.has chunkIndex = false
  notRequested : state.inFlight.get? chunkIndex = none
  notFetched : chunkIndex ∉ state.originInFlight

/-- What scheduling a chunk leaves after so many failures: it returns after a bounded number of
sends, the chunk is either requested with one new timer or being fetched by one new fetch, and
nothing is changed about any other chunk. -/
structure Rescheduled (env : Env) (chunkIndex retries : ℕ) (before : SchedulerState σ)
    (outcome : SchedulerState σ × Option JsError) : Prop where
  returns : outcome.2 = none
  callsKept : before.calls <+: outcome.1.calls
  sends : (newCalls before outcome.1).countP Call.isSend ≤ P2P_REQUEST_RETRIES + 1 - retries
  exactlyOne : Xor (∃ request, outcome.1.inFlight.get? chunkIndex = some request)
    (chunkIndex ∈ outcome.1.originInFlight)
  requested : ∀ request, outcome.1.inFlight.get? chunkIndex = some request →
    retries ≤ request.retries ∧ request.retries ≤ P2P_REQUEST_RETRIES ∧
      request.timer = before.nextTimer ∧
      outcome.1.timers = before.timers.set before.nextTimer chunkIndex ∧
      outcome.1.nextTimer = before.nextTimer + 1 ∧ outcome.1.tasks = before.tasks ∧
      (newCalls before outcome.1).filter Call.isFetch = []
  fetched : chunkIndex ∈ outcome.1.originInFlight →
    outcome.1.tasks = before.tasks ++ [⟨chunkIndex, false, .fetching env.now⟩] ∧
      (newCalls before outcome.1).filter Call.isFetch = [.fetchFromOrigin chunkIndex] ∧
      outcome.1.timers = before.timers ∧ outcome.1.nextTimer = before.nextTimer
  others : ∀ other ≠ chunkIndex,
    outcome.1.inFlight.get? other = before.inFlight.get? other ∧
      (other ∈ outcome.1.originInFlight ↔ other ∈ before.originInFlight)
  unmoved : Unmoved before outcome.1

/-! ### How the recursion ends -/

/-- Offers of a frame that no data channel took. -/
def refusedOffers (peerIds : List String) (frame : Bytes) : List Call :=
  peerIds.map fun peerId ↦ .sendToPeer peerId frame false

/-- How scheduling a chunk ends. -/
inductive Dispatched (env : Env) (chunkIndex retries : ℕ) (state : SchedulerState σ) :
    SchedulerState σ × Option JsError → Prop
  | requested (refusing : List String) (peerId : String) (frame : Bytes)
      (hframe : encodeRequest state.resourceId chunkIndex = .ok frame)
      (hbudget : retries + refusing.length ≤ P2P_REQUEST_RETRIES) :
      Dispatched env chunkIndex retries state
        (((state.log (refusedOffers refusing frame)).log [.sendToPeer peerId frame true]).arm
          chunkIndex peerId (retries + refusing.length) env.now, none)
  | fetched (refusing : List String) (frame : Bytes)
      (hframe : refusing ≠ [] → encodeRequest state.resourceId chunkIndex = .ok frame)
      (hbudget : refusing.length ≤ P2P_REQUEST_RETRIES + 1 - retries) :
      Dispatched env chunkIndex retries state
        ((state.log (refusedOffers refusing frame)).beginFetch chunkIndex env.now, none)

section Dispatched

variable {env : Env} {state : SchedulerState σ} {chunkIndex retries : ℕ}
  {outcome : SchedulerState σ × Option JsError}

theorem log_log (state : SchedulerState σ) (first second : List Call) :
    (state.log first).log second = state.log (first ++ second) := by
  simp [log]

/-- The origin fallback for a chunk that nothing is being done about. -/
theorem dispatchOriginFallback_dispatched (hfree : Unacquired state chunkIndex) :
    Dispatched env chunkIndex retries state (dispatchOriginFallback env chunkIndex state) := by
  have hidle : ¬ (state.localBitfield.has chunkIndex = true ∨
      chunkIndex ∈ state.originInFlight) := by
    rw [hfree.missing]
    simpa using hfree.notFetched
  have hfetched : Dispatched env chunkIndex retries state
      ((state.log (refusedOffers [] [])).beginFetch chunkIndex env.now, none) :=
    .fetched [] [] (fun hne ↦ absurd rfl hne) (Nat.zero_le _)
  rw [refusedOffers, List.map_nil, log_nil] at hfetched
  rw [dispatchOriginFallback, if_neg hidle]
  exact hfetched

/-- A refusal is one offer more and one retry less. -/
theorem Dispatched.of_refused {peerId : String} {frame : Bytes}
    (hframe : encodeRequest state.resourceId chunkIndex = .ok frame)
    (hretries : retries ≤ P2P_REQUEST_RETRIES)
    (hdispatched : Dispatched env chunkIndex (retries + 1)
      (state.log [.sendToPeer peerId frame false]) outcome) :
    Dispatched env chunkIndex retries state outcome := by
  have hoffers : ∀ refusing : List String,
      (state.log [.sendToPeer peerId frame false]).log (refusedOffers refusing frame) =
        state.log (refusedOffers (peerId :: refusing) frame) := fun refusing ↦ log_log state _ _
  cases hdispatched with
  | requested refusing next other hother hbudget =>
    obtain rfl : other = frame := Except.ok.inj (hother.symm.trans hframe)
    rw [hoffers, show retries + 1 + refusing.length = retries + (peerId :: refusing).length by
      rw [List.length_cons]; omega]
    exact .requested (peerId :: refusing) next other hframe (by rw [List.length_cons]; omega)
  | fetched refusing other hother hbudget =>
    have hsame : refusedOffers refusing other = refusedOffers refusing frame := by
      cases refusing with
      | nil => rfl
      | cons first rest =>
        have hok := hother (List.cons_ne_nil first rest)
        rw [Except.ok.inj (hok.symm.trans hframe)]
    rw [hsame, hoffers]
    exact .fetched (peerId :: refusing) frame (fun _ ↦ hframe) (by rw [List.length_cons]; omega)

/-- Offering a request, when the method that follows a refusal is known. -/
theorem dispatchOrRetry_dispatched {retry : Method σ} (peerId : String)
    (hfits : FitsHeader state.resourceId) (hretries : retries ≤ P2P_REQUEST_RETRIES)
    (hretry : ∀ calls, Dispatched env chunkIndex (retries + 1) (state.log calls)
      (retry (state.log calls))) :
    Dispatched env chunkIndex retries state
      (dispatchOrRetry env retry chunkIndex peerId retries state) := by
  have hframe : encodeRequest state.resourceId chunkIndex =
      .ok (headerBytes .REQUEST state.resourceId ++ uint32Bytes chunkIndex) :=
    encodeChunkIndex_eq hfits .REQUEST chunkIndex
  unfold dispatchOrRetry
  rw [hframe]
  simp only
  cases hsent : env.sends state.calls.length with
  | false =>
    rw [if_pos rfl]
    exact .of_refused hframe hretries (hretry _)
  | true =>
    rw [if_neg (by simp)]
    have hrequested : Dispatched env chunkIndex retries state
        (((state.log (refusedOffers [] (headerBytes .REQUEST state.resourceId ++
          uint32Bytes chunkIndex))).log [.sendToPeer peerId _ true]).arm chunkIndex peerId
            (retries + ([] : List String).length) env.now, none) :=
      .requested [] peerId _ hframe hretries
    rw [refusedOffers, List.map_nil, log_nil] at hrequested
    exact hrequested

/-- The recursion ends within the attempts that are left; the induction is on these. -/
theorem scheduleWithin_dispatched {attempts : ℕ} (hattempts : attempts ≤ P2P_REQUEST_RETRIES + 1)
    (hfits : FitsHeader state.resourceId) (hfree : Unacquired state chunkIndex) :
    Dispatched env chunkIndex (P2P_REQUEST_RETRIES + 1 - attempts) state
      (scheduleWithin env chunkIndex attempts state) := by
  induction attempts generalizing state with
  | zero =>
    unfold scheduleWithin
    rw [if_neg (by simp [hfree.missing])]
    exact dispatchOriginFallback_dispatched hfree
  | succ attempts ih =>
    unfold scheduleWithin
    rw [if_neg (by simp [hfree.missing])]
    split
    · next peerId _ _ =>
      have hnext : P2P_REQUEST_RETRIES + 1 - attempts = P2P_REQUEST_RETRIES - attempts + 1 := by
        omega
      rw [Nat.add_sub_add_right]
      refine dispatchOrRetry_dispatched peerId hfits (Nat.sub_le _ _) fun calls ↦ ?_
      rw [← hnext]
      exact ih (by omega) hfits ⟨hfree.1, hfree.2, hfree.3⟩
    · exact dispatchOriginFallback_dispatched hfree

theorem scheduleChunk_dispatched (retries : ℕ) (hfits : FitsHeader state.resourceId)
    (hfree : Unacquired state chunkIndex) :
    Dispatched env chunkIndex retries state (scheduleChunk env chunkIndex retries state) := by
  by_cases hretries : retries ≤ P2P_REQUEST_RETRIES
  · have hleft : P2P_REQUEST_RETRIES + 1 - (P2P_REQUEST_RETRIES + 1 - retries) = retries :=
      Nat.sub_sub_self (by omega)
    have hdispatched : Dispatched env chunkIndex
        (P2P_REQUEST_RETRIES + 1 - (P2P_REQUEST_RETRIES + 1 - retries)) state
        (scheduleChunk env chunkIndex retries state) :=
      scheduleWithin_dispatched (Nat.sub_le _ _) hfits hfree
    rwa [hleft] at hdispatched
  · have hmissing : ¬ state.localBitfield.has chunkIndex = true := by simp [hfree.missing]
    rw [scheduleChunk_eq, if_neg hmissing, if_neg hretries]
    exact dispatchOriginFallback_dispatched hfree

theorem dispatchP2PRequest_dispatched (peerId : String) (hretries : retries ≤ P2P_REQUEST_RETRIES)
    (hfits : FitsHeader state.resourceId) (hfree : Unacquired state chunkIndex) :
    Dispatched env chunkIndex retries state
      (dispatchP2PRequest env chunkIndex peerId retries state) :=
  dispatchOrRetry_dispatched peerId hfits hretries fun _ ↦
    scheduleChunk_dispatched (retries + 1) hfits ⟨hfree.1, hfree.2, hfree.3⟩

end Dispatched

/-! ### What is left -/

section Rescheduled

variable {env : Env} {state : SchedulerState σ} {chunkIndex retries : ℕ}
  {outcome : SchedulerState σ × Option JsError}

theorem newCalls_of_append {before after : SchedulerState σ} {calls : List Call}
    (happend : after.calls = before.calls ++ calls) : newCalls before after = calls := by
  rw [newCalls, happend, List.drop_left]

/-- Refused offers are sends, all refused. -/
theorem countP_refusedOffers {property : Call → Bool} (refusing : List String) (frame : Bytes)
    (hproperty : ∀ peerId, property (.sendToPeer peerId frame false) = true) :
    (refusedOffers refusing frame).countP property = refusing.length := by
  rw [refusedOffers, List.countP_map]
  exact List.countP_eq_length.mpr fun peerId _ ↦ hproperty peerId

theorem filter_isFetch_refusedOffers (refusing : List String) (frame : Bytes) :
    (refusedOffers refusing frame).filter Call.isFetch = [] := by
  refine List.filter_eq_nil_iff.mpr fun call hcall ↦ ?_
  obtain ⟨peerId, _, rfl⟩ := List.mem_map.mp hcall
  simp [Call.isFetch]

theorem rescheduled_of_requested (hfree : Unacquired state chunkIndex) (refusing : List String)
    (peerId : String) (frame : Bytes) (hbudget : retries + refusing.length ≤ P2P_REQUEST_RETRIES) :
    Rescheduled env chunkIndex retries state
      (((state.log (refusedOffers refusing frame)).log [.sendToPeer peerId frame true]).arm
        chunkIndex peerId (retries + refusing.length) env.now, none) := by
  have hcalls : newCalls state
      (((state.log (refusedOffers refusing frame)).log [.sendToPeer peerId frame true]).arm
        chunkIndex peerId (retries + refusing.length) env.now) =
      refusedOffers refusing frame ++ [.sendToPeer peerId frame true] :=
    newCalls_of_append (List.append_assoc _ _ _)
  refine {
    returns := rfl
    callsKept := (List.prefix_append _ _).trans (List.prefix_append _ _)
    sends := ?_
    exactlyOne := Or.inl ⟨⟨_, OrderedMap.get?_set_self _ _ _⟩, hfree.notFetched⟩
    requested := fun request hrequest ↦ ?_
    fetched := fun hfetched ↦ absurd hfetched hfree.notFetched
    others := fun other hother ↦ ⟨OrderedMap.get?_set_of_ne _ hother _, Iff.rfl⟩
    unmoved := ⟨rfl, rfl, rfl, rfl, rfl, rfl, rfl, rfl⟩ }
  · rw [hcalls, List.countP_append, countP_refusedOffers refusing frame fun _ ↦ rfl]
    simp only [List.countP_cons, Call.isSend, if_true, List.countP_nil]
    omega
  · obtain rfl := Option.some.inj ((OrderedMap.get?_set_self _ _ _).symm.trans hrequest)
    refine ⟨Nat.le_add_right _ _, hbudget, rfl, rfl, rfl, rfl, ?_⟩
    rw [hcalls, List.filter_append, filter_isFetch_refusedOffers]
    rfl

theorem rescheduled_of_fetched (hfree : Unacquired state chunkIndex) (refusing : List String)
    (frame : Bytes) (hbudget : refusing.length ≤ P2P_REQUEST_RETRIES + 1 - retries) :
    Rescheduled env chunkIndex retries state
      ((state.log (refusedOffers refusing frame)).beginFetch chunkIndex env.now, none) := by
  have hcalls : newCalls state
      ((state.log (refusedOffers refusing frame)).beginFetch chunkIndex env.now) =
      refusedOffers refusing frame ++
        [.onOriginFallback chunkIndex, .fetchFromOrigin chunkIndex] :=
    newCalls_of_append (List.append_assoc _ _ _)
  have hunrequested : ∀ request, state.inFlight.get? chunkIndex ≠ some request := fun request ↦ by
    rw [hfree.notRequested]
    exact (Option.some_ne_none request).symm
  refine {
    returns := rfl
    callsKept := (List.prefix_append _ _).trans (List.prefix_append _ _)
    sends := ?_
    exactlyOne := Or.inr ⟨Finset.mem_insert_self _ _, fun ⟨request, hrequest⟩ ↦
      hunrequested request hrequest⟩
    requested := fun request hrequest ↦ absurd hrequest (hunrequested request)
    fetched := fun _ ↦ ⟨rfl, ?_, rfl, rfl⟩
    others := fun other hother ↦ ⟨rfl, ?_⟩
    unmoved := ⟨rfl, rfl, rfl, rfl, rfl, rfl, rfl, rfl⟩ }
  · rw [hcalls, List.countP_append, countP_refusedOffers refusing frame fun _ ↦ rfl]
    simpa [Call.isSend] using hbudget
  · rw [hcalls, List.filter_append, filter_isFetch_refusedOffers]
    rfl
  · exact Finset.mem_insert.trans (or_iff_right hother)

/-- The books after the recursion. -/
theorem Dispatched.rescheduled (hfree : Unacquired state chunkIndex)
    (hdispatched : Dispatched env chunkIndex retries state outcome) :
    Rescheduled env chunkIndex retries state outcome := by
  cases hdispatched with
  | requested refusing peerId frame _ hbudget =>
    exact rescheduled_of_requested hfree refusing peerId frame hbudget
  | fetched refusing frame _ hbudget => exact rescheduled_of_fetched hfree refusing frame hbudget

/-- When the id of the resource is too long, asking a peer throws before it changes anything. -/
theorem scheduleChunk_throws (hlong : ¬ FitsHeader state.resourceId)
    (hmissing : state.localBitfield.has chunkIndex = false)
    (hretries : retries ≤ P2P_REQUEST_RETRIES)
    (hpeers : state.byLoad (state.eligiblePeers chunkIndex) ≠ []) :
    ∃ error, scheduleChunk env chunkIndex retries state = (state, some error) := by
  rw [scheduleChunk_eq, if_neg (by simp [hmissing]), if_pos hretries]
  split
  · rw [dispatchP2PRequest, dispatchOrRetry, encodeRequest, encodeChunkIndex_error hlong]
    exact ⟨_, rfl⟩
  · next hnone => exact absurd hnone hpeers

/-- When the id of the resource is too long, the recursion throws before it changes anything, or
falls back to the origin at once. -/
theorem scheduleChunk_of_long (hlong : ¬ FitsHeader state.resourceId)
    (hfree : Unacquired state chunkIndex) :
    (∃ error, scheduleChunk env chunkIndex retries state = (state, some error)) ∨
      Rescheduled env chunkIndex retries state (scheduleChunk env chunkIndex retries state) := by
  by_cases hpeers : retries ≤ P2P_REQUEST_RETRIES ∧
      state.byLoad (state.eligiblePeers chunkIndex) ≠ []
  · exact Or.inl (scheduleChunk_throws hlong hfree.missing hpeers.1 hpeers.2)
  · have hfallback : scheduleChunk env chunkIndex retries state =
        dispatchOriginFallback env chunkIndex state := by
      rw [scheduleChunk_eq, if_neg (by simp [hfree.missing])]
      split_ifs with hretries
      · rw [not_not.mp fun hne ↦ hpeers ⟨hretries, hne⟩]
      · rfl
    rw [hfallback]
    exact Or.inr ((dispatchOriginFallback_dispatched hfree).rescheduled hfree)

end Rescheduled

end CampusMesh.Web
