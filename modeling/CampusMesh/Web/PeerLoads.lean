import CampusMesh.Library.LeastFirst
import CampusMesh.Web.SchedulerCapacity

/-!
# How much is requested from one peer

`scheduleNext` requests a chunk only from a peer with fewer than two requests in flight. A request
that is retried goes to the least loaded peer that has its chunk, whatever the load of this peer is.
So a peer gets a third request when a request is retried while all unchoked peers that have its
chunk are at their limit. The bound holds in all states of exactly the other runs
(`withinPeerLoads_iff`).

`removePeer` retries all requests of the peer in one call. Each of them finds the loads as its
predecessors left them.
-/

set_option autoImplicit false
set_option relaxedAutoImplicit false

namespace CampusMesh.Web

open Library Shared SchedulerState

variable {σ : Type}

/-! ### The promise -/

/-- No peer has more than two requests in flight. -/
def LoadsBounded (state : SchedulerState σ) : Prop :=
  ∀ peerId, state.countInFlightForPeer peerId ≤ maxInFlightPerPeer

/-- The peer has. -/
def Exceeds (peerId : String) (state : SchedulerState σ) : Prop :=
  maxInFlightPerPeer < state.countInFlightForPeer peerId

/-- In every state of the run no peer has more than two requests in flight. -/
def WithinPeerLoads (digest : Bytes → Bytes) (chunkStore : IChunkStore σ)
    (manifest : ResourceManifest) (localBitfield : Bitfield) (heap : List Bitfield) (store : σ)
    (inputs : List SchedulerInput) : Prop :=
  ∀ before later, inputs = before ++ later →
    LoadsBounded (schedulerRun digest chunkStore manifest localBitfield heap store before)

/-- With so many attempts left, scheduling the chunk requests it from a peer that is at its limit:
peers have the chunk and all of them are, and one of the frames is sent. -/
def OverloadsWithin (env : Env) (chunkIndex attempts : ℕ) (state : SchedulerState σ) : Prop :=
  state.localBitfield.has chunkIndex = false ∧ FitsHeader state.resourceId ∧
    0 < rarity state chunkIndex ∧ Saturated state chunkIndex ∧
      ∃ attempt < attempts, env.sends (state.calls.length + attempt) = true

/-- `scheduleChunk` requests the chunk from a peer that is at its limit. -/
def Overloads (env : Env) (chunkIndex retries : ℕ) (state : SchedulerState σ) : Prop :=
  OverloadsWithin env chunkIndex (P2P_REQUEST_RETRIES + 1 - retries) state

/-- The requests of a peer find room when they are retried one after the other. -/
def ReassignFindsRoom (env : Env) (peerId : String) (state : SchedulerState σ)
    (entries : List (ℕ × InFlightRequest)) : Prop :=
  Along (fun reached entry ↦ (reassign env peerId entry reached).1)
    (fun reached entry ↦ entry.2.peerId = peerId →
      ¬ Overloads env entry.1 (entry.2.retries + 1) (release entry.1 entry.2.timer reached))
    state entries

/-- Requests that the event retries find room. -/
def RetryFindsRoom (state : SchedulerState σ) (input : SchedulerInput) : Prop :=
  match input.2 with
  | .timeout timer => ∀ chunkIndex request, state.timers.get? timer = some chunkIndex →
      state.inFlight.get? chunkIndex = some request →
        ¬ Overloads input.1 chunkIndex (request.retries + 1)
          ((release chunkIndex timer state).log [.onRetry chunkIndex request.peerId])
  | .removePeer peerId =>
    ReassignFindsRoom input.1 peerId (forget peerId state) state.inFlight.entries
  | _ => True

/-! ### The least loaded peer -/

section Selection

variable {env : Env} {state : SchedulerState σ} {chunkIndex : ℕ} {peerId : String}
  {peers rest : List String}

/-- The peer in front is the first one with the least load. -/
theorem isFirstLeast_of_byLoad (hselected : state.byLoad peers = peerId :: rest) :
    IsFirstLeast state.countInFlightForPeer peers peerId := by
  refine head?_insertionSort_iff.mp ?_
  rw [← SchedulerState.byLoad, hselected, List.head?_cons]

/-- It is at its limit exactly when all are. -/
theorem saturated_iff_of_byLoad
    (hselected : state.byLoad (state.eligiblePeers chunkIndex) = peerId :: rest) :
    Saturated state chunkIndex ↔ maxInFlightPerPeer ≤ state.countInFlightForPeer peerId := by
  have hfirst := isFirstLeast_of_byLoad hselected
  exact ⟨fun hsaturated ↦ hsaturated peerId hfirst.mem,
    fun hload other hmem ↦ hload.trans (hfirst.le hmem)⟩

theorem LoadsBounded.congr (hbounded : LoadsBounded state) {next : SchedulerState σ}
    (hinFlight : next.inFlight = state.inFlight) : LoadsBounded next := by
  intro other
  unfold countInFlightForPeer
  rw [hinFlight]
  exact hbounded other

theorem Exceeds.not_loadsBounded (hexceeds : Exceeds peerId state) : ¬ LoadsBounded state :=
  fun hbounded ↦ absurd (hbounded peerId) (not_le.mpr hexceeds)

theorem Exceeds.of_le {next : SchedulerState σ} (hexceeds : Exceeds peerId state)
    (hload : state.countInFlightForPeer peerId ≤ next.countInFlightForPeer peerId) :
    Exceeds peerId next := lt_of_lt_of_le hexceeds hload

/-- A release lowers the loads. -/
theorem countInFlightForPeer_release_le (chunkIndex timer : ℕ) (state : SchedulerState σ)
    (peerId : String) : (release chunkIndex timer state).countInFlightForPeer peerId ≤
      state.countInFlightForPeer peerId :=
  (state.inFlight.sublist_values_delete chunkIndex).countP_le

theorem LoadsBounded.release (hbounded : LoadsBounded state) (chunkIndex timer : ℕ) :
    LoadsBounded (release chunkIndex timer state) :=
  fun other ↦ (countInFlightForPeer_release_le chunkIndex timer state other).trans (hbounded other)

/-- A peer below its limit has room for a request. -/
theorem LoadsBounded.arm (hbounded : LoadsBounded state)
    (hfree : state.inFlight.get? chunkIndex = none)
    (hroom : state.countInFlightForPeer peerId < maxInFlightPerPeer) (retries now : ℕ) :
    LoadsBounded (state.arm chunkIndex peerId retries now) := by
  intro other
  rw [countInFlightForPeer_arm hfree]
  split_ifs with hsame
  · rw [← hsame]
    exact hroom
  · exact hbounded other

end Selection

/-! ### Scheduling one chunk -/

section Schedule

variable {env : Env} {state : SchedulerState σ} {chunkIndex : ℕ}

theorem length_calls_log (state : SchedulerState σ) (call : Call) :
    (state.log [call]).calls.length = state.calls.length + 1 :=
  List.length_append

/-- What a frame that was not sent leaves of the attempts. -/
theorem OverloadsWithin.of_log {attempts : ℕ} {call : Call}
    (hlater : OverloadsWithin env chunkIndex attempts (state.log [call])) :
    OverloadsWithin env chunkIndex (attempts + 1) state := by
  obtain ⟨hmissing, hfits, hrarity, hsaturated, attempt, hattempt, hsent⟩ := hlater
  refine ⟨hmissing, hfits, hrarity, hsaturated, attempt + 1, Nat.succ_lt_succ hattempt, ?_⟩
  rw [length_calls_log, Nat.add_assoc, Nat.add_comm 1] at hsent
  exact hsent

theorem dispatchOriginFallback_inFlight (env : Env) (chunkIndex : ℕ) (state : SchedulerState σ) :
    (dispatchOriginFallback env chunkIndex state).1.inFlight = state.inFlight := by
  unfold dispatchOriginFallback
  split_ifs <;> rfl

/-- Scheduling a chunk keeps the bound unless it requests it from a peer at its limit. -/
theorem scheduleWithin_loadsBounded {attempts : ℕ} (hbounded : LoadsBounded state)
    (hfree : state.inFlight.get? chunkIndex = none)
    (hroom : ¬ OverloadsWithin env chunkIndex attempts state) :
    LoadsBounded (scheduleWithin env chunkIndex attempts state).1 := by
  induction attempts generalizing state with
  | zero =>
    unfold scheduleWithin
    split_ifs
    · exact hbounded
    · exact hbounded.congr (dispatchOriginFallback_inFlight env chunkIndex state)
  | succ attempts ih =>
    unfold scheduleWithin
    split_ifs with hhas
    · exact hbounded
    split
    · next peerId rest hselected =>
      unfold dispatchOrRetry
      split
      · exact hbounded
      · next wireMsg hframe =>
        simp only
        split_ifs with hsent
        · exact ih (hbounded.congr rfl) hfree fun hlater ↦ hroom hlater.of_log
        · refine @LoadsBounded.arm σ (state.log _) chunkIndex peerId
            (hbounded.congr rfl) hfree ?_ _ _
          by_contra hload
          refine hroom ⟨by simpa using hhas, ?_, ?_, ?_, 0, Nat.succ_pos _, by simpa using hsent⟩
          · by_contra hlong
            exact absurd hframe (by rw [encodeRequest, encodeChunkIndex_error hlong]; simp)
          · exact List.length_pos_of_mem (isFirstLeast_of_byLoad hselected).mem
          · exact (saturated_iff_of_byLoad hselected).mpr (not_lt.mp hload)
    · exact hbounded.congr (dispatchOriginFallback_inFlight env chunkIndex state)

/-- A request from a peer at its limit exceeds it. -/
theorem scheduleWithin_overloads {attempts : ℕ} (hfree : state.inFlight.get? chunkIndex = none)
    (hfull : OverloadsWithin env chunkIndex attempts state) :
    ∃ peerId ∈ state.eligiblePeers chunkIndex,
      Exceeds peerId (scheduleWithin env chunkIndex attempts state).1 := by
  induction attempts generalizing state with
  | zero =>
    obtain ⟨_, _, _, _, attempt, hattempt, _⟩ := hfull
    exact absurd hattempt (Nat.not_lt_zero attempt)
  | succ attempts ih =>
    obtain ⟨hmissing, hfits, hrarity, hsaturated, attempt, hattempt, hsent⟩ := hfull
    unfold scheduleWithin
    rw [if_neg (by simp [hmissing])]
    split
    · next peerId rest hselected =>
      unfold dispatchOrRetry encodeRequest
      rw [encodeChunkIndex_eq hfits]
      simp only
      split_ifs with hrefused
      · cases attempt with
        | zero =>
          rw [Nat.add_zero, hrefused] at hsent
          exact absurd hsent (by simp)
        | succ attempt =>
          have hlater : ∀ call, OverloadsWithin env chunkIndex attempts (state.log [call]) := by
            intro call
            refine ⟨hmissing, hfits, hrarity, hsaturated, attempt, Nat.lt_of_succ_lt_succ hattempt,
              ?_⟩
            rw [length_calls_log, Nat.add_assoc, Nat.add_comm 1]
            exact hsent
          exact @ih (state.log _) hfree (hlater _)
      · refine ⟨peerId, (isFirstLeast_of_byLoad hselected).mem, ?_⟩
        rw [Exceeds, @countInFlightForPeer_arm σ (state.log _) chunkIndex hfree, if_pos rfl]
        exact Nat.lt_succ_of_le ((saturated_iff_of_byLoad hselected).mp hsaturated)
    · next hnone =>
      rw [byLoad_eq_nil_iff] at hnone
      rw [rarity, hnone] at hrarity
      exact absurd hrarity (lt_irrefl 0)

end Schedule

/-! ### The scheduling loop -/

section Loop

variable {env : Env} {state : SchedulerState σ}

/-- A turn of the loop keeps the bound: the selected peer has room, and so has the least loaded one
when the frame is not sent. -/
theorem assign_loadsBounded {entry : RarityEntry} (hbounded : LoadsBounded state)
    (hfree : Free state entry.chunkIndex)
    (hpeers : entry.peers = state.eligiblePeers entry.chunkIndex) :
    LoadsBounded (assign env entry state).1 := by
  unfold assign
  split_ifs
  · unfold assignToPeer
    split_ifs
    · exact hbounded
    simp only
    split
    · next peerId rest hselected =>
      have hmem := (isFirstLeast_of_byLoad hselected).mem
      rw [List.mem_filter, decide_eq_true_eq, hpeers] at hmem
      unfold dispatchP2PRequest dispatchOrRetry
      split
      · exact hbounded
      · simp only
        split_ifs
        · refine @scheduleWithin_loadsBounded σ env (state.log _) entry.chunkIndex _
            (hbounded.congr rfl) hfree.notRequested fun hfull ↦ ?_
          exact absurd hmem.2 (not_lt.mpr (hfull.2.2.2.1 peerId hmem.1))
        · exact @LoadsBounded.arm σ (state.log _) entry.chunkIndex peerId (hbounded.congr rfl)
            hfree.notRequested hmem.2 _ _
    · exact hbounded
  · unfold assignToOrigin
    split_ifs
    · exact hbounded
    · exact hbounded.congr (dispatchOriginFallback_inFlight env _ state)

theorem scheduleNext_loadsBounded (hbounded : LoadsBounded state) :
    LoadsBounded (scheduleNext env state).1 := by
  rcases scheduleNext_cases env state with ⟨-, hidle⟩ | ⟨-, hcomplete⟩ |
    ⟨hrunning, hincomplete, hroom⟩
  · rw [hidle]
    exact hbounded
  · rw [hcomplete]
    exact hbounded.congr rfl
  rw [scheduleNext_eq_agenda hrunning hincomplete hroom]
  have hloop : Action.Keeps LoadsBounded state
      (Action.forEach (assign env) (agenda state) state).1 := by
    refine Action.forEach_rel_of_distinct RarityEntry.chunkIndex
      (fun chunk reached ↦ Free reached chunk ∧
        reached.eligiblePeers chunk = state.eligiblePeers chunk)
      (nodup_agenda state) (fun entry hmem reached hready hkept ↦ ?_)
      (fun entry _ other hother reached hready hkept ↦ ?_)
      fun entry hmem ↦ ⟨(entry_of_mem_agenda hmem).1, rfl⟩
    · exact assign_loadsBounded hkept hready.1
        ((entry_of_mem_agenda hmem).2.2.trans hready.2.symm)
    · have hmoves : Moves env True {entry.chunkIndex} reached (assign env entry reached).1 :=
        assign_moves env hready.1
      exact ⟨hmoves.free hother hkept.1, hmoves.unmoved.eligiblePeers.trans hkept.2⟩
  exact hloop hbounded

theorem scheduleIfRunning_loadsBounded (hbounded : LoadsBounded state) :
    LoadsBounded (scheduleIfRunning env state).1 := by
  unfold scheduleIfRunning
  split_ifs
  · exact scheduleNext_loadsBounded hbounded
  · exact hbounded

end Loop

/-! ### Retries -/

section Retries

variable {env : Env} {state : SchedulerState σ}

/-- A timeout keeps the bound exactly when the request that it retries finds room. -/
theorem handleTimeout_loadsBounded_iff {chunkIndex timer : ℕ} (hbounded : LoadsBounded state) :
    LoadsBounded (handleTimeout env chunkIndex timer state).1 ↔
      ∀ request, state.inFlight.get? chunkIndex = some request →
        ¬ Overloads env chunkIndex (request.retries + 1)
          ((release chunkIndex timer state).log [.onRetry chunkIndex request.peerId]) := by
  unfold handleTimeout
  split
  · next hnone => exact iff_of_true (hbounded.congr rfl) (by simp [hnone])
  · next request hrequest =>
    simp only [hrequest, Option.some.injEq, forall_eq']
    set released := (release chunkIndex timer state).log [.onRetry chunkIndex request.peerId]
    have hfree : released.inFlight.get? chunkIndex = none := OrderedMap.get?_delete_self _ _
    constructor
    · intro hafter hfull
      obtain ⟨peerId, -, hexceeds⟩ := scheduleWithin_overloads hfree hfull
      have hlater := hexceeds.of_le ((scheduleNext_moves env _).grows.load peerId)
      exact (Action.andThen_establishes hexceeds hlater).not_loadsBounded hafter
    · intro hroom
      have hreached :
          LoadsBounded (scheduleChunk env chunkIndex (request.retries + 1) released).1 :=
        scheduleWithin_loadsBounded ((hbounded.release chunkIndex timer).congr rfl) hfree hroom
      exact Action.andThen_establishes hreached (scheduleNext_loadsBounded hreached)

/-- The loop of `removePeer` has come to these requests. -/
structure Departing (peerId : String) (entries : List (ℕ × InFlightRequest))
    (state : SchedulerState σ) : Prop where
  wellFormed : WellFormed state
  unknown : ∀ chunkIndex, peerId ∉ state.eligiblePeers chunkIndex
  distinct : entries.Nodup
  requests : ∀ entry ∈ entries, state.inFlight.get? entry.1 = some entry.2

variable {peerId : String} {entry : ℕ × InFlightRequest} {rest : List (ℕ × InFlightRequest)}

theorem departing_forget (hwf : WellFormed state) (peerId : String) :
    Departing peerId state.inFlight.entries (forget peerId state) where
  wellFormed := hwf.forget peerId
  unknown chunkIndex hmem := by
    obtain ⟨entry, hentry, rfl⟩ := List.mem_map.mp hmem
    have hknown : (state.peerBitfields.delete entry.1).get? entry.1 = some entry.2 :=
      OrderedMap.mem_entries_iff.mp (List.mem_filter.mp hentry).1
    rw [OrderedMap.get?_delete_self] at hknown
    exact absurd hknown (by simp)
  distinct := state.inFlight.nodup_keys.of_map _
  requests _ hentry := OrderedMap.mem_entries_iff.mp hentry

theorem Departing.next (hdeparting : Departing peerId (entry :: rest) state) :
    Departing peerId rest (reassign env peerId entry state).1 := by
  have hentry := hdeparting.requests entry List.mem_cons_self
  have hkept : ∀ other ∈ rest, WellFormed (reassign env peerId entry state).1 ∧
      (reassign env peerId entry state).1.inFlight.get? other.1 = some other.2 := by
    intro other hmem
    refine reassign_keeps env hdeparting.wellFormed peerId hentry (fun hsame ↦ ?_)
      (hdeparting.requests other (List.mem_cons_of_mem entry hmem))
    exact (List.nodup_cons.mp hdeparting.distinct).1 (hsame ▸ hmem)
  by_cases hpeer : entry.2.peerId = peerId
  · have hmoves := reassign_moves env hdeparting.wellFormed hentry hpeer
    refine ⟨(hdeparting.wellFormed.release hentry).moves hmoves, fun chunkIndex ↦ ?_,
      (List.nodup_cons.mp hdeparting.distinct).2, fun other hmem ↦ (hkept other hmem).2⟩
    rw [hmoves.unmoved.eligiblePeers]
    exact hdeparting.unknown chunkIndex
  · rw [reassign, if_neg hpeer]
    exact ⟨hdeparting.wellFormed, hdeparting.unknown, (List.nodup_cons.mp hdeparting.distinct).2,
      fun other hmem ↦ hdeparting.requests other (List.mem_cons_of_mem entry hmem)⟩

/-- The release of a request to one peer leaves the loads of the others. -/
theorem countInFlightForPeer_release_of_ne {chunkIndex timer : ℕ} {request : InFlightRequest}
    (hrequest : state.inFlight.get? chunkIndex = some request) {other : String}
    (hother : request.peerId ≠ other) :
    (release chunkIndex timer state).countInFlightForPeer other =
      state.countInFlightForPeer other := by
  unfold countInFlightForPeer OrderedMap.values
  change List.countP _ ((state.inFlight.entries.filter fun entry ↦ entry.1 ≠ chunkIndex).map _) = _
  rw [List.countP_map, List.countP_map, List.countP_filter]
  refine List.countP_congr fun entry hentry ↦ ?_
  have hget := OrderedMap.mem_entries_iff.mp (show (entry.1, entry.2) ∈ _ from hentry)
  simp only [Function.comp_apply, Bool.and_eq_true, decide_eq_true_eq]
  refine and_iff_left_of_imp fun hpeer hsame ↦ hother ?_
  rw [hsame, hrequest, Option.some.injEq] at hget
  rw [hget]
  exact hpeer

/-- So the loop lowers the load of no other peer. -/
theorem Departing.load_le (hdeparting : Departing peerId (entry :: rest) state) {other : String}
    (hother : other ≠ peerId) : state.countInFlightForPeer other ≤
      (reassign env peerId entry state).1.countInFlightForPeer other := by
  have hentry := hdeparting.requests entry List.mem_cons_self
  by_cases hpeer : entry.2.peerId = peerId
  · have hload := (reassign_moves env hdeparting.wellFormed hentry hpeer).grows.load other
    rwa [countInFlightForPeer_release_of_ne hentry (hpeer ▸ hother.symm)] at hload
  · rw [reassign, if_neg hpeer]

theorem Departing.exceeds {entries : List (ℕ × InFlightRequest)}
    (hdeparting : Departing peerId entries state) {other : String} (hother : other ≠ peerId)
    (hexceeds : Exceeds other state) :
    Exceeds other (Action.forEach (reassign env peerId) entries state).1 := by
  induction entries generalizing state with
  | nil => exact hexceeds
  | cons entry rest ih =>
    have hnext : Exceeds other (reassign env peerId entry state).1 :=
      hexceeds.of_le (hdeparting.load_le hother)
    exact Action.andThen_establishes hnext (ih hdeparting.next hnext)

/-- Reassigning a request keeps the bound when the request finds room. -/
theorem reassign_loadsBounded (hbounded : LoadsBounded state)
    (hroom : entry.2.peerId = peerId →
      ¬ Overloads env entry.1 (entry.2.retries + 1) (release entry.1 entry.2.timer state)) :
    LoadsBounded (reassign env peerId entry state).1 := by
  unfold reassign
  split_ifs with hpeer
  · exact scheduleWithin_loadsBounded (hbounded.release _ _) (OrderedMap.get?_delete_self _ _)
      (hroom hpeer)
  · exact hbounded

theorem scheduleWithin_manifest (env : Env) (chunkIndex attempts : ℕ) (state : SchedulerState σ) :
    (scheduleWithin env chunkIndex attempts state).1.manifest = state.manifest := by
  have hfallback : ∀ reached : SchedulerState σ,
      (dispatchOriginFallback env chunkIndex reached).1.manifest = reached.manifest := by
    intro reached
    unfold dispatchOriginFallback
    split_ifs <;> rfl
  induction attempts generalizing state with
  | zero =>
    unfold scheduleWithin
    split_ifs
    · rfl
    · exact hfallback state
  | succ attempts ih =>
    unfold scheduleWithin
    split_ifs
    · rfl
    split
    · unfold dispatchOrRetry
      split
      · rfl
      · simp only
        split_ifs
        · exact ih _
        · rfl
    · exact hfallback state

theorem reassign_manifest (env : Env) (peerId : String) (entry : ℕ × InFlightRequest)
    (state : SchedulerState σ) : (reassign env peerId entry state).1.manifest = state.manifest := by
  unfold reassign
  split_ifs
  · exact scheduleWithin_manifest _ _ _ _
  · rfl

/-- No request is sent when the resource id does not fit into a frame. -/
theorem reassignFindsRoom_of_long (hlong : ¬ FitsHeader state.resourceId)
    (entries : List (ℕ × InFlightRequest)) : ReassignFindsRoom env peerId state entries := by
  refine along_of_invariant (fun reached : SchedulerState σ ↦ ¬ FitsHeader reached.resourceId)
    (fun reached entry hreached _ ↦ ?_)
    (fun reached entry hreached _ _ hfull ↦ hreached hfull.2.1) hlong
    (along_of_forall (fun _ _ ↦ trivial) state)
  unfold SchedulerState.resourceId
  rw [reassign_manifest]
  exact hreached

/-- The loop of `removePeer` keeps the bound exactly when all requests find room. -/
theorem forEach_reassign_loadsBounded_iff {entries : List (ℕ × InFlightRequest)}
    (hdeparting : Departing peerId entries state) (hbounded : LoadsBounded state) :
    LoadsBounded (Action.forEach (reassign env peerId) entries state).1 ↔
      ReassignFindsRoom env peerId state entries := by
  induction entries generalizing state with
  | nil => exact iff_of_true hbounded trivial
  | cons entry rest ih =>
    rw [ReassignFindsRoom, along_cons, Action.forEach]
    by_cases hroom : entry.2.peerId = peerId →
        ¬ Overloads env entry.1 (entry.2.retries + 1) (release entry.1 entry.2.timer state)
    · have hnext : LoadsBounded (reassign env peerId entry state).1 :=
        reassign_loadsBounded hbounded hroom
      rw [iff_true_intro hroom, true_and]
      cases hresult : (reassign env peerId entry state).2 with
      | none =>
        rw [Action.andThen_of_returns hresult]
        exact ih hdeparting.next hnext
      | some error =>
        have hlong : ¬ FitsHeader (reassign env peerId entry state).1.resourceId := by
          intro hfits
          unfold SchedulerState.resourceId at hfits
          rw [reassign_manifest] at hfits
          rw [(reassign_returns env peerId entry hfits).2] at hresult
          exact absurd hresult (by simp)
        rw [Action.andThen_of_throws hresult]
        exact iff_of_true hnext (reassignFindsRoom_of_long hlong rest)
    · rw [iff_false_intro hroom, false_and, iff_false]
      rw [Classical.not_imp, not_not] at hroom
      obtain ⟨other, hmem, hexceeds⟩ :=
        scheduleWithin_overloads (OrderedMap.get?_delete_self _ _) hroom.2
      have hother : other ≠ peerId := by
        rintro rfl
        exact hdeparting.unknown _ hmem
      have hnext : Exceeds other (reassign env peerId entry state).1 := by
        rw [reassign, if_pos hroom.1]
        exact hexceeds
      exact (Action.andThen_establishes hnext
        (hdeparting.next.exceeds hother hnext)).not_loadsBounded

/-- Removing a peer keeps the bound exactly when all of its requests find room. -/
theorem removePeer_loadsBounded_iff (hwf : WellFormed state) (hbounded : LoadsBounded state) :
    LoadsBounded (removePeer env peerId state).1 ↔
      ReassignFindsRoom env peerId (forget peerId state) state.inFlight.entries := by
  have hforgotten : LoadsBounded (forget peerId state) := hbounded.congr rfl
  rw [← forEach_reassign_loadsBounded_iff (departing_forget hwf peerId) hforgotten, removePeer_eq]
  constructor
  · intro hafter
    by_contra hreached
    unfold LoadsBounded at hreached
    rw [not_forall] at hreached
    obtain ⟨other, hload⟩ := hreached
    have hexceeds : Exceeds other _ := not_le.mp hload
    have hlater := hexceeds.of_le ((scheduleIfRunning_moves env _).grows.load other)
    exact (Action.andThen_establishes hexceeds hlater).not_loadsBounded hafter
  · exact fun hreached ↦
      Action.andThen_establishes hreached (scheduleIfRunning_loadsBounded hreached)

end Retries

/-! ### Steps -/

section Steps

variable {digest : Bytes → Bytes} {chunkStore : IChunkStore σ} {env : Env}
  {state : SchedulerState σ}

theorem verifyAndStoreChunk_inFlight (chunkIndex : ℕ) (data : Bytes) (latencyMs : ℕ)
    (state : SchedulerState σ) :
    (verifyAndStoreChunk chunkIndex data latencyMs state).1.inFlight = state.inFlight := by
  unfold verifyAndStoreChunk
  split <;> rfl

theorem handlePiece_loadsBounded {chunkIndex beginOffset totalLength : ℕ} {data : Bytes}
    (hbounded : LoadsBounded state) :
    LoadsBounded (handlePiece env chunkIndex beginOffset totalLength data state).1 := by
  unfold handlePiece
  split
  · exact hbounded
  · simp only
    split_ifs
    · have hreleased := hbounded.release chunkIndex
      unfold completePiece
      simp only
      split
      · exact hreleased _
      · exact (hreleased _).congr (verifyAndStoreChunk_inFlight _ _ _ _)
    · exact hbounded.congr rfl

theorem reject_inFlight (index : ℕ) (task : Task) (error : String) (state : SchedulerState σ) :
    (reject index task error state).inFlight = state.inFlight := by
  unfold reject
  split_ifs <;> rfl

theorem afterVerify_inFlight (digest : Bytes → Bytes) (env : Env) (chunkIndex : ℕ)
    (expected : String) (data : Bytes) (latencyMs : ℕ) (state : SchedulerState σ) :
    (afterVerify digest env chunkIndex expected data latencyMs state).1.inFlight =
      state.inFlight := by
  unfold afterVerify
  simp only
  split_ifs
  · exact dispatchOriginFallback_inFlight env chunkIndex _
  · rfl

theorem afterPut_inFlight (chunkIndex : ℕ) (fromP2P : Bool) (data : Bytes) (latencyMs : ℕ)
    (state : SchedulerState σ) :
    (afterPut chunkIndex fromP2P data latencyMs state).1.inFlight = state.inFlight := by
  unfold afterPut
  split
  · rfl
  · simp only
    split <;> rfl

theorem LoadsBounded.advance (hbounded : LoadsBounded state) (index : ℕ) (task : Task)
    (stage : Stage) : LoadsBounded (advance index task stage state) := hbounded

/-- A task requests nothing before its end. -/
theorem continueTask_loadsBounded (hbounded : LoadsBounded state) (index : ℕ) (task : Task)
    (settlement : Settlement) :
    LoadsBounded (continueTask digest chunkStore env index task settlement state) := by
  have htransition := continueTask_transition digest chunkStore env index task settlement state
  generalize continueTask digest chunkStore env index task settlement state = next
    at htransition ⊢
  cases htransition with
  | ignored => exact hbounded
  | fetched => exact (hbounded.congr (verifyAndStoreChunk_inFlight _ _ _ _)).advance _ _ _
  | fetchFailed => exact hbounded.advance _ _ _
  | verified => exact (hbounded.congr (afterVerify_inFlight _ _ _ _ _ _ _)).advance _ _ _
  | verifyFailed | putFailed => exact hbounded.congr (reject_inFlight _ _ _ _)
  | written | caught => exact (hbounded.congr rfl).advance _ _ _
  | putDone data latencyMs =>
    have hput : LoadsBounded (afterPut task.chunkIndex task.fromP2P data latencyMs state).1 :=
      hbounded.congr (afterPut_inFlight _ _ _ _ _)
    unfold afterStore
    split
    · exact hput.advance _ _ _
    · exact hput.congr (reject_inFlight _ _ _ _)
  | finished =>
    unfold finish
    simp only
    split_ifs
    · exact scheduleIfRunning_loadsBounded (hbounded.congr rfl)
    · exact scheduleIfRunning_loadsBounded (hbounded.congr rfl)

/-- **A step.** It keeps the bound exactly when the requests that it retries find room. -/
theorem perform_loadsBounded_iff (hwf : WellFormed state) (hbounded : LoadsBounded state)
    (event : SchedulerEvent) :
    LoadsBounded (perform digest chunkStore env event state).1 ↔
      RetryFindsRoom state (env, event) := by
  cases event with
  | removePeer peerId => exact removePeer_loadsBounded_iff hwf hbounded
  | timeout timer =>
    cases htimer : state.timers.get? timer with
    | none =>
      refine iff_of_true ?_ fun chunkIndex request harmed ↦ ?_
      · simpa only [perform, htimer] using hbounded
      · rw [htimer] at harmed
        exact absurd harmed (by simp)
    | some chunkIndex =>
      simp only [perform, RetryFindsRoom, htimer, Option.some.injEq]
      refine (handleTimeout_loadsBounded_iff hbounded).trans ⟨?_, fun h request ↦ h _ request rfl⟩
      rintro h _ request rfl
      exact h request
  | start =>
    refine iff_of_true ?_ trivial
    simp only [perform, start]
    split_ifs
    · exact hbounded
    · exact scheduleNext_loadsBounded (hbounded.congr rfl)
  | stop => exact iff_of_true (fun _ ↦ Nat.zero_le _) trivial
  | updatePeerBitfield peerId address =>
    exact iff_of_true (scheduleIfRunning_loadsBounded (hbounded.congr rfl)) trivial
  | updatePeerHave peerId chunkIndex =>
    have hlocated : LoadsBounded (peerBitfield peerId state).1 := by
      unfold peerBitfield
      split <;> exact hbounded.congr rfl
    refine iff_of_true ?_ trivial
    simp only [perform, updatePeerHave]
    split
    · exact hlocated
    · exact scheduleIfRunning_loadsBounded (hlocated.congr rfl)
  | setPeerChoked peerId choked =>
    refine iff_of_true ?_ trivial
    simp only [perform, setPeerChoked]
    split_ifs
    · exact hbounded.congr rfl
    · exact scheduleIfRunning_loadsBounded (hbounded.congr rfl)
  | scheduleNext => exact iff_of_true (scheduleNext_loadsBounded hbounded) trivial
  | handlePiece chunkIndex beginOffset totalLength data =>
    exact iff_of_true (handlePiece_loadsBounded hbounded) trivial
  | settled index settlement =>
    refine iff_of_true ?_ trivial
    simp only [perform]
    split
    · exact continueTask_loadsBounded hbounded index _ settlement
    · exact hbounded
  | shared heap => exact iff_of_true (hbounded.congr rfl) trivial

end Steps

/-! ### Runs -/

/-- **When no peer has more than two requests in flight.** In exactly those runs in which every
request that a timeout or the removal of its peer retries finds room: as long as a frame is sent for
it at all, one of the unchoked peers that have its chunk has fewer than two requests. -/
theorem withinPeerLoads_iff (digest : Bytes → Bytes) (chunkStore : IChunkStore σ)
    (manifest : ResourceManifest) (localBitfield : Bitfield) (heap : List Bitfield) (store : σ)
    (inputs : List SchedulerInput) :
    WithinPeerLoads digest chunkStore manifest localBitfield heap store inputs ↔
      Along (schedulerStep digest chunkStore) RetryFindsRoom
        (SchedulerState.new manifest localBitfield heap store) inputs :=
  forall_prefix_iff_along WellFormed
    (fun _ input hwf ↦ (schedulerStep_wellFormed hwf input).1)
    (fun _ input hwf hbounded ↦ perform_loadsBounded_iff hwf hbounded input.2)
    (wellFormed_new manifest localBitfield heap store) (fun _ ↦ Nat.zero_le _) inputs

/-! ### Two peers -/

/-- Two peers have all chunks, and one of them leaves. -/
def departureRun : List SchedulerInput :=
  [.updatePeerBitfield "first" 0, .updatePeerBitfield "second" 0, .start, .removePeer "first"].map
    fun event ↦ (calmEnv, event)

/-- The other one has four requests then. -/
theorem departureRun_exceeds : ¬ WithinPeerLoads id MemoryChunkStore eightChunkManifest
    (Bitfield.new 8) [⟨8, [0xFF], rfl⟩] OrderedMap.empty departureRun := by
  intro hwithin
  exact absurd (hwithin departureRun [] rfl "second") (by decide +kernel)

end CampusMesh.Web
