import CampusMesh.Web.RequestBooks
import CampusMesh.Web.RetryBudget
import Mathlib.Data.Set.Function

/-!
# Timers and blocks belong to requests

A request has a timer and, once a first piece of its chunk has come, blocks. `BooksMatch` says that
there are no others. `Ends` says by which events a request goes, and `perform_requested_iff` that it
goes by no others. Names of timers are not used twice, so the timer of a request that has gone is
retired (`Retired`): it is never armed again, and it never fires.
-/

set_option autoImplicit false
set_option relaxedAutoImplicit false

namespace CampusMesh.Web

open Library Shared SchedulerState Relation

variable {σ : Type}

/-! ### The promise -/

/-- The armed timers are those of the requests, one for each, and all blocks are of requested
chunks. -/
structure BooksMatch (state : SchedulerState σ) : Prop where
  bijOn : Set.BijOn (fun entry : ℕ × InFlightRequest ↦ entry.2.timer)
    {entry | entry ∈ state.inFlight.entries} {timer | state.timers.has timer = true}
  ownChunk : ∀ entry ∈ state.inFlight.entries,
    state.timers.get? entry.2.timer = some entry.1
  requested : ∀ chunkIndex ∈ state.reassembly.keys, chunkIndex ∈ state.inFlight.keys

/-- The event answers the request for a chunk, has it reassigned, or stops the scheduler. -/
def Ends (state : SchedulerState σ) (chunkIndex : ℕ) (request : InFlightRequest) :
    SchedulerEvent → Prop
  | .stop => True
  | .timeout timer => timer = request.timer
  | .removePeer peerId => peerId = request.peerId
  | .handlePiece index beginOffset totalLength data =>
    Fulfills state chunkIndex (.handlePiece index beginOffset totalLength data)
  | _ => False

/-- The books match in a state whose requests have their timers and in which no chunk without a
request has blocks. -/
theorem WellFormed.booksMatch {state : SchedulerState σ} (hwf : WellFormed state)
    (hblocks : ∀ chunkIndex, NoStrayBlocks chunkIndex state) : BooksMatch state := by
  have hown : ∀ entry ∈ state.inFlight.entries,
      state.timers.get? entry.2.timer = some entry.1 := fun entry hentry ↦
    hwf.armed (OrderedMap.mem_entries_iff.mp hentry)
  refine ⟨⟨fun entry hentry ↦ ?_, fun first hfirst second hsecond heq ↦ ?_, fun timer htimer ↦ ?_⟩,
    hown, fun chunkIndex hkey ↦ ?_⟩
  · exact OrderedMap.has_iff_exists.mpr ⟨entry.1, hown entry hentry⟩
  · have hrequest := OrderedMap.mem_entries_iff.mp hfirst
    have hother := OrderedMap.mem_entries_iff.mp hsecond
    have hchunk := hwf.timer_inj hrequest hother heq
    rw [hchunk, hother, Option.some.injEq] at hrequest
    exact Prod.ext hchunk hrequest.symm
  · obtain ⟨chunkIndex, harmed⟩ := OrderedMap.has_iff_exists.mp htimer
    obtain ⟨request, hrequest, heq⟩ := (hwf.timers_iff timer chunkIndex).mp harmed
    exact ⟨(chunkIndex, request), OrderedMap.mem_entries_iff.mpr hrequest, heq⟩
  · by_contra hfree
    exact OrderedMap.get?_eq_none_iff.mp
      (hblocks chunkIndex (OrderedMap.get?_eq_none_iff.mpr hfree)) hkey

/-! ### Retired timers -/

/-- A timer was armed once and is not armed any more. -/
def Retired (timer : ℕ) (state : SchedulerState σ) : Prop :=
  timer < state.nextTimer ∧ state.timers.get? timer = none

section Retired

variable {digest : Bytes → Bytes} {chunkStore : IChunkStore σ} {env : Env} {timer : ℕ}
  {state next : SchedulerState σ}

theorem Retired.delete (hretired : Retired timer state) (other : ℕ)
    (hnextTimer : next.nextTimer = state.nextTimer)
    (htimers : next.timers = state.timers.delete other) : Retired timer next := by
  refine ⟨hnextTimer ▸ hretired.1, ?_⟩
  rw [htimers, OrderedMap.get?_delete, hretired.2, ite_self]

/-- The name of a new timer is new. -/
theorem Retired.move {strict : Prop} {chunkIndex : ℕ} (hretired : Retired timer state)
    (hmove : Move env strict chunkIndex state next) : Retired timer next := by
  cases hmove with
  | announce | offer | fetch => exact hretired
  | request =>
    have hne : timer ≠ state.nextTimer := Nat.ne_of_lt hretired.1
    exact ⟨Nat.lt_succ_of_lt hretired.1,
      (OrderedMap.get?_set_of_ne _ hne _).trans hretired.2⟩

theorem Retired.moves {strict : Prop} {about : Set ℕ} (hretired : Retired timer state)
    (hmoves : Moves env strict about state next) : Retired timer next :=
  hmoves.keeps (Retired timer) (fun _ _ _ _ hmove h ↦ h.move hmove) hretired

theorem Retired.step (hretired : Retired timer state)
    (hstep : Step digest chunkStore env state next) : Retired timer next := by
  cases hstep with
  | move hmove => exact hretired.move hmove
  | halt =>
    refine ⟨hretired.1, ?_⟩
    change (state.inFlight.values.foldl (fun timers request ↦ timers.delete request.timer)
      state.timers).get? timer = none
    rw [OrderedMap.get?_foldl_delete InFlightRequest.timer, hretired.2, ite_self]
  | release chunkIndex request => exact hretired.delete request.timer rfl rfl
  | _ => exact hretired

/-- A retired timer stays retired. -/
theorem Retired.run (hretired : Retired timer state) (hwf : WellFormed state)
    (inputs : List SchedulerInput) :
    Retired timer (run (schedulerStep digest chunkStore) state inputs) :=
  (run_of_step (Retired timer) (fun _ _ _ _ h hstep ↦ h.step hstep) hwf hretired inputs).2

/-- A timer that is not armed does not fire. -/
theorem perform_timeout_unarmed (hunarmed : state.timers.get? timer = none) :
    perform digest chunkStore env (.timeout timer) state = (state, none) := by
  simp only [perform, hunarmed]

end Retired

/-! ### How a request goes -/

section Ends

variable {digest : Bytes → Bytes} {chunkStore : IChunkStore σ} {env : Env}
  {state : SchedulerState σ} {chunkIndex : ℕ} {request : InFlightRequest}

theorem Moves.nextTimer_le {strict : Prop} {about : Set ℕ} {last : SchedulerState σ}
    (hmoves : Moves env strict about state last) : state.nextTimer ≤ last.nextTimer := by
  refine hmoves.keeps (fun reached ↦ state.nextTimer ≤ reached.nextTimer)
    (fun _ _ first second hmove h ↦ ?_) le_rfl
  cases hmove with
  | announce | offer | fetch => exact h
  | request => exact Nat.le_succ_of_le h

/-- The release of a request retires its timer. -/
theorem release_retires (hwf : WellFormed state)
    (hrequest : state.inFlight.get? chunkIndex = some request) :
    Retired request.timer (release chunkIndex request.timer state) :=
  ⟨hwf.issued hrequest, OrderedMap.get?_delete_self _ _⟩

/-- What follows the release of a request keeps its timer retired. -/
theorem reschedule_retires (hwf : WellFormed state)
    (hrequest : state.inFlight.get? chunkIndex = some request) (retries : ℕ) (calls : List Call) :
    Retired request.timer (scheduleChunk env chunkIndex retries
      ((release chunkIndex request.timer state).log calls)).1 := by
  have hreleased : Retired request.timer ((release chunkIndex request.timer state).log calls) :=
    release_retires hwf hrequest
  exact hreleased.moves (reschedule_moves env hwf hrequest retries calls)

theorem handleTimeout_retires (hwf : WellFormed state)
    (hrequest : state.inFlight.get? chunkIndex = some request) :
    Retired request.timer (handleTimeout env chunkIndex request.timer state).1 := by
  have hagain := @reschedule_retires σ env state chunkIndex request hwf hrequest
    (request.retries + 1) [.onRetry chunkIndex request.peerId]
  simp only [handleTimeout, hrequest]
  exact Action.andThen_establishes hagain (hagain.moves (scheduleNext_moves env _))

theorem completePiece_retires (hwf : WellFormed state)
    (hrequest : state.inFlight.get? chunkIndex = some request) (item : ChunkReassembly) :
    Retired request.timer (completePiece env chunkIndex request item state).1 := by
  have hreleased := release_retires hwf hrequest
  unfold completePiece
  simp only
  split
  · exact hreleased
  · next assembled _ =>
    rcases verifyAndStoreChunk_cases chunkIndex assembled (pieceLatency env request)
      (release chunkIndex request.timer state) with ⟨_, _, heq⟩ | ⟨_, _, heq⟩
    all_goals
      simp only [heq]
      exact hreleased

/-- What the loop of `removePeer` does at the turn of a request to the peer. -/
theorem reassign_releases (env : Env) {entry : ℕ × InFlightRequest} {peerId : String}
    (hrange : entry.1 < state.localBitfield.totalChunks) (hpeer : entry.2.peerId = peerId) :
    Moves env False {entry.1} (release entry.1 entry.2.timer state)
      (reassign env peerId entry state).1 := by
  rw [reassign, if_pos hpeer]
  exact scheduleChunk_moves env _ hrange (OrderedMap.get?_delete_self _ _) False.elim

theorem reassign_retired {timer : ℕ} {entry : ℕ × InFlightRequest}
    (hrange : entry.1 < state.localBitfield.totalChunks) (peerId : String)
    (hretired : Retired timer state) : Retired timer (reassign env peerId entry state).1 := by
  by_cases hpeer : entry.2.peerId = peerId
  · have hreleased : Retired timer (release entry.1 entry.2.timer state) :=
      hretired.delete entry.2.timer rfl rfl
    exact hreleased.moves (reassign_releases env hrange hpeer)
  · rwa [reassign, if_neg hpeer]

/-- What the loop keeps until it comes to a request. -/
structure Leaving (timer totalChunks : ℕ) (reached : SchedulerState σ) : Prop where
  fits : FitsHeader reached.resourceId
  issued : timer < reached.nextTimer
  sameTotal : reached.localBitfield.totalChunks = totalChunks

theorem Leaving.reassign {timer totalChunks : ℕ} (hleaving : Leaving timer totalChunks state)
    {entry : ℕ × InFlightRequest} (hrange : entry.1 < totalChunks) (peerId : String) :
    Leaving timer totalChunks (reassign env peerId entry state).1 := by
  obtain ⟨hfits, hissued, rfl⟩ := hleaving
  by_cases hpeer : entry.2.peerId = peerId
  · have hmoves := reassign_releases env hrange hpeer
    exact ⟨(reassign_returns env peerId entry hfits).1, hissued.trans_le hmoves.nextTimer_le,
      congrArg Bitfield.totalChunks hmoves.unmoved.localBitfield⟩
  · rw [Web.reassign, if_neg hpeer]
    exact ⟨hfits, hissued, rfl⟩

/-- The loop of `removePeer` retires the timers of all requests to the peer. -/
theorem removePeer_retires (hwf : WellFormed state) (hfits : FitsHeader state.resourceId)
    (hrequest : state.inFlight.get? chunkIndex = some request) :
    Retired request.timer (removePeer env request.peerId state).1 := by
  have hmem : (chunkIndex, request) ∈ state.inFlight.entries :=
    OrderedMap.mem_entries_iff.mpr hrequest
  have hrange : ∀ entry ∈ state.inFlight.entries, entry.1 < state.localBitfield.totalChunks :=
    fun entry hentry ↦ hwf.inFlight_lt _ _ (OrderedMap.mem_entries_iff.mp hentry)
  have hstart : Leaving request.timer state.localBitfield.totalChunks
      (forget request.peerId state) := ⟨hfits, hwf.issued hrequest, rfl⟩
  have hleaves : ∀ entry ∈ state.inFlight.entries, ∀ reached : SchedulerState σ,
      Leaving request.timer state.localBitfield.totalChunks reached →
      Leaving request.timer state.localBitfield.totalChunks
        (reassign env request.peerId entry reached).1 :=
    fun entry hentry _ hreached ↦ hreached.reassign (hrange entry hentry) request.peerId
  have hkeeps : ∀ entry ∈ state.inFlight.entries, ∀ reached : SchedulerState σ,
      Leaving request.timer state.localBitfield.totalChunks reached ∧
        Retired request.timer reached →
      Leaving request.timer state.localBitfield.totalChunks
          (reassign env request.peerId entry reached).1 ∧
        Retired request.timer (reassign env request.peerId entry reached).1 := by
    rintro entry hentry reached ⟨hreached, hretired⟩
    refine ⟨hleaves entry hentry reached hreached, reassign_retired ?_ request.peerId hretired⟩
    rw [hreached.sameTotal]
    exact hrange entry hentry
  have hturn : ∀ reached : SchedulerState σ,
      Leaving request.timer state.localBitfield.totalChunks reached →
      Leaving request.timer state.localBitfield.totalChunks
          (reassign env request.peerId (chunkIndex, request) reached).1 ∧
        Retired request.timer (reassign env request.peerId (chunkIndex, request) reached).1 := by
    intro reached hreached
    have hreleased : Retired request.timer (release chunkIndex request.timer reached) :=
      ⟨hreached.issued, OrderedMap.get?_delete_self _ _⟩
    refine ⟨hleaves _ hmem reached hreached,
      hreleased.moves (reassign_releases env ?_ (rfl : (chunkIndex, request).2.peerId = _))⟩
    rw [hreached.sameTotal]
    exact hrange _ hmem
  have hloop := Action.forEach_establishes (fun entry hentry reached hreached ↦
      ⟨hleaves entry hentry reached hreached, (reassign_returns env _ entry hreached.fits).2⟩)
    hkeeps hmem hturn hstart
  rw [removePeer_eq]
  exact Action.andThen_establishes hloop.2 (hloop.2.moves (scheduleIfRunning_moves env _))

/-- An event that ends a request retires its timer. -/
theorem perform_retires (hwf : WellFormed state) (hbudgeted : Budgeted state)
    {event : SchedulerEvent} (hrequest : state.inFlight.get? chunkIndex = some request)
    (hends : Ends state chunkIndex request event) :
    Retired request.timer (perform digest chunkStore env event state).1 := by
  cases event with
  | stop => exact ⟨hwf.issued hrequest, hwf.timers_stop _⟩
  | timeout timer =>
    obtain rfl : timer = request.timer := hends
    simp only [perform, hwf.armed hrequest]
    exact handleTimeout_retires hwf hrequest
  | removePeer peerId =>
    obtain rfl : peerId = request.peerId := hends
    exact removePeer_retires hwf (hbudgeted chunkIndex request hrequest).1 hrequest
  | handlePiece index beginOffset totalLength data =>
    obtain ⟨rfl, hcomplete⟩ := hends
    simp only [perform, handlePiece, hrequest]
    rw [if_pos hcomplete]
    exact completePiece_retires hwf hrequest _
  | _ => exact absurd hends id

/-- A request whose timer is retired has gone. -/
theorem Retired.not_requested {next : SchedulerState σ} (hretired : Retired request.timer next)
    (hwf : WellFormed next) : next.inFlight.get? chunkIndex ≠ some request := by
  intro hrequest
  have harmed := hwf.armed hrequest
  rw [hretired.2] at harmed
  exact absurd harmed (by simp)

/-- Besides pieces, the events that may release a request end it. -/
theorem ends_of_mayRelease (hwf : WellFormed state)
    (hrequest : state.inFlight.get? chunkIndex = some request) {event : SchedulerEvent}
    (hother : ∀ beginOffset totalLength data,
      event ≠ .handlePiece chunkIndex beginOffset totalLength data)
    (hmay : MayRelease state chunkIndex event) : Ends state chunkIndex request event := by
  cases event with
  | stop => trivial
  | timeout timer =>
    obtain ⟨found, hfound, htimer⟩ := (hwf.timers_iff timer chunkIndex).mp hmay
    obtain rfl := Option.some.inj (hrequest.symm.trans hfound)
    exact htimer.symm
  | removePeer peerId =>
    obtain ⟨found, hfound, hpeer⟩ := hmay
    obtain rfl := Option.some.inj (hrequest.symm.trans hfound)
    exact hpeer.symm
  | handlePiece index beginOffset totalLength data =>
    obtain rfl : index = chunkIndex := hmay
    exact absurd rfl (hother beginOffset totalLength data)
  | _ => exact hmay

/-- **A step.** A request goes exactly by the events that end it. -/
theorem perform_requested_iff (hwf : WellFormed state) (hbudgeted : Budgeted state)
    (event : SchedulerEvent) (hrequest : state.inFlight.get? chunkIndex = some request) :
    (perform digest chunkStore env event state).1.inFlight.get? chunkIndex = some request ↔
      ¬ Ends state chunkIndex request event := by
  constructor
  · intro hstays hends
    have hnext : WellFormed (perform digest chunkStore env event state).1 :=
      (schedulerStep_wellFormed hwf (env, event)).1
    exact (perform_retires hwf hbudgeted hrequest hends).not_requested hnext hstays
  · intro hkept
    by_cases hpiece : ∃ beginOffset totalLength data,
        event = .handlePiece chunkIndex beginOffset totalLength data
    · obtain ⟨beginOffset, totalLength, data, rfl⟩ := hpiece
      simp only [perform, handlePiece, hrequest]
      rw [if_neg fun hcomplete ↦ hkept ⟨rfl, hcomplete⟩]
      exact hrequest
    · have hother : ∀ beginOffset totalLength data,
          event ≠ .handlePiece chunkIndex beginOffset totalLength data :=
        fun beginOffset totalLength data heq ↦ hpiece ⟨beginOffset, totalLength, data, heq⟩
      exact ((perform_rebooks hwf hother).requested
        (fun hmay ↦ hkept (ends_of_mayRelease hwf hrequest hother hmay)) hrequest).1

end Ends

/-! ### Runs -/

/-- **Timers and blocks match requests.** In every reachable state the armed timers are in bijection
with the requests, each is armed for the chunk of its request, and all blocks are of requested
chunks. A request goes exactly by the events that end it; from then on its timer never fires again.
A new request starts without blocks. -/
theorem timersAndBlocks_match (digest : Bytes → Bytes) (chunkStore : IChunkStore σ)
    (manifest : ResourceManifest) (localBitfield : Bitfield) (heap : List Bitfield) (store : σ) :
    (∀ inputs, BooksMatch
      (schedulerRun digest chunkStore manifest localBitfield heap store inputs)) ∧
    (∀ before input chunkIndex request,
      (schedulerRun digest chunkStore manifest localBitfield heap store
        before).inFlight.get? chunkIndex = some request →
      ((schedulerRun digest chunkStore manifest localBitfield heap store
          (before ++ [input])).inFlight.get? chunkIndex = some request ↔
        ¬ Ends (schedulerRun digest chunkStore manifest localBitfield heap store before)
          chunkIndex request input.2) ∧
      (Ends (schedulerRun digest chunkStore manifest localBitfield heap store before)
          chunkIndex request input.2 →
        ∀ later env, perform digest chunkStore env (.timeout request.timer)
            (schedulerRun digest chunkStore manifest localBitfield heap store
              (before ++ input :: later)) =
          (schedulerRun digest chunkStore manifest localBitfield heap store
            (before ++ input :: later), none))) ∧
    ∀ before input chunkIndex request,
      (schedulerRun digest chunkStore manifest localBitfield heap store
        before).inFlight.get? chunkIndex ≠ some request →
      (schedulerRun digest chunkStore manifest localBitfield heap store
        (before ++ [input])).inFlight.get? chunkIndex = some request →
      (schedulerRun digest chunkStore manifest localBitfield heap store
        (before ++ [input])).reassembly.get? chunkIndex = none := by
  refine ⟨fun inputs ↦ ?_, fun before input chunkIndex request hrequest ↦ ?_,
    fun before input chunkIndex request hbefore hissued ↦
      reassembly_of_issued digest chunkStore manifest localBitfield heap store before input hbefore
        hissued⟩
  · exact (schedulerRun_budgeted digest chunkStore manifest localBitfield heap store
      inputs).1.booksMatch
        (schedulerRun_noStrayBlocks digest chunkStore manifest localBitfield heap store inputs)
  · obtain ⟨hwf, hbudgeted⟩ :=
      schedulerRun_budgeted digest chunkStore manifest localBitfield heap store before
    refine ⟨?_, fun hends later env ↦ perform_timeout_unarmed ?_⟩
    · rw [schedulerRun, run_append]
      exact perform_requested_iff hwf hbudgeted input.2 hrequest
    · have hretired : Retired request.timer (schedulerStep digest chunkStore
          (schedulerRun digest chunkStore manifest localBitfield heap store before) input) :=
        perform_retires hwf hbudgeted hrequest hends
      rw [schedulerRun, run_append]
      exact (hretired.run (schedulerStep_wellFormed hwf input).1 later).2

end CampusMesh.Web
