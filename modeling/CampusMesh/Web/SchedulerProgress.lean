import CampusMesh.Web.SchedulerIntegrity

/-!
# Never-fail scheduling

While a download is running and incomplete and no continuation is pending, something must be due
that will schedule the missing chunks: an armed request timer or an outstanding origin fetch
(`StillDue`).

The scheduling loop keeps this promise (`scheduleNext_progress`): it leaves an incomplete download
with a request or a fetch. So does every handler that reaches the loop. One that releases a slot and
then throws does not, and three paths do: `handlePiece` when a block does not fit the assembled
buffer, and the end of a peer's piece when verification or storage rejects. `ReleasesSafely`
excludes these steps, and `stillDue_of_releasesSafely` proves the promise for every run without
them.
-/

set_option autoImplicit false
set_option relaxedAutoImplicit false

namespace CampusMesh.Web

open Library Shared SchedulerState

variable {σ : Type}

/-- `fetchFromOrigin` of the task has not settled. -/
def Task.IsFetching (task : Task) : Prop := ∃ fetchStart, task.stage = .fetching fetchStart

/-- Something is requested or being fetched. -/
def Busy (state : SchedulerState σ) : Prop :=
  (∃ chunkIndex request, state.inFlight.get? chunkIndex = some request) ∨
    state.originInFlight.Nonempty

/-- While the download is running and incomplete and no continuation is pending, an armed timer or
an outstanding fetch is due. -/
def StillDue (state : SchedulerState σ) : Prop :=
  state.isRunning = true → state.localBitfield.isComplete = false →
    (∀ task ∈ state.tasks, task.IsFetching) →
      (∃ chunkIndex request, state.inFlight.get? chunkIndex = some request ∧
        state.timers.get? request.timer = some chunkIndex) ∨
      ∃ chunkIndex ∈ state.originInFlight, ∃ task ∈ state.tasks,
        task.chunkIndex = chunkIndex ∧ task.fromP2P = false ∧ task.IsFetching

/-- The same without the details of what is due. -/
def NoStall (state : SchedulerState σ) : Prop :=
  state.isRunning = true → state.localBitfield.isComplete = false →
    (∀ task ∈ state.tasks, task.IsFetching) → Busy state

/-- In a well-formed state what is requested has an armed timer, and what is marked as being fetched
has a fetch. -/
theorem stillDue_of_noStall {state : SchedulerState σ} (hwf : WellFormed state)
    (hstall : NoStall state) : StillDue state := by
  intro hrunning hincomplete hidle
  rcases hstall hrunning hincomplete hidle with ⟨chunkIndex, request, hrequest⟩ | ⟨chunkIndex, hmem⟩
  · exact Or.inl ⟨chunkIndex, request, hrequest, hwf.armed hrequest⟩
  · obtain ⟨task, htask, hchunk, hpath⟩ := hwf.fetched chunkIndex hmem
    exact Or.inr ⟨chunkIndex, hmem, task, htask, hchunk, hpath, hidle task htask⟩

/-- A pending continuation is enough. -/
theorem noStall_of_pending {state : SchedulerState σ} {task : Task} (hmem : task ∈ state.tasks)
    (hpending : ¬ task.IsFetching) : NoStall state :=
  fun _ _ hidle ↦ absurd (hidle task hmem) hpending

/-- Changes that leave the books alone and drop no task. -/
theorem NoStall.of_eq {state next : SchedulerState σ} (hstall : NoStall state)
    (hrunning : next.isRunning = state.isRunning)
    (hbitfield : next.localBitfield = state.localBitfield)
    (hinFlight : next.inFlight = state.inFlight)
    (horigin : next.originInFlight = state.originInFlight) (htasks : next.tasks = state.tasks) :
    NoStall next := by
  unfold NoStall Busy
  rw [hrunning, hbitfield, hinFlight, horigin, htasks]
  exact hstall

/-! ### Scheduling leaves an incomplete download busy -/

/-- The chunk is requested or being fetched. -/
def Acquired (chunkIndex : ℕ) (state : SchedulerState σ) : Prop :=
  (∃ request, state.inFlight.get? chunkIndex = some request) ∨ chunkIndex ∈ state.originInFlight

theorem Acquired.busy {chunkIndex : ℕ} {state : SchedulerState σ}
    (hacquired : Acquired chunkIndex state) : Busy state :=
  hacquired.imp (fun ⟨request, hrequest⟩ ↦ ⟨chunkIndex, request, hrequest⟩) fun hmem ↦
    ⟨chunkIndex, hmem⟩

theorem acquired_arm (state : SchedulerState σ) (chunkIndex : ℕ) (peerId : String)
    (retries now : ℕ) : Acquired chunkIndex (state.arm chunkIndex peerId retries now) :=
  Or.inl ⟨_, OrderedMap.get?_set_self _ _ _⟩

theorem acquired_beginFetch (state : SchedulerState σ) (chunkIndex now : ℕ) :
    Acquired chunkIndex (state.beginFetch chunkIndex now) :=
  Or.inr (Finset.mem_insert_self _ _)

/-- A state at capacity is busy. -/
theorem busy_of_outstanding {state : SchedulerState σ} (hpositive : 0 < state.outstanding) :
    Busy state := by
  by_cases hsize : state.inFlight.size = 0
  · rw [SchedulerState.outstanding, hsize, Nat.zero_add] at hpositive
    exact Or.inr (Finset.card_pos.mp hpositive)
  · rw [OrderedMap.size_eq_zero_iff, not_forall] at hsize
    obtain ⟨chunkIndex, hrequest⟩ := hsize
    exact Or.inl ⟨chunkIndex, Option.ne_none_iff_exists'.mp hrequest⟩

section Scheduling

variable {env : Env}

/-- What a method leaves that is called on a scheduler whose resource id fits the frames: it
returns, the manifest, the bitfield and whether it is running are as before, and what was busy is
busy. -/
structure Returns (state : SchedulerState σ) (outcome : SchedulerState σ × Option JsError) :
    Prop where
  returns : outcome.2 = none
  manifest : outcome.1.manifest = state.manifest
  localBitfield : outcome.1.localBitfield = state.localBitfield
  isRunning : outcome.1.isRunning = state.isRunning
  busy : Busy state → Busy outcome.1

theorem Returns.unchanged (state : SchedulerState σ) : Returns state (state, none) :=
  ⟨rfl, rfl, rfl, rfl, id⟩

theorem returns_dispatchOriginFallback (chunkIndex : ℕ) (state : SchedulerState σ) :
    Returns state (dispatchOriginFallback env chunkIndex state) := by
  unfold dispatchOriginFallback
  split_ifs
  · exact Returns.unchanged state
  · exact ⟨rfl, rfl, rfl, rfl, fun _ ↦ (acquired_beginFetch state chunkIndex env.now).busy⟩

/-- The origin fallback leaves a missing chunk being fetched. -/
theorem acquired_dispatchOriginFallback {chunkIndex : ℕ} {state : SchedulerState σ}
    (hmissing : state.localBitfield.has chunkIndex = false) :
    Acquired chunkIndex (dispatchOriginFallback env chunkIndex state).1 := by
  unfold dispatchOriginFallback
  split_ifs with hidle
  · rcases hidle with hhas | hmem
    · rw [hmissing] at hhas
      exact absurd hhas (by simp)
    · exact Or.inr hmem
  · exact acquired_beginFetch state chunkIndex env.now

theorem returns_dispatchOrRetry {retry : Method σ} {chunkIndex : ℕ} {peerId : String}
    {retries : ℕ} {state : SchedulerState σ} (hfits : FitsHeader state.resourceId)
    (hretry : ∀ calls, Returns (state.log calls) (retry (state.log calls))) :
    Returns state (dispatchOrRetry env retry chunkIndex peerId retries state) := by
  unfold dispatchOrRetry encodeRequest
  rw [encodeChunkIndex_eq hfits]
  simp only
  split_ifs
  · have h := hretry [.sendToPeer peerId
      (headerBytes .REQUEST state.resourceId ++ uint32Bytes chunkIndex)
      (env.sends state.calls.length)]
    exact ⟨h.1, h.2, h.3, h.4, h.5⟩
  · exact ⟨rfl, rfl, rfl, rfl, fun _ ↦ (acquired_arm _ chunkIndex _ _ _).busy⟩

theorem acquired_dispatchOrRetry {retry : Method σ} {chunkIndex : ℕ} {peerId : String}
    {retries : ℕ} {state : SchedulerState σ} (hfits : FitsHeader state.resourceId)
    (hretry : ∀ calls, Acquired chunkIndex (retry (state.log calls)).1) :
    Acquired chunkIndex (dispatchOrRetry env retry chunkIndex peerId retries state).1 := by
  unfold dispatchOrRetry encodeRequest
  rw [encodeChunkIndex_eq hfits]
  simp only
  split_ifs
  · exact hretry _
  · exact acquired_arm _ _ _ _ _

/-- Rescheduling a chunk returns, and a missing chunk ends up requested or being fetched. -/
theorem scheduleWithin_progress (env : Env) (chunkIndex attempts : ℕ) {state : SchedulerState σ}
    (hfits : FitsHeader state.resourceId) :
    Returns state (scheduleWithin env chunkIndex attempts state) ∧
      (state.localBitfield.has chunkIndex = false →
        Acquired chunkIndex (scheduleWithin env chunkIndex attempts state).1) := by
  induction attempts generalizing state with
  | zero =>
    unfold scheduleWithin
    split_ifs with hhas
    · exact ⟨Returns.unchanged state, fun hmissing ↦ by simp [hmissing] at hhas⟩
    · exact ⟨returns_dispatchOriginFallback chunkIndex state, acquired_dispatchOriginFallback⟩
  | succ attempts ih =>
    have hlater : ∀ calls, FitsHeader (state.log calls).resourceId := fun _ ↦ hfits
    unfold scheduleWithin
    split_ifs with hhas
    · exact ⟨Returns.unchanged state, fun hmissing ↦ by simp [hmissing] at hhas⟩
    · split
      · exact ⟨returns_dispatchOrRetry hfits fun calls ↦ (ih (hlater calls)).1,
          fun hmissing ↦ acquired_dispatchOrRetry hfits fun calls ↦ (ih (hlater calls)).2 hmissing⟩
      · exact ⟨returns_dispatchOriginFallback chunkIndex state, acquired_dispatchOriginFallback⟩

theorem scheduleChunk_progress (env : Env) (chunkIndex retries : ℕ) {state : SchedulerState σ}
    (hfits : FitsHeader state.resourceId) :
    Returns state (scheduleChunk env chunkIndex retries state) ∧
      (state.localBitfield.has chunkIndex = false →
        Acquired chunkIndex (scheduleChunk env chunkIndex retries state).1) :=
  scheduleWithin_progress env chunkIndex _ hfits

theorem returns_assignToPeer (entry : RarityEntry) {state : SchedulerState σ}
    (hfits : FitsHeader state.resourceId) : Returns state (assignToPeer env entry state) := by
  unfold assignToPeer
  split_ifs
  · exact Returns.unchanged state
  · simp only
    split
    · exact returns_dispatchOrRetry hfits fun calls ↦
        (scheduleChunk_progress _ _ _ (show FitsHeader (state.log calls).resourceId from hfits)).1
    · exact Returns.unchanged state

theorem returns_assignToOrigin (entry : RarityEntry) (state : SchedulerState σ) :
    Returns state (assignToOrigin env entry state) := by
  unfold assignToOrigin
  split_ifs
  · exact Returns.unchanged state
  · exact returns_dispatchOriginFallback entry.chunkIndex state

theorem byLoad_eq_nil_iff {state : SchedulerState σ} {peers : List String} :
    state.byLoad peers = [] ↔ peers = [] := by
  rw [← List.length_eq_zero_iff, SchedulerState.byLoad, List.length_insertionSort,
    List.length_eq_zero_iff]

/-- Without a peer that has a free slot, requests are outstanding. -/
theorem busy_of_loaded {state : SchedulerState σ} {peers : List String} (hpeers : peers ≠ [])
    (hloaded : state.byLoad (peers.filter fun peerId ↦
      state.countInFlightForPeer peerId < maxInFlightPerPeer) = []) : Busy state := by
  obtain ⟨peerId, rest, rfl⟩ := List.exists_cons_of_ne_nil hpeers
  have hload : ¬ state.countInFlightForPeer peerId < maxInFlightPerPeer := by
    have hall := List.filter_eq_nil_iff.mp (byLoad_eq_nil_iff.mp hloaded) peerId
      List.mem_cons_self
    simpa using hall
  have hpositive : 0 < state.countInFlightForPeer peerId := by
    rw [maxInFlightPerPeer] at hload
    omega
  obtain ⟨request, hrequest, _⟩ := List.countP_pos_iff.mp hpositive
  obtain ⟨chunkIndex, hget⟩ := OrderedMap.mem_values_iff.mp hrequest
  exact Or.inl ⟨chunkIndex, request, hget⟩

theorem busy_assignToPeer {entry : RarityEntry} (hpeers : entry.peers ≠ [])
    {state : SchedulerState σ} (hfits : FitsHeader state.resourceId)
    (hmissing : state.localBitfield.has entry.chunkIndex = false) :
    Busy (assignToPeer env entry state).1 := by
  unfold assignToPeer
  split_ifs with hcapacity
  · exact busy_of_outstanding (lt_of_lt_of_le (by decide) hcapacity)
  · simp only
    split
    · exact (acquired_dispatchOrRetry hfits fun calls ↦
        (scheduleChunk_progress _ _ _ (show FitsHeader (state.log calls).resourceId from hfits)).2
          hmissing).busy
    · next hloaded => exact busy_of_loaded hpeers hloaded

theorem busy_assignToOrigin {entry : RarityEntry} {state : SchedulerState σ}
    (hmissing : state.localBitfield.has entry.chunkIndex = false) :
    Busy (assignToOrigin env entry state).1 := by
  unfold assignToOrigin
  split_ifs with hcapacity
  · exact busy_of_outstanding (lt_of_lt_of_le (by decide) hcapacity)
  · exact (acquired_dispatchOriginFallback hmissing).busy

/-- What the loops of `scheduleNext` keep: the id fits, and the bitfield is the one of the start. -/
def LoopContext (bitfield : Bitfield) (state : SchedulerState σ) : Prop :=
  FitsHeader state.resourceId ∧ state.localBitfield = bitfield

theorem Returns.loopContext {bitfield : Bitfield} {state : SchedulerState σ}
    {outcome : SchedulerState σ × Option JsError} (hreturns : Returns state outcome)
    (hcontext : LoopContext bitfield state) : LoopContext bitfield outcome.1 := by
  refine ⟨?_, hreturns.localBitfield.trans hcontext.2⟩
  rw [SchedulerState.resourceId, hreturns.manifest]
  exact hcontext.1

/-- A candidate entry lists the peers that it counts. -/
theorem peers_ne_nil_of_rarity {state : SchedulerState σ} {entry : RarityEntry}
    (hmem : entry ∈ rarityMap state) (hrarity : 0 < entry.rarity) : entry.peers ≠ [] := by
  obtain ⟨chunkIndex, _, rfl⟩ := List.mem_map.mp hmem
  exact List.ne_nil_of_length_pos hrarity

theorem returns_assign (entry : RarityEntry) {state : SchedulerState σ}
    (hfits : FitsHeader state.resourceId) : Returns state (assign env entry state) := by
  unfold assign
  split_ifs
  · exact returns_assignToPeer entry hfits
  · exact returns_assignToOrigin entry state

theorem busy_assign {initial state : SchedulerState σ} {entry : RarityEntry}
    (hmem : entry ∈ rarityMap initial) (hfits : FitsHeader state.resourceId)
    (hmissing : state.localBitfield.has entry.chunkIndex = false) :
    Busy (assign env entry state).1 := by
  unfold assign
  split_ifs with hrarity
  · exact busy_assignToPeer (peers_ne_nil_of_rarity hmem hrarity) hfits hmissing
  · exact busy_assignToOrigin hmissing

/-- The loop over the agenda returns and keeps a busy scheduler busy; when there is a candidate it
leaves the scheduler busy. -/
theorem agenda_progress (env : Env) {state : SchedulerState σ} (hfits : FitsHeader state.resourceId)
    (hwork : Busy state ∨ ∃ entry, entry ∈ rarityMap state) :
    Busy (Action.forEach (assign env) (agenda state) state).1 ∧
      (Action.forEach (assign env) (agenda state) state).2 = none := by
  have hstart : LoopContext state.localBitfield state := ⟨hfits, rfl⟩
  have hassign : ∀ entry ∈ agenda state, ∀ reached : SchedulerState σ,
      LoopContext state.localBitfield reached →
        LoopContext state.localBitfield (assign env entry reached).1 ∧
          (assign env entry reached).2 = none := fun entry _ reached h ↦
    ⟨(returns_assign entry h.1).loopContext h, (returns_assign entry h.1).returns⟩
  have hkeeps : ∀ entry ∈ agenda state, ∀ reached : SchedulerState σ,
      LoopContext state.localBitfield reached ∧ Busy reached →
        LoopContext state.localBitfield (assign env entry reached).1 ∧
          Busy (assign env entry reached).1 := fun entry hentry reached h ↦
    ⟨(hassign entry hentry reached h.1).1, (returns_assign entry h.1.1).busy h.2⟩
  refine ⟨?_, (Action.forEach_returns hassign hstart).2⟩
  rcases hwork with hbusy | ⟨entry, hmem⟩
  · exact (Action.forEach_keeps hkeeps ⟨hstart, hbusy⟩).2
  · have hmissing : state.localBitfield.has entry.chunkIndex = false :=
      (free_of_mem_rarityMap hmem).missing
    have hentry : entry ∈ agenda state := mem_agenda.mpr hmem
    exact (Action.forEach_establishes hassign hkeeps hentry (fun reached h ↦
      ⟨(hassign entry hentry reached h).1, busy_assign hmem h.1 (h.2 ▸ hmissing)⟩) hstart).2

/-- The scheduling loop returns, and it leaves an incomplete running download busy. -/
theorem scheduleNext_progress {state : SchedulerState σ} (hfits : FitsHeader state.resourceId) :
    (scheduleNext env state).2 = none ∧ NoStall (scheduleNext env state).1 := by
  have hunmoved := (scheduleNext_moves env state).unmoved
  suffices h : (scheduleNext env state).2 = none ∧ (state.isRunning = true →
      state.localBitfield.isComplete = false → Busy (scheduleNext env state).1) by
    refine ⟨h.1, fun hrunning hincomplete _ ↦ h.2 ?_ ?_⟩
    · rw [← hunmoved.isRunning]
      exact hrunning
    · rw [← hunmoved.localBitfield]
      exact hincomplete
  rcases scheduleNext_cases env state with ⟨hfull, hidle⟩ | ⟨hcomplete, hreports⟩ |
    ⟨hrunning, hincomplete, hroom⟩
  · rw [hidle]
    exact ⟨rfl, fun hrunning hincomplete ↦
      busy_of_outstanding (lt_of_lt_of_le (by decide) (hfull hrunning hincomplete))⟩
  · rw [hreports]
    exact ⟨rfl, fun _ hincomplete ↦ absurd hcomplete (by simp [hincomplete])⟩
  rw [scheduleNext_eq_agenda hrunning hincomplete hroom]
  have hwork : Busy state ∨ ∃ entry, entry ∈ rarityMap state := by
    obtain ⟨chunkIndex, rest, hmissing⟩ :=
      List.exists_cons_of_ne_nil (Bitfield.getMissingIndices_ne_nil hincomplete)
    have hmem := Bitfield.mem_getMissingIndices.mp (hmissing ▸ List.mem_cons_self)
    by_cases hrequested : state.inFlight.get? chunkIndex = none
    · by_cases hfetched : chunkIndex ∈ state.originInFlight
      · exact Or.inl (Or.inr ⟨chunkIndex, hfetched⟩)
      · have hcandidate : chunkIndex ∈ candidateIndices state :=
          mem_candidateIndices.mpr ⟨hmem.1, hmem.2, hrequested, hfetched⟩
        exact Or.inr ⟨_, List.mem_map_of_mem hcandidate⟩
    · exact Or.inl (Or.inl ⟨chunkIndex, Option.ne_none_iff_exists'.mp hrequested⟩)
  have hloop := agenda_progress env hfits hwork
  exact ⟨hloop.2, fun _ _ ↦ hloop.1⟩

theorem scheduleIfRunning_noStall {state : SchedulerState σ} (hfits : FitsHeader state.resourceId) :
    NoStall (scheduleIfRunning env state).1 := by
  unfold scheduleIfRunning
  split_ifs with hrunning
  · exact (scheduleNext_progress hfits).2
  · exact fun h ↦ absurd h hrunning

end Scheduling

/-! ### Events -/

/-- Blocks can be put together exactly when each of them lies inside the buffer. -/
theorem assembleParts_isOk_iff (buffer : Bytes) (parts : List (ℕ × Bytes)) :
    (∃ result, assembleParts buffer parts = .ok result) ↔
      ∀ part ∈ parts, part.1 + part.2.length ≤ buffer.length := by
  induction parts generalizing buffer with
  | nil => simp [assembleParts]
  | cons part rest ih =>
    rw [List.forall_mem_cons]
    cases hblit : blit buffer part.1 part.2 with
    | none =>
      have hoverlap : ¬ part.1 + part.2.length ≤ buffer.length := by
        rw [← blit_isSome_iff, hblit]
        simp
      simp [assembleParts, setBytes, hblit, hoverlap, bind, Except.bind]
    | some written =>
      have hfits : part.1 + part.2.length ≤ buffer.length := by
        rw [← blit_isSome_iff, hblit]
        rfl
      have hrest := ih written
      rw [length_of_blit hblit] at hrest
      simp only [assembleParts, setBytes, hblit, bind, Except.bind, hrest, hfits, true_and]

/-- The steps that release a slot keep their duty to schedule: the blocks of a piece that completes
a chunk lie inside its buffer, and neither verification nor storage of a peer's piece rejects. -/
def ReleasesSafely (state : SchedulerState σ) : SchedulerEvent → Prop
  | .handlePiece chunkIndex beginOffset totalLength data =>
    let item := receive chunkIndex beginOffset totalLength data state
    state.inFlight.has chunkIndex = true → item.totalLength ≤ item.receivedBytes →
      ∀ part ∈ item.parts.entries, part.1 + part.2.length ≤ item.totalLength
  | .settled index (.verifyFailed _) => ∀ task, state.tasks[index]? = some task →
    (∃ expected data latencyMs, task.stage = .verifying expected data latencyMs) →
      task.fromP2P = false
  | .settled index (.putFailed _) => ∀ task, state.tasks[index]? = some task →
    (∃ data latencyMs written, task.stage = .putting data latencyMs written) →
      task.fromP2P = false
  | _ => True

section Events

variable {digest : Bytes → Bytes} {chunkStore : IChunkStore σ} {env : Env}
  {state : SchedulerState σ}

/-- A task that has moved on to a stage other than fetching is pending. -/
theorem noStall_advance (state : SchedulerState σ) {index : ℕ} {task : Task}
    (htask : state.tasks[index]? = some task)
    {stage : Stage} (hstage : ∀ fetchStart, stage ≠ .fetching fetchStart) :
    NoStall (advance index task stage state) :=
  noStall_of_pending ((mem_tasks_advance htask stage _).mpr (Or.inl rfl))
    fun ⟨fetchStart, heq⟩ ↦ hstage fetchStart heq

theorem updatePeerHave_noStall (hfits : FitsHeader state.resourceId) (hstall : NoStall state)
    (peerId : String) (chunkIndex : ℕ) :
    NoStall (updatePeerHave env peerId chunkIndex state).1 := by
  have hpeer : (peerBitfield peerId state).1.manifest = state.manifest ∧
      NoStall (peerBitfield peerId state).1 := by
    unfold peerBitfield
    split
    · exact ⟨rfl, hstall⟩
    · exact ⟨rfl, hstall.of_eq rfl rfl rfl rfl rfl⟩
  unfold updatePeerHave
  simp only
  split
  · exact hpeer.2
  · refine scheduleIfRunning_noStall ?_
    rw [SchedulerState.resourceId, show ChunkScheduler.manifest _ = state.manifest from hpeer.1]
    exact hfits

/-- Reassigning the requests of a peer returns. -/
theorem reassign_returns (env : Env) (peerId : String) (entry : ℕ × InFlightRequest)
    {reached : SchedulerState σ} (hfits : FitsHeader reached.resourceId) :
    FitsHeader (reassign env peerId entry reached).1.resourceId ∧
      (reassign env peerId entry reached).2 = none := by
  unfold reassign
  split_ifs
  · have hreleased : FitsHeader (release entry.1 entry.2.timer reached).resourceId := hfits
    have h := (scheduleChunk_progress env entry.1 (entry.2.retries + 1) hreleased).1
    refine ⟨?_, h.returns⟩
    rw [SchedulerState.resourceId, h.manifest]
    exact hfits
  · exact ⟨hfits, rfl⟩

theorem removePeer_noStall (hfits : FitsHeader state.resourceId) (peerId : String) :
    NoStall (removePeer env peerId state).1 := by
  have hstart : FitsHeader (forget peerId state).resourceId := hfits
  have hbody : ∀ entry ∈ state.inFlight.entries, ∀ reached : SchedulerState σ,
      FitsHeader reached.resourceId → FitsHeader (reassign env peerId entry reached).1.resourceId ∧
        (reassign env peerId entry reached).2 = none :=
    fun entry _ _ hreached ↦ reassign_returns env peerId entry hreached
  have hloop := Action.forEach_returns hbody hstart
  rw [removePeer_eq, Action.andThen_of_returns hloop.2]
  exact scheduleIfRunning_noStall hloop.1

theorem handleTimeout_noStall (hfits : FitsHeader state.resourceId) (hstall : NoStall state)
    (chunkIndex timer : ℕ) : NoStall (handleTimeout env chunkIndex timer state).1 := by
  unfold handleTimeout
  split
  · exact hstall.of_eq rfl rfl rfl rfl rfl
  · next request _ =>
    have hreleased : FitsHeader (((release chunkIndex timer state).log
      [.onRetry chunkIndex request.peerId]).resourceId) := hfits
    have h := (scheduleChunk_progress env chunkIndex (request.retries + 1) hreleased).1
    simp only
    rw [Action.andThen_of_returns h.returns]
    refine (scheduleNext_progress ?_).2
    rw [SchedulerState.resourceId, h.manifest]
    exact hfits

theorem handlePiece_noStall (hstall : NoStall state) (chunkIndex beginOffset totalLength : ℕ)
    (data : Bytes)
    (hsafe : ReleasesSafely state (.handlePiece chunkIndex beginOffset totalLength data)) :
    NoStall (handlePiece env chunkIndex beginOffset totalLength data state).1 := by
  unfold handlePiece
  split
  · exact hstall
  · next request hrequest =>
    simp only
    split_ifs with hfull
    · have hfit := hsafe (OrderedMap.has_iff_exists.mpr ⟨request, hrequest⟩) hfull
      obtain ⟨assembled, hassembled⟩ := (assembleParts_isOk_iff (List.replicate
        (receive chunkIndex beginOffset totalLength data state).totalLength 0) _).mpr
          (by rw [List.length_replicate]; exact hfit)
      unfold completePiece
      simp only [hassembled]
      refine noStall_of_pending (List.mem_append_right _ (List.mem_singleton_self _)) ?_
      rintro ⟨fetchStart, heq⟩
      rcases verifyAndStoreChunk_cases chunkIndex assembled (pieceLatency env request)
        (release chunkIndex request.timer state) with ⟨_, _, houtcome⟩ | ⟨_, _, houtcome⟩ <;>
      · rw [houtcome] at heq
        simp at heq
    · exact hstall.of_eq rfl rfl rfl rfl rfl

/-- A rejected task of the origin path is pending. -/
theorem reject_noStall {index : ℕ} {task : Task} (htask : state.tasks[index]? = some task)
    (hpath : task.fromP2P = false) (error : String) : NoStall (reject index task error state) := by
  unfold reject
  rw [if_neg (by simp [hpath])]
  exact noStall_advance state htask (by simp)

theorem continueTask_noStall (hwf : WellFormed state) (hfits : FitsHeader state.resourceId)
    (hstall : NoStall state) {index : ℕ} {task : Task} (htask : state.tasks[index]? = some task)
    (settlement : Settlement) (hsafe : ReleasesSafely state (.settled index settlement)) :
    NoStall (continueTask digest chunkStore env index task settlement state) := by
  have hok := hwf.tasks_ok task ((mem_tasks_iff htask task).mpr (Or.inl rfl))
  have htransition := continueTask_transition digest chunkStore env index task settlement state
  generalize continueTask digest chunkStore env index task settlement state = next
    at htransition ⊢
  cases htransition with
  | ignored => exact hstall
  | fetched fetchStart data =>
    rcases verifyAndStoreChunk_cases task.chunkIndex data (latencySince env fetchStart) state with
      ⟨expected, _, heq⟩ | ⟨_, message, heq⟩
    · rw [heq]
      exact noStall_advance state htask (by simp)
    · rw [heq]
      exact noStall_advance (state.log _) htask (by simp)
  | fetchFailed => exact noStall_advance state htask (by simp)
  | verified expected data latencyMs =>
    unfold afterVerify
    simp only
    split_ifs
    · exact noStall_advance _ (dispatchOriginFallback_keeps task.chunkIndex
        (show (state.log _).tasks[index]? = some task from htask)).1 (by simp)
    · exact noStall_advance (state.log _) htask (by simp)
  | verifyFailed expected data latencyMs error hstage =>
    exact reject_noStall htask (hsafe task htask ⟨_, _, _, hstage⟩) error
  | written => exact noStall_advance { state with store := _ } htask (by simp)
  | putDone data latencyMs =>
    obtain ⟨bitfield, haveMsg, -, -, heq⟩ :=
      afterPut_completes hok.inRange hfits task.fromP2P data latencyMs
    rw [heq]
    exact noStall_advance (SchedulerState.log { state with localBitfield := bitfield } _) htask
      (by simp)
  | putFailed data latencyMs done error hstage =>
    exact reject_noStall htask (hsafe task htask ⟨_, _, _, hstage⟩) error
  | caught => exact noStall_advance (state.log _) htask (by simp)
  | finished =>
    unfold finish
    simp only
    split_ifs
    · exact scheduleIfRunning_noStall hfits
    · exact scheduleIfRunning_noStall hfits

/-- Every event that releases safely keeps the promise. -/
theorem perform_noStall (hwf : WellFormed state) (hfits : FitsHeader state.resourceId)
    (hstall : NoStall state) (event : SchedulerEvent) (hsafe : ReleasesSafely state event) :
    NoStall (perform digest chunkStore env event state).1 := by
  cases event with
  | start =>
    change NoStall (start env state).1
    unfold start
    split_ifs
    · exact hstall
    · have hstarted : FitsHeader
          ({ state with isRunning := true } : SchedulerState σ).resourceId := hfits
      exact (scheduleNext_progress hstarted).2
  | stop => exact fun hrunning ↦ absurd hrunning (by simp [perform, stop])
  | updatePeerBitfield peerId address => exact scheduleIfRunning_noStall hfits
  | updatePeerHave peerId chunkIndex => exact updatePeerHave_noStall hfits hstall peerId chunkIndex
  | setPeerChoked peerId choked =>
    change NoStall (setPeerChoked env peerId choked state).1
    unfold setPeerChoked
    simp only
    split_ifs
    · exact hstall.of_eq rfl rfl rfl rfl rfl
    · exact scheduleIfRunning_noStall hfits
  | removePeer peerId => exact removePeer_noStall hfits peerId
  | scheduleNext => exact (scheduleNext_progress hfits).2
  | handlePiece chunkIndex beginOffset totalLength data =>
    exact handlePiece_noStall hstall chunkIndex beginOffset totalLength data hsafe
  | timeout timer =>
    simp only [perform]
    split
    · next chunkIndex _ => exact handleTimeout_noStall hfits hstall chunkIndex timer
    · exact hstall
  | settled index settlement =>
    simp only [perform]
    split
    · next task htask => exact continueTask_noStall hwf hfits hstall htask settlement hsafe
    · exact hstall
  | shared heap => exact hstall.of_eq rfl rfl rfl rfl rfl

end Events

/-- **Never-fail scheduling.** In every run of a new scheduler for a resource whose id fits the
frames, in which every step releases safely: whenever the download is running and incomplete and no
continuation is pending, an armed timer or an outstanding fetch is due. -/
theorem stillDue_of_releasesSafely (digest : Bytes → Bytes) (chunkStore : IChunkStore σ)
    (manifest : ResourceManifest) (localBitfield : Bitfield) (heap : List Bitfield) (store : σ)
    (hfits : FitsHeader manifest.resourceId) (inputs : List SchedulerInput)
    (hsafe : Along (schedulerStep digest chunkStore)
      (fun state input ↦ ReleasesSafely state input.2)
      (SchedulerState.new manifest localBitfield heap store) inputs) :
    StillDue (schedulerRun digest chunkStore manifest localBitfield heap store inputs) := by
  have hinit : WellFormed (SchedulerState.new manifest localBitfield heap store) ∧
      FitsHeader (SchedulerState.new manifest localBitfield heap store).resourceId ∧
      NoStall (SchedulerState.new manifest localBitfield heap store) :=
    ⟨wellFormed_new manifest localBitfield heap store, hfits,
      fun hrunning ↦ absurd hrunning (by simp [SchedulerState.new, ChunkScheduler.new])⟩
  have hrun := run_invariant
    (fun state : SchedulerState σ ↦ WellFormed state ∧ FitsHeader state.resourceId ∧ NoStall state)
    (fun state input hinv hallowed ↦ ?_) hinit hsafe
  · exact stillDue_of_noStall hrun.1 hrun.2.2
  · obtain ⟨hwf, hmanifest⟩ := schedulerStep_wellFormed hinv.1 input
    refine ⟨hwf, ?_, perform_noStall hinv.1 hinv.2.1 hinv.2.2 input.2 hallowed⟩
    rw [SchedulerState.resourceId, hmanifest]
    exact hinv.2.1

/-- A peer that has the one chunk sends one block, one byte behind the end of the chunk. -/
def misplacedPieceRun : List SchedulerInput :=
  [(calmEnv, .updatePeerBitfield "peer" 0), (calmEnv, .start), (calmEnv, .handlePiece 0 1 1 [7])]

/-- The misplaced block stalls the download: its slot is released, writing it throws, and nothing is
scheduled. -/
theorem misplacedPiece_stalls :
    ¬ StillDue (schedulerRun id MemoryChunkStore oneChunkManifest (Bitfield.new 1)
      [oneChunkBitfield] OrderedMap.empty misplacedPieceRun) := by
  intro hdue
  have hsize : (schedulerRun id MemoryChunkStore oneChunkManifest (Bitfield.new 1)
      [oneChunkBitfield] OrderedMap.empty misplacedPieceRun).inFlight.size = 0 := by decide +kernel
  have horigin : (schedulerRun id MemoryChunkStore oneChunkManifest (Bitfield.new 1)
      [oneChunkBitfield] OrderedMap.empty misplacedPieceRun).originInFlight = ∅ := by
    decide +kernel
  have htasks : (schedulerRun id MemoryChunkStore oneChunkManifest (Bitfield.new 1)
      [oneChunkBitfield] OrderedMap.empty misplacedPieceRun).tasks = [] := by rfl
  rcases hdue (by decide +kernel) (by decide +kernel) (by simp [htasks]) with
    ⟨chunkIndex, request, hrequest, _⟩ | ⟨chunkIndex, hmem, _⟩
  · rw [OrderedMap.size_eq_zero_iff.mp hsize chunkIndex] at hrequest
    exact absurd hrequest (by simp)
  · rw [horigin] at hmem
    exact absurd hmem (by simp)

/-- A wrong byte at its place: the chunk is refused, and its origin fetch is due. -/
theorem stillDue_of_releasesSafely_wellPlaced :
    StillDue (schedulerRun id MemoryChunkStore oneChunkManifest (Bitfield.new 1)
      [oneChunkBitfield] OrderedMap.empty
      [(calmEnv, .updatePeerBitfield "peer" 0), (calmEnv, .start),
        (calmEnv, .handlePiece 0 0 1 [8]), (calmEnv, .settled 0 .verified),
        (calmEnv, .settled 0 .resumed)]) := by
  refine stillDue_of_releasesSafely id MemoryChunkStore oneChunkManifest (Bitfield.new 1)
    [oneChunkBitfield] OrderedMap.empty (by decide) _
    ⟨trivial, trivial, fun _ _ ↦ ?_, trivial, trivial, trivial⟩
  decide +kernel

end CampusMesh.Web
