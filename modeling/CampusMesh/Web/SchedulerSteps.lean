import CampusMesh.Web.SchedulerMoves
import Mathlib.Data.List.Perm.Basic

/-!
# The steps of a scheduler run

Every event of a run is a sequence of small steps (`perform_steps`): moves of the scheduling
methods, bookkeeping about peers, reports, the release of a request, and the passage of a task from
one stage to the next. An invariant that every step keeps is kept by every event.

`WellFormed` is the invariant behind the reduction itself: armed timers and requests belong
together, chunk indices are in range, and whatever is marked as being fetched has a task.
-/

set_option autoImplicit false
set_option relaxedAutoImplicit false

namespace CampusMesh.Web

open Library Shared SchedulerState Relation

variable {σ : Type}

/-- Calls that only report what happened. -/
def Call.IsReport : Call → Prop
  | .onError _ | .onCorruption _ _ _ | .onRetry _ _ => True
  | _ => False

/-- The passages between stages that touch neither the store nor the bitfield. -/
inductive Stage.Passes : Stage → Stage → Prop
  | arrived (fetchStart : ℕ) (expected : String) (data : Bytes) (latencyMs : ℕ) :
      Passes (.fetching fetchStart) (.verifying expected data latencyMs)
  | unexpected (fetchStart : ℕ) : Passes (.fetching fetchStart) .returned
  | failed (fetchStart : ℕ) (error : String) : Passes (.fetching fetchStart) (.rejected error)
  | refused (expected : String) (data : Bytes) (latencyMs : ℕ) :
      Passes (.verifying expected data latencyMs) .returned
  | verifyFailed (expected : String) (data : Bytes) (latencyMs : ℕ) (error : String) :
      Passes (.verifying expected data latencyMs) (.rejected error)
  | putFailed (data : Bytes) (latencyMs : ℕ) (written : Bool) (error : String) :
      Passes (.putting data latencyMs written) (.rejected error)
  | caught (error : String) : Passes (.rejected error) .returned

/-- No passage leads to the store. -/
theorem Stage.Passes.ne_putting {first second : Stage} (hpasses : first.Passes second)
    (data : Bytes) (latencyMs : ℕ) (written : Bool) : second ≠ .putting data latencyMs written := by
  cases hpasses <;> simp

/-- The stages on the path of a peer's piece. -/
def Stage.OnPeerPath : Stage → Prop
  | .fetching _ | .rejected _ => False
  | _ => True

/-- What a task of a scheduler may be: its chunk is in range, its stage belongs to its path, and the
hash it verifies against is the one of the manifest. -/
structure Task.Ok (manifest : ResourceManifest) (totalChunks : ℕ) (task : Task) : Prop where
  inRange : task.chunkIndex < totalChunks
  onPath : task.fromP2P = true → task.stage.OnPeerPath
  expected : ∀ expected data latencyMs, task.stage = .verifying expected data latencyMs →
    expectedHash manifest task.chunkIndex = some expected

/-- One small step of a scheduler. -/
inductive Step (digest : Bytes → Bytes) (chunkStore : IChunkStore σ) (env : Env) :
    SchedulerState σ → SchedulerState σ → Prop
  | move {state next : SchedulerState σ} {chunkIndex : ℕ}
      (hmove : Move env False chunkIndex state next) : Step digest chunkStore env state next
  | books (state : SchedulerState σ) (peerBitfields : OrderedMap String ℕ)
      (peerChoked : OrderedMap String Bool) (reassembly : OrderedMap ℕ ChunkReassembly)
      (heap : List Bitfield) :
      Step digest chunkStore env state
        { state with
          peerBitfields := peerBitfields
          peerChoked := peerChoked
          reassembly := reassembly
          heap := heap }
  | report (state : SchedulerState σ) (call : Call) (hreport : call.IsReport) :
      Step digest chunkStore env state (state.log [call])
  | begin (state : SchedulerState σ) :
      Step digest chunkStore env state { state with isRunning := true }
  | halt (state : SchedulerState σ) : Step digest chunkStore env state (stop state)
  | release (state : SchedulerState σ) (chunkIndex : ℕ) (request : InFlightRequest)
      (hrequest : state.inFlight.get? chunkIndex = some request) :
      Step digest chunkStore env state (release chunkIndex request.timer state)
  | refetch (state : SchedulerState σ) (chunkIndex : ℕ)
      (hrange : chunkIndex < state.localBitfield.totalChunks)
      (hmissing : state.localBitfield.has chunkIndex = false)
      (hidle : chunkIndex ∉ state.originInFlight) :
      Step digest chunkStore env state (state.beginFetch chunkIndex env.now)
  | deliver (state : SchedulerState σ) (chunkIndex : ℕ) (stage : Stage)
      (hok : Task.Ok state.manifest state.localBitfield.totalChunks ⟨chunkIndex, true, stage⟩)
      (hstage : (∃ expected data latencyMs, stage = .verifying expected data latencyMs) ∨
        stage = .returned) :
      Step digest chunkStore env state (enqueue ⟨chunkIndex, true, stage⟩ state)
  | pass (state : SchedulerState σ) (index : ℕ) (task : Task) (stage : Stage)
      (htask : state.tasks[index]? = some task) (hpasses : task.stage.Passes stage)
      (hok : Task.Ok state.manifest state.localBitfield.totalChunks { task with stage := stage }) :
      Step digest chunkStore env state (advance index task stage state)
  | accept (state : SchedulerState σ) (index : ℕ) (task : Task) (expected : String)
      (data : Bytes) (latencyMs : ℕ) (htask : state.tasks[index]? = some task)
      (hstage : task.stage = .verifying expected data latencyMs)
      (hverified : Verified digest state.manifest task.chunkIndex data) :
      Step digest chunkStore env state (advance index task (.putting data latencyMs false)
        (state.log [.put state.resourceId task.chunkIndex data]))
  | write (state : SchedulerState σ) (index : ℕ) (task : Task) (data : Bytes) (latencyMs : ℕ)
      (htask : state.tasks[index]? = some task)
      (hstage : task.stage = .putting data latencyMs false) :
      Step digest chunkStore env state (advance index task (.putting data latencyMs true)
        { state with
          store := chunkStore.put state.store state.resourceId task.chunkIndex data })
  | mark (state : SchedulerState σ) (index : ℕ) (task : Task) (data : Bytes) (latencyMs : ℕ)
      (bitfield : Bitfield) (error : JsError) (htask : state.tasks[index]? = some task)
      (hstage : task.stage = .putting data latencyMs true)
      (hset : state.localBitfield.set task.chunkIndex = .ok bitfield)
      (hhave : encodeHave state.resourceId task.chunkIndex = .error error) :
      Step digest chunkStore env state { state with localBitfield := bitfield }
  | complete (state : SchedulerState σ) (index : ℕ) (task : Task) (data : Bytes) (latencyMs : ℕ)
      (bitfield : Bitfield) (haveMsg : Bytes) (htask : state.tasks[index]? = some task)
      (hstage : task.stage = .putting data latencyMs true)
      (hset : state.localBitfield.set task.chunkIndex = .ok bitfield)
      (hhave : encodeHave state.resourceId task.chunkIndex = .ok haveMsg) :
      Step digest chunkStore env state (advance index task .returned
        (({ state with localBitfield := bitfield } : SchedulerState σ).log
          (completionCalls state.manifest bitfield haveMsg task.chunkIndex task.fromP2P data.length
            latencyMs)))
  | drop (state : SchedulerState σ) (index : ℕ) (task : Task)
      (htask : state.tasks[index]? = some task) (hpath : task.fromP2P = true) :
      Step digest chunkStore env state (settle index state)
  | finish (state : SchedulerState σ) (index : ℕ) (task : Task)
      (htask : state.tasks[index]? = some task) (hstage : task.stage = .returned)
      (hpath : task.fromP2P = false) :
      Step digest chunkStore env state
        { settle index state with
          originInFlight := state.originInFlight.erase task.chunkIndex }

/-- Any number of small steps. -/
abbrev Steps (digest : Bytes → Bytes) (chunkStore : IChunkStore σ) (env : Env) :
    SchedulerState σ → SchedulerState σ → Prop := ReflTransGen (Step digest chunkStore env)

/-- Scheduling never changes the manifest or the number of chunks. -/
theorem Step.manifest_totalChunks {digest : Bytes → Bytes} {chunkStore : IChunkStore σ} {env : Env}
    {state next : SchedulerState σ} (hstep : Step digest chunkStore env state next) :
    next.manifest = state.manifest ∧
      next.localBitfield.totalChunks = state.localBitfield.totalChunks := by
  cases hstep with
  | move hmove => cases hmove <;> exact ⟨rfl, rfl⟩
  | mark _ _ _ _ _ _ _ _ hset => exact ⟨rfl, Bitfield.totalChunks_of_set hset⟩
  | complete _ _ _ _ _ _ _ _ hset => exact ⟨rfl, Bitfield.totalChunks_of_set hset⟩
  | _ => exact ⟨rfl, rfl⟩

/-! ### Tasks -/

/-- A list is the entry at an index and the rest. -/
theorem perm_of_getElem? {α : Type} {items : List α} {index : ℕ} {item : α}
    (hitem : items[index]? = some item) : items.Perm (item :: items.eraseIdx index) := by
  obtain ⟨hindex, rfl⟩ := List.getElem?_eq_some_iff.mp hitem
  exact (List.getElem_cons_eraseIdx_perm hindex).symm

/-- Replacing the entry at an index leaves the rest. -/
theorem perm_set_of_getElem? {α : Type} {items : List α} {index : ℕ} {item : α}
    (hitem : items[index]? = some item) (next : α) :
    (items.set index next).Perm (next :: items.eraseIdx index) := by
  obtain ⟨hindex, _⟩ := List.getElem?_eq_some_iff.mp hitem
  exact List.set_perm_cons_eraseIdx hindex next

section Tasks

variable {state : SchedulerState σ} {index : ℕ} {task : Task}

/-- The tasks after one of them moved on: that one in its new stage, and the others. -/
theorem mem_tasks_advance (htask : state.tasks[index]? = some task) (stage : Stage) (other : Task) :
    other ∈ (advance index task stage state).tasks ↔
      other = { task with stage := stage } ∨ other ∈ state.tasks.eraseIdx index := by
  rw [← List.mem_cons]
  exact (perm_set_of_getElem? htask _).mem_iff

theorem mem_tasks_iff (htask : state.tasks[index]? = some task) (other : Task) :
    other ∈ state.tasks ↔ other = task ∨ other ∈ state.tasks.eraseIdx index := by
  rw [← List.mem_cons]
  exact (perm_of_getElem? htask).mem_iff

end Tasks

/-! ### Well-formed states -/

/-- The invariant that ties the books of a scheduler together. -/
structure WellFormed (state : SchedulerState σ) : Prop where
  timers_iff : ∀ timer chunkIndex, state.timers.get? timer = some chunkIndex ↔
    ∃ request, state.inFlight.get? chunkIndex = some request ∧ request.timer = timer
  timers_lt : ∀ timer chunkIndex, state.timers.get? timer = some chunkIndex →
    timer < state.nextTimer
  inFlight_lt : ∀ chunkIndex request, state.inFlight.get? chunkIndex = some request →
    chunkIndex < state.localBitfield.totalChunks
  tasks_ok : ∀ task ∈ state.tasks, task.Ok state.manifest state.localBitfield.totalChunks
  fetched : ∀ chunkIndex ∈ state.originInFlight,
    ∃ task ∈ state.tasks, task.chunkIndex = chunkIndex ∧ task.fromP2P = false

/-- A new scheduler is well formed. -/
theorem wellFormed_new (manifest : ResourceManifest) (localBitfield : Bitfield)
    (heap : List Bitfield) (store : σ) :
    WellFormed (SchedulerState.new manifest localBitfield heap store) where
  timers_iff timer chunkIndex := by
    simp [SchedulerState.new, ChunkScheduler.new]
  timers_lt timer chunkIndex htimer := by
    simp [SchedulerState.new, ChunkScheduler.new] at htimer
  inFlight_lt chunkIndex request hrequest := by
    simp [SchedulerState.new, ChunkScheduler.new] at hrequest
  tasks_ok := by simp [SchedulerState.new, ChunkScheduler.new]
  fetched := by simp [SchedulerState.new, ChunkScheduler.new]

namespace WellFormed

variable {state : SchedulerState σ}

/-- The timer of a request is armed for its chunk. -/
theorem armed (hwf : WellFormed state) {chunkIndex : ℕ} {request : InFlightRequest}
    (hrequest : state.inFlight.get? chunkIndex = some request) :
    state.timers.get? request.timer = some chunkIndex :=
  (hwf.timers_iff _ _).mpr ⟨request, hrequest, rfl⟩

theorem issued (hwf : WellFormed state) {chunkIndex : ℕ} {request : InFlightRequest}
    (hrequest : state.inFlight.get? chunkIndex = some request) :
    request.timer < state.nextTimer := hwf.timers_lt _ _ (hwf.armed hrequest)

/-- Timers of different requests differ. -/
theorem timer_inj (hwf : WellFormed state) {first second : ℕ} {request other : InFlightRequest}
    (hfirst : state.inFlight.get? first = some request)
    (hsecond : state.inFlight.get? second = some other) (heq : request.timer = other.timer) :
    first = second := by
  have hother := hwf.armed hsecond
  rw [← heq, hwf.armed hfirst, Option.some.injEq] at hother
  exact hother

theorem arm (hwf : WellFormed state) {chunkIndex : ℕ} (peerId : String) (retries now : ℕ)
    (hrange : chunkIndex < state.localBitfield.totalChunks)
    (hfree : state.inFlight.get? chunkIndex = none) :
    WellFormed (state.arm chunkIndex peerId retries now) where
  timers_iff timer other := by
    change (state.timers.set state.nextTimer chunkIndex).get? timer = some other ↔
      ∃ request, (state.inFlight.set chunkIndex _).get? other = some request ∧ _
    rw [OrderedMap.get?_set, OrderedMap.get?_set]
    by_cases htimer : timer = state.nextTimer
    · rw [if_pos htimer]
      constructor
      · intro heq
        rw [if_pos (Option.some.inj heq).symm]
        exact ⟨_, rfl, htimer.symm⟩
      · rintro ⟨request, hrequest, heq⟩
        split_ifs at hrequest with hother
        · rw [hother]
        · have hissued := hwf.issued hrequest
          omega
    · rw [if_neg htimer, hwf.timers_iff]
      refine exists_congr fun request ↦ ?_
      by_cases hother : other = chunkIndex
      · rw [if_pos hother, hother, hfree]
        refine iff_of_false (by simp) fun ⟨hrequest, heq⟩ ↦ htimer ?_
        rw [← heq, ← Option.some.inj hrequest]
      · rw [if_neg hother]
  timers_lt timer other harmed := by
    change (state.timers.set state.nextTimer chunkIndex).get? timer = some other at harmed
    change timer < state.nextTimer + 1
    rw [OrderedMap.get?_set] at harmed
    split_ifs at harmed with htimer
    · omega
    · exact Nat.lt_succ_of_lt (hwf.timers_lt timer other harmed)
  inFlight_lt other request hrequest := by
    change (state.inFlight.set chunkIndex _).get? other = some request at hrequest
    rw [OrderedMap.get?_set] at hrequest
    split_ifs at hrequest with hother
    · rw [hother]
      exact hrange
    · exact hwf.inFlight_lt other request hrequest
  tasks_ok := hwf.tasks_ok
  fetched := hwf.fetched

theorem beginFetch (hwf : WellFormed state) {chunkIndex : ℕ} (now : ℕ)
    (hrange : chunkIndex < state.localBitfield.totalChunks) :
    WellFormed (state.beginFetch chunkIndex now) where
  timers_iff := hwf.timers_iff
  timers_lt := hwf.timers_lt
  inFlight_lt := hwf.inFlight_lt
  tasks_ok task hmem := by
    rcases List.mem_append.mp hmem with hold | hnew
    · exact hwf.tasks_ok task hold
    · rw [List.mem_singleton.mp hnew]
      exact ⟨hrange, fun h ↦ absurd h (by simp), fun _ _ _ h ↦ absurd h (by simp)⟩
  fetched other hother := by
    rcases Finset.mem_insert.mp hother with rfl | hold
    · exact ⟨_, List.mem_append_right _ (List.mem_singleton_self _), rfl, rfl⟩
    · obtain ⟨task, hmem, htask⟩ := hwf.fetched other hold
      exact ⟨task, List.mem_append_left _ hmem, htask⟩

theorem release (hwf : WellFormed state) {chunkIndex : ℕ} {request : InFlightRequest}
    (hrequest : state.inFlight.get? chunkIndex = some request) :
    WellFormed (Web.release chunkIndex request.timer state) where
  timers_iff timer other := by
    change (state.timers.delete request.timer).get? timer = some other ↔
      ∃ found, (state.inFlight.delete chunkIndex).get? other = some found ∧ found.timer = timer
    rw [OrderedMap.get?_delete, OrderedMap.get?_delete]
    by_cases htimer : timer = request.timer
    · rw [if_pos htimer]
      refine iff_of_false (by simp) fun ⟨found, hfound, heq⟩ ↦ ?_
      split_ifs at hfound with hother
      exact hother (hwf.timer_inj hfound hrequest (heq.trans htimer))
    · rw [if_neg htimer, hwf.timers_iff]
      refine exists_congr fun found ↦ ?_
      by_cases hother : other = chunkIndex
      · rw [if_pos hother, hother, hrequest]
        refine iff_of_false (fun ⟨hfound, heq⟩ ↦ htimer ?_) (by simp)
        rw [← heq, ← Option.some.inj hfound]
      · rw [if_neg hother]
  timers_lt timer other harmed := by
    change (state.timers.delete request.timer).get? timer = some other at harmed
    rw [OrderedMap.get?_delete] at harmed
    split_ifs at harmed
    exact hwf.timers_lt timer other harmed
  inFlight_lt other found hfound := by
    change (state.inFlight.delete chunkIndex).get? other = some found at hfound
    rw [OrderedMap.get?_delete] at hfound
    split_ifs at hfound
    exact hwf.inFlight_lt other found hfound
  tasks_ok := hwf.tasks_ok
  fetched := hwf.fetched

/-- Stopping disarms every timer. -/
theorem timers_stop (hwf : WellFormed state) (timer : ℕ) :
    (stop state).timers.get? timer = none := by
  change (state.inFlight.values.foldl (fun timers request ↦ timers.delete request.timer)
    state.timers).get? timer = none
  rw [OrderedMap.get?_foldl_delete InFlightRequest.timer]
  split_ifs with hmem
  · rfl
  · cases harmed : state.timers.get? timer with
    | none => rfl
    | some chunkIndex =>
      obtain ⟨request, hrequest, heq⟩ := (hwf.timers_iff timer chunkIndex).mp harmed
      exact absurd (List.mem_map.mpr ⟨request, OrderedMap.mem_values_iff.mpr ⟨_, hrequest⟩, heq⟩)
        hmem

theorem stop (hwf : WellFormed state) : WellFormed (Web.stop state) where
  timers_iff timer chunkIndex := by
    rw [hwf.timers_stop timer]
    exact iff_of_false (by simp) fun ⟨_, hrequest, _⟩ ↦ by simp [Web.stop] at hrequest
  timers_lt timer chunkIndex harmed := by
    rw [hwf.timers_stop timer] at harmed
    exact absurd harmed (by simp)
  inFlight_lt chunkIndex request hrequest := by simp [Web.stop] at hrequest
  tasks_ok := hwf.tasks_ok
  fetched := by simp [Web.stop]

/-- The tasks may change as long as they are what tasks may be and cover what is marked as being
fetched. -/
theorem of_tasks (hwf : WellFormed state) {next : SchedulerState σ}
    (htimers : next.timers = state.timers) (hnextTimer : next.nextTimer = state.nextTimer)
    (hinFlight : next.inFlight = state.inFlight) (hmanifest : next.manifest = state.manifest)
    (htotal : next.localBitfield.totalChunks = state.localBitfield.totalChunks)
    (htasks : ∀ task ∈ next.tasks, task.Ok state.manifest state.localBitfield.totalChunks)
    (hfetched : ∀ chunkIndex ∈ next.originInFlight,
      ∃ task ∈ next.tasks, task.chunkIndex = chunkIndex ∧ task.fromP2P = false) :
    WellFormed next where
  timers_iff := by rw [htimers, hinFlight]; exact hwf.timers_iff
  timers_lt := by rw [htimers, hnextTimer]; exact hwf.timers_lt
  inFlight_lt := by rw [hinFlight, htotal]; exact hwf.inFlight_lt
  tasks_ok := by rw [hmanifest, htotal]; exact htasks
  fetched := hfetched

/-- A task that moves on keeps the state well formed, whatever else of the state changes outside the
books. -/
theorem advance (hwf : WellFormed state) {middle : SchedulerState σ} {index : ℕ} {task : Task}
    (htask : state.tasks[index]? = some task) {stage : Stage}
    (hok : Task.Ok state.manifest state.localBitfield.totalChunks { task with stage := stage })
    (htimers : middle.timers = state.timers) (hnextTimer : middle.nextTimer = state.nextTimer)
    (hinFlight : middle.inFlight = state.inFlight) (hmanifest : middle.manifest = state.manifest)
    (htotal : middle.localBitfield.totalChunks = state.localBitfield.totalChunks)
    (horigin : middle.originInFlight = state.originInFlight) (htasks : middle.tasks = state.tasks) :
    WellFormed (Web.advance index task stage middle) := by
  have hmem : ∀ other, other ∈ (Web.advance index task stage middle).tasks ↔
      other = { task with stage := stage } ∨ other ∈ state.tasks.eraseIdx index := fun other ↦ by
    rw [mem_tasks_advance (by rw [htasks]; exact htask) stage other, htasks]
  refine hwf.of_tasks htimers hnextTimer hinFlight hmanifest htotal (fun other hother ↦ ?_)
    fun chunkIndex hchunk ↦ ?_
  · rcases (hmem other).mp hother with rfl | hrest
    · exact hok
    · exact hwf.tasks_ok other ((mem_tasks_iff htask other).mpr (Or.inr hrest))
  · obtain ⟨other, hother, hchunkOf, hp2p⟩ := hwf.fetched chunkIndex (horigin ▸ hchunk)
    rcases (mem_tasks_iff htask other).mp hother with rfl | hrest
    · exact ⟨_, (hmem _).mpr (Or.inl rfl), hchunkOf, hp2p⟩
    · exact ⟨other, (hmem other).mpr (Or.inr hrest), hchunkOf, hp2p⟩

/-- A task that ends keeps the state well formed when its mark goes with it. -/
theorem settle (hwf : WellFormed state) {index : ℕ} {task : Task} {marks : Finset ℕ}
    (htask : state.tasks[index]? = some task) (hmarks : marks ⊆ state.originInFlight)
    (hdropped : task.fromP2P = false → task.chunkIndex ∉ marks) :
    WellFormed { Web.settle index state with originInFlight := marks } := by
  refine hwf.of_tasks rfl rfl rfl rfl rfl (fun other hother ↦ ?_) fun chunkIndex hchunk ↦ ?_
  · exact hwf.tasks_ok other ((mem_tasks_iff htask other).mpr (Or.inr hother))
  · obtain ⟨other, hother, rfl, hp2p⟩ := hwf.fetched chunkIndex (hmarks hchunk)
    rcases (mem_tasks_iff htask other).mp hother with rfl | hrest
    · exact absurd hchunk (hdropped hp2p)
    · exact ⟨other, hrest, rfl, hp2p⟩

/-- A task stays what it may be when it comes to a stage of both paths. -/
theorem ok_of_stage (hwf : WellFormed state) {index : ℕ} {task : Task}
    (htask : state.tasks[index]? = some task) {stage : Stage} (hpath : stage.OnPeerPath)
    (hstage : ∀ expected data latencyMs, stage ≠ .verifying expected data latencyMs) :
    Task.Ok state.manifest state.localBitfield.totalChunks { task with stage := stage } where
  inRange := (hwf.tasks_ok task ((mem_tasks_iff htask task).mpr (Or.inl rfl))).inRange
  onPath _ := hpath
  expected expected data latencyMs h := absurd h (hstage expected data latencyMs)

variable {digest : Bytes → Bytes} {chunkStore : IChunkStore σ} {env : Env}
  {next : SchedulerState σ}

theorem move {strict : Prop} {chunkIndex : ℕ} (hwf : WellFormed state)
    (hmove : Move env strict chunkIndex state next) : WellFormed next := by
  cases hmove with
  | announce | offer => exact ⟨hwf.1, hwf.2, hwf.3, hwf.4, hwf.5⟩
  | request peerId retries hrange hmissing hfree => exact hwf.arm peerId retries _ hrange hfree
  | fetch hrange => exact hwf.beginFetch _ hrange

theorem moves {strict : Prop} {about : Set ℕ} (hwf : WellFormed state)
    (hmoves : Moves env strict about state next) : WellFormed next :=
  hmoves.keeps WellFormed (fun _ _ _ _ hmove hfirst ↦ hfirst.move hmove) hwf

/-- Every step keeps a state well formed. -/
theorem step (hwf : WellFormed state) (hstep : Step digest chunkStore env state next) :
    WellFormed next := by
  cases hstep with
  | move hmove => exact hwf.move hmove
  | books | report | begin => exact ⟨hwf.1, hwf.2, hwf.3, hwf.4, hwf.5⟩
  | halt => exact hwf.stop
  | release chunkIndex request hrequest => exact hwf.release hrequest
  | refetch chunkIndex hrange => exact hwf.beginFetch _ hrange
  | deliver chunkIndex stage hok hstage =>
    refine hwf.of_tasks rfl rfl rfl rfl rfl (fun task hmem ↦ ?_) fun other hother ↦ ?_
    · rcases List.mem_append.mp hmem with hold | hnew
      · exact hwf.tasks_ok task hold
      · rw [List.mem_singleton.mp hnew]
        exact hok
    · obtain ⟨task, hmem, htask⟩ := hwf.fetched other hother
      exact ⟨task, List.mem_append_left _ hmem, htask⟩
  | pass index task stage htask hpasses hok =>
    exact hwf.advance htask hok rfl rfl rfl rfl rfl rfl rfl
  | accept index task expected data latencyMs htask =>
    exact hwf.advance htask (hwf.ok_of_stage htask trivial (by simp)) rfl rfl rfl rfl rfl rfl rfl
  | write index task data latencyMs htask =>
    exact hwf.advance htask (hwf.ok_of_stage htask trivial (by simp)) rfl rfl rfl rfl rfl rfl rfl
  | mark index task data latencyMs bitfield error htask hstage hset =>
    exact hwf.of_tasks rfl rfl rfl rfl (Bitfield.totalChunks_of_set hset) hwf.tasks_ok hwf.fetched
  | complete index task data latencyMs bitfield haveMsg htask hstage hset =>
    exact hwf.advance htask (hwf.ok_of_stage htask trivial (by simp)) rfl rfl rfl rfl
      (Bitfield.totalChunks_of_set hset) rfl rfl
  | drop index task htask hpath =>
    exact hwf.settle htask (Finset.Subset.refl _) fun hnot ↦ by simp [hpath] at hnot
  | finish index task htask =>
    exact hwf.settle htask (Finset.erase_subset _ _) fun _ ↦ Finset.notMem_erase _ _

theorem steps (hwf : WellFormed state) (hsteps : Steps digest chunkStore env state next) :
    WellFormed next := by
  induction hsteps with
  | refl => exact hwf
  | tail _ hstep ih => exact ih.step hstep

end WellFormed

/-! ### Events as sequences of steps -/

section Events

variable {digest : Bytes → Bytes} {chunkStore : IChunkStore σ} {env : Env}
  {state next : SchedulerState σ}

theorem Moves.steps {strict : Prop} {about : Set ℕ} (hmoves : Moves env strict about state next) :
    Steps digest chunkStore env state next := by
  refine ReflTransGen.mono (fun first second hmove ↦ ?_) _ _ hmoves
  obtain ⟨chunkIndex, _, hmove⟩ := hmove
  refine Step.move (show Move env False chunkIndex first second from ?_)
  cases hmove with
  | announce hcomplete => exact .announce first hcomplete
  | offer peerId buffer sent hframe => exact .offer first peerId buffer sent hframe
  | request peerId retries hrange hmissing hfree hstrict =>
    exact .request first peerId retries hrange hmissing hfree False.elim
  | fetch hrange hmissing hfree hidle => exact .fetch first hrange hmissing hfree hidle

theorem scheduleNext_steps : Steps digest chunkStore env state (scheduleNext env state).1 :=
  (scheduleNext_moves env state).steps

theorem scheduleIfRunning_steps :
    Steps digest chunkStore env state (scheduleIfRunning env state).1 :=
  (scheduleIfRunning_moves env state).steps

/-- The origin fallback as a step, also for a chunk that is requested again meanwhile. -/
theorem dispatchOriginFallback_steps {chunkIndex : ℕ}
    (hrange : chunkIndex < state.localBitfield.totalChunks) :
    Steps digest chunkStore env state (dispatchOriginFallback env chunkIndex state).1 := by
  unfold dispatchOriginFallback
  split_ifs with hidle
  · exact ReflTransGen.refl
  · rw [not_or] at hidle
    exact ReflTransGen.single (.refetch state chunkIndex hrange (by simpa using hidle.1) hidle.2)

theorem start_steps : Steps digest chunkStore env state (start env state).1 := by
  unfold start
  split_ifs
  · exact ReflTransGen.refl
  · exact ReflTransGen.head (.begin state) scheduleNext_steps

theorem updatePeerBitfield_steps (peerId : String) (address : ℕ) :
    Steps digest chunkStore env state (updatePeerBitfield env peerId address state).1 :=
  ReflTransGen.head (.books state _ _ state.reassembly state.heap) scheduleIfRunning_steps

theorem peerBitfield_steps (peerId : String) :
    Steps digest chunkStore env state (peerBitfield peerId state).1 := by
  unfold peerBitfield
  split
  · exact ReflTransGen.refl
  · exact ReflTransGen.single (.books state _ state.peerChoked state.reassembly _)

theorem updatePeerHave_steps (peerId : String) (chunkIndex : ℕ) :
    Steps digest chunkStore env state (updatePeerHave env peerId chunkIndex state).1 := by
  unfold updatePeerHave
  refine (peerBitfield_steps peerId).trans ?_
  simp only
  split
  · exact ReflTransGen.refl
  · next bitfield _ =>
    exact ReflTransGen.head (.books _ (peerBitfield peerId state).1.peerBitfields
      (peerBitfield peerId state).1.peerChoked (peerBitfield peerId state).1.reassembly
      ((peerBitfield peerId state).1.heap.set (peerBitfield peerId state).2 bitfield))
      scheduleIfRunning_steps

theorem setPeerChoked_steps (peerId : String) (choked : Bool) :
    Steps digest chunkStore env state (setPeerChoked env peerId choked state).1 := by
  refine ReflTransGen.head (.books state state.peerBitfields (state.peerChoked.set peerId choked)
    state.reassembly state.heap) ?_
  unfold setPeerChoked
  simp only
  split_ifs
  · exact ReflTransGen.refl
  · exact scheduleIfRunning_steps

/-- Scheduling a chunk again whose request was released makes moves about this chunk only. -/
theorem reschedule_moves (env : Env) (hwf : WellFormed state) {chunkIndex : ℕ}
    {request : InFlightRequest} (hrequest : state.inFlight.get? chunkIndex = some request)
    (retries : ℕ) (calls : List Call) :
    Moves env False {chunkIndex} ((release chunkIndex request.timer state).log calls)
      (scheduleChunk env chunkIndex retries
        ((release chunkIndex request.timer state).log calls)).1 :=
  scheduleChunk_moves env retries (hwf.inFlight_lt chunkIndex request hrequest)
    (OrderedMap.get?_delete_self _ _) False.elim

/-- So does reassigning a request of the peer. -/
theorem reassign_moves (env : Env) (hwf : WellFormed state) {entry : ℕ × InFlightRequest}
    (hentry : state.inFlight.get? entry.1 = some entry.2) {peerId : String}
    (hpeer : entry.2.peerId = peerId) :
    Moves env False {entry.1} (release entry.1 entry.2.timer state)
      (reassign env peerId entry state).1 := by
  rw [reassign, if_pos hpeer, ← log_nil (release entry.1 entry.2.timer state)]
  exact reschedule_moves env hwf hentry _ []

/-- Reassigning one request leaves the others alone. -/
theorem reassign_keeps (env : Env) (hwf : WellFormed state) (peerId : String)
    {entry other : ℕ × InFlightRequest} (hentry : state.inFlight.get? entry.1 = some entry.2)
    (hother : other ≠ entry) (hkept : state.inFlight.get? other.1 = some other.2) :
    WellFormed (reassign env peerId entry state).1 ∧
      (reassign env peerId entry state).1.inFlight.get? other.1 = some other.2 := by
  have hne : other.1 ≠ entry.1 := by
    intro heq
    rw [heq, hentry, Option.some.injEq] at hkept
    exact hother (Prod.ext heq hkept.symm)
  by_cases hpeer : entry.2.peerId = peerId
  · have hmoves := reassign_moves env hwf hentry hpeer
    refine ⟨(hwf.release hentry).moves hmoves, ?_⟩
    rw [hmoves.get?_inFlight hne]
    exact (OrderedMap.get?_delete_of_ne _ hne).trans hkept
  · rw [reassign, if_neg hpeer]
    exact ⟨hwf, hkept⟩

/-- The loop of `removePeer` finds every request as it was when the loop began. -/
theorem reassign_loop_rel {R : SchedulerState σ → SchedulerState σ → Prop} [Std.Refl R]
    [IsTrans (SchedulerState σ) R] (hwf : WellFormed state) (peerId : String)
    (hbody : ∀ entry ∈ state.inFlight.entries, ∀ reached, WellFormed reached →
      reached.inFlight.get? entry.1 = some entry.2 →
        R reached (reassign env peerId entry reached).1) :
    R state (Action.forEach (reassign env peerId) state.inFlight.entries state).1 := by
  refine Action.forEach_rel_of_distinct id
    (fun entry reached ↦ WellFormed reached ∧ reached.inFlight.get? entry.1 = some entry.2)
    (by rw [List.map_id]; exact state.inFlight.nodup_keys.of_map _)
    (fun entry hentry reached hready ↦ hbody entry hentry reached hready.1 hready.2)
    (fun entry _ other hother reached hready hkept ↦ ?_)
    fun entry hentry ↦ ⟨hwf, OrderedMap.mem_entries_iff.mp hentry⟩
  exact reassign_keeps env hready.1 peerId hready.2 hother hkept.2

/-- The state in which this loop begins: the peer is no longer known. -/
def forget (peerId : String) (state : SchedulerState σ) : SchedulerState σ :=
  { state with
    peerBitfields := state.peerBitfields.delete peerId
    peerChoked := state.peerChoked.delete peerId }

theorem WellFormed.forget (hwf : WellFormed state) (peerId : String) :
    WellFormed (Web.forget peerId state) := ⟨hwf.1, hwf.2, hwf.3, hwf.4, hwf.5⟩

theorem removePeer_eq (env : Env) (peerId : String) (state : SchedulerState σ) :
    removePeer env peerId state =
      Action.andThen (Action.forEach (reassign env peerId) state.inFlight.entries)
        (scheduleIfRunning env) (forget peerId state) := rfl

theorem removePeer_steps (hwf : WellFormed state) (peerId : String) :
    Steps digest chunkStore env state (removePeer env peerId state).1 := by
  refine ReflTransGen.head (.books state (state.peerBitfields.delete peerId)
    (state.peerChoked.delete peerId) state.reassembly state.heap) ?_
  refine Action.andThen_rel ?_ fun _ ↦ scheduleIfRunning_steps
  refine reassign_loop_rel (hwf.forget peerId) peerId fun entry _ reached hreached hentry ↦ ?_
  by_cases hpeer : entry.2.peerId = peerId
  · exact ReflTransGen.head (.release reached entry.1 entry.2 hentry)
      (reassign_moves env hreached hentry hpeer).steps
  · rw [reassign, if_neg hpeer]

theorem handleTimeout_steps (hwf : WellFormed state) {chunkIndex timer : ℕ}
    (htimer : state.timers.get? timer = some chunkIndex) :
    Steps digest chunkStore env state (handleTimeout env chunkIndex timer state).1 := by
  obtain ⟨request, hrequest, rfl⟩ := (hwf.timers_iff timer chunkIndex).mp htimer
  simp only [handleTimeout, hrequest]
  refine ReflTransGen.head (.release state chunkIndex request hrequest) ?_
  refine ReflTransGen.head (.report _ (.onRetry chunkIndex request.peerId) trivial) ?_
  exact Action.andThen_rel (reschedule_moves env hwf hrequest _ _).steps fun _ ↦
    scheduleNext_steps

/-- What the first part of `verifyAndStoreChunk` leaves to do. -/
theorem verifyAndStoreChunk_cases (chunkIndex : ℕ) (data : Bytes) (latencyMs : ℕ)
    (state : SchedulerState σ) :
    (∃ expected, expectedHash state.manifest chunkIndex = some expected ∧
      verifyAndStoreChunk chunkIndex data latencyMs state =
        (state, .verifying expected data latencyMs)) ∨
    (expectedHash state.manifest chunkIndex = none ∧ ∃ message,
      verifyAndStoreChunk chunkIndex data latencyMs state =
        (state.log [.onError message], .returned)) := by
  unfold verifyAndStoreChunk
  cases hexpected : expectedHash state.manifest chunkIndex with
  | none => exact Or.inr ⟨rfl, _, rfl⟩
  | some expected => exact Or.inl ⟨expected, rfl, rfl⟩

/-- The task of a completed piece is what a task may be. -/
private theorem ok_verifying {manifest : ResourceManifest} {totalChunks chunkIndex : ℕ}
    {fromP2P : Bool} {expected : String} (hrange : chunkIndex < totalChunks)
    (hexpected : expectedHash manifest chunkIndex = some expected) (data : Bytes) (latencyMs : ℕ) :
    Task.Ok manifest totalChunks ⟨chunkIndex, fromP2P, .verifying expected data latencyMs⟩ where
  inRange := hrange
  onPath _ := trivial
  expected other _ _ heq := by
    rw [Stage.verifying.injEq] at heq
    rw [← heq.1]
    exact hexpected

theorem completePiece_steps (hwf : WellFormed state) {chunkIndex : ℕ} {request : InFlightRequest}
    (hrequest : state.inFlight.get? chunkIndex = some request) (item : ChunkReassembly) :
    Steps digest chunkStore env state (completePiece env chunkIndex request item state).1 := by
  have hrange := hwf.inFlight_lt chunkIndex request hrequest
  unfold completePiece
  refine ReflTransGen.head (.release state chunkIndex request hrequest) ?_
  split
  · exact ReflTransGen.refl
  · next assembled _ =>
    rcases verifyAndStoreChunk_cases chunkIndex assembled (pieceLatency env request)
      (release chunkIndex request.timer state) with ⟨expected, hexpected, heq⟩ | ⟨_, message, heq⟩
    · simp only [heq]
      exact ReflTransGen.single (.deliver _ chunkIndex _ (ok_verifying hrange hexpected _ _)
        (Or.inl ⟨_, _, _, rfl⟩))
    · simp only [heq]
      refine ReflTransGen.head (.report _ (.onError message) trivial) ?_
      exact ReflTransGen.single (.deliver _ chunkIndex _
        ⟨hrange, fun _ ↦ trivial, fun _ _ _ h ↦ absurd h (by simp)⟩ (Or.inr rfl))

theorem handlePiece_steps (hwf : WellFormed state) (chunkIndex beginOffset totalLength : ℕ)
    (data : Bytes) :
    Steps digest chunkStore env state
      (handlePiece env chunkIndex beginOffset totalLength data state).1 := by
  unfold handlePiece
  split
  · exact ReflTransGen.refl
  · next request hrequest =>
    simp only
    split_ifs
    · exact completePiece_steps hwf hrequest _
    · exact ReflTransGen.single (.books state state.peerBitfields state.peerChoked _ state.heap)

/-- After a throw the task ends on the path of a piece and is caught on the origin path. -/
theorem reject_steps (hwf : WellFormed state) {index : ℕ} {task : Task}
    (htask : state.tasks[index]? = some task) (error : String)
    (hpasses : task.stage.Passes (.rejected error)) :
    Steps digest chunkStore env state (reject index task error state) := by
  unfold reject
  split_ifs with hpath
  · exact ReflTransGen.single (.drop state index task htask hpath)
  · have hin := (hwf.tasks_ok task ((mem_tasks_iff htask task).mpr (Or.inl rfl))).inRange
    exact ReflTransGen.single (.pass state index task _ htask hpasses
      ⟨hin, fun h ↦ absurd h hpath, fun _ _ _ h ↦ absurd h (by simp)⟩)

/-- What the origin fallback leaves alone. -/
theorem dispatchOriginFallback_keeps (chunkIndex : ℕ) {index : ℕ} {task : Task}
    (htask : state.tasks[index]? = some task) :
    (dispatchOriginFallback env chunkIndex state).1.tasks[index]? = some task ∧
      (dispatchOriginFallback env chunkIndex state).1.manifest = state.manifest ∧
      (dispatchOriginFallback env chunkIndex state).1.localBitfield = state.localBitfield := by
  unfold dispatchOriginFallback
  split_ifs
  · exact ⟨htask, rfl, rfl⟩
  · refine ⟨?_, rfl, rfl⟩
    obtain ⟨hindex, _⟩ := List.getElem?_eq_some_iff.mp htask
    exact (List.getElem?_append_left hindex).trans htask

theorem corruptionCalls_steps (chunkIndex : ℕ) (expected actualHash : String) :
    Steps digest chunkStore env state
      (state.log (corruptionCalls chunkIndex expected actualHash)) := by
  rw [corruptionCalls, log_pair]
  exact ReflTransGen.head (.report state (.onCorruption chunkIndex expected actualHash) trivial)
    (ReflTransGen.single (.report _ (.onError _) trivial))

/-- Verified bytes are handed to the store, others are discarded and fetched. -/
theorem afterVerify_steps (hwf : WellFormed state) {index : ℕ} {task : Task}
    (htask : state.tasks[index]? = some task) {expected : String} {data : Bytes} {latencyMs : ℕ}
    (hstage : task.stage = .verifying expected data latencyMs) :
    Steps digest chunkStore env state
      (advance index task (afterVerify digest env task.chunkIndex expected data latencyMs state).2
        (afterVerify digest env task.chunkIndex expected data latencyMs state).1) := by
  have hok := hwf.tasks_ok task ((mem_tasks_iff htask task).mpr (Or.inl rfl))
  unfold afterVerify
  simp only
  split_ifs with hvalid
  · -- the bytes are corrupt: two reports, the fallback, and the task has nothing more to do
    refine (corruptionCalls_steps task.chunkIndex expected
      (verify digest data expected).actualHash).trans ?_
    have hreported : (state.log (corruptionCalls task.chunkIndex expected
        (verify digest data expected).actualHash)).tasks[index]? = some task := htask
    have hrange : task.chunkIndex < (state.log (corruptionCalls task.chunkIndex expected
        (verify digest data expected).actualHash)).localBitfield.totalChunks := hok.inRange
    refine (dispatchOriginFallback_steps hrange).trans ?_
    obtain ⟨htaskAfter, hmanifest, hbitfield⟩ :=
      dispatchOriginFallback_keeps task.chunkIndex hreported
    refine ReflTransGen.single (.pass _ index task .returned htaskAfter ?_ ?_)
    · rw [hstage]
      exact .refused expected data latencyMs
    · rw [hmanifest, hbitfield]
      exact hwf.ok_of_stage htask trivial (by simp)
  · exact ReflTransGen.single (.accept state index task expected data latencyMs htask hstage
      ⟨expected, hok.expected _ _ _ hstage, by simpa using hvalid⟩)

/-- What the last part of `verifyAndStoreChunk` does: the chunk is marked and announced, or the
index is out of range, or the id does not fit a HAVE frame. -/
theorem afterPut_cases (chunkIndex : ℕ) (fromP2P : Bool) (data : Bytes) (latencyMs : ℕ)
    (state : SchedulerState σ) :
    (∃ bitfield haveMsg, state.localBitfield.set chunkIndex = .ok bitfield ∧
      encodeHave state.resourceId chunkIndex = .ok haveMsg ∧
      afterPut chunkIndex fromP2P data latencyMs state =
        (({ state with localBitfield := bitfield } : SchedulerState σ).log
          (completionCalls state.manifest bitfield haveMsg chunkIndex fromP2P data.length
            latencyMs),
          none)) ∨
    (∃ error, afterPut chunkIndex fromP2P data latencyMs state = (state, some error) ∧
      state.localBitfield.set chunkIndex = .error error) ∨
    ∃ bitfield error, state.localBitfield.set chunkIndex = .ok bitfield ∧
      encodeHave state.resourceId chunkIndex = .error error ∧
      afterPut chunkIndex fromP2P data latencyMs state =
        ({ state with localBitfield := bitfield }, some error) := by
  unfold afterPut
  cases hset : state.localBitfield.set chunkIndex with
  | error error => exact Or.inr (Or.inl ⟨error, rfl, rfl⟩)
  | ok bitfield =>
    simp only
    cases hhave : encodeHave state.resourceId chunkIndex with
    | error error =>
      refine Or.inr (Or.inr ⟨bitfield, error, rfl, rfl, ?_⟩)
      rw [show encodeHave (SchedulerState.resourceId { state with localBitfield := bitfield })
        chunkIndex = .error error from hhave]
    | ok haveMsg =>
      refine Or.inl ⟨bitfield, haveMsg, rfl, rfl, ?_⟩
      rw [show encodeHave (SchedulerState.resourceId { state with localBitfield := bitfield })
        chunkIndex = .ok haveMsg from hhave]

/-- A chunk of the download whose id fits the frame is marked and announced. -/
theorem afterPut_completes {chunkIndex : ℕ} (hrange : chunkIndex < state.localBitfield.totalChunks)
    (hfits : FitsHeader state.resourceId) (fromP2P : Bool) (data : Bytes) (latencyMs : ℕ) :
    ∃ bitfield haveMsg, state.localBitfield.set chunkIndex = .ok bitfield ∧
      encodeHave state.resourceId chunkIndex = .ok haveMsg ∧
      afterPut chunkIndex fromP2P data latencyMs state =
        (({ state with localBitfield := bitfield } : SchedulerState σ).log
          (completionCalls state.manifest bitfield haveMsg chunkIndex fromP2P data.length
            latencyMs),
          none) := by
  rcases afterPut_cases chunkIndex fromP2P data latencyMs state with
    hcompleted | ⟨error, _, hset⟩ | ⟨_, error, _, hhave, _⟩
  · exact hcompleted
  · obtain ⟨bitfield, hbitfield⟩ := Bitfield.set_isOk_iff.mpr hrange
    rw [hset] at hbitfield
    exact absurd hbitfield (by simp)
  · rw [encodeHave, encodeChunkIndex_eq hfits] at hhave
    exact absurd hhave (by simp)

theorem afterPut_steps (hwf : WellFormed state) {index : ℕ} {task : Task}
    (htask : state.tasks[index]? = some task) {data : Bytes} {latencyMs : ℕ}
    (hstage : task.stage = .putting data latencyMs true) :
    Steps digest chunkStore env state
      (afterStore index task (afterPut task.chunkIndex task.fromP2P data latencyMs state)) := by
  have hpasses : ∀ error, task.stage.Passes (.rejected error) := fun error ↦ by
    rw [hstage]
    exact .putFailed data latencyMs true error
  rcases afterPut_cases task.chunkIndex task.fromP2P data latencyMs state with
    ⟨bitfield, haveMsg, hset, hhave, heq⟩ | ⟨error, heq, _⟩ | ⟨bitfield, error, hset, hhave, heq⟩
  · rw [heq]
    exact ReflTransGen.single
      (.complete state index task data latencyMs bitfield haveMsg htask hstage hset hhave)
  · rw [heq]
    exact reject_steps hwf htask _ (hpasses _)
  · have hmark : Step digest chunkStore env state { state with localBitfield := bitfield } :=
      .mark state index task data latencyMs bitfield error htask hstage hset hhave
    rw [heq]
    exact ReflTransGen.head hmark (reject_steps (hwf.step hmark) htask _ (hpasses _))

/-- The end of a task. -/
theorem finish_steps {index : ℕ} {task : Task} (htask : state.tasks[index]? = some task)
    (hstage : task.stage = .returned) :
    Steps digest chunkStore env state (finish env index task state) := by
  unfold finish
  simp only
  split_ifs with hpath
  · exact ReflTransGen.head (.drop state index task htask hpath) scheduleIfRunning_steps
  · exact ReflTransGen.head (.finish state index task htask hstage (by simpa using hpath))
      scheduleIfRunning_steps

/-- A task goes on in small steps. -/
theorem continueTask_steps (hwf : WellFormed state) {index : ℕ} {task : Task}
    (htask : state.tasks[index]? = some task) (settlement : Settlement) :
    Steps digest chunkStore env state
      (continueTask digest chunkStore env index task settlement state) := by
  have hok := hwf.tasks_ok task ((mem_tasks_iff htask task).mpr (Or.inl rfl))
  have htransition := continueTask_transition digest chunkStore env index task settlement state
  generalize continueTask digest chunkStore env index task settlement state = next
    at htransition ⊢
  cases htransition with
  | ignored => exact ReflTransGen.refl
  | fetched fetchStart data hstage =>
    rcases verifyAndStoreChunk_cases task.chunkIndex data (latencySince env fetchStart) state with
      ⟨expected, hexpected, heq⟩ | ⟨_, message, heq⟩
    · rw [heq]
      refine ReflTransGen.single (.pass state index task _ htask ?_
        (ok_verifying hok.inRange hexpected data _))
      rw [hstage]
      exact .arrived fetchStart expected data _
    · rw [heq]
      refine ReflTransGen.head (.report state (.onError message) trivial) ?_
      refine ReflTransGen.single (.pass _ index task _ htask ?_
        (hwf.ok_of_stage htask trivial (by simp)))
      rw [hstage]
      exact .unexpected fetchStart
  | fetchFailed fetchStart error hstage =>
    have hpath : task.fromP2P = false := by
      by_contra hp2p
      have hpath := hok.onPath (by simpa using hp2p)
      rw [hstage] at hpath
      exact hpath
    refine ReflTransGen.single (.pass state index task _ htask ?_
      ⟨hok.inRange, fun h ↦ by simp [hpath] at h, fun _ _ _ h ↦ absurd h (by simp)⟩)
    rw [hstage]
    exact .failed fetchStart error
  | verified expected data latencyMs hstage => exact afterVerify_steps hwf htask hstage
  | verifyFailed expected data latencyMs error hstage =>
    refine reject_steps hwf htask error ?_
    rw [hstage]
    exact .verifyFailed expected data latencyMs error
  | written data latencyMs hstage =>
    exact ReflTransGen.single (.write state index task data latencyMs htask hstage)
  | putDone data latencyMs hstage => exact afterPut_steps hwf htask hstage
  | putFailed data latencyMs done error hstage =>
    refine reject_steps hwf htask error ?_
    rw [hstage]
    exact .putFailed data latencyMs done error
  | caught error hstage =>
    refine ReflTransGen.head
      (.report state (.onError (originFailure task.chunkIndex error)) trivial) ?_
    refine ReflTransGen.single (.pass _ index task _ htask ?_
      (hwf.ok_of_stage htask trivial (by simp)))
    rw [hstage]
    exact .caught error
  | finished hstage => exact finish_steps htask hstage

/-- Every event is a sequence of small steps. -/
theorem perform_steps (hwf : WellFormed state) (event : SchedulerEvent) :
    Steps digest chunkStore env state (perform digest chunkStore env event state).1 := by
  cases event with
  | start => exact start_steps
  | stop => exact ReflTransGen.single (.halt state)
  | updatePeerBitfield peerId address => exact updatePeerBitfield_steps peerId address
  | updatePeerHave peerId chunkIndex => exact updatePeerHave_steps peerId chunkIndex
  | setPeerChoked peerId choked => exact setPeerChoked_steps peerId choked
  | removePeer peerId => exact removePeer_steps hwf peerId
  | scheduleNext => exact scheduleNext_steps
  | handlePiece chunkIndex beginOffset totalLength data =>
    exact handlePiece_steps hwf chunkIndex beginOffset totalLength data
  | timeout timer =>
    simp only [perform]
    split
    · next chunkIndex htimer => exact handleTimeout_steps hwf htimer
    · exact ReflTransGen.refl
  | settled index settlement =>
    simp only [perform]
    split
    · next task htask => exact continueTask_steps hwf htask settlement
    · exact ReflTransGen.refl
  | shared heap =>
    exact ReflTransGen.single
      (.books state state.peerBitfields state.peerChoked state.reassembly heap)

end Events

/-- One step of a run keeps a state well formed and its manifest. -/
theorem schedulerStep_wellFormed {digest : Bytes → Bytes} {chunkStore : IChunkStore σ}
    {state : SchedulerState σ} (hwf : WellFormed state) (input : SchedulerInput) :
    WellFormed (schedulerStep digest chunkStore state input) ∧
      (schedulerStep digest chunkStore state input).manifest = state.manifest := by
  have hsteps : Steps digest chunkStore input.1 state
      (schedulerStep digest chunkStore state input) := perform_steps hwf input.2
  refine ⟨hwf.steps hsteps, ?_⟩
  generalize schedulerStep digest chunkStore state input = next at hsteps
  induction hsteps with
  | refl => rfl
  | tail _ hstep ih => exact hstep.manifest_totalChunks.1.trans ih

/-- What every small step keeps holds after every run. -/
theorem run_of_step {digest : Bytes → Bytes} {chunkStore : IChunkStore σ}
    (Inv : SchedulerState σ → Prop)
    (hkeeps : ∀ env (state next : SchedulerState σ), WellFormed state → Inv state →
      Step digest chunkStore env state next → Inv next)
    {state : SchedulerState σ} (hwf : WellFormed state) (hinv : Inv state)
    (inputs : List SchedulerInput) :
    WellFormed (run (schedulerStep digest chunkStore) state inputs) ∧
      Inv (run (schedulerStep digest chunkStore) state inputs) := by
  refine run_invariant_of_step (fun reached ↦ WellFormed reached ∧ Inv reached)
    (fun reached input h ↦ ?_) ⟨hwf, hinv⟩ inputs
  have hsteps : Steps digest chunkStore input.1 reached
      (schedulerStep digest chunkStore reached input) := perform_steps h.1 input.2
  generalize schedulerStep digest chunkStore reached input = next at hsteps
  induction hsteps with
  | refl => exact h
  | tail _ hstep ih => exact ⟨ih.1.step hstep, hkeeps input.1 _ _ ih.1 ih.2 hstep⟩

/-- Every reachable state is well formed. -/
theorem schedulerRun_wellFormed (digest : Bytes → Bytes) (chunkStore : IChunkStore σ)
    (manifest : ResourceManifest) (localBitfield : Bitfield) (heap : List Bitfield) (store : σ)
    (inputs : List SchedulerInput) :
    WellFormed (schedulerRun digest chunkStore manifest localBitfield heap store inputs) :=
  run_invariant_of_step WellFormed (fun _ input hwf ↦ (schedulerStep_wellFormed hwf input).1)
    (wellFormed_new manifest localBitfield heap store) inputs

/-- A run keeps the manifest and the number of chunks. -/
theorem schedulerRun_manifest_totalChunks (digest : Bytes → Bytes) (chunkStore : IChunkStore σ)
    (manifest : ResourceManifest) (localBitfield : Bitfield) (heap : List Bitfield) (store : σ)
    (inputs : List SchedulerInput) :
    (schedulerRun digest chunkStore manifest localBitfield heap store inputs).manifest = manifest ∧
      (schedulerRun digest chunkStore manifest localBitfield heap store
        inputs).localBitfield.totalChunks = localBitfield.totalChunks := by
  refine (run_of_step (fun reached ↦ reached.manifest = manifest ∧
    reached.localBitfield.totalChunks = localBitfield.totalChunks) (fun _ _ _ _ hinv hstep ↦ ?_)
    (wellFormed_new manifest localBitfield heap store) ⟨rfl, rfl⟩ inputs).2
  obtain ⟨hmanifest, htotal⟩ := hstep.manifest_totalChunks
  exact ⟨hmanifest.trans hinv.1, htotal.trans hinv.2⟩

end CampusMesh.Web
