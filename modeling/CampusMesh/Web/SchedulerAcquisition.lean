import CampusMesh.Web.SchedulerProgress

/-!
# Acquisitions of a chunk

A chunk is at any time in at most one of four situations: marked in the bitfield, requested from a
peer, being fetched from the origin, or received and awaiting verification or storage. `situations`
counts them; a fetch is counted until it settles, and what it delivers is counted as received from
then on. `SingleAcquisition` is the promise, and `Exclusive` the invariant behind it, with a lemma
for every change of the books: requests, fetches, tasks that begin, move on and end.
-/

set_option autoImplicit false
set_option relaxedAutoImplicit false

namespace CampusMesh.Web

open Library Shared SchedulerState

variable {σ : Type}

/-! ### Counting -/

/-- Waiting for `fetchFromOrigin`. -/
def Stage.isFetching : Stage → Bool
  | .fetching _ => true
  | _ => false

/-- Received, and waiting for verification or storage. -/
def Stage.isAwaiting : Stage → Bool
  | .verifying _ _ _ | .putting _ _ _ => true
  | _ => false

/-- On the way to the store. -/
def Stage.isAcquiring (stage : Stage) : Bool := stage.isFetching || stage.isAwaiting

/-- How many tasks about a chunk have a property. -/
def countTasks (property : Task → Bool) (chunkIndex : ℕ) (tasks : List Task) : ℕ :=
  tasks.countP fun task ↦ decide (task.chunkIndex = chunkIndex) && property task

/-- Whether a task has a property and is about a chunk, as a number. -/
def indicator (property : Task → Bool) (chunkIndex : ℕ) (task : Task) : ℕ :=
  if task.chunkIndex = chunkIndex ∧ property task = true then 1 else 0

section CountTasks

variable (property : Task → Bool) (chunkIndex : ℕ) {index : ℕ} {tasks : List Task} {task : Task}

@[simp] theorem countTasks_nil : countTasks property chunkIndex [] = 0 := rfl

theorem countTasks_cons : countTasks property chunkIndex (task :: tasks) =
    countTasks property chunkIndex tasks + indicator property chunkIndex task := by
  unfold countTasks indicator
  rw [List.countP_cons]
  simp only [Bool.and_eq_true, decide_eq_true_eq]

theorem countTasks_append_singleton : countTasks property chunkIndex (tasks ++ [task]) =
    countTasks property chunkIndex tasks + indicator property chunkIndex task := by
  have hperm : (tasks ++ [task]).Perm (task :: tasks) := List.perm_append_singleton task tasks
  rw [← countTasks_cons]
  exact hperm.countP_eq _

theorem countTasks_eraseIdx (htask : tasks[index]? = some task) :
    countTasks property chunkIndex (tasks.eraseIdx index) + indicator property chunkIndex task =
      countTasks property chunkIndex tasks := by
  rw [← countTasks_cons]
  exact ((perm_of_getElem? htask).countP_eq _).symm

theorem countTasks_set (htask : tasks[index]? = some task) (next : Task) :
    countTasks property chunkIndex (tasks.set index next) + indicator property chunkIndex task =
      countTasks property chunkIndex tasks + indicator property chunkIndex next := by
  rw [← countTasks_eraseIdx property chunkIndex htask]
  have hset : countTasks property chunkIndex (tasks.set index next) =
      countTasks property chunkIndex (tasks.eraseIdx index) +
        indicator property chunkIndex next := by
    rw [← countTasks_cons]
    exact (perm_set_of_getElem? htask next).countP_eq _
  omega

theorem countTasks_eq_zero_iff : countTasks property chunkIndex tasks = 0 ↔
    ∀ task ∈ tasks, task.chunkIndex = chunkIndex → property task = false := by
  rw [countTasks, List.countP_eq_zero]
  simp

/-- A task in the list is counted. -/
theorem countTasks_pos (hmem : task ∈ tasks) (hproperty : property task = true) :
    0 < countTasks property task.chunkIndex tasks :=
  List.countP_pos_iff.mpr ⟨task, hmem, by simp [hproperty]⟩

end CountTasks

/-- The tasks that are acquiring a chunk. -/
def acquisitions (chunkIndex : ℕ) (tasks : List Task) : ℕ :=
  countTasks (fun task ↦ task.stage.isAcquiring) chunkIndex tasks

/-- The tasks of the origin path about a chunk. -/
def originTasks (chunkIndex : ℕ) (tasks : List Task) : ℕ :=
  countTasks (fun task ↦ !task.fromP2P) chunkIndex tasks

/-- An acquiring task is fetching or awaiting. -/
theorem acquisitions_eq (chunkIndex : ℕ) (tasks : List Task) :
    acquisitions chunkIndex tasks =
      countTasks (fun task ↦ task.stage.isFetching) chunkIndex tasks +
        countTasks (fun task ↦ task.stage.isAwaiting) chunkIndex tasks := by
  induction tasks with
  | nil => rfl
  | cons task rest ih =>
    rw [acquisitions] at ih ⊢
    rw [countTasks_cons, countTasks_cons, countTasks_cons, ih]
    have hsplit : indicator (fun task ↦ task.stage.isAcquiring) chunkIndex task =
        indicator (fun task ↦ task.stage.isFetching) chunkIndex task +
          indicator (fun task ↦ task.stage.isAwaiting) chunkIndex task := by
      obtain ⟨other, fromP2P, stage⟩ := task
      cases stage <;> simp [indicator, Stage.isAcquiring, Stage.isFetching, Stage.isAwaiting]
    omega

/-- In how many situations a chunk is: marked, requested, being fetched, or awaiting verification
or storage, each counted as often as it occurs. -/
def situations (state : SchedulerState σ) (chunkIndex : ℕ) : ℕ :=
  (state.localBitfield.has chunkIndex).toNat + (state.inFlight.has chunkIndex).toNat +
    countTasks (fun task ↦ task.stage.isFetching) chunkIndex state.tasks +
    countTasks (fun task ↦ task.stage.isAwaiting) chunkIndex state.tasks

/-- No bytes of a chunk that came from a peer await verification or storage. -/
def NotDelivered (chunkIndex : ℕ) (tasks : List Task) : Prop :=
  ∀ task ∈ tasks, task.chunkIndex = chunkIndex → task.fromP2P = true →
    task.stage.isAwaiting = false

/-- Nothing awaits of a chunk that no task is acquiring. -/
theorem notDelivered_of_quiet {chunkIndex : ℕ} {tasks : List Task}
    (hquiet : acquisitions chunkIndex tasks = 0) : NotDelivered chunkIndex tasks := by
  intro task hmem hchunk _
  have hidle := (countTasks_eq_zero_iff _ _).mp hquiet task hmem hchunk
  rw [Stage.isAcquiring, Bool.or_eq_false_iff] at hidle
  exact hidle.2

theorem NotDelivered.append {chunkIndex : ℕ} {tasks : List Task}
    (hnone : NotDelivered chunkIndex tasks) {task : Task}
    (htask : task.chunkIndex = chunkIndex → task.fromP2P = true → task.stage.isAwaiting = false) :
    NotDelivered chunkIndex (tasks ++ [task]) := by
  intro other hmem
  rcases List.mem_append.mp hmem with hold | hnew
  · exact hnone other hold
  · rw [List.mem_singleton.mp hnew]
    exact htask

/-- The call reports the completion of a chunk. -/
def Call.completes (chunkIndex : ℕ) : Call → Bool
  | .onChunkCompleted other _ _ _ => other = chunkIndex
  | _ => false

/-- The call reports the completion of some chunk. -/
def Call.isCompletion : Call → Bool
  | .onChunkCompleted _ _ _ _ => true
  | _ => false

/-- The promise: each chunk in at most one situation, its completion reported at most once, and as
many reports as chunks marked since construction. A running scheduler has every chunk that is being
fetched in `originInFlight`; a chunk there is not requested, and no peer's delivery of it awaits. -/
structure SingleAcquisition (initial : Bitfield) (state : SchedulerState σ) : Prop where
  situation : ∀ chunkIndex, situations state chunkIndex ≤ 1
  fetching : state.isRunning = true → ∀ task ∈ state.tasks, task.stage.isFetching = true →
    task.chunkIndex ∈ state.originInFlight
  origin : ∀ chunkIndex ∈ state.originInFlight, state.inFlight.has chunkIndex = false ∧
    NotDelivered chunkIndex state.tasks
  once : ∀ chunkIndex, state.calls.countP (Call.completes chunkIndex) ≤ 1
  count : state.calls.countP Call.isCompletion + initial.count = state.localBitfield.count

/-! ### The invariant -/

/-- The invariant behind single acquisition. While the scheduler is running, a chunk is marked as
being fetched exactly when one task of the origin path is about it. -/
structure Exclusive (initial : Bitfield) (state : SchedulerState σ) : Prop where
  single : ∀ chunkIndex, (state.localBitfield.has chunkIndex).toNat +
    (state.inFlight.has chunkIndex).toNat + acquisitions chunkIndex state.tasks ≤ 1
  marked : state.isRunning = true → ∀ chunkIndex, originTasks chunkIndex state.tasks =
    (decide (chunkIndex ∈ state.originInFlight)).toNat
  apart : ∀ chunkIndex ∈ state.originInFlight, state.inFlight.has chunkIndex = false
  delivered : ∀ chunkIndex ∈ state.originInFlight, NotDelivered chunkIndex state.tasks
  completed : ∀ chunkIndex, state.calls.countP (Call.completes chunkIndex) +
    (initial.has chunkIndex).toNat = (state.localBitfield.has chunkIndex).toNat
  count : state.calls.countP Call.isCompletion + initial.count = state.localBitfield.count

namespace Exclusive

variable {initial : Bitfield} {state : SchedulerState σ}

theorem singleAcquisition (hwf : WellFormed state) (hinv : Exclusive initial state) :
    SingleAcquisition initial state where
  situation chunkIndex := by
    have hsingle := hinv.single chunkIndex
    rw [acquisitions_eq] at hsingle
    unfold situations
    omega
  fetching hrunning task hmem hfetching := by
    have hpath : task.fromP2P = false := by
      by_contra hp2p
      have hpath := (hwf.tasks_ok task hmem).onPath (by simpa using hp2p)
      obtain ⟨_, _, stage⟩ := task
      cases stage <;> first | exact hpath | exact absurd hfetching (by simp [Stage.isFetching])
    have hpos := countTasks_pos (fun task ↦ !task.fromP2P) hmem (by simp [hpath])
    have hmarked := hinv.marked hrunning task.chunkIndex
    by_contra hunmarked
    rw [originTasks, decide_eq_false hunmarked, Bool.toNat_false] at hmarked
    omega
  origin chunkIndex hmem := ⟨hinv.apart chunkIndex hmem, hinv.delivered chunkIndex hmem⟩
  once chunkIndex := by
    have hcompleted := hinv.completed chunkIndex
    have hle := Bool.toNat_le (state.localBitfield.has chunkIndex)
    omega
  count := hinv.count

/-- The new scheduler. -/
theorem new (manifest : ResourceManifest) (localBitfield : Bitfield) (heap : List Bitfield)
    (store : σ) :
    Exclusive localBitfield (SchedulerState.new manifest localBitfield heap store) where
  single chunkIndex := by
    have hle := Bool.toNat_le (localBitfield.has chunkIndex)
    simpa [SchedulerState.new, ChunkScheduler.new, acquisitions] using hle
  marked hrunning := by simp [SchedulerState.new, ChunkScheduler.new] at hrunning
  apart chunkIndex hmem := by simp [SchedulerState.new, ChunkScheduler.new] at hmem
  delivered chunkIndex hmem := by simp [SchedulerState.new, ChunkScheduler.new] at hmem
  completed chunkIndex := by simp [SchedulerState.new, ChunkScheduler.new]
  count := by simp [SchedulerState.new, ChunkScheduler.new]

/-- Changes outside the books, with new calls that report no completion. -/
theorem log (hinv : Exclusive initial state) {calls : List Call}
    (hcalls : ∀ call ∈ calls, call.isCompletion = false) :
    Exclusive initial (state.log calls) where
  single := hinv.single
  marked := hinv.marked
  apart := hinv.apart
  delivered := hinv.delivered
  completed chunkIndex := by
    have hnone : calls.countP (Call.completes chunkIndex) = 0 := by
      rw [List.countP_eq_zero]
      intro call hmem
      have hno := hcalls call hmem
      cases call <;> simp [Call.completes, Call.isCompletion] at hno ⊢
    change (state.calls ++ calls).countP _ + _ = _
    rw [List.countP_append, hnone, Nat.add_zero]
    exact hinv.completed chunkIndex
  count := by
    have hnone : calls.countP Call.isCompletion = 0 := by
      rw [List.countP_eq_zero]
      exact fun call hmem ↦ by simp [hcalls call hmem]
    change (state.calls ++ calls).countP _ + _ = _
    rw [List.countP_append, hnone, Nat.add_zero]
    exact hinv.count

/-- A requested chunk is in no other situation. -/
theorem of_requested (hinv : Exclusive initial state) {chunkIndex : ℕ} {request : InFlightRequest}
    (hrequest : state.inFlight.get? chunkIndex = some request) :
    state.localBitfield.has chunkIndex = false ∧ acquisitions chunkIndex state.tasks = 0 ∧
      chunkIndex ∉ state.originInFlight := by
  have hsingle := hinv.single chunkIndex
  have hhas : state.inFlight.has chunkIndex = true :=
    OrderedMap.has_iff_exists.mpr ⟨request, hrequest⟩
  rw [hhas, Bool.toNat_true] at hsingle
  refine ⟨?_, by omega, fun hmem ↦ ?_⟩
  · by_contra hmarked
    rw [Bool.not_eq_false] at hmarked
    rw [hmarked, Bool.toNat_true] at hsingle
    omega
  · rw [hinv.apart chunkIndex hmem] at hhas
    exact absurd hhas (by simp)

theorem release (hinv : Exclusive initial state) (chunkIndex timer : ℕ) :
    Exclusive initial (Web.release chunkIndex timer state) where
  single other := by
    have hsingle := hinv.single other
    have hle : ((state.inFlight.delete chunkIndex).has other).toNat ≤
        (state.inFlight.has other).toNat := by
      rw [OrderedMap.has_delete]
      exact Bool.toNat_le_toNat (Bool.and_le_right _ _)
    change (state.localBitfield.has other).toNat +
      ((state.inFlight.delete chunkIndex).has other).toNat + acquisitions other state.tasks ≤ 1
    omega
  marked := hinv.marked
  apart other hmem := by
    change (state.inFlight.delete chunkIndex).has other = false
    rw [OrderedMap.has_delete, hinv.apart other hmem, Bool.and_false]
  delivered := hinv.delivered
  completed := hinv.completed
  count := hinv.count

theorem stop (hinv : Exclusive initial state) : Exclusive initial (Web.stop state) where
  single chunkIndex := by
    have hsingle := hinv.single chunkIndex
    change (state.localBitfield.has chunkIndex).toNat + 0 + acquisitions chunkIndex state.tasks ≤ 1
    omega
  marked hrunning := absurd hrunning (by simp [Web.stop])
  apart chunkIndex hmem := absurd hmem (by simp [Web.stop])
  delivered chunkIndex hmem := absurd hmem (by simp [Web.stop])
  completed := hinv.completed
  count := hinv.count

/-- A free chunk that no task is acquiring may be requested. -/
theorem arm (hinv : Exclusive initial state) {chunkIndex : ℕ} (hfree : Free state chunkIndex)
    (hquiet : acquisitions chunkIndex state.tasks = 0) (peerId : String) (retries now : ℕ) :
    Exclusive initial (state.arm chunkIndex peerId retries now) where
  single other := by
    have hsingle := hinv.single other
    change (state.localBitfield.has other).toNat +
      ((state.inFlight.set chunkIndex _).has other).toNat + acquisitions other state.tasks ≤ 1
    rw [OrderedMap.has_set]
    by_cases hother : other = chunkIndex
    · subst hother
      rw [hfree.missing, hquiet]
      simp
    · rw [decide_eq_false hother, Bool.false_or]
      exact hsingle
  marked := hinv.marked
  apart other hmem := by
    change (state.inFlight.set chunkIndex _).has other = false
    rw [OrderedMap.has_set, hinv.apart other hmem, Bool.or_false, decide_eq_false_iff_not]
    rintro rfl
    exact hfree.notFetched hmem
  delivered := hinv.delivered
  completed := hinv.completed
  count := hinv.count

/-- A chunk that is neither marked nor requested and that no task is acquiring may be fetched. -/
theorem beginFetch (hinv : Exclusive initial state) {chunkIndex : ℕ}
    (hmissing : state.localBitfield.has chunkIndex = false)
    (hrequested : state.inFlight.has chunkIndex = false)
    (hidle : chunkIndex ∉ state.originInFlight)
    (hquiet : acquisitions chunkIndex state.tasks = 0) (now : ℕ) :
    Exclusive initial (state.beginFetch chunkIndex now) := by
  have hreports : ∀ call ∈ [Call.onOriginFallback chunkIndex, .fetchFromOrigin chunkIndex],
      call.isCompletion = false := by simp [Call.isCompletion]
  have hlog := hinv.log hreports
  refine ⟨fun other ↦ ?_, fun hrunning other ↦ ?_, fun other hmem ↦ ?_, fun other hmem ↦ ?_,
    hlog.completed, hlog.count⟩
  · have hsingle := hinv.single other
    change (state.localBitfield.has other).toNat + (state.inFlight.has other).toNat +
      acquisitions other (state.tasks ++ [_]) ≤ 1
    rw [acquisitions, countTasks_append_singleton, ← acquisitions]
    by_cases hother : chunkIndex = other
    · subst hother
      rw [hmissing, hrequested, hquiet]
      simp [indicator, Stage.isAcquiring, Stage.isFetching]
    · rw [indicator, if_neg fun h ↦ hother h.1]
      exact hsingle
  · have hmarked := hinv.marked hrunning other
    change originTasks other (state.tasks ++ [_]) =
      (decide (other ∈ insert chunkIndex state.originInFlight)).toNat
    rw [originTasks, countTasks_append_singleton, ← originTasks, hmarked]
    by_cases hother : chunkIndex = other
    · subst hother
      simp [indicator, hidle]
    · simp [indicator, hother, Ne.symm hother]
  · rcases Finset.mem_insert.mp hmem with rfl | hold
    · exact hrequested
    · exact hinv.apart other hold
  · refine NotDelivered.append ?_ fun _ h ↦ absurd h (by simp)
    rcases Finset.mem_insert.mp hmem with rfl | hold
    · exact notDelivered_of_quiet hquiet
    · exact hinv.delivered other hold

/-- A task moves on, without beginning to acquire. -/
theorem advance (hinv : Exclusive initial state) {index : ℕ} {task : Task}
    (htask : state.tasks[index]? = some task) {stage : Stage}
    (hstage : stage.isAcquiring = true → task.stage.isAcquiring = true)
    (hdelivered : task.fromP2P = true → stage.isAwaiting = true →
      task.stage.isAwaiting = true) :
    Exclusive initial (Web.advance index task stage state) where
  single chunkIndex := by
    have hsingle := hinv.single chunkIndex
    have hset := countTasks_set (fun task ↦ task.stage.isAcquiring) chunkIndex htask
      { task with stage := stage }
    have hle : indicator (fun task ↦ task.stage.isAcquiring) chunkIndex
        { task with stage := stage } ≤
          indicator (fun task ↦ task.stage.isAcquiring) chunkIndex task := by
      unfold indicator
      split_ifs with hnew hold hold
      · exact le_rfl
      · exact absurd ⟨hnew.1, hstage hnew.2⟩ hold
      · exact Nat.zero_le _
      · exact le_rfl
    change (state.localBitfield.has chunkIndex).toNat + (state.inFlight.has chunkIndex).toNat +
      acquisitions chunkIndex (state.tasks.set index _) ≤ 1
    rw [acquisitions] at hsingle ⊢
    omega
  marked hrunning chunkIndex := by
    have hset := countTasks_set (fun task ↦ !task.fromP2P) chunkIndex htask
      { task with stage := stage }
    have hsame : indicator (fun task ↦ !task.fromP2P) chunkIndex { task with stage := stage } =
        indicator (fun task ↦ !task.fromP2P) chunkIndex task := rfl
    have hmarked := hinv.marked hrunning chunkIndex
    change originTasks chunkIndex (state.tasks.set index _) =
      (decide (chunkIndex ∈ state.originInFlight)).toNat
    rw [originTasks] at hmarked ⊢
    omega
  apart := hinv.apart
  delivered chunkIndex hmem := by
    have hnone := hinv.delivered chunkIndex hmem
    intro other hother hchunk hpath
    rcases (mem_tasks_advance htask stage other).mp hother with rfl | hrest
    · have hold := hnone task ((mem_tasks_iff htask task).mpr (Or.inl rfl)) hchunk hpath
      by_contra hawaiting
      rw [hdelivered hpath (by simpa using hawaiting)] at hold
      exact absurd hold (by simp)
    · exact hnone other ((mem_tasks_iff htask other).mpr (Or.inr hrest)) hchunk hpath
  completed := hinv.completed
  count := hinv.count

/-- A released chunk is handed to a new task of the peer path. -/
theorem enqueue (hinv : Exclusive initial state) {chunkIndex : ℕ}
    (hmissing : state.localBitfield.has chunkIndex = false)
    (hrequested : state.inFlight.has chunkIndex = false)
    (hidle : chunkIndex ∉ state.originInFlight)
    (hquiet : acquisitions chunkIndex state.tasks = 0) (stage : Stage) :
    Exclusive initial (Web.enqueue ⟨chunkIndex, true, stage⟩ state) where
  single other := by
    have hsingle := hinv.single other
    change (state.localBitfield.has other).toNat + (state.inFlight.has other).toNat +
      acquisitions other (state.tasks ++ [_]) ≤ 1
    rw [acquisitions, countTasks_append_singleton, ← acquisitions]
    by_cases hother : chunkIndex = other
    · subst hother
      rw [hmissing, hrequested, hquiet, indicator]
      split_ifs <;> simp
    · rw [indicator, if_neg fun h ↦ hother h.1]
      exact hsingle
  marked hrunning other := by
    have hmarked := hinv.marked hrunning other
    change originTasks other (state.tasks ++ [_]) = (decide (other ∈ state.originInFlight)).toNat
    rw [originTasks, countTasks_append_singleton, ← originTasks, hmarked]
    simp [indicator]
  apart := hinv.apart
  delivered other hmem := by
    refine (hinv.delivered other hmem).append fun hchunk _ ↦ ?_
    rw [show chunkIndex = other from hchunk] at hidle
    exact absurd hmem hidle
  completed := hinv.completed
  count := hinv.count

/-- Of the calls that report a stored chunk, one reports its completion. -/
theorem countP_completionCalls {property : Call → Bool}
    (hbroadcast : ∀ buffer, property (.broadcastToPeers buffer) = false)
    (hprogress : ∀ completed total, property (.onDownloadProgress completed total) = false)
    (hcomplete : property .onDownloadComplete = false) (manifest : ResourceManifest)
    (bitfield : Bitfield) (haveMsg : Bytes) (chunkIndex : ℕ) (fromP2P : Bool)
    (byteLength latencyMs : ℕ) :
    (completionCalls manifest bitfield haveMsg chunkIndex fromP2P byteLength latencyMs).countP
      property = (property (.onChunkCompleted chunkIndex fromP2P byteLength latencyMs)).toNat := by
  unfold completionCalls
  rw [List.countP_append]
  have htail : (if bitfield.isComplete then [Call.onDownloadComplete] else []).countP property =
      0 := by
    split_ifs <;> simp [hcomplete]
  rw [htail]
  cases hcall : property (.onChunkCompleted chunkIndex fromP2P byteLength latencyMs) <;>
    simp [hbroadcast, hprogress, hcall]

/-- A chunk that a task has stored is marked, and its completion is reported. -/
theorem complete (hinv : Exclusive initial state) {index : ℕ} {task : Task}
    (htask : state.tasks[index]? = some task) (hstage : task.stage.isAcquiring = true)
    {bitfield : Bitfield} (hset : state.localBitfield.set task.chunkIndex = .ok bitfield)
    (manifest : ResourceManifest) (haveMsg : Bytes) (byteLength latencyMs : ℕ) :
    Exclusive initial (Web.advance index task .returned
      (({ state with localBitfield := bitfield } : SchedulerState σ).log
        (completionCalls manifest bitfield haveMsg task.chunkIndex task.fromP2P byteLength
          latencyMs))) := by
  have hin : task ∈ state.tasks := (mem_tasks_iff htask task).mpr (Or.inl rfl)
  have hmissing : state.localBitfield.has task.chunkIndex = false := by
    by_contra hmarked
    rw [Bool.not_eq_false] at hmarked
    have hsingle := hinv.single task.chunkIndex
    have hpos := countTasks_pos (fun task ↦ task.stage.isAcquiring) hin hstage
    rw [hmarked, Bool.toNat_true, acquisitions] at hsingle
    omega
  have hreturned := hinv.advance htask
    (show Stage.returned.isAcquiring = true → task.stage.isAcquiring = true from fun _ ↦ hstage)
    fun _ h ↦ absurd h (by simp [Stage.isAwaiting])
  refine ⟨fun other ↦ ?_, hreturned.marked, hinv.apart, hreturned.delivered, fun other ↦ ?_, ?_⟩
  · have hsingle := hinv.single other
    have hcount := countTasks_set (fun task ↦ task.stage.isAcquiring) other htask
      { task with stage := .returned }
    change (bitfield.has other).toNat + (state.inFlight.has other).toNat +
      acquisitions other (state.tasks.set index _) ≤ 1
    rw [acquisitions] at hsingle ⊢
    rw [Bitfield.has_of_set hset other]
    by_cases hother : other = task.chunkIndex
    · subst hother
      have hold : indicator (fun task ↦ task.stage.isAcquiring) task.chunkIndex task = 1 := by
        simp [indicator, hstage]
      have hnew : indicator (fun task ↦ task.stage.isAcquiring) task.chunkIndex
          { task with stage := .returned } = 0 := by
        simp [indicator, Stage.isAcquiring, Stage.isFetching, Stage.isAwaiting]
      simp only [decide_true, Bool.true_or, Bool.toNat_true]
      omega
    · have hzero : ∀ stage, indicator (fun task ↦ task.stage.isAcquiring) other
          { task with stage := stage } = 0 := fun stage ↦ if_neg fun h ↦ hother h.1.symm
      have hold := hzero task.stage
      have hnew := hzero .returned
      rw [decide_eq_false hother, Bool.false_or]
      change indicator _ other task = 0 at hold
      omega
  · have hcompleted := hinv.completed other
    change (state.calls ++ _).countP _ + _ = (bitfield.has other).toNat
    rw [List.countP_append, countP_completionCalls (fun _ ↦ rfl) (fun _ _ ↦ rfl) rfl,
      Bitfield.has_of_set hset other, Call.completes]
    by_cases hother : other = task.chunkIndex
    · subst hother
      rw [hmissing, Bool.toNat_false] at hcompleted
      simp only [decide_true, Bool.true_or, Bool.toNat_true]
      omega
    · rw [decide_eq_false hother, decide_eq_false (Ne.symm hother), Bool.false_or]
      exact hcompleted
  · have hcount := hinv.count
    change (state.calls ++ _).countP _ + _ = bitfield.count
    rw [List.countP_append, countP_completionCalls (fun _ ↦ rfl) (fun _ _ ↦ rfl) rfl,
      Bitfield.count_of_set hset hmissing, Call.isCompletion, Bool.toNat_true]
    omega

/-- The end of a task takes acquisitions away only. -/
theorem single_eraseIdx (hinv : Exclusive initial state) {index : ℕ} {task : Task}
    (htask : state.tasks[index]? = some task) (chunkIndex : ℕ) :
    (state.localBitfield.has chunkIndex).toNat + (state.inFlight.has chunkIndex).toNat +
      acquisitions chunkIndex (state.tasks.eraseIdx index) ≤ 1 := by
  have hsingle := hinv.single chunkIndex
  have hcount := countTasks_eraseIdx (fun task ↦ task.stage.isAcquiring) chunkIndex htask
  rw [acquisitions] at hsingle ⊢
  omega

/-- A task of the peer path ends. -/
theorem settle (hinv : Exclusive initial state) {index : ℕ} {task : Task}
    (htask : state.tasks[index]? = some task) (hpath : task.fromP2P = true) :
    Exclusive initial (Web.settle index state) where
  single := hinv.single_eraseIdx htask
  marked hrunning chunkIndex := by
    have hmarked := hinv.marked hrunning chunkIndex
    have hcount := countTasks_eraseIdx (fun task ↦ !task.fromP2P) chunkIndex htask
    have hzero : indicator (fun task ↦ !task.fromP2P) chunkIndex task = 0 := by
      simp [indicator, hpath]
    change originTasks chunkIndex (state.tasks.eraseIdx index) =
      (decide (chunkIndex ∈ state.originInFlight)).toNat
    rw [originTasks] at hmarked ⊢
    omega
  apart := hinv.apart
  delivered chunkIndex hmem other hother :=
    hinv.delivered chunkIndex hmem other ((mem_tasks_iff htask other).mpr (Or.inr hother))
  completed := hinv.completed
  count := hinv.count

/-- A task of the origin path ends, and its mark goes with it. -/
theorem finish (hinv : Exclusive initial state) {index : ℕ} {task : Task}
    (htask : state.tasks[index]? = some task) (hpath : task.fromP2P = false) :
    Exclusive initial { Web.settle index state with
      originInFlight := state.originInFlight.erase task.chunkIndex } where
  single := hinv.single_eraseIdx htask
  marked hrunning chunkIndex := by
    have hmarked := hinv.marked hrunning chunkIndex
    have hcount := countTasks_eraseIdx (fun task ↦ !task.fromP2P) chunkIndex htask
    change originTasks chunkIndex (state.tasks.eraseIdx index) =
      (decide (chunkIndex ∈ state.originInFlight.erase task.chunkIndex)).toNat
    rw [originTasks] at hmarked ⊢
    by_cases hchunk : task.chunkIndex = chunkIndex
    · subst hchunk
      have hone : indicator (fun task ↦ !task.fromP2P) task.chunkIndex task = 1 := by
        simp [indicator, hpath]
      have hle := Bool.toNat_le (decide (task.chunkIndex ∈ state.originInFlight))
      rw [decide_eq_false (Finset.notMem_erase _ _), Bool.toNat_false]
      omega
    · have hzero : indicator (fun task ↦ !task.fromP2P) chunkIndex task = 0 :=
        if_neg fun h ↦ hchunk h.1
      have hsame : (chunkIndex ∈ state.originInFlight.erase task.chunkIndex) ↔
          chunkIndex ∈ state.originInFlight := by
        rw [Finset.mem_erase]
        exact and_iff_right (Ne.symm hchunk)
      simp only [hsame]
      omega
  apart chunkIndex hmem := hinv.apart chunkIndex (Finset.mem_of_mem_erase hmem)
  delivered chunkIndex hmem other hother := hinv.delivered chunkIndex
    (Finset.mem_of_mem_erase hmem) other ((mem_tasks_iff htask other).mpr (Or.inr hother))
  completed := hinv.completed
  count := hinv.count

end Exclusive

/-! ### Scheduling keeps acquisitions single -/

/-- No chunk of the set is being acquired by a task unless it is marked as being fetched. -/
def Quiet (about : Set ℕ) (state : SchedulerState σ) : Prop :=
  ∀ chunkIndex ∈ about, chunkIndex ∉ state.originInFlight →
    acquisitions chunkIndex state.tasks = 0

section Scheduling

variable {initial : Bitfield} {env : Env} {about : Set ℕ} {state next : SchedulerState σ}

theorem Exclusive.move {chunkIndex : ℕ} (hinv : Exclusive initial state)
    (hquiet : Quiet about state) (hmem : chunkIndex ∈ about)
    (hmove : Move env True chunkIndex state next) : Exclusive initial next ∧ Quiet about next := by
  cases hmove with
  | announce => exact ⟨hinv.log (by simp [Call.isCompletion]), hquiet⟩
  | offer => exact ⟨hinv.log (by simp [Call.isCompletion]), hquiet⟩
  | request peerId retries hrange hmissing hfree hstrict =>
    exact ⟨hinv.arm ⟨hrange, hmissing, hfree, hstrict trivial⟩
      (hquiet chunkIndex hmem (hstrict trivial)) peerId retries env.now, hquiet⟩
  | fetch hrange hmissing hfree hidle =>
    refine ⟨hinv.beginFetch hmissing (OrderedMap.has_eq_false_iff.mpr hfree) hidle
      (hquiet chunkIndex hmem hidle) env.now, fun other hother hunmarked ↦ ?_⟩
    have hne : chunkIndex ≠ other := fun heq ↦ hunmarked (heq ▸ Finset.mem_insert_self _ _)
    have hold := hquiet other hother fun h ↦ hunmarked (Finset.mem_insert_of_mem h)
    change acquisitions other (state.tasks ++ [_]) = 0
    rw [acquisitions, countTasks_append_singleton, ← acquisitions, hold, indicator,
      if_neg fun h ↦ hne h.1]

/-- Strict moves about quiet chunks keep the invariant. -/
theorem Exclusive.moves (hinv : Exclusive initial state) (hquiet : Quiet about state)
    (hmoves : Moves env True about state next) : Exclusive initial next ∧ Quiet about next :=
  hmoves.keeps (fun reached ↦ Exclusive initial reached ∧ Quiet about reached)
    (fun _ hmem _ _ hmove h ↦ h.1.move h.2 hmem hmove) ⟨hinv, hquiet⟩

/-- No chunk delivered by a peer awaits verification or storage. -/
def NoneDelivered (state : SchedulerState σ) : Prop :=
  ∀ task ∈ state.tasks, task.fromP2P = true → task.stage.isAwaiting = false

/-- While nothing delivered awaits, only marked chunks are being acquired by tasks. -/
theorem quiet_of_noneDelivered (hwf : WellFormed state) (hinv : Exclusive initial state)
    (hrunning : state.isRunning = true) (hnone : NoneDelivered state) (about : Set ℕ) :
    Quiet about state := by
  intro chunkIndex _ hunmarked
  have hmarked := hinv.marked hrunning chunkIndex
  rw [decide_eq_false hunmarked, Bool.toNat_false] at hmarked
  refine (countTasks_eq_zero_iff _ _).mpr fun task hmem hchunk ↦ ?_
  have hp2p : task.fromP2P = true := by
    simpa using (countTasks_eq_zero_iff _ _).mp hmarked task hmem hchunk
  have hpath := (hwf.tasks_ok task hmem).onPath hp2p
  have hawaiting := hnone task hmem hp2p
  obtain ⟨_, _, stage⟩ := task
  cases stage <;>
    first | rfl | exact hpath.elim | exact absurd hawaiting (by simp [Stage.isAwaiting])

/-- The loop has no free slot to give. -/
def Full (state : SchedulerState σ) : Prop := maxTotalInFlight ≤ state.outstanding

/-- The loop, run here, does not look for chunks while something delivered awaits. -/
def Calm (state : SchedulerState σ) : Prop :=
  state.isRunning = true → NoneDelivered state ∨ Full state

/-- The loop keeps the invariant when nothing delivered awaits or no slot is free. -/
theorem scheduleNext_exclusive (hwf : WellFormed state) (hinv : Exclusive initial state)
    (hcalm : Calm state) : Exclusive initial (scheduleNext env state).1 := by
  rcases scheduleNext_cases env state with ⟨-, hidle⟩ | ⟨-, hreports⟩ |
    ⟨hrunning, hincomplete, hroom⟩
  · rw [hidle]
    exact hinv
  · rw [hreports]
    exact hinv.log (by simp [Call.isCompletion])
  · have hnone : NoneDelivered state := (hcalm hrunning).resolve_right (not_le.mpr hroom)
    exact (hinv.moves (quiet_of_noneDelivered hwf hinv hrunning hnone Set.univ)
      (scheduleNext_moves env state)).1

theorem scheduleIfRunning_exclusive (hwf : WellFormed state) (hinv : Exclusive initial state)
    (hcalm : Calm state) : Exclusive initial (scheduleIfRunning env state).1 := by
  unfold scheduleIfRunning
  split_ifs
  · exact scheduleNext_exclusive hwf hinv hcalm
  · exact hinv

end Scheduling

end CampusMesh.Web
