import CampusMesh.Web.SchedulerSteps

/-!
# Poison resistance

Whatever peers and the origin deliver, in whatever order: every chunk that the scheduler marks as
available, and every chunk that it announces to the swarm, is in the store with bytes that pass the
check against the manifest, and no other bytes are ever handed to the store.

`HoldsAccepted` adds what carries this through the asynchronous part: a task that waits for the
store waits with accepted bytes, and once the write has taken effect the chunk is stored. It is
stated for any property `accepts` of bytes that verification ensures; poison resistance is the case
of verification itself, and with the trivial property what is left is that marked chunks are stored.
-/

set_option autoImplicit false
set_option relaxedAutoImplicit false

namespace CampusMesh.Web

open Library Shared SchedulerState

variable {σ : Type} (accepts : ResourceManifest → ℕ → Bytes → Prop) (chunkStore : IChunkStore σ)

/-- The chunk store holds accepted bytes of the chunk. -/
def Stored (manifest : ResourceManifest) (store : σ) (chunkIndex : ℕ) : Prop :=
  ∃ data, chunkStore.get store manifest.resourceId chunkIndex = some data ∧
    accepts manifest chunkIndex data

/-- A call that keeps the promise of the scheduler: a frame to one peer requests a chunk, a frame
that is broadcast announces a stored one, and bytes that are put are accepted. -/
def CallOk (state : SchedulerState σ) : Call → Prop
  | .sendToPeer _ frame _ => ∃ chunkIndex, encodeRequest state.resourceId chunkIndex = .ok frame
  | .broadcastToPeers frame => ∃ chunkIndex,
      encodeHave state.resourceId chunkIndex = .ok frame ∧
        Stored accepts chunkStore state.manifest state.store chunkIndex
  | .put resourceId chunkIndex data =>
      resourceId = state.resourceId ∧ accepts state.manifest chunkIndex data
  | _ => True

/-- A task that waits for the store holds accepted bytes. -/
def PutOk (state : SchedulerState σ) (task : Task) : Prop :=
  ∀ data latencyMs written, task.stage = .putting data latencyMs written →
    accepts state.manifest task.chunkIndex data ∧
      (written = true → Stored accepts chunkStore state.manifest state.store task.chunkIndex)

/-- The invariant of accepted storage. -/
structure HoldsAccepted (state : SchedulerState σ) : Prop where
  marked : ∀ chunkIndex, state.localBitfield.has chunkIndex = true →
    Stored accepts chunkStore state.manifest state.store chunkIndex
  calls : ∀ call ∈ state.calls, CallOk accepts chunkStore state call
  tasks : ∀ task ∈ state.tasks, PutOk accepts chunkStore state task

variable {accepts chunkStore} {state next : SchedulerState σ}

/-- Promises that were kept stay kept while the manifest is the same and stored chunks stay. -/
theorem CallOk.mono (hmanifest : next.manifest = state.manifest)
    (hstored : ∀ chunkIndex, Stored accepts chunkStore state.manifest state.store chunkIndex →
      Stored accepts chunkStore next.manifest next.store chunkIndex) {call : Call}
    (hcall : CallOk accepts chunkStore state call) : CallOk accepts chunkStore next call := by
  cases call with
  | sendToPeer peerId frame sent =>
    rw [CallOk, SchedulerState.resourceId, hmanifest]
    exact hcall
  | broadcastToPeers frame =>
    obtain ⟨chunkIndex, hframe, hchunk⟩ := hcall
    refine ⟨chunkIndex, ?_, hstored chunkIndex hchunk⟩
    rw [SchedulerState.resourceId, hmanifest]
    exact hframe
  | put resourceId chunkIndex data =>
    obtain ⟨hid, haccepted⟩ := hcall
    refine ⟨?_, by rw [hmanifest]; exact haccepted⟩
    rw [hid, SchedulerState.resourceId, SchedulerState.resourceId, hmanifest]
  | _ => trivial

theorem PutOk.mono (hmanifest : next.manifest = state.manifest)
    (hstored : ∀ chunkIndex, Stored accepts chunkStore state.manifest state.store chunkIndex →
      Stored accepts chunkStore next.manifest next.store chunkIndex) {task : Task}
    (htask : PutOk accepts chunkStore state task) : PutOk accepts chunkStore next task := by
  intro data latencyMs written hstage
  obtain ⟨haccepted, hwritten⟩ := htask data latencyMs written hstage
  exact ⟨by rw [hmanifest]; exact haccepted, fun h ↦ hstored _ (hwritten h)⟩

/-- A task in any other stage promises nothing. -/
theorem putOk_of_stage {task : Task}
    (hstage : ∀ data latencyMs written, task.stage ≠ .putting data latencyMs written) :
    PutOk accepts chunkStore state task :=
  fun data latencyMs written h ↦ absurd h (hstage data latencyMs written)

namespace HoldsAccepted

/-- The invariant survives when stored chunks stay and everything new keeps its promise. -/
theorem grow (hinv : HoldsAccepted accepts chunkStore state)
    (hmanifest : next.manifest = state.manifest)
    (hstored : ∀ chunkIndex, Stored accepts chunkStore state.manifest state.store chunkIndex →
      Stored accepts chunkStore next.manifest next.store chunkIndex)
    (hmarked : ∀ chunkIndex, next.localBitfield.has chunkIndex = true →
      state.localBitfield.has chunkIndex = true ∨
        Stored accepts chunkStore next.manifest next.store chunkIndex)
    (hcalls : ∀ call ∈ next.calls, call ∈ state.calls ∨ CallOk accepts chunkStore next call)
    (htasks : ∀ task ∈ next.tasks, task ∈ state.tasks ∨ PutOk accepts chunkStore next task) :
    HoldsAccepted accepts chunkStore next where
  marked chunkIndex h :=
    (hmarked chunkIndex h).elim (fun hold ↦ hstored _ (hinv.marked _ hold)) id
  calls call h := (hcalls call h).elim (fun hold ↦ (hinv.calls _ hold).mono hmanifest hstored) id
  tasks task h := (htasks task h).elim (fun hold ↦ (hinv.tasks _ hold).mono hmanifest hstored) id

/-- Changes outside the manifest, the bitfield and the store, as long as new calls announce and put
nothing and new tasks do not wait for the store. -/
theorem other (hinv : HoldsAccepted accepts chunkStore state)
    (hmanifest : next.manifest = state.manifest)
    (hbitfield : next.localBitfield = state.localBitfield) (hstore : next.store = state.store)
    (hcalls : ∀ call ∈ next.calls, call ∈ state.calls ∨ CallOk accepts chunkStore next call)
    (htasks : ∀ task ∈ next.tasks, task ∈ state.tasks ∨
      ∀ data latencyMs written, task.stage ≠ .putting data latencyMs written) :
    HoldsAccepted accepts chunkStore next := by
  refine hinv.grow hmanifest (fun chunkIndex hchunk ↦ ?_) (fun chunkIndex hmarked ↦ ?_) hcalls
    fun task hmem ↦ (htasks task hmem).imp id putOk_of_stage
  · rwa [hstore, hmanifest]
  · rw [hbitfield] at hmarked
    exact Or.inl hmarked

theorem beginFetch (hinv : HoldsAccepted accepts chunkStore state) (chunkIndex now : ℕ) :
    HoldsAccepted accepts chunkStore (state.beginFetch chunkIndex now) := by
  refine hinv.other rfl rfl rfl (fun call hmem ↦ ?_) fun task hmem ↦ ?_
  · refine (List.mem_append.mp hmem).imp id fun hnew ↦ ?_
    simp only [List.mem_cons, List.not_mem_nil, or_false] at hnew
    rcases hnew with rfl | rfl <;> trivial
  · refine (List.mem_append.mp hmem).imp id fun hnew ↦ ?_
    rw [List.mem_singleton.mp hnew]
    simp

/-- A single new call that keeps its promise. -/
theorem log (hinv : HoldsAccepted accepts chunkStore state) {call : Call}
    (hcall : CallOk accepts chunkStore (state.log [call]) call) :
    HoldsAccepted accepts chunkStore (state.log [call]) := by
  refine hinv.other rfl rfl rfl (fun other hmem ↦ ?_) fun task hmem ↦ Or.inl hmem
  refine (List.mem_append.mp hmem).imp id fun hnew ↦ ?_
  rw [List.mem_singleton.mp hnew]
  exact hcall

/-- A task that moves on to a stage that keeps its promise. -/
theorem advance (hinv : HoldsAccepted accepts chunkStore state) {index : ℕ} {task : Task}
    (htask : state.tasks[index]? = some task) {stage : Stage}
    (hput : PutOk accepts chunkStore state { task with stage := stage }) :
    HoldsAccepted accepts chunkStore (Web.advance index task stage state) := by
  refine hinv.grow rfl (fun _ h ↦ h) (fun _ h ↦ Or.inl h) (fun _ h ↦ Or.inl h) fun other hmem ↦ ?_
  rcases (mem_tasks_advance htask stage other).mp hmem with rfl | hrest
  · exact Or.inr hput
  · exact Or.inl ((mem_tasks_iff htask other).mpr (Or.inr hrest))

/-- A task that ends. -/
theorem settle (hinv : HoldsAccepted accepts chunkStore state) {index : ℕ} {task : Task}
    (htask : state.tasks[index]? = some task) (marks : Finset ℕ) :
    HoldsAccepted accepts chunkStore { Web.settle index state with originInFlight := marks } :=
  hinv.other rfl rfl rfl (fun _ h ↦ Or.inl h) fun other hmem ↦
    Or.inl ((mem_tasks_iff htask other).mpr (Or.inr hmem))

/-- Writing accepted bytes stores the chunk and leaves every stored chunk stored. -/
theorem stored_put {chunkIndex : ℕ} {data : Bytes}
    (haccepted : accepts state.manifest chunkIndex data) (other : ℕ)
    (hchunk : other = chunkIndex ∨ Stored accepts chunkStore state.manifest state.store other) :
    Stored accepts chunkStore state.manifest
      (chunkStore.put state.store state.resourceId chunkIndex data) other := by
  unfold Stored
  simp only [SchedulerState.resourceId, chunkStore.get_put, true_and]
  by_cases hother : other = chunkIndex
  · rw [if_pos hother, hother]
    exact ⟨data, rfl, haccepted⟩
  · rw [if_neg hother]
    exact hchunk.resolve_left hother

/-- Marking a stored chunk. -/
theorem mark (hinv : HoldsAccepted accepts chunkStore state) {chunkIndex : ℕ} {bitfield : Bitfield}
    (hset : state.localBitfield.set chunkIndex = .ok bitfield)
    (hstored : Stored accepts chunkStore state.manifest state.store chunkIndex) :
    HoldsAccepted accepts chunkStore { state with localBitfield := bitfield } := by
  refine hinv.grow rfl (fun _ h ↦ h) (fun other hmarked ↦ ?_) (fun _ h ↦ Or.inl h)
    fun _ h ↦ Or.inl h
  have hother : bitfield.has other = true := hmarked
  rw [Bitfield.has_of_set hset other, Bool.or_eq_true, decide_eq_true_eq] at hother
  rcases hother with rfl | hold
  · exact Or.inr hstored
  · exact Or.inl hold

/-- Reporting a stored chunk. -/
theorem logCompletion (hinv : HoldsAccepted accepts chunkStore state) {chunkIndex : ℕ}
    {haveMsg : Bytes} (hhave : encodeHave state.resourceId chunkIndex = .ok haveMsg)
    (hstored : Stored accepts chunkStore state.manifest state.store chunkIndex)
    (manifest : ResourceManifest)
    (bitfield : Bitfield) (fromP2P : Bool) (byteLength latencyMs : ℕ) :
    HoldsAccepted accepts chunkStore (state.log
      (completionCalls manifest bitfield haveMsg chunkIndex fromP2P byteLength latencyMs)) := by
  refine hinv.other rfl rfl rfl (fun call hmem ↦ ?_) fun _ h ↦ Or.inl h
  refine (List.mem_append.mp hmem).imp id fun hnew ↦ ?_
  rcases List.mem_append.mp hnew with hfirst | hlast
  · simp only [List.mem_cons, List.not_mem_nil, or_false] at hfirst
    rcases hfirst with rfl | rfl | rfl
    · exact ⟨chunkIndex, hhave, hstored⟩
    · trivial
    · trivial
  · split_ifs at hlast with hcomplete
    · rw [List.mem_singleton.mp hlast]
      trivial
    · exact absurd hlast List.not_mem_nil

variable {env : Env}

theorem move {strict : Prop} {chunkIndex : ℕ} (hinv : HoldsAccepted accepts chunkStore state)
    (hmove : Move env strict chunkIndex state next) : HoldsAccepted accepts chunkStore next := by
  cases hmove with
  | announce => exact hinv.log trivial
  | offer peerId buffer sent hframe => exact hinv.log ⟨_, hframe⟩
  | request => exact ⟨hinv.marked, hinv.calls, hinv.tasks⟩
  | fetch => exact hinv.beginFetch _ _

/-- Every step keeps the invariant, as long as verified bytes are accepted. -/
theorem step {digest : Bytes → Bytes}
    (haccepts : ∀ manifest chunkIndex data, Verified digest manifest chunkIndex data →
      accepts manifest chunkIndex data) (hinv : HoldsAccepted accepts chunkStore state)
    (hstep : Step digest chunkStore env state next) : HoldsAccepted accepts chunkStore next := by
  cases hstep with
  | move hmove => exact hinv.move hmove
  | books | begin | halt | release => exact ⟨hinv.marked, hinv.calls, hinv.tasks⟩
  | report call hreport =>
    refine hinv.log ?_
    cases call <;> trivial
  | refetch => exact hinv.beginFetch _ _
  | deliver chunkIndex stage hok hstage =>
    refine hinv.other rfl rfl rfl (fun _ h ↦ Or.inl h) fun task hmem ↦ ?_
    refine (List.mem_append.mp hmem).imp id fun hnew ↦ ?_
    rw [List.mem_singleton.mp hnew]
    rcases hstage with ⟨_, _, _, rfl⟩ | rfl <;> simp
  | pass index task stage htask hpasses =>
    exact hinv.advance htask (putOk_of_stage hpasses.ne_putting)
  | accept index task expected data latencyMs htask hstage hverified =>
    have hput : CallOk accepts chunkStore
        (state.log [.put state.resourceId task.chunkIndex data])
        (.put state.resourceId task.chunkIndex data) := ⟨rfl, haccepts _ _ _ hverified⟩
    refine (hinv.log hput).advance htask fun other latency written heq ↦ ?_
    simp only [Stage.putting.injEq] at heq
    obtain ⟨rfl, -, rfl⟩ := heq
    exact ⟨haccepts _ _ _ hverified, fun h ↦ absurd h (by simp)⟩
  | write index task data latencyMs htask hstage =>
    have hin : task ∈ state.tasks := (mem_tasks_iff htask task).mpr (Or.inl rfl)
    have haccepted := (hinv.tasks task hin data latencyMs false hstage).1
    have hwritten : HoldsAccepted accepts chunkStore { state with
        store := chunkStore.put state.store state.resourceId task.chunkIndex data } :=
      hinv.grow rfl (fun _ h ↦ stored_put haccepted _ (Or.inr h)) (fun _ h ↦ Or.inl h)
        (fun _ h ↦ Or.inl h) fun _ h ↦ Or.inl h
    refine hwritten.advance htask fun other latency written heq ↦ ?_
    simp only [Stage.putting.injEq] at heq
    obtain ⟨rfl, -, rfl⟩ := heq
    exact ⟨haccepted, fun _ ↦ stored_put haccepted _ (Or.inl rfl)⟩
  | mark index task data latencyMs bitfield error htask hstage hset hhave =>
    have hin : task ∈ state.tasks := (mem_tasks_iff htask task).mpr (Or.inl rfl)
    exact hinv.mark hset ((hinv.tasks task hin data latencyMs true hstage).2 rfl)
  | complete index task data latencyMs bitfield haveMsg htask hstage hset hhave =>
    have hin : task ∈ state.tasks := (mem_tasks_iff htask task).mpr (Or.inl rfl)
    have hstored := (hinv.tasks task hin data latencyMs true hstage).2 rfl
    exact ((hinv.mark hset hstored).logCompletion hhave hstored _ _ _ _ _).advance htask
      (putOk_of_stage (by simp))
  | drop index task htask => exact hinv.settle htask _
  | finish index task htask => exact hinv.settle htask _

end HoldsAccepted

/-- A new scheduler whose bitfield marks only stored chunks. -/
theorem holdsAccepted_new {manifest : ResourceManifest} {localBitfield : Bitfield} {store : σ}
    (heap : List Bitfield) (hmarked : ∀ chunkIndex, localBitfield.has chunkIndex = true →
      Stored accepts chunkStore manifest store chunkIndex) :
    HoldsAccepted accepts chunkStore (SchedulerState.new manifest localBitfield heap store) where
  marked := hmarked
  calls := by simp [SchedulerState.new]
  tasks := by simp [SchedulerState.new, ChunkScheduler.new]

/-- The invariant holds in every state that a run of a new scheduler reaches. -/
theorem holdsAccepted_run {digest : Bytes → Bytes}
    (haccepts : ∀ manifest chunkIndex data, Verified digest manifest chunkIndex data →
      accepts manifest chunkIndex data)
    {manifest : ResourceManifest} {localBitfield : Bitfield} {store : σ} (heap : List Bitfield)
    (hmarked : ∀ chunkIndex, localBitfield.has chunkIndex = true →
      Stored accepts chunkStore manifest store chunkIndex) (inputs : List SchedulerInput) :
    HoldsAccepted accepts chunkStore
      (schedulerRun digest chunkStore manifest localBitfield heap store inputs) :=
  (run_of_step (HoldsAccepted accepts chunkStore)
    (fun _ _ _ _ hinv hstep ↦ hinv.step haccepts hstep)
    (wellFormed_new manifest localBitfield heap store) (holdsAccepted_new heap hmarked) inputs).2

/-- **Poison resistance.** After every run of a new scheduler whose bitfield marks only chunks
stored with a matching hash, in any order of events and whatever bytes peers and the origin deliver:
every marked chunk and every chunk announced in a HAVE frame is stored with bytes that pass the
check against the manifest, and only such bytes were ever put into the store. -/
theorem poison_resistance (digest : Bytes → Bytes) (chunkStore : IChunkStore σ)
    (manifest : ResourceManifest) (localBitfield : Bitfield) (heap : List Bitfield) (store : σ)
    (hmarked : ∀ chunkIndex, localBitfield.has chunkIndex = true →
      Stored (Verified digest) chunkStore manifest store chunkIndex)
    (inputs : List SchedulerInput) :
    let reached := schedulerRun digest chunkStore manifest localBitfield heap store inputs
    (∀ chunkIndex, reached.localBitfield.has chunkIndex = true →
      Stored (Verified digest) chunkStore manifest reached.store chunkIndex) ∧
    (∀ frame, Call.broadcastToPeers frame ∈ reached.calls →
      ∃ chunkIndex, encodeHave manifest.resourceId chunkIndex = .ok frame ∧
        Stored (Verified digest) chunkStore manifest reached.store chunkIndex) ∧
    (∀ resourceId chunkIndex data, Call.put resourceId chunkIndex data ∈ reached.calls →
      resourceId = manifest.resourceId ∧ Verified digest manifest chunkIndex data) := by
  intro reached
  have hinv : HoldsAccepted (Verified digest) chunkStore reached :=
    holdsAccepted_run (fun _ _ _ ↦ id) heap hmarked inputs
  have hmanifest : reached.manifest = manifest := (schedulerRun_manifest_totalChunks digest
    chunkStore manifest localBitfield heap store inputs).1
  refine ⟨fun chunkIndex hchunk ↦ ?_, fun frame hframe ↦ ?_, fun resourceId chunkIndex data
    hput ↦ ?_⟩
  · rw [← hmanifest]
    exact hinv.marked chunkIndex hchunk
  · obtain ⟨chunkIndex, hencoded, hchunk⟩ := hinv.calls _ hframe
    rw [SchedulerState.resourceId, hmanifest] at hencoded
    rw [hmanifest] at hchunk
    exact ⟨chunkIndex, hencoded, hchunk⟩
  · have hok := hinv.calls _ hput
    rw [CallOk, SchedulerState.resourceId, hmanifest] at hok
    exact hok

/-! ### A run -/

/-- A manifest of one chunk of one byte, under the digest that returns the bytes themselves. -/
def oneChunkManifest : ResourceManifest where
  resourceId := "res_1"
  sessionId := "session"
  fileName := "notes.bin"
  fileSize := 1
  chunkSize := CHUNK_SIZE_BYTES
  totalChunks := 1
  fileHash := "07"
  createdAt := ""
  chunks := [⟨0, 1, "07"⟩]
  chunkHashes := none

/-- A manifest of eight chunks of one byte. -/
def eightChunkManifest : ResourceManifest :=
  { oneChunkManifest with
    fileSize := 8
    totalChunks := 8
    chunks := (List.range 8).map fun chunkIndex ↦ ⟨chunkIndex, 1, "07"⟩ }

/-- The bitfield of a peer that has the one chunk. -/
def oneChunkBitfield : Bitfield := ⟨1, [0x80], rfl⟩

/-- Surroundings whose channels take every frame. -/
def calmEnv : Env := ⟨1000, fun _ ↦ true⟩

/-- A peer that has the chunk sends a wrong byte; the origin then delivers the right one. -/
def poisonedRun : List SchedulerInput :=
  [.updatePeerBitfield "peer" 0, .start, .handlePiece 0 0 1 [8], .settled 0 .verified,
    .settled 1 (.fetched [7]), .settled 1 .verified, .settled 1 .written, .settled 1 .putDone].map
      fun event ↦ (calmEnv, event)

/-- After the run the chunk is marked, and it is stored with the byte of the file. -/
theorem poison_resistance_poisonedRun :
    (schedulerRun id MemoryChunkStore oneChunkManifest (Bitfield.new 1) [oneChunkBitfield]
      OrderedMap.empty poisonedRun).localBitfield.has 0 = true ∧
    Stored (Verified id) MemoryChunkStore oneChunkManifest
      (schedulerRun id MemoryChunkStore oneChunkManifest
      (Bitfield.new 1) [oneChunkBitfield] OrderedMap.empty poisonedRun).store 0 := by
  have hmarked : (schedulerRun id MemoryChunkStore oneChunkManifest (Bitfield.new 1)
      [oneChunkBitfield] OrderedMap.empty poisonedRun).localBitfield.has 0 = true := by
    decide +kernel
  exact ⟨hmarked, (poison_resistance id MemoryChunkStore oneChunkManifest (Bitfield.new 1)
    [oneChunkBitfield] OrderedMap.empty (fun chunkIndex h ↦ by simp [Bitfield.has_new] at h)
    poisonedRun).1 0 hmarked⟩

end CampusMesh.Web
