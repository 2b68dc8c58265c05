import CampusMesh.Web.ServedChunks

/-!
# What schedulers write

A scheduler holds bytes at three places: in blocks that it gathers, in calls that wait for a check,
and in calls that wait for the store. A `Custody` says what is known of the bytes at each of them.
If every event hands on what is promised (`Custody.Kept`), a scheduler writes accepted bytes only
(`Custody.Kept.guards`).

Three custodies follow. If a scheduler is only sent genuine bytes, it holds genuine ones at every
stage, so that no check ever fails (`kept_genuine`). Whatever it is sent, the bytes that it waits to
store have passed the check against its manifest (`kept_checked`). And if no bytes that it checks
collide with a genuine chunk, those are genuine (`kept_resistant`).
-/

set_option autoImplicit false
set_option relaxedAutoImplicit false

namespace CampusMesh.Web

open Library Shared SchedulerState Relation

variable {σ : Type}

/-! ### Events that bring no bytes -/

/-- Nothing comes in: the manifest and the store stay, tasks are only added to fetch, and blocks are
only dropped. -/
structure Sealed (first second : SchedulerState σ) : Prop where
  manifest : second.manifest = first.manifest
  store : second.store = first.store
  tasks : ∀ task ∈ second.tasks, task ∈ first.tasks ∨
    ∃ fetchStart, task.stage = .fetching fetchStart
  reassembly : ∀ chunkIndex item, second.reassembly.get? chunkIndex = some item →
    first.reassembly.get? chunkIndex = some item

theorem sealed_of_eq {first second : SchedulerState σ}
    (hmanifest : second.manifest = first.manifest) (hstore : second.store = first.store)
    (htasks : second.tasks = first.tasks)
    (hreassembly : second.reassembly = first.reassembly) : Sealed first second :=
  ⟨hmanifest, hstore, fun _ hmem ↦ Or.inl (htasks ▸ hmem), fun _ _ hget ↦ hreassembly ▸ hget⟩

instance : Std.Refl (@Sealed σ) := ⟨fun _ ↦ sealed_of_eq rfl rfl rfl rfl⟩

instance : IsTrans (SchedulerState σ) Sealed where
  trans _ _ _ hfirst hsecond :=
    ⟨hsecond.manifest.trans hfirst.manifest, hsecond.store.trans hfirst.store,
      fun task hmem ↦ (hsecond.tasks task hmem).elim (hfirst.tasks task) Or.inr,
      fun chunkIndex item hget ↦
        hfirst.reassembly chunkIndex item (hsecond.reassembly chunkIndex item hget)⟩

section Sealed

variable {env : Env} {state next last : SchedulerState σ}

theorem Sealed.refl (state : SchedulerState σ) : Sealed state state := sealed_of_eq rfl rfl rfl rfl

theorem Sealed.trans (hfirst : Sealed state next) (hsecond : Sealed next last) :
    Sealed state last :=
  IsTrans.trans _ _ _ hfirst hsecond

theorem sealed_beginFetch (state : SchedulerState σ) (chunkIndex now : ℕ) :
    Sealed state (state.beginFetch chunkIndex now) where
  manifest := rfl
  store := rfl
  tasks _ hmem := (List.mem_append.mp hmem).imp id fun hnew ↦ ⟨now, by
    rw [List.mem_singleton.mp hnew]⟩
  reassembly _ _ hget := hget

theorem Moves.sealed {strict : Prop} {about : Set ℕ} (hmoves : Moves env strict about state next) :
    Sealed state next := by
  refine hmoves.keeps (Sealed state) (fun _ _ first second hmove hfirst ↦ hfirst.trans ?_)
    (Sealed.refl state)
  cases hmove with
  | fetch => exact sealed_beginFetch _ _ _
  | _ => exact sealed_of_eq rfl rfl rfl rfl

theorem sealed_release (chunkIndex timer : ℕ) (state : SchedulerState σ) :
    Sealed state (release chunkIndex timer state) where
  manifest := rfl
  store := rfl
  tasks _ hmem := Or.inl hmem
  reassembly other item hget := by
    change (state.reassembly.delete chunkIndex).get? other = some item at hget
    rw [OrderedMap.get?_delete] at hget
    split_ifs at hget
    exact hget

theorem sealed_stop (state : SchedulerState σ) : Sealed state (stop state) where
  manifest := rfl
  store := rfl
  tasks _ hmem := Or.inl hmem
  reassembly _ _ hget := by
    change (OrderedMap.empty : OrderedMap ℕ ChunkReassembly).get? _ = some _ at hget
    simp at hget

theorem sealed_dispatchOriginFallback (env : Env) (chunkIndex : ℕ) (state : SchedulerState σ) :
    Sealed state (dispatchOriginFallback env chunkIndex state).1 := by
  unfold dispatchOriginFallback
  split_ifs
  · exact Sealed.refl state
  · exact sealed_beginFetch state chunkIndex env.now

theorem sealed_scheduleIfRunning (env : Env) (state : SchedulerState σ) :
    Sealed state (scheduleIfRunning env state).1 := (scheduleIfRunning_moves env state).sealed

theorem sealed_updatePeerHave (env : Env) (peerId : String) (chunkIndex : ℕ)
    (state : SchedulerState σ) : Sealed state (updatePeerHave env peerId chunkIndex state).1 := by
  have hlocated : Sealed state (peerBitfield peerId state).1 := by
    unfold peerBitfield
    split
    · exact Sealed.refl state
    · exact sealed_of_eq rfl rfl rfl rfl
  unfold updatePeerHave
  simp only
  split
  · exact hlocated
  · refine hlocated.trans (Sealed.trans ?_ (sealed_scheduleIfRunning env _))
    exact sealed_of_eq rfl rfl rfl rfl

theorem sealed_removePeer (hwf : WellFormed state) (env : Env) (peerId : String) :
    Sealed state (removePeer env peerId state).1 := by
  have hforgotten : Sealed state (forget peerId state) := sealed_of_eq rfl rfl rfl rfl
  rw [removePeer_eq]
  refine hforgotten.trans (Action.andThen_rel ?_ fun _ ↦ sealed_scheduleIfRunning env _)
  refine reassign_loop_rel (hwf.forget peerId) peerId fun entry _ reached hreached hentry ↦ ?_
  by_cases hpeer : entry.2.peerId = peerId
  · exact (sealed_release _ _ _).trans (reassign_moves env hreached hentry hpeer).sealed
  · rw [reassign, if_neg hpeer]
    exact Sealed.refl reached

theorem sealed_handleTimeout (hwf : WellFormed state) (env : Env) {chunkIndex timer : ℕ}
    (htimer : state.timers.get? timer = some chunkIndex) :
    Sealed state (handleTimeout env chunkIndex timer state).1 := by
  obtain ⟨request, hrequest, rfl⟩ := (hwf.timers_iff timer chunkIndex).mp htimer
  unfold handleTimeout
  rw [hrequest]
  have hreleased : Sealed state ((release chunkIndex request.timer state).log
      [.onRetry chunkIndex request.peerId]) :=
    (sealed_release chunkIndex request.timer state).trans (sealed_of_eq rfl rfl rfl rfl)
  refine hreleased.trans (Action.andThen_rel ?_ fun _ ↦ (scheduleNext_moves env _).sealed)
  exact (reschedule_moves env hwf hrequest _ _).sealed

/-- Whatever is neither a piece nor a report brings nothing in. -/
theorem sealed_perform (digest : Bytes → Bytes) (chunkStore : IChunkStore σ) (env : Env)
    (hwf : WellFormed state) {event : SchedulerEvent} (hinternal : event.IsInternal) :
    Sealed state (perform digest chunkStore env event state).1 := by
  cases event with
  | start =>
    change Sealed state (start env state).1
    unfold start
    split_ifs
    · exact Sealed.refl state
    · have hrunning : Sealed state { state with isRunning := true } := sealed_of_eq rfl rfl rfl rfl
      exact hrunning.trans (scheduleNext_moves env _).sealed
  | stop => exact sealed_stop state
  | updatePeerBitfield peerId address =>
    have hbooked : Sealed state { state with
        peerBitfields := state.peerBitfields.set peerId address
        peerChoked :=
          if state.peerChoked.has peerId then state.peerChoked
          else state.peerChoked.set peerId false } := sealed_of_eq rfl rfl rfl rfl
    exact hbooked.trans (sealed_scheduleIfRunning env _)
  | updatePeerHave peerId chunkIndex => exact sealed_updatePeerHave env peerId chunkIndex state
  | setPeerChoked peerId choked =>
    have hbooked : Sealed state { state with peerChoked := state.peerChoked.set peerId choked } :=
      sealed_of_eq rfl rfl rfl rfl
    change Sealed state (setPeerChoked env peerId choked state).1
    unfold setPeerChoked
    simp only
    split_ifs
    · exact hbooked
    · exact hbooked.trans (sealed_scheduleIfRunning env _)
  | removePeer peerId => exact sealed_removePeer hwf env peerId
  | scheduleNext => exact (scheduleNext_moves env state).sealed
  | timeout timer =>
    unfold perform
    cases htimer : state.timers.get? timer with
    | none =>
      simp only [htimer]
      exact Sealed.refl state
    | some chunkIndex =>
      simp only [htimer]
      exact sealed_handleTimeout hwf env htimer
  | shared heap => exact sealed_of_eq rfl rfl rfl rfl
  | handlePiece | settled => exact absurd hinternal id

end Sealed

/-! ### Custody of bytes -/

/-- What is known of the bytes that a scheduler holds for a chunk: those that wait for a check,
those that wait for the store, and its blocks. -/
structure Custody where
  pending : String → ℕ → Bytes → Prop
  accepted : String → ℕ → Bytes → Prop
  gathered : String → ℕ → ChunkReassembly → Prop

namespace Custody

variable (custody : Custody)

/-- The bytes that a task holds are as they should be. -/
structure HoldsTask (resourceId : String) (task : Task) : Prop where
  verifying : ∀ expected data latencyMs, task.stage = .verifying expected data latencyMs →
    custody.pending resourceId task.chunkIndex data
  putting : ∀ data latencyMs written, task.stage = .putting data latencyMs written →
    custody.accepted resourceId task.chunkIndex data

/-- A scheduler for a known resource whose bytes are as they should be. -/
structure Holds (known : ResourceManifest → Prop) (scheduler : ChunkScheduler) : Prop where
  known : known scheduler.manifest
  tasks : ∀ task ∈ scheduler.tasks, custody.HoldsTask scheduler.manifest.resourceId task
  reassembly : ∀ chunkIndex item, scheduler.reassembly.get? chunkIndex = some item →
    custody.gathered scheduler.manifest.resourceId chunkIndex item

/-- Allowed events hand on bytes that are as they should be. -/
structure Kept (digest : Bytes → Bytes) (known : ResourceManifest → Prop)
    (allowed : ChunkScheduler → SchedulerEvent → Prop) : Prop where
  internal : ∀ scheduler event, event.IsInternal → allowed scheduler event
  /-- A block is added to those that were gathered before. -/
  received : ∀ scheduler chunkIndex beginOffset totalLength data,
    allowed scheduler (.handlePiece chunkIndex beginOffset totalLength data) →
      ∀ before : Option ChunkReassembly,
        (∀ item, before = some item →
          custody.gathered scheduler.manifest.resourceId chunkIndex item) →
        custody.gathered scheduler.manifest.resourceId chunkIndex
          ((before.getD ⟨totalLength, 0, OrderedMap.empty⟩).add beginOffset data)
  assembled : ∀ resourceId chunkIndex item data, custody.gathered resourceId chunkIndex item →
    item.totalLength ≤ item.receivedBytes →
      assembleParts (List.replicate item.totalLength 0) item.parts.entries = .ok data →
        custody.pending resourceId chunkIndex data
  fetched : ∀ scheduler index data task, allowed scheduler (.settled index (.fetched data)) →
    scheduler.tasks[index]? = some task →
      custody.pending scheduler.manifest.resourceId task.chunkIndex data
  verified : ∀ scheduler index task expected data latencyMs, known scheduler.manifest →
    allowed scheduler (.settled index .verified) → scheduler.tasks[index]? = some task →
      task.stage = .verifying expected data latencyMs →
        custody.pending scheduler.manifest.resourceId task.chunkIndex data →
          Verified digest scheduler.manifest task.chunkIndex data →
            custody.accepted scheduler.manifest.resourceId task.chunkIndex data

end Custody

section Custody

variable {custody : Custody} {known : ResourceManifest → Prop} {chunkStore : IChunkStore σ}
  {digest : Bytes → Bytes} {allowed : ChunkScheduler → SchedulerEvent → Prop} {env : Env}
  {state next : SchedulerState σ}

/-- A stage without bytes. -/
theorem holdsTask_of_stage {resourceId : String} {task : Task}
    (hverifying : ∀ expected data latencyMs, task.stage ≠ .verifying expected data latencyMs)
    (hputting : ∀ data latencyMs written, task.stage ≠ .putting data latencyMs written) :
    custody.HoldsTask resourceId task :=
  ⟨fun _ _ _ h ↦ absurd h (hverifying _ _ _), fun _ _ _ h ↦ absurd h (hputting _ _ _)⟩

theorem holdsTask_verifying {resourceId : String} {chunkIndex : ℕ} {data : Bytes}
    (hdata : custody.pending resourceId chunkIndex data) (fromP2P : Bool) (expected : String)
    (latencyMs : ℕ) : custody.HoldsTask resourceId
      ⟨chunkIndex, fromP2P, .verifying expected data latencyMs⟩ := by
  refine ⟨fun _ _ _ h ↦ ?_, fun _ _ _ h ↦ absurd h (by simp)⟩
  rw [← (Stage.verifying.inj h).2.1]
  exact hdata

theorem holdsTask_putting {resourceId : String} {chunkIndex : ℕ} {data : Bytes}
    (hdata : custody.accepted resourceId chunkIndex data) (fromP2P : Bool) (latencyMs : ℕ)
    (written : Bool) : custody.HoldsTask resourceId
      ⟨chunkIndex, fromP2P, .putting data latencyMs written⟩ := by
  refine ⟨fun _ _ _ h ↦ absurd h (by simp), fun _ _ _ h ↦ ?_⟩
  rw [← (Stage.putting.inj h).1]
  exact hdata

namespace Custody

theorem Holds.sealed (hholds : custody.Holds known state.toChunkScheduler)
    (hsealed : Sealed state next) : custody.Holds known next.toChunkScheduler where
  known := hsealed.manifest ▸ hholds.known
  tasks task hmem := by
    rw [hsealed.manifest]
    rcases hsealed.tasks task hmem with hold | ⟨fetchStart, hstage⟩
    · exact hholds.tasks task hold
    · exact holdsTask_of_stage (by simp [hstage]) (by simp [hstage])
  reassembly chunkIndex item hget := by
    rw [hsealed.manifest]
    exact hholds.reassembly chunkIndex item (hsealed.reassembly chunkIndex item hget)

/-- A task comes in addition. -/
theorem Holds.enqueue (hholds : custody.Holds known state.toChunkScheduler)
    {task : Task} (htask : custody.HoldsTask state.manifest.resourceId task) :
    custody.Holds known (enqueue task state).toChunkScheduler where
  known := hholds.known
  tasks other hmem := by
    rcases List.mem_append.mp hmem with hold | hnew
    · exact hholds.tasks other hold
    · rw [List.mem_singleton.mp hnew]
      exact htask
  reassembly := hholds.reassembly

/-- A task moves on. -/
theorem Holds.advance (hholds : custody.Holds known state.toChunkScheduler) {index : ℕ}
    {task : Task} {stage : Stage}
    (htask : custody.HoldsTask state.manifest.resourceId { task with stage := stage }) :
    custody.Holds known (advance index task stage state).toChunkScheduler where
  known := hholds.known
  tasks other hother := by
    rcases List.mem_or_eq_of_mem_set hother with hold | rfl
    · exact hholds.tasks other hold
    · exact htask
  reassembly := hholds.reassembly

theorem Holds.settle (hholds : custody.Holds known state.toChunkScheduler) (index : ℕ) :
    custody.Holds known (settle index state).toChunkScheduler :=
  ⟨hholds.known, fun task hmem ↦ hholds.tasks task (List.mem_of_mem_eraseIdx hmem),
    hholds.reassembly⟩

end Custody

/-- Bytes go to verification, or nothing happens to them. -/
theorem holdsTask_verifyAndStoreChunk {chunkIndex : ℕ} {data : Bytes}
    (hdata : custody.pending state.manifest.resourceId chunkIndex data) (latencyMs : ℕ)
    (fromP2P : Bool) :
    Sealed state (verifyAndStoreChunk chunkIndex data latencyMs state).1 ∧
      custody.HoldsTask state.manifest.resourceId
        ⟨chunkIndex, fromP2P, (verifyAndStoreChunk chunkIndex data latencyMs state).2⟩ := by
  unfold verifyAndStoreChunk
  split
  · exact ⟨sealed_of_eq rfl rfl rfl rfl, holdsTask_of_stage (by simp) (by simp)⟩
  · exact ⟨Sealed.refl state, holdsTask_verifying hdata fromP2P _ latencyMs⟩

/-- A block that may come. -/
theorem Custody.Holds.handlePiece (hkept : custody.Kept digest known allowed)
    (hholds : custody.Holds known state.toChunkScheduler) (env : Env)
    {chunkIndex beginOffset totalLength : ℕ} {data : Bytes}
    (hallowed : allowed state.toChunkScheduler
      (.handlePiece chunkIndex beginOffset totalLength data)) :
    custody.Holds known
        (handlePiece env chunkIndex beginOffset totalLength data state).1.toChunkScheduler ∧
      (handlePiece env chunkIndex beginOffset totalLength data state).1.store = state.store := by
  have hgathered : custody.gathered state.manifest.resourceId chunkIndex
      (receive chunkIndex beginOffset totalLength data state) :=
    hkept.received state.toChunkScheduler chunkIndex beginOffset totalLength data hallowed _
      fun item hget ↦ hholds.reassembly chunkIndex item hget
  unfold Web.handlePiece
  cases hrequest : state.inFlight.get? chunkIndex with
  | none => exact ⟨hholds, rfl⟩
  | some request =>
    simp only
    split_ifs with hcomplete
    · have hreleased := sealed_release chunkIndex request.timer state
      unfold completePiece
      simp only
      split
      · exact ⟨hholds.sealed hreleased, hreleased.store⟩
      · next assembledBuffer hassembled =>
        have hpending : custody.pending
            (release chunkIndex request.timer state).manifest.resourceId chunkIndex
              assembledBuffer :=
          hkept.assembled _ chunkIndex _ assembledBuffer hgathered hcomplete hassembled
        obtain ⟨hsealed, htask⟩ := holdsTask_verifyAndStoreChunk hpending
          (pieceLatency env request) true
        have hpassed := hreleased.trans hsealed
        refine ⟨(hholds.sealed hpassed).enqueue ?_, hpassed.store⟩
        rw [hsealed.manifest]
        exact htask
    · refine ⟨⟨hholds.known, hholds.tasks, fun other item hget ↦ ?_⟩, rfl⟩
      change (state.reassembly.set chunkIndex _).get? other = some item at hget
      rw [OrderedMap.get?_set] at hget
      split_ifs at hget with hother
      · rw [← Option.some.inj hget, hother]
        exact hgathered
      · exact hholds.reassembly other item hget

/-- After a check the bytes are handed to the store, or the chunk is fetched from the origin. -/
theorem holdsTask_afterVerify (env : Env) {chunkIndex : ℕ} {data : Bytes} {expected : String}
    (hdata : (verify digest data expected).valid = true →
      custody.accepted state.manifest.resourceId chunkIndex data)
    (latencyMs : ℕ) (fromP2P : Bool) :
    Sealed state (afterVerify digest env chunkIndex expected data latencyMs state).1 ∧
      custody.HoldsTask state.manifest.resourceId
        ⟨chunkIndex, fromP2P,
          (afterVerify digest env chunkIndex expected data latencyMs state).2⟩ := by
  unfold afterVerify
  simp only
  split_ifs with hinvalid
  · refine ⟨Sealed.trans ?_ (sealed_dispatchOriginFallback env chunkIndex _),
      holdsTask_of_stage (by simp) (by simp)⟩
    exact sealed_of_eq rfl rfl rfl rfl
  · exact ⟨sealed_of_eq rfl rfl rfl rfl,
      holdsTask_putting (hdata (Bool.eq_true_of_not_eq_false hinvalid)) fromP2P latencyMs false⟩

theorem sealed_afterPut (chunkIndex : ℕ) (fromP2P : Bool) (data : Bytes) (latencyMs : ℕ)
    (state : SchedulerState σ) :
    Sealed state (afterPut chunkIndex fromP2P data latencyMs state).1 := by
  unfold afterPut
  split
  · exact Sealed.refl state
  · simp only
    split
    · exact sealed_of_eq rfl rfl rfl rfl
    · exact sealed_of_eq rfl rfl rfl rfl

theorem sealed_finish (env : Env) (index : ℕ) (task : Task) (state : SchedulerState σ) :
    Sealed state (finish env index task state) := by
  have hsettled : Sealed state (settle index state) :=
    ⟨rfl, rfl, fun other hmem ↦ Or.inl (List.mem_of_mem_eraseIdx hmem), fun _ _ hget ↦ hget⟩
  unfold finish
  simp only
  split_ifs
  · exact hsettled.trans (sealed_scheduleIfRunning env _)
  · refine hsettled.trans (Sealed.trans ?_ (sealed_scheduleIfRunning env _))
    exact sealed_of_eq rfl rfl rfl rfl

namespace Custody

/-- A task moves on after a part that brought nothing in. -/
theorem Holds.advance_sealed (hholds : custody.Holds known state.toChunkScheduler)
    (hstore : StoreAccepts custody.accepted chunkStore state.store) (hsealed : Sealed state next)
    (index : ℕ) (task : Task) (stage : Stage)
    (htask : custody.HoldsTask state.manifest.resourceId
      ⟨task.chunkIndex, task.fromP2P, stage⟩) :
    custody.Holds known (Web.advance index task stage next).toChunkScheduler ∧
      StoreAccepts custody.accepted chunkStore (Web.advance index task stage next).store := by
  constructor
  · exact (hholds.sealed hsealed).advance (hsealed.manifest ▸ htask)
  · change StoreAccepts custody.accepted chunkStore next.store
    rw [hsealed.store]
    exact hstore

theorem Holds.reject_sealed (hholds : custody.Holds known state.toChunkScheduler)
    (hstore : StoreAccepts custody.accepted chunkStore state.store) (hsealed : Sealed state next)
    (index : ℕ) (task : Task) (error : String) :
    custody.Holds known (Web.reject index task error next).toChunkScheduler ∧
      StoreAccepts custody.accepted chunkStore (Web.reject index task error next).store := by
  unfold Web.reject
  split_ifs
  · refine ⟨(hholds.sealed hsealed).settle index, ?_⟩
    change StoreAccepts custody.accepted chunkStore next.store
    rw [hsealed.store]
    exact hstore
  · exact hholds.advance_sealed hstore hsealed index task _
      (holdsTask_of_stage (by simp) (by simp))

/-- The end of `verifyAndStoreChunk`. -/
theorem Holds.afterPut (hholds : custody.Holds known state.toChunkScheduler)
    (hstore : StoreAccepts custody.accepted chunkStore state.store) (index : ℕ) (task : Task)
    (data : Bytes) (latencyMs : ℕ) :
    custody.Holds known (afterStore index task
        (Web.afterPut task.chunkIndex task.fromP2P data latencyMs state)).toChunkScheduler ∧
      StoreAccepts custody.accepted chunkStore (afterStore index task
        (Web.afterPut task.chunkIndex task.fromP2P data latencyMs state)).store := by
  have hsealed := sealed_afterPut task.chunkIndex task.fromP2P data latencyMs state
  unfold afterStore
  split
  · exact hholds.advance_sealed hstore hsealed index task _
      (holdsTask_of_stage (by simp) (by simp))
  · exact hholds.reject_sealed hstore hsealed index task _

/-- A task goes on. -/
theorem Holds.continueTask (hkept : custody.Kept digest known allowed) (hwf : WellFormed state)
    (hholds : custody.Holds known state.toChunkScheduler)
    (hstore : StoreAccepts custody.accepted chunkStore state.store) {index : ℕ} {task : Task}
    (htask : state.tasks[index]? = some task) {settlement : Settlement}
    (hallowed : allowed state.toChunkScheduler (.settled index settlement)) :
    custody.Holds known
        (continueTask digest chunkStore env index task settlement state).toChunkScheduler ∧
      StoreAccepts custody.accepted chunkStore
        (continueTask digest chunkStore env index task settlement state).store := by
  have hmem := List.mem_of_getElem? htask
  have hheld := hholds.tasks task hmem
  have htransition := continueTask_transition digest chunkStore env index task settlement state
  generalize Web.continueTask digest chunkStore env index task settlement state = next
    at htransition ⊢
  cases htransition with
  | ignored => exact ⟨hholds, hstore⟩
  | fetched fetchStart data hstage =>
    obtain ⟨hsealed, hpassed⟩ := holdsTask_verifyAndStoreChunk
      (hkept.fetched state.toChunkScheduler index data task hallowed htask)
      (latencySince env fetchStart) task.fromP2P
    exact hholds.advance_sealed hstore hsealed index task _ hpassed
  | fetchFailed fetchStart error =>
    exact hholds.advance_sealed hstore (Sealed.refl state) index task _
      (holdsTask_of_stage (by simp) (by simp))
  | verified expected data latencyMs hstage =>
    have hexpected := (hwf.tasks_ok task hmem).expected expected data latencyMs hstage
    obtain ⟨hsealed, hpassed⟩ := holdsTask_afterVerify env
      (fun hvalid ↦ hkept.verified state.toChunkScheduler index task expected data latencyMs
        hholds.known hallowed htask hstage (hheld.verifying expected data latencyMs hstage)
        ⟨expected, hexpected, hvalid⟩) latencyMs task.fromP2P
    exact hholds.advance_sealed hstore hsealed index task _ hpassed
  | verifyFailed expected data latencyMs error =>
    exact hholds.reject_sealed hstore (Sealed.refl state) index task error
  | putFailed data latencyMs done error =>
    exact hholds.reject_sealed hstore (Sealed.refl state) index task error
  | written data latencyMs hstage =>
    have hdata := hheld.putting data latencyMs false hstage
    have hwritten : custody.Holds known { state with
        store := chunkStore.put state.store state.resourceId task.chunkIndex
          data }.toChunkScheduler := hholds
    exact ⟨hwritten.advance (holdsTask_putting hdata task.fromP2P latencyMs true),
      hstore.put hdata⟩
  | putDone data latencyMs => exact hholds.afterPut hstore index task data latencyMs
  | caught error =>
    exact hholds.advance_sealed hstore (sealed_of_eq rfl rfl rfl rfl) index task _
      (holdsTask_of_stage (by simp) (by simp))
  | finished =>
    have hsealed := sealed_finish env index task state
    refine ⟨hholds.sealed hsealed, ?_⟩
    rw [hsealed.store]
    exact hstore

/-- A scheduler to which only allowed bytes come writes accepted bytes only. -/
theorem Kept.guards (hkept : custody.Kept digest known allowed) (chunkStore : IChunkStore σ) :
    Guards digest chunkStore custody.accepted known (custody.Holds known) allowed where
  new manifest localBitfield hknown := by
    refine ⟨hknown, fun _ hmem ↦ absurd hmem List.not_mem_nil, fun chunkIndex item hget ↦ ?_⟩
    simp [ChunkScheduler.new] at hget
  internal := hkept.internal
  perform env event state hwf hholds hallowed hstore := by
    by_cases hinternal : event.IsInternal
    · have hsealed := sealed_perform digest chunkStore env hwf hinternal
      exact ⟨hholds.sealed hsealed, by rw [hsealed.store]; exact hstore⟩
    cases event with
    | handlePiece chunkIndex beginOffset totalLength data =>
      obtain ⟨hnext, hsame⟩ := hholds.handlePiece hkept env hallowed
      exact ⟨hnext, by rw [perform, hsame]; exact hstore⟩
    | settled index settlement =>
      unfold perform
      cases htask : state.tasks[index]? with
      | none =>
        simp only [htask]
        exact ⟨hholds, hstore⟩
      | some task =>
        simp only [htask]
        exact hholds.continueTask hkept hwf hstore htask hallowed
    | _ => exact absurd trivial hinternal

end Custody

end Custody

/-! ### Genuine bytes -/

section Genuine

variable (truth : String → ℕ → Option Bytes)

/-- The bytes of a chunk as they are in the file. -/
def IsTrue (resourceId : String) (chunkIndex : ℕ) (data : Bytes) : Prop :=
  truth resourceId chunkIndex = some data

/-- The manifest lists hashes that the bytes of the file pass. -/
def Publishes (digest : Bytes → Bytes) (manifest : ResourceManifest) : Prop :=
  ∀ chunkIndex expected data, expectedHash manifest chunkIndex = some expected →
    truth manifest.resourceId chunkIndex = some data → (verify digest data expected).valid = true

/-- Nothing but bytes of the file. -/
def genuineCustody : Custody where
  pending := IsTrue truth
  accepted := IsTrue truth
  gathered resourceId chunkIndex item := ∃ chunkData received,
    truth resourceId chunkIndex = some chunkData ∧ Collected chunkData received item

/-- The event brings only what is in the file: pieces are blocks of a chunk, and the origin delivers
the chunk that was asked for. -/
def BringsGenuine (scheduler : ChunkScheduler) : SchedulerEvent → Prop
  | .handlePiece chunkIndex beginOffset totalLength data =>
    IsBlockOf (IsTrue truth) scheduler.manifest.resourceId chunkIndex beginOffset totalLength data
  | .settled index (.fetched data) => ∀ task, scheduler.tasks[index]? = some task →
    truth scheduler.manifest.resourceId task.chunkIndex = some data
  | _ => True

variable {truth} {known : ResourceManifest → Prop} {digest : Bytes → Bytes}

/-- Blocks of the file are put together to a chunk of the file. -/
theorem kept_genuine (digest : Bytes → Bytes) (truth : String → ℕ → Option Bytes)
    (known : ResourceManifest → Prop) :
    (genuineCustody truth).Kept digest known (BringsGenuine truth) where
  internal scheduler event hinternal := by
    cases event with
    | handlePiece | settled => exact absurd hinternal id
    | _ => trivial
  received scheduler chunkIndex beginOffset totalLength data hblock before hbefore := by
    obtain ⟨chunkData, htrue, rfl, index, hindex, rfl, rfl⟩ := hblock
    have hsome : ∃ received, Collected chunkData received
        (before.getD ⟨chunkData.length, 0, OrderedMap.empty⟩) := by
      cases before with
      | none => exact ⟨∅, collected_empty chunkData⟩
      | some item =>
        obtain ⟨other, received, hother, hcollected⟩ := hbefore item rfl
        have hsame : other = chunkData := Option.some.inj (hother.symm.trans htrue)
        exact ⟨received, hsame ▸ hcollected⟩
    obtain ⟨received, hcollected⟩ := hsome
    exact ⟨chunkData, insert index received, htrue, hcollected.add hindex⟩
  assembled resourceId chunkIndex item data := by
    rintro ⟨chunkData, received, htrue, hcollected⟩ hcomplete hassembled
    rw [hcollected.assembles (hcollected.complete_iff.mp hcomplete)] at hassembled
    exact Except.ok.inj hassembled ▸ htrue
  fetched _ _ _ task hallowed htask := hallowed task htask
  verified _ _ _ _ _ _ _ _ _ _ hpending _ := hpending

/-- No check of a scheduler that holds only bytes of the file can fail. -/
theorem valid_of_genuine {scheduler : ChunkScheduler}
    (hholds : (genuineCustody truth).Holds known scheduler)
    (hpublishes : Publishes truth digest scheduler.manifest) {totalChunks : ℕ}
    (hok : ∀ task ∈ scheduler.tasks, task.Ok scheduler.manifest totalChunks) {task : Task}
    (hmem : task ∈ scheduler.tasks) {expected : String} {data : Bytes} {latencyMs : ℕ}
    (hstage : task.stage = .verifying expected data latencyMs) :
    (verify digest data expected).valid = true := by
  exact hpublishes task.chunkIndex expected data
    ((hok task hmem).expected expected data latencyMs hstage)
    ((hholds.tasks task hmem).verifying expected data latencyMs hstage)

end Genuine

/-! ### Checked bytes -/

section Checked

variable (digest : Bytes → Bytes) (known : ResourceManifest → Prop)

/-- The bytes pass the check of a chunk of a known resource. -/
def Checked (resourceId : String) (chunkIndex : ℕ) (data : Bytes) : Prop :=
  ∃ manifest, known manifest ∧ manifest.resourceId = resourceId ∧
    Verified digest manifest chunkIndex data

/-- They do, and their length fits into the field of a PIECE. -/
def ShortChecked (resourceId : String) (chunkIndex : ℕ) (data : Bytes) : Prop :=
  Checked digest known resourceId chunkIndex data ∧ data.length < 2 ^ 32

/-- Bytes that will not pass a check, or are short. -/
def checkedCustody : Custody where
  pending resourceId chunkIndex data :=
    Checked digest known resourceId chunkIndex data → data.length < 2 ^ 32
  accepted := ShortChecked digest known
  gathered _ _ item := item.totalLength < 2 ^ 32

/-- The event brings no more than frames can carry, where a check would let it pass. -/
def BringsShort : SchedulerEvent → Prop
  | .handlePiece _ _ totalLength _ => totalLength < 2 ^ 32
  | .settled _ (.fetched data) => ∀ resourceId chunkIndex,
    Checked digest known resourceId chunkIndex data → data.length < 2 ^ 32
  | _ => True

theorem length_of_assembleParts {buffer result : Bytes} {parts : List (ℕ × Bytes)}
    (hassembled : assembleParts buffer parts = .ok result) : result.length = buffer.length := by
  induction parts generalizing buffer with
  | nil => exact congrArg List.length (Except.ok.inj hassembled).symm
  | cons part rest ih =>
    obtain ⟨written, hwritten, hrest⟩ := bind_eq_ok_iff.mp hassembled
    unfold setBytes at hwritten
    split at hwritten
    · next hblit =>
      rw [ih hrest, ← Except.ok.inj hwritten, length_of_blit hblit]
    · simp at hwritten

/-- Whatever peers and the origin send, a scheduler waits to store checked bytes only. -/
theorem kept_checked :
    (checkedCustody digest known).Kept digest known fun _ ↦ BringsShort digest known where
  internal _ event hinternal := by
    cases event with
    | handlePiece | settled => exact absurd hinternal id
    | _ => trivial
  received _ _ _ _ _ hallowed before hbefore := by
    have hlength : ∀ (item : ChunkReassembly) beginOffset data,
        (item.add beginOffset data).totalLength = item.totalLength := by
      intro item beginOffset data
      unfold ChunkReassembly.add
      split_ifs
      · rfl
      · rfl
    change ChunkReassembly.totalLength _ < _
    rw [hlength]
    cases before with
    | none => exact hallowed
    | some item => exact hbefore item rfl
  assembled _ _ _ data hgathered _ hassembled _ := by
    rw [length_of_assembleParts hassembled, List.length_replicate]
    exact hgathered
  fetched _ _ _ _ hallowed _ := hallowed _ _
  verified scheduler _ _ _ _ _ hknown _ _ _ hpending hverified :=
    have hchecked := ⟨scheduler.manifest, hknown, rfl, hverified⟩
    ⟨hchecked, hpending hchecked⟩

end Checked

/-! ### Bytes without collisions -/

section Resistant

variable (accepts : String → ℕ → Bytes → Prop) (digest : Bytes → Bytes)
  (known : ResourceManifest → Prop)

/-- Accepted bytes wait for the store, whatever waits for a check. -/
def resistantCustody : Custody where
  pending _ _ _ := True
  accepted := accepts
  gathered _ _ _ := True

/-- The event lets no other bytes pass a check. -/
def Resists (scheduler : ChunkScheduler) : SchedulerEvent → Prop
  | .settled index .verified => ∀ task, scheduler.tasks[index]? = some task →
    ∀ expected data latencyMs, task.stage = .verifying expected data latencyMs →
      Checked digest known scheduler.manifest.resourceId task.chunkIndex data →
        accepts scheduler.manifest.resourceId task.chunkIndex data
  | _ => True

/-- If no other bytes pass a check, no other bytes are stored. -/
theorem kept_resistant :
    (resistantCustody accepts).Kept digest known (Resists accepts digest known) where
  internal _ event hinternal := by
    cases event with
    | handlePiece | settled => exact absurd hinternal id
    | _ => trivial
  received _ _ _ _ _ _ _ _ := trivial
  assembled _ _ _ _ _ _ _ := trivial
  fetched _ _ _ _ _ _ := trivial
  verified scheduler _ task expected data latencyMs hknown hallowed htask hstage _ hverified :=
    hallowed task htask expected data latencyMs hstage ⟨scheduler.manifest, hknown, rfl, hverified⟩

end Resistant

end CampusMesh.Web
