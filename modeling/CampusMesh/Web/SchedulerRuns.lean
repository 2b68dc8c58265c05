import CampusMesh.Web.ChunkScheduler

/-!
# Runs of the chunk scheduler

The public methods of the scheduler, the continuations of its asynchronous ones, and the step
function over events. An event that names a timer that is not armed, or a task that does not wait
for what the event reports, changes nothing; so a run may list any events in any order.

A continuation that throws settles its task: on the path of a peer's piece the promise of
`handlePiece` rejects and nothing follows; on the origin path `.catch` and `.finally` follow.
-/

set_option autoImplicit false
set_option relaxedAutoImplicit false

namespace CampusMesh.Web

open Library Shared SchedulerState

variable {σ : Type}

/-! ### Methods -/

/-- Starts scheduling. -/
def start (env : Env) : Method σ := fun state ↦
  if state.isRunning then (state, none)
  else scheduleNext env { state with isRunning := true }

/-- Stops scheduling and drops everything outstanding; pending continuations go on. -/
def stop (state : SchedulerState σ) : SchedulerState σ :=
  { state with
    isRunning := false
    timers := state.inFlight.values.foldl (fun timers request ↦ timers.delete request.timer)
      state.timers
    inFlight := OrderedMap.empty
    reassembly := OrderedMap.empty
    originInFlight := ∅ }

/-- Keeps the bitfield object of a peer, unchoked unless it was choked before. -/
def updatePeerBitfield (env : Env) (peerId : String) (address : ℕ) : Method σ := fun state ↦
  scheduleIfRunning env
    { state with
      peerBitfields := state.peerBitfields.set peerId address
      peerChoked :=
        if state.peerChoked.has peerId then state.peerChoked
        else state.peerChoked.set peerId false }

/-- The bitfield object of a peer, made on first use. -/
def peerBitfield (peerId : String) (state : SchedulerState σ) : SchedulerState σ × ℕ :=
  match state.peerBitfields.get? peerId with
  | some address => (state, address)
  | none =>
    ({ state with
        heap := state.heap ++ [Bitfield.new state.manifest.totalChunks]
        peerBitfields := state.peerBitfields.set peerId state.heap.length }, state.heap.length)

/-- Marks a chunk in the bitfield object of a peer. -/
def updatePeerHave (env : Env) (peerId : String) (chunkIndex : ℕ) : Method σ := fun state ↦
  let located := peerBitfield peerId state
  match (located.1.bitfieldAt located.2).set chunkIndex with
  | .error error => (located.1, some error)
  | .ok bitfield =>
    scheduleIfRunning env { located.1 with heap := located.1.heap.set located.2 bitfield }

/-- Keeps whether a peer chokes this client. -/
def setPeerChoked (env : Env) (peerId : String) (choked : Bool) : Method σ := fun state ↦
  let state := { state with peerChoked := state.peerChoked.set peerId choked }
  if choked then (state, none) else scheduleIfRunning env state

/-- Takes a request off the books: its timer, its slot and its blocks. -/
def release (chunkIndex timer : ℕ) (state : SchedulerState σ) : SchedulerState σ :=
  { state with
    timers := state.timers.delete timer
    inFlight := state.inFlight.delete chunkIndex
    reassembly := state.reassembly.delete chunkIndex }

/-- The loop body of `removePeer`. -/
def reassign (env : Env) (peerId : String) (entry : ℕ × InFlightRequest) : Method σ := fun state ↦
  if entry.2.peerId = peerId then
    scheduleChunk env entry.1 (entry.2.retries + 1) (release entry.1 entry.2.timer state)
  else (state, none)

/-- Forgets a peer and schedules again what was requested from it. -/
def removePeer (env : Env) (peerId : String) : Method σ := fun state ↦
  let state := { state with
    peerBitfields := state.peerBitfields.delete peerId
    peerChoked := state.peerChoked.delete peerId }
  Action.andThen (Action.forEach (reassign env peerId) state.inFlight.entries)
    (scheduleIfRunning env) state

/-- The timer of a request fired; a timer that fires is no longer armed. -/
def handleTimeout (env : Env) (chunkIndex timer : ℕ) : Method σ := fun state ↦
  match state.inFlight.get? chunkIndex with
  | none => ({ state with timers := state.timers.delete timer }, none)
  | some request =>
    let state := (release chunkIndex timer state).log [.onRetry chunkIndex request.peerId]
    Action.andThen (scheduleChunk env chunkIndex (request.retries + 1)) (scheduleNext env) state

/-! ### Verification and storage -/

/-- The part of `verifyAndStoreChunk` before its first `await`. -/
def verifyAndStoreChunk (chunkIndex : ℕ) (data : Bytes) (latencyMs : ℕ)
    (state : SchedulerState σ) : SchedulerState σ × Stage :=
  match expectedHash state.manifest chunkIndex with
  | none =>
    (state.log [.onError ("Missing expected SHA-256 hash in manifest for chunk " ++
      toString chunkIndex)], .returned)
  | some expected => (state, .verifying expected data latencyMs)

/-- The calls that report a corrupt chunk. -/
def corruptionCalls (chunkIndex : ℕ) (expected actualHash : String) : List Call :=
  [.onCorruption chunkIndex expected actualHash,
    .onError ("Corrupt chunk " ++ toString chunkIndex ++ " rejected! Expected " ++ expected ++
      ", got " ++ actualHash)]

/-- The part of `verifyAndStoreChunk` after `IntegrityVerifier.verify`: bytes that do not match are
discarded and fetched from the origin, others are handed to the chunk store. -/
def afterVerify (digest : Bytes → Bytes) (env : Env) (chunkIndex : ℕ) (expected : String)
    (data : Bytes) (latencyMs : ℕ) (state : SchedulerState σ) : SchedulerState σ × Stage :=
  let verification := verify digest data expected
  if verification.valid = false then
    let state := state.log (corruptionCalls chunkIndex expected verification.actualHash)
    ((dispatchOriginFallback env chunkIndex state).1, .returned)
  else (state.log [.put state.resourceId chunkIndex data], .putting data latencyMs false)

/-- The calls that report a stored chunk. -/
def completionCalls (manifest : ResourceManifest) (localBitfield : Bitfield) (haveMsg : Bytes)
    (chunkIndex : ℕ) (fromP2P : Bool) (byteLength latencyMs : ℕ) : List Call :=
  [.broadcastToPeers haveMsg, .onChunkCompleted chunkIndex fromP2P byteLength latencyMs,
    .onDownloadProgress localBitfield.count manifest.totalChunks] ++
    if localBitfield.isComplete then [.onDownloadComplete] else []

/-- The part of `verifyAndStoreChunk` after `chunkStore.put`. -/
def afterPut (chunkIndex : ℕ) (fromP2P : Bool) (data : Bytes) (latencyMs : ℕ)
    (state : SchedulerState σ) : SchedulerState σ × Option JsError :=
  match state.localBitfield.set chunkIndex with
  | .error error => (state, some error)
  | .ok bitfield =>
    let state := { state with localBitfield := bitfield }
    match encodeHave state.resourceId chunkIndex with
    | .error error => (state, some error)
    | .ok haveMsg =>
      (state.log (completionCalls state.manifest bitfield haveMsg chunkIndex fromP2P data.length
        latencyMs), none)

/-! ### Pieces -/

/-- Writes blocks at their offsets into a buffer. -/
def assembleParts : Bytes → List (ℕ × Bytes) → Except JsError Bytes
  | buffer, [] => .ok buffer
  | buffer, (offset, slice) :: rest => do
    let buffer ← setBytes buffer offset slice
    assembleParts buffer rest

/-- Adds a block unless one with its offset is there already. -/
def ChunkReassembly.add (item : ChunkReassembly) (beginOffset : ℕ) (data : Bytes) :
    ChunkReassembly :=
  if item.parts.has beginOffset then item
  else
    { item with
      parts := item.parts.set beginOffset data
      receivedBytes := item.receivedBytes + data.length }

/-- The reassembly of a chunk after one more block. -/
def receive (chunkIndex beginOffset totalLength : ℕ) (data : Bytes) (state : SchedulerState σ) :
    ChunkReassembly :=
  ((state.reassembly.get? chunkIndex).getD ⟨totalLength, 0, OrderedMap.empty⟩).add beginOffset data

/-- `fetchStart` or `requestedAt` to now, at least one millisecond. -/
def latencySince (env : Env) (time : ℕ) : ℕ := max 1 (env.now - time)

/-- The latency of a chunk whose last block has come. -/
def pieceLatency (env : Env) (request : InFlightRequest) : ℕ :=
  if request.requestedAt = 0 then 50 else latencySince env request.requestedAt

/-- Adds a task. -/
def enqueue (task : Task) (state : SchedulerState σ) : SchedulerState σ :=
  { state with tasks := state.tasks ++ [task] }

/-- The branch of `handlePiece` for a chunk whose blocks have all come: the slot is released, the
blocks are put together and handed to verification. -/
def completePiece (env : Env) (chunkIndex : ℕ) (request : InFlightRequest)
    (item : ChunkReassembly) : Method σ := fun state ↦
  let latencyMs := pieceLatency env request
  let state := release chunkIndex request.timer state
  match assembleParts (List.replicate item.totalLength 0) item.parts.entries with
  | .error error => (state, some error)
  | .ok assembledBuffer =>
    let outcome := verifyAndStoreChunk chunkIndex assembledBuffer latencyMs state
    (enqueue ⟨chunkIndex, true, outcome.2⟩ outcome.1, none)

/-- Takes a block of a requested chunk. -/
def handlePiece (env : Env) (chunkIndex beginOffset totalLength : ℕ) (data : Bytes) : Method σ :=
  fun state ↦
    match state.inFlight.get? chunkIndex with
    | none => (state, none)
    | some request =>
      let item := receive chunkIndex beginOffset totalLength data state
      if item.totalLength ≤ item.receivedBytes then completePiece env chunkIndex request item state
      else ({ state with reassembly := state.reassembly.set chunkIndex item }, none)

/-! ### Continuations -/

/-- Moves a task to its next stage. -/
def advance (index : ℕ) (task : Task) (stage : Stage) (state : SchedulerState σ) :
    SchedulerState σ :=
  { state with tasks := state.tasks.set index { task with stage := stage } }

/-- Ends a task. -/
def settle (index : ℕ) (state : SchedulerState σ) : SchedulerState σ :=
  { state with tasks := state.tasks.eraseIdx index }

/-- `verifyAndStoreChunk` threw. The promise of `handlePiece` rejects; on the origin path `.catch`
is next. -/
def reject (index : ℕ) (task : Task) (error : String) (state : SchedulerState σ) :
    SchedulerState σ :=
  if task.fromP2P then settle index state else advance index task (.rejected error) state

/-- Where a task goes after the last part of `verifyAndStoreChunk`. -/
def afterStore (index : ℕ) (task : Task) (outcome : SchedulerState σ × Option JsError) :
    SchedulerState σ :=
  match outcome.2 with
  | none => advance index task .returned outcome.1
  | some error => reject index task error.toText outcome.1

/-- What ends a task after `verifyAndStoreChunk`. -/
def finish (env : Env) (index : ℕ) (task : Task) (state : SchedulerState σ) : SchedulerState σ :=
  let state := settle index state
  if task.fromP2P then (scheduleIfRunning env state).1
  else
    (scheduleIfRunning env
      { state with originInFlight := state.originInFlight.erase task.chunkIndex }).1

/-- What a pending promise may report to the task that waits for it. -/
inductive Settlement
  | fetched (data : Bytes)
  | fetchFailed (error : String)
  | verified
  | verifyFailed (error : String)
  | written
  | putDone
  | putFailed (error : String)
  | resumed

/-- The message of `.catch` in the origin fallback. -/
def originFailure (chunkIndex : ℕ) (error : String) : String :=
  "Origin fallback failed for chunk " ++ toString chunkIndex ++ ": " ++ error

/-- A task goes on with what it waited for. -/
def continueTask (digest : Bytes → Bytes) (chunkStore : IChunkStore σ) (env : Env) (index : ℕ)
    (task : Task) (settlement : Settlement) (state : SchedulerState σ) : SchedulerState σ :=
  match task.stage, settlement with
  | .fetching fetchStart, .fetched data =>
    let outcome := verifyAndStoreChunk task.chunkIndex data (latencySince env fetchStart) state
    advance index task outcome.2 outcome.1
  | .fetching _, .fetchFailed error => advance index task (.rejected error) state
  | .verifying expected data latencyMs, .verified =>
    let outcome := afterVerify digest env task.chunkIndex expected data latencyMs state
    advance index task outcome.2 outcome.1
  | .verifying _ _ _, .verifyFailed error => reject index task error state
  | .putting data latencyMs false, .written =>
    advance index task (.putting data latencyMs true)
      { state with store := chunkStore.put state.store state.resourceId task.chunkIndex data }
  | .putting data latencyMs true, .putDone =>
    afterStore index task (afterPut task.chunkIndex task.fromP2P data latencyMs state)
  | .putting _ _ _, .putFailed error => reject index task error state
  | .rejected error, .resumed =>
    advance index task .returned (state.log [.onError (originFailure task.chunkIndex error)])
  | .returned, .resumed => finish env index task state
  | _, _ => state

/-- A task at this stage waits for the settlement. -/
def Stage.awaits : Stage → Settlement → Bool
  | .fetching _, .fetched _ | .fetching _, .fetchFailed _ => true
  | .verifying _ _ _, .verified | .verifying _ _ _, .verifyFailed _ => true
  | .putting _ _ false, .written | .putting _ _ true, .putDone => true
  | .putting _ _ _, .putFailed _ => true
  | .rejected _, .resumed | .returned, .resumed => true
  | _, _ => false

/-- How a task goes on: with what it waits for at its stage, or not at all. -/
inductive TaskTransition (digest : Bytes → Bytes) (chunkStore : IChunkStore σ) (env : Env)
    (index : ℕ) (task : Task) (state : SchedulerState σ) : Settlement → SchedulerState σ → Prop
  | ignored {settlement : Settlement} (hidle : task.stage.awaits settlement = false) :
      TaskTransition digest chunkStore env index task state settlement state
  | fetched (fetchStart : ℕ) (data : Bytes) (hstage : task.stage = .fetching fetchStart) :
      TaskTransition digest chunkStore env index task state (.fetched data)
        (advance index task
          (verifyAndStoreChunk task.chunkIndex data (latencySince env fetchStart) state).2
          (verifyAndStoreChunk task.chunkIndex data (latencySince env fetchStart) state).1)
  | fetchFailed (fetchStart : ℕ) (error : String) (hstage : task.stage = .fetching fetchStart) :
      TaskTransition digest chunkStore env index task state (.fetchFailed error)
        (advance index task (.rejected error) state)
  | verified (expected : String) (data : Bytes) (latencyMs : ℕ)
      (hstage : task.stage = .verifying expected data latencyMs) :
      TaskTransition digest chunkStore env index task state .verified
        (advance index task
          (afterVerify digest env task.chunkIndex expected data latencyMs state).2
          (afterVerify digest env task.chunkIndex expected data latencyMs state).1)
  | verifyFailed (expected : String) (data : Bytes) (latencyMs : ℕ) (error : String)
      (hstage : task.stage = .verifying expected data latencyMs) :
      TaskTransition digest chunkStore env index task state (.verifyFailed error)
        (reject index task error state)
  | written (data : Bytes) (latencyMs : ℕ) (hstage : task.stage = .putting data latencyMs false) :
      TaskTransition digest chunkStore env index task state .written
        (advance index task (.putting data latencyMs true)
          { state with store := chunkStore.put state.store state.resourceId task.chunkIndex data })
  | putDone (data : Bytes) (latencyMs : ℕ) (hstage : task.stage = .putting data latencyMs true) :
      TaskTransition digest chunkStore env index task state .putDone
        (afterStore index task (afterPut task.chunkIndex task.fromP2P data latencyMs state))
  | putFailed (data : Bytes) (latencyMs : ℕ) (done : Bool) (error : String)
      (hstage : task.stage = .putting data latencyMs done) :
      TaskTransition digest chunkStore env index task state (.putFailed error)
        (reject index task error state)
  | caught (error : String) (hstage : task.stage = .rejected error) :
      TaskTransition digest chunkStore env index task state .resumed
        (advance index task .returned (state.log [.onError (originFailure task.chunkIndex error)]))
  | finished (hstage : task.stage = .returned) :
      TaskTransition digest chunkStore env index task state .resumed (finish env index task state)

/-- Every continuation is one of these. -/
theorem continueTask_transition (digest : Bytes → Bytes) (chunkStore : IChunkStore σ) (env : Env)
    (index : ℕ) (task : Task) (settlement : Settlement) (state : SchedulerState σ) :
    TaskTransition digest chunkStore env index task state settlement
      (continueTask digest chunkStore env index task settlement state) := by
  unfold continueTask
  split
  · next fetchStart data hstage => exact .fetched fetchStart data hstage
  · next fetchStart error hstage => exact .fetchFailed fetchStart error hstage
  · next expected data latencyMs hstage => exact .verified expected data latencyMs hstage
  · next expected data latencyMs error hstage =>
    exact .verifyFailed expected data latencyMs error hstage
  · next data latencyMs hstage => exact .written data latencyMs hstage
  · next data latencyMs hstage => exact .putDone data latencyMs hstage
  · next data latencyMs done error hstage => exact .putFailed data latencyMs done error hstage
  · next error hstage => exact .caught error hstage
  · next hstage => exact .finished hstage
  · next hfetched hfetchFailed hverified hverifyFailed hwritten hputDone hputFailed hcaught
      hfinished =>
    refine .ignored ?_
    unfold Stage.awaits
    split
    · next hstage => exact (hfetched _ _ hstage rfl).elim
    · next hstage => exact (hfetchFailed _ _ hstage rfl).elim
    · next hstage => exact (hverified _ _ _ hstage rfl).elim
    · next hstage => exact (hverifyFailed _ _ _ _ hstage rfl).elim
    · next hstage => exact (hwritten _ _ hstage rfl).elim
    · next hstage => exact (hputDone _ _ hstage rfl).elim
    · next hstage => exact (hputFailed _ _ _ _ hstage rfl).elim
    · next hstage => exact (hcaught _ hstage rfl).elim
    · next hstage => exact (hfinished hstage rfl).elim
    · rfl

/-- The digest of the data has been compared. -/
theorem continueTask_verified {digest : Bytes → Bytes} {chunkStore : IChunkStore σ} {env : Env}
    {index : ℕ} {task : Task} {expected : String} {data : Bytes} {latencyMs : ℕ}
    (hstage : task.stage = .verifying expected data latencyMs) (state : SchedulerState σ) :
    continueTask digest chunkStore env index task .verified state =
      advance index task (afterVerify digest env task.chunkIndex expected data latencyMs state).2
        (afterVerify digest env task.chunkIndex expected data latencyMs state).1 := by
  unfold continueTask
  rw [hstage]

/-- The last turn. -/
theorem continueTask_finished {digest : Bytes → Bytes} {chunkStore : IChunkStore σ} {env : Env}
    {index : ℕ} {task : Task} (hstage : task.stage = .returned) (state : SchedulerState σ) :
    continueTask digest chunkStore env index task .resumed state = finish env index task state := by
  unfold continueTask
  rw [hstage]

/-! ### Events and runs -/

/-- What can happen to a scheduler. -/
inductive SchedulerEvent
  | start
  | stop
  | updatePeerBitfield (peerId : String) (address : ℕ)
  | updatePeerHave (peerId : String) (chunkIndex : ℕ)
  | setPeerChoked (peerId : String) (choked : Bool)
  | removePeer (peerId : String)
  | scheduleNext
  | handlePiece (chunkIndex beginOffset totalLength : ℕ) (data : Bytes)
  /-- A request timer fires. -/
  | timeout (timer : ℕ)
  /-- A promise settles for which the task at an index waits. -/
  | settled (index : ℕ) (settlement : Settlement)
  /-- Other code changes the bitfield objects it shares with the scheduler. -/
  | shared (heap : List Bitfield)

/-- One event with the answers of the surroundings. -/
abbrev SchedulerInput := Env × SchedulerEvent

/-- What an event does, and the error that it throws to its caller. -/
def perform (digest : Bytes → Bytes) (chunkStore : IChunkStore σ) (env : Env) :
    SchedulerEvent → Method σ
  | .start => start env
  | .stop => fun state ↦ (stop state, none)
  | .updatePeerBitfield peerId address => updatePeerBitfield env peerId address
  | .updatePeerHave peerId chunkIndex => updatePeerHave env peerId chunkIndex
  | .setPeerChoked peerId choked => setPeerChoked env peerId choked
  | .removePeer peerId => removePeer env peerId
  | .scheduleNext => Web.scheduleNext env
  | .handlePiece chunkIndex beginOffset totalLength data =>
    handlePiece env chunkIndex beginOffset totalLength data
  | .timeout timer => fun state ↦
    match state.timers.get? timer with
    | some chunkIndex => handleTimeout env chunkIndex timer state
    | none => (state, none)
  | .settled index settlement => fun state ↦
    match state.tasks[index]? with
    | some task => (continueTask digest chunkStore env index task settlement state, none)
    | none => (state, none)
  | .shared heap => fun state ↦ ({ state with heap := heap }, none)

/-- One step of a scheduler. -/
def schedulerStep (digest : Bytes → Bytes) (chunkStore : IChunkStore σ) (state : SchedulerState σ)
    (input : SchedulerInput) : SchedulerState σ :=
  (perform digest chunkStore input.1 input.2 state).1

/-- The run of a new scheduler. -/
def schedulerRun (digest : Bytes → Bytes) (chunkStore : IChunkStore σ) (manifest : ResourceManifest)
    (localBitfield : Bitfield) (heap : List Bitfield) (store : σ) (inputs : List SchedulerInput) :
    SchedulerState σ :=
  run (schedulerStep digest chunkStore)
    (SchedulerState.new manifest localBitfield heap store) inputs

end CampusMesh.Web
