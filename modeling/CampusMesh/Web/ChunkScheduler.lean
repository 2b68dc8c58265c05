import CampusMesh.Library.Action
import CampusMesh.Library.Runs
import CampusMesh.Shared.ProtocolWire
import CampusMesh.Web.ChunkStore
import CampusMesh.Web.IntegrityVerifier
import Mathlib.Data.Finset.Insert

/-!
# The chunk scheduler

The class `ChunkScheduler`. Its methods run without interruption up to their next `await`; what
happens after an `await` is a task of its own, whose stage says what it waits for. A run is a list
of events: method calls, timers that fire, and promises that settle. Any task may go on at any time,
so every interleaving is a run.

`State` holds the fields of one scheduler, the `Bitfield` objects that it shares with its caller
(`heap`), the chunk store, and the log of the calls it made. Numbers that the source keeps
non-negative are natural numbers.
-/

set_option autoImplicit false
set_option relaxedAutoImplicit false

namespace CampusMesh.Web

open Library Shared

/-! ### Data -/

/-- An entry of `inFlight`: a chunk requested from a peer. -/
structure InFlightRequest where
  chunkIndex : ℕ
  peerId : String
  retries : ℕ
  timer : ℕ
  requestedAt : ℕ

/-- An entry of `reassembly`: the blocks of a chunk received so far, by offset. -/
structure ChunkReassembly where
  totalLength : ℕ
  receivedBytes : ℕ
  parts : OrderedMap ℕ Bytes

/-- What a started acquisition of a chunk waits for. -/
inductive Stage
  /-- `fetchFromOrigin`, called at the given time. -/
  | fetching (fetchStart : ℕ)
  /-- `IntegrityVerifier.verify` of the received bytes against the expected hash. -/
  | verifying (expectedHash : String) (data : Bytes) (latencyMs : ℕ)
  /-- `chunkStore.put`; the flag says whether the write has taken effect. -/
  | putting (data : Bytes) (latencyMs : ℕ) (written : Bool)
  /-- `.catch` of the origin fallback, after an error with the given text. -/
  | rejected (error : String)
  /-- What follows `verifyAndStoreChunk`: the end of `handlePiece` or the `.finally` of the origin
  fallback. -/
  | returned

/-- A pending continuation of `handlePiece` or of the origin fallback. -/
structure Task where
  chunkIndex : ℕ
  fromP2P : Bool
  stage : Stage

/-- A call that the scheduler makes, to a callback or to the chunk store. -/
inductive Call
  | sendToPeer (peerId : String) (buffer : Bytes) (sent : Bool)
  | broadcastToPeers (buffer : Bytes)
  | fetchFromOrigin (chunkIndex : ℕ)
  | onChunkCompleted (chunkIndex : ℕ) (fromP2P : Bool) (byteLength latencyMs : ℕ)
  | onDownloadProgress (completed total : ℕ)
  | onDownloadComplete
  | onError (message : String)
  | onCorruption (chunkIndex : ℕ) (expectedHash actualHash : String)
  | onRetry (chunkIndex : ℕ) (peerId : String)
  | onOriginFallback (chunkIndex : ℕ)
  | put (resourceId : String) (chunkIndex : ℕ) (data : Bytes)

/-- The fields of a scheduler with its armed timers and pending continuations. A peer's bitfield is
an object on the heap, named by its address. -/
structure ChunkScheduler where
  manifest : ResourceManifest
  localBitfield : Bitfield
  peerBitfields : OrderedMap String ℕ
  peerChoked : OrderedMap String Bool
  inFlight : OrderedMap ℕ InFlightRequest
  reassembly : OrderedMap ℕ ChunkReassembly
  originInFlight : Finset ℕ
  isRunning : Bool
  /-- The chunk of each armed request timer. -/
  timers : OrderedMap ℕ ℕ
  nextTimer : ℕ
  tasks : List Task

/-- `new ChunkScheduler(manifest, …, localBitfield, …)`. -/
def ChunkScheduler.new (manifest : ResourceManifest) (localBitfield : Bitfield) :
    ChunkScheduler where
  manifest := manifest
  localBitfield := localBitfield
  peerBitfields := OrderedMap.empty
  peerChoked := OrderedMap.empty
  inFlight := OrderedMap.empty
  reassembly := OrderedMap.empty
  originInFlight := ∅
  isRunning := false
  timers := OrderedMap.empty
  nextTimer := 0
  tasks := []

/-- A scheduler in its surroundings. -/
structure SchedulerState (σ : Type) extends ChunkScheduler where
  heap : List Bitfield
  store : σ
  calls : List Call

/-- What the surroundings answer during one event: the time, and whether the channel takes a frame,
as a function of the number of calls made before. -/
structure Env where
  now : ℕ
  sends : ℕ → Bool

namespace SchedulerState

variable {σ : Type}

/-- The state of a new scheduler. -/
def new (manifest : ResourceManifest) (localBitfield : Bitfield) (heap : List Bitfield)
    (store : σ) : SchedulerState σ :=
  { ChunkScheduler.new manifest localBitfield with heap := heap, store := store, calls := [] }

/-- The field `resourceId`. -/
def resourceId (state : SchedulerState σ) : String := state.manifest.resourceId

/-- Makes calls. -/
def log (state : SchedulerState σ) (calls : List Call) : SchedulerState σ :=
  { state with calls := state.calls ++ calls }

@[simp] theorem log_nil (state : SchedulerState σ) : state.log [] = state := by
  simp [log]

theorem log_pair (state : SchedulerState σ) (first second : Call) :
    state.log [first, second] = (state.log [first]).log [second] := by
  simp [log]

/-- The bitfield object at an address. -/
def bitfieldAt (state : SchedulerState σ) (address : ℕ) : Bitfield :=
  state.heap.getD address (Bitfield.new 0)

def maxInFlightPerPeer : ℕ := 2

def maxTotalInFlight : ℕ := 8

/-- `inFlight.size + originInFlight.size`. -/
def outstanding (state : SchedulerState σ) : ℕ := state.inFlight.size + state.originInFlight.card

/-- How many chunks are requested from a peer. -/
def countInFlightForPeer (state : SchedulerState σ) (peerId : String) : ℕ :=
  state.inFlight.values.countP fun request ↦ request.peerId = peerId

/-- The unchoked peers that have a chunk. -/
def eligiblePeers (state : SchedulerState σ) (chunkIndex : ℕ) : List String :=
  (state.peerBitfields.entries.filter fun entry ↦
    !(state.peerChoked.get? entry.1).getD false && (state.bitfieldAt entry.2).has chunkIndex).map
      Prod.fst

/-- Peers by their load, the least loaded first. -/
def byLoad (state : SchedulerState σ) (peers : List String) : List String :=
  peers.insertionSort fun first second ↦
    state.countInFlightForPeer first ≤ state.countInFlightForPeer second

/-- Marks a chunk as requested and arms its timer. -/
def arm (state : SchedulerState σ) (chunkIndex : ℕ) (peerId : String) (retries now : ℕ) :
    SchedulerState σ :=
  { state with
    timers := state.timers.set state.nextTimer chunkIndex
    nextTimer := state.nextTimer + 1
    inFlight := state.inFlight.set chunkIndex
      { chunkIndex, peerId, retries, timer := state.nextTimer, requestedAt := now } }

/-- Marks a chunk as being fetched from the origin and starts the fetch. -/
def beginFetch (state : SchedulerState σ) (chunkIndex now : ℕ) : SchedulerState σ :=
  { state with
    originInFlight := insert chunkIndex state.originInFlight
    calls := state.calls ++ [.onOriginFallback chunkIndex, .fetchFromOrigin chunkIndex]
    tasks := state.tasks ++ [⟨chunkIndex, false, .fetching now⟩] }

end SchedulerState

open SchedulerState

/-- A method of the scheduler. -/
abbrev Method (σ : Type) := Action (SchedulerState σ) JsError

variable {σ : Type}

/-! ### Scheduling -/

/-- Fetches a chunk from the origin unless it is there or being fetched. -/
def dispatchOriginFallback (env : Env) (chunkIndex : ℕ) : Method σ := fun state ↦
  if state.localBitfield.has chunkIndex = true ∨ chunkIndex ∈ state.originInFlight then
    (state, none)
  else (state.beginFetch chunkIndex env.now, none)

/-- `dispatchP2PRequest`, given the method that it calls with a higher retry count when the data
channel does not take the frame. -/
def dispatchOrRetry (env : Env) (retry : Method σ) (chunkIndex : ℕ) (peerId : String)
    (retries : ℕ) : Method σ := fun state ↦
  match encodeRequest state.resourceId chunkIndex with
  | .error error => (state, some error)
  | .ok wireMsg =>
    let sent := env.sends state.calls.length
    let state := state.log [.sendToPeer peerId wireMsg sent]
    if sent = false then retry state
    else (state.arm chunkIndex peerId retries env.now, none)

/-- `scheduleChunk` with a number of attempts left to send a request to a peer. -/
def scheduleWithin (env : Env) (chunkIndex : ℕ) : ℕ → Method σ
  | 0 => fun state ↦
    if state.localBitfield.has chunkIndex then (state, none)
    else dispatchOriginFallback env chunkIndex state
  | attempts + 1 => fun state ↦
    if state.localBitfield.has chunkIndex then (state, none)
    else
      match state.byLoad (state.eligiblePeers chunkIndex) with
      | peerId :: _ =>
        dispatchOrRetry env (scheduleWithin env chunkIndex attempts) chunkIndex peerId
          (P2P_REQUEST_RETRIES - attempts) state
      | [] => dispatchOriginFallback env chunkIndex state

/-- Requests a missing chunk again, from a peer while retries are left and else from the origin. -/
def scheduleChunk (env : Env) (chunkIndex retries : ℕ) : Method σ :=
  scheduleWithin env chunkIndex (P2P_REQUEST_RETRIES + 1 - retries)

/-- Requests a chunk from a peer. -/
def dispatchP2PRequest (env : Env) (chunkIndex : ℕ) (peerId : String) (retries : ℕ) : Method σ :=
  dispatchOrRetry env (scheduleChunk env chunkIndex (retries + 1)) chunkIndex peerId retries

/-- `scheduleChunk` as it is written: the least loaded eligible peer while retries are left. -/
theorem scheduleChunk_eq (env : Env) (chunkIndex retries : ℕ) (state : SchedulerState σ) :
    scheduleChunk env chunkIndex retries state =
      if state.localBitfield.has chunkIndex then (state, none)
      else if retries ≤ P2P_REQUEST_RETRIES then
        match state.byLoad (state.eligiblePeers chunkIndex) with
        | peerId :: _ => dispatchP2PRequest env chunkIndex peerId retries state
        | [] => dispatchOriginFallback env chunkIndex state
      else dispatchOriginFallback env chunkIndex state := by
  by_cases hretries : retries ≤ P2P_REQUEST_RETRIES
  · obtain ⟨attempts, hattempts⟩ := Nat.exists_eq_add_of_le hretries
    have hleft : P2P_REQUEST_RETRIES + 1 - retries = attempts + 1 := by omega
    have hnext : P2P_REQUEST_RETRIES + 1 - (retries + 1) = attempts := by omega
    have hcount : P2P_REQUEST_RETRIES - attempts = retries := by omega
    simp only [scheduleChunk, dispatchP2PRequest, hleft, hnext, scheduleWithin, hcount,
      if_pos hretries]
  · have hleft : P2P_REQUEST_RETRIES + 1 - retries = 0 := by omega
    simp only [scheduleChunk, hleft, scheduleWithin, if_neg hretries]

/-- The missing chunks that are neither requested nor being fetched. -/
def candidateIndices (state : SchedulerState σ) : List ℕ :=
  state.localBitfield.getMissingIndices.filter fun chunkIndex ↦
    !state.inFlight.has chunkIndex && !decide (chunkIndex ∈ state.originInFlight)

/-- A candidate chunk with the unchoked peers that have it. -/
structure RarityEntry where
  chunkIndex : ℕ
  rarity : ℕ
  peers : List String

/-- The candidates with their rarity. -/
def rarityMap (state : SchedulerState σ) : List RarityEntry :=
  (candidateIndices state).map fun chunkIndex ↦
    ⟨chunkIndex, (state.eligiblePeers chunkIndex).length, state.eligiblePeers chunkIndex⟩

/-- The candidates that peers have, the rarest first. -/
def availableFromPeers (entries : List RarityEntry) : List RarityEntry :=
  (entries.filter fun entry ↦ 0 < entry.rarity).insertionSort
    fun first second ↦ first.rarity ≤ second.rarity

/-- The candidates that no peer has. -/
def unavailableFromPeers (entries : List RarityEntry) : List RarityEntry :=
  entries.filter fun entry ↦ entry.rarity = 0

/-- The loop body for chunks that peers have: request it from the least loaded peer with a free
slot. Once the capacity is reached the loop breaks, and the body does nothing from then on. -/
def assignToPeer (env : Env) (entry : RarityEntry) : Method σ := fun state ↦
  if maxTotalInFlight ≤ state.outstanding then (state, none)
  else
    let candidatePeers := entry.peers.filter fun peerId ↦
      state.countInFlightForPeer peerId < maxInFlightPerPeer
    match state.byLoad candidatePeers with
    | selectedPeer :: _ => dispatchP2PRequest env entry.chunkIndex selectedPeer 0 state
    | [] => (state, none)

/-- The loop body for chunks that no peer has: fetch it from the origin. -/
def assignToOrigin (env : Env) (entry : RarityEntry) : Method σ := fun state ↦
  if maxTotalInFlight ≤ state.outstanding then (state, none)
  else dispatchOriginFallback env entry.chunkIndex state

/-- The scheduling loop: the rarest chunks first from peers, then from the origin what no peer
has. -/
def scheduleNext (env : Env) : Method σ := fun state ↦
  if state.isRunning = false ∨ state.localBitfield.isComplete = true then
    if state.localBitfield.isComplete then (state.log [.onDownloadComplete], none)
    else (state, none)
  else if maxTotalInFlight ≤ state.outstanding then (state, none)
  else
    -- without candidates, where the source returns early, both loops are empty
    let entries := rarityMap state
    Action.andThen (Action.forEach (assignToPeer env) (availableFromPeers entries))
      (Action.forEach (assignToOrigin env) (unavailableFromPeers entries)) state

/-- `if (this.isRunning) { this.scheduleNext(); }`. -/
def scheduleIfRunning (env : Env) : Method σ := fun state ↦
  if state.isRunning then scheduleNext env state else (state, none)

end CampusMesh.Web
