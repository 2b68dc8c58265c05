import CampusMesh.Library.Reassembly
import CampusMesh.Shared.WireGrammar
import CampusMesh.Web.PeerMeshCoordinator
import CampusMesh.Web.RequestBooks
import CampusMesh.Web.SchedulerIntegrity

/-!
# Honest transfer of a chunk

The frames that answer a REQUEST (`sent_resumeServe`) are the blocks of the chunk
(`map_pieceEvent_transferFrames`), and
`handlePiece` keeps the blocks that have come by their offsets and counts their bytes (`Collected`).
While the request for a chunk is unhindered its blocks may come in any order and any number of
times, with everything else that a scheduler does in between: the chunk is assembled when the last
block comes for the first time, and the assembled bytes are the chunk (`honest_transfer`).
-/

set_option autoImplicit false
set_option relaxedAutoImplicit false

namespace CampusMesh.Web

open Library Shared SchedulerState CoordinatorState Finset

variable {σ : Type}

/-! ### Frames -/

/-- What a PIECE frame is for the scheduler of its resource. -/
def pieceEvent (frame : Bytes) : Option SchedulerEvent :=
  match decodeMessage frame with
  | .ok (.PIECE _ chunkIndex beginOffset totalLength data) =>
    some (.handlePiece chunkIndex beginOffset totalLength data)
  | _ => none

/-- The frames that the REQUEST handler emits for a chunk. -/
def transferFrames (resourceId : String) (chunkIndex : ℕ) (chunkData : Bytes) : List Bytes :=
  servePieces resourceId chunkIndex chunkData (blockOffsets chunkData.length)

/-- The block of a chunk at an index. -/
def block (chunkData : Bytes) (index : ℕ) : Bytes := slice P2P_BLOCK_SIZE chunkData index

/-- The number of blocks of a chunk. -/
def blockCount (chunkData : Bytes) : ℕ := sliceCount P2P_BLOCK_SIZE chunkData.length

/-- A block that comes in a piece. -/
def blockEvent (chunkIndex : ℕ) (chunkData : Bytes) (index : ℕ) : SchedulerEvent :=
  .handlePiece chunkIndex (index * P2P_BLOCK_SIZE) chunkData.length (block chunkData index)

theorem P2P_BLOCK_SIZE_pos : 0 < P2P_BLOCK_SIZE := by decide

theorem blockCount_pos {chunkData : Bytes} (hne : chunkData ≠ []) : 0 < blockCount chunkData := by
  refine Nat.pos_of_ne_zero fun hzero ↦ hne (List.length_eq_zero_iff.mp (Nat.le_zero.mp ?_))
  have henough := length_le_sliceCount_mul P2P_BLOCK_SIZE_pos chunkData.length
  rwa [show sliceCount P2P_BLOCK_SIZE chunkData.length = 0 from hzero, Nat.zero_mul] at henough

theorem blockEvent_injective (chunkIndex : ℕ) (chunkData : Bytes) {first second : ℕ}
    (heq : blockEvent chunkIndex chunkData first = blockEvent chunkIndex chunkData second) :
    first = second :=
  Nat.eq_of_mul_eq_mul_right P2P_BLOCK_SIZE_pos (SchedulerEvent.handlePiece.inj heq).2.1

/-- **What a REQUEST is answered with.** When the store has returned the chunk and the channel is
open, the serving side sends these frames in order. -/
theorem sent_resumeServe {state : CoordinatorState σ} {serve : PendingServe} {chunkData : Bytes}
    {connection : WebRtcPeerConnection} (hanswer : serve.answer = some (some chunkData))
    (hconnected : state.peers.get? serve.peerId = some connection)
    (hopen : connection.channelOpen = true) :
    (resumeServe serve state).sent = state.sent ++
      (transferFrames serve.resourceId serve.chunkIndex chunkData).map
        fun frame ↦ (serve.peerId, frame) := by
  unfold resumeServe
  simp only [hanswer]
  change (List.foldl _ state (transferFrames serve.resourceId serve.chunkIndex chunkData)).sent = _
  generalize transferFrames serve.resourceId serve.chunkIndex chunkData = frames
  induction frames generalizing state with
  | nil => exact (List.append_nil _).symm
  | cons frame rest ih =>
    have hsend : send serve.peerId frame state =
        { state with sent := state.sent ++ [(serve.peerId, frame)] } := by
      rw [send, hconnected]
      exact if_pos hopen
    rw [List.foldl_cons, hsend,
      @ih { state with sent := state.sent ++ [(serve.peerId, frame)] } hconnected,
        List.append_assoc]
    rfl

/-- Every frame that is served decodes to a PIECE. -/
theorem map_decodeMessage_servePieces {resourceId : String} (hfits : FitsHeader resourceId)
    (htext : RoundTripsText resourceId) {chunkIndex : ℕ} (hindex : chunkIndex < 2 ^ 32)
    {chunkData : Bytes} (hlength : chunkData.length < 2 ^ 32) {offsets : List ℕ}
    (hoffsets : ∀ offset ∈ offsets, offset < chunkData.length) :
    (servePieces resourceId chunkIndex chunkData offsets).map decodeMessage =
      offsets.map fun offset ↦ .ok (.PIECE resourceId chunkIndex offset chunkData.length
        (subarray chunkData offset (min (offset + P2P_BLOCK_SIZE) chunkData.length))) := by
  induction offsets with
  | nil => rfl
  | cons offset rest ih =>
    have hoffset := hoffsets offset List.mem_cons_self
    have hblock : (subarray chunkData offset
        (min (offset + P2P_BLOCK_SIZE) chunkData.length)).length < 2 ^ 32 := by
      rw [subarray, List.length_take, List.length_drop]
      omega
    obtain ⟨frame, hframe, hdecodes⟩ := decodes_encodePiece hfits htext hindex
      (hoffset.trans hlength) hlength hblock
    rw [servePieces, hframe, List.map_cons, List.map_cons, hdecodes,
      ih fun other hother ↦ hoffsets other (List.mem_cons_of_mem offset hother)]

/-- The frames are the blocks of the chunk in their order. -/
theorem map_pieceEvent_transferFrames {resourceId : String} (hfits : FitsHeader resourceId)
    (htext : RoundTripsText resourceId) {chunkIndex : ℕ} (hindex : chunkIndex < 2 ^ 32)
    {chunkData : Bytes} (hlength : chunkData.length < 2 ^ 32) :
    (transferFrames resourceId chunkIndex chunkData).map pieceEvent =
      (List.range (blockCount chunkData)).map fun index ↦
        some (blockEvent chunkIndex chunkData index) := by
  have hoffsets : ∀ offset ∈ blockOffsets chunkData.length, offset < chunkData.length := by
    intro offset hmem
    obtain ⟨index, hindex, rfl⟩ := List.mem_map.mp hmem
    exact mul_lt_length_of_lt_sliceCount P2P_BLOCK_SIZE_pos (List.mem_range.mp hindex)
  have hdecoded := congrArg (List.map fun decoded : Except JsError WireMessage ↦
      match decoded with
      | .ok (.PIECE _ chunkIndex beginOffset totalLength data) =>
        some (SchedulerEvent.handlePiece chunkIndex beginOffset totalLength data)
      | _ => none)
    (map_decodeMessage_servePieces hfits htext hindex hlength hoffsets)
  rw [List.map_map, List.map_map, blockOffsets, List.map_map] at hdecoded
  refine hdecoded.trans (List.map_congr_left fun index _ ↦ ?_)
  have hblock : subarray chunkData (index * P2P_BLOCK_SIZE)
      (min (index * P2P_BLOCK_SIZE + P2P_BLOCK_SIZE) chunkData.length) = block chunkData index := by
    rw [subarray, block, Library.slice, List.take_eq_take_iff, List.length_drop]
    omega
  change some (SchedulerEvent.handlePiece _ _ _ _) = some (SchedulerEvent.handlePiece _ _ _ _)
  rw [hblock]

/-! ### Blocks received -/

/-- The blocks of a chunk with the given indices have come. -/
structure Collected (chunkData : Bytes) (received : Finset ℕ) (item : ChunkReassembly) : Prop where
  totalLength : item.totalLength = chunkData.length
  inRange : received ⊆ range (blockCount chunkData)
  receivedBytes : item.receivedBytes = ∑ index ∈ received, (block chunkData index).length
  parts : ∀ offset data, item.parts.get? offset = some data ↔
    ∃ index ∈ received, offset = index * P2P_BLOCK_SIZE ∧ data = block chunkData index

section Collected

variable {chunkData : Bytes} {received : Finset ℕ} {item : ChunkReassembly}

theorem collected_empty (chunkData : Bytes) :
    Collected chunkData ∅ ⟨chunkData.length, 0, OrderedMap.empty⟩ :=
  ⟨rfl, empty_subset _, rfl, fun offset data ↦ by simp⟩

/-- A block that comes again changes nothing. -/
theorem Collected.add (hcollected : Collected chunkData received item) {index : ℕ}
    (hindex : index < blockCount chunkData) :
    Collected chunkData (insert index received)
      (item.add (index * P2P_BLOCK_SIZE) (block chunkData index)) := by
  have hsame : ∀ other, index * P2P_BLOCK_SIZE = other * P2P_BLOCK_SIZE → index = other :=
    fun other heq ↦ Nat.eq_of_mul_eq_mul_right P2P_BLOCK_SIZE_pos heq
  unfold ChunkReassembly.add
  by_cases hmem : index ∈ received
  · rw [if_pos, insert_eq_self.mpr hmem]
    · exact hcollected
    · rw [OrderedMap.has, (hcollected.parts _ _).mpr ⟨index, hmem, rfl, rfl⟩]
      rfl
  · rw [if_neg]
    · refine ⟨hcollected.totalLength, ?_, ?_, fun offset data ↦ ?_⟩
      · exact insert_subset (mem_range.mpr hindex) hcollected.inRange
      · rw [sum_insert hmem, Nat.add_comm, ← hcollected.receivedBytes]
      · simp only [OrderedMap.get?_set, exists_mem_insert]
        split_ifs with hoffset
        · rw [Option.some.injEq]
          refine ⟨fun heq ↦ Or.inl ⟨hoffset, heq.symm⟩, ?_⟩
          rintro (⟨_, rfl⟩ | ⟨other, hother, heq, rfl⟩)
          · rfl
          · rw [hsame other (hoffset.symm.trans heq)]
        · rw [hcollected.parts]
          exact ⟨Or.inr, fun h ↦ h.resolve_left fun hnew ↦ hoffset hnew.1⟩
    · intro hhas
      obtain ⟨data, hdata⟩ := OrderedMap.has_iff_exists.mp hhas
      obtain ⟨other, hother, heq, _⟩ := (hcollected.parts _ _).mp hdata
      exact hmem (hsame other heq ▸ hother)

/-- The counter says whether all blocks have come. -/
theorem Collected.complete_iff (hcollected : Collected chunkData received item) :
    item.totalLength ≤ item.receivedBytes ↔ received = range (blockCount chunkData) := by
  rw [hcollected.totalLength, hcollected.receivedBytes]
  exact sum_length_slice_eq_iff P2P_BLOCK_SIZE_pos hcollected.inRange

/-- Writing pieces of the chunk fills their positions. -/
theorem assembleParts_filled {entries : List (ℕ × Bytes)} {covered : Set ℕ} {buffer : Bytes}
    (hfilled : Filled chunkData covered buffer)
    (hentries : ∀ entry ∈ entries, IsPieceOf chunkData entry) :
    ∃ result, assembleParts buffer entries = .ok result ∧
      Filled chunkData (covered ∪ {position | ∃ entry ∈ entries, position ∈ positions entry})
        result := by
  induction entries generalizing covered buffer with
  | nil => exact ⟨buffer, rfl, by simpa using hfilled⟩
  | cons entry rest ih =>
    obtain ⟨written, hwritten, hnext⟩ := hfilled.blit (hentries entry List.mem_cons_self)
    obtain ⟨result, hresult, hall⟩ := ih hnext fun other hother ↦
      hentries other (List.mem_cons_of_mem _ hother)
    refine ⟨result, ?_, hall.length, fun position hposition ↦ hall.agrees position ?_⟩
    · rw [assembleParts, setBytes, hwritten]
      exact hresult
    · rw [Set.union_assoc]
      refine hposition.imp_right ?_
      rintro ⟨other, hother, hmem⟩
      rcases List.mem_cons.mp hother with rfl | hrest
      · exact .inl hmem
      · exact .inr ⟨other, hrest, hmem⟩

/-- All blocks put together are the chunk. -/
theorem Collected.assembles (hcollected : Collected chunkData received item)
    (hall : received = range (blockCount chunkData)) :
    assembleParts (List.replicate item.totalLength 0) item.parts.entries = .ok chunkData := by
  have hentries : ∀ entry ∈ item.parts.entries, IsPieceOf chunkData entry := by
    rintro ⟨offset, data⟩ hmem
    obtain ⟨index, hindex, rfl, rfl⟩ :=
      (hcollected.parts offset data).mp (OrderedMap.mem_entries_iff.mp hmem)
    exact isPieceOf_slice P2P_BLOCK_SIZE_pos (mem_range.mp (hcollected.inRange hindex))
  have hzeros : (List.replicate item.totalLength (0 : UInt8)).length = chunkData.length := by
    rw [List.length_replicate, hcollected.totalLength]
  obtain ⟨result, hresult, hfilled⟩ := assembleParts_filled (filled_empty hzeros) hentries
  rw [hresult, hfilled.eq fun position hposition ↦ ?_]
  obtain ⟨index, hindex, hmem⟩ := exists_slicePositions P2P_BLOCK_SIZE_pos hposition
  refine .inr ⟨(index * P2P_BLOCK_SIZE, block chunkData index), OrderedMap.mem_entries_iff.mpr ?_,
    mem_positions_slice hmem hposition⟩
  exact (hcollected.parts _ _).mpr ⟨index, hall ▸ mem_range.mpr hindex, rfl, rfl⟩

end Collected

/-! ### Deliveries -/

/-- Every frame has been delivered at least once. -/
def FramesDelivered (frames : List Bytes) (inputs : List SchedulerInput) : Prop :=
  ∀ frame ∈ frames, ∃ input ∈ inputs, pieceEvent frame = some input.2

/-- The event is the delivery of a piece. -/
def SchedulerEvent.IsPiece (event : SchedulerEvent) : Prop :=
  ∃ chunkIndex beginOffset totalLength data,
    event = .handlePiece chunkIndex beginOffset totalLength data

/-- The event delivers one of the frames. -/
def DeliversFrame (frames : List Bytes) (event : SchedulerEvent) : Prop :=
  ∃ frame ∈ frames, pieceEvent frame = some event

/-- While a request is in flight nothing releases it, by `stop`, its timer or the removal of its
peer, and the pieces that come for its chunk are the given frames. -/
def Unhindered (frames : List Bytes) (chunkIndex : ℕ) (request : InFlightRequest)
    (state : SchedulerState σ) (input : SchedulerInput) : Prop :=
  state.inFlight.get? chunkIndex = some request →
    match input.2 with
    | .handlePiece index beginOffset totalLength data => index = chunkIndex →
      DeliversFrame frames (.handlePiece index beginOffset totalLength data)
    | event => ¬ MayRelease state chunkIndex event

/-- A chunk is declared assembled: its request is released and the bytes go to verification. -/
def declareAssembled (env : Env) (chunkIndex : ℕ) (request : InFlightRequest) (data : Bytes)
    (state : SchedulerState σ) : SchedulerState σ :=
  let outcome := verifyAndStoreChunk chunkIndex data (pieceLatency env request)
    (release chunkIndex request.timer state)
  enqueue ⟨chunkIndex, true, outcome.2⟩ outcome.1

section Deliveries

variable {digest : Bytes → Bytes} {chunkStore : IChunkStore σ} {chunkIndex : ℕ}
  {request : InFlightRequest} {chunkData : Bytes} {frames : List Bytes} {state : SchedulerState σ}
  {passed : List SchedulerInput}

/-- Every block of a chunk has been delivered at least once. -/
def BlocksDelivered (chunkIndex : ℕ) (chunkData : Bytes) (inputs : List SchedulerInput) : Prop :=
  ∀ index < blockCount chunkData, ∃ input ∈ inputs, input.2 = blockEvent chunkIndex chunkData index

theorem BlocksDelivered.append {inputs : List SchedulerInput}
    (hblocks : BlocksDelivered chunkIndex chunkData inputs) (more : List SchedulerInput) :
    BlocksDelivered chunkIndex chunkData (inputs ++ more) := by
  intro index hindex
  obtain ⟨input, hmem, hinput⟩ := hblocks index hindex
  exact ⟨input, List.mem_append_left _ hmem, hinput⟩

theorem not_blocksDelivered_nil (hne : chunkData ≠ []) :
    ¬ BlocksDelivered chunkIndex chunkData [] := by
  intro hblocks
  obtain ⟨input, hmem, -⟩ := hblocks 0 (blockCount_pos hne)
  exact List.not_mem_nil hmem

/-- The event with which all blocks have come for the first time is a block. -/
theorem exists_block_of_last {last : SchedulerInput}
    (hmissing : ¬ BlocksDelivered chunkIndex chunkData passed)
    (hcomplete : BlocksDelivered chunkIndex chunkData (passed ++ [last])) :
    ∃ index < blockCount chunkData, last.2 = blockEvent chunkIndex chunkData index := by
  by_contra hother
  refine hmissing fun index hindex ↦ ?_
  obtain ⟨input, hmem, hinput⟩ := hcomplete index hindex
  rcases List.mem_append.mp hmem with hold | hnew
  · exact ⟨input, hold, hinput⟩
  · exact absurd ⟨index, hindex, List.mem_singleton.mp hnew ▸ hinput⟩ hother

/-- The frames have come when the blocks have. -/
theorem framesDelivered_iff (hframes : frames.map pieceEvent =
      (List.range (blockCount chunkData)).map fun index ↦
        some (blockEvent chunkIndex chunkData index))
    (inputs : List SchedulerInput) :
    FramesDelivered frames inputs ↔ BlocksDelivered chunkIndex chunkData inputs := by
  have hmapped : FramesDelivered frames inputs ↔ ∀ event ∈ frames.map pieceEvent,
      ∃ input ∈ inputs, event = some input.2 := by
    rw [List.forall_mem_map]
    rfl
  rw [hmapped, hframes, List.forall_mem_map, BlocksDelivered]
  simp only [List.mem_range, Option.some.injEq, eq_comm]

theorem deliversFrame_iff (hframes : frames.map pieceEvent =
      (List.range (blockCount chunkData)).map fun index ↦
        some (blockEvent chunkIndex chunkData index))
    (event : SchedulerEvent) :
    DeliversFrame frames event ↔
      ∃ index < blockCount chunkData, event = blockEvent chunkIndex chunkData index := by
  have hmapped : DeliversFrame frames event ↔ some event ∈ frames.map pieceEvent :=
    List.mem_map.symm
  rw [hmapped, hframes, List.mem_map]
  simp only [List.mem_range, Option.some.injEq, eq_comm]

/-- A chunk has pending blocks: its request is in flight and the blocks in the books are those that
have come. -/
structure Receiving (chunkIndex : ℕ) (request : InFlightRequest) (chunkData : Bytes)
    (state : SchedulerState σ) (passed : List SchedulerInput) : Prop where
  wellFormed : WellFormed state
  requested : state.inFlight.get? chunkIndex = some request
  collected : ∃ received, (∀ index < blockCount chunkData, index ∈ received ↔
      ∃ input ∈ passed, input.2 = blockEvent chunkIndex chunkData index) ∧
    Collected chunkData received ((state.reassembly.get? chunkIndex).getD
      ⟨chunkData.length, 0, OrderedMap.empty⟩)

/-- What is not a piece of the chunk leaves its request and blocks alone. -/
theorem Receiving.other (hreceiving : Receiving chunkIndex request chunkData state passed)
    {input : SchedulerInput} (hunhindered : Unhindered frames chunkIndex request state input)
    (hother : ∀ beginOffset totalLength data,
      input.2 ≠ .handlePiece chunkIndex beginOffset totalLength data) :
    Receiving chunkIndex request chunkData (schedulerStep digest chunkStore state input)
      (passed ++ [input]) := by
  have hkept : ¬ MayRelease state chunkIndex input.2 := by
    have hallowed := hunhindered hreceiving.requested
    cases hevent : input.2 with
    | handlePiece index beginOffset totalLength data =>
      rintro rfl
      exact hother _ _ _ hevent
    | _ => simpa only [hevent] using hallowed
  have hbooks := (@perform_rebooks σ digest chunkStore input.1 chunkIndex state
    hreceiving.wellFormed input.2 hother).requested hkept hreceiving.requested
  obtain ⟨received, hreceived, hcollected⟩ := hreceiving.collected
  refine ⟨(schedulerStep_wellFormed hreceiving.wellFormed input).1, hbooks.1, received,
    fun index hindex ↦ ?_, ?_⟩
  · rw [hreceived index hindex]
    simp only [List.mem_append, List.mem_singleton, or_and_right, exists_or, exists_eq_left]
    exact ⟨Or.inl, fun h ↦ h.resolve_right (hother _ _ _)⟩
  · rw [show (schedulerStep digest chunkStore state input).reassembly.get? chunkIndex =
      state.reassembly.get? chunkIndex from hbooks.2]
    exact hcollected

/-- A piece of the chunk is one of its blocks. -/
theorem Receiving.exists_block (hframes : frames.map pieceEvent =
      (List.range (blockCount chunkData)).map fun index ↦
        some (blockEvent chunkIndex chunkData index))
    (hreceiving : Receiving chunkIndex request chunkData state passed) {input : SchedulerInput}
    (hunhindered : Unhindered frames chunkIndex request state input)
    {beginOffset totalLength : ℕ} {data : Bytes}
    (hpiece : input.2 = .handlePiece chunkIndex beginOffset totalLength data) :
    ∃ index < blockCount chunkData, input.2 = blockEvent chunkIndex chunkData index := by
  have hallowed := hunhindered hreceiving.requested
  rw [hpiece] at hallowed
  obtain ⟨index, hindex, hblock⟩ := (deliversFrame_iff hframes _).mp (hallowed rfl)
  exact ⟨index, hindex, hpiece.trans hblock⟩

/-- A block that comes is kept, and with the last one the chunk is assembled. -/
theorem Receiving.block (hreceiving : Receiving chunkIndex request chunkData state passed)
    {index : ℕ} (hindex : index < blockCount chunkData) {input : SchedulerInput}
    (hinput : input.2 = blockEvent chunkIndex chunkData index) :
    (BlocksDelivered chunkIndex chunkData (passed ++ [input]) →
      schedulerStep digest chunkStore state input =
        declareAssembled input.1 chunkIndex request chunkData state) ∧
    (¬ BlocksDelivered chunkIndex chunkData (passed ++ [input]) →
      Receiving chunkIndex request chunkData (schedulerStep digest chunkStore state input)
          (passed ++ [input]) ∧
        ∃ item, schedulerStep digest chunkStore state input =
          { state with reassembly := state.reassembly.set chunkIndex item }) := by
  obtain ⟨env, event⟩ := input
  obtain rfl : event = blockEvent chunkIndex chunkData index := hinput
  obtain ⟨received, hreceived, hcollected⟩ := hreceiving.collected
  have hadded := hcollected.add hindex
  have hdelivered : ∀ other < blockCount chunkData, other ∈ insert index received ↔
      ∃ input ∈ passed ++ [(env, blockEvent chunkIndex chunkData index)],
        input.2 = blockEvent chunkIndex chunkData other := by
    intro other hother
    simp only [mem_insert, hreceived other hother, List.mem_append, List.mem_singleton,
      or_and_right, exists_or, exists_eq_left]
    rw [or_comm]
    exact or_congr_right ⟨fun heq ↦ heq ▸ rfl, fun heq ↦ (blockEvent_injective _ _ heq).symm⟩
  have hall : BlocksDelivered chunkIndex chunkData
      (passed ++ [(env, blockEvent chunkIndex chunkData index)]) ↔
        insert index received = range (blockCount chunkData) := by
    refine ⟨fun hblocks ↦ hadded.inRange.antisymm fun other hother ↦ ?_, fun heq other hother ↦ ?_⟩
    · exact (hdelivered other (mem_range.mp hother)).mpr (hblocks other (mem_range.mp hother))
    · exact (hdelivered other hother).mp (heq ▸ mem_range.mpr hother)
  generalize hitem : ChunkReassembly.add _ _ _ = item at hadded
  have hstep : schedulerStep digest chunkStore state
      (env, blockEvent chunkIndex chunkData index) =
        (if item.totalLength ≤ item.receivedBytes then
          completePiece env chunkIndex request item state
        else ({ state with reassembly := state.reassembly.set chunkIndex item }, none)).1 := by
    change (handlePiece env chunkIndex (index * P2P_BLOCK_SIZE) chunkData.length
      (Web.block chunkData index) state).1 = _
    rw [handlePiece, hreceiving.requested]
    simp only [receive, hitem]
  rw [hall, hstep]
  by_cases hcomplete : insert index received = range (blockCount chunkData)
  · refine ⟨fun _ ↦ ?_, fun hmissing ↦ absurd hcomplete hmissing⟩
    rw [if_pos (hadded.complete_iff.mpr hcomplete), completePiece, hadded.assembles hcomplete]
    rfl
  · refine ⟨fun hmem ↦ absurd hmem hcomplete, fun _ ↦ ?_⟩
    rw [if_neg (hadded.complete_iff.not.mpr hcomplete)]
    refine ⟨⟨?_, hreceiving.requested, insert index received, hdelivered, ?_⟩, item, rfl⟩
    · exact ⟨hreceiving.wellFormed.timers_iff, hreceiving.wellFormed.timers_lt,
        hreceiving.wellFormed.inFlight_lt, hreceiving.wellFormed.tasks_ok,
        hreceiving.wellFormed.fetched⟩
    · change Collected chunkData _ (((state.reassembly.set chunkIndex item).get? chunkIndex).getD _)
      rw [OrderedMap.get?_set_self]
      exact hadded

/-- Until all blocks have come the request stays in flight. -/
theorem receiving_of_unhindered (hframes : frames.map pieceEvent =
      (List.range (blockCount chunkData)).map fun index ↦
        some (blockEvent chunkIndex chunkData index))
    (hstart : Receiving chunkIndex request chunkData state []) {inputs : List SchedulerInput}
    (hunhindered : Along (schedulerStep digest chunkStore) (Unhindered frames chunkIndex request)
      state inputs)
    (hmissing : ¬ BlocksDelivered chunkIndex chunkData inputs) :
    Receiving chunkIndex request chunkData (run (schedulerStep digest chunkStore) state inputs)
      inputs := by
  induction inputs using List.reverseRecOn with
  | nil => exact hstart
  | append_singleton passed input ih =>
    obtain ⟨hpassed, hallowed, _⟩ := (along_append _ _ _).mp hunhindered
    have hreceiving := ih hpassed fun hblocks ↦ hmissing (hblocks.append [input])
    rw [run_append]
    by_cases hpiece : ∃ beginOffset totalLength data,
        input.2 = .handlePiece chunkIndex beginOffset totalLength data
    · obtain ⟨beginOffset, totalLength, data, hpiece⟩ := hpiece
      obtain ⟨index, hindex, hinput⟩ := hreceiving.exists_block hframes hallowed hpiece
      exact ((hreceiving.block hindex hinput).2 hmissing).1
    · exact hreceiving.other hallowed fun beginOffset totalLength data heq ↦
        hpiece ⟨beginOffset, totalLength, data, heq⟩

theorem inFlight_declareAssembled (env : Env) (chunkIndex : ℕ) (request : InFlightRequest)
    (data : Bytes) (state : SchedulerState σ) :
    (declareAssembled env chunkIndex request data state).inFlight =
      state.inFlight.delete chunkIndex := by
  unfold declareAssembled
  rcases verifyAndStoreChunk_cases chunkIndex data (pieceLatency env request)
    (release chunkIndex request.timer state) with ⟨_, _, heq⟩ | ⟨_, _, heq⟩
  all_goals
    simp only [heq]
    rfl

/-- A piece that completes a chunk declares it assembled, unless a block lies outside the buffer. -/
theorem completePiece_eq (env : Env) (chunkIndex : ℕ) (request : InFlightRequest)
    (item : ChunkReassembly) (state : SchedulerState σ) :
    (completePiece env chunkIndex request item state).1 =
      match assembleParts (List.replicate item.totalLength 0) item.parts.entries with
      | .error _ => release chunkIndex request.timer state
      | .ok data => declareAssembled env chunkIndex request data state := by
  unfold completePiece
  cases assembleParts (List.replicate item.totalLength 0) item.parts.entries <;> rfl

/-- A piece of a chunk that is not requested is dropped. -/
theorem handlePiece_of_unrequested (env : Env) (beginOffset totalLength : ℕ) (data : Bytes)
    (hfree : state.inFlight.get? chunkIndex = none) :
    handlePiece env chunkIndex beginOffset totalLength data state = (state, none) := by
  rw [handlePiece, hfree]

/-- Pieces request nothing. -/
theorem handlePiece_unrequested (env : Env) (index beginOffset totalLength : ℕ) (data : Bytes)
    (hfree : state.inFlight.get? chunkIndex = none) :
    (handlePiece env index beginOffset totalLength data state).1.inFlight.get? chunkIndex =
      none := by
  have hdeleted : (state.inFlight.delete index).get? chunkIndex = none := by
    rw [OrderedMap.get?_delete, hfree, ite_self]
  unfold handlePiece
  split
  · exact hfree
  · next request _ =>
    simp only
    split_ifs
    · rw [completePiece_eq]
      split
      · exact hdeleted
      · rw [inFlight_declareAssembled]
        exact hdeleted
    · exact hfree

theorem run_pieces_unrequested (hfree : state.inFlight.get? chunkIndex = none)
    {inputs : List SchedulerInput} (hpieces : ∀ input ∈ inputs, input.2.IsPiece) :
    (run (schedulerStep digest chunkStore) state inputs).inFlight.get? chunkIndex = none := by
  refine run_invariant (fun reached ↦ reached.inFlight.get? chunkIndex = none)
    (fun reached input hnone hpiece ↦ ?_) hfree (along_of_forall hpieces state)
  obtain ⟨env, event⟩ := input
  obtain ⟨index, beginOffset, totalLength, data, rfl⟩ := hpiece
  exact handlePiece_unrequested env index beginOffset totalLength data hnone

end Deliveries

/-! ### The transfer -/

/-- A chunk transferred in a run whose event `last` delivers its last missing frame. -/
structure Transferred (step : SchedulerState σ → SchedulerInput → SchedulerState σ)
    (frames : List Bytes) (chunkIndex : ℕ) (request : InFlightRequest) (chunkData : Bytes)
    (state : SchedulerState σ) (passed : List SchedulerInput) (last : SchedulerInput)
    (later : List SchedulerInput) : Prop where
  delivers : DeliversFrame frames last.2
  missing : ¬ FramesDelivered frames passed
  delivered : FramesDelivered frames (passed ++ [last])
  /-- Until then the request is in flight, -/
  pending : ∀ part rest, passed = part ++ rest →
    (run step state part).inFlight.get? chunkIndex = some request
  /-- and a frame adds to the blocks and does nothing else. -/
  collecting : ∀ part copy rest, passed = part ++ copy :: rest → DeliversFrame frames copy.2 →
    ∃ item, step (run step state part) copy =
      { run step state part with
        reassembly := (run step state part).reassembly.set chunkIndex item }
  /-- The last frame assembles the chunk. -/
  assembled : step (run step state passed) last =
    declareAssembled last.1 chunkIndex request chunkData (run step state passed)
  /-- Then the chunk is not requested, at least while only pieces come, -/
  unrequested : ∀ part rest, later = part ++ rest → (∀ input ∈ part, input.2.IsPiece) →
    (run step state (passed ++ last :: part)).inFlight.get? chunkIndex = none
  /-- and while it is not, a further copy changes nothing. -/
  unchanged : ∀ part copy rest, later = part ++ copy :: rest → DeliversFrame frames copy.2 →
    (run step state (passed ++ last :: part)).inFlight.get? chunkIndex = none →
    step (run step state (passed ++ last :: part)) copy = run step state (passed ++ last :: part)

/-- A request without blocks, all of whose frames come while nothing hinders it. -/
theorem Receiving.transfers {digest : Bytes → Bytes} {chunkStore : IChunkStore σ} {chunkIndex : ℕ}
    {request : InFlightRequest} {chunkData : Bytes} {frames : List Bytes}
    {state : SchedulerState σ} {inputs : List SchedulerInput}
    (hframes : frames.map pieceEvent =
      (List.range (blockCount chunkData)).map fun index ↦
        some (blockEvent chunkIndex chunkData index))
    (hne : chunkData ≠ []) (hstart : Receiving chunkIndex request chunkData state [])
    (hunhindered : Along (schedulerStep digest chunkStore) (Unhindered frames chunkIndex request)
      state inputs)
    (hdelivered : FramesDelivered frames inputs) :
    ∃ passed last later, inputs = passed ++ last :: later ∧
      Transferred (schedulerStep digest chunkStore) frames chunkIndex request chunkData state
        passed last later := by
  have hblocks := framesDelivered_iff hframes
  have hnone : ¬ FramesDelivered frames [] := (hblocks []).not.mpr (not_blocksDelivered_nil hne)
  obtain ⟨passed, last, later, rfl, hmissing, hcomplete⟩ := exists_first hnone hdelivered
  obtain ⟨hpassed, hallowed, _⟩ := (along_append _ _ _).mp hunhindered
  have hreceiving : ∀ part rest, passed = part ++ rest → Receiving chunkIndex request chunkData
      (run (schedulerStep digest chunkStore) state part) part := by
    rintro part rest rfl
    refine receiving_of_unhindered hframes hstart ((along_append _ _ _).mp hpassed).1 fun hpart ↦ ?_
    exact hmissing ((hblocks _).mpr (hpart.append rest))
  obtain ⟨index, hindex, hblock⟩ := exists_block_of_last
    ((hblocks passed).not.mp hmissing) ((hblocks _).mp hcomplete)
  have hwaiting := hreceiving passed [] (List.append_nil _).symm
  have hassembled : schedulerStep digest chunkStore
    (run (schedulerStep digest chunkStore) state passed)
      last = declareAssembled last.1 chunkIndex request chunkData _ :=
    (hwaiting.block hindex hblock).1 ((hblocks _).mp hcomplete)
  have hreleased : (run (schedulerStep digest chunkStore) state
      (passed ++ [last])).inFlight.get? chunkIndex = none := by
    rw [run_append, run_cons, run_nil, hassembled, inFlight_declareAssembled]
    exact OrderedMap.get?_delete_self _ _
  refine ⟨passed, last, later, rfl, ?_, hmissing, hcomplete, fun part rest hpart ↦
    (hreceiving part rest hpart).requested, fun part copy rest hpart hcopy ↦ ?_, hassembled,
    fun part rest _ hpieces ↦ ?_, fun part copy rest _ hcopy hfree ↦ ?_⟩
  · exact (deliversFrame_iff hframes _).mpr ⟨index, hindex, hblock⟩
  · obtain ⟨other, hother, hevent⟩ := (deliversFrame_iff hframes _).mp hcopy
    refine (((hreceiving part (copy :: rest) hpart).block hother
      hevent).2 fun hpart' ↦ hmissing ((hblocks _).mpr ?_)).2
    rw [hpart, List.append_cons]
    exact hpart'.append rest
  · rw [List.append_cons, run_append]
    exact run_pieces_unrequested hreleased hpieces
  · obtain ⟨other, _, hevent⟩ := (deliversFrame_iff hframes _).mp hcopy
    obtain ⟨env, event⟩ := copy
    cases hevent
    exact congrArg Prod.fst (handlePiece_of_unrequested env _ _ _ hfree)

/-- **Honest transfer.** A chunk that a scheduler has just requested, and whose frames all come
while nothing hinders the request, is assembled at the last new frame and is what the serving side
has stored. -/
theorem honest_transfer (digest : Bytes → Bytes) (chunkStore : IChunkStore σ)
    (manifest : ResourceManifest) (localBitfield : Bitfield) (heap : List Bitfield) (store : σ)
    (before : List SchedulerInput) (issuing : SchedulerInput) (inputs : List SchedulerInput)
    {resourceId : String} (hfits : FitsHeader resourceId) (htext : RoundTripsText resourceId)
    {requestFrame : Bytes} {chunkIndex : ℕ}
    (hasked : decodeMessage requestFrame = .ok (.REQUEST resourceId chunkIndex))
    {chunkData : Bytes} (hne : chunkData ≠ []) (hlength : chunkData.length < 2 ^ 32)
    {request : InFlightRequest}
    (hbefore : (schedulerRun digest chunkStore manifest localBitfield heap store
      before).inFlight.get? chunkIndex ≠ some request)
    (hissued : (schedulerRun digest chunkStore manifest localBitfield heap store
      (before ++ [issuing])).inFlight.get? chunkIndex = some request)
    (hunhindered : Along (schedulerStep digest chunkStore)
      (Unhindered (transferFrames resourceId chunkIndex chunkData) chunkIndex request)
      (schedulerRun digest chunkStore manifest localBitfield heap store
        (before ++ [issuing])) inputs)
    (hdelivered : FramesDelivered (transferFrames resourceId chunkIndex chunkData) inputs) :
    ∃ passed last later, inputs = passed ++ last :: later ∧
      Transferred (schedulerStep digest chunkStore) (transferFrames resourceId chunkIndex chunkData)
        chunkIndex request chunkData
        (schedulerRun digest chunkStore manifest localBitfield heap store (before ++ [issuing]))
        passed last later := by
  have hframes := map_pieceEvent_transferFrames hfits htext (fieldsFit_of_decodes hasked) hlength
  have hwf := schedulerRun_wellFormed digest chunkStore manifest localBitfield heap store
    (before ++ [issuing])
  have hfresh := reassembly_of_issued digest chunkStore manifest localBitfield heap store before
    issuing hbefore hissued
  generalize schedulerRun digest chunkStore manifest localBitfield heap store
    (before ++ [issuing]) = state at *
  have hstart : Receiving chunkIndex request chunkData state [] := by
    refine ⟨hwf, hissued, ∅, fun index _ ↦ by simp, ?_⟩
    rw [hfresh]
    exact collected_empty chunkData
  exact hstart.transfers hframes hne hunhindered hdelivered

/-! ### A chunk of two blocks -/

/-- The bytes of a chunk of two blocks, a whole one and a partial one. -/
def twoBlockChunk : Bytes := List.replicate P2P_BLOCK_SIZE 7 ++ [8]

/-- A manifest of that chunk, under the digest that returns the bytes themselves. -/
def twoBlockManifest : ResourceManifest :=
  { oneChunkManifest with
    fileSize := 65537
    fileHash := hexText twoBlockChunk
    chunks := [⟨0, 65537, hexText twoBlockChunk⟩] }

theorem length_twoBlockChunk : twoBlockChunk.length = 65537 := by
  rw [twoBlockChunk, List.length_append, List.length_replicate]
  rfl

theorem blockCount_twoBlockChunk : blockCount twoBlockChunk = 2 := by
  rw [blockCount, length_twoBlockChunk]
  decide

theorem firstBlock_twoBlockChunk :
    blockEvent 0 twoBlockChunk 0 = .handlePiece 0 0 65537 (List.replicate P2P_BLOCK_SIZE 7) := by
  have hlength : (List.replicate P2P_BLOCK_SIZE 7 : Bytes).length = P2P_BLOCK_SIZE :=
    List.length_replicate
  rw [blockEvent, length_twoBlockChunk, block, Library.slice, Nat.zero_mul, List.drop_zero,
    twoBlockChunk, List.take_left' hlength]

theorem secondBlock_twoBlockChunk :
    blockEvent 0 twoBlockChunk 1 = .handlePiece 0 65536 65537 [8] := by
  have hlength : (List.replicate P2P_BLOCK_SIZE 7 : Bytes).length = P2P_BLOCK_SIZE :=
    List.length_replicate
  rw [blockEvent, length_twoBlockChunk, block, Library.slice, Nat.one_mul, twoBlockChunk,
    List.drop_left' hlength]
  rfl

/-- The blocks come in the wrong order, the partial one twice before the other and once after it,
with a piece of another chunk in between. -/
def repeatedBlocks : List SchedulerInput :=
  [.handlePiece 0 65536 65537 [8], .handlePiece 5 0 1 [9], .handlePiece 0 65536 65537 [8],
    .handlePiece 0 0 65537 (List.replicate P2P_BLOCK_SIZE 7), .handlePiece 0 65536 65537 [8]].map
      fun event ↦ (calmEnv, event)

theorem honest_transfer_duplicated :
    ∃ passed last later, repeatedBlocks = passed ++ last :: later ∧
      Transferred (schedulerStep id MemoryChunkStore) (transferFrames "res_1" 0 twoBlockChunk) 0
        ⟨0, "peer", 0, 0, 1000⟩ twoBlockChunk
        (schedulerRun id MemoryChunkStore twoBlockManifest (Bitfield.new 1) [oneChunkBitfield]
          OrderedMap.empty ([(calmEnv, .updatePeerBitfield "peer" 0)] ++ [(calmEnv, .start)]))
        passed last later := by
  have hlength : twoBlockChunk.length < 2 ^ 32 := by
    rw [length_twoBlockChunk]
    decide
  have hframes := @map_pieceEvent_transferFrames "res_1" (by decide) (by decide) 0 (by decide)
    twoBlockChunk hlength
  have hfirst : DeliversFrame (transferFrames "res_1" 0 twoBlockChunk)
      (.handlePiece 0 0 65537 (List.replicate P2P_BLOCK_SIZE 7)) :=
    (deliversFrame_iff hframes _).mpr
      ⟨0, by rw [blockCount_twoBlockChunk]; decide, firstBlock_twoBlockChunk.symm⟩
  have hsecond : DeliversFrame (transferFrames "res_1" 0 twoBlockChunk)
      (.handlePiece 0 65536 65537 [8]) :=
    (deliversFrame_iff hframes _).mpr
      ⟨1, by rw [blockCount_twoBlockChunk]; decide, secondBlock_twoBlockChunk.symm⟩
  refine honest_transfer id MemoryChunkStore twoBlockManifest (Bitfield.new 1) [oneChunkBitfield]
    OrderedMap.empty _ _ repeatedBlocks (by decide) (by decide)
    (show decodeMessage [1, 3, 5, 114, 101, 115, 95, 49, 0, 0, 0, 0] =
      .ok (.REQUEST "res_1" 0) from rfl)
    (List.append_ne_nil_of_right_ne_nil _ (List.cons_ne_nil 8 [])) hlength nofun rfl ?_ ?_
  · exact ⟨fun _ _ ↦ hsecond, fun _ heq ↦ absurd heq (by decide), fun _ _ ↦ hsecond,
      fun _ _ ↦ hfirst, fun _ _ ↦ hsecond, trivial⟩
  · refine (framesDelivered_iff hframes _).mpr fun index hindex ↦ ?_
    rw [blockCount_twoBlockChunk] at hindex
    interval_cases index
    · exact ⟨_, List.mem_of_getElem? (i := 3) rfl, firstBlock_twoBlockChunk.symm⟩
    · exact ⟨_, List.mem_of_getElem? (i := 0) rfl, secondBlock_twoBlockChunk.symm⟩

end CampusMesh.Web
