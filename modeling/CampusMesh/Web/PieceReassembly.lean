import CampusMesh.Library.PieceCoverage
import CampusMesh.Web.HonestTransfer

/-!
# Reassembling a chunk from any slices

`handlePiece` counts the bytes of the blocks that it keeps, one for each offset, and declares the
chunk reassembled when the count reaches its length. Overlapping blocks are counted in full. So with
true slices of the chunk the declaration is right exactly when the count exceeds the length of the
chunk by the bytes that were received more than once (`declaresSoundly_iff`).
-/

set_option autoImplicit false
set_option relaxedAutoImplicit false

namespace CampusMesh.Web

open Library Shared SchedulerState Finset

variable {σ : Type}

/-! ### The promise -/

/-- The pieces of the chunk that an event delivers. -/
def SchedulerEvent.piecesOf (chunkIndex : ℕ) : SchedulerEvent → List (ℕ × Bytes)
  | .handlePiece index beginOffset _ data =>
    if index = chunkIndex then [(beginOffset, data)] else []
  | _ => []

/-- The pieces of the chunk that the inputs deliver, oldest first. -/
def piecesOf (chunkIndex : ℕ) (inputs : List SchedulerInput) : List (ℕ × Bytes) :=
  inputs.flatMap fun input ↦ input.2.piecesOf chunkIndex

/-- The pieces that the inputs deliver first at their offsets. -/
def keptPieces (chunkIndex : ℕ) (inputs : List SchedulerInput) : List (ℕ × Bytes) :=
  firstPieces (piecesOf chunkIndex inputs)

/-- The request is in flight, nothing but a piece releases it, and a piece of its chunk names the
length of the chunk and is what the chunk has at its offset. -/
def TrueSlices (chunkIndex : ℕ) (request : InFlightRequest) (chunkData : Bytes)
    (state : SchedulerState σ) (input : SchedulerInput) : Prop :=
  state.inFlight.get? chunkIndex = some request ∧
    match input.2 with
    | .handlePiece index beginOffset totalLength data => index = chunkIndex →
      totalLength = chunkData.length ∧ IsPieceOf chunkData (beginOffset, data)
    | event => ¬ MayRelease state chunkIndex event

/-- A piece makes the scheduler declare the chunk reassembled: the bytes that go to verification are
those of the chunk, and every position is covered by one of the blocks. -/
structure DeclaresSoundly (digest : Bytes → Bytes) (chunkStore : IChunkStore σ) (env : Env)
    (chunkIndex beginOffset totalLength : ℕ) (data : Bytes) (request : InFlightRequest)
    (chunkData : Bytes) (state : SchedulerState σ) : Prop where
  assembled : schedulerStep digest chunkStore state
      (env, .handlePiece chunkIndex beginOffset totalLength data) =
    declareAssembled env chunkIndex request chunkData state
  covered : ∀ position < chunkData.length,
    ∃ part ∈ (receive chunkIndex beginOffset totalLength data state).parts.entries,
      position ∈ positions part

/-! ### The blocks in the books -/

/-- The blocks in the books are those pieces that came first at their offsets. -/
structure Gathered (chunkData : Bytes) (pieces : List (ℕ × Bytes)) (item : ChunkReassembly) :
    Prop where
  totalLength : item.totalLength = chunkData.length
  receivedBytes : item.receivedBytes = received (firstPieces pieces)
  parts : item.parts.entries = firstPieces pieces
  slices : ∀ piece ∈ pieces, IsPieceOf chunkData piece

section Gathered

variable {chunkData : Bytes} {pieces : List (ℕ × Bytes)} {item : ChunkReassembly}

theorem gathered_empty (chunkData : Bytes) :
    Gathered chunkData [] ⟨chunkData.length, 0, OrderedMap.empty⟩ :=
  ⟨rfl, rfl, rfl, by simp⟩

theorem Gathered.add (hgathered : Gathered chunkData pieces item) {piece : ℕ × Bytes}
    (hpiece : IsPieceOf chunkData piece) :
    Gathered chunkData (pieces ++ [piece]) (item.add piece.1 piece.2) := by
  have hslices : ∀ other ∈ pieces ++ [piece], IsPieceOf chunkData other := by
    intro other hmem
    rcases List.mem_append.mp hmem with hold | hnew
    · exact hgathered.slices other hold
    · rw [List.mem_singleton.mp hnew]
      exact hpiece
  have hkeys : item.parts.has piece.1 = true ↔ piece.1 ∈ (firstPieces pieces).map Prod.fst := by
    rw [← hgathered.parts]
    exact OrderedMap.mem_keys_iff.symm
  unfold ChunkReassembly.add
  by_cases hhas : item.parts.has piece.1 = true
  · rw [if_pos hhas]
    have hsame : firstPieces (pieces ++ [piece]) = firstPieces pieces := by
      rw [firstPieces_append, keepFirst, if_pos (hkeys.mp hhas)]
    exact ⟨hgathered.totalLength, hsame ▸ hgathered.receivedBytes, hsame ▸ hgathered.parts, hslices⟩
  · rw [if_neg hhas]
    have hmore : firstPieces (pieces ++ [piece]) = firstPieces pieces ++ [piece] := by
      rw [firstPieces_append, keepFirst, if_neg fun hmem ↦ hhas (hkeys.mpr hmem)]
    refine ⟨hgathered.totalLength, ?_, ?_, hslices⟩
    · rw [hmore, received, List.map_append, List.sum_append, hgathered.receivedBytes, received,
        List.map_singleton, List.sum_singleton]
    · rw [hmore, ← hgathered.parts]
      exact OrderedMap.entries_set_of_fresh (Bool.not_eq_true _ ▸ hhas) _

end Gathered

/-! ### The request and its blocks -/

/-- The request is in flight and the blocks in its books are those that have come. -/
structure Gathering (chunkIndex : ℕ) (request : InFlightRequest) (chunkData : Bytes)
    (state : SchedulerState σ) (pieces : List (ℕ × Bytes)) : Prop where
  wellFormed : WellFormed state
  requested : state.inFlight.get? chunkIndex = some request
  gathered : Gathered chunkData pieces ((state.reassembly.get? chunkIndex).getD
    ⟨chunkData.length, 0, OrderedMap.empty⟩)

section Gathering

variable {digest : Bytes → Bytes} {chunkStore : IChunkStore σ} {env : Env} {chunkIndex : ℕ}
  {request : InFlightRequest} {chunkData : Bytes} {state : SchedulerState σ}
  {pieces : List (ℕ × Bytes)}

/-- Other events leave both alone. -/
theorem Gathering.other (hgathering : Gathering chunkIndex request chunkData state pieces)
    {input : SchedulerInput} (hslices : TrueSlices chunkIndex request chunkData state input)
    (hother : ∀ beginOffset totalLength data,
      input.2 ≠ .handlePiece chunkIndex beginOffset totalLength data) :
    input.2.piecesOf chunkIndex = [] ∧
      Gathering chunkIndex request chunkData (schedulerStep digest chunkStore state input)
        pieces := by
  have hkept : ¬ MayRelease state chunkIndex input.2 ∧ input.2.piecesOf chunkIndex = [] := by
    have hallowed := hslices.2
    cases hevent : input.2 with
    | handlePiece index beginOffset totalLength data =>
      have hindex : index ≠ chunkIndex := by
        rintro rfl
        exact hother _ _ _ hevent
      exact ⟨hindex, if_neg hindex⟩
    | _ => exact ⟨by simpa only [hevent] using hallowed, rfl⟩
  have hbooks := (@perform_rebooks σ digest chunkStore input.1 chunkIndex state
    hgathering.wellFormed input.2 hother).requested hkept.1 hgathering.requested
  refine ⟨hkept.2, (schedulerStep_wellFormed hgathering.wellFormed input).1, hbooks.1, ?_⟩
  rw [show (schedulerStep digest chunkStore state input).reassembly.get? chunkIndex =
    state.reassembly.get? chunkIndex from hbooks.2]
  exact hgathering.gathered

/-- A piece that comes is added to the blocks. -/
theorem Gathering.receive (hgathering : Gathering chunkIndex request chunkData state pieces)
    {beginOffset : ℕ} {data : Bytes} (hpiece : IsPieceOf chunkData (beginOffset, data)) :
    Gathered chunkData (pieces ++ [(beginOffset, data)])
      (Web.receive chunkIndex beginOffset chunkData.length data state) :=
  hgathering.gathered.add hpiece

/-- As long as the count is short of the length, the request stays in flight. -/
theorem Gathering.incomplete (hgathering : Gathering chunkIndex request chunkData state pieces)
    {beginOffset : ℕ} {data : Bytes} (hpiece : IsPieceOf chunkData (beginOffset, data))
    (hshort : received (firstPieces (pieces ++ [(beginOffset, data)])) < chunkData.length) :
    Gathering chunkIndex request chunkData (schedulerStep digest chunkStore state
      (env, .handlePiece chunkIndex beginOffset chunkData.length data))
      (pieces ++ [(beginOffset, data)]) := by
  have hitem := hgathering.receive hpiece
  have hwf := (@schedulerStep_wellFormed σ digest chunkStore state hgathering.wellFormed
    (env, .handlePiece chunkIndex beginOffset chunkData.length data)).1
  have hstep : schedulerStep digest chunkStore state
      (env, .handlePiece chunkIndex beginOffset chunkData.length data) =
      { state with
        reassembly := state.reassembly.set chunkIndex
          (Web.receive chunkIndex beginOffset chunkData.length data state) } := by
    change (handlePiece env chunkIndex beginOffset chunkData.length data state).1 = _
    simp only [handlePiece, hgathering.requested]
    rw [if_neg (by rw [hitem.totalLength, hitem.receivedBytes]; exact not_le.mpr hshort)]
  refine ⟨hwf, ?_, ?_⟩
  · rw [hstep]
    exact hgathering.requested
  · rw [hstep]
    change Gathered chunkData _ (((state.reassembly.set chunkIndex _).get? chunkIndex).getD _)
    rw [OrderedMap.get?_set_self]
    exact hitem

/-- When the count reaches the length, the blocks are put together. -/
theorem Gathering.complete (hgathering : Gathering chunkIndex request chunkData state pieces)
    {beginOffset : ℕ} {data : Bytes} (hpiece : IsPieceOf chunkData (beginOffset, data))
    (henough : chunkData.length ≤ received (firstPieces (pieces ++ [(beginOffset, data)]))) :
    ∃ buffer, schedulerStep digest chunkStore state
        (env, .handlePiece chunkIndex beginOffset chunkData.length data) =
          declareAssembled env chunkIndex request buffer state ∧
      Filled chunkData (covered (firstPieces (pieces ++ [(beginOffset, data)]))) buffer := by
  have hitem := hgathering.receive hpiece
  have hzeros : (List.replicate (Web.receive chunkIndex beginOffset chunkData.length data
      state).totalLength (0 : UInt8)).length = chunkData.length := by
    rw [List.length_replicate, hitem.totalLength]
  obtain ⟨buffer, hbuffer, hfilled⟩ := assembleParts_filled (filled_empty hzeros)
    fun entry hmem ↦ hitem.slices entry (mem_of_mem_firstPieces (hitem.parts ▸ hmem))
  refine ⟨buffer, ?_, hfilled.length, fun position hposition ↦ hfilled.agrees position (.inr ?_)⟩
  · change (handlePiece env chunkIndex beginOffset chunkData.length data state).1 = _
    simp only [handlePiece, hgathering.requested]
    rw [if_pos (by rw [hitem.totalLength, hitem.receivedBytes]; exact henough), completePiece_eq,
      hbuffer]
  · rw [hitem.parts]
    exact mem_covered.mp hposition

/-- A chunk that is declared reassembled is no longer requested. -/
theorem get?_inFlight_declareAssembled (buffer : Bytes) :
    (declareAssembled env chunkIndex request buffer state).inFlight.get? chunkIndex = none := by
  rw [inFlight_declareAssembled]
  exact OrderedMap.get?_delete_self _ _

/-- **A piece.** It declares the chunk soundly, if at all, unless the count says that the chunk is
there while some position is not covered. -/
theorem Gathering.sound_iff (hgathering : Gathering chunkIndex request chunkData state pieces)
    {beginOffset : ℕ} {data : Bytes} (hpiece : IsPieceOf chunkData (beginOffset, data)) :
    ((schedulerStep digest chunkStore state
        (env, .handlePiece chunkIndex beginOffset chunkData.length data)).inFlight.get? chunkIndex =
          none →
      DeclaresSoundly digest chunkStore env chunkIndex beginOffset chunkData.length data request
        chunkData state) ↔
      received (firstPieces (pieces ++ [(beginOffset, data)])) < chunkData.length ∨
        chunkData.length + repeated (firstPieces (pieces ++ [(beginOffset, data)])) ≤
          received (firstPieces (pieces ++ [(beginOffset, data)])) := by
  by_cases hshort : received (firstPieces (pieces ++ [(beginOffset, data)])) < chunkData.length
  · have hnext := @Gathering.incomplete σ digest chunkStore env _ _ _ _ _ hgathering _ _ hpiece
      hshort
    refine iff_of_true (fun hdeclared ↦ ?_) (.inl hshort)
    rw [hnext.requested] at hdeclared
    exact absurd hdeclared (by simp)
  obtain ⟨buffer, hstep, hfilled⟩ :=
    @Gathering.complete σ digest chunkStore env _ _ _ _ _ hgathering _ _ hpiece (not_lt.mp hshort)
  have hdeclared : (schedulerStep digest chunkStore state
      (env, .handlePiece chunkIndex beginOffset chunkData.length data)).inFlight.get? chunkIndex =
        none := by
    rw [hstep]
    exact get?_inFlight_declareAssembled buffer
  have hitem := hgathering.receive hpiece
  rw [or_iff_right hshort, ← range_subset_covered_iff fun piece hmem ↦
    hitem.slices piece (mem_of_mem_firstPieces hmem)]
  constructor
  · intro hsound position hposition
    obtain ⟨part, hpart, hmem⟩ := (hsound hdeclared).covered position (mem_range.mp hposition)
    rw [hitem.parts] at hpart
    exact mem_covered.mpr ⟨part, hpart, hmem⟩
  · intro hall _
    have hbuffer : buffer = chunkData :=
      hfilled.eq fun position hposition ↦ hall (mem_range.mpr hposition)
    refine ⟨hbuffer ▸ hstep, fun position hposition ↦ ?_⟩
    rw [hitem.parts]
    exact mem_covered.mp (hall (mem_range.mpr hposition))

theorem piecesOf_append (passed : List SchedulerInput) (input : SchedulerInput) :
    piecesOf chunkIndex (passed ++ [input]) =
      piecesOf chunkIndex passed ++ input.2.piecesOf chunkIndex := by
  rw [piecesOf, List.flatMap_append, List.flatMap_singleton, piecesOf]

/-- As long as the request is in flight, the blocks in its books are those that have come. -/
theorem gathering_of_slices (hstart : Gathering chunkIndex request chunkData state [])
    {inputs : List SchedulerInput}
    (hslices : Along (schedulerStep digest chunkStore) (TrueSlices chunkIndex request chunkData)
      state inputs)
    (hrequested : (run (schedulerStep digest chunkStore) state inputs).inFlight.get? chunkIndex =
      some request) :
    Gathering chunkIndex request chunkData (run (schedulerStep digest chunkStore) state inputs)
      (piecesOf chunkIndex inputs) := by
  induction inputs using List.reverseRecOn with
  | nil => exact hstart
  | append_singleton passed input ih =>
    obtain ⟨hpassed, hallowed, _⟩ := (along_append _ _ _).mp hslices
    have hgathering := ih hpassed hallowed.1
    rw [run_append] at hrequested ⊢
    rw [piecesOf_append]
    by_cases hpiece : ∃ beginOffset totalLength data,
        input.2 = .handlePiece chunkIndex beginOffset totalLength data
    · obtain ⟨env, event⟩ := input
      obtain ⟨beginOffset, totalLength, data, rfl⟩ := hpiece
      obtain ⟨rfl, htrue⟩ := hallowed.2 rfl
      have hpieces : SchedulerEvent.piecesOf chunkIndex
          (.handlePiece chunkIndex beginOffset chunkData.length data) = [(beginOffset, data)] :=
        if_pos rfl
      rw [hpieces]
      refine hgathering.incomplete htrue (not_le.mp fun henough ↦ ?_)
      obtain ⟨buffer, hdeclared, -⟩ :=
        @Gathering.complete σ digest chunkStore env _ _ _ _ _ hgathering _ _ htrue henough
      rw [run_cons, run_nil, hdeclared, get?_inFlight_declareAssembled] at hrequested
      exact absurd hrequested (by simp)
    · have hother := @Gathering.other σ digest chunkStore _ _ _ _ _ hgathering _ hallowed
        fun beginOffset totalLength data heq ↦ hpiece ⟨beginOffset, totalLength, data, heq⟩
      rw [hother.1, List.append_nil]
      exact hother.2

end Gathering

/-! ### Declarations -/

/-- **When reassembly is sound.** A scheduler has just requested a chunk, and while the request is
in flight all pieces that come are slices of the chunk. A piece that takes the request off the books
declares the chunk soundly, unless the blocks, the first of each offset, have as many bytes as the
chunk but not as many as the chunk and those that were received more than once. -/
theorem declaresSoundly_iff (digest : Bytes → Bytes) (chunkStore : IChunkStore σ)
    (manifest : ResourceManifest) (localBitfield : Bitfield) (heap : List Bitfield) (store : σ)
    (before : List SchedulerInput) (issuing : SchedulerInput) (passed : List SchedulerInput)
    {env : Env} {chunkIndex beginOffset totalLength : ℕ} {data chunkData : Bytes}
    {request : InFlightRequest}
    (hbefore : (schedulerRun digest chunkStore manifest localBitfield heap store
      before).inFlight.get? chunkIndex ≠ some request)
    (hissued : (schedulerRun digest chunkStore manifest localBitfield heap store
      (before ++ [issuing])).inFlight.get? chunkIndex = some request)
    (hslices : Along (schedulerStep digest chunkStore) (TrueSlices chunkIndex request chunkData)
      (schedulerRun digest chunkStore manifest localBitfield heap store (before ++ [issuing]))
      (passed ++ [(env, .handlePiece chunkIndex beginOffset totalLength data)])) :
    ((schedulerRun digest chunkStore manifest localBitfield heap store
        (before ++ [issuing] ++ (passed ++
          [(env, .handlePiece chunkIndex beginOffset totalLength data)]))).inFlight.get?
            chunkIndex = none →
      DeclaresSoundly digest chunkStore env chunkIndex beginOffset totalLength data request
        chunkData
        (schedulerRun digest chunkStore manifest localBitfield heap store
          (before ++ [issuing] ++ passed))) ↔
      received (keptPieces chunkIndex (passed ++
        [(env, .handlePiece chunkIndex beginOffset totalLength data)])) < chunkData.length ∨
      chunkData.length + repeated (keptPieces chunkIndex (passed ++
          [(env, .handlePiece chunkIndex beginOffset totalLength data)])) ≤
        received (keptPieces chunkIndex (passed ++
          [(env, .handlePiece chunkIndex beginOffset totalLength data)])) := by
  have hwf := schedulerRun_wellFormed digest chunkStore manifest localBitfield heap store
    (before ++ [issuing])
  have hfresh := reassembly_of_issued digest chunkStore manifest localBitfield heap store before
    issuing hbefore hissued
  have hrun : ∀ more, schedulerRun digest chunkStore manifest localBitfield heap store
      (before ++ [issuing] ++ more) = run (schedulerStep digest chunkStore)
        (schedulerRun digest chunkStore manifest localBitfield heap store (before ++ [issuing]))
          more := run_append _ _
  rw [hrun, hrun, run_append, run_cons, run_nil]
  generalize schedulerRun digest chunkStore manifest localBitfield heap store
    (before ++ [issuing]) = state at *
  have hstart : Gathering chunkIndex request chunkData state [] := by
    refine ⟨hwf, hissued, ?_⟩
    rw [hfresh]
    exact gathered_empty chunkData
  obtain ⟨hpassed, ⟨hrequested, hallowed⟩, -⟩ := (along_append _ _ _).mp hslices
  have hgathering := gathering_of_slices hstart hpassed hrequested
  obtain ⟨rfl, htrue⟩ := hallowed rfl
  have hpieces : piecesOf chunkIndex (passed ++
      [(env, .handlePiece chunkIndex beginOffset chunkData.length data)]) =
        piecesOf chunkIndex passed ++ [(beginOffset, data)] := by
    rw [piecesOf_append]
    exact congrArg _ (if_pos rfl)
  rw [keptPieces, hpieces]
  exact hgathering.sound_iff htrue

/-! ### Overlapping slices -/

/-- A manifest of one chunk of four bytes. -/
def fourByteManifest : ResourceManifest :=
  { oneChunkManifest with
    fileSize := 4
    fileHash := "01020304"
    chunks := [⟨0, 4, "01020304"⟩] }

/-- The chunk is requested when the first three bytes come. -/
def threeBytesRun : List SchedulerInput :=
  [(calmEnv, .updatePeerBitfield "peer" 0)] ++ [(calmEnv, .start)] ++
    [(calmEnv, .handlePiece 0 0 4 [1, 2, 3])]

def threeBytesState : SchedulerState MemoryStorage :=
  schedulerRun id MemoryChunkStore fourByteManifest (Bitfield.new 1) [oneChunkBitfield]
    OrderedMap.empty threeBytesRun

/-- Then the second one of them comes again. -/
def overlappingPiece : SchedulerInput := (calmEnv, .handlePiece 0 1 4 [2])

theorem overlapping_trueSlices : Along (schedulerStep id MemoryChunkStore)
    (TrueSlices 0 ⟨0, "peer", 0, 0, 1000⟩ [1, 2, 3, 4])
    (schedulerRun id MemoryChunkStore fourByteManifest (Bitfield.new 1) [oneChunkBitfield]
      OrderedMap.empty ([(calmEnv, .updatePeerBitfield "peer" 0)] ++ [(calmEnv, .start)]))
    ([(calmEnv, .handlePiece 0 0 4 [1, 2, 3])] ++ [overlappingPiece]) :=
  ⟨⟨rfl, fun _ ↦ ⟨rfl, by decide, by decide⟩⟩, ⟨rfl, fun _ ↦ ⟨rfl, by decide, by decide⟩⟩, trivial⟩

/-- Four bytes have come, and the chunk goes to verification without its last one. -/
theorem overlapping_declared : Along (schedulerStep id MemoryChunkStore)
      (TrueSlices 0 ⟨0, "peer", 0, 0, 1000⟩ [1, 2, 3, 4])
      (schedulerRun id MemoryChunkStore fourByteManifest (Bitfield.new 1) [oneChunkBitfield]
        OrderedMap.empty ([(calmEnv, .updatePeerBitfield "peer" 0)] ++ [(calmEnv, .start)]))
      ([(calmEnv, .handlePiece 0 0 4 [1, 2, 3])] ++ [overlappingPiece]) ∧
    schedulerStep id MemoryChunkStore threeBytesState overlappingPiece =
      declareAssembled calmEnv 0 ⟨0, "peer", 0, 0, 1000⟩ [1, 2, 3, 0] threeBytesState ∧
    ¬ DeclaresSoundly id MemoryChunkStore calmEnv 0 1 4 [2] ⟨0, "peer", 0, 0, 1000⟩ [1, 2, 3, 4]
      threeBytesState := by
  refine ⟨overlapping_trueSlices, rfl, fun hsound ↦ ?_⟩
  obtain ⟨part, hpart, hmem⟩ := hsound.covered 3 (by decide)
  have hparts : (receive 0 1 4 [2] threeBytesState).parts.entries =
    [(0, [1, 2, 3]), (1, [2])] := rfl
  rw [hparts, List.mem_cons, List.mem_singleton] at hpart
  rcases hpart with rfl | rfl
  · exact absurd hmem (by decide)
  · exact absurd hmem (by decide)

theorem declaresSoundly_iff_overlapping :
    ((schedulerRun id MemoryChunkStore fourByteManifest (Bitfield.new 1) [oneChunkBitfield]
        OrderedMap.empty ([(calmEnv, .updatePeerBitfield "peer" 0)] ++ [(calmEnv, .start)] ++
          ([(calmEnv, .handlePiece 0 0 4 [1, 2, 3])] ++ [overlappingPiece]))).inFlight.get? 0 =
            none →
      DeclaresSoundly id MemoryChunkStore calmEnv 0 1 4 [2] ⟨0, "peer", 0, 0, 1000⟩ [1, 2, 3, 4]
        threeBytesState) ↔
      received (keptPieces 0 ([(calmEnv, .handlePiece 0 0 4 [1, 2, 3])] ++
        [overlappingPiece])) < 4 ∨
      4 + repeated (keptPieces 0 ([(calmEnv, .handlePiece 0 0 4 [1, 2, 3])] ++
        [overlappingPiece])) ≤
        received (keptPieces 0 ([(calmEnv, .handlePiece 0 0 4 [1, 2, 3])] ++ [overlappingPiece])) :=
  declaresSoundly_iff id MemoryChunkStore fourByteManifest (Bitfield.new 1) [oneChunkBitfield]
    OrderedMap.empty _ _ _ (fun h ↦ Option.some_ne_none _ h.symm) rfl
    overlapping_trueSlices

end CampusMesh.Web
