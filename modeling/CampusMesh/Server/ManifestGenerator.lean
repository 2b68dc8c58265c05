import CampusMesh.Library.Slicing
import CampusMesh.Shared.Constants
import CampusMesh.Shared.ProtocolTypes
import CampusMesh.Shared.Runtime

/-!
# The manifest generator

`ManifestGenerator.generate` reads a file as a stream of buffers of any lengths, and cuts what it
has read into slices of the chunk size. Whatever the buffers are, its chunks are the slices of the
file in order, with their lengths and hashes (`generate_eq`).

A hasher that is fed piece by piece is the bytes it was fed, until its digest is taken.
-/

set_option autoImplicit false
set_option relaxedAutoImplicit false

namespace CampusMesh.Server

open Library Shared

/-- What `generate` resolves with. -/
structure GeneratedManifestResult where
  fileSize : ℕ
  totalChunks : ℕ
  fileHash : String
  chunks : List ChunkManifestEntry
  deriving DecidableEq

/-- The variables that the handlers of the stream share. -/
structure GeneratorState where
  wholeFileHasher : Bytes
  chunks : List ChunkManifestEntry
  bufferAccumulator : Bytes
  chunkIndex : ℕ
  totalBytes : ℕ

/-- Their values before the first event. -/
def GeneratorState.initial : GeneratorState := ⟨[], [], [], 0, 0⟩

section Generate

variable (digest : Bytes → Bytes) (chunkSize : ℕ)

/-- Appends the entry of a slice. -/
def pushChunk (slice : Bytes) (state : GeneratorState) : GeneratorState :=
  { state with
    chunks := state.chunks ++ [⟨state.chunkIndex, slice.length, hexText (digest slice)⟩]
    chunkIndex := state.chunkIndex + 1 }

/-- `while (bufferAccumulator.length >= chunkSize) { … }` with a bound on the number of rounds, and
nothing when the loop does not end within it. -/
def sliceLoop : ℕ → GeneratorState → Option GeneratorState
  | rounds, state =>
    if chunkSize ≤ state.bufferAccumulator.length then
      match rounds with
      | 0 => none
      | rounds + 1 =>
        sliceLoop rounds (pushChunk digest (state.bufferAccumulator.take chunkSize)
          { state with bufferAccumulator := state.bufferAccumulator.drop chunkSize })
    else some state

/-- The handler of `data`. A loop that ends takes at most one round for each byte. -/
def onData (state : GeneratorState) (incomingData : Bytes) : Option GeneratorState :=
  let bufferAccumulator := state.bufferAccumulator ++ incomingData
  sliceLoop digest chunkSize bufferAccumulator.length
    { state with
      wholeFileHasher := state.wholeFileHasher ++ incomingData
      totalBytes := state.totalBytes + incomingData.length
      bufferAccumulator := bufferAccumulator }

/-- The handler of `end`. -/
def onEnd (state : GeneratorState) : GeneratedManifestResult :=
  let last :=
    if 0 < state.bufferAccumulator.length then
      { pushChunk digest state.bufferAccumulator state with bufferAccumulator := [] }
    else state
  { fileSize := last.totalBytes
    totalChunks := last.chunks.length
    fileHash := hexText (digest last.wholeFileHasher)
    chunks := last.chunks }

/-- `ManifestGenerator.generate` on the buffers that the stream delivers; nothing if it never
resolves. -/
def generate (buffers : List Bytes) : Option GeneratedManifestResult :=
  (buffers.foldlM (onData digest chunkSize) GeneratorState.initial).map (onEnd digest)

/-! ### The slices of a file -/

/-- The entry of the slice of a file at an index. -/
def sliceEntry (file : Bytes) (index : ℕ) : ChunkManifestEntry :=
  ⟨index, (slice chunkSize file index).length, hexText (digest (slice chunkSize file index))⟩

/-- What `generate` resolves with for a file. -/
def slicedManifest (file : Bytes) : GeneratedManifestResult where
  fileSize := file.length
  totalChunks := sliceCount chunkSize file.length
  fileHash := hexText (digest file)
  chunks := (List.range (sliceCount chunkSize file.length)).map (sliceEntry digest chunkSize file)

/-- The chunks of a file are numbered in order. -/
theorem map_index_slicedManifest (file : Bytes) :
    (slicedManifest digest chunkSize file).chunks.map ChunkManifestEntry.index =
      List.range (sliceCount chunkSize file.length) := by
  rw [slicedManifest, List.map_map]
  exact List.map_id _

/-- The bytes read so far are cut into slices up to a rest. -/
structure Sliced (bytes : Bytes) (state : GeneratorState) : Prop where
  wholeFileHasher : state.wholeFileHasher = bytes
  totalBytes : state.totalBytes = bytes.length
  chunks : state.chunks =
    (List.range state.chunkIndex).map (sliceEntry digest chunkSize bytes)
  bufferAccumulator : state.bufferAccumulator = bytes.drop (state.chunkIndex * chunkSize)
  complete : state.chunkIndex * chunkSize ≤ bytes.length

variable {digest chunkSize} {bytes : Bytes} {state : GeneratorState}

theorem Sliced.length_bufferAccumulator (hsliced : Sliced digest chunkSize bytes state) :
    state.bufferAccumulator.length = bytes.length - state.chunkIndex * chunkSize := by
  rw [hsliced.bufferAccumulator, List.length_drop]

/-- Pushing the next slice: the entries are those of one slice more. -/
theorem Sliced.chunks_push (hsliced : Sliced digest chunkSize bytes state) {part : Bytes}
    (hpart : part = slice chunkSize bytes state.chunkIndex) :
    (pushChunk digest part state).chunks =
      (List.range (state.chunkIndex + 1)).map (sliceEntry digest chunkSize bytes) := by
  rw [List.range_succ, List.map_append, ← hsliced.chunks, hpart]
  rfl

/-- One round of the loop cuts off one slice. -/
theorem Sliced.round (hsliced : Sliced digest chunkSize bytes state)
    (hfull : chunkSize ≤ state.bufferAccumulator.length) :
    Sliced digest chunkSize bytes
      (pushChunk digest (state.bufferAccumulator.take chunkSize)
        { state with bufferAccumulator := state.bufferAccumulator.drop chunkSize }) := by
  have hrest := hsliced.length_bufferAccumulator
  have hcomplete := hsliced.complete
  refine ⟨hsliced.wholeFileHasher, hsliced.totalBytes, ?_, ?_, ?_⟩
  · refine hsliced.chunks_push ?_
    rw [hsliced.bufferAccumulator, slice]
  · change state.bufferAccumulator.drop chunkSize = bytes.drop ((state.chunkIndex + 1) * chunkSize)
    rw [hsliced.bufferAccumulator, List.drop_drop, Nat.add_mul, Nat.one_mul]
  · change (state.chunkIndex + 1) * chunkSize ≤ bytes.length
    rw [Nat.add_mul, Nat.one_mul]
    omega

/-- The loop ends, with less than a slice left. -/
theorem Sliced.loop (hsize : 0 < chunkSize) {rounds : ℕ}
    (hsliced : Sliced digest chunkSize bytes state)
    (hrounds : state.bufferAccumulator.length ≤ rounds) :
    ∃ last, sliceLoop digest chunkSize rounds state = some last ∧
      Sliced digest chunkSize bytes last ∧ last.bufferAccumulator.length < chunkSize := by
  induction rounds generalizing state with
  | zero =>
    have hshort : ¬ chunkSize ≤ state.bufferAccumulator.length := by omega
    refine ⟨state, ?_, hsliced, not_le.mp hshort⟩
    rw [sliceLoop, if_neg hshort]
  | succ rounds ih =>
    by_cases hfull : chunkSize ≤ state.bufferAccumulator.length
    · have hfewer : (state.bufferAccumulator.drop chunkSize).length ≤ rounds := by
        rw [List.length_drop]
        omega
      obtain ⟨last, hloop, hlast⟩ := ih (hsliced.round hfull) hfewer
      refine ⟨last, ?_, hlast⟩
      rw [sliceLoop, if_pos hfull]
      exact hloop
    · refine ⟨state, ?_, hsliced, not_le.mp hfull⟩
      rw [sliceLoop, if_neg hfull]

/-- One more buffer. -/
theorem Sliced.onData (hsize : 0 < chunkSize) (hsliced : Sliced digest chunkSize bytes state)
    (incomingData : Bytes) :
    ∃ last, Server.onData digest chunkSize state incomingData = some last ∧
      Sliced digest chunkSize (bytes ++ incomingData) last ∧
      last.bufferAccumulator.length < chunkSize := by
  refine Sliced.loop hsize ⟨?_, ?_, ?_, ?_, ?_⟩ le_rfl
  · exact congrArg (· ++ incomingData) hsliced.wholeFileHasher
  · rw [List.length_append]
    exact congrArg (· + incomingData.length) hsliced.totalBytes
  · refine hsliced.chunks.trans (List.map_congr_left fun index hindex ↦ ?_)
    have hslice : (index + 1) * chunkSize ≤ bytes.length :=
      (Nat.mul_le_mul_right chunkSize (List.mem_range.mp hindex)).trans hsliced.complete
    rw [sliceEntry, sliceEntry, slice_append hslice]
  · rw [List.drop_append_of_le_length hsliced.complete, ← hsliced.bufferAccumulator]
  · rw [List.length_append]
    exact hsliced.complete.trans (Nat.le_add_right _ _)

/-- All buffers of a stream. -/
theorem Sliced.foldlM (hsize : 0 < chunkSize) (buffers : List Bytes)
    (hsliced : Sliced digest chunkSize bytes state)
    (hrest : state.bufferAccumulator.length < chunkSize) :
    ∃ last, buffers.foldlM (Server.onData digest chunkSize) state = some last ∧
      Sliced digest chunkSize (bytes ++ buffers.flatten) last ∧
      last.bufferAccumulator.length < chunkSize := by
  induction buffers generalizing bytes state with
  | nil =>
    rw [List.flatten_nil, List.append_nil]
    exact ⟨state, rfl, hsliced, hrest⟩
  | cons incomingData rest ih =>
    obtain ⟨next, hnext, hsliced, hrest⟩ := hsliced.onData hsize incomingData
    rw [List.foldlM_cons, hnext, List.flatten_cons, ← List.append_assoc]
    exact ih hsliced hrest

/-- The rest becomes the last chunk. -/
theorem Sliced.onEnd (hsize : 0 < chunkSize) (hsliced : Sliced digest chunkSize bytes state)
    (hrest : state.bufferAccumulator.length < chunkSize) :
    Server.onEnd digest state = slicedManifest digest chunkSize bytes := by
  have hlength := hsliced.length_bufferAccumulator
  have hcomplete := hsliced.complete
  unfold Server.onEnd slicedManifest
  simp only
  split_ifs with hpartial
  · have hcount : sliceCount chunkSize bytes.length = state.chunkIndex + 1 :=
      sliceCount_of_rest (hlength ▸ hpartial) (hlength ▸ hrest)
    have hlast : state.bufferAccumulator = slice chunkSize bytes state.chunkIndex := by
      rw [slice, ← hsliced.bufferAccumulator, List.take_of_length_le hrest.le]
    change GeneratedManifestResult.mk state.totalBytes
      (pushChunk digest state.bufferAccumulator state).chunks.length
      (hexText (digest state.wholeFileHasher))
      (pushChunk digest state.bufferAccumulator state).chunks = _
    rw [hsliced.chunks_push hlast, hcount, hsliced.totalBytes, hsliced.wholeFileHasher,
      List.length_map, List.length_range]
  · have hcount : sliceCount chunkSize bytes.length = state.chunkIndex := by
      refine sliceCount_of_whole hsize ?_
      omega
    rw [hcount, hsliced.totalBytes, hsliced.chunks, hsliced.wholeFileHasher, List.length_map,
      List.length_range]

/-- **The manifest of a file.** However the stream cuts the file into buffers, `generate` resolves
with the slices of the file in order. -/
theorem generate_eq (hsize : 0 < chunkSize) (buffers : List Bytes) :
    generate digest chunkSize buffers = some (slicedManifest digest chunkSize buffers.flatten) := by
  have hinitial : Sliced digest chunkSize [] GeneratorState.initial := by
    refine ⟨rfl, rfl, rfl, ?_, ?_⟩
    · exact List.drop_nil.symm
    · rw [GeneratorState.initial, Nat.zero_mul]
      exact le_rfl
  obtain ⟨last, hlast, hsliced, hrest⟩ := hinitial.foldlM hsize buffers hsize
  rw [generate, hlast, Option.map_some, hsliced.onEnd hsize hrest, List.nil_append]

end Generate

example : generate id 2 [[1], [], [2, 3, 4, 5]] =
    some ⟨5, 3, "0102030405", [⟨0, 2, "0102"⟩, ⟨1, 2, "0304"⟩, ⟨2, 1, "05"⟩]⟩ := by decide

end CampusMesh.Server
