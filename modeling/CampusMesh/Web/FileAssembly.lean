import CampusMesh.Server.ResourceService
import CampusMesh.Web.SchedulerIntegrity
import CampusMesh.Web.SchedulerReports

/-!
# Assembling a file

`assembleFile` reads the chunks of the current manifest from the store in order, each at a moment of
its own, and checks the hash of the whole. When the manifest is one that the server serves for a
file and the bitfield of its scheduler is complete, the result is the file
(`assembleFile_of_isComplete`).
-/

set_option autoImplicit false
set_option relaxedAutoImplicit false

namespace CampusMesh.Web

open Library Shared Server SchedulerState

variable {σ : Type}

/-- What `assembleFile` resolves with. -/
structure AssembledFile where
  blob : Bytes
  fileHash : String
  verified : Bool
  fileName : String
  deriving DecidableEq

/-- Reads a chunk from the store. -/
def readChunk (chunkStore : IChunkStore σ) (resourceId : String) (stores : ℕ → σ) (index : ℕ) :
    Except JsError Bytes :=
  match chunkStore.get (stores index) resourceId index with
  | some chunk => .ok chunk
  | none => .error (.error ("Missing chunk #" ++ toString index ++ " in local chunk store."))

/-- `assembleFile`, where each chunk is read from the store as it is by then; null when the resource
is not the current one. -/
def assembleFile (digest : Bytes → Bytes) (chunkStore : IChunkStore σ)
    (currentManifest : Option ResourceManifest) (resourceId : String) (stores : ℕ → σ) :
    Except JsError (Option AssembledFile) :=
  match currentManifest with
  | none => .ok none
  | some manifest =>
    if manifest.resourceId ≠ resourceId then .ok none
    else do
      let parts ← (List.range manifest.totalChunks).mapM (readChunk chunkStore resourceId stores)
      let blob := parts.flatten
      let computedHash := hexText (digest blob)
      return some
        { blob := blob
          fileHash := computedHash
          verified := toLowerCase computedHash = toLowerCase manifest.fileHash
          fileName := manifest.fileName }

/-! ### From the store to the file -/

section Assembly

variable {digest : Bytes → Bytes} {chunkStore : IChunkStore σ} {manifest : ResourceManifest}

/-- Reading chunks that are all there. -/
theorem mapM_readChunk {resourceId : String} {stores : ℕ → σ} {chunks : ℕ → Bytes}
    {indices : List ℕ} (hstored : ∀ index ∈ indices,
      chunkStore.get (stores index) resourceId index = some (chunks index)) :
    indices.mapM (readChunk chunkStore resourceId stores) = .ok (indices.map chunks) := by
  induction indices with
  | nil => rfl
  | cons index rest ih =>
    have hread : readChunk chunkStore resourceId stores index = .ok (chunks index) := by
      rw [readChunk, hstored index List.mem_cons_self]
    rw [List.mapM_cons, hread, ih fun other hmem ↦ hstored other (List.mem_cons_of_mem index hmem)]
    rfl

/-- What was read was there. -/
theorem exists_of_mapM_readChunk {resourceId : String} {stores : ℕ → σ} {indices : List ℕ}
    {parts : List Bytes}
    (hread : indices.mapM (readChunk chunkStore resourceId stores) = .ok parts) :
    ∀ index ∈ indices, ∃ data, chunkStore.get (stores index) resourceId index = some data := by
  induction indices generalizing parts with
  | nil => exact fun _ hmem ↦ absurd hmem List.not_mem_nil
  | cons index rest ih =>
    rw [List.mapM_cons] at hread
    obtain ⟨chunk, hchunk, hread⟩ := bind_eq_ok_iff.mp hread
    obtain ⟨chunks, hchunks, -⟩ := bind_eq_ok_iff.mp hread
    intro other hother
    rcases List.mem_cons.mp hother with rfl | hmem
    · rw [readChunk] at hchunk
      split at hchunk
      · next data hdata => exact ⟨data, hdata⟩
      · cases hchunk
    · exact ih hchunks other hmem

/-- **What is assembled** is made of the chunks that the stores can hold. -/
theorem assembleFile_eq_ok {resourceId : String} {stores : ℕ → σ} {chunks : ℕ → Bytes}
    (honly : ∀ index data, chunkStore.get (stores index) manifest.resourceId index = some data →
      data = chunks index)
    {assembled : AssembledFile}
    (hassembled : assembleFile digest chunkStore (some manifest) resourceId stores =
      .ok (some assembled)) :
    manifest.resourceId = resourceId ∧
      assembled.blob = ((List.range manifest.totalChunks).map chunks).flatten ∧
      assembled.fileHash = hexText (digest assembled.blob) ∧
      assembled.verified = decide (toLowerCase assembled.fileHash =
        toLowerCase manifest.fileHash) ∧
      assembled.fileName = manifest.fileName := by
  unfold assembleFile at hassembled
  simp only at hassembled
  split_ifs at hassembled with hresource
  · cases hassembled
  · obtain rfl := not_not.mp hresource
    obtain ⟨parts, hparts, hresult⟩ := bind_eq_ok_iff.mp hassembled
    have hchunks : (List.range manifest.totalChunks).mapM
        (readChunk chunkStore manifest.resourceId stores) =
          .ok ((List.range manifest.totalChunks).map chunks) := by
      refine mapM_readChunk fun index hmem ↦ ?_
      obtain ⟨data, hdata⟩ := exists_of_mapM_readChunk hparts index hmem
      rw [hdata, honly index data hdata]
    obtain rfl := Except.ok.inj (hparts.symm.trans hchunks)
    obtain rfl := Option.some.inj (Except.ok.inj hresult)
    exact ⟨rfl, rfl, rfl, rfl, rfl⟩

/-- When every slice of the file is in the store, the file is assembled. -/
theorem assembleFile_of_slices {upload : Upload digest} (hserves : upload.Serves manifest)
    {stores : ℕ → σ} (hstored : ∀ index < manifest.totalChunks,
      chunkStore.get (stores index) manifest.resourceId index =
        some (slice CHUNK_SIZE_BYTES upload.file index)) :
    assembleFile digest chunkStore (some manifest) manifest.resourceId stores =
      .ok (some ⟨upload.file, hexText (digest upload.file), true, manifest.fileName⟩) := by
  obtain ⟨_, htotal, hhash, _, _⟩ := hserves.spec
  have hparts : (List.range manifest.totalChunks).mapM
      (readChunk chunkStore manifest.resourceId stores) =
        .ok ((List.range manifest.totalChunks).map (slice CHUNK_SIZE_BYTES upload.file)) :=
    mapM_readChunk fun index hmem ↦ hstored index (List.mem_range.mp hmem)
  have hblob : ((List.range manifest.totalChunks).map
      (slice CHUNK_SIZE_BYTES upload.file)).flatten = upload.file := by
    rw [htotal, ← List.flatMap_def]
    exact flatMap_slice (by decide) upload.file
  unfold assembleFile
  simp only [ne_eq, not_true_eq_false, if_false]
  rw [hparts]
  simp only [bind, Except.bind, pure, Except.pure, hblob, hhash, decide_true]

/-- The hash that a manifest expects of a chunk, if any, is the one that is listed for it. -/
theorem expectedHash_of_chunks (hashOf : ℕ → String) (count : ℕ) {index : ℕ} {expected : String}
    (hchunks : manifest.chunks.map ChunkManifestEntry.sha256 = (List.range count).map hashOf)
    (hhashes : manifest.chunkHashes = some (manifest.chunks.map ChunkManifestEntry.sha256))
    (hexpected : expectedHash manifest index = some expected) :
    index < count ∧ expected = hashOf index := by
  have hlisted : ∀ {text : Option String}, truthyText text = some expected →
      text = (manifest.chunks.map ChunkManifestEntry.sha256)[index]? →
        index < count ∧ expected = hashOf index := by
    intro text htruthy htext
    have hentry := htext.symm.trans (Option.filter_eq_some_iff.mp htruthy).1
    rw [hchunks, List.getElem?_map] at hentry
    obtain ⟨found, hfound, rfl⟩ := Option.map_eq_some_iff.mp hentry
    obtain ⟨hlt, hget⟩ := List.getElem?_eq_some_iff.mp hfound
    rw [List.length_range] at hlt
    rw [← hget, List.getElem_range]
    exact ⟨hlt, rfl⟩
  rw [expectedHash, Option.or_eq_some_iff] at hexpected
  rcases hexpected with hfirst | ⟨-, hsecond⟩
  · exact hlisted hfirst List.getElem?_map.symm
  · refine hlisted hsecond ?_
    rw [hhashes]
    rfl

/-- In a served manifest it is that of the slice. -/
theorem expectedHash_of_serves {upload : Upload digest} (hserves : upload.Serves manifest)
    {index : ℕ} {expected : String} (hexpected : expectedHash manifest index = some expected) :
    expected = hexText (digest (slice CHUNK_SIZE_BYTES upload.file index)) := by
  obtain ⟨-, -, -, hchunks, hhashes⟩ := hserves.spec
  refine (expectedHash_of_chunks
    (fun index ↦ hexText (digest (slice CHUNK_SIZE_BYTES upload.file index)))
    (sliceCount CHUNK_SIZE_BYTES upload.file.length) ?_ hhashes hexpected).2
  rw [hchunks, List.map_map]
  rfl

/-- Bytes that pass the check are the slice, when the digest is free of collisions. -/
theorem eq_slice_of_verified (hinjective : Function.Injective digest) {upload : Upload digest}
    (hserves : upload.Serves manifest) {index : ℕ} {data : Bytes}
    (hverified : Verified digest manifest index data) :
    data = slice CHUNK_SIZE_BYTES upload.file index := by
  obtain ⟨expected, hexpected, hvalid⟩ := hverified
  have heq := expectedHash_of_serves hserves hexpected
  subst heq
  exact eq_of_verified hinjective hexpected ⟨_, hexpected, hvalid⟩

/-- **File integrity.** For every file, however it was read when it was uploaded, every manifest
that the server serves for it, and every run of a scheduler on this manifest that starts with marks
for verified chunks only: once the bitfield is complete, and whatever else happens while the chunks
are read, the assembled file is the file and is reported as verified. -/
theorem assembleFile_of_isComplete (hinjective : Function.Injective digest)
    (upload : Upload digest) (hserves : upload.Serves manifest) (localBitfield : Bitfield)
    (hsize : localBitfield.totalChunks = manifest.totalChunks) (heap : List Bitfield)
    (storage : MemoryStorage)
    (hmarked : ∀ chunkIndex, localBitfield.has chunkIndex = true →
      Stored (Verified digest) MemoryChunkStore manifest storage chunkIndex)
    (inputs : List SchedulerInput)
    (hcomplete : (schedulerRun digest MemoryChunkStore manifest localBitfield heap storage
      inputs).localBitfield.isComplete = true)
    (later : List SchedulerInput) (moments : ℕ → ℕ) :
    assembleFile digest MemoryChunkStore (some manifest) upload.resourceId
        (fun index ↦ (schedulerRun digest MemoryChunkStore manifest localBitfield heap storage
          (inputs ++ later.take (moments index))).store) =
      .ok (some ⟨upload.file, hexText (digest upload.file), true, manifest.fileName⟩) := by
  rw [← hserves.spec.1]
  refine assembleFile_of_slices hserves fun index hindex ↦ ?_
  have htotal := (schedulerRun_manifest_totalChunks digest MemoryChunkStore manifest localBitfield
    heap storage inputs).2
  have hhas := Bitfield.isComplete_iff.mp hcomplete index (by omega)
  have hstill := schedulerRun_has_append digest MemoryChunkStore manifest localBitfield heap storage
    inputs (later.take (moments index)) hhas
  have hmanifest := (schedulerRun_manifest_totalChunks digest MemoryChunkStore manifest
    localBitfield heap storage (inputs ++ later.take (moments index))).1
  have hholds : HoldsAccepted (Verified digest) MemoryChunkStore _ :=
    holdsAccepted_run (fun _ _ _ ↦ id) heap hmarked (inputs ++ later.take (moments index))
  have hstored := hholds.marked index hstill
  rw [hmanifest] at hstored
  obtain ⟨data, hdata, hverified⟩ := hstored
  rw [hdata, eq_slice_of_verified hinjective hserves hverified]

end Assembly

/-! ### A file of one byte -/

/-- The manifest of a file with the one byte `7`, under the digest that returns the bytes. -/
def notesResult : GeneratedManifestResult := ⟨1, 1, "07", [⟨0, 1, "07"⟩]⟩

/-- The transaction that stores it. -/
def notesCommit : Except JsError (Database × Option ResourceRow) :=
  ResourceRepository.createWithManifest
    (uploadParams "res_1" "session" "notes.bin" "res_1.bin" notesResult) notesResult.chunks ""
    classroom

/-- The file with the one byte, stored for the session. -/
def notesUpload : Upload id where
  buffers := [[7]]
  manifestResult := notesResult
  resourceId := "res_1"
  sessionId := "session"
  safeFileName := "notes.bin"
  finalFilePath := "res_1.bin"
  createdAt := ""
  before := classroom
  stored := (notesCommit.toOption.map Prod.fst).getD classroom
  row := notesCommit.toOption.bind Prod.snd
  generated := generate_eq (by decide) [[7]]
  committed := by rfl

/-- What `getManifest` serves for it. -/
def notesManifest : ResourceManifest :=
  { oneChunkManifest with chunkHashes := some ["07"] }

theorem notesUpload_serves : notesUpload.Serves notesManifest :=
  ⟨notesUpload.stored, "session", 0, rfl, rfl, by rfl⟩

/-- The one chunk comes from the origin, after a wrong byte from a peer. -/
theorem assembleFile_of_isComplete_poisonedRun :
    assembleFile id MemoryChunkStore (some notesManifest) "res_1"
        (fun index ↦ (schedulerRun id MemoryChunkStore notesManifest (Bitfield.new 1)
          [oneChunkBitfield] OrderedMap.empty (poisonedRun ++ [].take index)).store) =
      .ok (some ⟨[7], "07", true, "notes.bin"⟩) :=
  assembleFile_of_isComplete Function.injective_id notesUpload notesUpload_serves (Bitfield.new 1)
    rfl [oneChunkBitfield] OrderedMap.empty (fun chunkIndex h ↦ by simp at h) poisonedRun
    (by decide +kernel) [] id

end CampusMesh.Web
