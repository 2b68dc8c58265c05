import CampusMesh.Server.Database
import CampusMesh.Server.ManifestGenerator

/-!
# The resource service

`ChunkCalculator` and the part of `ResourceService` that serves manifests. A stored resource has the
hashes of its chunks but not their sizes, which `getManifest` computes from the bounds of the
chunks; what it serves for a file describes the slices of the file (`Serves.spec`).
-/

set_option autoImplicit false
set_option relaxedAutoImplicit false

namespace CampusMesh.Server

open Library Shared

/-! ### Chunk bounds -/

/-- The offsets of a chunk in its file; `end` is exclusive, `streamEnd` inclusive. -/
structure ChunkBounds where
  index : ℕ
  start : ℕ
  «end» : ℕ
  streamEnd : ℕ
  length : ℕ

/-- `ChunkCalculator.calculateChunkBounds`. Subtraction stops at zero, as both maxima in the source
make it do. -/
def calculateChunkBounds (index fileSize chunkSize : ℕ) : ChunkBounds :=
  let start := index * chunkSize
  let stop := min (start + chunkSize) fileSize
  ⟨index, start, stop, max start (stop - 1), stop - start⟩

/-- The bounds of a chunk are those of a slice. -/
theorem calculateChunkBounds_length (index : ℕ) (file : Bytes) (chunkSize : ℕ) :
    (calculateChunkBounds index file.length chunkSize).length =
      (slice chunkSize file index).length := by
  rw [length_slice, calculateChunkBounds]
  simp only
  omega

/-! ### Manifests -/

/-- An error object that a service throws. -/
structure HttpError where
  statusCode : ℕ
  message : String
  deriving DecidableEq

/-- The check that a session is there, active and not expired; an expired one is deactivated. -/
def checkSession (sessionId : String) (now : ℕ) (db : Database) : Database × Option HttpError :=
  match SessionRepository.findById sessionId db with
  | none => (db, some ⟨404, "Session not found or has been ended."⟩)
  | some session =>
    if session.isActive = false then (db, some ⟨404, "Session not found or has been ended."⟩)
    else if session.expiresAt < now then
      (SessionRepository.deactivate session.id db, some ⟨410, "Session has expired."⟩)
    else (db, none)

/-- `ResourceInfo`. -/
structure ResourceInfo where
  id : String
  sessionId : String
  fileName : String
  fileSize : ℕ
  chunkSize : ℕ
  totalChunks : ℕ
  fileHash : String
  status : ResourceStatus
  createdAt : String

/-- `ResourceService.formatResourceInfo`. -/
def formatResourceInfo (row : ResourceRow) : ResourceInfo where
  id := row.id
  sessionId := row.sessionId
  fileName := row.fileName
  fileSize := row.fileSize
  chunkSize := row.chunkSize
  totalChunks := row.totalChunks
  fileHash := row.fileHash
  status := row.status
  createdAt := row.createdAt

/-- `ResourceService.listResources`. -/
def listResources (sessionId userSessionId : String) (now : ℕ) (db : Database) :
    Database × Except HttpError (List ResourceInfo) :=
  if userSessionId ≠ sessionId then
    (db, .error ⟨403, "Cannot access resources belonging to another class session."⟩)
  else
    match checkSession sessionId now db with
    | (db, some error) => (db, .error error)
    | (db, none) =>
      (db, .ok ((ResourceRepository.findBySessionId sessionId true db).map formatResourceInfo))

/-- The manifest of a resource with the given chunks. -/
def manifestOf (resource : ResourceRow) (rawChunks : List ChunkManifestEntry) : ResourceManifest :=
  let chunksWithSizes := rawChunks.map fun chunk ↦ ChunkManifestEntry.mk chunk.index
    (calculateChunkBounds chunk.index resource.fileSize resource.chunkSize).length chunk.sha256
  { resourceId := resource.id
    sessionId := resource.sessionId
    fileName := resource.fileName
    fileSize := resource.fileSize
    chunkSize := resource.chunkSize
    totalChunks := resource.totalChunks
    fileHash := resource.fileHash
    createdAt := resource.createdAt
    chunks := chunksWithSizes
    chunkHashes := some (chunksWithSizes.map ChunkManifestEntry.sha256) }

/-- `ResourceService.getManifest`. -/
def getManifest (resourceId userSessionId : String) (now : ℕ) (db : Database) :
    Database × Except HttpError ResourceManifest :=
  match ResourceRepository.findById resourceId db with
  | none => (db, .error ⟨404, "Resource not found."⟩)
  | some resource =>
    if resource.status ≠ .ready then (db, .error ⟨404, "Resource not found."⟩)
    else if userSessionId ≠ resource.sessionId then
      (db, .error ⟨403, "Cannot access resource belonging to another class session."⟩)
    else
      match checkSession resource.sessionId now db with
      | (db, some error) => (db, .error error)
      | (db, none) => (db, .ok (manifestOf resource (ResourceRepository.getChunks resource.id db)))

/-- What `processUpload` stores of a file once it has a manifest. -/
def uploadParams (resourceId sessionId safeFileName finalFilePath : String)
    (manifestResult : GeneratedManifestResult) : CreateResourceParams where
  id := resourceId
  sessionId := sessionId
  fileName := safeFileName
  fileSize := manifestResult.fileSize
  chunkSize := CHUNK_SIZE_BYTES
  totalChunks := manifestResult.totalChunks
  fileHash := manifestResult.fileHash
  storagePath := finalFilePath
  status := some .ready

/-- The check of a session touches only the sessions. -/
theorem checkSession_sameRows (sessionId : String) (now : ℕ) (db : Database) :
    ResourceRepository.SameRows db (checkSession sessionId now db).1 := by
  unfold checkSession
  split
  · exact .refl db
  · split_ifs
    · exact .refl db
    · exact ResourceRepository.deactivate_sameRows _ db
    · exact .refl db

theorem checkSession_ok {sessionId : String} {now : ℕ} {db next : Database}
    (hok : checkSession sessionId now db = (next, none)) : next = db := by
  unfold checkSession at hok
  split at hok
  · simp at hok
  · split_ifs at hok
    · simp at hok
    · simp at hok
    · exact (Prod.mk.inj hok).1.symm

/-- A manifest that is served is made from the rows of the resource. -/
theorem getManifest_ok {resourceId userSessionId : String} {now : ℕ} {db : Database}
    {manifest : ResourceManifest}
    (hok : (getManifest resourceId userSessionId now db).2 = .ok manifest) :
    ∃ resource, ResourceRepository.findById resourceId db = some resource ∧
      manifest = manifestOf resource (ResourceRepository.getChunks resource.id db) := by
  unfold getManifest at hok
  split at hok
  · simp at hok
  · next resource hresource =>
    split_ifs at hok
    split at hok
    · simp at hok
    · next reached hchecked =>
      rw [checkSession_ok hchecked] at hok
      exact ⟨resource, hresource, (Except.ok.inj hok).symm⟩

/-! ### The manifest of a file -/

/-- A file that was stored: what `generate` found in the buffers that the file was read in was
committed in a transaction. -/
structure Upload (digest : Bytes → Bytes) where
  buffers : List Bytes
  manifestResult : GeneratedManifestResult
  resourceId : String
  sessionId : String
  safeFileName : String
  finalFilePath : String
  createdAt : String
  before : Database
  stored : Database
  row : Option ResourceRow
  generated : generate digest CHUNK_SIZE_BYTES buffers = some manifestResult
  committed : ResourceRepository.createWithManifest
    (uploadParams resourceId sessionId safeFileName finalFilePath manifestResult)
    manifestResult.chunks createdAt before = .ok (stored, row)

namespace Upload

variable {digest : Bytes → Bytes}

/-- The bytes of the file. -/
def file (upload : Upload digest) : Bytes := upload.buffers.flatten

/-- `getManifest` serves a manifest for the file, from a database that still has the rows that were
committed. -/
def Serves (upload : Upload digest) (manifest : ResourceManifest) : Prop :=
  ∃ (db : Database) (userSessionId : String) (now : ℕ),
    ResourceRepository.findById upload.resourceId db =
        ResourceRepository.findById upload.resourceId upload.stored ∧
      ResourceRepository.getChunks upload.resourceId db =
        ResourceRepository.getChunks upload.resourceId upload.stored ∧
      (getManifest upload.resourceId userSessionId now db).2 = .ok manifest

theorem manifestResult_eq (upload : Upload digest) :
    upload.manifestResult = slicedManifest digest CHUNK_SIZE_BYTES upload.file := by
  have hgenerated := upload.generated
  rw [generate_eq (by decide) upload.buffers] at hgenerated
  exact (Option.some.inj hgenerated).symm

/-- The rows of a file that was stored. -/
theorem stored_rows (upload : Upload digest) :
    ResourceRepository.findById upload.resourceId upload.stored =
        some (ResourceRepository.rowOf
          (uploadParams upload.resourceId upload.sessionId upload.safeFileName upload.finalFilePath
            (slicedManifest digest CHUNK_SIZE_BYTES upload.file)) upload.createdAt) ∧
      ResourceRepository.getChunks upload.resourceId upload.stored =
        (List.range (sliceCount CHUNK_SIZE_BYTES upload.file.length)).map fun index ↦
          { sliceEntry digest CHUNK_SIZE_BYTES upload.file index with size := 0 } := by
  have hcommitted := upload.committed
  rw [upload.manifestResult_eq] at hcommitted
  have hsorted : ((slicedManifest digest CHUNK_SIZE_BYTES upload.file).chunks.map
      ChunkManifestEntry.index).Pairwise (· ≤ ·) := by
    rw [map_index_slicedManifest]
    exact List.pairwise_lt_range.imp Nat.le_of_lt
  obtain ⟨hrow, hchunks⟩ := ResourceRepository.createWithManifest_ok hcommitted hsorted
  refine ⟨hrow, hchunks.trans ?_⟩
  rw [slicedManifest, List.map_map]
  rfl

/-- **What is served for a file.** The lengths and hashes of its slices in order, and its own hash.
-/
theorem Serves.spec {upload : Upload digest} {manifest : ResourceManifest}
    (hserves : upload.Serves manifest) :
    manifest.resourceId = upload.resourceId ∧
      manifest.totalChunks = sliceCount CHUNK_SIZE_BYTES upload.file.length ∧
      manifest.fileHash = hexText (digest upload.file) ∧
      manifest.chunks = (List.range (sliceCount CHUNK_SIZE_BYTES upload.file.length)).map
        (sliceEntry digest CHUNK_SIZE_BYTES upload.file) ∧
      manifest.chunkHashes = some (manifest.chunks.map ChunkManifestEntry.sha256) := by
  obtain ⟨db, userSessionId, now, hrow, hchunks, hserved⟩ := hserves
  obtain ⟨hstoredRow, hstoredChunks⟩ := upload.stored_rows
  obtain ⟨resource, hresource, rfl⟩ := getManifest_ok hserved
  obtain rfl : _ = resource :=
    Option.some.inj ((hrow.trans hstoredRow).symm.trans hresource)
  refine ⟨rfl, rfl, rfl, ?_, rfl⟩
  change List.map _ (ResourceRepository.getChunks upload.resourceId db) = _
  rw [hchunks, hstoredChunks, List.map_map]
  refine List.map_congr_left fun index _ ↦ ?_
  exact congrArg (ChunkManifestEntry.mk index · _) (calculateChunkBounds_length index upload.file _)

end Upload

end CampusMesh.Server
