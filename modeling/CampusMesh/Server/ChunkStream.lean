import CampusMesh.Server.LocalDiskStorage
import CampusMesh.Server.ResourceService

/-!
# The origin of chunks

`ChunkCalculator` and `getChunkStream`: the server reads a chunk out of the file at the bounds that
it computes from the index, where `getManifest` describes the slices that were hashed at the upload.
Both are the same slices (`origin_agrees`), for every index text that is accepted, and the accepted
ones are the numerals of chunks.
-/

set_option autoImplicit false
set_option relaxedAutoImplicit false

namespace CampusMesh.Server

open Library Shared

/-! ### Chunk indices -/

/-- `ChunkCalculator.calculateTotalChunks`. The quotient of safe integers is not rounded to a whole
number unless it is one, so rounding up is exact. -/
def calculateTotalChunks (fileSize chunkSize : ℕ) : ℕ :=
  if fileSize ≤ 0 then 0 else (fileSize + chunkSize - 1) / chunkSize

/-- `Number.MAX_SAFE_INTEGER`. -/
def MAX_SAFE_INTEGER : ℕ := 2 ^ 53 - 1

/-- The text matches `/^\d+$/`. -/
def isNumeral (text : String) : Bool := !text.toList.isEmpty && text.toList.all Char.isDigit

/-- `Number.parseInt(text, 10)` of a numeral. A number that is not a safe integer may be rounded,
but not to one that is. -/
def parseInt (text : String) : ℕ := Nat.ofDigitChars 10 text.toList 0

/-- `ChunkCalculator.validateChunkIndex` for a text. -/
def validateChunkIndex (rawIndex : String) (totalChunks : ℕ) : Except HttpError ℕ :=
  let str := trim rawIndex
  if isNumeral str = false then .error ⟨400, "Chunk index must be a non-negative integer."⟩
  else
    let index := parseInt str
    if MAX_SAFE_INTEGER < index then
      .error ⟨400, "Chunk index must be a non-negative safe integer."⟩
    else if totalChunks ≤ 0 ∨ totalChunks ≤ index then
      .error ⟨404, "Chunk index " ++ toString index ++ " out of range (total chunks: " ++
        toString totalChunks ++ ")."⟩
    else .ok index

/-- The text, trimmed, is a run of decimal digits that denotes the number. -/
def Denotes (rawIndex : String) (index : ℕ) : Prop :=
  isNumeral (trim rawIndex) = true ∧ parseInt (trim rawIndex) = index

/-! ### Serving a chunk -/

/-- What a service throws. -/
inductive ServiceError
  | http (error : HttpError)
  | js (error : JsError)
  deriving DecidableEq

/-- `ChunkStreamResult`, with the bytes that the stream yields. -/
structure ChunkStreamResult where
  stream : Bytes
  length : ℕ
  start : ℕ
  «end» : ℕ
  chunkHash : String
  chunkIndex : ℕ
  totalChunks : ℕ
  fileName : String
  fileSize : ℕ
  resourceId : String

/-- `ResourceRepository.getChunk`. -/
def ResourceRepository.getChunk (resourceId : String) (chunkIndex : ℕ) (db : Database) :
    Option String :=
  db.chunkManifests.get? (resourceId, chunkIndex)

/-- What `getChunkStream` serves of a resource that may be accessed. -/
def serveChunk (within : Confinement) (resource : ResourceRow) (rawIndex : String) (db : Database)
    (storage : Storage) : Except ServiceError ChunkStreamResult := do
  let chunkIndex ← (validateChunkIndex rawIndex resource.totalChunks).mapError .http
  let bounds := calculateChunkBounds chunkIndex resource.fileSize resource.chunkSize
  let chunkHash := (ResourceRepository.getChunk resource.id chunkIndex db).getD ""
  if chunkHash = "" then
    throw (.http ⟨404, "Chunk index " ++ toString chunkIndex ++ " not found in manifest."⟩)
  let fileExists ←
    (LocalDiskStorageProvider.exists within resource.storagePath storage).mapError .js
  if fileExists = false then
    throw (.http ⟨404, "Resource payload file missing from storage."⟩)
  let stream ← (LocalDiskStorageProvider.createReadStream within resource.storagePath bounds.start
    bounds.streamEnd storage).mapError .js
  return {
    stream := stream
    length := bounds.length
    start := bounds.start
    «end» := bounds.end
    chunkHash := chunkHash
    chunkIndex := chunkIndex
    totalChunks := resource.totalChunks
    fileName := resource.fileName
    fileSize := resource.fileSize
    resourceId := resource.id }

/-- `ResourceService.getChunkStream`. -/
def getChunkStream (within : Confinement) (resourceId rawIndex userSessionId : String) (now : ℕ)
    (db : Database) (storage : Storage) : Database × Except ServiceError ChunkStreamResult :=
  match ResourceRepository.findById resourceId db with
  | none => (db, .error (.http ⟨404, "Resource not found."⟩))
  | some resource =>
    if resource.status ≠ .ready then (db, .error (.http ⟨404, "Resource not found."⟩))
    else if userSessionId ≠ resource.sessionId then
      (db, .error (.http ⟨403, "Cannot access resource belonging to another class session."⟩))
    else
      match checkSession resource.sessionId now db with
      | (db, some error) => (db, .error (.http error))
      | (db, none) => (db, serveChunk within resource rawIndex db storage)

/-! ### The promise -/

namespace Upload

variable {digest : Bytes → Bytes}

/-- The file and the rows of an upload are there, and its session is active and has not expired. -/
structure Available (upload : Upload digest) (within : Confinement) (db : Database)
    (storage : Storage) (now : ℕ) : Prop where
  row : ResourceRepository.findById upload.resourceId db =
    ResourceRepository.findById upload.resourceId upload.stored
  chunks : (db.chunkManifests.entries.filter fun entry ↦ entry.1.1 = upload.resourceId) =
    upload.stored.chunkManifests.entries.filter fun entry ↦ entry.1.1 = upload.resourceId
  file : storage.get? upload.finalFilePath = some upload.file
  inside : within upload.finalFilePath = true
  session : ∃ session, SessionRepository.findById upload.sessionId db = some session ∧
    session.isActive = true ∧ ¬ session.expiresAt < now

/-- A manifest and the chunks that are served, under the token of a member of the session, describe
the slices of the file. -/
structure OriginAgrees (upload : Upload digest) (within : Confinement) (db : Database)
    (storage : Storage) (now : ℕ) (manifest : ResourceManifest) : Prop where
  total : manifest.totalChunks = calculateTotalChunks upload.file.length CHUNK_SIZE_BYTES
  chunk : ∀ index, manifest.chunks[index]? =
    if index < manifest.totalChunks then
      some ⟨index, min CHUNK_SIZE_BYTES (upload.file.length - index * CHUNK_SIZE_BYTES),
        hexText (digest (slice CHUNK_SIZE_BYTES upload.file index))⟩
    else none
  served : ∀ rawIndex index, Denotes rawIndex index → index < manifest.totalChunks →
    ∃ result, (getChunkStream within upload.resourceId rawIndex upload.sessionId now db storage).2 =
        .ok result ∧ result.chunkIndex = index ∧
      result.stream = slice CHUNK_SIZE_BYTES upload.file index ∧
      result.stream.length = result.length ∧ hexText (digest result.stream) = result.chunkHash ∧
      (manifest.chunks[index]?).map ChunkManifestEntry.sha256 = some result.chunkHash
  refused : ∀ rawIndex, (∀ index, Denotes rawIndex index → manifest.totalChunks ≤ index) →
    ∃ message, (getChunkStream within upload.resourceId rawIndex upload.sessionId now db
        storage).2 = .error (.http ⟨if isNumeral (trim rawIndex) = true ∧
          parseInt (trim rawIndex) ≤ MAX_SAFE_INTEGER then 404 else 400, message⟩)
  whole : ∀ (rawIndices : ℕ → String) (results : ℕ → ChunkStreamResult),
    (∀ index < manifest.totalChunks, Denotes (rawIndices index) index ∧
      (getChunkStream within upload.resourceId (rawIndices index) upload.sessionId now db
        storage).2 = .ok (results index)) →
      ((List.range manifest.totalChunks).flatMap fun index ↦ (results index).stream) = upload.file

end Upload

/-! ### Indices -/

theorem calculateTotalChunks_eq (fileSize : ℕ) {chunkSize : ℕ} (hsize : 0 < chunkSize) :
    calculateTotalChunks fileSize chunkSize = sliceCount chunkSize fileSize := by
  unfold calculateTotalChunks sliceCount
  split_ifs with hempty
  · obtain rfl := Nat.le_zero.mp hempty
    rw [Nat.div_eq_of_lt (by omega)]
  · rfl

/-- The text of a number is a numeral. -/
theorem denotes_toString (index : ℕ) : Denotes (toString index) index := by
  have hdigits : (toString index).toList = Nat.toDigits 10 index := Nat.toList_repr
  have hdigit : ∀ char ∈ (toString index).toList, char.isDigit = true := by
    intro char hmem
    rw [hdigits] at hmem
    exact Nat.isDigit_of_mem_toDigits (by decide) (by decide) hmem
  have htrim : trim (toString index) = toString index :=
    trim_eq_self fun char hmem ↦ isTrimmed_of_isDigit (hdigit char hmem)
  rw [Denotes, htrim]
  constructor
  · rw [isNumeral, List.all_eq_true.mpr hdigit, hdigits, Bool.and_true, Bool.not_eq_true',
      List.isEmpty_eq_false_iff]
    exact Nat.toDigits_ne_nil
  · rw [parseInt, hdigits]
    exact Nat.ofDigitChars_toDigits (by decide) (by decide)

theorem validateChunkIndex_ok {rawIndex : String} {index totalChunks : ℕ}
    (hdenotes : Denotes rawIndex index) (hindex : index < totalChunks)
    (hsafe : index ≤ MAX_SAFE_INTEGER) : validateChunkIndex rawIndex totalChunks = .ok index := by
  obtain ⟨hnumeral, rfl⟩ := hdenotes
  unfold validateChunkIndex
  simp only
  rw [if_neg (by simp [hnumeral]), if_neg (by omega), if_neg (by omega)]

theorem validateChunkIndex_error {rawIndex : String} {totalChunks : ℕ}
    (hnone : ∀ index, Denotes rawIndex index → totalChunks ≤ index) :
    ∃ message, validateChunkIndex rawIndex totalChunks =
      .error ⟨if isNumeral (trim rawIndex) = true ∧ parseInt (trim rawIndex) ≤ MAX_SAFE_INTEGER then
        404 else 400, message⟩ := by
  unfold validateChunkIndex
  simp only
  by_cases hnumeral : isNumeral (trim rawIndex) = true
  · have hrange := hnone _ ⟨hnumeral, rfl⟩
    rw [if_neg (by simp [hnumeral])]
    by_cases hsafe : MAX_SAFE_INTEGER < parseInt (trim rawIndex)
    · rw [if_pos hsafe, if_neg (by omega)]
      exact ⟨_, rfl⟩
    · rw [if_neg hsafe, if_pos (Or.inr hrange), if_pos ⟨hnumeral, by omega⟩]
      exact ⟨_, rfl⟩
  · rw [if_pos (by simpa using hnumeral), if_neg fun h ↦ hnumeral (And.left h)]
    exact ⟨_, rfl⟩

/-! ### Rows -/

/-- The chunks of a resource are listed with the hashes that are found for them. -/
theorem ResourceRepository.mem_getChunks {resourceId : String} {index : ℕ} {hash : String}
    {db : Database} : ⟨index, 0, hash⟩ ∈ getChunks resourceId db ↔
      getChunk resourceId index db = some hash := by
  rw [getChunks, List.mem_insertionSort, getChunk, ← OrderedMap.mem_entries_iff, List.mem_map]
  constructor
  · rintro ⟨⟨⟨id, other⟩, found⟩, hmem, heq⟩
    obtain ⟨hentry, hid⟩ := List.mem_filter.mp hmem
    obtain ⟨rfl, _, rfl⟩ := ChunkManifestEntry.mk.inj heq
    obtain rfl : id = resourceId := of_decide_eq_true hid
    exact hentry
  · intro hentry
    exact ⟨((resourceId, index), hash), List.mem_filter.mpr ⟨hentry, decide_eq_true rfl⟩, rfl⟩

namespace Upload

variable {digest : Bytes → Bytes} {upload : Upload digest} {within : Confinement} {db : Database}
  {storage : Storage} {now : ℕ} {manifest : ResourceManifest}

/-- The row of the upload. -/
def resourceRow (upload : Upload digest) : ResourceRow :=
  ResourceRepository.rowOf
    (uploadParams upload.resourceId upload.sessionId upload.safeFileName upload.finalFilePath
      (slicedManifest digest CHUNK_SIZE_BYTES upload.file)) upload.createdAt

theorem Available.findById (havailable : upload.Available within db storage now) :
    ResourceRepository.findById upload.resourceId db = some upload.resourceRow :=
  havailable.row.trans upload.stored_rows.1

theorem Available.getChunks (havailable : upload.Available within db storage now) :
    ResourceRepository.getChunks upload.resourceId db =
      ResourceRepository.getChunks upload.resourceId upload.stored := by
  rw [ResourceRepository.getChunks, ResourceRepository.getChunks, havailable.chunks]

theorem Available.checkSession (havailable : upload.Available within db storage now) :
    checkSession upload.sessionId now db = (db, none) := by
  obtain ⟨session, hsession, hactive, hvalid⟩ := havailable.session
  unfold Server.checkSession
  rw [hsession]
  simp only
  rw [if_neg (by simp [hactive]), if_neg hvalid]

/-- The manifest is served. -/
theorem Available.getManifest (havailable : upload.Available within db storage now) :
    ∃ manifest, (getManifest upload.resourceId upload.sessionId now db).2 = .ok manifest ∧
      upload.Serves manifest := by
  have hok : (Server.getManifest upload.resourceId upload.sessionId now db).2 =
      .ok (manifestOf upload.resourceRow
        (ResourceRepository.getChunks upload.resourceRow.id db)) := by
    unfold Server.getManifest
    rw [havailable.findById]
    simp only
    rw [if_neg fun h ↦ h rfl, if_neg fun h ↦ h rfl]
    have hcheck : Server.checkSession upload.resourceRow.sessionId now db = (db, none) :=
      havailable.checkSession
    rw [hcheck]
  exact ⟨_, hok, db, upload.sessionId, now, havailable.row, havailable.getChunks, hok⟩

/-- The hash that is found for a chunk is that of its slice. -/
theorem Available.getChunk (havailable : upload.Available within db storage now) {index : ℕ}
    (hindex : index < sliceCount CHUNK_SIZE_BYTES upload.file.length) :
    ResourceRepository.getChunk upload.resourceId index db =
      some (hexText (digest (slice CHUNK_SIZE_BYTES upload.file index))) := by
  rw [← ResourceRepository.mem_getChunks, havailable.getChunks, upload.stored_rows.2]
  exact List.mem_map.mpr ⟨index, List.mem_range.mpr hindex, rfl⟩

/-- A request for a chunk gets as far as the check of the index. -/
theorem Available.getChunkStream (havailable : upload.Available within db storage now)
    (rawIndex : String) :
    (getChunkStream within upload.resourceId rawIndex upload.sessionId now db storage).2 =
      serveChunk within upload.resourceRow rawIndex db storage := by
  unfold Server.getChunkStream
  rw [havailable.findById]
  simp only
  rw [if_neg fun h ↦ h rfl, if_neg fun h ↦ h rfl]
  have hcheck : Server.checkSession upload.resourceRow.sessionId now db = (db, none) :=
    havailable.checkSession
  rw [hcheck]

/-- What is served of a chunk. -/
def chunkResult (upload : Upload digest) (index : ℕ) : ChunkStreamResult :=
  let bounds := calculateChunkBounds index upload.file.length CHUNK_SIZE_BYTES
  { stream := slice CHUNK_SIZE_BYTES upload.file index
    length := bounds.length
    start := bounds.start
    «end» := bounds.end
    chunkHash := hexText (digest (slice CHUNK_SIZE_BYTES upload.file index))
    chunkIndex := index
    totalChunks := sliceCount CHUNK_SIZE_BYTES upload.file.length
    fileName := upload.safeFileName
    fileSize := upload.file.length
    resourceId := upload.resourceId }

/-- A chunk is read at its bounds. -/
theorem Available.serveChunk (havailable : upload.Available within db storage now)
    (hdigest : ∀ bytes, (digest bytes).length = 32)
    (hsafe : upload.file.length < 2 ^ 53) {rawIndex : String} {index : ℕ}
    (hdenotes : Denotes rawIndex index)
    (hindex : index < sliceCount CHUNK_SIZE_BYTES upload.file.length) :
    serveChunk within upload.resourceRow rawIndex db storage = .ok (upload.chunkResult index) := by
  have hstart := mul_lt_length_of_lt_sliceCount (by decide) hindex
  have hbound : index ≤ MAX_SAFE_INTEGER := by
    have hle : index ≤ index * CHUNK_SIZE_BYTES := Nat.le_mul_of_pos_right index (by decide)
    unfold MAX_SAFE_INTEGER
    omega
  have hvalid : validateChunkIndex rawIndex upload.resourceRow.totalChunks = .ok index :=
    validateChunkIndex_ok hdenotes hindex hbound
  have hhash : ResourceRepository.getChunk upload.resourceRow.id index db =
      some (hexText (digest (slice CHUNK_SIZE_BYTES upload.file index))) :=
    havailable.getChunk hindex
  have hnonempty : hexText (digest (slice CHUNK_SIZE_BYTES upload.file index)) ≠ "" := by
    intro hempty
    have hnil := hexText_injective (hempty.trans (by decide : "" = hexText []))
    have hlength := hdigest (slice CHUNK_SIZE_BYTES upload.file index)
    rw [hnil] at hlength
    exact absurd hlength (by decide)
  have hinside : within upload.resourceRow.storagePath = true := havailable.inside
  have hfile : storage.get? upload.resourceRow.storagePath = some upload.file := havailable.file
  have hexists : LocalDiskStorageProvider.exists within upload.resourceRow.storagePath storage =
      .ok true := by
    unfold LocalDiskStorageProvider.exists assertPathWithinStorage
    rw [hinside, OrderedMap.has, hfile]
    rfl
  have hstream : (LocalDiskStorageProvider.createReadStream within upload.resourceRow.storagePath
      (calculateChunkBounds index upload.file.length CHUNK_SIZE_BYTES).start
      (calculateChunkBounds index upload.file.length CHUNK_SIZE_BYTES).streamEnd storage) =
        .ok (slice CHUNK_SIZE_BYTES upload.file index) := by
    unfold LocalDiskStorageProvider.createReadStream assertPathWithinStorage
    rw [hinside, hfile]
    exact congrArg Except.ok (readRange_slice (by decide) hstart)
  have hbounds : calculateChunkBounds index upload.resourceRow.fileSize
      upload.resourceRow.chunkSize =
        calculateChunkBounds index upload.file.length CHUNK_SIZE_BYTES := rfl
  unfold Server.serveChunk
  simp only [hvalid, Except.mapError, bind, Except.bind, hbounds, hhash, Option.getD_some,
    if_neg hnonempty, hexists, Bool.true_eq_false, if_false, hstream]
  rfl

/-- A text that denotes no chunk is refused. -/
theorem serveChunk_refused {rawIndex : String}
    (hnone : ∀ index, Denotes rawIndex index →
      sliceCount CHUNK_SIZE_BYTES upload.file.length ≤ index) :
    ∃ message, Server.serveChunk within upload.resourceRow rawIndex db storage =
      .error (.http ⟨if isNumeral (trim rawIndex) = true ∧
        parseInt (trim rawIndex) ≤ MAX_SAFE_INTEGER then 404 else 400, message⟩) := by
  obtain ⟨message, hmessage⟩ := validateChunkIndex_error hnone
  have hrefused : validateChunkIndex rawIndex upload.resourceRow.totalChunks =
      .error ⟨if isNumeral (trim rawIndex) = true ∧ parseInt (trim rawIndex) ≤ MAX_SAFE_INTEGER then
        404 else 400, message⟩ := hmessage
  refine ⟨message, ?_⟩
  unfold Server.serveChunk
  simp only [hrefused, Except.mapError, bind, Except.bind]

end Upload

/-- **The origin and the manifest agree.** Members of the session of a stored file get a manifest of
its slices, and by the numeral of a chunk exactly that slice; one after the other the chunks are the
file. -/
theorem origin_agrees {digest : Bytes → Bytes} (hdigest : ∀ bytes, (digest bytes).length = 32)
    (upload : Upload digest)
    (hsafe : upload.file.length < 2 ^ 53) {within : Confinement} {db : Database} {storage : Storage}
    {now : ℕ} (havailable : upload.Available within db storage now) :
    ∃ manifest, (getManifest upload.resourceId upload.sessionId now db).2 = .ok manifest ∧
      upload.OriginAgrees within db storage now manifest := by
  obtain ⟨manifest, hok, hserves⟩ := havailable.getManifest
  obtain ⟨_, htotal, _, hchunks, _⟩ := hserves.spec
  have hchunk : ∀ index, manifest.chunks[index]? =
      if index < manifest.totalChunks then
        some ⟨index, min CHUNK_SIZE_BYTES (upload.file.length - index * CHUNK_SIZE_BYTES),
          hexText (digest (slice CHUNK_SIZE_BYTES upload.file index))⟩
      else none := by
    intro index
    rw [hchunks, htotal, List.getElem?_map]
    split_ifs with hindex
    · rw [List.getElem?_range hindex, Option.map_some, sliceEntry, length_slice]
    · rw [List.getElem?_eq_none (by simpa using hindex), Option.map_none]
  have hserved : ∀ rawIndex index, Denotes rawIndex index → index < manifest.totalChunks →
      (getChunkStream within upload.resourceId rawIndex upload.sessionId now db storage).2 =
        .ok (upload.chunkResult index) := by
    intro rawIndex index hdenotes hindex
    rw [havailable.getChunkStream]
    exact havailable.serveChunk hdigest hsafe hdenotes (htotal ▸ hindex)
  refine ⟨manifest, hok, ?_, hchunk, fun rawIndex index hdenotes hindex ↦ ?_,
    fun rawIndex hnone ↦ ?_, fun rawIndices results hresults ↦ ?_⟩
  · rw [htotal, calculateTotalChunks_eq _ (by decide)]
  · refine ⟨_, hserved rawIndex index hdenotes hindex, rfl, rfl,
      (calculateChunkBounds_length index upload.file _).symm, rfl, ?_⟩
    rw [hchunk, if_pos hindex]
    rfl
  · rw [havailable.getChunkStream]
    exact Upload.serveChunk_refused fun index hdenotes ↦ htotal ▸ hnone index hdenotes
  · rw [← flatMap_slice (by decide : 0 < CHUNK_SIZE_BYTES) upload.file, htotal]
    refine List.flatMap_congr fun index hindex ↦ ?_
    rw [List.mem_range] at hindex
    obtain ⟨hdenotes, hresult⟩ := hresults index (htotal ▸ hindex)
    rw [hserved _ _ hdenotes (htotal ▸ hindex)] at hresult
    rw [← Except.ok.inj hresult]
    rfl

/-- A file of a whole chunk and two bytes more. -/
def sampleFile : Bytes := List.replicate CHUNK_SIZE_BYTES 7 ++ [8, 9]

/-- The sample file as it is read: the buffers end elsewhere than the chunks. -/
def sampleBuffers : List Bytes := [List.replicate CHUNK_SIZE_BYTES 7 ++ [8], [9]]

theorem flatten_sampleBuffers : sampleBuffers.flatten = sampleFile := by
  rw [sampleBuffers, sampleFile, List.flatten_cons, List.flatten_singleton, List.append_assoc]
  rfl

/-- A digest of the length of SHA-256, which it is on the sample file and on its two chunks. -/
def sampleDigest (bytes : Bytes) : Bytes :=
  if bytes.length = CHUNK_SIZE_BYTES + 2 then
    [229, 172, 89, 171, 144, 95, 239, 145, 145, 146, 110, 117, 252, 28, 209, 222, 70, 152, 10, 235,
      236, 68, 145, 62, 29, 115, 242, 122, 96, 32, 129, 101]
  else if bytes.length = CHUNK_SIZE_BYTES then
    [54, 55, 187, 185, 126, 152, 208, 9, 242, 190, 77, 13, 74, 80, 231, 52, 49, 214, 176, 123, 62,
      222, 57, 130, 158, 9, 187, 245, 102, 169, 114, 160]
  else if bytes.length = 2 then
    [115, 144, 117, 137, 16, 26, 126, 138, 184, 49, 120, 231, 219, 41, 151, 170, 183, 39, 44, 208,
      45, 54, 78, 142, 62, 204, 43, 236, 205, 164, 182, 49]
  else List.replicate 32 0

/-- What is found in the sample file: a whole chunk and a partial one. -/
def sampleManifest : GeneratedManifestResult where
  fileSize := CHUNK_SIZE_BYTES + 2
  totalChunks := 2
  fileHash := hexText (sampleDigest sampleFile)
  chunks := [sliceEntry sampleDigest CHUNK_SIZE_BYTES sampleFile 0,
    sliceEntry sampleDigest CHUNK_SIZE_BYTES sampleFile 1]

theorem slicedManifest_sampleFile :
    slicedManifest sampleDigest CHUNK_SIZE_BYTES sampleFile = sampleManifest := by
  have hlength : sampleFile.length = CHUNK_SIZE_BYTES + 2 := by
    rw [sampleFile, List.length_append, List.length_replicate]
    rfl
  have hcount : sliceCount CHUNK_SIZE_BYTES (CHUNK_SIZE_BYTES + 2) = 2 := by decide
  rw [slicedManifest, hlength, hcount]
  rfl

/-- The transaction that stores the sample file. -/
def sampleCommit : Except JsError (Database × Option ResourceRow) :=
  ResourceRepository.createWithManifest
    (uploadParams "res_1" "session" "notes.bin" "res_1.bin" sampleManifest) sampleManifest.chunks ""
    classroom

/-- The sample file, stored for a class. -/
def sampleUpload : Upload sampleDigest where
  buffers := sampleBuffers
  manifestResult := sampleManifest
  resourceId := "res_1"
  sessionId := "session"
  safeFileName := "notes.bin"
  finalFilePath := "res_1.bin"
  createdAt := ""
  before := classroom
  stored := (sampleCommit.toOption.map Prod.fst).getD classroom
  row := sampleCommit.toOption.bind Prod.snd
  generated := by
    rw [generate_eq (by decide), flatten_sampleBuffers, slicedManifest_sampleFile]
  committed := by rfl

theorem file_sampleUpload : sampleUpload.file = sampleFile := flatten_sampleBuffers

/-- The storage with the file. -/
def sampleStorage : Storage := OrderedMap.empty.set "res_1.bin" sampleFile

theorem origin_agrees_sampleUpload :
    ∃ manifest, (getManifest "res_1" "session" 0 sampleUpload.stored).2 = .ok manifest ∧
      sampleUpload.OriginAgrees (fun _ ↦ true) sampleUpload.stored sampleStorage 0 manifest := by
  have hlength : sampleUpload.file.length < 2 ^ 53 := by
    rw [file_sampleUpload, sampleFile, List.length_append, List.length_replicate]
    decide
  refine origin_agrees (fun bytes ↦ ?_) sampleUpload hlength
    ⟨rfl, rfl, ?_, rfl, _, rfl, rfl, by decide⟩
  · unfold sampleDigest
    split_ifs
    · rfl
    · rfl
    · rfl
    · rfl
  · rw [file_sampleUpload]
    rfl

end CampusMesh.Server
