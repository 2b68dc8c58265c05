import CampusMesh.Library.Shelf
import CampusMesh.Server.Gateway
import CampusMesh.Server.HeldBytes

/-!
# Published files

To those who ask for manifests and chunks, the server is a shelf of files: an upload puts one there,
whole, when its transaction commits, and a deletion takes it away. In between uploads take many
steps, files are moved and copied, processes end at any moment, and nothing of it shows
(`published_catalogStep`). What is replied of a file is read off the shelf, and the bytes that lie
there are those that were received in one upload of an instructor (`origin_atomic`).
-/

set_option autoImplicit false
set_option relaxedAutoImplicit false

namespace CampusMesh.Server

open Library Shared

variable {ν : Type}

/-! ### The shelf -/

/-- A file that is served, with its row. -/
structure PublishedFile where
  row : ResourceRow
  content : Bytes

/-- The files that are served, by the ids of their resources. -/
def CatalogState.published (state : CatalogState ν) (id : String) : Option PublishedFile :=
  (ResourceRepository.findById id state.db).bind fun row ↦
    if row.status = .ready then (state.storage.get? row.storagePath).map (PublishedFile.mk row)
    else none

/-- The row under which an upload publishes its bytes. -/
def publishedRow (setting : ServerSetting ν) (id sessionId safeFileName createdAt : String)
    (content : Bytes) : ResourceRow :=
  ResourceRepository.rowOf
    (uploadParams id sessionId safeFileName (finalFilePath setting.config id)
      (slicedManifest setting.digest CHUNK_SIZE_BYTES content)) createdAt

/-- An upload is about to publish a file under an id. -/
def CatalogState.Plans (state : CatalogState ν) (id : String) : Prop :=
  ∃ call job plan, state.server.uploads.get? call = some job ∧ job.stage.plan? = some plan ∧
    plan.resourceId = id

/-- An upload publishes the bytes that it holds. -/
def PublishesHeld (setting : ServerSetting ν) (state : CatalogState ν) (event : CatalogEvent ν)
    (id : String) (file : PublishedFile) : Prop :=
  ∃ call createdAt fault job plan,
    event = .server (.upload call (.persisted createdAt fault)) ∧
      state.server.uploads.get? call = some job ∧ job.stage = .persisting plan ∧
      plan.resourceId = id ∧ job.sessionId = file.row.sessionId ∧
      job.holds state.storage = some file.content ∧
      file.row = publishedRow setting id file.row.sessionId job.safeFileName createdAt file.content

/-- The instructor of its session deletes a file. -/
def Withdraws (event : CatalogEvent ν) (id : String) (file : PublishedFile) : Prop :=
  ∃ call, event = .deleteResource call id .instructor file.row.sessionId

section Steps

variable {setting : ServerSetting ν} {state next : CatalogState ν} {input : CatalogInput ν}
  {id : String} {file : PublishedFile}

theorem published_eq_some_iff :
    state.published id = some file ↔ state.db.resources.get? id = some file.row ∧
      file.row.status = .ready ∧ state.storage.get? file.row.storagePath = some file.content := by
  unfold CatalogState.published ResourceRepository.findById
  cases hrow : state.db.resources.get? id with
  | none => simp
  | some row =>
    rw [Option.bind_some, Option.some.injEq]
    constructor
    · intro hpublished
      split_ifs at hpublished with hready
      obtain ⟨content, hcontent, rfl⟩ := Option.map_eq_some_iff.mp hpublished
      exact ⟨rfl, hready, hcontent⟩
    · rintro ⟨rfl, hready, hcontent⟩
      rw [if_pos hready, hcontent]
      rfl

/-- What keeps the rows and the files of resources keeps the shelf. -/
theorem published_congr (hrows : next.db.resources = state.db.resources)
    (hfiles : ∀ id row, state.db.resources.get? id = some row →
      next.storage.get? row.storagePath = state.storage.get? row.storagePath) :
    next.published = state.published := by
  funext id
  unfold CatalogState.published ResourceRepository.findById
  rw [hrows]
  cases hrow : state.db.resources.get? id with
  | none => rfl
  | some row => rw [Option.bind_some, Option.bind_some, hfiles id row hrow]

/-- A row that goes takes its file off the shelf. -/
theorem published_deleteRow {puts : String → PublishedFile → Prop} {event : CatalogEvent ν}
    {call : ℕ} {row : ResourceRow} {deletions : OrderedMap ℕ PendingDeletion}
    (hrow : ResourceRepository.findById id state.db = some row)
    (hevent : event = .deleteResource call id .instructor row.sessionId) :
    ShelfMove puts (Withdraws event) state.published (CatalogState.published
      ⟨state.server.setDb (ResourceRepository.delete id state.db).1, deletions⟩) := by
  have hnext : CatalogState.published
      ⟨state.server.setDb (ResourceRepository.delete id state.db).1, deletions⟩ =
        Function.update state.published id none := by
    ext other
    unfold CatalogState.published ResourceRepository.findById
    change ((state.db.resources.delete id).get? other).bind _ = _ ↔ _
    rw [OrderedMap.get?_delete]
    by_cases hother : other = id
    · rw [if_pos hother, hother, Function.update_self]
      rfl
    · rw [if_neg hother, Function.update_of_ne hother]
      rfl
  rw [hnext]
  cases hthere : state.published id with
  | none =>
    rw [← hthere, Function.update_eq_self]
    exact .kept
  | some file =>
    obtain ⟨hsame, -⟩ := published_eq_some_iff.mp hthere
    obtain rfl : row = file.row := Option.some.inj (hrow.symm.trans hsame)
    exact .taken id file ⟨call, hevent⟩ hthere

/-- The file that a deletion unlinks is not on the shelf. -/
theorem published_continueDeletion (hsound : CatalogSound setting state) (deletion : ℕ)
    (fault : Option JsError) :
    (continueDeletion setting deletion fault state).published = state.published := by
  refine published_congr ?_ fun id row hrow ↦ storage_continueDeletion fun pending hpending heq ↦ ?_
  · unfold continueDeletion
    split
    · rfl
    · rfl
  · obtain ⟨hown, hgone, -⟩ := hsound.deletions deletion pending hpending
    rw [(hsound.rows id row hrow).1, hown] at heq
    rw [← finalFilePath_inj _ heq, OrderedMap.has, hrow] at hgone
    cases hgone

/-- An upload that goes on leaves the shelf alone, or publishes what it holds. -/
theorem published_continueUpload (hsound : CatalogSound setting state) {call : ℕ} {job : UploadJob}
    {event : UploadEvent} (hjob : state.server.uploads.get? call = some job) :
    ShelfMove (PublishesHeld setting state (.server (.upload call event)))
      (Withdraws (.server (.upload call event) : CatalogEvent ν)) state.published
      (CatalogState.published
        { state with server := continueUpload setting call job event state.server }) := by
  have hmove := uploadStep_move setting.config setting.digest ⟨state.db, state.storage, job⟩ event
  set next := uploadStep setting.config setting.digest ⟨state.db, state.storage, job⟩ event
  have hfiles : ∀ id row, state.db.resources.get? id = some row →
      next.storage.get? row.storagePath = state.storage.get? row.storagePath := by
    intro id row hrow
    rw [(hsound.rows id row hrow).1]
    refine hsound.file_afterUpload hjob hmove fun plan hplan heq ↦ ?_
    have hnew := (hsound.jobs call job hjob plan hplan).2.1
    rw [heq, OrderedMap.has, hrow] at hnew
    cases hnew
  rcases hmove.tables with
    hsame | ⟨plan, createdAt, fault, result, rfl, hstage, hcommitted, hstorage, -⟩
  · have hnext : CatalogState.published
        { state with server := continueUpload setting call job event state.server } =
          state.published :=
      published_congr (congrArg Database.resources hsame) hfiles
    rw [hnext]
    exact .kept
  have hstage : job.stage = .persisting plan := hstage
  obtain ⟨hpath, hnew, content, hmanifest, hcontent⟩ :=
    hsound.jobs call job hjob plan (by rw [hstage]; rfl)
  simp only [UploadJob.contentPath, hstage] at hcontent
  set row := publishedRow setting plan.resourceId job.sessionId job.safeFileName createdAt content
  have hresources : next.db.resources = state.db.resources.set plan.resourceId row := by
    obtain ⟨-, -, hset, -⟩ := ResourceRepository.createWithManifest_tables hcommitted
    rw [hmanifest, hpath] at hset
    exact hset
  have hnext : CatalogState.published
      { state with
        server := continueUpload setting call job (.persisted createdAt fault) state.server } =
          Function.update state.published plan.resourceId (some ⟨row, content⟩) := by
    funext other
    change (next.db.resources.get? other).bind (fun found ↦ if found.status = .ready then
      (next.storage.get? found.storagePath).map (PublishedFile.mk found) else none) = _
    rw [hresources, OrderedMap.get?_set]
    by_cases hother : other = plan.resourceId
    · have hready : row.status = .ready := rfl
      have hfile : next.storage.get? row.storagePath = some content := by
        rw [hstorage]
        exact (congrArg (fun path ↦ state.storage.get? path) hpath.symm).trans hcontent
      rw [if_pos hother, hother, Function.update_self, Option.bind_some, if_pos hready, hfile]
      rfl
    · rw [if_neg hother, Function.update_of_ne hother, hstorage]
      rfl
  have hholds : job.holds state.storage = some content := by
    rw [UploadJob.holds, hstage]
    exact hcontent
  have hputs : PublishesHeld setting state (.server (.upload call (.persisted createdAt fault)))
      plan.resourceId ⟨row, content⟩ :=
    ⟨call, createdAt, fault, job, plan, rfl, hjob, hstage, rfl, rfl, hholds, rfl⟩
  rw [hnext]
  refine .put plan.resourceId (⟨row, content⟩ : PublishedFile) hputs ?_
  · rw [CatalogState.published, ResourceRepository.findById, OrderedMap.has_eq_false_iff.mp hnew]
    rfl

/-- **A step.** The shelf is left alone, or an upload publishes what it holds, or a file is
withdrawn by the instructor of its session. -/
theorem published_catalogStep (hsound : CatalogSound setting state) :
    ShelfMove (PublishesHeld setting state input.2) (Withdraws input.2) state.published
      (catalogStep setting state input).published := by
  obtain ⟨now, event⟩ := input
  have hkept : ∀ {reached : CatalogState ν}, reached.published = state.published →
      ShelfMove (PublishesHeld setting state event) (Withdraws event) state.published
        reached.published := fun hsame ↦ hsame ▸ .kept
  cases event with
  | restart => exact hkept rfl
  | deleteResource call resourceId userRole userSessionId =>
    simp only [catalogStep, requestDeletion]
    split_ifs
    · exact hkept rfl
    · exact hkept rfl
    · unfold deleteResource
      split_ifs with hrole
      · exact hkept rfl
      · cases hrow : ResourceRepository.findById resourceId state.db with
        | none => exact hkept rfl
        | some row =>
          simp only
          split_ifs with hsession
          · exact hkept rfl
          · exact published_deleteRow hrow (by rw [not_not.mp hrole, not_not.mp hsession])
  | unlinked call fault =>
    simp only [catalogStep]
    split_ifs
    · exact hkept rfl
    · exact hkept (published_continueDeletion hsound call fault)
  | server event =>
    simp only [catalogStep, serverStep]
    split_ifs
    · exact hkept rfl
    by_cases hupload : ∃ call uploadEvent, event = .upload call uploadEvent
    · obtain ⟨call, uploadEvent, rfl⟩ := hupload
      simp only [handleServerEvent]
      cases hjob : state.server.uploads.get? call with
      | none => exact hkept rfl
      | some job => exact published_continueUpload hsound hjob
    have hrows : (handleServerEvent setting now state.server event).hub.db.resources =
        state.db.resources :=
      (handleServerEvent_sameRows fun call uploadEvent heq ↦
        hupload ⟨call, uploadEvent, heq⟩).resources
    have hstorage : (handleServerEvent setting now state.server event).storage =
        state.storage := by
      by_cases hbegun : ∃ call request randomUUID, event = .processUpload call request randomUUID
      · obtain ⟨call, request, randomUUID, rfl⟩ := hbegun
        simp only [handleServerEvent]
        split_ifs
        · rfl
        · rfl
      · exact (handleServerEvent_kept
          (fun call request randomUUID heq ↦ hbegun ⟨call, request, randomUUID, heq⟩)
          fun call uploadEvent heq ↦ hupload ⟨call, uploadEvent, heq⟩).2.1
    exact hkept (published_congr hrows fun id row _ ↦
      congrArg (fun storage ↦ storage.get? row.storagePath) hstorage)

end Steps

/-! ### What is replied of a file -/

namespace PublishedFile

variable (digest : Bytes → Bytes) (file : PublishedFile)

/-- A chunk of the file. -/
def chunk (index : ℕ) : Bytes := slice file.row.chunkSize file.content index

/-- The chunks of the file with their hashes, as they are stored. -/
def storedChunks : List ChunkManifestEntry :=
  (List.range file.row.totalChunks).map fun index ↦ ⟨index, 0, hexText (digest (file.chunk index))⟩

/-- The manifest of the file. -/
def manifest : ResourceManifest := manifestOf file.row (file.storedChunks digest)

end PublishedFile

theorem mapError_eq_ok_iff {ε δ α : Type} {wrap : ε → δ} {outcome : Except ε α} {value : α} :
    outcome.mapError wrap = .ok value ↔ outcome = .ok value := by
  cases outcome <;> simp [Except.mapError]

/-- An index that is accepted denotes a chunk. -/
theorem denotes_of_validateChunkIndex {rawIndex : String} {totalChunks index : ℕ}
    (hok : validateChunkIndex rawIndex totalChunks = .ok index) :
    Denotes rawIndex index ∧ index < totalChunks := by
  unfold validateChunkIndex at hok
  simp only at hok
  split_ifs at hok with hnumeral hsafe hrange
  rw [not_or, not_le, not_le] at hrange
  rw [Bool.not_eq_false] at hnumeral
  obtain rfl := Except.ok.inj hok
  exact ⟨⟨hnumeral, rfl⟩, hrange.2⟩

/-- A chunk that is served is read at its bounds. -/
theorem serveChunk_ok {within : Confinement} {resource : ResourceRow} {rawIndex : String}
    {db : Database} {storage : Storage} {result : ChunkStreamResult}
    (hok : serveChunk within resource rawIndex db storage = .ok result) :
    ∃ index content, Denotes rawIndex index ∧ index < resource.totalChunks ∧
      storage.get? resource.storagePath = some content ∧
      ResourceRepository.getChunk resource.id index db = some result.chunkHash ∧
      result.stream = readRange
        (calculateChunkBounds index resource.fileSize resource.chunkSize).start
        (calculateChunkBounds index resource.fileSize resource.chunkSize).streamEnd content := by
  unfold serveChunk at hok
  obtain ⟨index, hindex, hok⟩ := bind_eq_ok_iff.mp hok
  obtain ⟨hdenotes, hrange⟩ := denotes_of_validateChunkIndex (mapError_eq_ok_iff.mp hindex)
  simp only at hok
  split_ifs at hok with hempty
  · cases hok
  obtain ⟨fileExists, -, hok⟩ := bind_eq_ok_iff.mp hok
  split_ifs at hok
  · cases hok
  obtain ⟨stream, hstream, hok⟩ := bind_eq_ok_iff.mp hok
  have hread := mapError_eq_ok_iff.mp hstream
  unfold LocalDiskStorageProvider.createReadStream at hread
  obtain ⟨-, -, hread⟩ := bind_eq_ok_iff.mp hread
  cases hfile : storage.get? resource.storagePath with
  | none =>
    rw [hfile] at hread
    cases hread
  | some content =>
    rw [hfile] at hread
    rw [← Except.ok.inj hok]
    refine ⟨index, content, hdenotes, hrange, rfl, ?_, (Except.ok.inj hread).symm⟩
    cases hhash : ResourceRepository.getChunk resource.id index db with
    | none =>
      rw [hhash] at hempty
      exact absurd rfl hempty
    | some hash => rfl

/-- The chunks of a resource are sorted by their indices. -/
theorem ResourceRepository.pairwise_getChunks (id : String) (db : Database) :
    (getChunks id db).Pairwise fun first second ↦ first.index ≤ second.index := by
  unfold getChunks
  exact List.pairwise_insertionSort _ _

/-- They have different indices. -/
theorem ResourceRepository.nodup_getChunks (id : String) (db : Database) :
    ((getChunks id db).map ChunkManifestEntry.index).Nodup := by
  unfold getChunks
  have hperm := List.perm_insertionSort
    (fun first second : ChunkManifestEntry ↦ first.index ≤ second.index)
    ((db.chunkManifests.entries.filter fun entry ↦ entry.1.1 = id).map
      fun entry ↦ ⟨entry.1.2, 0, entry.2⟩)
  refine (hperm.map ChunkManifestEntry.index).nodup_iff.mpr ?_
  rw [List.map_map]
  have hkeys : ((db.chunkManifests.entries.filter fun entry ↦ entry.1.1 = id).map Prod.fst).Nodup :=
    db.chunkManifests.nodup_keys.sublist (List.filter_sublist.map Prod.fst)
  have hindices := hkeys.map_on (f := Prod.snd) ?_
  · rw [List.map_map] at hindices
    exact hindices
  · intro first hfirst second hsecond hsame
    obtain ⟨entry, hentry, rfl⟩ := List.mem_map.mp hfirst
    obtain ⟨other, hother, rfl⟩ := List.mem_map.mp hsecond
    exact Prod.ext ((of_decide_eq_true (List.mem_filter.mp hentry).2).trans
      (of_decide_eq_true (List.mem_filter.mp hother).2).symm) hsame

/-- What is listed is what is found. -/
theorem ResourceRepository.mem_getChunks_iff {id : String} {db : Database}
    {chunk : ChunkManifestEntry} :
    chunk ∈ getChunks id db ↔ chunk.size = 0 ∧ getChunk id chunk.index db = some chunk.sha256 := by
  obtain ⟨index, size, hash⟩ := chunk
  constructor
  · intro hmem
    have hsize : size = 0 := by
      unfold getChunks at hmem
      rw [List.mem_insertionSort] at hmem
      obtain ⟨entry, -, heq⟩ := List.mem_map.mp hmem
      exact (congrArg ChunkManifestEntry.size heq).symm
    subst hsize
    exact ⟨rfl, mem_getChunks.mp hmem⟩
  · rintro ⟨rfl, hfound⟩
    exact mem_getChunks.mpr hfound

section Replies

variable {setting : ServerSetting ν} {state : CatalogState ν} {id userSessionId : String} {now : ℕ}

/-- A session that is there, active and not over, is left alone. -/
theorem checkSession_none {sessionId : String} {db next : Database}
    (hok : checkSession sessionId now db = (next, none)) : next = db := by
  unfold checkSession at hok
  split at hok
  · cases hok
  · split_ifs at hok
    · cases hok
    · cases hok
    · exact (Prod.mk.inj hok).1.symm

/-- A ready row is that of a published file. -/
theorem exists_published (hsound : CatalogSound setting state) {row : ResourceRow}
    (hrow : ResourceRepository.findById id state.db = some row) (hready : row.status = .ready) :
    ∃ content, state.published id = some ⟨row, content⟩ ∧ content.length = row.fileSize ∧
      row.totalChunks = sliceCount row.chunkSize content.length ∧
      ∀ index hash, ResourceRepository.getChunk row.id index state.db = some hash ↔
        index < row.totalChunks ∧
          hash = hexText (setting.digest (slice row.chunkSize content index)) := by
  obtain ⟨-, content, hcontent, hsize, htotal, hchunks⟩ := hsound.rows id row hrow
  exact ⟨content, published_eq_some_iff.mpr ⟨hrow, hready, hcontent⟩, hsize, htotal, hchunks⟩

/-- **A chunk that is served** is that of a published file. -/
theorem getChunkStream_published (hsound : CatalogSound setting state) {rawIndex : String}
    {within : Confinement} {result : ChunkStreamResult}
    (hok : (getChunkStream within id rawIndex userSessionId now state.db state.storage).2 =
      .ok result) :
    ∃ file index, state.published id = some file ∧ file.row.sessionId = userSessionId ∧
      Denotes rawIndex index ∧ index < file.row.totalChunks ∧ result.stream = file.chunk index ∧
        result.chunkHash = hexText (setting.digest result.stream) := by
  unfold getChunkStream at hok
  cases hrow : ResourceRepository.findById id state.db with
  | none => simp [hrow] at hok
  | some row =>
    simp only [hrow] at hok
    split_ifs at hok with hready hother
    split at hok
    · cases hok
    · next db hcheck =>
      obtain rfl := checkSession_none hcheck
      obtain ⟨index, content, hdenotes, hrange, hcontent, hhash, hstream⟩ := serveChunk_ok hok
      obtain ⟨found, hpublished, hsize, htotal, hchunks⟩ :=
        exists_published hsound hrow (not_not.mp hready)
      obtain rfl : found = content := Option.some.inj
        ((published_eq_some_iff.mp hpublished).2.2.symm.trans hcontent)
      have hslice : result.stream = slice row.chunkSize found index := by
        have hpositive : 0 < row.chunkSize := by
          by_contra hzero
          rw [htotal, Nat.eq_zero_of_not_pos hzero, sliceCount, Nat.div_zero] at hrange
          exact Nat.not_lt_zero _ hrange
        rw [hstream, ← hsize]
        exact readRange_slice hpositive (mul_lt_length_of_lt_sliceCount hpositive (htotal ▸ hrange))
      refine ⟨⟨row, found⟩, index, hpublished, (not_not.mp hother).symm, hdenotes, hrange, hslice,
        ?_⟩
      rw [hslice]
      exact ((hchunks index result.chunkHash).mp hhash).2

/-- The chunks of a published file are listed in order. -/
theorem getChunks_published {row : ResourceRow} {content : Bytes} {digest : Bytes → Bytes}
    {db : Database}
    (hchunks : ∀ index hash, ResourceRepository.getChunk row.id index db = some hash ↔
      index < row.totalChunks ∧ hash = hexText (digest (slice row.chunkSize content index))) :
    ResourceRepository.getChunks row.id db = PublishedFile.storedChunks digest ⟨row, content⟩ := by
  have hstrict : ∀ entries : List ChunkManifestEntry,
      entries.Pairwise (fun first second ↦ first.index ≤ second.index) →
        (entries.map ChunkManifestEntry.index).Nodup →
          entries.Pairwise fun first second ↦ first.index < second.index := by
    intro entries hsorted hnodup
    exact (hsorted.and (List.pairwise_map.mp hnodup)).imp fun hboth ↦
      lt_of_le_of_ne hboth.1 hboth.2
  have hleft := hstrict _ (ResourceRepository.pairwise_getChunks row.id db)
    (ResourceRepository.nodup_getChunks row.id db)
  have hright : (PublishedFile.storedChunks digest ⟨row, content⟩).Pairwise
      fun first second ↦ first.index < second.index :=
    List.pairwise_map.mpr List.pairwise_lt_range
  have hne : ∀ {entries : List ChunkManifestEntry},
      entries.Pairwise (fun first second ↦ first.index < second.index) → entries.Nodup :=
    fun hsorted ↦ hsorted.imp fun hlt heq ↦ absurd (congrArg ChunkManifestEntry.index heq) hlt.ne
  refine List.Perm.eq_of_pairwise (fun first second _ _ hlt hgt ↦ absurd hlt hgt.asymm) hleft hright
    ((List.perm_ext_iff_of_nodup (hne hleft) (hne hright)).mpr fun entry ↦ ?_)
  rw [ResourceRepository.mem_getChunks_iff, hchunks, PublishedFile.storedChunks, List.mem_map]
  constructor
  · rintro ⟨hsize, hrange, hhash⟩
    refine ⟨entry.index, List.mem_range.mpr hrange, ?_⟩
    rw [← hsize]
    exact congrArg (ChunkManifestEntry.mk entry.index entry.size) hhash.symm
  · rintro ⟨index, hrange, rfl⟩
    exact ⟨rfl, List.mem_range.mp hrange, rfl⟩

/-- **A manifest that is served** is that of a published file. -/
theorem getManifest_published (hsound : CatalogSound setting state) {manifest : ResourceManifest}
    (hok : (getManifest id userSessionId now state.db).2 = .ok manifest) :
    ∃ file, state.published id = some file ∧ file.row.sessionId = userSessionId ∧
      manifest = file.manifest setting.digest := by
  unfold getManifest at hok
  cases hrow : ResourceRepository.findById id state.db with
  | none => simp [hrow] at hok
  | some row =>
    simp only [hrow] at hok
    split_ifs at hok with hready hother
    split at hok
    · cases hok
    · next db hcheck =>
      obtain rfl := checkSession_none hcheck
      obtain ⟨content, hpublished, -, -, hchunks⟩ :=
        exists_published hsound hrow (not_not.mp hready)
      refine ⟨⟨row, content⟩, hpublished, (not_not.mp hother).symm, ?_⟩
      rw [PublishedFile.manifest, ← getChunks_published hchunks]
      exact (Except.ok.inj hok).symm

/-- **The list of a session** has its published files. -/
theorem listResources_published (hsound : CatalogSound setting state) {sessionId : String}
    {resources : List ResourceInfo}
    (hok : (listResources sessionId userSessionId now state.db).2 = .ok resources)
    (info : ResourceInfo) :
    info ∈ resources ↔ ∃ file, state.published info.id = some file ∧
      file.row.sessionId = sessionId ∧ info = formatResourceInfo file.row := by
  unfold listResources at hok
  split_ifs at hok
  split at hok
  · cases hok
  next db hcheck =>
  obtain rfl := checkSession_none hcheck
  rw [← Except.ok.inj hok, List.mem_map]
  unfold ResourceRepository.findBySessionId
  constructor
  · rintro ⟨row, hmem, rfl⟩
    obtain ⟨hvalue, hof⟩ := List.mem_filter.mp ((List.mem_insertionSort _).mp hmem)
    simp only [Bool.not_true, Bool.false_or, Bool.and_eq_true, decide_eq_true_eq] at hof
    obtain ⟨id, hrow⟩ := OrderedMap.mem_values_iff.mp hvalue
    obtain ⟨content, hpublished, -⟩ := exists_published hsound hrow hof.2
    refine ⟨⟨row, content⟩, ?_, hof.1, rfl⟩
    change state.published row.id = _
    rw [state.db.resource_key id row hrow]
    exact hpublished
  · rintro ⟨file, hpublished, hsession, hinfo⟩
    obtain ⟨hrow, hready, -⟩ := published_eq_some_iff.mp hpublished
    refine ⟨file.row, (List.mem_insertionSort _).mpr (List.mem_filter.mpr ⟨?_, ?_⟩), hinfo.symm⟩
    · exact OrderedMap.mem_values_iff.mpr ⟨_, hrow⟩
    · simp [hsession, hready]

end Replies

/-! ### The interface -/

section Gateway

variable (setting : GatewaySetting ν) (db : Database) (storage : Storage)

/-- The random names that are drawn are new. -/
def DrawsNew (state : GatewayState ν) (input : GatewayInput ν) : Prop :=
  ∀ asked, (handled setting state input).event = some asked →
    NewNames setting.toServerSetting state.catalog (input.1, asked)

/-- An instructor asks to upload a file for a session. -/
structure AsksToUpload (call : ℕ) (sessionId : String) (state : GatewayState ν)
    (input : GatewayInput ν) : Prop where
  fresh : state.server.uploads.has call = false
  asked : ∃ authorization filename randomUUID user,
    input.2 = .postResource call authorization sessionId (some filename) randomUUID ∧
      userOf setting input.1 authorization = some user ∧ user.role = .instructor ∧
        user.sessionId = sessionId

/-- The bytes that an upload receives by an input. -/
def receivedBytes (call : ℕ) (state : GatewayState ν) (input : GatewayInput ν) : Bytes :=
  ((handled setting state input).event.map (state.catalog.receives call)).getD []

/-- A call that an instructor has made for a session, and that was not cut off since, has received
these bytes. -/
def Sent (inputs : List (GatewayInput ν)) (call : ℕ) (sessionId : String) (content : Bytes) :
    Prop :=
  ∃ before input after, inputs = before ++ input :: after ∧
    AsksToUpload setting call sessionId (gatewayRun setting db storage before) input ∧
    (∀ later ∈ after, later.2 ≠ .restart) ∧
    gathered (gatewayStep setting) (receivedBytes setting call)
      (gatewayRun setting db storage (before ++ [input])) after = content

/-- A file is published by an upload that has received it, if it is not empty and not too large. -/
structure PublishesSent (before : List (GatewayInput ν)) (input : GatewayInput ν) (id : String)
    (file : PublishedFile) : Prop where
  sent : ∃ call createdAt fault safeFileName, input.2 = .upload call (.persisted createdAt fault) ∧
    Sent setting db storage before call file.row.sessionId file.content ∧
    file.row = publishedRow setting.toServerSetting id file.row.sessionId safeFileName createdAt
      file.content
  nonempty : 0 < file.content.length
  limited : file.content.length ≤ setting.config.maxBytes
  planned : (gatewayRun setting db storage before).catalog.Plans id

/-- A file is withdrawn by an instructor of its session. -/
def WithdrawnBy (_ : List (GatewayInput ν)) (input : GatewayInput ν) (id : String)
    (file : PublishedFile) : Prop :=
  ∃ call authorization user, input.2 = .deleteResource call authorization id ∧
    userOf setting input.1 authorization = some user ∧ user.role = .instructor ∧
      user.sessionId = file.row.sessionId

/-- In a run, the server is a shelf of the files that were sent to it, and replies what is on it. -/
structure OriginAtomic (inputs : List (GatewayInput ν)) : Prop where
  shelved : Shelved (gatewayStep setting) (fun state ↦ state.catalog.published)
    (PublishesSent setting db storage) (WithdrawnBy setting) (GatewayState.new db storage) inputs
  lists : ∀ before input later, inputs = before ++ input :: later →
    ∀ authorization sessionId status resources, input.2 = .getResources authorization sessionId →
      (handled setting (gatewayRun setting db storage before) input).reply =
        some ⟨status, .resources resources⟩ → ∀ info, info ∈ resources ↔ ∃ file,
          (gatewayRun setting db storage before).catalog.published info.id = some file ∧
            file.row.sessionId = sessionId ∧ info = formatResourceInfo file.row
  manifests : ∀ before input later, inputs = before ++ input :: later →
    ∀ authorization id status manifest, input.2 = .getManifest authorization id →
      (handled setting (gatewayRun setting db storage before) input).reply =
        some ⟨status, .manifest manifest⟩ → ∃ user file,
          userOf setting input.1 authorization = some user ∧ user.sessionId = file.row.sessionId ∧
            (gatewayRun setting db storage before).catalog.published id = some file ∧
            manifest = file.manifest setting.digest
  chunks : ∀ before input later, inputs = before ++ input :: later →
    ∀ authorization id rawIndex status headers stream,
      input.2 = .getChunk authorization id rawIndex →
      (handled setting (gatewayRun setting db storage before) input).reply =
        some ⟨status, .chunk headers stream⟩ → ∃ user file index,
          userOf setting input.1 authorization = some user ∧ user.sessionId = file.row.sessionId ∧
            (gatewayRun setting db storage before).catalog.published id = some file ∧
            Denotes rawIndex index ∧ index < file.row.totalChunks ∧ stream = file.chunk index ∧
              headers.lookup "X-Chunk-SHA256" = some (hexText (setting.digest stream))

end Gateway

section Runs

variable {setting : GatewaySetting ν} {db : Database} {storage : Storage}
  {inputs before : List (GatewayInput ν)} {state : GatewayState ν} {input : GatewayInput ν}
  {call : ℕ} {sessionId : String} {content : Bytes}

/-- What a step does below the interface. -/
theorem catalog_gatewayStep (setting : GatewaySetting ν) (state : GatewayState ν)
    (input : GatewayInput ν) :
    (handled setting state input).event = none ∧
        (gatewayStep setting state input).catalog = state.catalog ∨
      ∃ asked, (handled setting state input).event = some asked ∧
        Asking setting input.1 input.2 asked ∧
        (gatewayStep setting state input).catalog =
          catalogStep setting.toServerSetting state.catalog (input.1, asked) := by
  unfold gatewayStep
  cases hasked : (handled setting state input).event with
  | none => exact Or.inl ⟨rfl, rfl⟩
  | some asked =>
    refine Or.inr ⟨asked, rfl, ?_, rfl⟩
    unfold handled at hasked
    split_ifs at hasked
    · exact handle_asking hasked
    · cases hasked

/-- The server asks its services to start again when it does. -/
theorem handled_restart (setting : GatewaySetting ν) (state : GatewayState ν) (now : ℕ) :
    (handled setting state (now, .restart)).event = some .restart := rfl

/-- Nothing is held when the server starts again. -/
theorem held_restart (setting : ServerSetting ν) (state : CatalogState ν) (now call : ℕ) :
    (catalogStep setting state (now, .restart)).held call = none := rfl

/-- An upload that the services are asked to begin is asked for by an instructor. -/
theorem BeginsUpload.asks {asked : CatalogEvent ν}
    (hbegins : BeginsUpload call sessionId state.catalog asked)
    (hasking : Asking setting input.1 input.2 asked) :
    AsksToUpload setting call sessionId state input := by
  obtain ⟨hfresh, request, randomUUID, rfl, hrole, huser, hsession⟩ := hbegins
  obtain ⟨now, event⟩ := input
  cases hasking with
  | postResource _ authorization id filename _ user hverified =>
    exact ⟨hfresh, authorization, filename, randomUUID, user, by rw [← hsession], hverified, hrole,
      huser⟩

/-- What a server has received, and that its resources are in their places. -/
structure Provenance (setting : GatewaySetting ν) (db : Database) (storage : Storage)
    (inputs : List (GatewayInput ν)) (state : GatewayState ν) : Prop where
  sound : CatalogSound setting.toServerSetting state.catalog
  measured : ∀ call job, state.server.uploads.get? call = some job →
    job.Measured setting.config state.catalog.storage
  held : ∀ call sessionId content, state.catalog.held call = some (sessionId, content) →
    Sent setting db storage inputs call sessionId content

/-- An upload that begins has received nothing. -/
theorem sent_nil (hasks : AsksToUpload setting call sessionId (gatewayRun setting db storage before)
    input) : Sent setting db storage (before ++ [input]) call sessionId [] :=
  ⟨before, input, [], rfl, hasks, by simp, rfl⟩

/-- An upload that goes on receives more. -/
theorem Sent.concat (hsent : Sent setting db storage before call sessionId content)
    (hgoes : input.2 ≠ .restart) :
    Sent setting db storage (before ++ [input]) call sessionId
      (content ++ receivedBytes setting call (gatewayRun setting db storage before) input) := by
  obtain ⟨front, first, after, rfl, hasks, hrestarts, rfl⟩ := hsent
  refine ⟨front, first, after ++ [input], by simp, hasks, ?_, ?_⟩
  · intro later hlater
    rcases List.mem_append.mp hlater with hafter | hlast
    · exact hrestarts later hafter
    · exact List.mem_singleton.mp hlast ▸ hgoes
  · have hreached : gatewayRun setting db storage (front ++ first :: after) =
        run (gatewayStep setting) (gatewayRun setting db storage (front ++ [first])) after := by
      rw [gatewayRun, gatewayRun, ← run_append]
      simp
    rw [gathered_concat, hreached]

/-- **A step** keeps it. -/
theorem Provenance.step
    (hkept : Provenance setting db storage before (gatewayRun setting db storage before))
    (hnew : DrawsNew setting (gatewayRun setting db storage before) input) :
    Provenance setting db storage (before ++ [input])
      (gatewayStep setting (gatewayRun setting db storage before) input) := by
  set state := gatewayRun setting db storage before
  rcases catalog_gatewayStep setting state input with
    ⟨hidle, hsame⟩ | ⟨asked, hasked, hasking, hnext⟩
  · have hgoes : input.2 ≠ .restart := by
      intro hrestart
      have hsome := handled_restart setting state input.1
      rw [← hrestart, hidle] at hsome
      cases hsome
    have hnothing : ∀ call, receivedBytes setting call state input = [] := by
      intro call
      rw [receivedBytes, hidle]
      rfl
    refine ⟨hsame ▸ hkept.sound, fun call job hjob ↦ ?_, fun call sessionId content hheld ↦ ?_⟩
    · rw [GatewayState.server, hsame] at hjob
      rw [hsame]
      exact hkept.measured call job hjob
    have hsent := (hkept.held call sessionId content (hsame ▸ hheld)).concat hgoes
    rwa [hnothing, List.append_nil] at hsent
  · refine ⟨hnext ▸ catalogStep_sound hkept.sound (hnew asked hasked), fun call job hjob ↦ ?_,
      fun call sessionId content hheld ↦ ?_⟩
    · rw [GatewayState.server, hnext] at hjob
      rw [hnext]
      exact measured_catalogStep hkept.sound hkept.measured hjob
    rw [hnext] at hheld
    rcases held_catalogStep hkept.sound hheld with ⟨old, hold, rfl⟩ | ⟨rfl, hbegins⟩
    · have hgoes : input.2 ≠ .restart := by
        intro hrestart
        have hsome := handled_restart setting state input.1
        rw [← hrestart, hasked] at hsome
        rw [Option.some.inj hsome, held_restart] at hheld
        cases hheld
      have hsent := (hkept.held call sessionId old hold).concat hgoes
      rw [receivedBytes, hasked] at hsent
      exact hsent
    · exact sent_nil (hbegins.asks hasking)

/-- In a run with new names, it is kept. -/
theorem provenance_gatewayRun
    (hstored : ∀ id row, db.resources.get? id = some row →
      row.storagePath = finalFilePath setting.config id ∧ Servable setting.digest db storage row)
    (hnew : Along (gatewayStep setting) (DrawsNew setting) (GatewayState.new db storage) inputs) :
    Provenance setting db storage inputs (gatewayRun setting db storage inputs) := by
  refine run_history (Provenance setting db storage) ⟨CatalogSound.new hstored, ?_, ?_⟩ ?_
  · intro call job hjob
    simp [GatewayState.new, GatewayState.server, CatalogState.new, ServerState.new] at hjob
  · intro call sessionId content hheld
    obtain ⟨job, hjob, -⟩ := held_eq_some_iff.mp hheld
    simp [GatewayState.new, CatalogState.new, ServerState.new] at hjob
  · rintro before input later rfl hkept
    exact hkept.step ((along_append _ _ _).mp hnew).2.1

/-- What was published was sent. -/
theorem Provenance.shelfMove
    (hkept : Provenance setting db storage before (gatewayRun setting db storage before)) :
    ShelfMove (PublishesSent setting db storage before input) (WithdrawnBy setting before input)
      (gatewayRun setting db storage before).catalog.published
      (gatewayStep setting (gatewayRun setting db storage before) input).catalog.published := by
  rcases catalog_gatewayStep setting (gatewayRun setting db storage before) input with
    ⟨-, hsame⟩ | ⟨asked, -, hasking, hnext⟩
  · rw [hsame]
    exact .kept
  rw [hnext]
  refine (published_catalogStep hkept.sound).mono ?_ ?_
  · rintro id file
      ⟨call, createdAt, fault, job, plan, rfl, hjob, hstage, hid, hsession, hholds, hrow⟩
    have hmeasures := hkept.measured call job hjob file.content hholds
    rw [hstage] at hmeasures
    refine ⟨⟨call, createdAt, fault, job.safeFileName, ?_, ?_, hrow⟩, hmeasures.1, hmeasures.2,
      call, job, plan, hjob, by rw [hstage]; rfl, hid⟩
    · obtain ⟨now, event⟩ := input
      cases hasking with
      | upload => rfl
    · exact hkept.held call _ _ (held_eq_some_iff.mpr ⟨job, hjob, hsession, hholds⟩)
  · rintro id file ⟨call, rfl⟩
    obtain ⟨authorization, user, hevent, huser, hrole, hsession⟩ := hasking.deleteResource_cases
    exact ⟨call, authorization, user, hevent, huser, hrole, hsession⟩

/-- A request that is replied to with a value has reached its handler, and the service it asks
resolved. -/
theorem handled_succeeds {reply : Reply ν} {authorization : Option String}
    {handler : AuthTokenPayload → Handled ν}
    (hreply : (handled setting state input).reply = some reply) (hsucceeds : reply.Succeeds)
    (hhandle : handle setting input.1 state input.2 =
      requireAuth setting input.1 authorization handler) :
    ∃ user, userOf setting input.1 authorization = some user ∧
      (handler user).reply = some reply := by
  unfold handled at hreply
  split_ifs at hreply
  · rw [hhandle] at hreply
    exact exists_of_requireAuth_succeeds hreply hsucceeds
  · cases hreply

/-- **A manifest that is replied** is that of a file on the shelf. -/
theorem manifest_of_reply (hsound : CatalogSound setting.toServerSetting state.catalog) {now : ℕ}
    {authorization : Option String} {id : String} {status : ℕ} {manifest : ResourceManifest}
    (hreply : (handled setting state (now, .getManifest authorization id)).reply =
      some ⟨status, .manifest manifest⟩) :
    ∃ user file, userOf setting now authorization = some user ∧
      user.sessionId = file.row.sessionId ∧ state.catalog.published id = some file ∧
        manifest = file.manifest setting.digest := by
  obtain ⟨user, huser, hhandled⟩ := handled_succeeds hreply (fun _ _ _ hbody ↦ by cases hbody) rfl
  obtain ⟨value, hok, hvalue⟩ := exists_of_settle_eq (Option.some.inj hhandled)
    (fun _ _ _ hbody ↦ by cases hbody)
  obtain rfl : value = manifest := by cases hvalue; rfl
  obtain ⟨file, hpublished, hsession, hmanifest⟩ :=
    getManifest_published hsound (ofHttp_eq_ok_iff.mp hok)
  exact ⟨user, file, huser, hsession.symm, hpublished, hmanifest⟩

/-- **A chunk that is replied** is that of a file on the shelf. -/
theorem chunk_of_reply (hsound : CatalogSound setting.toServerSetting state.catalog) {now : ℕ}
    {authorization : Option String} {id rawIndex : String} {status : ℕ}
    {headers : List (String × String)} {stream : Bytes}
    (hreply : (handled setting state (now, .getChunk authorization id rawIndex)).reply =
      some ⟨status, .chunk headers stream⟩) :
    ∃ user file index, userOf setting now authorization = some user ∧
      user.sessionId = file.row.sessionId ∧ state.catalog.published id = some file ∧
        Denotes rawIndex index ∧ index < file.row.totalChunks ∧ stream = file.chunk index ∧
          headers.lookup "X-Chunk-SHA256" = some (hexText (setting.digest stream)) := by
  obtain ⟨user, huser, hhandled⟩ := handled_succeeds hreply (fun _ _ _ hbody ↦ by cases hbody) rfl
  obtain ⟨chunk, hok, hvalue⟩ := exists_of_settle_eq (Option.some.inj hhandled)
    (fun _ _ _ hbody ↦ by cases hbody)
  obtain ⟨rfl, rfl⟩ : chunkHeaders setting chunk = headers ∧ chunk.stream = stream := by
    cases hvalue
    exact ⟨rfl, rfl⟩
  obtain ⟨file, index, hpublished, hsession, hdenotes, hrange, hstream, hhash⟩ :=
    getChunkStream_published hsound hok
  refine ⟨user, file, index, huser, hsession.symm, hpublished, hdenotes, hrange, hstream, ?_⟩
  rw [← hhash]
  rfl

/-- **The shelf.** In a run with new names, the published files are moved on a shelf. -/
theorem shelved_gatewayRun
    (hstored : ∀ id row, db.resources.get? id = some row →
      row.storagePath = finalFilePath setting.config id ∧ Servable setting.digest db storage row)
    (hnew : Along (gatewayStep setting) (DrawsNew setting) (GatewayState.new db storage) inputs) :
    Shelved (gatewayStep setting) (fun state ↦ state.catalog.published)
      (PublishesSent setting db storage) (WithdrawnBy setting) (GatewayState.new db storage)
        inputs := by
  rintro before input later rfl
  have hmove := @Provenance.shelfMove ν setting db storage before input
    (provenance_gatewayRun hstored ((along_append _ _ _).mp hnew).1)
  rwa [← gatewayRun_concat] at hmove

/-- **The shelf of the server.** In every run of requests that interleave in any way, with crashes
and restarts at any moment, if the random names that are drawn are new: files appear whole, with the
bytes that one upload of an instructor has received, stay as they are, and are withdrawn whole; and
every list, manifest and chunk that is replied is that of the files on the shelf. -/
theorem origin_atomic
    (hstored : ∀ id row, db.resources.get? id = some row →
      row.storagePath = finalFilePath setting.config id ∧ Servable setting.digest db storage row)
    (hnew : Along (gatewayStep setting) (DrawsNew setting) (GatewayState.new db storage) inputs) :
    OriginAtomic setting db storage inputs := by
  have hsound : ∀ before input later, inputs = before ++ input :: later →
      CatalogSound setting.toServerSetting (gatewayRun setting db storage before).catalog := by
    rintro before input later rfl
    exact (provenance_gatewayRun hstored ((along_append _ _ _).mp hnew).1).sound
  constructor
  case shelved => exact shelved_gatewayRun hstored hnew
  case lists =>
    rintro before ⟨now, event⟩ later hsplit authorization sessionId status resources rfl hreply
    obtain ⟨user, -, hhandled⟩ := handled_succeeds hreply (fun _ _ _ hbody ↦ by cases hbody) rfl
    obtain ⟨value, hok, hvalue⟩ := exists_of_settle_eq (Option.some.inj hhandled)
      (fun _ _ _ hbody ↦ by cases hbody)
    obtain rfl : value = resources := by cases hvalue; rfl
    exact listResources_published (hsound before _ later hsplit) (ofHttp_eq_ok_iff.mp hok)
  case manifests =>
    rintro before ⟨now, event⟩ later hsplit authorization id status manifest rfl hreply
    exact manifest_of_reply (hsound before _ later hsplit) hreply
  case chunks =>
    rintro before ⟨now, event⟩ later hsplit authorization id rawIndex status headers stream rfl
      hreply
    exact chunk_of_reply (hsound before _ later hsplit) hreply

/-- The names that are drawn in a run are those that the services draw. -/
theorem along_drawsNew_iff (setting : GatewaySetting ν) (state : GatewayState ν)
    (inputs : List (GatewayInput ν)) :
    Along (gatewayStep setting) (DrawsNew setting) state inputs ↔
      Along (catalogStep setting.toServerSetting) (NewNames setting.toServerSetting) state.catalog
        (asked setting state inputs) := by
  induction inputs generalizing state with
  | nil => exact Iff.rfl
  | cons input rest ih =>
    rw [along_cons, ih, asked, DrawsNew]
    rcases catalog_gatewayStep setting state input with
      ⟨hidle, hsame⟩ | ⟨event, hasked, -, hnext⟩
    · rw [hsame, hidle]
      simp
    · rw [hnext, hasked]
      simp

end Runs

/-! ### Sample run -/

/-- The instructor of the class. -/
def notesInstructor : AuthTokenPayload := ⟨"session", .instructor, none, "Ada", "ABC123"⟩

/-- A server with a token for the instructor. -/
def notesGateway : GatewaySetting Rat :=
  { signalingSetting with
    verifyToken := fun _ token ↦ if token = "Ada" then some notesInstructor else none
    encodeURIComponent := id }

/-- The notes are uploaded and read. -/
def notesRun : List (GatewayInput Rat) :=
  (1, .postResource 0 (some "Bearer Ada") "session" (some "notes.pdf") "uuid") ::
    ((movedUpload ++ [UploadEvent.persisted "now" none]).map fun event ↦ (1, .upload 0 event)) ++
    [(2, .getManifest (some "Bearer Ada") "res_07"),
      (2, .getChunk (some "Bearer Ada") "res_07" "0")]

/-- The names that are drawn for them are new. -/
theorem drawsNew_notesRun : Along (gatewayStep notesGateway) (DrawsNew notesGateway)
    (GatewayState.new classroom OrderedMap.empty) notesRun := by
  have hasked : asked notesGateway (GatewayState.new classroom OrderedMap.empty) notesRun =
      storedRun ++ [(2, .server (.getManifest "res_07" "session")),
        (2, .server (.getChunkStream "res_07" "0" "session"))] := rfl
  rw [along_drawsNew_iff, hasked]
  exact (along_append _ _ _).mpr ⟨newNames_storedRun, trivial, trivial, trivial⟩

theorem origin_atomic_notesRun :
    OriginAtomic notesGateway classroom OrderedMap.empty notesRun :=
  origin_atomic (fun id row hrow ↦ by simp [classroom] at hrow) drawsNew_notesRun

end CampusMesh.Server
