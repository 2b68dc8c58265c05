import CampusMesh.Server.ResourceUpload

/-!
# Upload atomicity

A call of `processUpload` that rejects should leave the tables of the resources and the stored files
as they were, and one that resolves should have added one ready row, its chunk rows and one file
(`UploadAtomic`). The `catch` of the function removes the temporary file only. So the promise is
kept exactly when nothing fails once the file of the resource is there (`uploadAtomic_iff`): an
error of the transaction, or of the `unlink` after a copy, leaves that file behind.

The invariant says for every stage which files differ from those at the call (`StageSound`).
-/

set_option autoImplicit false
set_option relaxedAutoImplicit false

namespace CampusMesh.Server

open Library Shared UploadState

/-! ### The promise -/

/-- The tables of the resources and the files are as they were. -/
structure Unchanged (db : Database) (storage : Storage) (state : UploadState) : Prop where
  resources : state.db.resources = db.resources
  chunkManifests : state.db.chunkManifests = db.chunkManifests
  files : ∀ path, state.storage.get? path = storage.get? path

/-- One ready row, its chunk rows and one file have been added, and nothing else has changed. -/
structure Added (digest : Bytes → Bytes) (db : Database) (storage : Storage) (row : ResourceRow)
    (content : Bytes) (state : UploadState) : Prop where
  status : row.status = .ready
  fileSize : row.fileSize = content.length
  totalChunks : row.totalChunks = sliceCount CHUNK_SIZE_BYTES content.length
  sessions : state.db.sessions = db.sessions
  fresh : db.resources.has row.id = false
  resources : state.db.resources = db.resources.set row.id row
  chunks : ∀ index, db.chunkManifests.get? (row.id, index) = none ∧
    state.db.chunkManifests.get? (row.id, index) =
      if index < row.totalChunks then
        some (hexText (digest (slice CHUNK_SIZE_BYTES content index)))
      else none
  otherChunks : ∀ key : String × ℕ, key.1 ≠ row.id →
    state.db.chunkManifests.get? key = db.chunkManifests.get? key
  newFile : storage.has row.storagePath = false
  files : ∀ path, state.storage.get? path =
    if path = row.storagePath then some content else storage.get? path

/-- What a call of `processUpload` that has settled should have done. -/
def UploadAtomic (digest : Bytes → Bytes) (db : Database) (storage : Storage)
    (state : UploadState) : Prop :=
  match state.job.stage with
  | .settled (.error _) => Unchanged db storage state
  | .settled (.ok info) => ∃ row content,
    info = formatResourceInfo row ∧ Added digest db storage row content state
  | _ => True

/-- No step fails once there is a file at the final path: a copy that fails was removed, the
original of a complete copy can be unlinked, and no statement of the transaction nor the one behind
it fails. -/
def FailsBeforeTarget (state : UploadState) : UploadEvent → Prop
  | .failed _ =>
    match state.job.stage with
    | .copying plan => state.storage.has plan.finalFilePath = false
    | .unlinking _ => False
    | _ => True
  | .persisted _ fault =>
    match state.job.stage with
    | .persisting _ => fault = none
    | _ => True
  | _ => True

/-- Random names are new. -/
structure FreshNames (config : UploadConfig) (randomUUID : String) (db : Database)
    (storage : Storage) (events : List UploadEvent) : Prop where
  temp : storage.has (tempFilePath config randomUUID) = false
  resource : ∀ buffers randomBytes, .generated buffers randomBytes ∈ events →
    db.resources.has (resourceIdOf randomBytes) = false ∧
      storage.has (finalFilePath config (resourceIdOf randomBytes)) = false

/-- Temporary files and resources are in different directories. -/
theorem finalFilePath_ne_tempFilePath (config : UploadConfig) (resourceId randomUUID : String) :
    finalFilePath config resourceId ≠ tempFilePath config randomUUID := by
  intro heq
  have hchars := congrArg String.toList heq
  simp only [finalFilePath, tempFilePath, UploadConfig.tempStorageDir,
    UploadConfig.resourceStorageDir, String.toList_append, List.append_assoc,
    List.append_cancel_left_eq] at hchars
  exact absurd (congrArg (fun chars : List Char ↦ chars[1]?) hchars) (by simp)

/-! ### The transaction -/

namespace ResourceRepository

section Fresh

variable {db : Database} {resourceId : String} {chunks : List ChunkManifestEntry}

/-- New chunks of a resource that is there can be inserted. -/
theorem insertChunks_returns (hresource : db.resources.has resourceId = true)
    (hnew : ∀ chunk ∈ chunks, (resourceId, chunk.index) ∉ db.chunkManifests.keys)
    (hdistinct : (chunks.map ChunkManifestEntry.index).Nodup) :
    ∃ next, chunks.foldlM (insertChunk resourceId) db = .ok next := by
  induction chunks generalizing db with
  | nil => exact ⟨db, rfl⟩
  | cons chunk rest ih =>
    rw [List.map_cons, List.nodup_cons] at hdistinct
    have habsent : ¬ db.chunkManifests.has (resourceId, chunk.index) = true := fun hhas ↦
      hnew chunk List.mem_cons_self (OrderedMap.mem_keys_iff.mpr hhas)
    have hfirst : ∃ between, insertChunk resourceId db chunk = .ok between := by
      rw [insertChunk, if_neg habsent, dif_pos hresource]
      exact ⟨_, rfl⟩
    obtain ⟨between, hfirst⟩ := hfirst
    obtain ⟨_, hresources, hentries⟩ := insertChunk_ok hfirst
    have hkept : ∀ other ∈ rest, (resourceId, other.index) ∉ between.chunkManifests.keys := by
      intro other hother hmem
      rw [OrderedMap.keys, hentries, List.map_append, List.mem_append, List.map_singleton,
        List.mem_singleton, Prod.mk.injEq] at hmem
      rcases hmem with hold | ⟨_, hindex⟩
      · exact hnew other (List.mem_cons_of_mem chunk hother) hold
      · exact hdistinct.1 (hindex ▸ List.mem_map_of_mem hother)
    obtain ⟨next, hnext⟩ := ih (hresources ▸ hresource) hkept hdistinct.2
    exact ⟨next, by rw [List.foldlM_cons, hfirst]; exact hnext⟩

/-- A new resource of a session that is there can be stored, with chunks of different indices. -/
theorem createWithManifest_returns (resource : CreateResourceParams) (createdAt : String)
    (hfresh : db.resources.has resource.id = false)
    (hsession : db.sessions.has resource.sessionId = true)
    (hdistinct : (chunks.map ChunkManifestEntry.index).Nodup) :
    ∃ committed, createWithManifest resource chunks createdAt db =
      .ok (committed, some (rowOf resource createdAt)) := by
  have hinserted : ∃ inserted, insertResource resource createdAt db = .ok inserted := by
    rw [insertResource, if_neg (by rw [hfresh]; exact Bool.false_ne_true), dif_pos hsession]
    exact ⟨_, rfl⟩
  obtain ⟨inserted, hinsert⟩ := hinserted
  obtain ⟨_, _, hrow, hbefore⟩ := insertResource_ok hinsert
  have hthere : inserted.resources.has resource.id = true := by
    rw [hrow, OrderedMap.has_set, decide_eq_true rfl, Bool.true_or]
  have hinserts : ∃ committed,
      chunks.foldlM (insertChunk resource.id) inserted = .ok committed :=
    insertChunks_returns hthere
      (fun chunk _ ↦ hbefore ▸ not_mem_keys_of_fresh hfresh chunk.index) hdistinct
  obtain ⟨committed, hcommitted⟩ := hinserts
  obtain ⟨_, hresources, _⟩ := insertChunks_ok hcommitted
  have hfound : findById resource.id committed = some (rowOf resource createdAt) := by
    rw [findById, hresources, hrow, OrderedMap.get?_set_self]
  refine ⟨committed, ?_⟩
  rw [createWithManifest, hinsert]
  change (chunks.foldlM (insertChunk resource.id) inserted >>= _) = _
  rw [hcommitted, ← hfound]
  rfl

/-- The chunk rows behind those that were there. -/
theorem mem_appended {next : Database} {hash : ℕ → String} {count : ℕ}
    (hentries : next.chunkManifests.entries = db.chunkManifests.entries ++
      (List.range count).map fun index ↦ ((resourceId, index), hash index))
    {key : String × ℕ} {value : String} :
    next.chunkManifests.get? key = some value ↔ db.chunkManifests.get? key = some value ∨
      key.1 = resourceId ∧ key.2 < count ∧ hash key.2 = value := by
  rw [← OrderedMap.mem_entries_iff, ← OrderedMap.mem_entries_iff, hentries, List.mem_append,
    List.mem_map]
  refine or_congr_right ⟨?_, ?_⟩
  · rintro ⟨index, hindex, hentry⟩
    obtain ⟨rfl, rfl⟩ := Prod.mk.inj hentry
    exact ⟨rfl, List.mem_range.mp hindex, rfl⟩
  · rintro ⟨hkey, hindex, hvalue⟩
    exact ⟨key.2, List.mem_range.mpr hindex, by rw [← hkey, hvalue]⟩

end Fresh

end ResourceRepository

/-! ### What holds at every stage -/

/-- Only the given files have changed. -/
def SameBut (changed : List String) (before after : Storage) : Prop :=
  ∀ path, path ∉ changed → after.get? path = before.get? path

theorem SameBut.mono {changed more : List String} {before after : Storage}
    (hsame : SameBut changed before after) (hmore : changed ⊆ more) : SameBut more before after :=
  fun path hpath ↦ hsame path fun hmem ↦ hpath (hmore hmem)

theorem SameBut.set {changed : List String} {before after : Storage}
    (hsame : SameBut changed before after) {path : String} (hpath : path ∈ changed)
    (content : Bytes) : SameBut changed before (after.set path content) := fun other hother ↦ by
  have hne : other ≠ path := fun heq ↦ hother (heq ▸ hpath)
  rw [OrderedMap.get?_set_of_ne _ hne]
  exact hsame other hother

theorem SameBut.delete {changed : List String} {before after : Storage}
    (hsame : SameBut changed before after) {path : String} (hpath : path ∈ changed) :
    SameBut changed before (after.delete path) := fun other hother ↦ by
  have hne : other ≠ path := fun heq ↦ hother (heq ▸ hpath)
  rw [OrderedMap.get?_delete_of_ne _ hne]
  exact hsame other hother

section Stages

variable (config : UploadConfig) (digest : Bytes → Bytes) (temp : String) (db : Database)
  (storage : Storage)

/-- An upload whose request and session have passed, and that has not touched the database. -/
structure Working (state : UploadState) : Prop where
  path : state.job.tempFilePath = temp
  confined : config.within temp = true
  untouched : state.db = db
  session : db.sessions.has state.job.sessionId = true

/-- What has been computed for a content that is to be moved. -/
structure PlanSound (content : Bytes) (plan : MovePlan) : Prop where
  manifest : plan.manifestResult = slicedManifest digest CHUNK_SIZE_BYTES content
  resource : db.resources.has plan.resourceId = false
  target : storage.has plan.finalFilePath = false
  apart : plan.finalFilePath ≠ temp

/-- Which files differ at each stage from those at the call. -/
def StageSound (state : UploadState) : Prop :=
  match state.job.stage with
  | .opening | .saving _ | .generating =>
    Working config temp db state ∧ SameBut [temp] storage state.storage
  | .moving plan => Working config temp db state ∧ SameBut [temp] storage state.storage ∧
    ∃ content, PlanSound digest temp db storage content plan ∧
      state.storage.get? temp = some content
  | .copying plan =>
    Working config temp db state ∧ SameBut [temp, plan.finalFilePath] storage state.storage ∧
      ∃ content, PlanSound digest temp db storage content plan ∧
        state.storage.get? temp = some content
  | .unlinking plan =>
    Working config temp db state ∧ SameBut [temp, plan.finalFilePath] storage state.storage ∧
      ∃ content, PlanSound digest temp db storage content plan ∧
        state.storage.get? plan.finalFilePath = some content
  | .persisting plan => Working config temp db state ∧
    ∃ content, PlanSound digest temp db storage content plan ∧
      ∀ path, state.storage.get? path =
        if path = plan.finalFilePath then some content else storage.get? path
  | .deleting _ => state.job.tempFilePath = temp ∧ state.db = db ∧
    SameBut [temp] storage state.storage ∧
    (config.within temp = true ∨ state.storage.get? temp = none)
  | .settled (.error _) => Unchanged db storage state
  | .settled (.ok info) => ∃ row content,
    info = formatResourceInfo row ∧ Added digest db storage row content state

end Stages

section Steps

variable {config : UploadConfig} {digest : Bytes → Bytes} {temp : String} {db : Database}
  {storage : Storage} {state : UploadState}

theorem Working.of_job (hworking : Working config temp db state) {next : UploadState}
    (hjob : next.job.tempFilePath = state.job.tempFilePath)
    (hsession : next.job.sessionId = state.job.sessionId) (hdb : next.db = state.db) :
    Working config temp db next :=
  ⟨hjob.trans hworking.path, hworking.confined, hdb.trans hworking.untouched,
    hsession ▸ hworking.session⟩

/-- An upload that has only its temporary file can be given up. -/
theorem stageSound_deleting (hworking : Working config temp db state)
    (hsame : SameBut [temp] storage state.storage) (error : ServiceError) :
    StageSound config digest temp db storage (state.goOn (.deleting error)) :=
  ⟨hworking.path, hworking.untouched, hsame, .inl hworking.confined⟩

/-- A saved file is checked. -/
theorem saved_stageSound (hworking : Working config temp db state)
    (hsame : SameBut [temp] storage state.storage) (bytesWritten : ℕ) :
    StageSound config digest temp db storage (saved config bytesWritten state) := by
  unfold saved
  split
  · exact stageSound_deleting hworking hsame _
  · exact ⟨hworking.of_job rfl rfl rfl, hsame⟩

/-- A file with a manifest gets its place. -/
theorem planned_stageSound (hworking : Working config temp db state)
    (hsame : SameBut [temp] storage state.storage) {content : Bytes}
    (hcontent : state.storage.get? temp = some content) {randomBytes : Bytes}
    (hresource : db.resources.has (resourceIdOf randomBytes) = false)
    (htarget : storage.has (finalFilePath config (resourceIdOf randomBytes)) = false)
    (hapart : finalFilePath config (resourceIdOf randomBytes) ≠ temp) :
    StageSound config digest temp db storage
      (planned config (slicedManifest digest CHUNK_SIZE_BYTES content) randomBytes state) := by
  unfold planned
  simp only
  split
  · exact stageSound_deleting hworking hsame _
  · split
    · exact stageSound_deleting hworking hsame _
    · exact ⟨hworking.of_job rfl rfl rfl, hsame, content, ⟨rfl, hresource, htarget, hapart⟩,
        hcontent⟩

/-- The transaction of a new resource with the manifest of a content commits. -/
theorem slicedManifest_commits (hworking : Working config temp db state) {resourceId : String}
    (hresource : db.resources.has resourceId = false) (path : String) (content : Bytes)
    (createdAt : String) :
    ∃ committed, ResourceRepository.createWithManifest
        (uploadParams resourceId state.job.sessionId state.job.safeFileName path
          (slicedManifest digest CHUNK_SIZE_BYTES content))
        (slicedManifest digest CHUNK_SIZE_BYTES content).chunks createdAt state.db =
      .ok (committed, some (ResourceRepository.rowOf
        (uploadParams resourceId state.job.sessionId state.job.safeFileName path
          (slicedManifest digest CHUNK_SIZE_BYTES content)) createdAt)) := by
  obtain ⟨-, -, rfl, hsession⟩ := hworking
  exact ResourceRepository.createWithManifest_returns _ createdAt hresource hsession
    (map_index_slicedManifest digest CHUNK_SIZE_BYTES content ▸ List.nodup_range)

/-- The resource of a file that has been moved is stored. -/
theorem persist_stageSound (hworking : Working config temp db state) {plan : MovePlan}
    {content : Bytes} (hplan : PlanSound digest temp db storage content plan)
    (hfiles : ∀ path, state.storage.get? path =
      if path = plan.finalFilePath then some content else storage.get? path) (createdAt : String) :
    StageSound config digest temp db storage (persist plan createdAt none state) := by
  obtain ⟨hmanifest, hresource, htarget, -⟩ := hplan
  obtain ⟨committed, hcommitted⟩ := @slicedManifest_commits config digest temp db state hworking
    plan.resourceId hresource plan.finalFilePath content createdAt
  rw [← hmanifest] at hcommitted
  obtain ⟨-, -, rfl, -⟩ := hworking
  obtain ⟨-, hsessions, hresources, hentries⟩ :=
    ResourceRepository.createWithManifest_tables hcommitted
  have hrows : committed.chunkManifests.entries = state.db.chunkManifests.entries ++
      (List.range (sliceCount CHUNK_SIZE_BYTES content.length)).map fun index ↦
        ((plan.resourceId, index), hexText (digest (slice CHUNK_SIZE_BYTES content index))) := by
    rw [hentries, hmanifest, slicedManifest, List.map_map]
    rfl
  have hcount : plan.manifestResult.totalChunks = sliceCount CHUNK_SIZE_BYTES content.length :=
    congrArg GeneratedManifestResult.totalChunks hmanifest
  unfold persist
  simp only
  rw [hcommitted]
  refine ⟨_, content, rfl, ?_⟩
  constructor
  case status => rfl
  case fileSize => exact congrArg GeneratedManifestResult.fileSize hmanifest
  case totalChunks => exact hcount
  case sessions => exact hsessions
  case fresh => exact hresource
  case resources => exact hresources
  case newFile => exact htarget
  case files => exact hfiles
  case chunks =>
    intro index
    have habsent : state.db.chunkManifests.get? (plan.resourceId, index) = none :=
      OrderedMap.get?_eq_none_iff.mpr (ResourceRepository.not_mem_keys_of_fresh hresource index)
    refine ⟨habsent, Option.ext fun value ↦ ?_⟩
    change committed.chunkManifests.get? (plan.resourceId, index) = some value ↔
      (if index < plan.manifestResult.totalChunks then _ else _) = some value
    rw [ResourceRepository.mem_appended hrows, habsent, hcount]
    split_ifs with hindex
    · simp [hindex]
    · simp [hindex]
  case otherChunks =>
    intro key hkey
    have hother : key.1 ≠ plan.resourceId := hkey
    refine Option.ext fun value ↦ ?_
    change committed.chunkManifests.get? key = some value ↔ _
    rw [ResourceRepository.mem_appended hrows]
    simp [hother]

/-- A complete copy is the content, in addition to the temporary file. -/
theorem SameBut.move {final : String} {content : Bytes} {after : Storage}
    (hsame : SameBut [temp, final] storage after) (hnew : storage.has temp = false)
    (hfinal : after.get? final = some content) (hgone : after.get? temp = none)
    (path : String) :
    after.get? path = if path = final then some content else storage.get? path := by
  split_ifs with hpath
  · rw [hpath]
    exact hfinal
  · by_cases htemp : path = temp
    · rw [htemp, hgone, OrderedMap.has_eq_false_iff.mp hnew]
    · exact hsame path (by simp [hpath, htemp])

/-- Without the temporary file and a file at the final path nothing has changed. -/
theorem SameBut.of_absent {final : String} {after : Storage}
    (hsame : SameBut [temp, final] storage after) (hnew : storage.has final = false)
    (hgone : after.has final = false) : SameBut [temp] storage after := fun path hpath ↦ by
  by_cases hfinal : path = final
  · rw [hfinal, OrderedMap.has_eq_false_iff.mp hgone, OrderedMap.has_eq_false_iff.mp hnew]
  · exact hsame path (by simpa [hfinal] using hpath)

/-- A file that was given up leaves nothing. -/
theorem SameBut.unchanged (hsame : SameBut [temp] storage state.storage)
    (hnew : storage.has temp = false) (hgone : state.storage.get? temp = none)
    (hdb : state.db = db) : Unchanged db storage state := by
  refine ⟨hdb ▸ rfl, hdb ▸ rfl, fun path ↦ ?_⟩
  by_cases hpath : path = temp
  · rw [hpath, hgone, OrderedMap.has_eq_false_iff.mp hnew]
  · exact hsame path (by simp [hpath])

/-- The rename puts the content at its place. -/
theorem renamed_stageSound (hworking : Working config temp db state)
    (hsame : SameBut [temp] storage state.storage) {plan : MovePlan} {content : Bytes}
    (hplan : PlanSound digest temp db storage content plan) (hnew : storage.has temp = false) :
    StageSound config digest temp db storage
      (((state.unlink temp).write plan.finalFilePath content).goOn (.persisting plan)) := by
  refine ⟨hworking.of_job rfl rfl rfl, content, hplan, ?_⟩
  have hmoved : SameBut [temp, plan.finalFilePath] storage
      ((state.storage.delete temp).set plan.finalFilePath content) :=
    ((hsame.mono (by simp)).delete List.mem_cons_self).set (by simp) content
  refine hmoved.move hnew (OrderedMap.get?_set_self _ _ _) ?_
  rw [OrderedMap.get?_set_of_ne _ hplan.apart.symm, OrderedMap.get?_delete_self]

/-- The original of a complete copy is removed. -/
theorem unlinked_stageSound (hworking : Working config temp db state) {plan : MovePlan}
    (hsame : SameBut [temp, plan.finalFilePath] storage state.storage) {content : Bytes}
    (hplan : PlanSound digest temp db storage content plan)
    (hcopy : state.storage.get? plan.finalFilePath = some content)
    (hnew : storage.has temp = false) :
    StageSound config digest temp db storage ((state.unlink temp).goOn (.persisting plan)) := by
  refine ⟨hworking.of_job rfl rfl rfl, content, hplan, ?_⟩
  refine (hsame.delete List.mem_cons_self).move hnew ?_ (OrderedMap.get?_delete_self _ _)
  rw [OrderedMap.get?_delete_of_ne _ hplan.apart]
  exact hcopy

/-- A copy goes on. -/
theorem copying_stageSound (hworking : Working config temp db state) {plan : MovePlan}
    (hstage : state.job.stage = .copying plan) {after : Storage}
    (hsame : SameBut [temp, plan.finalFilePath] storage after) {content : Bytes}
    (hplan : PlanSound digest temp db storage content plan)
    (hcontent : after.get? temp = some content) :
    StageSound config digest temp db storage { state with storage := after } := by
  simp only [StageSound, hstage]
  exact ⟨hworking.of_job rfl rfl rfl, hsame, content, hplan, hcontent⟩

/-- The temporary file of an upload that was given up is removed. -/
theorem deleted_stageSound (hpath : state.job.tempFilePath = temp) (hdb : state.db = db)
    (hsame : SameBut [temp] storage state.storage)
    (hfile : config.within temp = true ∨ state.storage.get? temp = none)
    (hnew : storage.has temp = false) (error : ServiceError) :
    StageSound config digest temp db storage
      (if config.within state.job.tempFilePath then
        (state.unlink state.job.tempFilePath).goOn (.settled (.error error))
      else state.goOn (.settled (.error error))) := by
  rw [hpath]
  split_ifs with hwithin
  · have hremoved : Unchanged db storage (state.unlink temp) :=
      SameBut.unchanged (hsame.delete List.mem_cons_self) hnew
        (OrderedMap.get?_delete_self _ _) hdb
    exact ⟨hremoved.resources, hremoved.chunkManifests, hremoved.files⟩
  · have hgone := hsame.unchanged hnew (hfile.resolve_left hwithin) hdb
    exact ⟨hgone.resources, hgone.chunkManifests, hgone.files⟩

/-- What an upload waits for fails before there is a file of the resource. -/
theorem failed_stageSound (hsound : StageSound config digest temp db storage state)
    {error : JsError} (hfails : state.job.stage.canFail = true)
    (hbefore : FailsBeforeTarget state (.failed error)) :
    StageSound config digest temp db storage (state.goOn (.deleting (.js error))) := by
  cases hstage : state.job.stage with
  | opening | saving | generating =>
    simp only [StageSound, hstage] at hsound
    exact stageSound_deleting hsound.1 hsound.2 _
  | moving plan =>
    simp only [StageSound, hstage] at hsound
    exact stageSound_deleting hsound.1 hsound.2.1 _
  | copying plan =>
    simp only [StageSound, hstage] at hsound
    obtain ⟨hworking, hsame, content, hplan, -⟩ := hsound
    simp only [FailsBeforeTarget, hstage] at hbefore
    exact stageSound_deleting hworking (hsame.of_absent hplan.target hbefore) _
  | unlinking plan => simp only [FailsBeforeTarget, hstage] at hbefore
  | persisting | deleting | settled => simp [hstage, UploadStage.canFail] at hfails

/-- **A step.** When it does not fail once the file of the resource is there, it keeps what holds at
its stage. -/
theorem uploadStep_stageSound (hsound : StageSound config digest temp db storage state)
    {event : UploadEvent} (hbefore : FailsBeforeTarget state event)
    (hdelete : event ≠ .deleteFailed) (hnew : storage.has temp = false)
    (hfresh : ∀ buffers randomBytes, event = .generated buffers randomBytes →
      db.resources.has (resourceIdOf randomBytes) = false ∧
        storage.has (finalFilePath config (resourceIdOf randomBytes)) = false)
    (hapart : ∀ resourceId, finalFilePath config resourceId ≠ temp) :
    StageSound config digest temp db storage (uploadStep config digest state event) := by
  have htransition := uploadStep_transition config digest state event
  generalize uploadStep config digest state event = next at htransition ⊢
  cases htransition with
  | ignored => exact hsound
  | opened hstage =>
    simp only [StageSound, hstage] at hsound
    obtain ⟨hworking, hsame⟩ := hsound
    refine ⟨hworking.of_job rfl rfl rfl, ?_⟩
    exact hsame.set (by rw [hworking.path]; exact List.mem_singleton_self temp) []
  | received bytesWritten data content hstage hcontent =>
    simp only [StageSound, hstage] at hsound
    obtain ⟨hworking, hsame⟩ := hsound
    refine ⟨hworking.of_job rfl rfl rfl, ?_⟩
    exact hsame.set (by rw [hworking.path]; exact List.mem_singleton_self temp) _
  | ended bytesWritten hstage =>
    simp only [StageSound, hstage] at hsound
    exact saved_stageSound hsound.1 hsound.2 _
  | generated buffers randomBytes hstage hcontent =>
    simp only [StageSound, hstage] at hsound
    obtain ⟨hworking, hsame⟩ := hsound
    rw [hworking.path] at hcontent
    obtain ⟨hresource, htarget⟩ := hfresh _ _ rfl
    exact planned_stageSound hworking hsame hcontent hresource htarget (hapart _)
  | renamed plan bytes hstage hbytes =>
    simp only [StageSound, hstage] at hsound
    obtain ⟨hworking, hsame, content, hplan, hcontent⟩ := hsound
    rw [hworking.path] at hbytes ⊢
    obtain rfl := Option.some.inj (hcontent.symm.trans hbytes)
    exact renamed_stageSound hworking hsame hplan hnew
  | crossDevice plan hstage =>
    simp only [StageSound, hstage] at hsound
    obtain ⟨hworking, hsame, content, hplan, hcontent⟩ := hsound
    exact ⟨hworking.of_job rfl rfl rfl, hsame.mono (by simp), content, hplan, hcontent⟩
  | copied plan data bytes hstage hbytes =>
    simp only [StageSound, hstage] at hsound
    obtain ⟨hworking, hsame, content, hplan, hcontent⟩ := hsound
    refine copying_stageSound hworking hstage (hsame.set (by simp) _) hplan ?_
    rw [OrderedMap.get?_set_of_ne _ hplan.apart.symm]
    exact hcontent
  | uncopied plan hstage =>
    simp only [StageSound, hstage] at hsound
    obtain ⟨hworking, hsame, content, hplan, hcontent⟩ := hsound
    refine copying_stageSound hworking hstage (hsame.delete (by simp)) hplan ?_
    rw [OrderedMap.get?_delete_of_ne _ hplan.apart.symm]
    exact hcontent
  | copyEnded plan bytes hstage hbytes =>
    simp only [StageSound, hstage] at hsound
    obtain ⟨hworking, hsame, content, hplan, hcontent⟩ := hsound
    rw [hworking.path] at hbytes
    obtain rfl := Option.some.inj (hcontent.symm.trans hbytes)
    exact ⟨hworking.of_job rfl rfl rfl, hsame.set (by simp) _, content, hplan,
      OrderedMap.get?_set_self _ _ _⟩
  | unlinked plan hstage =>
    simp only [StageSound, hstage] at hsound
    obtain ⟨hworking, hsame, content, hplan, hcopy⟩ := hsound
    rw [hworking.path]
    exact unlinked_stageSound hworking hsame hplan hcopy hnew
  | persisted plan createdAt fault hstage =>
    simp only [StageSound, hstage] at hsound
    obtain ⟨hworking, content, hplan, hfiles⟩ := hsound
    simp only [FailsBeforeTarget, hstage] at hbefore
    rw [hbefore]
    exact persist_stageSound hworking hplan hfiles _
  | failed error hfails => exact failed_stageSound hsound hfails hbefore
  | deleted error hstage =>
    simp only [StageSound, hstage] at hsound
    obtain ⟨hpath, hdb, hsame, hfile⟩ := hsound
    exact deleted_stageSound hpath hdb hsame hfile hnew _
  | deleteFailed => exact absurd rfl hdelete

/-! ### Files that are left behind -/

/-- The upload has been given up, and a file that was not there at the call stays, which is not the
temporary file. -/
def LeftBehind (storage : Storage) (state : UploadState) : Prop :=
  (∃ error, state.job.stage = .deleting error ∨ state.job.stage = .settled (.error error)) ∧
    ∃ path, path ≠ state.job.tempFilePath ∧ storage.has path = false ∧
      state.storage.has path = true

/-- Nothing removes it. -/
theorem uploadStep_leftBehind (hleft : LeftBehind storage state) (event : UploadEvent) :
    LeftBehind storage (uploadStep config digest state event) := by
  obtain ⟨⟨error, hstage⟩, path, hpath, hnew, hthere⟩ := hleft
  rcases hstage with hstage | hstage
  · have hsettled : ∀ next : UploadState, next.job.stage = .settled (.error error) →
        next.job.tempFilePath = state.job.tempFilePath → next.storage.has path = true →
          LeftBehind storage next := fun next hnext htemp hfile ↦
      ⟨⟨error, .inr hnext⟩, path, htemp ▸ hpath, hnew, hfile⟩
    cases event
    case deleted =>
      simp only [uploadStep, hstage]
      split_ifs
      · refine hsettled _ rfl rfl ?_
        change (state.storage.delete state.job.tempFilePath).has path = true
        rw [OrderedMap.has_delete, hthere]
        simp [hpath]
      · exact hsettled _ rfl rfl hthere
    case deleteFailed =>
      simp only [uploadStep, hstage]
      exact hsettled _ rfl rfl hthere
    all_goals
      simp only [uploadStep, hstage]
      exact ⟨⟨error, .inl hstage⟩, path, hpath, hnew, hthere⟩
  · simp only [uploadStep, hstage]
    exact ⟨⟨error, .inr hstage⟩, path, hpath, hnew, hthere⟩

/-- A transaction with a fault gives up, and touches no file. -/
theorem persist_fault (plan : MovePlan) (createdAt : String) (fault : TransactionFault) :
    ∃ error, (persist plan createdAt (some fault) state).job =
      { state.job with stage := .deleting error } ∧
      (persist plan createdAt (some fault) state).storage = state.storage := by
  unfold persist
  cases fault with
  | aborted error => exact ⟨_, rfl, rfl⟩
  | unread error =>
    simp only
    split
    · exact ⟨_, rfl, rfl⟩
    · exact ⟨_, rfl, rfl⟩

/-- A step that fails once the file of the resource is there leaves it behind. -/
theorem leftBehind_of_late (hsound : StageSound config digest temp db storage state)
    {event : UploadEvent} (hlate : ¬ FailsBeforeTarget state event) :
    LeftBehind storage (uploadStep config digest state event) := by
  cases event
  case failed error =>
    cases hstage : state.job.stage
    case copying plan =>
      simp only [StageSound, hstage] at hsound
      obtain ⟨hworking, -, content, hplan, -⟩ := hsound
      simp only [FailsBeforeTarget, hstage, Bool.not_eq_false] at hlate
      simp only [uploadStep, hstage]
      exact ⟨⟨_, .inl rfl⟩, plan.finalFilePath, fun heq ↦ hplan.apart (heq.trans hworking.path),
        hplan.target, hlate⟩
    case unlinking plan =>
      simp only [StageSound, hstage] at hsound
      obtain ⟨hworking, -, content, hplan, hcopy⟩ := hsound
      simp only [uploadStep, hstage]
      exact ⟨⟨_, .inl rfl⟩, plan.finalFilePath, fun heq ↦ hplan.apart (heq.trans hworking.path),
        hplan.target, OrderedMap.has_iff_exists.mpr ⟨content, hcopy⟩⟩
    all_goals exact absurd trivial (by simpa only [FailsBeforeTarget, hstage] using hlate)
  case persisted createdAt fault =>
    cases hstage : state.job.stage
    case persisting plan =>
      simp only [StageSound, hstage] at hsound
      obtain ⟨hworking, content, hplan, hfiles⟩ := hsound
      simp only [FailsBeforeTarget, hstage] at hlate
      obtain ⟨fault, rfl⟩ := Option.ne_none_iff_exists'.mp hlate
      obtain ⟨error, hjob, hstorage⟩ := @persist_fault state plan createdAt fault
      simp only [uploadStep, hstage]
      refine ⟨⟨error, .inl (by rw [hjob])⟩, plan.finalFilePath, ?_, hplan.target, ?_⟩
      · rw [hjob]
        exact fun heq ↦ hplan.apart (heq.trans hworking.path)
      · rw [hstorage, OrderedMap.has_iff_exists]
        exact ⟨content, by rw [hfiles, if_pos rfl]⟩
    all_goals exact absurd trivial (by simpa only [FailsBeforeTarget, hstage] using hlate)
  all_goals exact absurd trivial hlate

/-- An upload that has left a file behind is not undone. -/
theorem LeftBehind.not_atomic (hleft : LeftBehind storage state)
    {result : Except ServiceError ResourceInfo}
    (hsettled : state.job.stage = .settled result) : ¬ UploadAtomic digest db storage state := by
  obtain ⟨⟨error, hstage⟩, path, -, hnew, hthere⟩ := hleft
  have hrejected : state.job.stage = .settled (.error error) := by
    rcases hstage with hstage | hstage
    · rw [hsettled] at hstage
      exact absurd hstage (by simp)
    · exact hstage
  intro hatomic
  simp only [UploadAtomic, hrejected] at hatomic
  rw [OrderedMap.has, hatomic.files, ← OrderedMap.has, hnew] at hthere
  exact Bool.false_ne_true hthere

end Steps

/-! ### Calls -/

/-- A session that passes the check is there. -/
theorem has_of_checkSession {sessionId : String} {now : ℕ} {db next : Database}
    (hok : checkSession sessionId now db = (next, none)) : db.sessions.has sessionId = true := by
  unfold checkSession at hok
  split at hok
  · simp at hok
  · next session hfound => exact OrderedMap.has_iff_exists.mpr ⟨session, hfound⟩

section Calls

variable (config : UploadConfig) (digest : Bytes → Bytes) (request : UploadRequest)
  (randomUUID : String) (now : ℕ) {db : Database} {storage : Storage}

/-- A call begins at a sound stage. -/
theorem processUpload_stageSound (hnew : storage.has (tempFilePath config randomUUID) = false) :
    StageSound config digest (tempFilePath config randomUUID) db storage
      ⟨(processUpload config request randomUUID now db).1, storage,
        (processUpload config request randomUUID now db).2⟩ := by
  unfold processUpload
  simp only
  split_ifs
  · exact ⟨rfl, rfl, fun _ ↦ rfl⟩
  · have hresources := checkSession_sameRows request.sessionId now db
    split
    · next reached error hchecked =>
      rw [hchecked] at hresources
      exact ⟨hresources.1, hresources.2, fun _ ↦ rfl⟩
    · next reached hchecked =>
      obtain rfl := checkSession_ok hchecked
      split
      · exact ⟨rfl, rfl, fun _ _ ↦ rfl, .inr (OrderedMap.has_eq_false_iff.mp hnew)⟩
      · next hpassed =>
        have hwithin : config.within (tempFilePath config randomUUID) = true := by
          unfold assertPathWithinStorage at hpassed
          split_ifs at hpassed with hwithin
          exact hwithin
        exact ⟨⟨rfl, hwithin, rfl, has_of_checkSession hchecked⟩, fun _ _ ↦ rfl⟩

/-- The state of a call that has just begun. -/
def begun (db : Database) (storage : Storage) : UploadState :=
  ⟨(processUpload config request randomUUID now db).1, storage,
    (processUpload config request randomUUID now db).2⟩

variable {config digest request randomUUID now} {events : List UploadEvent}

theorem FreshNames.of_part {part : List UploadEvent}
    (hfresh : FreshNames config randomUUID db storage events) (hpart : part ⊆ events) :
    FreshNames config randomUUID db storage part :=
  ⟨hfresh.temp, fun buffers randomBytes hmem ↦ hfresh.resource buffers randomBytes (hpart hmem)⟩

/-- **A run.** As long as no step fails once the file of the resource is there, its stage is sound.
-/
theorem uploadRun_stageSound (hfresh : FreshNames config randomUUID db storage events)
    (hdeletes : .deleteFailed ∉ events)
    (halong : Along (uploadStep config digest) FailsBeforeTarget
      (begun config request randomUUID now db storage) events) :
    StageSound config digest (tempFilePath config randomUUID) db storage
      (uploadRun config digest request randomUUID now db storage events) := by
  refine run_invariant
    (fun state ↦ StageSound config digest (tempFilePath config randomUUID) db storage state) ?_
    (processUpload_stageSound config digest request randomUUID now hfresh.temp) halong.and_mem
  rintro state event hsound ⟨hbefore, hmem⟩
  refine uploadStep_stageSound hsound hbefore ?_ hfresh.temp ?_
    fun resourceId ↦ finalFilePath_ne_tempFilePath config resourceId randomUUID
  · rintro rfl
    exact hdeletes hmem
  · rintro buffers randomBytes rfl
    exact hfresh.resource buffers randomBytes hmem

/-- A step that fails too late leaves a file behind for good. -/
theorem uploadRun_leftBehind (hfresh : FreshNames config randomUUID db storage events)
    (hdeletes : .deleteFailed ∉ events)
    (hlate : ¬ Along (uploadStep config digest) FailsBeforeTarget
      (begun config request randomUUID now db storage) events) :
    LeftBehind storage (uploadRun config digest request randomUUID now db storage events) := by
  have hinit : ¬ ¬ Along (uploadStep config digest) FailsBeforeTarget
      (begun config request randomUUID now db storage) [] := not_not_intro trivial
  obtain ⟨passed, last, later, rfl, hpassed, hfirst⟩ :=
    @exists_first _ (fun part ↦ ¬ Along (uploadStep config digest) FailsBeforeTarget
      (begun config request randomUUID now db storage) part) hinit _ hlate
  have hpassed := not_not.mp hpassed
  rw [along_append, not_and] at hfirst
  have hbad : ¬ FailsBeforeTarget
      (uploadRun config digest request randomUUID now db storage passed) last :=
    fun hallowed ↦ hfirst hpassed ⟨hallowed, trivial⟩
  have hsound := uploadRun_stageSound (hfresh.of_part (List.subset_append_left _ _))
    (fun hmem ↦ hdeletes (List.mem_append_left _ hmem)) hpassed
  have hleft := leftBehind_of_late hsound hbad
  unfold uploadRun
  rw [run_append, run_cons]
  exact run_invariant_of_step (LeftBehind storage)
    (fun state event hstate ↦ uploadStep_leftBehind hstate event) hleft later

/-- **When uploads are atomic.** With new random names and a deletion of the temporary file that
succeeds, a call of `processUpload` that has settled did what it promises exactly when none of its
steps failed once there was a file at the final path. -/
theorem uploadAtomic_iff (hfresh : FreshNames config randomUUID db storage events)
    (hdeletes : .deleteFailed ∉ events) {result : Except ServiceError ResourceInfo}
    (hsettled : (uploadRun config digest request randomUUID now db storage events).job.stage =
      .settled result) :
    UploadAtomic digest db storage
        (uploadRun config digest request randomUUID now db storage events) ↔
      Along (uploadStep config digest) FailsBeforeTarget
        (begun config request randomUUID now db storage) events := by
  constructor
  · intro hatomic
    by_contra hlate
    exact (uploadRun_leftBehind hfresh hdeletes hlate).not_atomic hsettled hatomic
  · intro halong
    have hsound := uploadRun_stageSound hfresh hdeletes halong
    unfold StageSound at hsound
    unfold UploadAtomic
    rw [hsettled] at hsound ⊢
    cases result with
    | error error => exact hsound
    | ok info => exact hsound

end Calls

/-! ### Sample uploads -/

/-- The instructor of a class uploads. -/
def sampleRequest : UploadRequest := ⟨"session", .instructor, "session", "notes.pdf"⟩

/-- Three bytes, up to the transaction. -/
def movedUpload : List UploadEvent :=
  [.opened, .received [1, 2, 3], .ended, .generated [[1, 2], [3]] [7], .renamed]

/-- A transaction that cannot be written to the disk. -/
def abortedUpload : List UploadEvent :=
  movedUpload ++ [.persisted "now" (some (.aborted (.error "database or disk is full"))), .deleted]

theorem freshNames_classroom (events : List UploadEvent) :
    FreshNames sampleConfig "uuid" classroom OrderedMap.empty events :=
  ⟨rfl, fun _ _ _ ↦ ⟨rfl, rfl⟩⟩

/-- An upload without a fault adds its resource. -/
theorem uploadAtomic_iff_stored :
    UploadAtomic id classroom OrderedMap.empty
      (uploadRun sampleConfig id sampleRequest "uuid" 1 classroom OrderedMap.empty
        (movedUpload ++ [.persisted "now" none])) := by
  have hsettled : (uploadRun sampleConfig id sampleRequest "uuid" 1 classroom OrderedMap.empty
      (movedUpload ++ [.persisted "now" none])).job.stage = .settled (.ok
        ⟨"res_07", "session", "notes.pdf", 3, 262144, 1, "010203", .ready, "now"⟩) := rfl
  refine (uploadAtomic_iff (freshNames_classroom _) (by simp [movedUpload]) hsettled).mpr ?_
  have hmoved : (run (uploadStep sampleConfig id)
      (begun sampleConfig sampleRequest "uuid" 1 classroom OrderedMap.empty)
      movedUpload).job.stage = .persisting ⟨⟨3, 1, "010203", [⟨0, 3, "010203"⟩]⟩, "res_07",
        "/storage/resources/res_07.bin"⟩ := rfl
  rw [along_append]
  refine ⟨⟨trivial, trivial, trivial, trivial, trivial, trivial⟩, ?_, trivial⟩
  simp only [FailsBeforeTarget, hmoved]

/-- An upload whose transaction fails is rejected, and its file stays. -/
theorem abortedUpload_not_atomic :
    FreshNames sampleConfig "uuid" classroom OrderedMap.empty abortedUpload ∧
      .deleteFailed ∉ abortedUpload ∧
      (uploadRun sampleConfig id sampleRequest "uuid" 1 classroom OrderedMap.empty
        abortedUpload).job.stage = .settled (.error (.js (.error "database or disk is full"))) ∧
      (uploadRun sampleConfig id sampleRequest "uuid" 1 classroom OrderedMap.empty
        abortedUpload).storage.get? "/storage/resources/res_07.bin" = some [1, 2, 3] ∧
      ¬ UploadAtomic id classroom OrderedMap.empty
        (uploadRun sampleConfig id sampleRequest "uuid" 1 classroom OrderedMap.empty
          abortedUpload) := by
  have hfile : (uploadRun sampleConfig id sampleRequest "uuid" 1 classroom OrderedMap.empty
      abortedUpload).storage.get? "/storage/resources/res_07.bin" = some [1, 2, 3] := rfl
  refine ⟨freshNames_classroom _, by simp [abortedUpload, movedUpload], rfl,
    hfile, fun hatomic ↦ ?_⟩
  have hgone := Unchanged.files hatomic "/storage/resources/res_07.bin"
  rw [hfile] at hgone
  exact absurd hgone (by simp)

end CampusMesh.Server
