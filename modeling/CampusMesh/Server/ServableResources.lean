import CampusMesh.Server.InactiveSessions
import CampusMesh.Server.ResourceCatalog
import CampusMesh.Server.UploadAtomicity

/-!
# Ready resources can be served

Every ready row has its file, and its chunk rows are the hashes of the slices of this file
(`Servable`), whatever uploads and deletions are under way, were cut off or have failed. An upload
puts the file in its place before it inserts the row, and a deletion removes the row before the
file; and the files of different calls are different, because their random names are.

The invariant `CatalogSound` says in addition where the content of a planned resource lies and that
neither an upload nor a deletion under way has the id of a row. What an upload does to the files and
the tables is described once (`uploadStep_move`).
-/

set_option autoImplicit false
set_option relaxedAutoImplicit false

namespace CampusMesh.Server

open Library Shared UploadState

variable {ν : Type}

/-! ### The promise -/

/-- The file of a resource is there with its size, and its chunks are exactly the hashes of the
slices of the file. -/
def Servable (digest : Bytes → Bytes) (db : Database) (storage : Storage) (row : ResourceRow) :
    Prop :=
  ∃ content, storage.get? row.storagePath = some content ∧ content.length = row.fileSize ∧
    row.totalChunks = sliceCount row.chunkSize content.length ∧
    ∀ index hash, db.chunkManifests.get? (row.id, index) = some hash ↔
      index < row.totalChunks ∧ hash = hexText (digest (slice row.chunkSize content index))

/-- The resource that an upload is about to store. -/
def UploadStage.plan? : UploadStage → Option MovePlan
  | .moving plan | .copying plan | .unlinking plan | .persisting plan => some plan
  | _ => none

/-- An id that no resource has, no upload under way and no deletion under way. -/
structure Unused (state : CatalogState ν) (resourceId : String) : Prop where
  resource : state.db.resources.has resourceId = false
  upload : ∀ call job plan, state.server.uploads.get? call = some job →
    job.stage.plan? = some plan → plan.resourceId ≠ resourceId
  deletion : ∀ call pending, state.deletions.get? call = some pending →
    pending.resourceId ≠ resourceId

/-- The random names of an event are new: that of a temporary file, and that of a resource. -/
def NewNames (setting : ServerSetting ν) (state : CatalogState ν) (input : CatalogInput ν) : Prop :=
  match input.2 with
  | .server (.processUpload _ _ randomUUID) =>
    ∀ call job, state.server.uploads.get? call = some job →
      job.tempFilePath ≠ tempFilePath setting.config randomUUID
  | .server (.upload _ (.generated _ randomBytes)) => Unused state (resourceIdOf randomBytes)
  | _ => True

/-! ### What an upload does -/

section Moves

variable {config : UploadConfig} {digest : Bytes → Bytes} {state : UploadState}

/-- What one step of an upload can do. -/
inductive UploadMove (config : UploadConfig) (digest : Bytes → Bytes) (state : UploadState) :
    UploadEvent → UploadState → Prop
  | idle {event : UploadEvent} : UploadMove config digest state event state
  | scratch {event : UploadEvent} (storage : Storage) (stage : UploadStage)
      (hsame : SameBut [state.job.tempFilePath] state.storage storage)
      (hstage : stage.plan? = none) :
      UploadMove config digest state event
        ⟨state.db, storage, { state.job with stage := stage }⟩
  | planned (buffers : List Bytes) (randomBytes : Bytes) (plan : MovePlan)
      (hcontent : state.storage.get? state.job.tempFilePath = some buffers.flatten)
      (hmanifest : plan.manifestResult = slicedManifest digest CHUNK_SIZE_BYTES buffers.flatten)
      (hid : plan.resourceId = resourceIdOf randomBytes)
      (hpath : plan.finalFilePath = finalFilePath config plan.resourceId) :
      UploadMove config digest state (.generated buffers randomBytes) (state.goOn (.moving plan))
  | copying {event : UploadEvent} (plan : MovePlan) (hstage : state.job.stage = .moving plan) :
      UploadMove config digest state event (state.goOn (.copying plan))
  | copied {event : UploadEvent} (plan : MovePlan) (storage : Storage)
      (hstage : state.job.stage = .copying plan)
      (hsame : SameBut [plan.finalFilePath] state.storage storage) :
      UploadMove config digest state event { state with storage := storage }
  | placed {event : UploadEvent} (plan : MovePlan) (content : Bytes) (storage : Storage)
      (stage : UploadStage)
      (hbefore : state.job.stage = .moving plan ∨ state.job.stage = .copying plan)
      (hcontent : state.storage.get? state.job.tempFilePath = some content)
      (hfile : storage.get? plan.finalFilePath = some content)
      (hsame : SameBut [state.job.tempFilePath, plan.finalFilePath] state.storage storage)
      (hafter : stage = .unlinking plan ∨ stage = .persisting plan) :
      UploadMove config digest state event
        ⟨state.db, storage, { state.job with stage := stage }⟩
  | unlinked {event : UploadEvent} (plan : MovePlan) (hstage : state.job.stage = .unlinking plan) :
      UploadMove config digest state event
        ((state.unlink state.job.tempFilePath).goOn (.persisting plan))
  | persisted (plan : MovePlan) (createdAt : String) (fault : Option TransactionFault)
      (committed : Database) (row : Option ResourceRow) (stage : UploadStage)
      (hstage : state.job.stage = .persisting plan)
      (hcommitted : ResourceRepository.createWithManifest
        (uploadParams plan.resourceId state.job.sessionId state.job.safeFileName plan.finalFilePath
          plan.manifestResult) plan.manifestResult.chunks createdAt state.db = .ok (committed, row))
      (hafter : stage.plan? = none) :
      UploadMove config digest state (.persisted createdAt fault)
        ⟨committed, state.storage, { state.job with stage := stage }⟩

theorem SameBut.refl (changed : List String) (storage : Storage) :
    SameBut changed storage storage := fun _ _ ↦ rfl

/-- An upload that goes on without touching a file. -/
theorem UploadMove.step {event : UploadEvent} {stage : UploadStage} (hstage : stage.plan? = none) :
    UploadMove config digest state event (state.goOn stage) :=
  .scratch state.storage stage (SameBut.refl _ _) hstage

theorem planned_move (buffers : List Bytes) (randomBytes : Bytes)
    (hcontent : state.storage.get? state.job.tempFilePath = some buffers.flatten) :
    UploadMove config digest state (.generated buffers randomBytes)
      (planned config (slicedManifest digest CHUNK_SIZE_BYTES buffers.flatten) randomBytes
        state) := by
  unfold planned
  simp only
  split
  · exact .step rfl
  · split
    · exact .step rfl
    · exact .planned buffers randomBytes _ hcontent rfl rfl rfl

theorem persist_move {plan : MovePlan} (createdAt : String) (fault : Option TransactionFault)
    (hstage : state.job.stage = .persisting plan) :
    UploadMove config digest state (.persisted createdAt fault)
      (persist plan createdAt fault state) := by
  unfold persist
  split
  · exact .step rfl
  · split
    · exact .step rfl
    · next committed row hcommitted =>
      simp only
      split
      · exact .persisted plan createdAt _ committed row _ hstage hcommitted rfl
      · exact .persisted plan createdAt _ committed row _ hstage hcommitted rfl
      · exact .persisted plan createdAt _ committed _ _ hstage hcommitted rfl
      · exact .persisted plan createdAt _ committed _ _ hstage hcommitted rfl

/-- Every step of an upload is one of the moves. -/
theorem uploadStep_move (config : UploadConfig) (digest : Bytes → Bytes) (state : UploadState)
    (event : UploadEvent) :
    UploadMove config digest state event (uploadStep config digest state event) := by
  have htemp : ∀ content : Bytes, SameBut [state.job.tempFilePath] state.storage
      (state.storage.set state.job.tempFilePath content) := fun content ↦
    (SameBut.refl _ _).set List.mem_cons_self content
  have hgone : SameBut [state.job.tempFilePath] state.storage
      (state.storage.delete state.job.tempFilePath) := (SameBut.refl _ _).delete List.mem_cons_self
  have htransition := uploadStep_transition config digest state event
  generalize uploadStep config digest state event = next at htransition ⊢
  cases htransition with
  | ignored => exact .idle
  | opened => exact .scratch _ _ (htemp []) rfl
  | received bytesWritten data content => exact .scratch _ _ (htemp (content ++ data)) rfl
  | ended =>
    unfold saved
    split
    · exact .step rfl
    · exact .step rfl
  | generated buffers randomBytes hstage hcontent => exact planned_move _ _ hcontent
  | renamed plan content hstage hcontent =>
    refine .placed plan content _ _ (.inl hstage) hcontent (OrderedMap.get?_set_self _ _ _) ?_
      (.inr rfl)
    exact (hgone.mono (by simp)).set (by simp) content
  | crossDevice plan hstage => exact .copying plan hstage
  | copied plan data content hstage =>
    exact .copied plan _ hstage ((SameBut.refl _ _).set List.mem_cons_self data)
  | uncopied plan hstage =>
    exact .copied plan _ hstage ((SameBut.refl _ _).delete List.mem_cons_self)
  | copyEnded plan content hstage hcontent =>
    exact .placed plan content _ _ (.inr hstage) hcontent (OrderedMap.get?_set_self _ _ _)
      ((SameBut.refl _ _).set (by simp) content) (.inl rfl)
  | unlinked plan hstage => exact .unlinked plan hstage
  | persisted plan createdAt fault hstage => exact persist_move createdAt fault hstage
  | failed | deleteFailed => exact .step rfl
  | deleted =>
    split_ifs
    · exact .scratch _ _ hgone rfl
    · exact .step rfl

/-- An upload keeps the path of its temporary file. -/
theorem UploadMove.tempFilePath {event : UploadEvent} {next : UploadState}
    (hmove : UploadMove config digest state event next) :
    next.job.tempFilePath = state.job.tempFilePath := by
  cases hmove <;> rfl

/-- A plan is the one that there was, or a new one with a random id. -/
theorem UploadMove.plan_cases {event : UploadEvent} {next : UploadState}
    (hmove : UploadMove config digest state event next) {plan : MovePlan}
    (hplan : next.job.stage.plan? = some plan) :
    state.job.stage.plan? = some plan ∨
      ∃ buffers randomBytes, event = .generated buffers randomBytes ∧
        plan.resourceId = resourceIdOf randomBytes := by
  have hnone : ∀ {stage : UploadStage}, stage.plan? = none → stage.plan? = some plan → False :=
    fun hstage hsome ↦ by simp [hstage] at hsome
  cases hmove with
  | idle => exact .inl hplan
  | scratch storage stage hsame hstage => exact (hnone hstage hplan).elim
  | planned buffers randomBytes new hcontent hmanifest hid hpath =>
    obtain rfl : new = plan := Option.some.inj hplan
    exact .inr ⟨buffers, randomBytes, rfl, hid⟩
  | copying old hstage =>
    obtain rfl : old = plan := Option.some.inj hplan
    exact .inl (by rw [hstage]; rfl)
  | copied old storage hstage hsame => exact .inl hplan
  | placed old content storage stage hbefore hcontent hfile hsame hafter =>
    have hold : stage.plan? = some old := by rcases hafter with rfl | rfl <;> rfl
    obtain rfl : old = plan := Option.some.inj (hold.symm.trans hplan)
    exact .inl (by rcases hbefore with hstage | hstage <;> rw [hstage] <;> rfl)
  | unlinked old hstage =>
    obtain rfl : old = plan := Option.some.inj hplan
    exact .inl (by rw [hstage]; rfl)
  | persisted old createdAt fault committed row stage hstage hcommitted hafter =>
    exact (hnone hafter hplan).elim

/-- The files that an upload may touch: its temporary file and that of its plan. -/
def UploadJob.ownFiles (job : UploadJob) : List String :=
  job.tempFilePath :: (job.stage.plan?.map MovePlan.finalFilePath).toList

theorem UploadMove.files {event : UploadEvent} {next : UploadState}
    (hmove : UploadMove config digest state event next) :
    SameBut state.job.ownFiles state.storage next.storage := by
  have htemp : [state.job.tempFilePath] ⊆ state.job.ownFiles := by simp [UploadJob.ownFiles]
  have hplan : ∀ {plan : MovePlan}, state.job.stage.plan? = some plan →
      [state.job.tempFilePath, plan.finalFilePath] ⊆ state.job.ownFiles := fun hstage ↦ by
    simp [UploadJob.ownFiles, hstage]
  cases hmove with
  | idle | planned | copying | persisted => exact SameBut.refl _ _
  | scratch storage stage hsame => exact hsame.mono htemp
  | copied plan storage hstage hsame =>
    have hstage : state.job.stage.plan? = some plan := by rw [hstage]; rfl
    exact hsame.mono fun path hmem ↦ hplan hstage (List.mem_cons_of_mem _ hmem)
  | placed plan content storage stage hbefore hcontent hfile hsame =>
    have hstage : state.job.stage.plan? = some plan := by
      rcases hbefore with hstage | hstage <;> rw [hstage] <;> rfl
    exact hsame.mono (hplan hstage)
  | unlinked => exact ((SameBut.refl _ _).delete List.mem_cons_self).mono htemp

/-- The tables change when the transaction of an upload commits, and nothing else changes then. -/
theorem UploadMove.tables {event : UploadEvent} {next : UploadState}
    (hmove : UploadMove config digest state event next) :
    next.db = state.db ∨ ∃ plan createdAt fault row, event = .persisted createdAt fault ∧
      state.job.stage = .persisting plan ∧
      ResourceRepository.createWithManifest
        (uploadParams plan.resourceId state.job.sessionId state.job.safeFileName plan.finalFilePath
          plan.manifestResult) plan.manifestResult.chunks createdAt state.db = .ok (next.db, row) ∧
      next.storage = state.storage ∧ next.job.stage.plan? = none := by
  cases hmove with
  | persisted plan createdAt fault committed row stage hstage hcommitted hafter =>
    exact .inr ⟨plan, createdAt, fault, row, rfl, hstage, hcommitted, rfl, hafter⟩
  | _ => exact .inl rfl

/-! ### Uploads under way -/

/-- Where the content of a planned resource lies. -/
def UploadJob.contentPath (job : UploadJob) (plan : MovePlan) : String :=
  match job.stage with
  | .unlinking _ | .persisting _ => plan.finalFilePath
  | _ => job.tempFilePath

/-- A planned resource is new, and its content is where it should be. -/
def JobSound (config : UploadConfig) (digest : Bytes → Bytes) (db : Database) (storage : Storage)
    (job : UploadJob) : Prop :=
  ∀ plan, job.stage.plan? = some plan →
    plan.finalFilePath = finalFilePath config plan.resourceId ∧
      db.resources.has plan.resourceId = false ∧
      ∃ content, plan.manifestResult = slicedManifest digest CHUNK_SIZE_BYTES content ∧
        storage.get? (job.contentPath plan) = some content

theorem jobSound_of_none {db : Database} {storage : Storage} {job : UploadJob}
    (hnone : job.stage.plan? = none) : JobSound config digest db storage job :=
  fun plan hplan ↦ by simp [hnone] at hplan

/-- An upload that goes on stays sound by its own files. -/
theorem UploadMove.jobSound {event : UploadEvent} {next : UploadState}
    (hmove : UploadMove config digest state event next)
    (hsound : JobSound config digest state.db state.storage state.job)
    (hfresh : ∀ buffers randomBytes, event = .generated buffers randomBytes →
      state.db.resources.has (resourceIdOf randomBytes) = false)
    (hapart : ∀ resourceId, finalFilePath config resourceId ≠ state.job.tempFilePath) :
    JobSound config digest next.db next.storage next.job := by
  cases hmove with
  | idle => exact hsound
  | scratch storage stage hsame hstage => exact jobSound_of_none hstage
  | planned buffers randomBytes new hcontent hmanifest hid hpath =>
    intro plan hplan
    obtain rfl : new = plan := Option.some.inj hplan
    exact ⟨hpath, hid ▸ hfresh buffers randomBytes rfl, buffers.flatten, hmanifest, hcontent⟩
  | copying old hstage =>
    intro plan hplan
    obtain rfl : old = plan := Option.some.inj hplan
    have hold := hsound old (by rw [hstage]; rfl)
    simp only [UploadJob.contentPath, hstage] at hold
    exact hold
  | copied old storage hstage hsame =>
    intro plan hplan
    have hplan' : state.job.stage.plan? = some plan := hplan
    obtain rfl : old = plan := by rw [hstage] at hplan'; exact Option.some.inj hplan'
    obtain ⟨hpath, hnew, content, hmanifest, hcontent⟩ := hsound old hplan'
    refine ⟨hpath, hnew, content, hmanifest, ?_⟩
    simp only [UploadJob.contentPath, hstage] at hcontent ⊢
    rw [hsame _ ?_]
    · exact hcontent
    · rw [List.mem_singleton, hpath]
      exact (hapart _).symm
  | placed old content storage stage hbefore hcontent hfile hsame hafter =>
    intro plan hplan
    have hold : stage.plan? = some old := by rcases hafter with rfl | rfl <;> rfl
    obtain rfl : old = plan := Option.some.inj (hold.symm.trans hplan)
    have hsource : state.job.contentPath old = state.job.tempFilePath := by
      rcases hbefore with hstage | hstage <;> simp only [UploadJob.contentPath, hstage]
    obtain ⟨hpath, hnew, found, hmanifest, hfound⟩ :=
      hsound old (by rcases hbefore with hstage | hstage <;> rw [hstage] <;> rfl)
    rw [hsource, hcontent] at hfound
    obtain rfl := Option.some.inj hfound
    refine ⟨hpath, hnew, content, hmanifest, ?_⟩
    rcases hafter with rfl | rfl
    · exact hfile
    · exact hfile
  | unlinked old hstage =>
    intro plan hplan
    obtain rfl : old = plan := Option.some.inj hplan
    obtain ⟨hpath, hnew, content, hmanifest, hcontent⟩ := hsound old (by rw [hstage]; rfl)
    simp only [UploadJob.contentPath, hstage] at hcontent
    refine ⟨hpath, hnew, content, hmanifest, ?_⟩
    change (state.storage.delete state.job.tempFilePath).get? old.finalFilePath = some content
    rw [OrderedMap.get?_delete_of_ne _ (by rw [hpath]; exact hapart _)]
    exact hcontent
  | persisted old createdAt fault committed row stage hstage hcommitted hafter =>
    exact jobSound_of_none hafter

end Moves

/-- What a transaction stores of a file that is in its place can be served. -/
theorem servable_of_committed {digest : Bytes → Bytes} {db committed : Database}
    {storage : Storage} {resourceId sessionId safeFileName path createdAt : String}
    {content : Bytes} {row : Option ResourceRow}
    (hcommitted : ResourceRepository.createWithManifest
      (uploadParams resourceId sessionId safeFileName path
        (slicedManifest digest CHUNK_SIZE_BYTES content))
      (slicedManifest digest CHUNK_SIZE_BYTES content).chunks createdAt db = .ok (committed, row))
    (hfile : storage.get? path = some content) :
    Servable digest committed storage (ResourceRepository.rowOf
      (uploadParams resourceId sessionId safeFileName path
        (slicedManifest digest CHUNK_SIZE_BYTES content)) createdAt) := by
  obtain ⟨hfresh, -, -, hentries⟩ := ResourceRepository.createWithManifest_tables hcommitted
  have hrows : committed.chunkManifests.entries = db.chunkManifests.entries ++
      (List.range (sliceCount CHUNK_SIZE_BYTES content.length)).map fun index ↦
        ((resourceId, index), hexText (digest (slice CHUNK_SIZE_BYTES content index))) := by
    rw [hentries, slicedManifest, List.map_map]
    rfl
  refine ⟨content, hfile, rfl, rfl, fun index hash ↦ ?_⟩
  have hunused : db.chunkManifests.get? (resourceId, index) = none :=
    OrderedMap.get?_eq_none_iff.mpr (ResourceRepository.not_mem_keys_of_fresh hfresh index)
  change committed.chunkManifests.get? (resourceId, index) = some hash ↔
    index < sliceCount CHUNK_SIZE_BYTES content.length ∧
      hash = hexText (digest (slice CHUNK_SIZE_BYTES content index))
  rw [ResourceRepository.mem_appended hrows, hunused]
  simp [eq_comm]

/-! ### The catalog -/

/-- The files of different resources are different. -/
theorem finalFilePath_inj (config : UploadConfig) {resourceId other : String}
    (heq : finalFilePath config resourceId = finalFilePath config other) : resourceId = other := by
  have hchars := congrArg String.toList heq
  simp only [finalFilePath, String.toList_append, List.append_cancel_left_eq,
    List.append_cancel_right_eq] at hchars
  exact String.toList_injective hchars

/-- The invariant of the server with its uploads and deletions. -/
structure CatalogSound (setting : ServerSetting ν) (state : CatalogState ν) : Prop where
  rows : ∀ id row, state.db.resources.get? id = some row →
    row.storagePath = finalFilePath setting.config id ∧
      Servable setting.digest state.db state.storage row
  temps : ∀ call job, state.server.uploads.get? call = some job →
    ∃ randomUUID, job.tempFilePath = tempFilePath setting.config randomUUID
  jobs : ∀ call job, state.server.uploads.get? call = some job →
    JobSound setting.config setting.digest state.db state.storage job
  temps_inj : ∀ call other job otherJob, state.server.uploads.get? call = some job →
    state.server.uploads.get? other = some otherJob → job.tempFilePath = otherJob.tempFilePath →
      call = other
  plans_inj : ∀ call other job otherJob plan otherPlan,
    state.server.uploads.get? call = some job → state.server.uploads.get? other = some otherJob →
      job.stage.plan? = some plan → otherJob.stage.plan? = some otherPlan →
        plan.resourceId = otherPlan.resourceId → call = other
  deletions : ∀ call pending, state.deletions.get? call = some pending →
    pending.storagePath = finalFilePath setting.config pending.resourceId ∧
      state.db.resources.has pending.resourceId = false ∧
      ∀ uploadCall job plan, state.server.uploads.get? uploadCall = some job →
        job.stage.plan? = some plan → plan.resourceId ≠ pending.resourceId

namespace CatalogSound

variable {setting : ServerSetting ν} {state : CatalogState ν}

/-- A row can be served as long as its chunks and its file stay. -/
theorem servable_of_same {digest : Bytes → Bytes} {db next : Database} {storage after : Storage}
    {row : ResourceRow} (hservable : Servable digest db storage row)
    (hfile : after.get? row.storagePath = storage.get? row.storagePath)
    (hchunks : ∀ index, next.chunkManifests.get? (row.id, index) =
      db.chunkManifests.get? (row.id, index)) : Servable digest next after row := by
  obtain ⟨content, hcontent, hsize, htotal, hrows⟩ := hservable
  refine ⟨content, hfile.trans hcontent, hsize, htotal, fun index hash ↦ ?_⟩
  rw [hchunks index]
  exact hrows index hash

/-- What only changes sessions, or drops calls, keeps the invariant. -/
theorem congr (hsound : CatalogSound setting state) {next : CatalogState ν}
    (hresources : next.db.resources = state.db.resources)
    (hchunks : next.db.chunkManifests = state.db.chunkManifests)
    (hstorage : next.storage = state.storage)
    (huploads : ∀ call job, next.server.uploads.get? call = some job →
      state.server.uploads.get? call = some job)
    (hdeletions : ∀ call pending, next.deletions.get? call = some pending →
      state.deletions.get? call = some pending) : CatalogSound setting next where
  rows id row hrow := by
    rw [hresources] at hrow
    obtain ⟨hpath, hservable⟩ := hsound.rows id row hrow
    exact ⟨hpath, servable_of_same hservable (by rw [hstorage]) fun index ↦ by rw [hchunks]⟩
  temps call job hjob := hsound.temps call job (huploads call job hjob)
  jobs call job hjob plan hplan := by
    rw [hresources, hstorage]
    exact hsound.jobs call job (huploads call job hjob) plan hplan
  temps_inj call other job otherJob hjob hother :=
    hsound.temps_inj call other job otherJob (huploads _ _ hjob) (huploads _ _ hother)
  plans_inj call other job otherJob plan otherPlan hjob hother :=
    hsound.plans_inj call other job otherJob plan otherPlan (huploads _ _ hjob)
      (huploads _ _ hother)
  deletions call pending hpending := by
    obtain ⟨hpath, hgone, hapart⟩ := hsound.deletions call pending
      (hdeletions call pending hpending)
    refine ⟨hpath, hresources ▸ hgone, fun uploadCall job plan hjob ↦ ?_⟩
    exact hapart uploadCall job plan (huploads uploadCall job hjob)

/-- The server starts with what can be served. -/
theorem new {db : Database} {storage : Storage}
    (hstored : ∀ id row, db.resources.get? id = some row →
      row.storagePath = finalFilePath setting.config id ∧ Servable setting.digest db storage row) :
    CatalogSound setting (CatalogState.new db storage) where
  rows := hstored
  temps call job hjob := by simp [CatalogState.new, ServerState.new] at hjob
  jobs call job hjob := by simp [CatalogState.new, ServerState.new] at hjob
  temps_inj call other job otherJob hjob := by simp [CatalogState.new, ServerState.new] at hjob
  plans_inj call other job otherJob plan otherPlan hjob := by
    simp [CatalogState.new, ServerState.new] at hjob
  deletions call pending hpending := by simp [CatalogState.new] at hpending

/-! ### Deletions -/

/-- The row of a resource goes, with its chunks. -/
theorem deleteRow (hsound : CatalogSound setting state) {resourceId : String} {row : ResourceRow}
    (hrow : state.db.resources.get? resourceId = some row) (call : ℕ) :
    CatalogSound setting
      ⟨state.server.setDb (ResourceRepository.delete resourceId state.db).1,
        state.deletions.set call ⟨resourceId, row.storagePath⟩⟩ where
  rows id other hother := by
    change (state.db.resources.delete resourceId).get? id = some other at hother
    rw [OrderedMap.get?_delete] at hother
    split_ifs at hother with hsame
    obtain ⟨hpath, hservable⟩ := hsound.rows id other hother
    refine ⟨hpath, servable_of_same hservable rfl fun index ↦ ?_⟩
    have hkept : other.id ≠ resourceId := (state.db.resource_key id other hother).symm ▸ hsame
    change (state.db.chunkManifests.filter _).get? _ = _
    rw [OrderedMap.get?_filter, if_pos (decide_eq_true hkept)]
  temps := hsound.temps
  jobs uploadCall job hjob plan hplan := by
    obtain ⟨hpath, hnew, hcontent⟩ := hsound.jobs uploadCall job hjob plan hplan
    refine ⟨hpath, ?_, hcontent⟩
    change (state.db.resources.delete resourceId).has plan.resourceId = false
    rw [OrderedMap.has_delete, hnew, Bool.and_false]
  temps_inj := hsound.temps_inj
  plans_inj := hsound.plans_inj
  deletions other pending hpending := by
    have hgone : ∀ id, (state.db.resources.delete resourceId).has id =
        (!decide (id = resourceId) && state.db.resources.has id) := state.db.resources.has_delete _
    change (state.deletions.set call _).get? other = some pending at hpending
    rw [OrderedMap.get?_set] at hpending
    split_ifs at hpending with hsame
    · obtain rfl := Option.some.inj hpending
      refine ⟨(hsound.rows resourceId row hrow).1, (hgone resourceId).trans (by simp), ?_⟩
      intro uploadCall job plan hjob hplan heq
      have hnew := (hsound.jobs uploadCall job hjob plan hplan).2.1
      rw [heq, OrderedMap.has, hrow] at hnew
      exact absurd hnew (by simp)
    · obtain ⟨hpath, hbefore, hapart⟩ := hsound.deletions other pending hpending
      exact ⟨hpath, (hgone _).trans (by rw [hbefore, Bool.and_false]), hapart⟩

/-- A request to delete a resource. -/
theorem requestDeletion (hsound : CatalogSound setting state) (call : ℕ) (resourceId : String)
    (userRole : UserRole) (userSessionId : String) :
    CatalogSound setting (requestDeletion call resourceId userRole userSessionId state) := by
  have hkept : CatalogSound setting { state with server := state.server.setDb state.db } :=
    hsound.congr rfl rfl rfl (fun _ _ h ↦ h) fun _ _ h ↦ h
  unfold Server.requestDeletion deleteResource
  split_ifs with hcall hrole
  · exact hsound
  · exact hkept
  · cases hrow : ResourceRepository.findById resourceId state.db with
    | none => exact hkept
    | some row =>
      simp only
      split_ifs with hsession
      · exact hkept
      · exact hsound.deleteRow hrow call

/-- The file of a deleted resource is nobody else's. -/
theorem continueDeletion (hsound : CatalogSound setting state) (call : ℕ) (fault : Option JsError) :
    CatalogSound setting (continueDeletion setting call fault state) := by
  unfold Server.continueDeletion
  cases hpending : state.deletions.get? call with
  | none => exact hsound
  | some pending =>
    obtain ⟨hpath, hgone, hapart⟩ := hsound.deletions call pending hpending
    have hdropped : ∀ other found, (state.deletions.delete call).get? other = some found →
        state.deletions.get? other = some found := by
      intro other found hfound
      rw [OrderedMap.get?_delete] at hfound
      split_ifs at hfound
      exact hfound
    have hfiles : ∀ path, path ≠ pending.storagePath →
        (resolveDeletion setting.config.within pending fault state.storage).1.get? path =
          state.storage.get? path := by
      intro path hne
      unfold resolveDeletion LocalDiskStorageProvider.delete
      simp only
      split
      · rfl
      · split
        · rfl
        · exact OrderedMap.get?_delete_of_ne _ hne
    constructor
    case rows =>
      intro id row hrow
      obtain ⟨hown, hservable⟩ := hsound.rows id row hrow
      refine ⟨hown, servable_of_same hservable (hfiles _ fun heq ↦ ?_) fun _ ↦ rfl⟩
      rw [hown, hpath] at heq
      have hthere : state.db.resources.has id = true := OrderedMap.has_iff_exists.mpr ⟨row, hrow⟩
      rw [finalFilePath_inj _ heq, hgone] at hthere
      exact Bool.false_ne_true hthere
    case temps => exact hsound.temps
    case jobs =>
      intro uploadCall job hjob plan hplan
      obtain ⟨hown, hnew, content, hmanifest, hcontent⟩ :=
        hsound.jobs uploadCall job hjob plan hplan
      refine ⟨hown, hnew, content, hmanifest, (hfiles _ fun heq ↦ ?_).trans hcontent⟩
      obtain ⟨randomUUID, htemp⟩ := hsound.temps uploadCall job hjob
      unfold UploadJob.contentPath at heq
      split at heq
      · rw [hown, hpath] at heq
        exact hapart uploadCall job plan hjob hplan (finalFilePath_inj _ heq)
      · rw [hown, hpath] at heq
        exact hapart uploadCall job plan hjob hplan (finalFilePath_inj _ heq)
      · rw [htemp, hpath] at heq
        exact finalFilePath_ne_tempFilePath _ _ _ heq.symm
    case temps_inj => exact hsound.temps_inj
    case plans_inj => exact hsound.plans_inj
    case deletions =>
      exact fun other found hfound ↦ hsound.deletions other found (hdropped other found hfound)

/-! ### Uploads -/

section Uploads

variable {call : ℕ} {job : UploadJob} {event : UploadEvent} {next : UploadState}

/-- The state after a call of `processUpload` went on. -/
def afterUpload (state : CatalogState ν) (call : ℕ) (next : UploadState) : CatalogState ν :=
  { state with
    server := { state.server.setDb next.db with
      storage := next.storage
      uploads := state.server.uploads.set call next.job } }

theorem get?_afterUpload {other : ℕ} {found : UploadJob}
    (hfound : (afterUpload state call next).server.uploads.get? other = some found) :
    other = call ∧ found = next.job ∨
      other ≠ call ∧ state.server.uploads.get? other = some found := by
  change (state.server.uploads.set call next.job).get? other = some found at hfound
  rw [OrderedMap.get?_set] at hfound
  split_ifs at hfound with hsame
  · exact .inl ⟨hsame, (Option.some.inj hfound).symm⟩
  · exact .inr ⟨hsame, hfound⟩

variable (hsound : CatalogSound setting state) (hjob : state.server.uploads.get? call = some job)
  (hmove : UploadMove setting.config setting.digest ⟨state.db, state.storage, job⟩ event next)

include hsound hjob hmove

omit hsound hjob in
/-- An id stays free unless it is that of the upload. -/
theorem has_afterUpload {resourceId : String} (hfree : state.db.resources.has resourceId = false)
    (hother : ∀ plan, job.stage.plan? = some plan → plan.resourceId ≠ resourceId) :
    next.db.resources.has resourceId = false := by
  rcases hmove.tables with hsame | ⟨plan, createdAt, -, row, -, hstage, hcommitted, -, -⟩
  · rw [hsame]
    exact hfree
  · obtain ⟨-, -, hresources, -⟩ := ResourceRepository.createWithManifest_tables hcommitted
    have hstage : job.stage = .persisting plan := hstage
    have hne : resourceId ≠ plan.resourceId := (hother plan (by rw [hstage]; rfl)).symm
    rw [hresources, OrderedMap.has_set]
    change (decide (resourceId = plan.resourceId) || state.db.resources.has resourceId) = false
    rw [hfree, decide_eq_false hne]
    rfl

/-- The file of a resource that is not that of the upload stays. -/
theorem file_afterUpload {resourceId : String}
    (hother : ∀ plan, job.stage.plan? = some plan → plan.resourceId ≠ resourceId) :
    next.storage.get? (finalFilePath setting.config resourceId) =
      state.storage.get? (finalFilePath setting.config resourceId) := by
  refine hmove.files _ fun hmem ↦ ?_
  obtain ⟨randomUUID, htemp⟩ := hsound.temps call job hjob
  rcases List.mem_cons.mp hmem with hpath | hpath
  · exact finalFilePath_ne_tempFilePath _ _ _ (hpath.trans htemp)
  · obtain ⟨plan, hplan, hfile⟩ := Option.map_eq_some_iff.mp (Option.mem_toList.mp hpath)
    have hown := (hsound.jobs call job hjob plan hplan).1
    exact hother plan hplan (finalFilePath_inj _ (hown.symm.trans hfile))

/-- A row that is there keeps what it needs. -/
theorem row_afterUpload {id : String} {row : ResourceRow}
    (hrow : state.db.resources.get? id = some row) :
    row.storagePath = finalFilePath setting.config id ∧
      Servable setting.digest next.db next.storage row := by
  obtain ⟨hpath, hservable⟩ := hsound.rows id row hrow
  have hother : ∀ plan, job.stage.plan? = some plan → plan.resourceId ≠ id := by
    rintro plan hplan rfl
    have hnew := (hsound.jobs call job hjob plan hplan).2.1
    rw [OrderedMap.has, hrow] at hnew
    exact absurd hnew (by simp)
  refine ⟨hpath, servable_of_same hservable ?_ fun index ↦ ?_⟩
  · rw [hpath]
    exact file_afterUpload hsound hjob hmove hother
  · rcases hmove.tables with hsame | ⟨plan, createdAt, -, result, -, hstage, hcommitted, -, -⟩
    · rw [hsame]
    · obtain ⟨-, -, -, hentries⟩ := ResourceRepository.createWithManifest_tables hcommitted
      have hstage : job.stage = .persisting plan := hstage
      have hne := hother plan (by rw [hstage]; rfl)
      have hid : row.id = id := state.db.resource_key id row hrow
      refine Option.ext fun hash ↦ ?_
      rw [← OrderedMap.mem_entries_iff, ← OrderedMap.mem_entries_iff, hentries, List.mem_append]
      refine or_iff_left fun hmem ↦ ?_
      obtain ⟨chunk, -, hchunk⟩ := List.mem_map.mp hmem
      exact hne ((congrArg (fun entry ↦ entry.1.1) hchunk).trans hid)

/-- The row that an upload inserts can be served. -/
theorem newRow_afterUpload {id : String} {row : ResourceRow}
    (habsent : state.db.resources.get? id = none) (hrow : next.db.resources.get? id = some row) :
    row.storagePath = finalFilePath setting.config id ∧
      Servable setting.digest next.db next.storage row := by
  rcases hmove.tables with hsame | ⟨plan, createdAt, -, result, -, hstage, hcommitted, hstorage, -⟩
  · rw [hsame, habsent] at hrow
    exact absurd hrow (by simp)
  have hstage : job.stage = .persisting plan := hstage
  obtain ⟨hpath, -, content, hmanifest, hcontent⟩ :=
    hsound.jobs call job hjob plan (by rw [hstage]; rfl)
  simp only [UploadJob.contentPath, hstage] at hcontent
  rw [hmanifest] at hcommitted
  obtain ⟨-, -, hresources, -⟩ := ResourceRepository.createWithManifest_tables hcommitted
  rw [hresources, OrderedMap.get?_set] at hrow
  split_ifs at hrow with hid
  · obtain rfl : _ = row := Option.some.inj hrow
    have hid : id = plan.resourceId := hid
    exact ⟨hid ▸ hpath, servable_of_committed hcommitted (by rw [hstorage]; exact hcontent)⟩
  · change state.db.resources.get? id = some row at hrow
    rw [habsent] at hrow
    exact absurd hrow (by simp)

/-- A plan of the upload is apart from the plans and deletions of other calls. -/
theorem plan_afterUpload
    (hunused : ∀ buffers randomBytes, event = .generated buffers randomBytes →
      Unused state (resourceIdOf randomBytes)) {plan : MovePlan}
    (hplan : next.job.stage.plan? = some plan) :
    (∀ other found foundPlan, other ≠ call → state.server.uploads.get? other = some found →
        found.stage.plan? = some foundPlan → foundPlan.resourceId ≠ plan.resourceId) ∧
      ∀ other pending, state.deletions.get? other = some pending →
        plan.resourceId ≠ pending.resourceId := by
  rcases hmove.plan_cases hplan with hold | ⟨buffers, randomBytes, hevent, hid⟩
  · refine ⟨fun other found foundPlan hne hfound hfoundPlan heq ↦ hne ?_,
      fun other pending hpending ↦ ?_⟩
    · exact hsound.plans_inj other call found job foundPlan plan hfound hjob hfoundPlan hold heq
    · exact (hsound.deletions other pending hpending).2.2 call job plan hjob hold
  · have hnew := hunused buffers randomBytes hevent
    rw [hid]
    exact ⟨fun other found foundPlan _ ↦ hnew.upload other found foundPlan,
      fun other pending hpending ↦ (hnew.deletion other pending hpending).symm⟩

/-- Another upload finds its content where it was. -/
theorem job_afterUpload {other : ℕ} {found : UploadJob} (hne : other ≠ call)
    (hfound : state.server.uploads.get? other = some found) :
    JobSound setting.config setting.digest next.db next.storage found := by
  intro plan hplan
  obtain ⟨hpath, hnew, content, hmanifest, hcontent⟩ := hsound.jobs other found hfound plan hplan
  have hapart : ∀ ownPlan, job.stage.plan? = some ownPlan → ownPlan.resourceId ≠ plan.resourceId :=
    fun ownPlan hown heq ↦
      hne (hsound.plans_inj other call found job plan ownPlan hfound hjob hplan hown heq.symm)
  refine ⟨hpath, has_afterUpload hmove hnew hapart, content, hmanifest, ?_⟩
  have hfinal : next.storage.get? plan.finalFilePath = state.storage.get? plan.finalFilePath := by
    rw [hpath]
    exact file_afterUpload hsound hjob hmove hapart
  have htemp : next.storage.get? found.tempFilePath = state.storage.get? found.tempFilePath := by
    refine hmove.files _ fun hmem ↦ ?_
    rcases List.mem_cons.mp hmem with hsame | hmem
    · exact hne (hsound.temps_inj other call found job hfound hjob hsame)
    · obtain ⟨ownPlan, hown, hfile⟩ := Option.map_eq_some_iff.mp (Option.mem_toList.mp hmem)
      obtain ⟨randomUUID, hpathOf⟩ := hsound.temps other found hfound
      have hownPath := (hsound.jobs call job hjob ownPlan hown).1
      exact finalFilePath_ne_tempFilePath _ _ _ (hownPath.symm.trans (hfile.trans hpathOf))
  unfold UploadJob.contentPath at hcontent ⊢
  split at hcontent
  · exact hfinal.trans hcontent
  · exact hfinal.trans hcontent
  · exact htemp.trans hcontent

/-- **An upload that goes on.** -/
theorem upload
    (hunused : ∀ buffers randomBytes, event = .generated buffers randomBytes →
      Unused state (resourceIdOf randomBytes)) :
    CatalogSound setting (afterUpload state call next) where
  rows id row hrow := by
    cases hbefore : state.db.resources.get? id with
    | none => exact newRow_afterUpload hsound hjob hmove hbefore hrow
    | some old =>
      have hkept := row_afterUpload hsound hjob hmove hbefore
      have hsame : next.db.resources.get? id = some old := by
        rcases hmove.tables with hsame | ⟨plan, createdAt, -, result, -, hstage, hcommitted, -, -⟩
        · rw [hsame]
          exact hbefore
        · obtain ⟨hnew, -, hresources, -⟩ := ResourceRepository.createWithManifest_tables hcommitted
          have hne : id ≠ plan.resourceId := by
            rintro rfl
            have hnew : state.db.resources.has plan.resourceId = false := hnew
            rw [OrderedMap.has, hbefore] at hnew
            exact absurd hnew (by simp)
          rw [hresources]
          exact (OrderedMap.get?_set_of_ne _ hne _).trans hbefore
      obtain rfl : old = row := Option.some.inj (hsame.symm.trans hrow)
      exact hkept
  temps other found hfound := by
    rcases get?_afterUpload hfound with ⟨-, rfl⟩ | ⟨-, hold⟩
    · obtain ⟨randomUUID, htemp⟩ := hsound.temps call job hjob
      exact ⟨randomUUID, hmove.tempFilePath.trans htemp⟩
    · exact hsound.temps other found hold
  jobs other found hfound := by
    rcases get?_afterUpload hfound with ⟨-, rfl⟩ | ⟨hne, hold⟩
    · refine hmove.jobSound (hsound.jobs call job hjob) (fun buffers randomBytes hevent ↦ ?_) ?_
      · exact (hunused buffers randomBytes hevent).resource
      · intro resourceId heq
        obtain ⟨randomUUID, htemp⟩ := hsound.temps call job hjob
        exact finalFilePath_ne_tempFilePath _ _ _ (heq.trans htemp)
    · exact job_afterUpload hsound hjob hmove hne hold
  temps_inj first second found other hfirst hsecond heq := by
    have hown : next.job.tempFilePath = job.tempFilePath := hmove.tempFilePath
    rcases get?_afterUpload hfirst with ⟨rfl, rfl⟩ | ⟨hne, hold⟩ <;>
      rcases get?_afterUpload hsecond with ⟨rfl, rfl⟩ | ⟨hne', hold'⟩
    · rfl
    · exact hsound.temps_inj _ _ _ _ hjob hold' (hown.symm.trans heq)
    · exact hsound.temps_inj _ _ _ _ hold hjob (heq.trans hown)
    · exact hsound.temps_inj _ _ _ _ hold hold' heq
  plans_inj first second found other plan otherPlan hfirst hsecond hplan hother heq := by
    rcases get?_afterUpload hfirst with ⟨rfl, rfl⟩ | ⟨hne, hold⟩ <;>
      rcases get?_afterUpload hsecond with ⟨rfl, rfl⟩ | ⟨hne', hold'⟩
    · rfl
    · exact absurd heq.symm
        ((plan_afterUpload hsound hjob hmove hunused hplan).1 _ _ _ hne' hold' hother)
    · exact absurd heq
        ((plan_afterUpload hsound hjob hmove hunused hother).1 _ _ _ hne hold hplan)
    · exact hsound.plans_inj _ _ _ _ _ _ hold hold' hplan hother heq
  deletions other pending hpending := by
    obtain ⟨hpath, hgone, hapart⟩ := hsound.deletions other pending hpending
    refine ⟨hpath, has_afterUpload hmove hgone fun plan hplan ↦ hapart call job plan hjob hplan, ?_⟩
    intro uploadCall found plan hfound hplan
    rcases get?_afterUpload hfound with ⟨-, rfl⟩ | ⟨-, hold⟩
    · exact (plan_afterUpload hsound hjob hmove hunused hplan).2 other pending hpending
    · exact hapart uploadCall found plan hold hplan

end Uploads

end CatalogSound

/-! ### What leaves the resources alone -/

section Requests

open ResourceRepository (SameRows)

variable {setting : ServerSetting ν} {now : ℕ} {state : ServerState ν} {event : ServerEvent ν}

theorem insertSession_sameRows (pending : PendingCreation ν) (salt : Bytes) (createdAt : String)
    (db : Database) :
    SameRows db
      (SessionService.insertSession setting.host setting.outside pending salt now createdAt
        db).1 := by
  unfold SessionService.insertSession
  split
  · exact .refl db
  · split
    · exact .refl db
    · next hok => exact ResourceRepository.create_sameRows hok
    · next hok => exact ResourceRepository.create_sameRows hok

/-- An event changes the resources only when an upload goes on. -/
theorem handleServerEvent_sameRows
    (hupload : ∀ call uploadEvent, event ≠ .upload call uploadEvent) :
    SameRows state.hub.db (handleServerEvent setting now state event).hub.db := by
  by_cases hhashed : ∃ call salt createdAt, event = .passcodeHashed call salt createdAt
  · obtain ⟨call, salt, createdAt, rfl⟩ := hhashed
    simp only [handleServerEvent]
    split
    · exact insertSession_sameRows _ _ _ _
    · exact .refl _
  · exact (handleServerEvent_onlyDeactivates
      (fun call salt createdAt heq ↦ hhashed ⟨call, salt, createdAt, heq⟩) hupload).sameRows

/-- A call of `processUpload` begins with no plan, and its temporary file is named by its UUID. -/
theorem processUpload_job (config : UploadConfig) (request : UploadRequest) (randomUUID : String)
    (db : Database) :
    (processUpload config request randomUUID now db).2.stage.plan? = none ∧
      (processUpload config request randomUUID now db).2.tempFilePath =
        tempFilePath config randomUUID := by
  unfold processUpload
  simp only
  split_ifs
  · exact ⟨rfl, rfl⟩
  · split
    · exact ⟨rfl, rfl⟩
    · split
      · exact ⟨rfl, rfl⟩
      · exact ⟨rfl, rfl⟩

/-- An event changes the resources, the files and the uploads only when an upload begins or goes on.
-/
theorem handleServerEvent_kept
    (hbegun : ∀ call request randomUUID, event ≠ .processUpload call request randomUUID)
    (hupload : ∀ call uploadEvent, event ≠ .upload call uploadEvent) :
    SameRows state.hub.db (handleServerEvent setting now state event).hub.db ∧
      (handleServerEvent setting now state event).storage = state.storage ∧
      (handleServerEvent setting now state event).uploads = state.uploads := by
  refine ⟨handleServerEvent_sameRows hupload, ?_⟩
  cases event with
  | hub | passcodeVerified | getSessionInfo | listResources | getManifest | getChunkStream =>
    exact ⟨rfl, rfl⟩
  | createSession =>
    simp only [handleServerEvent]
    split_ifs
    · exact ⟨rfl, rfl⟩
    · split <;> exact ⟨rfl, rfl⟩
  | passcodeHashed =>
    simp only [handleServerEvent]
    split <;> exact ⟨rfl, rfl⟩
  | joinSession =>
    simp only [handleServerEvent]
    split_ifs
    · exact ⟨rfl, rfl⟩
    · split <;> exact ⟨rfl, rfl⟩
  | processUpload call request randomUUID => exact absurd rfl (hbegun call request randomUUID)
  | upload call uploadEvent => exact absurd rfl (hupload call uploadEvent)

end Requests

/-! ### Runs -/

section Runs

variable {setting : ServerSetting ν} {state : CatalogState ν}

/-- A call of `processUpload` begins. -/
theorem CatalogSound.beginUpload (hsound : CatalogSound setting state) (now call : ℕ)
    (request : UploadRequest) {randomUUID : String}
    (hnew : ∀ other job, state.server.uploads.get? other = some job →
      job.tempFilePath ≠ tempFilePath setting.config randomUUID) :
    CatalogSound setting
      { state with
        server := handleServerEvent setting now state.server
          (.processUpload call request randomUUID) } := by
  simp only [handleServerEvent]
  split_ifs with hcall
  · exact hsound
  have hrows :=
    (processUpload_onlyDeactivates setting.config request randomUUID now state.db).sameRows
  obtain ⟨hplan, htemp⟩ := @processUpload_job now setting.config request randomUUID state.db
  have hold : CatalogSound setting
      { state with
        server := state.server.setDb
          (processUpload setting.config request randomUUID now state.db).1 } :=
    hsound.congr hrows.resources hrows.chunkManifests rfl (fun _ _ h ↦ h) fun _ _ h ↦ h
  have hlookup : ∀ {other found}, (state.server.uploads.set call
      (processUpload setting.config request randomUUID now state.db).2).get? other = some found →
        other = call ∧ found = (processUpload setting.config request randomUUID now state.db).2 ∨
          other ≠ call ∧ state.server.uploads.get? other = some found := by
    intro other found hfound
    rw [OrderedMap.get?_set] at hfound
    split_ifs at hfound with hsame
    · exact .inl ⟨hsame, (Option.some.inj hfound).symm⟩
    · exact .inr ⟨hsame, hfound⟩
  have hnone : ∀ {plan : MovePlan}, (processUpload setting.config request randomUUID now
      state.db).2.stage.plan? ≠ some plan := by simp [hplan]
  constructor
  case rows => exact hold.rows
  case temps =>
    intro other found hfound
    rcases hlookup hfound with ⟨-, rfl⟩ | ⟨-, hbefore⟩
    · exact ⟨randomUUID, htemp⟩
    · exact hold.temps other found hbefore
  case jobs =>
    intro other found hfound
    rcases hlookup hfound with ⟨-, rfl⟩ | ⟨-, hbefore⟩
    · exact jobSound_of_none hplan
    · exact hold.jobs other found hbefore
  case temps_inj =>
    intro first second found other hfirst hsecond heq
    rcases hlookup hfirst with ⟨rfl, rfl⟩ | ⟨-, hbefore⟩ <;>
      rcases hlookup hsecond with ⟨rfl, rfl⟩ | ⟨-, hbefore'⟩
    · rfl
    · exact absurd (heq.symm.trans htemp) (hnew _ _ hbefore')
    · exact absurd (heq.trans htemp) (hnew _ _ hbefore)
    · exact hsound.temps_inj _ _ _ _ hbefore hbefore' heq
  case plans_inj =>
    intro first second found other plan otherPlan hfirst hsecond hfoundPlan hotherPlan heq
    rcases hlookup hfirst with ⟨rfl, rfl⟩ | ⟨-, hbefore⟩
    · exact absurd hfoundPlan hnone
    · rcases hlookup hsecond with ⟨rfl, rfl⟩ | ⟨-, hbefore'⟩
      · exact absurd hotherPlan hnone
      · exact hsound.plans_inj _ _ _ _ _ _ hbefore hbefore' hfoundPlan hotherPlan heq
  case deletions =>
    intro other pending hpending
    obtain ⟨hpath, hgone, hapart⟩ := hold.deletions other pending hpending
    refine ⟨hpath, hgone, fun uploadCall found plan hfound hfoundPlan ↦ ?_⟩
    rcases hlookup hfound with ⟨-, rfl⟩ | ⟨-, hbefore⟩
    · exact absurd hfoundPlan hnone
    · exact hapart uploadCall found plan hbefore hfoundPlan

/-- **A step.** With new random names it keeps the invariant. -/
theorem catalogStep_sound (hsound : CatalogSound setting state) {input : CatalogInput ν}
    (hnew : NewNames setting state input) :
    CatalogSound setting (catalogStep setting state input) := by
  obtain ⟨now, event⟩ := input
  cases event with
  | restart =>
    exact hsound.congr rfl rfl rfl
      (fun _ _ h ↦ by simp [catalogStep, CatalogState.new, ServerState.new] at h)
      fun _ _ h ↦ by simp [catalogStep, CatalogState.new] at h
  | deleteResource call resourceId userRole userSessionId =>
    simp only [catalogStep]
    split_ifs
    · exact hsound
    · exact hsound.requestDeletion call resourceId userRole userSessionId
  | unlinked call fault =>
    simp only [catalogStep]
    split_ifs
    · exact hsound
    · exact hsound.continueDeletion call fault
  | server event =>
    simp only [catalogStep, serverStep]
    split_ifs
    · exact hsound
    by_cases hbegun : ∃ call request randomUUID, event = .processUpload call request randomUUID
    · obtain ⟨call, request, randomUUID, rfl⟩ := hbegun
      exact hsound.beginUpload now call request hnew
    by_cases hupload : ∃ call uploadEvent, event = .upload call uploadEvent
    · obtain ⟨call, uploadEvent, rfl⟩ := hupload
      simp only [handleServerEvent]
      cases hjob : state.server.uploads.get? call with
      | none => exact hsound
      | some job =>
        refine hsound.upload hjob
          (uploadStep_move _ _ ⟨state.db, state.storage, job⟩ uploadEvent) ?_
        rintro buffers randomBytes rfl
        exact hnew
    · obtain ⟨hrows, hstorage, huploads⟩ := @handleServerEvent_kept ν setting now state.server event
        (fun call request randomUUID heq ↦ hbegun ⟨call, request, randomUUID, heq⟩)
        fun call uploadEvent heq ↦ hupload ⟨call, uploadEvent, heq⟩
      exact hsound.congr hrows.resources hrows.chunkManifests hstorage
        (fun call job hjob ↦ huploads ▸ hjob) fun _ _ h ↦ h

/-- **Every ready resource can be served.** In every run of uploads and deletions among the other
requests, with new random names, from a state in which the resources are in their places, every
ready row has its file and its chunks in every state that is reached. -/
theorem ready_servable {db : Database} {storage : Storage}
    (hstored : ∀ id row, db.resources.get? id = some row →
      row.storagePath = finalFilePath setting.config id ∧ Servable setting.digest db storage row)
    {inputs : List (CatalogInput ν)}
    (hnew : Along (catalogStep setting) (NewNames setting) (CatalogState.new db storage) inputs) :
    ∀ id row, (catalogRun setting db storage inputs).db.resources.get? id = some row →
      row.status = .ready →
        Servable setting.digest (catalogRun setting db storage inputs).db
          (catalogRun setting db storage inputs).storage row := by
  intro id row hrow _
  have hsound : CatalogSound setting (catalogRun setting db storage inputs) :=
    run_invariant (CatalogSound setting) (fun _ _ hstate hnames ↦ catalogStep_sound hstate hnames)
      (CatalogSound.new hstored) hnew
  exact (hsound.rows id row hrow).2

end Runs

/-! ### Sample run -/

/-- A file is uploaded. -/
def storedRun : List (CatalogInput Rat) :=
  (1, .server (.processUpload 0 sampleRequest "uuid")) ::
    (movedUpload ++ [UploadEvent.persisted "now" none]).map fun event ↦
      (1, .server (.upload 0 event))

/-- Its names are new. -/
theorem newNames_storedRun :
    Along (catalogStep signalingSetting) (NewNames signalingSetting)
      (CatalogState.new classroom OrderedMap.empty) storedRun := by
  have hplans : ((catalogRun signalingSetting classroom OrderedMap.empty
      (storedRun.take 4)).server.uploads.entries.map fun entry ↦ entry.2.stage.plan?) =
        [none] := rfl
  refine ⟨?_, trivial, trivial, trivial, ⟨rfl, ?_, ?_⟩, trivial, trivial, trivial⟩
  · intro call job hjob
    simp [CatalogState.new, ServerState.new] at hjob
  · intro call job plan hjob hplan
    have hmem : job.stage.plan? ∈ ([none] : List (Option MovePlan)) := by
      rw [← hplans]
      exact List.mem_map.mpr ⟨(call, job), OrderedMap.mem_entries_iff.mpr hjob, rfl⟩
    rw [hplan] at hmem
    simp at hmem
  · intro call pending hpending
    change (OrderedMap.empty : OrderedMap ℕ PendingDeletion).get? call = some pending at hpending
    simp at hpending

/-- The file can be served. -/
theorem ready_servable_storedRun :
    Servable id (catalogRun signalingSetting classroom OrderedMap.empty storedRun).db
      (catalogRun signalingSetting classroom OrderedMap.empty storedRun).storage
      ⟨"res_07", "session", "notes.pdf", 3, 262144, 1, "010203", "/storage/resources/res_07.bin",
        .ready, "now"⟩ :=
  ready_servable (fun id row hrow ↦ by simp [classroom] at hrow) newNames_storedRun "res_07"
    _ rfl rfl

end CampusMesh.Server
