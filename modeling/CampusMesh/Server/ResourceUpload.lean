import CampusMesh.Library.Runs
import CampusMesh.Server.ChunkStream
import CampusMesh.Server.RoomManager

/-!
# Uploads

`ResourceService.processUpload`. Its first part checks the request and the session; then it goes on
whenever a promise that it waits for settles: the pipeline that fills the temporary file, the
generator that reads it, the move of the file, and, in its `catch`, the deletion of the temporary
file. The stage of an upload says what it waits for, and an event is what the file system or the
database does next; one that does not fit the stage changes nothing. So a list of events is any
course that an upload can take, with a failure at any step, and a part of it is an upload that was
cut off.

`move` renames the file, and where that is not possible copies it and unlinks the original. A copy
that fails may leave a part of the file, or remove it again.
-/

set_option autoImplicit false
set_option relaxedAutoImplicit false

namespace CampusMesh.Server

open Library Shared

/-! ### Names -/

/-- The settings that an upload reads. -/
structure UploadConfig where
  storageDir : String
  maxResourceSizeMb : ℕ
  within : Confinement

/-- `config.tempStorageDir`. -/
def UploadConfig.tempStorageDir (config : UploadConfig) : String :=
  config.storageDir ++ "/temporary"

/-- `config.resourceStorageDir`. -/
def UploadConfig.resourceStorageDir (config : UploadConfig) : String :=
  config.storageDir ++ "/resources"

/-- A storage directory that every path resolves into. -/
def sampleConfig : UploadConfig := ⟨"/storage", 50, fun _ ↦ true⟩

/-- The temporary file of an upload, named by a random UUID. -/
def tempFilePath (config : UploadConfig) (randomUUID : String) : String :=
  config.tempStorageDir ++ "/" ++ ("temp_" ++ randomUUID ++ ".bin")

/-- The id of a resource, made of random bytes. -/
def resourceIdOf (randomBytes : Bytes) : String := "res_" ++ hexText randomBytes

/-- The file of a resource. -/
def finalFilePath (config : UploadConfig) (resourceId : String) : String :=
  config.resourceStorageDir ++ "/" ++ (resourceId ++ ".bin")

/-- `path.basename`: the part behind the last slash that is not at the end. -/
def basename (text : String) : String :=
  String.ofList ((text.toList.rdropWhile (· = '/')).rtakeWhile (· ≠ '/'))

/-- `ResourceService.sanitizeFilename`. -/
def sanitizeFilename (original : String) : String :=
  if original = "" then "unnamed_resource.bin"
  else
    let cleaned := trim (basename (String.ofList (((original.toList.filter fun char ↦
      char ≠ Char.ofNat 0)).map fun char ↦ if char = '\\' then '/' else char)))
    if cleaned = "" then "unnamed_resource.bin" else cleaned

example : sanitizeFilename "..\\..\\etc/ notes.pdf /" = "notes.pdf" := by decide

/-! ### State -/

/-- The parameters of `processUpload` without the stream. -/
structure UploadRequest where
  sessionId : String
  userRole : UserRole
  userSessionId : String
  originalFileName : String

/-- What an upload has computed when it moves its file. -/
structure MovePlan where
  manifestResult : GeneratedManifestResult
  resourceId : String
  finalFilePath : String

/-- What an upload waits for. -/
inductive UploadStage
  /-- The temporary file, which `saveStream` opens, or its directory. -/
  | opening
  /-- The pipeline of `saveStream`, with the bytes that it has metered. -/
  | saving (bytesWritten : ℕ)
  | generating
  /-- `rename`, or the making of the directory before it. -/
  | moving (plan : MovePlan)
  | copying (plan : MovePlan)
  | unlinking (plan : MovePlan)
  /-- The file has been moved, and the continuation persists the resource. -/
  | persisting (plan : MovePlan)
  /-- The deletion of the temporary file after an error. -/
  | deleting (error : ServiceError)
  | settled (result : Except ServiceError ResourceInfo)

/-- A call of `processUpload`. -/
structure UploadJob where
  sessionId : String
  safeFileName : String
  tempFilePath : String
  stage : UploadStage

/-- A call with the database and the files that it works on. -/
structure UploadState where
  db : Database
  storage : Storage
  job : UploadJob

/-- The first part of `processUpload`; `saveStream` begins with the check of its path. -/
def processUpload (config : UploadConfig) (request : UploadRequest) (randomUUID : String) (now : ℕ)
    (db : Database) : Database × UploadJob :=
  let job (stage : UploadStage) : UploadJob :=
    ⟨request.sessionId, sanitizeFilename request.originalFileName,
    tempFilePath config randomUUID, stage⟩
  if request.userRole ≠ .instructor ∨ request.userSessionId ≠ request.sessionId then
    (db, job (.settled (.error (.http
      ⟨403, "Only the session instructor can upload resources."⟩))))
  else
    match checkSession request.sessionId now db with
    | (db, some error) => (db, job (.settled (.error (.http error))))
    | (db, none) =>
      match assertPathWithinStorage config.within (tempFilePath config randomUUID) with
      | .error error => (db, job (.deleting (.js error)))
      | .ok () => (db, job .opening)

/-! ### Steps -/

/-- How the statements of `createWithManifest` may fail: one up to the COMMIT, so that everything is
rolled back, or the SELECT behind it. -/
inductive TransactionFault
  | aborted (error : JsError)
  | unread (error : JsError)

/-- What the file system or the database does next for an upload. -/
inductive UploadEvent
  /-- The temporary file is opened, or a buffer is written to it, or the pipeline ends. -/
  | opened
  | received (data : Bytes)
  | ended
  /-- The generator has read the file in the given buffers; the random bytes are those of the id. -/
  | generated (buffers : List Bytes) (randomBytes : Bytes)
  | renamed
  /-- `rename` fails with EXDEV. -/
  | crossDevice
  /-- A part of the file has been copied, or what was copied is removed, or the copy is complete. -/
  | copied (data : Bytes)
  | uncopied
  | copyEnded
  | unlinked
  /-- The transaction runs at the given time. -/
  | persisted (createdAt : String) (fault : Option TransactionFault)
  /-- What the upload waits for fails. -/
  | failed (error : JsError)
  | deleted
  | deleteFailed

namespace UploadState

/-- The upload goes on to its next stage. -/
def goOn (stage : UploadStage) (state : UploadState) : UploadState :=
  { state with job := { state.job with stage := stage } }

/-- Puts a file. -/
def write (path : String) (content : Bytes) (state : UploadState) : UploadState :=
  { state with storage := state.storage.set path content }

/-- Removes a file. -/
def unlink (path : String) (state : UploadState) : UploadState :=
  { state with storage := state.storage.delete path }

/-- What `processUpload` throws for a file of a wrong size. -/
def sizeError (config : UploadConfig) (bytesWritten : ℕ) : Option HttpError :=
  if bytesWritten ≤ 0 then some ⟨400, "Empty files are not allowed."⟩
  else if config.maxResourceSizeMb * 1024 * 1024 < bytesWritten then
    some ⟨413, "File size exceeds maximum allowed limit of " ++
      toString config.maxResourceSizeMb ++ " MB."⟩
  else none

/-- The file is saved: it is checked and read again. -/
def saved (config : UploadConfig) (bytesWritten : ℕ) (state : UploadState) : UploadState :=
  match sizeError config bytesWritten with
  | some error => state.goOn (.deleting (.http error))
  | none => state.goOn .generating

/-- The manifest is there: the resource gets its id and its path, and `move` checks both paths. -/
def planned (config : UploadConfig) (manifestResult : GeneratedManifestResult)
    (randomBytes : Bytes) (state : UploadState) : UploadState :=
  let resourceId := resourceIdOf randomBytes
  let path := finalFilePath config resourceId
  match assertPathWithinStorage config.within state.job.tempFilePath with
  | .error error => state.goOn (.deleting (.js error))
  | .ok () =>
    match assertPathWithinStorage config.within path with
    | .error error => state.goOn (.deleting (.js error))
    | .ok () => state.goOn (.moving ⟨manifestResult, resourceId, path⟩)

/-- `createWithManifest` and what `processUpload` returns. -/
def persist (plan : MovePlan) (createdAt : String) (fault : Option TransactionFault)
    (state : UploadState) : UploadState :=
  match fault with
  | some (.aborted error) => state.goOn (.deleting (.js error))
  | _ =>
    match ResourceRepository.createWithManifest
      (uploadParams plan.resourceId state.job.sessionId state.job.safeFileName plan.finalFilePath
        plan.manifestResult) plan.manifestResult.chunks createdAt state.db with
    | .error error => state.goOn (.deleting (.js error))
    | .ok (committed, row) =>
      let state := { state with db := committed }
      match fault, row with
      | some (.unread error), _ | some (.aborted error), _ => state.goOn (.deleting (.js error))
      | none, some row => state.goOn (.settled (.ok (formatResourceInfo row)))
      | none, none => state.goOn (.deleting (.js
        ⟨"TypeError", "Cannot read properties of null (reading 'id')"⟩))

end UploadState

open UploadState

/-- One step of an upload. -/
def uploadStep (config : UploadConfig) (digest : Bytes → Bytes) (state : UploadState)
    (event : UploadEvent) : UploadState :=
  let temp := state.job.tempFilePath
  match state.job.stage, event with
  | .opening, .opened => (state.write temp []).goOn (.saving 0)
  | .saving bytesWritten, .received data =>
    match state.storage.get? temp with
    | some content =>
      (state.write temp (content ++ data)).goOn (.saving (bytesWritten + data.length))
    | none => state
  | .saving bytesWritten, .ended => saved config bytesWritten state
  | .generating, .generated buffers randomBytes =>
    if state.storage.get? temp = some buffers.flatten then
      match generate digest CHUNK_SIZE_BYTES buffers with
      | some manifestResult => planned config manifestResult randomBytes state
      | none => state
    else state
  | .moving plan, .renamed =>
    match state.storage.get? temp with
    | some content => ((state.unlink temp).write plan.finalFilePath content).goOn (.persisting plan)
    | none => state
  | .moving plan, .crossDevice => state.goOn (.copying plan)
  | .copying plan, .copied data =>
    match state.storage.get? temp with
    | some content => if data.isPrefixOf content then state.write plan.finalFilePath data else state
    | none => state
  | .copying plan, .uncopied => state.unlink plan.finalFilePath
  | .copying plan, .copyEnded =>
    match state.storage.get? temp with
    | some content => (state.write plan.finalFilePath content).goOn (.unlinking plan)
    | none => state
  | .unlinking plan, .unlinked => (state.unlink temp).goOn (.persisting plan)
  | .persisting plan, .persisted createdAt fault => persist plan createdAt fault state
  | .opening, .failed error | .saving _, .failed error | .generating, .failed error
  | .moving _, .failed error | .copying _, .failed error | .unlinking _, .failed error =>
    state.goOn (.deleting (.js error))
  | .deleting error, .deleted =>
    if config.within temp then (state.unlink temp).goOn (.settled (.error error))
    else state.goOn (.settled (.error error))
  | .deleting error, .deleteFailed => state.goOn (.settled (.error error))
  | _, _ => state

/-- What it waits for at these stages can fail. -/
def UploadStage.canFail : UploadStage → Bool
  | .opening | .saving _ | .generating | .moving _ | .copying _ | .unlinking _ => true
  | .persisting _ | .deleting _ | .settled _ => false

/-- What a step does: an event does not fit the stage, or it is the one that the stage waits for. -/
inductive UploadTransition (config : UploadConfig) (digest : Bytes → Bytes) (state : UploadState) :
    UploadEvent → UploadState → Prop
  | ignored {event : UploadEvent} : UploadTransition config digest state event state
  | opened (hstage : state.job.stage = .opening) :
      UploadTransition config digest state .opened
        ((state.write state.job.tempFilePath []).goOn (.saving 0))
  | received (bytesWritten : ℕ) (data content : Bytes)
      (hstage : state.job.stage = .saving bytesWritten)
      (hcontent : state.storage.get? state.job.tempFilePath = some content) :
      UploadTransition config digest state (.received data)
        ((state.write state.job.tempFilePath (content ++ data)).goOn
          (.saving (bytesWritten + data.length)))
  | ended (bytesWritten : ℕ) (hstage : state.job.stage = .saving bytesWritten) :
      UploadTransition config digest state .ended (saved config bytesWritten state)
  | generated (buffers : List Bytes) (randomBytes : Bytes) (hstage : state.job.stage = .generating)
      (hcontent : state.storage.get? state.job.tempFilePath = some buffers.flatten) :
      UploadTransition config digest state (.generated buffers randomBytes)
        (planned config (slicedManifest digest CHUNK_SIZE_BYTES buffers.flatten) randomBytes state)
  | renamed (plan : MovePlan) (content : Bytes) (hstage : state.job.stage = .moving plan)
      (hcontent : state.storage.get? state.job.tempFilePath = some content) :
      UploadTransition config digest state .renamed
        (((state.unlink state.job.tempFilePath).write plan.finalFilePath content).goOn
          (.persisting plan))
  | crossDevice (plan : MovePlan) (hstage : state.job.stage = .moving plan) :
      UploadTransition config digest state .crossDevice (state.goOn (.copying plan))
  | copied (plan : MovePlan) (data content : Bytes) (hstage : state.job.stage = .copying plan)
      (hcontent : state.storage.get? state.job.tempFilePath = some content)
      (hpart : data.isPrefixOf content = true) :
      UploadTransition config digest state (.copied data) (state.write plan.finalFilePath data)
  | uncopied (plan : MovePlan) (hstage : state.job.stage = .copying plan) :
      UploadTransition config digest state .uncopied (state.unlink plan.finalFilePath)
  | copyEnded (plan : MovePlan) (content : Bytes) (hstage : state.job.stage = .copying plan)
      (hcontent : state.storage.get? state.job.tempFilePath = some content) :
      UploadTransition config digest state .copyEnded
        ((state.write plan.finalFilePath content).goOn (.unlinking plan))
  | unlinked (plan : MovePlan) (hstage : state.job.stage = .unlinking plan) :
      UploadTransition config digest state .unlinked
        ((state.unlink state.job.tempFilePath).goOn (.persisting plan))
  | persisted (plan : MovePlan) (createdAt : String) (fault : Option TransactionFault)
      (hstage : state.job.stage = .persisting plan) :
      UploadTransition config digest state (.persisted createdAt fault)
        (persist plan createdAt fault state)
  | failed (error : JsError) (hfails : state.job.stage.canFail = true) :
      UploadTransition config digest state (.failed error) (state.goOn (.deleting (.js error)))
  | deleted (error : ServiceError) (hstage : state.job.stage = .deleting error) :
      UploadTransition config digest state .deleted
        (if config.within state.job.tempFilePath then
          (state.unlink state.job.tempFilePath).goOn (.settled (.error error))
        else state.goOn (.settled (.error error)))
  | deleteFailed (error : ServiceError) (hstage : state.job.stage = .deleting error) :
      UploadTransition config digest state .deleteFailed (state.goOn (.settled (.error error)))

/-- Every step is one of these. -/
theorem uploadStep_transition (config : UploadConfig) (digest : Bytes → Bytes) (state : UploadState)
    (event : UploadEvent) :
    UploadTransition config digest state event (uploadStep config digest state event) := by
  unfold uploadStep
  simp only
  split
  · next hstage => exact .opened hstage
  · next bytesWritten data hstage =>
    split
    · next content hcontent => exact .received bytesWritten data content hstage hcontent
    · exact .ignored
  · next bytesWritten hstage => exact .ended bytesWritten hstage
  · next buffers randomBytes hstage =>
    split_ifs with hcontent
    · rw [generate_eq (by decide)]
      exact .generated buffers randomBytes hstage hcontent
    · exact .ignored
  · next plan hstage =>
    split
    · next content hcontent => exact .renamed plan content hstage hcontent
    · exact .ignored
  · next plan hstage => exact .crossDevice plan hstage
  · next plan data hstage =>
    split
    · next content hcontent =>
      split_ifs with hpart
      · exact .copied plan data content hstage hcontent hpart
      · exact .ignored
    · exact .ignored
  · next plan hstage => exact .uncopied plan hstage
  · next plan hstage =>
    split
    · next content hcontent => exact .copyEnded plan content hstage hcontent
    · exact .ignored
  · next plan hstage => exact .unlinked plan hstage
  · next plan createdAt fault hstage => exact .persisted plan createdAt fault hstage
  · next error hstage => exact .failed error (by rw [hstage]; rfl)
  · next error hstage => exact .failed error (by rw [hstage]; rfl)
  · next error hstage => exact .failed error (by rw [hstage]; rfl)
  · next error hstage => exact .failed error (by rw [hstage]; rfl)
  · next error hstage => exact .failed error (by rw [hstage]; rfl)
  · next error hstage => exact .failed error (by rw [hstage]; rfl)
  · next error hstage => exact .deleted error hstage
  · next error hstage => exact .deleteFailed error hstage
  · exact .ignored

/-- An upload from its call on. -/
def uploadRun (config : UploadConfig) (digest : Bytes → Bytes) (request : UploadRequest)
    (randomUUID : String) (now : ℕ) (db : Database) (storage : Storage)
    (events : List UploadEvent) : UploadState :=
  let begun := processUpload config request randomUUID now db
  run (uploadStep config digest) ⟨begun.1, storage, begun.2⟩ events

end CampusMesh.Server
