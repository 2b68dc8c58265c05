import CampusMesh.Server.ServableResources

/-!
# The size limit of uploads

The route of an upload pipes the stream of a file that the multipart plugin gives it. The plugin
ends this stream at its limit, without an error, and sets its `truncated` flag, which nothing reads.
The service compares the bytes that have come with the same limit, so its check can never fail: a
file that is too large is cut, and its first part is stored as if it were the file
(`wholeOrNothing_iff`).
-/

set_option autoImplicit false
set_option relaxedAutoImplicit false

namespace CampusMesh.Server

open Library Shared UploadState

/-! ### The route -/

/-- The part of a multipart request with a file: its name, the bytes that its stream delivers, and
whether the plugin has cut it. -/
structure FilePart where
  filename : String
  file : Bytes
  truncated : Bool

/-- The limit of the plugin and of the service. -/
def UploadConfig.maxBytes (config : UploadConfig) : ℕ := config.maxResourceSizeMb * 1024 * 1024

/-- What the plugin does with the option `limits.fileSize`: the stream delivers the first bytes of
the file up to the limit and ends, and the flag is set when bytes are missing. -/
structure LimitsFileSize (multipart : ℕ → String → Bytes → FilePart) : Prop where
  filename : ∀ limit name original, (multipart limit name original).filename = name
  file : ∀ limit name original, (multipart limit name original).file = original.take limit
  truncated : ∀ limit name original,
    (multipart limit name original).truncated = decide (limit < original.length)

/-- A reply of the route: its status with the resource, or with a title and a message. -/
structure UploadReply where
  statusCode : ℕ
  body : Except (String × String) ResourceInfo

/-- The reply to an error with the given status and message, if it has them. -/
def errorReply (statusCode : ℕ) (message : String) : UploadReply where
  statusCode := if statusCode = 0 then 500 else statusCode
  body := .error
    (if statusCode = 413 then "Payload Too Large"
      else if statusCode = 400 then "Bad Request"
      else "Internal Server Error",
      if message = "" then "Failed to process resource upload." else message)

/-- The reply to a call of `processUpload` that has settled. -/
def uploadReply : Except ServiceError ResourceInfo → UploadReply
  | .ok resource => ⟨201, .ok resource⟩
  | .error (.http error) => errorReply error.statusCode error.message
  | .error (.js error) => errorReply 0 error.message

/-- The request for the part of the user's multipart request with a file, or the reply when there is
none. -/
def postResource (sessionId : String) (user : AuthTokenPayload) (part : Option FilePart) :
    Except UploadReply UploadRequest :=
  match part with
  | none => .error ⟨400, .error ("Bad Request", "No file found in multipart request payload.")⟩
  | some part => .ok ⟨sessionId, user.role, user.sessionId, part.filename⟩

/-! ### The promise -/

/-- A file is stored as the resource that is replied: its size, its bytes, its hash and the hashes
of its slices. -/
def StoredAs (digest : Bytes → Bytes) (original : Bytes) (info : ResourceInfo) (db : Database)
    (storage : Storage) : Prop :=
  ∃ row, db.resources.get? info.id = some row ∧ info = formatResourceInfo row ∧
    row.fileSize = original.length ∧ row.fileHash = hexText (digest original) ∧
    storage.get? row.storagePath = some original ∧ Servable digest db storage row

/-- What a call of `processUpload` for a file should have done when it has settled. -/
structure WholeOrNothing (config : UploadConfig) (digest : Bytes → Bytes) (db : Database)
    (original : Bytes) (result : Except ServiceError ResourceInfo)
    (state : UploadState) : Prop where
  succeeds_iff : (uploadReply result).statusCode = 201 ↔
    0 < original.length ∧ original.length ≤ config.maxBytes
  stored : ∀ info, result = .ok info → StoredAs digest original info state.db state.storage
  rejected : config.maxBytes < original.length →
    (uploadReply result).statusCode = 413 ∧ state.db.resources = db.resources

/-- A step that does not fail. -/
def Faultless : UploadEvent → Prop
  | .failed _ | .deleteFailed | .persisted _ (some _) => False
  | _ => True

/-- The course of an upload whose stream delivers some bytes and in which nothing fails. -/
def Course (content : Bytes) (events : List UploadEvent) : Prop :=
  (∃ (buffers : List Bytes) (rest : List UploadEvent),
    events = .opened :: (buffers.map UploadEvent.received ++ .ended :: rest) ∧
      buffers.flatten = content) ∧
    ∀ event ∈ events, Faultless event

/-! ### Saving -/

section Saving

variable {config : UploadConfig} {digest : Bytes → Bytes} {temp : String} {db : Database}
  {state : UploadState}

/-- Some bytes of the stream have been saved. -/
structure SavedPart (config : UploadConfig) (temp : String) (db : Database) (content : Bytes)
    (state : UploadState) : Prop where
  working : Working config temp db state
  stage : state.job.stage = .saving content.length
  file : state.storage.get? temp = some content

variable (digest) in
/-- The buffers of the stream are saved one after the other. -/
theorem SavedPart.received {content : Bytes} (hsaved : SavedPart config temp db content state)
    (buffers : List Bytes) :
    SavedPart config temp db (content ++ buffers.flatten)
      (run (uploadStep config digest) state (buffers.map .received)) := by
  induction buffers generalizing content state with
  | nil => simpa using hsaved
  | cons data rest ih =>
    have hnext : uploadStep config digest state (.received data) =
        (state.write temp (content ++ data)).goOn (.saving (content.length + data.length)) := by
      simp only [uploadStep, hsaved.stage, hsaved.working.path, hsaved.file]
    have hstep : SavedPart config temp db (content ++ data)
        (uploadStep config digest state (.received data)) := by
      rw [hnext]
      refine ⟨hsaved.working.of_job rfl rfl rfl, ?_, OrderedMap.get?_set_self _ _ _⟩
      rw [List.length_append]
      rfl
    rw [List.map_cons, run_cons, List.flatten_cons, ← List.append_assoc]
    exact ih hstep

/-- An upload that was refused for its size stays refused. -/
def Refused (error : HttpError) (db : Database) (state : UploadState) : Prop :=
  state.db = db ∧ (state.job.stage = .deleting (.http error) ∨
    state.job.stage = .settled (.error (.http error)))

theorem uploadStep_refused {error : HttpError} (hrefused : Refused error db state)
    (event : UploadEvent) : Refused error db (uploadStep config digest state event) := by
  obtain ⟨hdb, hstage | hstage⟩ := hrefused
  · cases event
    case deleted =>
      simp only [uploadStep, hstage]
      split_ifs
      · exact ⟨hdb, .inr rfl⟩
      · exact ⟨hdb, .inr rfl⟩
    case deleteFailed =>
      simp only [uploadStep, hstage]
      exact ⟨hdb, .inr rfl⟩
    all_goals
      simp only [uploadStep, hstage]
      exact ⟨hdb, .inl hstage⟩
  · simp only [uploadStep, hstage]
    exact ⟨hdb, .inr hstage⟩

/-! ### Storing -/

/-- What has been computed for a content. -/
structure PlannedFor (config : UploadConfig) (digest : Bytes → Bytes) (db : Database)
    (content : Bytes) (plan : MovePlan) : Prop where
  manifest : plan.manifestResult = slicedManifest digest CHUNK_SIZE_BYTES content
  resource : db.resources.has plan.resourceId = false
  path : plan.finalFilePath = finalFilePath config plan.resourceId

/-- An upload that has saved a content, and in which nothing fails. -/
def Carries (config : UploadConfig) (digest : Bytes → Bytes) (temp : String) (db : Database)
    (content : Bytes) (state : UploadState) : Prop :=
  match state.job.stage with
  | .generating => Working config temp db state ∧ state.storage.get? temp = some content
  | .moving plan | .copying plan =>
    Working config temp db state ∧ PlannedFor config digest db content plan ∧
      state.storage.get? temp = some content
  | .unlinking plan | .persisting plan =>
    Working config temp db state ∧ PlannedFor config digest db content plan ∧
      state.storage.get? plan.finalFilePath = some content
  | .settled (.ok info) => StoredAs digest content info state.db state.storage
  | _ => False

/-- A file with a manifest gets its place. -/
theorem planned_moving (hworking : Working config temp db state) {randomBytes : Bytes}
    (hwithin : config.within (finalFilePath config (resourceIdOf randomBytes)) = true)
    (manifestResult : GeneratedManifestResult) :
    planned config manifestResult randomBytes state =
      state.goOn (.moving ⟨manifestResult, resourceIdOf randomBytes,
        finalFilePath config (resourceIdOf randomBytes)⟩) := by
  have htemp : config.within state.job.tempFilePath = true := hworking.path ▸ hworking.confined
  simp only [planned, assertPathWithinStorage, htemp, hwithin, if_true]

variable (digest) in
/-- A file that is read as it is gets its manifest and its place. -/
theorem uploadStep_generated {content : Bytes} (hworking : Working config temp db state)
    (hstage : state.job.stage = .generating) (hcontent : state.storage.get? temp = some content)
    {buffers : List Bytes} (hbuffers : buffers.flatten = content) {randomBytes : Bytes}
    (hwithin : config.within (finalFilePath config (resourceIdOf randomBytes)) = true) :
    uploadStep config digest state (.generated buffers randomBytes) =
      state.goOn (.moving ⟨slicedManifest digest CHUNK_SIZE_BYTES content, resourceIdOf randomBytes,
        finalFilePath config (resourceIdOf randomBytes)⟩) := by
  have hread : state.storage.get? state.job.tempFilePath = some buffers.flatten := by
    rw [hworking.path, hcontent, hbuffers]
  have hgenerated := @generate_eq digest CHUNK_SIZE_BYTES (by decide) buffers
  rw [hbuffers] at hgenerated
  simp only [uploadStep, hstage]
  rw [if_pos hread, hgenerated]
  exact planned_moving hworking hwithin _

theorem goOn_goOn (first second : UploadStage) :
    (state.goOn first).goOn second = state.goOn second := rfl

variable (config digest) in
/-- A file that is renamed is in its place. -/
theorem uploadStep_renamed {plan : MovePlan} {content : Bytes}
    (hstage : state.job.stage = .moving plan)
    (hcontent : state.storage.get? state.job.tempFilePath = some content) :
    uploadStep config digest state .renamed =
      ((state.unlink state.job.tempFilePath).write plan.finalFilePath content).goOn
        (.persisting plan) := by
  simp only [uploadStep, hstage, hcontent]

/-- The transaction of a content that is in its place stores it. -/
theorem persist_stored {content : Bytes} {plan : MovePlan} (hworking : Working config temp db state)
    (hplan : PlannedFor config digest db content plan)
    (hfile : state.storage.get? plan.finalFilePath = some content) (createdAt : String) :
    ∃ info, (persist plan createdAt none state).job.stage = .settled (.ok info) ∧
      StoredAs digest content info (persist plan createdAt none state).db
        (persist plan createdAt none state).storage := by
  obtain ⟨committed, hcommitted⟩ := @slicedManifest_commits config digest temp db state hworking
    plan.resourceId hplan.resource plan.finalFilePath content createdAt
  obtain ⟨-, -, hresources, -⟩ := ResourceRepository.createWithManifest_tables hcommitted
  unfold persist
  simp only
  rw [hplan.manifest, hcommitted]
  refine ⟨_, rfl, _, ?_, rfl, rfl, rfl, hfile, servable_of_committed hcommitted hfile⟩
  change committed.resources.get? plan.resourceId = _
  rw [hresources]
  exact OrderedMap.get?_set_self _ _ _

/-- **A step without a fault.** -/
theorem uploadStep_carries {content : Bytes}
    (hcarries : Carries config digest temp db content state)
    {event : UploadEvent} (hfaultless : Faultless event)
    (hfresh : ∀ buffers randomBytes, event = .generated buffers randomBytes →
      db.resources.has (resourceIdOf randomBytes) = false)
    (hwithin : ∀ resourceId, config.within (finalFilePath config resourceId) = true)
    (hapart : ∀ resourceId, finalFilePath config resourceId ≠ temp) :
    Carries config digest temp db content (uploadStep config digest state event) := by
  have hplace : ∀ {plan : MovePlan}, PlannedFor config digest db content plan →
      plan.finalFilePath ≠ temp := fun hplan ↦ hplan.path ▸ hapart _
  have htransition := uploadStep_transition config digest state event
  generalize uploadStep config digest state event = next at htransition ⊢
  cases htransition with
  | ignored => exact hcarries
  | generated buffers randomBytes hstage hread =>
    simp only [Carries, hstage] at hcarries
    obtain ⟨hworking, hcontent⟩ := hcarries
    rw [hworking.path, hcontent] at hread
    rw [← Option.some.inj hread, planned_moving hworking (hwithin _)]
    exact ⟨hworking.of_job rfl rfl rfl, ⟨rfl, hfresh _ _ rfl, rfl⟩, hcontent⟩
  | renamed plan bytes hstage hbytes =>
    simp only [Carries, hstage] at hcarries
    obtain ⟨hworking, hplan, hcontent⟩ := hcarries
    rw [hworking.path, hcontent, Option.some.injEq] at hbytes
    subst hbytes
    exact ⟨hworking.of_job rfl rfl rfl, hplan, OrderedMap.get?_set_self _ _ _⟩
  | crossDevice plan hstage =>
    simp only [Carries, hstage] at hcarries
    obtain ⟨hworking, hplan, hcontent⟩ := hcarries
    exact ⟨hworking.of_job rfl rfl rfl, hplan, hcontent⟩
  | copied plan data bytes hstage =>
    simp only [Carries, hstage] at hcarries
    obtain ⟨hworking, hplan, hcontent⟩ := hcarries
    simp only [Carries, UploadState.write, hstage]
    refine ⟨hworking.of_job rfl rfl rfl, hplan, ?_⟩
    rw [OrderedMap.get?_set_of_ne _ (hplace hplan).symm]
    exact hcontent
  | uncopied plan hstage =>
    simp only [Carries, hstage] at hcarries
    obtain ⟨hworking, hplan, hcontent⟩ := hcarries
    simp only [Carries, UploadState.unlink, hstage]
    refine ⟨hworking.of_job rfl rfl rfl, hplan, ?_⟩
    rw [OrderedMap.get?_delete_of_ne _ (hplace hplan).symm]
    exact hcontent
  | copyEnded plan bytes hstage hbytes =>
    simp only [Carries, hstage] at hcarries
    obtain ⟨hworking, hplan, hcontent⟩ := hcarries
    rw [hworking.path, hcontent, Option.some.injEq] at hbytes
    subst hbytes
    exact ⟨hworking.of_job rfl rfl rfl, hplan, OrderedMap.get?_set_self _ _ _⟩
  | unlinked plan hstage =>
    simp only [Carries, hstage] at hcarries
    obtain ⟨hworking, hplan, hcontent⟩ := hcarries
    refine ⟨hworking.of_job rfl rfl rfl, hplan, ?_⟩
    rw [hworking.path]
    exact (OrderedMap.get?_delete_of_ne _ (hplace hplan)).trans hcontent
  | persisted plan createdAt fault hstage =>
    simp only [Carries, hstage] at hcarries
    obtain ⟨hworking, hplan, hcontent⟩ := hcarries
    cases fault with
    | none =>
      obtain ⟨info, hsettled, hstored⟩ := persist_stored hworking hplan hcontent createdAt
      simp only [Carries, hsettled]
      exact hstored
    | some fault => exact hfaultless.elim
  | opened hstage | received _ _ _ hstage | ended _ hstage | deleted _ hstage =>
    simp only [Carries, hstage] at hcarries
  | failed | deleteFailed => exact hfaultless.elim

end Saving

/-! ### Uploads of a file -/

section Uploads

variable {multipart : ℕ → String → Bytes → FilePart} {config : UploadConfig}
  {digest : Bytes → Bytes} {request : UploadRequest} {randomUUID : String} {now : ℕ}
  {db : Database} {storage : Storage} {events : List UploadEvent} {content : Bytes}

/-- The instructor of an active session that has not expired. -/
structure Admissible (request : UploadRequest) (now : ℕ) (db : Database) : Prop where
  instructor : request.userRole = .instructor
  member : request.userSessionId = request.sessionId
  session : ∃ session, SessionRepository.findById request.sessionId db = some session ∧
    session.isActive = true ∧ ¬ session.expiresAt < now

theorem Admissible.checkSession (hadmissible : Admissible request now db) :
    checkSession request.sessionId now db = (db, none) := by
  obtain ⟨session, hfound, hactive, hvalid⟩ := hadmissible.session
  simp [Server.checkSession, hfound, hactive, hvalid]

/-- The paths of the program are in the storage directory. -/
structure Confined (config : UploadConfig) : Prop where
  temp : ∀ randomUUID, config.within (tempFilePath config randomUUID) = true
  final : ∀ resourceId, config.within (finalFilePath config resourceId) = true

/-- The instructor's call begins with the temporary file. -/
theorem begun_working (hadmissible : Admissible request now db) (hconfined : Confined config) :
    Working config (tempFilePath config randomUUID) db
        (begun config request randomUUID now db storage) ∧
      (begun config request randomUUID now db storage).job.stage = .opening := by
  have hpassed : ¬ (request.userRole ≠ .instructor ∨
    request.userSessionId ≠ request.sessionId) := by
    simp [hadmissible.instructor, hadmissible.member]
  have hprocess : processUpload config request randomUUID now db =
      (db, ⟨request.sessionId, sanitizeFilename request.originalFileName,
        tempFilePath config randomUUID, .opening⟩) := by
    simp only [processUpload, if_neg hpassed, hadmissible.checkSession, assertPathWithinStorage,
      hconfined.temp, if_true]
  obtain ⟨session, hfound, -⟩ := hadmissible.session
  unfold begun
  rw [hprocess]
  exact ⟨⟨rfl, hconfined.temp _, rfl, OrderedMap.has_iff_exists.mpr ⟨session, hfound⟩⟩, rfl⟩

variable (config digest) in
/-- An upload of a content is refused for its size, or goes on with it. -/
def Decided (temp : String) (db : Database) (content : Bytes) (state : UploadState) : Prop :=
  (∃ error, sizeError config content.length = some error ∧ Refused error db state) ∨
    sizeError config content.length = none ∧ Carries config digest temp db content state

variable (digest) in
/-- After the stream has ended the size of what has come decides. -/
theorem SavedPart.ended {temp : String} {state : UploadState}
    (hsaved : SavedPart config temp db content state) :
    Decided config digest temp db content (uploadStep config digest state .ended) := by
  have hstep : uploadStep config digest state .ended = saved config content.length state := by
    simp only [uploadStep, hsaved.stage]
  rw [hstep]
  unfold saved
  split
  · next error hsize => exact .inl ⟨error, hsize, hsaved.working.untouched, .inl rfl⟩
  · next hsize => exact .inr ⟨hsize, hsaved.working.of_job rfl rfl rfl, hsaved.file⟩

/-- What was decided stays so when nothing fails. -/
theorem Decided.run {state : UploadState} {rest : List UploadEvent}
    (hdecided : Decided config digest (tempFilePath config randomUUID) db content state)
    (hconfined : Confined config)
    (hrest : ∀ event ∈ rest, Faultless event ∧ ∀ buffers randomBytes,
      event = .generated buffers randomBytes →
        db.resources.has (resourceIdOf randomBytes) = false) :
    Decided config digest (tempFilePath config randomUUID) db content
      (run (uploadStep config digest) state rest) := by
  refine run_invariant (Decided config digest (tempFilePath config randomUUID) db content)
    (fun reached event hreached hevent ↦ ?_) hdecided (along_of_forall hrest state)
  rcases hreached with ⟨error, hsize, hrefused⟩ | ⟨hsize, hcarries⟩
  · exact .inl ⟨error, hsize, uploadStep_refused hrefused event⟩
  · exact .inr ⟨hsize, uploadStep_carries hcarries hevent.1 hevent.2 hconfined.final
      fun resourceId ↦ finalFilePath_ne_tempFilePath config resourceId randomUUID⟩

variable (digest) in
/-- **The course of an upload.** It is refused for the size of what has come, or stores what has
come. -/
theorem Course.decided (hcourse : Course content events) (hadmissible : Admissible request now db)
    (hconfined : Confined config) (hfresh : FreshNames config randomUUID db storage events) :
    Decided config digest (tempFilePath config randomUUID) db content
      (uploadRun config digest request randomUUID now db storage events) := by
  obtain ⟨⟨buffers, rest, rfl, rfl⟩, hfaultless⟩ := hcourse
  obtain ⟨hworking, hstage⟩ :=
    @begun_working config request randomUUID now db storage hadmissible hconfined
  have hopened : SavedPart config (tempFilePath config randomUUID) db []
      (uploadStep config digest (begun config request randomUUID now db storage) .opened) := by
    simp only [uploadStep, hstage, hworking.path]
    exact ⟨hworking.of_job rfl rfl rfl, rfl, OrderedMap.get?_set_self _ _ _⟩
  have hended := (hopened.received digest buffers).ended digest
  have hrun : uploadRun config digest request randomUUID now db storage
      (.opened :: (buffers.map .received ++ .ended :: rest)) =
        run (uploadStep config digest) (uploadStep config digest (run (uploadStep config digest)
          (uploadStep config digest (begun config request randomUUID now db storage) .opened)
          (buffers.map .received)) .ended) rest := by
    rw [← run_cons, ← run_append]
    rfl
  rw [hrun]
  refine hended.run hconfined fun event hmem ↦ ?_
  have hin := List.mem_cons_of_mem UploadEvent.opened (List.mem_append_right
    (buffers.map UploadEvent.received) (List.mem_cons_of_mem UploadEvent.ended hmem))
  refine ⟨hfaultless event hin, ?_⟩
  rintro readBuffers randomBytes rfl
  exact (hfresh.resource readBuffers randomBytes hin).1

/-- The size of what comes through the plugin is not too large: it is empty or within the limit. -/
theorem sizeError_take (original : Bytes) :
    sizeError config (original.take config.maxBytes).length =
      if original.length = 0 ∨ config.maxBytes = 0 then
        some ⟨400, "Empty files are not allowed."⟩
      else none := by
  have hlength : (original.take config.maxBytes).length = min config.maxBytes original.length :=
    List.length_take
  have hlimit : ¬ config.maxResourceSizeMb * 1024 * 1024 < min config.maxBytes original.length :=
    not_lt.mpr (min_le_left _ _)
  rw [hlength]
  unfold sizeError
  rw [if_neg hlimit]
  by_cases hempty : original.length = 0 ∨ config.maxBytes = 0
  · rw [if_pos hempty, if_pos (by omega)]
  · rw [if_neg hempty, if_neg (by omega)]

/-- **Whole file or nothing.** An upload in which nothing else fails keeps the promise exactly when
the file is not larger than the limit. -/
theorem wholeOrNothing_iff (hlimits : LimitsFileSize multipart) {sessionId : String}
    {user : AuthTokenPayload} {filename : String} {original : Bytes}
    (hrequest : postResource sessionId user (some (multipart config.maxBytes filename original)) =
      .ok request)
    (hinstructor : user.role = .instructor) (hmember : user.sessionId = sessionId)
    (hsession : ∃ session, SessionRepository.findById sessionId db = some session ∧
      session.isActive = true ∧ ¬ session.expiresAt < now) (hconfined : Confined config)
    (hfresh : FreshNames config randomUUID db storage events)
    (hcourse : Course (multipart config.maxBytes filename original).file events)
    {result : Except ServiceError ResourceInfo}
    (hsettled : (uploadRun config digest request randomUUID now db storage events).job.stage =
      .settled result) :
    WholeOrNothing config digest db original result
        (uploadRun config digest request randomUUID now db storage events) ↔
      original.length ≤ config.maxBytes := by
  rw [hlimits.file] at hcourse
  have hadmissible : Admissible request now db := by
    rw [← Except.ok.inj hrequest]
    exact ⟨hinstructor, hmember, hsession⟩
  rcases hcourse.decided digest hadmissible hconfined hfresh with
    ⟨error, hsize, hrefused⟩ | ⟨hsize, hcarries⟩
  · -- nothing has come, although there may be a file
    rw [sizeError_take] at hsize
    split_ifs at hsize with hempty
    obtain rfl := Option.some.inj hsize
    obtain ⟨hdb, hstage⟩ := hrefused
    obtain rfl : result = .error (.http ⟨400, "Empty files are not allowed."⟩) := by
      rw [hsettled] at hstage
      simpa using hstage
    constructor
    · intro hpromise
      by_contra hlarge
      exact absurd (hpromise.rejected (not_le.mp hlarge)).1 (by decide)
    · intro hsmall
      exact ⟨iff_of_false (by decide) (by omega), fun info hok ↦ by simp at hok,
        fun hlarge ↦ absurd hsmall (not_le.mpr hlarge)⟩
  · rw [sizeError_take] at hsize
    split_ifs at hsize with hempty
    simp only [Carries, hsettled] at hcarries
    cases result with
    | error error => exact hcarries.elim
    | ok info =>
      constructor
      · intro hpromise
        by_contra hlarge
        exact absurd (hpromise.rejected (not_le.mp hlarge)).1 (by simp [uploadReply])
      · intro hsmall
        rw [List.take_of_length_le hsmall] at hcarries
        refine ⟨iff_of_true rfl (by omega), fun other hok ↦ ?_,
          fun hlarge ↦ absurd hsmall (not_le.mpr hlarge)⟩
        obtain rfl := Except.ok.inj hok
        exact hcarries

end Uploads

/-! ### Sample uploads -/

/-- The plugin. -/
def sampleMultipart (limit : ℕ) (filename : String) (original : Bytes) : FilePart :=
  ⟨filename, original.take limit, decide (limit < original.length)⟩

/-- The instructor of a class. -/
def sampleInstructor : AuthTokenPayload := ⟨"session", .instructor, none, "Ada", "ABC123"⟩

/-- A course in which a content comes at once. -/
def plainUpload (content : Bytes) : List UploadEvent :=
  [.opened, .received content, .ended, .generated [content] [7], .renamed, .persisted "now" none]

theorem course_plainUpload (content : Bytes) : Course content (plainUpload content) :=
  ⟨⟨[content], [.generated [content] [7], .renamed, .persisted "now" none], rfl, by simp⟩,
    by simp [plainUpload, Faultless]⟩

/-- It succeeds when the size is right. -/
theorem plainUpload_settles {config : UploadConfig} (digest : Bytes → Bytes)
    {request : UploadRequest}
    {randomUUID : String} {now : ℕ} {db : Database} {storage : Storage} {content : Bytes}
    (hadmissible : Admissible request now db) (hconfined : Confined config)
    (hfresh : FreshNames config randomUUID db storage (plainUpload content))
    (hsize : sizeError config content.length = none) :
    ∃ info, (uploadRun config digest request randomUUID now db storage
      (plainUpload content)).job.stage = .settled (.ok info) := by
  obtain ⟨hworking, hstage⟩ :=
    @begun_working config request randomUUID now db storage hadmissible hconfined
  have hopened : SavedPart config (tempFilePath config randomUUID) db []
      (uploadStep config digest (begun config request randomUUID now db storage) .opened) := by
    simp only [uploadStep, hstage, hworking.path]
    exact ⟨hworking.of_job rfl rfl rfl, rfl, OrderedMap.get?_set_self _ _ _⟩
  have hsaved := hopened.received digest [content]
  rw [List.nil_append, List.flatten_singleton] at hsaved
  generalize hstream : run (uploadStep config digest)
    (uploadStep config digest (begun config request randomUUID now db storage) .opened)
    ([content].map .received) = saved at hsaved
  have hrun : uploadRun config digest request randomUUID now db storage (plainUpload content) =
      run (uploadStep config digest) saved
        [.ended, .generated [content] [7], .renamed, .persisted "now" none] := by
    rw [← hstream]
    rfl
  have hended : uploadStep config digest saved .ended = saved.goOn .generating := by
    simp only [uploadStep, hsaved.stage, UploadState.saved, hsize]
  have hgenerating : Working config (tempFilePath config randomUUID) db (saved.goOn .generating) :=
    hsaved.working.of_job rfl rfl rfl
  have hplanned := uploadStep_generated digest hgenerating rfl hsaved.file
    (List.flatten_singleton (l := content)) (hconfined.final (resourceIdOf [7]))
  have hresource := (hfresh.resource [content] [7] (by simp [plainUpload])).1
  rw [hrun, run_cons, run_cons, run_cons, run_cons, run_nil, hended, hplanned]
  generalize hplan : (⟨slicedManifest digest CHUNK_SIZE_BYTES content, resourceIdOf [7],
    finalFilePath config (resourceIdOf [7])⟩ : MovePlan) = plan
  have hplannedFor : PlannedFor config digest db content plan := by
    rw [← hplan]
    exact ⟨rfl, hresource, rfl⟩
  have hcontent : saved.storage.get? saved.job.tempFilePath = some content := by
    rw [hsaved.working.path]
    exact hsaved.file
  have hworking : Working config (tempFilePath config randomUUID) db
      (((saved.unlink saved.job.tempFilePath).write plan.finalFilePath content).goOn
        (.persisting plan)) := hsaved.working.of_job rfl rfl rfl
  obtain ⟨info, hsettled, -⟩ :=
    persist_stored hworking hplannedFor (OrderedMap.get?_set_self _ _ _) "now"
  have hmoved : uploadStep config digest (saved.goOn (.moving plan)) .renamed = _ :=
    uploadStep_renamed config digest rfl hcontent
  rw [goOn_goOn, hmoved]
  exact ⟨info, hsettled⟩

/-- A file of three bytes is stored. -/
theorem wholeOrNothing_iff_small :
    WholeOrNothing sampleConfig id classroom [1, 2, 3]
      (.ok ⟨"res_07", "session", "notes.pdf", 3, 262144, 1, "010203", .ready, "now"⟩)
      (uploadRun sampleConfig id sampleRequest "uuid" 1 classroom OrderedMap.empty
        (plainUpload [1, 2, 3])) := by
  have hlimits : LimitsFileSize sampleMultipart :=
    ⟨fun _ _ _ ↦ rfl, fun _ _ _ ↦ rfl, fun _ _ _ ↦ rfl⟩
  have hrequest : postResource "session" sampleInstructor
      (some (sampleMultipart sampleConfig.maxBytes "notes.pdf" [1, 2, 3])) =
        .ok sampleRequest := rfl
  refine (wholeOrNothing_iff hlimits hrequest rfl rfl
    ⟨_, rfl, rfl, by decide⟩ ⟨fun _ ↦ rfl, fun _ ↦ rfl⟩
    (freshNames_classroom _) (course_plainUpload _) rfl).mpr ?_
  decide

/-- A limit of one megabyte. -/
def smallLimit : UploadConfig := { sampleConfig with maxResourceSizeMb := 1 }

/-- A file that is one byte too large. -/
def largeFile : Bytes := List.replicate 1048577 0

/-- It is cut, and stored without its last byte. -/
theorem largeFile_not_wholeOrNothing :
    ∃ result, (uploadRun smallLimit id sampleRequest "uuid" 1 classroom OrderedMap.empty
        (plainUpload (sampleMultipart smallLimit.maxBytes "notes.pdf" largeFile).file)).job.stage =
          .settled result ∧
      ¬ WholeOrNothing smallLimit id classroom largeFile result
        (uploadRun smallLimit id sampleRequest "uuid" 1 classroom OrderedMap.empty
          (plainUpload (sampleMultipart smallLimit.maxBytes "notes.pdf" largeFile).file)) := by
  have hlength : largeFile.length = 1048577 := List.length_replicate
  have hsize : sizeError smallLimit (sampleMultipart smallLimit.maxBytes "notes.pdf"
      largeFile).file.length = none := by
    refine sizeError_take largeFile ▸ if_neg ?_
    rw [hlength]
    decide
  obtain ⟨info, hsettled⟩ := @plainUpload_settles smallLimit id sampleRequest "uuid" 1 classroom
    OrderedMap.empty _ ⟨rfl, rfl, _, rfl, rfl, by decide⟩ ⟨fun _ ↦ rfl, fun _ ↦ rfl⟩
    ⟨rfl, fun _ _ _ ↦ ⟨rfl, rfl⟩⟩ hsize
  refine ⟨_, hsettled, fun hpromise ↦ ?_⟩
  have hrejected := (hpromise.rejected (by rw [hlength]; decide)).1
  simp [uploadReply] at hrejected

end CampusMesh.Server
