import CampusMesh.Server.RequestEffects
import CampusMesh.Server.UploadLimit

/-!
# The bytes that an upload holds

From its call until its row is inserted, an upload holds the bytes that it has received: at first in
its temporary file, and then in the file of its resource. `catalogStep_job` says what one step of
the services does to an upload. Whatever other calls do meanwhile, an upload that goes on holds what
it held before and what it receives now (`held_catalogStep`), and of one that has been saved this is
as long as the service allows (`measured_catalogStep`).
-/

set_option autoImplicit false
set_option relaxedAutoImplicit false

namespace CampusMesh.Server

open Library Shared UploadState

variable {ν : Type}

/-! ### One upload -/

/-- The bytes that an upload holds. -/
def UploadJob.holds (job : UploadJob) (storage : Storage) : Option Bytes :=
  match job.stage with
  | .opening => some []
  | .saving _ | .generating | .moving _ | .copying _ => storage.get? job.tempFilePath
  | .unlinking plan | .persisting plan => storage.get? plan.finalFilePath
  | .deleting _ | .settled _ => none

/-- The bytes that an event adds to those of an upload. -/
def UploadStage.receives : UploadStage → UploadEvent → Bytes
  | .saving _, .received data => data
  | _, _ => []

section Upload

variable {config : UploadConfig} {digest : Bytes → Bytes} {state : UploadState}
  {event : UploadEvent} {content : Bytes}

/-- An upload holds nothing when its row has been inserted or not. -/
theorem persist_holds (plan : MovePlan) (createdAt : String) (fault : Option TransactionFault)
    (state : UploadState) (storage : Storage) :
    (persist plan createdAt fault state).job.holds storage = none := by
  unfold persist
  split
  · rfl
  · split
    · rfl
    · simp only
      split <;> rfl

/-- An upload that receives nothing holds what it held, or nothing any more. -/
theorem holds_transition {next : UploadState}
    (htransition : UploadTransition config digest state event next)
    (hidle : ∀ data, event ≠ .received data)
    (hapart : ∀ plan, state.job.stage.plan? = some plan →
      plan.finalFilePath ≠ state.job.tempFilePath)
    (hholds : next.job.holds next.storage = some content) :
    state.job.holds state.storage = some content := by
  unfold UploadJob.holds
  cases htransition with
  | ignored => exact hholds
  | received bytesWritten data => exact absurd rfl (hidle data)
  | opened hstage =>
    rw [hstage]
    exact (OrderedMap.get?_set_self _ _ _).symm.trans hholds
  | ended bytesWritten hstage =>
    rw [hstage]
    unfold saved at hholds
    split at hholds
    · cases hholds
    · exact hholds
  | generated buffers randomBytes hstage hcontent =>
    rw [hstage]
    unfold planned at hholds
    simp only at hholds
    split at hholds
    · cases hholds
    · split at hholds
      · cases hholds
      · exact hholds
  | renamed plan found hstage hcontent =>
    rw [hstage]
    exact hcontent.trans ((OrderedMap.get?_set_self _ _ _).symm.trans hholds)
  | crossDevice plan hstage =>
    rw [hstage]
    exact hholds
  | copied plan data found hstage =>
    have hne := (hapart plan (by rw [hstage]; rfl)).symm
    simp only [UploadJob.holds, write, hstage] at hholds ⊢
    rwa [OrderedMap.get?_set_of_ne _ hne] at hholds
  | uncopied plan hstage =>
    have hne := (hapart plan (by rw [hstage]; rfl)).symm
    simp only [UploadJob.holds, unlink, hstage] at hholds ⊢
    rwa [OrderedMap.get?_delete_of_ne _ hne] at hholds
  | copyEnded plan found hstage hcontent =>
    rw [hstage]
    exact hcontent.trans ((OrderedMap.get?_set_self _ _ _).symm.trans hholds)
  | unlinked plan hstage =>
    have hne := hapart plan (by rw [hstage]; rfl)
    simp only [UploadJob.holds, unlink, goOn, hstage] at hholds ⊢
    rwa [OrderedMap.get?_delete_of_ne _ hne] at hholds
  | persisted plan createdAt fault hstage =>
    exact absurd hholds (by simp [persist_holds])
  | failed | deleteFailed => cases hholds
  | deleted error hstage =>
    split_ifs at hholds
    · cases hholds
    · cases hholds

/-- An upload that receives a buffer holds it behind what it held. -/
theorem holds_received {data : Bytes}
    (hholds : (uploadStep config digest state (.received data)).job.holds
      (uploadStep config digest state (.received data)).storage = some content) :
    ∃ old, state.job.holds state.storage = some old ∧
      content = old ++ state.job.stage.receives (.received data) := by
  by_cases hsaving : ∃ bytesWritten, state.job.stage = .saving bytesWritten
  · obtain ⟨bytesWritten, hstage⟩ := hsaving
    have hheld : state.job.holds state.storage =
        state.storage.get? state.job.tempFilePath := by
      rw [UploadJob.holds, hstage]
    simp only [uploadStep, hstage] at hholds
    rw [hheld, hstage]
    cases hfile : state.storage.get? state.job.tempFilePath with
    | none =>
      rw [hfile] at hholds
      exact absurd (hholds.symm.trans (hheld.trans hfile)) (by simp)
    | some found =>
      rw [hfile] at hholds
      refine ⟨found, rfl, ?_⟩
      exact (Option.some.inj ((OrderedMap.get?_set_self _ _ _).symm.trans hholds)).symm
  · have hignored : uploadStep config digest state (.received data) = state := by
      unfold uploadStep
      cases hstage : state.job.stage with
      | saving bytesWritten => exact absurd ⟨bytesWritten, hstage⟩ hsaving
      | _ => rfl
    have hnothing : state.job.stage.receives (.received data) = [] := by
      cases hstage : state.job.stage with
      | saving bytesWritten => exact absurd ⟨bytesWritten, hstage⟩ hsaving
      | _ => rfl
    rw [hignored] at hholds
    exact ⟨content, hholds, by rw [hnothing, List.append_nil]⟩

/-- **One upload.** It holds what it held before and what it receives now. -/
theorem holds_uploadStep
    (hapart : ∀ plan, state.job.stage.plan? = some plan →
      plan.finalFilePath ≠ state.job.tempFilePath)
    (hholds : (uploadStep config digest state event).job.holds
      (uploadStep config digest state event).storage = some content) :
    ∃ old, state.job.holds state.storage = some old ∧
      content = old ++ state.job.stage.receives event := by
  by_cases hreceives : ∃ data, event = .received data
  · obtain ⟨data, rfl⟩ := hreceives
    exact holds_received hholds
  · have hidle : ∀ data, event ≠ .received data := fun data heq ↦ hreceives ⟨data, heq⟩
    have hnothing : state.job.stage.receives event = [] := by
      unfold UploadStage.receives
      split
      · exact absurd rfl (hidle _)
      · rfl
    refine ⟨content, ?_, by rw [hnothing, List.append_nil]⟩
    exact holds_transition (uploadStep_transition config digest state event) hidle hapart hholds

/-- What the stage of an upload says of the number of bytes that it holds. -/
def UploadStage.Measures (config : UploadConfig) : UploadStage → ℕ → Prop
  | .opening, length => length = 0
  | .saving bytesWritten, length => length = bytesWritten
  | .generating, length | .moving _, length | .copying _, length | .unlinking _, length
  | .persisting _, length => 0 < length ∧ length ≤ config.maxBytes
  | .deleting _, _ | .settled _, _ => True

/-- The number of bytes that an upload holds is the one that its stage says. -/
def UploadJob.Measured (config : UploadConfig) (job : UploadJob) (storage : Storage) : Prop :=
  ∀ content, job.holds storage = some content → job.stage.Measures config content.length

/-- A file whose size is refused is held no more. -/
theorem saved_measured {bytesWritten : ℕ}
    (hmetered : ∀ found, (saved config bytesWritten state).job.holds
      (saved config bytesWritten state).storage = some found → found.length = bytesWritten) :
    (saved config bytesWritten state).job.Measured config
      (saved config bytesWritten state).storage := by
  intro content hholds
  have hlength := hmetered content hholds
  unfold saved sizeError at hholds ⊢
  split_ifs at hholds ⊢ with hempty hlarge
  · exact trivial
  · exact trivial
  · exact ⟨by omega, by rw [UploadConfig.maxBytes]; omega⟩

theorem planned_measured {manifestResult : GeneratedManifestResult} {randomBytes : Bytes}
    (hsaved : ∀ found, (planned config manifestResult randomBytes state).job.holds
      (planned config manifestResult randomBytes state).storage = some found →
        0 < found.length ∧ found.length ≤ config.maxBytes) :
    (planned config manifestResult randomBytes state).job.Measured config
      (planned config manifestResult randomBytes state).storage := by
  intro content hholds
  have hlength := hsaved content hholds
  unfold planned at hholds ⊢
  simp only at hholds ⊢
  split
  · exact trivial
  · split
    · exact trivial
    · exact hlength

/-- **One upload** meters what it holds. -/
theorem measured_uploadStep
    (hapart : ∀ plan, state.job.stage.plan? = some plan →
      plan.finalFilePath ≠ state.job.tempFilePath)
    (hmeasured : state.job.Measured config state.storage) :
    (uploadStep config digest state event).job.Measured config
      (uploadStep config digest state event).storage := by
  have hheld : ∀ found, (uploadStep config digest state event).job.holds
      (uploadStep config digest state event).storage = some found →
        ∃ length, state.job.stage.Measures config length ∧
          found.length = length + (state.job.stage.receives event).length := by
    intro found hholds
    obtain ⟨old, hold, rfl⟩ := holds_uploadStep hapart hholds
    exact ⟨old.length, hmeasured old hold, List.length_append⟩
  have htransition := uploadStep_transition config digest state event
  generalize uploadStep config digest state event = next at htransition hheld ⊢
  cases htransition with
  | ignored => exact hmeasured
  | opened hstage =>
    intro content hholds
    obtain ⟨length, hlength, hsum⟩ := hheld content hholds
    rw [hstage] at hlength hsum
    exact hsum.trans hlength
  | received bytesWritten data found hstage hcontent =>
    intro content hholds
    obtain ⟨length, hlength, hsum⟩ := hheld content hholds
    rw [hstage] at hlength hsum
    obtain rfl : length = bytesWritten := hlength
    exact hsum
  | ended bytesWritten hstage =>
    refine saved_measured fun found hholds ↦ ?_
    obtain ⟨length, hlength, hsum⟩ := hheld found hholds
    rw [hstage] at hlength hsum
    exact hsum.trans hlength
  | generated buffers randomBytes hstage hcontent =>
    refine planned_measured fun found hholds ↦ ?_
    obtain ⟨length, hlength, hsum⟩ := hheld found hholds
    rw [hstage] at hlength hsum
    obtain rfl : found.length = length := hsum
    exact hlength
  | renamed plan found hstage | crossDevice plan hstage | copyEnded plan found hstage
  | unlinked plan hstage =>
    intro content hholds
    obtain ⟨length, hlength, hsum⟩ := hheld content hholds
    rw [hstage] at hlength hsum
    obtain rfl : content.length = length := hsum
    exact hlength
  | copied plan data found hstage | uncopied plan hstage =>
    -- the stage stays, and with it what it says
    intro content hholds
    obtain ⟨length, hlength, hsum⟩ := hheld content hholds
    rw [hstage] at hsum
    obtain rfl : content.length = length := hsum
    exact hlength
  | persisted plan createdAt fault hstage =>
    intro content hholds
    simp [persist_holds] at hholds
  | failed | deleteFailed => exact fun _ _ ↦ trivial
  | deleted error hstage => split_ifs <;> exact fun _ _ ↦ trivial

end Upload

/-! ### Uploads among other calls -/

namespace CatalogState

/-- The session of an upload, and the bytes that it holds. -/
def held (state : CatalogState ν) (call : ℕ) : Option (String × Bytes) :=
  (state.server.uploads.get? call).bind fun job ↦
    (job.holds state.storage).map fun content ↦ (job.sessionId, content)

/-- The bytes that a call receives by an event. -/
def receives (state : CatalogState ν) (call : ℕ) : CatalogEvent ν → Bytes
  | .server (.upload other event) =>
    if other = call ∧ state.server.hub.halted = false then
      ((state.server.uploads.get? call).map fun job ↦ job.stage.receives event).getD []
    else []
  | _ => []

end CatalogState

/-- An instructor's upload for a session begins. -/
structure BeginsUpload (call : ℕ) (sessionId : String) (state : CatalogState ν)
    (event : CatalogEvent ν) : Prop where
  fresh : state.server.uploads.has call = false
  asked : ∃ request randomUUID, event = .server (.processUpload call request randomUUID) ∧
    request.userRole = .instructor ∧ request.userSessionId = sessionId ∧
      request.sessionId = sessionId

section Catalog

variable {setting : ServerSetting ν} {state : CatalogState ν} {input : CatalogInput ν} {call : ℕ}
  {sessionId : String} {content : Bytes}

theorem held_eq_some_iff :
    state.held call = some (sessionId, content) ↔ ∃ job,
      state.server.uploads.get? call = some job ∧ job.sessionId = sessionId ∧
        job.holds state.storage = some content := by
  unfold CatalogState.held
  constructor
  · intro hheld
    obtain ⟨job, hjob, hmap⟩ := Option.bind_eq_some_iff.mp hheld
    obtain ⟨found, hfound, heq⟩ := Option.map_eq_some_iff.mp hmap
    obtain ⟨rfl, rfl⟩ := Prod.mk.inj heq
    exact ⟨job, hjob, rfl, hfound⟩
  · rintro ⟨job, hjob, rfl, hholds⟩
    rw [hjob, Option.bind_some, hholds]
    rfl

/-- The files that an upload may hold its bytes in. -/
def UploadJob.Keeps (job : UploadJob) (path : String) : Prop :=
  path = job.tempFilePath ∨ ∃ plan, job.stage.plan? = some plan ∧ path = plan.finalFilePath

/-- An upload holds what it held when its files stay. -/
theorem holds_congr {job : UploadJob} {storage after : Storage}
    (hsame : ∀ path, job.Keeps path → after.get? path = storage.get? path) :
    job.holds after = job.holds storage := by
  unfold UploadJob.holds
  cases hstage : job.stage with
  | opening | deleting | settled => rfl
  | saving | generating | moving | copying => exact hsame _ (Or.inl rfl)
  | unlinking plan | persisting plan => exact hsame _ (Or.inr ⟨plan, by rw [hstage]; rfl, rfl⟩)

/-- A deletion that goes on unlinks no other file. -/
theorem storage_continueDeletion {deletion : ℕ} {fault : Option JsError} {path : String}
    (hother : ∀ pending, state.deletions.get? deletion = some pending →
      path ≠ pending.storagePath) :
    (continueDeletion setting deletion fault state).storage.get? path =
      state.storage.get? path := by
  unfold continueDeletion
  split
  · next pending hpending =>
    change (resolveDeletion setting.config.within pending fault state.storage).1.get? path = _
    unfold resolveDeletion LocalDiskStorageProvider.delete
    simp only
    split
    · rfl
    · split
      · rfl
      · exact OrderedMap.get?_delete_of_ne _ (hother pending hpending)
  · rfl

/-- The files of an upload are not those of resources that are deleted. -/
theorem UploadJob.Keeps.ne_deleted (hsound : CatalogSound setting state) {job : UploadJob}
    (hjob : state.server.uploads.get? call = some job) {path : String} (hpath : job.Keeps path)
    {deletion : ℕ} {pending : PendingDeletion}
    (hpending : state.deletions.get? deletion = some pending) : path ≠ pending.storagePath := by
  obtain ⟨hown, -, hapart⟩ := hsound.deletions deletion pending hpending
  rw [hown]
  rcases hpath with rfl | ⟨plan, hplan, rfl⟩
  · obtain ⟨randomUUID, htemp⟩ := hsound.temps call job hjob
    rw [htemp]
    exact fun heq ↦ finalFilePath_ne_tempFilePath _ _ _ heq.symm
  · rw [(hsound.jobs call job hjob plan hplan).1]
    exact fun heq ↦ hapart call job plan hjob hplan (finalFilePath_inj _ heq)

/-- Two uploads have different files. -/
theorem UploadJob.Keeps.ne_ownFiles (hsound : CatalogSound setting state) {job other : UploadJob}
    {otherCall : ℕ} (hne : call ≠ otherCall) (hjob : state.server.uploads.get? call = some job)
    (hother : state.server.uploads.get? otherCall = some other) {path : String}
    (hpath : job.Keeps path) : path ∉ other.ownFiles := by
  obtain ⟨randomUUID, htemp⟩ := hsound.temps call job hjob
  obtain ⟨otherUUID, hotherTemp⟩ := hsound.temps otherCall other hother
  intro hmem
  rcases List.mem_cons.mp hmem with hsame | hmem
  · rcases hpath with rfl | ⟨plan, hplan, rfl⟩
    · exact hne (hsound.temps_inj call otherCall job other hjob hother hsame)
    · rw [(hsound.jobs call job hjob plan hplan).1, hotherTemp] at hsame
      exact finalFilePath_ne_tempFilePath _ _ _ hsame
  · obtain ⟨otherPlan, hotherPlan, hsame⟩ := Option.map_eq_some_iff.mp (Option.mem_toList.mp hmem)
    have hotherPath := (hsound.jobs otherCall other hother otherPlan hotherPlan).1
    rcases hpath with rfl | ⟨plan, hplan, rfl⟩
    · rw [htemp, hotherPath] at hsame
      exact finalFilePath_ne_tempFilePath _ _ _ hsame
    · rw [(hsound.jobs call job hjob plan hplan).1, hotherPath] at hsame
      exact hne (hsound.plans_inj call otherCall job other plan otherPlan hjob hother hplan
        hotherPlan (finalFilePath_inj _ hsame).symm)

/-- What one step does to an upload: it goes on, or begins, or nothing happens to it. -/
inductive JobMove (setting : ServerSetting ν) (state : CatalogState ν) (input : CatalogInput ν)
    (call : ℕ) (after : Storage) : UploadJob → Prop
  | kept (job : UploadJob) (hjob : state.server.uploads.get? call = some job)
      (hholds : job.holds after = job.holds state.storage)
      (hnothing : state.receives call input.2 = []) : JobMove setting state input call after job
  | goes (job : UploadJob) (event : UploadEvent)
      (hjob : state.server.uploads.get? call = some job)
      (hevent : input.2 = .server (.upload call event))
      (hreceives : state.receives call input.2 = job.stage.receives event)
      (hafter : after =
        (uploadStep setting.config setting.digest ⟨state.db, state.storage, job⟩ event).storage) :
      JobMove setting state input call after
        (uploadStep setting.config setting.digest ⟨state.db, state.storage, job⟩ event).job
  | begins (request : UploadRequest) (randomUUID : String)
      (hfresh : state.server.uploads.has call = false)
      (hevent : input.2 = .server (.processUpload call request randomUUID)) :
      JobMove setting state input call after
        (processUpload setting.config request randomUUID input.1 state.db).2

/-- An upload that goes on, and the others. -/
theorem continueUpload_job (hsound : CatalogSound setting state) {now other : ℕ}
    {job found : UploadJob} {event : UploadEvent} (hruns : state.server.hub.halted = false)
    (hjob : state.server.uploads.get? other = some job)
    (hfound : (continueUpload setting other job event state.server).uploads.get? call =
      some found) :
    JobMove setting state (now, .server (.upload other event)) call
      (continueUpload setting other job event state.server).storage found := by
  have hmove := uploadStep_move setting.config setting.digest ⟨state.db, state.storage, job⟩ event
  rcases CatalogSound.get?_afterUpload hfound with ⟨rfl, rfl⟩ | ⟨hne, hbefore⟩
  · refine .goes job event hjob rfl ?_ rfl
    rw [CatalogState.receives, if_pos ⟨rfl, hruns⟩, hjob]
    rfl
  · refine .kept found hbefore (holds_congr fun path hpath ↦ ?_) ?_
    · exact hmove.files path (hpath.ne_ownFiles hsound hne hbefore hjob)
    · rw [CatalogState.receives, if_neg fun hsame ↦ hne hsame.1.symm]

/-- An upload begins next to the others. -/
theorem beginUpload_job {now other : ℕ} {request : UploadRequest} {randomUUID : String}
    {found : UploadJob}
    (hfound : (handleServerEvent setting now state.server
      (.processUpload other request randomUUID)).uploads.get? call = some found) :
    JobMove setting state (now, .server (.processUpload other request randomUUID)) call
      (handleServerEvent setting now state.server
        (.processUpload other request randomUUID)).storage found := by
  simp only [handleServerEvent] at hfound ⊢
  split_ifs at hfound ⊢ with hknown
  · exact .kept found hfound rfl rfl
  change (state.server.uploads.set other _).get? call = some found at hfound
  rw [OrderedMap.get?_set] at hfound
  split_ifs at hfound with hsame
  · subst hsame
    obtain rfl := Option.some.inj hfound
    exact .begins request randomUUID (Bool.eq_false_iff.mpr hknown) rfl
  · exact .kept found hfound rfl rfl

/-- **What one step does to an upload.** -/
theorem catalogStep_job (hsound : CatalogSound setting state) {job : UploadJob}
    (hjob : (catalogStep setting state input).server.uploads.get? call = some job) :
    JobMove setting state input call (catalogStep setting state input).storage job := by
  obtain ⟨now, event⟩ := input
  cases event with
  | restart => simp [catalogStep, CatalogState.new, ServerState.new] at hjob
  | deleteResource deletion resourceId userRole userSessionId =>
    simp only [catalogStep, requestDeletion] at hjob ⊢
    split_ifs at hjob ⊢
    · exact .kept job hjob rfl rfl
    · exact .kept job hjob rfl rfl
    · split at hjob
      · exact .kept job hjob rfl rfl
      · exact .kept job hjob rfl rfl
  | unlinked deletion fault =>
    simp only [catalogStep] at hjob ⊢
    split_ifs at hjob ⊢
    · exact .kept job hjob rfl rfl
    have huploads : (continueDeletion setting deletion fault state).server.uploads =
        state.server.uploads := by
      unfold continueDeletion
      split
      · rfl
      · rfl
    rw [huploads] at hjob
    exact .kept job hjob (holds_congr fun path hpath ↦ storage_continueDeletion
      fun pending hpending ↦ hpath.ne_deleted hsound hjob hpending) rfl
  | server event =>
    simp only [catalogStep, serverStep] at hjob ⊢
    split_ifs at hjob ⊢ with hhalted
    · refine .kept job hjob rfl ?_
      unfold CatalogState.receives
      split
      · exact if_neg fun hruns ↦ by simp [hhalted] at hruns
      · rfl
    by_cases hbegun : ∃ other request randomUUID, event = .processUpload other request randomUUID
    · obtain ⟨other, request, randomUUID, rfl⟩ := hbegun
      exact beginUpload_job hjob
    by_cases hupload : ∃ other uploadEvent, event = .upload other uploadEvent
    · obtain ⟨other, uploadEvent, rfl⟩ := hupload
      simp only [handleServerEvent] at hjob ⊢
      cases hother : state.server.uploads.get? other with
      | none =>
        rw [hother] at hjob
        refine .kept job hjob rfl ?_
        simp only [CatalogState.receives]
        split_ifs with hown
        · rw [← hown.1, hother]
          rfl
        · rfl
      | some found =>
        rw [hother] at hjob
        exact continueUpload_job hsound (Bool.eq_false_iff.mpr hhalted) hother hjob
    · obtain ⟨-, hstorage, huploads⟩ := @handleServerEvent_kept ν setting now state.server event
        (fun other request randomUUID heq ↦ hbegun ⟨other, request, randomUUID, heq⟩)
        fun other uploadEvent heq ↦ hupload ⟨other, uploadEvent, heq⟩
      refine .kept job ?_ (congrArg job.holds hstorage) ?_
      · exact (congrArg (fun uploads ↦ uploads.get? call) huploads).symm.trans hjob
      · cases event with
        | upload other uploadEvent => exact absurd ⟨other, uploadEvent, rfl⟩ hupload
        | _ => rfl

/-- The two files of an upload are different. -/
theorem CatalogSound.apart (hsound : CatalogSound setting state) {job : UploadJob}
    (hjob : state.server.uploads.get? call = some job) {plan : MovePlan}
    (hplan : job.stage.plan? = some plan) : plan.finalFilePath ≠ job.tempFilePath := by
  obtain ⟨randomUUID, htemp⟩ := hsound.temps call job hjob
  rw [(hsound.jobs call job hjob plan hplan).1, htemp]
  exact finalFilePath_ne_tempFilePath _ _ _

/-- An upload that begins and holds something is about to open its file. -/
theorem processUpload_holds {config : UploadConfig} {request : UploadRequest} {randomUUID : String}
    {now : ℕ} {db : Database} {storage : Storage}
    (hholds : (processUpload config request randomUUID now db).2.holds storage = some content) :
    (processUpload config request randomUUID now db).2.stage = .opening ∧ content = [] := by
  unfold processUpload at hholds ⊢
  simp only at hholds ⊢
  split_ifs at hholds ⊢
  · cases hholds
  · split at hholds
    · cases hholds
    · split at hholds
      · cases hholds
      · exact ⟨rfl, (Option.some.inj hholds).symm⟩

/-- **A step.** An upload holds what it held and what it receives now; or it begins, and holds
nothing. -/
theorem held_catalogStep (hsound : CatalogSound setting state)
    (hheld : (catalogStep setting state input).held call = some (sessionId, content)) :
    (∃ old, state.held call = some (sessionId, old) ∧
        content = old ++ state.receives call input.2) ∨
      content = [] ∧ BeginsUpload call sessionId state input.2 := by
  obtain ⟨found, hfound, rfl, hholds⟩ := held_eq_some_iff.mp hheld
  cases catalogStep_job hsound hfound with
  | kept job hjob hsame hnothing =>
    refine Or.inl ⟨content, held_eq_some_iff.mpr ⟨found, hjob, rfl, hsame.symm.trans hholds⟩, ?_⟩
    rw [hnothing, List.append_nil]
  | goes job event hjob hevent hreceives hafter =>
    rw [hafter] at hholds
    obtain ⟨old, hold, hcontent⟩ := holds_uploadStep (fun plan ↦ hsound.apart hjob) hholds
    have hmove := uploadStep_move setting.config setting.digest ⟨state.db, state.storage, job⟩ event
    refine Or.inl ⟨old, held_eq_some_iff.mpr ⟨job, hjob, hmove.sessionId.symm, hold⟩, ?_⟩
    rw [hcontent, hreceives]
  | begins request randomUUID hfresh hevent =>
    obtain ⟨hstage, hnothing⟩ := processUpload_holds hholds
    have hunderway :
        (processUpload setting.config request randomUUID input.1 state.db).2.stage.Underway := by
      rw [hstage]
      trivial
    obtain ⟨hrole, huser, hown⟩ := processUpload_underway hunderway
    exact Or.inr ⟨hnothing, hfresh, request, randomUUID, hevent, hrole, huser.trans hown.symm,
      hown.symm⟩

/-- **A step** keeps the meters of all uploads. -/
theorem measured_catalogStep (hsound : CatalogSound setting state)
    (hmeasured : ∀ call job, state.server.uploads.get? call = some job →
      job.Measured setting.config state.storage) {found : UploadJob}
    (hfound : (catalogStep setting state input).server.uploads.get? call = some found) :
    found.Measured setting.config (catalogStep setting state input).storage := by
  cases catalogStep_job hsound hfound with
  | kept job hjob hsame hnothing =>
    intro content hholds
    exact hmeasured call found hjob content (hsame.symm.trans hholds)
  | goes job event hjob hevent hreceives hafter =>
    rw [hafter]
    exact measured_uploadStep (fun plan ↦ hsound.apart hjob) (hmeasured call job hjob)
  | begins request randomUUID hfresh hevent =>
    intro content hholds
    obtain ⟨hstage, rfl⟩ := processUpload_holds hholds
    rw [hstage]
    rfl

/-- **A step** plans a file for the resource that was planned, or for one that is drawn. -/
theorem plan_catalogStep (hsound : CatalogSound setting state) {found : UploadJob}
    (hfound : (catalogStep setting state input).server.uploads.get? call = some found)
    {plan : MovePlan} (hplan : found.stage.plan? = some plan) :
    (∃ job, state.server.uploads.get? call = some job ∧ job.stage.plan? = some plan) ∨
      ∃ buffers randomBytes, input.2 = .server (.upload call (.generated buffers randomBytes)) ∧
        plan.resourceId = resourceIdOf randomBytes := by
  cases catalogStep_job hsound hfound with
  | kept job hjob hsame hnothing => exact Or.inl ⟨found, hjob, hplan⟩
  | goes job event hjob hevent hreceives hafter =>
    have hmove := uploadStep_move setting.config setting.digest ⟨state.db, state.storage, job⟩ event
    rcases hmove.plan_cases hplan with hold | ⟨buffers, randomBytes, rfl, hid⟩
    · exact Or.inl ⟨job, hjob, hold⟩
    · exact Or.inr ⟨buffers, randomBytes, hevent, hid⟩
  | begins request randomUUID hfresh hevent =>
    rw [(processUpload_job setting.config request randomUUID state.db).1] at hplan
    cases hplan

end Catalog

end CampusMesh.Server
