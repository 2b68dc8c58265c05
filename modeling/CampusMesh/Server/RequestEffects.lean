import CampusMesh.Server.LateGrants
import CampusMesh.Server.SessionCodes

/-!
# What a request changes, and for whom

Everything that the services change for a session is asked for under a token, and this module says
by whom: a resource is inserted by an upload that an instructor of its session began
(`CatalogMove.resources`, `CatalogMove.uploads`), it is deleted, and an active session ended, by an
instructor of the session (`CatalogMove.deleted_by`, `CatalogMove.ended_by`), and frames are sent to
sockets that have connected (`CatalogMove.socketsKnown`, `CatalogMove.sockets`).
-/

set_option autoImplicit false
set_option relaxedAutoImplicit false

namespace CampusMesh.Server

open Library Shared

variable {ν : Type}

/-! ### Steps -/

/-- What a step of the server with its deletions does. -/
inductive CatalogMove (setting : ServerSetting ν) (state : CatalogState ν) (now : ℕ) :
    CatalogEvent ν → CatalogState ν → Prop
  | idle (event : CatalogEvent ν) : CatalogMove setting state now event state
  | restarted : CatalogMove setting state now .restart (.new state.db state.storage)
  | served (event : ServerEvent ν) (hruns : state.server.hub.halted = false) :
      CatalogMove setting state now (.server event)
        { state with server := handleServerEvent setting now state.server event }
  | deleted (call : ℕ) (resourceId : String) (userRole : UserRole) (userSessionId : String)
      (resource : ResourceRow) (deletions : OrderedMap ℕ PendingDeletion)
      (hrole : userRole = .instructor)
      (hfound : ResourceRepository.findById resourceId state.db = some resource)
      (hsession : userSessionId = resource.sessionId) :
      CatalogMove setting state now (.deleteResource call resourceId userRole userSessionId)
        ⟨state.server.setDb (ResourceRepository.delete resourceId state.db).1, deletions⟩
  | unlinked (call : ℕ) (fault : Option JsError) (storage : Storage)
      (deletions : OrderedMap ℕ PendingDeletion) :
      CatalogMove setting state now (.unlinked call fault)
        ⟨{ state.server with storage := storage }, deletions⟩

theorem catalogStep_move (setting : ServerSetting ν) (state : CatalogState ν)
    (input : CatalogInput ν) :
    CatalogMove setting state input.1 input.2 (catalogStep setting state input) := by
  obtain ⟨now, event⟩ := input
  cases event with
  | restart => exact .restarted
  | server event =>
    simp only [catalogStep, serverStep]
    split_ifs with hhalted
    · exact .idle _
    · exact .served event (Bool.eq_false_iff.mpr hhalted)
  | unlinked call fault =>
    simp only [catalogStep, continueDeletion]
    split_ifs
    · exact .idle _
    · split
      · exact .unlinked call fault _ _
      · exact .idle _
  | deleteResource call resourceId userRole userSessionId =>
    simp only [catalogStep, requestDeletion]
    split_ifs
    · exact .idle _
    · exact .idle _
    · unfold deleteResource
      by_cases hrole : userRole = .instructor
      · rw [if_neg (not_not.mpr hrole)]
        cases hfound : ResourceRepository.findById resourceId state.db with
        | none => exact .idle _
        | some resource =>
          by_cases hsession : userSessionId = resource.sessionId
          · simp only [hsession, ne_eq, not_true_eq_false, if_false]
            exact hsession ▸ .deleted call resourceId userRole userSessionId resource _ hrole hfound
              hsession
          · simp only [hsession, ne_eq, not_false_eq_true, if_true]
            exact .idle _
      · rw [if_pos hrole]
        exact .idle _

section Moves

variable {setting : ServerSetting ν} {state next : CatalogState ν} {now : ℕ}
  {event : CatalogEvent ν}

/-! ### Sockets -/

open SignalingHub in
/-- A socket that is known has connected before or connects now. -/
theorem CatalogMove.sockets (hmove : CatalogMove setting state now event next) {socket : Socket}
    (hhas : next.server.hub.sockets.has socket = true) :
    state.server.hub.sockets.has socket = true ∨ event = .server (.hub (.connection socket)) := by
  cases hmove with
  | idle | deleted | unlinked => exact Or.inl hhas
  | restarted =>
    exact absurd hhas (by simp [CatalogState.new, ServerState.new, SignalingHub.new])
  | served event =>
    rcases handleServerEvent_cases setting now state.server event with
      ⟨hubEvent, rfl, hhub⟩ | ⟨db, hhub, -⟩
    · simp only [hhub] at hhas
      rcases (handleEvent_move setting.host now state.server.hub hubEvent).socket_cases socket with
        hsame | ⟨hknown, -⟩ | ⟨-, rfl, -⟩
      · rw [OrderedMap.has, hsame] at hhas
        exact Or.inl hhas
      · exact Or.inl hknown
      · exact Or.inr rfl
    · simp only [hhub] at hhas
      exact Or.inl hhas

/-- Frames are sent to sockets that are known. -/
theorem CatalogMove.socketsKnown (hmove : CatalogMove setting state now event next)
    (hknown : SocketsKnown state.server.hub) : SocketsKnown next.server.hub := by
  cases hmove with
  | idle | unlinked => exact hknown
  | deleted => exact ⟨hknown.registered, hknown.receivers⟩
  | restarted => exact socketsKnown_new _
  | served event =>
    rcases handleServerEvent_cases setting now state.server event with
      ⟨hubEvent, rfl, hhub⟩ | ⟨db, hhub, -⟩
    · simp only [hhub]
      exact (handleEvent_move setting.host now state.server.hub hubEvent).socketsKnown hknown
    · simp only [hhub]
      exact ⟨hknown.registered, hknown.receivers⟩

/-- Peers are registered in the sessions of their tokens. -/
theorem CatalogMove.roomsOwn (hmove : CatalogMove setting state now event next)
    (hown : RoomsOwn state.server.hub) : RoomsOwn next.server.hub := by
  cases hmove with
  | idle | unlinked | deleted => exact hown
  | restarted => exact roomsOwn_new _
  | served event =>
    rcases handleServerEvent_cases setting now state.server event with
      ⟨hubEvent, rfl, hhub⟩ | ⟨db, hhub, -⟩
    · simp only [hhub]
      exact (handleEvent_move setting.host now state.server.hub hubEvent).roomsOwn hown
    · simp only [hhub]
      exact hown

/-- A frame was sent before, or is sent now, to a socket of the session of the event. -/
theorem CatalogMove.frames (hmove : CatalogMove setting state now event next)
    (hown : RoomsOwn state.server.hub) {frame : Socket × Json.Fields ν}
    (hframe : frame ∈ next.server.hub.sent) :
    frame ∈ state.server.hub.sent ∨ ∃ hubEvent sent, event = .server (.hub hubEvent) ∧
      hubEvent.session = frame.1.payload.sessionId ∧
        next.server.hub.sent = state.server.hub.sent ++ sent ∧ frame ∈ sent := by
  cases hmove with
  | idle | unlinked | deleted => exact Or.inl hframe
  | restarted => exact absurd hframe List.not_mem_nil
  | served event =>
    rcases handleServerEvent_cases setting now state.server event with
      ⟨hubEvent, rfl, hhub⟩ | ⟨db, hhub, -⟩
    · simp only [hhub] at hframe ⊢
      obtain ⟨sent, hsent, hsession⟩ :=
        (handleEvent_move setting.host now state.server.hub hubEvent).sent_session hown
      rw [hsent] at hframe
      exact (List.mem_append.mp hframe).imp_right fun hnew ↦
        ⟨hubEvent, sent, rfl, (hsession frame hnew).symm, hsent, hnew⟩
    · simp only [hhub] at hframe
      exact Or.inl hframe

/-! ### Resources -/

/-- An upload that begins is one that the instructor of its session asked for. -/
theorem processUpload_underway {config : UploadConfig} {request : UploadRequest}
    {randomUUID : String} {db : Database}
    (hunderway : (processUpload config request randomUUID now db).2.stage.Underway) :
    request.userRole = .instructor ∧ request.userSessionId = request.sessionId ∧
      (processUpload config request randomUUID now db).2.sessionId = request.sessionId := by
  unfold processUpload at hunderway ⊢
  simp only at hunderway ⊢
  split_ifs at hunderway ⊢ with hforbidden
  · exact hunderway.elim
  · rw [not_or, not_not, not_not] at hforbidden
    refine ⟨hforbidden.1, hforbidden.2, ?_⟩
    split
    · rfl
    · split <;> rfl

/-- An upload that is under way was before, or begins now. -/
theorem CatalogMove.uploads (hmove : CatalogMove setting state now event next) {call : ℕ}
    {job : UploadJob} (hjob : next.server.uploads.get? call = some job)
    (hunderway : job.stage.Underway) :
    (∃ before, state.server.uploads.get? call = some before ∧ before.stage.Underway ∧
        before.sessionId = job.sessionId) ∨
      ∃ request randomUUID, event = .server (.processUpload call request randomUUID) ∧
        state.server.uploads.has call = false ∧ request.userRole = .instructor ∧
        request.userSessionId = request.sessionId ∧ request.sessionId = job.sessionId := by
  cases hmove with
  | idle | deleted | unlinked => exact Or.inl ⟨job, hjob, hunderway, rfl⟩
  | restarted => simp [CatalogState.new, ServerState.new] at hjob
  | served event =>
    by_cases hbegun : ∃ other request randomUUID, event = .processUpload other request randomUUID
    · obtain ⟨other, request, randomUUID, rfl⟩ := hbegun
      simp only [handleServerEvent] at hjob
      split_ifs at hjob with hknown
      · exact Or.inl ⟨job, hjob, hunderway, rfl⟩
      · change (state.server.uploads.set other _).get? call = some job at hjob
        rw [OrderedMap.get?_set] at hjob
        split_ifs at hjob with hsame
        · obtain rfl := Option.some.inj hjob
          obtain ⟨hrole, hsession, hown⟩ := processUpload_underway hunderway
          exact Or.inr ⟨request, randomUUID, by rw [hsame],
            hsame ▸ Bool.eq_false_iff.mpr hknown, hrole, hsession, hown.symm⟩
        · exact Or.inl ⟨job, hjob, hunderway, rfl⟩
    by_cases hupload : ∃ other uploadEvent, event = .upload other uploadEvent
    · obtain ⟨other, uploadEvent, rfl⟩ := hupload
      refine Or.inl ?_
      simp only [handleServerEvent] at hjob
      split at hjob
      · next before hbefore =>
        change (state.server.uploads.set other _).get? call = some job at hjob
        rw [OrderedMap.get?_set] at hjob
        split_ifs at hjob with hsame
        · obtain rfl := Option.some.inj hjob
          exact ⟨before, hsame ▸ hbefore, uploadStep_underway hunderway,
            (uploadStep_move _ _ ⟨state.db, state.storage, before⟩ uploadEvent).sessionId.symm⟩
        · exact ⟨job, hjob, hunderway, rfl⟩
      · exact ⟨job, hjob, hunderway, rfl⟩
    · obtain ⟨-, -, huploads⟩ := @handleServerEvent_kept ν setting now state.server event
        (fun other request randomUUID heq ↦ hbegun ⟨other, request, randomUUID, heq⟩)
        fun other uploadEvent heq ↦ hupload ⟨other, uploadEvent, heq⟩
      simp only [huploads] at hjob
      exact Or.inl ⟨job, hjob, hunderway, rfl⟩

/-- An event of the server inserts a new resource, by the transaction of an upload that is under
way, or none. -/
theorem handleServerEvent_resources (setting : ServerSetting ν) (now : ℕ) (state : ServerState ν)
    (event : ServerEvent ν) :
    (handleServerEvent setting now state event).hub.db.resources = state.hub.db.resources ∨
      ∃ call createdAt fault job id row, event = .upload call (.persisted createdAt fault) ∧
        state.uploads.get? call = some job ∧ job.stage.Underway ∧ row.sessionId = job.sessionId ∧
        state.hub.db.resources.has id = false ∧
        (handleServerEvent setting now state event).hub.db.resources =
          state.hub.db.resources.set id row := by
  by_cases hupload : ∃ call uploadEvent, event = .upload call uploadEvent
  · obtain ⟨call, uploadEvent, rfl⟩ := hupload
    simp only [handleServerEvent]
    cases hjob : state.uploads.get? call with
    | none => exact Or.inl rfl
    | some job =>
      have hmove := uploadStep_move setting.config setting.digest
        ⟨state.hub.db, state.storage, job⟩ uploadEvent
      refine hmove.tables.imp (congrArg Database.resources) ?_
      rintro ⟨plan, createdAt, fault, result, rfl, hstage, hcommitted, -⟩
      obtain ⟨hfresh, -, hresources, -⟩ := ResourceRepository.createWithManifest_tables hcommitted
      have hstage : job.stage = .persisting plan := hstage
      exact ⟨call, createdAt, fault, job, plan.resourceId, _, rfl, hjob, by rw [hstage]; trivial,
        rfl, hfresh, hresources⟩
  · exact Or.inl (handleServerEvent_sameRows fun call uploadEvent heq ↦
      hupload ⟨call, uploadEvent, heq⟩).resources

/-- A resource was there before, or is inserted by the transaction of its upload. -/
theorem CatalogMove.resources (hmove : CatalogMove setting state now event next) {id : String}
    {row : ResourceRow} (hrow : next.db.resources.get? id = some row) :
    state.db.resources.get? id = some row ∨
      ∃ call createdAt fault job, event = .server (.upload call (.persisted createdAt fault)) ∧
        state.server.uploads.get? call = some job ∧ job.stage.Underway ∧
        job.sessionId = row.sessionId ∧ state.db.resources.get? id = none := by
  cases hmove with
  | idle | unlinked | restarted => exact Or.inl hrow
  | deleted call resourceId =>
    change (state.db.resources.delete resourceId).get? id = some row at hrow
    rw [OrderedMap.get?_delete] at hrow
    split_ifs at hrow
    exact Or.inl hrow
  | served event =>
    change (handleServerEvent setting now state.server event).hub.db.resources.get? id =
      some row at hrow
    rcases handleServerEvent_resources setting now state.server event with
      hsame | ⟨call, createdAt, fault, job, inserted, newRow, rfl, hjob, hunderway, hsession,
        hfresh, hnext⟩
    · rw [hsame] at hrow
      exact Or.inl hrow
    · rw [hnext, OrderedMap.get?_set] at hrow
      split_ifs at hrow with hinserted
      · exact Or.inr ⟨call, createdAt, fault, job, rfl, hjob, hunderway,
          by rw [← hsession, Option.some.inj hrow],
          hinserted ▸ OrderedMap.has_eq_false_iff.mp hfresh⟩
      · exact Or.inl hrow

/-- A resource that is gone was deleted by an instructor of its session. -/
theorem CatalogMove.deleted_by (hmove : CatalogMove setting state now event next) {id : String}
    {row : ResourceRow} (hrow : state.db.resources.get? id = some row)
    (hgone : next.db.resources.get? id = none) :
    ∃ call, event = .deleteResource call id .instructor row.sessionId := by
  cases hmove with
  | idle | unlinked | restarted => exact absurd (hrow.symm.trans hgone) (by simp)
  | deleted call resourceId userRole userSessionId resource deletions hrole hfound hsession =>
    change (state.db.resources.delete resourceId).get? id = none at hgone
    rw [OrderedMap.get?_delete] at hgone
    split_ifs at hgone with hsame
    · subst hsame
      obtain rfl : resource = row := Option.some.inj (hfound.symm.trans hrow)
      exact ⟨call, by rw [hrole, hsession]⟩
    · exact absurd (hrow.symm.trans hgone) (by simp)
  | served event =>
    change (handleServerEvent setting now state.server event).hub.db.resources.get? id =
      none at hgone
    rcases handleServerEvent_resources setting now state.server event with
      hsame | ⟨call, createdAt, fault, job, inserted, newRow, -, -, -, -, hfresh, hnext⟩
    · rw [hsame] at hgone
      exact absurd (hrow.symm.trans hgone) (by simp)
    · rw [hnext, OrderedMap.get?_set] at hgone
      split_ifs at hgone
      exact absurd (hrow.symm.trans hgone) (by simp)

/-! ### Calls that wait -/

/-- A call of `createSession` that waits has waited before, or begins now. -/
theorem CatalogMove.creations (hmove : CatalogMove setting state now event next) {call : ℕ}
    {pending : PendingCreation ν} (hpending : next.server.creations.get? call = some pending) :
    state.server.creations.get? call = some pending ∨
      ∃ request randomUUID randomBytes,
        event = .server (.createSession call request randomUUID randomBytes) ∧
        pending.passcode = trimmed request.passcode := by
  cases hmove with
  | idle | deleted | unlinked => exact Or.inl hpending
  | restarted => simp [CatalogState.new, ServerState.new] at hpending
  | served event =>
    have htransition := handleServerEvent_creationTransition setting now state.server event
    change (handleServerEvent setting now state.server event).creations.get? call = _ at hpending
    generalize handleServerEvent setting now state.server event = after at hpending htransition
    cases htransition with
    | kept _ _ _ _ hcreations => exact Or.inl (hcreations ▸ hpending)
    | refused | unknown => exact Or.inl hpending
    | begun other request randomUUID randomBytes begun _ hbegun =>
      rw [OrderedMap.get?_set] at hpending
      split_ifs at hpending with hsame
      · obtain rfl := Option.some.inj hpending
        obtain ⟨-, code, -, rfl⟩ :=
          (createSession_eq_ok_iff setting.host setting.outside randomUUID).mp hbegun
        exact Or.inr ⟨request, randomUUID, randomBytes, by rw [hsame], rfl⟩
      · exact Or.inl hpending
    | resumed other =>
      change (state.server.creations.delete other).get? call = some pending at hpending
      rw [OrderedMap.get?_delete] at hpending
      split_ifs at hpending
      exact Or.inl hpending

/-- A call of `joinSession` that waits has the passcode of its request. -/
theorem joinSession_passcode {outside : SessionHost ν} {request : JoinSessionRequest}
    {db reached : Database} {pending : PendingJoin}
    (hok : SessionService.joinSession outside request now db = (reached, .ok pending)) :
    pending.passcode = trimmed request.passcode := by
  unfold SessionService.joinSession at hok
  simp only at hok
  repeat' split at hok
  all_goals first
    | rw [← Except.ok.inj (congrArg Prod.snd hok)]
    | exact absurd (congrArg Prod.snd hok) (by simp)

/-- A call of `joinSession` that waits has waited before, or begins now. -/
theorem CatalogMove.joins (hmove : CatalogMove setting state now event next) {call : ℕ}
    {pending : PendingJoin} (hpending : next.server.joins.get? call = some pending) :
    state.server.joins.get? call = some pending ∨
      ∃ request, event = .server (.joinSession call request) ∧
        SessionService.joinSession setting.outside request now state.db =
          (next.db, .ok pending) := by
  cases hmove with
  | idle | deleted | unlinked => exact Or.inl hpending
  | restarted => simp [CatalogState.new, ServerState.new] at hpending
  | served event =>
    change (handleServerEvent setting now state.server event).joins.get? call = _ at hpending
    cases event with
    | joinSession other request =>
      simp only [handleServerEvent] at hpending ⊢
      split_ifs at hpending ⊢ with hknown
      · exact Or.inl hpending
      · cases hjoined : SessionService.joinSession setting.outside request now
          state.server.hub.db with
        | mk reached outcome =>
          rw [hjoined] at hpending
          cases outcome with
          | error error => exact Or.inl hpending
          | ok joined =>
            change (state.server.joins.set other joined).get? call = some pending at hpending
            rw [OrderedMap.get?_set] at hpending
            split_ifs at hpending with hsame
            · obtain rfl := Option.some.inj hpending
              exact Or.inr ⟨request, by rw [hsame], hjoined⟩
            · exact Or.inl hpending
    | passcodeVerified other =>
      change (state.server.joins.delete other).get? call = some pending at hpending
      rw [OrderedMap.get?_delete] at hpending
      split_ifs at hpending
      exact Or.inl hpending
    | createSession | processUpload =>
      simp only [handleServerEvent] at hpending
      repeat' split at hpending
      all_goals exact Or.inl hpending
    | passcodeHashed | upload =>
      simp only [handleServerEvent] at hpending
      split at hpending <;> exact Or.inl hpending
    | hub | getSessionInfo | listResources | getManifest | getChunkStream =>
      exact Or.inl hpending

/-! ### Sessions -/

/-- An active session whose row changes was ended by its instructor, or found expired. -/
theorem CatalogMove.ended_by (hmove : CatalogMove setting state now event next) {sessionId : String}
    {row : SessionRow} (hrow : SessionRepository.findById sessionId state.db = some row)
    (hactive : row.isActive = true)
    (hchanged : SessionRepository.findById sessionId next.db ≠ some row) :
    (∃ requester : AuthTokenPayload, event = .server (.hub (.endSession sessionId requester)) ∧
        requester.role = .instructor ∧ requester.sessionId = sessionId) ∨ row.expiresAt < now := by
  cases hmove with
  | idle | unlinked | restarted | deleted => exact absurd hrow hchanged
  | served event =>
    have hrevokes : Revokes setting state.server (now, event) sessionId := by
      by_contra hkept
      exact hchanged (handleServerEvent_findById hrow hactive hkept)
    rcases hrevokes with ⟨requester, hevent, hrole, hsession⟩ | ⟨-, found, hfound, -, hexpired⟩
    · exact Or.inl ⟨requester, by rw [← hevent], hrole, hsession⟩
    · obtain rfl : found = row := Option.some.inj (hfound.symm.trans hrow)
      exact Or.inr hexpired

end Moves

end CampusMesh.Server
