import CampusMesh.Server.ServableResources

/-!
# Grants after a revocation

`joinSession` and `processUpload` look at their session when they are called, and commit after what
they wait for. So a token is issued, and a row inserted, for a session that was ended or that
expired in the meantime. A run has only timely grants if no session is revoked while a call for it
waits and every call commits before its session expires (`timely_of_undisturbed`): the invariant is
that the session of every waiting call still has the active row that the call has seen.
-/

set_option autoImplicit false
set_option relaxedAutoImplicit false

namespace CampusMesh.Server

open Library Shared

variable {ν : Type}

/-! ### The promise -/

section Promise

variable (setting : ServerSetting ν) (state : ServerState ν) (input : ServerInput ν)

/-- The session is active and not expired. -/
def Live (now : ℕ) (sessionId : String) (db : Database) : Prop :=
  ∃ row, SessionRepository.findById sessionId db = some row ∧ row.isActive = true ∧
    ¬ row.expiresAt < now

/-- What a call of `joinSession` returns or throws in an event, with the random bytes of the id of
the peer. -/
def joinReply (randomBytes : Bytes) : Option (Except HttpError JoinSessionResponse) :=
  if state.hub.halted then none
  else
    match input.2 with
    | .passcodeVerified call => (state.joins.get? call).map fun pending ↦
        SessionService.resolveJoin setting.outside pending randomBytes input.1
    | _ => none

/-- The event issues a token of a peer for the session. -/
def IssuesToken (sessionId : String) : Prop :=
  ∃ randomBytes response,
    joinReply setting state input randomBytes = some (.ok response) ∧
      response.session.id = sessionId

/-- The event inserts a row of a resource for the session. -/
def InsertsRow (sessionId : String) : Prop :=
  ∃ id row, state.hub.db.resources.get? id = none ∧
    (serverStep setting state input).hub.db.resources.get? id = some row ∧ row.sessionId = sessionId

/-- What the event grants for a session is granted while it is active and not expired. -/
def TimelyGrants : Prop :=
  ∀ sessionId, IssuesToken setting state input sessionId ∨
    InsertsRow setting state input sessionId → Live input.1 sessionId state.hub.db

/-! ### The condition -/

/-- The event ends the session, or finds it expired. -/
def Revokes (sessionId : String) : Prop :=
  (∃ requester, input.2 = .hub (.endSession sessionId requester) ∧ requester.role = .instructor ∧
      requester.sessionId = sessionId) ∨
    checkedSession setting state input.2 = some sessionId ∧ Expired input.1 sessionId state.hub.db

/-- The passcode of a call of `joinSession` is the right one. -/
def RightPasscode (pending : PendingJoin) : Prop :=
  PasswordService.verifyPassword setting.outside.scrypt pending.passcode
    pending.session.passcodeHash = true

/-- The upload has not failed or ended. -/
def UploadStage.Underway : UploadStage → Prop
  | .deleting _ | .settled _ => False
  | _ => True

/-- A call for the session has passed its check, and may still commit. -/
def Waiting (sessionId : String) : Prop :=
  (∃ call pending, state.joins.get? call = some pending ∧ RightPasscode setting pending ∧
      pending.session.id = sessionId) ∨
    ∃ call job, state.uploads.get? call = some job ∧ job.stage.Underway ∧ job.sessionId = sessionId

/-- If the server runs, the event revokes no session that a call waits with, and a call that it lets
commit, with the right passcode or at its transaction, does so before the session expires. -/
structure Undisturbed : Prop where
  revocation : ∀ sessionId, state.hub.halted = false → Revokes setting state input sessionId →
    ¬ Waiting setting state sessionId
  token : ∀ call pending, state.hub.halted = false → input.2 = .passcodeVerified call →
    state.joins.get? call = some pending → RightPasscode setting pending →
      ¬ pending.session.expiresAt < input.1
  resource : ∀ call plan createdAt fault job row, state.hub.halted = false →
    input.2 = .upload call (.persisted createdAt fault) → state.uploads.get? call = some job →
      job.stage = .persisting plan →
        SessionRepository.findById job.sessionId state.hub.db = some row →
          ¬ row.expiresAt < input.1

/-- The sessions of the waiting calls have the active rows that the calls have seen. -/
structure GrantsSound : Prop where
  joins : ∀ call pending, state.joins.get? call = some pending → RightPasscode setting pending →
    SessionRepository.findById pending.session.id state.hub.db = some pending.session ∧
      pending.session.isActive = true
  uploads : ∀ call job, state.uploads.get? call = some job → job.stage.Underway →
    ∃ row, SessionRepository.findById job.sessionId state.hub.db = some row ∧ row.isActive = true

end Promise

/-! ### Rows that stay -/

section Rows

variable {setting : ServerSetting ν} {now : ℕ} {state : ServerState ν} {event : ServerEvent ν}
  {sessionId : String} {row : SessionRow}

/-- A row stays when another session is deactivated. -/
theorem findById_deactivate_of_ne {db : Database} {deactivated : String}
    (hrow : SessionRepository.findById sessionId db = some row) (hne : sessionId ≠ deactivated) :
    SessionRepository.findById sessionId (SessionRepository.deactivate deactivated db) =
      some row := by
  rw [SessionRepository.findById_deactivate, if_neg hne]
  exact hrow

theorem SessionsMove.findById {db next : Database} {checked : Option String}
    (hmove : SessionsMove now db checked next)
    (hrow : SessionRepository.findById sessionId db = some row) (hactive : row.isActive = true)
    (hvalid : ¬ (checked = some sessionId ∧ Expired now sessionId db)) :
    SessionRepository.findById sessionId next = some row := by
  cases hmove with
  | kept _ _ hsame =>
    rw [SessionRepository.findById, hsame]
    exact hrow
  | expired session hfound hexpired =>
    refine findById_deactivate_of_ne hrow ?_
    rintro rfl
    obtain rfl := Option.some.inj (hrow.symm.trans hfound)
    exact hvalid ⟨rfl, row, hrow, hactive, hexpired⟩
  | created _ created hfresh _ hnext =>
    have hother : sessionId ≠ created.id := by
      rintro rfl
      rw [SessionRepository.findById, OrderedMap.has_eq_false_iff.mp hfresh] at hrow
      exact absurd hrow (by simp)
    rw [SessionRepository.findById, hnext, OrderedMap.get?_set_of_ne _ hother]
    exact hrow

/-- A hub event keeps the row of an active session unless it ends it or finds it expired. -/
theorem HubMove.findById {host : Host ν} {hub next : SignalingHub ν} {hubEvent : HubEvent}
    (hmove : HubMove host now hub hubEvent next)
    (hrow : SessionRepository.findById sessionId hub.db = some row) (hactive : row.isActive = true)
    (hended : ∀ requester, hubEvent = .endSession sessionId requester →
      requester.role = .instructor → requester.sessionId ≠ sessionId)
    (hvalid : ¬ ((hubEvent = .sessionCheck sessionId ∨
      ∃ socket, hubEvent = .connection socket ∧ socket.payload.sessionId = sessionId) ∧
        Expired now sessionId hub.db)) :
    SessionRepository.findById sessionId next.db = some row := by
  cases hmove with
  | idle | reported | relayed | closing | stale | reset => exact hrow
  | admitted =>
    rw [letIn_spec]
    exact hrow
  | left _ _ _ _ between _ _ _ hbetween =>
    subst hbetween
    exact hrow
  | crashed _ _ _ _ between _ _ _ hbetween =>
    subst hbetween
    exact hrow
  | expired _ session hevent hfound hexpired =>
    refine findById_deactivate_of_ne hrow ?_
    rintro rfl
    obtain rfl := Option.some.inj (hrow.symm.trans hfound)
    exact hvalid ⟨hevent, row, hrow, hactive, hexpired⟩
  | ended ended requester hinstructor hsession =>
    refine findById_deactivate_of_ne hrow ?_
    rintro rfl
    exact hended requester rfl hinstructor hsession

/-- An event keeps the row of an active session that it does not revoke. -/
theorem handleServerEvent_findById
    (hrow : SessionRepository.findById sessionId state.hub.db = some row)
    (hactive : row.isActive = true) (hkept : ¬ Revokes setting state (now, event) sessionId) :
    SessionRepository.findById sessionId (handleServerEvent setting now state event).hub.db =
      some row := by
  rcases handleServerEvent_cases setting now state event with
    ⟨hubEvent, rfl, hhub⟩ | ⟨next, hhub, hmove⟩
  · rw [hhub]
    by_cases hknown : ∃ socket, hubEvent = .connection socket ∧ state.hub.sockets.has socket = true
    · obtain ⟨socket, rfl, hhas⟩ := hknown
      rw [handleEvent, if_pos hhas]
      exact hrow
    · refine (handleEvent_move setting.host now state.hub hubEvent).findById hrow hactive ?_ ?_
      · rintro requester rfl hinstructor hsession
        exact hkept (.inl ⟨requester, rfl, hinstructor, hsession⟩)
      · rintro ⟨rfl | ⟨socket, rfl, rfl⟩, hexpired⟩
        · exact hkept (.inr ⟨rfl, hexpired⟩)
        · exact hkept (.inr ⟨if_neg fun hhas ↦ hknown ⟨socket, rfl, hhas⟩, hexpired⟩)
  · rw [hhub]
    exact hmove.findById hrow hactive fun hrevoked ↦ hkept (.inr hrevoked)

end Rows

/-! ### Calls that wait -/

section Calls

variable {setting : ServerSetting ν} {now : ℕ} {state : ServerState ν} {event : ServerEvent ν}

/-- A session that passes its check has an active row. -/
theorem checkSession_active {sessionId : String} {db next : Database}
    (hok : checkSession sessionId now db = (next, none)) :
    ∃ row, SessionRepository.findById sessionId db = some row ∧ row.isActive = true := by
  unfold checkSession at hok
  split at hok
  · simp at hok
  · next row hrow =>
    split_ifs at hok with hinactive
    · simp at hok
    · simp at hok
    · exact ⟨row, hrow, by simpa using hinactive⟩

/-- A call of `joinSession` that waits has the row of its session. -/
theorem joinSession_ok {outside : SessionHost ν} {request : JoinSessionRequest} {db next : Database}
    {pending : PendingJoin}
    (hok : SessionService.joinSession outside request now db = (next, .ok pending)) :
    next = db ∧ SessionRepository.findById pending.session.id db = some pending.session ∧
      pending.session.isActive = true := by
  unfold SessionService.joinSession at hok
  simp only at hok
  by_cases hcode : SessionService.joinCode outside request = ""
  · simp [hcode] at hok
  by_cases hpasscode : trimmed request.passcode = ""
  · simp [hcode, hpasscode] at hok
  rw [if_neg hcode, if_neg hpasscode] at hok
  split at hok
  · simp at hok
  · next session hfound =>
    by_cases hinactive : session.isActive = false
    · simp [hinactive] at hok
    by_cases hexpired : SessionService.isSessionExpired session now = true
    · simp [hinactive, hexpired] at hok
    rw [if_neg hinactive, if_neg hexpired] at hok
    obtain ⟨rfl, hpending⟩ := Prod.mk.inj hok
    rw [← Except.ok.inj hpending]
    exact ⟨rfl, findById_of_findByCode hfound, by simpa using hinactive⟩

/-- A call of `processUpload` that waits has an active session. -/
theorem processUpload_active {config : UploadConfig} {request : UploadRequest} {randomUUID : String}
    {db : Database}
    (hunderway : (processUpload config request randomUUID now db).2.stage.Underway) :
    (processUpload config request randomUUID now db).1 = db ∧
      ∃ row, SessionRepository.findById (processUpload config request randomUUID now db).2.sessionId
        db = some row ∧ row.isActive = true := by
  unfold processUpload at hunderway ⊢
  simp only at hunderway ⊢
  split_ifs at hunderway ⊢
  · exact hunderway.elim
  · split at hunderway
    · exact hunderway.elim
    · next hchecked =>
      obtain rfl := checkSession_ok hchecked
      split at hunderway
      · exact hunderway.elim
      · exact ⟨rfl, checkSession_active hchecked⟩

/-- An upload that has failed or ended does not go on. -/
theorem uploadStep_underway {config : UploadConfig} {digest : Bytes → Bytes} {upload : UploadState}
    {uploadEvent : UploadEvent}
    (hunderway : (uploadStep config digest upload uploadEvent).job.stage.Underway) :
    upload.job.stage.Underway := by
  have htransition := uploadStep_transition config digest upload uploadEvent
  generalize uploadStep config digest upload uploadEvent = next at hunderway htransition
  cases htransition with
  | ignored => exact hunderway
  | failed error hfails =>
    cases hstage : upload.job.stage with
    | opening | saving | generating | moving | copying | unlinking | persisting => trivial
    | deleting | settled => simp [hstage, UploadStage.canFail] at hfails
  | deleted => split_ifs at hunderway <;> exact hunderway.elim
  | deleteFailed => exact hunderway.elim
  | opened hstage | received _ _ _ hstage | ended _ hstage | generated _ _ hstage
  | renamed _ _ hstage | crossDevice _ hstage | copied _ _ _ hstage | uncopied _ hstage
  | copyEnded _ _ hstage | unlinked _ hstage | persisted _ _ _ hstage =>
    rw [hstage]
    trivial

theorem UploadMove.sessionId {config : UploadConfig} {digest : Bytes → Bytes} {upload : UploadState}
    {uploadEvent : UploadEvent} {next : UploadState}
    (hmove : UploadMove config digest upload uploadEvent next) :
    next.job.sessionId = upload.job.sessionId := by
  cases hmove <;> rfl

/-- A waiting call of `joinSession` has waited before, or has just seen the row of its session. -/
theorem handleServerEvent_joins {call : ℕ} {pending : PendingJoin}
    (hpending : (handleServerEvent setting now state event).joins.get? call = some pending) :
    state.joins.get? call = some pending ∨
      SessionRepository.findById pending.session.id
          (handleServerEvent setting now state event).hub.db = some pending.session ∧
        pending.session.isActive = true := by
  cases event with
  | joinSession other request =>
    simp only [handleServerEvent] at hpending ⊢
    by_cases hcall : state.joins.has other = true
    · rw [if_pos hcall] at hpending
      exact .inl hpending
    · rw [if_neg hcall] at hpending ⊢
      cases hjoined : SessionService.joinSession setting.outside request now state.hub.db with
      | mk next outcome =>
        cases outcome with
        | error error =>
          rw [hjoined] at hpending
          exact .inl hpending
        | ok joined =>
          rw [hjoined] at hpending
          change (state.joins.set other joined).get? call = some pending at hpending
          rw [OrderedMap.get?_set] at hpending
          split_ifs at hpending
          · obtain rfl := Option.some.inj hpending
            obtain ⟨rfl, hrow⟩ := joinSession_ok hjoined
            exact .inr hrow
          · exact .inl hpending
  | passcodeVerified other =>
    change (state.joins.delete other).get? call = some pending at hpending
    rw [OrderedMap.get?_delete] at hpending
    split_ifs at hpending
    exact .inl hpending
  | createSession =>
    simp only [handleServerEvent] at hpending
    split_ifs at hpending
    · exact .inl hpending
    · split at hpending <;> exact .inl hpending
  | passcodeHashed | upload =>
    simp only [handleServerEvent] at hpending
    split at hpending <;> exact .inl hpending
  | processUpload =>
    simp only [handleServerEvent] at hpending
    split_ifs at hpending <;> exact .inl hpending
  | hub | getSessionInfo | listResources | getManifest | getChunkStream => exact .inl hpending

/-- A call of `processUpload` that waits has waited before with the same session, or has just found
its session active. -/
theorem handleServerEvent_uploads {call : ℕ} {job : UploadJob}
    (hjob : (handleServerEvent setting now state event).uploads.get? call = some job)
    (hunderway : job.stage.Underway) :
    (∃ before, state.uploads.get? call = some before ∧ before.stage.Underway ∧
        before.sessionId = job.sessionId) ∨
      ∃ row, SessionRepository.findById job.sessionId
        (handleServerEvent setting now state event).hub.db = some row ∧ row.isActive = true := by
  by_cases hbegun : ∃ other request randomUUID, event = .processUpload other request randomUUID
  · obtain ⟨other, request, randomUUID, rfl⟩ := hbegun
    simp only [handleServerEvent] at hjob ⊢
    split_ifs at hjob ⊢ with hcall
    · exact .inl ⟨job, hjob, hunderway, rfl⟩
    · change (state.uploads.set other _).get? call = some job at hjob
      rw [OrderedMap.get?_set] at hjob
      split_ifs at hjob
      · obtain rfl := Option.some.inj hjob
        obtain ⟨hsame, hrow⟩ := processUpload_active hunderway
        refine .inr ?_
        rw [ServerState.setDb_hub]
        simp only [hsame]
        exact hrow
      · exact .inl ⟨job, hjob, hunderway, rfl⟩
  by_cases hupload : ∃ other uploadEvent, event = .upload other uploadEvent
  · obtain ⟨other, uploadEvent, rfl⟩ := hupload
    refine .inl ?_
    simp only [handleServerEvent] at hjob
    split at hjob
    · next before hbefore =>
      change (state.uploads.set other _).get? call = some job at hjob
      rw [OrderedMap.get?_set] at hjob
      split_ifs at hjob with hsame
      · obtain rfl := Option.some.inj hjob
        refine ⟨before, hsame ▸ hbefore, uploadStep_underway hunderway, ?_⟩
        exact (uploadStep_move _ _ ⟨state.hub.db, state.storage, before⟩ uploadEvent).sessionId.symm
      · exact ⟨job, hjob, hunderway, rfl⟩
    · exact ⟨job, hjob, hunderway, rfl⟩
  · obtain ⟨-, -, huploads⟩ := @handleServerEvent_kept ν setting now state event
      (fun other request randomUUID heq ↦ hbegun ⟨other, request, randomUUID, heq⟩)
      fun other uploadEvent heq ↦ hupload ⟨other, uploadEvent, heq⟩
    rw [huploads] at hjob
    exact .inl ⟨job, hjob, hunderway, rfl⟩

end Calls

/-! ### Runs -/

section Runs

variable {setting : ServerSetting ν} {state : ServerState ν} {input : ServerInput ν}

/-- **A step.** As long as it is not disturbed, the sessions of the waiting calls stay active. -/
theorem serverStep_grantsSound (hsound : GrantsSound setting state)
    (hundisturbed : Undisturbed setting state input) :
    GrantsSound setting (serverStep setting state input) := by
  unfold serverStep
  split_ifs with hhalted
  · exact hsound
  have hkept : ∀ {sessionId row}, Waiting setting state sessionId →
      SessionRepository.findById sessionId state.hub.db = some row → row.isActive = true →
        SessionRepository.findById sessionId
          (handleServerEvent setting input.1 state input.2).hub.db = some row :=
    fun hwaiting hrow hactive ↦ handleServerEvent_findById hrow hactive
      fun hrevoked ↦ hundisturbed.revocation _ (Bool.eq_false_iff.mpr hhalted) hrevoked hwaiting
  constructor
  · intro call pending hpending hpasscode
    rcases handleServerEvent_joins hpending with hbefore | hseen
    · obtain ⟨hrow, hactive⟩ := hsound.joins call pending hbefore hpasscode
      exact ⟨hkept (.inl ⟨call, pending, hbefore, hpasscode, rfl⟩) hrow hactive, hactive⟩
    · exact hseen
  · intro call job hjob hunderway
    rcases handleServerEvent_uploads hjob hunderway with ⟨before, hbefore, hwaits, hsame⟩ | hfound
    · obtain ⟨row, hrow, hactive⟩ := hsound.uploads call before hbefore hwaits
      refine ⟨row, ?_, hactive⟩
      rw [← hsame]
      exact hkept (.inr ⟨call, before, hbefore, hwaits, rfl⟩) hrow hactive
    · exact hfound

/-- A token is issued for a call whose passcode was right. -/
theorem issuesToken_cases {sessionId : String}
    (hissues : IssuesToken setting state input sessionId) :
    ∃ call pending, state.hub.halted = false ∧ input.2 = .passcodeVerified call ∧
      state.joins.get? call = some pending ∧ RightPasscode setting pending ∧
        pending.session.id = sessionId := by
  obtain ⟨randomBytes, response, hreply, hsession⟩ := hissues
  unfold joinReply at hreply
  split_ifs at hreply with hhalted
  split at hreply
  · next call hevent =>
    obtain ⟨pending, hpending, hresolved⟩ := Option.map_eq_some_iff.mp hreply
    unfold SessionService.resolveJoin at hresolved
    split_ifs at hresolved with hwrong
    refine ⟨call, pending, Bool.eq_false_iff.mpr hhalted, hevent, hpending,
      by simpa [RightPasscode] using hwrong, ?_⟩
    rw [← hsession, ← Except.ok.inj hresolved]
    rfl
  · simp at hreply

/-- A row is inserted by the transaction of an upload. -/
theorem insertsRow_cases {sessionId : String}
    (hinserts : InsertsRow setting state input sessionId) :
    ∃ call plan createdAt fault job, state.hub.halted = false ∧
      input.2 = .upload call (.persisted createdAt fault) ∧ state.uploads.get? call = some job ∧
        job.stage = .persisting plan ∧ job.sessionId = sessionId := by
  obtain ⟨id, row, habsent, hrow, hsession⟩ := hinserts
  unfold serverStep at hrow
  split_ifs at hrow with hhalted
  · simp [habsent] at hrow
  by_cases hupload : ∃ call uploadEvent, input.2 = .upload call uploadEvent
  · obtain ⟨call, uploadEvent, hevent⟩ := hupload
    rw [hevent] at hrow
    simp only [handleServerEvent] at hrow
    split at hrow
    · next job hjob =>
      rcases (uploadStep_move setting.config setting.digest ⟨state.hub.db, state.storage, job⟩
          uploadEvent).tables with
        hsame | ⟨plan, createdAt, fault, result, rfl, hstage, hcommitted, -, -⟩
      · change (uploadStep _ _ _ _).db.resources.get? id = some row at hrow
        rw [hsame, habsent] at hrow
        exact absurd hrow (by simp)
      · have hstage : job.stage = .persisting plan := hstage
        refine ⟨call, plan, createdAt, fault, job, Bool.eq_false_iff.mpr hhalted, hevent, hjob,
          hstage, ?_⟩
        obtain ⟨-, -, hresources, -⟩ := ResourceRepository.createWithManifest_tables hcommitted
        change (uploadStep _ _ _ _).db.resources.get? id = some row at hrow
        rw [hresources, OrderedMap.get?_set] at hrow
        split_ifs at hrow
        · rw [← hsession, ← Option.some.inj hrow]
          rfl
        · change state.hub.db.resources.get? id = some row at hrow
          rw [habsent] at hrow
          exact absurd hrow (by simp)
    · rw [habsent] at hrow
      exact absurd hrow (by simp)
  · have hresources : (handleServerEvent setting input.1 state input.2).hub.db.resources =
        state.hub.db.resources :=
      (handleServerEvent_sameRows fun call uploadEvent heq ↦
        hupload ⟨call, uploadEvent, heq⟩).resources
    rw [hresources, habsent] at hrow
    exact absurd hrow (by simp)

/-- What is granted in an undisturbed step is granted for a session that is active and not expired.
-/
theorem timelyGrants_of_undisturbed (hsound : GrantsSound setting state)
    (hundisturbed : Undisturbed setting state input) : TimelyGrants setting state input := by
  rintro sessionId (hissues | hinserts)
  · obtain ⟨call, pending, hruns, hevent, hpending, hpasscode, rfl⟩ := issuesToken_cases hissues
    obtain ⟨hrow, hactive⟩ := hsound.joins call pending hpending hpasscode
    exact ⟨pending.session, hrow, hactive,
      hundisturbed.token call pending hruns hevent hpending hpasscode⟩
  · obtain ⟨call, plan, createdAt, fault, job, hruns, hevent, hjob, hstage, rfl⟩ :=
      insertsRow_cases hinserts
    have hunderway : job.stage.Underway := by
      rw [hstage]
      trivial
    obtain ⟨row, hrow, hactive⟩ := hsound.uploads call job hjob hunderway
    exact ⟨row, hrow, hactive,
      hundisturbed.resource call plan createdAt fault job row hruns hevent hjob hstage hrow⟩

/-- **No grant after a revocation** in any run in which no session is ended, or found expired, while
a call for it waits, and every call commits before its session expires. -/
theorem timely_of_undisturbed {db : Database} {storage : Storage} {inputs : List (ServerInput ν)}
    (hundisturbed : Along (serverStep setting) (Undisturbed setting) (ServerState.new db storage)
      inputs) :
    Along (serverStep setting) (TimelyGrants setting) (ServerState.new db storage) inputs := by
  refine along_of_invariant (GrantsSound setting)
    (fun _ _ hsound hinput ↦ serverStep_grantsSound hsound hinput)
    (fun _ _ hsound hinput ↦ timelyGrants_of_undisturbed hsound hinput) ⟨?_, ?_⟩ hundisturbed
  · intro call pending hpending
    simp [ServerState.new] at hpending
  · intro call job hjob
    simp [ServerState.new] at hjob

end Runs

/-! ### Sample runs -/

/-- A file is uploaded up to the transaction. -/
def unsettledRun : List (ServerInput Rat) :=
  (1, .processUpload 0 sampleRequest "uuid") :: movedUpload.map fun event ↦ (1, .upload 0 event)

/-- An upload that goes on revokes nothing. -/
theorem undisturbed_upload {setting : ServerSetting ν} {state : ServerState ν} {now call : ℕ}
    {event : UploadEvent}
    (hvalid : ∀ createdAt fault job row, event = .persisted createdAt fault →
      state.uploads.get? call = some job →
        SessionRepository.findById job.sessionId state.hub.db = some row → ¬ row.expiresAt < now) :
    Undisturbed setting state (now, .upload call event) where
  revocation := by
    rintro sessionId - (⟨requester, hevent, -⟩ | ⟨hchecked, -⟩)
    · cases hevent
    · simp [checkedSession] at hchecked
  token other pending _ hevent := by cases hevent
  resource := by
    rintro other plan createdAt fault job row - hevent hjob -
    cases hevent
    exact hvalid createdAt fault job row rfl hjob

/-- The file is stored while its session is active. -/
theorem timely_of_undisturbed_upload :
    Along (serverStep signalingSetting) (TimelyGrants signalingSetting)
      (ServerState.new classroom OrderedMap.empty)
      (unsettledRun ++ [(1, .upload 0 (.persisted "now" none))]) := by
  refine timely_of_undisturbed ⟨⟨?_, ?_, ?_⟩, undisturbed_upload ?_, undisturbed_upload ?_,
    undisturbed_upload ?_, undisturbed_upload ?_, undisturbed_upload ?_,
    undisturbed_upload ?_, trivial⟩
  · rintro sessionId - (⟨requester, hevent, -⟩ | ⟨hchecked, row, hrow, -, hlate⟩)
    · cases hevent
    · obtain rfl : "session" = sessionId := Option.some.inj hchecked
      obtain rfl := Option.some.inj hrow
      exact absurd hlate (by decide)
  · intro call pending _ hevent
    cases hevent
  · intro call plan createdAt fault job row _ hevent
    cases hevent
  all_goals intro createdAt fault job row hevent hjob hrow
  case refine_9 =>
    obtain rfl := Option.some.inj hjob
    obtain rfl := Option.some.inj hrow
    decide
  all_goals cases hevent

/-- The instructor ends the session before the transaction, and the row is inserted nevertheless. -/
theorem endedSession_not_timely :
    ¬ Along (serverStep signalingSetting) (TimelyGrants signalingSetting)
      (ServerState.new classroom OrderedMap.empty)
      (unsettledRun ++ [(2, .hub (.endSession "session"
          ⟨"session", .instructor, none, "Ada", "ABC123"⟩)),
        (3, .upload 0 (.persisted "now" none))]) := by
  intro htimely
  have hlast := ((along_append _ _ _).mp htimely).2.2.1
  obtain ⟨row, hrow, hactive, -⟩ := hlast "session" (.inr ⟨"res_07", _, rfl, rfl, rfl⟩)
  obtain rfl := Option.some.inj hrow
  exact absurd hactive (by decide)

end CampusMesh.Server
