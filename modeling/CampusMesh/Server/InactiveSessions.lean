import CampusMesh.Server.CampusServer
import CampusMesh.Server.ControlAuthenticity
import CampusMesh.Server.SessionIsolation
import CampusMesh.Server.TelemetryMembership

/-!
# Inactive sessions have no live room

A session is deactivated by `endSession`, which also empties its room, and by every request and
handshake that finds it expired, which does not. So peers who are connected when their session
expires stay in its room, and the server goes on to relay their frames although the session is
inactive. `ExpiresEmpty` is the condition that this does not happen: whenever a session is found
expired nobody is in its room. It holds along exactly those runs in which inactive sessions have
empty rooms (`noLiveRoom_iff`), and in them an inactive session gets no frame any more and stays
inactive.
-/

set_option autoImplicit false
set_option relaxedAutoImplicit false

namespace CampusMesh.Server

open Library Shared SignalingHub

variable {ν : Type}

/-! ### The promise -/

/-- The `is_active` flag of the session is 0. -/
def Inactive (hub : SignalingHub ν) (sessionId : String) : Prop :=
  ∃ row, SessionRepository.findById sessionId hub.db = some row ∧ row.isActive = false

/-- In a run: nobody is in the room of an inactive session, and from then on its sockets get no
frames and it stays inactive. -/
structure NoLiveRoom (setting : ServerSetting ν) (db : Database) (storage : Storage)
    (inputs : List (ServerInput ν)) : Prop where
  empty : ∀ before later, inputs = before ++ later →
    ∀ sessionId, Inactive (serverRun setting db storage before).hub sessionId →
      ∀ peerId, registered (serverRun setting db storage before).hub sessionId peerId = none
  silent : ∀ before later, inputs = before ++ later →
    ∀ sessionId, Inactive (serverRun setting db storage before).hub sessionId →
      deliveredTo sessionId (serverRun setting db storage inputs).hub =
        deliveredTo sessionId (serverRun setting db storage before).hub
  final : ∀ before later, inputs = before ++ later →
    ∀ sessionId, Inactive (serverRun setting db storage before).hub sessionId →
      Inactive (serverRun setting db storage inputs).hub sessionId

/-- The session of a resource that may be served to a member of a session. -/
def servedSession (resourceId userSessionId : String) (db : Database) : Option String :=
  (ResourceRepository.findById resourceId db).bind fun resource ↦
    if resource.status = .ready ∧ userSessionId = resource.sessionId then some resource.sessionId
    else none

/-- The session that an event checks for its expiry. -/
def checkedSession (setting : ServerSetting ν) (state : ServerState ν) :
    ServerEvent ν → Option String
  | .hub (.connection socket) =>
    if state.hub.sockets.has socket then none else some socket.payload.sessionId
  | .hub (.sessionCheck sessionId) => some sessionId
  | .joinSession call request =>
    let sessionCode := SessionService.joinCode setting.outside request
    if state.joins.has call ∨ sessionCode = "" ∨ trimmed request.passcode = "" then none
    else (SessionRepository.findByCode setting.outside.toUpperCase sessionCode state.hub.db).map
      SessionRow.id
  | .getSessionInfo sessionId => some sessionId
  | .listResources sessionId userSessionId =>
    if userSessionId = sessionId then some sessionId else none
  | .getManifest resourceId userSessionId | .getChunkStream resourceId _ userSessionId =>
    servedSession resourceId userSessionId state.hub.db
  | .processUpload call request _ =>
    if state.uploads.has call ∨ request.userRole ≠ .instructor ∨
        request.userSessionId ≠ request.sessionId then none
    else some request.sessionId
  | _ => none

/-- The session is active although its time is over. -/
def Expired (now : ℕ) (sessionId : String) (db : Database) : Prop :=
  ∃ row, SessionRepository.findById sessionId db = some row ∧ row.isActive = true ∧
    row.expiresAt < now

/-- A session that an event finds expired has nobody in its room. -/
def ExpiresEmpty (setting : ServerSetting ν) (state : ServerState ν)
    (input : ServerInput ν) : Prop :=
  state.hub.halted = false → ∀ sessionId, checkedSession setting state input.2 = some sessionId →
    Expired input.1 sessionId state.hub.db →
      ∀ peerId, registered state.hub sessionId peerId = none

/-! ### What requests do to the database -/

section Database

variable {now : ℕ} {db next : Database}

/-- What everything besides insertions does to the database: nothing, or the deactivation of a
session. -/
inductive OnlyDeactivates (db : Database) : Database → Prop
  | kept : OnlyDeactivates db db
  | deactivated (sessionId : String) :
      OnlyDeactivates db (SessionRepository.deactivate sessionId db)

/-- The resources and their chunks are left alone. -/
theorem OnlyDeactivates.sameRows (hmove : OnlyDeactivates db next) :
    ResourceRepository.SameRows db next := by
  cases hmove with
  | kept => exact .refl db
  | deactivated sessionId => exact ResourceRepository.deactivate_sameRows sessionId db

theorem checkSession_onlyDeactivates (sessionId : String) (now : ℕ) (db : Database) :
    OnlyDeactivates db (checkSession sessionId now db).1 := by
  unfold checkSession
  split
  · exact .kept
  · split_ifs
    · exact .kept
    · exact .deactivated _
    · exact .kept

/-- What is done after the check of a session does not change the database. -/
theorem checked_fst {α : Type} {sessionId : String} {refused : HttpError → α}
    {served : Database → α} :
    (match checkSession sessionId now db with
      | (reached, some error) => (reached, refused error)
      | (reached, none) => (reached, served reached) : Database × α).1 =
        (checkSession sessionId now db).1 := by
  rcases checkSession sessionId now db with ⟨reached, _ | error⟩
  · rfl
  · rfl

theorem checked_onlyDeactivates {α : Type} {sessionId : String} {refused : HttpError → α}
    {served : Database → α} :
    OnlyDeactivates db
      (match checkSession sessionId now db with
        | (reached, some error) => (reached, refused error)
        | (reached, none) => (reached, served reached) : Database × α).1 := by
  rw [checked_fst]
  exact checkSession_onlyDeactivates sessionId now db

theorem served_onlyDeactivates {α : Type} (resourceId userSessionId : String) (now : ℕ)
    (db : Database) {missing foreign : α} {refused : ResourceRow → HttpError → α}
    {served : ResourceRow → Database → α} :
    OnlyDeactivates db
      (match ResourceRepository.findById resourceId db with
        | none => (db, missing)
        | some resource =>
          if resource.status ≠ .ready then (db, missing)
          else if userSessionId ≠ resource.sessionId then (db, foreign)
          else
            match checkSession resource.sessionId now db with
            | (reached, some error) => (reached, refused resource error)
            | (reached, none) => (reached, served resource reached) : Database × α).1 := by
  cases ResourceRepository.findById resourceId db with
  | none => exact .kept
  | some resource =>
    simp only
    split_ifs
    · exact .kept
    · exact .kept
    · exact checked_onlyDeactivates

theorem joinSession_onlyDeactivates (outside : SessionHost ν) (request : JoinSessionRequest)
    (now : ℕ) (db : Database) :
    OnlyDeactivates db (SessionService.joinSession outside request now db).1 := by
  unfold SessionService.joinSession
  simp only
  by_cases hcode : SessionService.joinCode outside request = ""
  · rw [if_pos hcode]
    exact .kept
  by_cases hpasscode : trimmed request.passcode = ""
  · rw [if_neg hcode, if_pos hpasscode]
    exact .kept
  rw [if_neg hcode, if_neg hpasscode]
  split
  · exact .kept
  · next session _ =>
    by_cases hactive : session.isActive = false
    · rw [if_pos hactive]
      exact .kept
    · rw [if_neg hactive]
      by_cases hexpired : SessionService.isSessionExpired session now = true
      · rw [if_pos hexpired]
        exact .deactivated _
      · rw [if_neg hexpired]
        exact .kept

theorem getSessionInfo_onlyDeactivates (sessionId : String) (now : ℕ) (rooms : Rooms)
    (db : Database) :
    OnlyDeactivates db (SessionService.getSessionInfo sessionId now rooms db).1 := by
  unfold SessionService.getSessionInfo
  split
  · exact .kept
  · split_ifs
    · exact .deactivated _
    · exact .kept

theorem listResources_onlyDeactivates (sessionId userSessionId : String) (now : ℕ)
    (db : Database) : OnlyDeactivates db (listResources sessionId userSessionId now db).1 := by
  unfold listResources
  split_ifs
  · exact .kept
  · exact checked_onlyDeactivates

/-- The first part of an upload checks the session of an instructor. -/
theorem processUpload_fst (config : UploadConfig) (request : UploadRequest) (randomUUID : String)
    (now : ℕ) (db : Database) :
    (processUpload config request randomUUID now db).1 =
      if request.userRole ≠ .instructor ∨ request.userSessionId ≠ request.sessionId then db
      else (checkSession request.sessionId now db).1 := by
  unfold processUpload
  simp only
  split_ifs
  · rfl
  · rcases checkSession request.sessionId now db with ⟨reached, _ | error⟩
    · simp only
      split <;> rfl
    · rfl

theorem processUpload_onlyDeactivates (config : UploadConfig) (request : UploadRequest)
    (randomUUID : String) (now : ℕ) (db : Database) :
    OnlyDeactivates db (processUpload config request randomUUID now db).1 := by
  rw [processUpload_fst]
  split_ifs
  · exact .kept
  · exact checkSession_onlyDeactivates request.sessionId now db

theorem HubMove.onlyDeactivates {host : Host ν} {hub after : SignalingHub ν} {event : HubEvent}
    (hmove : HubMove host now hub event after) : OnlyDeactivates hub.db after.db := by
  cases hmove with
  | idle | reported | relayed | closing | stale | reset => exact .kept
  | admitted =>
    rw [letIn_spec]
    exact .kept
  | left _ _ _ _ between _ _ _ hbetween =>
    subst hbetween
    exact .kept
  | crashed _ _ _ _ between _ _ _ hbetween =>
    subst hbetween
    exact .kept
  | expired _ session => exact .deactivated session.id
  | ended sessionId => exact .deactivated sessionId

/-- Sessions are inserted by `createSession` after its hash, resources by an upload that goes on. No
other event inserts anything. -/
theorem handleServerEvent_onlyDeactivates {setting : ServerSetting ν} {state : ServerState ν}
    {event : ServerEvent ν}
    (hhashed : ∀ call salt createdAt, event ≠ .passcodeHashed call salt createdAt)
    (hupload : ∀ call uploadEvent, event ≠ .upload call uploadEvent) :
    OnlyDeactivates state.hub.db (handleServerEvent setting now state event).hub.db := by
  cases event with
  | hub hubEvent => exact (handleEvent_move setting.host now state.hub hubEvent).onlyDeactivates
  | createSession =>
    simp only [handleServerEvent]
    split_ifs
    · exact .kept
    · split <;> exact .kept
  | passcodeHashed call salt createdAt => exact absurd rfl (hhashed call salt createdAt)
  | joinSession call request =>
    have hmove := joinSession_onlyDeactivates setting.outside request now state.hub.db
    simp only [handleServerEvent]
    split_ifs
    · exact .kept
    · split
      · next hjoined =>
        rw [hjoined] at hmove
        exact hmove
      · next hjoined =>
        rw [hjoined] at hmove
        exact hmove
  | passcodeVerified => exact .kept
  | getSessionInfo => exact getSessionInfo_onlyDeactivates _ _ _ _
  | listResources => exact listResources_onlyDeactivates _ _ _ _
  | getManifest => exact served_onlyDeactivates _ _ _ _
  | getChunkStream => exact served_onlyDeactivates _ _ _ _
  | processUpload call request randomUUID =>
    simp only [handleServerEvent]
    split_ifs
    · exact .kept
    · exact processUpload_onlyDeactivates _ _ _ _ _
  | upload call uploadEvent => exact absurd rfl (hupload call uploadEvent)

end Database

/-! ### What requests do to the sessions -/

section Requests

variable {now : ℕ} {db next : Database} {checked : Option String}

/-- What a request can do to the table of the sessions. -/
inductive SessionsMove (now : ℕ) (db : Database) : Option String → Database → Prop
  | kept (checked : Option String) (next : Database) (hsame : next.sessions = db.sessions)
      (hvalid : ∀ sessionId, checked = some sessionId → ¬ Expired now sessionId db) :
      SessionsMove now db checked next
  | expired (session : SessionRow)
      (hfound : SessionRepository.findById session.id db = some session)
      (hexpired : session.expiresAt < now) :
      SessionsMove now db (some session.id) (SessionRepository.deactivate session.id db)
  | created (next : Database) (row : SessionRow) (hfresh : db.sessions.has row.id = false)
      (hactive : row.isActive = true) (hnext : next.sessions = db.sessions.set row.id row) :
      SessionsMove now db none next

/-- A request that checks no session. -/
theorem SessionsMove.unchecked (hsame : next.sessions = db.sessions) :
    SessionsMove now db none next :=
  .kept none next hsame fun _ hchecked ↦ absurd hchecked (by simp)

/-- A session without a row, or whose row is not that of an expired session, is kept. -/
theorem SessionsMove.valid {sessionId : String}
    (hrow : ∀ row, SessionRepository.findById sessionId db = some row →
      row.isActive = true → ¬ row.expiresAt < now) : SessionsMove now db (some sessionId) db := by
  refine .kept _ db rfl ?_
  rintro _ hchecked ⟨row, hfound, hactive, hexpired⟩
  obtain rfl := Option.some.inj hchecked
  exact hrow row hfound hactive hexpired

theorem checkSession_sessionsMove (sessionId : String) (now : ℕ) (db : Database) :
    SessionsMove now db (some sessionId) (checkSession sessionId now db).1 := by
  unfold checkSession
  cases hsession : SessionRepository.findById sessionId db with
  | none => exact .valid (by simp [hsession])
  | some session =>
    obtain rfl : session.id = sessionId := db.session_key sessionId session hsession
    simp only
    split_ifs with hactive hexpired
    · exact .valid (by simp [hsession, hactive])
    · exact .expired session hsession hexpired
    · refine .valid fun row hrow _ ↦ ?_
      rw [hsession] at hrow
      rwa [← Option.some.inj hrow]

theorem checked_sessionsMove {α : Type} {sessionId : String} {refused : HttpError → α}
    {served : Database → α} :
    SessionsMove now db (some sessionId)
      (match checkSession sessionId now db with
        | (reached, some error) => (reached, refused error)
        | (reached, none) => (reached, served reached) : Database × α).1 := by
  rw [checked_fst]
  exact checkSession_sessionsMove sessionId now db

/-- A session that is found by its code has its row under its id. -/
theorem findById_of_findByCode {toUpperCase : String → String} {code : String}
    {session : SessionRow}
    (hfound : SessionRepository.findByCode toUpperCase code db = some session) :
    SessionRepository.findById session.id db = some session := by
  obtain ⟨id, hget⟩ := OrderedMap.mem_values_iff.mp (List.mem_of_find?_eq_some hfound)
  rw [db.session_key id session hget]
  exact hget

theorem joinSession_sessionsMove (outside : SessionHost ν) (request : JoinSessionRequest) (now : ℕ)
    (db : Database) :
    SessionsMove now db
      (if SessionService.joinCode outside request = "" ∨ trimmed request.passcode = "" then none
        else (SessionRepository.findByCode outside.toUpperCase
          (SessionService.joinCode outside request) db).map SessionRow.id)
      (SessionService.joinSession outside request now db).1 := by
  unfold SessionService.joinSession
  simp only
  by_cases hcode : SessionService.joinCode outside request = ""
  · rw [if_pos hcode, if_pos (Or.inl hcode)]
    exact .unchecked rfl
  by_cases hpasscode : trimmed request.passcode = ""
  · rw [if_neg hcode, if_pos hpasscode, if_pos (Or.inr hpasscode)]
    exact .unchecked rfl
  rw [if_neg hcode, if_neg hpasscode, if_neg (not_or.mpr ⟨hcode, hpasscode⟩)]
  cases hfound : SessionRepository.findByCode outside.toUpperCase
      (SessionService.joinCode outside request) db with
  | none => exact .unchecked rfl
  | some session =>
    have hrow := findById_of_findByCode hfound
    simp only [Option.map_some]
    by_cases hactive : session.isActive = false
    · rw [if_pos hactive]
      exact .valid (by simp [hrow, hactive])
    · rw [if_neg hactive]
      by_cases hexpired : session.expiresAt < now
      · rw [if_pos (SessionService.isSessionExpired_iff.mpr hexpired)]
        exact .expired session hrow hexpired
      · rw [if_neg fun h ↦ hexpired (SessionService.isSessionExpired_iff.mp h)]
        exact .valid (by simpa [hrow] using fun _ ↦ not_lt.mp hexpired)

theorem getSessionInfo_sessionsMove (sessionId : String) (now : ℕ) (rooms : Rooms) (db : Database) :
    SessionsMove now db (some sessionId)
      (SessionService.getSessionInfo sessionId now rooms db).1 := by
  unfold SessionService.getSessionInfo
  cases hsession : SessionRepository.findById sessionId db with
  | none => exact .valid (by simp [hsession])
  | some session =>
    obtain rfl : session.id = sessionId := db.session_key sessionId session hsession
    simp only
    split_ifs with hexpired
    · exact .expired session hsession (SessionService.isSessionExpired_iff.mp hexpired)
    · refine .valid fun row hrow _ hlate ↦ hexpired (SessionService.isSessionExpired_iff.mpr ?_)
      rw [hsession] at hrow
      rwa [Option.some.inj hrow]

theorem listResources_sessionsMove (sessionId userSessionId : String) (now : ℕ) (db : Database) :
    SessionsMove now db (if userSessionId = sessionId then some sessionId else none)
      (listResources sessionId userSessionId now db).1 := by
  unfold listResources
  by_cases hmember : userSessionId = sessionId
  · rw [if_neg (not_not.mpr hmember), if_pos hmember]
    exact checked_sessionsMove
  · rw [if_pos hmember, if_neg hmember]
    exact .unchecked rfl

/-- A request for a resource checks the session of the resource. -/
theorem served_sessionsMove {α : Type} (resourceId userSessionId : String) (now : ℕ) (db : Database)
    {missing foreign : α} {refused : ResourceRow → HttpError → α}
    {served : ResourceRow → Database → α} :
    SessionsMove now db (servedSession resourceId userSessionId db)
      (match ResourceRepository.findById resourceId db with
        | none => (db, missing)
        | some resource =>
          if resource.status ≠ .ready then (db, missing)
          else if userSessionId ≠ resource.sessionId then (db, foreign)
          else
            match checkSession resource.sessionId now db with
            | (reached, some error) => (reached, refused resource error)
            | (reached, none) => (reached, served resource reached) : Database × α).1 := by
  unfold servedSession
  cases hresource : ResourceRepository.findById resourceId db with
  | none => exact .unchecked rfl
  | some resource =>
    simp only [Option.bind_some]
    by_cases hready : resource.status = .ready
    · by_cases hmember : userSessionId = resource.sessionId
      · rw [if_neg (not_not.mpr hready), if_neg (not_not.mpr hmember), if_pos ⟨hready, hmember⟩]
        exact checked_sessionsMove
      · rw [if_neg (not_not.mpr hready), if_pos hmember, if_neg fun h ↦ hmember (And.right h)]
        exact .unchecked rfl
    · rw [if_pos hready, if_neg fun h ↦ hready (And.left h)]
      exact .unchecked rfl

/-- A session that is inserted is new and active. -/
theorem insertSession_sessionsMove (setting : ServerSetting ν) (pending : PendingCreation ν)
    (salt : Bytes) (now : ℕ) (createdAt : String) (db : Database) :
    SessionsMove now db none
      (SessionService.insertSession setting.host setting.outside pending salt now createdAt
        db).1 := by
  have hcreate : ∀ {params : CreateSessionParams} {reached : Database × Option SessionRow},
      SessionRepository.create params createdAt db = .ok reached →
        SessionsMove now db none reached.1 := by
    intro params reached hok
    unfold SessionRepository.create at hok
    split_ifs at hok with hid hcode
    rw [← Except.ok.inj hok]
    exact .created _ (params.row createdAt) (Bool.eq_false_iff.mpr hid) rfl rfl
  unfold SessionService.insertSession
  split
  · exact .unchecked rfl
  · split
    · exact .unchecked rfl
    · next hok => exact hcreate hok
    · next hok => exact hcreate hok

theorem processUpload_sessionsMove (config : UploadConfig) (request : UploadRequest)
    (randomUUID : String) (now : ℕ) (db : Database) :
    SessionsMove now db
      (if request.userRole ≠ .instructor ∨ request.userSessionId ≠ request.sessionId then none
        else some request.sessionId)
      (processUpload config request randomUUID now db).1 := by
  rw [processUpload_fst]
  split_ifs
  · exact .unchecked rfl
  · exact checkSession_sessionsMove request.sessionId now db

/-- A transaction that stores a resource does not change the sessions. -/
theorem persist_sessions (plan : MovePlan) (createdAt : String) (fault : Option TransactionFault)
    (state : UploadState) :
    (UploadState.persist plan createdAt fault state).db.sessions = state.db.sessions := by
  unfold UploadState.persist
  split
  · rfl
  · split
    · rfl
    · next hok =>
      have hsame := (ResourceRepository.createWithManifest_tables hok).2.1
      simp only
      split <;> exact hsame

/-- An upload that goes on does not change the sessions. -/
theorem uploadStep_sessions (config : UploadConfig) (digest : Bytes → Bytes) (state : UploadState)
    (event : UploadEvent) :
    (uploadStep config digest state event).db.sessions = state.db.sessions := by
  have hplanned : ∀ manifestResult randomBytes,
      (UploadState.planned config manifestResult randomBytes state).db = state.db := by
    intro manifestResult randomBytes
    unfold UploadState.planned
    simp only
    split
    · rfl
    · split <;> rfl
  have htransition := uploadStep_transition config digest state event
  generalize uploadStep config digest state event = next at htransition ⊢
  cases htransition with
  | persisted plan createdAt fault => exact persist_sessions plan createdAt fault state
  | generated buffers randomBytes => rw [hplanned]
  | ended =>
    unfold UploadState.saved
    split <;> rfl
  | deleted => split_ifs <;> rfl
  | _ => rfl

end Requests

/-! ### Steps -/

section Steps

variable {setting : ServerSetting ν} {now : ℕ} {state : ServerState ν} {event : ServerEvent ν}

/-- An event is one of the hub, or changes of the hub only the database. -/
theorem handleServerEvent_cases (setting : ServerSetting ν) (now : ℕ) (state : ServerState ν)
    (event : ServerEvent ν) :
    (∃ hubEvent, event = .hub hubEvent ∧ (handleServerEvent setting now state event).hub =
      handleEvent setting.host now state.hub hubEvent) ∨
    ∃ next, (handleServerEvent setting now state event).hub = { state.hub with db := next } ∧
      SessionsMove now state.hub.db (checkedSession setting state event) next := by
  cases event with
  | hub hubEvent => exact Or.inl ⟨hubEvent, rfl, rfl⟩
  | createSession call request randomUUID randomBytes =>
    refine Or.inr ⟨state.hub.db, ?_, .unchecked rfl⟩
    simp only [handleServerEvent]
    split_ifs
    · rfl
    · split <;> rfl
  | passcodeHashed call salt createdAt =>
    simp only [handleServerEvent]
    split
    · exact Or.inr ⟨_, rfl, insertSession_sessionsMove setting _ salt now createdAt state.hub.db⟩
    · exact Or.inr ⟨state.hub.db, rfl, .unchecked rfl⟩
  | joinSession call request =>
    have hmove := joinSession_sessionsMove setting.outside request now state.hub.db
    simp only [handleServerEvent, checkedSession]
    by_cases hcall : state.joins.has call = true
    · rw [if_pos hcall]
      simp only [hcall, true_or, if_true]
      exact Or.inr ⟨state.hub.db, rfl, .unchecked rfl⟩
    · rw [if_neg hcall]
      simp only [hcall, Bool.false_eq_true, false_or]
      split
      · next hjoined =>
        rw [hjoined] at hmove
        exact Or.inr ⟨_, rfl, hmove⟩
      · next hjoined =>
        rw [hjoined] at hmove
        exact Or.inr ⟨_, rfl, hmove⟩
  | passcodeVerified call => exact Or.inr ⟨state.hub.db, rfl, .unchecked rfl⟩
  | getSessionInfo sessionId =>
    exact Or.inr ⟨_, rfl, getSessionInfo_sessionsMove sessionId now state.hub.rooms state.hub.db⟩
  | listResources sessionId userSessionId =>
    exact Or.inr ⟨_, rfl, listResources_sessionsMove sessionId userSessionId now state.hub.db⟩
  | getManifest resourceId userSessionId =>
    exact Or.inr ⟨_, rfl, served_sessionsMove resourceId userSessionId now state.hub.db⟩
  | getChunkStream resourceId rawIndex userSessionId =>
    exact Or.inr ⟨_, rfl, served_sessionsMove resourceId userSessionId now state.hub.db⟩
  | processUpload call request randomUUID =>
    have hmove := processUpload_sessionsMove setting.config request randomUUID now state.hub.db
    simp only [handleServerEvent, checkedSession]
    by_cases hcall : state.uploads.has call = true
    · rw [if_pos hcall]
      simp only [hcall, true_or, if_true]
      exact Or.inr ⟨state.hub.db, rfl, .unchecked rfl⟩
    · rw [if_neg hcall]
      simp only [hcall, Bool.false_eq_true, false_or]
      exact Or.inr ⟨_, rfl, hmove⟩
  | upload call uploadEvent =>
    simp only [handleServerEvent]
    split
    · exact Or.inr ⟨_, rfl, .unchecked (uploadStep_sessions _ _ _ _)⟩
    · exact Or.inr ⟨state.hub.db, rfl, .unchecked rfl⟩

/-- A hub event that finds a session expired only deactivates it. -/
theorem handleEvent_expired {hubEvent : HubEvent} {sessionId : String}
    (hchecked : checkedSession setting state (.hub hubEvent) = some sessionId)
    (hexpired : Expired now sessionId state.hub.db) :
    handleEvent setting.host now state.hub hubEvent =
      { state.hub with db := SessionRepository.deactivate sessionId state.hub.db } := by
  obtain ⟨row, hfound, hactive, hlate⟩ := hexpired
  have hid : row.id = sessionId := state.hub.db.session_key sessionId row hfound
  cases hubEvent with
  | connection socket =>
    simp only [checkedSession] at hchecked
    split_ifs at hchecked with hknown
    obtain rfl := Option.some.inj hchecked
    rw [handleEvent, if_neg hknown, handleSignalingConnection, hfound]
    simp only
    rw [if_neg (by simp [hactive]), if_pos hlate, hid]
  | sessionCheck checked =>
    obtain rfl := Option.some.inj hchecked
    rw [handleEvent, checkSession, hfound]
    simp only
    rw [if_neg (by simp [hactive]), if_pos hlate, hid]
  | message | closing | close | error | endSession | resetTelemetry =>
    exact absurd hchecked (by simp [checkedSession])

/-- An event that finds a session expired deactivates it, and changes nothing else of the hub. -/
theorem handleServerEvent_expired {sessionId : String}
    (hchecked : checkedSession setting state event = some sessionId)
    (hexpired : Expired now sessionId state.hub.db) :
    (handleServerEvent setting now state event).hub =
      { state.hub with db := SessionRepository.deactivate sessionId state.hub.db } := by
  rcases handleServerEvent_cases setting now state event with
    ⟨hubEvent, rfl, hhub⟩ | ⟨next, hhub, hmove⟩
  · exact hhub.trans (handleEvent_expired hchecked hexpired)
  · rw [hhub]
    rw [hchecked] at hmove
    cases hmove with
    | kept _ _ _ hvalid => exact absurd hexpired (hvalid sessionId rfl)
    | expired => rfl

/-- A session that was deactivated is inactive. -/
theorem inactive_of_deactivated {hub : SignalingHub ν} {sessionId : String}
    (hfound : (SessionRepository.findById sessionId hub.db).isSome = true) :
    Inactive { hub with db := SessionRepository.deactivate sessionId hub.db } sessionId := by
  obtain ⟨row, hrow⟩ := Option.isSome_iff_exists.mp hfound
  refine ⟨{ row with isActive := false }, ?_, rfl⟩
  rw [SessionRepository.findById_deactivate, if_pos rfl, hrow]
  rfl

/-- Only the session that is deactivated becomes inactive. -/
theorem inactive_deactivate_cases {hub : SignalingHub ν} {deactivated sessionId : String}
    (hinactive : Inactive { hub with db := SessionRepository.deactivate deactivated hub.db }
      sessionId) :
    sessionId = deactivated ∨ Inactive hub sessionId := by
  obtain ⟨row, hrow, hrest⟩ := hinactive
  rw [SessionRepository.findById_deactivate] at hrow
  split_ifs at hrow with hsame
  · exact Or.inl hsame
  · exact Or.inr ⟨row, hrow, hrest⟩

theorem SessionsMove.inactive {hub : SignalingHub ν} {checked : Option String} {next : Database}
    (hmove : SessionsMove now hub.db checked next) {sessionId : String}
    (hinactive : Inactive hub sessionId) : Inactive { hub with db := next } sessionId := by
  obtain ⟨row, hrow, hrest⟩ := hinactive
  cases hmove with
  | kept _ _ hsame =>
    refine ⟨row, ?_, hrest⟩
    rw [SessionRepository.findById, hsame]
    exact hrow
  | expired session => exact inactive_deactivate hrow hrest session.id
  | created _ created hfresh _ hnext =>
    refine ⟨row, ?_, hrest⟩
    have hother : sessionId ≠ created.id := by
      rintro rfl
      rw [SessionRepository.findById, OrderedMap.has_eq_false_iff.mp hfresh] at hrow
      exact absurd hrow (by simp)
    rw [SessionRepository.findById, hnext, OrderedMap.get?_set_of_ne _ hother]
    exact hrow

/-- A session becomes inactive only when it is found expired. -/
theorem SessionsMove.inactive_cases {hub : SignalingHub ν} {checked : Option String}
    {next : Database} (hmove : SessionsMove now hub.db checked next) {sessionId : String}
    (hinactive : Inactive { hub with db := next } sessionId) :
    Inactive hub sessionId ∨ checked = some sessionId ∧ Expired now sessionId hub.db := by
  cases hmove with
  | kept _ _ hsame =>
    obtain ⟨row, hrow, hrest⟩ := hinactive
    rw [SessionRepository.findById, hsame] at hrow
    exact Or.inl ⟨row, hrow, hrest⟩
  | expired session hfound hexpired =>
    rcases inactive_deactivate_cases hinactive with rfl | hbefore
    · cases hactive : session.isActive with
      | false => exact Or.inl ⟨session, hfound, hactive⟩
      | true => exact Or.inr ⟨rfl, session, hfound, hactive, hexpired⟩
    · exact Or.inl hbefore
  | created _ created hfresh hactive hnext =>
    obtain ⟨row, hrow, hrest⟩ := hinactive
    rw [SessionRepository.findById, hnext, OrderedMap.get?_set] at hrow
    split_ifs at hrow with hnew
    · rw [← Option.some.inj hrow, hactive] at hrest
      exact absurd hrest (by simp)
    · exact Or.inl ⟨row, hrow, hrest⟩

/-- A hub event makes a session inactive when it finds it expired, or ends it. -/
theorem HubMove.inactive_cases {host : Host ν} {hub next : SignalingHub ν} {hubEvent : HubEvent}
    (hmove : HubMove host now hub hubEvent next) {sessionId : String}
    (hinactive : Inactive next sessionId) :
    Inactive hub sessionId ∨
      Expired now sessionId hub.db ∧ (hubEvent = .sessionCheck sessionId ∨
        ∃ socket, hubEvent = .connection socket ∧ socket.payload.sessionId = sessionId) ∨
      Evicted next sessionId := by
  cases hmove with
  | idle | reported | relayed | closing | stale | reset => exact Or.inl hinactive
  | admitted =>
    rw [letIn_spec] at hinactive
    exact Or.inl hinactive
  | left _ _ _ _ between _ _ _ hbetween =>
    subst hbetween
    exact Or.inl hinactive
  | crashed _ _ _ _ between _ _ _ hbetween =>
    subst hbetween
    exact Or.inl hinactive
  | expired _ session hevent hfound hexpired =>
    rcases inactive_deactivate_cases hinactive with rfl | hbefore
    · cases hactive : session.isActive with
      | false => exact Or.inl ⟨session, hfound, hactive⟩
      | true => exact Or.inr (Or.inl ⟨⟨session, hfound, hactive, hexpired⟩, hevent⟩)
    · exact Or.inl hbefore
  | ended ended _ _ _ hfound =>
    have hended : Inactive { hub with db := SessionRepository.deactivate ended hub.db } sessionId :=
      hinactive
    rcases inactive_deactivate_cases hended with rfl | hbefore
    · exact Or.inr (Or.inr (evicted_sessionEnded hfound))
    · exact Or.inl hbefore

/-- An event makes a session inactive when it finds it expired, or ends it. -/
theorem handleServerEvent_inactive {sessionId : String}
    (hinactive : Inactive (handleServerEvent setting now state event).hub sessionId) :
    Inactive state.hub sessionId ∨
      (checkedSession setting state event = some sessionId ∧ Expired now sessionId state.hub.db) ∨
      Evicted (handleServerEvent setting now state event).hub sessionId := by
  rcases handleServerEvent_cases setting now state event with
    ⟨hubEvent, rfl, hhub⟩ | ⟨next, hhub, hmove⟩
  · rw [hhub] at hinactive ⊢
    by_cases hknown : ∃ socket, hubEvent = .connection socket ∧ state.hub.sockets.has socket = true
    · obtain ⟨socket, rfl, hhas⟩ := hknown
      rw [handleEvent, if_pos hhas] at hinactive
      exact Or.inl hinactive
    · rcases (handleEvent_move setting.host now state.hub hubEvent).inactive_cases hinactive with
        hbefore | ⟨hexpired, rfl | ⟨socket, rfl, rfl⟩⟩ | hevicted
      · exact Or.inl hbefore
      · exact Or.inr (Or.inl ⟨rfl, hexpired⟩)
      · exact Or.inr (Or.inl ⟨if_neg fun hhas ↦ hknown ⟨socket, rfl, hhas⟩, hexpired⟩)
      · exact Or.inr (Or.inr hevicted)
  · rw [hhub] at hinactive
    rcases hmove.inactive_cases hinactive with hbefore | hexpired
    · exact Or.inl hbefore
    · exact Or.inr (Or.inl hexpired)

/-- Nobody comes back to the room of an inactive session that is empty. -/
theorem serverStep_evicted {sessionId : String} (hevicted : Evicted state.hub sessionId)
    (input : ServerInput ν) : Evicted (serverStep setting state input).hub sessionId := by
  unfold serverStep
  split_ifs
  · exact hevicted
  rcases handleServerEvent_cases setting input.1 state input.2 with
    ⟨hubEvent, _, hhub⟩ | ⟨next, hhub, hmove⟩
  · rw [hhub]
    exact (handleEvent_move setting.host input.1 state.hub hubEvent).evicted hevicted
  · rw [hhub]
    exact ⟨hmove.inactive hevicted.1, hevicted.2⟩

theorem serverStep_roomsOwn (hown : RoomsOwn state.hub) (input : ServerInput ν) :
    RoomsOwn (serverStep setting state input).hub := by
  unfold serverStep
  split_ifs
  · exact hown
  rcases handleServerEvent_cases setting input.1 state input.2 with
    ⟨hubEvent, _, hhub⟩ | ⟨next, hhub, _⟩
  · rw [hhub]
    exact (handleEvent_move setting.host input.1 state.hub hubEvent).roomsOwn hown
  · rw [hhub]
    exact hown

/-- The sockets of an inactive session whose room is empty get no frames. -/
theorem HubMove.delivered_of_evicted {host : Host ν} {hub next : SignalingHub ν}
    {hubEvent : HubEvent} (hmove : HubMove host now hub hubEvent next) (hown : RoomsOwn hub)
    {sessionId : String} (hevicted : Evicted hub sessionId) :
    deliveredTo sessionId next = deliveredTo sessionId hub := by
  have hunseated : ∀ {reached : SignalingHub ν} {socket : Socket}, RoomsOwn reached →
      Evicted reached sessionId → Seat reached socket → socket.payload.sessionId ≠ sessionId := by
    rintro reached socket hplaced hempty ⟨own, peerId, peer, hpeer, rfl, _⟩ rfl
    rw [(hplaced own peerId peer hpeer).1] at hempty
    rw [hempty.2 peerId] at hpeer
    exact absurd hpeer (by simp)
  obtain ⟨sent, hsent, hseated⟩ := hmove.sent_seated
  refine deliveredTo_append hsent (List.filter_eq_nil_iff.mpr fun frame hmem hsession ↦ ?_)
  have hown' := of_decide_eq_true hsession
  rcases hseated frame hmem with hbefore | hafter
  · exact hunseated hown hevicted hbefore hown'
  · exact hunseated (hmove.roomsOwn hown) (hmove.evicted hevicted) hafter hown'

theorem serverStep_delivered (hown : RoomsOwn state.hub) {sessionId : String}
    (hevicted : Evicted state.hub sessionId) (input : ServerInput ν) :
    deliveredTo sessionId (serverStep setting state input).hub =
      deliveredTo sessionId state.hub := by
  unfold serverStep
  split_ifs
  · rfl
  rcases handleServerEvent_cases setting input.1 state input.2 with
    ⟨hubEvent, _, hhub⟩ | ⟨next, hhub, _⟩
  · rw [hhub]
    exact (handleEvent_move setting.host input.1 state.hub hubEvent).delivered_of_evicted hown
      hevicted
  · rw [hhub]
    rfl

/-- Nobody is in the room of an inactive session. -/
def InactiveEmpty (hub : SignalingHub ν) : Prop :=
  ∀ sessionId, Inactive hub sessionId → ∀ peerId, registered hub sessionId peerId = none

/-- **A step.** If nobody is in the room of a session that it finds expired, nobody is in the room
of an inactive session afterwards. -/
theorem serverStep_inactiveEmpty (hempty : InactiveEmpty state.hub) {input : ServerInput ν}
    (hexpires : ExpiresEmpty setting state input) :
    InactiveEmpty (serverStep setting state input).hub := by
  intro sessionId hinactive
  have hkept : Inactive state.hub sessionId →
      ∀ peerId, registered (serverStep setting state input).hub sessionId peerId = none :=
    fun hbefore ↦ (serverStep_evicted ⟨hbefore, hempty sessionId hbefore⟩ input).2
  unfold serverStep at hinactive hkept ⊢
  split_ifs at hinactive hkept ⊢ with hhalted
  · exact hkept hinactive
  rcases handleServerEvent_inactive hinactive with hbefore | ⟨hchecked, hexpired⟩ | hevicted
  · exact hkept hbefore
  · have hroom := hexpires (by simpa using hhalted) sessionId hchecked hexpired
    rw [handleServerEvent_expired hchecked hexpired]
    exact hroom
  · exact hevicted.2

/-- A step that finds a session expired leaves those in its room who are there. -/
theorem expiresEmpty_of_serverStep {input : ServerInput ν}
    (hempty : InactiveEmpty (serverStep setting state input).hub) :
    ExpiresEmpty setting state input := by
  intro hruns sessionId hchecked hexpired
  have hfound : (SessionRepository.findById sessionId state.hub.db).isSome = true := by
    obtain ⟨row, hrow, _⟩ := hexpired
    rw [hrow]
    rfl
  unfold InactiveEmpty serverStep at hempty
  rw [if_neg (by rw [hruns]; exact Bool.false_ne_true),
    handleServerEvent_expired hchecked hexpired] at hempty
  exact hempty sessionId (inactive_of_deactivated hfound)

end Steps

/-! ### Runs -/

section Runs

variable {setting : ServerSetting ν} {db : Database} {storage : Storage}

theorem serverRun_roomsOwn (setting : ServerSetting ν) (db : Database) (storage : Storage)
    (inputs : List (ServerInput ν)) : RoomsOwn (serverRun setting db storage inputs).hub :=
  run_invariant_of_step (fun state : ServerState ν ↦ RoomsOwn state.hub)
    (fun _ input hown ↦ serverStep_roomsOwn hown input) (roomsOwn_new db) inputs

/-- From an inactive session with an empty room on: it stays so, and its sockets get no frames. -/
theorem serverRun_dark {before : List (ServerInput ν)} {sessionId : String}
    (hevicted : Evicted (serverRun setting db storage before).hub sessionId)
    (later : List (ServerInput ν)) :
    Inactive (serverRun setting db storage (before ++ later)).hub sessionId ∧
      deliveredTo sessionId (serverRun setting db storage (before ++ later)).hub =
        deliveredTo sessionId (serverRun setting db storage before).hub := by
  have hdark : ∀ state : ServerState ν, RoomsOwn state.hub → Evicted state.hub sessionId →
      Evicted (run (serverStep setting) state later).hub sessionId ∧
        deliveredTo sessionId (run (serverStep setting) state later).hub =
          deliveredTo sessionId state.hub := by
    induction later with
    | nil => exact fun state _ hempty ↦ ⟨hempty, rfl⟩
    | cons input rest ih =>
      intro state hown hempty
      obtain ⟨hlast, hdelivered⟩ := ih (serverStep setting state input)
        (serverStep_roomsOwn hown input) (serverStep_evicted hempty input)
      exact ⟨hlast, hdelivered.trans (serverStep_delivered hown hempty input)⟩
  obtain ⟨hlast, hdelivered⟩ :=
    hdark _ (serverRun_roomsOwn setting db storage before) hevicted
  rw [serverRun, run_append]
  exact ⟨hlast.1, hdelivered⟩

/-- The rooms of inactive sessions stay empty along exactly the runs in which sessions are found
expired only when nobody is in their rooms. -/
theorem inactiveEmpty_iff_along (inputs : List (ServerInput ν)) :
    (∀ before later, inputs = before ++ later →
      InactiveEmpty (serverRun setting db storage before).hub) ↔
      Along (serverStep setting) (ExpiresEmpty setting) (ServerState.new db storage) inputs := by
  have hinit : InactiveEmpty (ServerState.new db storage : ServerState ν).hub :=
    fun sessionId _ peerId ↦ by
      simp [registered, RoomManager.getPeer, ServerState.new, SignalingHub.new]
  exact @forall_prefix_iff_along (ServerState ν) (ServerInput ν) (serverStep setting)
    (ExpiresEmpty setting) (fun state ↦ InactiveEmpty state.hub) (fun _ ↦ True)
    (fun _ _ _ ↦ trivial)
    (fun _ _ _ hempty ↦ ⟨expiresEmpty_of_serverStep, serverStep_inactiveEmpty hempty⟩)
    _ trivial hinit inputs

/-- **When inactive sessions have no live room.** In exactly those runs in which every request and
handshake that finds a session expired does so while nobody is in its room. -/
theorem noLiveRoom_iff (setting : ServerSetting ν) (db : Database) (storage : Storage)
    (inputs : List (ServerInput ν)) :
    NoLiveRoom setting db storage inputs ↔
      Along (serverStep setting) (ExpiresEmpty setting) (ServerState.new db storage) inputs := by
  rw [← inactiveEmpty_iff_along]
  refine ⟨fun hdark ↦ hdark.empty, fun hempty ↦ ⟨hempty, ?_, ?_⟩⟩
  · rintro before later hsplit sessionId hinactive
    rw [hsplit]
    exact (serverRun_dark ⟨hinactive, hempty before later hsplit sessionId hinactive⟩ later).2
  · rintro before later hsplit sessionId hinactive
    rw [hsplit]
    exact (serverRun_dark ⟨hinactive, hempty before later hsplit sessionId hinactive⟩ later).1

end Runs

/-! ### A session that expires -/

/-- A server that knows the messages of the students. -/
def signalingSetting : ServerSetting Rat where
  host := signalingHost
  outside := ⟨id, fun _ _ ↦ .ok [], fun _ ↦ none, fun _ _ ↦ ""⟩
  config := sampleConfig
  digest := id

/-- The students connect, and their session is looked at after its time is over. -/
def expiredRun : List (ServerInput Rat) :=
  (connections.map fun input ↦ (input.1, .hub input.2)) ++ [(2000, .getSessionInfo "session")]

/-- The session is inactive then, and still an offer is relayed in it. -/
theorem expiredRun_not_noLiveRoom :
    ¬ NoLiveRoom signalingSetting classroom OrderedMap.empty
      (expiredRun ++ [(2001, .hub (.message alice offerToBob))]) := by
  intro hdark
  have hinactive : Inactive (serverRun signalingSetting classroom OrderedMap.empty
      expiredRun).hub "session" :=
    ⟨⟨"session", "ABC123", "Networks", "Ada", "", "", 1000, false⟩, rfl, rfl⟩
  have hsilent := congrArg List.length (hdark.silent expiredRun _ rfl "session" hinactive)
  exact absurd hsilent (by decide +kernel)

end CampusMesh.Server
