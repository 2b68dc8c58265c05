import CampusMesh.Library.History
import CampusMesh.Server.Gateway
import CampusMesh.Server.Passcodes

/-!
# Who may do what

Everything that the server does for a class session, it does for bearers of tokens of the session.
If tokens cannot be forged, every bearer got the token in the run (or before it started): as its
instructor from the request that created the session, or as a student from a request to join it
whose passcode has the same key as that of the instructor (`Entitled`). `access_authorized` says so
of all replies, all frames that are sent, and all changes of the resources and of the sessions, in
every run of requests that interleave in any way, with restarts of the server in between. A resource
belongs to the request that its upload began with (`UploadedIn`), and a frame to an event of the
session of the socket that it is sent to (`SendsFrame`).
-/

set_option autoImplicit false
set_option relaxedAutoImplicit false

namespace CampusMesh.Server

open Library Shared

variable {ν : Type}

/-! ### Requests and their bearers -/

/-- The token that comes with a request or a handshake. -/
def presentedToken : GatewayEvent ν → Option String
  | .getSession authorization _ | .endSession authorization _ | .postResource _ authorization _ _ _
  | .getResources authorization _ | .getManifest authorization _ | .getChunk authorization _ _
  | .deleteResource _ authorization _ | .getTelemetry authorization _
  | .resetTelemetry authorization _ => bearerToken authorization
  | .connect _ token => token.filter fun text ↦ text ≠ ""
  | _ => none

/-- The session that a request is about whose reply tells something of it or acts on it at once. -/
def addressed (db : Database) : GatewayEvent ν → Option String
  | .getSession _ id | .endSession _ id | .getResources _ id | .getTelemetry _ id
  | .resetTelemetry _ id => some id
  | .getManifest _ id | .getChunk _ id _ =>
    (ResourceRepository.findById id db).map ResourceRow.sessionId
  | _ => none

/-- Only instructors may do this. -/
def forInstructors : GatewayEvent ν → Bool
  | .endSession .. | .resetTelemetry .. => true
  | _ => false

section Runs

variable (setting : GatewaySetting ν) (old : String → AuthTokenPayload → Prop) (db : Database)
  (storage : Storage)

/-- The bearer of the token of a request, if it verifies. -/
def credential (input : GatewayInput ν) : Option AuthTokenPayload :=
  (presentedToken input.2).bind (setting.verifyToken input.1)

/-- A token is signed and sent in reply to a request. -/
inductive Issues (state : GatewayState ν) (input : GatewayInput ν) :
    String → AuthTokenPayload → Prop
  | instructor (call : ℕ) (salt : Bytes) (createdAt : String) (pending : PendingCreation ν)
      (response : CreateSessionResponse) (hcan : canHappen state input.2 = true)
      (hevent : input.2 = .passcodeHashed call salt createdAt)
      (hpending : state.server.creations.get? call = some pending)
      (hok : (SessionService.insertSession setting.host setting.outside pending salt input.1
        createdAt state.db).2 = .ok response) :
      Issues state input response.instructorToken ⟨response.session.id, .instructor, none,
        response.session.instructorName, response.session.sessionCode⟩
  | student (call : ℕ) (randomBytes : Bytes) (pending : PendingJoin)
      (response : JoinSessionResponse) (hcan : canHappen state input.2 = true)
      (hevent : input.2 = .passcodeVerified call randomBytes)
      (hpending : state.server.joins.get? call = some pending)
      (hok : SessionService.resolveJoin setting.outside pending randomBytes input.1 =
        .ok response) :
      Issues state input response.peerToken ⟨response.session.id, .student, some response.peerId,
        pending.displayName, response.session.sessionCode⟩

/-- Something has happened in a run of the server. -/
abbrev HasHappened (kind : GatewayState ν → GatewayInput ν → Prop)
    (inputs : List (GatewayInput ν)) : Prop :=
  Happened (gatewayStep setting) kind (GatewayState.new db storage) inputs

/-- The token was issued in a run. -/
def IssuedIn (inputs : List (GatewayInput ν)) (token : String) (user : AuthTokenPayload) : Prop :=
  HasHappened setting db storage (fun state input ↦ Issues setting state input token user) inputs

/-- Tokens cannot be forged: one that verifies was issued before, in the run or before it, to the
bearer that it names. -/
def Unforged (inputs : List (GatewayInput ν)) : Prop :=
  ∀ before input later, inputs = before ++ input :: later → ∀ token user,
    presentedToken input.2 = some token → setting.verifyToken input.1 token = some user →
      old token user ∨ IssuedIn setting db storage before token user

/-! ### What it takes to get a token -/

/-- A request to create a session gives the passcode. -/
def AsksToCreate (call : ℕ) (passcode : String) (_ : GatewayState ν) (input : GatewayInput ν) :
    Prop :=
  ∃ ip request randomUUID randomBytes,
    input.2 = .createSession call ip request randomUUID randomBytes ∧
      trimmed request.passcode = passcode

/-- A request to join a session gives the passcode. -/
def AsksToJoin (call : ℕ) (candidate : String) (_ : GatewayState ν) (input : GatewayInput ν) :
    Prop :=
  ∃ ip request, input.2 = .joinSession call ip request ∧ trimmed request.passcode = candidate

/-- The session is inserted with the hash of the passcode under the salt, and its instructor gets a
token. -/
def Opens (sessionId : String) (call : ℕ) (passcode : String) (salt : Bytes)
    (state : GatewayState ν) (input : GatewayInput ν) : Prop :=
  ∃ createdAt pending response, input.2 = .passcodeHashed call salt createdAt ∧
    state.server.creations.get? call = some pending ∧ pending.passcode = passcode ∧
    (SessionService.insertSession setting.host setting.outside pending salt input.1 createdAt
      state.db).2 = .ok response ∧ response.session.id = sessionId

/-- The passcode of a call is found right for the session, and the student gets a token. -/
def Admits (user : AuthTokenPayload) (call : ℕ) (candidate : String) (state : GatewayState ν)
    (input : GatewayInput ν) : Prop :=
  ∃ randomBytes pending token, input.2 = .passcodeVerified call randomBytes ∧
    state.server.joins.get? call = some pending ∧ pending.passcode = candidate ∧
    Issues setting state input token user

/-- The text has the key of the passcode that the session was created with; for a session that is
older than the run, it passes the check against its hash. -/
def HasPasscode (inputs : List (GatewayInput ν)) (sessionId candidate : String) : Prop :=
  (∃ storedHash, passcodeHashOf sessionId db = some storedHash ∧
      PasswordService.verifyPassword setting.outside.scrypt candidate storedHash = true) ∨
    ∃ call passcode salt, HasHappened setting db storage (AsksToCreate call passcode) inputs ∧
      HasHappened setting db storage (Opens setting sessionId call passcode salt) inputs ∧
      setting.outside.scrypt candidate (hexText salt) =
        setting.outside.scrypt passcode (hexText salt)

/-- How the bearer of a token got it. -/
inductive Entitled (inputs : List (GatewayInput ν)) (user : AuthTokenPayload) : Prop
  | earlier (token : String) (hold : old token user)
  | instructor (call : ℕ) (passcode : String) (salt : Bytes) (hrole : user.role = .instructor)
      (hasked : HasHappened setting db storage (AsksToCreate call passcode) inputs)
      (hopened : HasHappened setting db storage (Opens setting user.sessionId call passcode salt)
        inputs)
  | student (call : ℕ) (candidate : String) (hrole : user.role = .student)
      (hasked : HasHappened setting db storage (AsksToJoin call candidate) inputs)
      (hadmitted : HasHappened setting db storage (Admits setting user call candidate) inputs)
      (hpasscode : HasPasscode setting db storage inputs user.sessionId candidate)

/-- An event sends the frame, and is one of the session of the socket. -/
def SendsFrame (frame : Socket × Json.Fields ν) (state : GatewayState ν) (input : GatewayInput ν) :
    Prop :=
  ∃ event sent, (handled setting state input).event = some (.server (.hub event)) ∧
    event.session = frame.1.payload.sessionId ∧
    (gatewayStep setting state input).server.hub.sent = state.server.hub.sent ++ sent ∧
    frame ∈ sent

/-- The call began with a request of an instructor to upload a file for its session, who was
entitled, and was not cut off since. -/
def Uploading (inputs : List (GatewayInput ν)) (call : ℕ) (user : AuthTokenPayload) : Prop :=
  ∃ before input after, inputs = before ++ input :: after ∧
    (gatewayRun setting db storage before).server.uploads.has call = false ∧
    (∃ authorization filename randomUUID,
      input.2 = .postResource call authorization user.sessionId (some filename) randomUUID) ∧
    credential setting input = some user ∧ user.role = .instructor ∧
    Entitled setting old db storage before user ∧ ∀ later ∈ after, later.2 ≠ .restart

/-- The transaction of such an upload inserts the resource, for the session of the instructor. -/
def StoresUpload (before : List (GatewayInput ν)) (input : GatewayInput ν) (id : String)
    (row : ResourceRow) : Prop :=
  ∃ call createdAt fault user, input.2 = .upload call (.persisted createdAt fault) ∧
    Uploading setting old db storage before call user ∧ user.sessionId = row.sessionId ∧
    (gatewayRun setting db storage before).db.resources.get? id = none ∧
    (gatewayRun setting db storage (before ++ [input])).db.resources.get? id = some row

/-- The resource was inserted so in the run. -/
def UploadedIn (inputs : List (GatewayInput ν)) (id : String) (row : ResourceRow) : Prop :=
  ∃ before input later, inputs = before ++ input :: later ∧
    StoresUpload setting old db storage before input id row

/-- In a run, the server acts for those who are entitled. -/
structure Authorized (inputs : List (GatewayInput ν)) : Prop where
  /-- A reply that is not a refusal goes to a bearer of the session that the request is about. -/
  replies : ∀ before input later, inputs = before ++ input :: later → ∀ reply sessionId,
    (handled setting (gatewayRun setting db storage before) input).reply = some reply →
      reply.Succeeds → addressed (gatewayRun setting db storage before).db input.2 =
        some sessionId →
        ∃ user, credential setting input = some user ∧ user.sessionId = sessionId ∧
          (forInstructors input.2 = true → user.role = .instructor) ∧
          Entitled setting old db storage before user
  /-- Frames are sent to sockets of bearers, by events of their session. -/
  frames : ∀ frame ∈ (gatewayRun setting db storage inputs).server.hub.sent,
    Entitled setting old db storage inputs frame.1.payload ∧
      HasHappened setting db storage (SendsFrame setting frame) inputs
  /-- A resource is older than the run, or was uploaded by an instructor of its session. -/
  uploads : ∀ id row, (gatewayRun setting db storage inputs).db.resources.get? id = some row →
    db.resources.get? id = some row ∨ UploadedIn setting old db storage inputs id row
  /-- A resource that is gone was deleted by an instructor of its session. -/
  deletions : ∀ before input later, inputs = before ++ input :: later → ∀ id row,
    (gatewayRun setting db storage before).db.resources.get? id = some row →
      (gatewayRun setting db storage (before ++ [input])).db.resources.get? id = none →
        ∃ user, credential setting input = some user ∧ user.role = .instructor ∧
          user.sessionId = row.sessionId ∧ Entitled setting old db storage before user
  /-- An active session is changed when its time is over, or its instructor ends it. -/
  endings : ∀ before input later, inputs = before ++ input :: later → ∀ sessionId row,
    SessionRepository.findById sessionId (gatewayRun setting db storage before).db = some row →
      row.isActive = true →
      SessionRepository.findById sessionId
        (gatewayRun setting db storage (before ++ [input])).db ≠ some row →
        row.expiresAt < input.1 ∨ ∃ user, credential setting input = some user ∧
          user.role = .instructor ∧ user.sessionId = sessionId ∧
          Entitled setting old db storage before user

end Runs

/-! ### Steps -/

section Steps

variable {setting : GatewaySetting ν} {old : String → AuthTokenPayload → Prop} {db : Database}
  {storage : Storage} {inputs before : List (GatewayInput ν)} {state : GatewayState ν}
  {input : GatewayInput ν} {user : AuthTokenPayload}

/-- The services are left alone, or they do what the event asks for. -/
theorem gatewayStep_move (setting : GatewaySetting ν) (state : GatewayState ν)
    (input : GatewayInput ν) :
    (gatewayStep setting state input).catalog = state.catalog ∨
      ∃ asked, Asking setting input.1 input.2 asked ∧
        (handled setting state input).event = some asked ∧ canHappen state input.2 = true ∧
        CatalogMove setting.toServerSetting state.catalog input.1 asked
          (gatewayStep setting state input).catalog := by
  unfold gatewayStep
  cases hasked : (handled setting state input).event with
  | none => exact Or.inl rfl
  | some asked =>
    have hhandled := hasked
    unfold handled at hhandled
    split_ifs at hhandled with hcan
    · exact Or.inr ⟨asked, handle_asking hhandled, rfl, hcan, catalogStep_move _ state.catalog
        (input.1, asked)⟩
    · cases hhandled

/-- No upload is under way when the server starts again. -/
theorem uploads_restart (setting : GatewaySetting ν) (state : GatewayState ν) (now : ℕ) :
    (gatewayStep setting state (now, .restart)).server.uploads = OrderedMap.empty := rfl

theorem HasPasscode.append {sessionId candidate : String}
    (hpasscode : HasPasscode setting db storage inputs sessionId candidate)
    (more : List (GatewayInput ν)) :
    HasPasscode setting db storage (inputs ++ more) sessionId candidate := by
  refine hpasscode.imp id ?_
  rintro ⟨call, passcode, salt, hasked, hopened, hkey⟩
  exact ⟨call, passcode, salt, hasked.append more, hopened.append more, hkey⟩

/-- Who is entitled stays so. -/
theorem Entitled.append (hentitled : Entitled setting old db storage inputs user)
    (more : List (GatewayInput ν)) : Entitled setting old db storage (inputs ++ more) user := by
  cases hentitled with
  | earlier token hold => exact .earlier token hold
  | instructor call passcode salt hrole hasked hopened =>
    exact .instructor call passcode salt hrole (hasked.append more) (hopened.append more)
  | student call candidate hrole hasked hadmitted hpasscode =>
    exact .student call candidate hrole (hasked.append more) (hadmitted.append more)
      (hpasscode.append more)

theorem UploadedIn.append {id : String} {row : ResourceRow}
    (huploaded : UploadedIn setting old db storage inputs id row)
    (more : List (GatewayInput ν)) :
    UploadedIn setting old db storage (inputs ++ more) id row := by
  obtain ⟨before, input, later, rfl, hstores⟩ := huploaded
  exact ⟨before, input, later ++ more, by simp, hstores⟩

/-- An upload goes on as long as the server does. -/
theorem Uploading.concat {call : ℕ} (huploading : Uploading setting old db storage before call user)
    (hgoes : input.2 ≠ .restart) :
    Uploading setting old db storage (before ++ [input]) call user := by
  obtain ⟨front, first, after, rfl, hfresh, hasked, huser, hrole, hentitled, hrestarts⟩ :=
    huploading
  refine ⟨front, first, after ++ [input], by simp, hfresh, hasked, huser, hrole, hentitled, ?_⟩
  intro later hlater
  rcases List.mem_append.mp hlater with hafter | hlast
  · exact hrestarts later hafter
  · exact List.mem_singleton.mp hlast ▸ hgoes

/-- What the state of the server has to do with what has happened. -/
structure Trail (setting : GatewaySetting ν) (old : String → AuthTokenPayload → Prop)
    (db : Database) (storage : Storage) (inputs : List (GatewayInput ν))
    (state : GatewayState ν) : Prop where
  known : SocketsKnown state.server.hub
  rooms : RoomsOwn state.server.hub
  frames : ∀ frame ∈ state.server.hub.sent,
    HasHappened setting db storage (SendsFrame setting frame) inputs
  sockets : ∀ socket, state.server.hub.sockets.has socket = true →
    Entitled setting old db storage inputs socket.payload
  uploads : ∀ call job, state.server.uploads.get? call = some job → job.stage.Underway →
    ∃ user, Uploading setting old db storage inputs call user ∧ user.sessionId = job.sessionId
  resources : ∀ id row, state.db.resources.get? id = some row →
    db.resources.get? id = some row ∨ UploadedIn setting old db storage inputs id row
  creations : ∀ call pending, state.server.creations.get? call = some pending →
    HasHappened setting db storage (AsksToCreate call pending.passcode) inputs
  joins : ∀ call pending, state.server.joins.get? call = some pending →
    HasHappened setting db storage (AsksToJoin call pending.passcode) inputs ∧
      passcodeHashOf pending.session.id state.db = some pending.session.passcodeHash
  hashes : ∀ sessionId storedHash, passcodeHashOf sessionId state.db = some storedHash →
    passcodeHashOf sessionId db = some storedHash ∨
      ∃ call passcode salt, HasHappened setting db storage (AsksToCreate call passcode) inputs ∧
        HasHappened setting db storage (Opens setting sessionId call passcode salt) inputs ∧
        PasswordService.hashPassword setting.outside.scrypt passcode salt = .ok storedHash
  tokens : ∀ token user, IssuedIn setting db storage inputs token user →
    Entitled setting old db storage inputs user

theorem trail_new (setting : GatewaySetting ν) (old : String → AuthTokenPayload → Prop)
    (db : Database) (storage : Storage) :
    Trail setting old db storage [] (GatewayState.new db storage) where
  known := socketsKnown_new db
  rooms := roomsOwn_new db
  frames := fun _ hmem ↦ absurd hmem List.not_mem_nil
  sockets := fun socket hhas ↦ by
    simp [GatewayState.server, GatewayState.new, CatalogState.new, ServerState.new,
      SignalingHub.new] at hhas
  uploads := fun call job hjob ↦ by
    simp [GatewayState.server, GatewayState.new, CatalogState.new, ServerState.new] at hjob
  resources := fun _ _ hrow ↦ Or.inl hrow
  creations := fun call pending hpending ↦ by
    simp [GatewayState.server, GatewayState.new, CatalogState.new, ServerState.new] at hpending
  joins := fun call pending hpending ↦ by
    simp [GatewayState.server, GatewayState.new, CatalogState.new, ServerState.new] at hpending
  hashes := fun _ _ hstored ↦ Or.inl hstored
  tokens := fun token user hissued ↦ by
    obtain ⟨before, input, later, hsplit, -⟩ := hissued
    simp at hsplit

/-- The bearer of a token that verifies is entitled. -/
theorem Trail.credential (htrail : Trail setting old db storage before state)
    (hunforged : ∀ token user, presentedToken input.2 = some token →
      setting.verifyToken input.1 token = some user →
        old token user ∨ IssuedIn setting db storage before token user)
    (huser : credential setting input = some user) :
    Entitled setting old db storage before user := by
  obtain ⟨token, htoken, hverified⟩ := Option.bind_eq_some_iff.mp huser
  rcases hunforged token user htoken hverified with hold | hissued
  · exact .earlier token hold
  · exact htrail.tokens token user hissued

/-- A passcode that is found right is the one of the session. -/
theorem Trail.hasPasscode (htrail : Trail setting old db storage before state)
    {sessionId candidate storedHash : String}
    (hstored : passcodeHashOf sessionId state.db = some storedHash)
    (hverified :
      PasswordService.verifyPassword setting.outside.scrypt candidate storedHash = true) :
    HasPasscode setting db storage before sessionId candidate := by
  rcases htrail.hashes sessionId storedHash hstored with
    hold | ⟨call, passcode, salt, hasked, hopened, hhash⟩
  · exact Or.inl ⟨storedHash, hold, hverified⟩
  · exact Or.inr ⟨call, passcode, salt, hasked, hopened,
      (PasswordService.verifyPassword_hashPassword hhash).mp hverified⟩

/-- What the last step does has happened. -/
theorem happened_last {kind : GatewayState ν → GatewayInput ν → Prop}
    (hkind : kind (gatewayRun setting db storage before) input) :
    HasHappened setting db storage kind (before ++ [input]) :=
  happened_concat_iff.mpr (Or.inr hkind)

section Kept

variable (htrail : Trail setting old db storage before (gatewayRun setting db storage before))
  (hunforged : ∀ token user, presentedToken input.2 = some token →
    setting.verifyToken input.1 token = some user →
      old token user ∨ IssuedIn setting db storage before token user)

include htrail

include hunforged in
theorem Trail.sockets_step (socket : Socket)
    (hhas : (gatewayStep setting (gatewayRun setting db storage
      before) input).server.hub.sockets.has socket = true) :
    Entitled setting old db storage (before ++ [input]) socket.payload := by
  have hold : (gatewayRun setting db storage before).server.hub.sockets.has socket = true →
      Entitled setting old db storage (before ++ [input]) socket.payload :=
    fun hknown ↦ (htrail.sockets socket hknown).append [input]
  rcases gatewayStep_move setting (gatewayRun setting db storage before) input with
    hsame | ⟨asked, hasking, -, -, hmove⟩
  · rw [GatewayState.server, hsame] at hhas
    exact hold hhas
  · rcases hmove.sockets hhas with hknown | rfl
    · exact hold hknown
    · refine (htrail.credential hunforged ?_).append [input]
      obtain ⟨now, event⟩ := input
      cases hasking with
      | connect id token user huser => exact huser

include hunforged in
theorem Trail.uploads_step (call : ℕ) (job : UploadJob)
    (hjob : (gatewayStep setting (gatewayRun setting db storage before) input).server.uploads.get?
      call = some job) (hunderway : job.stage.Underway) :
    ∃ user, Uploading setting old db storage (before ++ [input]) call user ∧
      user.sessionId = job.sessionId := by
  have hgoes : input.2 ≠ .restart := by
    intro hrestart
    have hnone := uploads_restart setting (gatewayRun setting db storage before) input.1
    rw [← hrestart] at hnone
    rw [hnone] at hjob
    simp at hjob
  have hold : ∀ earlier, (gatewayRun setting db storage before).server.uploads.get? call =
      some earlier → earlier.stage.Underway → earlier.sessionId = job.sessionId →
        ∃ user, Uploading setting old db storage (before ++ [input]) call user ∧
          user.sessionId = job.sessionId := by
    intro earlier hearlier hwaits hsame
    obtain ⟨user, huploading, hsession⟩ := htrail.uploads call earlier hearlier hwaits
    exact ⟨user, huploading.concat hgoes, hsession.trans hsame⟩
  rcases gatewayStep_move setting (gatewayRun setting db storage before) input with
    hsame | ⟨asked, hasking, -, -, hmove⟩
  · rw [GatewayState.server, hsame] at hjob
    exact hold job hjob hunderway rfl
  · rcases hmove.uploads hjob hunderway with
      ⟨earlier, hearlier, hwaits, hsession⟩ |
        ⟨request, randomUUID, rfl, hfresh, hrole, huser, hsession⟩
    · exact hold earlier hearlier hwaits hsession
    · obtain ⟨now, event⟩ := input
      cases hasking with
      | postResource _ authorization id filename _ user hverified =>
        obtain rfl : user.sessionId = id := huser
        exact ⟨user, ⟨before, _, [], rfl, hfresh, ⟨authorization, filename, randomUUID, rfl⟩,
          hverified, hrole, htrail.credential hunforged hverified, by simp⟩, hsession⟩

theorem Trail.resources_step (id : String) (row : ResourceRow)
    (hrow : (gatewayStep setting (gatewayRun setting db storage
      before) input).db.resources.get? id = some row) :
    db.resources.get? id = some row ∨
      UploadedIn setting old db storage (before ++ [input]) id row := by
  have hold : (gatewayRun setting db storage before).db.resources.get? id = some row →
      db.resources.get? id = some row ∨
        UploadedIn setting old db storage (before ++ [input]) id row :=
    fun hbefore ↦ (htrail.resources id row hbefore).imp_right fun huploaded ↦
      huploaded.append [input]
  rcases gatewayStep_move setting (gatewayRun setting db storage before) input with
    hsame | ⟨asked, hasking, -, -, hmove⟩
  · rw [GatewayState.db, hsame] at hrow
    exact hold hrow
  · rcases hmove.resources hrow with
      hbefore | ⟨call, createdAt, fault, job, rfl, hjob, hunderway, hsession, hnew⟩
    · exact hold hbefore
    · obtain ⟨user, huploading, huser⟩ := htrail.uploads call job hjob hunderway
      have hevent : input.2 = .upload call (.persisted createdAt fault) := by
        obtain ⟨now, event⟩ := input
        cases hasking with
        | upload => rfl
      refine Or.inr ⟨before, input, [], rfl, call, createdAt, fault, user, hevent, huploading,
        huser.trans hsession, hnew, ?_⟩
      rw [gatewayRun_concat]
      exact hrow

/-- A frame that is sent now is sent by an event of the session of its socket. -/
theorem Trail.frames_step (frame : Socket × Json.Fields ν)
    (hframe : frame ∈ (gatewayStep setting (gatewayRun setting db storage
      before) input).server.hub.sent) :
    HasHappened setting db storage (SendsFrame setting frame) (before ++ [input]) := by
  rcases gatewayStep_move setting (gatewayRun setting db storage before) input with
    hsame | ⟨asked, -, hasked, -, hmove⟩
  · rw [GatewayState.server, hsame] at hframe
    exact (htrail.frames frame hframe).append [input]
  · rcases hmove.frames htrail.rooms hframe with
      hbefore | ⟨event, sent, rfl, hsession, hsent, hmem⟩
    · exact (htrail.frames frame hbefore).append [input]
    · exact happened_last ⟨event, sent, hasked, hsession, hsent, hmem⟩

theorem Trail.creations_step (call : ℕ) (pending : PendingCreation ν)
    (hpending : (gatewayStep setting (gatewayRun setting db storage
      before) input).server.creations.get? call = some pending) :
    HasHappened setting db storage (AsksToCreate call pending.passcode) (before ++ [input]) := by
  rcases gatewayStep_move setting (gatewayRun setting db storage before) input with
    hsame | ⟨asked, hasking, -, -, hmove⟩
  · rw [GatewayState.server, hsame] at hpending
    exact (htrail.creations call pending hpending).append [input]
  · rcases hmove.creations hpending with
      hbefore | ⟨request, randomUUID, randomBytes, rfl, hpasscode⟩
    · exact (htrail.creations call pending hbefore).append [input]
    · obtain ⟨now, event⟩ := input
      cases hasking with
      | createSession _ ip => exact happened_last ⟨ip, request, randomUUID, randomBytes, rfl,
          hpasscode.symm⟩

theorem Trail.joins_step (call : ℕ) (pending : PendingJoin)
    (hpending : (gatewayStep setting (gatewayRun setting db storage
      before) input).server.joins.get? call = some pending) :
    HasHappened setting db storage (AsksToJoin call pending.passcode) (before ++ [input]) ∧
      passcodeHashOf pending.session.id
          (gatewayStep setting (gatewayRun setting db storage before) input).db =
        some pending.session.passcodeHash := by
  rcases gatewayStep_move setting (gatewayRun setting db storage before) input with
    hsame | ⟨asked, hasking, -, -, hmove⟩
  · rw [GatewayState.server, hsame] at hpending
    rw [GatewayState.db, hsame]
    obtain ⟨hasked, hstored⟩ := htrail.joins call pending hpending
    exact ⟨hasked.append [input], hstored⟩
  · rcases hmove.joins hpending with hbefore | ⟨request, rfl, hjoined⟩
    · obtain ⟨hasked, hstored⟩ := htrail.joins call pending hbefore
      exact ⟨hasked.append [input], hmove.keepsHash hstored⟩
    · refine ⟨?_, passcodeHashOf_joinSession hjoined⟩
      obtain ⟨now, event⟩ := input
      cases hasking with
      | joinSession _ ip => exact happened_last ⟨ip, request, rfl,
          (joinSession_passcode hjoined).symm⟩

theorem Trail.hashes_step (sessionId storedHash : String)
    (hstored : passcodeHashOf sessionId
      (gatewayStep setting (gatewayRun setting db storage before) input).db = some storedHash) :
    passcodeHashOf sessionId db = some storedHash ∨
      ∃ call passcode salt,
        HasHappened setting db storage (AsksToCreate call passcode) (before ++ [input]) ∧
        HasHappened setting db storage (Opens setting sessionId call passcode salt)
          (before ++ [input]) ∧
        PasswordService.hashPassword setting.outside.scrypt passcode salt = .ok storedHash := by
  have hold : passcodeHashOf sessionId (gatewayRun setting db storage before).db =
      some storedHash → passcodeHashOf sessionId db = some storedHash ∨
        ∃ call passcode salt,
          HasHappened setting db storage (AsksToCreate call passcode) (before ++ [input]) ∧
          HasHappened setting db storage (Opens setting sessionId call passcode salt)
            (before ++ [input]) ∧
          PasswordService.hashPassword setting.outside.scrypt passcode salt = .ok storedHash := by
    intro hbefore
    refine (htrail.hashes sessionId storedHash hbefore).imp_right ?_
    rintro ⟨call, passcode, salt, hasked, hopened, hhash⟩
    exact ⟨call, passcode, salt, hasked.append [input], hopened.append [input], hhash⟩
  rcases gatewayStep_move setting (gatewayRun setting db storage before) input with
    hsame | ⟨asked, hasking, -, -, hmove⟩
  · rw [GatewayState.db, hsame] at hstored
    exact hold hstored
  · rcases hmove.passcodeHashOf sessionId with
      hkept | ⟨-, call, salt, createdAt, pending, response, newHash, rfl, hpending, hok, hid, hhash,
        hnew⟩
    · exact hold (hkept.symm.trans hstored)
    · obtain rfl : newHash = storedHash := Option.some.inj (hnew.symm.trans hstored)
      have hasked := (htrail.creations call pending hpending).append [input]
      obtain ⟨now, event⟩ := input
      cases hasking with
      | passcodeHashed => exact Or.inr ⟨call, pending.passcode, salt, hasked,
          happened_last ⟨createdAt, pending, response, rfl, hpending, rfl, hok, hid⟩, hhash⟩

/-- A token that is issued now is issued to someone who is entitled. -/
theorem Trail.entitled_of_issues {token : String}
    (hissues : Issues setting (gatewayRun setting db storage before) input token user) :
    Entitled setting old db storage (before ++ [input]) user := by
  have hadmits := hissues
  obtain ⟨now, event⟩ := input
  cases hissues with
  | instructor call salt createdAt pending response hcan hevent hpending hok =>
    exact .instructor call pending.passcode salt rfl
      ((htrail.creations call pending hpending).append _)
      (happened_last ⟨createdAt, pending, response, hevent, hpending, rfl, hok, rfl⟩)
  | student call randomBytes pending response hcan hevent hpending hok =>
    obtain ⟨hasked, hstored⟩ := htrail.joins call pending hpending
    have hresolved := hok
    unfold SessionService.resolveJoin at hresolved
    split_ifs at hresolved with hwrong
    have hsession : response.session.id = pending.session.id := by
      rw [← Except.ok.inj hresolved]
      rfl
    refine .student call pending.passcode rfl (hasked.append _)
      (happened_last ⟨randomBytes, pending, _, hevent, hpending, rfl, hadmits⟩) ?_
    refine (htrail.hasPasscode ?_ (by simpa using hwrong)).append _
    change passcodeHashOf response.session.id _ = _
    rw [hsession]
    exact hstored

include hunforged in
/-- **A step** keeps the trail. -/
theorem Trail.step :
    Trail setting old db storage (before ++ [input])
      (gatewayStep setting (gatewayRun setting db storage before) input) where
  known := by
    rcases gatewayStep_move setting (gatewayRun setting db storage before) input with
      hsame | ⟨asked, -, -, -, hmove⟩
    · rw [GatewayState.server, hsame]
      exact htrail.known
    · exact hmove.socketsKnown htrail.known
  rooms := by
    rcases gatewayStep_move setting (gatewayRun setting db storage before) input with
      hsame | ⟨asked, -, -, -, hmove⟩
    · rw [GatewayState.server, hsame]
      exact htrail.rooms
    · exact hmove.roomsOwn htrail.rooms
  frames := htrail.frames_step
  sockets := htrail.sockets_step hunforged
  uploads := htrail.uploads_step hunforged
  resources := htrail.resources_step
  creations := htrail.creations_step
  joins := htrail.joins_step
  hashes := htrail.hashes_step
  tokens := fun token user hissued ↦ by
    unfold IssuedIn at hissued
    rcases happened_concat_iff.mp hissued with hbefore | hissues
    · exact (htrail.tokens token user hbefore).append [input]
    · exact htrail.entitled_of_issues hissues

end Kept

/-- In a run in which tokens are not forged, the trail is kept. -/
theorem trail_gatewayRun (hunforged : Unforged setting old db storage inputs) :
    Trail setting old db storage inputs (gatewayRun setting db storage inputs) :=
  run_history (Trail setting old db storage) (trail_new setting old db storage)
    fun before input later hsplit htrail ↦ htrail.step (hunforged before input later hsplit)

end Steps

/-! ### Replies -/

section Replies

variable {setting : GatewaySetting ν} {state : GatewayState ν} {input : GatewayInput ν}

theorem listResources_ok {sessionId userSessionId : String} {now : ℕ} {db : Database}
    {resources : List ResourceInfo}
    (hok : (listResources sessionId userSessionId now db).2 = .ok resources) :
    userSessionId = sessionId := by
  unfold listResources at hok
  split_ifs at hok with hother
  exact not_not.mp hother

theorem getManifest_member {resourceId userSessionId : String} {now : ℕ} {db : Database}
    {manifest : ResourceManifest}
    (hok : (getManifest resourceId userSessionId now db).2 = .ok manifest) :
    (ResourceRepository.findById resourceId db).map ResourceRow.sessionId = some userSessionId := by
  unfold getManifest at hok
  cases hfound : ResourceRepository.findById resourceId db with
  | none => simp [hfound] at hok
  | some resource =>
    simp only [hfound] at hok
    split_ifs at hok with _ hother
    rw [not_not.mp hother]
    rfl

theorem getChunkStream_member {within : Confinement} {resourceId rawIndex userSessionId : String}
    {now : ℕ} {db : Database} {storage : Storage} {result : ChunkStreamResult}
    (hok : (getChunkStream within resourceId rawIndex userSessionId now db storage).2 =
      .ok result) :
    (ResourceRepository.findById resourceId db).map ResourceRow.sessionId = some userSessionId := by
  unfold getChunkStream at hok
  cases hfound : ResourceRepository.findById resourceId db with
  | none => simp [hfound] at hok
  | some resource =>
    simp only [hfound] at hok
    split_ifs at hok with _ hother
    rw [not_not.mp hother]
    rfl

theorem endSession_instructor {sessionId : String} {requester : AuthTokenPayload}
    {hub : SignalingHub ν} {response : EndSessionResponse}
    (hok : (endSession sessionId requester hub).2 = .ok response) :
    requester.role = .instructor ∧ requester.sessionId = sessionId := by
  unfold endSession at hok
  split_ifs at hok with hother
  rw [not_or, not_not, not_not] at hother
  exact hother

theorem resetTelemetry_instructor {host : Host ν} {sessionId : String} {user : AuthTokenPayload}
    {now : ℕ} {hub : SignalingHub ν} {response : TelemetryResetResponse ν}
    (hok : (resetTelemetry host sessionId user now hub).2 = .ok response) :
    user.role = .instructor ∧ user.sessionId = sessionId := by
  unfold resetTelemetry at hok
  split_ifs at hok with hstudent hother
  exact ⟨not_not.mp hstudent, not_not.mp hother⟩

/-- A reply that is not a refusal goes to a bearer of the session. -/
theorem reply_member {reply : Reply ν} {sessionId : String}
    (hreply : (handled setting state input).reply = some reply) (hsucceeds : reply.Succeeds)
    (haddressed : addressed state.db input.2 = some sessionId) :
    ∃ user, credential setting input = some user ∧ user.sessionId = sessionId ∧
      (forInstructors input.2 = true → user.role = .instructor) := by
  unfold handled at hreply
  split_ifs at hreply with hcan
  swap
  · cases hreply
  obtain ⟨now, event⟩ := input
  cases event with
  | getSession authorization id =>
    obtain rfl := Option.some.inj haddressed
    obtain ⟨user, huser, hhandled⟩ := exists_of_requireAuth_succeeds hreply hsucceeds
    refine ⟨user, huser, ?_, nofun⟩
    unfold handleGetSession at hhandled
    split_ifs at hhandled with hother
    · rw [← Option.some.inj hhandled] at hsucceeds
      exact absurd hsucceeds (refusal_not_succeeds _ _ _)
    · exact not_not.mp hother
  | endSession authorization id =>
    obtain rfl := Option.some.inj haddressed
    obtain ⟨user, huser, hhandled⟩ := exists_of_requireAuth_succeeds hreply hsucceeds
    rw [← Option.some.inj hhandled] at hsucceeds
    obtain ⟨response, hok⟩ := exists_of_settle_succeeds hsucceeds
    obtain ⟨hrole, hsession⟩ := endSession_instructor (ofHttp_eq_ok_iff.mp hok)
    exact ⟨user, huser, hsession, fun _ ↦ hrole⟩
  | getResources authorization id =>
    obtain rfl := Option.some.inj haddressed
    obtain ⟨user, huser, hhandled⟩ := exists_of_requireAuth_succeeds hreply hsucceeds
    rw [← Option.some.inj hhandled] at hsucceeds
    obtain ⟨resources, hok⟩ := exists_of_settle_succeeds hsucceeds
    exact ⟨user, huser, listResources_ok (ofHttp_eq_ok_iff.mp hok), nofun⟩
  | getManifest authorization id =>
    obtain ⟨user, huser, hhandled⟩ := exists_of_requireAuth_succeeds hreply hsucceeds
    rw [← Option.some.inj hhandled] at hsucceeds
    obtain ⟨manifest, hok⟩ := exists_of_settle_succeeds hsucceeds
    have hmember := getManifest_member (ofHttp_eq_ok_iff.mp hok)
    exact ⟨user, huser, Option.some.inj (hmember.symm.trans haddressed), nofun⟩
  | getChunk authorization id index =>
    obtain ⟨user, huser, hhandled⟩ := exists_of_requireAuth_succeeds hreply hsucceeds
    rw [← Option.some.inj hhandled] at hsucceeds
    obtain ⟨chunk, hok⟩ := exists_of_settle_succeeds hsucceeds
    have hmember := getChunkStream_member hok
    exact ⟨user, huser, Option.some.inj (hmember.symm.trans haddressed), nofun⟩
  | getTelemetry authorization id =>
    obtain rfl := Option.some.inj haddressed
    obtain ⟨user, huser, hhandled⟩ := exists_of_requireAuth_succeeds hreply hsucceeds
    refine ⟨user, huser, ?_, nofun⟩
    unfold handleGetTelemetry at hhandled
    split_ifs at hhandled with hother
    · rw [← Option.some.inj hhandled] at hsucceeds
      exact absurd rfl (hsucceeds _ _ _)
    · exact not_not.mp hother
  | resetTelemetry authorization id =>
    obtain rfl := Option.some.inj haddressed
    obtain ⟨user, huser, hhandled⟩ := exists_of_requireAuth_succeeds hreply hsucceeds
    rw [← Option.some.inj hhandled] at hsucceeds
    cases hreset : (resetTelemetry setting.host id user now state.server.hub).2 with
    | error error =>
      rw [hreset] at hsucceeds
      exact absurd rfl (hsucceeds _ _ _)
    | ok response =>
      obtain ⟨hrole, hsession⟩ := resetTelemetry_instructor hreset
      exact ⟨user, huser, hsession, fun _ ↦ hrole⟩
  | _ => cases haddressed

end Replies

/-! ### Runs -/

section Authorized

variable {setting : GatewaySetting ν} {old : String → AuthTokenPayload → Prop} {db : Database}
  {storage : Storage} {inputs : List (GatewayInput ν)}

theorem Unforged.left {before later : List (GatewayInput ν)}
    (hunforged : Unforged setting old db storage (before ++ later)) :
    Unforged setting old db storage before := by
  rintro part input rest rfl
  exact hunforged part input (rest ++ later) (by simp)

/-- **Who may do what.** In every run of requests, handshakes and frames that interleave in any way,
with restarts in between: if tokens cannot be forged, the server replies to, sends frames to, and
changes resources and sessions for those who are entitled to it, and nobody else. -/
theorem access_authorized (hunforged : Unforged setting old db storage inputs) :
    Authorized setting old db storage inputs := by
  have htrail : ∀ before input later, inputs = before ++ input :: later →
      Trail setting old db storage before (gatewayRun setting db storage before) := by
    rintro before input later rfl
    exact trail_gatewayRun hunforged.left
  have hbearer : ∀ before input later user, inputs = before ++ input :: later →
      credential setting input = some user → Entitled setting old db storage before user :=
    fun before input later user hsplit huser ↦
      (htrail before input later hsplit).credential (hunforged before input later hsplit) huser
  constructor
  case replies =>
    intro before input later hsplit reply sessionId hreply hsucceeds haddressed
    obtain ⟨user, huser, hsession, hrole⟩ := reply_member hreply hsucceeds haddressed
    exact ⟨user, huser, hsession, hrole, hbearer before input later user hsplit huser⟩
  case frames =>
    intro frame hframe
    have hlast := trail_gatewayRun hunforged
    exact ⟨hlast.sockets frame.1 (hlast.known.receivers frame hframe), hlast.frames frame hframe⟩
  case uploads => exact (trail_gatewayRun hunforged).resources
  case deletions =>
    intro before input later hsplit id row hrow hgone
    rw [gatewayRun_concat] at hgone
    rcases gatewayStep_move setting (gatewayRun setting db storage before) input with
      hsame | ⟨asked, hasking, -, -, hmove⟩
    · rw [GatewayState.db, hsame] at hgone
      exact absurd (hrow.symm.trans hgone) (by simp)
    · obtain ⟨call, rfl⟩ := hmove.deleted_by hrow hgone
      obtain ⟨authorization, user, hevent, hverified, hrole, hsession⟩ :=
        hasking.deleteResource_cases
      have huser : credential setting input = some user := by
        rw [credential, hevent]
        exact hverified
      exact ⟨user, huser, hrole, hsession, hbearer before input later user hsplit huser⟩
  case endings =>
    intro before input later hsplit sessionId row hrow hactive hchanged
    rw [gatewayRun_concat] at hchanged
    rcases gatewayStep_move setting (gatewayRun setting db storage before) input with
      hsame | ⟨asked, hasking, -, -, hmove⟩
    · rw [GatewayState.db, hsame] at hchanged
      exact absurd hrow hchanged
    · rcases hmove.ended_by hrow hactive hchanged with ⟨requester, rfl, hrole, hsession⟩ | hexpired
      · have huser : credential setting input = some requester := by
          obtain ⟨now, event⟩ := input
          cases hasking with
          | endSession authorization _ _ huser => exact huser
        exact Or.inr ⟨requester, huser, hrole, hsession,
          hbearer before input later requester hsplit huser⟩
      · exact Or.inl hexpired

/-- The bearers of one more request are asked about last. -/
theorem unforged_concat_iff {input : GatewayInput ν} :
    Unforged setting old db storage (inputs ++ [input]) ↔
      Unforged setting old db storage inputs ∧ ∀ token user, presentedToken input.2 = some token →
        setting.verifyToken input.1 token = some user →
          old token user ∨ IssuedIn setting db storage inputs token user :=
  forall_split_concat_iff

end Authorized

/-! ### A lecture -/

/-- A token that names its bearer. -/
def signedLecture (user : AuthTokenPayload) : String :=
  user.displayName ++ "@" ++ user.sessionId

/-- The instructor of the lecture. -/
def lectureInstructor : AuthTokenPayload := ⟨"sess_u", .instructor, none, "Ada", "MESH-2222"⟩

/-- A student of the lecture. -/
def lectureStudent : AuthTokenPayload :=
  ⟨"sess_u", .student, some (generatePeerId []), "Kurt", "MESH-2222"⟩

/-- A server on which the key of a passcode is the passcode, and tokens name their bearers. -/
def lectureGateway : GatewaySetting Rat :=
  { lectureSetting with
    outside := ⟨id, fun passcode _ ↦ .ok (passcode.toList.map fun char ↦ UInt8.ofNat char.toNat),
      fun _ ↦ some 1000, fun _ ↦ signedLecture⟩
    verifyToken := fun _ token ↦
      [lectureInstructor, lectureStudent].find? fun user ↦ signedLecture user = token
    encodeURIComponent := id }

/-- A lecture is created, and a student joins it. -/
def lectureStart : List (GatewayInput Rat) :=
  [(0, .createSession 0 "" lectureRequest "u" fun _ ↦ [0, 0, 0, 0]), (1, .passcodeHashed 0 [] ""),
    (2, .joinSession 0 "" ⟨some "MESH-2222", some "secret", some "Kurt"⟩),
    (3, .passcodeVerified 0 [])]

/-- The student looks at the session, and the instructor ends it. -/
def lectureRun : List (GatewayInput Rat) :=
  lectureStart ++ [(4, .getSession (some "Bearer Kurt@sess_u") "sess_u")] ++
    [(5, .endSession (some "Bearer Ada@sess_u") "sess_u")]

/-- Both tokens of the lecture are issued at its start. -/
theorem access_authorized_lectureRun :
    Authorized lectureGateway (fun _ _ ↦ False) classroom OrderedMap.empty lectureRun := by
  have hinstructor : IssuedIn lectureGateway classroom OrderedMap.empty lectureStart "Ada@sess_u"
      lectureInstructor :=
    ⟨lectureStart.take 1, (1, .passcodeHashed 0 [] ""), lectureStart.drop 2, rfl,
      .instructor 0 [] "" _ ⟨⟨"sess_u", "MESH-2222", "Logic", "Ada", 1000⟩, "Ada@sess_u"⟩ rfl rfl
        rfl rfl⟩
  have hstudent : IssuedIn lectureGateway classroom OrderedMap.empty lectureStart "Kurt@sess_u"
      lectureStudent :=
    ⟨lectureStart.take 3, (3, .passcodeVerified 0 []), [], rfl,
      .student 0 [] ⟨⟨"sess_u", "MESH-2222", "Logic", "Ada", ":736563726574", "", 1000, true⟩,
        "secret", "Kurt"⟩ ⟨⟨"sess_u", "MESH-2222", "Logic", "Ada", 1000⟩, generatePeerId [],
          "Kurt@sess_u", DEFAULT_ICE_SERVERS⟩ rfl rfl rfl rfl⟩
  refine access_authorized (unforged_concat_iff.mpr ⟨unforged_concat_iff.mpr ⟨?_, ?_⟩, ?_⟩)
  · intro before input later hsplit token user htoken
    have hmem : input ∈ lectureStart := hsplit ▸ List.mem_append_right before List.mem_cons_self
    have hnone : ∀ input ∈ lectureStart, presentedToken input.2 = none := by decide
    rw [hnone input hmem] at htoken
    cases htoken
  · intro token user htoken huser
    have hsent : presentedToken (.getSession (some "Bearer Kurt@sess_u") "sess_u" :
      GatewayEvent Rat) = some "Kurt@sess_u" := by decide +kernel
    obtain rfl := Option.some.inj (hsent.symm.trans htoken)
    obtain rfl : lectureStudent = user := Option.some.inj huser
    exact Or.inr hstudent
  · intro token user htoken huser
    have hsent : presentedToken (.endSession (some "Bearer Ada@sess_u") "sess_u" :
      GatewayEvent Rat) = some "Ada@sess_u" := by decide +kernel
    obtain rfl := Option.some.inj (hsent.symm.trans htoken)
    obtain rfl : lectureInstructor = user := Option.some.inj huser
    unfold IssuedIn at hinstructor ⊢
    exact Or.inr (hinstructor.append _)

end CampusMesh.Server
