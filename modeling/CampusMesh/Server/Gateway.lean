import CampusMesh.Server.RateLimiter
import CampusMesh.Server.ResourceCatalog

/-!
# The REST interface

The routes of the server with `requireAuth` and the rate limiters in front of the services, and the
handshake of the signaling socket. A request is handled in one event, which asks the services for
something, replies, or both; a request that waits is replied to by a later event of its call. What a
gateway asks the services for is a run of the server below (`catalog_gatewayRun`).

A refused request replies with the status of the error and a title that its route has for it, where
the routes differ. The texts of errors that the framework makes itself are left out.
-/

set_option autoImplicit false
set_option relaxedAutoImplicit false

namespace CampusMesh.Server

open Library Shared

variable {ν : Type}

/-! ### State -/

/-- What the interface is given besides: the check of a token at a time, and the encoding of a text
for a header. -/
structure GatewaySetting (ν : Type) extends ServerSetting ν where
  verifyToken : ℕ → String → Option AuthTokenPayload
  encodeURIComponent : String → String

/-- The services and the limiters. -/
structure GatewayState (ν : Type) where
  catalog : CatalogState ν
  sessionCreateLimiter : InMemoryRateLimiter ℤ
  sessionJoinLimiter : InMemoryRateLimiter ℤ

namespace GatewayState

/-- A server that starts with a database and files. -/
def new (db : Database) (storage : Storage) : GatewayState ν :=
  ⟨.new db storage, .new, .new⟩

/-- The server without its deletions. -/
def server (state : GatewayState ν) : ServerState ν := state.catalog.server

/-- The database. -/
def db (state : GatewayState ν) : Database := state.catalog.db

end GatewayState

/-! ### Replies -/

/-- The body of a reply. -/
inductive ReplyBody (ν : Type)
  | error (statusCode : Option ℕ) (error message : String)
  | sessionCreated (response : CreateSessionResponse)
  | sessionJoined (response : JoinSessionResponse)
  | sessionInfo (response : SessionInfoResponse)
  | sessionEnded (response : EndSessionResponse)
  | resource (resource : ResourceInfo)
  | resources (resources : List ResourceInfo)
  | manifest (manifest : ResourceManifest)
  | chunk (headers : List (String × String)) (stream : Bytes)
  | resourceDeleted (response : DeleteResourceResponse)
  | telemetry (metrics : SwarmMetrics ν)
  | telemetryReset (success : Bool) (message : String) (metrics : SwarmMetrics ν)

structure Reply (ν : Type) where
  status : ℕ
  body : ReplyBody ν

/-- The reply is not a refusal. -/
def Reply.Succeeds (reply : Reply ν) : Prop :=
  ∀ statusCode error message, reply.body ≠ .error statusCode error message

/-- A refusal that a route writes itself. -/
def refusal (statusCode : ℕ) (error message : String) : Reply ν :=
  ⟨statusCode, .error (some statusCode) error message⟩

/-- A refusal of the routes of the telemetry, whose bodies have no status. -/
def plainRefusal (statusCode : ℕ) (error message : String) : Reply ν :=
  ⟨statusCode, .error none error message⟩

/-- What a `catch` replies, with the titles of its route. -/
def failure (titles : List (ℕ × String)) (fallback : String) : ServiceError → Reply ν
  | .http error =>
    refusal (if error.statusCode = 0 then 500 else error.statusCode)
      ((titles.lookup error.statusCode).getD "Internal Server Error")
      (if error.message = "" then fallback else error.message)
  | .js error =>
    refusal 500 "Internal Server Error" (if error.message = "" then fallback else error.message)

/-- The reply to a request that the framework answers because its handler throws. -/
def unhandled : Reply ν :=
  refusal 500 "Internal Server Error" "Cannot convert object to primitive value"

/-- A reply for what a service resolves with or throws. -/
def settle {α : Type} (titles : List (ℕ × String)) (fallback : String) (success : α → Reply ν) :
    Except ServiceError α → Reply ν
  | .ok value => success value
  | .error error => failure titles fallback error

/-- What a service that throws only errors with a status resolves with or throws. -/
def ofHttp {α : Type} (outcome : Except HttpError α) : Except ServiceError α :=
  outcome.mapError .http

/-! ### Requests -/

/-- What can happen to the server. A request comes with its `Authorization` header. -/
inductive GatewayEvent (ν : Type)
  | createSession (call : ℕ) (ip : String) (request : CreateSessionRequest ν) (randomUUID : String)
      (randomBytes : ℕ → Bytes)
  | passcodeHashed (call : ℕ) (salt : Bytes) (createdAt : String)
  | joinSession (call : ℕ) (ip : String) (request : JoinSessionRequest)
  | passcodeVerified (call : ℕ) (randomBytes : Bytes)
  | getSession (authorization : Option String) (id : String)
  | endSession (authorization : Option String) (id : String)
  /-- A multipart request; there is no file name if it has no file. -/
  | postResource (call : ℕ) (authorization : Option String) (id : String) (filename : Option String)
      (randomUUID : String)
  | upload (call : ℕ) (event : UploadEvent)
  | getResources (authorization : Option String) (id : String)
  | getManifest (authorization : Option String) (id : String)
  | getChunk (authorization : Option String) (id index : String)
  | deleteResource (call : ℕ) (authorization : Option String) (id : String)
  | unlinked (call : ℕ) (fault : Option JsError)
  | getTelemetry (authorization : Option String) (id : String)
  | resetTelemetry (authorization : Option String) (id : String)
  /-- The handshake of a socket, with the token in its address. -/
  | connect (socket : ℕ) (token : Option String)
  | message (socket : Socket) (rawText : String)
  | closing (socket : Socket)
  | close (socket : Socket)
  | error (socket : Socket)
  | restart

/-- An event with the time at which it happens. -/
abbrev GatewayInput (ν : Type) := ℕ × GatewayEvent ν

/-- What an event leads to: an event of the services, and a reply. -/
structure Handled (ν : Type) where
  event : Option (CatalogEvent ν)
  reply : Option (Reply ν)

/-- Nothing happens. -/
def Handled.nothing : Handled ν := ⟨none, none⟩

/-- A reply without asking the services. -/
def Handled.only (reply : Reply ν) : Handled ν := ⟨none, some reply⟩

/-! ### Authentication -/

/-- The token of a header that starts with `Bearer `. -/
def bearerToken (authorization : Option String) : Option String :=
  authorization.bind fun header ↦
    if "Bearer ".toList.isPrefixOf header.toList then some (String.ofList (header.toList.drop 7))
    else none

section Routes

variable (setting : GatewaySetting ν)

/-- The payload of the token of a request, if it verifies. -/
def userOf (now : ℕ) (authorization : Option String) : Option AuthTokenPayload :=
  (bearerToken authorization).bind (setting.verifyToken now)

/-- `requireAuth` before a handler. -/
def requireAuth (now : ℕ) (authorization : Option String) (handler : AuthTokenPayload → Handled ν) :
    Handled ν :=
  match bearerToken authorization with
  | none => .only (refusal 401 "Unauthorized" "Missing or malformed Authorization header.")
  | some token =>
    match setting.verifyToken now token with
    | none => .only (refusal 401 "Unauthorized" "Invalid or expired session token.")
    | some user => handler user

/-! ### The routes of sessions -/

/-- `POST /sessions` replies once the passcode is hashed. -/
def createReply (outcome : Except ServiceError CreateSessionResponse) : Reply ν :=
  settle [(400, "Bad Request")] "Failed to create class session."
    (fun response ↦ ⟨201, .sessionCreated response⟩) outcome

/-- `POST /sessions`. -/
def handleCreate (call : ℕ) (ip : String) (request : CreateSessionRequest ν) (randomUUID : String)
    (randomBytes : ℕ → Bytes) (now : ℕ) (state : GatewayState ν) : Handled ν :=
  if (state.sessionCreateLimiter.checkLimit (createSessionCheck ip now)).1 = false then
    .only (refusal 429 "Too Many Requests"
      "Too many sessions created recently. Please try again later.")
  else
    match SessionService.createSession setting.host setting.outside request randomUUID randomBytes
      state.db with
    | .ok _ => ⟨some (.server (.createSession call request randomUUID randomBytes)), none⟩
    | .error error => .only (createReply (.error error))

/-- The passcode of a call of `POST /sessions` is hashed. -/
def handleHashed (call : ℕ) (salt : Bytes) (createdAt : String) (now : ℕ)
    (state : GatewayState ν) : Handled ν :=
  match state.server.creations.get? call with
  | some pending =>
    ⟨some (.server (.passcodeHashed call salt createdAt)),
      some (createReply ((SessionService.insertSession setting.host setting.outside pending salt now
        createdAt state.db).2.mapError .js))⟩
  | none => .nothing

/-- `POST /sessions/join` replies once the passcode is checked. -/
def joinRouteReply (outcome : Except HttpError JoinSessionResponse) : Reply ν :=
  settle [(400, "Bad Request"), (401, "Unauthorized"), (404, "Not Found"), (410, "Gone")]
    "Failed to join session." (fun response ↦ ⟨200, .sessionJoined response⟩) (ofHttp outcome)

/-- `POST /sessions/join`. -/
def handleJoin (call : ℕ) (ip : String) (request : JoinSessionRequest) (now : ℕ)
    (state : GatewayState ν) : Handled ν :=
  if (state.sessionJoinLimiter.checkLimit (joinSessionCheck ip now)).1 = false then
    .only (refusal 429 "Too Many Requests"
      "Too many join attempts. Please slow down and try again.")
  else
    ⟨some (.server (.joinSession call request)),
      match (SessionService.joinSession setting.outside request now state.db).2 with
      | .ok _ => none
      | .error error => some (joinRouteReply (.error error))⟩

/-- The passcode of a call of `POST /sessions/join` is checked. -/
def handleVerified (call : ℕ) (randomBytes : Bytes) (now : ℕ) (state : GatewayState ν) :
    Handled ν :=
  match state.server.joins.get? call with
  | some pending =>
    ⟨some (.server (.passcodeVerified call)),
      some (joinRouteReply (SessionService.resolveJoin setting.outside pending randomBytes now))⟩
  | none => .nothing

/-- `GET /sessions/:id`. -/
def handleGetSession (id : String) (now : ℕ) (state : GatewayState ν) (user : AuthTokenPayload) :
    Handled ν :=
  if user.sessionId ≠ id then
    .only (refusal 403 "Forbidden" "You are not authorized to view another class session.")
  else
    ⟨some (.server (.getSessionInfo id)),
      some (settle [(404, "Not Found"), (410, "Gone")] "Failed to retrieve session info."
        (fun info ↦ ⟨200, .sessionInfo info⟩)
        (ofHttp (SessionService.getSessionInfo id now state.server.hub.rooms state.db).2))⟩

/-- `POST /sessions/:id/end`. -/
def handleEnd (id : String) (state : GatewayState ν) (user : AuthTokenPayload) : Handled ν :=
  ⟨some (.server (.hub (.endSession id user))),
    some (settle [(403, "Forbidden"), (404, "Not Found")] "Failed to end session."
      (fun response ↦ ⟨200, .sessionEnded response⟩)
      (ofHttp (endSession id user state.server.hub).2))⟩

/-! ### The routes of resources -/

/-- `POST /sessions/:id/resources` replies once the upload has settled. -/
def uploadRouteReply (outcome : Except ServiceError ResourceInfo) : Reply ν :=
  settle [(413, "Payload Too Large"), (400, "Bad Request")] "Failed to process resource upload."
    (fun resource ↦ ⟨201, .resource resource⟩) outcome

/-- The reply to a call whose upload is at a stage. -/
def stageReply : UploadStage → Option (Reply ν)
  | .settled outcome => some (uploadRouteReply outcome)
  | _ => none

/-- `POST /sessions/:id/resources`. -/
def handlePostResource (call : ℕ) (id : String) (filename : Option String) (randomUUID : String)
    (now : ℕ) (state : GatewayState ν) (user : AuthTokenPayload) : Handled ν :=
  match filename with
  | none => .only (refusal 400 "Bad Request" "No file found in multipart request payload.")
  | some originalFileName =>
    let request : UploadRequest := ⟨id, user.role, user.sessionId, originalFileName⟩
    ⟨some (.server (.processUpload call request randomUUID)),
      stageReply (processUpload setting.config request randomUUID now state.db).2.stage⟩

/-- A call of `POST /sessions/:id/resources` goes on; one that has settled does not. -/
def handleUpload (call : ℕ) (event : UploadEvent) (state : GatewayState ν) : Handled ν :=
  match state.server.uploads.get? call with
  | some job =>
    if (stageReply job.stage : Option (Reply ν)).isSome then .nothing
    else
      ⟨some (.server (.upload call event)),
        stageReply (uploadStep setting.config setting.digest
          ⟨state.db, state.catalog.storage, job⟩ event).job.stage⟩
  | none => .nothing

/-- `GET /sessions/:id/resources`. -/
def handleGetResources (id : String) (now : ℕ) (state : GatewayState ν)
    (user : AuthTokenPayload) : Handled ν :=
  ⟨some (.server (.listResources id user.sessionId)),
    some (settle [(403, "Forbidden"), (404, "Not Found")] "Failed to retrieve session resources."
      (fun resources ↦ ⟨200, .resources resources⟩)
      (ofHttp (listResources id user.sessionId now state.db).2))⟩

/-- `GET /resources/:id/manifest`. -/
def handleGetManifest (id : String) (now : ℕ) (state : GatewayState ν) (user : AuthTokenPayload) :
    Handled ν :=
  ⟨some (.server (.getManifest id user.sessionId)),
    some (settle [(403, "Forbidden"), (404, "Not Found")] "Failed to retrieve resource manifest."
      (fun manifest ↦ ⟨200, .manifest manifest⟩)
      (ofHttp (getManifest id user.sessionId now state.db).2))⟩

/-- The headers with which a chunk is sent. -/
def chunkHeaders (chunk : ChunkStreamResult) : List (String × String) :=
  [("Content-Type", "application/octet-stream"), ("Content-Length", toString chunk.length),
    ("Content-Disposition", "attachment; filename=\"" ++
      setting.encodeURIComponent chunk.fileName ++ ".chunk" ++ toString chunk.chunkIndex ++ "\""),
    ("Cache-Control", "public, max-age=31536000, immutable"),
    ("ETag", "\"" ++ chunk.chunkHash ++ "\""), ("X-Resource-Id", chunk.resourceId),
    ("X-Chunk-Index", toString chunk.chunkIndex), ("X-Chunk-SHA256", chunk.chunkHash),
    ("X-Total-Chunks", toString chunk.totalChunks)]

/-- `GET /resources/:id/chunks/:index`. Its titles have none for the other sessions, nor for those
that have expired. -/
def handleGetChunk (id index : String) (now : ℕ) (state : GatewayState ν)
    (user : AuthTokenPayload) : Handled ν :=
  ⟨some (.server (.getChunkStream id index user.sessionId)),
    some (settle [(400, "Bad Request"), (404, "Not Found")] "Failed to stream chunk."
      (fun chunk ↦ ⟨200, .chunk (chunkHeaders setting chunk) chunk.stream⟩)
      (getChunkStream setting.config.within id index user.sessionId now state.db
        state.catalog.storage).2)⟩

/-- `DELETE /resources/:id`. -/
def handleDelete (call : ℕ) (id : String) (state : GatewayState ν) (user : AuthTokenPayload) :
    Handled ν :=
  ⟨some (.deleteResource call id user.role user.sessionId),
    match (deleteResource id user.role user.sessionId state.db).2 with
    | .ok _ => none
    | .error error => some (failure [(403, "Forbidden"), (404, "Not Found")]
        "Failed to delete resource." (.http error))⟩

/-- A call of `DELETE /resources/:id` goes on. -/
def handleUnlinked (call : ℕ) (fault : Option JsError) (state : GatewayState ν) : Handled ν :=
  match state.catalog.deletions.get? call with
  | some pending =>
    ⟨some (.unlinked call fault), some ⟨200, .resourceDeleted
      (resolveDeletion setting.config.within pending fault state.catalog.storage).2⟩⟩
  | none => .nothing

/-! ### The routes of the telemetry -/

/-- `GET /sessions/:id/telemetry`. -/
def handleGetTelemetry (id : String) (now : ℕ) (state : GatewayState ν)
    (user : AuthTokenPayload) : Handled ν :=
  if user.sessionId ≠ id then
    .only (plainRefusal 403 "Forbidden" "Cannot access telemetry from another session.")
  else
    match SessionRepository.findById id state.db with
    | none => .only (plainRefusal 404 "Not Found" "Session does not exist.")
    | some _ =>
      .only
        (match TelemetryManager.getMetrics setting.host id now state.server.hub.rooms
          state.server.hub.reports with
        | some metrics => ⟨200, .telemetry metrics⟩
        | none => unhandled)

/-- The title of a refusal of `POST /sessions/:id/telemetry/reset`. -/
def resetTitle (error : HttpError) : String :=
  if error.statusCode = 403 then "Forbidden" else "Not Found"

/-- `POST /sessions/:id/telemetry/reset`. -/
def handleReset (id : String) (now : ℕ) (state : GatewayState ν) (user : AuthTokenPayload) :
    Handled ν :=
  ⟨some (.server (.hub (.resetTelemetry id user))),
    some
      (match (resetTelemetry setting.host id user now state.server.hub).2 with
      | .error error => plainRefusal error.statusCode (resetTitle error) error.message
      | .ok response =>
        match response.metrics with
        | some metrics => ⟨200, .telemetryReset response.success response.message metrics⟩
        | none => unhandled)⟩

/-! ### Events and runs -/

/-- The handshake. A socket without a valid token is closed. -/
def handleConnect (socket : ℕ) (token : Option String) (now : ℕ) : Handled ν :=
  match (token.filter fun text ↦ text ≠ "").bind (setting.verifyToken now) with
  | some payload => ⟨some (.server (.hub (.connection ⟨socket, payload⟩))), none⟩
  | none => .nothing

/-- What an event leads to when the server runs. -/
def handle (now : ℕ) (state : GatewayState ν) : GatewayEvent ν → Handled ν
  | .createSession call ip request randomUUID randomBytes =>
    handleCreate setting call ip request randomUUID randomBytes now state
  | .passcodeHashed call salt createdAt => handleHashed setting call salt createdAt now state
  | .joinSession call ip request => handleJoin setting call ip request now state
  | .passcodeVerified call randomBytes => handleVerified setting call randomBytes now state
  | .getSession authorization id =>
    requireAuth setting now authorization (handleGetSession id now state)
  | .endSession authorization id => requireAuth setting now authorization (handleEnd id state)
  | .postResource call authorization id filename randomUUID =>
    requireAuth setting now authorization
      (handlePostResource setting call id filename randomUUID now state)
  | .upload call event => handleUpload setting call event state
  | .getResources authorization id =>
    requireAuth setting now authorization (handleGetResources id now state)
  | .getManifest authorization id =>
    requireAuth setting now authorization (handleGetManifest id now state)
  | .getChunk authorization id index =>
    requireAuth setting now authorization (handleGetChunk setting id index now state)
  | .deleteResource call authorization id =>
    requireAuth setting now authorization (handleDelete call id state)
  | .unlinked call fault => handleUnlinked setting call fault state
  | .getTelemetry authorization id =>
    requireAuth setting now authorization (handleGetTelemetry setting id now state)
  | .resetTelemetry authorization id =>
    requireAuth setting now authorization (handleReset setting id now state)
  | .connect socket token => handleConnect setting socket token now
  | .message socket rawText => ⟨some (.server (.hub (.message socket rawText))), none⟩
  | .closing socket => ⟨some (.server (.hub (.closing socket))), none⟩
  | .close socket => ⟨some (.server (.hub (.close socket))), none⟩
  | .error socket => ⟨some (.server (.hub (.error socket))), none⟩
  | .restart => ⟨some .restart, none⟩

/-- A call has a new number, and a process that has ended can only be started again. -/
def canHappen (state : GatewayState ν) : GatewayEvent ν → Bool
  | .restart => true
  | event => !state.server.hub.halted &&
    match event with
    | .createSession call .. => !state.server.creations.has call
    | .joinSession call .. => !state.server.joins.has call
    | .postResource call .. => !state.server.uploads.has call
    | .deleteResource call .. => !state.catalog.deletions.has call
    | _ => true

/-- What an input leads to. -/
def handled (state : GatewayState ν) (input : GatewayInput ν) : Handled ν :=
  if canHappen state input.2 then handle setting input.1 state input.2 else .nothing

/-- The limiters after an event that can happen. They are new when the process starts. -/
def limited (now : ℕ) (state : GatewayState ν) : GatewayEvent ν → GatewayState ν
  | .createSession _ ip _ _ _ =>
    { state with
      sessionCreateLimiter :=
        (state.sessionCreateLimiter.checkLimit (createSessionCheck ip now)).2 }
  | .joinSession _ ip _ =>
    { state with
      sessionJoinLimiter := (state.sessionJoinLimiter.checkLimit (joinSessionCheck ip now)).2 }
  | .restart => { state with sessionCreateLimiter := .new, sessionJoinLimiter := .new }
  | _ => state

/-- One step of the server. -/
def gatewayStep (state : GatewayState ν) (input : GatewayInput ν) : GatewayState ν :=
  { (if canHappen state input.2 then limited input.1 state input.2 else state) with
    catalog :=
      match (handled setting state input).event with
      | some event => catalogStep setting.toServerSetting state.catalog (input.1, event)
      | none => state.catalog }

/-- The run of a server that starts with a database and files. -/
def gatewayRun (db : Database) (storage : Storage) (inputs : List (GatewayInput ν)) :
    GatewayState ν :=
  run (gatewayStep setting) (GatewayState.new db storage) inputs

/-- The state after one more event. -/
theorem gatewayRun_concat (db : Database) (storage : Storage) (before : List (GatewayInput ν))
    (input : GatewayInput ν) :
    gatewayRun setting db storage (before ++ [input]) =
      gatewayStep setting (gatewayRun setting db storage before) input := by
  rw [gatewayRun, run_append]
  rfl

/-- What the services are asked for in a run. -/
def asked : GatewayState ν → List (GatewayInput ν) → List (CatalogInput ν)
  | _, [] => []
  | state, input :: rest =>
    ((handled setting state input).event.toList.map fun event ↦ (input.1, event)) ++
      asked (gatewayStep setting state input) rest

/-- The services below the interface take a run of their own. -/
theorem catalog_gatewayRun (db : Database) (storage : Storage) (inputs : List (GatewayInput ν)) :
    (gatewayRun setting db storage inputs).catalog =
      catalogRun setting.toServerSetting db storage
        (asked setting (GatewayState.new db storage) inputs) := by
  have hfrom : ∀ state : GatewayState ν, (run (gatewayStep setting) state inputs).catalog =
      run (catalogStep setting.toServerSetting) state.catalog (asked setting state inputs) := by
    induction inputs with
    | nil => exact fun _ ↦ rfl
    | cons input rest ih =>
      intro state
      rw [run_cons, ih, asked, run_append]
      congr 1
      unfold gatewayStep
      cases (handled setting state input).event with
      | none => rfl
      | some event => rfl
  exact hfrom _

end Routes

/-! ### What the services are asked for -/

section Asking

variable {setting : GatewaySetting ν} {now : ℕ} {state : GatewayState ν}

theorem refusal_not_succeeds (statusCode : ℕ) (error message : String) :
    ¬ (refusal statusCode error message : Reply ν).Succeeds :=
  fun hsucceeds ↦ hsucceeds _ _ _ rfl

/-- A reply that is not a refusal is that to a value. -/
theorem exists_of_settle_succeeds {α : Type} {titles : List (ℕ × String)} {fallback : String}
    {success : α → Reply ν} {outcome : Except ServiceError α}
    (hsucceeds : (settle titles fallback success outcome).Succeeds) :
    ∃ value, outcome = .ok value := by
  cases outcome with
  | ok value => exact ⟨value, rfl⟩
  | error error => cases error <;> exact absurd hsucceeds (refusal_not_succeeds _ _ _)

/-- A reply that is not a refusal is made for a value. -/
theorem exists_of_settle_eq {α : Type} {titles : List (ℕ × String)} {fallback : String}
    {success : α → Reply ν} {outcome : Except ServiceError α} {reply : Reply ν}
    (hreply : settle titles fallback success outcome = reply) (hsucceeds : reply.Succeeds) :
    ∃ value, outcome = .ok value ∧ success value = reply := by
  obtain ⟨value, rfl⟩ := exists_of_settle_succeeds (hreply ▸ hsucceeds)
  exact ⟨value, rfl, hreply⟩

theorem ofHttp_eq_ok_iff {α : Type} {outcome : Except HttpError α} {value : α} :
    ofHttp outcome = .ok value ↔ outcome = .ok value := by
  cases outcome <;> simp [ofHttp, Except.mapError]

/-- A handler is reached with the bearer of a token that verifies; otherwise the request is refused.
-/
theorem requireAuth_cases (setting : GatewaySetting ν) (now : ℕ) (authorization : Option String)
    (handler : AuthTokenPayload → Handled ν) :
    (∃ message, requireAuth setting now authorization handler =
      .only (refusal 401 "Unauthorized" message)) ∨
      ∃ user, userOf setting now authorization = some user ∧
        requireAuth setting now authorization handler = handler user := by
  unfold requireAuth userOf
  cases bearerToken authorization with
  | none => exact Or.inl ⟨_, rfl⟩
  | some token =>
    simp only [Option.bind_some]
    cases setting.verifyToken now token with
    | none => exact Or.inl ⟨_, rfl⟩
    | some user => exact Or.inr ⟨user, rfl, rfl⟩

/-- A request behind `requireAuth` that is not refused has reached its handler. -/
theorem exists_of_requireAuth_succeeds {authorization : Option String}
    {handler : AuthTokenPayload → Handled ν} {reply : Reply ν}
    (hreply : (requireAuth setting now authorization handler).reply = some reply)
    (hsucceeds : reply.Succeeds) :
    ∃ user, userOf setting now authorization = some user ∧ (handler user).reply = some reply := by
  rcases requireAuth_cases setting now authorization handler with
    ⟨message, hrefused⟩ | ⟨user, huser, hreached⟩
  · rw [hrefused] at hreply
    rw [← Option.some.inj hreply] at hsucceeds
    exact absurd hsucceeds (refusal_not_succeeds _ _ _)
  · exact ⟨user, huser, hreached ▸ hreply⟩

/-- What an event asks the services for, and under which token. -/
inductive Asking (setting : GatewaySetting ν) (now : ℕ) : GatewayEvent ν → CatalogEvent ν → Prop
  | createSession (call : ℕ) (ip : String) (request : CreateSessionRequest ν) (randomUUID : String)
      (randomBytes : ℕ → Bytes) :
      Asking setting now (.createSession call ip request randomUUID randomBytes)
        (.server (.createSession call request randomUUID randomBytes))
  | passcodeHashed (call : ℕ) (salt : Bytes) (createdAt : String) :
      Asking setting now (.passcodeHashed call salt createdAt)
        (.server (.passcodeHashed call salt createdAt))
  | joinSession (call : ℕ) (ip : String) (request : JoinSessionRequest) :
      Asking setting now (.joinSession call ip request) (.server (.joinSession call request))
  | passcodeVerified (call : ℕ) (randomBytes : Bytes) :
      Asking setting now (.passcodeVerified call randomBytes) (.server (.passcodeVerified call))
  | getSession (authorization : Option String) (id : String) (user : AuthTokenPayload)
      (huser : userOf setting now authorization = some user) (hsession : user.sessionId = id) :
      Asking setting now (.getSession authorization id) (.server (.getSessionInfo id))
  | endSession (authorization : Option String) (id : String) (user : AuthTokenPayload)
      (huser : userOf setting now authorization = some user) :
      Asking setting now (.endSession authorization id) (.server (.hub (.endSession id user)))
  | postResource (call : ℕ) (authorization : Option String) (id filename randomUUID : String)
      (user : AuthTokenPayload) (huser : userOf setting now authorization = some user) :
      Asking setting now (.postResource call authorization id (some filename) randomUUID)
        (.server (.processUpload call ⟨id, user.role, user.sessionId, filename⟩ randomUUID))
  | upload (call : ℕ) (event : UploadEvent) :
      Asking setting now (.upload call event) (.server (.upload call event))
  | getResources (authorization : Option String) (id : String) (user : AuthTokenPayload)
      (huser : userOf setting now authorization = some user) :
      Asking setting now (.getResources authorization id)
        (.server (.listResources id user.sessionId))
  | getManifest (authorization : Option String) (id : String) (user : AuthTokenPayload)
      (huser : userOf setting now authorization = some user) :
      Asking setting now (.getManifest authorization id)
        (.server (.getManifest id user.sessionId))
  | getChunk (authorization : Option String) (id index : String) (user : AuthTokenPayload)
      (huser : userOf setting now authorization = some user) :
      Asking setting now (.getChunk authorization id index)
        (.server (.getChunkStream id index user.sessionId))
  | deleteResource (call : ℕ) (authorization : Option String) (id : String)
      (user : AuthTokenPayload) (huser : userOf setting now authorization = some user) :
      Asking setting now (.deleteResource call authorization id)
        (.deleteResource call id user.role user.sessionId)
  | unlinked (call : ℕ) (fault : Option JsError) :
      Asking setting now (.unlinked call fault) (.unlinked call fault)
  | resetTelemetry (authorization : Option String) (id : String) (user : AuthTokenPayload)
      (huser : userOf setting now authorization = some user) :
      Asking setting now (.resetTelemetry authorization id)
        (.server (.hub (.resetTelemetry id user)))
  | connect (socket : ℕ) (token : Option String) (user : AuthTokenPayload)
      (huser : (token.filter fun text ↦ text ≠ "").bind (setting.verifyToken now) = some user) :
      Asking setting now (.connect socket token) (.server (.hub (.connection ⟨socket, user⟩)))
  | message (socket : Socket) (rawText : String) :
      Asking setting now (.message socket rawText) (.server (.hub (.message socket rawText)))
  | closing (socket : Socket) :
      Asking setting now (.closing socket) (.server (.hub (.closing socket)))
  | close (socket : Socket) : Asking setting now (.close socket) (.server (.hub (.close socket)))
  | error (socket : Socket) : Asking setting now (.error socket) (.server (.hub (.error socket)))
  | restart : Asking setting now .restart .restart

/-- A resource is deleted under the role and the session of the bearer of a token. -/
theorem Asking.deleteResource_cases {event : GatewayEvent ν} {call : ℕ} {id sessionId : String}
    {role : UserRole}
    (hasking : Asking setting now event (.deleteResource call id role sessionId)) :
    ∃ authorization user, event = .deleteResource call authorization id ∧
      userOf setting now authorization = some user ∧ user.role = role ∧
        user.sessionId = sessionId := by
  cases hasking with
  | deleteResource _ authorization _ user huser => exact ⟨authorization, user, rfl, huser, rfl, rfl⟩

/-- Whatever the services are asked for is one of these. -/
theorem handle_asking {event : GatewayEvent ν} {asked : CatalogEvent ν}
    (hasked : (handle setting now state event).event = some asked) :
    Asking setting now event asked := by
  have hauth : ∀ {authorization : Option String} {handler : AuthTokenPayload → Handled ν},
      (requireAuth setting now authorization handler).event = some asked →
        ∃ user, userOf setting now authorization = some user ∧
          (handler user).event = some asked := by
    intro authorization handler hevent
    rcases requireAuth_cases setting now authorization handler with
      ⟨message, hrefused⟩ | ⟨user, huser, hreached⟩
    · rw [hrefused] at hevent
      cases hevent
    · exact ⟨user, huser, hreached ▸ hevent⟩
  cases event with
  | createSession call ip request randomUUID randomBytes =>
    simp only [handle, handleCreate] at hasked
    repeat' split at hasked
    all_goals cases hasked
    exact .createSession call ip request randomUUID randomBytes
  | passcodeHashed call salt createdAt =>
    simp only [handle, handleHashed] at hasked
    split at hasked <;> cases hasked
    exact .passcodeHashed call salt createdAt
  | joinSession call ip request =>
    simp only [handle, handleJoin] at hasked
    split at hasked <;> cases hasked
    exact .joinSession call ip request
  | passcodeVerified call randomBytes =>
    simp only [handle, handleVerified] at hasked
    split at hasked <;> cases hasked
    exact .passcodeVerified call randomBytes
  | getSession authorization id =>
    obtain ⟨user, huser, hevent⟩ := hauth hasked
    simp only [handleGetSession] at hevent
    split at hevent <;> cases hevent
    exact .getSession authorization id user huser (not_not.mp ‹_›)
  | endSession authorization id =>
    obtain ⟨user, huser, hevent⟩ := hauth hasked
    cases hevent
    exact .endSession authorization id user huser
  | postResource call authorization id filename randomUUID =>
    obtain ⟨user, huser, hevent⟩ := hauth hasked
    cases filename with
    | none => cases hevent
    | some filename =>
      cases hevent
      exact .postResource call authorization id filename randomUUID user huser
  | upload call event =>
    simp only [handle, handleUpload] at hasked
    repeat' split at hasked
    all_goals cases hasked
    exact .upload call event
  | getResources authorization id =>
    obtain ⟨user, huser, hevent⟩ := hauth hasked
    cases hevent
    exact .getResources authorization id user huser
  | getManifest authorization id =>
    obtain ⟨user, huser, hevent⟩ := hauth hasked
    cases hevent
    exact .getManifest authorization id user huser
  | getChunk authorization id index =>
    obtain ⟨user, huser, hevent⟩ := hauth hasked
    cases hevent
    exact .getChunk authorization id index user huser
  | deleteResource call authorization id =>
    obtain ⟨user, huser, hevent⟩ := hauth hasked
    cases hevent
    exact .deleteResource call authorization id user huser
  | unlinked call fault =>
    simp only [handle, handleUnlinked] at hasked
    split at hasked <;> cases hasked
    exact .unlinked call fault
  | getTelemetry authorization id =>
    obtain ⟨user, huser, hevent⟩ := hauth hasked
    simp only [handleGetTelemetry] at hevent
    repeat' split at hevent
    all_goals cases hevent
  | resetTelemetry authorization id =>
    obtain ⟨user, huser, hevent⟩ := hauth hasked
    cases hevent
    exact .resetTelemetry authorization id user huser
  | connect socket token =>
    simp only [handle, handleConnect] at hasked
    split at hasked
    · next user huser =>
      cases hasked
      exact .connect socket token user huser
    · cases hasked
  | message socket rawText =>
    cases hasked
    exact .message socket rawText
  | closing socket =>
    cases hasked
    exact .closing socket
  | close socket =>
    cases hasked
    exact .close socket
  | error socket =>
    cases hasked
    exact .error socket
  | restart =>
    cases hasked
    exact .restart

end Asking

end CampusMesh.Server
