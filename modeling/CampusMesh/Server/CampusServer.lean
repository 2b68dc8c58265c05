import CampusMesh.Server.ResourceUpload
import CampusMesh.Server.SessionService

/-!
# The server

The signaling hub together with the services of the REST routes, behind one database. A request that
waits for something (a hash, the file system) is a call with a number of its own, and goes on in a
later event; what happens in between may concern its session. A request that is answered at once is
one event.

The events are those of the hub, with the requests of `SessionService` and `ResourceService`, under
a token that has been verified.
-/

set_option autoImplicit false
set_option relaxedAutoImplicit false

namespace CampusMesh.Server

open Library Shared

variable {ν : Type}

/-! ### State -/

/-- What the server is given: the host, code that is not its own, its settings and SHA-256. -/
structure ServerSetting (ν : Type) where
  host : Host ν
  outside : SessionHost ν
  config : UploadConfig
  digest : Bytes → Bytes

/-- The state of the server, with the calls that wait. -/
structure ServerState (ν : Type) where
  hub : SignalingHub ν
  storage : Storage
  creations : OrderedMap ℕ (PendingCreation ν)
  joins : OrderedMap ℕ PendingJoin
  uploads : OrderedMap ℕ UploadJob

namespace ServerState

/-- The server at its start. -/
def new (db : Database) (storage : Storage) : ServerState ν where
  hub := SignalingHub.new db
  storage := storage
  creations := OrderedMap.empty
  joins := OrderedMap.empty
  uploads := OrderedMap.empty

/-- Replaces the database. -/
def setDb (db : Database) (state : ServerState ν) : ServerState ν :=
  { state with hub := { state.hub with db := db } }

@[simp] theorem setDb_hub (db : Database) (state : ServerState ν) :
    (state.setDb db).hub = { state.hub with db := db } := rfl

end ServerState

/-! ### Events -/

/-- What can happen to the server. -/
inductive ServerEvent (ν : Type)
  | hub (event : HubEvent)
  | createSession (call : ℕ) (request : CreateSessionRequest ν) (randomUUID : String)
      (randomBytes : ℕ → Bytes)
  /-- The passcode of a call of `createSession` is hashed. -/
  | passcodeHashed (call : ℕ) (salt : Bytes) (createdAt : String)
  | joinSession (call : ℕ) (request : JoinSessionRequest)
  /-- The passcode of a call of `joinSession` is checked. -/
  | passcodeVerified (call : ℕ)
  | getSessionInfo (sessionId : String)
  | listResources (sessionId userSessionId : String)
  | getManifest (resourceId userSessionId : String)
  | getChunkStream (resourceId rawIndex userSessionId : String)
  | processUpload (call : ℕ) (request : UploadRequest) (randomUUID : String)
  /-- A call of `processUpload` goes on. -/
  | upload (call : ℕ) (event : UploadEvent)

/-- An event with the time at which it happens. -/
abbrev ServerInput (ν : Type) := ℕ × ServerEvent ν

section Steps

variable (setting : ServerSetting ν)

/-- An upload goes on with the database and the files as they are. -/
def continueUpload (call : ℕ) (job : UploadJob) (event : UploadEvent) (state : ServerState ν) :
    ServerState ν :=
  let next := uploadStep setting.config setting.digest ⟨state.hub.db, state.storage, job⟩ event
  { state.setDb next.db with
    storage := next.storage
    uploads := state.uploads.set call next.job }

/-- What an event does to a server that runs. A call has a new number. -/
def handleServerEvent (now : ℕ) (state : ServerState ν) : ServerEvent ν → ServerState ν
  | .hub event => { state with hub := handleEvent setting.host now state.hub event }
  | .createSession call request randomUUID randomBytes =>
    if state.creations.has call then state
    else
      match SessionService.createSession setting.host setting.outside request randomUUID randomBytes
        state.hub.db with
      | .ok pending => { state with creations := state.creations.set call pending }
      | .error _ => state
  | .passcodeHashed call salt createdAt =>
    match state.creations.get? call with
    | some pending =>
      { state.setDb (SessionService.insertSession setting.host setting.outside pending salt now
          createdAt state.hub.db).1 with
        creations := state.creations.delete call }
    | none => state
  | .joinSession call request =>
    if state.joins.has call then state
    else
      match SessionService.joinSession setting.outside request now state.hub.db with
      | (db, .ok pending) => { state.setDb db with joins := state.joins.set call pending }
      | (db, .error _) => state.setDb db
  | .passcodeVerified call => { state with joins := state.joins.delete call }
  | .getSessionInfo sessionId =>
    state.setDb (SessionService.getSessionInfo sessionId now state.hub.rooms state.hub.db).1
  | .listResources sessionId userSessionId =>
    state.setDb (listResources sessionId userSessionId now state.hub.db).1
  | .getManifest resourceId userSessionId =>
    state.setDb (getManifest resourceId userSessionId now state.hub.db).1
  | .getChunkStream resourceId rawIndex userSessionId =>
    state.setDb (getChunkStream setting.config.within resourceId rawIndex userSessionId now
      state.hub.db state.storage).1
  | .processUpload call request randomUUID =>
    if state.uploads.has call then state
    else
      let begun := processUpload setting.config request randomUUID now state.hub.db
      { state.setDb begun.1 with uploads := state.uploads.set call begun.2 }
  | .upload call event =>
    match state.uploads.get? call with
    | some job => continueUpload setting call job event state
    | none => state

/-- One step of the server. -/
def serverStep (state : ServerState ν) (input : ServerInput ν) : ServerState ν :=
  if state.hub.halted then state else handleServerEvent setting input.1 state input.2

/-- The run of a server that starts with a database and files. -/
def serverRun (db : Database) (storage : Storage) (inputs : List (ServerInput ν)) : ServerState ν :=
  run (serverStep setting) (ServerState.new db storage) inputs

end Steps

end CampusMesh.Server
