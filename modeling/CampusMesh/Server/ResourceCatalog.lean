import CampusMesh.Server.CampusServer

/-!
# Uploads and deletions

`ResourceService.deleteResource`, and the server with the deletions that are under way. The row of a
resource is deleted with its chunks when the request is made; then the call waits for its file to be
unlinked. A call that is cut off is one that never goes on. When the process ends and is started
again all calls are gone, and the database and the files are as they were.
-/

set_option autoImplicit false
set_option relaxedAutoImplicit false

namespace CampusMesh.Server

open Library Shared

variable {ν : Type}

/-! ### Deleting a resource -/

/-- `DeleteResourceResponse`. -/
structure DeleteResourceResponse where
  success : Bool
  message : String
  resourceId : String

/-- A call of `deleteResource` that waits for the file of its resource to be unlinked. -/
structure PendingDeletion where
  resourceId : String
  storagePath : String

/-- The first part of `deleteResource`. -/
def deleteResource (resourceId : String) (userRole : UserRole) (userSessionId : String)
    (db : Database) : Database × Except HttpError PendingDeletion :=
  if userRole ≠ .instructor then
    (db, .error ⟨403, "Only the session instructor can delete resources."⟩)
  else
    match ResourceRepository.findById resourceId db with
    | none => (db, .error ⟨404, "Resource not found."⟩)
    | some resource =>
      if userSessionId ≠ resource.sessionId then
        (db, .error ⟨403, "Cannot delete resource belonging to another class session."⟩)
      else
        ((ResourceRepository.delete resourceId db).1, .ok ⟨resourceId, resource.storagePath⟩)

/-- The second part of `deleteResource`; an error of `delete` is caught. -/
def resolveDeletion (within : Confinement) (pending : PendingDeletion) (fault : Option JsError)
    (storage : Storage) : Storage × DeleteResourceResponse :=
  ((LocalDiskStorageProvider.delete within pending.storagePath fault storage).1,
    ⟨true, "Resource and chunk manifest successfully deleted.", pending.resourceId⟩)

/-! ### The server with its deletions -/

/-- The server, with the calls of `deleteResource` that wait. -/
structure CatalogState (ν : Type) where
  server : ServerState ν
  deletions : OrderedMap ℕ PendingDeletion

namespace CatalogState

/-- A server that starts with a database and files. -/
def new (db : Database) (storage : Storage) : CatalogState ν :=
  ⟨ServerState.new db storage, OrderedMap.empty⟩

/-- The database. -/
def db (state : CatalogState ν) : Database := state.server.hub.db

/-- The files. -/
def storage (state : CatalogState ν) : Storage := state.server.storage

end CatalogState

/-- What can happen to the server and its deletions. -/
inductive CatalogEvent (ν : Type)
  | server (event : ServerEvent ν)
  | deleteResource (call : ℕ) (resourceId : String) (userRole : UserRole) (userSessionId : String)
  /-- `unlink` settles for a call of `deleteResource`. -/
  | unlinked (call : ℕ) (fault : Option JsError)
  /-- The process ends, at any moment, and is started again. -/
  | restart

/-- An event with the time at which it happens. -/
abbrev CatalogInput (ν : Type) := ℕ × CatalogEvent ν

section Steps

variable (setting : ServerSetting ν)

/-- A request to delete a resource. A call has a new number. -/
def requestDeletion (call : ℕ) (resourceId : String) (userRole : UserRole) (userSessionId : String)
    (state : CatalogState ν) : CatalogState ν :=
  if state.deletions.has call then state
  else
    match deleteResource resourceId userRole userSessionId state.db with
    | (db, .ok pending) => ⟨state.server.setDb db, state.deletions.set call pending⟩
    | (db, .error _) => { state with server := state.server.setDb db }

/-- A deletion goes on. -/
def continueDeletion (call : ℕ) (fault : Option JsError) (state : CatalogState ν) :
    CatalogState ν :=
  match state.deletions.get? call with
  | some pending =>
    ⟨{ state.server with
        storage := (resolveDeletion setting.config.within pending fault state.storage).1 },
      state.deletions.delete call⟩
  | none => state

/-- One step of the server with its deletions. -/
def catalogStep (state : CatalogState ν) (input : CatalogInput ν) : CatalogState ν :=
  match input.2 with
  | .restart => .new state.db state.storage
  | .server event => { state with server := serverStep setting state.server (input.1, event) }
  | .deleteResource call resourceId userRole userSessionId =>
    if state.server.hub.halted then state
    else requestDeletion call resourceId userRole userSessionId state
  | .unlinked call fault =>
    if state.server.hub.halted then state else continueDeletion setting call fault state

/-- The run of a server that starts with a database and files. -/
def catalogRun (db : Database) (storage : Storage) (inputs : List (CatalogInput ν)) :
    CatalogState ν :=
  run (catalogStep setting) (CatalogState.new db storage) inputs

end Steps

end CampusMesh.Server
