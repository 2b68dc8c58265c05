import CampusMesh.Server.ChunkStream
import CampusMesh.Server.SignalingServer

/-!
# The session service

`SessionService` with the generators of codes, ids and passcode hashes. `createSession` and
`joinSession` wait for a hash: each is a first part, which leaves what the second part needs, and
the second part, for which the database may have changed. A request is checked against the row of
its session when it is made.

What is outside of the program is given by a `SessionHost`: the letter case of Unicode, `scrypt`,
time values and the signing of tokens.
-/

set_option autoImplicit false
set_option relaxedAutoImplicit false

namespace CampusMesh.Server

open Library Shared

variable {ν : Type}

/-- What the session service uses of code that is not the program's. -/
structure SessionHost (ν : Type) where
  toUpperCase : String → String
  /-- The key that `crypto.scrypt` derives of a password and a salt. -/
  scrypt : String → String → Except JsError Bytes
  /-- `new Date(value).getTime()`, if the value is that of an instant. -/
  timeValue : ν → Option ℤ
  /-- A token that is signed at a time. -/
  signToken : ℕ → AuthTokenPayload → String

/-! ### Codes and passcodes -/

namespace SessionCodeGenerator

/-- `generateCandidate` with the given random bytes. -/
def generateCandidate (bytes : Bytes) : String :=
  let chars := SESSION_CODE_CHARSET.toList
  SESSION_CODE_PREFIX ++ "-" ++ String.ofList ((List.range SESSION_CODE_RANDOM_LENGTH).map fun i ↦
    chars.getD ((bytes.getD i 0).toNat % chars.length) ' ')

example : generateCandidate [0, 31, 32, 255] = "MESH-2239" := by decide

/-- `generateUniqueCode`, with the random bytes of every attempt. -/
def generateUniqueCode (toUpperCase : String → String) (maxAttempts : ℕ) (randomBytes : ℕ → Bytes)
    (db : Database) : Except JsError String :=
  let free := (List.range maxAttempts).find? fun attempt ↦
    (SessionRepository.findActiveByCode toUpperCase (generateCandidate (randomBytes attempt))
      db).isNone
  match free with
  | some attempt => .ok (generateCandidate (randomBytes attempt))
  | none => .error (.error "Failed to generate a unique session code after multiple attempts.")

end SessionCodeGenerator

namespace PasswordService

/-- The value of a hexadecimal digit. -/
def hexValue (char : Char) : Option ℕ :=
  if '0' ≤ char ∧ char ≤ '9' then some (char.toNat - 48)
  else if 'a' ≤ char ∧ char ≤ 'f' then some (char.toNat - 87)
  else if 'A' ≤ char ∧ char ≤ 'F' then some (char.toNat - 55)
  else none

/-- `Buffer.from(text, 'hex')`: the bytes up to the first pair that is none. -/
def hexBytes : List Char → Bytes
  | high :: low :: rest =>
    match hexValue high, hexValue low with
    | some first, some second => UInt8.ofNat (16 * first + second) :: hexBytes rest
    | _, _ => []
  | _ => []

/-- `hashPassword` with the given random bytes. -/
def hashPassword (scrypt : String → String → Except JsError Bytes) (password : String)
    (randomBytes : Bytes) : Except JsError String := do
  let salt := hexText randomBytes
  let derivedKey ← scrypt password salt
  return salt ++ ":" ++ hexText derivedKey

/-- `verifyPassword`. -/
def verifyPassword (scrypt : String → String → Except JsError Bytes)
    (password storedHash : String) :
    Bool :=
  match storedHash.toList.splitOn ':' with
  | [salt, keyHex] =>
    match scrypt password (String.ofList salt) with
    | .ok derivedKey => decide (hexBytes keyHex = derivedKey)
    | .error _ => false
  | _ => false

end PasswordService

/-- `TokenService.generatePeerId` with the given random bytes. -/
def generatePeerId (randomBytes : Bytes) : String := "peer_" ++ hexText randomBytes

/-! ### Creating a session -/

/-- `CreateSessionRequest`, as its body is sent. -/
structure CreateSessionRequest (ν : Type) where
  className : Option String
  instructorName : Option String
  passcode : Option String
  durationHours : Option (Json ν)

/-- What is told of a session. -/
structure SessionSummary where
  id : String
  sessionCode : String
  className : String
  instructorName : String
  expiresAt : ℤ
  deriving DecidableEq

/-- The summary of a row. -/
def SessionRow.summary (row : SessionRow) : SessionSummary where
  id := row.id
  sessionCode := row.sessionCode
  className := row.className
  instructorName := row.instructorName
  expiresAt := row.expiresAt

/-- `CreateSessionResponse`. -/
structure CreateSessionResponse where
  session : SessionSummary
  instructorToken : String

/-- A call of `createSession` that waits for the hash of its passcode. -/
structure PendingCreation (ν : Type) where
  id : String
  sessionCode : String
  className : String
  instructorName : String
  passcode : String
  durationHours : Json ν

/-- What is thrown for a text of a wrong length. -/
def lengthError (subject text : String) (least most : ℕ) : Option HttpError :=
  let length := (text.toList.flatMap codeUnits).length
  if text = "" ∨ length < least ∨ most < length then
    some ⟨400, subject ++ " must be between " ++ toString least ++ " and " ++ toString most ++
      " characters."⟩
  else none

/-- A text that may be missing, trimmed. -/
def trimmed (text : Option String) : String := (text.map trim).getD ""

namespace SessionService

section Service

variable (host : Host ν) (outside : SessionHost ν)

/-- The first part of `createSession`. -/
def createSession (request : CreateSessionRequest ν) (randomUUID : String)
    (randomBytes : ℕ → Bytes) (db : Database) : Except ServiceError (PendingCreation ν) :=
  let className := trimmed request.className
  let instructorName := trimmed request.instructorName
  let passcode := trimmed request.passcode
  let durationHours := host.orElse request.durationHours (host.natural DEFAULT_SESSION_TTL_HOURS)
  match lengthError "Class name" className MIN_CLASS_NAME_LENGTH MAX_CLASS_NAME_LENGTH with
  | some error => .error (.http error)
  | none =>
    match lengthError "Instructor name" instructorName 2 50 with
    | some error => .error (.http error)
    | none =>
      match lengthError "Passcode" passcode MIN_PASSCODE_LENGTH MAX_PASSCODE_LENGTH with
      | some error => .error (.http error)
      | none =>
        match SessionCodeGenerator.generateUniqueCode outside.toUpperCase 10 randomBytes db with
        | .error error => .error (.js error)
        | .ok sessionCode =>
          .ok ⟨"sess_" ++ randomUUID, sessionCode, className, instructorName, passcode,
            durationHours⟩

/-- `new Date(Date.now() + durationHours * 3600 * 1000).toISOString()`, as the instant. -/
def expiresAtOf (durationHours : Json ν) (now : ℕ) : Except JsError ℤ :=
  match host.toNumber durationHours with
  | none =>
    if durationHours.convertible = false then
      .error ⟨"TypeError", "Cannot convert object to primitive value"⟩
    else .error (.rangeError "Maximum call stack size exceeded")
  | some hours =>
    match outside.timeValue (host.add (host.ofNat now)
      (host.times (host.times hours (host.ofNat 3600)) (host.ofNat 1000))) with
    | some instant => .ok instant
    | none => .error (.rangeError "Invalid time value")

/-- The parameters of the row of a session, once its passcode is hashed. -/
def creationParams (pending : PendingCreation ν) (salt : Bytes) (now : ℕ) :
    Except JsError CreateSessionParams := do
  let passcodeHash ← PasswordService.hashPassword outside.scrypt pending.passcode salt
  let expiresAt ← expiresAtOf host outside pending.durationHours now
  return ⟨pending.id, pending.sessionCode, pending.className, pending.instructorName, passcodeHash,
    expiresAt⟩

/-- The second part of `createSession`, with the random bytes of the salt and the time that the
database puts into the row. -/
def insertSession (pending : PendingCreation ν) (salt : Bytes) (now : ℕ) (createdAt : String)
    (db : Database) : Database × Except JsError CreateSessionResponse :=
  match creationParams host outside pending salt now with
  | .error error => (db, .error error)
  | .ok params =>
    match SessionRepository.create params createdAt db with
    | .error error => (db, .error error)
    | .ok (db, none) =>
      (db, .error ⟨"TypeError", "Cannot read properties of null (reading 'id')"⟩)
    | .ok (db, some created) =>
      (db, .ok ⟨created.summary, outside.signToken now ⟨created.id, .instructor, none,
        created.instructorName, created.sessionCode⟩⟩)

end Service

end SessionService

/-! ### Joining a session -/

/-- `JoinSessionRequest`. -/
structure JoinSessionRequest where
  sessionCode : Option String
  passcode : Option String
  displayName : Option String

/-- `JoinSessionResponse`. -/
structure JoinSessionResponse where
  session : SessionSummary
  peerId : String
  peerToken : String
  iceServers : List RTCIceServer

/-- A call of `joinSession` that waits for the check of its passcode. -/
structure PendingJoin where
  session : SessionRow
  passcode : String
  displayName : String

/-- `SessionInfoResponse`. -/
structure SessionInfoResponse where
  id : String
  sessionCode : String
  className : String
  instructorName : String
  createdAt : String
  expiresAt : ℤ
  isActive : Bool
  activePeersCount : ℕ

namespace SessionService

variable (outside : SessionHost ν)

/-- `isSessionExpired`. -/
def isSessionExpired (session : SessionRow) (now : ℕ) : Bool := decide (session.expiresAt < now)

theorem isSessionExpired_iff {session : SessionRow} {now : ℕ} :
    isSessionExpired session now = true ↔ session.expiresAt < now := decide_eq_true_iff

/-- The code that a request to join names. -/
def joinCode (request : JoinSessionRequest) : String :=
  ((request.sessionCode.map trim).map outside.toUpperCase).getD ""

/-- The first part of `joinSession`. -/
def joinSession (request : JoinSessionRequest) (now : ℕ) (db : Database) :
    Database × Except HttpError PendingJoin :=
  let sessionCode := joinCode outside request
  let passcode := trimmed request.passcode
  let displayName :=
    if trimmed request.displayName = "" then "Anonymous Student" else trimmed request.displayName
  if sessionCode = "" then (db, .error ⟨400, "Session code is required."⟩)
  else if passcode = "" then (db, .error ⟨400, "Passcode is required."⟩)
  else
    match SessionRepository.findByCode outside.toUpperCase sessionCode db with
    | none => (db, .error ⟨404, "Session not found or has been ended."⟩)
    | some session =>
      if session.isActive = false then (db, .error ⟨404, "Session not found or has been ended."⟩)
      else if isSessionExpired session now then
        (SessionRepository.deactivate session.id db, .error ⟨410, "Class session has expired."⟩)
      else (db, .ok ⟨session, passcode, displayName⟩)

/-- The second part of `joinSession`. -/
def resolveJoin (pending : PendingJoin) (randomBytes : Bytes) (now : ℕ) :
    Except HttpError JoinSessionResponse :=
  if PasswordService.verifyPassword outside.scrypt pending.passcode
      pending.session.passcodeHash = false then
    .error ⟨401, "Incorrect session passcode."⟩
  else
    let peerId := generatePeerId randomBytes
    .ok ⟨pending.session.summary, peerId, outside.signToken now ⟨pending.session.id, .student,
      some peerId, pending.displayName, pending.session.sessionCode⟩, DEFAULT_ICE_SERVERS⟩

/-- `getSessionInfo`. -/
def getSessionInfo (sessionId : String) (now : ℕ) (rooms : Rooms) (db : Database) :
    Database × Except HttpError SessionInfoResponse :=
  match SessionRepository.findById sessionId db with
  | none => (db, .error ⟨404, "Session not found."⟩)
  | some session =>
    if isSessionExpired session now then
      (SessionRepository.deactivate session.id db, .error ⟨410, "Session has expired."⟩)
    else
      (db, .ok ⟨session.id, session.sessionCode, session.className, session.instructorName,
        session.createdAt, session.expiresAt, session.isActive,
        RoomManager.getRoomSize session.id rooms⟩)

end SessionService

end CampusMesh.Server
