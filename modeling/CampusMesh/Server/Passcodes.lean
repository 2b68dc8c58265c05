import CampusMesh.Server.RequestEffects

/-!
# Passcodes and their hashes

A passcode is checked against the salt and the key that were stored for the passcode of the session.
The check succeeds for exactly those texts that have the same key under that salt
(`verifyPassword_hashPassword`). The hash of a session is stored when its row is inserted and stays
(`CatalogMove.passcodeHashOf`); a call of `joinSession` checks against it, whatever becomes of the
session meanwhile.
-/

set_option autoImplicit false
set_option relaxedAutoImplicit false

namespace CampusMesh.Server

open Library Shared

variable {ν : Type}

/-! ### Hexadecimal texts -/

namespace PasswordService

theorem hexValue_hexDigit {value : ℕ} (hvalue : value < 16) :
    hexValue (hexDigit value) = some value := by
  interval_cases value <;> decide

theorem hexDigit_ne_colon {value : ℕ} (hvalue : value < 16) : hexDigit value ≠ ':' := by
  interval_cases value <;> decide

/-- The hexadecimal text of a byte array is read back. -/
theorem hexBytes_flatMap_hexByte (bytes : Bytes) : hexBytes (bytes.flatMap hexByte) = bytes := by
  induction bytes with
  | nil => rfl
  | cons byte rest ih =>
    have hbyte := byte.toNat_lt
    have hhigh := @hexValue_hexDigit (byte.toNat / 16) (by omega)
    have hlow := @hexValue_hexDigit (byte.toNat % 16) (by omega)
    change hexBytes (hexDigit _ :: hexDigit _ :: rest.flatMap hexByte) = _
    rw [hexBytes, hhigh, hlow, ih]
    exact congrArg (· :: rest) (by rw [Nat.div_add_mod, UInt8.ofNat_toNat])

theorem not_mem_flatMap_hexByte (bytes : Bytes) : ':' ∉ bytes.flatMap hexByte := by
  intro hmem
  obtain ⟨byte, -, hchar⟩ := List.mem_flatMap.mp hmem
  have hbyte := byte.toNat_lt
  rcases List.mem_cons.mp hchar with hhigh | hchar
  · exact hexDigit_ne_colon (by omega) hhigh.symm
  · exact hexDigit_ne_colon (by omega) (List.mem_singleton.mp hchar).symm

/-- A stored hash is split into its salt and its key. -/
theorem splitOn_hash (salt derivedKey : Bytes) :
    (hexText salt ++ ":" ++ hexText derivedKey).toList.splitOn ':' =
      [salt.flatMap hexByte, derivedKey.flatMap hexByte] := by
  have htext : (hexText salt ++ ":" ++ hexText derivedKey).toList =
      salt.flatMap hexByte ++ ':' :: derivedKey.flatMap hexByte := by
    simp [hexText]
  rw [htext, List.splitOn_append_cons_self_of_not_mem (not_mem_flatMap_hexByte salt),
    List.splitOn_eq_singleton (not_mem_flatMap_hexByte derivedKey)]

variable {scrypt : String → String → Except JsError Bytes}

/-- **The check of a passcode.** Against the hash of a passcode, exactly those texts pass that have
the same key under its salt. -/
theorem verifyPassword_hashPassword {password candidate storedHash : String} {randomBytes : Bytes}
    (hhash : hashPassword scrypt password randomBytes = .ok storedHash) :
    verifyPassword scrypt candidate storedHash = true ↔
      scrypt candidate (hexText randomBytes) = scrypt password (hexText randomBytes) := by
  unfold hashPassword at hhash
  obtain ⟨derivedKey, hkey, hstored⟩ := bind_eq_ok_iff.mp hhash
  have hsalt : String.ofList (randomBytes.flatMap hexByte) = hexText randomBytes := rfl
  rw [← Except.ok.inj hstored, verifyPassword, splitOn_hash]
  simp only [hexBytes_flatMap_hexByte, hsalt]
  rw [hkey]
  cases scrypt candidate (hexText randomBytes) with
  | error error => simp
  | ok key => simp [eq_comm]

end PasswordService

/-! ### The hash of a session -/

section Hashes

variable {setting : ServerSetting ν} {now : ℕ}

/-- The hash that is stored for a session. -/
def passcodeHashOf (sessionId : String) (db : Database) : Option String :=
  (SessionRepository.findById sessionId db).map SessionRow.passcodeHash

theorem passcodeHashOf_deactivate (sessionId other : String) (db : Database) :
    passcodeHashOf other (SessionRepository.deactivate sessionId db) = passcodeHashOf other db := by
  rw [passcodeHashOf, SessionRepository.findById_deactivate]
  split_ifs with hsame
  · rw [hsame, Option.map_map]
    rfl
  · rfl

theorem OnlyDeactivates.passcodeHashOf {db next : Database} (hmove : OnlyDeactivates db next)
    (sessionId : String) : passcodeHashOf sessionId next = passcodeHashOf sessionId db := by
  cases hmove with
  | kept => rfl
  | deactivated other => exact passcodeHashOf_deactivate other sessionId db

theorem passcodeHashOf_congr {db next : Database} (hsame : next.sessions = db.sessions)
    (sessionId : String) : passcodeHashOf sessionId next = passcodeHashOf sessionId db := by
  unfold passcodeHashOf SessionRepository.findById
  rw [hsame]

/-- A row that is inserted is found. -/
theorem create_ok {params : CreateSessionParams} {createdAt : String} {db : Database}
    {created : Database × Option SessionRow}
    (hok : SessionRepository.create params createdAt db = .ok created) :
    db.sessions.has params.id = false ∧
      created.1.sessions = db.sessions.set params.id (params.row createdAt) ∧
      created.2 = some (params.row createdAt) := by
  unfold SessionRepository.create at hok
  split_ifs at hok with hid
  rw [← Except.ok.inj hok]
  exact ⟨Bool.eq_false_iff.mpr hid, rfl, OrderedMap.get?_set_self _ _ _⟩

/-- What `createSession` does after its hash: nothing, or it inserts a row with the hash under a new
id. -/
inductive Insertion (setting : ServerSetting ν) (pending : PendingCreation ν) (salt : Bytes)
    (db : Database) : Database → Except JsError CreateSessionResponse → Prop
  | refused (error : JsError) : Insertion setting pending salt db db (.error error)
  | inserted (next : Database) (response : CreateSessionResponse) (row : SessionRow)
      (hfresh : db.sessions.has pending.id = false)
      (hhash : PasswordService.hashPassword setting.outside.scrypt pending.passcode salt =
        .ok row.passcodeHash)
      (hnext : next.sessions = db.sessions.set pending.id row)
      (hresponse : response.session = row.summary) (hid : row.id = pending.id) :
      Insertion setting pending salt db next (.ok response)

theorem insertSession_insertion (setting : ServerSetting ν) (pending : PendingCreation ν)
    (salt : Bytes) (now : ℕ) (createdAt : String) (db : Database) :
    Insertion setting pending salt db
      (SessionService.insertSession setting.host setting.outside pending salt now createdAt db).1
      (SessionService.insertSession setting.host setting.outside pending salt now createdAt
        db).2 := by
  unfold SessionService.insertSession
  cases hparams : SessionService.creationParams setting.host setting.outside pending salt now with
  | error error => exact .refused error
  | ok params =>
    unfold SessionService.creationParams at hparams
    obtain ⟨passcodeHash, hhash, hrest⟩ := bind_eq_ok_iff.mp hparams
    obtain ⟨expiresAt, -, hparams⟩ := bind_eq_ok_iff.mp hrest
    obtain rfl := Except.ok.inj hparams
    simp only
    split
    · next error _ => exact .refused error
    · next hcreated => exact absurd (create_ok hcreated).2.2 (by simp)
    · next next created hcreated =>
      obtain ⟨hfresh, hnext, hrow⟩ := create_ok hcreated
      obtain rfl := Option.some.inj hrow
      exact .inserted next _ _ hfresh hhash hnext rfl rfl

/-- The hash of a session is as before, or it is that of a session that was inserted just now. -/
theorem Insertion.passcodeHashOf {pending : PendingCreation ν} {salt : Bytes} {db next : Database}
    {outcome : Except JsError CreateSessionResponse}
    (hinsertion : Insertion setting pending salt db next outcome) (sessionId : String) :
    passcodeHashOf sessionId next = passcodeHashOf sessionId db ∨
      passcodeHashOf sessionId db = none ∧ ∃ response storedHash, outcome = .ok response ∧
        response.session.id = sessionId ∧
        PasswordService.hashPassword setting.outside.scrypt pending.passcode salt =
          .ok storedHash ∧ passcodeHashOf sessionId next = some storedHash := by
  cases hinsertion with
  | refused => exact Or.inl rfl
  | inserted _ response row hfresh hhash hnext hresponse hid =>
    unfold Server.passcodeHashOf SessionRepository.findById
    rw [hnext, OrderedMap.get?_set]
    split_ifs with hsame
    · subst hsame
      refine Or.inr ⟨?_, response, row.passcodeHash, rfl, ?_, hhash, rfl⟩
      · rw [OrderedMap.has_eq_false_iff.mp hfresh]
        rfl
      · rw [hresponse, SessionRow.summary, hid]
    · exact Or.inl rfl

/-- What an event of the server does to the hashes. -/
theorem handleServerEvent_passcodeHashOf (setting : ServerSetting ν) (now : ℕ)
    (state : ServerState ν) (event : ServerEvent ν) (sessionId : String) :
    passcodeHashOf sessionId (handleServerEvent setting now state event).hub.db =
        passcodeHashOf sessionId state.hub.db ∨
      passcodeHashOf sessionId state.hub.db = none ∧
        ∃ call salt createdAt pending response storedHash,
          event = .passcodeHashed call salt createdAt ∧
          state.creations.get? call = some pending ∧
          (SessionService.insertSession setting.host setting.outside pending salt now createdAt
            state.hub.db).2 = .ok response ∧ response.session.id = sessionId ∧
          PasswordService.hashPassword setting.outside.scrypt pending.passcode salt =
            .ok storedHash ∧
          passcodeHashOf sessionId (handleServerEvent setting now state event).hub.db =
            some storedHash := by
  by_cases hhashed : ∃ call salt createdAt, event = .passcodeHashed call salt createdAt
  · obtain ⟨call, salt, createdAt, rfl⟩ := hhashed
    cases hpending : state.creations.get? call with
    | none =>
      left
      simp only [handleServerEvent, hpending]
    | some pending =>
      simp only [handleServerEvent, hpending]
      refine ((insertSession_insertion setting pending salt now createdAt
        state.hub.db).passcodeHashOf sessionId).imp id ?_
      rintro ⟨hnone, response, storedHash, hresponse, hid, hhash, hstored⟩
      exact ⟨hnone, call, salt, createdAt, pending, response, storedHash, rfl, hpending, hresponse,
        hid, hhash, hstored⟩
  · left
    by_cases hupload : ∃ call uploadEvent, event = .upload call uploadEvent
    · obtain ⟨call, uploadEvent, rfl⟩ := hupload
      simp only [handleServerEvent]
      split
      · exact passcodeHashOf_congr (uploadStep_sessions _ _ _ _) sessionId
      · rfl
    · exact (handleServerEvent_onlyDeactivates
        (fun call salt createdAt heq ↦ hhashed ⟨call, salt, createdAt, heq⟩)
        fun call uploadEvent heq ↦ hupload ⟨call, uploadEvent, heq⟩).passcodeHashOf sessionId

/-- A step stores a hash for a session that is new, or none. -/
theorem CatalogMove.passcodeHashOf {state next : CatalogState ν} {event : CatalogEvent ν}
    (hmove : CatalogMove setting state now event next) (sessionId : String) :
    passcodeHashOf sessionId next.db = passcodeHashOf sessionId state.db ∨
      passcodeHashOf sessionId state.db = none ∧
        ∃ call salt createdAt pending response storedHash,
          event = .server (.passcodeHashed call salt createdAt) ∧
          state.server.creations.get? call = some pending ∧
          (SessionService.insertSession setting.host setting.outside pending salt now createdAt
            state.db).2 = .ok response ∧ response.session.id = sessionId ∧
          PasswordService.hashPassword setting.outside.scrypt pending.passcode salt =
            .ok storedHash ∧ Server.passcodeHashOf sessionId next.db = some storedHash := by
  cases hmove with
  | idle | restarted | deleted | unlinked => exact Or.inl rfl
  | served event =>
    refine (handleServerEvent_passcodeHashOf setting now state.server event sessionId).imp id ?_
    rintro ⟨hnone, call, salt, createdAt, pending, response, storedHash, rfl, hrest⟩
    exact ⟨hnone, call, salt, createdAt, pending, response, storedHash, rfl, hrest⟩

/-- A hash that is stored stays. -/
theorem CatalogMove.keepsHash {state next : CatalogState ν} {event : CatalogEvent ν}
    (hmove : CatalogMove setting state now event next) {sessionId storedHash : String}
    (hstored : Server.passcodeHashOf sessionId state.db = some storedHash) :
    Server.passcodeHashOf sessionId next.db = some storedHash := by
  rcases hmove.passcodeHashOf sessionId with hsame | ⟨hnone, -⟩
  · rw [hsame, hstored]
  · rw [hstored] at hnone
    cases hnone

/-- A call of `joinSession` that begins has the hash of its session. -/
theorem passcodeHashOf_joinSession {outside : SessionHost ν} {request : JoinSessionRequest}
    {db reached : Database} {pending : PendingJoin}
    (hok : SessionService.joinSession outside request now db = (reached, .ok pending)) :
    Server.passcodeHashOf pending.session.id reached = some pending.session.passcodeHash := by
  obtain ⟨rfl, hrow, -⟩ := joinSession_ok hok
  exact congrArg (Option.map SessionRow.passcodeHash) hrow

end Hashes

end CampusMesh.Server
