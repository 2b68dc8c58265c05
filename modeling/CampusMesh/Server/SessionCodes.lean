import CampusMesh.Server.InactiveSessions
import Mathlib.Data.Bool.AllAny
import Mathlib.Data.List.GetD

/-!
# Whether a generated session code can be inserted

`generateUniqueCode` takes the first candidate that no active session has, and `createSession` then
waits for a hash before it inserts the row. The column of the codes is unique among all rows, so
the insertion fails when the code is that of a session that has ended, and when another call has
inserted the same code meanwhile.

`CodesFree` says that every waiting call could be inserted. `CreationTransition` is what an event
does to the codes and to the waiting calls; from it follows what each step needs to keep
`CodesFree` (`FreshCode`), and `codesFree_iff_along` that nothing less will do.
-/

set_option autoImplicit false
set_option relaxedAutoImplicit false

namespace CampusMesh.Server

open Library Shared

variable {ν : Type}

/-! ### Candidates -/

section Candidates

open SessionCodeGenerator

/-- Capital letters, digits and hyphens are the same in upper case. -/
def KeepsCapitals (toUpperCase : String → String) : Prop :=
  ∀ text : String, (∀ char ∈ text.toList, char.isUpper ∨ char.isDigit ∨ char = '-') →
    toUpperCase text = text

/-- The characters of a candidate. -/
theorem mem_toList_generateCandidate {bytes : Bytes} {char : Char}
    (hmem : char ∈ (generateCandidate bytes).toList) :
    char ∈ "MESH-".toList ∨ char ∈ SESSION_CODE_CHARSET.toList := by
  rw [generateCandidate, String.toList_append, String.toList_ofList, List.mem_append] at hmem
  refine hmem.imp id fun hrandom ↦ ?_
  obtain ⟨i, _, rfl⟩ := List.mem_map.mp hrandom
  have hindex : (bytes.getD i 0).toNat % SESSION_CODE_CHARSET.toList.length <
      SESSION_CODE_CHARSET.toList.length := Nat.mod_lt _ (by decide)
  rw [List.getD_eq_getElem _ _ hindex]
  exact List.getElem_mem hindex

/-- A candidate is what the queries compare with. -/
theorem trim_toUpperCase_generateCandidate {toUpperCase : String → String}
    (hupper : KeepsCapitals toUpperCase) (bytes : Bytes) :
    trim (toUpperCase (generateCandidate bytes)) = generateCandidate bytes := by
  have hcapital : ∀ char ∈ "MESH-".toList ++ SESSION_CODE_CHARSET.toList,
      (char.isUpper ∨ char.isDigit ∨ char = '-') ∧ isTrimmed char = false :=
    List.all_iff_forall_prop.mp (by decide)
  have hchars : ∀ char ∈ (generateCandidate bytes).toList,
      (char.isUpper ∨ char.isDigit ∨ char = '-') ∧ isTrimmed char = false := fun char hmem ↦
    hcapital char (List.mem_append.mpr (mem_toList_generateCandidate hmem))
  rw [hupper _ fun char hmem ↦ (hchars char hmem).1]
  exact trim_eq_self fun char hmem ↦ (hchars char hmem).2

end Candidates

/-! ### The codes in the table -/

/-- Some session has the code, active or not. -/
def CodeTaken (db : Database) (code : String) : Prop :=
  ∃ id row, db.sessions.get? id = some row ∧ row.sessionCode = code

/-- The codes of the sessions are the same. -/
def SameCodes (db next : Database) : Prop := ∀ code, CodeTaken next code ↔ CodeTaken db code

theorem SameCodes.refl (db : Database) : SameCodes db db := fun _ ↦ Iff.rfl

theorem SameCodes.of_sessions {db next : Database} (hsame : next.sessions = db.sessions) :
    SameCodes db next := fun _ ↦ by rw [CodeTaken, hsame, CodeTaken]

theorem deactivate_sameCodes (id : String) (db : Database) :
    SameCodes db (SessionRepository.deactivate id db) := by
  have hfind : ∀ other, (SessionRepository.deactivate id db).sessions.get? other =
      if other = id then (db.sessions.get? id).map fun row ↦ { row with isActive := false }
      else db.sessions.get? other := fun other ↦ SessionRepository.findById_deactivate id other db
  intro code
  constructor
  · rintro ⟨other, row, hrow, rfl⟩
    rw [hfind] at hrow
    split_ifs at hrow with hsame
    · obtain ⟨before, hbefore, rfl⟩ := Option.map_eq_some_iff.mp hrow
      exact ⟨id, before, hbefore, rfl⟩
    · exact ⟨other, row, hrow, rfl⟩
  · rintro ⟨other, row, hrow, rfl⟩
    by_cases hsame : other = id
    · refine ⟨other, { row with isActive := false }, ?_, rfl⟩
      rw [hfind, if_pos hsame, ← hsame, hrow]
      rfl
    · refine ⟨other, row, ?_, rfl⟩
      rw [hfind, if_neg hsame, hrow]

theorem OnlyDeactivates.sameCodes {db next : Database} (hmove : OnlyDeactivates db next) :
    SameCodes db next := by
  cases hmove with
  | kept => exact .refl db
  | deactivated sessionId => exact deactivate_sameCodes sessionId db

/-- What `INSERT INTO sessions` throws for a code that is there. -/
def codeTakenError : JsError := .error "UNIQUE constraint failed: sessions.session_code"

theorem codeTaken_iff_mem_values {db : Database} {code : String} :
    CodeTaken db code ↔ ∃ row ∈ db.sessions.values, row.sessionCode = code := by
  constructor
  · rintro ⟨id, row, hrow, hcode⟩
    exact ⟨row, OrderedMap.mem_values_iff.mpr ⟨id, hrow⟩, hcode⟩
  · rintro ⟨row, hmem, hcode⟩
    obtain ⟨id, hrow⟩ := OrderedMap.mem_values_iff.mp hmem
    exact ⟨id, row, hrow, hcode⟩

section Create

variable {params : CreateSessionParams} {createdAt : String} {db : Database}

/-- The insertion fails on the codes if the id is new and the code is not. -/
theorem create_eq_codeTakenError_iff :
    SessionRepository.create params createdAt db = .error codeTakenError ↔
      db.sessions.has params.id = false ∧ CodeTaken db params.sessionCode := by
  rw [codeTaken_iff_mem_values, SessionRepository.create]
  split_ifs with hid hcode
  · simp [hid, codeTakenError, JsError.error]
  · exact iff_of_true rfl ⟨Bool.eq_false_iff.mpr hid, hcode⟩
  · exact iff_of_false (by simp) fun hboth ↦ hcode hboth.2

/-- A session with a new id and a new code is inserted. -/
theorem exists_create_eq_ok (hid : db.sessions.has params.id = false)
    (hcode : ¬ CodeTaken db params.sessionCode) :
    ∃ created, SessionRepository.create params createdAt db = .ok created := by
  rw [codeTaken_iff_mem_values] at hcode
  rw [SessionRepository.create, if_neg (by simp [hid]), dif_neg hcode]
  exact ⟨_, rfl⟩

/-- The insertion adds the code. -/
theorem codeTaken_create {created : Database × Option SessionRow}
    (hok : SessionRepository.create params createdAt db = .ok created) (code : String) :
    CodeTaken created.1 code ↔ CodeTaken db code ∨ code = params.sessionCode := by
  unfold SessionRepository.create at hok
  split_ifs at hok with hid hcode
  have hnext : created.1.sessions = db.sessions.set params.id (params.row createdAt) := by
    rw [← Except.ok.inj hok]
  rw [CodeTaken, hnext]
  constructor
  · rintro ⟨id, row, hrow, rfl⟩
    rw [OrderedMap.get?_set] at hrow
    split_ifs at hrow with hsame
    · rw [← Option.some.inj hrow]
      exact Or.inr rfl
    · exact Or.inl ⟨id, row, hrow, rfl⟩
  · rintro (⟨id, row, hrow, rfl⟩ | rfl)
    · have hother : id ≠ params.id := by
        rintro rfl
        exact hid (OrderedMap.has_iff_exists.mpr ⟨row, hrow⟩)
      exact ⟨id, row, by rw [OrderedMap.get?_set_of_ne _ hother, hrow], rfl⟩
    · exact ⟨params.id, params.row createdAt, OrderedMap.get?_set_self _ _ _, rfl⟩

end Create

/-! ### Calls of createSession -/

section Calls

variable (setting : ServerSetting ν)

/-- The lengths of the texts of a request are right. -/
def CreateSessionRequest.Valid (request : CreateSessionRequest ν) : Prop :=
  lengthError "Class name" (trimmed request.className) MIN_CLASS_NAME_LENGTH
      MAX_CLASS_NAME_LENGTH = none ∧
    lengthError "Instructor name" (trimmed request.instructorName) 2 50 = none ∧
    lengthError "Passcode" (trimmed request.passcode) MIN_PASSCODE_LENGTH MAX_PASSCODE_LENGTH = none

/-- An attempt whose candidate no active session has, the first of its kind. -/
def FirstFree (toUpperCase : String → String) (randomBytes : ℕ → Bytes) (db : Database)
    (attempt : ℕ) : Prop :=
  (SessionRepository.findActiveByCode toUpperCase
      (SessionCodeGenerator.generateCandidate (randomBytes attempt)) db).isNone = true ∧
    ∀ earlier < attempt, (SessionRepository.findActiveByCode toUpperCase
      (SessionCodeGenerator.generateCandidate (randomBytes earlier)) db).isNone = false

/-- There is one first of its kind. -/
theorem FirstFree.unique {toUpperCase : String → String} {randomBytes : ℕ → Bytes} {db : Database}
    {attempt other : ℕ} (hfirst : FirstFree toUpperCase randomBytes db attempt)
    (hother : FirstFree toUpperCase randomBytes db other) : attempt = other := by
  rcases lt_trichotomy attempt other with hlt | heq | hlt
  · exact absurd ((hother.2 attempt hlt).symm.trans hfirst.1) Bool.false_ne_true
  · exact heq
  · exact absurd ((hfirst.2 other hlt).symm.trans hother.1) Bool.false_ne_true

/-- The code is the candidate of the first attempt that finds it free. -/
theorem generateUniqueCode_eq_ok_iff {toUpperCase : String → String} {maxAttempts : ℕ}
    {randomBytes : ℕ → Bytes} {db : Database} {code : String} :
    SessionCodeGenerator.generateUniqueCode toUpperCase maxAttempts randomBytes db = .ok code ↔
      ∃ attempt < maxAttempts, FirstFree toUpperCase randomBytes db attempt ∧
        code = SessionCodeGenerator.generateCandidate (randomBytes attempt) := by
  have hfirst : ∀ attempt, (List.range maxAttempts).find? (fun attempt ↦
      (SessionRepository.findActiveByCode toUpperCase
        (SessionCodeGenerator.generateCandidate (randomBytes attempt)) db).isNone) = some attempt ↔
      attempt < maxAttempts ∧ FirstFree toUpperCase randomBytes db attempt := by
    intro attempt
    rw [List.find?_range_eq_some, FirstFree, List.mem_range]
    simp only [Bool.not_eq_true', and_left_comm]
  unfold SessionCodeGenerator.generateUniqueCode
  simp only
  split
  · next attempt hfound =>
    obtain ⟨hattempt, hfree⟩ := (hfirst attempt).mp hfound
    rw [Except.ok.injEq]
    constructor
    · rintro rfl
      exact ⟨attempt, hattempt, hfree, rfl⟩
    · rintro ⟨other, hother, hotherFree, rfl⟩
      have hsame := (hfirst other).mpr ⟨hother, hotherFree⟩
      rw [hfound] at hsame
      rw [Option.some.inj hsame]
  · next hnone =>
    refine iff_of_false nofun ?_
    rintro ⟨attempt, hattempt, hfree, -⟩
    have hfound := (hfirst attempt).mpr ⟨hattempt, hfree⟩
    rw [hnone] at hfound
    cases hfound

/-- A call waits for the hash exactly if its request is valid and it has a code. -/
theorem createSession_eq_ok_iff (host : Host ν) (outside : SessionHost ν)
    {request : CreateSessionRequest ν} (randomUUID : String) {randomBytes : ℕ → Bytes}
    {db : Database} {pending : PendingCreation ν} :
    SessionService.createSession host outside request randomUUID randomBytes db = .ok pending ↔
      request.Valid ∧ ∃ code, SessionCodeGenerator.generateUniqueCode outside.toUpperCase 10
        randomBytes db = .ok code ∧
        pending = ⟨"sess_" ++ randomUUID, code, trimmed request.className,
          trimmed request.instructorName, trimmed request.passcode,
          host.orElse request.durationHours (host.natural DEFAULT_SESSION_TTL_HOURS)⟩ := by
  unfold SessionService.createSession CreateSessionRequest.Valid
  simp only
  split
  · next hname => simp [hname]
  · next hname =>
    split
    · next hinstructor => simp [hinstructor]
    · next hinstructor =>
      split
      · next hpasscode => simp [hpasscode]
      · next hpasscode =>
        split
        · next hcode => simp [hcode]
        · next hcode => simp [hname, hinstructor, hpasscode, hcode, eq_comm]

/-- The events of calls of `createSession`. -/
def ServerEvent.createsSession : ServerEvent ν → Bool
  | .createSession .. | .passcodeHashed .. => true
  | _ => false

/-- What an event does to the codes and to the waiting calls of `createSession`. -/
inductive CreationTransition (now : ℕ) (state : ServerState ν) :
    ServerEvent ν → ServerState ν → Prop
  | kept (event : ServerEvent ν) (next : ServerState ν) (hother : event.createsSession = false)
      (hcodes : SameCodes state.hub.db next.hub.db)
        (hcreations : next.creations = state.creations) :
      CreationTransition now state event next
  | refused (call : ℕ) (request : CreateSessionRequest ν) (randomUUID : String)
      (randomBytes : ℕ → Bytes)
      (hrefused : state.creations.has call = true ∨
        ∃ error, SessionService.createSession setting.host setting.outside request randomUUID
          randomBytes state.hub.db = .error error) :
      CreationTransition now state (.createSession call request randomUUID randomBytes) state
  | begun (call : ℕ) (request : CreateSessionRequest ν) (randomUUID : String)
      (randomBytes : ℕ → Bytes) (pending : PendingCreation ν)
      (hnew : state.creations.has call = false)
      (hbegun : SessionService.createSession setting.host setting.outside request randomUUID
        randomBytes state.hub.db = .ok pending) :
      CreationTransition now state (.createSession call request randomUUID randomBytes)
        { state with creations := state.creations.set call pending }
  | unknown (call : ℕ) (salt : Bytes) (createdAt : String)
      (hunknown : state.creations.get? call = none) :
      CreationTransition now state (.passcodeHashed call salt createdAt) state
  | resumed (call : ℕ) (salt : Bytes) (createdAt : String) (pending : PendingCreation ν)
      (hwaiting : state.creations.get? call = some pending) :
      CreationTransition now state (.passcodeHashed call salt createdAt)
        { state.setDb (SessionService.insertSession setting.host setting.outside pending salt now
            createdAt state.hub.db).1 with
          creations := state.creations.delete call }

theorem handleServerEvent_creationTransition (now : ℕ) (state : ServerState ν)
    (event : ServerEvent ν) :
    CreationTransition setting now state event (handleServerEvent setting now state event) := by
  cases event with
  | createSession call request randomUUID randomBytes =>
    simp only [handleServerEvent]
    split_ifs with hknown
    · exact .refused call request _ _ (Or.inl hknown)
    · split
      · next hbegun => exact .begun call request _ _ _ (Bool.eq_false_iff.mpr hknown) hbegun
      · next hrefused => exact .refused call request _ _ (Or.inr ⟨_, hrefused⟩)
  | passcodeHashed call salt createdAt =>
    simp only [handleServerEvent]
    split
    · next hwaiting => exact .resumed call salt createdAt _ hwaiting
    · next hunknown => exact .unknown call salt createdAt hunknown
  | upload call uploadEvent =>
    simp only [handleServerEvent]
    split
    · exact .kept _ _ rfl (.of_sessions (uploadStep_sessions _ _ _ _)) rfl
    · exact .kept _ _ rfl (.refl _) rfl
  | joinSession =>
    refine .kept _ _ rfl (handleServerEvent_onlyDeactivates (by simp) (by simp)).sameCodes ?_
    simp only [handleServerEvent]
    split_ifs
    · rfl
    · split <;> rfl
  | processUpload =>
    refine .kept _ _ rfl (handleServerEvent_onlyDeactivates (by simp) (by simp)).sameCodes ?_
    simp only [handleServerEvent]
    split_ifs <;> rfl
  | _ => exact .kept _ _ rfl (handleServerEvent_onlyDeactivates (by simp) (by simp)).sameCodes rfl

/-- A call that goes on inserts its session if the code is free: there is a hash and an expiry, and
the id is new. -/
def Inserts (pending : PendingCreation ν) (salt : Bytes) (now : ℕ) (db : Database) : Prop :=
  (SessionService.creationParams setting.host setting.outside pending salt now).isOk = true ∧
    db.sessions.has pending.id = false

theorem creationParams_ok {host : Host ν} {outside : SessionHost ν} {pending : PendingCreation ν}
    {salt : Bytes} {now : ℕ} {params : CreateSessionParams}
    (hok : SessionService.creationParams host outside pending salt now = .ok params) :
    params.id = pending.id ∧ params.sessionCode = pending.sessionCode := by
  unfold SessionService.creationParams at hok
  obtain ⟨passcodeHash, _, hok⟩ := bind_eq_ok_iff.mp hok
  obtain ⟨expiresAt, _, hok⟩ := bind_eq_ok_iff.mp hok
  rw [← Except.ok.inj hok]
  exact ⟨rfl, rfl⟩

/-- A call that goes on with a free code adds it to the codes if it inserts its session. -/
theorem codeTaken_insertSession {pending : PendingCreation ν} {db : Database} (salt : Bytes)
    (now : ℕ) (createdAt : String) (hfree : ¬ CodeTaken db pending.sessionCode) (code : String) :
    CodeTaken (SessionService.insertSession setting.host setting.outside pending salt now createdAt
        db).1 code ↔
      CodeTaken db code ∨ Inserts setting pending salt now db ∧ code = pending.sessionCode := by
  unfold SessionService.insertSession Inserts
  cases hparams : SessionService.creationParams setting.host setting.outside pending salt now with
  | error error => simp [Except.isOk, Except.toBool]
  | ok params =>
    obtain ⟨hid, hcode⟩ := creationParams_ok hparams
    rw [← hcode] at hfree ⊢
    rw [← hid]
    simp only [Except.isOk, Except.toBool, true_and]
    cases hcreate : SessionRepository.create params createdAt db with
    | error error =>
      have hknown : db.sessions.has params.id ≠ false := by
        intro hnew
        obtain ⟨created, hok⟩ := @exists_create_eq_ok params createdAt db hnew hfree
        rw [hcreate] at hok
        cases hok
      simp [hknown]
    | ok created =>
      have hnew : db.sessions.has params.id = false := by
        unfold SessionRepository.create at hcreate
        split_ifs at hcreate with hhas
        exact Bool.eq_false_iff.mpr hhas
      have hcodes := codeTaken_create hcreate code
      simp only [hnew, true_and]
      rcases created with ⟨next, _ | row⟩
      · exact hcodes
      · exact hcodes

end Calls

/-! ### Steps -/

section Steps

variable (setting : ServerSetting ν)

/-- No waiting call of `createSession` has the code of a session. -/
def CodesFree (state : ServerState ν) : Prop :=
  ∀ call pending, state.creations.get? call = some pending →
    ¬ CodeTaken state.hub.db pending.sessionCode

/-- A call takes no code of a session that has ended, and inserts no code that another call waits
with. -/
def FreshCode (state : ServerState ν) (input : ServerInput ν) : Prop :=
  state.hub.halted = false →
    match input.2 with
    | .createSession call request _ randomBytes =>
      state.creations.has call = false → request.Valid → ∀ attempt < 10,
        FirstFree setting.outside.toUpperCase randomBytes state.hub.db attempt →
          ∀ row ∈ state.hub.db.sessions.values, row.isActive = false →
            row.sessionCode ≠ SessionCodeGenerator.generateCandidate (randomBytes attempt)
    | .passcodeHashed call salt _ =>
      ∀ pending, state.creations.get? call = some pending →
        Inserts setting pending salt input.1 state.hub.db →
          ∀ other waiting, other ≠ call → state.creations.get? other = some waiting →
            waiting.sessionCode ≠ pending.sessionCode
    | _ => True

variable {setting}

/-- A candidate that no active session has is free if no session that has ended has it. -/
theorem codeTaken_candidate_iff (hupper : KeepsCapitals setting.outside.toUpperCase)
    {randomBytes : ℕ → Bytes} {db : Database} {attempt : ℕ}
    (hfirst : FirstFree setting.outside.toUpperCase randomBytes db attempt) :
    CodeTaken db (SessionCodeGenerator.generateCandidate (randomBytes attempt)) ↔
      ∃ row ∈ db.sessions.values, row.isActive = false ∧
        row.sessionCode = SessionCodeGenerator.generateCandidate (randomBytes attempt) := by
  have hnone := Option.isNone_iff_eq_none.mp hfirst.1
  rw [SessionRepository.findActiveByCode, trim_toUpperCase_generateCandidate hupper,
    List.find?_eq_none] at hnone
  rw [codeTaken_iff_mem_values]
  refine exists_congr fun row ↦ and_congr_right fun hmem ↦ ⟨fun hcode ↦ ⟨?_, hcode⟩, And.right⟩
  have hrow := hnone row hmem
  rw [hcode] at hrow
  simpa using hrow

/-- A call that starts to wait keeps the codes free exactly if its own code is free. -/
theorem CodesFree.set_iff {state : ServerState ν} (hfree : CodesFree state) (call : ℕ)
    (pending : PendingCreation ν) :
    CodesFree { state with creations := state.creations.set call pending } ↔
      ¬ CodeTaken state.hub.db pending.sessionCode := by
  refine ⟨fun hnext ↦ hnext call pending (OrderedMap.get?_set_self _ _ _),
    fun hcode other waiting hwaiting ↦ ?_⟩
  rw [OrderedMap.get?_set] at hwaiting
  split_ifs at hwaiting
  · rw [← Option.some.inj hwaiting]
    exact hcode
  · exact hfree other waiting hwaiting

/-- A call that goes on keeps the codes free exactly if it inserts no code that another waits
with. -/
theorem CodesFree.insertSession_iff {state : ServerState ν} (hfree : CodesFree state) {call : ℕ}
    {pending : PendingCreation ν} (hwaiting : state.creations.get? call = some pending)
    (salt : Bytes) (now : ℕ) (createdAt : String) :
    CodesFree { state.setDb (SessionService.insertSession setting.host setting.outside pending salt
          now createdAt state.hub.db).1 with
        creations := state.creations.delete call } ↔
      (Inserts setting pending salt now state.hub.db →
        ∀ other waiting, other ≠ call → state.creations.get? other = some waiting →
          waiting.sessionCode ≠ pending.sessionCode) := by
  have hcodes := codeTaken_insertSession setting salt now createdAt (hfree call pending hwaiting)
  constructor
  · intro hnext hinserts other waiting hne hother heq
    exact hnext other waiting ((OrderedMap.get?_delete_of_ne _ hne).trans hother)
      ((hcodes _).mpr (Or.inr ⟨hinserts, heq⟩))
  · intro hfresh other waiting hother htaken
    rw [OrderedMap.get?_delete] at hother
    split_ifs at hother with hsame
    rcases (hcodes _).mp htaken with hbefore | ⟨hinserts, heq⟩
    · exact hfree other waiting hother hbefore
    · exact hfresh hinserts other waiting hsame hother heq

/-- From a state in which all waiting calls could be inserted, exactly the steps that are fresh lead
to such a state. -/
theorem codesFree_serverStep_iff (hupper : KeepsCapitals setting.outside.toUpperCase)
    {state : ServerState ν} (hfree : CodesFree state) (input : ServerInput ν) :
    CodesFree (serverStep setting state input) ↔ FreshCode setting state input := by
  obtain ⟨now, event⟩ := input
  unfold serverStep FreshCode
  by_cases hhalted : state.hub.halted = true
  · rw [if_pos hhalted]
    exact iff_of_true hfree fun hruns ↦ absurd (hhalted.symm.trans hruns) (by simp)
  rw [if_neg hhalted]
  simp only [Bool.eq_false_iff.mpr hhalted, forall_const]
  have htransition := handleServerEvent_creationTransition setting now state event
  generalize handleServerEvent setting now state event = next at htransition ⊢
  cases htransition with
  | kept _ _ hother hcodes hcreations =>
    refine iff_of_true (fun call pending hwaiting htaken ↦ ?_) ?_
    · rw [hcreations] at hwaiting
      exact hfree call pending hwaiting ((hcodes _).mp htaken)
    · cases event <;> trivial
  | refused call request randomUUID randomBytes hrefused =>
    refine iff_of_true hfree fun hnew hvalid attempt hattempt hfirst ↦ ?_
    rcases hrefused with hknown | ⟨error, herror⟩
    · exact absurd (hnew.symm.trans hknown) Bool.false_ne_true
    · have hbegun := (createSession_eq_ok_iff setting.host setting.outside randomUUID).mpr ⟨hvalid,
        _, generateUniqueCode_eq_ok_iff.mpr ⟨attempt, hattempt, hfirst, rfl⟩, rfl⟩
      rw [herror] at hbegun
      cases hbegun
  | begun call request randomUUID randomBytes pending hnew hbegun =>
    obtain ⟨hvalid, code, hcode, rfl⟩ :=
      (createSession_eq_ok_iff setting.host setting.outside randomUUID).mp hbegun
    obtain ⟨attempt, hattempt, hfirst, rfl⟩ := generateUniqueCode_eq_ok_iff.mp hcode
    refine (hfree.set_iff call _).trans ((codeTaken_candidate_iff hupper hfirst).not.trans ?_)
    constructor
    · intro huntaken _ _ other hother hotherFirst row hrow hended heq
      obtain rfl := hfirst.unique hotherFirst
      exact huntaken ⟨row, hrow, hended, heq⟩
    · rintro hfresh ⟨row, hrow, hended, heq⟩
      exact hfresh hnew hvalid attempt hattempt hfirst row hrow hended heq
  | unknown call salt createdAt hunknown =>
    refine iff_of_true hfree fun pending hwaiting ↦ ?_
    rw [hunknown] at hwaiting
    cases hwaiting
  | resumed call salt createdAt pending hwaiting =>
    refine (hfree.insertSession_iff hwaiting salt now createdAt).trans ⟨?_, ?_⟩
    · intro hfresh resumed hresumed
      obtain rfl := Option.some.inj (hwaiting.symm.trans hresumed)
      exact hfresh
    · intro hfresh
      exact hfresh pending hwaiting

end Steps

/-! ### Runs -/

section Runs

variable {setting : ServerSetting ν} {db : Database} {storage : Storage}
  {inputs : List (ServerInput ν)}

/-- In a run, no call of `createSession` that goes on fails on the constraint of the codes. -/
def NeverRefused (setting : ServerSetting ν) (db : Database) (storage : Storage)
    (inputs : List (ServerInput ν)) : Prop :=
  ∀ before now call salt createdAt later,
    inputs = before ++ (now, .passcodeHashed call salt createdAt) :: later →
    (serverRun setting db storage before).hub.halted = false →
    ∀ pending params, (serverRun setting db storage before).creations.get? call = some pending →
      SessionService.creationParams setting.host setting.outside pending salt now = .ok params →
        SessionRepository.create params createdAt (serverRun setting db storage before).hub.db ≠
          .error codeTakenError

/-- All waiting calls could be inserted along exactly the fresh runs. -/
theorem codesFree_iff_along (hupper : KeepsCapitals setting.outside.toUpperCase)
    (db : Database) (storage : Storage) (inputs : List (ServerInput ν)) :
    (∀ before later, inputs = before ++ later →
      CodesFree (serverRun setting db storage before)) ↔
      Along (serverStep setting) (FreshCode setting) (ServerState.new db storage) inputs := by
  have hinit : CodesFree (ServerState.new db storage : ServerState ν) := by
    intro call pending hwaiting
    rw [ServerState.new, OrderedMap.get?_empty] at hwaiting
    cases hwaiting
  exact @forall_prefix_iff_along (ServerState ν) (ServerInput ν) (serverStep setting)
    (FreshCode setting) CodesFree (fun _ ↦ True) (fun _ _ _ ↦ trivial)
    (fun _ input _ hfree ↦ codesFree_serverStep_iff hupper hfree input) _ trivial hinit inputs

/-- **When a generated session code can be inserted.** In a run in which every call of
`createSession` takes a code that no ended session has, and none inserts a code that another call
waits with, no insertion fails on the constraint of the codes. These are exactly the runs in which
at all times every waiting call could be inserted. -/
theorem createSession_neverRefused (hupper : KeepsCapitals setting.outside.toUpperCase)
    (db : Database) (storage : Storage) (inputs : List (ServerInput ν)) :
    (Along (serverStep setting) (FreshCode setting) (ServerState.new db storage) inputs →
      NeverRefused setting db storage inputs) ∧
    ((∀ before later, inputs = before ++ later →
      CodesFree (serverRun setting db storage before)) ↔
      Along (serverStep setting) (FreshCode setting) (ServerState.new db storage) inputs) := by
  have hiff := codesFree_iff_along hupper db storage inputs
  refine ⟨fun halong ↦ ?_, hiff⟩
  intro before now call salt createdAt later hsplit _ pending params hwaiting hparams hrefused
  have htaken := (create_eq_codeTakenError_iff.mp hrefused).2
  rw [(creationParams_ok hparams).2] at htaken
  exact hiff.mpr halong before _ hsplit call pending hwaiting htaken

end Runs

/-! ### Codes that are drawn twice -/

/-- A server on which hashing and signing succeed and sessions last until the instant 1000. -/
def lectureSetting : ServerSetting Rat :=
  { signalingSetting with
    outside := ⟨id, fun _ _ ↦ .ok [], fun _ ↦ some 1000, fun _ _ ↦ ""⟩ }

/-- A valid request. -/
def lectureRequest : CreateSessionRequest Rat := ⟨some "Logic", some "Ada", some "secret", none⟩

/-- A call of `createSession` that draws the code `MESH-2222` at its first attempt. -/
def drawn (call : ℕ) (randomUUID : String) : ServerEvent Rat :=
  .createSession call lectureRequest randomUUID fun _ ↦ [0, 0, 0, 0]

/-- One call draws the code and inserts its session. -/
theorem createSession_neverRefused_lecture :
    NeverRefused lectureSetting classroom OrderedMap.empty
      [(0, drawn 0 "u"), (1, .passcodeHashed 0 [] "")] := by
  refine (createSession_neverRefused (fun _ _ ↦ rfl) classroom OrderedMap.empty _).1 ⟨?_,
    ?_, trivial⟩
  · intro _ _ _ attempt _ _ row hrow hended
    have hactive : ∀ row ∈ classroom.sessions.values, row.isActive = true := by decide
    exact absurd ((hactive row hrow).symm.trans hended) (by simp)
  · intro _ pending hpending _ other waiting hne hwaiting
    have hmem : (other, waiting) ∈ [(0, pending)] := by
      rw [← Option.some.inj hpending]
      exact OrderedMap.mem_entries_iff.mpr hwaiting
    exact absurd (congrArg Prod.fst (List.mem_singleton.mp hmem)) hne

/-- Two calls that draw the same code while both wait, and a call that draws the code of a session
that has ended: the second insertion fails. -/
theorem createSession_refused :
    ¬ NeverRefused lectureSetting classroom OrderedMap.empty
        [(0, drawn 0 "u"), (0, drawn 1 "v"), (1, .passcodeHashed 0 [] ""),
          (1, .passcodeHashed 1 [] "")] ∧
      ¬ NeverRefused lectureSetting classroom OrderedMap.empty
        [(0, drawn 0 "u"), (1, .passcodeHashed 0 [] ""),
          (2, .hub (.endSession "sess_u" ⟨"sess_u", .instructor, none, "Ada", "MESH-2222"⟩)),
          (3, drawn 1 "v"), (4, .passcodeHashed 1 [] "")] := by
  constructor
  · intro hnever
    refine hnever [(0, drawn 0 "u"), (0, drawn 1 "v"), (1, .passcodeHashed 0 [] "")] 1 1
      [] "" [] rfl
      rfl _ _ rfl rfl (create_eq_codeTakenError_iff.mpr ⟨rfl, "sess_u", _, rfl, rfl⟩)
  · intro hnever
    refine hnever [(0, drawn 0 "u"), (1, .passcodeHashed 0 [] ""),
      (2, .hub (.endSession "sess_u" ⟨"sess_u", .instructor, none, "Ada", "MESH-2222"⟩)),
      (3, drawn 1 "v")] 4 1 [] "" [] rfl
      rfl _ _ rfl rfl (create_eq_codeTakenError_iff.mpr ⟨rfl, "sess_u", _, rfl, rfl⟩)

end CampusMesh.Server
