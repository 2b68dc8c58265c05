import CampusMesh.Library.OrderedMap
import CampusMesh.Shared.ProtocolTypes
import CampusMesh.Shared.Runtime
import Mathlib.Data.List.Sort

/-!
# The database

The three tables of the schema with the queries of `SessionRepository` and `ResourceRepository`. A
table is a map from its primary key; the rows of `chunk_manifests`, which nothing looks up by their
number, are keyed by their unique pair of resource and chunk. The constraints of the schema are
fields of `Database`, so a database that violates them cannot be built: a query that would violate
one throws instead.

An instant that the program stores as text and only ever reads back as a number is that number.
-/

set_option autoImplicit false
set_option relaxedAutoImplicit false

namespace CampusMesh.Server

open Library Shared

/-! ### Tables -/

/-- A row of `sessions`. -/
structure SessionRow where
  id : String
  sessionCode : String
  className : String
  instructorName : String
  passcodeHash : String
  createdAt : String
  expiresAt : ℤ
  isActive : Bool

inductive ResourceStatus
  | ready | processing | failed
  deriving DecidableEq

/-- A row of `resources`. -/
structure ResourceRow where
  id : String
  sessionId : String
  fileName : String
  fileSize : ℕ
  chunkSize : ℕ
  totalChunks : ℕ
  fileHash : String
  storagePath : String
  status : ResourceStatus
  createdAt : String

/-- The tables, with the keys, unique columns and references that the schema declares. -/
structure Database where
  sessions : OrderedMap String SessionRow
  resources : OrderedMap String ResourceRow
  chunkManifests : OrderedMap (String × ℕ) String
  session_key : ∀ id row, sessions.get? id = some row → row.id = id
  session_code : ∀ id other row otherRow, sessions.get? id = some row →
    sessions.get? other = some otherRow → row.sessionCode = otherRow.sessionCode → id = other
  resource_key : ∀ id row, resources.get? id = some row → row.id = id
  resource_session : ∀ id row, resources.get? id = some row → sessions.has row.sessionId = true
  chunk_resource : ∀ key hash, chunkManifests.get? key = some hash → resources.has key.1 = true

/-! ### Sessions -/

/-- The parameters of `SessionRepository.create`. -/
structure CreateSessionParams where
  id : String
  sessionCode : String
  className : String
  instructorName : String
  passcodeHash : String
  expiresAt : ℤ

/-- The row that is inserted for a session. -/
def CreateSessionParams.row (params : CreateSessionParams) (createdAt : String) : SessionRow where
  id := params.id
  sessionCode := params.sessionCode
  className := params.className
  instructorName := params.instructorName
  passcodeHash := params.passcodeHash
  createdAt := createdAt
  expiresAt := params.expiresAt
  isActive := true

namespace SessionRepository

/-- The row of a session. -/
def findById (id : String) (db : Database) : Option SessionRow := db.sessions.get? id

/-- The row of a session by its code. -/
def findByCode (toUpperCase : String → String) (code : String) (db : Database) :
    Option SessionRow :=
  db.sessions.values.find? fun row ↦ row.sessionCode = trim (toUpperCase code)

/-- The row of an active session by its code. -/
def findActiveByCode (toUpperCase : String → String) (code : String) (db : Database) :
    Option SessionRow :=
  db.sessions.values.find? fun row ↦
    row.sessionCode = trim (toUpperCase code) && row.isActive

/-- `INSERT INTO sessions`, and the row that is found for the id afterwards. -/
def create (params : CreateSessionParams) (createdAt : String) (db : Database) :
    Except JsError (Database × Option SessionRow) :=
  if db.sessions.has params.id then .error (.error "UNIQUE constraint failed: sessions.id")
  else if hcode : ∃ row ∈ db.sessions.values, row.sessionCode = params.sessionCode then
    .error (.error "UNIQUE constraint failed: sessions.session_code")
  else
    let next : Database :=
      { db with
        sessions := db.sessions.set params.id (params.row createdAt)
        session_key := fun id row hget ↦ by
          rw [OrderedMap.get?_set] at hget
          split_ifs at hget with hsame
          · rw [← Option.some.inj hget, hsame]
            rfl
          · exact db.session_key id row hget
        session_code := fun id other row otherRow hget hother hcodes ↦ by
          have hold : ∀ {id row}, db.sessions.get? id = some row →
              row.sessionCode ≠ params.sessionCode := fun hget heq ↦
            hcode ⟨_, OrderedMap.mem_values_iff.mpr ⟨_, hget⟩, heq⟩
          rw [OrderedMap.get?_set] at hget hother
          split_ifs at hget hother with hfirst hsecond hsecond
          · rw [hfirst, hsecond]
          · exact absurd (hcodes.symm.trans (by rw [← Option.some.inj hget]; rfl)) (hold hother)
          · exact absurd (hcodes.trans (by rw [← Option.some.inj hother]; rfl)) (hold hget)
          · exact db.session_code id other row otherRow hget hother hcodes
        resource_session := fun id row hget ↦ by
          rw [OrderedMap.has_set, db.resource_session id row hget, Bool.or_true] }
    .ok (next, findById params.id next)

/-- `UPDATE sessions SET is_active = 0 WHERE id = ?`. -/
def deactivate (id : String) (db : Database) : Database :=
  match hrow : db.sessions.get? id with
  | none => db
  | some row =>
    { db with
      sessions := db.sessions.set id { row with isActive := false }
      session_key := fun other found hget ↦ by
        rw [OrderedMap.get?_set] at hget
        split_ifs at hget with hsame
        · rw [← Option.some.inj hget, hsame]
          exact db.session_key id row hrow
        · exact db.session_key other found hget
      session_code := by
        have hcode : ∀ other found,
            (db.sessions.set id { row with isActive := false }).get? other = some found →
              ∃ before, db.sessions.get? other = some before ∧
                found.sessionCode = before.sessionCode := by
          intro other found hget
          rw [OrderedMap.get?_set] at hget
          split_ifs at hget with hsame
          · exact ⟨row, hsame ▸ hrow, by rw [← Option.some.inj hget]⟩
          · exact ⟨found, hget, rfl⟩
        intro first second found foundOther hfirst hsecond hcodes
        obtain ⟨before, hbefore, hsame⟩ := hcode first found hfirst
        obtain ⟨beforeOther, hbeforeOther, hsameOther⟩ := hcode second foundOther hsecond
        exact db.session_code first second before beforeOther hbefore hbeforeOther
          (hsame ▸ hsameOther ▸ hcodes)
      resource_session := fun other found hget ↦ by
        rw [OrderedMap.has_set, db.resource_session other found hget, Bool.or_true] }

/-- The sessions that are found after one was deactivated. -/
theorem findById_deactivate (id other : String) (db : Database) :
    findById other (deactivate id db) =
      if other = id then (findById id db).map fun row ↦ { row with isActive := false }
      else findById other db := by
  unfold deactivate findById
  split
  · next hnone =>
    split_ifs with hsame
    · rw [hsame, hnone]
      rfl
    · rfl
  · next row hrow =>
    rw [OrderedMap.get?_set, hrow]
    rfl

end SessionRepository

/-! ### Resources -/

/-- The parameters of `createWithManifest`. -/
structure CreateResourceParams where
  id : String
  sessionId : String
  fileName : String
  fileSize : ℕ
  chunkSize : ℕ
  totalChunks : ℕ
  fileHash : String
  storagePath : String
  status : Option ResourceStatus

namespace ResourceRepository

/-- The row that is inserted for a resource. -/
def rowOf (resource : CreateResourceParams) (createdAt : String) : ResourceRow where
  id := resource.id
  sessionId := resource.sessionId
  fileName := resource.fileName
  fileSize := resource.fileSize
  chunkSize := resource.chunkSize
  totalChunks := resource.totalChunks
  fileHash := resource.fileHash
  storagePath := resource.storagePath
  status := resource.status.getD .ready
  createdAt := createdAt

/-- `INSERT INTO resources`. -/
def insertResource (resource : CreateResourceParams) (createdAt : String) (db : Database) :
    Except JsError Database :=
  if db.resources.has resource.id then
    .error (.error "UNIQUE constraint failed: resources.id")
  else if hsession : db.sessions.has resource.sessionId then
    .ok
      { db with
        resources := db.resources.set resource.id (rowOf resource createdAt)
        resource_key := fun id row hget ↦ by
          rw [OrderedMap.get?_set] at hget
          split_ifs at hget with hsame
          · rw [← Option.some.inj hget, hsame]
            rfl
          · exact db.resource_key id row hget
        resource_session := fun id row hget ↦ by
          rw [OrderedMap.get?_set] at hget
          split_ifs at hget with hsame
          · rw [← Option.some.inj hget]
            exact hsession
          · exact db.resource_session id row hget
        chunk_resource := fun key hash hget ↦ by
          rw [OrderedMap.has_set, db.chunk_resource key hash hget, Bool.or_true] }
  else .error (.error "FOREIGN KEY constraint failed")

/-- `INSERT INTO chunk_manifests`. -/
def insertChunk (resourceId : String) (db : Database) (chunk : ChunkManifestEntry) :
    Except JsError Database :=
  if db.chunkManifests.has (resourceId, chunk.index) then
    .error (.error
      "UNIQUE constraint failed: chunk_manifests.resource_id, chunk_manifests.chunk_index")
  else if hresource : db.resources.has resourceId then
    .ok
      { db with
        chunkManifests := db.chunkManifests.set (resourceId, chunk.index) chunk.sha256
        chunk_resource := fun key hash hget ↦ by
          rw [OrderedMap.get?_set] at hget
          split_ifs at hget with hsame
          · rw [hsame]
            exact hresource
          · exact db.chunk_resource key hash hget }
  else .error (.error "FOREIGN KEY constraint failed")

/-- The row of a resource. -/
def findById (id : String) (db : Database) : Option ResourceRow := db.resources.get? id

/-- Inserts a resource and its chunks in one transaction; when a statement fails the database stays
as it was. -/
def createWithManifest (resource : CreateResourceParams) (chunks : List ChunkManifestEntry)
    (createdAt : String) (db : Database) : Except JsError (Database × Option ResourceRow) := do
  let inserted ← insertResource resource createdAt db
  let committed ← chunks.foldlM (insertChunk resource.id) inserted
  return (committed, findById resource.id committed)

/-- The resources of a session, those that were created last first. -/
def findBySessionId (sessionId : String) (onlyReady : Bool) (db : Database) : List ResourceRow :=
  (db.resources.values.filter fun row ↦
    row.sessionId = sessionId && (!onlyReady || row.status = .ready)).insertionSort
      fun first second ↦ second.createdAt ≤ first.createdAt

/-- The chunks of a resource by their index, without their sizes. -/
def getChunks (resourceId : String) (db : Database) : List ChunkManifestEntry :=
  ((db.chunkManifests.entries.filter fun entry ↦ entry.1.1 = resourceId).map
    fun entry ↦ ⟨entry.1.2, 0, entry.2⟩).insertionSort fun first second ↦ first.index ≤ second.index

/-- `DELETE FROM resources WHERE id = ?` with the chunks of the resource, and if there was one. -/
def delete (id : String) (db : Database) : Database × Bool :=
  ({ db with
      resources := db.resources.delete id
      chunkManifests := db.chunkManifests.filter fun key ↦ key.1 ≠ id
      resource_key := fun other row hget ↦ by
        rw [OrderedMap.get?_delete] at hget
        split_ifs at hget
        exact db.resource_key other row hget
      resource_session := fun other row hget ↦ by
        rw [OrderedMap.get?_delete] at hget
        split_ifs at hget
        exact db.resource_session other row hget
      chunk_resource := fun key hash hget ↦ by
        rw [OrderedMap.get?_filter] at hget
        split_ifs at hget with hkey
        rw [OrderedMap.has_delete, db.chunk_resource key hash hget]
        simpa using hkey }, db.resources.has id)

/-! ### The tables of the resources -/

/-- The resources and their chunks are the same. -/
structure SameRows (db next : Database) : Prop where
  resources : next.resources = db.resources
  chunkManifests : next.chunkManifests = db.chunkManifests

theorem SameRows.refl (db : Database) : SameRows db db := ⟨rfl, rfl⟩

theorem deactivate_sameRows (id : String) (db : Database) :
    SameRows db (SessionRepository.deactivate id db) := by
  unfold SessionRepository.deactivate
  split
  · exact .refl db
  · exact ⟨rfl, rfl⟩

theorem create_sameRows {params : CreateSessionParams} {createdAt : String} {db : Database}
    {created : Database × Option SessionRow}
    (hok : SessionRepository.create params createdAt db = .ok created) : SameRows db created.1 := by
  unfold SessionRepository.create at hok
  split_ifs at hok
  rw [← Except.ok.inj hok]
  exact ⟨rfl, rfl⟩

/-! ### What a transaction leaves -/

section Transaction

variable {db next : Database} {resourceId : String} {chunks : List ChunkManifestEntry}

/-- A chunk that is inserted goes to the end. -/
theorem insertChunk_ok {chunk : ChunkManifestEntry}
    (hok : insertChunk resourceId db chunk = .ok next) :
    next.sessions = db.sessions ∧ next.resources = db.resources ∧
      next.chunkManifests.entries =
        db.chunkManifests.entries ++ [((resourceId, chunk.index), chunk.sha256)] := by
  unfold insertChunk at hok
  split_ifs at hok with hchunk hresource
  rw [← Except.ok.inj hok]
  exact ⟨rfl, rfl, OrderedMap.entries_set_of_fresh (Bool.eq_false_iff.mpr hchunk) _⟩

theorem insertChunks_ok (hok : chunks.foldlM (insertChunk resourceId) db = .ok next) :
    next.sessions = db.sessions ∧ next.resources = db.resources ∧
      next.chunkManifests.entries = db.chunkManifests.entries ++
        chunks.map fun chunk ↦ ((resourceId, chunk.index), chunk.sha256) := by
  induction chunks generalizing db with
  | nil =>
    rw [← Except.ok.inj hok, List.map_nil, List.append_nil]
    exact ⟨rfl, rfl, rfl⟩
  | cons chunk rest ih =>
    rw [List.foldlM_cons] at hok
    obtain ⟨between, hfirst, hrest⟩ := bind_eq_ok_iff.mp hok
    obtain ⟨hsessions, hresources, hentries⟩ := insertChunk_ok hfirst
    obtain ⟨hsessions', hresources', hentries'⟩ := ih hrest
    refine ⟨hsessions'.trans hsessions, hresources'.trans hresources, ?_⟩
    rw [hentries', hentries, List.append_assoc, List.map_cons]
    rfl

theorem insertResource_ok {resource : CreateResourceParams} {createdAt : String}
    (hok : insertResource resource createdAt db = .ok next) :
    db.resources.has resource.id = false ∧ next.sessions = db.sessions ∧
      next.resources = db.resources.set resource.id (rowOf resource createdAt) ∧
      next.chunkManifests = db.chunkManifests := by
  unfold insertResource at hok
  split_ifs at hok with hid hsession
  rw [← Except.ok.inj hok]
  exact ⟨Bool.eq_false_iff.mpr hid, rfl, rfl, rfl⟩

/-- The tables after a committed transaction: one more row, and its chunks behind the others. -/
theorem createWithManifest_tables {resource : CreateResourceParams} {createdAt : String}
    {row : Option ResourceRow}
    (hok : createWithManifest resource chunks createdAt db = .ok (next, row)) :
    db.resources.has resource.id = false ∧ next.sessions = db.sessions ∧
      next.resources = db.resources.set resource.id (rowOf resource createdAt) ∧
      next.chunkManifests.entries = db.chunkManifests.entries ++
        chunks.map fun chunk ↦ ((resource.id, chunk.index), chunk.sha256) := by
  unfold createWithManifest at hok
  obtain ⟨inserted, hinsert, hok⟩ := bind_eq_ok_iff.mp hok
  obtain ⟨committed, hchunks, hok⟩ := bind_eq_ok_iff.mp hok
  obtain ⟨rfl, _⟩ := Prod.mk.inj (Except.ok.inj hok)
  obtain ⟨hfresh, hsessions, hrow, hbefore⟩ := insertResource_ok hinsert
  obtain ⟨hsame, hresources, hentries⟩ := insertChunks_ok hchunks
  exact ⟨hfresh, hsame.trans hsessions, hresources.trans hrow, hbefore ▸ hentries⟩

/-- No chunk of a resource that is not there. -/
theorem not_mem_keys_of_fresh (hfresh : db.resources.has resourceId = false) (index : ℕ) :
    (resourceId, index) ∉ db.chunkManifests.keys := by
  intro hmem
  obtain ⟨hash, hhash⟩ := OrderedMap.has_iff_exists.mp (OrderedMap.mem_keys_iff.mp hmem)
  have hreferenced := db.chunk_resource _ _ hhash
  rw [hfresh] at hreferenced
  exact Bool.false_ne_true hreferenced

/-- Chunks that were inserted in order behind those of other resources. -/
theorem getChunks_of_entries {front : List ((String × ℕ) × String)}
    (hentries : next.chunkManifests.entries =
      front ++ chunks.map fun chunk ↦ ((resourceId, chunk.index), chunk.sha256))
    (hfront : ∀ entry ∈ front, entry.1.1 ≠ resourceId)
    (hsorted : (chunks.map ChunkManifestEntry.index).Pairwise (· ≤ ·)) :
    getChunks resourceId next = chunks.map fun chunk ↦ { chunk with size := 0 } := by
  have hothers : (front.filter fun entry ↦ entry.1.1 = resourceId) = [] := by
    refine List.filter_eq_nil_iff.mpr fun entry hmem ↦ ?_
    rw [decide_eq_true_eq]
    exact hfront entry hmem
  have hown : ((chunks.map fun chunk ↦ ((resourceId, chunk.index), chunk.sha256)).filter
      fun entry ↦ entry.1.1 = resourceId) =
        chunks.map fun chunk ↦ ((resourceId, chunk.index), chunk.sha256) := by
    refine List.filter_eq_self.mpr fun entry hmem ↦ ?_
    obtain ⟨chunk, _, rfl⟩ := List.mem_map.mp hmem
    exact decide_eq_true rfl
  rw [getChunks, hentries, List.filter_append, hothers, hown, List.nil_append, List.map_map]
  refine List.Pairwise.insertionSort_eq ?_
  rw [List.pairwise_map] at hsorted ⊢
  exact hsorted

/-- A committed transaction: the row of the resource is there, and its chunks are those that were
given. -/
theorem createWithManifest_ok {resource : CreateResourceParams} {createdAt : String}
    {row : Option ResourceRow}
    (hok : createWithManifest resource chunks createdAt db = .ok (next, row))
    (hsorted : (chunks.map ChunkManifestEntry.index).Pairwise (· ≤ ·)) :
    findById resource.id next = some (rowOf resource createdAt) ∧
      getChunks resource.id next = chunks.map fun chunk ↦ { chunk with size := 0 } := by
  obtain ⟨hfresh, _, hresources, hentries⟩ := createWithManifest_tables hok
  refine ⟨?_, getChunks_of_entries hentries (fun entry hmem heq ↦ ?_) hsorted⟩
  · rw [findById, hresources, OrderedMap.get?_set_self]
  · refine not_mem_keys_of_fresh hfresh entry.1.2 ?_
    rw [← heq]
    exact List.mem_map_of_mem hmem

end Transaction

end ResourceRepository

/-! ### Sample database -/

/-- Two classes. -/
def classroom : Database where
  sessions := (OrderedMap.empty.set "session"
    ⟨"session", "ABC123", "Networks", "Ada", "", "", 1000, true⟩).set "seminar"
      ⟨"seminar", "DEF456", "Logic", "Alonzo", "", "", 1000, true⟩
  resources := OrderedMap.empty
  chunkManifests := OrderedMap.empty
  session_key id row hget := by
    rw [OrderedMap.get?_set, OrderedMap.get?_set] at hget
    split_ifs at hget with hseminar hsession
    · rw [hseminar, ← Option.some.inj hget]
    · rw [hsession, ← Option.some.inj hget]
    · simp at hget
  session_code id other row otherRow hget hother hcode := by
    rw [OrderedMap.get?_set, OrderedMap.get?_set] at hget hother
    split_ifs at hget hother <;> simp_all
    all_goals subst hget hother; simp at hcode
  resource_key _ _ hget := by simp at hget
  resource_session _ _ hget := by simp at hget
  chunk_resource _ _ hget := by simp at hget

end CampusMesh.Server
