import CampusMesh.Server.PublishedFiles
import CampusMesh.Shared.TextCodec
import CampusMesh.Web.FileAssembly
import CampusMesh.Web.LiveDownload
import CampusMesh.Web.Swarm

/-!
# The class

The server and a swarm of its students together. The students start downloads of what the server
lists in a manifest, get chunks from it, and pass them on among themselves, so what a student opens
in the end has come through many hands.

It is the file that the instructor sent (`class_gets_what_was_sent`). On the side of the server a
name stands for one file throughout, since files do not change while they are published and no name
is drawn twice (`Distributed.unique`). So there is one truth about every chunk, and the swarm is an
honest one with respect to it. Against those who forge frames and chunks it is enough that the
manifests come from the server and nothing that a student checks collides with a chunk
(`class_withstands_forgery`).
-/

set_option autoImplicit false
set_option relaxedAutoImplicit false

namespace CampusMesh.Web

open Library Shared Server SchedulerState CoordinatorState

variable {ν σ : Type}

/-! ### The system -/

section Class

variable (setting : GatewaySetting ν) (db : Database) (storage : Storage)
  (inputs : List (GatewayInput ν))

/-- The server replies so to a request of the run. -/
def Replies (event : GatewayEvent ν) (body : ReplyBody ν) : Prop :=
  ∃ before now later status, inputs = before ++ (now, event) :: later ∧
    (handled setting (gatewayRun setting db storage before) (now, event)).reply =
      some ⟨status, body⟩

/-- A manifest that the server replies. -/
def RepliesManifest (manifest : ResourceManifest) : Prop :=
  ∃ authorization id, Replies setting db storage inputs (.getManifest authorization id)
    (.manifest manifest)

/-- What comes to a student from outside the swarm: downloads of manifests that the server replied,
and chunks that it replied to the request for them. No frame comes from outside. -/
def ClassInput (_ : String) (state : CoordinatorState σ) (input : CoordinatorInput) : Prop :=
  match input.2 with
  | .dataMessage _ _ => False
  | .startDownload manifest => RepliesManifest setting db storage inputs manifest
  | .settled index task (.fetched data) =>
    ∀ scheduler, state.schedulers[index]? = some scheduler →
      ∀ waiting, scheduler.tasks[task]? = some waiting → ∃ authorization headers,
        Replies setting db storage inputs (.getChunk authorization scheduler.manifest.resourceId
          (toString waiting.chunkIndex)) (.chunk headers data)
  | _ => True

/-- The server starts without files. It draws names that are new, that no file had before, and that
fit a frame, and takes no file of four gigabytes. -/
structure ServesClass : Prop where
  empty : ∀ id, db.resources.get? id = none
  drawn : Along (gatewayStep setting) (DrawsNew setting) (GatewayState.new db storage) inputs
  unused : ∀ before input later, inputs = before ++ input :: later →
    ∀ call buffers randomBytes, input.2 = .upload call (.generated buffers randomBytes) →
      randomBytes.length ≤ 8 ∧ ∀ part rest, before = part ++ rest →
        (gatewayRun setting db storage part).catalog.published (resourceIdOf randomBytes) = none
  limit : setting.config.maxBytes < 2 ^ 32

/-- A file that is on the shelf of the server at some time, and that an instructor sent. -/
structure Distributed (id : String) (file : PublishedFile) : Prop where
  published : ∃ before later, inputs = before ++ later ∧
    (gatewayRun setting db storage before).catalog.published id = some file
  sent : ∃ before input later, inputs = before ++ input :: later ∧
    PublishesSent setting db storage before input id file

/-- A chunk of such a file. -/
def IsDistributed (id : String) (chunkIndex : ℕ) (data : Bytes) : Prop :=
  ∃ file, Distributed setting db storage inputs id file ∧ chunkIndex < file.row.totalChunks ∧
    data = file.chunk chunkIndex

end Class

/-! ### One file for each name -/

section Names

variable {setting : GatewaySetting ν} {db : Database} {storage : Storage}
  {inputs before : List (GatewayInput ν)} {id : String} {file other : PublishedFile}

theorem ServesClass.stored (hserves : ServesClass setting db storage inputs) (id : String)
    (row : ResourceRow) (hrow : db.resources.get? id = some row) :
    row.storagePath = finalFilePath setting.config id ∧
      Server.Servable setting.digest db storage row := by
  rw [hserves.empty id] at hrow
  cases hrow

/-- At each time the resources are in their places. -/
theorem ServesClass.sound (hserves : ServesClass setting db storage inputs)
    {later : List (GatewayInput ν)} (hsplit : inputs = before ++ later) :
    CatalogSound setting.toServerSetting (gatewayRun setting db storage before).catalog := by
  have hdrawn := hserves.drawn
  rw [hsplit] at hdrawn
  exact (provenance_gatewayRun hserves.stored ((along_append _ _ _).mp hdrawn).1).sound

/-- A name for which a file is planned has none. -/
theorem published_of_plans {setting : ServerSetting ν} {state : CatalogState ν}
    (hsound : CatalogSound setting state) (hplans : state.Plans id) :
    state.published id = none := by
  obtain ⟨call, job, plan, hjob, hplan, rfl⟩ := hplans
  obtain ⟨-, hnew, -⟩ := hsound.jobs call job hjob plan hplan
  rw [OrderedMap.has, Option.isSome_eq_false_iff, Option.isNone_iff_eq_none] at hnew
  rw [CatalogState.published, ResourceRepository.findById, hnew]
  rfl

/-- **A step** plans for names that were planned for, or drawn. -/
theorem plans_gatewayStep {state : GatewayState ν} {input : GatewayInput ν}
    (hsound : CatalogSound setting.toServerSetting state.catalog)
    (hplans : (gatewayStep setting state input).catalog.Plans id) :
    state.catalog.Plans id ∨ ∃ call buffers randomBytes,
      input.2 = .upload call (.generated buffers randomBytes) ∧ id = resourceIdOf randomBytes := by
  rcases catalog_gatewayStep setting state input with ⟨-, hsame⟩ | ⟨asked, -, hasking, hnext⟩
  · exact Or.inl (hsame ▸ hplans)
  rw [hnext] at hplans
  obtain ⟨call, job, plan, hjob, hplan, rfl⟩ := hplans
  rcases plan_catalogStep hsound hjob hplan with
    ⟨old, hold, hsame⟩ | ⟨buffers, randomBytes, hevent, hid⟩
  · exact Or.inl ⟨call, old, plan, hold, hsame, rfl⟩
  · obtain ⟨now, event⟩ := input
    cases hasking with
    | upload =>
      cases hevent
      exact Or.inr ⟨call, buffers, randomBytes, rfl, hid⟩
    | _ => cases hevent

/-- **Names are not used twice.** A name for which a file is planned is short, and no file had it at
any time before. -/
theorem ServesClass.plans (hserves : ServesClass setting db storage inputs) :
    ∀ before later, inputs = before ++ later →
      ∀ id, (gatewayRun setting db storage before).catalog.Plans id →
        (∃ randomBytes, id = resourceIdOf randomBytes ∧ randomBytes.length ≤ 8) ∧
          ∀ part rest, before = part ++ rest →
            (gatewayRun setting db storage part).catalog.published id = none := by
  intro before
  induction before using List.reverseRecOn with
  | nil =>
    rintro later - id ⟨call, job, plan, hjob, -, -⟩
    simp [gatewayRun, GatewayState.new, CatalogState.new, ServerState.new] at hjob
  | append_singleton before input ih =>
    intro later hsplit id hplans
    have hnow := published_of_plans (hserves.sound hsplit) hplans
    have hcut : inputs = before ++ input :: later := by simp [hsplit]
    have hearlier : (∃ randomBytes, id = resourceIdOf randomBytes ∧ randomBytes.length ≤ 8) ∧
        ∀ part rest, before = part ++ rest →
          (gatewayRun setting db storage part).catalog.published id = none := by
      rw [gatewayRun_concat] at hplans
      rcases plans_gatewayStep (hserves.sound hcut) hplans with
        hold | ⟨call, buffers, randomBytes, hevent, rfl⟩
      · exact ih (input :: later) hcut id hold
      · obtain ⟨hshort, hunused⟩ :=
          hserves.unused before input later hcut call buffers randomBytes hevent
        exact ⟨⟨randomBytes, rfl, hshort⟩, hunused⟩
    refine ⟨hearlier.1, fun part rest hpart ↦ ?_⟩
    rcases List.eq_nil_or_concat rest with rfl | ⟨front, last, rfl⟩
    · rw [List.append_nil] at hpart
      exact hpart ▸ hnow
    · rw [List.concat_eq_append, ← List.append_assoc] at hpart
      exact hearlier.2 part front (List.append_inj' hpart rfl).1

/-- What is on the shelf was sent. -/
theorem ServesClass.distributed (hserves : ServesClass setting db storage inputs)
    {later : List (GatewayInput ν)} (hsplit : inputs = before ++ later)
    (hpublished : (gatewayRun setting db storage before).catalog.published id = some file) :
    Distributed setting db storage inputs id file := by
  refine ⟨⟨before, later, hsplit, hpublished⟩, ?_⟩
  have hshelved := shelved_gatewayRun hserves.stored hserves.drawn
  rw [hsplit] at hshelved
  rcases hshelved.left.source hpublished with hold | ⟨front, input, rest, rfl, hsent⟩
  · obtain ⟨hrow, -⟩ := published_eq_some_iff.mp hold
    cases (hserves.empty id).symm.trans hrow
  · exact ⟨front, input, rest ++ later, by simp [hsplit], hsent⟩

/-- **A name stands for one file.** -/
theorem Distributed.unique (hserves : ServesClass setting db storage inputs)
    (hfile : Distributed setting db storage inputs id file)
    (hother : Distributed setting db storage inputs id other) : file = other := by
  obtain ⟨first, firstRest, hfirst, hthing⟩ := hfile.published
  obtain ⟨second, secondRest, hsecond, hanother⟩ := hother.published
  refine (shelved_gatewayRun hserves.stored hserves.drawn).agrees ?_ hfirst hsecond hthing hanother
  intro before input later hsplit name thing hputs
  exact (hserves.plans before (input :: later) hsplit name hputs.planned).2

/-- What a file that was sent is like. -/
theorem Distributed.row (hfile : Distributed setting db storage inputs id file) :
    file.row.id = id ∧ file.row.chunkSize = CHUNK_SIZE_BYTES ∧
      file.row.totalChunks = sliceCount CHUNK_SIZE_BYTES file.content.length ∧
      file.row.fileHash = hexText (setting.digest file.content) := by
  obtain ⟨before, input, later, -, hsent⟩ := hfile.sent
  obtain ⟨call, createdAt, fault, safeFileName, -, -, hrow⟩ := hsent.sent
  exact ⟨congrArg ResourceRow.id hrow, congrArg ResourceRow.chunkSize hrow,
    congrArg ResourceRow.totalChunks hrow, congrArg ResourceRow.fileHash hrow⟩

/-- The chunks of a file, one after the other, are the file. -/
theorem Distributed.flatten_chunks (hfile : Distributed setting db storage inputs id file) :
    ((List.range file.row.totalChunks).map file.chunk).flatten = file.content := by
  obtain ⟨-, hsize, htotal, -⟩ := hfile.row
  have hchunk : file.chunk = slice CHUNK_SIZE_BYTES file.content := by
    funext index
    rw [PublishedFile.chunk, hsize]
  rw [htotal, hchunk, ← List.flatMap_def]
  exact flatMap_slice (by decide) file.content

end Names

/-! ### Names and chunks on the wire -/

section Wire

variable {setting : GatewaySetting ν} {db : Database} {storage : Storage}
  {inputs : List (GatewayInput ν)} {id : String} {file : PublishedFile}

/-- A hexadecimal digit takes one byte. -/
theorem length_utf8EncodeChar_hexDigit {value : ℕ} (hvalue : value < 16) :
    (String.utf8EncodeChar (hexDigit value)).length = 1 := by
  interval_cases value <;> decide

/-- A hexadecimal text takes two bytes for each of the bytes it is of. -/
theorem length_flatMap_hexByte (bytes : Bytes) :
    ((bytes.flatMap hexByte).flatMap String.utf8EncodeChar).length = 2 * bytes.length := by
  induction bytes with
  | nil => rfl
  | cons byte rest ih =>
    have hbound := byte.toNat_lt
    rw [List.flatMap_cons, List.flatMap_append, List.length_append, ih, hexByte, List.flatMap_cons,
      List.flatMap_singleton, List.length_append, length_utf8EncodeChar_hexDigit (by omega),
      length_utf8EncodeChar_hexDigit (by omega), List.length_cons]
    omega

theorem toList_resourceIdOf (randomBytes : Bytes) :
    (resourceIdOf randomBytes).toList = ['r', 'e', 's', '_'] ++ randomBytes.flatMap hexByte := by
  rw [resourceIdOf, String.toList_append, hexText, String.toList_ofList, String.toList_ofList]

/-- The names that the server makes of eight bytes fit a frame. -/
theorem fitsHeader_resourceIdOf {randomBytes : Bytes} (hshort : randomBytes.length ≤ 8) :
    FitsHeader (resourceIdOf randomBytes) := by
  have hprefix : ((['r', 'e', 's', '_'] : List Char).flatMap String.utf8EncodeChar).length = 4 := by
    decide
  rw [FitsHeader, textEncode, toList_resourceIdOf, List.flatMap_append, List.length_append, hprefix,
    length_flatMap_hexByte]
  omega

theorem roundTripsText_resourceIdOf (randomBytes : Bytes) :
    RoundTripsText (resourceIdOf randomBytes) := by
  refine roundTripsText_iff.mpr fun hstarts ↦ ?_
  rw [StartsWithMark, toList_resourceIdOf] at hstarts
  exact absurd (Option.some.inj hstarts) (by decide)

/-- Chunks of files that were sent can be put on the wire. -/
theorem ServesClass.wired (hserves : ServesClass setting db storage inputs) :
    Wired (IsDistributed setting db storage inputs) := by
  have hname : ∀ id chunkIndex data, IsDistributed setting db storage inputs id chunkIndex data →
      ∃ randomBytes, id = resourceIdOf randomBytes ∧ randomBytes.length ≤ 8 := by
    rintro id chunkIndex data ⟨file, hfile, -, -⟩
    obtain ⟨before, input, later, hsplit, hsent⟩ := hfile.sent
    exact (hserves.plans before (input :: later) hsplit id hsent.planned).1
  constructor
  case fits =>
    intro id chunkIndex data hdata
    obtain ⟨randomBytes, rfl, hshort⟩ := hname id chunkIndex data hdata
    exact fitsHeader_resourceIdOf hshort
  case text =>
    intro id chunkIndex data hdata
    obtain ⟨randomBytes, rfl, -⟩ := hname id chunkIndex data hdata
    exact roundTripsText_resourceIdOf randomBytes
  case index =>
    rintro id chunkIndex data ⟨file, hfile, hrange, -⟩
    obtain ⟨before, input, later, -, hsent⟩ := hfile.sent
    have hlimited := hsent.limited
    have hlimit := hserves.limit
    rw [hfile.row.2.2.1] at hrange
    have hstart := mul_lt_length_of_lt_sliceCount (by decide) hrange
    have hle : chunkIndex ≤ chunkIndex * CHUNK_SIZE_BYTES := Nat.le_mul_of_pos_right _ (by decide)
    omega
  case length =>
    rintro id chunkIndex data ⟨file, hfile, -, rfl⟩
    rw [PublishedFile.chunk, length_slice, hfile.row.2.1]
    exact lt_of_le_of_lt (min_le_left _ _) (by decide)

/-- The hash that the manifest of a file expects of a chunk is that of the chunk. -/
theorem expectedHash_manifest {digest : Bytes → Bytes} {chunkIndex : ℕ} {expected : String}
    (hexpected : expectedHash (file.manifest digest) chunkIndex = some expected) :
    chunkIndex < file.row.totalChunks ∧
      expected = hexText (digest (file.chunk chunkIndex)) := by
  refine expectedHash_of_chunks (fun index ↦ hexText (digest (file.chunk index)))
    file.row.totalChunks ?_ rfl hexpected
  simp only [PublishedFile.manifest, manifestOf, PublishedFile.storedChunks, List.map_map]
  rfl

end Wire

/-! ### One truth about every chunk -/

section Truth

variable (setting : GatewaySetting ν) (db : Database) (storage : Storage)
  (inputs : List (GatewayInput ν))

open Classical in
/-- The bytes of a chunk as they were sent. -/
noncomputable def distributedChunk (id : String) (chunkIndex : ℕ) : Option Bytes :=
  if hexists : ∃ data, IsDistributed setting db storage inputs id chunkIndex data then
    some hexists.choose
  else none

variable {setting db storage inputs} {id : String} {chunkIndex : ℕ}
  {data other : Bytes} {manifest : ResourceManifest}

theorem IsDistributed.unique (hserves : ServesClass setting db storage inputs)
    (hdata : IsDistributed setting db storage inputs id chunkIndex data)
    (hother : IsDistributed setting db storage inputs id chunkIndex other) : data = other := by
  obtain ⟨file, hfile, -, rfl⟩ := hdata
  obtain ⟨another, hanother, -, rfl⟩ := hother
  rw [hfile.unique hserves hanother]

theorem isTrue_distributedChunk_iff (hserves : ServesClass setting db storage inputs) :
    IsTrue (distributedChunk setting db storage inputs) id chunkIndex data ↔
      IsDistributed setting db storage inputs id chunkIndex data := by
  unfold IsTrue distributedChunk
  constructor
  · intro htrue
    split_ifs at htrue with hexists
    exact Option.some.inj htrue ▸ hexists.choose_spec
  · intro hdata
    have hexists : ∃ data, IsDistributed setting db storage inputs id chunkIndex data :=
      ⟨data, hdata⟩
    rw [dif_pos hexists, hexists.choose_spec.unique hserves hdata]

/-- A manifest that is replied is that of a file that was sent. -/
theorem ServesClass.manifest_replied (hserves : ServesClass setting db storage inputs)
    (hreplies : RepliesManifest setting db storage inputs manifest) :
    ∃ file, Distributed setting db storage inputs manifest.resourceId file ∧
      manifest = file.manifest setting.digest := by
  obtain ⟨authorization, id, before, now, later, status, hsplit, hreply⟩ := hreplies
  obtain ⟨user, file, -, -, hpublished, rfl⟩ := manifest_of_reply (hserves.sound hsplit) hreply
  have hfile := hserves.distributed hsplit hpublished
  refine ⟨file, ?_, rfl⟩
  change Distributed setting db storage inputs file.row.id file
  rwa [hfile.row.1]

/-- A chunk that is replied is the one that was asked for. -/
theorem ServesClass.chunk_replied (hserves : ServesClass setting db storage inputs)
    {authorization : Option String} {headers : List (String × String)}
    (hreplies : Replies setting db storage inputs
      (.getChunk authorization id (toString chunkIndex)) (.chunk headers data)) :
    IsDistributed setting db storage inputs id chunkIndex data := by
  obtain ⟨before, now, later, status, hsplit, hreply⟩ := hreplies
  obtain ⟨user, file, index, -, -, hpublished, hdenotes, hrange, hstream, -⟩ :=
    chunk_of_reply (hserves.sound hsplit) hreply
  obtain rfl : index = chunkIndex := hdenotes.2.symm.trans (denotes_toString chunkIndex).2
  exact ⟨file, hserves.distributed hsplit hpublished, hrange, hstream⟩

/-- The bytes that were sent pass the checks of the manifests that are replied. -/
theorem ServesClass.publishes (hserves : ServesClass setting db storage inputs)
    (hreplies : RepliesManifest setting db storage inputs manifest) :
    Publishes (distributedChunk setting db storage inputs) setting.digest manifest := by
  intro chunkIndex expected data hexpected htrue
  obtain ⟨file, hfile, hmanifest⟩ := hserves.manifest_replied hreplies
  obtain ⟨another, hanother, -, rfl⟩ := (isTrue_distributedChunk_iff hserves).mp htrue
  rw [hmanifest] at hexpected
  rw [(expectedHash_manifest hexpected).2, ← hfile.unique hserves hanother]
  exact (verify_hexText_valid_iff setting.digest _ _).mpr rfl

/-- Bytes that pass the check of a manifest that is replied were sent, if no chunk that was sent is
another text with their digest. -/
theorem ServesClass.distributed_of_checked (hserves : ServesClass setting db storage inputs)
    (hcollides : ∀ id chunkIndex chunk,
      IsDistributed setting db storage inputs id chunkIndex chunk →
        setting.digest data = setting.digest chunk → data = chunk)
    (hchecked : Checked setting.digest (RepliesManifest setting db storage inputs) id chunkIndex
      data) : IsDistributed setting db storage inputs id chunkIndex data := by
  obtain ⟨manifest, hreplies, rfl, expected, hexpected, hvalid⟩ := hchecked
  obtain ⟨file, hfile, hmanifest⟩ := hserves.manifest_replied hreplies
  rw [hmanifest] at hexpected
  obtain ⟨hrange, rfl⟩ := expectedHash_manifest hexpected
  exact ⟨file, hfile, hrange, hcollides manifest.resourceId chunkIndex _ ⟨file, hfile, hrange, rfl⟩
    ((verify_hexText_valid_iff _ _ _).mp hvalid)⟩

/-- What comes to a student is honest. -/
theorem ServesClass.honest (hserves : ServesClass setting db storage inputs) (peerId : String)
    {state : CoordinatorState σ} {input : CoordinatorInput}
    (hclass : ClassInput setting db storage inputs peerId state input) :
    HonestInput (distributedChunk setting db storage inputs)
      (RepliesManifest setting db storage inputs) peerId state input := by
  obtain ⟨env, event⟩ := input
  cases event with
  | settled index task settlement =>
    cases settlement with
    | fetched data =>
      intro scheduler hscheduler waiting hwaiting
      obtain ⟨authorization, headers, hreplies⟩ := hclass scheduler hscheduler waiting hwaiting
      exact (isTrue_distributedChunk_iff hserves).mpr (hserves.chunk_replied hreplies)
    | _ => trivial
  | _ => exact hclass

/-- A task at hand waits for the chunk that the server replies. -/
theorem classInput_of_waiting {peerId : String} {state : CoordinatorState σ} {env : Env}
    {index task : ℕ} {authorization : Option String} {headers : List (String × String)}
    (hwaiting : (state.schedulers[index]?.bind fun scheduler ↦ scheduler.tasks[task]?.map
      fun waiting ↦ (scheduler.manifest.resourceId, waiting.chunkIndex)) = some (id, chunkIndex))
    (hreplies : Replies setting db storage inputs
      (.getChunk authorization id (toString chunkIndex)) (.chunk headers data)) :
    ClassInput setting db storage inputs peerId state
      (env, .settled index task (.fetched data)) := by
  intro scheduler hscheduler waiting htask
  rw [hscheduler, Option.bind_some, htask, Option.map_some] at hwaiting
  obtain ⟨rfl, rfl⟩ := Prod.mk.inj (Option.some.inj hwaiting)
  exact ⟨authorization, headers, hreplies⟩

end Truth

/-! ### The class -/

section Students

variable (setting : GatewaySetting ν) (db : Database) (storage : Storage)
  (inputs : List (GatewayInput ν)) (chunkStore : ListingStore σ) (stores : String → σ)

/-- A student stores and sends what was sent to the server, and a file that it opens, reading the
chunks while other things happen, is one that was sent. -/
structure GetsWhatWasSent (events later : List SwarmEvent) (peerId : String) : Prop where
  store : StoreAccepts (IsDistributed setting db storage inputs) chunkStore.toIChunkStore
    (swarmRun setting.digest chunkStore stores events peerId).store
  sent : ∀ entry ∈ (swarmRun setting.digest chunkStore stores events peerId).sent,
    CarriesAccepted (IsDistributed setting db storage inputs) entry.2
  opens : ∀ (resourceId : String) (moments : ℕ → ℕ) (assembled : AssembledFile),
    assembleFile setting.digest chunkStore.toIChunkStore
        (swarmRun setting.digest chunkStore stores events peerId).currentManifest resourceId
        (fun index ↦ (swarmRun setting.digest chunkStore stores
          (events ++ later.take (moments index)) peerId).store) = .ok (some assembled) →
      ∃ file, Distributed setting db storage inputs resourceId file ∧
        assembled = ⟨file.content, hexText (setting.digest file.content), true,
          file.row.fileName⟩

variable {setting db storage inputs chunkStore stores} {events later : List SwarmEvent}
  {peerId : String}

/-- The bytes wait for a check of a scheduler. -/
def Checks (state : CoordinatorState σ) (data : Bytes) : Prop :=
  ∃ scheduler ∈ state.schedulers, ∃ task ∈ scheduler.tasks, ∃ expected latencyMs,
    task.stage = .verifying expected data latencyMs

/-- They wait for a check of some student at some time of the run. -/
def AwaitsCheck (digest : Bytes → Bytes) (chunkStore : ListingStore σ) (stores : String → σ)
    (events : List SwarmEvent) (data : Bytes) : Prop :=
  ∃ part rest, events = part ++ rest ∧
    ∃ peerId, Checks (swarmRun digest chunkStore stores part peerId) data

/-- Anything may come to students whose checks only bytes pass that are accepted. -/
theorem inputAllowed_of_resists {digest : Bytes → Bytes} {known : ResourceManifest → Prop}
    {accepts : String → ℕ → Bytes → Prop} {system : String → CoordinatorState σ}
    {event : SwarmEvent}
    (hknown : ∀ party env manifest, event = .acts party (env, .startDownload manifest) →
      known manifest)
    (haccepts : ∀ party data, Checks (system party) data →
      ∀ id chunkIndex, Checked digest known id chunkIndex data → accepts id chunkIndex data) :
    ActsAllowed (fun _ state input ↦
      InputAllowed known (Resists accepts digest known) state input.2) system event := by
  cases event with
  | delivers => trivial
  | acts party input =>
    obtain ⟨env, event⟩ := input
    cases event with
    | startDownload manifest => exact hknown party env manifest rfl
    | dataMessage => exact fun _ _ _ _ _ _ _ _ _ ↦ trivial
    | settled index place settlement =>
      intro scheduler hscheduler
      cases settlement with
      | verified =>
        intro task htask expected data latencyMs hstage hchecked
        exact haccepts party data ⟨scheduler, List.mem_of_getElem? hscheduler, task,
          List.mem_of_getElem? htask, expected, latencyMs, hstage⟩ _ _ hchecked
      | _ => trivial
    | _ => trivial

/-- Only downloads of known resources are started. -/
def StartsKnown (known : ResourceManifest → Prop) (_ : String) (_ : CoordinatorState σ)
    (input : CoordinatorInput) : Prop :=
  ∀ manifest, input.2 = .startDownload manifest → known manifest

/-- The current manifest of a student is one of those whose downloads it starts. -/
theorem currentManifest_swarmRun {digest : Bytes → Bytes} {known : ResourceManifest → Prop}
    (hknown : Along (networkStep (swarmKind digest chunkStore))
      (ActsAllowed (StartsKnown known)) (newSwarm stores) events) :
    ∀ manifest, (swarmRun digest chunkStore stores events peerId).currentManifest =
      some manifest → known manifest := by
  refine @network_invariant _ _ _ _ _ _ (swarmKind digest chunkStore) (StartsKnown known)
    (fun _ state ↦ ∀ manifest, state.currentManifest = some manifest → known manifest)
    (fun _ _ ↦ True) ?_ (fun _ _ _ _ _ _ _ _ hevent ↦ by cases hevent) (fun _ _ _ _ _ ↦ trivial)
    _ (fun _ _ hnone ↦ by cases hnone) _ hknown peerId
  rintro party state ⟨env, event⟩ hinv hallowed manifest hcurrent
  by_cases hstart : ∃ started, event = .startDownload started
  · obtain ⟨started, rfl⟩ := hstart
    exact hallowed manifest (congrArg _ (Option.some.inj hcurrent))
  · refine hinv manifest ?_
    rw [← coordinatorStep_currentManifest (fun started heq ↦ hstart ⟨started, heq⟩)]
    exact hcurrent

/-- What is opened is what is stored, so it suffices to look at stores, frames and the manifest that
is current. -/
theorem ServesClass.gets (hserves : ServesClass setting db storage inputs)
    (hstore : ∀ part rest, events ++ later = part ++ rest →
      StoreAccepts (IsDistributed setting db storage inputs) chunkStore.toIChunkStore
        (swarmRun setting.digest chunkStore stores part peerId).store)
    (hsent : ∀ entry ∈ (swarmRun setting.digest chunkStore stores events peerId).sent,
      CarriesAccepted (IsDistributed setting db storage inputs) entry.2)
    (hcurrent : ∀ manifest,
      (swarmRun setting.digest chunkStore stores events peerId).currentManifest = some manifest →
        RepliesManifest setting db storage inputs manifest) :
    GetsWhatWasSent setting db storage inputs chunkStore stores events later peerId := by
  refine ⟨hstore events later rfl, hsent, ?_⟩
  intro resourceId moments assembled hassembled
  cases hmanifest :
      (swarmRun setting.digest chunkStore stores events peerId).currentManifest with
  | none =>
    rw [hmanifest] at hassembled
    cases hassembled
  | some manifest =>
    rw [hmanifest] at hassembled
    obtain ⟨file, hfile, rfl⟩ := hserves.manifest_replied (hcurrent manifest hmanifest)
    have honly : ∀ index data, chunkStore.toIChunkStore.get (swarmRun setting.digest chunkStore
        stores (events ++ later.take (moments index)) peerId).store file.row.id index =
          some data → data = file.chunk index := by
      intro index data hdata
      obtain ⟨another, hanother, -, rfl⟩ := hstore (events ++ later.take (moments index))
        (later.drop (moments index)) (by simp) _ index data hdata
      rw [hfile.unique hserves hanother]
    obtain ⟨blob, fileHash, verified, fileName⟩ := assembled
    obtain ⟨rfl, hblob, hhash, hverified, hname⟩ := assembleFile_eq_ok honly hassembled
    simp only at hblob hhash hverified hname
    refine ⟨file, hfile, ?_⟩
    obtain rfl : blob = file.content := hblob.trans hfile.flatten_chunks
    rw [hhash, show (file.manifest setting.digest).fileHash = _ from hfile.row.2.2.2] at hverified
    rw [hhash, hverified, hname, decide_eq_true rfl]
    rfl

/-- A class is an honest swarm. -/
theorem ServesClass.accepting (hserves : ServesClass setting db storage inputs)
    (hstores : ∀ peerId, StoreAccepts (IsDistributed setting db storage inputs)
      chunkStore.toIChunkStore (stores peerId))
    (hclass : Along (networkStep (swarmKind setting.digest chunkStore))
      (ActsAllowed (ClassInput setting db storage inputs)) (newSwarm stores) events)
    (peerId : String) :
    Accepting chunkStore.toIChunkStore (IsDistributed setting db storage inputs)
      (RepliesManifest setting db storage inputs)
      ((genuineCustody (distributedChunk setting db storage inputs)).Holds
        (RepliesManifest setting db storage inputs))
      (swarmRun setting.digest chunkStore stores events peerId) := by
  have htruth : IsTrue (distributedChunk setting db storage inputs) =
      IsDistributed setting db storage inputs := by
    ext id chunkIndex data
    exact isTrue_distributedChunk_iff hserves
  rw [← htruth]
  refine accepting_of_honest (htruth ▸ hserves.wired) (htruth ▸ hstores)
    (hclass.mono fun system event hevent ↦ ?_) peerId
  cases event with
  | acts party input => exact hserves.honest party hevent
  | delivers => trivial

/-- In a class, the downloads are those of manifests that the server replied. -/
theorem startsKnown_of_class
    (hclass : Along (networkStep (swarmKind setting.digest chunkStore))
      (ActsAllowed (ClassInput setting db storage inputs)) (newSwarm stores) events) :
    Along (networkStep (swarmKind setting.digest chunkStore))
      (ActsAllowed (StartsKnown (RepliesManifest setting db storage inputs))) (newSwarm stores)
        events := by
  refine hclass.mono fun system event hevent ↦ ?_
  cases event with
  | acts party input =>
    obtain ⟨env, event⟩ := input
    rintro manifest rfl
    exact hevent
  | delivers => trivial

/-- **Students get what was sent.** Whatever happens at the server and in the swarm, in any order,
as long as no frame comes from outside: every student holds and hands on what an instructor sent,
none of its checks fails, and the file that it opens is the one that was sent. -/
theorem class_gets_what_was_sent (hserves : ServesClass setting db storage inputs)
    (hstores : ∀ peerId, StoreAccepts (IsDistributed setting db storage inputs)
      chunkStore.toIChunkStore (stores peerId))
    (hclass : Along (networkStep (swarmKind setting.digest chunkStore))
      (ActsAllowed (ClassInput setting db storage inputs)) (newSwarm stores) (events ++ later)) :
    GetsWhatWasSent setting db storage inputs chunkStore stores events later peerId ∧
      ∀ scheduler ∈ (swarmRun setting.digest chunkStore stores events peerId).schedulers,
        ∀ task ∈ scheduler.tasks, ∀ expected data latencyMs,
          task.stage = .verifying expected data latencyMs →
            (verify setting.digest data expected).valid = true := by
  have hpart : ∀ part rest, events ++ later = part ++ rest →
      Along (networkStep (swarmKind setting.digest chunkStore))
        (ActsAllowed (ClassInput setting db storage inputs)) (newSwarm stores) part := by
    intro part rest hsplit
    rw [hsplit] at hclass
    exact ((along_append _ _ _).mp hclass).1
  have hnow := hpart events later rfl
  have hreached := hserves.accepting hstores hnow peerId
  refine ⟨hserves.gets (fun part rest hsplit ↦
    (hserves.accepting hstores (hpart part rest hsplit) peerId).store) hreached.sent
    (currentManifest_swarmRun (startsKnown_of_class hnow)), ?_⟩
  intro scheduler hscheduler task htask expected data latencyMs hstage
  have hholds := hreached.schedulers scheduler hscheduler
  have hwf := (hreached.grounded.schedulers scheduler hscheduler).wellFormed []
  exact valid_of_genuine hholds (hserves.publishes hholds.known) hwf.tasks_ok htask hstage

/-- **Students cannot be fooled.** Frames may be forged in the name of anyone, and chunks may be
replaced on their way from the server. As long as the manifests are those of the server and nothing
that a student checks in the run is another text with the digest of a chunk that was sent, students
still get what was sent. -/
theorem class_withstands_forgery (hserves : ServesClass setting db storage inputs)
    (hcollides : ∀ data, AwaitsCheck setting.digest chunkStore stores (events ++ later) data →
      ∀ id chunkIndex chunk, IsDistributed setting db storage inputs id chunkIndex chunk →
        setting.digest data = setting.digest chunk → data = chunk)
    (hstores : ∀ peerId, StoreAccepts (IsDistributed setting db storage inputs)
      chunkStore.toIChunkStore (stores peerId))
    (hknown : ∀ peerId env manifest,
      .acts peerId (env, .startDownload manifest) ∈ events ++ later →
        RepliesManifest setting db storage inputs manifest) :
    GetsWhatWasSent setting db storage inputs chunkStore stores events later peerId := by
  have haccepting : ∀ part rest, events ++ later = part ++ rest →
      Accepting chunkStore.toIChunkStore (IsDistributed setting db storage inputs)
        (RepliesManifest setting db storage inputs)
        ((resistantCustody (IsDistributed setting db storage inputs)).Holds
          (RepliesManifest setting db storage inputs))
        (swarmRun setting.digest chunkStore stores part peerId) := by
    intro part rest hsplit
    refine accepting_of_kept (kept_resistant _ setting.digest _) hserves.wired hstores
      (fun _ _ _ _ _ _ _ _ _ _ _ _ _ ↦ trivial)
      (along_of_splits fun before event after hpart ↦ ?_) peerId
    have hmem : event ∈ events ++ later := by
      rw [hsplit, hpart]
      exact List.mem_append_left rest (List.mem_append_right before List.mem_cons_self)
    have hreached : events ++ later = before ++ (event :: after ++ rest) := by
      rw [hsplit, hpart, List.append_assoc]
    refine inputAllowed_of_resists (fun party env manifest heq ↦ ?_) fun party data hawaits ↦ ?_
    · exact hknown party env manifest (heq ▸ hmem)
    · intro id chunkIndex hchecked
      exact hserves.distributed_of_checked (hcollides data ⟨before, _, hreached, party, hawaits⟩)
        hchecked
  have hstarts : Along (networkStep (swarmKind setting.digest chunkStore))
      (ActsAllowed (StartsKnown (RepliesManifest setting db storage inputs))) (newSwarm stores)
        events := by
    refine (along_of_forall (fun _ hmem ↦ hmem) _).mono fun system event hmem ↦ ?_
    cases event with
    | acts party input =>
      obtain ⟨env, event⟩ := input
      rintro manifest rfl
      exact hknown party env manifest (List.mem_append_left later hmem)
    | delivers => trivial
  exact hserves.gets (fun part rest hsplit ↦ (haccepting part rest hsplit).store)
    (haccepting events later rfl).sent (currentManifest_swarmRun hstarts)

end Students

/-! ### Sample run -/

/-- The notes that are uploaded. -/
def notesFile : PublishedFile :=
  ⟨publishedRow notesGateway.toServerSetting "res_07" "session" "notes.pdf" "now" [1, 2, 3],
    [1, 2, 3]⟩

/-- A student downloads the notes from the server and announces them to another one, who requests
them, is served, and stores them. -/
def relayedNotes : List SwarmEvent :=
  [.acts "a" (calmEnv, .peerDiscovered "b"), .acts "a" (calmEnv, .channelOpened "b"),
    .acts "b" (calmEnv, .peerDiscovered "a"), .acts "b" (calmEnv, .channelOpened "a"),
    .acts "a" (calmEnv, .startDownload (notesFile.manifest id)), .acts "a" (calmEnv, .startRead 0),
    .acts "a" (calmEnv, .startResumed 0), .acts "a" (calmEnv, .settled 0 0 (.fetched [1, 2, 3])),
    .acts "a" (calmEnv, .settled 0 0 .verified), .acts "a" (calmEnv, .settled 0 0 .written),
    .acts "a" (calmEnv, .settled 0 0 .putDone),
    .acts "b" (calmEnv, .startDownload (notesFile.manifest id)), .delivers "a" "b" 1 calmEnv,
    .acts "b" (calmEnv, .startRead 0), .acts "b" (calmEnv, .startResumed 0),
    .delivers "b" "a" 1 calmEnv, .acts "a" (calmEnv, .serveRead 0),
    .acts "a" (calmEnv, .serveResumed 0), .delivers "a" "b" 2 calmEnv,
    .acts "b" (calmEnv, .settled 0 0 .verified), .acts "b" (calmEnv, .settled 0 0 .written)]

/-- The server serves the class. -/
theorem servesClass_notesRun : ServesClass notesGateway classroom OrderedMap.empty notesRun where
  empty id := rfl
  drawn := drawsNew_notesRun
  unused := by
    intro before input later hsplit call buffers randomBytes hevent
    have hget : notesRun[before.length]? = some input := by
      rw [hsplit, List.getElem?_append_right le_rfl, Nat.sub_self]
      rfl
    have hplace : before.length = 4 ∧ randomBytes = [7] := by
      have hrange : before.length < 9 := (List.getElem?_eq_some_iff.mp hget).1
      generalize before.length = place at hget hrange ⊢
      interval_cases place
      case «4» =>
        obtain rfl := Option.some.inj hget
        cases hevent
        exact ⟨rfl, rfl⟩
      all_goals
        obtain rfl := Option.some.inj hget
        cases hevent
    obtain ⟨hlength, rfl⟩ := hplace
    refine ⟨by decide, fun part rest hpart ↦ ?_⟩
    have htaken : part = notesRun.take part.length := by
      rw [hsplit, hpart, List.append_assoc, List.take_left]
    have hshort : part.length ≤ 4 := by
      rw [← hlength, hpart, List.length_append]
      exact Nat.le_add_right _ _
    rw [htaken]
    generalize part.length = place at hshort ⊢
    interval_cases place <;> rfl
  limit := by decide

/-- The manifest that the server replies. -/
theorem repliesManifest_notesRun :
    RepliesManifest notesGateway classroom OrderedMap.empty notesRun (notesFile.manifest id) :=
  ⟨some "Bearer Ada", "res_07", notesRun.take 7, 2, notesRun.drop 8, 200, rfl, rfl⟩

/-- The chunk that it replies. -/
theorem repliesChunk_notesRun : ∃ headers,
    Replies notesGateway classroom OrderedMap.empty notesRun
      (.getChunk (some "Bearer Ada") "res_07" (toString 0)) (.chunk headers [1, 2, 3]) :=
  ⟨_, notesRun.take 8, 2, [], 200, rfl, rfl⟩

/-- The other student has the notes. -/
theorem class_gets_what_was_sent_relayedNotes :
    let reached := swarmRun id IndexedDbChunkStore (fun _ ↦ ChunkRecords.empty) relayedNotes "b"
    assembleFile id IndexedDbChunkStore.toIChunkStore reached.currentManifest "res_07"
        (fun _ ↦ reached.store) = .ok (some ⟨[1, 2, 3], "010203", true, "notes.pdf"⟩) ∧
      GetsWhatWasSent notesGateway classroom OrderedMap.empty notesRun IndexedDbChunkStore
        (fun _ ↦ ChunkRecords.empty) relayedNotes [] "b" := by
  have hstores : ∀ peerId : String, StoreAccepts
      (IsDistributed notesGateway classroom OrderedMap.empty notesRun)
        IndexedDbChunkStore.toIChunkStore ((fun _ ↦ ChunkRecords.empty) peerId) := by
    intro peerId resourceId chunkIndex data hget
    cases hget
  refine ⟨by decide +kernel, (class_gets_what_was_sent servesClass_notesRun hstores ?_).1⟩
  refine ⟨trivial, trivial, trivial, trivial, repliesManifest_notesRun, trivial, trivial, ?_,
    trivial, trivial, trivial, repliesManifest_notesRun, trivial, trivial, trivial, trivial,
    trivial, trivial, trivial, trivial, trivial, trivial⟩
  obtain ⟨headers, hreplies⟩ := repliesChunk_notesRun
  change ClassInput notesGateway classroom OrderedMap.empty notesRun "a" _
    (calmEnv, .settled 0 0 (.fetched [1, 2, 3]))
  exact classInput_of_waiting (by decide +kernel) hreplies

/-- A stranger announces the notes and sends other bytes for them. -/
def forgedNotes : List SwarmEvent :=
  [.peerDiscovered "a", .channelOpened "a", .startDownload (notesFile.manifest id),
    .dataMessage "a" [1, 2, 6, 114, 101, 115, 95, 48, 55, 0, 0, 0, 0], .startRead 0,
    .startResumed 0,
    .dataMessage "a" [1, 4, 6, 114, 101, 115, 95, 48, 55, 0, 0, 0, 0, 0, 0, 0, 0, 0, 0, 0, 3, 0, 0,
      0, 3, 8, 8, 8],
    .settled 0 0 .verified, .settled 0 1 (.fetched [1, 2, 3]), .settled 0 1 .verified,
    .settled 0 1 .written].map fun event ↦ .acts "b" (calmEnv, event)

/-- The student checks both and has the notes. -/
theorem class_withstands_forgery_forgedNotes :
    let reached := swarmRun id IndexedDbChunkStore (fun _ ↦ ChunkRecords.empty) forgedNotes "b"
    assembleFile id IndexedDbChunkStore.toIChunkStore reached.currentManifest "res_07"
        (fun _ ↦ reached.store) = .ok (some ⟨[1, 2, 3], "010203", true, "notes.pdf"⟩) ∧
      GetsWhatWasSent notesGateway classroom OrderedMap.empty notesRun IndexedDbChunkStore
        (fun _ ↦ ChunkRecords.empty) forgedNotes [] "b" := by
  have hstores : ∀ peerId : String, StoreAccepts
      (IsDistributed notesGateway classroom OrderedMap.empty notesRun)
        IndexedDbChunkStore.toIChunkStore ((fun _ ↦ ChunkRecords.empty) peerId) := by
    intro peerId resourceId chunkIndex data hget
    cases hget
  refine ⟨by decide +kernel, class_withstands_forgery servesClass_notesRun
    (fun _ _ _ _ _ _ hsame ↦ hsame) hstores fun peerId env manifest hmem ↦ ?_⟩
  simp only [forgedNotes, List.map_cons, List.map_nil, List.append_nil, List.mem_cons,
    List.not_mem_nil, NetworkEvent.acts.injEq, Prod.mk.injEq, CoordinatorEvent.startDownload.injEq,
    reduceCtorEq, and_false, or_false, false_or] at hmem
  rw [hmem.2.2]
  exact repliesManifest_notesRun

end CampusMesh.Web
