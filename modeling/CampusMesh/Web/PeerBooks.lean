import CampusMesh.Web.PeerMeshCoordinator

/-!
# Books on what peers have

What a coordinator knows of its peers, on its own: the bitfield object it has recorded for each
peer, the one it has told the current scheduler, the objects, and what each peer has announced. A
BITFIELD frame makes a new object, which both share when it is about the scheduler's resource; a
HAVE frame marks the recorded object and then, for its resource, the scheduler's.

No two peers share an object, so hearing a peer changes only what is known of this peer (`Touches`).
The books are right (`Informed`) when the recorded object has what the peer announced of the
resource it is about, and the scheduler's has what the peer announced of the scheduler's resource.
-/

set_option autoImplicit false
set_option relaxedAutoImplicit false

namespace CampusMesh.Web

open Library Shared

/-! ### Announcements -/

/-- What is known of a chunk after one more announcement. -/
def learn (resourceId : String) (chunkIndex : ℕ) (known : Bool) : Announcement → Bool
  | .bitfield other bitfield => if other = resourceId then bitfield.has chunkIndex else known
  | .have other otherIndex => known || decide (other = resourceId ∧ otherIndex = chunkIndex)

/-- The chunk was announced: its bit is set in the last BITFIELD for the resource, or a HAVE for it
came later. -/
def announced (resourceId : String) (chunkIndex : ℕ) (announcements : List Announcement) : Bool :=
  announcements.foldl (learn resourceId chunkIndex) false

/-- The resource that a peer speaks of, after one more announcement. -/
def subjectAfter (subject : Option String) : Announcement → Option String
  | .bitfield resourceId _ => some resourceId
  | .have resourceId _ => some (subject.getD resourceId)

/-- The resource of the last BITFIELD, or of the first HAVE if there was none. -/
def subject (announcements : List Announcement) : Option String :=
  announcements.foldl subjectAfter none

theorem announced_append (resourceId : String) (chunkIndex : ℕ) (announcements : List Announcement)
    (announcement : Announcement) :
    announced resourceId chunkIndex (announcements ++ [announcement]) =
      learn resourceId chunkIndex (announced resourceId chunkIndex announcements) announcement := by
  rw [announced, List.foldl_append]
  rfl

theorem subject_append (announcements : List Announcement) (announcement : Announcement) :
    subject (announcements ++ [announcement]) =
      subjectAfter (subject announcements) announcement := by
  rw [subject, List.foldl_append]
  rfl

/-- A BITFIELD says everything about its resource and nothing about others. -/
theorem announced_bitfield (resourceId other : String) (chunkIndex : ℕ)
    (announcements : List Announcement) (bitfield : Bitfield) :
    announced resourceId chunkIndex (announcements ++ [.bitfield other bitfield]) =
      if other = resourceId then bitfield.has chunkIndex
      else announced resourceId chunkIndex announcements :=
  announced_append resourceId chunkIndex announcements _

/-- A HAVE adds one chunk of its resource. -/
theorem announced_have_iff {resourceId other : String} {chunkIndex otherIndex : ℕ}
    {announcements : List Announcement} :
    announced resourceId chunkIndex (announcements ++ [.have other otherIndex]) = true ↔
      announced resourceId chunkIndex announcements = true ∨
        other = resourceId ∧ otherIndex = chunkIndex := by
  rw [announced_append, learn, Bool.or_eq_true, decide_eq_true_eq]

theorem announced_have_of_ne {resourceId other : String} (hne : other ≠ resourceId)
    (chunkIndex otherIndex : ℕ) (announcements : List Announcement) :
    announced resourceId chunkIndex (announcements ++ [.have other otherIndex]) =
      announced resourceId chunkIndex announcements := by
  rw [announced_append, learn, decide_eq_false fun h ↦ hne h.1, Bool.or_false]

/-! ### Objects -/

/-- The object at an address. -/
def heapAt (heap : List Bitfield) (address : ℕ) : Bitfield := heap.getD address (Bitfield.new 0)

/-- The objects after marking a chunk in one of them; a chunk that does not fit changes nothing. -/
def markAt (heap : List Bitfield) (address chunkIndex : ℕ) : List Bitfield :=
  match (heapAt heap address).set chunkIndex with
  | .error _ => heap
  | .ok bitfield => heap.set address bitfield

section Heap

variable {heap : List Bitfield} {address other chunkIndex : ℕ} {bitfield : Bitfield}

theorem heapAt_append (haddress : address < heap.length) :
    heapAt (heap ++ [bitfield]) address = heapAt heap address := by
  rw [heapAt, heapAt, List.getD_eq_getElem?_getD, List.getD_eq_getElem?_getD,
    List.getElem?_append_left haddress]

theorem heapAt_append_self : heapAt (heap ++ [bitfield]) heap.length = bitfield := by
  rw [heapAt, List.getD_eq_getElem?_getD, List.getElem?_append_right le_rfl, Nat.sub_self]
  rfl

theorem heapAt_set_self (haddress : address < heap.length) :
    heapAt (heap.set address bitfield) address = bitfield := by
  rw [heapAt, List.getD_eq_getElem?_getD, List.getElem?_set_self haddress]
  rfl

theorem heapAt_set_of_ne (hne : other ≠ address) :
    heapAt (heap.set address bitfield) other = heapAt heap other := by
  rw [heapAt, heapAt, List.getD_eq_getElem?_getD, List.getD_eq_getElem?_getD,
    List.getElem?_set_ne hne.symm]

theorem length_markAt (heap : List Bitfield) (address chunkIndex : ℕ) :
    (markAt heap address chunkIndex).length = heap.length := by
  unfold markAt
  split
  · rfl
  · exact List.length_set

theorem heapAt_markAt_of_ne (hne : other ≠ address) :
    heapAt (markAt heap address chunkIndex) other = heapAt heap other := by
  unfold markAt
  split
  · rfl
  · exact heapAt_set_of_ne hne

/-- Marking adds the chunk if it fits. -/
theorem has_markAt_iff (haddress : address < heap.length) :
    (heapAt (markAt heap address chunkIndex) address).has other = true ↔
      (heapAt heap address).has other = true ∨
        other = chunkIndex ∧ chunkIndex < (heapAt heap address).totalChunks := by
  unfold markAt
  split
  · next error hset =>
    have hlarge : ¬ chunkIndex < (heapAt heap address).totalChunks := fun hlt ↦ by
      obtain ⟨result, hok⟩ := Bitfield.set_isOk_iff.mpr hlt
      exact absurd (hset.symm.trans hok) (by simp)
    exact ⟨Or.inl, fun h ↦ h.elim id fun h ↦ absurd h.2 hlarge⟩
  · next bitfield hset =>
    have hfits := Bitfield.set_isOk_iff.mp ⟨bitfield, hset⟩
    rw [heapAt_set_self haddress, Bitfield.has_of_set hset, Bool.or_eq_true, decide_eq_true_eq]
    exact ⟨fun h ↦ h.elim (fun heq ↦ Or.inr ⟨heq, hfits⟩) Or.inl,
      fun h ↦ h.elim Or.inr fun h ↦ Or.inl h.1⟩

theorem totalChunks_markAt (heap : List Bitfield) (address chunkIndex other : ℕ) :
    (heapAt (markAt heap address chunkIndex) other).totalChunks =
      (heapAt heap other).totalChunks := by
  by_cases hother : other = address
  · subst hother
    unfold markAt
    split
    · rfl
    · next bitfield hset =>
      by_cases hlt : other < heap.length
      · rw [heapAt_set_self hlt]
        exact Bitfield.totalChunks_of_set hset
      · rw [List.set_eq_of_length_le (not_lt.mp hlt)]
  · rw [heapAt_markAt_of_ne hother]

end Heap

/-! ### The books -/

/-- The books: recorded objects, announcements, and the manifest of the current scheduler with the
objects it was told of. -/
structure PeerBooks where
  recorded : OrderedMap String ℕ
  announcements : OrderedMap String (List Announcement)
  manifest : Option ResourceManifest
  told : OrderedMap String ℕ
  heap : List Bitfield

namespace PeerBooks

/-- What a peer has announced. -/
def ledger (books : PeerBooks) (peerId : String) : List Announcement :=
  (books.announcements.get? peerId).getD []

/-- The scheduler knows that a peer has a chunk. -/
def knows (books : PeerBooks) (peerId : String) (chunkIndex : ℕ) : Bool :=
  match books.told.get? peerId with
  | some address => (heapAt books.heap address).has chunkIndex
  | none => false

/-- The scheduler is for a resource. -/
def isFor (books : PeerBooks) (resourceId : String) : Bool :=
  books.manifest.map ResourceManifest.resourceId = some resourceId

/-- A peer announces something. -/
def announce (peerId : String) (announcement : Announcement) (books : PeerBooks) : PeerBooks :=
  { books with
    announcements := books.announcements.set peerId (books.ledger peerId ++ [announcement]) }

/-- A new object is recorded for a peer. -/
def record (peerId : String) (bitfield : Bitfield) (books : PeerBooks) : PeerBooks :=
  { books with
    heap := books.heap ++ [bitfield]
    recorded := books.recorded.set peerId books.heap.length }

/-- The scheduler is told of an object. -/
def tell (peerId : String) (address : ℕ) (books : PeerBooks) : PeerBooks :=
  { books with told := books.told.set peerId address }

/-- A chunk is marked in an object if it fits. -/
def mark (address chunkIndex : ℕ) (books : PeerBooks) : PeerBooks :=
  { books with heap := markAt books.heap address chunkIndex }

/-- The scheduler's object for a peer, made on first use. -/
def locate (peerId : String) (books : PeerBooks) : PeerBooks × ℕ :=
  match books.told.get? peerId with
  | some address => (books, address)
  | none =>
    ({ books with
        heap := books.heap ++
          [Bitfield.new ((books.manifest.map ResourceManifest.totalChunks).getD 0)]
        told := books.told.set peerId books.heap.length }, books.heap.length)

/-- The scheduler is told of a chunk. -/
def tellHave (peerId : String) (chunkIndex : ℕ) (books : PeerBooks) : PeerBooks :=
  (books.locate peerId).1.mark (books.locate peerId).2 chunkIndex

/-- A peer is forgotten. -/
def forget (peerId : String) (books : PeerBooks) : PeerBooks :=
  { books with
    recorded := books.recorded.delete peerId
    announcements := books.announcements.delete peerId
    told := books.told.delete peerId }

/-- A peer sends a BITFIELD. -/
def hearBitfield (peerId resourceId : String) (bitfield : Bitfield) (books : PeerBooks) :
    PeerBooks :=
  let heard := (books.announce peerId (.bitfield resourceId bitfield)).record peerId bitfield
  if heard.isFor resourceId then heard.tell peerId books.heap.length else heard

/-- A peer sends a HAVE that fits the recorded object at an address. -/
def hearHave (peerId resourceId : String) (chunkIndex address : ℕ) (books : PeerBooks) :
    PeerBooks :=
  let heard := (books.announce peerId (.have resourceId chunkIndex)).mark address chunkIndex
  if heard.isFor resourceId then heard.tellHave peerId chunkIndex else heard

/-! ### What hearing a peer leaves alone -/

/-- The object at an address is recorded for a peer or told of it. -/
def Holds (books : PeerBooks) (peerId : String) (address : ℕ) : Prop :=
  books.recorded.get? peerId = some address ∨ books.told.get? peerId = some address

/-- Only what is known of one peer changes: its entries, the objects it holds, and new ones. -/
structure Touches (peerId : String) (books next : PeerBooks) : Prop where
  recorded : ∀ other ≠ peerId, next.recorded.get? other = books.recorded.get? other
  told : ∀ other ≠ peerId, next.told.get? other = books.told.get? other
  ledger : ∀ other ≠ peerId, next.ledger other = books.ledger other
  manifest : next.manifest = books.manifest
  length : books.heap.length ≤ next.heap.length
  heap : ∀ address < books.heap.length, ¬ books.Holds peerId address →
    heapAt next.heap address = heapAt books.heap address
  holds : ∀ address, next.Holds peerId address →
    books.Holds peerId address ∨ books.heap.length ≤ address ∧ address < next.heap.length

section Touches

variable {peerId : String} {books next last : PeerBooks}

theorem Touches.refl (peerId : String) (books : PeerBooks) : Touches peerId books books :=
  ⟨fun _ _ ↦ rfl, fun _ _ ↦ rfl, fun _ _ ↦ rfl, rfl, le_rfl, fun _ _ _ ↦ rfl, fun _ ↦ Or.inl⟩

theorem Touches.trans (hfirst : Touches peerId books next) (hsecond : Touches peerId next last) :
    Touches peerId books last where
  recorded other hne := (hsecond.recorded other hne).trans (hfirst.recorded other hne)
  told other hne := (hsecond.told other hne).trans (hfirst.told other hne)
  ledger other hne := (hsecond.ledger other hne).trans (hfirst.ledger other hne)
  manifest := hsecond.manifest.trans hfirst.manifest
  length := hfirst.length.trans hsecond.length
  heap address hlt hfree := by
    refine (hsecond.heap address (hlt.trans_le hfirst.length) fun hholds ↦ ?_).trans
      (hfirst.heap address hlt hfree)
    rcases hfirst.holds address hholds with hold | ⟨hnew, _⟩
    · exact hfree hold
    · exact absurd hlt (not_lt.mpr hnew)
  holds address hholds := by
    have hlength := hsecond.length
    have hgrown := hfirst.length
    rcases hsecond.holds address hholds with hmiddle | ⟨hnew, hbound⟩
    · exact (hfirst.holds address hmiddle).imp id fun ⟨hfresh, hlt⟩ ↦ ⟨hfresh, hlt.trans_le hlength⟩
    · exact Or.inr ⟨hgrown.trans hnew, hbound⟩

theorem touches_announce (peerId : String) (announcement : Announcement) (books : PeerBooks) :
    Touches peerId books (books.announce peerId announcement) := by
  refine ⟨fun _ _ ↦ rfl, fun _ _ ↦ rfl, fun other hne ↦ ?_, rfl, le_rfl, fun _ _ _ ↦ rfl,
    fun _ ↦ Or.inl⟩
  rw [PeerBooks.ledger, announce, OrderedMap.get?_set_of_ne _ hne]
  rfl

theorem ledger_announce (peerId : String) (announcement : Announcement) (books : PeerBooks) :
    (books.announce peerId announcement).ledger peerId = books.ledger peerId ++ [announcement] := by
  rw [PeerBooks.ledger, announce, OrderedMap.get?_set_self]
  rfl

theorem touches_record (peerId : String) (bitfield : Bitfield) (books : PeerBooks) :
    Touches peerId books (books.record peerId bitfield) := by
  have hlength : (books.record peerId bitfield).heap.length = books.heap.length + 1 := by
    rw [record, List.length_append]
    rfl
  refine ⟨fun other hne ↦ OrderedMap.get?_set_of_ne _ hne _, fun _ _ ↦ rfl, fun _ _ ↦ rfl, rfl,
    by omega, fun address hlt _ ↦ heapAt_append hlt, fun address hholds ↦ ?_⟩
  rcases hholds with hrecorded | htold
  · rw [record, OrderedMap.get?_set_self, Option.some.injEq] at hrecorded
    subst hrecorded
    exact Or.inr ⟨le_rfl, by omega⟩
  · exact Or.inl (Or.inr htold)

/-- Telling the scheduler of an object the peer holds. -/
theorem touches_tell {address : ℕ} (hholds : books.Holds peerId address) :
    Touches peerId books (books.tell peerId address) := by
  refine ⟨fun _ _ ↦ rfl, fun other hne ↦ OrderedMap.get?_set_of_ne _ hne _, fun _ _ ↦ rfl, rfl,
    le_rfl, fun _ _ _ ↦ rfl, fun other hother ↦ ?_⟩
  rcases hother with hrecorded | htold
  · exact Or.inl (Or.inl hrecorded)
  · rw [tell, OrderedMap.get?_set_self, Option.some.injEq] at htold
    exact Or.inl (htold ▸ hholds)

/-- Marking a chunk in an object the peer holds. -/
theorem touches_mark {address : ℕ} (hholds : books.Holds peerId address) (chunkIndex : ℕ) :
    Touches peerId books (books.mark address chunkIndex) :=
  ⟨fun _ _ ↦ rfl, fun _ _ ↦ rfl, fun _ _ ↦ rfl, rfl, (length_markAt _ _ _).ge,
    fun _ _ hfree ↦ heapAt_markAt_of_ne fun heq ↦ hfree (heq ▸ hholds), fun _ ↦ Or.inl⟩

/-- The object that `locate` finds is told of the peer. -/
theorem locate_spec (peerId : String) (books : PeerBooks) :
    (books.locate peerId).1.told.get? peerId = some (books.locate peerId).2 ∧
      Touches peerId books (books.locate peerId).1 := by
  unfold locate
  split
  · next address htold => exact ⟨htold, Touches.refl peerId books⟩
  · refine ⟨OrderedMap.get?_set_self _ _ _, fun _ _ ↦ rfl,
      fun other hne ↦ OrderedMap.get?_set_of_ne _ hne _, fun _ _ ↦ rfl, rfl, ?_,
      fun address hlt _ ↦ heapAt_append hlt, fun address hholds ↦ ?_⟩
    · rw [List.length_append]
      exact Nat.le_add_right _ _
    · rcases hholds with hrecorded | htold
      · exact Or.inl (Or.inl hrecorded)
      · rw [OrderedMap.get?_set_self, Option.some.injEq] at htold
        subst htold
        exact Or.inr ⟨le_rfl, by rw [List.length_append]; exact Nat.lt_succ_self _⟩

theorem touches_tellHave (peerId : String) (chunkIndex : ℕ) (books : PeerBooks) :
    Touches peerId books (books.tellHave peerId chunkIndex) := by
  obtain ⟨htold, htouches⟩ := locate_spec peerId books
  exact htouches.trans (touches_mark (Or.inr htold) chunkIndex)

theorem touches_forget (peerId : String) (books : PeerBooks) :
    Touches peerId books (books.forget peerId) := by
  refine ⟨fun other hne ↦ OrderedMap.get?_delete_of_ne _ hne,
    fun other hne ↦ OrderedMap.get?_delete_of_ne _ hne, fun other hne ↦ ?_, rfl, le_rfl,
    fun _ _ _ ↦ rfl, fun address hholds ↦ ?_⟩
  · rw [PeerBooks.ledger, forget, OrderedMap.get?_delete_of_ne _ hne]
    rfl
  · simp [Holds, forget, OrderedMap.get?_delete_self] at hholds

end Touches

/-! ### Books that are right -/

/-- What is right about one peer: its recorded object has what it announced of the resource it
speaks of, and the scheduler knows what it announced of the scheduler's resource. While it speaks of
that resource, the scheduler's object is the recorded one or has room for every chunk. -/
structure InformedPeer (books : PeerBooks) (peerId : String) : Prop where
  unheard : books.recorded.get? peerId = none →
    books.ledger peerId = [] ∧ books.told.get? peerId = none
  recorded : ∀ address, books.recorded.get? peerId = some address →
    ∃ resourceId, subject (books.ledger peerId) = some resourceId ∧
      ∀ chunkIndex, (heapAt books.heap address).has chunkIndex =
        announced resourceId chunkIndex (books.ledger peerId)
  knowledge : ∀ manifest, books.manifest = some manifest →
    ∀ chunkIndex < manifest.totalChunks, books.knows peerId chunkIndex =
      announced manifest.resourceId chunkIndex (books.ledger peerId)
  shared : ∀ manifest address, books.manifest = some manifest →
    books.recorded.get? peerId = some address → books.told.get? peerId = some address →
      subject (books.ledger peerId) = some manifest.resourceId
  synced : ∀ manifest address, books.manifest = some manifest →
    books.told.get? peerId = some address →
      subject (books.ledger peerId) = some manifest.resourceId →
        books.recorded.get? peerId = some address ∨
          manifest.totalChunks ≤ (heapAt books.heap address).totalChunks

/-- The books are right about every peer, and no two peers share an object. -/
structure Informed (books : PeerBooks) : Prop where
  allocated : ∀ peerId address, books.Holds peerId address → address < books.heap.length
  owned : ∀ peerId other address, books.Holds peerId address → books.Holds other address →
    peerId = other
  peers : ∀ peerId, books.InformedPeer peerId

section Informed

variable {peerId resourceId : String} {books next : PeerBooks}

/-- Books that are right about one peer stay so when only another is touched. -/
theorem Touches.holds_other (htouches : Touches peerId books next) {other : String}
    (hne : other ≠ peerId) (address : ℕ) :
    next.Holds other address ↔ books.Holds other address := by
  rw [Holds, Holds, htouches.recorded other hne, htouches.told other hne]

theorem InformedPeer.touches (hinv : books.Informed) (htouches : Touches peerId books next)
    {other : String} (hne : other ≠ peerId) : next.InformedPeer other := by
  have hsame : ∀ address, books.Holds other address →
      heapAt next.heap address = heapAt books.heap address := fun address hholds ↦
    htouches.heap address (hinv.allocated other address hholds) fun hpeer ↦
      hne (hinv.owned other peerId address hholds hpeer)
  have hpeer := hinv.peers other
  refine ⟨?_, fun address hrecorded ↦ ?_, fun manifest hmanifest chunkIndex hrange ↦ ?_,
    fun manifest address hmanifest ↦ ?_, fun manifest address hmanifest htold ↦ ?_⟩
  · rw [htouches.recorded other hne, htouches.told other hne, htouches.ledger other hne]
    exact hpeer.unheard
  · rw [htouches.recorded other hne] at hrecorded
    rw [htouches.ledger other hne, hsame address (Or.inl hrecorded)]
    exact hpeer.recorded address hrecorded
  · rw [htouches.manifest] at hmanifest
    rw [htouches.ledger other hne, ← hpeer.knowledge manifest hmanifest chunkIndex hrange, knows,
      knows, htouches.told other hne]
    cases htold : books.told.get? other with
    | none => rfl
    | some address => exact congrArg (Bitfield.has · chunkIndex) (hsame address (Or.inr htold))
  · rw [htouches.manifest] at hmanifest
    rw [htouches.recorded other hne, htouches.told other hne, htouches.ledger other hne]
    exact hpeer.shared manifest address hmanifest
  · rw [htouches.manifest] at hmanifest
    rw [htouches.told other hne] at htold
    rw [htouches.recorded other hne, htouches.ledger other hne, hsame address (Or.inr htold)]
    exact hpeer.synced manifest address hmanifest htold

/-- The books are right again once they are right about the peer that was touched. -/
theorem Informed.touches (hinv : books.Informed) (htouches : Touches peerId books next)
    (hpeer : next.InformedPeer peerId) : next.Informed where
  allocated other address hholds := by
    by_cases hother : other = peerId
    · subst hother
      rcases htouches.holds address hholds with hold | ⟨_, hlt⟩
      · exact (hinv.allocated other address hold).trans_le htouches.length
      · exact hlt
    · rw [htouches.holds_other hother] at hholds
      exact (hinv.allocated other address hholds).trans_le htouches.length
  owned first second address hfirst hsecond := by
    have hmixed : ∀ other ≠ peerId, next.Holds other address → next.Holds peerId address →
      False := by
      intro other hne hother hheld
      rw [htouches.holds_other hne] at hother
      rcases htouches.holds address hheld with hold | ⟨hfresh, _⟩
      · exact hne (hinv.owned other peerId address hother hold)
      · exact absurd (hinv.allocated other address hother) (not_lt.mpr hfresh)
    by_cases hone : first = peerId
    · by_cases htwo : second = peerId
      · rw [hone, htwo]
      · exact (hmixed second htwo hsecond (hone ▸ hfirst)).elim
    · by_cases htwo : second = peerId
      · exact (hmixed first hone hfirst (htwo ▸ hsecond)).elim
      · rw [htouches.holds_other hone] at hfirst
        rw [htouches.holds_other htwo] at hsecond
        exact hinv.owned first second address hfirst hsecond
  peers other := by
    by_cases hother : other = peerId
    · rw [hother]
      exact hpeer
    · exact InformedPeer.touches hinv htouches hother

/-- A peer that is forgotten has announced nothing. -/
theorem Informed.forget (hinv : books.Informed) (peerId : String) :
    (books.forget peerId).Informed := by
  have hrecorded : (books.forget peerId).recorded.get? peerId = none :=
    OrderedMap.get?_delete_self _ _
  have htold : (books.forget peerId).told.get? peerId = none := OrderedMap.get?_delete_self _ _
  have hledger : (books.forget peerId).ledger peerId = [] := by
    rw [PeerBooks.ledger, PeerBooks.forget, OrderedMap.get?_delete_self]
    rfl
  refine hinv.touches (touches_forget peerId books) ⟨fun _ ↦ ⟨hledger, htold⟩, ?_, ?_, ?_, ?_⟩
  · simp [hrecorded]
  · simp [knows, htold, hledger, announced]
  · simp [hrecorded]
  · simp [htold]

end Informed

/-! ### Hearing a BITFIELD -/

section Bitfield

variable {peerId resourceId : String} {books : PeerBooks}

theorem isFor_iff : books.isFor resourceId = true ↔
    ∃ manifest, books.manifest = some manifest ∧ manifest.resourceId = resourceId := by
  rw [isFor, decide_eq_true_eq, Option.map_eq_some_iff]

theorem touches_hearBitfield (peerId resourceId : String) (bitfield : Bitfield)
    (books : PeerBooks) :
    Touches peerId books (books.hearBitfield peerId resourceId bitfield) := by
  have hrecorded := (touches_announce peerId (.bitfield resourceId bitfield) books).trans
    (touches_record peerId bitfield _)
  unfold hearBitfield
  simp only
  split_ifs
  · exact hrecorded.trans (touches_tell (Or.inl (OrderedMap.get?_set_self _ _ _)))
  · exact hrecorded

/-- After a BITFIELD the books are right: the new object is the recorded one, and the scheduler's if
the frame is about its resource. -/
theorem Informed.hearBitfield (hinv : books.Informed) (peerId resourceId : String)
    (bitfield : Bitfield) : (books.hearBitfield peerId resourceId bitfield).Informed := by
  refine hinv.touches (touches_hearBitfield peerId resourceId bitfield books) ?_
  have hpeer := hinv.peers peerId
  have hself : heapAt (books.heap ++ [bitfield]) books.heap.length = bitfield := heapAt_append_self
  have hnew : ∀ heard : PeerBooks, heard.heap = books.heap ++ [bitfield] →
      heard.recorded = books.recorded.set peerId books.heap.length →
      heard.ledger peerId = books.ledger peerId ++ [.bitfield resourceId bitfield] →
      heard.manifest = books.manifest →
      (∀ manifest, books.manifest = some manifest →
        (manifest.resourceId = resourceId ∧
            heard.told.get? peerId = some books.heap.length) ∨
          (manifest.resourceId ≠ resourceId ∧
            heard.told.get? peerId = books.told.get? peerId)) → heard.InformedPeer peerId := by
    intro heard hheap hrecorded hledger hmanifest htold
    have hget : heard.recorded.get? peerId = some books.heap.length := by
      rw [hrecorded, OrderedMap.get?_set_self]
    have hsubject : subject (heard.ledger peerId) = some resourceId := by
      rw [hledger, subject_append]
      rfl
    refine ⟨fun h ↦ absurd (hget.symm.trans h) (by simp), fun address haddress ↦ ?_,
      fun manifest hof chunkIndex hrange ↦ ?_, fun manifest address hof haddress hshared ↦ ?_,
      fun manifest address hof haddress hspeaks ↦ ?_⟩
    · rw [hget, Option.some.injEq] at haddress
      refine ⟨resourceId, hsubject, fun chunkIndex ↦ ?_⟩
      rw [← haddress, hheap, hself, hledger, announced_bitfield, if_pos rfl]
    · rw [hmanifest] at hof
      rw [hledger, announced_bitfield, knows]
      rcases htold manifest hof with ⟨hsame, hfresh⟩ | ⟨hother, hkept⟩
      · rw [hfresh, hheap, if_pos hsame.symm]
        exact congrArg (Bitfield.has · chunkIndex) hself
      · rw [hkept, if_neg (Ne.symm hother), ← hpeer.knowledge manifest hof chunkIndex hrange, knows]
        cases hget : books.told.get? peerId with
        | none => rfl
        | some address =>
          have hlt := hinv.allocated peerId address (Or.inr hget)
          rw [hheap]
          exact congrArg (Bitfield.has · chunkIndex) (heapAt_append hlt)
    · rw [hmanifest] at hof
      rcases htold manifest hof with ⟨hsame, _⟩ | ⟨_, hkept⟩
      · rw [hsubject, hsame]
      · rw [hget, Option.some.injEq] at haddress
        rw [hkept, ← haddress] at hshared
        exact absurd (hinv.allocated peerId _ (Or.inr hshared)) (lt_irrefl _)
    · rw [hmanifest] at hof
      rcases htold manifest hof with ⟨_, hfresh⟩ | ⟨hother, _⟩
      · exact Or.inl (hget.trans (hfresh.symm.trans haddress))
      · rw [hsubject] at hspeaks
        exact absurd (Option.some.inj hspeaks).symm hother
  unfold PeerBooks.hearBitfield
  simp only
  split_ifs with hfor
  · obtain ⟨manifest, hmanifest, hsame⟩ := isFor_iff.mp hfor
    refine hnew _ rfl rfl (ledger_announce peerId _ books) rfl fun other hother ↦ Or.inl ⟨?_, ?_⟩
    · rw [← Option.some.inj (hmanifest.symm.trans hother)]
      exact hsame
    · exact OrderedMap.get?_set_self _ _ _
  · refine hnew _ rfl rfl (ledger_announce peerId _ books) rfl fun other hother ↦
      Or.inr ⟨fun heq ↦ hfor (isFor_iff.mpr ⟨other, hother, heq⟩), rfl⟩

end Bitfield

/-! ### Hearing a HAVE -/

section Have

variable {peerId resourceId : String} {books : PeerBooks} {address chunkIndex : ℕ}

/-- What telling the scheduler of a chunk does: its object for the peer, made for the manifest if
there was none, has the chunk if it fits. -/
structure ToldHave (peerId : String) (chunkIndex address : ℕ) (current : ResourceManifest)
    (books next : PeerBooks) : Prop where
  told : next.told.get? peerId = some address
  recorded : next.recorded = books.recorded
  announcements : next.announcements = books.announcements
  manifest : next.manifest = books.manifest
  found : books.told.get? peerId = some address ∨
    books.told.get? peerId = none ∧ address = books.heap.length ∧
      (heapAt next.heap address).totalChunks = current.totalChunks
  has_iff : ∀ other, (heapAt next.heap address).has other = true ↔
    books.knows peerId other = true ∨
      other = chunkIndex ∧ chunkIndex < (heapAt next.heap address).totalChunks
  totalChunks : ∀ other < books.heap.length,
    (heapAt next.heap other).totalChunks = (heapAt books.heap other).totalChunks
  heap : ∀ other < books.heap.length, other ≠ address →
    heapAt next.heap other = heapAt books.heap other

theorem toldHave (hallocated : ∀ address, books.told.get? peerId = some address →
      address < books.heap.length) {manifest : ResourceManifest}
    (hmanifest : books.manifest = some manifest) (chunkIndex : ℕ) :
    ∃ address, ToldHave peerId chunkIndex address manifest books
      (books.tellHave peerId chunkIndex) := by
  cases htold : books.told.get? peerId with
  | some address =>
    have hlocate : books.locate peerId = (books, address) := by
      rw [locate, htold]
    have hlt := hallocated address htold
    rw [tellHave, hlocate]
    refine ⟨address, htold, rfl, rfl, rfl, Or.inl htold, fun other ↦ ?_,
      fun other _ ↦ totalChunks_markAt books.heap address chunkIndex other,
      fun other _ ↦ heapAt_markAt_of_ne⟩
    rw [mark, totalChunks_markAt, has_markAt_iff hlt, knows, htold]
  | none =>
    generalize hfresh : { books with
      heap := books.heap ++ [Bitfield.new manifest.totalChunks]
      told := books.told.set peerId books.heap.length } = fresh
    have hsize : (books.manifest.map ResourceManifest.totalChunks).getD 0 =
        manifest.totalChunks := by
      rw [hmanifest]
      rfl
    have hlocate : books.locate peerId = (fresh, books.heap.length) := by
      simp only [locate, htold, hsize, hfresh]
    have hlt : books.heap.length < fresh.heap.length := by
      rw [← hfresh, List.length_append]
      exact Nat.lt_succ_self _
    have hnew : heapAt fresh.heap books.heap.length = Bitfield.new manifest.totalChunks := by
      rw [← hfresh]
      exact heapAt_append_self
    have hold : ∀ other < books.heap.length, heapAt fresh.heap other = heapAt books.heap other := by
      intro other hother
      rw [← hfresh]
      exact heapAt_append hother
    rw [tellHave, hlocate, mark]
    refine ⟨books.heap.length, ?_, ?_, ?_, ?_, Or.inr ⟨htold, rfl, ?_⟩, fun other ↦ ?_,
      fun other hother ↦ ?_,
      fun other hother hne ↦ (heapAt_markAt_of_ne hne).trans (hold other hother)⟩
    · rw [← hfresh, OrderedMap.get?_set_self]
    · rw [← hfresh]
    · rw [← hfresh]
    · rw [← hfresh]
    · rw [totalChunks_markAt, hnew, Bitfield.totalChunks_new]
    · rw [totalChunks_markAt, has_markAt_iff hlt, hnew, Bitfield.has_new, knows, htold]
    · rw [totalChunks_markAt, hold other hother]

/-- What a HAVE needs to be understood: the peer speaks of its resource, or of none yet, its chunk
fits the recorded object, and the books are right about the peer. -/
structure Understood (books : PeerBooks) (peerId resourceId : String) (chunkIndex address : ℕ) :
    Prop where
  recorded : books.recorded.get? peerId = some address
  allocated : ∀ other, books.Holds peerId other → other < books.heap.length
  subject : ∀ other, subject (books.ledger peerId) = some other → other = resourceId
  fits : chunkIndex < (heapAt books.heap address).totalChunks
  announced : ∀ index, (heapAt books.heap address).has index =
    announced resourceId index (books.ledger peerId)
  knowledge : ∀ manifest, books.manifest = some manifest →
    ∀ index < manifest.totalChunks, books.knows peerId index =
      Web.announced manifest.resourceId index (books.ledger peerId)
  shared : ∀ manifest, books.manifest = some manifest →
    books.told.get? peerId = some address → manifest.resourceId = resourceId
  synced : ∀ manifest other, books.manifest = some manifest →
    books.told.get? peerId = some other → manifest.resourceId = resourceId →
      other = address ∨ manifest.totalChunks ≤ (heapAt books.heap other).totalChunks

/-- The books between marking the recorded object and telling the scheduler. -/
structure MarkedHave (books marked : PeerBooks) (peerId resourceId : String)
    (chunkIndex address : ℕ) : Prop where
  recorded : marked.recorded.get? peerId = some address
  told : marked.told = books.told
  manifest : marked.manifest = books.manifest
  ledger : marked.ledger peerId = books.ledger peerId ++ [.have resourceId chunkIndex]
  speaks : Web.subject (marked.ledger peerId) = some resourceId
  length : marked.heap.length = books.heap.length
  has_iff : ∀ index, (heapAt marked.heap address).has index =
    Web.announced resourceId index (marked.ledger peerId)
  heap : ∀ other ≠ address, heapAt marked.heap other = heapAt books.heap other
  totalChunks : ∀ other,
    (heapAt marked.heap other).totalChunks = (heapAt books.heap other).totalChunks

/-- The recorded object after a HAVE that was understood has what was announced. -/
theorem Understood.markedHave
    (hunderstood : books.Understood peerId resourceId chunkIndex address) :
    MarkedHave books ((books.announce peerId (.have resourceId chunkIndex)).mark address chunkIndex)
      peerId resourceId chunkIndex address := by
  have hspeaks : Web.subject (books.ledger peerId ++ [.have resourceId chunkIndex]) =
      some resourceId := by
    rw [subject_append, subjectAfter]
    cases hsubject : Web.subject (books.ledger peerId) with
    | none => rfl
    | some other => exact congrArg some (hunderstood.subject other hsubject)
  have hledger := ledger_announce peerId (.have resourceId chunkIndex) books
  have hget := hunderstood.recorded
  have hlt := hunderstood.allocated address (Or.inl hget)
  generalize hheard : books.announce peerId (.have resourceId chunkIndex) = heard at hledger ⊢
  have hheap : heard.heap = books.heap := hheard ▸ rfl
  have hsame : (heard.mark address chunkIndex).ledger peerId =
      books.ledger peerId ++ [.have resourceId chunkIndex] := hledger
  refine ⟨?_, ?_, ?_, hsame, hsame ▸ hspeaks, ?_,
    fun index ↦ ?_, fun other hne ↦ ?_, fun other ↦ ?_⟩
  · rw [← hheard]
    exact hget
  · rw [← hheard]
    rfl
  · rw [← hheard]
    rfl
  · rw [mark, length_markAt, hheap]
  · rw [hsame, Bool.eq_iff_iff, announced_have_iff, mark, has_markAt_iff (hheap ▸ hlt), hheap,
      hunderstood.announced index]
    exact or_congr_right ⟨fun h ↦ ⟨rfl, h.1.symm⟩, fun h ↦ ⟨h.2.symm, hunderstood.fits⟩⟩
  · rw [mark, heapAt_markAt_of_ne hne, hheap]
  · rw [mark, totalChunks_markAt, hheap]

/-- A HAVE for another resource than the scheduler's leaves the scheduler's object alone. -/
theorem Understood.informedPeer_foreign
    (hunderstood : books.Understood peerId resourceId chunkIndex address) {marked : PeerBooks}
    (hmarked : MarkedHave books marked peerId resourceId chunkIndex address)
    (hforeign : ∀ manifest, books.manifest = some manifest → manifest.resourceId ≠ resourceId) :
    marked.InformedPeer peerId := by
  have hget := hmarked.recorded
  refine ⟨fun h ↦ absurd (hget.symm.trans h) (by simp), fun found hfound ↦ ?_,
    fun manifest hof index hrange ↦ ?_, fun manifest found hof hfound hshared ↦ ?_,
    fun manifest found hof hfound hsubject ↦ ?_⟩
  · rw [← Option.some.inj (hget.symm.trans hfound)]
    exact ⟨resourceId, hmarked.speaks, hmarked.has_iff⟩
  · rw [hmarked.manifest] at hof
    have hne := (hforeign manifest hof).symm
    rw [hmarked.ledger, announced_have_of_ne hne, ← hunderstood.knowledge manifest hof index hrange,
      knows, knows, hmarked.told]
    cases htold : books.told.get? peerId with
    | none => rfl
    | some other =>
      have hseparate : other ≠ address := fun heq ↦
        hforeign manifest hof (hunderstood.shared manifest hof (heq ▸ htold))
      exact congrArg (Bitfield.has · index) (hmarked.heap other hseparate)
  · rw [hmarked.manifest] at hof
    rw [← Option.some.inj (hget.symm.trans hfound), hmarked.told] at hshared
    exact absurd (hunderstood.shared manifest hof hshared) (hforeign manifest hof)
  · rw [hmarked.manifest] at hof
    exact absurd (Option.some.inj (hmarked.speaks.symm.trans hsubject)).symm (hforeign manifest hof)

/-- Either the scheduler has the recorded object, or its own has room and is as it was. -/
theorem Understood.object_cases
    (hunderstood : books.Understood peerId resourceId chunkIndex address) {marked : PeerBooks}
    (hmarked : MarkedHave books marked peerId resourceId chunkIndex address)
    {manifest : ResourceManifest} (hof : books.manifest = some manifest)
    (hown : manifest.resourceId = resourceId) {found : ℕ} {next : PeerBooks}
    (htell : ToldHave peerId chunkIndex found manifest marked next) :
    (found = address ∧ ∀ index, marked.knows peerId index =
        Web.announced resourceId index (marked.ledger peerId)) ∨
      (found ≠ address ∧ manifest.totalChunks ≤ (heapAt next.heap found).totalChunks ∧
        ∀ index, marked.knows peerId index = books.knows peerId index) := by
  rcases htell.found with htold | ⟨hnone, hfresh, hsize⟩
  · have hbefore : books.told.get? peerId = some found := hmarked.told ▸ htold
    by_cases hsame : found = address
    · subst hsame
      refine Or.inl ⟨rfl, fun index ↦ ?_⟩
      rw [knows, htold]
      exact hmarked.has_iff index
    · have hroom := (hunderstood.synced manifest found hof hbefore hown).resolve_left hsame
      have hlt : found < marked.heap.length := by
        rw [hmarked.length]
        exact hunderstood.allocated found (Or.inr hbefore)
      refine Or.inr ⟨hsame, ?_, fun index ↦ ?_⟩
      · rw [htell.totalChunks found hlt, hmarked.totalChunks found]
        exact hroom
      · rw [knows, knows, htold, hbefore]
        exact congrArg (Bitfield.has · index) (hmarked.heap found hsame)
  · refine Or.inr ⟨fun heq ↦ ?_, hsize.ge, fun index ↦ ?_⟩
    · have hlt := hunderstood.allocated address (Or.inl hunderstood.recorded)
      rw [← hmarked.length, ← heq, hfresh] at hlt
      exact lt_irrefl _ hlt
    · have hbefore : books.told.get? peerId = none := hmarked.told ▸ hnone
      rw [knows, knows, hnone, hbefore]

/-- What the scheduler's object has in the range of the manifest is what was announced. -/
theorem Understood.has_inRange
    (hunderstood : books.Understood peerId resourceId chunkIndex address) {marked : PeerBooks}
    (hmarked : MarkedHave books marked peerId resourceId chunkIndex address)
    {manifest : ResourceManifest} (hof : books.manifest = some manifest)
    (hown : manifest.resourceId = resourceId) {found : ℕ} {next : PeerBooks}
    (htell : ToldHave peerId chunkIndex found manifest marked next) {index : ℕ}
    (hrange : found = address ∨ index < manifest.totalChunks) :
    (heapAt next.heap found).has index =
      Web.announced resourceId index (marked.ledger peerId) := by
  have hchunk : Web.announced resourceId chunkIndex (marked.ledger peerId) = true := by
    rw [hmarked.ledger, announced_have_iff]
    exact Or.inr ⟨rfl, rfl⟩
  rw [Bool.eq_iff_iff, htell.has_iff index]
  rcases hunderstood.object_cases hmarked hof hown htell with
    ⟨hsame, hknows⟩ | ⟨hother, hroom, hknows⟩
  · rw [hknows]
    exact ⟨fun h ↦ h.elim id fun h ↦ h.1 ▸ hchunk, Or.inl⟩
  · have hindex := hrange.resolve_left hother
    rw [hknows, hmarked.ledger, announced_have_iff,
      hunderstood.knowledge manifest hof index hindex, hown]
    refine or_congr_right ⟨fun h ↦ ⟨rfl, h.1.symm⟩, fun h ↦ ⟨h.2.symm, ?_⟩⟩
    rw [h.2]
    exact hindex.trans_le hroom

/-- A HAVE for the scheduler's resource. -/
theorem Understood.informedPeer_own
    (hunderstood : books.Understood peerId resourceId chunkIndex address) {marked : PeerBooks}
    (hmarked : MarkedHave books marked peerId resourceId chunkIndex address)
    {manifest : ResourceManifest} (hof : books.manifest = some manifest)
    (hown : manifest.resourceId = resourceId) :
    (marked.tellHave peerId chunkIndex).InformedPeer peerId := by
  have hallocated : ∀ other, marked.told.get? peerId = some other → other < marked.heap.length := by
    intro other hother
    rw [hmarked.length]
    exact hunderstood.allocated other (Or.inr (hmarked.told ▸ hother))
  obtain ⟨found, htell⟩ := toldHave hallocated (hmarked.manifest.trans hof) chunkIndex
  generalize marked.tellHave peerId chunkIndex = next at htell ⊢
  have hget : next.recorded.get? peerId = some address := htell.recorded ▸ hmarked.recorded
  have hledger : next.ledger peerId = marked.ledger peerId := by
    rw [PeerBooks.ledger, htell.announcements]
    rfl
  have hlt : address < marked.heap.length := by
    rw [hmarked.length]
    exact hunderstood.allocated address (Or.inl hunderstood.recorded)
  have hsole : ∀ other, next.manifest = some other → other = manifest := fun other hother ↦
    Option.some.inj (hother.symm.trans (htell.manifest.trans (hmarked.manifest.trans hof)))
  have hspeaks : Web.subject (next.ledger peerId) = some resourceId := hledger ▸ hmarked.speaks
  refine ⟨fun h ↦ absurd (hget.symm.trans h) (by simp), fun other hother ↦ ?_,
    fun other hother index hrange ↦ ?_, fun other _ hother _ _ ↦ ?_,
    fun other shared hother hshared _ ↦ ?_⟩
  · rw [← Option.some.inj (hget.symm.trans hother)]
    refine ⟨resourceId, hspeaks, fun index ↦ ?_⟩
    rw [hledger]
    by_cases hsame : found = address
    · rw [← hsame]
      exact hunderstood.has_inRange hmarked hof hown htell (Or.inl hsame)
    · rw [htell.heap address hlt (Ne.symm hsame)]
      exact hmarked.has_iff index
  · rw [hsole other hother] at hrange ⊢
    rw [knows, htell.told, hown, hledger]
    exact hunderstood.has_inRange hmarked hof hown htell (Or.inr hrange)
  · rw [hsole other hother, hown]
    exact hspeaks
  · rw [← Option.some.inj (htell.told.symm.trans hshared), hsole other hother]
    rcases hunderstood.object_cases hmarked hof hown htell with ⟨hsame, -⟩ | ⟨-, hroom, -⟩
    · exact Or.inl (hsame ▸ hget)
    · exact Or.inr hroom

/-- The books are right about a peer whose HAVE was understood. -/
theorem Understood.informedPeer
    (hunderstood : books.Understood peerId resourceId chunkIndex address) :
    (books.hearHave peerId resourceId chunkIndex address).InformedPeer peerId := by
  have hmarked := hunderstood.markedHave
  unfold hearHave
  simp only
  split_ifs with hfor
  · obtain ⟨manifest, hof, hown⟩ := isFor_iff.mp hfor
    exact hunderstood.informedPeer_own hmarked (hmarked.manifest.symm.trans hof) hown
  · refine hunderstood.informedPeer_foreign hmarked fun manifest hof hown ↦ hfor ?_
    exact isFor_iff.mpr ⟨manifest, hmarked.manifest.trans hof, hown⟩

theorem touches_hearHave (hholds : books.Holds peerId address) (resourceId : String)
    (chunkIndex : ℕ) :
    Touches peerId books (books.hearHave peerId resourceId chunkIndex address) := by
  have hannounced := touches_announce peerId (.have resourceId chunkIndex) books
  have hmarked := hannounced.trans (touches_mark (show
    (books.announce peerId (.have resourceId chunkIndex)).Holds peerId address from hholds)
    chunkIndex)
  unfold hearHave
  simp only
  split_ifs
  · exact hmarked.trans (touches_tellHave peerId chunkIndex _)
  · exact hmarked

/-- After a HAVE for the resource that the peer speaks of the books are right. -/
theorem Informed.hearHave (hinv : books.Informed)
    (hrecorded : books.recorded.get? peerId = some address)
    (hsubject : subject (books.ledger peerId) = some resourceId)
    (hfits : chunkIndex < (heapAt books.heap address).totalChunks) :
    (books.hearHave peerId resourceId chunkIndex address).Informed := by
  have hpeer := hinv.peers peerId
  refine hinv.touches (touches_hearHave (Or.inl hrecorded) resourceId chunkIndex)
    (Understood.informedPeer ⟨hrecorded, hinv.allocated peerId, fun other hother ↦ ?_, hfits, ?_,
      hpeer.knowledge, fun manifest hof htold ↦ ?_, fun manifest other hof htold hown ↦ ?_⟩)
  · exact Option.some.inj (hother.symm.trans hsubject)
  · obtain ⟨other, hother, hhas⟩ := hpeer.recorded address hrecorded
    rw [Option.some.inj (hsubject.symm.trans hother)]
    exact hhas
  · exact Option.some.inj ((hpeer.shared manifest address hof hrecorded htold).symm.trans hsubject)
  · refine (hpeer.synced manifest other hof htold (hown ▸ hsubject)).imp_left fun hsame ↦ ?_
    exact Option.some.inj (hsame.symm.trans hrecorded)

/-- After the first HAVE of a peer, for which an object is made, the books are right. -/
theorem Informed.hearFirstHave (hinv : books.Informed) {totalChunks : ℕ}
    (hunheard : books.recorded.get? peerId = none) (hfits : chunkIndex < totalChunks) :
    ((books.record peerId (Bitfield.new totalChunks)).hearHave peerId resourceId chunkIndex
      books.heap.length).Informed := by
  obtain ⟨hledger, htold⟩ := (hinv.peers peerId).unheard hunheard
  have hrecorded : (books.record peerId (Bitfield.new totalChunks)).recorded.get? peerId =
      some books.heap.length := OrderedMap.get?_set_self _ _ _
  have hobject : heapAt (books.record peerId (Bitfield.new totalChunks)).heap books.heap.length =
      Bitfield.new totalChunks := heapAt_append_self
  have hsilent : (books.record peerId (Bitfield.new totalChunks)).ledger peerId = [] := hledger
  have htouches := touches_record peerId (Bitfield.new totalChunks) books
  refine hinv.touches (htouches.trans (touches_hearHave (Or.inl hrecorded) resourceId chunkIndex))
    (Understood.informedPeer ⟨hrecorded, fun other hholds ↦ ?_, fun other hother ↦ ?_, ?_,
      fun index ↦ ?_, fun manifest hof index hrange ↦ ?_, fun manifest _ h ↦ ?_,
      fun manifest other _ h ↦ ?_⟩)
  · rcases htouches.holds other hholds with hold | ⟨_, hlt⟩
    · exact (hinv.allocated peerId other hold).trans_le htouches.length
    · exact hlt
  · rw [hsilent] at hother
    exact absurd hother (by simp [Web.subject])
  · rw [hobject, Bitfield.totalChunks_new]
    exact hfits
  · rw [hobject, Bitfield.has_new, hsilent]
    rfl
  · have huntold : (books.record peerId (Bitfield.new totalChunks)).told.get? peerId = none := htold
    have hknown := (hinv.peers peerId).knowledge manifest hof index hrange
    rw [knows, htold] at hknown
    rw [knows, huntold]
    exact hknown
  · exact absurd (htold.symm.trans h) (by simp)
  · exact absurd (htold.symm.trans h) (by simp)

end Have

/-! ### Schedulers come and go -/

section Schedulers

variable {books next : PeerBooks}

/-- A new scheduler is told of every recorded object. When every peer speaks of its resource, the
books are right. -/
theorem Informed.install (hinv : books.Informed) {manifest : ResourceManifest}
    (hspeak : ∀ peerId address, books.recorded.get? peerId = some address →
      subject (books.ledger peerId) = some manifest.resourceId)
    (hrecorded : next.recorded = books.recorded)
    (hledger : next.announcements = books.announcements)
    (hheap : next.heap = books.heap) (hmanifest : next.manifest = some manifest)
    (htold : ∀ peerId, next.told.get? peerId = books.recorded.get? peerId) : next.Informed := by
  have hholds : ∀ peerId address, next.Holds peerId address → books.Holds peerId address := by
    intro peerId address h
    rw [Holds, hrecorded, htold, or_self] at h
    exact Or.inl h
  have hsame : ∀ peerId, next.ledger peerId = books.ledger peerId := fun peerId ↦ by
    rw [PeerBooks.ledger, hledger]
    rfl
  refine ⟨fun peerId address h ↦ hheap ▸ hinv.allocated peerId address (hholds peerId address h),
    fun peerId other address h h' ↦ hinv.owned peerId other address (hholds _ _ h) (hholds _ _ h'),
    fun peerId ↦ ?_⟩
  have hpeer := hinv.peers peerId
  refine ⟨fun h ↦ ?_, fun address h ↦ ?_, fun other hother chunkIndex _ ↦ ?_,
    fun other address hother h _ ↦ ?_, fun other address _ h _ ↦ Or.inl ?_⟩
  · rw [hrecorded] at h
    rw [hsame, htold]
    exact ⟨(hpeer.unheard h).1, h⟩
  · rw [hrecorded] at h
    rw [hsame, hheap]
    exact hpeer.recorded address h
  · rw [← Option.some.inj (hmanifest.symm.trans hother), knows, htold, hheap, hsame]
    cases hget : books.recorded.get? peerId with
    | none => rw [(hpeer.unheard hget).1, announced, List.foldl_nil]
    | some address =>
      obtain ⟨resourceId, hsubject, hhas⟩ := hpeer.recorded address hget
      rw [Option.some.inj ((hspeak peerId address hget).symm.trans hsubject)]
      exact hhas chunkIndex
  · rw [hrecorded] at h
    rw [← Option.some.inj (hmanifest.symm.trans hother), hsame]
    exact hspeak peerId address h
  · rw [hrecorded, ← htold]
    exact h

/-- Books without peers and scheduler are right. -/
theorem informed_empty (hrecorded : books.recorded = OrderedMap.empty)
    (hannounced : books.announcements = OrderedMap.empty) (htold : books.told = OrderedMap.empty) :
    books.Informed := by
  have hheld : ∀ peerId address, ¬ books.Holds peerId address := fun peerId address h ↦ by
    rw [Holds, hrecorded, htold] at h
    simp at h
  have hledger : ∀ peerId, books.ledger peerId = [] := fun peerId ↦ by
    rw [PeerBooks.ledger, hannounced]
    simp
  refine ⟨fun peerId address h ↦ absurd h (hheld peerId address),
    fun peerId _ address h ↦ absurd h (hheld peerId address), fun peerId ↦ ⟨fun _ ↦ ?_,
    fun address h ↦ absurd (Or.inl h) (hheld peerId address), fun manifest _ chunkIndex _ ↦ ?_,
    fun _ address _ h ↦ absurd (Or.inl h) (hheld peerId address),
    fun _ address _ h ↦ absurd (Or.inr h) (hheld peerId address)⟩⟩
  · rw [htold]
    exact ⟨hledger peerId, OrderedMap.get?_empty _⟩
  · rw [knows, htold, OrderedMap.get?_empty, hledger]
    rfl

end Schedulers


end PeerBooks

end CampusMesh.Web
