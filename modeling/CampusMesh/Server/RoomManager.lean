import CampusMesh.Library.OrderedMap

/-!
# Rooms

`RoomManager`: the connected peers of every class session. A peer is registered with the socket that
it connected by, and a room without peers does not exist. Each operation is described by the peers
that are found after it (`getPeer_addPeer`, `getPeer_dropPeer`, `getPeer_delete`).
-/

set_option autoImplicit false
set_option relaxedAutoImplicit false

namespace CampusMesh.Server

open Library

inductive UserRole
  | instructor | student
  deriving DecidableEq

/-- What a token says about its bearer. -/
structure AuthTokenPayload where
  sessionId : String
  role : UserRole
  peerId : Option String
  displayName : String
  sessionCode : String
  deriving DecidableEq

/-- A socket, with the token by which it was authenticated. -/
structure Socket where
  id : ℕ
  payload : AuthTokenPayload
  deriving DecidableEq

/-- A socket of a student. -/
def studentSocket (id : ℕ) (sessionId peerId : String) : Socket :=
  ⟨id, sessionId, .student, some peerId, peerId, sessionId⟩

/-- Two students of one class, and one of another. -/
def alice : Socket := studentSocket 1 "session" "alice"

def bob : Socket := studentSocket 2 "session" "bob"

def carol : Socket := studentSocket 3 "seminar" "carol"

/-- A peer in a room. -/
structure ConnectedPeer where
  peerId : String
  sessionId : String
  displayName : String
  role : UserRole
  socket : Socket
  joinedAt : ℕ
  deriving DecidableEq

/-- The peers of a session by their ids. -/
abbrev Room := OrderedMap String ConnectedPeer

/-- The rooms by their sessions. -/
abbrev Rooms := OrderedMap String Room

namespace RoomManager

/-- Adds a peer to a room. -/
def addPeer (sessionId : String) (peer : ConnectedPeer) (rooms : Rooms) : Rooms :=
  rooms.set sessionId (((rooms.get? sessionId).getD OrderedMap.empty).set peer.peerId peer)

/-- A peer of a room. -/
def getPeer (sessionId peerId : String) (rooms : Rooms) : Option ConnectedPeer :=
  (rooms.get? sessionId).bind fun room ↦ room.get? peerId

/-- The rooms without a peer of a room, and without the room if it was the last one. -/
def dropPeer (sessionId peerId : String) (room : Room) (rooms : Rooms) : Rooms :=
  if (room.delete peerId).size = 0 then rooms.delete sessionId
  else rooms.set sessionId (room.delete peerId)

/-- Removes a peer from a room; with a socket, only if the peer is registered with this socket. -/
def removePeer (sessionId peerId : String) (socket : Option Socket) (rooms : Rooms) :
    Rooms × Option ConnectedPeer :=
  match rooms.get? sessionId with
  | none => (rooms, none)
  | some room =>
    match room.get? peerId with
    | none => (rooms, none)
    | some peer =>
      if socket.any (peer.socket ≠ ·) then (rooms, none)
      else (dropPeer sessionId peerId room rooms, some peer)

/-- The peers of a room. -/
def getRoomPeers (sessionId : String) (rooms : Rooms) : List ConnectedPeer :=
  ((rooms.get? sessionId).map OrderedMap.values).getD []

/-- The number of peers in a room. -/
def getRoomSize (sessionId : String) (rooms : Rooms) : ℕ :=
  ((rooms.get? sessionId).map OrderedMap.size).getD 0

/-- Deletes a room; its peers. -/
def deleteRoom (sessionId : String) (rooms : Rooms) : Rooms × List ConnectedPeer :=
  (rooms.delete sessionId, getRoomPeers sessionId rooms)

/-! ### What is found afterwards -/

section Lookup

variable {sessionId peerId other : String} {peer : ConnectedPeer} {rooms : Rooms}

/-- A peer is in the list of its room exactly when it is found there. -/
theorem mem_getRoomPeers : peer ∈ getRoomPeers sessionId rooms ↔
    ∃ id, getPeer sessionId id rooms = some peer := by
  unfold getRoomPeers getPeer
  cases hroom : rooms.get? sessionId with
  | none => simp
  | some room => simp [OrderedMap.mem_values_iff]

/-- Who is found after a peer was added. -/
theorem getPeer_addPeer (id : String) :
    getPeer other id (addPeer sessionId peer rooms) =
      if other = sessionId ∧ id = peer.peerId then some peer else getPeer other id rooms := by
  unfold getPeer addPeer
  rw [OrderedMap.get?_set]
  by_cases hsame : other = sessionId
  · subst hsame
    rw [if_pos rfl, Option.bind_some, OrderedMap.get?_set]
    cases hroom : rooms.get? other with
    | none => simp
    | some room => simp
  · simp [hsame]

theorem getPeer_addPeer_self :
    getPeer sessionId peer.peerId (addPeer sessionId peer rooms) = some peer := by
  rw [getPeer_addPeer, if_pos ⟨rfl, rfl⟩]

theorem get?_addPeer_of_ne (hne : other ≠ sessionId) :
    (addPeer sessionId peer rooms).get? other = rooms.get? other :=
  OrderedMap.get?_set_of_ne _ hne _

theorem get?_dropPeer_of_ne (hne : other ≠ sessionId) (room : Room) :
    (dropPeer sessionId peerId room rooms).get? other = rooms.get? other := by
  unfold dropPeer
  split_ifs
  · exact OrderedMap.get?_delete_of_ne _ hne
  · exact OrderedMap.get?_set_of_ne _ hne _

/-- Who is found after a peer of a room was removed. -/
theorem getPeer_dropPeer {room : Room} (hroom : rooms.get? sessionId = some room) (id : String) :
    getPeer other id (dropPeer sessionId peerId room rooms) =
      if other = sessionId ∧ id = peerId then none else getPeer other id rooms := by
  by_cases hsame : other = sessionId
  · subst hsame
    unfold getPeer dropPeer
    rw [hroom, Option.bind_some]
    split_ifs with hempty hgone hgone
    · rw [OrderedMap.get?_delete_self, Option.bind_none]
    · rw [OrderedMap.get?_delete_self, Option.bind_none, ← OrderedMap.size_eq_zero_iff.mp hempty id,
        OrderedMap.get?_delete_of_ne _ fun h ↦ hgone ⟨rfl, h⟩]
    · rw [OrderedMap.get?_set_self, Option.bind_some, hgone.2, OrderedMap.get?_delete_self]
    · rw [OrderedMap.get?_set_self, Option.bind_some,
        OrderedMap.get?_delete_of_ne _ fun h ↦ hgone ⟨rfl, h⟩]
  · rw [getPeer, getPeer, get?_dropPeer_of_ne hsame, if_neg fun h ↦ hsame (And.left h)]

/-- Who is found after a room was deleted. -/
theorem getPeer_delete (id : String) :
    getPeer other id (rooms.delete sessionId) =
      if other = sessionId then none else getPeer other id rooms := by
  unfold getPeer
  rw [OrderedMap.get?_delete]
  split_ifs with hsame
  · rfl
  · rfl

/-- What was removed was registered, with the socket if one was given. -/
theorem removePeer_eq_some {socket : Option Socket} {next : Rooms}
    (hremoved : removePeer sessionId peerId socket rooms = (next, some peer)) :
    ∃ room, rooms.get? sessionId = some room ∧ room.get? peerId = some peer ∧
      (∀ given, socket = some given → peer.socket = given) ∧
        next = dropPeer sessionId peerId room rooms := by
  unfold removePeer at hremoved
  cases hroom : rooms.get? sessionId with
  | none =>
    rw [hroom] at hremoved
    exact absurd hremoved (by simp)
  | some room =>
    rw [hroom] at hremoved
    cases hpeer : room.get? peerId with
    | none => simp [hpeer] at hremoved
    | some found =>
      simp only [hpeer] at hremoved
      split_ifs at hremoved with hsocket
      · exact absurd (Prod.mk.inj hremoved).2 (by simp)
      · obtain ⟨hnext, hfound⟩ := Prod.mk.inj hremoved
        obtain rfl : found = peer := Option.some.inj hfound
        refine ⟨room, rfl, hpeer, fun given hgiven ↦ ?_, hnext.symm⟩
        subst hgiven
        simpa using hsocket

end Lookup

end RoomManager

end CampusMesh.Server
