import CampusMesh.Web.CoordinatorInvariants
import CampusMesh.Web.PeerSignaling

/-!
# What a coordinator does toward one peer

The part of a coordinator that concerns one other peer: its connection to it, the promises pending
for it, what was sent to it and what was called on its connections (`SignalingView`). An event of
the coordinator makes one of a few moves of that part (`signalingStep_move`), and so does a signal
of the peer (`handleSignal_receipt`); signals of others do not touch it (`handleSignal_foreign`).
Invariants of two coordinators are proved on the moves.
-/

set_option autoImplicit false
set_option relaxedAutoImplicit false

namespace CampusMesh.Web

open Library Shared

/-! ### Views -/

/-- The part of a coordinator that concerns one peer. -/
structure SignalingView where
  connection : Option PeerConnection
  /-- The connections whose `createOffer` is pending. -/
  offers : List ℕ
  /-- The connections whose `setRemoteOffer` is pending, with the object that made the offer. -/
  answers : List (ℕ × ℕ)
  created : ℕ
  sent : List Signal
  calls : List NegotiationCall

section About

variable {α : Type} {remotePeerId : String}

@[simp] theorem about_append_self (entries : List (String × α)) (value : α) :
    about remotePeerId (entries ++ [(remotePeerId, value)]) =
      about remotePeerId entries ++ [value] := by
  simp [about]

theorem about_append_of_ne (entries : List (String × α)) {other : String}
    (hne : other ≠ remotePeerId) (value : α) :
    about remotePeerId (entries ++ [(other, value)]) = about remotePeerId entries := by
  simp [about, hne]

theorem mem_about_iff {entries : List (String × α)} {value : α} :
    value ∈ about remotePeerId entries ↔ (remotePeerId, value) ∈ entries := by
  simp [about]

end About

/-- What a coordinator does toward a peer. -/
def SignalingPeer.toward (remotePeerId : String) (peer : SignalingPeer) : SignalingView where
  connection := peer.peers.get? remotePeerId
  offers := about remotePeerId
    (peer.offering.map fun pending ↦ (pending.remotePeerId, pending.connection))
  answers := about remotePeerId (peer.answering.map fun pending ↦
    (pending.remotePeerId, pending.connection, pending.offeredBy))
  created := peer.created
  sent := about remotePeerId peer.sent
  calls := about remotePeerId peer.calls

/-! ### Moves -/

/-- The moves that events of a coordinator make toward a peer, with what is sent to it. -/
inductive SignalingMove (initiates : Bool) : SignalingView → SignalingView → List Signal → Prop
  /-- Nothing, but connections to others may be created. -/
  | idle (view : SignalingView) {created : ℕ} (hcreated : view.created ≤ created) :
    SignalingMove initiates view { view with created := created } []
  /-- A connection is created; one that initiates makes an offer. -/
  | opened {view : SignalingView} (hnone : view.connection = none) :
    SignalingMove initiates view
      { view with
        connection := some ⟨view.created, initiates, []⟩
        offers := if initiates then view.offers ++ [view.created] else view.offers
        created := view.created + 1 } []
  | dropped (view : SignalingView) : SignalingMove initiates view
    { view with connection := none } []
  /-- Promises reject. -/
  | failed (view : SignalingView) {offers : List ℕ} {answers : List (ℕ × ℕ)}
    (hoffers : offers.Sublist view.offers) (hanswers : answers.Sublist view.answers) :
    SignalingMove initiates view { view with offers := offers, answers := answers } []
  | offered (view : SignalingView) {offers : List ℕ} {connection : ℕ}
    (hmem : connection ∈ view.offers) (hoffers : offers.Sublist view.offers) :
    SignalingMove initiates view
      { view with offers := offers, sent := view.sent ++ [.offer connection] } [.offer connection]
  | answered (view : SignalingView) {answers : List (ℕ × ℕ)} {connection offeredBy : ℕ}
    (hmem : (connection, offeredBy) ∈ view.answers) (hanswers : answers.Sublist view.answers) :
    SignalingMove initiates view
      { view with answers := answers, sent := view.sent ++ [.answer offeredBy connection] }
      [.answer offeredBy connection]
  | ice (view : SignalingView) :
    SignalingMove initiates view { view with sent := view.sent ++ [.ice] } [.ice]

/-- What a connection given an offer makes of the view. -/
def SignalingView.acceptOffer (view : SignalingView) (connection : PeerConnection)
    (offeredBy : ℕ) : SignalingView :=
  { view with
    connection := some { connection with remoteOffers := connection.remoteOffers ++ [offeredBy] }
    answers := view.answers ++ [(connection.id, offeredBy)]
    calls := view.calls ++ [.setRemoteOffer connection offeredBy] }

/-- The moves that signals of a peer make. -/
inductive SignalingReceipt : SignalingView → Signal → SignalingView → Prop
  | ignored (view : SignalingView) (signal : Signal) : SignalingReceipt view signal view
  /-- An offer for a connection that is there. -/
  | offer (view : SignalingView) {connection : PeerConnection}
    (hconnection : view.connection = some connection) (offeredBy : ℕ) :
    SignalingReceipt view (.offer offeredBy) (view.acceptOffer connection offeredBy)
  /-- An offer for which a connection is created. -/
  | firstOffer (view : SignalingView) (hnone : view.connection = none) (offeredBy : ℕ) :
    SignalingReceipt view (.offer offeredBy)
      ({ view with created := view.created + 1 }.acceptOffer ⟨view.created, false, []⟩ offeredBy)
  | answer (view : SignalingView) {connection : PeerConnection}
    (hconnection : view.connection = some connection) (offeredBy answeredBy : ℕ) :
    SignalingReceipt view (.answer offeredBy answeredBy)
      { view with calls := view.calls ++ [.setRemoteAnswer connection offeredBy answeredBy] }

section Moves

variable {remotePeerId : String} (peer : SignalingPeer)

theorem toward_openConnection_self (isInitiator : Bool) :
    (peer.openConnection remotePeerId isInitiator).toward remotePeerId =
      { peer.toward remotePeerId with
        connection := some ⟨peer.created, isInitiator, []⟩
        created := peer.created + 1 } := by
  simp [SignalingPeer.toward, SignalingPeer.openConnection]

theorem toward_openConnection_of_ne {other : String} (hne : other ≠ remotePeerId)
    (isInitiator : Bool) :
    (peer.openConnection other isInitiator).toward remotePeerId =
      { peer.toward remotePeerId with created := peer.created + 1 } := by
  simp [SignalingPeer.toward, SignalingPeer.openConnection, OrderedMap.get?_set_of_ne _ hne.symm]

theorem toward_createOffer_self (connection : ℕ) :
    (peer.createOffer remotePeerId connection).toward remotePeerId =
      { peer.toward remotePeerId with
        offers := (peer.toward remotePeerId).offers ++ [connection] } := by
  simp [SignalingPeer.toward, SignalingPeer.createOffer]

theorem toward_createOffer_of_ne {other : String} (hne : other ≠ remotePeerId) (connection : ℕ) :
    (peer.createOffer other connection).toward remotePeerId = peer.toward remotePeerId := by
  simp [SignalingPeer.toward, SignalingPeer.createOffer, about_append_of_ne _ hne]

theorem toward_setRemoteOffer_self (connection : PeerConnection) (offeredBy : ℕ) :
    (peer.setRemoteOffer remotePeerId connection offeredBy).toward remotePeerId =
      (peer.toward remotePeerId).acceptOffer connection offeredBy := by
  simp [SignalingPeer.toward, SignalingPeer.setRemoteOffer, SignalingView.acceptOffer]

theorem toward_setRemoteOffer_of_ne {other : String} (hne : other ≠ remotePeerId)
    (connection : PeerConnection) (offeredBy : ℕ) :
    (peer.setRemoteOffer other connection offeredBy).toward remotePeerId =
      peer.toward remotePeerId := by
  simp [SignalingPeer.toward, SignalingPeer.setRemoteOffer, about_append_of_ne _ hne,
    OrderedMap.get?_set_of_ne _ hne.symm]

theorem toward_handlePeerLeft_self :
    (peer.handlePeerLeft remotePeerId).toward remotePeerId =
      { peer.toward remotePeerId with connection := none } := by
  simp [SignalingPeer.toward, SignalingPeer.handlePeerLeft]

theorem toward_handlePeerLeft_of_ne {other : String} (hne : other ≠ remotePeerId) :
    (peer.handlePeerLeft other).toward remotePeerId = peer.toward remotePeerId := by
  simp [SignalingPeer.toward, SignalingPeer.handlePeerLeft,
    OrderedMap.get?_delete_of_ne _ hne.symm]

theorem toward_sendSignaling_self (signal : Signal) :
    (peer.sendSignaling remotePeerId signal).1.toward remotePeerId =
      { peer.toward remotePeerId with
        sent := (peer.toward remotePeerId).sent ++ [signal] } := by
  simp [SignalingPeer.toward, SignalingPeer.sendSignaling]

theorem toward_sendSignaling_of_ne {other : String} (hne : other ≠ remotePeerId)
    (signal : Signal) :
    (peer.sendSignaling other signal).1.toward remotePeerId = peer.toward remotePeerId := by
  simp [SignalingPeer.toward, SignalingPeer.sendSignaling, about_append_of_ne _ hne]

/-- What is sent to one peer is not sent to another. -/
theorem about_sendSignaling (target : String) (signal : Signal) :
    about remotePeerId (peer.sendSignaling target signal).2 =
      if target = remotePeerId then [signal] else [] := by
  unfold SignalingPeer.sendSignaling about
  split_ifs with htarget <;> simp [htarget]

theorem offers_eraseIdx_sublist (index : ℕ) :
    ({ peer with offering := peer.offering.eraseIdx index }.toward remotePeerId).offers.Sublist
      (peer.toward remotePeerId).offers :=
  (((List.eraseIdx_sublist peer.offering index).map _).filter _).map _

theorem answers_eraseIdx_sublist (index : ℕ) :
    ({ peer with answering := peer.answering.eraseIdx index }.toward remotePeerId).answers.Sublist
      (peer.toward remotePeerId).answers :=
  (((List.eraseIdx_sublist peer.answering index).map _).filter _).map _

/-- A discovery opens a connection to the peer, or does nothing toward it. -/
theorem handlePeerDiscovered_move (discovered : String) :
    SignalingMove (precedes remotePeerId peer.localPeerId) (peer.toward remotePeerId)
      ((peer.handlePeerDiscovered discovered).toward remotePeerId) [] := by
  by_cases hremote : discovered = remotePeerId
  · subst hremote
    unfold SignalingPeer.handlePeerDiscovered
    split_ifs with hself hhas hfull hprecedes
    · exact SignalingMove.idle _ le_rfl
    · exact SignalingMove.idle _ le_rfl
    · exact SignalingMove.idle _ le_rfl
    all_goals
      have hnone : (peer.toward discovered).connection = none :=
        OrderedMap.has_eq_false_iff.mp (by simpa using hhas)
    · rw [toward_createOffer_self, toward_openConnection_self, hprecedes]
      exact SignalingMove.opened hnone
    · rw [toward_openConnection_self, eq_false_of_ne_true hprecedes]
      exact SignalingMove.opened hnone
  · unfold SignalingPeer.handlePeerDiscovered
    split_ifs with hself hhas hfull hprecedes
    · exact SignalingMove.idle _ le_rfl
    · exact SignalingMove.idle _ le_rfl
    · exact SignalingMove.idle _ le_rfl
    · rw [toward_createOffer_of_ne _ hremote, toward_openConnection_of_ne _ hremote]
      exact SignalingMove.idle _ (Nat.le_succ _)
    · rw [toward_openConnection_of_ne _ hremote]
      exact SignalingMove.idle _ (Nat.le_succ _)

/-- A signal of the peer makes one of the moves of signals. -/
theorem handleSignal_receipt (signal : Signal) :
    SignalingReceipt (peer.toward remotePeerId) signal
      ((peer.handleSignal remotePeerId signal).toward remotePeerId) := by
  cases signal with
  | offer offeredBy =>
    simp only [SignalingPeer.handleSignal, SignalingPeer.handleSignalOffer]
    cases hconnection : peer.peers.get? remotePeerId with
    | some connection =>
      simp only [toward_setRemoteOffer_self]
      exact SignalingReceipt.offer _ hconnection offeredBy
    | none =>
      simp only []
      split_ifs with hfull
      · exact SignalingReceipt.ignored _ _
      · rw [toward_setRemoteOffer_self, toward_openConnection_self]
        exact SignalingReceipt.firstOffer _ hconnection offeredBy
  | answer offeredBy answeredBy =>
    simp only [SignalingPeer.handleSignal, SignalingPeer.handleSignalAnswer]
    cases hconnection : peer.peers.get? remotePeerId with
    | some connection =>
      have hreceipt := SignalingReceipt.answer (peer.toward remotePeerId) hconnection offeredBy
        answeredBy
      simpa [SignalingPeer.toward, SignalingPeer.setRemoteAnswer] using hreceipt
    | none => exact SignalingReceipt.ignored _ _
  | ice => exact SignalingReceipt.ignored _ _

/-- A signal of another peer leaves what concerns this one. -/
theorem handleSignal_foreign {other : String} (hne : other ≠ remotePeerId) (signal : Signal) :
    ∃ created, peer.created ≤ created ∧ (peer.handleSignal other signal).toward remotePeerId =
      { peer.toward remotePeerId with created := created } := by
  cases signal with
  | offer offeredBy =>
    simp only [SignalingPeer.handleSignal, SignalingPeer.handleSignalOffer]
    cases hconnection : peer.peers.get? other with
    | some connection => exact ⟨peer.created, le_rfl, toward_setRemoteOffer_of_ne _ hne _ _⟩
    | none =>
      simp only []
      split_ifs with hfull
      · exact ⟨peer.created, le_rfl, rfl⟩
      · refine ⟨peer.created + 1, Nat.le_succ _, ?_⟩
        rw [toward_setRemoteOffer_of_ne _ hne, toward_openConnection_of_ne _ hne]
  | answer offeredBy answeredBy =>
    simp only [SignalingPeer.handleSignal, SignalingPeer.handleSignalAnswer]
    refine ⟨peer.created, le_rfl, ?_⟩
    cases hconnection : peer.peers.get? other with
    | some connection =>
      simp [SignalingPeer.toward, SignalingPeer.setRemoteAnswer, about_append_of_ne _ hne]
    | none => rfl
  | ice => exact ⟨peer.created, le_rfl, rfl⟩

/-- A promise of `createOffer` that resolves sends the offer. -/
theorem offerCreated_move (index : ℕ) :
    SignalingMove (precedes remotePeerId peer.localPeerId) (peer.toward remotePeerId)
      ((signalingStep peer (.offerCreated index)).1.toward remotePeerId)
      (about remotePeerId (signalingStep peer (.offerCreated index)).2) := by
  simp only [signalingStep]
  cases hpending : peer.offering[index]? with
  | none => exact SignalingMove.idle _ le_rfl
  | some pending =>
    have hsublist := @offers_eraseIdx_sublist remotePeerId peer index
    simp only [about_sendSignaling]
    split_ifs with hremote
    · subst hremote
      rw [toward_sendSignaling_self]
      refine SignalingMove.offered _ ?_ hsublist
      exact mem_about_iff.mpr (List.mem_map.mpr ⟨pending, List.mem_of_getElem? hpending, rfl⟩)
    · rw [toward_sendSignaling_of_ne _ hremote]
      exact SignalingMove.failed _ hsublist (List.Sublist.refl _)

/-- A promise of `setRemoteOffer` that resolves sends the answer. -/
theorem answerCreated_move (index : ℕ) :
    SignalingMove (precedes remotePeerId peer.localPeerId) (peer.toward remotePeerId)
      ((signalingStep peer (.answerCreated index)).1.toward remotePeerId)
      (about remotePeerId (signalingStep peer (.answerCreated index)).2) := by
  simp only [signalingStep]
  cases hpending : peer.answering[index]? with
  | none => exact SignalingMove.idle _ le_rfl
  | some pending =>
    have hsublist := @answers_eraseIdx_sublist remotePeerId peer index
    simp only [about_sendSignaling]
    split_ifs with hremote
    · subst hremote
      rw [toward_sendSignaling_self]
      refine SignalingMove.answered _ ?_ hsublist
      exact mem_about_iff.mpr (List.mem_map.mpr ⟨pending, List.mem_of_getElem? hpending, rfl⟩)
    · rw [toward_sendSignaling_of_ne _ hremote]
      exact SignalingMove.failed _ (List.Sublist.refl _) hsublist

/-- An event of the coordinator makes one of the moves toward a peer, unless it is a signal of it.
-/
theorem signalingStep_move {event : SignalingEvent}
    (hevent : ∀ other signal, event = .signaled other signal → other ≠ remotePeerId) :
    SignalingMove (precedes remotePeerId peer.localPeerId) (peer.toward remotePeerId)
      ((signalingStep peer event).1.toward remotePeerId)
      (about remotePeerId (signalingStep peer event).2) := by
  cases event with
  | peerDiscovered discovered => exact handlePeerDiscovered_move peer discovered
  | peerLeft left =>
    by_cases hremote : left = remotePeerId
    · subst hremote
      rw [signalingStep, toward_handlePeerLeft_self]
      exact SignalingMove.dropped _
    · rw [signalingStep, toward_handlePeerLeft_of_ne _ hremote]
      exact SignalingMove.idle _ le_rfl
  | offerCreated index => exact offerCreated_move peer index
  | offerFailed index =>
    exact SignalingMove.failed _ (offers_eraseIdx_sublist peer index) (List.Sublist.refl _)
  | answerCreated index => exact answerCreated_move peer index
  | answerFailed index =>
    exact SignalingMove.failed _ (List.Sublist.refl _) (answers_eraseIdx_sublist peer index)
  | iceCandidate other =>
    rw [signalingStep]
    split_ifs with hhas
    · rw [about_sendSignaling]
      split_ifs with hremote
      · subst hremote
        rw [toward_sendSignaling_self]
        exact SignalingMove.ice _
      · rw [toward_sendSignaling_of_ne _ hremote]
        exact SignalingMove.idle _ le_rfl
    · exact SignalingMove.idle _ le_rfl
  | signaled other signal =>
    obtain ⟨created, hcreated, hview⟩ := handleSignal_foreign peer (hevent other signal rfl) signal
    rw [signalingStep, hview]
    exact SignalingMove.idle _ hcreated
  | stop => exact SignalingMove.dropped _

/-- An event at one of two coordinators makes one of the moves toward the other. -/
theorem actBetween_move (ids : Side → String) (side : Side) (event : SignalingEvent) :
    SignalingMove (precedes (ids side.other) peer.localPeerId) (peer.toward (ids side.other))
      ((actBetween ids side event peer).1.toward (ids side.other))
      (actBetween ids side event peer).2 := by
  by_cases hforeign : ∀ other signal, event = .signaled other signal → other ≠ ids side.other
  · have hmove := signalingStep_move peer hforeign
    cases event with
    | signaled other signal =>
      rw [actBetween, if_neg (hforeign other signal rfl)]
      exact hmove
    | _ => exact hmove
  · push Not at hforeign
    obtain ⟨other, signal, rfl, hother⟩ := hforeign
    rw [actBetween, if_pos hother]
    exact SignalingMove.idle _ le_rfl

end Moves

/-! ### The local id -/

/-- No event changes the local peer id. -/
theorem localPeerId_handleSignal (remotePeerId : String) (signal : Signal) (peer : SignalingPeer) :
    (peer.handleSignal remotePeerId signal).localPeerId = peer.localPeerId := by
  cases signal with
  | offer offeredBy =>
    simp only [SignalingPeer.handleSignal, SignalingPeer.handleSignalOffer]
    split
    · rfl
    · split_ifs <;> rfl
  | answer offeredBy answeredBy =>
    simp only [SignalingPeer.handleSignal, SignalingPeer.handleSignalAnswer]
    split <;> rfl
  | ice => rfl

theorem localPeerId_actBetween (ids : Side → String) (side : Side) (event : SignalingEvent)
    (peer : SignalingPeer) :
    (actBetween ids side event peer).1.localPeerId = peer.localPeerId := by
  cases event with
  | peerDiscovered discovered =>
    simp only [actBetween, signalingStep, SignalingPeer.handlePeerDiscovered]
    split_ifs <;> rfl
  | offerCreated index =>
    simp only [actBetween, signalingStep]
    split <;> rfl
  | answerCreated index =>
    simp only [actBetween, signalingStep]
    split <;> rfl
  | iceCandidate other =>
    simp only [actBetween, signalingStep]
    split_ifs <;> rfl
  | signaled other signal =>
    simp only [actBetween]
    split_ifs
    · rfl
    · exact localPeerId_handleSignal other signal peer
  | peerLeft _ | offerFailed _ | answerFailed _ | stop => rfl

/-! ### The connections of the coordinator -/

section Mirrors

variable {σ : Type}

/-- The connections of a coordinator as signaling sees them: to the same peers, in the same roles.
-/
def Mirrors (state : CoordinatorState σ) (peer : SignalingPeer) : Prop :=
  ∀ remotePeerId, (peer.peers.get? remotePeerId).map PeerConnection.isInitiator =
    (state.peers.get? remotePeerId).map WebRtcPeerConnection.isInitiator

variable {state : CoordinatorState σ} {peer : SignalingPeer}

theorem Mirrors.has (hmirrors : Mirrors state peer) (remotePeerId : String) :
    peer.peers.has remotePeerId = state.peers.has remotePeerId := by
  have hrole := congrArg Option.isSome (hmirrors remotePeerId)
  rw [Option.isSome_map, Option.isSome_map] at hrole
  exact hrole

theorem Mirrors.size (hmirrors : Mirrors state peer) : peer.peers.size = state.peers.size :=
  OrderedMap.size_eq_of_has hmirrors.has

/-- Both record a new connection alike. -/
theorem Mirrors.openConnection (hmirrors : Mirrors state peer) (remotePeerId : String)
    (isInitiator : Bool) :
    Mirrors { state with peers := state.peers.set remotePeerId ⟨isInitiator, false⟩ }
      (peer.openConnection remotePeerId isInitiator) := by
  intro other
  simp only [SignalingPeer.openConnection, OrderedMap.get?_set]
  split_ifs
  · rfl
  · exact hmirrors other

/-- The discovery of a peer does the same to both. -/
theorem Mirrors.handlePeerDiscovered (hmirrors : Mirrors state peer)
    (hlocal : peer.localPeerId = state.localPeerId) (remotePeerId : String) :
    Mirrors (handlePeerDiscovered remotePeerId state) (peer.handlePeerDiscovered remotePeerId) := by
  unfold Web.handlePeerDiscovered SignalingPeer.handlePeerDiscovered connect
  rw [hlocal, hmirrors.has, hmirrors.size]
  split_ifs with hself hhas hfull hprecedes
  · exact hmirrors
  · exact hmirrors
  · exact hmirrors
  · rw [hprecedes]
    exact hmirrors.openConnection remotePeerId true
  · rw [eq_false_of_ne_true hprecedes]
    exact hmirrors.openConnection remotePeerId false

/-- An offer does the same to both. -/
theorem Mirrors.handleSignalOffer (hmirrors : Mirrors state peer) (remotePeerId : String)
    (offeredBy : ℕ) :
    Mirrors (handleSignalOffer remotePeerId state)
      (peer.handleSignalOffer remotePeerId offeredBy) := by
  have hhas := hmirrors.has remotePeerId
  unfold Web.handleSignalOffer SignalingPeer.handleSignalOffer connect
  cases hconnection : peer.peers.get? remotePeerId with
  | some connection =>
    rw [if_pos (by rw [← hhas, OrderedMap.has, hconnection]; rfl)]
    intro other
    simp only [SignalingPeer.setRemoteOffer, OrderedMap.get?_set]
    split_ifs with hother
    · rw [hother, ← hmirrors remotePeerId, hconnection]
      rfl
    · exact hmirrors other
  | none =>
    rw [if_neg (by rw [← hhas, OrderedMap.has, hconnection]; exact Bool.false_ne_true),
      ← hmirrors.size]
    simp only []
    split_ifs with hfull
    · exact hmirrors
    · intro other
      rw [← hmirrors.openConnection remotePeerId false other]
      simp only [SignalingPeer.setRemoteOffer, SignalingPeer.openConnection, OrderedMap.get?_set]
      split_ifs <;> rfl

/-- The departure of a peer does the same to both. -/
theorem Mirrors.handlePeerLeft (hmirrors : Mirrors state peer) (digest : Bytes → Bytes)
    (chunkStore : ListingStore σ) (env : Env) (remotePeerId : String) :
    Mirrors (handlePeerLeft digest chunkStore env remotePeerId state)
      (peer.handlePeerLeft remotePeerId) := by
  intro other
  rw [Web.handlePeerLeft, (onCurrentScheduler_uninvolved digest chunkStore env _ _).peers]
  simp only [SignalingPeer.handlePeerLeft, OrderedMap.get?_delete]
  split_ifs
  · rfl
  · exact hmirrors other

/-- Stopping does the same to both. -/
theorem Mirrors.stop (digest : Bytes → Bytes) (chunkStore : ListingStore σ) (env : Env) :
    Mirrors (stopCoordinator digest chunkStore env state) peer.stop := fun _ ↦ rfl

end Mirrors

end CampusMesh.Web
