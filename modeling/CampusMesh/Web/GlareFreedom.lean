import CampusMesh.Web.SignalingViews

/-!
# Freedom from glare

Of two coordinators only the one with the greater peer id makes offers, and only the other one
answers. The invariant relates the connections of both to the signals on their way: a connection
initiates exactly if its coordinator has the greater id (`RolesKept`), an offer is on its way only
to the lower id and an answer only to the greater one (`RoleOf`). A connection created for an
incoming offer does not consult the ids, but no offer ever comes from the lower one.
-/

set_option autoImplicit false
set_option relaxedAutoImplicit false

namespace CampusMesh.Web

open Library Shared

/-- What glare freedom says about a coordinator and its connections to the other. -/
structure GlareFree (own remote : String) (peer : SignalingPeer) : Prop where
  offers : ∀ offeredBy, (remote, Signal.offer offeredBy) ∈ peer.sent → precedes remote own = true
  answers : ∀ offeredBy answeredBy, (remote, Signal.answer offeredBy answeredBy) ∈ peer.sent →
    precedes own remote = true
  setRemoteOffer : ∀ connection offeredBy,
    (remote, NegotiationCall.setRemoteOffer connection offeredBy) ∈ peer.calls →
      connection.isInitiator = false
  setRemoteAnswer : ∀ connection offeredBy answeredBy,
    (remote, NegotiationCall.setRemoteAnswer connection offeredBy answeredBy) ∈ peer.calls →
      connection.isInitiator = true

/-- Of two different ids at most one precedes the other. -/
theorem precedes_asymm {first second : String} (hprecedes : precedes first second = true) :
    precedes second first = false := by
  simp only [precedes, decide_eq_true_eq, decide_eq_false_iff_not] at hprecedes ⊢
  exact lt_asymm hprecedes

/-- A signal sent by a coordinator that may or may not offer, and may or may not answer. -/
def RoleOf (offers answers : Bool) : Signal → Prop
  | .offer _ => offers = true
  | .answer _ _ => answers = true
  | .ice => True

/-- The part of a coordinator toward the other, if only one that initiates offers and only one that
does not answers. -/
structure RolesKept (initiates answers : Bool) (view : SignalingView) : Prop where
  connection : ∀ connection, view.connection = some connection →
    connection.isInitiator = initiates
  offering : ∀ connection ∈ view.offers, initiates = true
  answering : ∀ pending ∈ view.answers, answers = true
  sent : ∀ signal ∈ view.sent, RoleOf initiates answers signal
  setRemoteOffer : ∀ connection offeredBy,
    NegotiationCall.setRemoteOffer connection offeredBy ∈ view.calls →
      connection.isInitiator = false
  setRemoteAnswer : ∀ connection offeredBy answeredBy,
    NegotiationCall.setRemoteAnswer connection offeredBy answeredBy ∈ view.calls →
      connection.isInitiator = true

section Steps

variable {initiates answers : Bool} {view next : SignalingView}

/-- A signal that keeps the roles may be added to those sent. -/
theorem RolesKept.sending (hroles : RolesKept initiates answers view) {signal : Signal}
    (hrole : RoleOf initiates answers signal) :
    RolesKept initiates answers { view with sent := view.sent ++ [signal] } :=
  { hroles with
    sent := fun other hmem ↦ by
      rcases List.mem_append.mp hmem with hold | hnew
      · exact hroles.sent other hold
      · rwa [List.mem_singleton.mp hnew] }

/-- An event of a coordinator keeps the roles, and so does what it sends. -/
theorem RolesKept.move (hroles : RolesKept initiates answers view) {sent : List Signal}
    (hmove : SignalingMove initiates view next sent) :
    RolesKept initiates answers next ∧ ∀ signal ∈ sent, RoleOf initiates answers signal := by
  cases hmove with
  | idle hcreated => exact ⟨{ hroles with }, nofun⟩
  | opened hnone =>
    refine ⟨{ hroles with connection := ?_, offering := ?_ }, nofun⟩
    · rintro connection hconnection
      rw [← Option.some.inj hconnection]
    · intro connection hmem
      split_ifs at hmem with hinitiates
      · exact hinitiates
      · exact hroles.offering connection hmem
  | dropped => exact ⟨{ hroles with connection := nofun }, nofun⟩
  | failed hoffers hanswers =>
    exact ⟨{ hroles with
      offering := fun connection hmem ↦ hroles.offering connection (hoffers.subset hmem)
      answering := fun pending hmem ↦ hroles.answering pending (hanswers.subset hmem) }, nofun⟩
  | @offered offers connection hmem hoffers =>
    have hrole : RoleOf initiates answers (.offer connection) := hroles.offering _ hmem
    refine ⟨{ hroles.sending hrole with
      offering := fun connection hother ↦ hroles.offering connection (hoffers.subset hother) }, ?_⟩
    intro signal hsignal
    rwa [List.mem_singleton.mp hsignal]
  | @answered pending connection offeredBy hmem hanswers =>
    have hrole : RoleOf initiates answers (.answer offeredBy connection) :=
      hroles.answering _ hmem
    refine ⟨{ hroles.sending hrole with
      answering := fun pending hother ↦ hroles.answering pending (hanswers.subset hother) }, ?_⟩
    intro signal hsignal
    rwa [List.mem_singleton.mp hsignal]
  | ice =>
    refine ⟨hroles.sending trivial, fun signal hsignal ↦ ?_⟩
    rw [List.mem_singleton.mp hsignal]
    trivial

/-- A connection that does not initiate may be given an offer. -/
theorem RolesKept.acceptOffer (hroles : RolesKept initiates answers view)
    {connection : PeerConnection} (hconnection : connection.isInitiator = initiates)
    (hwaits : initiates = false) (hanswers : answers = true) (offeredBy : ℕ) :
    RolesKept initiates answers (view.acceptOffer connection offeredBy) :=
  { hroles with
    connection := fun after hafter ↦ by
      rw [← Option.some.inj hafter]
      exact hconnection
    answering := fun _ _ ↦ hanswers
    setRemoteOffer := fun other by' hmem ↦ by
      rcases List.mem_append.mp hmem with hold | hnew
      · exact hroles.setRemoteOffer other by' hold
      · cases List.mem_singleton.mp hnew
        rw [hconnection, hwaits]
    setRemoteAnswer := fun other by' answeredBy hmem ↦ by
      rcases List.mem_append.mp hmem with hold | hnew
      · exact hroles.setRemoteAnswer other by' answeredBy hold
      · cases List.mem_singleton.mp hnew }

/-- A signal of the other coordinator that kept its role keeps the roles here. -/
theorem RolesKept.receipt (hroles : RolesKept initiates answers view) {signal : Signal}
    (hasymm : answers = true → initiates = false) (hsignal : RoleOf answers initiates signal)
    (hreceipt : SignalingReceipt view signal next) : RolesKept initiates answers next := by
  cases hreceipt with
  | ignored => exact hroles
  | offer hconnection offeredBy =>
    exact hroles.acceptOffer (hroles.connection _ hconnection) (hasymm hsignal) hsignal offeredBy
  | firstOffer hnone offeredBy =>
    have hcreated : RolesKept initiates answers { view with created := view.created + 1 } :=
      { hroles with }
    exact hcreated.acceptOffer (hasymm hsignal).symm (hasymm hsignal) hsignal offeredBy
  | answer hconnection offeredBy answeredBy =>
    exact { hroles with
      setRemoteOffer := fun other by' hmem ↦ by
        rcases List.mem_append.mp hmem with hold | hnew
        · exact hroles.setRemoteOffer other by' hold
        · cases List.mem_singleton.mp hnew
      setRemoteAnswer := fun other by' answered hmem ↦ by
        rcases List.mem_append.mp hmem with hold | hnew
        · exact hroles.setRemoteAnswer other by' answered hold
        · cases List.mem_singleton.mp hnew
          exact (hroles.connection _ hconnection).trans hsignal }

end Steps

/-! ### Both coordinators -/

/-- A coordinator that keeps its role toward the other. -/
def KeepsRole (ids : Side → String) (side : Side) (peer : SignalingPeer) : Prop :=
  peer.localPeerId = ids side ∧
    RolesKept (precedes (ids side.other) (ids side)) (precedes (ids side) (ids side.other))
      (peer.toward (ids side.other))

/-- A signal on its way to a coordinator that fits the role of its sender. -/
def FitsRole (ids : Side → String) (side : Side) (signal : Signal) : Prop :=
  RoleOf (precedes (ids side) (ids side.other)) (precedes (ids side.other) (ids side)) signal

/-- Two coordinators that keep their roles, with all signals on their way. -/
def NoGlare (ids : Side → String) : Duplex SignalingPeer Signal → Prop :=
  Consistent (KeepsRole ids) (FitsRole ids)

theorem noGlare_new (ids : Side → String) : NoGlare ids (newPair ids) := by
  refine ⟨fun side ↦ ⟨rfl, ?_⟩, fun _ _ hmem ↦ absurd hmem List.not_mem_nil⟩
  exact ⟨nofun, nofun, nofun, nofun, nofun, nofun⟩

/-- Every step of two coordinators keeps them free of glare. -/
theorem noGlare_step (ids : Side → String) (pair : Duplex SignalingPeer Signal)
    (event : DuplexEvent SignalingEvent) (hpair : NoGlare ids pair) :
    NoGlare ids (pairStep ids pair event) := by
  refine hpair.step (fun side own _ hparty ↦ ?_) fun side signal peer hparty hsignal ↦ ?_
  · have hmove := actBetween_move (pair.parties side) ids side own
    rw [hparty.1] at hmove
    have hkept := hparty.2.move hmove
    refine ⟨⟨(localPeerId_actBetween ids side own _).trans hparty.1, hkept.1⟩, ?_⟩
    simpa only [FitsRole, Side.other_other] using hkept.2
  · refine ⟨⟨(localPeerId_handleSignal _ signal peer).trans hparty.1, ?_⟩, nofun⟩
    exact hparty.2.receipt precedes_asymm hsignal (handleSignal_receipt peer signal)

/-- **Freedom from glare.** In every state that two coordinators reach, whatever the room tells
them, however long their promises and signals take, and whatever other peers send them: a
coordinator that ever sent the other an offer has the greater id, one that ever sent it an answer
has the smaller one, `setRemoteOffer` was called only on connections to the other that do not
initiate, and `setRemoteAnswer` only on connections that do. -/
theorem glareFree (ids : Side → String) (events : List (DuplexEvent SignalingEvent)) (side : Side) :
    GlareFree (ids side) (ids side.other) ((pairRun ids events).parties side) := by
  have hpair := run_invariant_of_step (NoGlare ids) (noGlare_step ids) (noGlare_new ids) events
  have hroles := (hpair.party side).2
  exact
    { offers := fun offeredBy hmem ↦ hroles.sent (.offer offeredBy) (mem_about_iff.mpr hmem)
      answers := fun offeredBy answeredBy hmem ↦
        hroles.sent (.answer offeredBy answeredBy) (mem_about_iff.mpr hmem)
      setRemoteOffer := fun connection offeredBy hmem ↦
        hroles.setRemoteOffer connection offeredBy (mem_about_iff.mpr hmem)
      setRemoteAnswer := fun connection offeredBy answeredBy hmem ↦
        hroles.setRemoteAnswer connection offeredBy answeredBy (mem_about_iff.mpr hmem) }

end CampusMesh.Web
