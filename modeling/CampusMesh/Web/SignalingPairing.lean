import CampusMesh.Web.GlareFreedom

/-!
# Pairing of offers and answers

Signals name the peer that sent them and not the connection object, so an answer that comes late
meets whatever connection its receiver has then, and an offer meets a connection that was negotiated
with an earlier object of the other side. `StartsAfresh` is the condition under which neither
happens: a coordinator creates an object that initiates only when nothing of an earlier exchange is
pending or on its way and the other side holds no object negotiated before. Between two such
creations all promises and signals belong to one object (`OneExchange`).
-/

set_option autoImplicit false
set_option relaxedAutoImplicit false

namespace CampusMesh.Web

open Library Shared

/-! ### The promise -/

/-- The signal that a call on a connection hands over. -/
def NegotiationCall.signal : NegotiationCall → Signal
  | .setRemoteOffer _ offeredBy => .offer offeredBy
  | .setRemoteAnswer _ offeredBy answeredBy => .answer offeredBy answeredBy

/-- Whether a call keeps exchanges apart: an answer belongs to the offer of the very object it is
applied to, and an offer is applied only to an object that was given no offer of a different object.
-/
def NegotiationCall.Paired : NegotiationCall → Prop
  | .setRemoteOffer connection offeredBy => ∀ earlier ∈ connection.remoteOffers, earlier = offeredBy
  | .setRemoteAnswer connection offeredBy _ => offeredBy = connection.id

instance : DecidablePred NegotiationCall.Paired
  | .setRemoteOffer _ _ => inferInstanceAs (Decidable (∀ _ ∈ _, _))
  | .setRemoteAnswer _ _ _ => inferInstanceAs (Decidable (_ = _))

/-- All calls that a coordinator made on its connections to the other are paired, and what they hand
over was sent by the other. -/
def WellPaired (ids : Side → String) (pair : Duplex SignalingPeer Signal) (side : Side) : Prop :=
  ∀ call ∈ about (ids side.other) (pair.parties side).calls,
    call.Paired ∧ call.signal ∈ about (ids side) (pair.parties side.other).sent

instance (ids : Side → String) (pair : Duplex SignalingPeer Signal) (side : Side) :
    Decidable (WellPaired ids pair side) :=
  inferInstanceAs (Decidable (∀ _ ∈ _, _))

/-- Whether a signal belongs to the negotiation of a connection. -/
def Signal.negotiates : Signal → Bool
  | .ice => false
  | _ => true

/-- No exchange of the two coordinators is under way, and neither holds a connection to the other
that was given an offer. -/
def AtRest (ids : Side → String) (pair : Duplex SignalingPeer Signal) : Prop :=
  ∀ side ∈ [Side.first, .second],
    (pair.incoming side).all (fun signal ↦ !signal.negotiates) = true ∧
    ((pair.parties side).toward (ids side.other)).offers = [] ∧
    ((pair.parties side).toward (ids side.other)).answers = [] ∧
    ∀ connection ∈ ((pair.parties side).toward (ids side.other)).connection,
      connection.remoteOffers = []

instance (ids : Side → String) (pair : Duplex SignalingPeer Signal) : Decidable (AtRest ids pair) :=
  inferInstanceAs (Decidable (∀ _ ∈ _, _))

/-- Whether a coordinator that discovers the other creates a connection object that initiates. -/
def Initiates (ids : Side → String) (side : Side) (peer : SignalingPeer) : Prop :=
  peer.peers.has (ids side.other) = false ∧ peer.peers.size < MAX_PEER_CONNECTIONS ∧
    precedes (ids side.other) (ids side) = true

instance (ids : Side → String) (side : Side) (peer : SignalingPeer) :
    Decidable (Initiates ids side peer) :=
  inferInstanceAs (Decidable (_ ∧ _))

/-- A connection object that initiates is created only when nothing of an earlier exchange is left.
-/
def StartsAfresh (ids : Side → String) (pair : Duplex SignalingPeer Signal) :
    DuplexEvent SignalingEvent → Prop
  | .acts side (.peerDiscovered remotePeerId) =>
    remotePeerId = ids side.other → Initiates ids side (pair.parties side) → AtRest ids pair
  | _ => True

instance (ids : Side → String) (pair : Duplex SignalingPeer Signal) :
    DecidablePred (StartsAfresh ids pair)
  | .acts _ (.peerDiscovered _) => inferInstanceAs (Decidable (_ → _ → _))
  | .acts _ (.peerLeft _) | .acts _ (.offerCreated _) | .acts _ (.offerFailed _)
  | .acts _ (.answerCreated _) | .acts _ (.answerFailed _) | .acts _ (.iceCandidate _)
  | .acts _ (.signaled _ _) | .acts _ .stop | .delivered _ | .lost _ =>
    inferInstanceAs (Decidable True)

/-! ### What arrives was sent -/

theorem SignalingMove.sent_eq {initiates : Bool} {view next : SignalingView} {sent : List Signal}
    (hmove : SignalingMove initiates view next sent) :
    next.sent = view.sent ++ sent ∧ next.calls = view.calls := by
  cases hmove <;> simp

theorem SignalingReceipt.calls_subset {view next : SignalingView} {signal : Signal}
    (hreceipt : SignalingReceipt view signal next) :
    next.sent = view.sent ∧ ∀ call ∈ next.calls, call ∈ view.calls ∨ call.signal = signal := by
  cases hreceipt with
  | ignored => exact ⟨rfl, fun _ hmem ↦ Or.inl hmem⟩
  | offer | firstOffer | answer =>
    refine ⟨rfl, fun call hmem ↦ (List.mem_append.mp hmem).imp id fun hnew ↦ ?_⟩
    rw [List.mem_singleton.mp hnew]
    rfl

/-- What is on its way to a coordinator, and what its connections were given, the other one sent. -/
structure Heard (ids : Side → String) (pair : Duplex SignalingPeer Signal) : Prop where
  incoming : ∀ side, ∀ signal ∈ pair.incoming side,
    signal ∈ ((pair.parties side.other).toward (ids side)).sent
  calls : ∀ side, ∀ call ∈ ((pair.parties side).toward (ids side.other)).calls,
    call.signal ∈ ((pair.parties side.other).toward (ids side)).sent

/-- A coordinator that moves sends only what it records, and is given only what was sent. -/
theorem Heard.moved {ids : Side → String} {pair : Duplex SignalingPeer Signal}
    (hheard : Heard ids pair) {side : Side} {outcome : SignalingPeer × List Signal}
    (hsent : (outcome.1.toward (ids side.other)).sent =
      ((pair.parties side).toward (ids side.other)).sent ++ outcome.2)
    (hcalls : ∀ call ∈ (outcome.1.toward (ids side.other)).calls,
      call.signal ∈ ((pair.parties side.other).toward (ids side)).sent) :
    Heard ids (pair.moved side outcome) := by
  constructor
  · intro current signal hmem
    rcases side.eq_or_eq_other current with rfl | rfl
    · simp only [Duplex.moved, Function.update_of_ne current.other_ne.symm,
        Function.update_of_ne current.other_ne] at hmem ⊢
      exact hheard.incoming current signal hmem
    · simp only [Duplex.moved, Function.update_self, Side.other_other] at hmem ⊢
      rw [hsent]
      refine List.mem_append.mpr ((List.mem_append.mp hmem).imp (fun hold ↦ ?_) id)
      simpa only [Side.other_other] using hheard.incoming side.other signal hold
  · intro current call hmem
    rcases side.eq_or_eq_other current with rfl | rfl
    · simp only [Duplex.moved, Function.update_self,
        Function.update_of_ne current.other_ne] at hmem ⊢
      exact hcalls call hmem
    · simp only [Duplex.moved, Function.update_self, Function.update_of_ne side.other_ne,
        Side.other_other] at hmem ⊢
      rw [hsent]
      have hold := hheard.calls side.other call
      simp only [Side.other_other] at hold
      exact List.mem_append_left _ (hold hmem)

theorem Heard.dequeued {ids : Side → String} {pair : Duplex SignalingPeer Signal}
    (hheard : Heard ids pair) (side : Side) : Heard ids (pair.dequeued side) := by
  refine ⟨fun current signal hmem ↦ ?_, hheard.calls⟩
  rcases side.eq_or_eq_other current with rfl | rfl
  · simp only [Duplex.dequeued, Function.update_self] at hmem
    exact hheard.incoming current signal (List.mem_of_mem_tail hmem)
  · simp only [Duplex.dequeued, Function.update_of_ne side.other_ne] at hmem
    exact hheard.incoming side.other signal hmem

theorem heard_new (ids : Side → String) : Heard ids (newPair ids) :=
  ⟨fun _ _ hmem ↦ absurd hmem List.not_mem_nil, fun _ _ hmem ↦ absurd hmem List.not_mem_nil⟩

theorem heard_step (ids : Side → String) (pair : Duplex SignalingPeer Signal)
    (event : DuplexEvent SignalingEvent) (hheard : Heard ids pair) :
    Heard ids (pairStep ids pair event) := by
  cases event with
  | acts side own =>
    have hmove := (actBetween_move (pair.parties side) ids side own).sent_eq
    exact hheard.moved hmove.1 fun call hmem ↦ hheard.calls side call (hmove.2 ▸ hmem)
  | delivered side =>
    rw [pairStep, duplexStep]
    split
    · exact hheard
    · rename_i signal rest hqueue
      have hreceipt :=
        (@handleSignal_receipt (ids side.other) (pair.parties side) signal).calls_subset
      refine (hheard.dequeued side).moved (hreceipt.1.trans (List.append_nil _).symm)
        fun call hmem ↦ ?_
      rcases hreceipt.2 call hmem with hold | hnew
      · exact hheard.calls side call hold
      · rw [hnew]
        exact hheard.incoming side signal (hqueue ▸ List.mem_cons_self)
  | lost side => exact hheard.dequeued side

/-! ### One exchange at a time -/

/-- A signal of the exchange that an object began. -/
def OfExchange (connection : ℕ) : Signal → Prop
  | .offer offeredBy => offeredBy = connection
  | .answer offeredBy _ => offeredBy = connection
  | .ice => True

/-- The part of a coordinator toward the other, if only the exchange is under way that one object of
the side that initiates began. -/
structure OneExchange (exchange : ℕ) (initiates : Bool) (view : SignalingView) : Prop where
  connection : initiates = true → ∀ connection, view.connection = some connection →
    connection.id = exchange
  offering : ∀ connection ∈ view.offers, connection = exchange
  remoteOffers : ∀ connection, view.connection = some connection →
    ∀ offeredBy ∈ connection.remoteOffers, offeredBy = exchange
  answering : ∀ pending ∈ view.answers, pending.2 = exchange
  paired : ∀ call ∈ view.calls, call.Paired

section Steps

variable {exchange : ℕ} {initiates : Bool} {view next : SignalingView}

/-- An event keeps to the exchange, unless it creates another object that initiates. -/
theorem OneExchange.move (hview : OneExchange exchange initiates view) {sent : List Signal}
    (hopened : initiates = true → view.connection = none →
      next.connection = none ∨ exchange = view.created)
    (hmove : SignalingMove initiates view next sent) :
    OneExchange exchange initiates next ∧ ∀ signal ∈ sent, OfExchange exchange signal := by
  cases hmove with
  | idle hcreated => exact ⟨{ hview with }, nofun⟩
  | opened hnone =>
    have hexchange : initiates = true → exchange = view.created := fun hinitiates ↦
      (hopened hinitiates hnone).resolve_left nofun
    refine ⟨{ hview with connection := ?_, offering := ?_, remoteOffers := ?_ }, nofun⟩
    · rintro hinitiates connection hconnection
      rw [← Option.some.inj hconnection, hexchange hinitiates]
    · intro connection hmem
      split_ifs at hmem with hinitiates
      · rcases List.mem_append.mp hmem with hold | hnew
        · exact hview.offering connection hold
        · rw [List.mem_singleton.mp hnew, hexchange hinitiates]
      · exact hview.offering connection hmem
    · rintro connection hconnection offeredBy hmem
      rw [← Option.some.inj hconnection] at hmem
      exact absurd hmem List.not_mem_nil
  | dropped => exact ⟨{ hview with connection := nofun, remoteOffers := nofun }, nofun⟩
  | failed hoffers hanswers =>
    exact ⟨{ hview with
      offering := fun connection hmem ↦ hview.offering connection (hoffers.subset hmem)
      answering := fun pending hmem ↦ hview.answering pending (hanswers.subset hmem) }, nofun⟩
  | offered hmem hoffers =>
    refine ⟨{ hview with
      offering := fun connection hother ↦ hview.offering connection (hoffers.subset hother) },
      fun signal hsignal ↦ ?_⟩
    rw [List.mem_singleton.mp hsignal]
    exact hview.offering _ hmem
  | answered hmem hanswers =>
    refine ⟨{ hview with
      answering := fun pending hother ↦ hview.answering pending (hanswers.subset hother) },
      fun signal hsignal ↦ ?_⟩
    rw [List.mem_singleton.mp hsignal]
    exact hview.answering _ hmem
  | ice =>
    refine ⟨{ hview with }, fun signal hsignal ↦ ?_⟩
    rw [List.mem_singleton.mp hsignal]
    trivial

/-- A connection that was given offers of the exchange only may be given another. -/
theorem OneExchange.acceptOffer (hview : OneExchange exchange initiates view)
    {connection : PeerConnection} (hwaits : initiates = false)
    (hoffers : ∀ offeredBy ∈ connection.remoteOffers, offeredBy = exchange) :
    OneExchange exchange initiates (view.acceptOffer connection exchange) where
  connection := fun hinitiates ↦ by
    rw [hwaits] at hinitiates
    cases hinitiates
  offering := hview.offering
  remoteOffers := by
    intro after hafter offeredBy hmem
    rw [← Option.some.inj hafter] at hmem
    rcases List.mem_append.mp hmem with hold | hnew
    · exact hoffers offeredBy hold
    · exact List.mem_singleton.mp hnew
  answering := by
    intro pending hmem
    rcases List.mem_append.mp hmem with hold | hnew
    · exact hview.answering pending hold
    · rw [List.mem_singleton.mp hnew]
  paired := by
    intro call hmem
    rcases List.mem_append.mp hmem with hold | hnew
    · exact hview.paired call hold
    · rw [List.mem_singleton.mp hnew]
      exact hoffers

/-- A signal of the exchange keeps to it. -/
theorem OneExchange.receipt (hview : OneExchange exchange initiates view) {answers : Bool}
    {signal : Signal} (hasymm : answers = true → initiates = false)
    (hrole : RoleOf answers initiates signal) (hexchange : OfExchange exchange signal)
    (hreceipt : SignalingReceipt view signal next) : OneExchange exchange initiates next := by
  cases hreceipt with
  | ignored => exact hview
  | offer hconnection offeredBy =>
    obtain rfl : offeredBy = exchange := hexchange
    exact hview.acceptOffer (hasymm hrole) (hview.remoteOffers _ hconnection)
  | firstOffer hnone offeredBy =>
    obtain rfl : offeredBy = exchange := hexchange
    have hcreated : OneExchange offeredBy initiates { view with created := view.created + 1 } :=
      { hview with }
    exact hcreated.acceptOffer (hasymm hrole) fun _ hmem ↦ absurd hmem List.not_mem_nil
  | answer hconnection offeredBy answeredBy =>
    refine { hview with paired := fun call hmem ↦ ?_ }
    rcases List.mem_append.mp hmem with hold | hnew
    · exact hview.paired call hold
    · rw [List.mem_singleton.mp hnew]
      exact hexchange.trans (hview.connection hrole _ hconnection).symm

end Steps

/-! ### Both coordinators -/

/-- Without a discovery that creates an object that initiates there is none after an event. -/
theorem connection_actBetween (ids : Side → String) (side : Side) (event : SignalingEvent)
    {peer : SignalingPeer}
    (hdiscovers : event = .peerDiscovered (ids side.other) → ¬ Initiates ids side peer)
    (hinitiates : precedes (ids side.other) (ids side) = true)
    (hnone : (peer.toward (ids side.other)).connection = none) :
    ((actBetween ids side event peer).1.toward (ids side.other)).connection = none := by
  cases event with
  | peerDiscovered discovered =>
    by_cases hremote : discovered = ids side.other
    · subst hremote
      have hhas : peer.peers.has (ids side.other) = false := OrderedMap.has_eq_false_iff.mpr hnone
      have hfull : MAX_PEER_CONNECTIONS ≤ peer.peers.size := by
        by_contra hroom
        exact hdiscovers rfl ⟨hhas, not_le.mp hroom, hinitiates⟩
      simp only [actBetween, signalingStep, SignalingPeer.handlePeerDiscovered, hhas, hfull]
      split_ifs <;> exact hnone
    · simp only [actBetween, signalingStep, SignalingPeer.handlePeerDiscovered]
      split_ifs
      · exact hnone
      · exact hnone
      · exact hnone
      · rwa [toward_createOffer_of_ne _ hremote, toward_openConnection_of_ne _ hremote]
      · rwa [toward_openConnection_of_ne _ hremote]
  | peerLeft left =>
    by_cases hremote : left = ids side.other
    · subst hremote
      simp only [actBetween, signalingStep, toward_handlePeerLeft_self]
    · simp only [actBetween, signalingStep, toward_handlePeerLeft_of_ne _ hremote]
      exact hnone
  | offerCreated index =>
    simp only [actBetween, signalingStep]
    split <;> exact hnone
  | answerCreated index =>
    simp only [actBetween, signalingStep]
    split <;> exact hnone
  | iceCandidate other =>
    simp only [actBetween, signalingStep]
    split_ifs <;> exact hnone
  | signaled other signal =>
    rw [actBetween]
    split_ifs with hremote
    · exact hnone
    · obtain ⟨created, _, hview⟩ := handleSignal_foreign peer hremote signal
      rw [hview]
      exact hnone
  | offerFailed _ | answerFailed _ => exact hnone
  | stop => rfl

/-- A coordinator that keeps its role and to the exchange. -/
def KeepsExchange (ids : Side → String) (exchange : ℕ) (side : Side)
    (peer : SignalingPeer) : Prop :=
  KeepsRole ids side peer ∧
    OneExchange exchange (precedes (ids side.other) (ids side)) (peer.toward (ids side.other))

/-- A signal on its way that fits the role of its sender and belongs to the exchange. -/
def FitsExchange (ids : Side → String) (exchange : ℕ) (side : Side) (signal : Signal) : Prop :=
  FitsRole ids side signal ∧ OfExchange exchange signal

/-- Two coordinators between which only one exchange is under way. -/
def Exclusively (ids : Side → String) (exchange : ℕ) : Duplex SignalingPeer Signal → Prop :=
  Consistent (KeepsExchange ids exchange) (FitsExchange ids exchange)

/-- When nothing of an earlier exchange is left, the next object to be created may begin one. -/
theorem Exclusively.of_atRest {ids : Side → String} {pair : Duplex SignalingPeer Signal}
    {exchange : ℕ} (hpair : Exclusively ids exchange pair) (hrest : AtRest ids pair) (next : ℕ)
    (hnone : ∀ side, precedes (ids side.other) (ids side) = true →
      ((pair.parties side).toward (ids side.other)).connection = none) :
    Exclusively ids next pair := by
  have hboth : ∀ side ∈ [Side.first, .second], _ := hrest
  have hmem : ∀ side : Side, side ∈ [Side.first, .second] := fun side ↦ by cases side <;> simp
  constructor
  · intro side
    obtain ⟨_, hoffers, hanswers, hremote⟩ := hboth side (hmem side)
    refine ⟨(hpair.party side).1, fun hinitiates connection hconnection ↦ ?_, ?_, ?_, ?_,
      (hpair.party side).2.paired⟩
    · rw [hnone side hinitiates] at hconnection
      cases hconnection
    · rw [hoffers]
      nofun
    · intro connection hconnection offeredBy hoffered
      rw [hremote connection hconnection] at hoffered
      exact absurd hoffered List.not_mem_nil
    · rw [hanswers]
      nofun
  · intro side signal hsignal
    refine ⟨(hpair.message side signal hsignal).1, ?_⟩
    have hice := List.all_eq_true.mp (hboth side (hmem side)).1 signal hsignal
    cases signal with
    | ice => trivial
    | offer _ | answer _ _ => exact absurd hice (by simp [Signal.negotiates])

/-- A step keeps to an exchange, unless it creates an object that initiates and has another number.
-/
theorem Exclusively.step {ids : Side → String} {pair : Duplex SignalingPeer Signal} {exchange : ℕ}
    (hpair : Exclusively ids exchange pair) (event : DuplexEvent SignalingEvent)
    (hcreates : ∀ side, event = .acts side (.peerDiscovered (ids side.other)) →
      Initiates ids side (pair.parties side) → exchange = (pair.parties side).created) :
    Exclusively ids exchange (pairStep ids pair event) := by
  refine Consistent.step hpair (fun side own hown hparty ↦ ?_)
    fun side signal peer hparty hsignal ↦ ?_
  · have hmove := actBetween_move (pair.parties side) ids side own
    rw [hparty.1.1] at hmove
    have hrole := hparty.1.2.move hmove
    have hexchange := hparty.2.move (fun hinitiates hnone ↦ by
      by_cases hcreating : own = .peerDiscovered (ids side.other) ∧
          Initiates ids side (pair.parties side)
      · exact Or.inr (hcreates side (hcreating.1 ▸ hown) hcreating.2)
      · exact Or.inl (connection_actBetween ids side own
          (fun hdiscovers hopens ↦ hcreating ⟨hdiscovers, hopens⟩) hinitiates hnone)) hmove
    refine ⟨⟨⟨(localPeerId_actBetween ids side own _).trans hparty.1.1, hrole.1⟩, hexchange.1⟩,
      fun sent hsent ↦ ⟨?_, hexchange.2 sent hsent⟩⟩
    simpa only [FitsRole, Side.other_other] using hrole.2 sent hsent
  · have hreceipt := @handleSignal_receipt (ids side.other) peer signal
    refine ⟨⟨⟨(localPeerId_handleSignal _ signal peer).trans hparty.1.1, ?_⟩, ?_⟩,
      fun _ hsent ↦ absurd hsent List.not_mem_nil⟩
    · exact hparty.1.2.receipt precedes_asymm hsignal.1 hreceipt
    · exact hparty.2.receipt precedes_asymm hsignal.1 hsignal.2 hreceipt

/-- A step that starts afresh leaves one exchange under way. -/
theorem exclusively_step (ids : Side → String) (pair : Duplex SignalingPeer Signal)
    (event : DuplexEvent SignalingEvent) (hpair : ∃ exchange, Exclusively ids exchange pair)
    (hafresh : StartsAfresh ids pair event) :
    ∃ exchange, Exclusively ids exchange (pairStep ids pair event) := by
  obtain ⟨exchange, hpair⟩ := hpair
  by_cases hcreating : ∃ side, event = .acts side (.peerDiscovered (ids side.other)) ∧
      Initiates ids side (pair.parties side)
  · obtain ⟨side, rfl, hinitiates⟩ := hcreating
    have hrest := hafresh rfl hinitiates
    refine ⟨(pair.parties side).created, (hpair.of_atRest hrest _ fun current hcurrent ↦ ?_).step _
      fun current hsame _ ↦ ?_⟩
    · rcases side.eq_or_eq_other current with rfl | rfl
      · exact OrderedMap.has_eq_false_iff.mp hinitiates.1
      · rw [Side.other_other, precedes_asymm hinitiates.2.2] at hcurrent
        cases hcurrent
    · cases hsame
      rfl
  · exact ⟨exchange, hpair.step event fun side hevent hinitiates ↦
      absurd ⟨side, hevent, hinitiates⟩ hcreating⟩

/-- **Offers and answers are paired** in every run of two coordinators in which a connection object
that initiates is created only when no exchange is under way and the other side holds no object that
was given an offer. Whatever else the room, the promises, the relay and other peers do: an answer is
applied only to the object whose offer it answers, an offer is applied to an object only if that was
given no offer of a different object, and both were sent by the other coordinator. -/
theorem wellPaired_of_startsAfresh (ids : Side → String)
    {events : List (DuplexEvent SignalingEvent)}
    (hafresh : Along (pairStep ids) (StartsAfresh ids) (newPair ids) events) (side : Side) :
    WellPaired ids (pairRun ids events) side := by
  have hnew : ∃ exchange, Exclusively ids exchange (newPair ids) := by
    refine ⟨0, fun current ↦ ⟨(noGlare_new ids).party current, ?_⟩,
      fun _ _ hmem ↦ absurd hmem List.not_mem_nil⟩
    exact ⟨nofun, nofun, nofun, nofun, nofun⟩
  obtain ⟨exchange, hpair⟩ := run_invariant _ (exclusively_step ids) hnew hafresh
  have hheard := run_invariant_of_step (Heard ids) (heard_step ids) (heard_new ids) events
  exact fun call hcall ↦ ⟨(hpair.party side).2.paired call hcall, hheard.calls side call hcall⟩

/-! ### Two runs -/

/-- Two coordinators of which the first has the greater id. -/
def twoIds : Side → String
  | .first => "peer-b"
  | .second => "peer-a"

/-- The first discovers the second and sends its offer. -/
def offering : List (DuplexEvent SignalingEvent) :=
  [.acts .first (.peerDiscovered "peer-a"), .acts .first (.offerCreated 0)]

/-- The second gets the offer and answers. -/
def answering : List (DuplexEvent SignalingEvent) :=
  [.delivered .second, .acts .second (.answerCreated 0)]

/-- A negotiation that is completed, left by both, and repeated. -/
def renegotiatedRun : List (DuplexEvent SignalingEvent) :=
  offering ++ answering ++ [.delivered .first, .acts .first (.peerLeft "peer-a"),
    .acts .second (.peerLeft "peer-b")] ++ offering ++ answering ++ [.delivered .first]

/-- The first drops its connection and discovers the second again while the answer is on its way;
the second keeps its connection. -/
def rediscoveredRun : List (DuplexEvent SignalingEvent) :=
  offering ++ answering ++ [.acts .first (.peerLeft "peer-a")] ++ offering ++
    [.delivered .first, .delivered .second]

/-- The repeated negotiation is paired, in both of its rounds. -/
theorem wellPaired_of_startsAfresh_renegotiated :
    WellPaired twoIds (pairRun twoIds renegotiatedRun) .first ∧
      ((pairRun twoIds renegotiatedRun).parties .first).calls =
        [("peer-a", .setRemoteAnswer ⟨0, true, []⟩ 0 0),
          ("peer-a", .setRemoteAnswer ⟨1, true, []⟩ 1 1)] :=
  ⟨wellPaired_of_startsAfresh twoIds (by decide +kernel) .first, by decide +kernel⟩

/-- After the rediscovery the answer to the offer of the first object is applied to the second
object, which has made an offer of its own, and that offer is applied to the object that was given
the first one. -/
theorem rediscoveredRun_not_wellPaired :
    twoIds .first ≠ twoIds .second ∧
      ¬ WellPaired twoIds (pairRun twoIds rediscoveredRun) .first ∧
      ¬ WellPaired twoIds (pairRun twoIds rediscoveredRun) .second ∧
      ((pairRun twoIds rediscoveredRun).parties .first).calls =
        [("peer-a", .setRemoteAnswer ⟨1, true, []⟩ 0 0)] ∧
      ((pairRun twoIds rediscoveredRun).parties .second).calls =
        [("peer-b", .setRemoteOffer ⟨0, false, []⟩ 0),
          ("peer-b", .setRemoteOffer ⟨0, false, [0]⟩ 1)] := by
  decide +kernel

end CampusMesh.Web
