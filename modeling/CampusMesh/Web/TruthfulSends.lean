import CampusMesh.Web.Backpressure
import Mathlib.Data.List.Nodup

/-!
# What the result of `send` says

A caller takes `false` for "not sent" and `true` for "sent or queued". The channel's own `send` may
throw. When it throws in `send`, the message is queued and the result is `false` all the same, so a
later drain hands it over. When it throws in a drain, the message is off the queue already and is
lost. The results are true in all states of exactly the runs in which each drain, of the messages
that it comes to, hands over those that were accepted and throws on those that were refused
(`resultsStayTrue_iff`).
-/

set_option autoImplicit false
set_option relaxedAutoImplicit false

namespace CampusMesh.Web

open Library Shared DataConnection

/-! ### The promise -/

/-- A message of a call that returned `false` was not handed over. One of a call that returned
`true` was handed over at most once, and until `close` it was handed over or is queued. -/
structure ResultsTrue (connection : DataConnection) : Prop where
  refused : ∀ message, (message, false) ∈ connection.calls → message ∉ connection.handed
  accepted : ∀ message, (message, true) ∈ connection.calls →
    connection.handed.count message ≤ 1 ∧
      (connection.isClosed = false →
        message ∈ connection.handed ∨ message ∈ connection.sendQueue)

/-- The results of all calls are true in every state of the run. -/
def ResultsStayTrue (throws : ℕ → Bool) (events : List ChannelEvent) : Prop :=
  ∀ before later, events = before ++ later → ResultsTrue (channelRun throws before)

/-- If the event drains the queue, the channel throws on a message to which the drain comes exactly
when the call of the message returned `false`. -/
def ThrowsOnRefused (throws : ℕ → Bool) (connection : DataConnection) (event : ChannelEvent) :
    Prop :=
  event = .bufferedAmountLow → ∀ channel, connection.dataChannel = some channel →
    channel.readyState = .opened → channel.lowEvents ≠ 0 →
      ∀ place message, connection.sendQueue[place]? = some message →
        Reached throws connection.attempts connection.sendQueue channel.bufferedAmount place →
          (throws (connection.attempts + place) = true ↔ (message, false) ∈ connection.calls)

/-! ### The messages that are under way -/

/-- The calls are numbered in their order. Every message that is queued or handed over is of a call,
and it is there once. A closed connection queues nothing. -/
structure Traced (connection : DataConnection) : Prop where
  numbered : ∀ (index : ℕ) (entry : Outgoing × Bool), connection.calls[index]? = some entry →
    entry.1.call = index
  known : ∀ message ∈ connection.handed ++ connection.sendQueue,
    ∃ result, (message, result) ∈ connection.calls
  nodup : (connection.handed ++ connection.sendQueue).Nodup
  closed : connection.isClosed = true → connection.sendQueue = []

section Steps

variable {throws : ℕ → Bool} {connection next : DataConnection}

theorem traced_new : Traced DataConnection.new where
  numbered _ _ h := absurd h (by simp [DataConnection.new])
  known _ h := absurd h List.not_mem_nil
  nodup := List.nodup_nil
  closed _ := rfl

theorem resultsTrue_new : ResultsTrue DataConnection.new :=
  ⟨fun _ h ↦ absurd h List.not_mem_nil, fun _ h ↦ absurd h List.not_mem_nil⟩

/-- No call has two results. -/
theorem Traced.result_unique (htraced : Traced connection) {message : Outgoing}
    (hrefused : (message, false) ∈ connection.calls) : (message, true) ∉ connection.calls := by
  intro haccepted
  obtain ⟨first, hfirst⟩ := List.mem_iff_getElem?.mp hrefused
  obtain ⟨second, hsecond⟩ := List.mem_iff_getElem?.mp haccepted
  have hfirstCall : message.call = first := htraced.numbered first _ hfirst
  have hsecondCall : message.call = second := htraced.numbered second _ hsecond
  rw [← hfirstCall, hsecondCall, hsecond, Option.some.injEq] at hfirst
  exact absurd (congrArg Prod.snd hfirst) (by simp)

theorem Traced.nodup_handed (htraced : Traced connection) : connection.handed.Nodup :=
  (List.nodup_append.mp htraced.nodup).1

/-- What changes neither the calls nor the messages changes nothing here. -/
theorem Traced.congr (htraced : Traced connection)
    (hcalls : next.calls = connection.calls) (hhanded : next.handed = connection.handed)
    (hqueue : next.sendQueue = connection.sendQueue)
    (hclosed : next.isClosed = connection.isClosed) : Traced next where
  numbered := hcalls ▸ htraced.numbered
  known := by
    rw [hhanded, hqueue, hcalls]
    exact htraced.known
  nodup := by
    rw [hhanded, hqueue]
    exact htraced.nodup
  closed h := by
    rw [hqueue]
    exact htraced.closed (hclosed ▸ h)

theorem ResultsTrue.congr (hresults : ResultsTrue connection)
    (hcalls : next.calls = connection.calls) (hhanded : next.handed = connection.handed)
    (hqueue : next.sendQueue = connection.sendQueue)
    (hclosed : next.isClosed = connection.isClosed) : ResultsTrue next where
  refused := by
    rw [hcalls, hhanded]
    exact hresults.refused
  accepted := by
    rw [hcalls, hhanded, hqueue, hclosed]
    exact hresults.accepted

/-! ### Sending -/

/-- What a call of `send` does: its message is put nowhere and refused, or it is queued or handed
over. A message that is handed over at once is accepted. -/
structure Placed (connection next : DataConnection) (message : Outgoing)
    (result : Bool) : Prop where
  calls : next.calls = connection.calls ++ [(message, result)]
  isClosed : next.isClosed = connection.isClosed
  placed : next.handed ++ next.sendQueue = connection.handed ++ connection.sendQueue ∧
      result = false ∨
    next.handed ++ next.sendQueue = connection.handed ++ connection.sendQueue ++ [message]
  handed : next.handed = connection.handed ∨
    next.handed = connection.handed ++ [message] ∧ result = true
  closed : connection.isClosed = true → next.sendQueue = connection.sendQueue

theorem send_placed (throws : ℕ → Bool) (buffer : Bytes) (connection : DataConnection) :
    ∃ result, Placed connection (connection.send throws buffer)
      ⟨connection.calls.length, buffer⟩ result := by
  refine ⟨(connection.sendMessage throws ⟨connection.calls.length, buffer⟩).2, ?_⟩
  unfold DataConnection.send sendMessage
  simp only
  split
  · next channel hclosed _ =>
    have hnot : connection.isClosed ≠ true := by simp [hclosed]
    split_ifs with hopened hwait hthrows
    · exact ⟨rfl, rfl, Or.inl ⟨rfl, rfl⟩, Or.inl rfl, fun _ ↦ rfl⟩
    · exact ⟨rfl, rfl, Or.inr (List.append_assoc _ _ _).symm, Or.inl rfl, fun h ↦ absurd h hnot⟩
    · exact ⟨rfl, rfl, Or.inr (List.append_assoc _ _ _).symm, Or.inl rfl, fun h ↦ absurd h hnot⟩
    · have hempty := not_not.mp (not_or.mp hwait).1
      refine ⟨rfl, rfl, Or.inr ?_, Or.inr ⟨rfl, rfl⟩, fun _ ↦ rfl⟩
      change connection.handed ++ [_] ++ connection.sendQueue = _
      rw [hempty, List.append_nil, List.append_nil]
  · exact ⟨rfl, rfl, Or.inl ⟨rfl, rfl⟩, Or.inl rfl, fun _ ↦ rfl⟩

/-- An earlier message is not that of a new call. -/
theorem Traced.ne_fresh (htraced : Traced connection) {message : Outgoing} {result : Bool}
    (hcall : (message, result) ∈ connection.calls) (buffer : Bytes) :
    message ≠ ⟨connection.calls.length, buffer⟩ := by
  obtain ⟨index, hindex⟩ := List.mem_iff_getElem?.mp hcall
  have hlt := (List.getElem?_eq_some_iff.mp hindex).1
  rintro rfl
  exact absurd (htraced.numbered index _ hindex) hlt.ne'

/-- The message of a new call is not yet under way. -/
theorem Traced.fresh (htraced : Traced connection) (buffer : Bytes) :
    (⟨connection.calls.length, buffer⟩ : Outgoing) ∉
      connection.handed ++ connection.sendQueue := by
  intro hmem
  obtain ⟨result, hcall⟩ := htraced.known _ hmem
  exact htraced.ne_fresh hcall buffer rfl

theorem Traced.send (htraced : Traced connection) (throws : ℕ → Bool) (buffer : Bytes) :
    Traced (connection.send throws buffer) := by
  obtain ⟨result, hplaced⟩ := send_placed throws buffer connection
  refine ⟨fun index entry hentry ↦ ?_, fun message hmem ↦ ?_, ?_, fun hclosed ↦ ?_⟩
  · rw [hplaced.calls, List.getElem?_append] at hentry
    split_ifs at hentry with hlt
    · exact htraced.numbered index entry hentry
    · obtain ⟨hzero, hlast⟩ := List.getElem?_eq_some_iff.mp hentry
      rw [List.length_singleton, Nat.lt_one_iff] at hzero
      rw [← hlast, List.getElem_singleton]
      change connection.calls.length = index
      omega
  · rw [hplaced.calls]
    have hold : message ∈ connection.handed ++ connection.sendQueue → ∃ earlier,
        (message, earlier) ∈ connection.calls ++ [(⟨connection.calls.length, buffer⟩, result)] :=
      fun h ↦ (htraced.known message h).imp fun _ ↦ List.mem_append_left _
    rcases hplaced.placed with ⟨hsame, -⟩ | hadded
    · exact hold (hsame ▸ hmem)
    · rw [hadded] at hmem
      rcases List.mem_append.mp hmem with hearlier | hnew
      · exact hold hearlier
      · rw [List.mem_singleton.mp hnew]
        exact ⟨result, List.mem_append_right _ (List.mem_singleton_self _)⟩
  · rcases hplaced.placed with ⟨hsame, -⟩ | hadded
    · rw [hsame]
      exact htraced.nodup
    · rw [hadded, List.nodup_append]
      refine ⟨htraced.nodup, List.nodup_singleton _, fun first hfirst second hsecond ↦ ?_⟩
      rintro rfl
      rw [List.mem_singleton.mp hsecond] at hfirst
      exact htraced.fresh buffer hfirst
  · rw [hplaced.isClosed] at hclosed
    rw [hplaced.closed hclosed]
    exact htraced.closed hclosed

/-- A call of `send` keeps the results of all calls true, also when the channel throws. -/
theorem ResultsTrue.send (hresults : ResultsTrue connection) (htraced : Traced connection)
    (throws : ℕ → Bool) (buffer : Bytes) : ResultsTrue (connection.send throws buffer) := by
  have hnodup := (htraced.send throws buffer).nodup_handed
  obtain ⟨result, hplaced⟩ := send_placed throws buffer connection
  refine ⟨fun message hcall hhanded ↦ ?_, fun message hcall ↦
    ⟨List.nodup_iff_count_le_one.mp hnodup message, fun hopen ↦ List.mem_append.mp ?_⟩⟩
  · rw [hplaced.calls] at hcall
    rcases List.mem_append.mp hcall with hold | hnew
    · have hne := htraced.ne_fresh hold buffer
      rcases hplaced.handed with hsame | ⟨hadded, -⟩
      · exact hresults.refused message hold (hsame ▸ hhanded)
      · rw [hadded] at hhanded
        rcases List.mem_append.mp hhanded with hearlier | hlast
        · exact hresults.refused message hold hearlier
        · exact hne (List.mem_singleton.mp hlast)
    · obtain ⟨rfl, hfalse⟩ := Prod.mk.inj (List.mem_singleton.mp hnew)
      rcases hplaced.handed with hsame | ⟨-, htrue⟩
      · exact htraced.fresh buffer (List.mem_append_left _ (hsame ▸ hhanded))
      · exact absurd (hfalse.trans htrue) Bool.false_ne_true
  · rw [hplaced.calls] at hcall
    rw [hplaced.isClosed] at hopen
    rcases List.mem_append.mp hcall with hold | hnew
    · have hkept := List.mem_append.mpr ((hresults.accepted message hold).2 hopen)
      rcases hplaced.placed with ⟨hsame, -⟩ | hadded
      · rw [hsame]
        exact hkept
      · rw [hadded]
        exact List.mem_append_left _ hkept
    · obtain ⟨rfl, htrue⟩ := Prod.mk.inj (List.mem_singleton.mp hnew)
      rcases hplaced.placed with ⟨-, hfalse⟩ | hadded
      · exact absurd (hfalse.symm.trans htrue.symm) Bool.false_ne_true
      · rw [hadded]
        exact List.mem_append_right _ (List.mem_singleton_self _)

/-! ### Draining -/

section Drain

variable {channel : RTCDataChannel} {taken lost : List Outgoing}

theorem Traced.drained (htraced : Traced connection)
    (hdrained : Drained throws connection.sendQueue channel connection next taken lost) :
    Traced next := by
  have hmessages : connection.handed ++ connection.sendQueue =
      next.handed ++ (lost ++ next.sendQueue) := by
    rw [hdrained.queue_eq, hdrained.handed, List.append_assoc]
  have hsub : (next.handed ++ next.sendQueue).Sublist
      (connection.handed ++ connection.sendQueue) := by
    rw [hmessages]
    exact List.Sublist.append_left (List.sublist_append_right lost _) _
  refine ⟨hdrained.calls ▸ htraced.numbered, fun message hmem ↦ ?_, htraced.nodup.sublist hsub,
    fun hclosed ↦ ?_⟩
  · rw [hdrained.calls]
    exact htraced.known message (hsub.subset hmem)
  · have hempty := htraced.closed (hdrained.isClosed ▸ hclosed)
    rw [hdrained.queue_eq] at hempty
    exact (List.append_eq_nil_iff.mp (List.append_eq_nil_iff.mp hempty).2).2

/-- The queue begins with the messages that the drain hands over. -/
theorem queued_of_taken
    (hdrained : Drained throws connection.sendQueue channel connection next taken lost) {place : ℕ}
    (hlt : place < taken.length) : connection.sendQueue[place]? = taken[place]? := by
  rw [hdrained.queue_eq, List.getElem?_append_left hlt]

/-- The message that is lost comes next. -/
theorem queued_of_dropped {dropped : Outgoing}
    (hdrained : Drained throws connection.sendQueue channel connection next taken [dropped]) :
    connection.sendQueue[taken.length]? = some dropped := by
  rw [hdrained.queue_eq, List.getElem?_append_right le_rfl, Nat.sub_self, List.singleton_append,
    List.getElem?_cons_zero]

/-- An accepted message would be neither handed over nor queued any more. -/
theorem refused_of_dropped (htraced : Traced connection) {dropped : Outgoing}
    (hdrained : Drained throws connection.sendQueue channel connection next taken [dropped])
    (hafter : ResultsTrue next) : (dropped, false) ∈ connection.calls := by
  have hmem : dropped ∈ connection.sendQueue :=
    List.mem_of_getElem? (queued_of_dropped hdrained)
  obtain ⟨result, hcall⟩ := htraced.known dropped (List.mem_append_right _ hmem)
  cases result with
  | false => exact hcall
  | true =>
    exfalso
    have hopen : connection.isClosed = false := by
      refine Bool.eq_false_of_not_eq_true fun hclosed ↦ ?_
      rw [htraced.closed hclosed] at hmem
      exact absurd hmem List.not_mem_nil
    have hnodup := htraced.nodup
    rw [hdrained.queue_eq, ← List.append_assoc, ← hdrained.handed, List.singleton_append,
      List.nodup_middle, List.nodup_cons] at hnodup
    exact hnodup.1 (List.mem_append.mpr ((hafter.accepted dropped (hdrained.calls ▸ hcall)).2
      (hdrained.isClosed.trans hopen)))

/-- A drain that hands over no refused message and loses no accepted one keeps the results true. -/
theorem ResultsTrue.drained (hresults : ResultsTrue connection) (htraced : Traced connection)
    (hdrained : Drained throws connection.sendQueue channel connection next taken lost)
    (htaken : ∀ message ∈ taken, (message, false) ∉ connection.calls)
    (hlost : ∀ message ∈ lost, (message, true) ∉ connection.calls) : ResultsTrue next := by
  have hnext := htraced.drained hdrained
  refine ⟨fun message hrefused hhanded ↦ ?_, fun message haccepted ↦
    ⟨List.nodup_iff_count_le_one.mp hnext.nodup_handed message, fun hopen ↦ ?_⟩⟩
  · rw [hdrained.calls] at hrefused
    rw [hdrained.handed] at hhanded
    rcases List.mem_append.mp hhanded with hearlier | hmem
    · exact hresults.refused message hrefused hearlier
    · exact htaken message hmem hrefused
  · rw [hdrained.calls] at haccepted
    rw [hdrained.isClosed] at hopen
    rw [hdrained.handed]
    rcases (hresults.accepted message haccepted).2 hopen with hearlier | hqueued
    · exact Or.inl (List.mem_append_left _ hearlier)
    rw [hdrained.queue_eq] at hqueued
    rcases List.mem_append.mp hqueued with hmem | hrest
    · exact Or.inl (List.mem_append_right _ hmem)
    rcases List.mem_append.mp hrest with hmem | hkept
    · exact absurd haccepted (hlost message hmem)
    · exact Or.inr hkept

/-- A drain keeps the results true exactly when the channel throws on the refused messages that it
comes to and on no others. -/
theorem resultsTrue_drained_iff (htraced : Traced connection) (hresults : ResultsTrue connection)
    (hdrained : Drained throws connection.sendQueue channel connection next taken lost) :
    ResultsTrue next ↔ ∀ (place : ℕ) (message : Outgoing),
      connection.sendQueue[place]? = some message →
        Reached throws connection.attempts connection.sendQueue channel.bufferedAmount place →
          (throws (connection.attempts + place) = true ↔ (message, false) ∈ connection.calls) := by
  constructor
  · intro hafter place message hmessage hreached
    have hlt := (List.getElem?_eq_some_iff.mp hmessage).1
    rcases (hdrained.reached place hlt).mp hreached with htaken | ⟨rfl, hlost⟩
    · rw [hdrained.succeeds place htaken]
      refine iff_of_false Bool.false_ne_true fun hrefused ↦ ?_
      refine hafter.refused message (hdrained.calls ▸ hrefused) ?_
      rw [queued_of_taken hdrained htaken] at hmessage
      rw [hdrained.handed]
      exact List.mem_append_right _ (List.mem_of_getElem? hmessage)
    · obtain ⟨⟨dropped, rfl⟩, hthrows⟩ := hdrained.fails hlost
      rw [queued_of_dropped hdrained, Option.some.injEq] at hmessage
      subst hmessage
      exact iff_of_true hthrows (refused_of_dropped htraced hdrained hafter)
  · intro hhonest
    refine hresults.drained htraced hdrained (fun message hmem hrefused ↦ ?_)
      fun message hmem haccepted ↦ ?_
    · obtain ⟨place, hplace⟩ := List.mem_iff_getElem?.mp hmem
      have hlt := (List.getElem?_eq_some_iff.mp hplace).1
      rw [← queued_of_taken hdrained hlt] at hplace
      have hreached := (hdrained.reached place (List.getElem?_eq_some_iff.mp hplace).1).mpr
        (Or.inl hlt)
      have hthrows := (hhonest place message hplace hreached).mpr hrefused
      rw [hdrained.succeeds place hlt] at hthrows
      exact Bool.false_ne_true hthrows
    · obtain ⟨⟨dropped, rfl⟩, hthrows⟩ := hdrained.fails (List.ne_nil_of_mem hmem)
      have hplace := queued_of_dropped hdrained
      rw [← List.mem_singleton.mp hmem] at hplace
      have hreached := (hdrained.reached taken.length
        (List.getElem?_eq_some_iff.mp hplace).1).mpr (Or.inr ⟨rfl, by simp⟩)
      exact htraced.result_unique ((hhonest _ message hplace hreached).mp hthrows) haccepted

end Drain

/-! ### Every run -/

theorem Traced.close (htraced : Traced connection) : Traced connection.close := by
  unfold DataConnection.close
  split_ifs
  · exact htraced
  · refine ⟨htraced.numbered, fun message hmem ↦ ?_, ?_, fun _ ↦ rfl⟩
    · rw [List.append_nil] at hmem
      exact htraced.known message (List.mem_append_left _ hmem)
    · rw [List.append_nil]
      exact htraced.nodup_handed

/-- A `bufferedamountlow` event changes no message, or it drains the queue of an open channel. -/
theorem onBufferedAmountLow_cases (throws : ℕ → Bool) (connection : DataConnection) :
    ((∀ channel, connection.dataChannel = some channel → channel.readyState = .opened →
          channel.lowEvents = 0) ∧
        (onBufferedAmountLow throws connection).calls = connection.calls ∧
        (onBufferedAmountLow throws connection).handed = connection.handed ∧
        (onBufferedAmountLow throws connection).sendQueue = connection.sendQueue ∧
        (onBufferedAmountLow throws connection).isClosed = connection.isClosed) ∨
      ∃ channel taken lost, connection.dataChannel = some channel ∧
        channel.readyState = .opened ∧ channel.lowEvents ≠ 0 ∧
        Drained throws connection.sendQueue channel connection
          (onBufferedAmountLow throws connection) taken lost := by
  cases hchannel : connection.dataChannel with
  | none =>
    refine Or.inl ⟨fun _ h ↦ absurd h (by simp), ?_⟩
    unfold onBufferedAmountLow
    rw [hchannel]
    exact ⟨rfl, rfl, rfl, rfl⟩
  | some channel =>
    by_cases hdrains : channel.readyState = .opened ∧ channel.lowEvents ≠ 0
    · obtain ⟨taken, lost, hdrained⟩ := drainLoop_spec throws connection.sendQueue
        { channel with lowEvents := channel.lowEvents - 1 }
        { connection with dataChannel := some { channel with lowEvents := channel.lowEvents - 1 } }
      rw [← onBufferedAmountLow_eq hchannel hdrains.1 hdrains.2] at hdrained
      exact Or.inr ⟨channel, taken, lost, rfl, hdrains.1, hdrains.2, hdrained.queue_eq,
        hdrained.handed, hdrained.calls, hdrained.isClosed, hdrained.reached, hdrained.succeeds,
        hdrained.fails⟩
    · refine Or.inl ⟨fun other hother hopened ↦ ?_, ?_⟩
      · rw [← Option.some.inj hother] at hopened ⊢
        exact not_not.mp (not_and.mp hdrains hopened)
      · unfold onBufferedAmountLow
        rw [hchannel]
        simp only
        split_ifs with hnone
        · exact ⟨rfl, rfl, rfl, rfl⟩
        · unfold drainSendQueue onChannel
          rw [hchannel]
          simp only [Option.map_some]
          rw [if_pos fun hopened ↦ hdrains ⟨hopened, hnone⟩]
          exact ⟨rfl, rfl, rfl, rfl⟩

theorem Traced.step (htraced : Traced connection) (throws : ℕ → Bool) (event : ChannelEvent) :
    Traced (channelStep throws connection event) := by
  cases event with
  | send buffer => exact htraced.send throws buffer
  | close => exact htraced.close
  | bufferedAmountLow =>
    rcases onBufferedAmountLow_cases throws connection with
      ⟨-, hcalls, hhanded, hqueue, hclosed⟩ | ⟨channel, taken, lost, -, -, -, hdrained⟩
    · exact htraced.congr hcalls hhanded hqueue hclosed
    · exact htraced.drained hdrained
  | setupDataChannel | readyStateChange | transmit => exact htraced.congr rfl rfl rfl rfl

/-- Of all events only a drain can make a result false. -/
theorem resultsTrue_step_iff (htraced : Traced connection) (hresults : ResultsTrue connection)
    (throws : ℕ → Bool) (event : ChannelEvent) :
    ResultsTrue (channelStep throws connection event) ↔
      ThrowsOnRefused throws connection event := by
  have hother : ∀ {result : DataConnection}, ResultsTrue result → event ≠ .bufferedAmountLow →
      (ResultsTrue result ↔ ThrowsOnRefused throws connection event) :=
    fun htrue hne ↦ iff_of_true htrue fun heq ↦ absurd heq hne
  cases event with
  | send buffer => exact hother (hresults.send htraced throws buffer) (by simp)
  | close =>
    refine hother ?_ (by simp)
    unfold channelStep DataConnection.close
    simp only
    split_ifs
    · exact hresults
    · exact ⟨hresults.refused, fun message h ↦
        ⟨(hresults.accepted message h).1, fun hopen ↦ absurd hopen (by simp)⟩⟩
  | bufferedAmountLow =>
    rcases onBufferedAmountLow_cases throws connection with
      ⟨hidle, hcalls, hhanded, hqueue, hclosed⟩ |
      ⟨channel, taken, lost, hchannel, hopened, hevent, hdrained⟩
    · exact iff_of_true (hresults.congr hcalls hhanded hqueue hclosed)
        fun _ channel hchannel hopened hevent ↦ absurd (hidle channel hchannel hopened) hevent
    · rw [channelStep, resultsTrue_drained_iff htraced hresults hdrained]
      refine ⟨fun hall _ other hother _ _ ↦ ?_, fun hhonest ↦
        hhonest rfl channel hchannel hopened hevent⟩
      rw [hchannel, Option.some.injEq] at hother
      rw [← hother]
      exact hall
  | setupDataChannel | readyStateChange | transmit =>
    exact hother (hresults.congr rfl rfl rfl rfl) (by simp)

end Steps

/-- **What the result of `send` says.** The results of all calls are true in every state of exactly
the runs in which, whenever an event drains the queue of an open channel, the channel throws on the
refused messages that the drain comes to and on no others. -/
theorem resultsStayTrue_iff (throws : ℕ → Bool) (events : List ChannelEvent) :
    ResultsStayTrue throws events ↔
      Along (channelStep throws) (ThrowsOnRefused throws) DataConnection.new events :=
  forall_prefix_iff_along Traced (fun _ event htraced ↦ htraced.step throws event)
    (fun _ event htraced hresults ↦ resultsTrue_step_iff htraced hresults throws event)
    traced_new resultsTrue_new events

/-! ### A channel that throws once -/

/-- The second attempt to hand over a message throws. -/
def throwsOnce (attempt : ℕ) : Bool := attempt = 1

/-- A large message, a small one, and the event that is queued when the large one has been
transmitted. -/
def largeThenSmall (large : Bytes) : List ChannelEvent :=
  [.setupDataChannel .opened, .send large, .send [1], .transmit large.length, .bufferedAmountLow]

/-- A message above the low threshold leaves room for the next one. The channel throws on that one,
which is refused, queued and handed over by the drain. -/
theorem handed_largeThenSmall {large : Bytes} (hlow : P2P_BUFFER_LOW_THRESHOLD < large.length)
    (hhigh : large.length < P2P_BUFFER_HIGH_WATERMARK) :
    ((⟨1, [1]⟩ : Outgoing), false) ∈ (channelRun throwsOnce (largeThenSmall large)).calls ∧
      (⟨1, [1]⟩ : Outgoing) ∈ (channelRun throwsOnce (largeThenSmall large)).handed := by
  have hroom : ¬ P2P_BUFFER_HIGH_WATERMARK ≤ large.length := not_le.mpr hhigh
  have hempty : ¬ P2P_BUFFER_HIGH_WATERMARK ≤ 0 := by decide
  simp [channelRun, largeThenSmall, channelStep, setupDataChannel, DataConnection.new,
    DataConnection.send, sendMessage, handOver, push, throwsOnce, onChannel,
    RTCDataChannel.transmit, onBufferedAmountLow, drainSendQueue, drainLoop, hroom, hempty, hlow]

/-- A message that fills the channel. The next one is accepted and queued, and lost when the channel
throws in the drain. -/
theorem lost_largeThenSmall {large : Bytes} (hhigh : P2P_BUFFER_HIGH_WATERMARK ≤ large.length) :
    ((⟨1, [1]⟩ : Outgoing), true) ∈ (channelRun throwsOnce (largeThenSmall large)).calls ∧
      (channelRun throwsOnce (largeThenSmall large)).isClosed = false ∧
      (⟨1, [1]⟩ : Outgoing) ∉ (channelRun throwsOnce (largeThenSmall large)).handed ∧
      (⟨1, [1]⟩ : Outgoing) ∉ (channelRun throwsOnce (largeThenSmall large)).sendQueue := by
  have hlow : P2P_BUFFER_LOW_THRESHOLD < large.length :=
    lt_of_lt_of_le (by decide : P2P_BUFFER_LOW_THRESHOLD < P2P_BUFFER_HIGH_WATERMARK) hhigh
  have hempty : ¬ P2P_BUFFER_HIGH_WATERMARK ≤ 0 := by decide
  simp [channelRun, largeThenSmall, channelStep, setupDataChannel, DataConnection.new,
    DataConnection.send, sendMessage, handOver, push, throwsOnce, onChannel,
    RTCDataChannel.transmit, onBufferedAmountLow, drainSendQueue, drainLoop, hhigh, hempty, hlow]

/-- A refused message is handed over in the first run, and an accepted one is lost in the second. -/
theorem resultsStayTrue_fails :
    ¬ ResultsStayTrue throwsOnce (largeThenSmall (List.replicate 100000 0)) ∧
      ¬ ResultsStayTrue throwsOnce (largeThenSmall (List.replicate 200000 0)) := by
  constructor
  · intro hstays
    have hlength : (List.replicate 100000 (0 : UInt8)).length = 100000 := List.length_replicate
    obtain ⟨hcall, hhanded⟩ := @handed_largeThenSmall (List.replicate 100000 0)
      (by rw [hlength]; decide) (by rw [hlength]; decide)
    exact (hstays _ [] (List.append_nil _).symm).refused _ hcall hhanded
  · intro hstays
    have hlength : (List.replicate 200000 (0 : UInt8)).length = 200000 := List.length_replicate
    obtain ⟨hcall, hopen, hhanded, hqueued⟩ := @lost_largeThenSmall (List.replicate 200000 0)
      (by rw [hlength]; decide)
    rcases ((hstays _ [] (List.append_nil _).symm).accepted _ hcall).2 hopen with h | h
    · exact hhanded h
    · exact hqueued h

end CampusMesh.Web
