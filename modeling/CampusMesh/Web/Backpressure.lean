import CampusMesh.Web.DataChannel

/-!
# The send queue under backpressure

A message is queued when others are queued or when the channel is full, and the queue is drained by
an event that is queued when the buffered bytes fall to the low threshold. While the channel is open
and does not throw, nothing is lost, repeated or overtaken, and as long as messages are queued the
event that drains them has not yet come: the channel is above the low threshold or the event is
queued (`backpressure_run`). For the second part it matters that the high watermark is above the low
threshold: whatever fills the queue leaves the channel above both.
-/

set_option autoImplicit false
set_option relaxedAutoImplicit false

namespace CampusMesh.Web

open Library Shared DataConnection

/-! ### The calls of a run -/

/-- The buffer of a call of `send`. -/
def ChannelEvent.sentBuffer : ChannelEvent → Option Bytes
  | .send buffer => some buffer
  | _ => none

/-- The messages of all calls of `send`, in call order. -/
def sentMessages (events : List ChannelEvent) : List Outgoing :=
  (events.filterMap ChannelEvent.sentBuffer).mapIdx fun call buffer ↦ ⟨call, buffer⟩

section Calls

variable (throws : ℕ → Bool)

@[simp] theorem calls_onChannel (change : RTCDataChannel → RTCDataChannel)
    (connection : DataConnection) : (connection.onChannel change).calls = connection.calls := rfl

theorem drainSendQueue_calls (connection : DataConnection) :
    (connection.drainSendQueue throws).calls = connection.calls := by
  unfold drainSendQueue
  split
  · next channel _ =>
    split_ifs
    · rfl
    · obtain ⟨taken, lost, hdrained⟩ :=
        drainLoop_spec throws connection.sendQueue channel connection
      exact hdrained.calls
  · rfl

/-- Only a call of `send` is recorded as one. -/
theorem channelStep_calls (connection : DataConnection) (event : ChannelEvent) :
    (channelStep throws connection event).calls.map Prod.fst = connection.calls.map Prod.fst ++
      (event.sentBuffer.map fun buffer ↦ ⟨connection.calls.length, buffer⟩).toList := by
  cases event with
  | send buffer => exact List.map_append
  | bufferedAmountLow =>
    simp only [channelStep, onBufferedAmountLow, ChannelEvent.sentBuffer, Option.map_none,
      Option.toList_none, List.append_nil]
    split
    · split_ifs
      · rfl
      · rw [drainSendQueue_calls, calls_onChannel]
    · rfl
  | close =>
    simp only [channelStep, close, ChannelEvent.sentBuffer, Option.map_none, Option.toList_none,
      List.append_nil]
    split_ifs <;> rfl
  | setupDataChannel | readyStateChange | transmit => exact (List.append_nil _).symm

/-- The calls of a run are numbered in their order. -/
theorem run_calls (connection : DataConnection) (events : List ChannelEvent) :
    (run (channelStep throws) connection events).calls.map Prod.fst =
      connection.calls.map Prod.fst ++
        (events.filterMap ChannelEvent.sentBuffer).mapIdx fun call buffer ↦
          ⟨connection.calls.length + call, buffer⟩ := by
  induction events generalizing connection with
  | nil => exact (List.append_nil _).symm
  | cons event rest ih =>
    have hstep := channelStep_calls throws connection event
    have hlength := congrArg List.length hstep
    rw [List.length_map, List.length_append, List.length_map] at hlength
    rw [run_cons, ih, hstep, hlength, List.append_assoc, List.filterMap_cons]
    cases event.sentBuffer with
    | none => rfl
    | some buffer =>
      simp only [Option.map_some, Option.toList_some, List.length_singleton, List.mapIdx_cons,
        List.singleton_append, Nat.add_zero, Nat.add_assoc, Nat.add_comm 1]

end Calls

/-! ### An open channel -/

/-- Traffic on an open channel: messages are sent and transmitted, and events are delivered. -/
def ChannelEvent.isTraffic : ChannelEvent → Bool
  | .send _ | .transmit _ | .bufferedAmountLow => true
  | _ => false

/-- A connection whose channel has opened. -/
def openConnection : DataConnection := DataConnection.new.setupDataChannel .opened

/-- The queue will be drained: the channel is above the low threshold or the event is queued. -/
def WillDrain (channel : RTCDataChannel) : Prop :=
  P2P_BUFFER_LOW_THRESHOLD < channel.bufferedAmount ∨ 0 < channel.lowEvents

/-- An open connection whose messages are in order and whose queue, if there is one, will be
drained. -/
structure Flowing (connection : DataConnection) (channel : RTCDataChannel) : Prop where
  isClosed : connection.isClosed = false
  dataChannel : connection.dataChannel = some channel
  readyState : channel.readyState = .opened
  threshold : channel.bufferedAmountLowThreshold = P2P_BUFFER_LOW_THRESHOLD
  inOrder : connection.handed ++ connection.sendQueue = connection.calls.map Prod.fst
  willDrain : connection.sendQueue ≠ [] → WillDrain channel

section Steps

variable {connection : DataConnection} {channel : RTCDataChannel}

/-- A full channel is above the low threshold. -/
theorem willDrain_of_full (hfull : P2P_BUFFER_HIGH_WATERMARK ≤ channel.bufferedAmount) :
    WillDrain channel :=
  Or.inl (lt_of_lt_of_le (by decide : P2P_BUFFER_LOW_THRESHOLD < P2P_BUFFER_HIGH_WATERMARK) hfull)

theorem Flowing.send (hflowing : Flowing connection channel) (buffer : Bytes) :
    ∃ reached, Flowing (connection.send (fun _ ↦ false) buffer) reached := by
  have hcalls : ∀ result, ((connection.calls ++
      [((⟨connection.calls.length, buffer⟩ : Outgoing), result)]).map Prod.fst) =
        connection.handed ++ (connection.sendQueue ++ [⟨connection.calls.length, buffer⟩]) := by
    intro result
    rw [List.map_append, ← hflowing.inOrder, List.append_assoc]
    rfl
  unfold DataConnection.send sendMessage
  simp only [hflowing.isClosed, hflowing.dataChannel, hflowing.readyState, ne_eq,
    not_true_eq_false, if_false, Bool.false_eq_true]
  split_ifs with hwait
  · -- the message waits behind others, or for a full channel
    refine ⟨channel, hflowing.isClosed, hflowing.dataChannel, hflowing.readyState,
      hflowing.threshold, (hcalls true).symm, fun _ ↦ ?_⟩
    rcases hwait with hqueued | hfull
    · exact hflowing.willDrain hqueued
    · exact willDrain_of_full hfull
  · have hempty : connection.sendQueue = [] := by
      by_contra hqueued
      exact hwait (Or.inl hqueued)
    refine ⟨_, hflowing.isClosed, rfl, hflowing.readyState, hflowing.threshold, ?_,
      fun hqueued ↦ absurd hempty hqueued⟩
    change (connection.handed ++ [_]) ++ connection.sendQueue = _
    rw [hcalls true, hempty, List.append_nil, List.nil_append]

/-- When the buffered bytes fall to the low threshold an event is queued. -/
theorem Flowing.transmit (hflowing : Flowing connection channel) (amount : ℕ) :
    Flowing (connection.onChannel (RTCDataChannel.transmit amount)) (channel.transmit amount) := by
  refine ⟨hflowing.isClosed, ?_, hflowing.readyState, hflowing.threshold, hflowing.inOrder,
    fun hqueued ↦ ?_⟩
  · rw [onChannel, hflowing.dataChannel]
    rfl
  · have hthreshold := hflowing.threshold
    rcases hflowing.willDrain hqueued with habove | hevent
    · by_cases hcrossed :
        channel.bufferedAmount - amount ≤ channel.bufferedAmountLowThreshold
      · refine Or.inr ?_
        unfold RTCDataChannel.transmit
        simp only
        rw [if_pos ⟨hthreshold ▸ habove, hcrossed⟩]
        exact Nat.succ_pos _
      · exact Or.inl (hthreshold ▸ not_le.mp hcrossed)
    · refine Or.inr (hevent.trans_le ?_)
      unfold RTCDataChannel.transmit
      simp only
      split_ifs
      · exact Nat.le_succ _
      · exact le_rfl

/-- A drain leaves an empty queue or a full channel. -/
theorem Flowing.bufferedAmountLow (hflowing : Flowing connection channel) :
    ∃ reached, Flowing (onBufferedAmountLow (fun _ ↦ false) connection) reached := by
  by_cases hnone : channel.lowEvents = 0
  · refine ⟨channel, ?_⟩
    rw [onBufferedAmountLow, hflowing.dataChannel]
    simp only
    rw [if_pos hnone]
    exact hflowing
  rw [onBufferedAmountLow_eq hflowing.dataChannel hflowing.readyState hnone]
  obtain ⟨taken, lost, hdrained⟩ := drainLoop_spec (fun _ ↦ false) connection.sendQueue
    { channel with lowEvents := channel.lowEvents - 1 }
    { connection with dataChannel := some { channel with lowEvents := channel.lowEvents - 1 } }
  obtain ⟨reached, hreached, hstate, hthreshold, hstops⟩ := drainLoop_stops (fun _ ↦ false)
    connection.sendQueue { channel with lowEvents := channel.lowEvents - 1 }
    { connection with dataChannel := some { channel with lowEvents := channel.lowEvents - 1 } }
  have hkept : lost = [] := by
    by_contra hlost
    exact absurd (hdrained.fails hlost).2 Bool.false_ne_true
  refine ⟨reached, hdrained.isClosed.trans hflowing.isClosed, hreached,
    hstate.trans hflowing.readyState, hthreshold.trans hflowing.threshold, ?_, fun hqueued ↦ ?_⟩
  · have hqueue := hdrained.queue_eq
    rw [hkept, List.nil_append] at hqueue
    rw [hdrained.handed, hdrained.calls, List.append_assoc, ← hqueue]
    exact hflowing.inOrder
  · rcases hstops with hempty | hfull | ⟨attempt, hthrows⟩
    · exact absurd hempty hqueued
    · exact willDrain_of_full hfull
    · exact absurd hthrows Bool.false_ne_true

/-- Traffic keeps the messages in order and the queue drained. -/
theorem Flowing.step (hflowing : Flowing connection channel) {event : ChannelEvent}
    (hevent : event.isTraffic = true) :
    ∃ reached, Flowing (channelStep (fun _ ↦ false) connection event) reached := by
  cases event with
  | send buffer => exact hflowing.send buffer
  | transmit amount => exact ⟨_, hflowing.transmit amount⟩
  | bufferedAmountLow => exact hflowing.bufferedAmountLow
  | setupDataChannel | readyStateChange | close => exact absurd hevent Bool.false_ne_true

end Steps

/-- **The send queue under backpressure.** While the channel is open and does not throw, the
messages handed to it followed by those in the queue are the messages of all calls of `send` in call
order, and as long as there is a queue the channel is above the low threshold or the event that
drains the queue is queued. -/
theorem backpressure_run (events : List ChannelEvent)
    (hevents : ∀ event ∈ events, event.isTraffic = true) :
    (run (channelStep fun _ ↦ false) openConnection events).handed ++
        (run (channelStep fun _ ↦ false) openConnection events).sendQueue = sentMessages events ∧
      ((run (channelStep fun _ ↦ false) openConnection events).sendQueue ≠ [] →
        ∃ channel, (run (channelStep fun _ ↦ false) openConnection events).dataChannel =
            some channel ∧
          (P2P_BUFFER_LOW_THRESHOLD < channel.bufferedAmount ∨ 0 < channel.lowEvents)) := by
  have hinit : ∃ channel, Flowing openConnection channel :=
    ⟨_, rfl, rfl, rfl, rfl, rfl, fun hqueued ↦ absurd rfl hqueued⟩
  obtain ⟨channel, hflowing⟩ := run_invariant
    (fun connection ↦ ∃ channel, Flowing connection channel)
    (fun _ _ ⟨_, hflowing⟩ hevent ↦ hflowing.step hevent) hinit
    (along_of_forall hevents openConnection)
  refine ⟨?_, fun hqueued ↦ ⟨channel, hflowing.dataChannel, hflowing.willDrain hqueued⟩⟩
  rw [hflowing.inOrder, run_calls]
  simp [openConnection, setupDataChannel, DataConnection.new, sentMessages]

/-- The first message fills the channel, and the second one waits until it is transmitted. -/
def fullRun : List ChannelEvent :=
  [.send (List.replicate P2P_BUFFER_HIGH_WATERMARK 0), .send [1],
    .transmit P2P_BUFFER_HIGH_WATERMARK, .bufferedAmountLow]

theorem backpressure_run_fullRun :
    (run (channelStep fun _ ↦ false) openConnection fullRun).handed ++
        (run (channelStep fun _ ↦ false) openConnection fullRun).sendQueue =
          sentMessages fullRun ∧
      ((run (channelStep fun _ ↦ false) openConnection fullRun).sendQueue ≠ [] →
        ∃ channel, (run (channelStep fun _ ↦ false) openConnection fullRun).dataChannel =
            some channel ∧
          (P2P_BUFFER_LOW_THRESHOLD < channel.bufferedAmount ∨ 0 < channel.lowEvents)) :=
  backpressure_run fullRun (by simp [fullRun, ChannelEvent.isTraffic])

end CampusMesh.Web
