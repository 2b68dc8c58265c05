import CampusMesh.Library.Runs
import CampusMesh.Shared.Constants
import CampusMesh.Shared.Runtime
import Mathlib.Algebra.GroupWithZero.Nat
import Mathlib.Data.List.Basic

/-!
# Sending over a data channel

The part of the class `WebRtcPeerConnection` that sends: `send`, `drainSendQueue` and `close`, over
the `RTCDataChannel` of the browser. The channel counts the bytes handed to it and not yet
transmitted. When this number falls to the low threshold, an event is queued, and the event drains
the send queue until the high watermark is reached again.

A run is a list of calls, of events of the channel and of what happens inside it. Whether the
channel's own `send` throws is a function of the number of attempts made before.
-/

set_option autoImplicit false
set_option relaxedAutoImplicit false

namespace CampusMesh.Web

open Library Shared

/-! ### Data -/

/-- The field `readyState` of a channel. -/
inductive RTCDataChannelState
  | connecting | opened | closing | closed
  deriving DecidableEq

/-- The data channel, with the number of `bufferedamountlow` events that are queued. -/
structure RTCDataChannel where
  readyState : RTCDataChannelState
  bufferedAmount : ℕ
  bufferedAmountLowThreshold : ℕ
  lowEvents : ℕ

/-- The message of a call of `send`, with the number of the call. -/
structure Outgoing where
  call : ℕ
  buffer : Bytes
  deriving DecidableEq

/-- The fields of a connection that sending uses. For the history, all calls of `send` with their
results, the messages handed to the channel, and the number of attempts to hand one over. -/
structure DataConnection where
  isClosed : Bool
  dataChannel : Option RTCDataChannel
  sendQueue : List Outgoing
  calls : List (Outgoing × Bool)
  handed : List Outgoing
  attempts : ℕ

namespace DataConnection

/-- A connection without a channel. -/
def new : DataConnection := ⟨false, none, [], [], [], 0⟩

/-- `this.setupDataChannel(channel)`. -/
def setupDataChannel (readyState : RTCDataChannelState) (connection : DataConnection) :
    DataConnection :=
  { connection with dataChannel := some ⟨readyState, 0, P2P_BUFFER_LOW_THRESHOLD, 0⟩ }

/-- `this.dataChannel.send(buffer)`, when it does not throw. -/
def handOver (message : Outgoing) (channel : RTCDataChannel) (connection : DataConnection) :
    DataConnection :=
  { connection with
    dataChannel :=
      some { channel with bufferedAmount := channel.bufferedAmount + message.buffer.length }
    handed := connection.handed ++ [message]
    attempts := connection.attempts + 1 }

/-- `this.sendQueue.push(new Uint8Array(buffer))`. -/
def push (message : Outgoing) (connection : DataConnection) : DataConnection :=
  { connection with sendQueue := connection.sendQueue ++ [message] }

/-- What `send` does with its message, and its result. -/
def sendMessage (throws : ℕ → Bool) (message : Outgoing) (connection : DataConnection) :
    DataConnection × Bool :=
  match connection.isClosed, connection.dataChannel with
  | false, some channel =>
    if channel.readyState ≠ .opened then (connection, false)
    else if connection.sendQueue ≠ [] ∨ P2P_BUFFER_HIGH_WATERMARK ≤ channel.bufferedAmount then
      (connection.push message, true)
    else if throws connection.attempts = true then
      (push message { connection with attempts := connection.attempts + 1 }, false)
    else (connection.handOver message channel, true)
  | _, _ => (connection, false)

/-- `send(buffer)`. -/
def send (throws : ℕ → Bool) (buffer : Bytes) (connection : DataConnection) : DataConnection :=
  let message : Outgoing := ⟨connection.calls.length, buffer⟩
  let outcome := connection.sendMessage throws message
  { outcome.1 with calls := connection.calls ++ [(message, outcome.2)] }

/-- The loop of `drainSendQueue` over the messages that are left. A message is off the queue before
it is handed over, and when this throws the loop ends. -/
def drainLoop (throws : ℕ → Bool) :
    List Outgoing → RTCDataChannel → DataConnection → DataConnection
  | [], channel, connection => { connection with dataChannel := some channel, sendQueue := [] }
  | nextBuffer :: rest, channel, connection =>
    if P2P_BUFFER_HIGH_WATERMARK ≤ channel.bufferedAmount then
      { connection with dataChannel := some channel, sendQueue := nextBuffer :: rest }
    else if throws connection.attempts = true then
      { connection with
        dataChannel := some channel
        sendQueue := rest
        attempts := connection.attempts + 1 }
    else
      drainLoop throws rest
        { channel with bufferedAmount := channel.bufferedAmount + nextBuffer.buffer.length }
        (connection.handOver nextBuffer channel)

/-- `drainSendQueue()`. -/
def drainSendQueue (throws : ℕ → Bool) (connection : DataConnection) : DataConnection :=
  match connection.dataChannel with
  | some channel =>
    if channel.readyState ≠ .opened then connection
    else drainLoop throws connection.sendQueue channel connection
  | none => connection

/-- `close()`. -/
def close (connection : DataConnection) : DataConnection :=
  if connection.isClosed then connection
  else { connection with isClosed := true, sendQueue := [], dataChannel := none }

/-- Something happens to the channel. -/
def onChannel (change : RTCDataChannel → RTCDataChannel) (connection : DataConnection) :
    DataConnection :=
  { connection with dataChannel := connection.dataChannel.map change }

end DataConnection

open DataConnection

/-- Some of the buffered bytes are transmitted. An event is queued when the low threshold is
crossed. -/
def RTCDataChannel.transmit (amount : ℕ) (channel : RTCDataChannel) : RTCDataChannel :=
  let left := channel.bufferedAmount - amount
  { channel with
    bufferedAmount := left
    lowEvents :=
      if channel.bufferedAmountLowThreshold < channel.bufferedAmount ∧
          left ≤ channel.bufferedAmountLowThreshold then
        channel.lowEvents + 1
      else channel.lowEvents }

/-! ### Events and runs -/

/-- What can happen to a connection and its channel. -/
inductive ChannelEvent
  | setupDataChannel (readyState : RTCDataChannelState)
  | readyStateChange (readyState : RTCDataChannelState)
  | send (buffer : Bytes)
  | transmit (amount : ℕ)
  /-- A queued event is delivered. -/
  | bufferedAmountLow
  | close

/-- A queued event is delivered: `onbufferedamountlow`. -/
def onBufferedAmountLow (throws : ℕ → Bool) (connection : DataConnection) : DataConnection :=
  match connection.dataChannel with
  | some channel =>
    if channel.lowEvents = 0 then connection
    else drainSendQueue throws
      (connection.onChannel fun channel ↦ { channel with lowEvents := channel.lowEvents - 1 })
  | none => connection

/-- One step of a connection. -/
def channelStep (throws : ℕ → Bool) (connection : DataConnection) :
    ChannelEvent → DataConnection
  | .setupDataChannel readyState => connection.setupDataChannel readyState
  | .readyStateChange readyState =>
    connection.onChannel fun channel ↦ { channel with readyState := readyState }
  | .send buffer => connection.send throws buffer
  | .transmit amount => connection.onChannel (RTCDataChannel.transmit amount)
  | .bufferedAmountLow => onBufferedAmountLow throws connection
  | .close => connection.close

/-- The run of a new connection. -/
def channelRun (throws : ℕ → Bool) (events : List ChannelEvent) : DataConnection :=
  run (channelStep throws) DataConnection.new events

/-! ### Draining the queue -/

section Drain

variable {throws : ℕ → Bool} {queue : List Outgoing} {channel : RTCDataChannel}
  {connection : DataConnection}

/-- The drain comes to a place of the queue: the messages before it are handed over and leave
room. -/
def Reached (throws : ℕ → Bool) (attempts : ℕ) (queue : List Outgoing) (bufferedAmount : ℕ)
    (place : ℕ) : Prop :=
  bufferedAmount + ((queue.take place).map fun message ↦ message.buffer.length).sum <
      P2P_BUFFER_HIGH_WATERMARK ∧
    ∀ earlier < place, throws (attempts + earlier) = false

theorem reached_zero (attempts bufferedAmount : ℕ) (queue : List Outgoing) :
    Reached throws attempts queue bufferedAmount 0 ↔
      bufferedAmount < P2P_BUFFER_HIGH_WATERMARK := by
  simp [Reached]

/-- What comes after the first message is reached from there. -/
theorem reached_succ {attempts bufferedAmount place : ℕ} {next : Outgoing} :
    Reached throws attempts (next :: queue) bufferedAmount (place + 1) ↔
      throws attempts = false ∧
        Reached throws (attempts + 1) queue (bufferedAmount + next.buffer.length) place := by
  unfold Reached
  rw [List.take_succ_cons, List.map_cons, List.sum_cons, Nat.add_assoc, and_left_comm]
  refine and_congr_right fun _ ↦ ⟨fun hall ↦ ⟨hall 0 (Nat.succ_pos place), fun earlier hlt ↦ ?_⟩,
    fun ⟨hfirst, hrest⟩ earlier hlt ↦ ?_⟩
  · rw [Nat.add_right_comm, Nat.add_assoc]
    exact hall (earlier + 1) (Nat.succ_lt_succ hlt)
  · cases earlier with
    | zero => exact hfirst
    | succ earlier =>
      rw [← Nat.add_assoc, Nat.add_right_comm]
      exact hrest earlier (Nat.lt_of_succ_lt_succ hlt)

/-- What a drain does: it hands over the first messages of the queue, may lose the next one to a
throw, and leaves the others. It comes to exactly the places of the former and of the latter. -/
structure Drained (throws : ℕ → Bool) (queue : List Outgoing) (channel : RTCDataChannel)
    (before after : DataConnection) (taken lost : List Outgoing) : Prop where
  queue_eq : queue = taken ++ (lost ++ after.sendQueue)
  handed : after.handed = before.handed ++ taken
  calls : after.calls = before.calls
  isClosed : after.isClosed = before.isClosed
  reached : ∀ place < queue.length,
    Reached throws before.attempts queue channel.bufferedAmount place ↔
      place < taken.length ∨ place = taken.length ∧ lost ≠ []
  succeeds : ∀ place < taken.length, throws (before.attempts + place) = false
  fails : lost ≠ [] → (∃ message, lost = [message]) ∧ throws (before.attempts + taken.length) = true

theorem drainLoop_spec (throws : ℕ → Bool) (queue : List Outgoing) (channel : RTCDataChannel)
    (connection : DataConnection) :
    ∃ taken lost, Drained throws queue channel connection
      (drainLoop throws queue channel connection) taken lost := by
  induction queue generalizing channel connection with
  | nil =>
    exact ⟨[], [], rfl, (List.append_nil _).symm, rfl,
      rfl, fun _ hlt ↦ absurd hlt (Nat.not_lt_zero _),
      fun _ hlt ↦ absurd hlt (Nat.not_lt_zero _), fun h ↦ absurd rfl h⟩
  | cons next rest ih =>
    unfold drainLoop
    split_ifs with hfull hthrows
    · refine ⟨[], [], rfl, (List.append_nil _).symm, rfl, rfl, fun place _ ↦ ?_,
        fun _ hlt ↦ absurd hlt (Nat.not_lt_zero _), fun h ↦ absurd rfl h⟩
      refine iff_of_false (fun hreached ↦ ?_) (by simp)
      exact absurd (lt_of_le_of_lt (Nat.le_add_right _ _) hreached.1) (not_lt.mpr hfull)
    · refine ⟨[], [next], rfl, (List.append_nil _).symm, rfl, rfl, fun place _ ↦ ?_,
        fun _ hlt ↦ absurd hlt (Nat.not_lt_zero _), fun _ ↦ ⟨⟨next, rfl⟩, hthrows⟩⟩
      cases place with
      | zero =>
        rw [reached_zero]
        exact iff_of_true (not_le.mp hfull) (Or.inr ⟨rfl, by simp⟩)
      | succ place =>
        rw [reached_succ, hthrows]
        simp
    · obtain ⟨taken, lost, hdrained⟩ := ih
        { channel with bufferedAmount := channel.bufferedAmount + next.buffer.length }
        (connection.handOver next channel)
      have hsent : throws connection.attempts = false := Bool.eq_false_of_not_eq_true hthrows
      refine ⟨next :: taken, lost, ?_, ?_, hdrained.calls, hdrained.isClosed, fun place hlt ↦ ?_,
        fun place hlt ↦ ?_, fun hlost ↦ ?_⟩
      · rw [List.cons_append]
        exact congrArg (next :: ·) hdrained.queue_eq
      · rw [hdrained.handed, handOver, List.append_assoc, List.singleton_append]
      · cases place with
        | zero =>
          rw [reached_zero]
          exact iff_of_true (not_le.mp hfull) (Or.inl (Nat.succ_pos _))
        | succ place =>
          rw [reached_succ, List.length_cons, Nat.succ_lt_succ_iff, Nat.succ_inj]
          exact (and_iff_right hsent).trans (hdrained.reached place (Nat.lt_of_succ_lt_succ hlt))
      · cases place with
        | zero => exact hsent
        | succ place =>
          rw [← Nat.add_assoc, Nat.add_right_comm]
          exact hdrained.succeeds place (Nat.lt_of_succ_lt_succ hlt)
      · refine ⟨(hdrained.fails hlost).1, ?_⟩
        rw [List.length_cons, ← Nat.add_assoc, Nat.add_right_comm]
        exact (hdrained.fails hlost).2

/-- The drain stops for one of three reasons: the queue is empty, the channel is full, or the
channel threw. -/
theorem drainLoop_stops (throws : ℕ → Bool) (queue : List Outgoing) (channel : RTCDataChannel)
    (connection : DataConnection) :
    ∃ reached, (drainLoop throws queue channel connection).dataChannel = some reached ∧
      reached.readyState = channel.readyState ∧
      reached.bufferedAmountLowThreshold = channel.bufferedAmountLowThreshold ∧
      ((drainLoop throws queue channel connection).sendQueue = [] ∨
        P2P_BUFFER_HIGH_WATERMARK ≤ reached.bufferedAmount ∨ ∃ attempt, throws attempt = true) := by
  induction queue generalizing channel connection with
  | nil => exact ⟨channel, rfl, rfl, rfl, Or.inl rfl⟩
  | cons next rest ih =>
    unfold drainLoop
    split_ifs with hfull hthrows
    · exact ⟨channel, rfl, rfl, rfl, Or.inr (Or.inl hfull)⟩
    · exact ⟨channel, rfl, rfl, rfl, Or.inr (Or.inr ⟨_, hthrows⟩)⟩
    · exact ih _ _

/-- A queued event of an open channel is delivered. -/
theorem onBufferedAmountLow_eq (hchannel : connection.dataChannel = some channel)
    (hopened : channel.readyState = .opened) (hevent : channel.lowEvents ≠ 0) :
    onBufferedAmountLow throws connection =
      drainLoop throws connection.sendQueue { channel with lowEvents := channel.lowEvents - 1 }
        { connection with
          dataChannel := some { channel with lowEvents := channel.lowEvents - 1 } } := by
  unfold onBufferedAmountLow
  rw [hchannel]
  simp only
  rw [if_neg hevent]
  unfold drainSendQueue onChannel
  rw [hchannel]
  exact if_neg (not_not.mpr hopened)

end Drain

end CampusMesh.Web
