import Mathlib.Data.Nat.Notation
import Mathlib.Tactic.SplitIfs

/-!
# Shared constants

The constants that the modelled functions read, the opcodes of the binary peer protocol and the
event names of the signaling protocol.
-/

set_option autoImplicit false
set_option relaxedAutoImplicit false

namespace CampusMesh.Shared

/-- Bytes in every chunk of a file but the last: 256 KB. -/
def CHUNK_SIZE_BYTES : ℕ := 262144

/-- The version byte of every wire message. -/
def CAMPUS_MESH_PROTOCOL_VERSION : UInt8 := 1

/-- The largest number of peer connections a coordinator opens. -/
def MAX_PEER_CONNECTIONS : ℕ := 6

/-- How often a chunk is requested from peers after a failed attempt. -/
def P2P_REQUEST_RETRIES : ℕ := 2

/-- Bytes in every block of a served chunk but the last: 64 KB. -/
def P2P_BLOCK_SIZE : ℕ := 65536

/-- A data channel with at most as many buffered bytes asks for more. -/
def P2P_BUFFER_LOW_THRESHOLD : ℕ := 65536

/-- With as many buffered bytes a data channel gets no more. -/
def P2P_BUFFER_HIGH_WATERMARK : ℕ := 196608

/-- How long a session lasts if its instructor does not say so. -/
def SESSION_EXPIRATION_DEFAULT_HOURS : ℕ := 3

def DEFAULT_SESSION_TTL_HOURS : ℕ := SESSION_EXPIRATION_DEFAULT_HOURS

/-- Session codes are this word and some characters that are not easily confused. -/
def SESSION_CODE_PREFIX : String := "MESH"

def SESSION_CODE_CHARSET : String := "23456789ABCDEFGHJKMNPQRSTUVWXYZ"

def SESSION_CODE_RANDOM_LENGTH : ℕ := 4

def MIN_PASSCODE_LENGTH : ℕ := 4

def MAX_PASSCODE_LENGTH : ℕ := 32

def MIN_CLASS_NAME_LENGTH : ℕ := 2

def MAX_CLASS_NAME_LENGTH : ℕ := 80

/-- Max 10 creates per 10 minutes. -/
def RATE_LIMIT_CREATE_SESSION_MAX : ℕ := 10

def RATE_LIMIT_CREATE_SESSION_WINDOW_MS : ℕ := 10 * 60 * 1000

/-- Max 30 join attempts per 5 minutes. -/
def RATE_LIMIT_JOIN_SESSION_MAX : ℕ := 30

def RATE_LIMIT_JOIN_SESSION_WINDOW_MS : ℕ := 5 * 60 * 1000

/-- `RTCIceServer`. -/
structure RTCIceServer where
  urls : String
  deriving DecidableEq

def DEFAULT_ICE_SERVERS : List RTCIceServer :=
  [⟨"stun:stun.l.google.com:19302"⟩, ⟨"stun:stun1.l.google.com:19302"⟩]

/-- The messages of the binary peer protocol. -/
inductive WireMessageType
  | BITFIELD | HAVE | REQUEST | PIECE | CHOKE | UNCHOKE
  deriving DecidableEq

/-- The opcode byte of a message type. -/
def WireMessageType.opcode : WireMessageType → UInt8
  | BITFIELD => 0x01
  | HAVE => 0x02
  | REQUEST => 0x03
  | PIECE => 0x04
  | CHOKE => 0x05
  | UNCHOKE => 0x06

/-- The message type of an opcode byte. -/
def WireMessageType.ofOpcode (opcode : UInt8) : Option WireMessageType :=
  if opcode = 0x01 then some BITFIELD
  else if opcode = 0x02 then some HAVE
  else if opcode = 0x03 then some REQUEST
  else if opcode = 0x04 then some PIECE
  else if opcode = 0x05 then some CHOKE
  else if opcode = 0x06 then some UNCHOKE
  else none

/-- The opcode of a message type stands for that type. -/
@[simp] theorem WireMessageType.ofOpcode_opcode (type : WireMessageType) :
    WireMessageType.ofOpcode type.opcode = some type := by
  cases type <;> decide

/-- A byte that stands for a message type is the opcode of that type. -/
theorem WireMessageType.opcode_of_ofOpcode {opcode : UInt8} {type : WireMessageType}
    (htype : WireMessageType.ofOpcode opcode = some type) : opcode = type.opcode := by
  unfold WireMessageType.ofOpcode at htype
  split_ifs at htype
  all_goals
    rw [← Option.some.inj htype]
    assumption

/-- The events of the signaling protocol. -/
inductive SignalingEventType
  | PEER_JOINED | PEER_LEFT | ROOM_ROSTER | SESSION_ENDED | SIGNAL_OFFER | SIGNAL_ANSWER
  | SIGNAL_ICE | TELEMETRY_HEARTBEAT | SWARM_METRICS_UPDATE | ERROR
  deriving DecidableEq

/-- The name of a signaling event in the `type` field of a frame. -/
def SignalingEventType.text : SignalingEventType → String
  | PEER_JOINED => "peer-joined"
  | PEER_LEFT => "peer-left"
  | ROOM_ROSTER => "room-roster"
  | SESSION_ENDED => "session-ended"
  | SIGNAL_OFFER => "signal-offer"
  | SIGNAL_ANSWER => "signal-answer"
  | SIGNAL_ICE => "signal-ice"
  | TELEMETRY_HEARTBEAT => "telemetry-heartbeat"
  | SWARM_METRICS_UPDATE => "swarm-metrics-update"
  | ERROR => "error"

/-- Different events have different names. -/
theorem SignalingEventType.text_injective {first second : SignalingEventType}
    (heq : first.text = second.text) : first = second := by
  revert heq
  cases first <;> cases second <;> decide

end CampusMesh.Shared
