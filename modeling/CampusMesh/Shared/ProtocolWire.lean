import CampusMesh.Shared.Bitfield
import CampusMesh.Shared.Constants

/-!
# The binary peer protocol

The six encoders and `decodeMessage` of the wire protocol. An encoder allocates a zero-filled
buffer, writes the common header and then its fields at computed offsets; every one of them is the
header followed by its payload (`encodeBitfield_eq` to `encodeHeaderOnly_eq`). The decoder reads the
header first and leaves the rest to `decodeBody` (`decodeMessage_headerBytes`), so a round trip
compares one payload with one branch of `decodeBody`.
-/

set_option autoImplicit false
set_option relaxedAutoImplicit false

namespace CampusMesh.Shared

open Library

/-- A decoded message. -/
inductive WireMessage
  | BITFIELD (resourceId : String) (totalChunks : ℕ) (bitfield : Bitfield)
  | HAVE (resourceId : String) (chunkIndex : ℕ)
  | REQUEST (resourceId : String) (chunkIndex : ℕ)
  | PIECE (resourceId : String) (chunkIndex beginOffset totalLength : ℕ) (data : Bytes)
  | CHOKE (resourceId : String)
  | UNCHOKE (resourceId : String)

/-! ### Buffer access -/

/-- `buffer.set(slice, offset)` on a byte array. -/
def setBytes (buffer : Bytes) (offset : ℕ) (slice : Bytes) : Except JsError Bytes :=
  match blit buffer offset slice with
  | some result => .ok result
  | none => .error (.rangeError "offset is out of bounds")

/-- `view.setUint32(offset, value, false)`. -/
def setUint32 (buffer : Bytes) (offset value : ℕ) : Except JsError Bytes :=
  match blit buffer offset (uint32Bytes value) with
  | some result => .ok result
  | none => .error (.rangeError "Offset is outside the bounds of the DataView")

/-- `view.getUint32(offset, false)`. -/
def getUint32 (bytes : Bytes) (offset : ℕ) : Except JsError ℕ :=
  match readUint32 bytes offset with
  | some value => .ok value
  | none => .error (.rangeError "Offset is outside the bounds of the DataView")

/-- `bytes.subarray(start, stop)`. -/
def subarray (bytes : Bytes) (start stop : ℕ) : Bytes := (bytes.drop start).take (stop - start)

/-! ### Encoders -/

/-- Allocates a frame and writes its header: version, type, length of the resource id, resource
id. Returns the buffer and the size of the header. -/
def encodeCommonHeader (type : WireMessageType) (resourceId : String) (extraPayloadSize : ℕ) :
    Except JsError (Bytes × ℕ) := do
  let resIdBytes := textEncode resourceId
  if resIdBytes.length > 255 then
    throw (.error ("Resource ID exceeds maximum length of 255 bytes: " ++ resourceId))
  let headerSize := 3 + resIdBytes.length
  let buffer := List.replicate (headerSize + extraPayloadSize) 0
  let buffer := buffer.set 0 CAMPUS_MESH_PROTOCOL_VERSION
  let buffer := buffer.set 1 type.opcode
  let buffer := buffer.set 2 (UInt8.ofNat resIdBytes.length)
  let buffer ← setBytes buffer 3 resIdBytes
  return (buffer, headerSize)

/-- Encodes a BITFIELD message: the number of chunks, then the bytes of the bitfield. -/
def encodeBitfield (resourceId : String) (totalChunks : ℕ) (bitfield : Bitfield) :
    Except JsError Bytes := do
  let bfBytes := bitfield.toBytes
  let (buffer, headerSize) ← encodeCommonHeader .BITFIELD resourceId (4 + bfBytes.length)
  let buffer ← setUint32 buffer headerSize totalChunks
  setBytes buffer (headerSize + 4) bfBytes

/-- Encodes a message whose payload is one chunk index. -/
def encodeChunkIndex (type : WireMessageType) (resourceId : String) (chunkIndex : ℕ) :
    Except JsError Bytes := do
  let (buffer, headerSize) ← encodeCommonHeader type resourceId 4
  setUint32 buffer headerSize chunkIndex

/-- Encodes a HAVE message. -/
def encodeHave (resourceId : String) (chunkIndex : ℕ) : Except JsError Bytes :=
  encodeChunkIndex .HAVE resourceId chunkIndex

/-- Encodes a REQUEST message. -/
def encodeRequest (resourceId : String) (chunkIndex : ℕ) : Except JsError Bytes :=
  encodeChunkIndex .REQUEST resourceId chunkIndex

/-- Encodes a PIECE message: chunk index, offset, length of the chunk and length of the block, then
the block. -/
def encodePiece (resourceId : String) (chunkIndex beginOffset totalLength : ℕ) (data : Bytes) :
    Except JsError Bytes := do
  let (buffer, headerSize) ← encodeCommonHeader .PIECE resourceId (16 + data.length)
  let buffer ← setUint32 buffer headerSize chunkIndex
  let buffer ← setUint32 buffer (headerSize + 4) beginOffset
  let buffer ← setUint32 buffer (headerSize + 8) totalLength
  let buffer ← setUint32 buffer (headerSize + 12) data.length
  setBytes buffer (headerSize + 16) data

/-- Encodes a message without payload. -/
def encodeHeaderOnly (type : WireMessageType) (resourceId : String) : Except JsError Bytes := do
  let (buffer, _) ← encodeCommonHeader type resourceId 0
  return buffer

/-- Encodes a CHOKE message. -/
def encodeChoke (resourceId : String) : Except JsError Bytes := encodeHeaderOnly .CHOKE resourceId

/-- Encodes an UNCHOKE message. -/
def encodeUnchoke (resourceId : String) : Except JsError Bytes :=
  encodeHeaderOnly .UNCHOKE resourceId

/-! ### Decoder -/

/-- The branches of `decodeMessage` behind the common header. -/
def decodeBody (type : WireMessageType) (resourceId : String) (bytes : Bytes) (headerSize : ℕ) :
    Except JsError WireMessage :=
  match type with
  | .BITFIELD => do
    if bytes.length < headerSize + 4 then
      throw (.error "Truncated BITFIELD packet: missing totalChunks field")
    let totalChunks ← getUint32 bytes headerSize
    let expectedBfBytes := requiredBytes totalChunks
    let actualBfBytes := bytes.length - (headerSize + 4)
    if actualBfBytes ≠ expectedBfBytes then
      throw (.error ("BITFIELD byte length mismatch: expected " ++ toString expectedBfBytes ++
        " bytes for " ++ toString totalChunks ++ " chunks, got " ++ toString actualBfBytes))
    let bitfield ← Bitfield.fromBytes totalChunks (bytes.drop (headerSize + 4))
    return .BITFIELD resourceId totalChunks bitfield
  | .HAVE => do
    if bytes.length < headerSize + 4 then
      throw (.error "Truncated HAVE packet: missing chunkIndex")
    let chunkIndex ← getUint32 bytes headerSize
    return .HAVE resourceId chunkIndex
  | .REQUEST => do
    if bytes.length < headerSize + 4 then
      throw (.error "Truncated REQUEST packet: missing chunkIndex")
    let chunkIndex ← getUint32 bytes headerSize
    return .REQUEST resourceId chunkIndex
  | .PIECE => do
    if bytes.length < headerSize + 16 then
      throw (.error "Truncated PIECE packet: missing chunk header metadata")
    let chunkIndex ← getUint32 bytes headerSize
    let beginOffset ← getUint32 bytes (headerSize + 4)
    let totalLength ← getUint32 bytes (headerSize + 8)
    let dataLength ← getUint32 bytes (headerSize + 12)
    if bytes.length < headerSize + 16 + dataLength then
      throw (.error ("Truncated PIECE payload: declared " ++ toString dataLength ++
        " bytes, only " ++ toString (bytes.length - (headerSize + 16)) ++ " available"))
    let data := subarray bytes (headerSize + 16) (headerSize + 16 + dataLength)
    return .PIECE resourceId chunkIndex beginOffset totalLength data
  | .CHOKE => return .CHOKE resourceId
  | .UNCHOKE => return .UNCHOKE resourceId

/-- Decodes a wire message. -/
def decodeMessage (bytes : Bytes) : Except JsError WireMessage := do
  if bytes.length < 3 then
    throw (.error ("Packet too short: " ++ toString bytes.length ++
      " bytes (minimum is 3 bytes)"))
  let version := bytes.getD 0 0
  if version ≠ CAMPUS_MESH_PROTOCOL_VERSION then
    throw (.error ("Unsupported protocol version: " ++ toString version ++ ", expected " ++
      toString CAMPUS_MESH_PROTOCOL_VERSION))
  let resIdLength := (bytes.getD 2 0).toNat
  let headerSize := 3 + resIdLength
  if bytes.length < headerSize then
    throw (.error ("Malformed packet: declared resourceId length " ++ toString resIdLength ++
      " exceeds total packet size " ++ toString bytes.length))
  let resourceId := textDecode (subarray bytes 3 headerSize)
  match WireMessageType.ofOpcode (bytes.getD 1 0) with
  | some type => decodeBody type resourceId bytes headerSize
  | none =>
    throw (.error ("Unknown wire message opcode: 0x" ++
      String.ofList (Nat.toDigits 16 (bytes.getD 1 0).toNat)))

/-! ### Layout of the frames -/

/-- The bytes of the common header. -/
def headerBytes (type : WireMessageType) (resourceId : String) : Bytes :=
  [CAMPUS_MESH_PROTOCOL_VERSION, type.opcode, UInt8.ofNat (textEncode resourceId).length] ++
    textEncode resourceId

/-- A resource id that fits the length byte of the header. -/
def FitsHeader (resourceId : String) : Prop := (textEncode resourceId).length ≤ 255

instance (resourceId : String) : Decidable (FitsHeader resourceId) :=
  inferInstanceAs (Decidable ((textEncode resourceId).length ≤ 255))

theorem length_headerBytes (type : WireMessageType) (resourceId : String) :
    (headerBytes type resourceId).length = 3 + (textEncode resourceId).length := by
  rw [headerBytes, List.length_append]
  rfl

/-- Filling a zeroed part behind bytes that are already there. -/
theorem setBytes_zeros (front slice : Bytes) {offset : ℕ} (hoffset : offset = front.length)
    (rest : ℕ) :
    setBytes (front ++ List.replicate (slice.length + rest) 0) offset slice =
      .ok (front ++ (slice ++ List.replicate rest 0)) := by
  have hwrite : blit (front ++ (List.replicate slice.length 0 ++ List.replicate rest 0)) offset
      slice = some (front ++ (slice ++ List.replicate rest 0)) :=
    blit_middle hoffset List.length_replicate.symm
  rw [setBytes, List.replicate_add, hwrite]

/-- Filling the whole zeroed end of a buffer. -/
theorem setBytes_zeros_end (front slice : Bytes) {offset : ℕ} (hoffset : offset = front.length) :
    setBytes (front ++ List.replicate slice.length 0) offset slice = .ok (front ++ slice) := by
  have hwrite := setBytes_zeros front slice hoffset 0
  rwa [Nat.add_zero, List.replicate_zero, List.append_nil] at hwrite

theorem setUint32_zeros (front : Bytes) {offset : ℕ} (hoffset : offset = front.length)
    (value rest : ℕ) :
    setUint32 (front ++ List.replicate (4 + rest) 0) offset value =
      .ok (front ++ (uint32Bytes value ++ List.replicate rest 0)) := by
  have hwrite : blit (front ++ (List.replicate 4 0 ++ List.replicate rest 0)) offset
      (uint32Bytes value) = some (front ++ (uint32Bytes value ++ List.replicate rest 0)) :=
    blit_middle hoffset rfl
  rw [setUint32, List.replicate_add, hwrite]

/-- The header is written whenever the resource id fits. -/
theorem encodeCommonHeader_eq {resourceId : String} (hfits : FitsHeader resourceId)
    (type : WireMessageType) (extraPayloadSize : ℕ) :
    encodeCommonHeader type resourceId extraPayloadSize =
      .ok (headerBytes type resourceId ++ List.replicate extraPayloadSize 0,
        (headerBytes type resourceId).length) := by
  have hlength : ¬ (textEncode resourceId).length > 255 := not_lt.mpr hfits
  have hzeros : List.replicate (3 + (textEncode resourceId).length + extraPayloadSize) (0 : UInt8) =
      0 :: 0 :: 0 :: List.replicate ((textEncode resourceId).length + extraPayloadSize) 0 := by
    rw [Nat.add_assoc, List.replicate_add]
    rfl
  have hwrite : setBytes
      (CAMPUS_MESH_PROTOCOL_VERSION :: type.opcode :: UInt8.ofNat (textEncode resourceId).length ::
        List.replicate ((textEncode resourceId).length + extraPayloadSize) 0) 3
      (textEncode resourceId) =
      .ok (headerBytes type resourceId ++ List.replicate extraPayloadSize 0) := by
    rw [headerBytes, List.append_assoc]
    exact setBytes_zeros [CAMPUS_MESH_PROTOCOL_VERSION, type.opcode,
      UInt8.ofNat (textEncode resourceId).length] (textEncode resourceId) rfl extraPayloadSize
  rw [encodeCommonHeader]
  simp only [if_neg hlength, hzeros, List.set_cons_zero, List.set_cons_succ, hwrite,
    length_headerBytes]
  rfl

/-- An id that does not fit is refused. -/
theorem encodeCommonHeader_error {resourceId : String} (hlong : ¬ FitsHeader resourceId)
    (type : WireMessageType) (extraPayloadSize : ℕ) :
    encodeCommonHeader type resourceId extraPayloadSize =
      .error (.error ("Resource ID exceeds maximum length of 255 bytes: " ++ resourceId)) := by
  rw [encodeCommonHeader]
  simp only [if_pos (not_le.mp hlong)]
  rfl

/-! ### Frames -/

/-- A BITFIELD frame is the header, the number of chunks and the bytes of the bitfield. -/
theorem encodeBitfield_eq {resourceId : String} (hfits : FitsHeader resourceId) (totalChunks : ℕ)
    (bitfield : Bitfield) :
    encodeBitfield resourceId totalChunks bitfield =
      .ok (headerBytes .BITFIELD resourceId ++ (uint32Bytes totalChunks ++ bitfield.bytes)) := by
  have hend := setBytes_zeros_end (headerBytes .BITFIELD resourceId ++ uint32Bytes totalChunks)
    bitfield.bytes (List.length_append).symm
  rw [List.append_assoc, List.append_assoc] at hend
  rw [encodeBitfield, Bitfield.toBytes, encodeCommonHeader_eq hfits]
  change (setUint32 _ _ totalChunks).bind _ = _
  rw [setUint32_zeros _ rfl totalChunks bitfield.bytes.length]
  exact hend

/-- A HAVE or REQUEST frame is the header and the chunk index. -/
theorem encodeChunkIndex_eq {resourceId : String} (hfits : FitsHeader resourceId)
    (type : WireMessageType) (chunkIndex : ℕ) :
    encodeChunkIndex type resourceId chunkIndex =
      .ok (headerBytes type resourceId ++ uint32Bytes chunkIndex) := by
  rw [encodeChunkIndex, encodeCommonHeader_eq hfits]
  change setUint32 _ _ chunkIndex = _
  rw [setUint32_zeros _ rfl chunkIndex 0, List.replicate_zero, List.append_nil]

/-- A HAVE or REQUEST for a resource id that does not fit is refused. -/
theorem encodeChunkIndex_error {resourceId : String} (hlong : ¬ FitsHeader resourceId)
    (type : WireMessageType) (chunkIndex : ℕ) :
    encodeChunkIndex type resourceId chunkIndex =
      .error (.error ("Resource ID exceeds maximum length of 255 bytes: " ++ resourceId)) := by
  rw [encodeChunkIndex, encodeCommonHeader_error hlong]
  rfl

/-- A PIECE frame is the header, four numbers and the block. -/
theorem encodePiece_eq {resourceId : String} (hfits : FitsHeader resourceId)
    (chunkIndex beginOffset totalLength : ℕ) (data : Bytes) :
    encodePiece resourceId chunkIndex beginOffset totalLength data =
      .ok (headerBytes .PIECE resourceId ++ (uint32Bytes chunkIndex ++ (uint32Bytes beginOffset ++
        (uint32Bytes totalLength ++ (uint32Bytes data.length ++ data))))) := by
  have hchunk := setUint32_zeros (headerBytes .PIECE resourceId) rfl chunkIndex (12 + data.length)
  have hbegin := setUint32_zeros (headerBytes .PIECE resourceId ++ uint32Bytes chunkIndex)
    List.length_append.symm beginOffset (8 + data.length)
  have htotal := setUint32_zeros (headerBytes .PIECE resourceId ++ (uint32Bytes chunkIndex ++
    uint32Bytes beginOffset)) List.length_append.symm totalLength (4 + data.length)
  have hlength := setUint32_zeros (headerBytes .PIECE resourceId ++ (uint32Bytes chunkIndex ++
    (uint32Bytes beginOffset ++ uint32Bytes totalLength))) List.length_append.symm data.length
    data.length
  have hend := setBytes_zeros_end (headerBytes .PIECE resourceId ++ (uint32Bytes chunkIndex ++
    (uint32Bytes beginOffset ++ (uint32Bytes totalLength ++ uint32Bytes data.length)))) data
    List.length_append.symm
  simp only [List.append_assoc, List.length_append, length_uint32Bytes, ← Nat.add_assoc,
    Nat.reduceAdd] at hchunk hbegin htotal hlength hend
  rw [encodePiece, encodeCommonHeader_eq hfits]
  change (setUint32 _ _ chunkIndex).bind _ = _
  rw [hchunk]
  change (setUint32 _ _ beginOffset).bind _ = _
  rw [hbegin]
  change (setUint32 _ _ totalLength).bind _ = _
  rw [htotal]
  change (setUint32 _ _ data.length).bind _ = _
  rw [hlength]
  exact hend

/-- A CHOKE or UNCHOKE frame is the header. -/
theorem encodeHeaderOnly_eq {resourceId : String} (hfits : FitsHeader resourceId)
    (type : WireMessageType) :
    encodeHeaderOnly type resourceId = .ok (headerBytes type resourceId) := by
  rw [encodeHeaderOnly, encodeCommonHeader_eq hfits, List.replicate_zero, List.append_nil]
  rfl

/-- A frame of a type: its second byte is the operation code. -/
def HasType (type : WireMessageType) (frame : Bytes) : Prop := frame[1]? = some type.opcode

instance (type : WireMessageType) (frame : Bytes) : Decidable (HasType type frame) :=
  inferInstanceAs (Decidable (frame[1]? = some type.opcode))

theorem hasType_headerBytes (type : WireMessageType) (resourceId : String) (payload : Bytes) :
    HasType type (headerBytes type resourceId ++ payload) := rfl

/-- A frame has one type. -/
theorem HasType.unique {type other : WireMessageType} {frame : Bytes} (hframe : HasType type frame)
    (hother : HasType other frame) : type = other := by
  have hopcode : type.opcode = other.opcode := Option.some.inj (hframe.symm.trans hother)
  have hread := congrArg WireMessageType.ofOpcode hopcode
  rw [WireMessageType.ofOpcode_opcode, WireMessageType.ofOpcode_opcode] at hread
  exact Option.some.inj hread

theorem hasType_of_encodeChunkIndex {type : WireMessageType} {resourceId : String}
    {chunkIndex : ℕ} {frame : Bytes}
    (hframe : encodeChunkIndex type resourceId chunkIndex = .ok frame) :
    HasType type frame := by
  by_cases hfits : FitsHeader resourceId
  · rw [encodeChunkIndex_eq hfits, Except.ok.injEq] at hframe
    rw [← hframe]
    exact hasType_headerBytes type resourceId _
  · rw [encodeChunkIndex_error hfits] at hframe
    exact absurd hframe (by simp)

theorem hasType_of_encodePiece {resourceId : String} {chunkIndex beginOffset totalLength : ℕ}
    {data frame : Bytes}
    (hframe : encodePiece resourceId chunkIndex beginOffset totalLength data = .ok frame) :
    HasType .PIECE frame := by
  by_cases hfits : FitsHeader resourceId
  · rw [encodePiece_eq hfits, Except.ok.injEq] at hframe
    rw [← hframe]
    exact hasType_headerBytes .PIECE resourceId _
  · rw [encodePiece, encodeCommonHeader_error hfits] at hframe
    exact absurd hframe (by simp [bind, Except.bind])

theorem hasType_of_encodeBitfield {resourceId : String} {totalChunks : ℕ} {bitfield : Bitfield}
    {frame : Bytes} (hframe : encodeBitfield resourceId totalChunks bitfield = .ok frame) :
    HasType .BITFIELD frame := by
  by_cases hfits : FitsHeader resourceId
  · rw [encodeBitfield_eq hfits, Except.ok.injEq] at hframe
    rw [← hframe]
    exact hasType_headerBytes .BITFIELD resourceId _
  · rw [encodeBitfield, encodeCommonHeader_error hfits] at hframe
    exact absurd hframe (by simp [bind, Except.bind])

theorem hasType_of_encodeHeaderOnly {type : WireMessageType} {resourceId : String} {frame : Bytes}
    (hframe : encodeHeaderOnly type resourceId = .ok frame) : HasType type frame := by
  by_cases hfits : FitsHeader resourceId
  · rw [encodeHeaderOnly_eq hfits, Except.ok.injEq] at hframe
    rw [← hframe]
    rfl
  · rw [encodeHeaderOnly, encodeCommonHeader_error hfits] at hframe
    exact absurd hframe (by simp [bind, Except.bind])

/-! ### Decoding what was encoded -/

/-- A resource id that the text codec gives back. -/
def RoundTripsText (resourceId : String) : Prop := textDecode (textEncode resourceId) = resourceId

instance (resourceId : String) : Decidable (RoundTripsText resourceId) :=
  inferInstanceAs (Decidable (textDecode (textEncode resourceId) = resourceId))

/-- The decoder finds version, type and resource id where the header has them. -/
theorem decodeMessage_headerBytes {resourceId : String} (hfits : FitsHeader resourceId)
    (htext : RoundTripsText resourceId) (type : WireMessageType) (payload : Bytes) :
    decodeMessage (headerBytes type resourceId ++ payload) =
      decodeBody type resourceId (headerBytes type resourceId ++ payload)
        (headerBytes type resourceId).length := by
  have hidLength : (UInt8.ofNat (textEncode resourceId).length).toNat =
      (textEncode resourceId).length := by
    rw [UInt8.toNat_ofNat', Nat.mod_eq_of_lt (Nat.lt_succ_of_le hfits)]
  have htotal : (headerBytes type resourceId ++ payload).length =
      3 + (textEncode resourceId).length + payload.length := by
    rw [List.length_append, length_headerBytes]
  have hversion : (headerBytes type resourceId ++ payload).getD 0 0 =
      CAMPUS_MESH_PROTOCOL_VERSION := rfl
  have hopcode : (headerBytes type resourceId ++ payload).getD 1 0 = type.opcode := rfl
  have hidByte : (headerBytes type resourceId ++ payload).getD 2 0 =
      UInt8.ofNat (textEncode resourceId).length := rfl
  have hid : subarray (headerBytes type resourceId ++ payload) 3
      (3 + (textEncode resourceId).length) = textEncode resourceId := by
    rw [subarray, headerBytes, List.append_assoc, Nat.add_sub_cancel_left]
    exact List.take_left
  rw [decodeMessage]
  simp only [hversion, hopcode, hidByte, hidLength, htotal, hid, ne_eq, not_true_eq_false,
    if_false, WireMessageType.ofOpcode_opcode, length_headerBytes,
    if_neg (show ¬ 3 + (textEncode resourceId).length + payload.length < 3 by omega),
    if_neg (show ¬ 3 + (textEncode resourceId).length + payload.length <
      3 + (textEncode resourceId).length by omega)]
  rw [show textDecode (textEncode resourceId) = resourceId from htext]

/-- Reading a number that a frame carries behind a part already read. -/
theorem getUint32_append (front back : Bytes) {offset value : ℕ} (hoffset : offset = front.length)
    (hvalue : value < 2 ^ 32) :
    getUint32 (front ++ (uint32Bytes value ++ back)) offset = .ok value := by
  rw [getUint32, readUint32_append hoffset, Nat.mod_eq_of_lt hvalue]

end CampusMesh.Shared
