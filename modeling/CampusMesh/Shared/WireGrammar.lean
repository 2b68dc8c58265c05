import CampusMesh.Shared.ProtocolWire

/-!
# The wire grammar

What `decodeMessage` accepts. A byte sequence is too short for a number or begins with one
(`uint32_cases`), so each branch of `decodeBody` is determined by two equations, one for a payload
that is too short and one for a payload that starts with its fields. From these follow both the
round trip of the encoders (`encoders_decode`) and the grammar (`decodeMessage_grammar`): the
decoder returns a message exactly for the frame of that message followed by what may follow it.
-/

set_option autoImplicit false
set_option relaxedAutoImplicit false

namespace CampusMesh.Shared

open Library

/-! ### Payloads -/

section Payloads

variable (resourceId : String) (front : Bytes)

/-- A payload of fewer bytes than its fields take is refused. -/
theorem decodeBody_truncated {rest : Bytes} :
    (rest.length < 4 → ∀ type ∈ [WireMessageType.BITFIELD, .HAVE, .REQUEST],
      ∃ text, decodeBody type resourceId (front ++ rest) front.length = .error (.error text)) ∧
    (rest.length < 16 →
      ∃ text, decodeBody .PIECE resourceId (front ++ rest) front.length =
        .error (.error text)) := by
  constructor
  · intro hshort type htype
    have hlength : (front ++ rest).length < front.length + 4 := by
      rw [List.length_append]
      omega
    simp only [List.mem_cons, List.not_mem_nil, or_false] at htype
    rcases htype with rfl | rfl | rfl
    all_goals
      simp only [decodeBody, if_pos hlength]
      exact ⟨_, rfl⟩
  · intro hshort
    have hlength : (front ++ rest).length < front.length + 16 := by
      rw [List.length_append]
      omega
    simp only [decodeBody, if_pos hlength]
    exact ⟨_, rfl⟩

variable {resourceId front}

theorem decodeBody_HAVE {chunkIndex : ℕ} (hindex : chunkIndex < 2 ^ 32) (tail : Bytes) :
    decodeBody .HAVE resourceId (front ++ (uint32Bytes chunkIndex ++ tail)) front.length =
      .ok (.HAVE resourceId chunkIndex) := by
  have hlength : ¬ (front ++ (uint32Bytes chunkIndex ++ tail)).length < front.length + 4 := by
    simp only [List.length_append, length_uint32Bytes]
    omega
  simp only [decodeBody, if_neg hlength]
  rw [getUint32_append front tail rfl hindex]
  rfl

theorem decodeBody_REQUEST {chunkIndex : ℕ} (hindex : chunkIndex < 2 ^ 32) (tail : Bytes) :
    decodeBody .REQUEST resourceId (front ++ (uint32Bytes chunkIndex ++ tail)) front.length =
      .ok (.REQUEST resourceId chunkIndex) := by
  have hlength : ¬ (front ++ (uint32Bytes chunkIndex ++ tail)).length < front.length + 4 := by
    simp only [List.length_append, length_uint32Bytes]
    omega
  simp only [decodeBody, if_neg hlength]
  rw [getUint32_append front tail rfl hindex]
  rfl

/-- A BITFIELD is accepted if exactly the bytes of its chunks follow their number. -/
theorem decodeBody_BITFIELD {totalChunks : ℕ} (htotal : totalChunks < 2 ^ 32) (data : Bytes) :
    decodeBody .BITFIELD resourceId (front ++ (uint32Bytes totalChunks ++ data)) front.length =
      if hlength : data.length = requiredBytes totalChunks then
        .ok (.BITFIELD resourceId totalChunks ⟨totalChunks, data, hlength⟩)
      else .error (.error ("BITFIELD byte length mismatch: expected " ++
        toString (requiredBytes totalChunks) ++ " bytes for " ++ toString totalChunks ++
        " chunks, got " ++ toString data.length)) := by
  have hlength : (front ++ (uint32Bytes totalChunks ++ data)).length =
      front.length + 4 + data.length := by
    simp only [List.length_append, length_uint32Bytes]
    omega
  have hdata : (front ++ (uint32Bytes totalChunks ++ data)).drop (front.length + 4) = data := by
    rw [← List.append_assoc]
    exact List.drop_left' List.length_append
  simp only [decodeBody, hlength, hdata, Nat.add_sub_cancel_left,
    if_neg (show ¬ front.length + 4 + data.length < front.length + 4 by omega)]
  rw [getUint32_append front data rfl htotal]
  by_cases hdataLength : data.length = requiredBytes totalChunks
  · simp [bind, Except.bind, pure, Except.pure, Bitfield.fromBytes, hdataLength]
  · simp [bind, Except.bind, throw, throwThe, MonadExceptOf.throw, hdataLength]

/-- A PIECE is accepted if at least as many bytes follow its fields as it declares. -/
theorem decodeBody_PIECE {chunkIndex beginOffset totalLength dataLength : ℕ}
    (hindex : chunkIndex < 2 ^ 32) (hbegin : beginOffset < 2 ^ 32) (htotal : totalLength < 2 ^ 32)
    (hdataLength : dataLength < 2 ^ 32) (data : Bytes) :
    decodeBody .PIECE resourceId (front ++ (uint32Bytes chunkIndex ++ (uint32Bytes beginOffset ++
      (uint32Bytes totalLength ++ (uint32Bytes dataLength ++ data))))) front.length =
      if data.length < dataLength then
        .error (.error ("Truncated PIECE payload: declared " ++ toString dataLength ++
          " bytes, only " ++ toString data.length ++ " available"))
      else .ok (.PIECE resourceId chunkIndex beginOffset totalLength (data.take dataLength)) := by
  have hfirst := getUint32_append front
    (uint32Bytes beginOffset ++ (uint32Bytes totalLength ++ (uint32Bytes dataLength ++ data)))
    rfl hindex
  have hsecond := getUint32_append (front ++ uint32Bytes chunkIndex)
    (uint32Bytes totalLength ++ (uint32Bytes dataLength ++ data)) List.length_append.symm hbegin
  have hthird := getUint32_append (front ++ (uint32Bytes chunkIndex ++ uint32Bytes beginOffset))
    (uint32Bytes dataLength ++ data) List.length_append.symm htotal
  have hfourth := getUint32_append (front ++ (uint32Bytes chunkIndex ++
    (uint32Bytes beginOffset ++ uint32Bytes totalLength))) data List.length_append.symm hdataLength
  have hblock : (front ++ (uint32Bytes chunkIndex ++ (uint32Bytes beginOffset ++
      (uint32Bytes totalLength ++ (uint32Bytes dataLength ++ data))))).drop (front.length + 16) =
        data := by
    simp only [← List.append_assoc]
    exact List.drop_left' (by simp only [List.length_append, length_uint32Bytes])
  have hlength : (front ++ (uint32Bytes chunkIndex ++ (uint32Bytes beginOffset ++
      (uint32Bytes totalLength ++ (uint32Bytes dataLength ++ data))))).length =
        front.length + 16 + data.length := by
    simp only [List.length_append, length_uint32Bytes]
    omega
  simp only [List.append_assoc, List.length_append, length_uint32Bytes, Nat.reduceAdd]
    at hfirst hsecond hthird hfourth
  simp only [decodeBody, hlength, Nat.add_sub_cancel_left,
    if_neg (show ¬ front.length + 16 + data.length < front.length + 16 by omega)]
  rw [hfirst, hsecond, hthird, hfourth]
  by_cases hshort : data.length < dataLength
  · simp [bind, Except.bind, throw, throwThe, MonadExceptOf.throw, hshort]
  · simp [bind, Except.bind, pure, Except.pure, subarray, hblock, hshort]

end Payloads

/-! ### Round trip -/

/-- The frame that an encoder returns, without throwing, decodes to a given message. -/
def Decodes (encoded : Except JsError Bytes) (message : WireMessage) : Prop :=
  ∃ frame, encoded = .ok frame ∧ decodeMessage frame = .ok message

section RoundTrip

variable {resourceId : String} (hfits : FitsHeader resourceId) (htext : RoundTripsText resourceId)
include hfits htext

theorem decodes_encodeBitfield {bitfield : Bitfield} (htotal : bitfield.totalChunks < 2 ^ 32) :
    Decodes (encodeBitfield resourceId bitfield.totalChunks bitfield)
      (.BITFIELD resourceId bitfield.totalChunks bitfield) := by
  refine ⟨_, encodeBitfield_eq hfits _ _, ?_⟩
  rw [decodeMessage_headerBytes hfits htext, decodeBody_BITFIELD htotal,
    dif_pos bitfield.length_bytes]

theorem decodes_encodeHave {chunkIndex : ℕ} (hindex : chunkIndex < 2 ^ 32) :
    Decodes (encodeHave resourceId chunkIndex) (.HAVE resourceId chunkIndex) := by
  refine ⟨_, encodeChunkIndex_eq hfits .HAVE chunkIndex, ?_⟩
  rw [← List.append_nil (uint32Bytes chunkIndex), decodeMessage_headerBytes hfits htext,
    decodeBody_HAVE hindex]

theorem decodes_encodeRequest {chunkIndex : ℕ} (hindex : chunkIndex < 2 ^ 32) :
    Decodes (encodeRequest resourceId chunkIndex) (.REQUEST resourceId chunkIndex) := by
  refine ⟨_, encodeChunkIndex_eq hfits .REQUEST chunkIndex, ?_⟩
  rw [← List.append_nil (uint32Bytes chunkIndex), decodeMessage_headerBytes hfits htext,
    decodeBody_REQUEST hindex]

theorem decodes_encodePiece {chunkIndex beginOffset totalLength : ℕ} {data : Bytes}
    (hindex : chunkIndex < 2 ^ 32) (hbegin : beginOffset < 2 ^ 32) (htotal : totalLength < 2 ^ 32)
    (hdata : data.length < 2 ^ 32) :
    Decodes (encodePiece resourceId chunkIndex beginOffset totalLength data)
      (.PIECE resourceId chunkIndex beginOffset totalLength data) := by
  refine ⟨_, encodePiece_eq hfits _ _ _ _, ?_⟩
  rw [decodeMessage_headerBytes hfits htext, decodeBody_PIECE hindex hbegin htotal hdata,
    if_neg (lt_irrefl _), List.take_length]

theorem decodes_encodeChoke : Decodes (encodeChoke resourceId) (.CHOKE resourceId) := by
  refine ⟨_, encodeHeaderOnly_eq hfits .CHOKE, ?_⟩
  rw [← List.append_nil (headerBytes .CHOKE resourceId), decodeMessage_headerBytes hfits htext]
  rfl

theorem decodes_encodeUnchoke : Decodes (encodeUnchoke resourceId) (.UNCHOKE resourceId) := by
  refine ⟨_, encodeHeaderOnly_eq hfits .UNCHOKE, ?_⟩
  rw [← List.append_nil (headerBytes .UNCHOKE resourceId), decodeMessage_headerBytes hfits htext]
  rfl

end RoundTrip

/-- **Round trip of the wire codec.** For a resource id that the text codec gives back and that fits
the length byte, each of the six encoders returns a frame, and decoding the frame gives the message
that was encoded, with the same bitfield and the same bytes. Numbers are those a field of four bytes
can hold. -/
theorem encoders_decode {resourceId : String} (hfits : FitsHeader resourceId)
    (htext : RoundTripsText resourceId) :
    (∀ bitfield : Bitfield, bitfield.totalChunks < 2 ^ 32 →
      Decodes (encodeBitfield resourceId bitfield.totalChunks bitfield)
        (.BITFIELD resourceId bitfield.totalChunks bitfield)) ∧
    (∀ chunkIndex < 2 ^ 32,
      Decodes (encodeHave resourceId chunkIndex) (.HAVE resourceId chunkIndex)) ∧
    (∀ chunkIndex < 2 ^ 32,
      Decodes (encodeRequest resourceId chunkIndex) (.REQUEST resourceId chunkIndex)) ∧
    (∀ chunkIndex < 2 ^ 32, ∀ beginOffset < 2 ^ 32, ∀ totalLength < 2 ^ 32, ∀ data : Bytes,
      data.length < 2 ^ 32 →
      Decodes (encodePiece resourceId chunkIndex beginOffset totalLength data)
        (.PIECE resourceId chunkIndex beginOffset totalLength data)) ∧
    Decodes (encodeChoke resourceId) (.CHOKE resourceId) ∧
    Decodes (encodeUnchoke resourceId) (.UNCHOKE resourceId) :=
  ⟨fun _ htotal ↦ decodes_encodeBitfield hfits htext htotal,
    fun _ hindex ↦ decodes_encodeHave hfits htext hindex,
    fun _ hindex ↦ decodes_encodeRequest hfits htext hindex,
    fun _ hindex _ hbegin _ htotal _ hdata ↦
      decodes_encodePiece hfits htext hindex hbegin htotal hdata,
    decodes_encodeChoke hfits htext, decodes_encodeUnchoke hfits htext⟩

/-- The codec on a PIECE of a two-byte chunk and on the empty resource id. -/
theorem encoders_decode_piece :
    Decodes (encodePiece "res_1" 3 0 2 [7, 9]) (.PIECE "res_1" 3 0 2 [7, 9]) ∧
      Decodes (encodeChoke "") (.CHOKE "") :=
  have hpiece := encoders_decode (show FitsHeader "res_1" by decide) (by decide)
  have hchoke := encoders_decode (show FitsHeader "" by decide) (by decide)
  ⟨hpiece.2.2.2.1 3 (by decide) 0 (by decide) 2 (by decide) [7, 9] (by decide),
    hchoke.2.2.2.2.1⟩

/-! ### Grammar -/

/-- The message type of a message. -/
def WireMessage.type : WireMessage → WireMessageType
  | .BITFIELD .. => .BITFIELD
  | .HAVE .. => .HAVE
  | .REQUEST .. => .REQUEST
  | .PIECE .. => .PIECE
  | .CHOKE .. => .CHOKE
  | .UNCHOKE .. => .UNCHOKE

/-- The resource that a message is about. -/
def WireMessage.resourceId : WireMessage → String
  | .BITFIELD resourceId _ _ | .HAVE resourceId _ | .REQUEST resourceId _
  | .PIECE resourceId _ _ _ _ | .CHOKE resourceId | .UNCHOKE resourceId => resourceId

/-- The call of the encoder of each message type. -/
def encodeMessage : WireMessage → Except JsError Bytes
  | .BITFIELD resourceId totalChunks bitfield => encodeBitfield resourceId totalChunks bitfield
  | .HAVE resourceId chunkIndex => encodeHave resourceId chunkIndex
  | .REQUEST resourceId chunkIndex => encodeRequest resourceId chunkIndex
  | .PIECE resourceId chunkIndex beginOffset totalLength data =>
    encodePiece resourceId chunkIndex beginOffset totalLength data
  | .CHOKE resourceId => encodeChoke resourceId
  | .UNCHOKE resourceId => encodeUnchoke resourceId

/-- The numbers of a message are those its fields of four bytes can hold, and its bitfield has as
many chunks as it says. -/
def WireMessage.FieldsFit : WireMessage → Prop
  | .BITFIELD _ totalChunks bitfield => totalChunks < 2 ^ 32 ∧ bitfield.totalChunks = totalChunks
  | .HAVE _ chunkIndex | .REQUEST _ chunkIndex => chunkIndex < 2 ^ 32
  | .PIECE _ chunkIndex beginOffset totalLength data =>
    chunkIndex < 2 ^ 32 ∧ beginOffset < 2 ^ 32 ∧ totalLength < 2 ^ 32 ∧ data.length < 2 ^ 32
  | .CHOKE _ | .UNCHOKE _ => True

/-- What may follow the frame of a message: nothing behind a BITFIELD, anything behind the others.
-/
def WireMessage.MayPrecede : WireMessage → Bytes → Prop
  | .BITFIELD .., tail => tail = []
  | _, _ => True

/-- Bytes in which a message stands on the wire: its frame by the encoder, and a tail that may
follow it. -/
def OnWire (message : WireMessage) (bytes : Bytes) : Prop :=
  message.FieldsFit ∧ ∃ frame tail, encodeMessage message = .ok frame ∧ bytes = frame ++ tail ∧
    message.MayPrecede tail

/-- The bytes that the header declares as the resource id, when they are there, are UTF-8 that the
text codec gives back. -/
def IdRoundTrips (bytes : Bytes) : Prop :=
  3 + (bytes.getD 2 0).toNat ≤ bytes.length →
    textEncode (textDecode (subarray bytes 3 (3 + (bytes.getD 2 0).toNat))) =
      subarray bytes 3 (3 + (bytes.getD 2 0).toNat)

instance (bytes : Bytes) : Decidable (IdRoundTrips bytes) :=
  inferInstanceAs (Decidable (3 + (bytes.getD 2 0).toNat ≤ bytes.length → _))

/-- The bytes of a message behind its header. -/
def WireMessage.payload : WireMessage → Bytes
  | .BITFIELD _ totalChunks bitfield => uint32Bytes totalChunks ++ bitfield.bytes
  | .HAVE _ chunkIndex | .REQUEST _ chunkIndex => uint32Bytes chunkIndex
  | .PIECE _ chunkIndex beginOffset totalLength data =>
    uint32Bytes chunkIndex ++ (uint32Bytes beginOffset ++ (uint32Bytes totalLength ++
      (uint32Bytes data.length ++ data)))
  | .CHOKE _ | .UNCHOKE _ => []

/-- The encoders differ in the payload only. -/
theorem encodeMessage_eq_ok_iff {message : WireMessage} {frame : Bytes} :
    encodeMessage message = .ok frame ↔ FitsHeader message.resourceId ∧
      frame = headerBytes message.type message.resourceId ++ message.payload := by
  by_cases hfits : FitsHeader message.resourceId
  · have hframe : encodeMessage message =
        .ok (headerBytes message.type message.resourceId ++ message.payload) := by
      cases message with
      | BITFIELD resourceId totalChunks bitfield => exact encodeBitfield_eq hfits _ _
      | HAVE resourceId chunkIndex => exact encodeChunkIndex_eq hfits _ _
      | REQUEST resourceId chunkIndex => exact encodeChunkIndex_eq hfits _ _
      | PIECE resourceId chunkIndex beginOffset totalLength data =>
        exact encodePiece_eq hfits _ _ _ _
      | CHOKE resourceId | UNCHOKE resourceId =>
        rw [WireMessage.payload, List.append_nil]
        exact encodeHeaderOnly_eq hfits _
    rw [hframe, Except.ok.injEq, eq_comm]
    exact ⟨fun heq ↦ ⟨hfits, heq⟩, fun h ↦ h.2⟩
  · have herror : ∃ error, encodeMessage message = .error error := by
      cases message with
      | BITFIELD resourceId totalChunks bitfield =>
        rw [encodeMessage, encodeBitfield,
          encodeCommonHeader_error (show ¬ FitsHeader resourceId from hfits)]
        exact ⟨_, rfl⟩
      | HAVE resourceId chunkIndex => exact ⟨_, encodeChunkIndex_error hfits _ _⟩
      | REQUEST resourceId chunkIndex => exact ⟨_, encodeChunkIndex_error hfits _ _⟩
      | PIECE resourceId chunkIndex beginOffset totalLength data =>
        rw [encodeMessage, encodePiece,
          encodeCommonHeader_error (show ¬ FitsHeader resourceId from hfits)]
        exact ⟨_, rfl⟩
      | CHOKE resourceId | UNCHOKE resourceId =>
        refine ⟨.error ("Resource ID exceeds maximum length of 255 bytes: " ++ resourceId), ?_⟩
        change (encodeCommonHeader _ resourceId 0 >>= _) = _
        rw [encodeCommonHeader_error (show ¬ FitsHeader resourceId from hfits)]
        rfl
    obtain ⟨error, herror⟩ := herror
    rw [herror]
    exact ⟨fun heq ↦ absurd heq (by simp), fun h ↦ absurd h.1 hfits⟩

/-- A rest that carries a message of a type about a resource. -/
def Carries (type : WireMessageType) (resourceId : String) (rest : Bytes) (message : WireMessage) :
    Prop :=
  message.type = type ∧ message.resourceId = resourceId ∧ message.FieldsFit ∧
    ∃ tail, rest = message.payload ++ tail ∧ message.MayPrecede tail

/-- Behind a header the decoder finds what the rest carries. -/
theorem decodeBody_of_carries {type : WireMessageType} {resourceId : String} (front : Bytes)
    {rest : Bytes} {message : WireMessage} (hcarries : Carries type resourceId rest message) :
    decodeBody type resourceId (front ++ rest) front.length = .ok message := by
  obtain ⟨rfl, rfl, hfields, tail, rfl, htail⟩ := hcarries
  cases message with
  | BITFIELD resourceId totalChunks bitfield =>
    obtain ⟨htotal, rfl⟩ := hfields
    cases htail
    rw [List.append_nil, WireMessage.payload]
    exact (decodeBody_BITFIELD htotal bitfield.bytes).trans (dif_pos bitfield.length_bytes)
  | HAVE resourceId chunkIndex => exact decodeBody_HAVE hfields tail
  | REQUEST resourceId chunkIndex => exact decodeBody_REQUEST hfields tail
  | PIECE resourceId chunkIndex beginOffset totalLength data =>
    obtain ⟨hindex, hbegin, htotal, hlength⟩ := hfields
    simp only [WireMessage.payload, List.append_assoc]
    refine (decodeBody_PIECE hindex hbegin htotal hlength (data ++ tail)).trans ?_
    rw [if_neg (by simp), List.take_left]
    rfl
  | CHOKE resourceId => rfl
  | UNCHOKE resourceId => rfl

/-- A rest carries a message, or the decoder refuses it with an error of its own. -/
theorem decodeBody_cases (type : WireMessageType) (resourceId : String) (front rest : Bytes) :
    (∃ text, decodeBody type resourceId (front ++ rest) front.length = .error (.error text)) ∨
      ∃ message, Carries type resourceId rest message := by
  have hshort := @decodeBody_truncated resourceId front rest
  cases type with
  | BITFIELD =>
    rcases uint32_cases rest with hless | ⟨totalChunks, htotal, data, rfl⟩
    · exact Or.inl (hshort.1 hless _ (by simp))
    · by_cases hlength : data.length = requiredBytes totalChunks
      · exact Or.inr ⟨.BITFIELD resourceId totalChunks ⟨totalChunks, data, hlength⟩, rfl, rfl,
          ⟨htotal, rfl⟩, [], by simp [WireMessage.payload], rfl⟩
      · rw [decodeBody_BITFIELD htotal, dif_neg hlength]
        exact Or.inl ⟨_, rfl⟩
  | HAVE =>
    rcases uint32_cases rest with hless | ⟨chunkIndex, hindex, tail, rfl⟩
    · exact Or.inl (hshort.1 hless _ (by simp))
    · exact Or.inr ⟨.HAVE resourceId chunkIndex, rfl, rfl, hindex, tail, rfl, trivial⟩
  | REQUEST =>
    rcases uint32_cases rest with hless | ⟨chunkIndex, hindex, tail, rfl⟩
    · exact Or.inl (hshort.1 hless _ (by simp))
    · exact Or.inr ⟨.REQUEST resourceId chunkIndex, rfl, rfl, hindex, tail, rfl, trivial⟩
  | PIECE =>
    by_cases hless : rest.length < 16
    · exact Or.inl (hshort.2 hless)
    · obtain ⟨chunkIndex, hindex, rest, rfl⟩ := (uint32_cases rest).resolve_left (by omega)
      rw [List.length_append, length_uint32Bytes] at hless
      obtain ⟨beginOffset, hbegin, rest, rfl⟩ := (uint32_cases rest).resolve_left (by omega)
      rw [List.length_append, length_uint32Bytes] at hless
      obtain ⟨totalLength, htotal, rest, rfl⟩ := (uint32_cases rest).resolve_left (by omega)
      rw [List.length_append, length_uint32Bytes] at hless
      obtain ⟨dataLength, hlength, data, rfl⟩ := (uint32_cases rest).resolve_left (by omega)
      by_cases hdata : data.length < dataLength
      · rw [decodeBody_PIECE hindex hbegin htotal hlength, if_pos hdata]
        exact Or.inl ⟨_, rfl⟩
      · have htake : (data.take dataLength).length = dataLength := by
          rw [List.length_take]
          omega
        refine Or.inr ⟨.PIECE resourceId chunkIndex beginOffset totalLength (data.take dataLength),
          rfl, rfl, ⟨hindex, hbegin, htotal, htake.trans_lt hlength⟩, data.drop dataLength, ?_,
          trivial⟩
        simp only [WireMessage.payload, htake, List.append_assoc, List.take_append_drop]
  | CHOKE => exact Or.inr ⟨.CHOKE resourceId, rfl, rfl, trivial, rest, rfl, trivial⟩
  | UNCHOKE => exact Or.inr ⟨.UNCHOKE resourceId, rfl, rfl, trivial, rest, rfl, trivial⟩

/-- What throws does not return. -/
private theorem throw_bind_ne_ok {ε α β : Type} (error : ε) (next : α → Except ε β) (result : β) :
    (throw error >>= next) ≠ .ok result := nofun

/-- What is decoded is carried behind the header, whatever its resource id. -/
theorem carries_of_decodes {bytes : Bytes} {message : WireMessage}
    (hdecodes : decodeMessage bytes = .ok message) :
    ∃ type, WireMessageType.ofOpcode (bytes.getD 1 0) = some type ∧ 3 ≤ bytes.length ∧
      Carries type (textDecode (subarray bytes 3 (3 + (bytes.getD 2 0).toNat)))
        (bytes.drop (3 + (bytes.getD 2 0).toNat)) message := by
  rw [decodeMessage] at hdecodes
  by_cases hshort : bytes.length < 3
  · rw [if_pos hshort] at hdecodes
    exact absurd hdecodes (throw_bind_ne_ok _ _ _)
  · rw [if_neg hshort] at hdecodes
    by_cases hversion : bytes.getD 0 0 ≠ CAMPUS_MESH_PROTOCOL_VERSION
    · simp only [if_pos hversion] at hdecodes
      exact absurd hdecodes (throw_bind_ne_ok _ _ _)
    · simp only [if_neg hversion] at hdecodes
      by_cases hid : bytes.length < 3 + (bytes.getD 2 0).toNat
      · simp only [if_pos hid] at hdecodes
        exact absurd hdecodes (throw_bind_ne_ok _ _ _)
      · simp only [if_neg hid] at hdecodes
        split at hdecodes
        · next type htype =>
          have hfront : (bytes.take (3 + (bytes.getD 2 0).toNat)).length =
              3 + (bytes.getD 2 0).toNat :=
            List.length_take_of_le (Nat.le_of_not_lt hid)
          have hcases := decodeBody_cases type
            (textDecode (subarray bytes 3 (3 + (bytes.getD 2 0).toNat)))
            (bytes.take (3 + (bytes.getD 2 0).toNat)) (bytes.drop (3 + (bytes.getD 2 0).toNat))
          rcases hcases with ⟨text, herror⟩ | ⟨carried, hcarries⟩
          · rw [List.take_append_drop, hfront, hdecodes] at herror
            cases herror
          · have hfound := decodeBody_of_carries (bytes.take (3 + (bytes.getD 2 0).toNat)) hcarries
            rw [List.take_append_drop, hfront, hdecodes] at hfound
            cases hfound
            exact ⟨type, htype, Nat.le_of_not_lt hshort, hcarries⟩
        · cases hdecodes

/-- What is decoded has numbers of 32 bits. -/
theorem fieldsFit_of_decodes {bytes : Bytes} {message : WireMessage}
    (hdecodes : decodeMessage bytes = .ok message) : message.FieldsFit := by
  obtain ⟨_, _, _, hcarries⟩ := carries_of_decodes hdecodes
  exact hcarries.2.2.1

/-- A frame has the type of the message that it decodes to. -/
theorem hasType_of_decodes {bytes : Bytes} {message : WireMessage}
    (hdecodes : decodeMessage bytes = .ok message) : HasType message.type bytes := by
  obtain ⟨type, htype, hlength, rfl, -⟩ := carries_of_decodes hdecodes
  have hrange : 1 < bytes.length := by omega
  rw [List.getD_eq_getElem?_getD, List.getElem?_eq_getElem hrange] at htype
  rw [HasType, List.getElem?_eq_getElem hrange]
  exact congrArg some (WireMessageType.opcode_of_ofOpcode htype)

/-- Different strings have different UTF-8 bytes. -/
theorem textEncode_injective {first second : String} (heq : textEncode first = textEncode second) :
    first = second := by
  have hbytes : ∀ text : String, text.toByteArray = (textEncode text).toByteArray := by
    intro text
    have hchars := String.toByteArray_ofList (l := text.toList)
    rw [String.ofList_toList] at hchars
    rw [hchars, List.utf8Encode, textEncode]
  rw [← String.toByteArray_inj, hbytes, hbytes, heq]

/-- Bytes are the header of some type and resource id with a rest behind it, or the decoder refuses
them with an error of its own. -/
theorem decodeMessage_cases {bytes : Bytes} (htext : IdRoundTrips bytes) :
    (∃ text, decodeMessage bytes = .error (.error text)) ∨
      ∃ type resourceId rest, FitsHeader resourceId ∧ RoundTripsText resourceId ∧
        bytes = headerBytes type resourceId ++ rest := by
  match bytes with
  | [] | [_] | [_, _] => exact Or.inl ⟨_, rfl⟩
  | version :: opcode :: idLength :: rest =>
    have hlength : ¬ (version :: opcode :: idLength :: rest).length < 3 := by simp
    by_cases hversion : version = CAMPUS_MESH_PROTOCOL_VERSION
    case neg =>
      rw [decodeMessage]
      simp only [if_neg hlength, List.getD_cons_zero, ne_eq, hversion, not_false_eq_true, if_true]
      exact Or.inl ⟨_, rfl⟩
    subst hversion
    by_cases hid : rest.length < idLength.toNat
    · have hshort : (CAMPUS_MESH_PROTOCOL_VERSION :: opcode :: idLength :: rest).length <
          3 + idLength.toNat := by
        simp only [List.length_cons]
        omega
      rw [decodeMessage]
      simp only [if_neg hlength, List.getD_cons_zero, List.getD_cons_succ, ne_eq,
        not_true_eq_false, if_false, if_pos hshort]
      exact Or.inl ⟨_, rfl⟩
    have hfull : ¬ (CAMPUS_MESH_PROTOCOL_VERSION :: opcode :: idLength :: rest).length <
        3 + idLength.toNat := by
      simp only [List.length_cons]
      omega
    cases htype : WireMessageType.ofOpcode opcode with
    | none =>
      rw [decodeMessage]
      simp only [if_neg hlength, List.getD_cons_zero, List.getD_cons_succ, ne_eq,
        not_true_eq_false, if_false, if_neg hfull, htype]
      exact Or.inl ⟨_, rfl⟩
    | some type =>
      have hidBytes : subarray (CAMPUS_MESH_PROTOCOL_VERSION :: opcode :: idLength :: rest) 3
          (3 + idLength.toNat) = rest.take idLength.toNat := by
        rw [subarray, Nat.add_sub_cancel_left]
        rfl
      have hgiven : textEncode (textDecode (rest.take idLength.toNat)) =
          rest.take idLength.toNat := by
        have hpresent := htext (by
          simp only [List.getD_cons_zero, List.getD_cons_succ]
          omega)
        simp only [List.getD_cons_zero, List.getD_cons_succ] at hpresent
        rwa [hidBytes] at hpresent
      have hidLength : (rest.take idLength.toNat).length = idLength.toNat := by
        rw [List.length_take]
        omega
      refine Or.inr ⟨type, textDecode (rest.take idLength.toNat), rest.drop idLength.toNat, ?_, ?_,
        ?_⟩
      · rw [FitsHeader, hgiven, hidLength]
        exact Nat.le_of_lt_succ idLength.toNat_lt
      · rw [RoundTripsText, hgiven]
      · rw [headerBytes, hgiven, hidLength, UInt8.ofNat_toNat,
          WireMessageType.opcode_of_ofOpcode htype, List.append_assoc, List.take_append_drop]
        rfl

/-- The id in a frame on the wire is one that the text codec gives back. -/
theorem OnWire.header {message : WireMessage} {bytes : Bytes} (hwire : OnWire message bytes)
    (htext : IdRoundTrips bytes) :
    FitsHeader message.resourceId ∧ RoundTripsText message.resourceId ∧
      ∃ rest, bytes = headerBytes message.type message.resourceId ++ rest ∧
        Carries message.type message.resourceId rest message := by
  obtain ⟨hfields, frame, tail, hframe, rfl, htail⟩ := hwire
  obtain ⟨hfits, rfl⟩ := encodeMessage_eq_ok_iff.mp hframe
  have hidLength : (UInt8.ofNat (textEncode message.resourceId).length).toNat =
      (textEncode message.resourceId).length := by
    rw [UInt8.toNat_ofNat', Nat.mod_eq_of_lt (Nat.lt_succ_of_le hfits)]
  refine ⟨hfits, ?_, message.payload ++ tail, List.append_assoc _ _ _, rfl, rfl, hfields, tail, rfl,
    htail⟩
  have hidByte : ((headerBytes message.type message.resourceId ++ message.payload) ++
    tail).getD 2 0 = UInt8.ofNat (textEncode message.resourceId).length := rfl
  have hid : subarray ((headerBytes message.type message.resourceId ++ message.payload) ++ tail) 3
      (3 + (textEncode message.resourceId).length) = textEncode message.resourceId := by
    rw [subarray, headerBytes, List.append_assoc, List.append_assoc, Nat.add_sub_cancel_left]
    exact List.take_left
  have hpresent := htext (by
    rw [hidByte, hidLength, List.length_append, List.length_append, length_headerBytes]
    omega)
  rw [hidByte, hidLength, hid] at hpresent
  exact textEncode_injective hpresent

/-- **The decoder accepts exactly the wire grammar.** For bytes whose resource id, where it is
present, the text codec gives back: the decoder returns a message exactly if the bytes are the
encoder's frame of that message and a tail that may follow it, it throws on all others, what it
throws is an error of one of its own checks and never that of a read beyond the end, and a BITFIELD
that it returns encodes to the very same bytes. -/
theorem decodeMessage_grammar {bytes : Bytes} (htext : IdRoundTrips bytes) :
    (∀ message, decodeMessage bytes = .ok message ↔ OnWire message bytes) ∧
    ((∀ message, ¬ OnWire message bytes) → ∃ error, decodeMessage bytes = .error error) ∧
    (∀ error, decodeMessage bytes = .error error → ∃ text, error = .error text) ∧
    (∀ resourceId totalChunks bitfield,
      decodeMessage bytes = .ok (.BITFIELD resourceId totalChunks bitfield) →
        encodeBitfield resourceId totalChunks bitfield = .ok bytes) := by
  have hreturns : ∀ message, OnWire message bytes → decodeMessage bytes = .ok message := by
    intro message hwire
    obtain ⟨hfits, htrips, rest, rfl, hcarries⟩ := hwire.header htext
    rw [decodeMessage_headerBytes hfits htrips, decodeBody_of_carries _ hcarries]
  have hcases : (∃ text, decodeMessage bytes = .error (.error text)) ∨
      ∃ message, OnWire message bytes := by
    rcases decodeMessage_cases htext with herror | ⟨type, resourceId, rest, hfits, htrips, rfl⟩
    · exact Or.inl herror
    rw [decodeMessage_headerBytes hfits htrips]
    refine (decodeBody_cases type resourceId (headerBytes type resourceId) rest).imp id ?_
    rintro ⟨message, rfl, rfl, hfields, tail, rfl, htail⟩
    exact ⟨message, hfields, _, tail, encodeMessage_eq_ok_iff.mpr ⟨hfits, rfl⟩,
      (List.append_assoc _ _ _).symm, htail⟩
  have haccepts : ∀ message, decodeMessage bytes = .ok message ↔ OnWire message bytes := by
    refine fun message ↦ ⟨fun hdecode ↦ ?_, hreturns message⟩
    rcases hcases with ⟨text, herror⟩ | ⟨other, hwire⟩
    · rw [herror] at hdecode
      cases hdecode
    · rw [hreturns other hwire, Except.ok.injEq] at hdecode
      rwa [← hdecode]
  refine ⟨haccepts, fun hnone ↦ ?_, fun error herror ↦ ?_, fun resourceId totalChunks bitfield
    hdecode ↦ ?_⟩
  · obtain ⟨text, herror⟩ := hcases.resolve_right fun ⟨message, hwire⟩ ↦ hnone message hwire
    exact ⟨_, herror⟩
  · rcases hcases with ⟨text, hown⟩ | ⟨message, hwire⟩
    · rw [hown, Except.error.injEq] at herror
      exact ⟨text, herror.symm⟩
    · rw [hreturns message hwire] at herror
      cases herror
  · obtain ⟨_, frame, tail, hframe, rfl, htail⟩ := (haccepts _).mp hdecode
    cases htail
    rw [List.append_nil]
    exact hframe

/-- The decoder on a HAVE with two bytes behind it and on a BITFIELD of one byte. -/
theorem decodeMessage_grammar_have :
    decodeMessage [1, 2, 1, 97, 0, 0, 0, 5, 8, 9] = .ok (.HAVE "a" 5) ∧
      ∀ resourceId totalChunks bitfield,
        decodeMessage [1, 1, 1, 97, 0, 0, 0, 3, 0xA0] =
            .ok (.BITFIELD resourceId totalChunks bitfield) →
          encodeBitfield resourceId totalChunks bitfield = .ok [1, 1, 1, 97, 0, 0, 0, 3, 0xA0] :=
  ⟨((decodeMessage_grammar (by decide)).1 (.HAVE "a" 5)).mpr
      ⟨show 5 < 2 ^ 32 by decide, [1, 2, 1, 97, 0, 0, 0, 5], [8, 9], by decide, rfl, trivial⟩,
    (decodeMessage_grammar (by decide)).2.2.2⟩

end CampusMesh.Shared
