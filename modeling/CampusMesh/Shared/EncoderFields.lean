import CampusMesh.Shared.WireGrammar

/-!
# Arguments that a frame cannot carry

The encoders check that their numbers are not negative and that the resource id fits its length
byte. They do not check that a number fits its field of four bytes, nor that `encodeBitfield` is
given the number of chunks of its bitfield. A number that is too large is written modulo `2 ^ 32`
(`encodeChunkIndex_mod`), and the frame then means something else. `encoders_faithful_iff` says for
which arguments that cannot happen.
-/

set_option autoImplicit false
set_option relaxedAutoImplicit false

namespace CampusMesh.Shared

open Library

/-- The encoders of HAVE and REQUEST do not tell an index from its residue. -/
theorem encodeChunkIndex_mod (type : WireMessageType) (resourceId : String) (chunkIndex : ℕ) :
    encodeChunkIndex type resourceId (chunkIndex % 2 ^ 32) =
      encodeChunkIndex type resourceId chunkIndex := by
  simp only [encodeChunkIndex, setUint32, uint32Bytes_mod]

/-- What an encoder owes its caller: a frame that it returns decodes to the arguments, and arguments
that no frame can carry are refused. -/
structure Faithful (encoded : Except JsError Bytes) (message : WireMessage) : Prop where
  decodes : ∀ frame, encoded = .ok frame → decodeMessage frame = .ok message
  refuses : ¬ message.FieldsFit → ∃ error, encoded = .error error

section Calls

variable {message : WireMessage} (htext : RoundTripsText message.resourceId)
include htext

/-- The frame of a message whose fields fit decodes to the message. -/
theorem decodeMessage_encodeMessage (hfields : message.FieldsFit) {frame : Bytes}
    (hframe : encodeMessage message = .ok frame) : decodeMessage frame = .ok message := by
  obtain ⟨hfits, rfl⟩ := encodeMessage_eq_ok_iff.mp hframe
  rw [decodeMessage_headerBytes hfits htext]
  refine decodeBody_of_carries _ ⟨rfl, rfl, hfields, [], (List.append_nil _).symm, ?_⟩
  cases message <;> trivial

/-- An encoder is faithful for exactly the arguments whose fields fit and for those it refuses. The
decoder returns numbers of four bytes only, so a frame for others decodes to something else. -/
theorem encodeMessage_faithful_iff :
    Faithful (encodeMessage message) message ↔
      (FitsHeader message.resourceId → message.FieldsFit) := by
  constructor
  · intro hfaithful hfits
    exact fieldsFit_of_decodes
      (hfaithful.decodes _ (encodeMessage_eq_ok_iff.mpr ⟨hfits, rfl⟩))
  · intro hfields
    constructor
    · intro frame hframe
      have hfits := (encodeMessage_eq_ok_iff.mp hframe).1
      exact decodeMessage_encodeMessage htext (hfields hfits) hframe
    · intro hnot
      cases hencoded : encodeMessage message with
      | error error => exact ⟨error, rfl⟩
      | ok frame => exact absurd (hfields (encodeMessage_eq_ok_iff.mp hencoded).1) hnot

end Calls

/-- **When the encoders never emit a frame that means something else.** For a resource id that the
text codec gives back: an encoder's frames decode to the arguments, and arguments that no frame can
carry are refused, exactly if the resource id is refused by the header or all numbers are below
`2 ^ 32` and the number of chunks is that of the bitfield. -/
theorem encoders_faithful_iff {resourceId : String} (htext : RoundTripsText resourceId) :
    (∀ totalChunks bitfield,
      Faithful (encodeBitfield resourceId totalChunks bitfield)
          (.BITFIELD resourceId totalChunks bitfield) ↔
        (FitsHeader resourceId → totalChunks < 2 ^ 32 ∧ bitfield.totalChunks = totalChunks)) ∧
    (∀ chunkIndex,
      Faithful (encodeHave resourceId chunkIndex) (.HAVE resourceId chunkIndex) ↔
        (FitsHeader resourceId → chunkIndex < 2 ^ 32)) ∧
    (∀ chunkIndex,
      Faithful (encodeRequest resourceId chunkIndex) (.REQUEST resourceId chunkIndex) ↔
        (FitsHeader resourceId → chunkIndex < 2 ^ 32)) ∧
    (∀ chunkIndex beginOffset totalLength data,
      Faithful (encodePiece resourceId chunkIndex beginOffset totalLength data)
          (.PIECE resourceId chunkIndex beginOffset totalLength data) ↔
        (FitsHeader resourceId → chunkIndex < 2 ^ 32 ∧ beginOffset < 2 ^ 32 ∧
          totalLength < 2 ^ 32 ∧ data.length < 2 ^ 32)) := by
  refine ⟨fun totalChunks bitfield ↦ ?_, fun chunkIndex ↦ ?_, fun chunkIndex ↦ ?_,
    fun chunkIndex beginOffset totalLength data ↦ ?_⟩
  · exact @encodeMessage_faithful_iff (.BITFIELD resourceId totalChunks bitfield) htext
  · exact @encodeMessage_faithful_iff (.HAVE resourceId chunkIndex) htext
  · exact @encodeMessage_faithful_iff (.REQUEST resourceId chunkIndex) htext
  · exact @encodeMessage_faithful_iff
      (.PIECE resourceId chunkIndex beginOffset totalLength data) htext

/-- HAVE at the last index of four bytes, and a BITFIELD of 9 chunks that says so. -/
theorem encoders_faithful_iff_r :
    Faithful (encodeHave "r" (2 ^ 32 - 1)) (.HAVE "r" (2 ^ 32 - 1)) ∧
      Faithful (encodeBitfield "r" 9 (Bitfield.new 9)) (.BITFIELD "r" 9 (Bitfield.new 9)) :=
  have hfaithful := encoders_faithful_iff (show RoundTripsText "r" by decide)
  ⟨(hfaithful.2.1 _).mpr fun _ ↦ by decide, (hfaithful.1 _ _).mpr fun _ ↦ ⟨by decide, rfl⟩⟩

/-- HAVE for chunk `2 ^ 32` is a frame that means chunk 0, and a BITFIELD that says 9 chunks of a
bitfield of 16 is read as one of 9. -/
theorem encodeHave_wraps :
    RoundTripsText "r" ∧ Decodes (encodeHave "r" (2 ^ 32)) (.HAVE "r" 0) ∧
      ¬ Faithful (encodeHave "r" (2 ^ 32)) (.HAVE "r" (2 ^ 32)) ∧
      Decodes (encodeBitfield "r" 9 (Bitfield.new 16)) (.BITFIELD "r" 9 (Bitfield.new 9)) ∧
      ¬ Faithful (encodeBitfield "r" 9 (Bitfield.new 16))
        (.BITFIELD "r" 9 (Bitfield.new 16)) := by
  have htext : RoundTripsText "r" := by decide
  have hfits : FitsHeader "r" := by decide
  have hwrapped := encodeChunkIndex_mod .HAVE "r" (2 ^ 32)
  refine ⟨htext, ?_, fun hfaithful ↦ ?_, ⟨_, encodeBitfield_eq hfits 9 _, rfl⟩,
    fun hfaithful ↦ ?_⟩
  · rw [encodeHave, ← hwrapped]
    exact decodes_encodeHave hfits htext (by decide)
  · have hfields := (@encodeMessage_faithful_iff (.HAVE "r" (2 ^ 32)) htext).mp hfaithful hfits
    exact absurd hfields (lt_irrefl _)
  · have hfields := (@encodeMessage_faithful_iff (.BITFIELD "r" 9 (Bitfield.new 16)) htext).mp
      hfaithful hfits
    exact absurd hfields.2 (by decide)

end CampusMesh.Shared
