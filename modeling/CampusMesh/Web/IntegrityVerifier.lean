import CampusMesh.Shared.ProtocolTypes
import CampusMesh.Shared.Runtime

/-!
# Chunk integrity

`IntegrityVerifier` compares the SHA-256 of received bytes with a hash of the manifest. The digest
is a parameter: a function from byte strings to byte strings, of which only the results about whole
files assume that it is injective. `Verified` is what the scheduler relies on when it stores a
chunk, and `eq_of_verified` what such a check is worth under an injective digest.
-/

set_option autoImplicit false
set_option relaxedAutoImplicit false

namespace CampusMesh.Web

open Library Shared

/-- The outcome of `IntegrityVerifier.verify`. -/
structure IntegrityVerificationResult where
  valid : Bool
  actualHash : String
  expectedHash : String

variable (digest : Bytes → Bytes)

/-- The lower-case hexadecimal SHA-256 of a byte array. -/
def computeSha256 (data : Bytes) : String := hexText (digest data)

/-- Compares the hash of the data with an expected one, both trimmed and in lower case. -/
def verify (data : Bytes) (expectedHash : String) : IntegrityVerificationResult :=
  let actualHash := computeSha256 digest data
  let normalizedExpected := toLowerCase (trim expectedHash)
  let normalizedActual := toLowerCase (trim actualHash)
  { valid := normalizedActual = normalizedExpected
    actualHash := normalizedActual
    expectedHash := normalizedExpected }

/-- A text that JavaScript counts as true: one that is there and not empty. -/
def truthyText (text : Option String) : Option String := text.filter fun content ↦ content ≠ ""

/-- The hash that a manifest expects of a chunk: that of its entry, or else the one listed in
`chunkHashes`. -/
def expectedHash (manifest : ResourceManifest) (chunkIndex : ℕ) : Option String :=
  (truthyText ((manifest.chunks[chunkIndex]?).map ChunkManifestEntry.sha256)).or
    (truthyText (manifest.chunkHashes.bind fun hashes ↦ hashes[chunkIndex]?))

/-- The bytes pass the check against the hash that the manifest expects of the chunk. -/
def Verified (manifest : ResourceManifest) (chunkIndex : ℕ) (data : Bytes) : Prop :=
  ∃ expected, expectedHash manifest chunkIndex = some expected ∧
    (verify digest data expected).valid = true

/-- A check against the hash of some bytes passes exactly for bytes with the same hash. -/
theorem verify_hexText_valid_iff (data original : Bytes) :
    (verify digest data (hexText (digest original))).valid = true ↔
      digest data = digest original := by
  simp only [verify, computeSha256, toLowerCase_trim_hexText, decide_eq_true_eq]
  exact ⟨hexText_injective, fun heq ↦ by rw [heq]⟩

/-- Under an injective digest, bytes that pass the check against the hash of some bytes are these
bytes. -/
theorem eq_of_verified {digest : Bytes → Bytes} (hinjective : Function.Injective digest)
    {manifest : ResourceManifest} {chunkIndex : ℕ} {data original : Bytes}
    (hexpected : expectedHash manifest chunkIndex = some (hexText (digest original)))
    (hverified : Verified digest manifest chunkIndex data) : data = original := by
  obtain ⟨expected, hentry, hvalid⟩ := hverified
  rw [hexpected, Option.some.injEq] at hentry
  subst hentry
  exact hinjective ((verify_hexText_valid_iff digest data original).mp hvalid)

end CampusMesh.Web
