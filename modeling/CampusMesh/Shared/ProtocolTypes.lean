import Mathlib.Data.Nat.Notation

/-!
# Resource manifests

The manifest of a shared file, as the server serves it and the browser downloads by it.
-/

set_option autoImplicit false
set_option relaxedAutoImplicit false

namespace CampusMesh.Shared

/-- One chunk in a manifest. -/
structure ChunkManifestEntry where
  index : ℕ
  size : ℕ
  sha256 : String
  deriving DecidableEq

/-- The authoritative description of a file: its size, its hash and the hashes of its chunks. -/
structure ResourceManifest where
  resourceId : String
  sessionId : String
  fileName : String
  fileSize : ℕ
  chunkSize : ℕ
  totalChunks : ℕ
  fileHash : String
  createdAt : String
  chunks : List ChunkManifestEntry
  chunkHashes : Option (List String)
  deriving DecidableEq

end CampusMesh.Shared
