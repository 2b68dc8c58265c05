import CampusMesh.Server.ChunkStream

/-!
# The manifest does not depend on the reads

A read stream delivers a file in buffers of whatever lengths: empty ones, ones that end in the
middle of a chunk, and ones that span many chunks. `ManifestGenerator.generate` always resolves,
with the manifest that cutting the whole file at once would give (`generate_describes`), and so with
the same one for all ways in which the file can be read.
-/

set_option autoImplicit false
set_option relaxedAutoImplicit false

namespace CampusMesh.Server

open Library Shared

variable {digest : Bytes → Bytes} {chunkSize : ℕ}

/-- The manifest describes the consecutive slices of a file: its length and hash, the number of
slices, which is the one that `calculateTotalChunks` computes, and for every slice its index, length
and hash. -/
structure Describes (digest : Bytes → Bytes) (chunkSize : ℕ) (file : Bytes)
    (manifest : GeneratedManifestResult) : Prop where
  fileSize : manifest.fileSize = file.length
  fileHash : manifest.fileHash = hexText (digest file)
  totalChunks : manifest.totalChunks = ⌈(manifest.fileSize : ℚ) / chunkSize⌉₊
  calculated : manifest.totalChunks = calculateTotalChunks manifest.fileSize chunkSize
  length_chunks : manifest.chunks.length = manifest.totalChunks
  chunk : ∀ index < manifest.totalChunks, manifest.chunks[index]? =
    some ⟨index, (Library.slice chunkSize file index).length,
      hexText (digest (Library.slice chunkSize file index))⟩
  whole : (List.range manifest.totalChunks).flatMap (Library.slice chunkSize file) = file

/-- Cutting the whole file at once describes its slices. -/
theorem slicedManifest_describes (hsize : 0 < chunkSize) (file : Bytes) :
    Describes digest chunkSize file (slicedManifest digest chunkSize file) where
  fileSize := rfl
  fileHash := rfl
  totalChunks := sliceCount_eq_ceil hsize file.length
  calculated := (calculateTotalChunks_eq file.length hsize).symm
  length_chunks := by
    rw [slicedManifest, List.length_map, List.length_range]
  chunk index hindex := by
    have hrange : (List.range (sliceCount chunkSize file.length))[index]? = some index :=
      List.getElem?_range hindex
    rw [slicedManifest, List.getElem?_map, hrange]
    rfl
  whole := flatMap_slice hsize file

/-- **Streaming is cutting at once.** For every chunk size and every sequence of buffers `generate`
resolves, with a manifest that describes the slices of what the buffers are together; other buffers
of the same file give the same manifest. -/
theorem generate_describes (hsize : 1 ≤ chunkSize) (buffers : List Bytes) :
    ∃ manifest, generate digest chunkSize buffers = some manifest ∧
      Describes digest chunkSize buffers.flatten manifest ∧
      ∀ others : List Bytes, others.flatten = buffers.flatten →
        generate digest chunkSize others = some manifest := by
  refine ⟨_, generate_eq hsize buffers, slicedManifest_describes hsize _, fun others hsame ↦ ?_⟩
  rw [generate_eq hsize others, hsame]

theorem generate_describes_reads : generate id 2 [[1], [], [2, 3, 4, 5]] =
    generate id 2 [[1, 2, 3], [4, 5]] := by
  obtain ⟨manifest, hgenerated, _, hothers⟩ :=
    @generate_describes id 2 (by decide) [[1], [], [2, 3, 4, 5]]
  rw [hgenerated, hothers [[1, 2, 3], [4, 5]] rfl]

end CampusMesh.Server
