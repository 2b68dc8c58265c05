import CampusMesh.Library.OrderedMap
import CampusMesh.Shared.Runtime

/-!
# The storage directory

`LocalDiskStorageProvider`: files by their paths. Whether a path lies within the storage directory
is decided by path resolution, of which nothing is assumed. The system calls that the provider makes
may fail, and then leave what they have done so far: each comes with its result.
-/

set_option autoImplicit false
set_option relaxedAutoImplicit false

namespace CampusMesh.Server

open Library Shared

/-- The files by their paths. -/
abbrev Storage := OrderedMap String Bytes

/-- Which paths resolve to the storage directory or into it. -/
abbrev Confinement := String → Bool

/-- `assertPathWithinStorage`. -/
def assertPathWithinStorage (within : Confinement) (filePath : String) : Except JsError Unit :=
  if within filePath then .ok ()
  else .error (.error ("Security Violation: Storage path \"" ++ filePath ++
    "\" escapes configured storage directory."))

/-- The bytes of a file from `start` to `stop`, both included. -/
def readRange (start stop : ℕ) (file : Bytes) : Bytes := (file.drop start).take (stop + 1 - start)

namespace LocalDiskStorageProvider

variable (within : Confinement)

/-- What the stream of `createReadStream` yields. -/
def createReadStream (filePath : String) (start stop : ℕ) (storage : Storage) :
    Except JsError Bytes := do
  assertPathWithinStorage within filePath
  match storage.get? filePath with
  | some file => return readRange start stop file
  | none => .error (.error ("ENOENT: no such file or directory, open '" ++ filePath ++ "'"))

/-- `delete`, given the error of `unlink` other than ENOENT. -/
def delete (filePath : String) (fault : Option JsError) (storage : Storage) :
    Storage × Except JsError Bool :=
  match assertPathWithinStorage within filePath with
  | .error error => (storage, .error error)
  | .ok () =>
    match fault with
    | some error => (storage, .error error)
    | none => (storage.delete filePath, .ok (storage.has filePath))

/-- `exists`. -/
def «exists» (filePath : String) (storage : Storage) : Except JsError Bool := do
  assertPathWithinStorage within filePath
  return storage.has filePath

end LocalDiskStorageProvider

/-- The range of a slice is the slice. -/
theorem readRange_slice {size index : ℕ} {file : Bytes} (hsize : 0 < size)
    (hstart : index * size < file.length) :
    readRange (index * size) (max (index * size) (min (index * size + size) file.length - 1)) file =
      (file.drop (index * size)).take size := by
  unfold readRange
  by_cases hfull : index * size + size ≤ file.length
  · have hstop : max (index * size) (min (index * size + size) file.length - 1) + 1 -
        index * size = size := by omega
    rw [hstop]
  · have hstop : max (index * size) (min (index * size + size) file.length - 1) + 1 -
        index * size = file.length - index * size := by omega
    have hlength : (file.drop (index * size)).length = file.length - index * size :=
      List.length_drop
    rw [hstop, List.take_of_length_le hlength.le, List.take_of_length_le (by omega)]

end CampusMesh.Server
