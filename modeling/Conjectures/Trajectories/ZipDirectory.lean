import Conjectures.Db.Models
import Conjectures.Lib.Bytes
import Conjectures.Lib.Transaction

/-!
# The central directory of an uploaded archive

`submission_api/trajectory_zip_directory.py`, and what CPython's `ZipFile` reads of the same
bytes when it is opened. Both look for the directory from the end of the file.
-/

namespace Conjectures.Trajectories

open Lib Db

inductive ZipError where
  | badZipFile
  /-- `PackageError("zip directory exceeds validation limits")` -/
  | packageError
  deriving DecidableEq

def maxDirectoryBytes : ℕ := 32 * 1024 * 1024

/-- `b"PK\x05\x06"` -/
def endSignature : Bytes := [0x50, 0x4b, 0x05, 0x06]

/-- `b"PK\x06\x07"` -/
def locatorSignature : Bytes := [0x50, 0x4b, 0x06, 0x07]

/-- `b"PK\x06\x06"` -/
def zip64Signature : Bytes := [0x50, 0x4b, 0x06, 0x06]

/-- `b"PK\x01\x02"` -/
def headerSignature : Bytes := [0x50, 0x4b, 0x01, 0x02]

/-- `"<4s4H2LH"`: disk, disk of the directory, entries on the disk, entries, size, offset and the
length of the comment -/
def endFormat : List ℕ := [4, 2, 2, 2, 2, 4, 4, 2]

/-- `"<4sLQL"`: disk, offset and disks -/
def locatorFormat : List ℕ := [4, 4, 8, 4]

/-- `"<4sQ2H2L4Q"`: the record's own size, two versions, disk, disk of the directory, entries on
the disk, entries, size and offset -/
def zip64Format : List ℕ := [4, 8, 2, 2, 4, 4, 8, 8, 8, 8]

/-- What three fields at 28 of a header add to its 46 bytes: name, extra field and comment. -/
def variableBytes (header : Bytes) : ℕ := (unpack [2, 2, 2] (header.drop 28)).sum

/-! ## `check_directory` -/

/-- Where a directory starts, and its bytes. -/
structure Directory where
  start : ℕ
  size : ℕ
  deriving DecidableEq

/-- The end record of a zip64 archive, once its locator stands before the end record. -/
def checkZip64 (source : Bytes) (endOffset : ℕ) : Except ZipError (ℕ × ℕ × ℕ) := do
  let located := unpack locatorFormat (readAt source (endOffset - 20) 20)
  let offset := located.getD 2 0
  require (located.getD 1 0 = 0 ∧ located.getD 3 0 = 1 ∧ offset + 76 = endOffset) .badZipFile
  let record := readAt source offset 56
  require (record.length = 56 ∧ record.take 4 = zip64Signature) .badZipFile
  let zip64 := unpack zip64Format record
  require (zip64.getD 1 0 = 44 ∧ zip64.getD 4 0 = 0 ∧ zip64.getD 5 0 = 0) .badZipFile
  return (zip64.getD 7 0, zip64.getD 8 0, offset)

/-- `check_directory` before its loop: the region that the loop walks. -/
def locateDirectory (source : Bytes) (maxFiles : ℕ) : Except ZipError Directory := do
  let tail := source.drop (source.length - 65557)
  let position ← need (rfind endSignature tail) .badZipFile
  require (position + 22 ≤ tail.length) .badZipFile
  let end_ := unpack endFormat (tail.drop position)
  require (position + 22 + end_.getD 7 0 = tail.length) .badZipFile
  let endOffset := source.length - tail.length + position
  require (end_.getD 1 0 = 0 ∧ end_.getD 2 0 = 0) .badZipFile
  let (entries, size, directoryEnd) ← (
    if 20 ≤ endOffset ∧ (readAt source (endOffset - 20) 20).take 4 = locatorSignature then
      checkZip64 source endOffset
    else .ok (end_.getD 4 0, end_.getD 5 0, endOffset))
  require (entries ≤ maxFiles ∧ size ≤ maxDirectoryBytes) .packageError
  require (size ≤ directoryEnd) .badZipFile
  return ⟨directoryEnd - size, size⟩

/-- The loop's variables, and where the source stands. -/
structure Walk where
  position : ℕ
  remaining : ℕ
  count : ℕ

/-- One round of `while remaining`. -/
def Walk.round (source : Bytes) (maxFiles : ℕ) (w : Walk) : Except ZipError Walk := do
  require (46 ≤ w.remaining) .badZipFile
  let header := readAt source w.position 46
  require (header.length = 46 ∧ header.take 4 = headerSignature) .badZipFile
  require (46 + variableBytes header ≤ w.remaining) .badZipFile
  require (w.count + 1 ≤ maxFiles) .packageError
  return ⟨w.position + 46 + variableBytes header,
    w.remaining - (46 + variableBytes header), w.count + 1⟩

/-- `while remaining`, for so many rounds; nothing where they do not suffice. -/
def walk (source : Bytes) (maxFiles : ℕ) : ℕ → Walk → Option (Except ZipError Unit)
  | 0, _ => none
  | rounds + 1, w =>
    if w.remaining = 0 then some (.ok ())
    else
      match w.round source maxFiles with
      | .error e => some (.error e)
      | .ok w' => walk source maxFiles rounds w'

/-- `check_directory` from its loop on. -/
def walkDirectory (source : Bytes) (maxFiles rounds : ℕ) :
    Except ZipError Directory → Option (Except ZipError Unit)
  | .error e => some (.error e)
  | .ok d => walk source maxFiles rounds ⟨d.start, d.size, 0⟩

def checkDirectory (source : Bytes) (maxFiles rounds : ℕ) : Option (Except ZipError Unit) :=
  walkDirectory source maxFiles rounds (locateDirectory source maxFiles)

end Conjectures.Trajectories
