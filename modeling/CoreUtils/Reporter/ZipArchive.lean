import CoreUtils.Library.ByteLayout
import CoreUtils.Library.NumericText
import CoreUtils.Library.OrderedMap
import CoreUtils.Library.Utf8

/-!
# Reading ZIP archives

`findEndOfCentralDirectoryOffset` and `readZipArchiveEntries` of `zipArchive.ts`, on the bytes of
the file. In what the functions read, nothing stands for the `RangeError` of a read beyond the end
of the buffer. Inflating is a parameter, with nothing for the error that the code catches. The
entries are collected in a plain object, so that an entry `__proto__` gives it another prototype
(`assign`).
-/

namespace CoreUtils.Reporter.Zip

open ByteLayout

/-- The bytes of a buffer. -/
abbrev Bytes := List UInt8

/-- Text as its characters. -/
abbrev Text := List Char

/-- The entries read, by file name. -/
abbrev Entries := OrderedMap Text Bytes

/-- The object that the entries are collected in: its own members, and its prototype if that is a
`Uint8Array` and no longer `Object.prototype`. -/
structure ArchiveEntries where
  own : Entries
  prototype : Option Bytes

/-- What is thrown: the `RangeError` of a read beyond the end of the buffer, or the `TypeError` of
an assignment to a member. -/
inductive ReadError where
  | rangeError
  | typeError (fileName : Text)
  deriving DecidableEq, Repr

/-- What the end record begins with, `ZIP_END_OF_CENTRAL_DIRECTORY_SIGNATURE`. -/
def endOfCentralDirectorySignature : ℕ := 101010256

/-- What a central header begins with, `ZIP_CENTRAL_DIRECTORY_FILE_HEADER_SIGNATURE`. -/
def centralDirectoryFileHeaderSignature : ℕ := 33639248

/-- What a local header begins with, `ZIP_LOCAL_FILE_HEADER_SIGNATURE`. -/
def localFileHeaderSignature : ℕ := 67324752

/-- The method of data that are not compressed, `ZIP_COMPRESSION_STORED`. -/
def compressionStored : ℕ := 0

/-- The method of data that are deflated, `ZIP_COMPRESSION_DEFLATE`. -/
def compressionDeflate : ℕ := 8

/-- `readUInt16LE`. -/
def readUInt16LE (buffer : Bytes) (offset : ℕ) : Option ℕ := readAt buffer offset 2

/-- `readUInt32LE`. -/
def readUInt32LE (buffer : Bytes) (offset : ℕ) : Option ℕ := readAt buffer offset 4

/-- `toString("utf8")`. -/
def toUtf8String (bytes : Bytes) : Text := Utf8.decode (bytes.map UInt8.toNat)

/-! ## The end record -/

/-- The length of an end record without a comment. -/
def minimumEndRecordLength : ℕ := 22

/-- The greatest length of the comment. -/
def maxCommentLength : ℕ := 65535

/-- The checks that an offset of the end record has to pass. -/
def passesEndRecordChecks (zipBuffer : Bytes) (offset : ℕ) : Option Bool := do
  let signature ← readUInt32LE zipBuffer offset
  if signature ≠ endOfCentralDirectorySignature then return false
  let commentLength ← readUInt16LE zipBuffer (offset + 20)
  let centralDirectorySize ← readUInt32LE zipBuffer (offset + 12)
  let centralDirectoryOffset ← readUInt32LE zipBuffer (offset + 16)
  return offset + minimumEndRecordLength + commentLength = zipBuffer.length &&
    centralDirectoryOffset + centralDirectorySize = offset

/-- The search of `findEndOfCentralDirectoryOffset` through a number of offsets, from the last one
down to `minimumOffset`. Nothing is found where the code returns `-1`. -/
def searchEndRecord (zipBuffer : Bytes) (minimumOffset : ℕ) : ℕ → Option (Option ℕ)
  | 0 => return none
  | remaining + 1 => do
      if ← passesEndRecordChecks zipBuffer (minimumOffset + remaining) then
        return some (minimumOffset + remaining)
      else searchEndRecord zipBuffer minimumOffset remaining

/-- Where the last end record begins, searched from the end as far as a comment can reach. The inner
`none` says that there is no such record, the outer one that a read has failed. -/
def findEndOfCentralDirectoryOffset (zipBuffer : Bytes) : Option (Option ℕ) :=
  let minimumOffset := zipBuffer.length - minimumEndRecordLength - maxCommentLength
  searchEndRecord zipBuffer minimumOffset
    (zipBuffer.length + 1 - minimumEndRecordLength - minimumOffset)

/-! ## Entries -/

/-- No entries, in a plain object. -/
def ArchiveEntries.empty : ArchiveEntries := ⟨.empty, none⟩

/-- The members that an object inherits from a `Uint8Array` and that cannot be assigned to:
accessors without a setter, and a constant. -/
def readOnlyNames : List Text :=
  ["buffer", "byteLength", "byteOffset", "length", "BYTES_PER_ELEMENT"].map String.toList

/-- Whether a `Uint8Array` in the prototype chain keeps an assignment from having an effect: the
name is the text of a number, but of no index of the array. -/
def ignores (view : Bytes) (fileName : Text) : Bool :=
  NumericText.isCanonical fileName &&
    !(fileName != "-0".toList && (NumericText.number fileName).any fun index : ℚ ↦
      index.den = 1 && 0 ≤ index && index < view.length)

/-- Assign to a member of the object. Assigning to `__proto__` sets the prototype. -/
def assign (archiveEntries : ArchiveEntries) (fileName : Text) (content : Bytes) :
    Except ReadError ArchiveEntries :=
  let assigned := { archiveEntries with own := archiveEntries.own.set fileName content }
  if fileName = "__proto__".toList then .ok { archiveEntries with prototype := some content }
  else if (archiveEntries.own.get fileName).isSome then .ok assigned
  else
    match archiveEntries.prototype with
    | none => .ok assigned
    | some view =>
        if readOnlyNames.contains fileName then .error (.typeError fileName)
        else if ignores view fileName then .ok archiveEntries
        else .ok assigned

/-- The content of an entry from its compressed data, if the method is known and inflating does not
throw. -/
def entryContent (inflateRawSync : Bytes → Option Bytes) (compressionMethod : ℕ)
    (compressedData : Bytes) : Option Bytes :=
  if compressionMethod = compressionStored then some compressedData
  else if compressionMethod = compressionDeflate then inflateRawSync compressedData
  else none

/-- What a local header says about the place of the compressed data: nothing if the header or the
data do not fit into the buffer, or if the signature is a different one. -/
def locateCompressedData (zipBuffer : Bytes) (localHeaderOffset compressedSize : ℕ) :
    Option (Option (ℕ × ℕ)) := do
  if localHeaderOffset + 30 > zipBuffer.length then return none
  if (← readUInt32LE zipBuffer localHeaderOffset) ≠ localFileHeaderSignature then return none
  let localFileNameLength ← readUInt16LE zipBuffer (localHeaderOffset + 26)
  let localExtraFieldLength ← readUInt16LE zipBuffer (localHeaderOffset + 28)
  let compressedDataStart := localHeaderOffset + 30 + localFileNameLength + localExtraFieldLength
  let compressedDataEnd := compressedDataStart + compressedSize
  if compressedDataEnd > zipBuffer.length then return none
  return some (compressedDataStart, compressedDataEnd)

/-- What an iteration of the loop over the central directory reads: nothing if it breaks, otherwise
the next cursor, and the name and the content of the entry if it is not passed over. -/
def readEntry (inflateRawSync : Bytes → Option Bytes) (zipBuffer : Bytes) (cursor : ℕ) :
    Option (Option (ℕ × Option (Text × Bytes))) := do
  if cursor + 46 > zipBuffer.length then return none
  if (← readUInt32LE zipBuffer cursor) ≠ centralDirectoryFileHeaderSignature then return none
  let compressionMethod ← readUInt16LE zipBuffer (cursor + 10)
  let compressedSize ← readUInt32LE zipBuffer (cursor + 20)
  let fileNameLength ← readUInt16LE zipBuffer (cursor + 28)
  let extraFieldLength ← readUInt16LE zipBuffer (cursor + 30)
  let fileCommentLength ← readUInt16LE zipBuffer (cursor + 32)
  let localHeaderOffset ← readUInt32LE zipBuffer (cursor + 42)
  let fileNameStart := cursor + 46
  let fileNameEnd := fileNameStart + fileNameLength
  if fileNameEnd > zipBuffer.length then return none
  let fileName := toUtf8String (slice zipBuffer fileNameStart fileNameEnd)
  let nextCursor := cursor + (46 + fileNameLength + extraFieldLength + fileCommentLength)
  match ← locateCompressedData zipBuffer localHeaderOffset compressedSize with
  | none => return some (nextCursor, none)
  | some (compressedDataStart, compressedDataEnd) =>
      let compressedData := slice zipBuffer compressedDataStart compressedDataEnd
      let content := entryContent inflateRawSync compressionMethod compressedData
      return some (nextCursor, content.map fun content ↦ (fileName, content))

/-- Assign the entry of an iteration, if it has one. -/
def assignEntry (archiveEntries : ArchiveEntries) :
    Option (Text × Bytes) → Except ReadError ArchiveEntries
  | none => .ok archiveEntries
  | some (fileName, content) => assign archiveEntries fileName content

/-- A read, with its error. -/
def orRangeError {α : Type} (read : Option α) : Except ReadError α :=
  match read with
  | some value => .ok value
  | none => .error .rangeError

/-- The loop over the central directory. -/
def readEntries (inflateRawSync : Bytes → Option Bytes) (zipBuffer : Bytes) :
    ℕ → ℕ → ArchiveEntries → Except ReadError ArchiveEntries
  | 0, _, archiveEntries => return archiveEntries
  | remaining + 1, cursor, archiveEntries => do
      match ← orRangeError (readEntry inflateRawSync zipBuffer cursor) with
      | none => return archiveEntries
      | some (nextCursor, entry) =>
          let nextEntries ← assignEntry archiveEntries entry
          readEntries inflateRawSync zipBuffer remaining nextCursor nextEntries

/-- `readZipArchiveEntries` on the bytes of the file. -/
def readZipArchiveEntries (inflateRawSync : Bytes → Option Bytes) (zipBuffer : Bytes) :
    Except ReadError ArchiveEntries := do
  match ← orRangeError (findEndOfCentralDirectoryOffset zipBuffer) with
  | none => return .empty
  | some endOfCentralDirectoryOffset =>
      let centralDirectoryEntries ←
        orRangeError (readUInt16LE zipBuffer (endOfCentralDirectoryOffset + 10))
      let centralDirectoryOffset ←
        orRangeError (readUInt32LE zipBuffer (endOfCentralDirectoryOffset + 16))
      readEntries inflateRawSync zipBuffer centralDirectoryEntries centralDirectoryOffset .empty

/-! ## The search for the end record -/

/-- A read inside the buffer succeeds. -/
theorem read_at_isSome (buffer : Bytes) (offset width : ℕ)
    (h : offset + width ≤ buffer.length) : ∃ value, readAt buffer offset width = some value :=
  ⟨_, if_pos h⟩

/-- The checks read inside the buffer at every offset that the search visits. -/
theorem passes_end_record_checks_isSome {zipBuffer : Bytes} {offset : ℕ}
    (h : offset + minimumEndRecordLength ≤ zipBuffer.length) :
    ∃ passes, passesEndRecordChecks zipBuffer offset = some passes := by
  unfold minimumEndRecordLength at h
  obtain ⟨signature, hsignature⟩ := read_at_isSome zipBuffer offset 4 (by omega)
  obtain ⟨commentLength, hcomment⟩ := read_at_isSome zipBuffer (offset + 20) 2 (by omega)
  obtain ⟨size, hsize⟩ := read_at_isSome zipBuffer (offset + 12) 4 (by omega)
  obtain ⟨start, hstart⟩ := read_at_isSome zipBuffer (offset + 16) 4 (by omega)
  unfold passesEndRecordChecks readUInt32LE readUInt16LE
  by_cases hsame : signature = endOfCentralDirectorySignature
  · simp [hsignature, hcomment, hsize, hstart, hsame]
  · simp [hsignature, hsame]

/-- The search finds an offset that passes the checks if none of the later ones does. -/
theorem search_end_record_eq {zipBuffer : Bytes} {minimumOffset count found : ℕ}
    (hpasses : passesEndRecordChecks zipBuffer (minimumOffset + found) = some true)
    (hlater : ∀ offset, minimumOffset + found < offset → offset < minimumOffset + count →
      passesEndRecordChecks zipBuffer offset = some false)
    (hfound : found < count) :
    searchEndRecord zipBuffer minimumOffset count = some (some (minimumOffset + found)) := by
  induction count with
  | zero => exact absurd hfound (Nat.not_lt_zero _)
  | succ count ih =>
      rcases Nat.lt_or_ge found count with hlt | hge
      · have hlast := hlater (minimumOffset + count) (by omega) (by omega)
        have hrest := ih (fun offset hafter hbefore ↦ hlater offset hafter (by omega)) hlt
        simp [searchEndRecord, hlast, hrest]
      · obtain rfl : found = count := by omega
        simp [searchEndRecord, hpasses]

/-! ## The loop over the central directory -/

section Loop

variable {inflateRawSync : Bytes → Option Bytes} {zipBuffer : Bytes} {cursor remaining : ℕ}
  {archiveEntries : ArchiveEntries}

/-- An iteration that breaks ends the loop. -/
theorem read_entries_of_break
    (hread : readEntry inflateRawSync zipBuffer cursor = some none) :
    readEntries inflateRawSync zipBuffer (remaining + 1) cursor archiveEntries =
      .ok archiveEntries := by
  rw [readEntries, hread]
  rfl

/-- An iteration that does not break assigns its entry and goes on with the next one. -/
theorem read_entries_succ {nextCursor : ℕ} {entry : Option (Text × Bytes)}
    (hread : readEntry inflateRawSync zipBuffer cursor = some (some (nextCursor, entry))) :
    readEntries inflateRawSync zipBuffer (remaining + 1) cursor archiveEntries =
      (assignEntry archiveEntries entry).bind
        (readEntries inflateRawSync zipBuffer remaining nextCursor) := by
  rw [readEntries, hread]
  rfl

/-- After the end record the loop goes through the central directory. -/
theorem read_zip_archive_entries_of_found {offset count start : ℕ}
    (hfound : findEndOfCentralDirectoryOffset zipBuffer = some (some offset))
    (hcount : readUInt16LE zipBuffer (offset + 10) = some count)
    (hstart : readUInt32LE zipBuffer (offset + 16) = some start) :
    readZipArchiveEntries inflateRawSync zipBuffer =
      readEntries inflateRawSync zipBuffer count start .empty := by
  rw [readZipArchiveEntries, hfound]
  show (do
    let centralDirectoryEntries ← orRangeError (readUInt16LE zipBuffer (offset + 10))
    let centralDirectoryOffset ← orRangeError (readUInt32LE zipBuffer (offset + 16))
    readEntries inflateRawSync zipBuffer centralDirectoryEntries centralDirectoryOffset .empty) = _
  rw [hcount, hstart]
  rfl

end Loop

end CoreUtils.Reporter.Zip
