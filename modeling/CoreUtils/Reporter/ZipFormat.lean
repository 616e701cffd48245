import Mathlib.Tactic.NormNum
import CoreUtils.Reporter.ZipArchive

/-!
# The ZIP format

Archives as the format describes them: a local record for each entry, a central directory and an end
record, with the fields that the reader does not look at left open. Reading the bytes of an archive
gives its entries (`read_zip_archive_entries_encode`).
-/

namespace CoreUtils.Reporter.Zip

open ByteLayout

/-! ## Archives -/

/-- Bytes whose number fits into a field of 16 bits. -/
abbrev Bytes16 := { bytes : Bytes // bytes.length < 65536 }

/-- How the content of an entry is held. -/
inductive Compression where
  | stored
  | deflated
  deriving DecidableEq, Repr

/-- The compression method in the headers. -/
def Compression.method : Compression → ℕ
  | .stored => compressionStored
  | .deflated => compressionDeflate

/-- The bytes of a text. -/
def utf8Bytes (text : Text) : Bytes := (Utf8.encode text).map UInt8.ofNat

/-- The fields that a header has besides those that the reader uses. -/
structure HeaderFields where
  versionNeeded : UInt16
  generalPurposeFlag : UInt16
  lastModifiedTime : UInt16
  lastModifiedDate : UInt16
  crc32 : UInt32

/-- An entry of an archive. The local header has a name, an extra field and sizes of its own, and
bytes such as a data descriptor may follow the data. -/
structure ZipEntry where
  name : Text
  content : Bytes
  compression : Compression
  versionMadeBy : UInt16
  centralFields : HeaderFields
  centralExtraField : Bytes16
  fileComment : Bytes16
  internalAttributes : UInt16
  externalAttributes : UInt32
  localFields : HeaderFields
  localMethod : UInt16
  localCompressedSize : UInt32
  localUncompressedSize : UInt32
  localName : Bytes16
  localExtraField : Bytes16
  dataDescriptor : Bytes
  name_lt : (utf8Bytes name).length < 65536
  name_ne : name ≠ "__proto__".toList

section Encoding

variable (deflate : Bytes → Bytes)

/-- The data of an entry in the archive. -/
def ZipEntry.compressedData (entry : ZipEntry) : Bytes :=
  match entry.compression with
  | .stored => entry.content
  | .deflated => deflate entry.content

/-- The local header of an entry, its data and what follows them, field by field. -/
def localRecord (entry : ZipEntry) : List Bytes :=
  [littleEndian 4 localFileHeaderSignature,
    littleEndian 2 entry.localFields.versionNeeded.toNat,
    littleEndian 2 entry.localFields.generalPurposeFlag.toNat,
    littleEndian 2 entry.localMethod.toNat,
    littleEndian 2 entry.localFields.lastModifiedTime.toNat,
    littleEndian 2 entry.localFields.lastModifiedDate.toNat,
    littleEndian 4 entry.localFields.crc32.toNat,
    littleEndian 4 entry.localCompressedSize.toNat,
    littleEndian 4 entry.localUncompressedSize.toNat,
    littleEndian 2 entry.localName.val.length,
    littleEndian 2 entry.localExtraField.val.length,
    entry.localName.val,
    entry.localExtraField.val,
    entry.compressedData deflate,
    entry.dataDescriptor]

/-- The header of an entry in the central directory, field by field. -/
def centralHeader (entry : ZipEntry) (localHeaderOffset : ℕ) : List Bytes :=
  [littleEndian 4 centralDirectoryFileHeaderSignature,
    littleEndian 2 entry.versionMadeBy.toNat,
    littleEndian 2 entry.centralFields.versionNeeded.toNat,
    littleEndian 2 entry.centralFields.generalPurposeFlag.toNat,
    littleEndian 2 entry.compression.method,
    littleEndian 2 entry.centralFields.lastModifiedTime.toNat,
    littleEndian 2 entry.centralFields.lastModifiedDate.toNat,
    littleEndian 4 entry.centralFields.crc32.toNat,
    littleEndian 4 (entry.compressedData deflate).length,
    littleEndian 4 entry.content.length,
    littleEndian 2 (utf8Bytes entry.name).length,
    littleEndian 2 entry.centralExtraField.val.length,
    littleEndian 2 entry.fileComment.val.length,
    littleEndian 2 0,
    littleEndian 2 entry.internalAttributes.toNat,
    littleEndian 4 entry.externalAttributes.toNat,
    littleEndian 4 localHeaderOffset,
    utf8Bytes entry.name,
    entry.centralExtraField.val,
    entry.fileComment.val]

/-- The end record, field by field. -/
def endRecord (count size offset : ℕ) (comment : Bytes) : List Bytes :=
  [littleEndian 4 endOfCentralDirectorySignature,
    littleEndian 2 0,
    littleEndian 2 0,
    littleEndian 2 count,
    littleEndian 2 count,
    littleEndian 4 size,
    littleEndian 4 offset,
    littleEndian 2 comment.length,
    comment]

/-- The local records one after another. -/
def localRecords (entries : List ZipEntry) : Bytes :=
  entries.flatMap fun entry ↦ (localRecord deflate entry).flatten

/-- The central directory of entries whose local records start at an offset. -/
def centralDirectory : ℕ → List ZipEntry → Bytes
  | _, [] => []
  | offset, entry :: entries =>
      (centralHeader deflate entry offset).flatten ++
        centralDirectory (offset + (localRecord deflate entry).flatten.length) entries

/-- An archive: entries with distinct names, and few and small enough for the fields of the
format. -/
structure ZipArchive where
  entries : List ZipEntry
  comment : Bytes16
  names_nodup : (entries.map ZipEntry.name).Nodup
  count_lt : entries.length < 65536
  offset_lt : (localRecords deflate entries).length < 2 ^ 32
  size_lt : (centralDirectory deflate 0 entries).length < 2 ^ 32

variable {deflate}

/-- Where the central directory of an archive starts. -/
def ZipArchive.directoryOffset (archive : ZipArchive deflate) : ℕ :=
  (localRecords deflate archive.entries).length

/-- Where the end record of an archive starts. -/
def ZipArchive.endRecordOffset (archive : ZipArchive deflate) : ℕ :=
  archive.directoryOffset + (centralDirectory deflate 0 archive.entries).length

/-- The bytes of an archive. -/
def ZipArchive.encode (archive : ZipArchive deflate) : Bytes :=
  localRecords deflate archive.entries ++ (centralDirectory deflate 0 archive.entries ++
    (endRecord archive.entries.length (centralDirectory deflate 0 archive.entries).length
      archive.directoryOffset archive.comment.val).flatten)

end Encoding

end CoreUtils.Reporter.Zip
