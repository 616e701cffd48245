import CoreUtils.Reporter.ZipFormat

/-!
# Recovery of archives

The reader finds the end record of an archive, walks through its central directory, and reads the
data of each entry behind its local header: reading the bytes of an archive gives its entries
(`read_zip_archive_entries_encode`).
-/

namespace CoreUtils.Reporter.Zip

open ByteLayout

/-! ## Names and contents -/

/-- Names are read back. -/
theorem to_utf8_string_utf8Bytes (text : Text) : toUtf8String (utf8Bytes text) = text := by
  have hbyte : ∀ byte ∈ Utf8.encode text, (UInt8.ofNat byte).toNat = byte := by
    intro byte hbyte
    rw [UInt8.toNat_ofNat']
    exact Nat.mod_eq_of_lt (Utf8.encode_lt hbyte)
  have hbytes : (utf8Bytes text).map UInt8.toNat = Utf8.encode text := by
    rw [utf8Bytes, List.map_map]
    exact (List.map_congr_left hbyte).trans (List.map_id _)
  rw [toUtf8String, hbytes, Utf8.decode_encode]

variable {deflate : Bytes → Bytes} {inflateRawSync : Bytes → Option Bytes}

/-- The content of an entry is made of its compressed data. -/
theorem entry_content_compressed_data {entry : ZipEntry}
    (h : inflateRawSync (deflate entry.content) = some entry.content) :
    entryContent inflateRawSync entry.compression.method (entry.compressedData deflate) =
      some entry.content := by
  unfold entryContent ZipEntry.compressedData
  cases entry.compression with
  | stored => rfl
  | deflated => simpa [Compression.method, compressionDeflate, compressionStored] using h

/-! ## Entries -/

/-- The lengths in the local header lead to the compressed data. -/
theorem locate_compressed_data_eq {buffer : Bytes} {offset : ℕ} {entry : ZipEntry}
    (h : At buffer offset (localRecord deflate entry).flatten) :
    ∃ start, locateCompressedData buffer offset (entry.compressedData deflate).length =
        some (some (start, start + (entry.compressedData deflate).length)) ∧
      At buffer start (entry.compressedData deflate) := by
  have hsignature : readUInt32LE buffer offset = some localFileHeaderSignature :=
    readAt_eq (by simpa [localRecord] using h.field 0 rfl) (by decide)
  have hname : readUInt16LE buffer (offset + 26) = some entry.localName.val.length :=
    readAt_eq (by simpa [localRecord] using h.field 9 rfl) entry.localName.property
  have hextra : readUInt16LE buffer (offset + 28) = some entry.localExtraField.val.length :=
    readAt_eq (by simpa [localRecord] using h.field 10 rfl) entry.localExtraField.property
  have hdata : At buffer
      (offset + 30 + entry.localName.val.length + entry.localExtraField.val.length)
      (entry.compressedData deflate) := by
    have hfield := h.field 13 rfl
    simp only [localRecord, List.take_succ_cons, List.take_zero, List.map_cons, List.map_nil,
      List.sum_cons, List.sum_nil, length_littleEndian] at hfield
    -- the data stand after thirty fixed bytes and two fields of variable length
    convert hfield using 1
    omega
  have hle := hdata.le
  refine ⟨_, ?_, hdata⟩
  have hheader : ¬ offset + 30 > buffer.length := by omega
  have hend : ¬ offset + 30 + entry.localName.val.length + entry.localExtraField.val.length +
      (entry.compressedData deflate).length > buffer.length := by omega
  simp [locateCompressedData, hheader, hsignature, hname, hextra, hend]

/-- The length of a header in the central directory. -/
theorem length_central_header (deflate : Bytes → Bytes) (entry : ZipEntry) (offset : ℕ) :
    (centralHeader deflate entry offset).flatten.length =
      46 + (utf8Bytes entry.name).length + entry.centralExtraField.val.length +
        entry.fileComment.val.length := by
  simp only [centralHeader, List.length_flatten, List.map_cons, List.map_nil, List.sum_cons,
    List.sum_nil, length_littleEndian]
  omega

/-- An entry is assigned to a plain object. -/
theorem assign_entry (archiveEntries : Entries) (entry : ZipEntry) :
    assign ⟨archiveEntries, none⟩ entry.name entry.content =
      .ok ⟨archiveEntries.set entry.name entry.content, none⟩ := by
  unfold assign
  rw [if_neg entry.name_ne]
  exact ite_self _

/-- An iteration at the header of an entry reads the entry and moves to the next header. -/
theorem read_entry_eq {buffer : Bytes} {cursor offset : ℕ} {entry : ZipEntry}
    (hinflate : inflateRawSync (deflate entry.content) = some entry.content)
    (hheader : At buffer cursor (centralHeader deflate entry offset).flatten)
    (hrecord : At buffer offset (localRecord deflate entry).flatten)
    (hoffset : offset < 2 ^ 32) (hsize : (entry.compressedData deflate).length < 2 ^ 32) :
    readEntry inflateRawSync buffer cursor =
      some (some (cursor + (centralHeader deflate entry offset).flatten.length,
        some (entry.name, entry.content))) := by
  have hsignature : readUInt32LE buffer cursor = some centralDirectoryFileHeaderSignature :=
    readAt_eq (by simpa [centralHeader] using hheader.field 0 rfl) (by decide)
  have hmethod : readUInt16LE buffer (cursor + 10) = some entry.compression.method :=
    readAt_eq (by simpa [centralHeader] using hheader.field 4 rfl)
      (by cases entry.compression <;> decide)
  have hcompressed : readUInt32LE buffer (cursor + 20) =
      some (entry.compressedData deflate).length :=
    readAt_eq (by simpa [centralHeader] using hheader.field 8 rfl) (hsize.trans_eq (by norm_num))
  have hname : readUInt16LE buffer (cursor + 28) = some (utf8Bytes entry.name).length :=
    readAt_eq (by simpa [centralHeader] using hheader.field 10 rfl) entry.name_lt
  have hextra : readUInt16LE buffer (cursor + 30) = some entry.centralExtraField.val.length :=
    readAt_eq (by simpa [centralHeader] using hheader.field 11 rfl)
      entry.centralExtraField.property
  have hcomment : readUInt16LE buffer (cursor + 32) = some entry.fileComment.val.length :=
    readAt_eq (by simpa [centralHeader] using hheader.field 12 rfl) entry.fileComment.property
  have hlocal : readUInt32LE buffer (cursor + 42) = some offset :=
    readAt_eq (by simpa [centralHeader] using hheader.field 16 rfl) (hoffset.trans_eq (by norm_num))
  have hnameField : At buffer (cursor + 46) (utf8Bytes entry.name) := by
    simpa [centralHeader] using hheader.field 17 rfl
  have hfileName := slice_eq hnameField rfl
  have hlength := length_central_header deflate entry offset
  obtain ⟨start, hlocate, hdata⟩ := locate_compressed_data_eq hrecord
  have hslice := slice_eq hdata rfl
  have hcontent := entry_content_compressed_data hinflate
  have hle := hnameField.le
  have hfits : ¬ cursor + 46 > buffer.length := by omega
  have hnameFits : ¬ cursor + 46 + (utf8Bytes entry.name).length > buffer.length := by omega
  have hnext : cursor + (46 + (utf8Bytes entry.name).length +
      entry.centralExtraField.val.length + entry.fileComment.val.length) =
        cursor + (centralHeader deflate entry offset).flatten.length := by rw [hlength]
  unfold readEntry
  rw [if_neg hfits]
  simp only [hsignature, hmethod, hcompressed, hname, hextra, hcomment, hlocal, hlocate, hcontent,
    hslice, hfileName, to_utf8_string_utf8Bytes, hnext, if_neg hnameFits, Option.map_some,
    Option.bind_eq_bind, Option.bind_some, ne_eq, not_true_eq_false, if_false, Option.pure_def]

/-! ## The central directory -/

/-- The entries of an archive added to those that have been read. -/
def recovered (entries : List ZipEntry) (archiveEntries : Entries) : Entries :=
  entries.foldl (fun read entry ↦ read.set entry.name entry.content) archiveEntries

/-- Adding entries with new names appends them. -/
theorem entries_recovered {entries : List ZipEntry} {archiveEntries : Entries}
    (hnodup : (entries.map ZipEntry.name).Nodup)
    (hnew : ∀ entry ∈ entries, archiveEntries.get entry.name = none) :
    (recovered entries archiveEntries).entries =
      archiveEntries.entries ++ entries.map fun entry ↦ (entry.name, entry.content) := by
  induction entries generalizing archiveEntries with
  | nil => simp [recovered]
  | cons entry entries ih =>
      rw [List.map_cons, List.nodup_cons] at hnodup
      have hentry := hnew entry List.mem_cons_self
      have hothers : ∀ other ∈ entries,
          (archiveEntries.set entry.name entry.content).get other.name = none := by
        intro other hother
        have hne : entry.name ≠ other.name := fun hsame ↦
          hnodup.1 (hsame ▸ List.mem_map_of_mem hother)
        rw [OrderedMap.get_set, if_neg hne.symm]
        exact hnew other (List.mem_cons_of_mem _ hother)
      have hrest := ih hnodup.2 hothers
      rw [OrderedMap.entries_set_of_get_none hentry, List.append_assoc] at hrest
      exact hrest

/-- The data of an entry is part of its local record. -/
theorem length_compressed_data_le (deflate : Bytes → Bytes) (entry : ZipEntry) :
    (entry.compressedData deflate).length ≤ (localRecord deflate entry).flatten.length := by
  simp only [localRecord, List.length_flatten, List.map_cons, List.map_nil, List.sum_cons,
    List.sum_nil]
  omega

/-- The loop at a part of the central directory reads the entries of that part. -/
theorem read_entries_eq {buffer : Bytes} {cursor offset : ℕ} {entries : List ZipEntry}
    (hinflate : ∀ entry ∈ entries, inflateRawSync (deflate entry.content) = some entry.content)
    (hdirectory : At buffer cursor (centralDirectory deflate offset entries))
    (hrecords : At buffer offset (localRecords deflate entries))
    (hsize : offset + (localRecords deflate entries).length < 2 ^ 32)
    (archiveEntries : Entries) :
    readEntries inflateRawSync buffer entries.length cursor ⟨archiveEntries, none⟩ =
      .ok ⟨recovered entries archiveEntries, none⟩ := by
  induction entries generalizing cursor offset archiveEntries with
  | nil => rfl
  | cons entry entries ih =>
      have hsplit : localRecords deflate (entry :: entries) =
          (localRecord deflate entry).flatten ++ localRecords deflate entries := rfl
      have hdata := length_compressed_data_le deflate entry
      rw [hsplit] at hrecords
      rw [hsplit, List.length_append] at hsize
      have hentry := read_entry_eq (hinflate entry List.mem_cons_self) hdirectory.left
        hrecords.left (by omega) (by omega)
      have hrest := ih (fun other hother ↦ hinflate other (List.mem_cons_of_mem _ hother))
        hdirectory.right hrecords.right (by omega)
        (archiveEntries.set entry.name entry.content)
      rw [List.length_cons, read_entries_succ hentry, assignEntry, assign_entry]
      exact hrest

/-! ## The end record -/

section Archive

variable (archive : ZipArchive deflate)

/-- The local records of an archive stand at its start. -/
theorem at_local_records : At archive.encode 0 (localRecords deflate archive.entries) :=
  At.intro [] _ _

/-- The central directory of an archive follows its local records. -/
theorem at_central_directory :
    At archive.encode archive.directoryOffset (centralDirectory deflate 0 archive.entries) :=
  At.intro _ _ _

/-- The end record of an archive follows its central directory. -/
theorem at_end_record : At archive.encode archive.endRecordOffset
    (endRecord archive.entries.length (centralDirectory deflate 0 archive.entries).length
      archive.directoryOffset archive.comment.val).flatten := by
  refine ⟨localRecords deflate archive.entries ++ centralDirectory deflate 0 archive.entries, [],
    ?_, ?_⟩
  · rw [ZipArchive.encode, List.append_nil, List.append_assoc]
  · rw [List.length_append]
    rfl

/-- An archive ends with its end record and its comment. -/
theorem length_encode : archive.encode.length =
    archive.endRecordOffset + minimumEndRecordLength + archive.comment.val.length := by
  simp only [ZipArchive.encode, ZipArchive.endRecordOffset, ZipArchive.directoryOffset,
    minimumEndRecordLength, endRecord, List.length_append, List.length_flatten, List.map_cons,
    List.map_nil, List.sum_cons, List.sum_nil, length_littleEndian]
  omega

/-- The end record of an archive passes the checks. -/
theorem passes_end_record_checks_encode :
    passesEndRecordChecks archive.encode archive.endRecordOffset = some true := by
  have hrecord := at_end_record archive
  have hsignature : readUInt32LE archive.encode archive.endRecordOffset =
      some endOfCentralDirectorySignature :=
    readAt_eq (by simpa [endRecord] using hrecord.field 0 rfl) (by decide)
  have hcomment : readUInt16LE archive.encode (archive.endRecordOffset + 20) =
      some archive.comment.val.length :=
    readAt_eq (by simpa [endRecord] using hrecord.field 7 rfl) archive.comment.property
  have hsize : readUInt32LE archive.encode (archive.endRecordOffset + 12) =
      some (centralDirectory deflate 0 archive.entries).length :=
    readAt_eq (by simpa [endRecord] using hrecord.field 5 rfl)
      (archive.size_lt.trans_eq (by norm_num))
  have hoffset : readUInt32LE archive.encode (archive.endRecordOffset + 16) =
      some archive.directoryOffset :=
    readAt_eq (by simpa [endRecord] using hrecord.field 6 rfl)
      (archive.offset_lt.trans_eq (by norm_num))
  have hlength := length_encode archive
  have hend : archive.directoryOffset + (centralDirectory deflate 0 archive.entries).length =
      archive.endRecordOffset := rfl
  simp [passesEndRecordChecks, hsignature, hcomment, hsize, hoffset, hlength, hend]

/-- The end record of an archive is found, provided that nothing after it passes the checks. -/
theorem find_end_of_central_directory_offset_encode
    (hlater : ∀ offset, archive.endRecordOffset < offset →
      offset + minimumEndRecordLength ≤ archive.encode.length →
      passesEndRecordChecks archive.encode offset ≠ some true) :
    findEndOfCentralDirectoryOffset archive.encode = some (some archive.endRecordOffset) := by
  have hlength := length_encode archive
  have hcomment := archive.comment.property
  have hlater' : ∀ offset, archive.endRecordOffset < offset →
      offset + minimumEndRecordLength ≤ archive.encode.length →
      passesEndRecordChecks archive.encode offset = some false := by
    intro offset hafter hbefore
    obtain ⟨passes, hpasses⟩ := passes_end_record_checks_isSome hbefore
    have hne := hlater offset hafter hbefore
    rw [hpasses] at hne ⊢
    simpa using hne
  obtain ⟨found, hfound⟩ : ∃ found, archive.endRecordOffset =
      archive.encode.length - minimumEndRecordLength - maxCommentLength + found := by
    refine ⟨archive.endRecordOffset -
      (archive.encode.length - minimumEndRecordLength - maxCommentLength), ?_⟩
    unfold maxCommentLength
    omega
  have hpasses := passes_end_record_checks_encode archive
  rw [hfound] at hlater' hpasses ⊢
  unfold findEndOfCentralDirectoryOffset
  refine search_end_record_eq hpasses (fun offset hafter hbefore ↦ hlater' offset hafter ?_) ?_
  · omega
  · omega

/-! ## The archive -/

/-- Reading the bytes of an archive gives the contents of its entries under their names, in a plain
object, provided that inflating inverts the compression and that nothing after the end record passes
for one. -/
theorem read_zip_archive_entries_encode
    (hinflate : ∀ entry ∈ archive.entries,
      inflateRawSync (deflate entry.content) = some entry.content)
    (hlater : ∀ offset, archive.endRecordOffset < offset →
      offset + minimumEndRecordLength ≤ archive.encode.length →
      passesEndRecordChecks archive.encode offset ≠ some true) :
    (readZipArchiveEntries inflateRawSync archive.encode).map
        (fun archiveEntries ↦ (archiveEntries.own.entries, archiveEntries.prototype)) =
      .ok (archive.entries.map fun entry ↦ (entry.name, entry.content), none) := by
  have hfound := find_end_of_central_directory_offset_encode archive hlater
  have hrecord := at_end_record archive
  have hcount : readUInt16LE archive.encode (archive.endRecordOffset + 10) =
      some archive.entries.length :=
    readAt_eq (by simpa [endRecord] using hrecord.field 4 rfl) archive.count_lt
  have hoffset : readUInt32LE archive.encode (archive.endRecordOffset + 16) =
      some archive.directoryOffset :=
    readAt_eq (by simpa [endRecord] using hrecord.field 6 rfl)
      (archive.offset_lt.trans_eq (by norm_num))
  have hentries := read_entries_eq hinflate (at_central_directory archive)
    (at_local_records archive) (by simpa using archive.offset_lt) OrderedMap.empty
  have hrecovered : (recovered archive.entries OrderedMap.empty).entries = _ :=
    entries_recovered archive.names_nodup fun _ _ ↦ rfl
  rw [read_zip_archive_entries_of_found hfound hcount hoffset, ArchiveEntries.empty, hentries,
    Except.map, hrecovered]
  rfl

end Archive

/-! ## A small archive -/

/-- Deflate as a single block that is not compressed. -/
def storedBlock (content : Bytes) : Bytes :=
  1 :: (littleEndian 2 content.length ++ littleEndian 2 (65535 - content.length) ++ content)

/-- Inflate a single block that is not compressed. -/
def inflateStoredBlock : Bytes → Option Bytes
  | 1 :: length₀ :: length₁ :: complement₀ :: complement₁ :: content =>
      if numberOf [length₀, length₁] = content.length ∧
          numberOf [complement₀, complement₁] = 65535 - content.length then some content
      else none
  | _ => none

/-- Header fields of a file from the first day of the format. -/
def firstDayFields : HeaderFields where
  versionNeeded := 20
  generalPurposeFlag := 8
  lastModifiedTime := 0
  lastModifiedDate := 33
  crc32 := 0

/-- An entry whose local header has no name, an extra field, and a descriptor behind the data. -/
def sampleEntry (name : Text) (content : Bytes) (compression : Compression)
    (name_lt : (utf8Bytes name).length < 65536) (name_ne : name ≠ "__proto__".toList) :
    ZipEntry where
  name := name
  content := content
  compression := compression
  versionMadeBy := 20
  centralFields := firstDayFields
  centralExtraField := ⟨[1, 2, 3], by decide⟩
  fileComment := ⟨[80, 75], by decide⟩
  internalAttributes := 0
  externalAttributes := 0
  localFields := firstDayFields
  localMethod := 0
  localCompressedSize := 0
  localUncompressedSize := 0
  localName := ⟨[], by decide⟩
  localExtraField := ⟨[9], by decide⟩
  dataDescriptor := [80, 75, 7, 8]
  name_lt := name_lt
  name_ne := name_ne

/-- A stored entry and a deflated one, with a comment that begins like an end record. -/
def sampleArchive : ZipArchive storedBlock where
  entries :=
    [sampleEntry "a".toList [] .stored (by decide) (by decide),
      sampleEntry "é".toList [1, 2, 3] .deflated (by decide) (by decide)]
  comment := ⟨[80, 75, 5, 6], by decide⟩
  names_nodup := by decide
  count_lt := by decide
  offset_lt := by decide
  size_lt := by decide

/-- The small archive is recovered. -/
theorem read_zip_archive_entries_encode_sample :
    (readZipArchiveEntries inflateStoredBlock sampleArchive.encode).map
        (fun archiveEntries ↦ (archiveEntries.own.entries, archiveEntries.prototype)) =
      .ok ([("a".toList, []), ("é".toList, [1, 2, 3])], none) := by
  refine read_zip_archive_entries_encode sampleArchive (by decide) fun offset hafter hbefore ↦ ?_
  have hstart : sampleArchive.endRecordOffset = 183 := by decide
  have hlength : sampleArchive.encode.length = 209 := by
    rw [length_encode, hstart]
    rfl
  rw [hstart] at hafter
  rw [hlength, minimumEndRecordLength] at hbefore
  have hlast : offset ≤ 187 := by omega
  interval_cases offset <;> decide +kernel

end CoreUtils.Reporter.Zip
