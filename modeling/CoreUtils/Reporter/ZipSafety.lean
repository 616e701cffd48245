import CoreUtils.Reporter.ZipFormat

/-!
# Reading any buffer as an archive

Every read of `zipArchive.ts` is inside the buffer, whatever its bytes are: each function has a
result (`exists_readEntry`, `exists_loop`), where a read beyond the end would have none. What an
entry of the result was read from is described by `ReadFrom`.
-/

namespace CoreUtils.Reporter.Zip

open ByteLayout

variable {inflateRawSync : Bytes → Option Bytes} {zipBuffer : Bytes}

/-- Where a file was read: at a header of the central directory, which holds its name and leads to
compressed data inside the buffer. -/
structure ReadFrom (inflateRawSync : Bytes → Option Bytes) (zipBuffer : Bytes) (fileName : Text)
    (content : Bytes) (cursor start stop : ℕ) : Prop where
  named : ∃ fileNameLength, readUInt16LE zipBuffer (cursor + 28) = some fileNameLength ∧
    cursor + 46 + fileNameLength ≤ zipBuffer.length ∧
    fileName = toUtf8String (slice zipBuffer (cursor + 46) (cursor + 46 + fileNameLength))
  located : ∃ localHeaderOffset compressedSize,
    readUInt32LE zipBuffer (cursor + 20) = some compressedSize ∧
      readUInt32LE zipBuffer (cursor + 42) = some localHeaderOffset ∧
      locateCompressedData zipBuffer localHeaderOffset compressedSize = some (some (start, stop)) ∧
      stop = start + compressedSize
  decoded : ∃ compressionMethod, readUInt16LE zipBuffer (cursor + 10) = some compressionMethod ∧
    entryContent inflateRawSync compressionMethod (slice zipBuffer start stop) = some content
  inside : stop ≤ zipBuffer.length

/-- Entries that were all read from the buffer. -/
def AllReadFrom (inflateRawSync : Bytes → Option Bytes) (zipBuffer : Bytes)
    (archiveEntries : Entries) : Prop :=
  ∀ fileName content, archiveEntries.get fileName = some content →
    ∃ cursor start stop, ReadFrom inflateRawSync zipBuffer fileName content cursor start stop

/-- A run of the loop over the central directory from an index and a cursor, with the number of its
iterations and what comes of it. -/
inductive Loop (inflateRawSync : Bytes → Option Bytes) (zipBuffer : Bytes)
    (centralDirectoryEntries : ℕ) :
    ℕ → ℕ → ArchiveEntries → ℕ → Except ReadError ArchiveEntries → Prop where
  | finish {index cursor : ℕ} {archiveEntries : ArchiveEntries}
      (hindex : ¬index < centralDirectoryEntries) :
      Loop inflateRawSync zipBuffer centralDirectoryEntries index cursor archiveEntries 0
        (.ok archiveEntries)
  | stop {index cursor : ℕ} {archiveEntries : ArchiveEntries}
      (hindex : index < centralDirectoryEntries)
      (hread : readEntry inflateRawSync zipBuffer cursor = some none) :
      Loop inflateRawSync zipBuffer centralDirectoryEntries index cursor archiveEntries 1
        (.ok archiveEntries)
  | throw {index cursor nextCursor : ℕ} {archiveEntries : ArchiveEntries}
      {entry : Option (Text × Bytes)} {error : ReadError} (hindex : index < centralDirectoryEntries)
      (hread : readEntry inflateRawSync zipBuffer cursor = some (some (nextCursor, entry)))
      (hassign : assignEntry archiveEntries entry = .error error) :
      Loop inflateRawSync zipBuffer centralDirectoryEntries index cursor archiveEntries 1
        (.error error)
  | next {index cursor nextCursor iterations : ℕ} {archiveEntries nextEntries : ArchiveEntries}
      {entry : Option (Text × Bytes)} {outcome : Except ReadError ArchiveEntries}
      (hindex : index < centralDirectoryEntries)
      (hread : readEntry inflateRawSync zipBuffer cursor = some (some (nextCursor, entry)))
      (hassign : assignEntry archiveEntries entry = .ok nextEntries)
      (hrest : Loop inflateRawSync zipBuffer centralDirectoryEntries (index + 1) nextCursor
        nextEntries iterations outcome) :
      Loop inflateRawSync zipBuffer centralDirectoryEntries index cursor archiveEntries
        (iterations + 1) outcome

/-! ## Names that clash -/

/-- The entries with a content that the central directory lists from a cursor on, in order. -/
def listedFrom (inflateRawSync : Bytes → Option Bytes) (zipBuffer : Bytes) :
    ℕ → ℕ → List (Text × Bytes)
  | 0, _ => []
  | remaining + 1, cursor =>
      match readEntry inflateRawSync zipBuffer cursor with
      | some (some (nextCursor, entry)) =>
          entry.toList ++ listedFrom inflateRawSync zipBuffer remaining nextCursor
      | _ => []

/-- The entries with a content that the archive lists, in order. -/
def listedEntries (inflateRawSync : Bytes → Option Bytes) (zipBuffer : Bytes) :
    List (Text × Bytes) :=
  (do
    let some endOfCentralDirectoryOffset ← findEndOfCentralDirectoryOffset zipBuffer | return []
    let centralDirectoryEntries ← readUInt16LE zipBuffer (endOfCentralDirectoryOffset + 10)
    let centralDirectoryOffset ← readUInt32LE zipBuffer (endOfCentralDirectoryOffset + 16)
    return listedFrom inflateRawSync zipBuffer centralDirectoryEntries centralDirectoryOffset :
      Option (List (Text × Bytes))).getD []

/-- An archive without an end record lists nothing. -/
theorem listed_entries_of_none (hfound : findEndOfCentralDirectoryOffset zipBuffer = some none) :
    listedEntries inflateRawSync zipBuffer = [] := by
  rw [listedEntries, hfound]
  rfl

/-- An archive lists what its central directory does. -/
theorem listed_entries_of_found {offset count start : ℕ}
    (hfound : findEndOfCentralDirectoryOffset zipBuffer = some (some offset))
    (hcount : readUInt16LE zipBuffer (offset + 10) = some count)
    (hstart : readUInt32LE zipBuffer (offset + 16) = some start) :
    listedEntries inflateRawSync zipBuffer =
      listedFrom inflateRawSync zipBuffer count start := by
  have hlisted : listedEntries inflateRawSync zipBuffer =
      (do
        let centralDirectoryEntries ← readUInt16LE zipBuffer (offset + 10)
        let centralDirectoryOffset ← readUInt32LE zipBuffer (offset + 16)
        return listedFrom inflateRawSync zipBuffer centralDirectoryEntries
          centralDirectoryOffset : Option (List (Text × Bytes))).getD [] := by
    rw [listedEntries, hfound]
    rfl
  rw [hlisted, hcount, hstart]
  rfl

/-- After the names before, a name that cannot be assigned to comes for the first time when the
prototype is a `Uint8Array`. -/
def ClashesAt (before : List Text) (fileName : Text) : Prop :=
  fileName ∈ readOnlyNames ∧ fileName ∉ before ∧ "__proto__".toList ∈ before

/-- One of the names clashes with those before it. -/
def ClashesFrom (before fileNames : List Text) : Prop :=
  ∃ passed fileName rest, fileNames = passed ++ fileName :: rest ∧
    ClashesAt (before ++ passed) fileName

/-- Nothing clashes where there are no names. -/
theorem not_clashesFrom_nil (before : List Text) : ¬ClashesFrom before [] := by
  rintro ⟨passed, fileName, rest, hsplit, -⟩
  exact absurd hsplit.symm (List.append_ne_nil_of_right_ne_nil _ (List.cons_ne_nil _ _))

/-- The first name clashes, or a later one does. -/
theorem clashesFrom_cons {before : List Text} {fileName : Text} {rest : List Text} :
    ClashesFrom before (fileName :: rest) ↔
      ClashesAt before fileName ∨ ClashesFrom (before ++ [fileName]) rest := by
  constructor
  · rintro ⟨passed, clashing, after, hsplit, hclash⟩
    cases passed with
    | nil =>
        obtain ⟨rfl, rfl⟩ := List.cons.inj hsplit
        rw [List.append_nil] at hclash
        exact .inl hclash
    | cons first passed =>
        obtain ⟨rfl, rfl⟩ := List.cons.inj hsplit
        rw [← List.singleton_append, ← List.append_assoc] at hclash
        exact .inr ⟨passed, clashing, after, rfl, hclash⟩
  · rintro (hclash | ⟨passed, clashing, after, rfl, hclash⟩)
    · exact ⟨[], fileName, rest, rfl, by rwa [List.append_nil]⟩
    · refine ⟨fileName :: passed, clashing, after, rfl, ?_⟩
      rwa [← List.singleton_append, ← List.append_assoc]

/-- What the object has after names have been assigned: another prototype if one of them is
`__proto__`, and members of its own under those that a `Uint8Array` has. -/
structure Assigned (archiveEntries : ArchiveEntries) (before : List Text) : Prop where
  prototype : archiveEntries.prototype.isSome = true ↔ "__proto__".toList ∈ before
  own : ∀ fileName ∈ readOnlyNames,
    (archiveEntries.own.get fileName).isSome = true ↔ fileName ∈ before

/-- Nothing has been assigned. -/
theorem assigned_empty : Assigned .empty [] :=
  ⟨by simp [ArchiveEntries.empty], fun fileName _ ↦ by simp [ArchiveEntries.empty]⟩

/-- Setting a member of its own. -/
theorem Assigned.set {archiveEntries : ArchiveEntries} {before : List Text} {fileName : Text}
    (h : Assigned archiveEntries before) (hname : fileName ≠ "__proto__".toList)
    (content : Bytes) :
    Assigned { archiveEntries with own := archiveEntries.own.set fileName content }
      (before ++ [fileName]) where
  prototype := by
    rw [h.prototype, List.mem_append, List.mem_singleton]
    exact ⟨.inl, fun hmem ↦ hmem.resolve_right hname.symm⟩
  own other hother := by
    have hmem := h.own other hother
    rw [OrderedMap.get_set, List.mem_append, List.mem_singleton]
    by_cases hsame : other = fileName
    · simp [hsame]
    · rw [if_neg hsame, hmem]
      exact ⟨.inl, fun hmem ↦ hmem.resolve_right hsame⟩

/-- Replacing the prototype. -/
theorem Assigned.proto {archiveEntries : ArchiveEntries} {before : List Text}
    (h : Assigned archiveEntries before) (content : Bytes) :
    Assigned { archiveEntries with prototype := some content }
      (before ++ ["__proto__".toList]) where
  prototype := by simp
  own other hother := by
    have hne : other ≠ "__proto__".toList := by
      rintro rfl
      exact absurd hother (by decide)
    rw [h.own other hother, List.mem_append, List.mem_singleton]
    exact ⟨.inl, fun hmem ↦ hmem.resolve_right hne⟩

/-- Passing over a name that is none of those. -/
theorem Assigned.skip {archiveEntries : ArchiveEntries} {before : List Text} {fileName : Text}
    (h : Assigned archiveEntries before) (hname : fileName ≠ "__proto__".toList)
    (hwritable : fileName ∉ readOnlyNames) : Assigned archiveEntries (before ++ [fileName]) where
  prototype := by
    rw [h.prototype, List.mem_append, List.mem_singleton]
    exact ⟨.inl, fun hmem ↦ hmem.resolve_right hname.symm⟩
  own other hother := by
    have hne : other ≠ fileName := fun hsame ↦ hwritable (hsame ▸ hother)
    rw [h.own other hother, List.mem_append, List.mem_singleton]
    exact ⟨.inl, fun hmem ↦ hmem.resolve_right hne⟩

/-- What an assignment after others leads to: an error if its name clashes with theirs, and
otherwise it changes no member but its own. -/
inductive AssignOutcome (archiveEntries : ArchiveEntries) (before : List Text) (fileName : Text)
    (content : Bytes) : Except ReadError ArchiveEntries → Prop where
  | clash (hclash : ClashesAt before fileName) :
      AssignOutcome archiveEntries before fileName content (.error (.typeError fileName))
  | ok {nextEntries : ArchiveEntries} (hclash : ¬ClashesAt before fileName)
      (hassigned : Assigned nextEntries (before ++ [fileName]))
      (hown : nextEntries.own = archiveEntries.own ∨
        nextEntries.own = archiveEntries.own.set fileName content) :
      AssignOutcome archiveEntries before fileName content (.ok nextEntries)

/-- An assignment after others. -/
theorem Assigned.assign {archiveEntries : ArchiveEntries} {before : List Text}
    (h : Assigned archiveEntries before) (fileName : Text) (content : Bytes) :
    AssignOutcome archiveEntries before fileName content
      (Zip.assign archiveEntries fileName content) := by
  unfold Zip.assign
  by_cases hname : fileName = "__proto__".toList
  · rw [if_pos hname]
    refine .ok (fun hclash ↦ absurd hclash.1 (by rw [hname]; decide)) ?_ (.inl rfl)
    rw [hname]
    exact h.proto content
  · rw [if_neg hname]
    by_cases hown : (archiveEntries.own.get fileName).isSome = true
    · rw [if_pos hown]
      exact .ok (fun hclash ↦ hclash.2.1 ((h.own _ hclash.1).mp hown)) (h.set hname content)
        (.inr rfl)
    · rw [if_neg hown]
      cases hprototype : archiveEntries.prototype with
      | none =>
          have hplain : "__proto__".toList ∉ before := fun hmem ↦ by
            have hsome := h.prototype.mpr hmem
            rw [hprototype] at hsome
            exact absurd hsome Bool.false_ne_true
          exact .ok (fun hclash ↦ hplain hclash.2.2) (hprototype ▸ h.set hname content) (.inr rfl)
      | some view =>
          have hproto : "__proto__".toList ∈ before := h.prototype.mp (by rw [hprototype]; rfl)
          by_cases hreadOnly : fileName ∈ readOnlyNames
          · simp only [if_pos (List.contains_iff_mem.mpr hreadOnly)]
            exact .clash ⟨hreadOnly, fun hmem ↦ hown ((h.own _ hreadOnly).mpr hmem), hproto⟩
          · simp only [if_neg (mt List.contains_iff_mem.mp hreadOnly)]
            have hclash : ¬ClashesAt before fileName := fun hclash ↦ hreadOnly hclash.1
            split
            · exact .ok hclash (h.skip hname hreadOnly) (.inl rfl)
            · exact .ok hclash (hprototype ▸ h.set hname content) (.inr rfl)

/-! ## The search for the end record -/

/-- The search reads inside the buffer, and finds an offset with room for the end record. -/
theorem exists_searchEndRecord {minimumOffset count : ℕ}
    (hcount : 0 < count → minimumOffset + count + minimumEndRecordLength ≤ zipBuffer.length + 1) :
    ∃ found, searchEndRecord zipBuffer minimumOffset count = some found ∧
      ∀ offset, found = some offset → offset + minimumEndRecordLength ≤ zipBuffer.length := by
  induction count with
  | zero => exact ⟨none, rfl, fun offset h ↦ absurd h (by simp)⟩
  | succ count ih =>
      have hlast := hcount (Nat.succ_pos count)
      have hroom : minimumOffset + count + minimumEndRecordLength ≤ zipBuffer.length := by omega
      obtain ⟨passes, hpasses⟩ := passes_end_record_checks_isSome hroom
      cases passes with
      | true =>
          refine ⟨some (minimumOffset + count), by simp [searchEndRecord, hpasses], ?_⟩
          intro offset hoffset
          obtain rfl := Option.some.inj hoffset
          omega
      | false =>
          obtain ⟨found, hfound, hfits⟩ := ih (fun _ ↦ by omega)
          exact ⟨found, by simp [searchEndRecord, hpasses, hfound], hfits⟩

/-- The end record is searched inside the buffer, and found with room for all its fields. -/
theorem exists_findEndOfCentralDirectoryOffset (zipBuffer : Bytes) :
    ∃ found, findEndOfCentralDirectoryOffset zipBuffer = some found ∧
      ∀ offset, found = some offset → offset + minimumEndRecordLength ≤ zipBuffer.length := by
  refine exists_searchEndRecord fun hcount ↦ ?_
  unfold minimumEndRecordLength at hcount ⊢
  omega

/-! ## Entries -/

/-- The compressed data are located inside the buffer. -/
theorem exists_locateCompressedData (zipBuffer : Bytes) (localHeaderOffset compressedSize : ℕ) :
    ∃ place, locateCompressedData zipBuffer localHeaderOffset compressedSize = some place ∧
      ∀ start stop, place = some (start, stop) →
        stop = start + compressedSize ∧ stop ≤ zipBuffer.length := by
  by_cases hheader : localHeaderOffset + 30 > zipBuffer.length
  · exact ⟨none, by simp [locateCompressedData, hheader], fun start stop h ↦ absurd h (by simp)⟩
  · obtain ⟨signature, hsignature⟩ := read_at_isSome zipBuffer localHeaderOffset 4 (by omega)
    obtain ⟨nameLength, hname⟩ := read_at_isSome zipBuffer (localHeaderOffset + 26) 2 (by omega)
    obtain ⟨extraLength, hextra⟩ := read_at_isSome zipBuffer (localHeaderOffset + 28) 2 (by omega)
    unfold locateCompressedData readUInt32LE readUInt16LE
    rw [if_neg hheader, hsignature, hname, hextra]
    by_cases hsame : signature = localFileHeaderSignature
    · by_cases hdata : localHeaderOffset + 30 + nameLength + extraLength + compressedSize >
          zipBuffer.length
      · exact ⟨none, by simp [hsame, hdata], fun start stop h ↦ absurd h (by simp)⟩
      · refine ⟨some (localHeaderOffset + 30 + nameLength + extraLength,
          localHeaderOffset + 30 + nameLength + extraLength + compressedSize),
          by simp [hsame, hdata], ?_⟩
        intro start stop hplace
        obtain ⟨rfl, rfl⟩ := Prod.mk.inj (Option.some.inj hplace)
        omega
    · exact ⟨none, by simp [hsame], fun start stop h ↦ absurd h (by simp)⟩

/-- Assigning what was read from the buffer. -/
theorem AllReadFrom.set {archiveEntries : Entries} {fileName : Text} {content : Bytes}
    {cursor start stop : ℕ} (h : AllReadFrom inflateRawSync zipBuffer archiveEntries)
    (hread : ReadFrom inflateRawSync zipBuffer fileName content cursor start stop) :
    AllReadFrom inflateRawSync zipBuffer (archiveEntries.set fileName content) := by
  intro other otherContent hget
  rw [OrderedMap.get_set] at hget
  split at hget
  · rename_i hsame
    obtain rfl := Option.some.inj hget
    rw [hsame]
    exact ⟨cursor, start, stop, hread⟩
  · exact h other otherContent hget

/-- An iteration reads inside the buffer, and its entry was read from there. -/
theorem exists_readEntry (inflateRawSync : Bytes → Option Bytes) (zipBuffer : Bytes)
    (cursor : ℕ) :
    ∃ outcome, readEntry inflateRawSync zipBuffer cursor = some outcome ∧
      ∀ nextCursor fileName content, outcome = some (nextCursor, some (fileName, content)) →
        ∃ start stop, ReadFrom inflateRawSync zipBuffer fileName content cursor start stop := by
  by_cases hheader : cursor + 46 > zipBuffer.length
  · exact ⟨none, by simp [readEntry, hheader], fun _ _ _ h ↦ absurd h (by simp)⟩
  · obtain ⟨signature, hsignature⟩ := read_at_isSome zipBuffer cursor 4 (by omega)
    obtain ⟨method, hmethod⟩ := read_at_isSome zipBuffer (cursor + 10) 2 (by omega)
    obtain ⟨size, hsize⟩ := read_at_isSome zipBuffer (cursor + 20) 4 (by omega)
    obtain ⟨nameLength, hname⟩ := read_at_isSome zipBuffer (cursor + 28) 2 (by omega)
    obtain ⟨extraLength, hextra⟩ := read_at_isSome zipBuffer (cursor + 30) 2 (by omega)
    obtain ⟨commentLength, hcomment⟩ := read_at_isSome zipBuffer (cursor + 32) 2 (by omega)
    obtain ⟨localOffset, hlocal⟩ := read_at_isSome zipBuffer (cursor + 42) 4 (by omega)
    obtain ⟨place, hplace, hinside⟩ := exists_locateCompressedData zipBuffer localOffset size
    unfold readEntry readUInt32LE readUInt16LE
    rw [if_neg hheader, hsignature, hmethod, hsize, hname, hextra, hcomment, hlocal]
    by_cases hsame : signature = centralDirectoryFileHeaderSignature
    · by_cases hfits : cursor + 46 + nameLength > zipBuffer.length
      · exact ⟨none, by simp [hsame, hfits], fun _ _ _ h ↦ absurd h (by simp)⟩
      · cases place with
        | none =>
            exact ⟨some (cursor + (46 + nameLength + extraLength + commentLength), none),
              by simp [hsame, hfits, hplace], fun _ _ _ h ↦ absurd h (by simp)⟩
        | some place =>
            obtain ⟨start, stop⟩ := place
            obtain ⟨hstop, hlength⟩ := hinside start stop rfl
            refine ⟨some (cursor + (46 + nameLength + extraLength + commentLength),
              (entryContent inflateRawSync method (slice zipBuffer start stop)).map fun content ↦
                (toUtf8String (slice zipBuffer (cursor + 46) (cursor + 46 + nameLength)), content)),
              by simp [hsame, hfits, hplace], ?_⟩
            intro nextCursor fileName content hnext
            obtain ⟨-, hentry⟩ := Prod.mk.inj (Option.some.inj hnext)
            obtain ⟨decoded, hcontent, hpair⟩ := Option.map_eq_some_iff.mp hentry
            obtain ⟨rfl, rfl⟩ := Prod.mk.inj hpair
            exact ⟨start, stop,
              { named := ⟨nameLength, hname, Nat.le_of_not_lt hfits, rfl⟩
                located := ⟨localOffset, size, hsize, hlocal, hplace, hstop⟩
                decoded := ⟨method, hmethod, hcontent⟩
                inside := hlength }⟩
    · exact ⟨none, by simp [hsame], fun _ _ _ h ↦ absurd h (by simp)⟩

/-! ## The loop -/

/-- What comes of the entries from a cursor on, after names that have been assigned: the error of a
name that clashes, or entries that were read from the buffer. -/
inductive ReadOutcome (inflateRawSync : Bytes → Option Bytes) (zipBuffer : Bytes)
    (before fileNames : List Text) : Except ReadError ArchiveEntries → Prop where
  | clash {fileName : Text} (hclash : ClashesFrom before fileNames)
      (hreadOnly : fileName ∈ readOnlyNames) :
      ReadOutcome inflateRawSync zipBuffer before fileNames (.error (.typeError fileName))
  | ok {archiveEntries : ArchiveEntries} (hclash : ¬ClashesFrom before fileNames)
      (hread : AllReadFrom inflateRawSync zipBuffer archiveEntries.own) :
      ReadOutcome inflateRawSync zipBuffer before fileNames (.ok archiveEntries)

/-- A first name that does not clash changes nothing. -/
theorem ReadOutcome.cons {before fileNames : List Text} {fileName : Text}
    {outcome : Except ReadError ArchiveEntries} (hclash : ¬ClashesAt before fileName)
    (h : ReadOutcome inflateRawSync zipBuffer (before ++ [fileName]) fileNames outcome) :
    ReadOutcome inflateRawSync zipBuffer before (fileName :: fileNames) outcome := by
  cases h with
  | clash hlater hreadOnly => exact .clash (clashesFrom_cons.mpr (.inr hlater)) hreadOnly
  | ok hlater hread =>
      exact .ok (fun hfrom ↦ (clashesFrom_cons.mp hfrom).elim hclash hlater) hread

/-- The loop ends after at most the iterations that are left, with entries read from the buffer or
at a name that clashes. -/
theorem exists_loop (index cursor remaining : ℕ) {archiveEntries : ArchiveEntries}
    {before : List Text} (hentries : AllReadFrom inflateRawSync zipBuffer archiveEntries.own)
    (hassigned : Assigned archiveEntries before) :
    ReadOutcome inflateRawSync zipBuffer before
        ((listedFrom inflateRawSync zipBuffer remaining cursor).map Prod.fst)
        (readEntries inflateRawSync zipBuffer remaining cursor archiveEntries) ∧
      ∃ iterations, iterations ≤ remaining ∧
        Loop inflateRawSync zipBuffer (index + remaining) index cursor archiveEntries iterations
          (readEntries inflateRawSync zipBuffer remaining cursor archiveEntries) := by
  induction remaining generalizing index cursor archiveEntries before with
  | zero =>
      exact ⟨.ok (not_clashesFrom_nil before) hentries, 0, le_rfl, .finish (by omega)⟩
  | succ remaining ih =>
      have hindex : index < index + (remaining + 1) := by omega
      have hbound : index + 1 + remaining = index + (remaining + 1) := by omega
      obtain ⟨outcome, hread, hfrom⟩ := exists_readEntry inflateRawSync zipBuffer cursor
      rw [listedFrom, hread]
      cases outcome with
      | none =>
          rw [read_entries_of_break hread]
          exact ⟨.ok (not_clashesFrom_nil before) hentries, 1, by omega, .stop hindex hread⟩
      | some next =>
          obtain ⟨nextCursor, entry⟩ := next
          rw [read_entries_succ hread]
          cases entry with
          | none =>
              obtain ⟨houtcome, iterations, hle, hloop⟩ := ih (index + 1) nextCursor hentries
                hassigned
              rw [hbound] at hloop
              exact ⟨houtcome, iterations + 1, by omega, .next hindex hread rfl hloop⟩
          | some entry =>
              obtain ⟨fileName, content⟩ := entry
              obtain ⟨start, stop, hplace⟩ := hfrom nextCursor fileName content rfl
              have hassign := hassigned.assign fileName content
              simp only [assignEntry, Option.toList_some, List.singleton_append, List.map_cons]
              generalize hresult : Zip.assign archiveEntries fileName content = result at hassign
              cases hassign with
              | clash hclash =>
                  exact ⟨.clash (clashesFrom_cons.mpr (.inl hclash)) hclash.1, 1, by omega,
                    .throw hindex hread hresult⟩
              | @ok nextEntries hclash hassigned hown =>
                  have hall : AllReadFrom inflateRawSync zipBuffer nextEntries.own := by
                    rcases hown with hsame | hset
                    · rw [hsame]
                      exact hentries
                    · rw [hset]
                      exact hentries.set hplace
                  obtain ⟨houtcome, iterations, hle, hloop⟩ := ih (index + 1) nextCursor hall
                    hassigned
                  rw [hbound] at hloop
                  exact ⟨houtcome.cons hclash, iterations + 1, by omega,
                    .next hindex hread hresult hloop⟩

/-! ## Any buffer -/

/-- A buffer is read without an error: all reads are inside of it, the loop over the central
directory ends after at most as many iterations as the end record declares, and every entry of the
result comes from compressed data inside the buffer. -/
def ReadsSafely (inflateRawSync : Bytes → Option Bytes) (zipBuffer : Bytes) : Prop :=
  ∃ found archiveEntries,
    findEndOfCentralDirectoryOffset zipBuffer = some found ∧
      readZipArchiveEntries inflateRawSync zipBuffer = .ok archiveEntries ∧
      (found = none → archiveEntries = .empty) ∧
      (∀ endOfCentralDirectoryOffset, found = some endOfCentralDirectoryOffset →
        ∃ centralDirectoryEntries centralDirectoryOffset iterations,
          readUInt16LE zipBuffer (endOfCentralDirectoryOffset + 10) =
              some centralDirectoryEntries ∧
            readUInt32LE zipBuffer (endOfCentralDirectoryOffset + 16) =
              some centralDirectoryOffset ∧
            Loop inflateRawSync zipBuffer centralDirectoryEntries 0 centralDirectoryOffset .empty
              iterations (.ok archiveEntries) ∧
            iterations ≤ centralDirectoryEntries) ∧
      ∀ fileName content, archiveEntries.own.get fileName = some content →
        ∃ cursor start stop,
          ReadFrom inflateRawSync zipBuffer fileName content cursor start stop

/-- A buffer is read without an error exactly when no name in the archive clashes with those before
it: `length` and its like, for the first time after `__proto__`. Whatever the buffer is, no read is
outside of it, the loop ends after at most as many iterations as the end record declares, and all
that it can throw is the `TypeError` of such a name. -/
theorem read_zip_archive_entries_safe (inflateRawSync : Bytes → Option Bytes)
    (zipBuffer : Bytes) :
    (ReadsSafely inflateRawSync zipBuffer ↔
        ¬ClashesFrom [] ((listedEntries inflateRawSync zipBuffer).map Prod.fst)) ∧
      (∀ error, readZipArchiveEntries inflateRawSync zipBuffer = .error error →
        ∃ fileName ∈ readOnlyNames, error = .typeError fileName) ∧
      ∃ found, findEndOfCentralDirectoryOffset zipBuffer = some found ∧
        ∀ endOfCentralDirectoryOffset, found = some endOfCentralDirectoryOffset →
          ∃ centralDirectoryEntries centralDirectoryOffset iterations,
            readUInt16LE zipBuffer (endOfCentralDirectoryOffset + 10) =
                some centralDirectoryEntries ∧
              readUInt32LE zipBuffer (endOfCentralDirectoryOffset + 16) =
                some centralDirectoryOffset ∧
              Loop inflateRawSync zipBuffer centralDirectoryEntries 0 centralDirectoryOffset .empty
                iterations (readZipArchiveEntries inflateRawSync zipBuffer) ∧
              iterations ≤ centralDirectoryEntries := by
  have hempty : AllReadFrom inflateRawSync zipBuffer ArchiveEntries.empty.own :=
    fun fileName content h ↦ absurd h (by simp [ArchiveEntries.empty])
  obtain ⟨found, hfound, hroom⟩ := exists_findEndOfCentralDirectoryOffset zipBuffer
  cases found with
  | none =>
      have hread : readZipArchiveEntries inflateRawSync zipBuffer = .ok .empty := by
        rw [readZipArchiveEntries, hfound]
        rfl
      rw [hread, listed_entries_of_none hfound]
      refine ⟨⟨fun _ ↦ not_clashesFrom_nil [], fun _ ↦ ?_⟩, fun error h ↦ (by cases h), none,
        hfound, fun offset h ↦ (by cases h)⟩
      exact ⟨none, .empty, hfound, hread, fun _ ↦ rfl, fun offset h ↦ (by cases h), hempty⟩
  | some offset =>
      have hoffset := hroom offset rfl
      unfold minimumEndRecordLength at hoffset
      obtain ⟨count, hcount⟩ : ∃ count, readUInt16LE zipBuffer (offset + 10) = some count :=
        read_at_isSome zipBuffer (offset + 10) 2 (by omega)
      obtain ⟨start, hstart⟩ : ∃ start, readUInt32LE zipBuffer (offset + 16) = some start :=
        read_at_isSome zipBuffer (offset + 16) 4 (by omega)
      obtain ⟨houtcome, iterations, hle, hloop⟩ := exists_loop 0 start count hempty assigned_empty
      rw [Nat.zero_add, ← read_zip_archive_entries_of_found hfound hcount hstart] at hloop
      rw [← read_zip_archive_entries_of_found hfound hcount hstart,
        ← listed_entries_of_found hfound hcount hstart] at houtcome
      refine ⟨⟨?_, fun hclash ↦ ?_⟩, fun error herror ↦ ?_, some offset, hfound,
        fun other hother ↦ ?_⟩
      · rintro ⟨found, archiveEntries, -, hresult, -⟩
        rw [hresult] at houtcome
        cases houtcome with
        | ok hclash hread => exact hclash
      · cases hresult : readZipArchiveEntries inflateRawSync zipBuffer with
        | error error =>
            rw [hresult] at houtcome
            cases houtcome with
            | clash hclashes hreadOnly => exact absurd hclashes hclash
        | ok archiveEntries =>
            rw [hresult] at houtcome hloop
            cases houtcome with
            | ok hclash' hread =>
                refine ⟨some offset, archiveEntries, hfound, hresult, fun h ↦ (by cases h),
                  fun other hother ↦ ?_, hread⟩
                obtain rfl := Option.some.inj hother
                exact ⟨count, start, iterations, hcount, hstart, hloop, hle⟩
      · rw [herror] at houtcome
        cases houtcome with
        | clash hclash hreadOnly => exact ⟨_, hreadOnly, rfl⟩
      · obtain rfl := Option.some.inj hother
        exact ⟨count, start, iterations, hcount, hstart, hloop, hle⟩

/-! ## An archive whose names clash -/

/-- The header of a stored entry without content, whose local header is the first in the archive. -/
def emptyEntryHeader (name : String) : Bytes :=
  littleEndian 4 centralDirectoryFileHeaderSignature ++ List.replicate 24 0 ++
    littleEndian 2 name.length ++ List.replicate 16 0 ++ utf8Bytes name.toList

/-- The entries `__proto__` and `length`, which share a local header. -/
def protoThenLength : Bytes :=
  littleEndian 4 localFileHeaderSignature ++ List.replicate 26 0 ++
    (emptyEntryHeader "__proto__" ++ emptyEntryHeader "length") ++
    (littleEndian 4 endOfCentralDirectorySignature ++ List.replicate 6 0 ++ littleEndian 2 2 ++
      littleEndian 4 107 ++ littleEndian 4 30 ++ littleEndian 2 0)

/-- The second assignment throws: the object has inherited the accessor `length` by then. -/
theorem read_zip_archive_entries_safe_proto :
    readZipArchiveEntries some protoThenLength = .error (.typeError "length".toList) ∧
      ¬ReadsSafely some protoThenLength := by
  have hread : readZipArchiveEntries some protoThenLength =
      .error (.typeError "length".toList) := by
    have herror : (match readZipArchiveEntries some protoThenLength with
        | .error error => decide (error = .typeError "length".toList)
        | .ok _ => false) = true := by decide +kernel
    generalize readZipArchiveEntries some protoThenLength = outcome at herror ⊢
    cases outcome with
    | error error => exact congrArg _ (of_decide_eq_true herror)
    | ok archiveEntries => exact absurd herror Bool.false_ne_true
  refine ⟨hread, ?_⟩
  rintro ⟨found, archiveEntries, -, hresult, -⟩
  rw [hread] at hresult
  cases hresult

end CoreUtils.Reporter.Zip
