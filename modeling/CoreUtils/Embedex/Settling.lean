import CoreUtils.Embedex.Embed
import CoreUtils.Embedex.Rescan

/-!
# A destination that has been written

When every tag of a destination is replaced in place by a block that is closed at its end, the tags
of the written text are these blocks, each with the prefix and the path of its tag
(`segments_written`). Rendered once more from the same sources they are themselves, so that
processing the written text changes nothing (`processDestination_written`). What makes the
destination a source is still there if no tag begins on its marker line (`readSource_written`).
-/

namespace CoreUtils.Embedex

variable {resolve : Text → ResolvedPath} {sourceMap sourceMap' : SourceMap}
  {updatedContentMap updatedContentMap' : UpdatedContentMap}

/-! ## The tags of a written text -/

/-- The tag that the block for a tag is. -/
def settledTag (resolve : Text → ResolvedPath) (sourceMap : SourceMap)
    (updatedContentMap : UpdatedContentMap) (parts : TagParts) : TagParts :=
  blockTag ((sourceContent resolve sourceMap updatedContentMap parts.source).getD []) parts.source
    parts.blockPrefix

/-- The block for a tag with a known source is the text of a tag. -/
theorem renderTag_eq_settledTag {parts : TagParts}
    (h : (renderTag resolve sourceMap updatedContentMap parts).isSome) :
    renderTag resolve sourceMap updatedContentMap parts =
      some (settledTag resolve sourceMap updatedContentMap parts).fullMatch := by
  rw [renderTag, Option.isSome_map] at h
  obtain ⟨content, hcontent⟩ := Option.isSome_iff_exists.mp h
  rw [renderTag, settledTag, hcontent, fullMatch_blockTag]
  rfl

/-- The tags of rescanned segments. -/
theorem tags_rescan (retag : TagParts → TagParts) (segs : List Segment) :
    (rescan retag segs).filterMap Segment.tag? = (segs.filterMap Segment.tag?).map retag := by
  induction segs with
  | nil => rfl
  | cons seg rest ih =>
      cases seg with
      | tag parts => exact congrArg (retag parts :: ·) ih
      | char c =>
          rw [rescan]
          split <;> exact ih

section

variable {content final : Text}
  (hfinal : final = (segments content).flatMap
    (replacedText (blockOf resolve sourceMap updatedContentMap)))
  (hrendered : ∀ parts ∈ tagsOf content,
    (renderTag resolve sourceMap updatedContentMap parts).isSome)

include hfinal hrendered

/-- The written text with the blocks as texts of tags. -/
theorem written_eq : final = (segments content).flatMap (replacedText fun parts ↦
    (settledTag resolve sourceMap updatedContentMap parts).fullMatch) := by
  rw [hfinal]
  refine List.flatMap_congr fun seg hseg ↦ ?_
  cases seg with
  | char c => rfl
  | tag parts =>
      have hsome := hrendered parts (mem_tagsOf.mpr hseg)
      simp [replacedText, blockOf, renderTag_eq_settledTag hsome]

/-- The segments of a written text are those of the text with the blocks in the place of the tags,
when the blocks are closed at their ends. -/
theorem segments_written
    (hcloses : ∀ parts ∈ tagsOf content,
      ClosesAtEnd ((sourceContent resolve sourceMap updatedContentMap parts.source).getD [])
        parts.source parts.blockPrefix) :
    segments (normalizeNewlines final) =
      rescan (settledTag resolve sourceMap updatedContentMap) (segments content) := by
  have hmatch : ∀ parts, .tag parts ∈ segments content →
      ∃ rest, matchTag (parts.fullMatch ++ rest) = some parts :=
    fun parts hparts ↦ (scanned_segments content).matchTag_of_mem hparts
  have hline : ∀ parts, .tag parts ∈ segments content →
      (∀ c ∈ parts.blockPrefix, isLineChar c = true) ∧
        ∀ c ∈ parts.source, isLineChar c = true := by
    intro parts hparts
    obtain ⟨rest, hrest⟩ := hmatch parts hparts
    obtain ⟨after, -, hopens, -⟩ := matchTag_spec hrest
    exact ⟨hopens.prefix_line, hopens.source_line⟩
  have hscanned : Scanned true
      (rescan (settledTag resolve sourceMap updatedContentMap) (segments content)) := by
    refine (scanned_segments content).rescan fun parts hparts rest ↦ ?_
    obtain ⟨rest₀, hrest₀⟩ := hmatch parts hparts
    exact matchTag_blockTag hrest₀ (hcloses parts (mem_tagsOf.mpr hparts)) rest
  have htext : textOf (rescan (settledTag resolve sourceMap updatedContentMap)
      (segments content)) = normalizeNewlines final := by
    rw [written_eq hfinal hrendered]
    refine textOf_rescan (fun parts hparts ↦ ?_) fun parts hparts ↦ (hline parts hparts).1
    rw [settledTag, fullMatch_blockTag]
    exact no_crlf_createReplacement (hline parts hparts).1 (hline parts hparts).2
  rw [segments, ← htext]
  exact hscanned.segmentsFrom_eq

/-- The tags of a written text are the blocks. -/
theorem tagsOf_written
    (hcloses : ∀ parts ∈ tagsOf content,
      ClosesAtEnd ((sourceContent resolve sourceMap updatedContentMap parts.source).getD [])
        parts.source parts.blockPrefix) :
    tagsOf (normalizeNewlines final) =
      (tagsOf content).map (settledTag resolve sourceMap updatedContentMap) := by
  rw [tagsOf, segments_written hfinal hrendered hcloses, tags_rescan]
  rfl

end

/-! ## Rendering once more -/

/-- Blocks that are put in place have no `$` pattern. -/
theorem InPlace.plain {render : TagParts → Text} {tags : List TagParts} {segs : List Segment}
    (h : InPlace render tags segs) {parts : TagParts} (hparts : parts ∈ tags) :
    isPlain (render parts) = true := by
  induction tags generalizing segs with
  | nil => simp at hparts
  | cons unique rest ih =>
      rcases List.mem_cons.mp hparts with rfl | hrest
      · exact h.1
      · exact ih h.2.2 hrest

/-- Blocks in the place of themselves change nothing. -/
theorem replaceMatches_self {tags : List TagParts}
    (h : ∀ parts ∈ tags, isPlain parts.fullMatch = true ∧
      renderTag resolve sourceMap updatedContentMap parts = some parts.fullMatch)
    (content : Text) :
    replaceMatches resolve sourceMap updatedContentMap tags content = some content := by
  induction tags with
  | nil => rfl
  | cons parts rest ih =>
      obtain ⟨hplain, hrender⟩ := h parts List.mem_cons_self
      rw [replaceMatches, hrender]
      simp only [replaceAll_of_plain hplain, replaceLiteral_self (fullMatch_ne parts)]
      exact ih fun other hother ↦ h other (List.mem_cons_of_mem _ hother)

/-- The block of a tag is rendered as itself from the same source. -/
theorem renderTag_settledTag {parts : TagParts}
    (hrendered : (renderTag resolve sourceMap updatedContentMap parts).isSome)
    (hsame : sourceContent resolve sourceMap' updatedContentMap' parts.source =
      sourceContent resolve sourceMap updatedContentMap parts.source) :
    renderTag resolve sourceMap' updatedContentMap'
        (settledTag resolve sourceMap updatedContentMap parts) =
      some (settledTag resolve sourceMap updatedContentMap parts).fullMatch := by
  rw [← renderTag_eq_settledTag hrendered, renderTag, renderTag]
  exact congrArg _ hsame

/-! ## Processing once more -/

variable {entry entry' : ResolvedPath × Destination} {result : Embed} {content final : Text}

/-- The same tags are tags of the same sources. -/
theorem Tagged.congr {sources sources' : OrderedSet ResolvedPath} {tags : List TagParts}
    (h : Tagged resolve sources tags)
    (hsources : ∀ source, sources'.has source = sources.has source) :
    Tagged resolve sources' tags where
  valid parts hparts := (hsources _).trans (h.valid parts hparts)
  referenced source hsource := h.referenced source ((hsources source).symm.trans hsource)
  found := h.found

/-- Tags with the prefix and the path of other tags have the same sources. -/
theorem Tagged.map {sources : OrderedSet ResolvedPath} {tags : List TagParts}
    (h : Tagged resolve sources tags) (retag : TagParts → TagParts)
    (hretag : ∀ parts, (retag parts).source = parts.source) :
    Tagged resolve sources (tags.map retag) where
  valid := by
    intro parts hparts
    obtain ⟨original, horiginal, rfl⟩ := List.mem_map.mp hparts
    rw [hretag]
    exact h.valid original horiginal
  referenced := by
    intro source hsource
    obtain ⟨parts, hparts, hpath⟩ := h.referenced source hsource
    exact ⟨retag parts, List.mem_map_of_mem hparts, by rw [hretag, hpath]⟩
  found := by simpa using h.found

/-- The loop depends on what its tags are rendered as. -/
theorem replaceMatches_congr {tags : List TagParts}
    (h : ∀ parts ∈ tags, renderTag resolve sourceMap' updatedContentMap' parts =
      renderTag resolve sourceMap updatedContentMap parts) (content : Text) :
    replaceMatches resolve sourceMap' updatedContentMap' tags content =
      replaceMatches resolve sourceMap updatedContentMap tags content := by
  induction tags generalizing content with
  | nil => rfl
  | cons parts rest ih =>
      rw [replaceMatches, replaceMatches, h parts List.mem_cons_self]
      cases renderTag resolve sourceMap updatedContentMap parts with
      | none => rfl
      | some block => exact ih (fun other hother ↦ h other (List.mem_cons_of_mem _ hother)) _

/-- A tagged destination that the loop keeps as it is does not change. -/
theorem processDestination_noChange
    (h : Tagged resolve entry.2.sources (tagsOf (destinationContent updatedContentMap entry)))
    (hloop : replaceMatches resolve sourceMap updatedContentMap
      (uniqueMatches (tagsOf (destinationContent updatedContentMap entry)))
      (destinationContent updatedContentMap entry) =
        some (destinationContent updatedContentMap entry)) :
    ∃ sources, processDestination resolve sourceMap updatedContentMap entry =
      some (.noChange entry.1 sources) := by
  refine ⟨(uniqueMatches (tagsOf (destinationContent updatedContentMap entry))).map fun parts ↦
    resolve parts.source, ?_⟩
  rw [processDestination_of_tagged h, hloop]
  simp only [Option.map_some, if_true]

/-- A destination whose content and sources are the same, and are rendered in the same way, does not
change if it did not change before. -/
theorem processDestination_unchanged {other : ResolvedPath} {sources : List ResolvedPath}
    (h : processDestination resolve sourceMap updatedContentMap entry =
      some (.noChange other sources))
    (hcontent : destinationContent updatedContentMap' entry' =
      destinationContent updatedContentMap entry)
    (hsources : ∀ source, entry'.2.sources.has source = entry.2.sources.has source)
    (hsame : ∀ sourcePath, entry.2.sources.has (resolve sourcePath) = true →
      sourceContent resolve sourceMap' updatedContentMap' sourcePath =
        sourceContent resolve sourceMap updatedContentMap sourcePath) :
    ∃ sources', processDestination resolve sourceMap' updatedContentMap' entry' =
      some (.noChange entry'.1 sources') := by
  have htagged := tagged_of_processDestination h rfl
  have hloop : replaceMatches resolve sourceMap updatedContentMap
      (uniqueMatches (tagsOf (destinationContent updatedContentMap entry)))
      (destinationContent updatedContentMap entry) =
        some (destinationContent updatedContentMap entry) := processDestination_loop h rfl
  have htagged' : Tagged resolve entry'.2.sources
      (tagsOf (destinationContent updatedContentMap' entry')) := by
    rw [hcontent]
    exact htagged.congr hsources
  have hloop' : replaceMatches resolve sourceMap' updatedContentMap'
      (uniqueMatches (tagsOf (destinationContent updatedContentMap' entry')))
      (destinationContent updatedContentMap' entry') =
        some (destinationContent updatedContentMap' entry') := by
    rw [hcontent, replaceMatches_congr, hloop]
    intro parts hparts
    have hmem := (mem_uniqueMatches _).1 parts hparts
    rw [renderTag, renderTag, hsame parts.source (htagged.valid parts hmem)]
  exact processDestination_noChange htagged' hloop'

/-- A destination that has been updated in place by blocks that are closed at their ends does not
change when it is processed once more with the same sources. -/
theorem processDestination_written
    (h : processDestination resolve sourceMap updatedContentMap entry = some result)
    (hfinal : result.contentAfter (destinationContent updatedContentMap entry) = some final)
    (hplace : InPlace (blockOf resolve sourceMap updatedContentMap)
      (uniqueMatches (tagsOf (destinationContent updatedContentMap entry)))
      (segments (destinationContent updatedContentMap entry)))
    (hcloses : ∀ parts ∈ tagsOf (destinationContent updatedContentMap entry),
      ClosesAtEnd ((sourceContent resolve sourceMap updatedContentMap parts.source).getD [])
        parts.source parts.blockPrefix)
    (hcontent : destinationContent updatedContentMap' entry' = normalizeNewlines final)
    (hsources : ∀ source, entry'.2.sources.has source = entry.2.sources.has source)
    (hsame : ∀ sourcePath, entry.2.sources.has (resolve sourcePath) = true →
      sourceContent resolve sourceMap' updatedContentMap' sourcePath =
        sourceContent resolve sourceMap updatedContentMap sourcePath) :
    ∃ sources', processDestination resolve sourceMap' updatedContentMap' entry' =
      some (.noChange entry'.1 sources') := by
  have htagged := tagged_of_processDestination h (by rw [hfinal]; rfl)
  obtain ⟨hwritten, hrendered⟩ := replaceMatches_content (processDestination_loop h hfinal) hplace
  have htags := tagsOf_written hwritten hrendered hcloses
  have htagged' : Tagged resolve entry'.2.sources
      (tagsOf (destinationContent updatedContentMap' entry')) := by
    rw [hcontent, htags]
    exact (htagged.map (settledTag resolve sourceMap updatedContentMap) fun _ ↦ rfl).congr hsources
  have hloop : replaceMatches resolve sourceMap' updatedContentMap'
      (uniqueMatches (tagsOf (destinationContent updatedContentMap' entry')))
      (destinationContent updatedContentMap' entry') =
        some (destinationContent updatedContentMap' entry') := by
    refine replaceMatches_self (fun block hblock ↦ ?_) _
    have hmem := (mem_uniqueMatches _).1 block hblock
    rw [hcontent, htags] at hmem
    obtain ⟨parts, hparts, rfl⟩ := List.mem_map.mp hmem
    have hsome := hrendered parts hparts
    refine ⟨?_, renderTag_settledTag hsome (hsame _ (htagged.valid parts hparts))⟩
    -- the block is that of the distinct tag with the text of this one
    obtain ⟨unique, hunique, htext⟩ := (mem_uniqueMatches _).2 parts hparts
    have hplain := hplace.plain hunique
    rw [blockOf_eq ((mem_uniqueMatches _).1 unique hunique) hparts htext, blockOf,
      renderTag_eq_settledTag hsome] at hplain
    exact hplain
  exact processDestination_noChange htagged' hloop

/-! ## The marker line -/

/-- No tag begins on the first line. -/
def NoTagOnFirstLine : List Segment → Prop
  | [] => True
  | .char c :: rest => c = '\n' ∨ NoTagOnFirstLine rest
  | .tag _ :: _ => False

/-- Whether a tag begins on the first line can be checked. -/
instance decidableNoTagOnFirstLine : (segs : List Segment) → Decidable (NoTagOnFirstLine segs)
  | [] => isTrue trivial
  | .char c :: rest =>
      have := decidableNoTagOnFirstLine rest
      inferInstanceAs (Decidable (c = '\n' ∨ NoTagOnFirstLine rest))
  | .tag _ :: _ => isFalse id

/-- The first line is kept when no tag begins on it. -/
theorem firstLine_replaced {render : TagParts → Text} {segs : List Segment}
    (h : NoTagOnFirstLine segs) :
    firstLine (segs.flatMap (replacedText render)) = firstLine (textOf segs) := by
  induction segs with
  | nil => rfl
  | cons seg rest ih =>
      cases seg with
      | tag parts => exact h.elim
      | char c =>
          rw [List.flatMap_cons, textOf_cons]
          simp only [replacedText, Segment.text, firstLine, List.singleton_append,
            List.takeWhile_cons]
          split
          · rename_i hc
            exact congrArg (c :: ·) (ih (h.resolve_left (by simpa using hc)))
          · rfl

variable {word s : Text}

/-- Words without line breaks are at the beginning of a text with and without CRLF. -/
theorem prefix_normalizeNewlines (hword : ∀ c ∈ word, c ≠ '\r' ∧ c ≠ '\n') :
    word <+: normalizeNewlines s ↔ word <+: s := by
  induction s generalizing word with
  | nil => rfl
  | cons c s ih =>
      cases word with
      | nil => simp
      | cons d word =>
          have hd := hword d List.mem_cons_self
          rw [normalizeNewlines_cons]
          split
          · rename_i hbreak
            obtain ⟨rfl, hnewline⟩ := hbreak
            obtain ⟨rest, rfl⟩ : ∃ rest, s = '\n' :: rest :=
              ⟨s.tail, List.eq_cons_of_mem_head? hnewline⟩
            rw [ih hword, List.cons_prefix_cons, List.cons_prefix_cons]
            simp [hd.1, hd.2]
          · rw [List.cons_prefix_cons, List.cons_prefix_cons,
              ih fun c hc ↦ hword c (List.mem_cons_of_mem _ hc)]

/-- A word that does not reach into an opening tag comes before it. -/
theorem prefix_before_openTag {front back : Text} (hword : '<' ∉ word)
    (h : word <+: front ++ (openTag ++ back)) : word <+: front := by
  obtain ⟨after, hsplit⟩ := h
  rcases List.append_eq_append_iff.mp hsplit with ⟨u, hfront, -⟩ | ⟨u, hreach, htag⟩
  · exact ⟨u, hfront.symm⟩
  · cases u with
    | nil => exact ⟨[], by simpa using hreach⟩
    | cons c u =>
        obtain ⟨rfl, -⟩ := List.cons.inj (show '<' :: _ = c :: _ from htag)
        exact absurd (by simp [hreach]) hword

/-- A word at the beginning of a text that has been written was there before, unless it reaches into
an opening tag. -/
theorem prefix_of_replaced (retag : TagParts → TagParts) {segs : List Segment}
    (hretag : ∀ parts, (retag parts).blockPrefix = parts.blockPrefix) (hword : '<' ∉ word) :
    word <+: segs.flatMap (replacedText fun parts ↦ (retag parts).fullMatch) →
      word <+: textOf segs := by
  induction segs generalizing word with
  | nil => exact id
  | cons seg rest ih =>
      rw [List.flatMap_cons, textOf_cons]
      cases seg with
      | tag parts =>
          intro h
          simp only [replacedText, TagParts.fullMatch, List.append_assoc, hretag] at h
          simp only [Segment.text, TagParts.fullMatch, List.append_assoc]
          exact (prefix_before_openTag hword h).trans (List.prefix_append _ _)
      | char c =>
          cases word with
          | nil => simp
          | cons d word =>
              simp only [replacedText, Segment.text, List.singleton_append, List.cons_prefix_cons]
              intro h
              exact ⟨h.1, ih (fun hmem ↦ hword (List.mem_cons_of_mem _ hmem)) h.2⟩

/-- A text has a source marker if it begins with one. -/
theorem hasSourceMarker_iff : hasSourceMarker s = true ↔ sourceMarkerPrefix <+: s := by
  rw [hasSourceMarker, List.isPrefixOf_iff_prefix]
  constructor
  · exact fun h ↦ h.trans (List.takeWhile_prefix _)
  · rintro ⟨rest, rfl⟩
    rw [firstLine, List.takeWhile_append_of_pos]
    · exact List.prefix_append _ _
    · exact List.all_eq_true.mp (show sourceMarkerPrefix.all (· ≠ '\n') = true from rfl)

/-- Turning CRLF into LF keeps the source marker. -/
theorem hasSourceMarker_normalizeNewlines (s : Text) :
    hasSourceMarker (normalizeNewlines s) = hasSourceMarker s := by
  have hword : ∀ c ∈ sourceMarkerPrefix, c ≠ '\r' ∧ c ≠ '\n' := by
    have hall : sourceMarkerPrefix.all (fun c ↦ c != '\r' && c != '\n') = true := rfl
    simpa using hall
  rw [Bool.eq_iff_iff, hasSourceMarker_iff, hasSourceMarker_iff, prefix_normalizeNewlines hword]

/-- The marker line of a source is kept: no tag begins on it, and it names the same files without a
return at its end. -/
structure MarkerKept (resolve : Text → ResolvedPath) (text : Text) : Prop where
  noTag : NoTagOnFirstLine (segments (normalizeNewlines text))
  destinations : destinationsOf resolve (firstLine (normalizeNewlines text)) =
    destinationsOf resolve (firstLine text)

/-- Whether the marker line is kept can be checked. -/
instance decidableMarkerKept (resolve : Text → ResolvedPath) (text : Text) :
    Decidable (MarkerKept resolve text) :=
  decidable_of_iff
    (NoTagOnFirstLine (segments (normalizeNewlines text)) ∧
      destinationsOf resolve (firstLine (normalizeNewlines text)) =
        destinationsOf resolve (firstLine text))
    ⟨fun h ↦ ⟨h.1, h.2⟩, fun h ↦ ⟨h.noTag, h.destinations⟩⟩

/-- A file that has been written in place is a source for the same destinations as before. -/
theorem readSource_written {text final : Text}
    (hwritten : final = (segments (normalizeNewlines text)).flatMap
      (replacedText (blockOf resolve sourceMap updatedContentMap)))
    (hrendered : ∀ parts ∈ tagsOf (normalizeNewlines text),
      (renderTag resolve sourceMap updatedContentMap parts).isSome)
    (hkept : hasSourceMarker text = true → MarkerKept resolve text) :
    (readSource resolve final).map Source.destinations =
      (readSource resolve text).map Source.destinations := by
  by_cases hmarker : hasSourceMarker text = true
  · have hline : firstLine final = firstLine (normalizeNewlines text) := by
      rw [hwritten, firstLine_replaced (hkept hmarker).noTag, textOf_segments]
    have hfinal : hasSourceMarker final = true := by
      rw [hasSourceMarker, hline]
      exact (hasSourceMarker_normalizeNewlines text).trans hmarker
    rw [readSource, readSource, if_pos hfinal, if_pos hmarker, Option.map_some, Option.map_some,
      hline, (hkept hmarker).destinations]
  · have hword : '<' ∉ sourceMarkerPrefix := by decide
    have hfinal : ¬hasSourceMarker final = true := by
      rw [hasSourceMarker_iff, written_eq hwritten hrendered]
      intro hbegins
      have hbefore := prefix_of_replaced
        (settledTag resolve sourceMap updatedContentMap) (fun _ ↦ rfl) hword hbegins
      rw [textOf_segments, ← hasSourceMarker_iff, hasSourceMarker_normalizeNewlines] at hbefore
      exact hmarker hbefore
    rw [readSource, readSource, if_neg hfinal, if_neg hmarker]

end CoreUtils.Embedex
