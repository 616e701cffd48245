import CoreUtils.Embedex.Replacement

/-!
# Replacing tags in place

`processDestination` replaces the distinct texts of its tags one after another, wherever they
occur. This agrees with replacing every tag at its own position (`processDestination_inPlace`) when
no block contains a `$` pattern and no tag text occurs, at its turn, anywhere but at its own tags.
-/

namespace CoreUtils.Embedex

/-! ## Settling one distinct text -/

/-- Put a block in the place of the tags with a text. -/
def settleSegment (fullMatch block : Text) : Segment → List Segment
  | .char c => [.char c]
  | .tag parts => if parts.fullMatch = fullMatch then block.map .char else [.tag parts]

/-- Put a block in the place of all tags with a text. -/
def settle (fullMatch block : Text) (segs : List Segment) : List Segment :=
  segs.flatMap (settleSegment fullMatch block)

/-- The text of a word does not begin inside this text, when `after` follows it. -/
def BeginsNowhere (word : Text) : Text → Text → Prop
  | [], _ => True
  | c :: s, after => ¬word <+: c :: (s ++ after) ∧ BeginsNowhere word s after

/-- No occurrence of a text begins outside of the tags with that text. -/
def OnlyAtOwnTags (fullMatch : Text) : List Segment → Prop
  | [] => True
  | .char c :: rest => ¬fullMatch <+: c :: textOf rest ∧ OnlyAtOwnTags fullMatch rest
  | .tag parts :: rest =>
      (parts.fullMatch = fullMatch ∨ BeginsNowhere fullMatch parts.fullMatch (textOf rest)) ∧
        OnlyAtOwnTags fullMatch rest

/-- Whether a word begins nowhere in a text can be checked. -/
instance decidableBeginsNowhere (word : Text) : (s after : Text) →
    Decidable (BeginsNowhere word s after)
  | [], _ => isTrue trivial
  | c :: s, after =>
      have := decidableBeginsNowhere word s after
      inferInstanceAs (Decidable (¬word <+: c :: (s ++ after) ∧ BeginsNowhere word s after))

/-- Whether a text occurs at its own tags only can be checked. -/
instance decidableOnlyAtOwnTags (fullMatch : Text) : (segs : List Segment) →
    Decidable (OnlyAtOwnTags fullMatch segs)
  | [] => isTrue trivial
  | .char c :: rest =>
      have := decidableOnlyAtOwnTags fullMatch rest
      inferInstanceAs (Decidable (¬fullMatch <+: c :: textOf rest ∧ OnlyAtOwnTags fullMatch rest))
  | .tag parts :: rest =>
      have := decidableOnlyAtOwnTags fullMatch rest
      inferInstanceAs (Decidable ((parts.fullMatch = fullMatch ∨
        BeginsNowhere fullMatch parts.fullMatch (textOf rest)) ∧ OnlyAtOwnTags fullMatch rest))

/-- The condition for the replacements of some distinct tags, in their order: the block of each has
no `$` pattern, and is the tag itself or is put in the place of a text that occurs at its own tags
only. -/
def InPlace (render : TagParts → Text) : List TagParts → List Segment → Prop
  | [], _ => True
  | parts :: rest, segs =>
      isPlain (render parts) = true ∧
        (render parts = parts.fullMatch ∨ OnlyAtOwnTags parts.fullMatch segs) ∧
        InPlace render rest (settle parts.fullMatch (render parts) segs)

/-- Whether tags are replaced in place can be checked. -/
instance decidableInPlace (render : TagParts → Text) : (tags : List TagParts) →
    (segs : List Segment) → Decidable (InPlace render tags segs)
  | [], _ => isTrue trivial
  | parts :: rest, segs =>
      have := decidableInPlace render rest (settle parts.fullMatch (render parts) segs)
      inferInstanceAs (Decidable (_ ∧ _ ∧ _))

/-! ## One replacement -/

variable {fullMatch block : Text} {segs : List Segment}

/-- Text in which a word begins nowhere is kept. -/
theorem replaceLiteral_of_beginsNowhere {s after : Text} (h : BeginsNowhere fullMatch s after) :
    replaceLiteral fullMatch block 0 (s ++ after) =
      s ++ replaceLiteral fullMatch block 0 after := by
  induction s with
  | nil => rfl
  | cons c s ih => rw [List.cons_append, replaceLiteral_cons h.1, ih h.2, List.cons_append]

@[simp]
theorem textOf_append (segs segs' : List Segment) :
    textOf (segs ++ segs') = textOf segs ++ textOf segs' := by
  simp [textOf]

@[simp]
theorem textOf_chars (s : Text) : textOf (s.map .char) = s := by
  induction s with
  | nil => rfl
  | cons c s ih => rw [List.map_cons, textOf_cons, ih]; rfl

/-- Replacing a text that occurs at its own tags only settles these tags. -/
theorem replaceLiteral_textOf (hnonempty : fullMatch ≠ []) (h : OnlyAtOwnTags fullMatch segs) :
    replaceLiteral fullMatch block 0 (textOf segs) = textOf (settle fullMatch block segs) := by
  induction segs with
  | nil => rfl
  | cons seg rest ih =>
      rw [settle, List.flatMap_cons, textOf_append, textOf_cons]
      cases seg with
      | char c =>
          rw [Segment.text, List.singleton_append, replaceLiteral_cons h.1, ih h.2]
          rfl
      | tag parts =>
          rw [Segment.text, settleSegment]
          by_cases hown : parts.fullMatch = fullMatch
          · rw [if_pos hown, hown, replaceLiteral_append hnonempty, ih h.2, textOf_chars]
            rfl
          · rw [if_neg hown, replaceLiteral_of_beginsNowhere (h.1.resolve_left hown), ih h.2]
            simp [textOf, Segment.text, settle]

/-- Settling tags by their own text changes nothing. -/
theorem textOf_settle_self : textOf (settle fullMatch fullMatch segs) = textOf segs := by
  induction segs with
  | nil => rfl
  | cons seg rest ih =>
      rw [settle, List.flatMap_cons, textOf_append, textOf_cons]
      refine congrArg₂ _ ?_ ih
      cases seg with
      | char c => rfl
      | tag parts =>
          rw [settleSegment, Segment.text]
          split
          · rename_i hown
            rw [textOf_chars, hown]
          · simp [textOf, Segment.text]

/-- The text of a match is not empty. -/
theorem fullMatch_ne (parts : TagParts) : parts.fullMatch ≠ [] := by
  obtain ⟨c, u, h⟩ := fullMatch_eq parts
  simp [h]

/-! ## All replacements -/

/-- Settle distinct tags in their order. -/
def settleAll (render : TagParts → Text) (tags : List TagParts) (segs : List Segment) :
    List Segment :=
  tags.foldl (fun segs parts ↦ settle parts.fullMatch (render parts) segs) segs

/-- A segment after all tags have been replaced in place. -/
def replacedText (render : TagParts → Text) : Segment → Text
  | .char c => [c]
  | .tag parts => render parts

variable {render : TagParts → Text} {tags : List TagParts}

/-- Settling works segment by segment. -/
theorem settleAll_append (render : TagParts → Text) (tags : List TagParts)
    (segs segs' : List Segment) :
    settleAll render tags (segs ++ segs') =
      settleAll render tags segs ++ settleAll render tags segs' := by
  induction tags generalizing segs segs' with
  | nil => rfl
  | cons parts rest ih =>
      simp only [settleAll, List.foldl_cons] at ih ⊢
      rw [settle, List.flatMap_append]
      exact ih _ _

/-- Characters are settled. -/
theorem settleAll_chars (render : TagParts → Text) (tags : List TagParts) (s : Text) :
    settleAll render tags (s.map .char) = s.map .char := by
  have hchars : ∀ fullMatch block, settle fullMatch block (s.map .char) = s.map .char := by
    intro fullMatch block
    induction s with
    | nil => rfl
    | cons c s ih => exact congrArg (Segment.char c :: ·) ih
  induction tags with
  | nil => rfl
  | cons parts rest ih =>
      rw [settleAll, List.foldl_cons, hchars]
      exact ih

/-- A tag is settled by the block of the distinct tag with its text. -/
theorem textOf_settleAll_tag {parts : TagParts} (hmem : ∃ unique ∈ tags,
      unique.fullMatch = parts.fullMatch)
    (hsame : ∀ unique ∈ tags, unique.fullMatch = parts.fullMatch →
      render unique = render parts) :
    textOf (settleAll render tags [.tag parts]) = render parts := by
  induction tags with
  | nil => simp at hmem
  | cons unique rest ih =>
      rw [settleAll, List.foldl_cons]
      by_cases hown : unique.fullMatch = parts.fullMatch
      · have hsettled : settle unique.fullMatch (render unique) [.tag parts] =
            (render parts).map .char := by
          simp [settle, settleSegment, hown, hsame unique List.mem_cons_self hown]
        rw [hsettled]
        exact (congrArg textOf (settleAll_chars render rest _)).trans
          (textOf_chars _)
      · have hkept : settle unique.fullMatch (render unique) [.tag parts] = [.tag parts] := by
          simp [settle, settleSegment, Ne.symm hown]
        rw [hkept]
        refine ih ?_ fun other hother ↦ hsame other (List.mem_cons_of_mem _ hother)
        obtain ⟨other, hother, hsameText⟩ := hmem
        rcases List.mem_cons.mp hother with rfl | hrest
        · exact absurd hsameText hown
        · exact ⟨other, hrest, hsameText⟩

/-- Settling all distinct tags replaces every tag by its block. -/
theorem textOf_settleAll
    (hmem : ∀ parts, .tag parts ∈ segs → ∃ unique ∈ tags, unique.fullMatch = parts.fullMatch)
    (hsame : ∀ parts, .tag parts ∈ segs → ∀ unique ∈ tags, unique.fullMatch = parts.fullMatch →
      render unique = render parts) :
    textOf (settleAll render tags segs) = segs.flatMap (replacedText render) := by
  induction segs with
  | nil =>
      have hempty := settleAll_chars render tags []
      rw [List.map_nil] at hempty
      rw [hempty]
      rfl
  | cons seg rest ih =>
      have hsplit := settleAll_append render tags [seg] rest
      rw [List.singleton_append] at hsplit
      rw [hsplit, textOf_append, List.flatMap_cons,
        ih (fun parts hparts ↦ hmem parts (List.mem_cons_of_mem _ hparts))
          fun parts hparts ↦ hsame parts (List.mem_cons_of_mem _ hparts)]
      refine congrArg (· ++ _) ?_
      cases seg with
      | char c =>
          exact (congrArg textOf (settleAll_chars render tags [c])).trans
            (textOf_chars [c])
      | tag parts =>
          exact textOf_settleAll_tag (hmem parts List.mem_cons_self)
            (hsame parts List.mem_cons_self)

/-! ## The loop -/

section

variable {resolve : Text → ResolvedPath} {sourceMap : SourceMap}
  {updatedContentMap : UpdatedContentMap}

/-- The block for a tag whose source is known. -/
def blockOf (resolve : Text → ResolvedPath) (sourceMap : SourceMap)
    (updatedContentMap : UpdatedContentMap) (parts : TagParts) : Text :=
  (renderTag resolve sourceMap updatedContentMap parts).getD []

/-- The loop puts known blocks in the place of their tags. -/
theorem replaceMatches_spec {segs : List Segment} {final : Text}
    (h : replaceMatches resolve sourceMap updatedContentMap tags (textOf segs) = some final)
    (hplace : InPlace (blockOf resolve sourceMap updatedContentMap) tags segs) :
    final = textOf (settleAll (blockOf resolve sourceMap updatedContentMap) tags segs) ∧
      ∀ parts ∈ tags, (renderTag resolve sourceMap updatedContentMap parts).isSome := by
  induction tags generalizing segs with
  | nil => exact ⟨(Option.some.inj h).symm, by simp⟩
  | cons parts rest ih =>
      obtain ⟨hplain, hown, hrest⟩ := hplace
      rw [replaceMatches] at h
      cases hrender : renderTag resolve sourceMap updatedContentMap parts with
      | none => simp [hrender] at h
      | some block =>
          have hblock : blockOf resolve sourceMap updatedContentMap parts = block := by
            simp [blockOf, hrender]
          rw [hblock] at hplain hown hrest
          rw [hrender] at h
          have hstep : replaceAll parts.fullMatch block (textOf segs) =
              textOf (settle parts.fullMatch block segs) := by
            rw [replaceAll_of_plain hplain]
            rcases hown with rfl | honly
            · rw [replaceLiteral_self (fullMatch_ne parts), textOf_settle_self]
            · exact replaceLiteral_textOf (fullMatch_ne parts) honly
          simp only [hstep] at h
          obtain ⟨hfinal, hall⟩ := ih h hrest
          refine ⟨by rw [settleAll, List.foldl_cons, hblock]; exact hfinal, fun other hother ↦ ?_⟩
          rcases List.mem_cons.mp hother with rfl | hother
          · simp [hrender]
          · exact hall other hother

/-- The distinct matches are matches, and every match has the text of one of them. -/
theorem mem_uniqueMatches (tags : List TagParts) :
    (∀ unique ∈ uniqueMatches tags, unique ∈ tags) ∧
      ∀ parts ∈ tags, ∃ unique ∈ uniqueMatches tags, unique.fullMatch = parts.fullMatch := by
  -- what the map holds after the loop is under its own match and comes from the tags
  have hfold : ∀ (rest : List TagParts) (found : OrderedMap Text TagParts),
      (∀ word unique, found.get word = some unique → unique.fullMatch = word) →
      ∀ word unique, (rest.foldl (fun found parts ↦ found.set parts.fullMatch parts) found).get
          word = some unique →
        unique.fullMatch = word ∧ (unique ∈ rest ∨ found.get word = some unique) := by
    intro rest
    induction rest with
    | nil => exact fun found hkeys word unique hget ↦ ⟨hkeys word unique hget, .inr hget⟩
    | cons parts rest ih =>
        intro found hkeys word unique hget
        have hkeys' : ∀ word unique, (found.set parts.fullMatch parts).get word = some unique →
            unique.fullMatch = word := by
          intro word unique hset
          rw [OrderedMap.get_set] at hset
          split at hset
          · rename_i hword
            rw [← Option.some.inj hset, hword]
          · exact hkeys word unique hset
        obtain ⟨hword, hunique | hset⟩ := ih _ hkeys' word unique hget
        · exact ⟨hword, .inl (List.mem_cons_of_mem _ hunique)⟩
        · rw [OrderedMap.get_set] at hset
          split at hset
          · obtain rfl := Option.some.inj hset
            exact ⟨hword, .inl List.mem_cons_self⟩
          · exact ⟨hword, .inr hset⟩
  -- no match is lost, since entries are only overwritten
  have hkept : ∀ (rest : List TagParts) (found : OrderedMap Text TagParts) word,
      ((found.get word).isSome ∨ ∃ parts ∈ rest, parts.fullMatch = word) →
      ((rest.foldl (fun found parts ↦ found.set parts.fullMatch parts) found).get word).isSome := by
    intro rest
    induction rest with
    | nil => simp
    | cons parts rest ih =>
        intro found word hsome
        refine ih _ word ?_
        rw [OrderedMap.get_set]
        rcases hsome with hfound | ⟨other, hother, rfl⟩
        · split
          · exact .inl rfl
          · exact .inl hfound
        · rcases List.mem_cons.mp hother with rfl | hother
          · exact .inl (by simp)
          · exact .inr ⟨other, hother, rfl⟩
  refine ⟨fun unique hunique ↦ ?_, fun parts hparts ↦ ?_⟩
  · obtain ⟨word, hget⟩ := OrderedMap.mem_values.mp hunique
    obtain ⟨-, hmem | hempty⟩ := hfold tags .empty (by simp) word unique hget
    · exact hmem
    · simp at hempty
  · obtain ⟨unique, hget⟩ :=
      Option.isSome_iff_exists.mp (hkept tags .empty parts.fullMatch (.inr ⟨parts, hparts, rfl⟩))
    obtain ⟨hword, -⟩ := hfold tags .empty (by simp) parts.fullMatch unique hget
    exact ⟨unique, OrderedMap.mem_values.mpr ⟨parts.fullMatch, hget⟩, hword⟩

/-- The tags of a text are the tags among its segments. -/
theorem mem_tagsOf {content : Text} {parts : TagParts} :
    parts ∈ tagsOf content ↔ .tag parts ∈ segments content := by
  rw [tagsOf, List.mem_filterMap]
  constructor
  · rintro ⟨seg, hseg, htag⟩
    cases seg with
    | char c => simp [Segment.tag?] at htag
    | tag other =>
        obtain rfl := Option.some.inj htag
        exact hseg
  · exact fun h ↦ ⟨_, h, rfl⟩

/-- Tags of one text with the same text have the same block. -/
theorem blockOf_eq {content : Text} {parts parts' : TagParts} (hparts : parts ∈ tagsOf content)
    (hparts' : parts' ∈ tagsOf content) (hsame : parts.fullMatch = parts'.fullMatch) :
    blockOf resolve sourceMap updatedContentMap parts =
      blockOf resolve sourceMap updatedContentMap parts' := by
  obtain ⟨rest, hmatch⟩ := (scanned_segments content).matchTag_of_mem (mem_tagsOf.mp hparts)
  obtain ⟨rest', hmatch'⟩ := (scanned_segments content).matchTag_of_mem (mem_tagsOf.mp hparts')
  obtain ⟨hblockPrefix, hsource⟩ := matchTag_determined hmatch hmatch' hsame
  rw [blockOf, blockOf, renderTag, renderTag, hblockPrefix, hsource]

/-- The loop over the distinct tags of a text replaces every tag at its position. -/
theorem replaceMatches_content {content final : Text}
    (h : replaceMatches resolve sourceMap updatedContentMap (uniqueMatches (tagsOf content))
      content = some final)
    (hplace : InPlace (blockOf resolve sourceMap updatedContentMap)
      (uniqueMatches (tagsOf content)) (segments content)) :
    final = (segments content).flatMap (replacedText
        (blockOf resolve sourceMap updatedContentMap)) ∧
      ∀ parts ∈ tagsOf content, (renderTag resolve sourceMap updatedContentMap parts).isSome := by
  obtain ⟨hsub, hall⟩ := mem_uniqueMatches (tagsOf content)
  have hloop : replaceMatches resolve sourceMap updatedContentMap (uniqueMatches (tagsOf content))
      (textOf (segments content)) = some final := by
    rw [textOf_segments]
    exact h
  obtain ⟨hfinal, hrendered⟩ := replaceMatches_spec hloop hplace
  rw [textOf_settleAll (fun parts hparts ↦ hall parts (mem_tagsOf.mpr hparts))
    fun parts hparts unique hunique hsame ↦
      blockOf_eq (hsub unique hunique) (mem_tagsOf.mpr hparts) hsame] at hfinal
  refine ⟨hfinal, fun parts hparts ↦ ?_⟩
  obtain ⟨unique, hunique, hsame⟩ := hall parts hparts
  obtain ⟨rest, hmatch⟩ :=
    (scanned_segments content).matchTag_of_mem (mem_tagsOf.mp (hsub unique hunique))
  obtain ⟨rest', hmatch'⟩ := (scanned_segments content).matchTag_of_mem (mem_tagsOf.mp hparts)
  obtain ⟨hblockPrefix, hsource⟩ := matchTag_determined hmatch hmatch' hsame
  have hsome := hrendered unique hunique
  rwa [renderTag, hblockPrefix, hsource] at hsome

/-! ## Destinations -/

/-- The content of a destination after it has been processed without an error. -/
def Embed.contentAfter (content : Text) : Embed → Option Text
  | .noChange _ _ => some content
  | .update _ _ updatedContent => some updatedContent
  | .noMatch _ | .invalidSource _ _ | .unreferencedSource _ _ | .circularDependency _ _ => none

/-- A segment, or the block for its own prefix and source. -/
def placedText (resolve : Text → ResolvedPath) (sourceMap : SourceMap)
    (updatedContentMap : UpdatedContentMap) : Segment → Option Text
  | .char c => some [c]
  | .tag parts => renderTag resolve sourceMap updatedContentMap parts

/-- Replace every tag of a text at its own position by the block for its own prefix and source, and
keep everything else. -/
def positionalReplacement (resolve : Text → ResolvedPath) (sourceMap : SourceMap)
    (updatedContentMap : UpdatedContentMap) (content : Text) : Option Text :=
  ((segments content).mapM (placedText resolve sourceMap updatedContentMap)).map List.flatten

/-- When all sources are known, tags are replaced by their blocks. -/
theorem positionalReplacement_eq {content : Text}
    (h : ∀ parts ∈ tagsOf content, (renderTag resolve sourceMap updatedContentMap parts).isSome) :
    positionalReplacement resolve sourceMap updatedContentMap content =
      some ((segments content).flatMap
        (replacedText (blockOf resolve sourceMap updatedContentMap))) := by
  have htags : ∀ parts, .tag parts ∈ segments content →
      (renderTag resolve sourceMap updatedContentMap parts).isSome :=
    fun parts hparts ↦ h parts (mem_tagsOf.mpr hparts)
  rw [positionalReplacement]
  generalize segments content = segs at htags
  induction segs with
  | nil => rfl
  | cons seg rest ih =>
      have hrest := ih fun parts hparts ↦ htags parts (List.mem_cons_of_mem _ hparts)
      obtain ⟨texts, htexts, hflat⟩ := Option.map_eq_some_iff.mp hrest
      have hseg : placedText resolve sourceMap updatedContentMap seg =
          some (replacedText (blockOf resolve sourceMap updatedContentMap) seg) := by
        cases seg with
        | char c => rfl
        | tag parts =>
            obtain ⟨block, hblock⟩ := Option.isSome_iff_exists.mp (htags parts List.mem_cons_self)
            simp [placedText, hblock, replacedText, blockOf]
      rw [List.mapM_cons, htexts, hseg, List.flatMap_cons, ← hflat]
      rfl

/-- Every tag of a destination names one of its sources, every source has a tag, and there is a
tag. -/
structure Tagged (resolve : Text → ResolvedPath) (sources : OrderedSet ResolvedPath)
    (tags : List TagParts) : Prop where
  valid : ∀ parts ∈ tags, sources.has (resolve parts.source) = true
  referenced : ∀ source, sources.has source = true → ∃ parts ∈ tags, resolve parts.source = source
  found : tags ≠ []

variable {entry : ResolvedPath × Destination} {result : Embed}

/-- A tagged destination is what the loop over its distinct tags makes of it. -/
theorem processDestination_of_tagged
    (h : Tagged resolve entry.2.sources (tagsOf (destinationContent updatedContentMap entry))) :
    processDestination resolve sourceMap updatedContentMap entry =
      (replaceMatches resolve sourceMap updatedContentMap
        (uniqueMatches (tagsOf (destinationContent updatedContentMap entry)))
        (destinationContent updatedContentMap entry)).map fun updated ↦
          let paths := (uniqueMatches (tagsOf (destinationContent updatedContentMap entry))).map
            fun parts ↦ resolve parts.source
          if destinationContent updatedContentMap entry = updated then .noChange entry.1 paths
          else .update entry.1 paths updated := by
  have hvalid : ((tagsOf (destinationContent updatedContentMap entry)).map fun parts ↦
      resolve parts.source).filter (fun path ↦ !entry.2.sources.has path) = [] := by
    refine List.filter_eq_nil_iff.mpr fun path hpath ↦ ?_
    obtain ⟨parts, hparts, rfl⟩ := List.mem_map.mp hpath
    rw [h.valid parts hparts]
    decide
  have hreferenced : entry.2.sources.keys.filter (· ∉ (tagsOf
      (destinationContent updatedContentMap entry)).map fun parts ↦ resolve parts.source) = [] := by
    refine List.filter_eq_nil_iff.mpr fun source hsource ↦ ?_
    obtain ⟨_, hget⟩ := OrderedMap.mem_keys.mp hsource
    obtain ⟨parts, hparts, hpath⟩ := h.referenced source (by rw [OrderedMap.has_eq, hget]; rfl)
    simpa using ⟨parts, hparts, hpath⟩
  have hfound : (tagsOf (destinationContent updatedContentMap entry)).filter
      (fun parts ↦ entry.2.sources.has (resolve parts.source)) =
        tagsOf (destinationContent updatedContentMap entry) :=
    List.filter_eq_self.mpr h.valid
  unfold processDestination
  simp only [hvalid, hreferenced, hfound, h.found, ne_eq, not_true_eq_false, if_false]

/-- A destination that is processed without an error is tagged. -/
theorem tagged_of_processDestination
    (h : processDestination resolve sourceMap updatedContentMap entry = some result)
    (hfinal : (result.contentAfter (destinationContent updatedContentMap entry)).isSome) :
    Tagged resolve entry.2.sources (tagsOf (destinationContent updatedContentMap entry)) := by
  unfold processDestination at h
  simp only at h
  split at h
  · obtain rfl := Option.some.inj h
    contradiction
  · rename_i hvalid
    rw [not_not, List.filter_eq_nil_iff] at hvalid
    split at h
    · obtain rfl := Option.some.inj h
      contradiction
    · rename_i hreferenced
      rw [not_not, List.filter_eq_nil_iff] at hreferenced
      split at h
      · obtain rfl := Option.some.inj h
        contradiction
      · rename_i hfound
        refine ⟨fun parts hparts ↦ ?_, fun source hsource ↦ ?_, fun hnil ↦ hfound (by simp [hnil])⟩
        · have hhas := hvalid (resolve parts.source) (List.mem_map_of_mem hparts)
          rwa [Bool.not_eq_true', Bool.not_eq_false] at hhas
        · rw [OrderedMap.has_eq, Option.isSome_iff_exists] at hsource
          simpa using hreferenced source (OrderedMap.mem_keys.mpr hsource)

/-- A destination without an error has been replaced by the loop over its distinct tags. -/
theorem processDestination_loop
    (h : processDestination resolve sourceMap updatedContentMap entry = some result)
    {final : Text}
    (hfinal : result.contentAfter (destinationContent updatedContentMap entry) = some final) :
    replaceMatches resolve sourceMap updatedContentMap
      (uniqueMatches (tagsOf (destinationContent updatedContentMap entry)))
      (destinationContent updatedContentMap entry) = some final := by
  have htagged := tagged_of_processDestination h (by rw [hfinal]; rfl)
  rw [processDestination_of_tagged htagged] at h
  obtain ⟨updated, hupdated, hresult⟩ := Option.map_eq_some_iff.mp h
  rw [hupdated]
  simp only at hresult
  split at hresult
  · rename_i hsame
    obtain rfl := hresult
    rw [← hsame]
    exact hfinal
  · obtain rfl := hresult
    exact hfinal

/-- Without `$` patterns in the blocks, and when at its turn each distinct tag text occurs at its
own tags only, a destination that is processed without an error has every tag replaced at its own
position and everything else unchanged. -/
theorem processDestination_inPlace {entry : ResolvedPath × Destination} {result : Embed}
    (h : processDestination resolve sourceMap updatedContentMap entry = some result)
    (hplace : InPlace (blockOf resolve sourceMap updatedContentMap)
      (uniqueMatches (tagsOf (destinationContent updatedContentMap entry)))
      (segments (destinationContent updatedContentMap entry))) :
    ∀ final, result.contentAfter (destinationContent updatedContentMap entry) = some final →
      positionalReplacement resolve sourceMap updatedContentMap
        (destinationContent updatedContentMap entry) = some final := by
  intro final hfinal
  obtain ⟨rfl, hrendered⟩ := replaceMatches_content (processDestination_loop h hfinal) hplace
  exact positionalReplacement_eq hrendered

end

/-! ## Examples -/

/-- Paths below the root directory. -/
def belowRoot (path : Text) : ResolvedPath := ⟨'/' :: path, by simp⟩

/-- The path of a destination. -/
def examplePath : ResolvedPath := belowRoot "d.md".toList

/-- A source map with one source. -/
def exampleSources (content : String) : SourceMap :=
  (OrderedMap.empty : SourceMap).set (belowRoot "a.ts".toList) ⟨content.toList, [examplePath]⟩

/-- A destination of that source. -/
def exampleEntry (content : String) : ResolvedPath × Destination :=
  (examplePath, ⟨content.toList, OrderedSet.add OrderedMap.empty (belowRoot "a.ts".toList)⟩)

/-- A destination with two tags, one of them in a comment, that are replaced in place. -/
def twoTags : String :=
  "<embedex source=\"a.ts\"></embedex>\n * <embedex source=\"a.ts\">x</embedex>\n"

/-- Both tags of `twoTags` are replaced at their own positions. -/
theorem processDestination_inPlace_twoTags :
    ∃ result final, processDestination belowRoot (exampleSources "f();\n") .empty
        (exampleEntry twoTags) = some result ∧
      result.contentAfter twoTags.toList = some final ∧
      positionalReplacement belowRoot (exampleSources "f();\n") .empty
        twoTags.toList = some final := by
  have htext := show twoTags.toList = _ from String.toList_ofList
  have hcontent : destinationContent .empty (exampleEntry twoTags) = twoTags.toList := by
    rw [exampleEntry, htext]
    decide +kernel
  have hplace : InPlace (blockOf belowRoot (exampleSources "f();\n") .empty)
      (uniqueMatches (tagsOf (destinationContent .empty (exampleEntry twoTags))))
      (segments (destinationContent .empty (exampleEntry twoTags))) := by
    rw [exampleEntry, htext]
    decide +kernel
  have hok : (processDestination belowRoot (exampleSources "f();\n") .empty
      (exampleEntry twoTags)).any fun result ↦
        (result.contentAfter twoTags.toList).isSome := by
    rw [exampleEntry, htext]
    decide +kernel
  obtain ⟨result, hresult, hsome⟩ := (Option.any_eq_true _ _).mp hok
  obtain ⟨final, hfinal⟩ := Option.isSome_iff_exists.mp hsome
  have hpositional := processDestination_inPlace hresult hplace final (by rw [hcontent, hfinal])
  rw [hcontent] at hpositional
  exact ⟨result, final, hresult, hfinal, hpositional⟩

/-- A destination with two tags, the text of one of which occurs inside the other. -/
def nestedTexts : String :=
  "<embedex source=\"a.ts\"></embedex>\n * <embedex source=\"a.ts\"></embedex>\n"

/-- A source with a `$` pattern is not put in place as it is, and a tag text that occurs inside
another tag is replaced there too. -/
theorem processDestination_not_inPlace :
    (∃ result final, processDestination belowRoot (exampleSources "p = '$$';\n") .empty
        (exampleEntry twoTags) = some result ∧
      result.contentAfter twoTags.toList = some final ∧
      positionalReplacement belowRoot (exampleSources "p = '$$';\n") .empty twoTags.toList ≠
        some final) ∧
    ∃ result final, processDestination belowRoot (exampleSources "f();\n") .empty
        (exampleEntry nestedTexts) = some result ∧
      result.contentAfter nestedTexts.toList = some final ∧
      positionalReplacement belowRoot (exampleSources "f();\n") .empty nestedTexts.toList ≠
        some final := by
  have hpattern : (processDestination belowRoot (exampleSources "p = '$$';\n") .empty
      (exampleEntry twoTags)).any fun result ↦
        (result.contentAfter twoTags.toList).any fun final ↦
          positionalReplacement belowRoot (exampleSources "p = '$$';\n") .empty
            twoTags.toList ≠ some final := by
    rw [exampleEntry, show twoTags.toList = _ from String.toList_ofList]
    decide +kernel
  have hnested : (processDestination belowRoot (exampleSources "f();\n") .empty
      (exampleEntry nestedTexts)).any fun result ↦
        (result.contentAfter nestedTexts.toList).any fun final ↦
          positionalReplacement belowRoot (exampleSources "f();\n") .empty
            nestedTexts.toList ≠ some final := by
    rw [exampleEntry, show nestedTexts.toList = _ from String.toList_ofList]
    decide +kernel
  constructor
  · obtain ⟨result, hresult, hany⟩ := (Option.any_eq_true _ _).mp hpattern
    obtain ⟨final, hfinal, hdiffer⟩ := (Option.any_eq_true _ _).mp hany
    exact ⟨result, final, hresult, hfinal, of_decide_eq_true hdiffer⟩
  · obtain ⟨result, hresult, hany⟩ := (Option.any_eq_true _ _).mp hnested
    obtain ⟨final, hfinal, hdiffer⟩ := (Option.any_eq_true _ _).mp hany
    exact ⟨result, final, hresult, hfinal, of_decide_eq_true hdiffer⟩

end CoreUtils.Embedex
