import CoreUtils.Embedex.InPlace

/-!
# What a destination is found to be

`createDestinationMap` collects the destinations that sources name, each with the sources that name
it. On such a map the result of `processDestination` is determined by comparing the tags of the
destination with these sources (`processDestination_classification`); a destination always has a
source, so that a destination without any tag is one with an unreferenced source.
-/

namespace CoreUtils.Embedex

/-- Whether a source names a destination. -/
def declares (sourceMap : SourceMap) (destinationPath source : ResolvedPath) : Bool :=
  (sourceMap.get source).any fun entry ↦ entry.destinations.contains destinationPath

/-- The sources that name a destination. -/
def declaringSources (sourceMap : SourceMap) (destinationPath : ResolvedPath) :
    OrderedSet ResolvedPath :=
  OrderedSet.ofList
    ((sourceMap.entries.filter fun entry ↦ entry.2.destinations.contains destinationPath).map
      Prod.fst)

/-- `createDestinationMap`: the destinations that sources name; there is no map when one of them
cannot be read. -/
def createDestinationMap (readFile : ResolvedPath → Option Text) (sourceMap : SourceMap) :
    Option DestinationMap :=
  let uniqueDestinationPaths := OrderedSet.ofList (sourceMap.values.flatMap Source.destinations)
  if uniqueDestinationPaths.keys.all fun path ↦ (readFile path).isSome then
    some (uniqueDestinationPaths.mapWithKey fun destinationPath _ ↦
      ⟨(readFile destinationPath).getD [], declaringSources sourceMap destinationPath⟩)
  else none

/-! ## The sources of a destination -/

variable {sourceMap : SourceMap} {destinationMap : DestinationMap}
  {destinationPath source : ResolvedPath} {destination : Destination}

/-- The sources that name a destination, in the order of all sources. -/
theorem keys_declaringSources (sourceMap : SourceMap) (destinationPath : ResolvedPath) :
    (declaringSources sourceMap destinationPath).keys =
      sourceMap.keys.filter (declares sourceMap destinationPath) := by
  rw [declaringSources, OrderedSet.keys_ofList
    (sourceMap.nodup.sublist (List.filter_sublist.map Prod.fst)), OrderedMap.keys, List.filter_map]
  refine congrArg _ (List.filter_congr fun entry hentry ↦ ?_)
  simp [declares, OrderedMap.mem_entries.mp hentry]

/-- A source belongs to a destination if it names it. -/
theorem has_declaringSources :
    (declaringSources sourceMap destinationPath).has source =
      declares sourceMap destinationPath source := by
  have hmem : source ∈ (declaringSources sourceMap destinationPath).keys ↔
      declares sourceMap destinationPath source = true := by
    rw [keys_declaringSources, List.mem_filter, and_iff_right_iff_imp]
    intro hdeclares
    obtain ⟨entry, hentry, -⟩ := (Option.any_eq_true _ _).mp hdeclares
    exact OrderedMap.mem_keys.mpr ⟨entry, hentry⟩
  rw [Bool.eq_iff_iff, ← hmem, OrderedMap.mem_keys, OrderedMap.has_eq, Option.isSome_iff_exists]

/-- A destination of the map has the sources that name it, and there is one. -/
theorem get_createDestinationMap {readFile : ResolvedPath → Option Text}
    (h : createDestinationMap readFile sourceMap = some destinationMap)
    (hget : destinationMap.get destinationPath = some destination) :
    readFile destinationPath = some destination.content ∧
      destination.sources = declaringSources sourceMap destinationPath ∧
      ∃ source ∈ sourceMap.keys, declares sourceMap destinationPath source = true := by
  unfold createDestinationMap at h
  simp only at h
  split at h
  · rename_i hread
    obtain rfl := Option.some.inj h
    rw [OrderedMap.get_mapWithKey] at hget
    obtain ⟨_, hunique, rfl⟩ := Option.map_eq_some_iff.mp hget
    have hkey := OrderedMap.mem_keys.mpr ⟨_, hunique⟩
    obtain ⟨content, hcontent⟩ :=
      Option.isSome_iff_exists.mp (List.all_eq_true.mp hread _ hkey)
    refine ⟨by simp [hcontent], rfl, ?_⟩
    obtain ⟨entry, hentry, hnamed⟩ :=
      List.mem_flatMap.mp (OrderedSet.mem_keys_ofList.mp hkey)
    obtain ⟨source, hsource⟩ := OrderedMap.mem_values.mp hentry
    exact ⟨source, OrderedMap.mem_keys.mpr ⟨entry, hsource⟩, by simp [declares, hsource, hnamed]⟩
  · contradiction

/-! ## The loop over tags -/

variable {resolve : Text → ResolvedPath} {updatedContentMap : UpdatedContentMap}

/-- The text of a tag is found when the tag names a source. -/
theorem renderTag_isSome {parts : TagParts}
    (h : (sourceMap.get (resolve parts.source)).isSome = true) :
    (renderTag resolve sourceMap updatedContentMap parts).isSome = true := by
  obtain ⟨entry, hentry⟩ := Option.isSome_iff_exists.mp h
  rw [renderTag, Option.isSome_map, sourceContent]
  split
  · rfl
  · rw [hentry]
    rfl

/-- The loop ends without an error when every tag names a source. -/
theorem replaceMatches_isSome {tags : List TagParts} (updatedContentMap : UpdatedContentMap)
    (h : ∀ parts ∈ tags, (sourceMap.get (resolve parts.source)).isSome = true) (content : Text) :
    ∃ updated, replaceMatches resolve sourceMap updatedContentMap tags content = some updated := by
  induction tags generalizing content with
  | nil => exact ⟨content, rfl⟩
  | cons parts rest ih =>
      obtain ⟨block, hblock⟩ :=
        Option.isSome_iff_exists.mp (renderTag_isSome (h parts List.mem_cons_self))
      rw [replaceMatches, hblock]
      exact ih (fun other hother ↦ h other (List.mem_cons_of_mem _ hother)) _

/-- The distinct tags name the sources that all tags name. -/
theorem mem_sources_uniqueMatches (content : Text) :
    source ∈ (uniqueMatches (tagsOf content)).map (fun parts ↦ resolve parts.source) ↔
      source ∈ (tagsOf content).map fun parts ↦ resolve parts.source := by
  obtain ⟨hsub, hall⟩ := mem_uniqueMatches (tagsOf content)
  constructor
  · intro hmem
    obtain ⟨parts, hparts, rfl⟩ := List.mem_map.mp hmem
    exact List.mem_map.mpr ⟨parts, hsub parts hparts, rfl⟩
  · intro hmem
    obtain ⟨parts, hparts, rfl⟩ := List.mem_map.mp hmem
    obtain ⟨unique, hunique, hsame⟩ := hall parts hparts
    obtain ⟨rest, hmatch⟩ :=
      (scanned_segments content).matchTag_of_mem (mem_tagsOf.mp (hsub unique hunique))
    obtain ⟨rest', hmatch'⟩ := (scanned_segments content).matchTag_of_mem (mem_tagsOf.mp hparts)
    refine List.mem_map.mpr ⟨unique, hunique, ?_⟩
    rw [(matchTag_determined hmatch hmatch' hsame).2]

/-! ## The result for a destination -/

/-- The paths that the tags of a destination resolve to. -/
def taggedPaths (resolve : Text → ResolvedPath) (destination : Destination) : List ResolvedPath :=
  (tagsOf (normalizeNewlines destination.content)).map fun parts ↦ resolve parts.source

/-- The paths of tags that resolve to files which do not name the destination, in tag order. -/
def invalidPaths (resolve : Text → ResolvedPath) (sourceMap : SourceMap)
    (destinationPath : ResolvedPath) (destination : Destination) : List ResolvedPath :=
  (taggedPaths resolve destination).filter fun path ↦ !declares sourceMap destinationPath path

/-- The sources that name the destination and that no tag resolves to. -/
def unreferencedPaths (resolve : Text → ResolvedPath) (sourceMap : SourceMap)
    (destinationPath : ResolvedPath) (destination : Destination) : List ResolvedPath :=
  (sourceMap.keys.filter (declares sourceMap destinationPath)).filter
    (· ∉ taggedPaths resolve destination)

/-- Without invalid paths every tag names a source that names the destination. -/
theorem declares_of_invalidPaths
    (h : invalidPaths resolve sourceMap destinationPath destination = [])
    (hmem : source ∈ taggedPaths resolve destination) :
    declares sourceMap destinationPath source = true := by
  have hnone := List.filter_eq_nil_iff.mp h source hmem
  simpa using hnone

/-- A source that names a destination is a source. -/
theorem get_isSome_of_declares (h : declares sourceMap destinationPath source = true) :
    (sourceMap.get source).isSome = true := by
  obtain ⟨entry, hentry, -⟩ := (Option.any_eq_true _ _).mp h
  rw [hentry]
  rfl

/-- Without invalid paths and unreferenced sources, the tagged sources are those that name the
destination. -/
theorem mem_taggedPaths_iff
    (hvalid : invalidPaths resolve sourceMap destinationPath destination = [])
    (hreferenced : unreferencedPaths resolve sourceMap destinationPath destination = [])
    (source : ResolvedPath) :
    source ∈ taggedPaths resolve destination ↔
      declares sourceMap destinationPath source = true := by
  refine ⟨declares_of_invalidPaths hvalid, fun hdeclares ↦ ?_⟩
  obtain ⟨entry, hentry⟩ := Option.isSome_iff_exists.mp (get_isSome_of_declares hdeclares)
  have hnone := List.filter_eq_nil_iff.mp hreferenced source (List.mem_filter.mpr
    ⟨OrderedMap.mem_keys.mpr ⟨entry, hentry⟩, hdeclares⟩)
  simpa using hnone

/-- For every destination of a map that `createDestinationMap` builds, and without an update of the
destination, `processDestination` does not fail. It reports the tags whose paths resolve to files
that do not name the destination, if there are any; otherwise the sources that name it without a
tag, if there are any; and otherwise an update or no change, with exactly the sources that name it.
It never finds no match, and each source that is looked up is in the source map. -/
theorem processDestination_classification (resolve : Text → ResolvedPath)
    (readFile : ResolvedPath → Option Text) (sourceMap : SourceMap)
    (updatedContentMap : UpdatedContentMap) (destinationMap : DestinationMap)
    (hmap : createDestinationMap readFile sourceMap = some destinationMap)
    (destinationPath : ResolvedPath) (destination : Destination)
    (hget : destinationMap.get destinationPath = some destination)
    (hupdated : updatedContentMap.get destinationPath = none) :
    let invalid := invalidPaths resolve sourceMap destinationPath destination
    let unreferenced := unreferencedPaths resolve sourceMap destinationPath destination
    ∃ result,
      processDestination resolve sourceMap updatedContentMap (destinationPath, destination) =
        some result ∧
      (invalid ≠ [] → result = .invalidSource destinationPath invalid) ∧
      (invalid = [] → unreferenced ≠ [] →
        result = .unreferencedSource destinationPath unreferenced) ∧
      (invalid = [] → unreferenced = [] → ∃ sources,
        (result = .noChange destinationPath sources ∨
          ∃ updatedContent, result = .update destinationPath sources updatedContent) ∧
        ∀ source, source ∈ sources ↔ declares sourceMap destinationPath source = true) ∧
      (∀ path, result ≠ .noMatch path) ∧
      (invalid = [] → ∀ source ∈ taggedPaths resolve destination,
        (sourceMap.get source).isSome = true) := by
  intro invalid unreferenced
  obtain ⟨-, hsources, source, hsource, hdeclares⟩ := get_createDestinationMap hmap hget
  have hcontent : destinationContent updatedContentMap (destinationPath, destination) =
      normalizeNewlines destination.content := by
    rw [destinationContent, hupdated]
  have hlookup : invalid = [] → ∀ source ∈ taggedPaths resolve destination,
      (sourceMap.get source).isSome = true := fun hvalid source hmem ↦
    get_isSome_of_declares (declares_of_invalidPaths hvalid hmem)
  have hinvalid : (taggedPaths resolve destination).filter
      (fun path ↦ !destination.sources.has path) = invalid := by
    refine List.filter_congr fun path _ ↦ ?_
    rw [hsources, has_declaringSources]
  have hunreferenced : destination.sources.keys.filter
      (· ∉ taggedPaths resolve destination) = unreferenced := by
    rw [hsources, keys_declaringSources]
    rfl
  unfold taggedPaths at hinvalid hunreferenced
  unfold processDestination
  simp only [hcontent, hinvalid, hunreferenced]
  by_cases hvalid : invalid = []
  · by_cases hreferenced : unreferenced = []
    · have htags : (tagsOf (normalizeNewlines destination.content)).filter
          (fun parts ↦ destination.sources.has (resolve parts.source)) =
            tagsOf (normalizeNewlines destination.content) := by
        refine List.filter_eq_self.mpr fun parts hparts ↦ ?_
        rw [hsources, has_declaringSources]
        exact declares_of_invalidPaths hvalid (List.mem_map_of_mem hparts)
      -- the source that names the destination has a tag
      have htagged := mem_taggedPaths_iff hvalid hreferenced
      have hfound : tagsOf (normalizeNewlines destination.content) ≠ [] := by
        intro hnil
        have hmem := (htagged source).mpr hdeclares
        simp [taggedPaths, hnil] at hmem
      obtain ⟨hsub, -⟩ := mem_uniqueMatches (tagsOf (normalizeNewlines destination.content))
      obtain ⟨updated, hupdated'⟩ := replaceMatches_isSome updatedContentMap
        (fun parts hparts ↦ hlookup hvalid _ (List.mem_map_of_mem (hsub parts hparts)))
        (normalizeNewlines destination.content)
      simp only [hvalid, hreferenced, htags, hfound, ne_eq, not_true_eq_false, if_false, hupdated',
        Option.map_some, Option.some.injEq, exists_eq_left']
      refine ⟨by simp, by simp, fun _ _ ↦ ⟨(uniqueMatches (tagsOf
        (normalizeNewlines destination.content))).map fun parts ↦ resolve parts.source, ?_, ?_⟩, ?_,
        fun _ ↦ hlookup hvalid⟩
      · split
        · exact .inl rfl
        · exact .inr ⟨updated, rfl⟩
      · exact fun source ↦ (mem_sources_uniqueMatches _).trans (htagged source)
      · intro path
        split <;> simp
    · simp only [hvalid, hreferenced, ne_eq, not_true_eq_false, not_false_eq_true, if_false,
        if_true, Option.some.injEq, exists_eq_left']
      exact ⟨by simp, by simp, by simp, by simp, fun _ ↦ hlookup hvalid⟩
  · simp only [hvalid, ne_eq, not_false_eq_true, if_true, Option.some.injEq, exists_eq_left']
    exact ⟨by simp, by simp, by simp, by simp, by simp⟩

/-- The path of a source. -/
def exampleSource : ResolvedPath := ⟨"/a.ts".toList, by decide⟩

/-- The path of a destination. -/
def exampleDestination : ResolvedPath := ⟨"/b.md".toList, by decide⟩

/-- One source that names the destination. -/
def exampleSourceMap : SourceMap :=
  OrderedMap.empty.set exampleSource ⟨"let a = 1;".toList, [exampleDestination]⟩

/-- Every file has one tag, for that source. -/
def exampleFile : Text := "<embedex source=\"/a.ts\">\n</embedex>\n".toList

/-- A destination with a tag for its only source is updated or does not change. -/
theorem processDestination_classification_example :
    ∃ result sources,
      processDestination (fun text ↦ if h : text = [] then exampleSource else ⟨text, h⟩)
        exampleSourceMap OrderedMap.empty
        (exampleDestination, ⟨exampleFile, declaringSources exampleSourceMap exampleDestination⟩) =
          some result ∧
      (result = .noChange exampleDestination sources ∨
        ∃ updatedContent, result = .update exampleDestination sources updatedContent) ∧
      exampleSource ∈ sources := by
  obtain ⟨result, hresult, -, -, hsettled, -, -⟩ := processDestination_classification
    (fun text ↦ if h : text = [] then exampleSource else ⟨text, h⟩) (fun _ ↦ some exampleFile)
    exampleSourceMap OrderedMap.empty _ rfl exampleDestination
    ⟨exampleFile, declaringSources exampleSourceMap exampleDestination⟩ rfl rfl
  obtain ⟨sources, hcases, hsources⟩ := hsettled (by decide +kernel) (by decide +kernel)
  exact ⟨result, sources, hresult, hcases, (hsources exampleSource).mpr (by decide +kernel)⟩

end CoreUtils.Embedex
