import CoreUtils.Embedex.Classification
import CoreUtils.Embedex.Ordering

/-!
# A run over a file system

`createSourceMap` reads the files that a glob finds and keeps those that begin with a source marker.
`embed` builds the maps from the files, puts the destinations in dependency order, and processes
them one after another, so that a destination which is embedded itself has been updated by then. At
the end the updated texts are written.
-/

namespace CoreUtils.Embedex

open DirectedGraph

/-- The text of each file; a path without a file has none. -/
abbrev FileSystem := ResolvedPath → Option Text

/-! ## Sources -/

/-- The files that a marker line names. -/
def destinationsOf (resolve : Text → ResolvedPath) (markerLine : Text) : List ResolvedPath :=
  (((markerLine.drop sourceMarkerPrefix.length).splitOn ',').filter fun item ↦
      0 < item.length).map fun item ↦
    resolve (Text.trim Text.isWhiteSpace item)

/-- What a file is as a source, if its first line is a source marker. -/
def readSource (resolve : Text → ResolvedPath) (content : Text) : Option Source :=
  if hasSourceMarker content then
    some ⟨otherLines content, destinationsOf resolve (firstLine content)⟩
  else none

/-- Enter a file that has been read. -/
def addSource (resolve : Text → ResolvedPath) (sourceMap : SourceMap) (filePath : ResolvedPath)
    (content : Text) : SourceMap :=
  match readSource resolve content with
  | none => sourceMap
  | some source => sourceMap.set filePath source

/-- `createSourceMap`, given the paths that the glob finds in the order in which the files have been
read; there is no map when one of them cannot be read. -/
def createSourceMap (resolve : Text → ResolvedPath) (files : FileSystem)
    (paths : List ResolvedPath) : Option SourceMap :=
  paths.foldlM (fun sourceMap filePath ↦
    (files filePath).map (addSource resolve sourceMap filePath)) OrderedMap.empty

/-! ## Destinations -/

/-- The results for all destinations of a map. -/
def processDestinations (resolve : Text → ResolvedPath) (sourceMap : SourceMap)
    (updatedContentMap : UpdatedContentMap) (destinationMap : DestinationMap) :
    Option (List Embed) :=
  destinationMap.entries.mapM (processDestination resolve sourceMap updatedContentMap)

/-- Keep an update for the destinations that come later. -/
def trackUpdate (updatedContentMap : UpdatedContentMap) (destinationPath : ResolvedPath) :
    Embed → UpdatedContentMap
  | .update _ _ updatedContent => updatedContentMap.set destinationPath updatedContent
  | .noMatch _ | .noChange _ _ | .invalidSource _ _ | .unreferencedSource _ _
  | .circularDependency _ _ => updatedContentMap

/-- Process destinations in this order; there is no result when an error is thrown. -/
def processInOrder (resolve : Text → ResolvedPath) (sourceMap : SourceMap)
    (destinationMap : DestinationMap) :
    List ResolvedPath → UpdatedContentMap → Option (List Embed)
  | [], _ => some []
  | destinationPath :: rest, updatedContentMap =>
      match destinationMap.get destinationPath with
      | none => processInOrder resolve sourceMap destinationMap rest updatedContentMap
      | some destination =>
          match processDestinations resolve sourceMap updatedContentMap
              (OrderedMap.empty.set destinationPath destination) with
          | none => none
          | some [] => processInOrder resolve sourceMap destinationMap rest updatedContentMap
          | some (anEmbed :: _) =>
              (processInOrder resolve sourceMap destinationMap rest
                (trackUpdate updatedContentMap destinationPath anEmbed)).map (anEmbed :: ·)

/-! ## The run -/

/-- What a run returns. -/
structure EmbedResult where
  embeds : List Embed
  sources : List (ResolvedPath × List ResolvedPath)
  destinations : List (ResolvedPath × List ResolvedPath)
  deriving DecidableEq

/-- Write a file. -/
def writeFile (files : FileSystem) (path : ResolvedPath) (content : Text) : FileSystem :=
  fun other ↦ if other = path then some content else files other

/-- Write the updated texts. Each destination has one result, so that the order is of no account. -/
def writeUpdates (files : FileSystem) (embeds : List Embed) : FileSystem :=
  embeds.foldl (fun files embedResult ↦
    match embedResult with
    | .update destination _ updatedContent => writeFile files destination updatedContent
    | .noMatch _ | .noChange _ _ | .invalidSource _ _ | .unreferencedSource _ _
    | .circularDependency _ _ => files) files

/-- The bound for the search and for the loop over the queue, which no graph of the map reaches. -/
def graphBound (destinationMap : DestinationMap) : ℕ := destinationMap.size + 1

/-- The result of a run on these maps. -/
def embedResultOf (sourceMap : SourceMap) (destinationMap : DestinationMap) (embeds : List Embed) :
    EmbedResult where
  embeds := embeds
  sources := sourceMap.entries.map fun entry ↦ (entry.1, entry.2.destinations)
  destinations := destinationMap.entries.map fun entry ↦ (entry.1, entry.2.sources.keys)

/-- `embed`, given the paths that the glob finds in the order in which the files have been read:
what it returns, and the files afterwards. There is no result when it rejects. -/
def embed (resolve : Text → ResolvedPath) (write : Bool) (paths : List ResolvedPath)
    (files : FileSystem) : Option (EmbedResult × FileSystem) :=
  (createSourceMap resolve files paths).bind fun sourceMap ↦
  (createDestinationMap files sourceMap).bind fun destinationMap ↦
  let graph := buildDependencyGraph destinationMap
  match detectCircularDependency graph (graphBound destinationMap) with
  | none => none
  | some (some cycle) =>
      -- the first node of a cycle is always there
      some (embedResultOf sourceMap destinationMap (cycle.head?.map fun destination ↦
        Embed.circularDependency destination cycle).toList, files)
  | some none =>
      match topologicalSort graph (graphBound destinationMap) with
      | none | some (.error _) => none
      | some (.ok order) =>
          (processInOrder resolve sourceMap destinationMap order OrderedMap.empty).map fun embeds ↦
            (embedResultOf sourceMap destinationMap embeds,
              if write then writeUpdates files embeds else files)

/-! ## The maps of a run -/

variable {resolve : Text → ResolvedPath} {files : FileSystem} {paths order : List ResolvedPath}
  {sourceMap : SourceMap} {destinationMap : DestinationMap}
  {updatedContentMap : UpdatedContentMap}

/-- The loop over the files that have been read. -/
theorem foldlM_addSource {sourceMap₀ : SourceMap}
    (h : paths.foldlM (fun sourceMap filePath ↦
      (files filePath).map (addSource resolve sourceMap filePath)) sourceMap₀ = some sourceMap)
    (path : ResolvedPath) (source : Source) :
    sourceMap.get path = some source ↔
      (path ∈ paths ∧ (files path).bind (readSource resolve) = some source) ∨
        ((path ∈ paths → (files path).bind (readSource resolve) = none) ∧
          sourceMap₀.get path = some source) := by
  induction paths generalizing sourceMap₀ with
  | nil =>
      obtain rfl := Option.some.inj h
      simp
  | cons filePath rest ih =>
      rw [List.foldlM_cons, Option.bind_eq_bind, Option.bind_eq_some_iff] at h
      obtain ⟨sourceMap₁, hfirst, hrest⟩ := h
      obtain ⟨content, hcontent, rfl⟩ := Option.map_eq_some_iff.mp hfirst
      rw [ih hrest, addSource, List.mem_cons]
      by_cases hsame : path = filePath
      · subst hsame
        cases hread : readSource resolve content with
        | none => simp [hcontent, hread]
        | some entry => by_cases hmem : path ∈ rest <;> simp [hcontent, hread, hmem]
      · cases readSource resolve content <;> simp [hsame]

/-- The sources are the files among the paths that begin with a source marker. -/
theorem get_createSourceMap (h : createSourceMap resolve files paths = some sourceMap)
    {path : ResolvedPath} {source : Source} :
    sourceMap.get path = some source ↔
      path ∈ paths ∧ (files path).bind (readSource resolve) = some source := by
  rw [foldlM_addSource h]
  simp

/-- What a source map has for a path. -/
theorem get_createSourceMap_eq (h : createSourceMap resolve files paths = some sourceMap)
    (path : ResolvedPath) :
    sourceMap.get path =
      if path ∈ paths then (files path).bind (readSource resolve) else none := by
  refine Option.ext fun source ↦ ?_
  rw [get_createSourceMap h]
  split <;> simp [*]

/-- There is a source map exactly if all files can be read. -/
theorem createSourceMap_isSome :
    (createSourceMap resolve files paths).isSome ↔ ∀ path ∈ paths, (files path).isSome := by
  have hfold : ∀ sourceMap₀ : SourceMap, (paths.foldlM (fun sourceMap filePath ↦
      (files filePath).map (addSource resolve sourceMap filePath)) sourceMap₀).isSome ↔
        ∀ path ∈ paths, (files path).isSome := by
    induction paths with
    | nil => simp
    | cons filePath rest ih =>
        intro sourceMap₀
        rw [List.foldlM_cons, List.forall_mem_cons]
        cases hcontent : files filePath with
        | none => simp
        | some content => simpa using ih _
  exact hfold OrderedMap.empty

/-- The destinations are those that sources name. -/
theorem mem_uniqueDestinationPaths {destinationPath : ResolvedPath} :
    destinationPath ∈ (OrderedSet.ofList (sourceMap.values.flatMap Source.destinations)).keys ↔
      ∃ source, declares sourceMap destinationPath source = true := by
  rw [OrderedSet.mem_keys_ofList, List.mem_flatMap]
  constructor
  · rintro ⟨entry, hentry, hnamed⟩
    obtain ⟨source, hsource⟩ := OrderedMap.mem_values.mp hentry
    exact ⟨source, by simp [declares, hsource, hnamed]⟩
  · rintro ⟨source, hdeclares⟩
    obtain ⟨entry, hentry, hnamed⟩ := (Option.any_eq_true _ _).mp hdeclares
    exact ⟨entry, OrderedMap.mem_values.mpr ⟨source, hentry⟩, by simpa using hnamed⟩

/-- There is a destination map exactly if all destinations can be read. -/
theorem createDestinationMap_isSome :
    (createDestinationMap files sourceMap).isSome ↔
      ∀ destinationPath source, declares sourceMap destinationPath source = true →
        (files destinationPath).isSome := by
  unfold createDestinationMap
  simp only
  split
  · rename_i hread
    refine iff_of_true rfl fun destinationPath source hdeclares ↦ ?_
    exact List.all_eq_true.mp hread _ (mem_uniqueDestinationPaths.mpr ⟨source, hdeclares⟩)
  · rename_i hread
    refine iff_of_false (by simp) fun hall ↦ hread (List.all_eq_true.mpr fun path hpath ↦ ?_)
    obtain ⟨source, hdeclares⟩ := mem_uniqueDestinationPaths.mp hpath
    exact hall path source hdeclares

/-- A destination map has the destinations that sources name. -/
theorem get_createDestinationMap_isSome
    (h : createDestinationMap files sourceMap = some destinationMap)
    {destinationPath : ResolvedPath} :
    (destinationMap.get destinationPath).isSome ↔
      ∃ source, declares sourceMap destinationPath source = true := by
  unfold createDestinationMap at h
  simp only at h
  split at h
  · obtain rfl := Option.some.inj h
    rw [OrderedMap.get_mapWithKey, Option.isSome_map, ← mem_uniqueDestinationPaths,
      OrderedMap.mem_keys, Option.isSome_iff_exists]
  · contradiction

/-! ## The course of a run -/

/-- The bound is above the size of the graph. -/
theorem size_lt_graphBound (destinationMap : DestinationMap) :
    (buildDependencyGraph destinationMap).destinations.size < graphBound destinationMap := by
  rw [size_buildDependencyGraph, graphBound]
  exact Nat.lt_succ_self _

/-- A run whose destinations do not depend on each other in a cycle processes them in dependency
order. -/
theorem embed_of_acyclic (hsource : createSourceMap resolve files paths = some sourceMap)
    (hdestination : createDestinationMap files sourceMap = some destinationMap)
    (hacyclic : Acyclic (buildDependencyGraph destinationMap).DependsOn) :
    ∃ order, topologicalSort (buildDependencyGraph destinationMap) (graphBound destinationMap) =
        some (.ok order) ∧
      order.Perm destinationMap.keys ∧ SourcesFirst destinationMap order ∧
      ∀ write, embed resolve write paths files =
        (processInOrder resolve sourceMap destinationMap order OrderedMap.empty).map fun embeds ↦
          (embedResultOf sourceMap destinationMap embeds,
            if write then writeUpdates files embeds else files) := by
  have hclosed := buildDependencyGraph_closed destinationMap
  have hbound := size_lt_graphBound destinationMap
  rcases detectCircularDependency_spec hclosed hbound with ⟨cycle, -, hcycle⟩ | ⟨hdetect, -⟩
  · exact absurd hacyclic hcycle.not_acyclic
  · rcases topologicalSort_spec hclosed hbound with
      ⟨order, hsort, hperm, hsorted, -⟩ | ⟨-, hcyclic⟩
    · refine ⟨order, hsort, keys_buildDependencyGraph destinationMap ▸ hperm,
        sourcesFirst_of_sorted hsorted, fun write ↦ ?_⟩
      simp only [embed, hsource, hdestination, Option.bind_some, hdetect, hsort]
    · exact absurd hacyclic hcyclic

/-- A run whose destinations depend on each other in a cycle reports a cycle and writes nothing. -/
theorem embed_of_cyclic (hsource : createSourceMap resolve files paths = some sourceMap)
    (hdestination : createDestinationMap files sourceMap = some destinationMap)
    (hcyclic : ¬Acyclic (buildDependencyGraph destinationMap).DependsOn) (write : Bool) :
    ∃ destination cycle, embed resolve write paths files =
      some (embedResultOf sourceMap destinationMap [.circularDependency destination cycle],
        files) := by
  have hbound := size_lt_graphBound destinationMap
  rcases detectCircularDependency_spec (buildDependencyGraph_closed destinationMap) hbound with
    ⟨cycle, hdetect, hcycle⟩ | ⟨-, hacyclic⟩
  · obtain ⟨destination, rest, rfl⟩ : ∃ destination rest, cycle = destination :: rest :=
      List.exists_cons_of_length_pos (Nat.lt_of_lt_of_le Nat.two_pos hcycle.length)
    exact ⟨destination, destination :: rest, by
      simp only [embed, hsource, hdestination, Option.bind_some, hdetect]
      rfl⟩
  · exact absurd hacyclic hcyclic

/-! ## A turn -/

/-- Processing a single destination. -/
@[simp]
theorem processDestinations_singleton (destinationPath : ResolvedPath) (destination : Destination) :
    processDestinations resolve sourceMap updatedContentMap
        (OrderedMap.empty.set destinationPath destination) =
      (processDestination resolve sourceMap updatedContentMap (destinationPath, destination)).map
        fun anEmbed ↦ [anEmbed] := by
  rw [processDestinations, OrderedMap.entries_set_of_get_none (by simp)]
  cases hresult : processDestination resolve sourceMap updatedContentMap
      (destinationPath, destination) <;> simp [OrderedMap.empty, hresult]

end CoreUtils.Embedex
