import CoreUtils.Embedex.Settling

/-!
# Running once more

`StepsSettle` says of every turn of a run that the blocks are put in place, are closed at their
ends, and leave the marker line as it is. On the files that such a run has written, the next run
finds the same sources and destinations and has nothing to change (`embed_settles`).
-/

namespace CoreUtils.Embedex

open DirectedGraph

/-! ## The turns of a run -/

section

variable (resolve : Text → ResolvedPath) (sourceMap : SourceMap) (destinationMap : DestinationMap)

/-- What has been updated after the turn of a destination. -/
def afterTurn (updatedContentMap : UpdatedContentMap) (destinationPath : ResolvedPath) :
    UpdatedContentMap :=
  match destinationMap.get destinationPath with
  | none => updatedContentMap
  | some destination =>
      match processDestination resolve sourceMap updatedContentMap
          (destinationPath, destination) with
      | none => updatedContentMap
      | some anEmbed => trackUpdate updatedContentMap destinationPath anEmbed

/-- What has been updated when a run is over. -/
def updatedAtEnd (order : List ResolvedPath) : UpdatedContentMap :=
  order.foldl (afterTurn resolve sourceMap destinationMap) OrderedMap.empty

/-- A destination settles at its turn: every tag is replaced in place by a block that is closed at
its end, and the marker line of a source is kept. -/
structure StepSettles (updatedContentMap : UpdatedContentMap) (entry : ResolvedPath × Destination) :
    Prop where
  inPlace : InPlace (blockOf resolve sourceMap updatedContentMap)
    (uniqueMatches (tagsOf (destinationContent updatedContentMap entry)))
    (segments (destinationContent updatedContentMap entry))
  closes : ∀ parts ∈ tagsOf (destinationContent updatedContentMap entry),
    ClosesAtEnd ((sourceContent resolve sourceMap updatedContentMap parts.source).getD [])
      parts.source parts.blockPrefix
  marker : (sourceMap.get entry.1).isSome = true → MarkerKept resolve entry.2.content

/-- Every destination settles at its turn. -/
def StepsSettle : List ResolvedPath → UpdatedContentMap → Prop
  | [], _ => True
  | destinationPath :: rest, updatedContentMap =>
      (∀ destination ∈ destinationMap.get destinationPath,
        StepSettles resolve sourceMap updatedContentMap (destinationPath, destination)) ∧
      StepsSettle rest
        (afterTurn resolve sourceMap destinationMap updatedContentMap destinationPath)

/-- Whether a destination settles can be checked. -/
instance decidableStepSettles (updatedContentMap : UpdatedContentMap)
    (entry : ResolvedPath × Destination) :
    Decidable (StepSettles resolve sourceMap updatedContentMap entry) :=
  decidable_of_iff
    (InPlace (blockOf resolve sourceMap updatedContentMap)
        (uniqueMatches (tagsOf (destinationContent updatedContentMap entry)))
        (segments (destinationContent updatedContentMap entry)) ∧
      (∀ parts ∈ tagsOf (destinationContent updatedContentMap entry),
        ClosesAtEnd ((sourceContent resolve sourceMap updatedContentMap parts.source).getD [])
          parts.source parts.blockPrefix) ∧
      ((sourceMap.get entry.1).isSome = true → MarkerKept resolve entry.2.content))
    ⟨fun h ↦ ⟨h.1, h.2.1, h.2.2⟩, fun h ↦ ⟨h.inPlace, h.closes, h.marker⟩⟩

/-- Whether every destination settles can be checked. -/
instance decidableStepsSettle : (order : List ResolvedPath) →
    (updatedContentMap : UpdatedContentMap) →
    Decidable (StepsSettle resolve sourceMap destinationMap order updatedContentMap)
  | [], _ => isTrue trivial
  | destinationPath :: rest, updatedContentMap =>
      have := decidableStepsSettle rest
        (afterTurn resolve sourceMap destinationMap updatedContentMap destinationPath)
      inferInstanceAs (Decidable (_ ∧ _))

end

variable {resolve : Text → ResolvedPath} {sourceMap : SourceMap} {destinationMap : DestinationMap}
  {updatedContentMap : UpdatedContentMap} {order before after : List ResolvedPath}
  {embeds : List Embed} {path destinationPath : ResolvedPath} {destination : Destination}

/-- Other destinations are not updated in a turn. -/
theorem get_afterTurn_of_ne (h : path ≠ destinationPath) :
    (afterTurn resolve sourceMap destinationMap updatedContentMap destinationPath).get path =
      updatedContentMap.get path := by
  unfold afterTurn
  split
  · rfl
  · split
    · rfl
    · rename_i anEmbed _
      cases anEmbed <;> simp [trackUpdate, h]

/-- A destination is updated in its own turn only. -/
theorem get_foldl_afterTurn (h : path ∉ order) :
    (order.foldl (afterTurn resolve sourceMap destinationMap) updatedContentMap).get path =
      updatedContentMap.get path := by
  induction order generalizing updatedContentMap with
  | nil => rfl
  | cons other rest ih =>
      rw [List.mem_cons, not_or] at h
      rw [List.foldl_cons, ih h.2, get_afterTurn_of_ne h.1]

/-- Destinations settle at their turns after other destinations. -/
theorem StepsSettle.of_append
    (h : StepsSettle resolve sourceMap destinationMap (before ++ after) updatedContentMap) :
    StepsSettle resolve sourceMap destinationMap after
      (before.foldl (afterTurn resolve sourceMap destinationMap) updatedContentMap) := by
  induction before generalizing updatedContentMap with
  | nil => exact h
  | cons other rest ih => exact ih h.2

/-- The first turn of a run. -/
theorem processInOrder_cons
    (hget : destinationMap.get destinationPath = some destination)
    (h : processInOrder resolve sourceMap destinationMap (destinationPath :: after)
      updatedContentMap = some embeds) :
    ∃ anEmbed embeds', embeds = anEmbed :: embeds' ∧
      processDestination resolve sourceMap updatedContentMap (destinationPath, destination) =
        some anEmbed ∧
      afterTurn resolve sourceMap destinationMap updatedContentMap destinationPath =
        trackUpdate updatedContentMap destinationPath anEmbed ∧
      processInOrder resolve sourceMap destinationMap after
        (trackUpdate updatedContentMap destinationPath anEmbed) = some embeds' := by
  rw [processInOrder, hget] at h
  simp only [processDestinations_singleton] at h
  cases hresult : processDestination resolve sourceMap updatedContentMap
      (destinationPath, destination) with
  | none => simp [hresult] at h
  | some anEmbed =>
      rw [hresult] at h
      obtain ⟨embeds', hrest, rfl⟩ := Option.map_eq_some_iff.mp h
      exact ⟨anEmbed, embeds', rfl, rfl, by simp [afterTurn, hget, hresult], hrest⟩

/-- The text that a result updates a destination to. -/
def Embed.updated : Embed → Option Text
  | .update _ _ updatedContent => some updatedContent
  | .noMatch _ | .noChange _ _ | .invalidSource _ _ | .unreferencedSource _ _
  | .circularDependency _ _ => none

/-- The updated text is the content afterwards. -/
theorem Embed.contentAfter_of_updated {anEmbed : Embed} {final : Text}
    (h : anEmbed.updated = some final) (content : Text) :
    anEmbed.contentAfter content = some final := by
  cases anEmbed with
  | update other sources updatedContent => exact h
  | noMatch | noChange | invalidSource | unreferencedSource | circularDependency => contradiction

/-- What is known of a destination after its result. -/
theorem get_trackUpdate_self (anEmbed : Embed) :
    (trackUpdate updatedContentMap destinationPath anEmbed).get destinationPath =
      anEmbed.updated.or (updatedContentMap.get destinationPath) := by
  cases anEmbed <;> simp [trackUpdate, Embed.updated]

/-- A destination of a run is processed in its turn, and its result is one of those of the run. -/
theorem processInOrder_append
    (hknown : ∀ path ∈ before ++ after, (destinationMap.get path).isSome)
    (h : processInOrder resolve sourceMap destinationMap (before ++ after) updatedContentMap =
      some embeds) :
    ∃ embeds', embeds' <:+ embeds ∧ processInOrder resolve sourceMap destinationMap after
      (before.foldl (afterTurn resolve sourceMap destinationMap) updatedContentMap) =
        some embeds' := by
  induction before generalizing updatedContentMap embeds with
  | nil => exact ⟨embeds, List.suffix_refl _, h⟩
  | cons other rest ih =>
      obtain ⟨destination, hget⟩ := Option.isSome_iff_exists.mp (hknown other (by simp))
      obtain ⟨anEmbed, embeds', rfl, -, hafter, hrest⟩ := processInOrder_cons hget h
      rw [← hafter] at hrest
      obtain ⟨embeds'', hsuffix, hlast⟩ :=
        ih (fun path hpath ↦ hknown path (List.mem_cons_of_mem _ hpath)) hrest
      exact ⟨embeds'', hsuffix.trans (List.suffix_cons _ _), hlast⟩

/-- The turn of a destination in a run with these results, which has updated `final` when it is
over. -/
structure Turn (resolve : Text → ResolvedPath) (sourceMap : SourceMap) (final : UpdatedContentMap)
    (embeds : List Embed) (after : List ResolvedPath) (entry : ResolvedPath × Destination)
    (updatedContentMap : UpdatedContentMap) (anEmbed : Embed) : Prop where
  processed : processDestination resolve sourceMap updatedContentMap entry = some anEmbed
  result : anEmbed ∈ embeds
  settles : StepSettles resolve sourceMap updatedContentMap entry
  fresh : updatedContentMap.get entry.1 = none
  updated : OrderedMap.get final entry.1 = anEmbed.updated
  others : ∀ path, path ∉ entry.1 :: after →
    updatedContentMap.get path = OrderedMap.get final path

/-- The content of a destination has not been updated before its turn. -/
theorem Turn.content {final : UpdatedContentMap} {entry : ResolvedPath × Destination}
    {anEmbed : Embed}
    (h : Turn resolve sourceMap final embeds after entry updatedContentMap anEmbed) :
    destinationContent updatedContentMap entry = normalizeNewlines entry.2.content := by
  rw [destinationContent, h.fresh]

/-- Every destination of a run has a turn. -/
theorem exists_turn (hnodup : (before ++ destinationPath :: after).Nodup)
    (hknown : ∀ path ∈ before ++ destinationPath :: after, (destinationMap.get path).isSome)
    (hsettle : StepsSettle resolve sourceMap destinationMap (before ++ destinationPath :: after)
      OrderedMap.empty)
    (h : processInOrder resolve sourceMap destinationMap (before ++ destinationPath :: after)
      OrderedMap.empty = some embeds)
    (hget : destinationMap.get destinationPath = some destination) :
    ∃ updatedContentMap anEmbed, Turn resolve sourceMap
      (updatedAtEnd resolve sourceMap destinationMap (before ++ destinationPath :: after)) embeds
      after (destinationPath, destination) updatedContentMap anEmbed := by
  obtain ⟨embeds', hsuffix, hturn⟩ := processInOrder_append hknown h
  obtain ⟨anEmbed, rest, rfl, hprocessed, hafter, -⟩ := processInOrder_cons hget hturn
  have hnew := (List.nodup_append.mp hnodup).2.2
  have hbefore : destinationPath ∉ before :=
    fun hmem ↦ hnew _ hmem _ List.mem_cons_self rfl
  have hlater : destinationPath ∉ after :=
    (List.nodup_cons.mp (List.nodup_append.mp hnodup).2.1).1
  have hfresh : (before.foldl (afterTurn resolve sourceMap destinationMap)
      (OrderedMap.empty : UpdatedContentMap)).get destinationPath = none := by
    rw [get_foldl_afterTurn hbefore, OrderedMap.get_empty]
  refine ⟨_, anEmbed, hprocessed, hsuffix.mem List.mem_cons_self,
    hsettle.of_append.1 destination hget, hfresh, ?_, fun path hpath ↦ ?_⟩
  · rw [updatedAtEnd, List.foldl_append, List.foldl_cons, get_foldl_afterTurn hlater, hafter,
      get_trackUpdate_self, hfresh, Option.or_none]
  · rw [updatedAtEnd, List.foldl_append, get_foldl_afterTurn hpath]

/-! ## The files after a run -/

variable {files : FileSystem}

/-- An update is for the destination that is processed. -/
theorem updated_destination {entry : ResolvedPath × Destination} {other : ResolvedPath}
    {sources : List ResolvedPath} {updatedContent : Text}
    (h : processDestination resolve sourceMap updatedContentMap entry =
      some (.update other sources updatedContent)) : other = entry.1 := by
  rw [processDestination_of_tagged (tagged_of_processDestination h rfl)] at h
  obtain ⟨updated, -, hresult⟩ := Option.map_eq_some_iff.mp h
  simp only at hresult
  split at hresult
  · contradiction
  · exact (Embed.update.inj hresult).1.symm

/-- The results of a run write what has been updated when it is over. -/
theorem writeUpdates_eq (hnodup : order.Nodup)
    (hknown : ∀ path ∈ order, (destinationMap.get path).isSome)
    (h : processInOrder resolve sourceMap destinationMap order updatedContentMap = some embeds)
    (hfiles : ∀ path content, updatedContentMap.get path = some content →
      files path = some content) (path : ResolvedPath) :
    writeUpdates files embeds path =
      ((order.foldl (afterTurn resolve sourceMap destinationMap) updatedContentMap).get path).or
        (files path) := by
  induction order generalizing updatedContentMap embeds files with
  | nil =>
      obtain rfl := Option.some.inj h
      rw [List.foldl_nil]
      cases hget : updatedContentMap.get path with
      | none => rfl
      | some content => exact hfiles path content hget
  | cons destinationPath rest ih =>
      obtain ⟨destination, hget⟩ := Option.isSome_iff_exists.mp (hknown destinationPath (by simp))
      obtain ⟨anEmbed, embeds', rfl, hprocessed, hafter, hrest⟩ := processInOrder_cons hget h
      have hknown' : ∀ path ∈ rest, (destinationMap.get path).isSome :=
        fun path hpath ↦ hknown path (List.mem_cons_of_mem _ hpath)
      obtain ⟨hnew, hnodup'⟩ := List.nodup_cons.mp hnodup
      rw [List.foldl_cons, hafter]
      cases anEmbed with
      | noMatch | noChange | invalidSource | unreferencedSource | circularDependency =>
          show writeUpdates files embeds' path = _
          exact ih hnodup' hknown' hrest hfiles
      | update other sources updatedContent =>
          obtain rfl := updated_destination hprocessed
          show writeUpdates (writeFile files other updatedContent) embeds' path = _
          have hwritten : ∀ path content,
              (trackUpdate updatedContentMap other
                (.update other sources updatedContent)).get path = some content →
              writeFile files other updatedContent path = some content := by
            intro path content hcontent
            by_cases hsame : path = other
            · subst hsame
              simpa [trackUpdate, writeFile] using hcontent
            · have hother : updatedContentMap.get path = some content := by
                simpa [trackUpdate, hsame] using hcontent
              rw [writeFile, if_neg hsame, hfiles path content hother]
          rw [ih hnodup' hknown' hrest hwritten]
          by_cases hsame : path = other
          · subst hsame
            rw [get_foldl_afterTurn hnew]
            simp [trackUpdate]
          · rw [writeFile, if_neg hsame]

/-! ## What a run leaves as it is -/

/-- Whether a result is an update or no change. -/
def Embed.succeeded : Embed → Bool
  | .noChange _ _ | .update _ _ _ => true
  | .noMatch _ | .invalidSource _ _ | .unreferencedSource _ _ | .circularDependency _ _ => false

/-- A run that has only updates and unchanged destinations, each of which settles at its turn. -/
structure SettledRun (resolve : Text → ResolvedPath) (paths : List ResolvedPath)
    (files : FileSystem) (sourceMap : SourceMap) (destinationMap : DestinationMap)
    (order : List ResolvedPath) (embeds : List Embed) : Prop where
  sources : createSourceMap resolve files paths = some sourceMap
  destinations : createDestinationMap files sourceMap = some destinationMap
  perm : order.Perm destinationMap.keys
  sourcesFirst : SourcesFirst destinationMap order
  processed : processInOrder resolve sourceMap destinationMap order OrderedMap.empty = some embeds
  settles : StepsSettle resolve sourceMap destinationMap order OrderedMap.empty
  succeeded : ∀ anEmbed ∈ embeds, anEmbed.succeeded = true

section

variable {paths : List ResolvedPath}
  (run : SettledRun resolve paths files sourceMap destinationMap order embeds)

include run

/-- The destinations are in the order. -/
theorem SettledRun.mem_order : path ∈ order ↔ (destinationMap.get path).isSome := by
  rw [run.perm.mem_iff, OrderedMap.mem_keys, Option.isSome_iff_exists]

/-- A destination has a turn. -/
theorem SettledRun.exists_turn (hget : destinationMap.get destinationPath = some destination) :
    ∃ before after updatedContentMap anEmbed, order = before ++ destinationPath :: after ∧
      Turn resolve sourceMap (updatedAtEnd resolve sourceMap destinationMap order) embeds after
        (destinationPath, destination) updatedContentMap anEmbed := by
  obtain ⟨before, after, rfl⟩ :=
    List.append_of_mem (run.mem_order.mpr (by rw [hget]; rfl : (destinationMap.get _).isSome))
  obtain ⟨updatedContentMap, anEmbed, hturn⟩ := Embedex.exists_turn
    (run.perm.nodup_iff.mpr destinationMap.nodup) (fun path hpath ↦ run.mem_order.mp hpath)
    run.settles run.processed hget
  exact ⟨before, after, updatedContentMap, anEmbed, rfl, hturn⟩

/-- The files after the run. -/
theorem SettledRun.files_eq (path : ResolvedPath) :
    writeUpdates files embeds path =
      ((updatedAtEnd resolve sourceMap destinationMap order).get path).or (files path) :=
  writeUpdates_eq (run.perm.nodup_iff.mpr destinationMap.nodup)
    (fun _ hpath ↦ run.mem_order.mp hpath) run.processed (by simp) path

/-- What is written in the place of a destination. -/
theorem SettledRun.written {final : Text}
    (hfinal : (updatedAtEnd resolve sourceMap destinationMap order).get path = some final) :
    ∃ destination updatedContentMap, destinationMap.get path = some destination ∧
      StepSettles resolve sourceMap updatedContentMap (path, destination) ∧
      final = (segments (normalizeNewlines destination.content)).flatMap
        (replacedText (blockOf resolve sourceMap updatedContentMap)) ∧
      ∀ parts ∈ tagsOf (normalizeNewlines destination.content),
        (renderTag resolve sourceMap updatedContentMap parts).isSome := by
  have hmem : path ∈ order := by
    by_contra hnot
    rw [updatedAtEnd, get_foldl_afterTurn hnot] at hfinal
    simp at hfinal
  obtain ⟨destination, hget⟩ := Option.isSome_iff_exists.mp (run.mem_order.mp hmem)
  obtain ⟨_, _, updatedContentMap, anEmbed, -, hturn⟩ := run.exists_turn hget
  have hcontent := hturn.content
  have hloop := processDestination_loop hturn.processed
    (Embed.contentAfter_of_updated (hturn.updated.symm.trans hfinal) _)
  obtain ⟨hwritten, hrendered⟩ := replaceMatches_content hloop hturn.settles.inPlace
  rw [hcontent] at hwritten hrendered
  exact ⟨destination, updatedContentMap, hget, hturn.settles, hwritten, hrendered⟩

/-- Only files that are there are written. -/
theorem SettledRun.isSome_files (path : ResolvedPath) :
    (writeUpdates files embeds path).isSome = (files path).isSome := by
  rw [run.files_eq]
  cases hfinal : (updatedAtEnd resolve sourceMap destinationMap order).get path with
  | none => rfl
  | some final =>
      obtain ⟨destination, -, hget, -⟩ := run.written hfinal
      rw [(get_createDestinationMap run.destinations hget).1]
      rfl

/-- A file that has been read is a source for the same destinations after the run. -/
theorem SettledRun.readSource_eq (hpath : path ∈ paths) :
    ((writeUpdates files embeds path).bind (readSource resolve)).map Source.destinations =
      ((files path).bind (readSource resolve)).map Source.destinations := by
  rw [run.files_eq]
  cases hfinal : (updatedAtEnd resolve sourceMap destinationMap order).get path with
  | none => rfl
  | some final =>
      obtain ⟨destination, updatedContentMap, hget, hsettles, hwritten, hrendered⟩ :=
        run.written hfinal
      have hcontent := (get_createDestinationMap run.destinations hget).1
      rw [hcontent]
      refine readSource_written hwritten hrendered fun hmarker ↦ hsettles.marker ?_
      have hsource : (files path).bind (readSource resolve) =
          some ⟨otherLines destination.content,
            destinationsOf resolve (firstLine destination.content)⟩ := by
        rw [hcontent, Option.bind_some, readSource, if_pos hmarker]
      rw [(get_createSourceMap run.sources).mpr ⟨hpath, hsource⟩]
      rfl

/-! ## The maps of the next run -/

section

variable {paths' : List ResolvedPath} {sourceMap' : SourceMap} {destinationMap' : DestinationMap}
  (hpaths : ∀ path, path ∈ paths' ↔ path ∈ paths)
  (hsource : createSourceMap resolve (writeUpdates files embeds) paths' = some sourceMap')

include hpaths hsource

/-- The sources name the same destinations. -/
theorem SettledRun.get_destinations (path : ResolvedPath) :
    (sourceMap'.get path).map Source.destinations =
      (sourceMap.get path).map Source.destinations := by
  rw [get_createSourceMap_eq hsource, get_createSourceMap_eq run.sources]
  simp only [hpaths]
  split
  · rename_i hpath
    exact run.readSource_eq hpath
  · rfl

/-- The same sources name a destination. -/
theorem SettledRun.declares_eq (destinationPath source : ResolvedPath) :
    declares sourceMap' destinationPath source = declares sourceMap destinationPath source := by
  have hsame := run.get_destinations hpaths hsource source
  have hany : ∀ entry : Option Source,
      entry.any (fun entry ↦ entry.destinations.contains destinationPath) =
        (entry.map Source.destinations).any fun destinations ↦
          destinations.contains destinationPath := by
    intro entry
    cases entry <;> rfl
  rw [declares, declares, hany, hany, hsame]

/-- The text of a source is what it was at the turn of its destination. -/
theorem SettledRun.sourceContent_eq {before after : List ResolvedPath} {anEmbed : Embed}
    (horder : order = before ++ destinationPath :: after)
    (hget : destinationMap.get destinationPath = some destination)
    (hturn : Turn resolve sourceMap (updatedAtEnd resolve sourceMap destinationMap order) embeds
      after (destinationPath, destination) updatedContentMap anEmbed)
    {sourcePath : Text}
    (hdeclares : declares sourceMap destinationPath (resolve sourcePath) = true) :
    sourceContent resolve sourceMap' OrderedMap.empty sourcePath =
      sourceContent resolve sourceMap updatedContentMap sourcePath := by
  obtain ⟨-, hsources, -⟩ := get_createDestinationMap run.destinations hget
  have hhas : destination.sources.has (resolve sourcePath) = true := by
    rw [hsources, has_declaringSources, hdeclares]
  -- a source that is a destination has had its turn
  have hnot : resolve sourcePath ∉ destinationPath :: after := by
    intro hmem
    have hboth : (destinationMap.get (resolve sourcePath)).isSome :=
      run.mem_order.mp (by rw [horder]; exact List.mem_append_right _ hmem)
    obtain ⟨_, hsource⟩ := Option.isSome_iff_exists.mp hhas
    have hbefore := run.sourcesFirst before destinationPath after horder destination _ hget hsource
      hboth
    have hnodup := run.perm.nodup_iff.mpr destinationMap.nodup
    rw [horder, List.nodup_append] at hnodup
    exact hnodup.2.2 _ hbefore _ hmem rfl
  rw [sourceContent, sourceContent, OrderedMap.get_empty, hturn.others _ hnot]
  cases hfinal : (updatedAtEnd resolve sourceMap destinationMap order).get (resolve sourcePath) with
  | none =>
      have hfiles := run.files_eq (resolve sourcePath)
      rw [hfinal, Option.none_or] at hfiles
      simp only [get_createSourceMap_eq hsource, get_createSourceMap_eq run.sources, hpaths, hfiles]
  | some final =>
      rw [← run.declares_eq hpaths hsource] at hdeclares
      obtain ⟨source, hentry⟩ := Option.isSome_iff_exists.mp (get_isSome_of_declares hdeclares)
      obtain ⟨-, hread⟩ := (get_createSourceMap hsource).mp hentry
      rw [run.files_eq, hfinal, Option.some_or, Option.bind_some, readSource] at hread
      split at hread
      · rename_i hmarker
        obtain rfl := Option.some.inj hread
        simp only [hentry, Option.map_some, stripSourceMarker, if_pos hmarker]
      · contradiction

/-- A destination of the next run is one of the run, with its files and its sources. -/
theorem SettledRun.destination_eq {destination' : Destination}
    (hdestination : createDestinationMap (writeUpdates files embeds) sourceMap' =
      some destinationMap')
    (hget : destinationMap'.get destinationPath = some destination') :
    ∃ destination, destinationMap.get destinationPath = some destination ∧
      writeUpdates files embeds destinationPath = some destination'.content ∧
      files destinationPath = some destination.content ∧
      (∀ source, destination'.sources.has source = destination.sources.has source) ∧
      ∀ source, destination.sources.has source = declares sourceMap destinationPath source := by
  obtain ⟨hcontent', hsources', source, -, hdeclares⟩ := get_createDestinationMap hdestination hget
  rw [run.declares_eq hpaths hsource] at hdeclares
  obtain ⟨destination, hdest⟩ := Option.isSome_iff_exists.mp
    ((get_createDestinationMap_isSome run.destinations).mpr ⟨source, hdeclares⟩)
  obtain ⟨hcontent, hsources, -⟩ := get_createDestinationMap run.destinations hdest
  refine ⟨destination, hdest, hcontent', hcontent, fun other ↦ ?_, fun other ↦ ?_⟩
  · rw [hsources', hsources, has_declaringSources, has_declaringSources,
      run.declares_eq hpaths hsource]
  · rw [hsources, has_declaringSources]

/-- A destination does not change in the next run. -/
theorem SettledRun.processDestination_eq {destination' : Destination}
    (hdestination : createDestinationMap (writeUpdates files embeds) sourceMap' =
      some destinationMap')
    (hget : destinationMap'.get destinationPath = some destination') :
    ∃ sources, processDestination resolve sourceMap' OrderedMap.empty
      (destinationPath, destination') = some (.noChange destinationPath sources) := by
  obtain ⟨destination, hget, hcontent', hcontent, hsources, hdeclared⟩ :=
    run.destination_eq hpaths hsource hdestination hget
  obtain ⟨before, after, updatedContentMap, anEmbed, horder, hturn⟩ := run.exists_turn hget
  have hsame : ∀ sourcePath, destination.sources.has (resolve sourcePath) = true →
      sourceContent resolve sourceMap' OrderedMap.empty sourcePath =
        sourceContent resolve sourceMap updatedContentMap sourcePath :=
    fun sourcePath hhas ↦ run.sourceContent_eq hpaths hsource horder hget hturn
      ((hdeclared _).symm.trans hhas)
  have hfiles := run.files_eq destinationPath
  rw [hcontent', hcontent, hturn.updated] at hfiles
  have hprocessed := hturn.processed
  have hsucceeded := run.succeeded anEmbed hturn.result
  cases anEmbed with
  | noMatch | invalidSource | unreferencedSource | circularDependency => contradiction
  | noChange other sources =>
      obtain hkept : destination'.content = destination.content := Option.some.inj hfiles
      refine processDestination_unchanged hprocessed ?_ hsources hsame
      rw [hturn.content, destinationContent, OrderedMap.get_empty]
      exact congrArg _ hkept
  | update other sources final =>
      obtain hwritten : destination'.content = final := Option.some.inj hfiles
      refine processDestination_written hprocessed rfl hturn.settles.inPlace hturn.settles.closes ?_
        hsources hsame
      rw [destinationContent, OrderedMap.get_empty]
      exact congrArg _ hwritten

/-- The destinations of the next run do not depend on each other in a cycle either. -/
theorem SettledRun.acyclic
    (hdestination : createDestinationMap (writeUpdates files embeds) sourceMap' =
      some destinationMap')
    (h : Acyclic (buildDependencyGraph destinationMap).DependsOn) :
    Acyclic (buildDependencyGraph destinationMap').DependsOn := by
  refine fun a hcycle ↦ h a (Relation.TransGen.mono (fun b c hdepends ↦ ?_) a a hcycle)
  rw [dependsOn_buildDependencyGraph] at hdepends ⊢
  obtain ⟨⟨destination', hget', hsource'⟩, hboth⟩ := hdepends
  obtain ⟨destination, hget, -, -, hsources, -⟩ :=
    run.destination_eq hpaths hsource hdestination hget'
  refine ⟨⟨destination, hget, ?_⟩, ?_⟩
  · have hhas := hsources c
    rw [OrderedMap.has_eq, OrderedMap.has_eq, hsource'] at hhas
    obtain ⟨_, hmem⟩ := Option.isSome_iff_exists.mp hhas.symm
    exact hmem
  · obtain ⟨_, hother'⟩ := Option.isSome_iff_exists.mp hboth
    obtain ⟨_, hother, -⟩ := run.destination_eq hpaths hsource hdestination hother'
    rw [hother]
    rfl

/-- The next run has the same destinations. -/
theorem SettledRun.keys_perm
    (hdestination : createDestinationMap (writeUpdates files embeds) sourceMap' =
      some destinationMap') :
    destinationMap'.keys.Perm destinationMap.keys := by
  refine (List.perm_ext_iff_of_nodup destinationMap'.nodup destinationMap.nodup).mpr fun path ↦ ?_
  show path ∈ destinationMap'.keys ↔ path ∈ destinationMap.keys
  rw [OrderedMap.mem_keys, OrderedMap.mem_keys, ← Option.isSome_iff_exists,
    ← Option.isSome_iff_exists, get_createDestinationMap_isSome hdestination,
    get_createDestinationMap_isSome run.destinations]
  simp only [run.declares_eq hpaths hsource]

end

/-- The next run has its maps. -/
theorem SettledRun.exists_maps {paths' : List ResolvedPath}
    (hpaths : ∀ path, path ∈ paths' ↔ path ∈ paths) :
    ∃ sourceMap' destinationMap',
      createSourceMap resolve (writeUpdates files embeds) paths' = some sourceMap' ∧
      createDestinationMap (writeUpdates files embeds) sourceMap' = some destinationMap' := by
  have hread : (createSourceMap resolve (writeUpdates files embeds) paths').isSome := by
    refine createSourceMap_isSome.mpr fun path hpath ↦ ?_
    rw [run.isSome_files]
    exact createSourceMap_isSome.mp (by rw [run.sources]; rfl) path ((hpaths path).mp hpath)
  obtain ⟨sourceMap', hsource⟩ := Option.isSome_iff_exists.mp hread
  have hdestinations : (createDestinationMap (writeUpdates files embeds) sourceMap').isSome := by
    refine createDestinationMap_isSome.mpr fun destinationPath source hdeclares ↦ ?_
    rw [run.declares_eq hpaths hsource] at hdeclares
    rw [run.isSome_files]
    exact createDestinationMap_isSome.mp (by rw [run.destinations]; rfl) destinationPath source
      hdeclares
  obtain ⟨destinationMap', hdestination⟩ := Option.isSome_iff_exists.mp hdestinations
  exact ⟨sourceMap', destinationMap', hsource, hdestination⟩

end

/-! ## The next run -/

/-- Destinations that do not change leave nothing for later destinations. -/
theorem processInOrder_noChange {sources : ResolvedPath → List ResolvedPath}
    (h : ∀ path ∈ order, ∃ destination, destinationMap.get path = some destination ∧
      processDestination resolve sourceMap updatedContentMap (path, destination) =
        some (.noChange path (sources path))) :
    processInOrder resolve sourceMap destinationMap order updatedContentMap =
      some (order.map fun path ↦ .noChange path (sources path)) := by
  induction order with
  | nil => rfl
  | cons destinationPath rest ih =>
      obtain ⟨destination, hget, hprocessed⟩ := h destinationPath List.mem_cons_self
      rw [processInOrder, hget]
      simp only [processDestinations_singleton, hprocessed, Option.map_some, trackUpdate]
      rw [ih fun path hpath ↦ h path (List.mem_cons_of_mem _ hpath)]
      rfl

/-- Destinations that do not change are not written. -/
theorem writeUpdates_noChange (files : FileSystem) (order : List ResolvedPath)
    (sources : ResolvedPath → List ResolvedPath) :
    writeUpdates files (order.map fun path ↦ .noChange path (sources path)) = files := by
  induction order with
  | nil => rfl
  | cons destinationPath rest ih => exact ih

/-- Every destination of a run settles at its turn. -/
def RunSettles (resolve : Text → ResolvedPath) (paths : List ResolvedPath) (files : FileSystem) :
    Prop :=
  ∀ sourceMap ∈ createSourceMap resolve files paths,
    ∀ destinationMap ∈ createDestinationMap files sourceMap,
      ∀ order ∈ (topologicalSort (buildDependencyGraph destinationMap)
          (graphBound destinationMap)).bind Except.toOption,
        StepsSettle resolve sourceMap destinationMap order OrderedMap.empty

/-- Whether a run settles can be checked. -/
instance decidableRunSettles (resolve : Text → ResolvedPath) (paths : List ResolvedPath)
    (files : FileSystem) : Decidable (RunSettles resolve paths files) :=
  inferInstanceAs (Decidable (∀ sourceMap ∈ createSourceMap resolve files paths,
    ∀ destinationMap ∈ createDestinationMap files sourceMap,
      ∀ order ∈ (topologicalSort (buildDependencyGraph destinationMap)
          (graphBound destinationMap)).bind Except.toOption,
        StepsSettle resolve sourceMap destinationMap order OrderedMap.empty))

/-- A run that has only updates and unchanged destinations is a settled run, if every destination
settles at its turn. -/
theorem settledRun_of_embed {paths : List ResolvedPath} {result : EmbedResult} {files' : FileSystem}
    (hrun : embed resolve true paths files = some (result, files'))
    (hsucceeded : ∀ anEmbed ∈ result.embeds, anEmbed.succeeded = true)
    (hsettles : RunSettles resolve paths files) :
    ∃ sourceMap destinationMap order embeds,
      SettledRun resolve paths files sourceMap destinationMap order embeds ∧
      Acyclic (buildDependencyGraph destinationMap).DependsOn ∧
      result.destinations.map Prod.fst = destinationMap.keys ∧
      files' = writeUpdates files embeds := by
  obtain ⟨sourceMap, hsource, hrest⟩ := Option.bind_eq_some_iff.mp hrun
  obtain ⟨destinationMap, hdestination, -⟩ := Option.bind_eq_some_iff.mp hrest
  by_cases hacyclic : Acyclic (buildDependencyGraph destinationMap).DependsOn
  · obtain ⟨order, hsort, hperm, hfirst, hembed⟩ :=
      embed_of_acyclic hsource hdestination hacyclic
    rw [hembed true] at hrun
    obtain ⟨embeds, hembeds, heq⟩ := Option.map_eq_some_iff.mp hrun
    obtain ⟨rfl, rfl⟩ := Prod.mk.inj heq
    have hsteps := hsettles sourceMap hsource destinationMap hdestination order (by
      rw [hsort]
      rfl)
    refine ⟨sourceMap, destinationMap, order, embeds,
      ⟨hsource, hdestination, hperm, hfirst, hembeds, hsteps, hsucceeded⟩, hacyclic, ?_, rfl⟩
    simp [embedResultOf, OrderedMap.keys, Function.comp_def]
  · -- a cycle is no success
    obtain ⟨destination, cycle, hcycle⟩ := embed_of_cyclic hsource hdestination hacyclic true
    obtain ⟨rfl, -⟩ := Prod.mk.inj (Option.some.inj (hrun.symm.trans hcycle))
    have hfailed := hsucceeded (.circularDependency destination cycle) (by simp [embedResultOf])
    contradiction

/-- A run keeps the set of the files that there are, so that the glob finds the same ones. -/
theorem mem_paths_of_globs {glob : (ResolvedPath → Bool) → List ResolvedPath}
    {paths paths' : List ResolvedPath} {result : EmbedResult} {files' : FileSystem}
    (hrun : embed resolve true paths files = some (result, files'))
    (hsucceeded : ∀ anEmbed ∈ result.embeds, anEmbed.succeeded = true)
    (hsettles : RunSettles resolve paths files)
    (hglob : paths.Perm (glob fun path ↦ (files path).isSome))
    (hglob' : paths'.Perm (glob fun path ↦ (files' path).isSome)) (path : ResolvedPath) :
    path ∈ paths' ↔ path ∈ paths := by
  obtain ⟨_, _, _, _, run, -, -, rfl⟩ := settledRun_of_embed hrun hsucceeded hsettles
  simp only [run.isSome_files] at hglob'
  exact (hglob'.trans hglob.symm).mem_iff

/-- The next run over the same paths reports each destination once, as unchanged. -/
theorem embed_again {paths paths' : List ResolvedPath} {result : EmbedResult}
    {files' : FileSystem} (hrun : embed resolve true paths files = some (result, files'))
    (hsucceeded : ∀ anEmbed ∈ result.embeds, anEmbed.succeeded = true)
    (hsettles : RunSettles resolve paths files) (hpaths : ∀ path, path ∈ paths' ↔ path ∈ paths)
    (write : Bool) :
    ∃ (result' : EmbedResult) (order : List ResolvedPath)
        (sources : ResolvedPath → List ResolvedPath),
      embed resolve write paths' files' = some (result', files') ∧
      result'.embeds = order.map (fun path ↦ .noChange path (sources path)) ∧
      order.Perm (result.destinations.map Prod.fst) := by
  obtain ⟨sourceMap, destinationMap, _, embeds, run, hacyclic, hkeys, rfl⟩ :=
    settledRun_of_embed hrun hsucceeded hsettles
  obtain ⟨sourceMap', destinationMap', hsource, hdestination⟩ := run.exists_maps hpaths
  obtain ⟨order, -, hperm, -, hembed⟩ := embed_of_acyclic hsource hdestination
    (run.acyclic hpaths hsource hdestination hacyclic)
  have hturns : ∀ path, ∃ sources, path ∈ order → ∃ destination,
      destinationMap'.get path = some destination ∧
      processDestination resolve sourceMap' OrderedMap.empty (path, destination) =
        some (.noChange path sources) := by
    intro path
    by_cases hpath : path ∈ order
    · obtain ⟨destination, hget⟩ := OrderedMap.mem_keys.mp (hperm.mem_iff.mp hpath)
      obtain ⟨sources, hprocessed⟩ :=
        run.processDestination_eq hpaths hsource hdestination hget
      exact ⟨sources, fun _ ↦ ⟨destination, hget, hprocessed⟩⟩
    · exact ⟨[], fun hmem ↦ absurd hmem hpath⟩
  choose sources hsources using hturns
  refine ⟨embedResultOf sourceMap' destinationMap'
    (order.map fun path ↦ .noChange path (sources path)), order, sources, ?_, rfl, ?_⟩
  · rw [hembed write, processInOrder_noChange hsources]
    simp only [Option.map_some, writeUpdates_noChange, ite_self]
  · exact (hperm.trans (run.keys_perm hpaths hsource hdestination)).trans (.of_eq hkeys.symm)

/-- `processResult`: whether the output for a result is an error, which makes the program exit with
a code other than zero. -/
def Embed.isError (check : Bool) : Embed → Bool
  | .invalidSource _ _ | .unreferencedSource _ _ | .circularDependency _ _ => true
  | .noMatch _ => true
  | .update _ _ _ => check
  | .noChange _ _ => false

/-- After a run over any files that has only updates and unchanged destinations, and in which every
destination settles at its turn, the next run over the files that the glob finds then reports each
destination once, as unchanged, writes nothing, and passes the check. -/
theorem embed_settles (resolve : Text → ResolvedPath)
    (glob : (ResolvedPath → Bool) → List ResolvedPath) (files files' : FileSystem)
    (paths paths' : List ResolvedPath) (result : EmbedResult)
    (hglob : paths.Perm (glob fun path ↦ (files path).isSome))
    (hrun : embed resolve true paths files = some (result, files'))
    (hsucceeded : ∀ anEmbed ∈ result.embeds, anEmbed.succeeded = true)
    (hsettles : RunSettles resolve paths files)
    (hglob' : paths'.Perm (glob fun path ↦ (files' path).isSome)) (write : Bool) :
    ∃ (result' : EmbedResult) (order : List ResolvedPath)
        (sources : ResolvedPath → List ResolvedPath),
      embed resolve write paths' files' = some (result', files') ∧
      result'.embeds = order.map (fun path ↦ .noChange path (sources path)) ∧
      order.Perm (result.destinations.map Prod.fst) ∧
      ∀ anEmbed ∈ result'.embeds, anEmbed.isError true = false := by
  have hpaths := mem_paths_of_globs hrun hsucceeded hsettles hglob hglob'
  obtain ⟨result', order, sources, hagain, hembeds, hperm⟩ :=
    embed_again hrun hsucceeded hsettles hpaths write
  refine ⟨result', order, sources, hagain, hembeds, hperm, fun anEmbed hmem ↦ ?_⟩
  rw [hembeds] at hmem
  obtain ⟨path, -, rfl⟩ := List.mem_map.mp hmem
  rfl

/-! ## Examples -/

/-- Files below the root directory with these names and texts. -/
def filesBelowRoot (entries : List (String × String)) : FileSystem :=
  fun path ↦ (entries.find? fun entry ↦ belowRoot entry.1.toList = path).map fun entry ↦
    entry.2.toList

/-- A glob that matches these names. -/
def globOf (entries : List (String × String)) (isFile : ResolvedPath → Bool) : List ResolvedPath :=
  (entries.map fun entry ↦ belowRoot entry.1.toList).filter isFile

/-- Names and texts as strings. -/
def stringsOf (texts : List (Text × Text)) : List (String × String) :=
  texts.map fun entry ↦ (String.ofList entry.1, String.ofList entry.2)

/-- The files with the names and texts of strings. -/
theorem filesBelowRoot_stringsOf (texts : List (Text × Text)) :
    filesBelowRoot (stringsOf texts) =
      fun path ↦ (texts.find? fun entry ↦ belowRoot entry.1 = path).map Prod.snd := by
  funext path
  simp [filesBelowRoot, stringsOf, List.find?_map, Function.comp_def]

/-- The glob that matches the names of strings. -/
theorem globOf_stringsOf (texts : List (Text × Text)) :
    globOf (stringsOf texts) =
      fun isFile ↦ (texts.map fun entry ↦ belowRoot entry.1).filter isFile := by
  funext isFile
  simp [globOf, stringsOf, Function.comp_def]

/-- A source that is embedded in a Markdown file, which is embedded in another one. -/
def markdownChain : List (String × String) :=
  [("a.ts", "// embedex: b.md\nf();\n"),
    ("b.md", "// embedex: c.md\n<embedex source=\"a.ts\">\n</embedex>\n"),
    ("c.md", "<embedex source=\"b.md\">\n</embedex>\n")]

/-- The run over the chain of Markdown files updates them, and they settle. -/
theorem markdownChain_settles :
    ((embed belowRoot true
      (globOf markdownChain fun path ↦ (filesBelowRoot markdownChain path).isSome)
      (filesBelowRoot markdownChain)).any fun run ↦ run.1.embeds.all Embed.succeeded) = true ∧
    RunSettles belowRoot
      (globOf markdownChain fun path ↦ (filesBelowRoot markdownChain path).isSome)
      (filesBelowRoot markdownChain) := by
  have hchain := show markdownChain = stringsOf [(_, _), (_, _), (_, _)] from rfl
  constructor
  · rw [hchain, filesBelowRoot_stringsOf, globOf_stringsOf]
    decide +kernel
  · rw [hchain, filesBelowRoot_stringsOf, globOf_stringsOf]
    decide +kernel

/-- The chain of Markdown files is settled by a run. -/
theorem embed_settles_markdownChain :
    ∃ (result result' : EmbedResult) (files' : FileSystem) (order : List ResolvedPath)
        (sources : ResolvedPath → List ResolvedPath),
      embed belowRoot true
        (globOf markdownChain fun path ↦ (filesBelowRoot markdownChain path).isSome)
        (filesBelowRoot markdownChain) = some (result, files') ∧
      embed belowRoot false (globOf markdownChain fun path ↦ (files' path).isSome) files' =
        some (result', files') ∧
      result'.embeds = order.map (fun path ↦ .noChange path (sources path)) ∧
      order.Perm (result.destinations.map Prod.fst) := by
  obtain ⟨hok, hsettles⟩ := markdownChain_settles
  obtain ⟨⟨result, files'⟩, hrun, hall⟩ := (Option.any_eq_true _ _).mp hok
  obtain ⟨result', order, sources, hnext, hembeds, hperm, -⟩ :=
    embed_settles belowRoot (globOf markdownChain) (filesBelowRoot markdownChain) files' _ _ result
      (.refl _) hrun (List.all_eq_true.mp hall) hsettles (.refl _) false
  exact ⟨result, result', files', order, sources, hrun, hnext, hembeds, hperm⟩

/-- A source that is embedded in a comment of a module, which is embedded in a Markdown file. -/
def moduleChain : List (String × String) :=
  [("a.ts", "// embedex: b.ts\nf();\n"),
    ("b.ts", "// embedex: c.md\n * <embedex source=\"a.ts\">\n * </embedex>\n"),
    ("c.md", "<embedex source=\"b.ts\">\n</embedex>\n")]

/-- The block for the module contains the closing tag of the comment, so that the Markdown file is
updated again in the next run. -/
theorem embed_not_settled :
    ∃ (result result' : EmbedResult) (files' files'' : FileSystem),
      embed belowRoot true
        (globOf moduleChain fun path ↦ (filesBelowRoot moduleChain path).isSome)
        (filesBelowRoot moduleChain) = some (result, files') ∧
      (∀ anEmbed ∈ result.embeds, anEmbed.succeeded = true) ∧
      embed belowRoot true (globOf moduleChain fun path ↦ (files' path).isSome) files' =
        some (result', files'') ∧
      ∃ anEmbed ∈ result'.embeds, anEmbed.updated.isSome = true := by
  have hagain : (embed belowRoot true
      (globOf moduleChain fun path ↦ (filesBelowRoot moduleChain path).isSome)
      (filesBelowRoot moduleChain)).any fun run ↦
        run.1.embeds.all Embed.succeeded &&
          (embed belowRoot true (globOf moduleChain fun path ↦ (run.2 path).isSome) run.2).any
            fun run' ↦ run'.1.embeds.any fun anEmbed ↦ anEmbed.updated.isSome := by
    rw [show moduleChain = stringsOf [(_, _), (_, _), (_, _)] from rfl, filesBelowRoot_stringsOf,
      globOf_stringsOf]
    decide +kernel
  obtain ⟨⟨result, files'⟩, hrun, hboth⟩ := (Option.any_eq_true _ _).mp hagain
  obtain ⟨hall, hnext⟩ := (Bool.and_eq_true _ _).mp hboth
  obtain ⟨⟨result', files''⟩, hrun', hany⟩ := (Option.any_eq_true _ _).mp hnext
  obtain ⟨anEmbed, hmem, hupdated⟩ := List.any_eq_true.mp hany
  exact ⟨result, result', files', files'', hrun, List.all_eq_true.mp hall, hrun', anEmbed, hmem,
    hupdated⟩

end CoreUtils.Embedex
