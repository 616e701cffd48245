import CoreUtils.Reporter.TraceDiagnostics

/-!
# Headers that are not reported

A trace holds every header of every request, with credentials among them. The diagnostics depend on
the headers of the allow lists only: two sets of traces that differ in other headers have the same
diagnostics.
-/

namespace CoreUtils.Reporter.Trace

variable {platform : Platform} {contents : TraceContents}

/-! ## What hidden headers do not change -/

/-- Console messages do not depend on headers. -/
theorem build_console_entry_hide (eventRecord : Json) :
    buildConsoleEntryFromEvent contents (hideHeaders platform eventRecord) =
      buildConsoleEntryFromEvent contents eventRecord := by
  have htype : (hideHeaders platform eventRecord).member "type".toList = _ :=
    member_hide_headers (by simp) eventRecord
  have hmethod : (hideHeaders platform eventRecord).member "method".toList = _ :=
    member_hide_headers (by simp) eventRecord
  have htime : (hideHeaders platform eventRecord).member "time".toList = _ :=
    member_hide_headers (by simp) eventRecord
  have hkind : (hideHeaders platform eventRecord).member "messageType".toList = _ :=
    member_hide_headers (by simp) eventRecord
  have htext : (hideHeaders platform eventRecord).member "text".toList = _ :=
    member_hide_headers (by simp) eventRecord
  have hparams : (hideHeaders platform eventRecord).member "params".toList = _ :=
    member_hide_headers (by simp) eventRecord
  simp only [buildConsoleEntryFromEvent, computeConsoleOffsetMs, extractPageErrorText, htype,
    hmethod, htime, hkind, htext, hparams]

/-- The name and the selector of an action do not depend on headers. -/
theorem extract_action_hide (eventRecord : Json) :
    extractApiName (hideHeaders platform eventRecord) = extractApiName eventRecord ∧
      extractSelector (hideHeaders platform eventRecord) = extractSelector eventRecord := by
  have hname : (hideHeaders platform eventRecord).member "apiName".toList = _ :=
    member_hide_headers (by simp) eventRecord
  have hclass : (hideHeaders platform eventRecord).member "class".toList = _ :=
    member_hide_headers (by simp) eventRecord
  have hmethod : (hideHeaders platform eventRecord).member "method".toList = _ :=
    member_hide_headers (by simp) eventRecord
  have htitle : (hideHeaders platform eventRecord).member "title".toList = _ :=
    member_hide_headers (by simp) eventRecord
  have hparams : (hideHeaders platform eventRecord).member "params".toList = _ :=
    member_hide_headers (by simp) eventRecord
  have hselector : (hideHeaders platform eventRecord).member "selector".toList = _ :=
    member_hide_headers (by simp) eventRecord
  simp only [extractApiName, extractSelector, hname, hclass, hmethod, htitle, hparams, hselector,
    and_self]

/-- The action builder does not depend on headers. -/
theorem admit_hide (builder : ActionBuilder) (eventRecord : Json) :
    builder.admitRecord (hideHeaders platform eventRecord) = builder.admitRecord eventRecord := by
  have htype : (hideHeaders platform eventRecord).member "type".toList = _ :=
    member_hide_headers (by simp) eventRecord
  have hcall : (hideHeaders platform eventRecord).member "callId".toList = _ :=
    member_hide_headers (by simp) eventRecord
  have hstart : (hideHeaders platform eventRecord).member "startTime".toList = _ :=
    member_hide_headers (by simp) eventRecord
  have hlog : (hideHeaders platform eventRecord).member "log".toList = _ :=
    member_hide_headers (by simp) eventRecord
  have hmessage : (hideHeaders platform eventRecord).member "message".toList = _ :=
    member_hide_headers (by simp) eventRecord
  have herror : (hideHeaders platform eventRecord).member "error".toList = _ :=
    member_hide_headers (by simp) eventRecord
  have hend : (hideHeaders platform eventRecord).member "endTime".toList = _ :=
    member_hide_headers (by simp) eventRecord
  obtain ⟨hname, hselector⟩ := @extract_action_hide platform eventRecord
  have hstartEvent : ActionBuilder.applyStartEvent (hideHeaders platform eventRecord) =
      ActionBuilder.applyStartEvent eventRecord := by
    funext record
    simp only [ActionBuilder.applyStartEvent, hname, hselector, hstart, hlog]
  have hafterEvent : ActionBuilder.applyAfterEvent (hideHeaders platform eventRecord) =
      ActionBuilder.applyAfterEvent eventRecord := by
    funext record
    simp only [ActionBuilder.applyAfterEvent, herror, hend]
  simp only [ActionBuilder.admitRecord, ActionBuilder.admitStartEvent, ActionBuilder.admitLogEvent,
    ActionBuilder.admitAfterEvent, callIdOf, htype, hcall, hmessage, hstartEvent, hafterEvent]

/-- A run of the action builder does not depend on headers. -/
theorem foldl_admit_hide (events : List Json) (builder : ActionBuilder) :
    (events.map (hideHeaders platform)).foldl ActionBuilder.admitRecord builder =
      events.foldl ActionBuilder.admitRecord builder := by
  simp only [List.foldl_map, admit_hide]

/-! ## Traces that differ in hidden headers -/

/-- Two traces have the same clock, the same resources and, but for hidden headers, the same
events. -/
structure SameVisible (source other : TraceSource) : Prop where
  contents : other.contents =
    { source.contents with archiveEntries := other.contents.archiveEntries }
  resources : ∀ sha : Text, other.contents.archiveEntries.get ("resources/".toList ++ sha) =
    source.contents.archiveEntries.get ("resources/".toList ++ sha)
  events : source.events.map (hideHeaders source.contents.platform) =
    other.events.map (hideHeaders source.contents.platform)

/-- An observation depends on the resources of the archive only. -/
theorem build_network_observation_resources {archiveEntries : Zip.Entries}
    (h : ∀ sha : Text, archiveEntries.get ("resources/".toList ++ sha) =
      contents.archiveEntries.get ("resources/".toList ++ sha)) (eventRecord : Json) :
    buildNetworkObservationFromEvent { contents with archiveEntries := archiveEntries }
        eventRecord =
      buildNetworkObservationFromEvent contents eventRecord := by
  simp only [buildNetworkObservationFromEvent, observationOf, readTraceResourceBody, h]

variable {source other : TraceSource}

/-- Such traces have the same observations. -/
theorem SameVisible.observations_eq (h : SameVisible source other) :
    source.observations = other.observations := by
  have hhidden : ∀ events : List Json,
      (events.map (hideHeaders source.contents.platform)).filterMap
          (buildNetworkObservationFromEvent source.contents) =
        events.filterMap (buildNetworkObservationFromEvent source.contents) := by
    intro events
    rw [List.filterMap_map]
    exact List.filterMap_congr fun eventRecord _ ↦ build_network_observation_hide eventRecord
  rw [TraceSource.observations, TraceSource.observations, ← hhidden, h.events, hhidden, h.contents]
  exact List.filterMap_congr fun eventRecord _ ↦
    (build_network_observation_resources h.resources eventRecord).symm

/-- Such traces have the same console messages. -/
theorem SameVisible.console_entries_eq (h : SameVisible source other) :
    source.consoleEntries = other.consoleEntries := by
  have hhidden : ∀ events : List Json,
      (events.map (hideHeaders source.contents.platform)).filterMap
          (buildConsoleEntryFromEvent source.contents) =
        events.filterMap (buildConsoleEntryFromEvent source.contents) := by
    intro events
    rw [List.filterMap_map]
    exact List.filterMap_congr fun eventRecord _ ↦ build_console_entry_hide eventRecord
  rw [TraceSource.consoleEntries, TraceSource.consoleEntries, ← hhidden, h.events, hhidden,
    h.contents]
  rfl

/-- The action builder does the same on such traces. -/
theorem SameVisible.foldl_admit_eq (h : SameVisible source other) (builder : ActionBuilder) :
    source.events.foldl ActionBuilder.admitRecord builder =
      other.events.foldl ActionBuilder.admitRecord builder := by
  have hhide := @foldl_admit_hide source.contents.platform
  rw [← hhide source.events, h.events, hhide]

/-- Such traces contribute the same to each collector. -/
theorem flat_map_eq_of_same_visible {sources others : List TraceSource}
    (h : List.Forall₂ SameVisible sources others) :
    sources.flatMap TraceSource.observations = others.flatMap TraceSource.observations ∧
      sources.flatMap TraceSource.consoleEntries = others.flatMap TraceSource.consoleEntries ∧
      ∀ builder : ActionBuilder,
        (sources.flatMap TraceSource.events).foldl ActionBuilder.admitRecord builder =
          (others.flatMap TraceSource.events).foldl ActionBuilder.admitRecord builder := by
  induction h with
  | nil => exact ⟨rfl, rfl, fun _ ↦ rfl⟩
  | cons hsame hrest ih =>
      obtain ⟨hobservations, hentries, hactions⟩ := ih
      simp only [List.flatMap_cons, hsame.observations_eq, hsame.console_entries_eq, hobservations,
        hentries, true_and]
      intro builder
      rw [List.foldl_append, List.foldl_append, hsame.foldl_admit_eq, hactions]

variable {φ : Type} [DecidableEq φ] {machine : TraceMachine φ}

/-- Headers that are on no allow list are not reported: on file systems whose traces differ in such
headers only, in how many events and where they may, the diagnostics are the same. -/
theorem collect_trace_diagnostics_hidden (readFile : String → Option Zip.Bytes) (lifecycle : Type)
    (tracePaths : List String) (attemptStartTimeMs : ℤ)
    (h : List.Forall₂ SameVisible (sourcesOf machine attemptStartTimeMs tracePaths)
      (sourcesOf { machine with readFile := readFile } attemptStartTimeMs tracePaths)) :
    (collectTraceDiagnosticsFromAttachments { machine with readFile := readFile } tracePaths
        attemptStartTimeMs : Except Thrown (TraceDiagnostics φ lifecycle)) =
      collectTraceDiagnosticsFromAttachments machine tracePaths attemptStartTimeMs := by
  obtain ⟨hobservations, hentries, hactions⟩ := flat_map_eq_of_same_visible h
  simp only [collectTraceDiagnosticsFromAttachments, collectors_eq, ActionBuilder.admitAll,
    hobservations, hentries, hactions]

/-! ## Two small file systems -/

/-- An archive is what its entries are. -/
theorem read_archive_sample {machine : TraceMachine NetworkObservationShape} {letter : UInt8}
    (h : (readArchive machine "trace.zip").map OrderedMap.entries =
      some [("0.trace".toList, [letter])]) :
    readArchive machine "trace.zip" =
      some ⟨[("0.trace".toList, [letter])], List.nodup_singleton _⟩ := by
  obtain ⟨⟨entries, hnodup⟩, hread, hentries⟩ := Option.map_eq_some_iff.mp h
  obtain rfl : entries = _ := hentries
  exact hread

/-- The requests of the two file systems differ in their cookies only. -/
theorem collect_trace_diagnostics_hidden_sample :
    (collectTraceDiagnosticsFromAttachments { sampleMachine with readFile := sampleFiles 98 }
        ["trace.zip"] 0 : Except Thrown (TraceDiagnostics NetworkObservationShape Unit)) =
      collectTraceDiagnosticsFromAttachments sampleMachine ["trace.zip"] 0 := by
  refine collect_trace_diagnostics_hidden (sampleFiles 98) Unit ["trace.zip"] 0 ?_
  have hfirst : readArchive sampleMachine "trace.zip" =
      some ⟨[("0.trace".toList, [97])], List.nodup_singleton _⟩ :=
    read_archive_sample (by decide +kernel)
  have hsecond : readArchive { sampleMachine with readFile := sampleFiles 98 } "trace.zip" =
      some ⟨[("0.trace".toList, [98])], List.nodup_singleton _⟩ :=
    read_archive_sample (by decide +kernel)
  simp only [sourcesOf, sourceOf, List.filterMap_cons, List.filterMap_nil, hfirst, hsecond,
    Option.map_some]
  -- There is no resource in either archive, and without their cookies the requests are one.
  exact .cons ⟨rfl, fun _ ↦ rfl, rfl⟩ .nil

end CoreUtils.Reporter.Trace
