import CoreUtils.Reporter.ActionDiagnostics
import CoreUtils.Reporter.ConsoleRetention
import CoreUtils.Reporter.NetworkAdmission
import CoreUtils.Reporter.NetworkCounting
import CoreUtils.Reporter.NetworkFinalize
import CoreUtils.Reporter.NetworkObservation
import CoreUtils.Reporter.ZipRecovery

/-!
# Diagnostics of traces

`collectTraceDiagnosticsFromAttachments` of `traceDiagnostics.ts`: the archives of an attempt are
read one after the other, their entries line by line, and each line feeds the network builder, the
console messages and the action builder. Archives that cannot be read and lines that are no records
are passed over. Everything below `JSON.parse`, the file system and the inflating of entries is
modelled; these are given by the machine (`TraceMachine`).
-/

namespace CoreUtils.Reporter.Trace

open Text

/-! ## Console messages -/

/-- `extractPageErrorText`. A message in a record counts also when it is empty. -/
def extractPageErrorText (eventRecord : Json) : Option String := do
  let paramsRecord ← asRecord (eventRecord.member "params".toList)
  let error := paramsRecord.member "error".toList
  (present (stringOf error)).or (stringOf ((asRecord error).bind (·.member "message".toList)))

/-- The offset of a message, none without a time or an anchor. -/
def computeConsoleOffsetMs (eventRecord : Json) (anchor : Option MonotonicAnchor)
    (attemptStartTimeMs : ℚ) : Option ℚ := do
  let time ← asNumber (eventRecord.member "time".toList)
  let anchor ← anchor
  monotonicToOffsetMs time anchor attemptStartTimeMs

/-- The entry of a warning or an error on the console, or of a page that fails, closes or crashes.
Other events have none. -/
def buildConsoleEntryFromEvent (contents : TraceContents) (eventRecord : Json) :
    Option ConsoleEntry :=
  let offsetMs := computeConsoleOffsetMs eventRecord contents.anchor contents.attemptStartTimeMs
  let type := stringOf (eventRecord.member "type".toList)
  let method := stringOf (eventRecord.member "method".toList)
  if type = some "console" then do
    let messageType ← (asString (eventRecord.member "messageType".toList)).map fun text ↦
      String.ofList (contents.platform.toLowerCase text)
    if messageType = "warning" ∨ messageType = "error" then do
      let text ← present (stringOf (eventRecord.member "text".toList))
      return ⟨messageType, capConsoleMessageText (stripAnsi text), offsetMs⟩
    else none
  else if type = some "event" ∧ method = some "pageError" then do
    let pageErrorText ← present (extractPageErrorText eventRecord)
    return ⟨"pageerror", capConsoleMessageText (stripAnsi pageErrorText), offsetMs⟩
  else if type = some "event" ∧ method = some "pageClosed" then
    some ⟨"page-closed", "Page closed", offsetMs⟩
  else if type = some "event" ∧ (method = some "pageCrashed" ∨ method = some "pageCrash") then
    let pageCrashText := (extractPageErrorText eventRecord).getD "Page crashed"
    some ⟨"page-crashed", capConsoleMessageText (stripAnsi pageCrashText), offsetMs⟩
  else none

/-! ## Archives -/

/-- The machine under the analysis of traces: the platform, the digests of shapes and bodies,
`JSON.parse` with nothing for an error, the files, and inflating. -/
structure TraceMachine (φ : Type) where
  platform : Platform
  hashShape : NetworkObservationShape → φ
  sha1 : CodeUnits × Option String → String
  parseJson : Text → Option Json
  readFile : String → Option Zip.Bytes
  inflateRawSync : Zip.Bytes → Option Zip.Bytes

variable {φ : Type} (machine : TraceMachine φ)

/-- The archive under a path, unless reading it fails: its own members, since no name that the code
looks up is inherited. -/
def readArchive (tracePath : String) : Option Zip.Entries :=
  (machine.readFile tracePath).bind fun zipBuffer ↦
    match Zip.readZipArchiveEntries machine.inflateRawSync zipBuffer with
    | .ok archiveEntries => some archiveEntries.own
    | .error _ => none

/-- The anchor in the first line of a trace, none if this is no JSON, of another type, or has not
both times. -/
def extractMonotonicAnchor (traceContent : Text) : Option MonotonicAnchor := do
  let firstLine := trim isWhiteSpace (traceContent.takeWhile (· ≠ '\n'))
  if firstLine = [] then none
  else do
    let parsed ← machine.parseJson firstLine
    let record ← asRecord (some parsed)
    if stringOf (record.member "type".toList) = some "context-options" then do
      let wallTimeMs ← asNumber (record.member "wallTime".toList)
      let monotonicTimeMs ← asNumber (record.member "monotonicTime".toList)
      return ⟨wallTimeMs, monotonicTimeMs⟩
    else none

/-- The anchor of an archive: that of the first trace that has one. -/
def findAnchor (archiveEntries : Zip.Entries) : Option MonotonicAnchor :=
  archiveEntries.entries.findSome? fun entry ↦
    if ".trace".toList.isSuffixOf entry.1 then
      extractMonotonicAnchor machine (Zip.toUtf8String entry.2)
    else none

/-- Whether an entry of an archive holds events. -/
def holdsEvents (entryName : Text) : Bool :=
  ".trace".toList.isSuffixOf entryName || ".network".toList.isSuffixOf entryName

/-! ## The pass over the traces -/

/-- What is collected in one pass over the traces. -/
structure TraceCollectors (φ : Type) where
  actionBuilder : ActionBuilder
  builder : NetworkBuilder φ
  consoleMessages : List ConsoleEntry

variable [DecidableEq φ]

/-- What `parseTraceLine` does with the record of a line. -/
def admitEvent (contents : TraceContents) (collectors : TraceCollectors φ) (eventRecord : Json) :
    TraceCollectors φ where
  actionBuilder := collectors.actionBuilder.admitRecord eventRecord
  builder :=
    match buildNetworkObservationFromEvent contents eventRecord with
    | some observation => collectors.builder.admitObservation machine.hashShape observation
    | none => collectors.builder
  consoleMessages :=
    match buildConsoleEntryFromEvent contents eventRecord with
    | some consoleEntry => appendConsoleEntryWithPriority collectors.consoleMessages consoleEntry
    | none => collectors.consoleMessages

/-- Collects what the event of a line says. A line that is no JSON of an object is passed over. -/
def parseTraceLine (contents : TraceContents) (collectors : TraceCollectors φ) (line : Text) :
    TraceCollectors φ :=
  match machine.parseJson line with
  | none => collectors
  | some parsedLine =>
      match asRecord (some parsedLine) with
      | none => collectors
      | some eventRecord => admitEvent machine contents collectors eventRecord

/-- The lines of an entry, in order. -/
def parseTraceEntry (contents : TraceContents) (collectors : TraceCollectors φ)
    (entry : Text × Zip.Bytes) : TraceCollectors φ :=
  if holdsEvents entry.1 then
    ((Zip.toUtf8String entry.2).splitOn '\n').foldl
      (fun collectors line ↦
        if trim isWhiteSpace line = [] then collectors
        else parseTraceLine machine contents collectors line) collectors
  else collectors

/-- The contents that events of an archive are read with. -/
def contentsOf (attemptStartTimeMs : ℤ) (archiveEntries : Zip.Entries) : TraceContents where
  platform := machine.platform
  sha1 := machine.sha1
  archiveEntries := archiveEntries
  anchor := findAnchor machine archiveEntries
  attemptStartTimeMs := attemptStartTimeMs

/-- Collects the events of all traces in an archive. An archive that cannot be read is passed
over. -/
def parseTraceIntoBuilder (attemptStartTimeMs : ℤ) (collectors : TraceCollectors φ)
    (tracePath : String) : TraceCollectors φ :=
  match readArchive machine tracePath with
  | none => collectors
  | some archiveEntries =>
      archiveEntries.entries.foldl
        (parseTraceEntry machine (contentsOf machine attemptStartTimeMs archiveEntries)) collectors

/-- `collectTraceDiagnosticsFromAttachments`. The stack of an error is left out. -/
def collectTraceDiagnosticsFromAttachments {lifecycle : Type} (tracePaths : List String)
    (attemptStartTimeMs : ℤ) : Except Thrown (TraceDiagnostics φ lifecycle) :=
  let collectors := tracePaths.foldl (parseTraceIntoBuilder machine attemptStartTimeMs)
    ⟨ActionBuilder.initial, NetworkBuilder.initial, []⟩
  match collectors.builder.finalize with
  | .error message => .error (.error message none)
  | .ok network => .ok
      { network := { toNetworkReport := network, clientLifecycles := [] }
        consoleMessages := collectors.consoleMessages
        failingAction := collectors.actionBuilder.findFailingAction.map ActionRecord.enrichment }

/-! ## The events of an attempt -/

/-- The record in a line, if there is one. -/
def eventOfLine (line : Text) : Option Json :=
  if trim isWhiteSpace line = [] then none
  else (machine.parseJson line).bind fun parsedLine ↦ asRecord (some parsedLine)

/-- The events in an entry of an archive. -/
def eventsOfEntry (entry : Text × Zip.Bytes) : List Json :=
  if holdsEvents entry.1 then
    ((Zip.toUtf8String entry.2).splitOn '\n').filterMap (eventOfLine machine)
  else []

/-- What a trace contributes: its events, and the contents they are read with. -/
structure TraceSource where
  contents : TraceContents
  events : List Json

/-- What the trace under a path contributes, if it can be read. -/
def sourceOf (attemptStartTimeMs : ℤ) (tracePath : String) : Option TraceSource :=
  (readArchive machine tracePath).map fun archiveEntries ↦
    { contents := contentsOf machine attemptStartTimeMs archiveEntries
      events := archiveEntries.entries.flatMap (eventsOfEntry machine) }

/-- What the traces of an attempt contribute. -/
def sourcesOf (attemptStartTimeMs : ℤ) (tracePaths : List String) : List TraceSource :=
  tracePaths.filterMap (sourceOf machine attemptStartTimeMs)

/-- The observations in a trace. -/
def TraceSource.observations (source : TraceSource) : List NetworkObservation :=
  source.events.filterMap (buildNetworkObservationFromEvent source.contents)

/-- The console messages in a trace. -/
def TraceSource.consoleEntries (source : TraceSource) : List ConsoleEntry :=
  source.events.filterMap (buildConsoleEntryFromEvent source.contents)

/-! ## One pass instead of three -/

variable {machine} {contents : TraceContents}

/-- A line contributes its event. -/
theorem parse_trace_line_eq (collectors : TraceCollectors φ) (line : Text) :
    (if trim isWhiteSpace line = [] then collectors
      else parseTraceLine machine contents collectors line) =
      (eventOfLine machine line).elim collectors (admitEvent machine contents collectors) := by
  unfold eventOfLine parseTraceLine
  split
  next => rfl
  next =>
    cases machine.parseJson line with
    | none => rfl
    | some parsedLine => cases hrecord : asRecord (some parsedLine) <;> simp [hrecord]

/-- A fold over what some elements contribute. -/
theorem foldl_elim_eq_foldl_filterMap {α β σ : Type} (f : α → Option β) (step : σ → β → σ)
    (elements : List α) (start : σ) :
    elements.foldl (fun state element ↦ (f element).elim state (step state)) start =
      (elements.filterMap f).foldl step start := by
  induction elements generalizing start with
  | nil => rfl
  | cons element elements ih =>
      rw [List.foldl_cons, ih, List.filterMap_cons]
      cases f element <;> rfl

/-- An entry contributes its events. -/
theorem parse_trace_entry_eq (collectors : TraceCollectors φ) (entry : Text × Zip.Bytes) :
    parseTraceEntry machine contents collectors entry =
      (eventsOfEntry machine entry).foldl (admitEvent machine contents) collectors := by
  unfold parseTraceEntry eventsOfEntry
  split
  next => simp only [parse_trace_line_eq, foldl_elim_eq_foldl_filterMap]
  next => rfl

/-- What the events of one trace do, collector by collector. -/
theorem foldl_admit_event (events : List Json) (collectors : TraceCollectors φ) :
    events.foldl (admitEvent machine contents) collectors =
      { actionBuilder := events.foldl ActionBuilder.admitRecord collectors.actionBuilder
        builder := (events.filterMap (buildNetworkObservationFromEvent contents)).foldl
          (NetworkBuilder.admitObservation machine.hashShape) collectors.builder
        consoleMessages := (events.filterMap (buildConsoleEntryFromEvent contents)).foldl
          appendConsoleEntryWithPriority collectors.consoleMessages } := by
  induction events generalizing collectors with
  | nil => rfl
  | cons event events ih =>
      rw [List.foldl_cons, ih]
      simp only [admitEvent, List.foldl_cons, List.filterMap_cons]
      cases buildNetworkObservationFromEvent contents event <;>
        cases buildConsoleEntryFromEvent contents event <;> rfl

/-- What a trace contributes to the collectors. -/
theorem parse_trace_into_builder_eq (attemptStartTimeMs : ℤ) (collectors : TraceCollectors φ)
    (tracePath : String) :
    parseTraceIntoBuilder machine attemptStartTimeMs collectors tracePath =
      (sourceOf machine attemptStartTimeMs tracePath).elim collectors fun source ↦
        source.events.foldl (admitEvent machine source.contents) collectors := by
  unfold parseTraceIntoBuilder sourceOf
  cases readArchive machine tracePath with
  | none => rfl
  | some archiveEntries =>
      simp only [Option.map_some, Option.elim_some, List.foldl_flatMap]
      exact List.foldl_ext _ _ _ fun collectors entry _ ↦ parse_trace_entry_eq collectors entry

/-- The collectors after the traces of an attempt: each of them as if it alone had been fed. -/
theorem collectors_eq (attemptStartTimeMs : ℤ) (tracePaths : List String) :
    tracePaths.foldl (parseTraceIntoBuilder machine attemptStartTimeMs)
        ⟨ActionBuilder.initial, NetworkBuilder.initial, []⟩ =
      let sources := sourcesOf machine attemptStartTimeMs tracePaths
      { actionBuilder := ActionBuilder.admitAll (sources.flatMap TraceSource.events)
        builder := NetworkBuilder.admitAll machine.hashShape
          (sources.flatMap TraceSource.observations)
        consoleMessages := collectConsoleEntries
          (sources.flatMap TraceSource.consoleEntries) } := by
  have hfold : ∀ collectors : TraceCollectors φ,
      tracePaths.foldl (parseTraceIntoBuilder machine attemptStartTimeMs) collectors =
        (sourcesOf machine attemptStartTimeMs tracePaths).foldl (fun collectors source ↦
          source.events.foldl (admitEvent machine source.contents) collectors) collectors := by
    intro collectors
    rw [sourcesOf, ← foldl_elim_eq_foldl_filterMap]
    exact List.foldl_ext _ _ _ fun collectors tracePath _ ↦
      parse_trace_into_builder_eq attemptStartTimeMs collectors tracePath
  have hsources : ∀ (sources : List TraceSource) (collectors : TraceCollectors φ),
      sources.foldl (fun collectors source ↦
          source.events.foldl (admitEvent machine source.contents) collectors) collectors =
        { actionBuilder := (sources.flatMap TraceSource.events).foldl ActionBuilder.admitRecord
            collectors.actionBuilder
          builder := (sources.flatMap TraceSource.observations).foldl
            (NetworkBuilder.admitObservation machine.hashShape) collectors.builder
          consoleMessages := (sources.flatMap TraceSource.consoleEntries).foldl
            appendConsoleEntryWithPriority collectors.consoleMessages } := by
    intro sources
    induction sources with
    | nil => exact fun _ ↦ rfl
    | cons source sources ih =>
        intro collectors
        rw [List.foldl_cons, ih, foldl_admit_event]
        simp only [List.flatMap_cons, List.foldl_append, TraceSource.observations,
          TraceSource.consoleEntries]
  rw [hfold, hsources]
  rfl

/-- Whatever the files of the traces hold, the diagnostics are returned, and are made of the events
of the traces that can be read. The one pass over all traces feeds each collector as a pass of its
own would: the network report is that of the observations, and counts every one of them in one of
its buckets; the console messages are those kept of the entries; and the failing action is the call
that the events say failed. -/
theorem collect_trace_diagnostics (hinj : Function.Injective machine.hashShape)
    (lifecycle : Type) (tracePaths : List String) (attemptStartTimeMs : ℤ) :
    let sources := sourcesOf machine attemptStartTimeMs tracePaths
    let observations := sources.flatMap TraceSource.observations
    ∃ network, (NetworkBuilder.admitAll machine.hashShape observations).finalize = .ok network ∧
      network.summary.observedInstances = observations.length ∧
      NetworkBuilder.totalAccounted network.summary = observations.length ∧
      (collectTraceDiagnosticsFromAttachments machine tracePaths attemptStartTimeMs :
          Except Thrown (TraceDiagnostics φ lifecycle)) =
        .ok
          { network := { toNetworkReport := network, clientLifecycles := [] }
            consoleMessages :=
              collectConsoleEntries (sources.flatMap TraceSource.consoleEntries)
            failingAction := (failingActionOf (sources.flatMap TraceSource.events)).map
              fun record ↦ (cloneRecord record).enrichment } := by
  intro sources observations
  obtain ⟨network, hfinalize, hreported, htotal, -⟩ := NetworkBuilder.finalize_spec
    (NetworkBuilder.admitAll_invariant hinj observations)
  have hobserved : network.summary.observedInstances = observations.length := by
    rw [hreported.summary]
    exact NetworkBuilder.observed_admitAll machine.hashShape observations
  refine ⟨network, hfinalize, hobserved, htotal.trans hobserved, ?_⟩
  have haction := find_failing_action_eq (sources.flatMap TraceSource.events)
  simp only [collectTraceDiagnosticsFromAttachments, collectors_eq]
  rw [show (NetworkBuilder.admitAll machine.hashShape
    ((sourcesOf machine attemptStartTimeMs tracePaths).flatMap
      TraceSource.observations)).finalize = _ from hfinalize, haction, Option.map_map]
  rfl

/-! ## A small machine -/

/-- A request with a cookie. -/
def sampleRequest (cookie : String) : Json :=
  .object [("type".toList, .string "resource-snapshot".toList),
    ("snapshot".toList, .object [
      ("request".toList, .object [
        ("method".toList, .string "GET".toList),
        ("url".toList, .string "https://example.com/users".toList),
        ("headers".toList, .array [.object [("name".toList, .string "Cookie".toList),
          ("value".toList, .string cookie.toList)]])]),
      ("response".toList, .object [("status".toList, .number 200)])])]

/-- An archive with one trace of one line. -/
def sampleTrace (letter : UInt8) : Zip.ZipArchive Zip.storedBlock where
  entries := [Zip.sampleEntry "0.trace".toList [letter] .stored (by decide) (by decide)]
  comment := ⟨[], Nat.zero_lt_succ _⟩
  names_nodup := List.nodup_singleton _
  count_lt := by rw [List.length_singleton]; norm_num
  offset_lt := of_decide_eq_true rfl
  size_lt := of_decide_eq_true rfl

/-- The files of a system with one archive. -/
def sampleFiles (letter : UInt8) (tracePath : String) : Option Zip.Bytes :=
  if tracePath = "trace.zip" then some (sampleTrace letter).encode else none

/-- A machine with one archive. Its `JSON.parse` knows two lines, of requests with distinct
cookies. -/
def sampleMachine : TraceMachine NetworkObservationShape where
  platform := asciiPlatform
  hashShape := id
  sha1 _ := ""
  parseJson line :=
    if line = ['a'] then some (sampleRequest "first")
    else if line = ['b'] then some (sampleRequest "second")
    else none
  readFile := sampleFiles 97
  inflateRawSync := Zip.inflateStoredBlock

/-- The request of the archive is observed, and the missing archive is passed over. -/
theorem collect_trace_diagnostics_sample :
    ∃ diagnostics : TraceDiagnostics NetworkObservationShape Unit,
      collectTraceDiagnosticsFromAttachments sampleMachine ["trace.zip", "missing.zip"] 0 =
        .ok diagnostics ∧
      diagnostics.network.summary.observedInstances = 1 := by
  obtain ⟨network, -, hobserved, -, hok⟩ := @collect_trace_diagnostics _ sampleMachine _
    Function.injective_id Unit ["trace.zip", "missing.zip"] 0
  exact ⟨_, hok, hobserved.trans (by decide +kernel)⟩

end CoreUtils.Reporter.Trace
