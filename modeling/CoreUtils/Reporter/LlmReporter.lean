import CoreUtils.Reporter.AttemptResult

/-!
# The reporter

The state of `LlmReporter` and its handlers, after `reporter.ts`. `onEnd` is modelled up to the
report that it writes; the file that it writes the report to is left out.
-/

namespace CoreUtils.Reporter

/-! ## Configuration and tests -/

/-- A project of the configuration. -/
structure FullProject where
  name : String
  outputDir : String
  retries : ℕ
  deriving DecidableEq, Repr

/-- The configuration, as far as the reporter reads it. -/
structure FullConfig where
  rootDir : String
  version : String
  workers : ℕ
  projects : List FullProject
  deriving DecidableEq, Repr

/-- The types of suites. -/
inductive SuiteType where
  | root
  | project
  | file
  | describe
  deriving DecidableEq, Repr

/-- A suite around a test. -/
structure Suite where
  title : String
  type : SuiteType
  deriving DecidableEq, Repr

/-- An annotation of a test. -/
structure Annotation where
  type : String
  description : Option String
  deriving DecidableEq, Repr

/-- A test: its suites from the innermost outwards, and the number of results it has by now. -/
structure TestCase where
  id : String
  title : String
  location : Location
  suites : List Suite
  project : Option FullProject
  tags : List String
  annotations : List Annotation
  resultCount : ℕ
  deriving DecidableEq, Repr

/-! ## The report -/

/-- An error outside of tests. -/
structure GlobalError where
  message : String
  stack : Option String
  deriving DecidableEq, Repr

/-- The report of a test: its last attempt, and all of them. -/
structure LlmTestEntry (φ lifecycle : Type) where
  id : String
  title : String
  status : TestStatus
  flaky : Bool
  durationMs : ℚ
  location : Location
  project : String
  tags : List String
  annotations : List Annotation
  retries : ℤ
  errors : List TestError
  attachments : List TestAttachment
  stdout : String
  stderr : String
  attempts : List (AttemptResult φ lifecycle)
  error : Option TestError
  steps : List FlatStep
  network : AttemptNetwork φ lifecycle
  timeline : List TimelineEntry

/-- How many tests there are of each outcome. -/
structure TestSummary where
  total : ℕ
  passed : ℕ
  failed : ℕ
  flaky : ℕ
  skipped : ℕ
  timedOut : ℕ
  interrupted : ℕ
  deriving DecidableEq, Repr

/-- Where the tests have run. -/
structure TestEnvironment where
  playwrightVersion : String
  nodeVersion : String
  os : String
  workers : ℕ
  retries : ℕ
  projects : List String
  deriving DecidableEq, Repr

/-- The report of a run. -/
structure LlmTestReport (φ lifecycle : Type) where
  schemaVersion : ℕ
  timestamp : String
  durationMs : ℤ
  summary : TestSummary
  environment : TestEnvironment
  tests : List (LlmTestEntry φ lifecycle)
  globalErrors : List GlobalError

/-- The state of the reporter. -/
structure LlmReporter (φ lifecycle : Type) where
  config : Option FullConfig
  entriesById : OrderedMap String (LlmTestEntry φ lifecycle)
  globalErrors : List GlobalError
  startTimeMs : ℤ
  written : List String

section Handlers

variable {φ lifecycle : Type} (env : Environment φ lifecycle)

/-! ## One attempt -/

/-- `buildFullTitle`: the titles of the describe blocks from the outside in, then the test's. -/
def buildFullTitle (test : TestCase) : String :=
  " > ".intercalate (((test.suites.filter fun suite ↦
    suite.title ≠ "" ∧ suite.type = .describe).map Suite.title).reverse ++ [test.title])

/-- The report of no requests. -/
def emptyNetworkReport : AttemptNetwork φ lifecycle where
  summary :=
    { observedInstances := 0
      retainedInstances := 0
      retainedGroups := 0
      retainedBodies := 0
      instancesDroppedByFilter := 0
      instancesDroppedByGroupCap := 0
      instancesDroppedByInstanceCap := 0
      instancesSuppressedAsDuplicate := 0
      instancesEvictedAfterAdmission := 0
      bodiesOmittedByBodyCap := 0
      bodiesTruncated := 0
      bodiesCanonicalized := 0 }
  instances := []
  groups := OrderedMap.empty
  bodies := OrderedMap.empty
  clientLifecycles := []

/-- The global error for what was thrown while a test was processed. -/
def failureOf (what : String) (test : TestCase) : Thrown → GlobalError
  | .error message stack =>
      { message := "LlmReporter: " ++ what ++ " failed for test " ++ test.id ++ ": " ++ message
        stack := present stack }
  | .other text =>
      { message := "LlmReporter: " ++ what ++ " failed for test " ++ test.id ++ ": " ++ text
        stack := none }

/-- What `onTestEnd` has computed when it turns to the entries. -/
structure EndedAttempt (φ lifecycle : Type) where
  file : String
  fullTitle : String
  project : String
  status : TestStatus
  retries : ℤ
  isFlaky : Bool
  attachments : List TestAttachment
  errors : List TestError
  attemptResult : AttemptResult φ lifecycle
  globalErrors : List GlobalError

/-- The part of `onTestEnd` before the entries are looked at. -/
def endAttempt (config : FullConfig) (test : TestCase) (result : TestResult) :
    EndedAttempt φ lifecycle :=
  let retries := (test.resultCount : ℤ) - 1
  let outputDirectory := (test.project.map FullProject.outputDir).getD config.rootDir
  let (attachments, tracePaths) := collectAttachments env result.attachments outputDirectory
  let errors := result.errors.map buildTestError
  let traced := env.collectTraceDiagnosticsFromAttachments tracePaths result.startTime
  let diagnostics : TraceDiagnostics φ lifecycle :=
    match traced with
    | .ok diagnostics => diagnostics
    | .error _ =>
        { network := emptyNetworkReport
          consoleMessages := []
          failingAction := none }
  let traceErrors :=
    match traced with
    | .ok _ => []
    | .error thrown => [failureOf "trace diagnostics" test thrown]
  let (network, thrownByLifecycles) :=
    env.attachClientLifecycles result.attachments diagnostics.network result.startTime
  let lifecycleErrors :=
    thrownByLifecycles.toList.map (failureOf "client lifecycle processing" test)
  let (attemptResult, errors) := buildAttemptResult env result errors attachments network
    diagnostics.consoleMessages diagnostics.failingAction
  { file := env.relative config.rootDir test.location.file
    fullTitle := buildFullTitle test
    project := (test.project.map FullProject.name).getD ""
    status := result.status
    retries := retries
    isFlaky := result.status = .passed && retries > 0
    attachments := attachments
    errors := errors
    attemptResult := attemptResult
    globalErrors := traceErrors ++ lifecycleErrors }

/-! ## Entries -/

/-- The entry of a test that has ended for the first time. -/
def createEntry (test : TestCase) (result : TestResult) (ended : EndedAttempt φ lifecycle) :
    LlmTestEntry φ lifecycle where
  id := test.id
  title := ended.fullTitle
  status := ended.status
  flaky := ended.isFlaky
  durationMs := result.duration
  location := { file := ended.file, line := test.location.line, column := test.location.column }
  project := ended.project
  tags := test.tags
  annotations := test.annotations
  retries := ended.retries
  errors := ended.errors
  attachments := ended.attachments
  stdout := ended.attemptResult.stdout
  stderr := ended.attemptResult.stderr
  attempts := [ended.attemptResult]
  error := ended.attemptResult.error
  steps := ended.attemptResult.steps
  network := ended.attemptResult.network
  timeline := ended.attemptResult.timeline

/-- The entry of a test that has ended again. -/
def updateEntry (test : TestCase) (result : TestResult) (ended : EndedAttempt φ lifecycle)
    (existingEntry : LlmTestEntry φ lifecycle) : LlmTestEntry φ lifecycle :=
  { existingEntry with
    title := ended.fullTitle
    status := ended.status
    flaky := ended.isFlaky
    durationMs := result.duration
    location := { file := ended.file, line := test.location.line, column := test.location.column }
    project := ended.project
    tags := test.tags
    annotations := test.annotations
    retries := ended.retries
    errors := ended.errors
    error :=
      match ended.attemptResult.error with
      | some error => some error
      | none => none
    attachments := ended.attachments
    stdout := ended.attemptResult.stdout
    stderr := ended.attemptResult.stderr
    steps := ended.attemptResult.steps
    network := ended.attemptResult.network
    timeline := ended.attemptResult.timeline
    attempts := existingEntry.attempts ++ [ended.attemptResult] }

/-! ## Handlers -/

namespace LlmReporter

/-- A new reporter. -/
def initial : LlmReporter φ lifecycle where
  config := none
  entriesById := OrderedMap.empty
  globalErrors := []
  startTimeMs := 0
  written := []

/-- `onBegin` at a time. -/
def onBegin (reporter : LlmReporter φ lifecycle) (config : FullConfig) (now : ℤ) :
    LlmReporter φ lifecycle :=
  { reporter with
    config := some config
    startTimeMs := now
    entriesById := OrderedMap.empty
    globalErrors := [] }

/-- Adds the attempt that has ended to the entry of its test. Before `onBegin` nothing is
recorded. -/
def onTestEnd (reporter : LlmReporter φ lifecycle) (test : TestCase) (result : TestResult) :
    LlmReporter φ lifecycle :=
  match reporter.config with
  | none => reporter
  | some config =>
      let ended := endAttempt env config test result
      { reporter with
        written := reporter.written ++ [statusIndicator ended.status]
        globalErrors := reporter.globalErrors ++ ended.globalErrors
        entriesById :=
          match reporter.entriesById.get test.id with
          | some existingEntry =>
              reporter.entriesById.set test.id (updateEntry test result ended existingEntry)
          | none => reporter.entriesById.set test.id (createEntry test result ended) }

/-- Adds an error that belongs to no test. -/
def onError (reporter : LlmReporter φ lifecycle) (error : PlaywrightTestError) :
    LlmReporter φ lifecycle :=
  { reporter with
    globalErrors := reporter.globalErrors ++
      [{ message := stripAnsi (error.message.getD "Unknown error")
         stack := (present error.stack).map fun stack ↦
           filterStackToUserCode (stripAnsi stack) }] }

/-- `summary[status] += 1`. -/
def countStatus (summary : TestSummary) : TestStatus → TestSummary
  | .passed => { summary with passed := summary.passed + 1 }
  | .failed => { summary with failed := summary.failed + 1 }
  | .timedOut => { summary with timedOut := summary.timedOut + 1 }
  | .skipped => { summary with skipped := summary.skipped + 1 }
  | .interrupted => { summary with interrupted := summary.interrupted + 1 }

/-- Count an entry in the summary. -/
def countEntry (summary : TestSummary) (entry : LlmTestEntry φ lifecycle) : TestSummary :=
  if entry.flaky then { summary with flaky := summary.flaky + 1 }
  else countStatus summary entry.status

/-- The summary of entries. -/
def summarize (entries : List (LlmTestEntry φ lifecycle)) : TestSummary :=
  entries.foldl countEntry
    { total := entries.length
      passed := 0
      failed := 0
      flaky := 0
      skipped := 0
      timedOut := 0
      interrupted := 0 }

/-- The report of `onEnd` at a time, with the versions of the process; there is none before the
first `onBegin`. -/
def onEnd (reporter : LlmReporter φ lifecycle) (nodeVersion platform : String) (now : ℤ) :
    Option (LlmTestReport φ lifecycle) :=
  reporter.config.map fun config ↦
    let entries := reporter.entriesById.values
    { schemaVersion := 3
      timestamp := Dates.isoString reporter.startTimeMs
      durationMs := now - reporter.startTimeMs
      summary := summarize entries
      environment :=
        { playwrightVersion := config.version
          nodeVersion := nodeVersion
          os := platform
          workers := config.workers
          retries := (config.projects.map FullProject.retries).foldl max 0
          projects := config.projects.map FullProject.name }
      tests := entries
      globalErrors := reporter.globalErrors }

end LlmReporter

/-! ## Runs -/

/-- An event that Playwright reports. -/
inductive Event where
  | begin (config : FullConfig) (now : ℤ)
  | testEnd (test : TestCase) (result : TestResult)
  | error (error : PlaywrightTestError)

/-- The handler of an event. -/
def handle (reporter : LlmReporter φ lifecycle) : Event → LlmReporter φ lifecycle
  | .begin config now => reporter.onBegin config now
  | .testEnd test result => reporter.onTestEnd env test result
  | .error error => reporter.onError error

/-- A run over events. -/
def runEvents (events : List Event) : LlmReporter φ lifecycle :=
  events.foldl (handle env) LlmReporter.initial

end Handlers

end CoreUtils.Reporter
