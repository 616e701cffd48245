import CoreUtils.Library.StateExcept
import CoreUtils.Reporter.AttemptTimeline
import CoreUtils.Reporter.ClientLifecycleAttaching
import CoreUtils.Reporter.TraceDiagnostics

/-!
# The reporter on a machine

The reporter with the diagnostics of traces and the attaching of lifecycles as they are, on a
machine that has files (`environmentOf`). Whatever its files hold, no test that ends makes a global
error, and every attempt in the report stays within its bounds (`report_bounded`).
-/

namespace CoreUtils.Reporter

open Trace Lifecycle

/-! ## The machine -/

/-- The greatest length of what is reported of an output. -/
def STDOUT_CAP : ℕ := 4096

/-- `SCREENSHOT_BASE64_CAP`. -/
def SCREENSHOT_BASE64_CAP : ℕ := 524288

/-- An output, cut at its greatest length. -/
def capOutput (text : String) : String := capString text STDOUT_CAP

/-- The machine under the reporter: those under the diagnostics and the attaching, the bodies of
attachments, `path.relative`, `readFileSync`, with nothing for an error, and base64. -/
structure ReporterMachine (φ : Type) where
  trace : TraceMachine φ
  lifecycle : AttachmentMachine
  attachmentBody : PlaywrightAttachment → Option (List ℕ)
  relative : String → String → String
  readFileSync : String → Option Zip.Bytes
  toBase64 : Zip.Bytes → String
  fromBase64 : String → Zip.Bytes

variable {φ : Type} [DecidableEq φ] (machine : ReporterMachine φ)

/-- The text of a chunk, where bytes are read as UTF-8. -/
def stdioChunkToString : StdioChunk → String
  | .text value => value
  | .buffer bytes => String.ofList (Zip.toUtf8String bytes)
  | .textRecord value => value
  | .bufferRecord base64 => String.ofList (Zip.toUtf8String (machine.fromBase64 base64))

/-- The screenshot that `embedScreenshot` embeds, if it can be read and is not too large. -/
def embedScreenshot (absoluteScreenshotPath : String) : Option String := do
  let raw ← machine.readFileSync absoluteScreenshotPath
  if raw.length > SCREENSHOT_BASE64_CAP * 3 / 4 then none
  else
    let base64 := machine.toBase64 raw
    if lengthOf base64 ≤ SCREENSHOT_BASE64_CAP then some base64 else none

/-- An attachment as `attachClientLifecycles` reads it. -/
def lifecycleAttachment (attachment : PlaywrightAttachment) : LifecycleAttachment where
  name := attachment.name.toList
  body := machine.attachmentBody attachment
  path := attachment.path.map String.toList

/-- The lifecycles that are attached to the instances of a report. -/
def attachedLifecycles (attachments : List PlaywrightAttachment) (network : NetworkReport φ)
    (attemptStartTimeMs : ℤ) : List (InstanceId × ClientLifecycle LifecycleDetails) :=
  (attachClientLifecycles machine.lifecycle (attachments.map (lifecycleAttachment machine)) network
    attemptStartTimeMs).filterMap fun joined ↦
      joined.clientLifecycle.map fun lifecycle ↦ (joined.instance_.id, lifecycle)

/-- What the reporter runs on. -/
def environmentOf : Environment φ (ClientLifecycle LifecycleDetails) where
  relative := machine.relative
  collectTraceDiagnosticsFromAttachments :=
    collectTraceDiagnosticsFromAttachments machine.trace
  attachClientLifecycles attachments network attemptStartTimeMs :=
    ({ network with
      clientLifecycles := attachedLifecycles machine attachments network.toNetworkReport
        attemptStartTimeMs }, none)
  embedScreenshot := embedScreenshot machine
  stdioChunkToString := stdioChunkToString machine
  capOutput := capOutput

/-! ## Bounds -/

/-- An attempt of the report within its bounds. -/
structure AttemptResult.Bounded (attempt : AttemptResult φ (ClientLifecycle LifecycleDetails)) :
    Prop where
  stdout : lengthOf attempt.stdout ≤ 4096
  stderr : lengthOf attempt.stderr ≤ 4096
  consoleMessages : attempt.consoleMessages.length ≤ 50
  instances : attempt.network.instances.length ≤ 500
  groups : attempt.network.groups.size ≤ 200
  bodies : attempt.network.bodies.size ≤ 100
  /-- Every request that was observed is accounted for. -/
  accounted : NetworkBuilder.totalAccounted attempt.network.summary =
    attempt.network.summary.observedInstances
  screenshot : ∀ artifacts ∈ attempt.failureArtifacts, ∀ base64 ∈ artifacts.screenshotBase64,
    lengthOf base64 ≤ 524288
  /-- What is attached to a request is attached to one of the report, and conforms. -/
  lifecycles : ∀ attached ∈ attempt.network.clientLifecycles, attached.2.Conforms ∧
    ∃ inst ∈ attempt.network.instances, inst.id = attached.1

variable {machine}

/-- The report of a builder that passes its checks. -/
theorem report_of_finalize {b : NetworkBuilder φ} {report : NetworkReport φ}
    (h : b.finalize = .ok report) : report = b.reportOf := by
  obtain ⟨-, -, h⟩ := StateExcept.except_bind_eq_ok.mp h
  exact (Except.ok.inj h).symm

/-- The diagnostics of traces are returned, within their bounds. -/
theorem exists_diagnostics (trace : TraceMachine φ) (hinj : Function.Injective trace.hashShape)
    (lifecycle : Type) (tracePaths : List String) (attemptStartTimeMs : ℤ) :
    ∃ diagnostics : TraceDiagnostics φ lifecycle,
      collectTraceDiagnosticsFromAttachments trace tracePaths attemptStartTimeMs =
        .ok diagnostics ∧
      diagnostics.consoleMessages.length ≤ 50 ∧
      diagnostics.network.instances.length ≤ 500 ∧ diagnostics.network.groups.size ≤ 200 ∧
      diagnostics.network.bodies.size ≤ 100 ∧
      NetworkBuilder.totalAccounted diagnostics.network.summary =
        diagnostics.network.summary.observedInstances := by
  have hcollectors := @collectors_eq φ trace _ attemptStartTimeMs tracePaths
  simp only at hcollectors
  set sources := sourcesOf trace attemptStartTimeMs tracePaths
  have hinvariant := NetworkBuilder.admitAll_invariant hinj
    (sources.flatMap TraceSource.observations)
  generalize NetworkBuilder.admitAll trace.hashShape
    (sources.flatMap TraceSource.observations) = b at hcollectors hinvariant
  obtain ⟨network, hfinalize, hreported, htotal, -⟩ := NetworkBuilder.finalize_spec hinvariant
  obtain rfl := report_of_finalize hfinalize
  have hgroups : b.reportOf.groups.size = b.groupsById.size := OrderedMap.size_mapValues _ _
  have hconsole := PriorityBuffer.retains_foldl CONSOLE_MESSAGES_CAP isHighSignalConsoleEntry
    (sources.flatMap TraceSource.consoleEntries)
  rw [← appendConsoleEntryWithPriority_eq_push] at hconsole
  let diagnostics : TraceDiagnostics φ lifecycle :=
    { network := { toNetworkReport := b.reportOf, clientLifecycles := [] }
      consoleMessages := collectConsoleEntries (sources.flatMap TraceSource.consoleEntries)
      failingAction := (ActionBuilder.admitAll (sources.flatMap
        TraceSource.events)).findFailingAction.map ActionRecord.enrichment }
  have hok : collectTraceDiagnosticsFromAttachments trace tracePaths attemptStartTimeMs =
      .ok diagnostics := by
    rw [collectTraceDiagnosticsFromAttachments, hcollectors]
    simp only [hfinalize]
    rfl
  exact ⟨diagnostics, hok, hconsole.length.trans_le (min_le_left _ _),
    hreported.length.trans_le hinvariant.instances_cap, hgroups.trans_le hinvariant.groups_cap,
    (congrArg OrderedMap.size hreported.bodies).trans_le hinvariant.bodies_cap, htotal⟩

omit [DecidableEq φ] in
/-- What is attached is attached to an instance of the report, and conforms. -/
theorem attached_lifecycles_conform (hformats : machine.lifecycle.runtime.Formats)
    (attachments : List PlaywrightAttachment) (network : NetworkReport φ)
    (attemptStartTimeMs : ℤ) :
    ∀ attached ∈ attachedLifecycles machine attachments network attemptStartTimeMs,
      attached.2.Conforms ∧ ∃ inst ∈ network.instances, inst.id = attached.1 := by
  intro attached hattached
  obtain ⟨joined, hjoined, hattached⟩ := List.mem_filterMap.mp hattached
  obtain ⟨lifecycle, hlifecycle, rfl⟩ := Option.map_eq_some_iff.mp hattached
  obtain ⟨hinst, hlifecycles⟩ := attached_conforms hformats hjoined
  exact ⟨(hlifecycles lifecycle hlifecycle).1, joined.instance_, hinst, rfl⟩

omit [DecidableEq φ] in
/-- A screenshot that is embedded is not too large. -/
theorem embed_screenshot_bounded {path base64 : String}
    (h : embedScreenshot machine path = some base64) : lengthOf base64 ≤ 524288 := by
  obtain ⟨raw, -, h⟩ := Option.bind_eq_some_iff.mp h
  split at h
  next => contradiction
  next =>
    simp only at h
    split at h
    next hfits =>
      obtain rfl := Option.some.inj h
      exact hfits
    next => contradiction

omit [DecidableEq φ] in
/-- Output that is kept is not too long. -/
theorem length_cap_output_le (text : String) : lengthOf (capOutput text) ≤ 4096 :=
  length_cap_string_le text (by decide : 11 ≤ STDOUT_CAP)

omit [DecidableEq φ] in
/-- The output of an attempt that is built. -/
theorem stdio_build_attempt (env : Environment φ (ClientLifecycle LifecycleDetails))
    (result : TestResult) (errors : List TestError) (attachments : List TestAttachment)
    (network : AttemptNetwork φ (ClientLifecycle LifecycleDetails))
    (consoleMessages : List ConsoleEntry) (failingAction : Option ActionRecord) :
    let attempt := (buildAttemptResult env result errors attachments network consoleMessages
      failingAction).1
    attempt.stdout = collectStdio env result.stdout ∧
      attempt.stderr = collectStdio env result.stderr :=
  ⟨rfl, rfl⟩

/-- What is built of diagnostics within their bounds is within its bounds. -/
theorem build_attempt_bounded (result : TestResult) (errors : List TestError)
    (attachments : List TestAttachment)
    (network : AttemptNetwork φ (ClientLifecycle LifecycleDetails))
    (consoleMessages : List ConsoleEntry) (failingAction : Option ActionRecord)
    (hconsole : consoleMessages.length ≤ 50) (hinstances : network.instances.length ≤ 500)
    (hgroups : network.groups.size ≤ 200) (hbodies : network.bodies.size ≤ 100)
    (htotal : NetworkBuilder.totalAccounted network.summary = network.summary.observedInstances)
    (hlifecycles : ∀ attached ∈ network.clientLifecycles, attached.2.Conforms ∧
      ∃ inst ∈ network.instances, inst.id = attached.1) :
    (buildAttemptResult (environmentOf machine) result errors attachments network consoleMessages
      failingAction).1.Bounded := by
  have hstdio : ∀ chunks, lengthOf (collectStdio (environmentOf machine) chunks) ≤ 4096 := by
    intro chunks
    simp only [collectStdio, environmentOf]
    exact length_cap_output_le _
  obtain ⟨hstdout, hstderr⟩ := stdio_build_attempt (environmentOf machine) result errors attachments
    network consoleMessages failingAction
  exact
    { stdout := hstdout ▸ hstdio result.stdout
      stderr := hstderr ▸ hstdio result.stderr
      consoleMessages := hconsole
      instances := hinstances
      groups := hgroups
      bodies := hbodies
      accounted := htotal
      screenshot := by
        intro artifacts hartifacts base64 hbase64
        obtain ⟨hkept, -⟩ := Option.filter_eq_some_iff.mp hartifacts
        obtain ⟨extracted, -, rfl⟩ := Option.map_eq_some_iff.mp hkept
        obtain ⟨screenshot, -, hembedded⟩ := Option.bind_eq_some_iff.mp hbase64
        obtain ⟨path, -, hembedded⟩ := Option.bind_eq_some_iff.mp hembedded
        exact embed_screenshot_bounded hembedded
      lifecycles := hlifecycles }

/-- An attempt stays within its bounds, and makes no global error. -/
theorem end_attempt_bounded (hinj : Function.Injective machine.trace.hashShape)
    (hformats : machine.lifecycle.runtime.Formats) (config : FullConfig) (test : TestCase)
    (result : TestResult) :
    (endAttempt (environmentOf machine) config test result).globalErrors = [] ∧
      (endAttempt (environmentOf machine) config test result).attemptResult.Bounded := by
  set tracePaths := (collectAttachments (environmentOf machine) result.attachments
    ((test.project.map FullProject.outputDir).getD config.rootDir)).2 with htracePaths
  obtain ⟨diagnostics, hok, hconsole, hinstances, hgroups, hbodies, htotal⟩ :=
    exists_diagnostics machine.trace hinj (ClientLifecycle LifecycleDetails) tracePaths
      result.startTime
  have hcollect : (environmentOf machine).collectTraceDiagnosticsFromAttachments tracePaths
      result.startTime = .ok diagnostics := hok
  constructor
  · simp only [endAttempt, ← htracePaths, hcollect]
    rfl
  · simp only [endAttempt, ← htracePaths, hcollect]
    exact build_attempt_bounded result _ _ _ _ _ hconsole hinstances hgroups hbodies htotal
      (attached_lifecycles_conform hformats result.attachments _ _)

/-! ## Reports -/

/-- The global errors that Playwright reports itself, as the report has them. -/
def reportedErrors (events : List Event) : List GlobalError :=
  events.filterMap fun event ↦
    match event with
    | .error error => some
        { message := stripAnsi (error.message.getD "Unknown error")
          stack := (present error.stack).map fun stack ↦ filterStackToUserCode (stripAnsi stack) }
    | _ => none

/-- After the last `onBegin` the global errors are those that Playwright reports itself. -/
theorem global_errors_run (hinj : Function.Injective machine.trace.hashShape)
    (hformats : machine.lifecycle.runtime.Formats) {events : List Event}
    (hevents : ∀ event ∈ events, event.isBegin = false)
    (reporter : LlmReporter φ (ClientLifecycle LifecycleDetails)) :
    (events.foldl (handle (environmentOf machine)) reporter).globalErrors =
      reporter.globalErrors ++ reportedErrors events := by
  induction events generalizing reporter with
  | nil => exact (List.append_nil _).symm
  | cons event events ih =>
      have hevent := hevents event List.mem_cons_self
      rw [List.foldl_cons, ih fun other hother ↦ hevents other (List.mem_cons_of_mem _ hother)]
      cases event with
      | begin config now => simp [Event.isBegin] at hevent
      | testEnd test result =>
          have hsame : (handle (environmentOf machine) reporter
              (.testEnd test result)).globalErrors = reporter.globalErrors := by
            show (reporter.onTestEnd (environmentOf machine) test result).globalErrors = _
            unfold LlmReporter.onTestEnd
            split
            next => rfl
            next config _ =>
              show reporter.globalErrors ++ _ = _
              rw [(end_attempt_bounded hinj hformats config test result).1, List.append_nil]
          rw [hsame]
          rfl
      | error error => exact List.append_assoc reporter.globalErrors _ (reportedErrors events)

/-- Whatever the files of traces, attachments and screenshots hold: the report of a run has exactly
the global errors that Playwright has reported since the last `onBegin`, none of its own, and every
attempt in it is within its bounds. -/
theorem report_bounded (hinj : Function.Injective machine.trace.hashShape)
    (hformats : machine.lifecycle.runtime.Formats) (before after : List Event)
    (config : FullConfig) (startTime : ℤ) (nodeVersion platform : String) (endTime : ℤ)
    (hafter : ∀ event ∈ after, event.isBegin = false) :
    ∃ report, (runEvents (environmentOf machine)
        (before ++ .begin config startTime :: after)).onEnd nodeVersion platform endTime =
          some report ∧
      report.globalErrors = reportedErrors after ∧
      ∀ entry ∈ report.tests, ∀ attempt ∈ entry.attempts, attempt.Bounded := by
  set events := before ++ .begin config startTime :: after with hevents
  have hrun : runEvents (environmentOf machine) events =
      after.foldl (handle (environmentOf machine))
        ((runEvents (environmentOf machine) before).onBegin config startTime) := by
    rw [hevents, runEvents, List.foldl_append, List.foldl_cons]
    rfl
  have hconfig : (runEvents (environmentOf machine) events).config = some config := by
    rw [hrun]
    exact ((records_on_begin _ config startTime).run hafter).config_eq
  have herrors := global_errors_run hinj hformats hafter
    ((runEvents (environmentOf machine) before).onBegin config startTime)
  obtain ⟨report, hreport⟩ : ∃ report, (runEvents (environmentOf machine) events).onEnd nodeVersion
      platform endTime = some report := by
    rw [LlmReporter.onEnd, hconfig]
    exact ⟨_, rfl⟩
  obtain ⟨_, -, hfields⟩ := Option.map_eq_some_iff.mp hreport
  refine ⟨report, hreport, ?_, fun entry hentry attempt hattempt ↦ ?_⟩
  · rw [← hfields]
    show (runEvents (environmentOf machine) events).globalErrors = _
    rw [hrun, herrors]
    rfl
  · rw [← hfields] at hentry
    obtain ⟨id, hget⟩ := OrderedMap.mem_values.mp hentry
    obtain ⟨config, testEnd, -, rfl⟩ :=
      attempts_from_run (environmentOf machine) events id entry hget attempt hattempt
    exact (end_attempt_bounded hinj hformats config testEnd.1 testEnd.2).2

/-- A machine with one trace and no other files. -/
def sampleReporter : ReporterMachine NetworkObservationShape where
  trace := sampleMachine
  lifecycle := plainMachine
  attachmentBody _ := none
  relative _ path := path
  readFileSync _ := none
  toBase64 _ := ""
  fromBase64 _ := []

/-- An error that is reported outside of tests. -/
def outsideError : PlaywrightTestError := ⟨some "worker crashed", none, none, none⟩

/-- The report of a test with a trace and of an error outside of tests. -/
theorem report_bounded_sample :
    ∃ report, (runEvents (environmentOf sampleReporter) [.begin plainConfig 0,
        .testEnd (loginTest 1) { retryResult .failed 0 with
          attachments := [⟨"trace", "application/zip", some "trace.zip"⟩] },
        .error outsideError]).onEnd "22.0.0" "linux" 9 = some report ∧
      report.globalErrors.length = 1 ∧
      ∀ entry ∈ report.tests, ∀ attempt ∈ entry.attempts, attempt.Bounded := by
  obtain ⟨report, hreport, herrors, hbounded⟩ :=
    @report_bounded _ _ sampleReporter Function.injective_id example_runtime_formats []
      [.testEnd (loginTest 1) { retryResult .failed 0 with
        attachments := [⟨"trace", "application/zip", some "trace.zip"⟩] }, .error outsideError]
      plainConfig 0 "22.0.0" "linux" 9 (by simp [Event.isBegin])
  exact ⟨report, hreport, by rw [herrors]; rfl, hbounded⟩

end CoreUtils.Reporter
