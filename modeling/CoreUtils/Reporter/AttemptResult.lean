import Mathlib.Data.List.Infix
import CoreUtils.Library.Dates
import CoreUtils.Reporter.NetworkFinalize

/-!
# Results of attempts

What the reporter makes of one attempt of a test, after `attemptBuilder.ts`, `testResults.ts` and
`artifacts.ts`. What depends on the machine is a parameter (`Environment`): paths, files of traces
and screenshots, the lifecycle attachments, and the cutting of output at UTF-16 code units.
-/

namespace CoreUtils.Reporter

open Text

/-! ## What Playwright reports -/

/-- The outcome of an attempt. -/
inductive TestStatus where
  | passed
  | failed
  | timedOut
  | skipped
  | interrupted
  deriving DecidableEq, Repr

/-- A place in a source file. -/
structure Location where
  file : String
  line : ℕ
  column : ℕ
  deriving DecidableEq, Repr

/-- An error as Playwright reports it. -/
structure PlaywrightTestError where
  message : Option String
  stack : Option String
  snippet : Option String
  location : Option Location
  deriving DecidableEq, Repr

/-- An attachment as Playwright reports it. -/
structure PlaywrightAttachment where
  name : String
  contentType : String
  path : Option String
  deriving DecidableEq, Repr

/-- A step with the steps inside it. -/
inductive TestStep where
  | step (title category : String) (duration : ℚ) (startTime : ℤ) (errorMessage : Option String)
      (steps : List TestStep)

/-- A piece of output: text, the bytes of a buffer, or one of the two in a record. -/
inductive StdioChunk where
  | text (value : String)
  | buffer (bytes : List UInt8)
  | textRecord (value : String)
  | bufferRecord (base64 : String)

/-- The result of an attempt as Playwright reports it. -/
structure TestResult where
  status : TestStatus
  duration : ℚ
  retry : ℕ
  startTime : ℤ
  workerIndex : ℤ
  parallelIndex : ℤ
  errors : List PlaywrightTestError
  steps : List TestStep
  stdout : List StdioChunk
  stderr : List StdioChunk
  attachments : List PlaywrightAttachment

/-! ## What the report holds -/

/-- The expected and the received value of an assertion. -/
structure Diff where
  expected : String
  actual : String
  deriving DecidableEq, Repr

/-- `TestError` of the report. -/
structure TestError where
  message : String
  stack : Option String
  snippet : Option String
  diff : Option Diff
  location : Option Location
  apiName : Option String
  selector : Option String
  actionLog : Option (List String)
  deriving DecidableEq, Repr

/-- `TestAttachment` of the report. -/
structure TestAttachment where
  name : String
  contentType : String
  path : Option String
  deriving DecidableEq, Repr

/-- A step with its depth in the tree of steps. -/
structure FlatStep where
  title : String
  category : String
  durationMs : ℚ
  depth : ℕ
  offsetMs : ℚ
  error : Option String
  deriving DecidableEq

/-- A message of the console. -/
structure ConsoleEntry where
  type : String
  text : String
  offsetMs : Option ℚ
  deriving DecidableEq

/-- An action of a trace, as far as errors are enriched with it. -/
structure ActionRecord where
  apiName : Option String
  selector : Option String
  log : List String
  deriving DecidableEq, Repr

/-- The screenshot and the video of a failure. -/
structure FailureArtifacts where
  screenshotBase64 : Option String
  videoPath : Option String
  deriving DecidableEq, Repr

/-- An entry of the timeline. -/
inductive TimelineEntry where
  | step (flatStep : FlatStep)
  | network (offsetMs : ℚ) (networkId : InstanceId) (method url : String) (status : ℚ)
  | console (offsetMs : ℚ) (type text : String)
  deriving DecidableEq

/-- The offset of an entry of the timeline. -/
def TimelineEntry.offsetMs : TimelineEntry → ℚ
  | .step flatStep => flatStep.offsetMs
  | .network offsetMs _ _ _ _ => offsetMs
  | .console offsetMs _ _ => offsetMs

/-- The network report of an attempt, with the `clientLifecycle` of its instances. -/
structure AttemptNetwork (φ lifecycle : Type) extends NetworkReport φ where
  clientLifecycles : List (InstanceId × lifecycle)

/-- `AttemptResult` of the report. -/
structure AttemptResult (φ lifecycle : Type) where
  attempt : ℕ
  status : TestStatus
  durationMs : ℚ
  startTime : String
  workerIndex : ℤ
  parallelIndex : ℤ
  error : Option TestError
  steps : List FlatStep
  stdout : String
  stderr : String
  attachments : List TestAttachment
  network : AttemptNetwork φ lifecycle
  consoleMessages : List ConsoleEntry
  timeline : List TimelineEntry
  failureArtifacts : Option FailureArtifacts

/-- What is thrown: an `Error`, or a value that is turned into a text. -/
inductive Thrown where
  | error (message : String) (stack : Option String)
  | other (text : String)
  deriving DecidableEq, Repr

/-- What a trace says about an attempt. -/
structure TraceDiagnostics (φ lifecycle : Type) where
  network : AttemptNetwork φ lifecycle
  consoleMessages : List ConsoleEntry
  failingAction : Option ActionRecord

/-- The machine under the reporter: `path.relative`, the files of traces, lifecycle attachments and
screenshots, the decoding of output buffers, and `capOutput`. Attaching lifecycles changes the
network report also when it ends with an error. -/
structure Environment (φ lifecycle : Type) where
  relative : String → String → String
  collectTraceDiagnosticsFromAttachments :
    List String → ℤ → Except Thrown (TraceDiagnostics φ lifecycle)
  attachClientLifecycles : List PlaywrightAttachment → AttemptNetwork φ lifecycle → ℤ →
    AttemptNetwork φ lifecycle × Option Thrown
  embedScreenshot : String → Option String
  stdioChunkToString : StdioChunk → String
  capOutput : String → String

/-! ## Text -/

/-- Apply an operation on characters to a text. -/
def onChars (f : List Char → List Char) (text : String) : String := String.ofList (f text.toList)

/-- Whether a text includes another one. -/
def includes (text part : String) : Bool := decide (part.toList <:+: text.toList)

/-- Lower case, as far as ASCII goes; the texts that are looked for are ASCII. -/
def toLowerCase (text : String) : String := onChars (List.map Char.toLower) text

/-- The rest of an escape sequence after its bracket: digits and semicolons up to an `m`. -/
def afterEscape : List Char → Option (List Char)
  | 'm' :: rest => some rest
  | c :: rest => if c.isDigit || c == ';' then afterEscape rest else none
  | [] => none

/-- Remove `/\x1B\[[0-9;]*m/g`, with a bound on the number of characters. -/
def stripAnsiUpTo : ℕ → List Char → List Char
  | 0, text => text
  | _, [] => []
  | bound + 1, c :: rest =>
      match c, rest with
      | '\x1b', '[' :: sequence =>
          match afterEscape sequence with
          | some after => stripAnsiUpTo bound after
          | none => c :: stripAnsiUpTo bound rest
      | _, _ => c :: stripAnsiUpTo bound rest

/-- A text without the escape sequences of colors. -/
def stripAnsi (text : String) : String :=
  onChars (fun chars ↦ stripAnsiUpTo chars.length chars) text

/-- A text without white space at its ends. -/
def trimText (text : String) : String := onChars (trim isWhiteSpace) text

/-- The lines of a text. -/
def linesOf (text : String) : List String := (text.toList.splitOn '\n').map String.ofList

/-- The first line of a text without colors and blanks around it, none if nothing is left. -/
def extractFirstLine (text : Option String) : Option String :=
  let firstLine := trimText ((linesOf (stripAnsi (text.getD ""))).headD "")
  if firstLine = "" then none else some firstLine

/-- A stack without the frames of packages and of Node. -/
def filterStackToUserCode (stack : String) : String :=
  "\n".intercalate ((linesOf stack).filter fun line ↦
    !includes line "    at " || (!includes line "node_modules" && !includes line "node:internal"))

/-- The line terminators that a dot does not match. -/
def isLineTerminator (c : Char) : Bool :=
  c == '\n' || c == '\r' || c == Char.ofNat 0x2028 || c == Char.ofNat 0x2029

/-- The value in a line such as `Expected string: value`, after
`/^Expected\b[^:]*:[ \t]*(?<value>.+)/i`. Where nothing follows the blanks, the last blank is the
value. -/
def labelledValue (label : String) (line : List Char) : Option String :=
  let rest := line.drop label.length
  if (line.take label.length).map Char.toLower = label.toList.map Char.toLower ∧
      rest.head?.all (fun c ↦ !isWordChar c) then
    match rest.dropWhile (· != ':') with
    | ':' :: afterColon =>
        let blanks := afterColon.takeWhile fun c ↦ c == ' ' || c == '\t'
        let value := (afterColon.drop blanks.length).takeWhile fun c ↦ !isLineTerminator c
        if value ≠ [] then some (String.ofList value)
        else blanks.getLast?.map String.singleton
    | _ => none
  else none

/-- The expected and the received value of a message, each from the last line that has its label.
There is no difference if one of them is missing or empty. -/
def extractDiff (message : String) : Option Diff :=
  let valueOf (label : String) : Option String :=
    ((linesOf message).filterMap fun line ↦ labelledValue label line.toList).getLast?.map
      fun value ↦ trimText (stripAnsi value)
  match valueOf "Expected", valueOf "Received" with
  | some expected, some actual =>
      if expected ≠ "" ∧ actual ≠ "" then some { expected := expected, actual := actual } else none
  | _, _ => none

/-- A text that is there and not empty. -/
def present (text : Option String) : Option String := text.filter (· ≠ "")

/-! ## Test results -/

/-- The report of an error: its texts without colors, and the difference that its message shows. -/
def buildTestError (error : PlaywrightTestError) : TestError where
  message := stripAnsi (error.message.getD "Unknown error")
  stack := (present error.stack).map fun stack ↦ filterStackToUserCode (stripAnsi stack)
  snippet := (present error.snippet).map stripAnsi
  diff := extractDiff (error.message.getD "")
  location := error.location
  apiName := none
  selector := none
  actionLog := none

/-- The letter that the progress shows for a status. -/
def statusIndicator : TestStatus → String
  | .passed => "."
  | .failed => "F"
  | .timedOut => "T"
  | .interrupted => "I"
  | .skipped => "S"

mutual
/-- A step and the steps inside it, each with its depth. -/
def flattenStep (attemptStartTimeMs : ℤ) (depth : ℕ) : TestStep → List FlatStep
  | .step title category duration startTime errorMessage steps =>
      { title := title
        category := category
        durationMs := duration
        depth := depth
        offsetMs := startTime - attemptStartTimeMs
        error := extractFirstLine errorMessage } ::
        flattenSteps attemptStartTimeMs (depth + 1) steps

/-- The steps of a list and those below them, each before its own. -/
def flattenSteps (attemptStartTimeMs : ℤ) (depth : ℕ) : List TestStep → List FlatStep
  | [] => []
  | step :: steps =>
      flattenStep attemptStartTimeMs depth step ++ flattenSteps attemptStartTimeMs depth steps
end

section Attempts

variable {φ lifecycle : Type} (env : Environment φ lifecycle)

/-- `collectStdio` of one channel. -/
def collectStdio (chunks : List StdioChunk) : String :=
  env.capOutput (stripAnsi ("".intercalate (chunks.map env.stdioChunkToString)))

/-! ## Attachments -/

/-- The attachments of the report, and the paths of the traces among them, after
`collectAttachments`. -/
def collectAttachments (attachments : List PlaywrightAttachment) (outputDirectory : String) :
    List TestAttachment × List String :=
  (attachments.map fun attachment ↦
      { name := attachment.name
        contentType := attachment.contentType
        path := (present attachment.path).map (env.relative outputDirectory) },
    attachments.filterMap fun attachment ↦
      if attachment.contentType = "application/zip" ∧
          includes (toLowerCase attachment.name) "trace" then present attachment.path
      else none)

/-- `findScreenshotAttachment`: the first attachment named a screenshot, or the first image, among
those with a path. -/
def findScreenshotAttachment (attachments : List PlaywrightAttachment) :
    Option PlaywrightAttachment :=
  let withPath := attachments.filter fun attachment ↦ (present attachment.path).isSome
  (withPath.find? fun attachment ↦ includes (toLowerCase attachment.name) "screenshot").or
    (withPath.find? fun attachment ↦ attachment.contentType.startsWith "image/")

/-- The artifacts of an attempt that has neither passed nor been skipped. -/
def extractFailureArtifacts (status : TestStatus) (attachments : List TestAttachment) :
    Option FailureArtifacts :=
  if status = .passed ∨ status = .skipped then none
  else some
    { screenshotBase64 := none
      videoPath := attachments.findSome? fun attachment ↦
        if attachment.contentType.startsWith "video/" ||
            includes (toLowerCase attachment.name) "video" then present attachment.path
        else none }

/-! ## Attempts -/

/-- The steps, requests and messages of an attempt by their offsets. Those of one offset stay in
this order, and those without an offset are left out. -/
def buildTimeline (steps : List FlatStep) (instances : List NetworkInstance)
    (consoleMessages : List ConsoleEntry) : List TimelineEntry :=
  let networkEntries := instances.filterMap fun inst ↦ inst.offsetMs.map fun offsetMs ↦
    TimelineEntry.network offsetMs inst.id inst.method inst.url inst.status
  let consoleEntries := consoleMessages.filterMap fun entry ↦ entry.offsetMs.map fun offsetMs ↦
    TimelineEntry.console offsetMs entry.type entry.text
  (steps.map TimelineEntry.step ++ networkEntries ++ consoleEntries).insertionSort
    fun a b ↦ a.offsetMs ≤ b.offsetMs

/-- The status is one of a test that has not succeeded. -/
def shouldEnrichError (status : TestStatus) : Bool :=
  status = .failed || status = .timedOut || status = .interrupted

/-- The error with what is known of the failing action, where it does not say so itself. -/
def enrichErrorWithAction (error : TestError) (action : ActionRecord) : TestError :=
  { error with
    apiName := error.apiName.or action.apiName
    selector := error.selector.or action.selector
    actionLog := error.actionLog.or (if action.log ≠ [] then some action.log else none) }

/-- The errors as `buildAttemptResult` leaves them: the first one is enriched in place. -/
def enrichedErrors (status : TestStatus) (failingAction : Option ActionRecord) :
    List TestError → List TestError
  | [] => []
  | firstError :: errors =>
      match failingAction with
      | some action =>
          if shouldEnrichError status then enrichErrorWithAction firstError action :: errors
          else firstError :: errors
      | none => firstError :: errors

/-- The failure artifacts of an attempt with the screenshot in them, unless they are empty. -/
def buildFailureArtifacts (result : TestResult) (attachments : List TestAttachment) :
    Option FailureArtifacts :=
  ((extractFailureArtifacts result.status attachments).map fun artifacts ↦
      { artifacts with
        screenshotBase64 := ((findScreenshotAttachment result.attachments).bind
          fun screenshot ↦ (present screenshot.path).bind env.embedScreenshot) }).filter
    fun artifacts ↦ artifacts.screenshotBase64.isSome || artifacts.videoPath.isSome

/-- `buildAttemptResult`, together with the errors as it leaves them. -/
def buildAttemptResult (result : TestResult) (errors : List TestError)
    (attachments : List TestAttachment) (network : AttemptNetwork φ lifecycle)
    (consoleMessages : List ConsoleEntry) (failingAction : Option ActionRecord) :
    AttemptResult φ lifecycle × List TestError :=
  let steps := flattenSteps result.startTime 0 result.steps
  let errors := enrichedErrors result.status failingAction errors
  ({ attempt := result.retry + 1
     status := result.status
     durationMs := result.duration
     startTime := Dates.isoString result.startTime
     workerIndex := result.workerIndex
     parallelIndex := result.parallelIndex
     error := errors.head?
     steps := steps
     stdout := collectStdio env result.stdout
     stderr := collectStdio env result.stderr
     attachments := attachments
     network := network
     consoleMessages := consoleMessages
     timeline := buildTimeline steps network.instances consoleMessages
     failureArtifacts := buildFailureArtifacts env result attachments },
    errors)

end Attempts

end CoreUtils.Reporter
