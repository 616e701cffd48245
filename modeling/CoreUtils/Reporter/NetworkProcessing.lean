import CoreUtils.Library.Json
import CoreUtils.Library.NumericText
import CoreUtils.Reporter.NetworkBuilder
import CoreUtils.Reporter.Traceparent
import CoreUtils.Reporter.ZipArchive
import Mathlib.Data.List.Infix
import Mathlib.Data.Rat.Floor

/-!
# Observations from traces

How `networkProcessing.ts` reads the instance and the bodies of an observation from a resource
snapshot of a trace. Headers are those that passed the allow list. The platform gives case mapping
and the reading of dates; hashing is a parameter where it is used. Sums of times are rounded to
doubles; one that is beyond them counts as missing.
-/

namespace CoreUtils.Reporter.Trace

open Text HexText NumericText

/-- What is used of the platform. `dateParse` is the time of `new Date`, with nothing for `NaN`. -/
structure Platform where
  toLowerCase : Text → Text
  dateParse : Text → Option ℤ

/-- A platform that lowers ASCII letters. -/
def asciiPlatform : Platform where
  toLowerCase := List.map Char.toLower
  dateParse _ := none

/-- Headers by their lower-case names. -/
abbrev Headers := OrderedMap Text Text

/-- A header, if there are any. -/
def headerOf (headers : Option Headers) (name : String) : Option Text :=
  headers.bind (·.get name.toList)

/-- The text that a value is. -/
def asString (value : Option Json) : Option Text := value.bind Json.asString

/-- The number that a value is. -/
def asNumber (value : Option Json) : Option ℚ := value.bind Json.asNumber

/-- `asRecord`: an object or an array, whose members are looked up. -/
def asRecord : Option Json → Option Json
  | some (.object members) => some (.object members)
  | some (.array values) => some (.array values)
  | _ => none

/-! ## Times -/

/-- A time on the clock of the wall and on the monotonic one. -/
structure MonotonicAnchor where
  wallTimeMs : ℚ
  monotonicTimeMs : ℚ

/-- The offset of a monotonic time from the start of the attempt, in doubles. It is none if a number
leaves their range. -/
def monotonicToOffsetMs (monotonicTimeMs : ℚ) (anchor : MonotonicAnchor)
    (attemptStartTimeMs : ℚ) : Option ℚ := do
  let elapsedMs ← roundToDouble (monotonicTimeMs - anchor.monotonicTimeMs)
  let wallTimeMs ← roundToDouble (anchor.wallTimeMs + elapsedMs)
  -- `Math.round` rounds halves up
  roundToDouble (⌊wallTimeMs + 1 / 2⌋ - attemptStartTimeMs)

/-- The offset of a request: by the monotonic clock if there is an anchor, else by its date, none if
this is missing or not parsed. -/
def computeNetworkOffsetMs (platform : Platform) (snapshotRecord : Json)
    (anchor : Option MonotonicAnchor) (attemptStartTimeMs : ℚ) : Option ℚ :=
  match asNumber (snapshotRecord.member "_monotonicTime".toList), anchor with
  | some monotonicTimeMs, some anchor =>
      monotonicToOffsetMs monotonicTimeMs anchor attemptStartTimeMs
  | _, _ => do
      let startedDateTime ←
        (asString (snapshotRecord.member "startedDateTime".toList)).filter (· ≠ [])
      let parsedMs ← platform.dateParse startedDateTime
      roundToDouble (parsedMs - attemptStartTimeMs)

/-- The offset depends on two members of the snapshot. -/
theorem compute_network_offset_ms_congr {platform : Platform} {snapshotRecord other : Json}
    (hmonotonic : snapshotRecord.member "_monotonicTime".toList =
      other.member "_monotonicTime".toList)
    (hstarted : snapshotRecord.member "startedDateTime".toList =
      other.member "startedDateTime".toList)
    (anchor : Option MonotonicAnchor) (attemptStartTimeMs : ℚ) :
    computeNetworkOffsetMs platform snapshotRecord anchor attemptStartTimeMs =
      computeNetworkOffsetMs platform other anchor attemptStartTimeMs := by
  unfold computeNetworkOffsetMs
  simp only [hmonotonic, hstarted]

/-- A timing of `extractNetworkTimings`. -/
def timingOf (timingsRecord : Json) (name : String) : Option ℚ :=
  (asNumber (timingsRecord.member name.toList)).filter (0 ≤ ·)

/-- The durations of the phases of a request, none if there is no record of them or all are
missing. -/
def extractNetworkTimings (snapshotRecord : Json) : Option NetworkTimingBreakdown := do
  let timingsRecord ← asRecord (snapshotRecord.member "timings".toList)
  let timings : NetworkTimingBreakdown :=
    { sendMs := timingOf timingsRecord "send"
      waitMs := timingOf timingsRecord "wait"
      receiveMs := timingOf timingsRecord "receive"
      dnsMs := timingOf timingsRecord "dns"
      connectMs := timingOf timingsRecord "connect"
      sslMs := timingOf timingsRecord "ssl" }
  if timings = ⟨none, none, none, none, none, none⟩ then none else some timings

/-- The sum of the known durations in doubles, none if none is known or the sum leaves their
range. -/
def deriveNetworkDurationMs (timings : Option NetworkTimingBreakdown) : Option ℚ := do
  let timings ← timings
  let timingValues :=
    [timings.sendMs, timings.waitMs, timings.receiveMs, timings.dnsMs, timings.connectMs]
  let known := timingValues.filterMap id
  if known = [] then none
  else known.foldlM (fun totalDurationMs value ↦ roundToDouble (totalDurationMs + value)) 0

/-! ## Trace context -/

/-- What `extractTraceContext` returns. -/
structure TraceContext where
  traceId : Text
  spanId : Option Text
  deriving DecidableEq

/-- A decimal identifier as so many hexadecimal digits. It is none if it has other characters, is
zero or has more than 64 bits. -/
def parseDatadogIdentifier (value : Option Text) (hexadecimalWidth : ℕ) : Option Text := do
  let value ← value
  if value = [] ∨ value.all Char.isDigit = false then none
  else
    let identifier := Nat.ofDigitChars 10 value 0
    if identifier = 0 ∨ 0xffffffffffffffff < identifier then none
    else some ((Nat.toDigits 16 identifier).leftpad hexadecimalWidth '0')

/-- The ids of the trace of a request: those of the response, else those of Datadog, else those of
the request. -/
def extractTraceContext (platform : Platform) (requestHeaders responseHeaders : Option Headers) :
    Option TraceContext :=
  match parseTraceparent platform.toLowerCase (headerOf responseHeaders "traceparent") with
  | some responseTraceContext =>
      some ⟨responseTraceContext.traceId, some responseTraceContext.spanId⟩
  | none =>
      match parseDatadogIdentifier (headerOf requestHeaders "x-datadog-trace-id") 32 with
      | some datadogTraceId =>
          let datadogParentId :=
            parseDatadogIdentifier (headerOf requestHeaders "x-datadog-parent-id") 16
          some ⟨datadogTraceId, datadogParentId⟩
      | none =>
          (parseTraceparent platform.toLowerCase (headerOf requestHeaders "traceparent")).map
            fun ids ↦ ⟨ids.traceId, some ids.spanId⟩

/-! ## Instances -/

/-- The parameters of `buildInstance`. -/
structure BuildInstanceParams where
  snapshotRecord : Json
  responseRecord : Json
  requestHeaders : Option Headers
  responseHeaders : Option Headers
  anchor : Option MonotonicAnchor
  attemptStartTimeMs : ℚ

/-- The instance that is retained of an observation. -/
def buildInstance (platform : Platform) (params : BuildInstanceParams) :
    NetworkObservationInstance :=
  let timings := extractNetworkTimings params.snapshotRecord
  let traceContext :=
    extractTraceContext platform params.requestHeaders params.responseHeaders
  let requestId := (headerOf params.requestHeaders "x-request-id").or
    (headerOf params.responseHeaders "x-request-id")
  let correlationId := (headerOf params.requestHeaders "x-correlation-id").or
    (headerOf params.responseHeaders "x-correlation-id")
  let redirectToUrl :=
    (asString (params.responseRecord.member "redirectURL".toList)).filter (· ≠ [])
  { offsetMs := computeNetworkOffsetMs platform params.snapshotRecord params.anchor
      params.attemptStartTimeMs
    durationMs := deriveNetworkDurationMs timings
    timings := timings
    traceId := traceContext.map fun context ↦ String.ofList context.traceId
    spanId := (traceContext.bind (·.spanId)).map String.ofList
    requestId := requestId.map String.ofList
    correlationId := correlationId.map String.ofList
    redirectToUrl := redirectToUrl.map String.ofList }

/-! ## Bodies -/

/-- The code units of a character. -/
def codeUnitsOf (c : Char) : CodeUnits :=
  if c.toNat < 0x10000 then [UInt16.ofNat c.toNat]
  else
    [UInt16.ofNat (0xD800 + (c.toNat - 0x10000) / 0x400),
      UInt16.ofNat (0xDC00 + (c.toNat - 0x10000) % 0x400)]

/-- A text as its code units. -/
def toCodeUnits (text : Text) : CodeUnits := text.flatMap codeUnitsOf

/-- What a cut text ends with. -/
def TRUNCATION_MARKER : CodeUnits := toCodeUnits "[truncated]".toList

/-- The greatest length of a body. -/
def NETWORK_BODY_CAP : ℕ := 2048

/-- A text, cut to a length that ends with the marker if it is longer. -/
def capText (value : CodeUnits) (limit : ℕ) : CodeUnits :=
  if value.length ≤ limit then value
  else value.take (limit - TRUNCATION_MARKER.length) ++ TRUNCATION_MARKER

/-- A body, cut at its greatest length. -/
def capNetworkBody (body : CodeUnits) : CodeUnits := capText body NETWORK_BODY_CAP

/-- The content type is of JSON or of text, whatever its parameters are. -/
def isJsonOrTextContentType (platform : Platform) (contentType : Option Text) : Bool :=
  match contentType.filter (· ≠ []) with
  | none => false
  | some contentType =>
      let normalizedContentType :=
        platform.toLowerCase (trim isWhiteSpace (contentType.takeWhile (· ≠ ';')))
      normalizedContentType ≠ [] &&
        ("text/".toList.isPrefixOf normalizedContentType ||
          decide ("json".toList <:+: normalizedContentType))

/-- `hashBody`. `sha1` is the digest of the JSON text of an array with the content and the content
type. -/
def hashBody (sha1 : CodeUnits × Option String → String) (content : CodeUnits)
    (contentType : Option String) : String := sha1 (content, contentType)

/-- The body that an archive holds under the name in a record, cut and with the hash of what is
kept. There is none if it is no text, has no name or is not in the archive. -/
def readTraceResourceBody (platform : Platform) (sha1 : CodeUnits × Option String → String)
    (archiveEntries : Zip.Entries) (traceBodyRecord : Option Json) :
    Option NetworkObservationBody := do
  let traceBodyRecord ← traceBodyRecord
  let contentType := asString (traceBodyRecord.member "mimeType".toList)
  if isJsonOrTextContentType platform contentType = false then none
  else
    let resourceSha ← (asString (traceBodyRecord.member "_sha1".toList)).filter (· ≠ [])
    let resourceContent ← archiveEntries.get ("resources/".toList ++ resourceSha)
    let rawContent := toCodeUnits (Zip.toUtf8String resourceContent)
    let cappedContent := capNetworkBody rawContent
    let truncated := decide (cappedContent ≠ rawContent)
    return {
      content := cappedContent
      contentType := contentType.map String.ofList
      truncated := truncated
      fingerprint := hashBody sha1 cappedContent (contentType.map String.ofList) }

end CoreUtils.Reporter.Trace
