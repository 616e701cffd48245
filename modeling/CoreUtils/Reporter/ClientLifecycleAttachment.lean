import CoreUtils.Reporter.ClientLifecycleJoin
import CoreUtils.Reporter.ClientLifecycleSchema

/-!
# Attaching lifecycles

`attachClientLifecycles` of `clientLifecycle.ts`: the attachments of an attempt that are named after
the browser's network lifecycle are read up to a bound, parsed in the shared format or in the older
one, collected up to a bound, and joined with the network report. Whatever the attachments hold,
what is attached conforms (`ClientLifecycle.Conforms`).
-/

namespace CoreUtils.Reporter.Lifecycle

open Text Json Dates

/-! ## Lifecycles -/

/-- The fields of `ClientLifecycle` that the join carries along. -/
structure LifecycleDetails where
  requestStartedAt : Option Text
  requestStartedMonotonicMs : Option ℚ
  responseHeadersAt : Option Text
  responseHeadersMonotonicMs : Option ℚ
  completedAt : Option Text
  completedMonotonicMs : Option ℚ
  failedAt : Option Text
  failedMonotonicMs : Option ℚ
  requestStarted : Option Bool
  responseHeadersReceived : Option Bool
  loadingFinished : Option Bool
  loadingFailed : Option Bool
  pendingAtTimeout : Option Bool
  playwrightRequestKey : Option Text
  cdpRequestId : Option Text
  loaderId : Option Text
  traceId : Option Text
  spanId : Option Text
  apiGatewayRequestId : Option Text
  protocol : Option Text
  connectionId : Option ℚ
  connectionReused : Option Bool
  remoteIPAddress : Option Text
  remotePort : Option ℚ
  dataEncodedDataLength : Option ℚ
  responseEncodedDataLength : Option ℚ
  completedEncodedDataLength : Option ℚ
  errorText : Option Text
  canceled : Option Bool
  blockedReason : Option Text
  corsErrorStatus : Option Text
  classification : Option BrowserLifecycleClassification
  truncated : Option Bool
  deriving DecidableEq

/-- A lifecycle with the offset of its request, which is there if the time of the request is. That
time has been printed, so it is read. -/
def parsedLifecycle (runtime : Runtime) (attemptStartTimeMs : ℤ)
    (lifecycle : ClientLifecycle LifecycleDetails) : ParsedClientLifecycle LifecycleDetails where
  lifecycle := lifecycle
  requestOffsetMs := (lifecycle.details.requestStartedAt.bind runtime.dateParse).map
    fun requestStartedMs ↦ ((requestStartedMs - attemptStartTimeMs : ℤ) : ℚ)

/-! ## The shared format -/

/-- The timestamp of an event in `copySharedEvent`. -/
def BrowserLifecycleEvent.timestamp (event : BrowserLifecycleEvent) :
    Option BrowserLifecycleTimestamp := event.cdp.or event.playwright

/-- The timestamp of a failure event in `copySharedEvent`. -/
def BrowserLifecycleFailureEvent.timestamp (event : BrowserLifecycleFailureEvent) :
    Option BrowserLifecycleTimestamp := event.cdp.or event.playwright

/-- The details in `parseSharedLifecycleRecord`. -/
def sharedDetails (record : BrowserLifecycleRecord) : LifecycleDetails :=
  let requestStarted := record.requestStarted.timestamp
  let responseReceived := record.responseReceived.bind (·.timestamp)
  let loadingFinished := record.loadingFinished.bind (·.timestamp)
  let loadingFailed := record.loadingFailed.bind (·.timestamp)
  { requestStartedAt := requestStarted.map (·.utc)
    requestStartedMonotonicMs := requestStarted.bind (·.monotonicMilliseconds)
    responseHeadersAt := responseReceived.map (·.utc)
    responseHeadersMonotonicMs := responseReceived.bind (·.monotonicMilliseconds)
    completedAt := loadingFinished.map (·.utc)
    completedMonotonicMs := loadingFinished.bind (·.monotonicMilliseconds)
    failedAt := loadingFailed.map (·.utc)
    failedMonotonicMs := loadingFailed.bind (·.monotonicMilliseconds)
    requestStarted := some true
    responseHeadersReceived := some record.responseReceived.isSome
    loadingFinished := some record.loadingFinished.isSome
    loadingFailed := some record.loadingFailed.isSome
    pendingAtTimeout := some (record.classification = .noResponseHeaders ||
      record.classification = .headersWithoutBodyCompletion)
    playwrightRequestKey := record.playwrightRequestKey
    cdpRequestId := record.cdpRequestId
    loaderId := record.loaderId
    traceId := record.traceId
    spanId := record.spanId
    apiGatewayRequestId := record.apiGatewayRequestId
    protocol := record.protocol
    connectionId := record.connection.bind (·.id)
    connectionReused := record.connection.bind (·.reused)
    remoteIPAddress := (record.connection.bind (·.remoteEndpoint)).bind (·.ipAddress)
    remotePort := (record.connection.bind (·.remoteEndpoint)).bind (·.port)
    dataEncodedDataLength := record.encodedBytes.bind (·.data)
    responseEncodedDataLength := record.encodedBytes.bind (·.responseHeaders)
    completedEncodedDataLength := record.encodedBytes.bind (·.total)
    errorText := record.loadingFailed.bind (·.errorText)
    canceled := record.loadingFailed.bind (·.canceled)
    blockedReason := record.loadingFailed.bind (·.blockedReason)
    corsErrorStatus := record.loadingFailed.bind (·.corsErrorStatus)
    classification := some record.classification
    truncated := none }

/-- A record of the shared format, with the offset of its request. -/
def parseSharedLifecycleRecord (runtime : Runtime) (attemptStartTimeMs : ℤ)
    (record : BrowserLifecycleRecord) : ParsedClientLifecycle LifecycleDetails :=
  parsedLifecycle runtime attemptStartTimeMs
    { method := record.method
      origin := record.origin
      pathTemplate := record.pathTemplate
      details := sharedDetails record }

/-! ## The older format -/

/-- The time at a field in its canonical form, none if there is none that is parsed. -/
def copyTimestamp (runtime : Runtime) (source : Json) (field : String) : Option Text := do
  let value ← (asString (source.member field.toList)).filter (· ≠ [])
  let timestampMs ← runtime.dateParse value
  return runtime.toISOString timestampMs

/-- The number at a field, none if it is negative or too great. -/
def copyNonNegativeNumber (source : Json) (field : String) : Option ℚ :=
  sanitizeLifecycleNonNegativeNumber (source.member field.toList)

/-- The truth value at a field. -/
def copyBoolean (source : Json) (field : String) : Option Bool :=
  asBoolean (source.member field.toList)

/-- The identifier at a field, none if it is not safe. -/
def copySafeIdentifier (source : Json) (field : String) : Option Text :=
  sanitizeLifecycleIdentifier (source.member field.toList)

/-- The details in `parseLifecycleRecord`. -/
def legacyDetails (runtime : Runtime) (source : Json) : LifecycleDetails where
  requestStartedAt := copyTimestamp runtime source "requestStartedAt"
  requestStartedMonotonicMs := copyNonNegativeNumber source "requestStartedMonotonicMs"
  responseHeadersAt := copyTimestamp runtime source "responseHeadersAt"
  responseHeadersMonotonicMs := copyNonNegativeNumber source "responseHeadersMonotonicMs"
  completedAt := copyTimestamp runtime source "completedAt"
  completedMonotonicMs := copyNonNegativeNumber source "completedMonotonicMs"
  failedAt := copyTimestamp runtime source "failedAt"
  failedMonotonicMs := copyNonNegativeNumber source "failedMonotonicMs"
  requestStarted := copyBoolean source "requestStarted"
  responseHeadersReceived := copyBoolean source "responseHeadersReceived"
  loadingFinished := copyBoolean source "loadingFinished"
  loadingFailed := copyBoolean source "loadingFailed"
  pendingAtTimeout := copyBoolean source "pendingAtTimeout"
  playwrightRequestKey := copySafeIdentifier source "playwrightRequestKey"
  cdpRequestId := copySafeIdentifier source "cdpRequestId"
  loaderId := copySafeIdentifier source "loaderId"
  traceId := sanitizeLifecycleTraceId runtime (source.member "traceId".toList)
  spanId := sanitizeLifecycleSpanId runtime (source.member "spanId".toList)
  apiGatewayRequestId := copySafeIdentifier source "apiGatewayRequestId"
  protocol := sanitizeLifecycleProtocol (source.member "protocol".toList)
  connectionId := copyNonNegativeNumber source "connectionId"
  connectionReused := copyBoolean source "connectionReused"
  remoteIPAddress := sanitizeLifecycleIpAddress (source.member "remoteIPAddress".toList)
  remotePort := copyNonNegativeNumber source "remotePort"
  dataEncodedDataLength := none
  responseEncodedDataLength := copyNonNegativeNumber source "responseEncodedDataLength"
  completedEncodedDataLength := copyNonNegativeNumber source "completedEncodedDataLength"
  errorText := sanitizeLifecycleNetworkError (source.member "errorText".toList)
  canceled := copyBoolean source "canceled"
  blockedReason := copySafeIdentifier source "blockedReason"
  corsErrorStatus := copySafeIdentifier source "corsErrorStatus"
  classification := sanitizeLifecycleClassification (source.member "classification".toList)
  truncated := none

/-- A record of the older format. It is none without a method, an origin and a path that are
safe. -/
def parseLifecycleRecord (runtime : Runtime) (attemptStartTimeMs : ℤ) (value : Json) :
    Option (ParsedClientLifecycle LifecycleDetails) := do
  let record ← asRecord (some value)
  let method ← sanitizeLifecycleMethod runtime (record.member "method".toList)
  let origin ← (sanitizeLifecycleOrigin runtime (record.member "origin".toList)).filter (· ≠ [])
  let pathTemplate ← sanitizeLifecyclePathTemplate (record.member "pathTemplate".toList)
  return parsedLifecycle runtime attemptStartTimeMs
    { method := method
      origin := origin
      pathTemplate := pathTemplate
      details := legacyDetails runtime record }

/-! ## Attachments -/

/-- The records of an attachment, and whether it is said that there were more. -/
structure ParsedAttachment where
  records : List (ParsedClientLifecycle LifecycleDetails)
  truncated : Bool

/-- An attachment of the older format: the first records that are safe. It is none if it is not
JSON, has no list of records or another version. -/
def parseLegacyAttachment (runtime : Runtime) (attemptStartTimeMs : ℤ) (content : List ℕ) :
    Option ParsedAttachment := do
  let parsedValue ← runtime.parseJson (Utf8.decode content)
  let attachmentRecord ← asRecord (some parsedValue)
  let lifecycleRecords ← asArray (attachmentRecord.member "records".toList)
  if asNumber (attachmentRecord.member "schemaVersion".toList) ≠ some 1 then none
  else
    return {
      records := (lifecycleRecords.take MAXIMUM_RECORDS).filterMap
        (parseLifecycleRecord runtime attemptStartTimeMs)
      truncated := asBoolean (attachmentRecord.member "truncated".toList) = some true ||
        MAXIMUM_RECORDS < lifecycleRecords.length }

/-- An attachment of the shared format, else of the older one. -/
def parseAttachment (runtime : Runtime) (attemptStartTimeMs : ℤ) (content : List ℕ) :
    Option ParsedAttachment :=
  match parseBrowserLifecycleAttachment runtime content with
  | some sharedAttachment => some
      { records := sharedAttachment.records.map
          (parseSharedLifecycleRecord runtime attemptStartTimeMs)
        truncated := sharedAttachment.truncated }
  | none => parseLegacyAttachment runtime attemptStartTimeMs content

/-- An attachment of a test result, with what is read of it here. -/
structure LifecycleAttachment where
  name : Text
  body : Option (List ℕ)
  path : Option Text

/-- The machine under the attaching: the platform of the codec and of the join, the size of a file,
and the bytes that reading a file into a buffer of a size gives; nothing stands for an error. -/
structure AttachmentMachine where
  runtime : Runtime
  platform : JoinPlatform
  statSync : Text → Option ℕ
  readSync : Text → ℕ → Option (List ℕ)

/-- The names of the attachments with lifecycles. -/
def ATTACHMENT_NAMES : List Text :=
  ["browser-network-lifecycle".toList, "browser-network-lifecycle.json".toList]

variable (machine : AttachmentMachine)

/-- `readBoundedAttachment`. A body counts also when it is empty. -/
def readBoundedAttachment (attachment : LifecycleAttachment) : Option (List ℕ) :=
  match attachment.body with
  | some body => if MAXIMUM_BYTES < body.length then none else some body
  | none => do
      let path ← attachment.path.filter (· ≠ [])
      let attachmentSize ← machine.statSync path
      if MAXIMUM_BYTES < attachmentSize then none
      else (machine.readSync path attachmentSize).map (·.take attachmentSize)

/-- What an attachment holds, unless it has another name or cannot be read or parsed. -/
def parsedAttachmentOf (attemptStartTimeMs : ℤ) (attachment : LifecycleAttachment) :
    Option ParsedAttachment :=
  if ATTACHMENT_NAMES.contains (machine.runtime.toLowerCase attachment.name) then
    (readBoundedAttachment machine attachment).bind
      (parseAttachment machine.runtime attemptStartTimeMs)
  else none

/-! ## Collecting -/

/-- The variables of the loop of `attachClientLifecycles`. -/
structure CollectedRecords where
  parsedRecords : List (ParsedClientLifecycle LifecycleDetails)
  truncated : Bool

/-- The inner loop of `attachClientLifecycles`. -/
def pushRecords (collected : CollectedRecords) :
    List (ParsedClientLifecycle LifecycleDetails) → CollectedRecords
  | [] => collected
  | record :: records =>
      if MAXIMUM_RECORDS ≤ collected.parsedRecords.length then { collected with truncated := true }
      else pushRecords { collected with parsedRecords := collected.parsedRecords ++ [record] }
        records

/-- One iteration of the loop of `attachClientLifecycles`. -/
def collectAttachment (attemptStartTimeMs : ℤ) (collected : CollectedRecords)
    (attachment : LifecycleAttachment) : CollectedRecords :=
  match parsedAttachmentOf machine attemptStartTimeMs attachment with
  | none => collected
  | some parsedAttachment => pushRecords
      { collected with truncated := collected.truncated || parsedAttachment.truncated }
      parsedAttachment.records

/-- A record that says that others are missing. -/
def markTruncated (record : ParsedClientLifecycle LifecycleDetails) :
    ParsedClientLifecycle LifecycleDetails :=
  { record with
    lifecycle := { record.lifecycle with
      details := { record.lifecycle.details with truncated := some true } } }

/-- The records that `attachClientLifecycles` joins. -/
def collectRecords (attemptStartTimeMs : ℤ) (attachments : List LifecycleAttachment) :
    List (ParsedClientLifecycle LifecycleDetails) :=
  let collected := attachments.foldl (collectAttachment machine attemptStartTimeMs) ⟨[], false⟩
  if collected.truncated then collected.parsedRecords.map markTruncated
  else collected.parsedRecords

/-- `attachClientLifecycles`: the instances of the report after it. -/
def attachClientLifecycles {φ : Type} (attachments : List LifecycleAttachment)
    (network : NetworkReport φ) (attemptStartTimeMs : ℤ) :
    List (JoinedInstance LifecycleDetails) :=
  joinClientLifecycles machine.platform network
    (collectRecords machine attemptStartTimeMs attachments)

end CoreUtils.Reporter.Lifecycle
