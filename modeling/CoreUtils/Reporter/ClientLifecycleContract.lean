import CoreUtils.Library.Utf8
import CoreUtils.Reporter.ClientLifecycleSanitization

/-!
# The browser lifecycle attachment

Records of browser requests and the codec of their attachment, after `clientLifecycleContract.ts`. A
record is a value of any kind until it has been sanitized; other values than those of JSON behave
like an infinite number. `encodeBrowserLifecycleAttachment` keeps the records that fit, anomalies
first, and `parseBrowserLifecycleAttachment` sanitizes what it reads once more.
-/

namespace CoreUtils.Reporter.Lifecycle

open Text Json

/-- The version of the format. -/
def SCHEMA_VERSION : ℚ := 2

/-- The greatest size of an attachment. -/
def MAXIMUM_BYTES : ℕ := 65536

/-- The greatest number of records of an attachment. -/
def MAXIMUM_RECORDS : ℕ := 100

/-! ## Records -/

/-- The time of an event, and where the clock of the browser stood. -/
structure BrowserLifecycleTimestamp where
  utc : Text
  monotonicMilliseconds : Option ℚ
  deriving DecidableEq

/-- `BrowserLifecycleEvent`: at least one of the two sources has seen it. -/
structure BrowserLifecycleEvent where
  cdp : Option BrowserLifecycleTimestamp
  playwright : Option BrowserLifecycleTimestamp
  seen : cdp.isSome ∨ playwright.isSome
  deriving DecidableEq

/-- The end of a request that has failed. All of it can be missing. -/
structure BrowserLifecycleFailureEvent where
  cdp : Option BrowserLifecycleTimestamp
  playwright : Option BrowserLifecycleTimestamp
  errorText : Option Text
  canceled : Option Bool
  blockedReason : Option Text
  corsErrorStatus : Option Text
  deriving DecidableEq

/-- The remote endpoint of a connection. -/
structure RemoteEndpoint where
  ipAddress : Option Text
  port : Option ℚ
  deriving DecidableEq

/-- The connection of a request. All of it can be missing. -/
structure BrowserLifecycleConnection where
  id : Option ℚ
  reused : Option Bool
  remoteEndpoint : Option RemoteEndpoint
  deriving DecidableEq

/-- The sizes of a response as it was sent. All of them can be missing. -/
structure BrowserLifecycleEncodedBytes where
  data : Option ℚ
  responseHeaders : Option ℚ
  total : Option ℚ
  deriving DecidableEq

/-- What the browser tells of a request, from the start to the end. -/
structure BrowserLifecycleRecord where
  method : Text
  origin : Text
  pathTemplate : Text
  requestStarted : BrowserLifecycleEvent
  classification : BrowserLifecycleClassification
  responseReceived : Option BrowserLifecycleEvent
  loadingFinished : Option BrowserLifecycleEvent
  loadingFailed : Option BrowserLifecycleFailureEvent
  playwrightRequestKey : Option Text
  cdpRequestId : Option Text
  loaderId : Option Text
  apiGatewayRequestId : Option Text
  traceId : Option Text
  spanId : Option Text
  connection : Option BrowserLifecycleConnection
  encodedBytes : Option BrowserLifecycleEncodedBytes
  httpStatus : Option ℚ
  protocol : Option Text
  deriving DecidableEq

/-- The records of an attachment, and whether there were more. -/
structure BrowserLifecycleAttachment where
  truncated : Bool
  records : List BrowserLifecycleRecord
  deriving DecidableEq

/-! ## Values -/

/-- The value of a timestamp. -/
def BrowserLifecycleTimestamp.toJson (timestamp : BrowserLifecycleTimestamp) : Json :=
  objectOf
    [("utc".toList, some (.string timestamp.utc)),
      ("monotonicMilliseconds".toList, timestamp.monotonicMilliseconds.map .number)]

/-- The value of an event. -/
def BrowserLifecycleEvent.toJson (event : BrowserLifecycleEvent) : Json :=
  objectOf
    [("cdp".toList, event.cdp.map (·.toJson)),
      ("playwright".toList, event.playwright.map (·.toJson))]

/-- The value of a failure event. -/
def BrowserLifecycleFailureEvent.toJson (event : BrowserLifecycleFailureEvent) : Json :=
  objectOf
    [("cdp".toList, event.cdp.map (·.toJson)),
      ("playwright".toList, event.playwright.map (·.toJson)),
      ("errorText".toList, event.errorText.map .string),
      ("canceled".toList, event.canceled.map .bool),
      ("blockedReason".toList, event.blockedReason.map .string),
      ("corsErrorStatus".toList, event.corsErrorStatus.map .string)]

/-- The value of a remote endpoint. -/
def RemoteEndpoint.toJson (endpoint : RemoteEndpoint) : Json :=
  objectOf
    [("ipAddress".toList, endpoint.ipAddress.map .string),
      ("port".toList, endpoint.port.map .number)]

/-- The value of a connection. -/
def BrowserLifecycleConnection.toJson (connection : BrowserLifecycleConnection) : Json :=
  objectOf
    [("id".toList, connection.id.map .number),
      ("reused".toList, connection.reused.map .bool),
      ("remoteEndpoint".toList, connection.remoteEndpoint.map (·.toJson))]

/-- The value of the numbers of bytes. -/
def BrowserLifecycleEncodedBytes.toJson (encodedBytes : BrowserLifecycleEncodedBytes) : Json :=
  objectOf
    [("data".toList, encodedBytes.data.map .number),
      ("responseHeaders".toList, encodedBytes.responseHeaders.map .number),
      ("total".toList, encodedBytes.total.map .number)]

/-- The fields of a record, in the order in which `sanitizeRecord` sets them. -/
def BrowserLifecycleRecord.fields (record : BrowserLifecycleRecord) : List (Text × Option Json) :=
  [("method".toList, some (.string record.method)),
    ("origin".toList, some (.string record.origin)),
    ("pathTemplate".toList, some (.string record.pathTemplate)),
    ("requestStarted".toList, some record.requestStarted.toJson),
    ("classification".toList, some (.string record.classification.toText)),
    ("responseReceived".toList, record.responseReceived.map (·.toJson)),
    ("loadingFinished".toList, record.loadingFinished.map (·.toJson)),
    ("loadingFailed".toList, record.loadingFailed.map (·.toJson)),
    ("playwrightRequestKey".toList, record.playwrightRequestKey.map .string),
    ("cdpRequestId".toList, record.cdpRequestId.map .string),
    ("loaderId".toList, record.loaderId.map .string),
    ("apiGatewayRequestId".toList, record.apiGatewayRequestId.map .string),
    ("traceId".toList, record.traceId.map .string),
    ("spanId".toList, record.spanId.map .string),
    ("connection".toList, record.connection.map (·.toJson)),
    ("encodedBytes".toList, record.encodedBytes.map (·.toJson)),
    ("httpStatus".toList, record.httpStatus.map .number),
    ("protocol".toList, record.protocol.map .string)]

/-- The value of a record. -/
def BrowserLifecycleRecord.toJson (record : BrowserLifecycleRecord) : Json := objectOf record.fields

/-- The value of an attachment. -/
def BrowserLifecycleAttachment.toJson (attachment : BrowserLifecycleAttachment) : Json :=
  objectOf
    [("schemaVersion".toList, some (.number SCHEMA_VERSION)),
      ("truncated".toList, some (.bool attachment.truncated)),
      ("records".toList, some (.array (attachment.records.map (·.toJson))))]

/-! ## Sanitizing records -/

/-- `asRecord`: an object or an array, whose members are looked up. -/
def asRecord : Option Json → Option Json
  | some (.object members) => some (.object members)
  | some (.array values) => some (.array values)
  | _ => none

/-- A time in its canonical form, none if it is not parsed. -/
def sanitizeTimestamp (runtime : Runtime) (value : Option Json) :
    Option BrowserLifecycleTimestamp := do
  let timestamp ← asRecord value
  let utc ← (asString (timestamp.member "utc".toList)).filter (· ≠ [])
  let timestampMs ← runtime.dateParse utc
  return {
    utc := runtime.toISOString timestampMs
    monotonicMilliseconds :=
      sanitizeLifecycleNonNegativeNumber (timestamp.member "monotonicMilliseconds".toList) }

/-- The event that two sources may have seen. -/
def eventOf (cdp playwright : Option BrowserLifecycleTimestamp) : Option BrowserLifecycleEvent :=
  if seen : cdp.isSome ∨ playwright.isSome then some ⟨cdp, playwright, seen⟩ else none

/-- An event with the times that are safe, none if both are missing. -/
def sanitizeEvent (runtime : Runtime) (value : Option Json) : Option BrowserLifecycleEvent := do
  let source ← asRecord value
  eventOf (sanitizeTimestamp runtime (source.member "cdp".toList))
    (sanitizeTimestamp runtime (source.member "playwright".toList))

/-- The end of a failed request with the fields that are safe, none if all are missing
(`copyFailureEvent`). -/
def sanitizeFailureEvent (runtime : Runtime) (value : Option Json) :
    Option BrowserLifecycleFailureEvent := do
  let sourceEvent ← asRecord value
  let sanitized := sanitizeEvent runtime value
  let event : BrowserLifecycleFailureEvent :=
    { cdp := sanitized.bind (·.cdp)
      playwright := sanitized.bind (·.playwright)
      errorText := sanitizeLifecycleNetworkError (sourceEvent.member "errorText".toList)
      canceled := asBoolean (sourceEvent.member "canceled".toList)
      blockedReason := sanitizeLifecycleIdentifier (sourceEvent.member "blockedReason".toList)
      corsErrorStatus := sanitizeLifecycleIdentifier (sourceEvent.member "corsErrorStatus".toList) }
  if event = ⟨none, none, none, none, none, none⟩ then none else some event

/-- The remote endpoint in `copyConnection`. -/
def sanitizeRemoteEndpoint (value : Option Json) : Option RemoteEndpoint := do
  let endpointSource ← asRecord value
  let remoteEndpoint : RemoteEndpoint :=
    { ipAddress := sanitizeLifecycleIpAddress (endpointSource.member "ipAddress".toList)
      port := sanitizeLifecycleNonNegativeNumber (endpointSource.member "port".toList) }
  if remoteEndpoint = ⟨none, none⟩ then none else some remoteEndpoint

/-- A connection with the fields that are safe, none if all are missing (`copyConnection`). -/
def sanitizeConnection (value : Option Json) : Option BrowserLifecycleConnection := do
  let connectionSource ← asRecord value
  let connection : BrowserLifecycleConnection :=
    { id := sanitizeLifecycleNonNegativeNumber (connectionSource.member "id".toList)
      reused := asBoolean (connectionSource.member "reused".toList)
      remoteEndpoint := sanitizeRemoteEndpoint (connectionSource.member "remoteEndpoint".toList) }
  if connection = ⟨none, none, none⟩ then none else some connection

/-- The sizes that are safe, none if all are missing (`copyEncodedBytes`). -/
def sanitizeEncodedBytes (value : Option Json) : Option BrowserLifecycleEncodedBytes := do
  let bytesSource ← asRecord value
  let encodedBytes : BrowserLifecycleEncodedBytes :=
    { data := sanitizeLifecycleNonNegativeNumber (bytesSource.member "data".toList)
      responseHeaders :=
        sanitizeLifecycleNonNegativeNumber (bytesSource.member "responseHeaders".toList)
      total := sanitizeLifecycleNonNegativeNumber (bytesSource.member "total".toList) }
  if encodedBytes = ⟨none, none, none⟩ then none else some encodedBytes

/-- A record with the fields that are safe. It is none without a method, an origin, a path, a
classification and a start. -/
def sanitizeRecord (runtime : Runtime) (value : Json) : Option BrowserLifecycleRecord := do
  let record ← asRecord (some value)
  let method ← sanitizeLifecycleMethod runtime (record.member "method".toList)
  let origin ← (sanitizeLifecycleOrigin runtime (record.member "origin".toList)).filter (· ≠ [])
  let pathTemplate ← sanitizeLifecyclePathTemplate (record.member "pathTemplate".toList)
  let classification ← sanitizeLifecycleClassification (record.member "classification".toList)
  let requestStarted ← sanitizeEvent runtime (record.member "requestStarted".toList)
  return {
    method, origin, pathTemplate, requestStarted, classification
    responseReceived := sanitizeEvent runtime (record.member "responseReceived".toList)
    loadingFinished := sanitizeEvent runtime (record.member "loadingFinished".toList)
    loadingFailed := sanitizeFailureEvent runtime (record.member "loadingFailed".toList)
    playwrightRequestKey :=
      sanitizeLifecycleIdentifier (record.member "playwrightRequestKey".toList)
    cdpRequestId := sanitizeLifecycleIdentifier (record.member "cdpRequestId".toList)
    loaderId := sanitizeLifecycleIdentifier (record.member "loaderId".toList)
    apiGatewayRequestId := sanitizeLifecycleIdentifier (record.member "apiGatewayRequestId".toList)
    traceId := sanitizeLifecycleTraceId runtime (record.member "traceId".toList)
    spanId := sanitizeLifecycleSpanId runtime (record.member "spanId".toList)
    connection := sanitizeConnection (record.member "connection".toList)
    encodedBytes := sanitizeEncodedBytes (record.member "encodedBytes".toList)
    httpStatus := sanitizeLifecycleNonNegativeNumber (record.member "httpStatus".toList)
    protocol := sanitizeLifecycleProtocol (record.member "protocol".toList) }

/-! ## Encoding -/

/-- The records by the priority of their classification, in their order where it is the same. -/
def prioritizeRecords (records : List BrowserLifecycleRecord) : List BrowserLifecycleRecord :=
  CLIENT_LIFECYCLE_CLASSIFICATION_PRIORITY.flatMap fun classification ↦
    records.filter (·.classification = classification)

/-- `serializeAttachment`, the body. -/
def serializeAttachment (runtime : Runtime) (attachment : BrowserLifecycleAttachment) : List ℕ :=
  Utf8.encode (attachment.toJson.stringify runtime.numberText)

/-- The size of an attachment without records, marked as truncated or not. -/
def emptyAttachmentBytes (runtime : Runtime) : ℕ :=
  max (serializeAttachment runtime ⟨false, []⟩).length
    (serializeAttachment runtime ⟨true, []⟩).length

/-- The number of bytes that a record takes. -/
def recordBytes (runtime : Runtime) (record : BrowserLifecycleRecord) : ℕ :=
  (Utf8.encode (record.toJson.stringify runtime.numberText)).length

/-- `separatorBytes`: the comma in front of the next record. -/
def separatorBytes (includedRecords : List BrowserLifecycleRecord) : ℕ :=
  if includedRecords.length = 0 then 0 else 1

/-- The loop of `encodeBrowserLifecycleAttachment`: the records that are included, starting from
those that are already, which take `includedRecordBytes`. -/
def includeRecords (runtime : Runtime) :
    List BrowserLifecycleRecord → List BrowserLifecycleRecord → ℕ → List BrowserLifecycleRecord
  | [], includedRecords, _ => includedRecords
  | record :: rest, includedRecords, includedRecordBytes =>
      if MAXIMUM_RECORDS ≤ includedRecords.length then includedRecords
      else if emptyAttachmentBytes runtime + includedRecordBytes + separatorBytes includedRecords +
          recordBytes runtime record ≤ MAXIMUM_BYTES then
        includeRecords runtime rest (includedRecords ++ [record])
          (includedRecordBytes + (separatorBytes includedRecords + recordBytes runtime record))
      else includeRecords runtime rest includedRecords includedRecordBytes

/-- The records of an attachment: what `encodeBrowserLifecycleAttachment` includes of the sanitized
records, in the order of their priority. -/
def includedRecords (runtime : Runtime) (records : List Json) : List BrowserLifecycleRecord :=
  includeRecords runtime (prioritizeRecords (records.filterMap (sanitizeRecord runtime))) [] 0

/-- An attachment, its bytes, and how many records it was made from. -/
structure EncodedBrowserLifecycleAttachment where
  body : List ℕ
  attachment : BrowserLifecycleAttachment
  observedRecordCount : ℕ
  includedRecordCount : ℕ
  droppedRecordCount : ℕ

/-- The attachment of the records that fit. It is marked as truncated if it was before or a record
is dropped. -/
def encodeBrowserLifecycleAttachment (runtime : Runtime) (records : List Json) (truncated : Bool) :
    EncodedBrowserLifecycleAttachment :=
  let includedRecords := includedRecords runtime records
  let droppedRecordCount := records.length - includedRecords.length
  let attachment : BrowserLifecycleAttachment :=
    { truncated := truncated || 0 < droppedRecordCount
      records := includedRecords }
  { body := serializeAttachment runtime attachment
    attachment := attachment
    observedRecordCount := records.length
    includedRecordCount := attachment.records.length
    droppedRecordCount := records.length - attachment.records.length }

/-! ## Parsing -/

/-- The values of an array. -/
def asArray : Option Json → Option (List Json)
  | some (.array values) => some values
  | _ => none

/-- The attachment of some bytes. There is none if they are too many, not JSON of the format and its
version, or none of the records that are there is safe. -/
def parseBrowserLifecycleAttachment (runtime : Runtime) (content : List ℕ) :
    Option BrowserLifecycleAttachment := do
  if MAXIMUM_BYTES < content.length then none
  else
    let parsedValue ← runtime.parseJson (Utf8.decode content)
    let attachment ← asRecord (some parsedValue)
    let records ← asArray (attachment.member "records".toList)
    let truncated ← asBoolean (attachment.member "truncated".toList)
    if asNumber (attachment.member "schemaVersion".toList) ≠ some SCHEMA_VERSION then none
    else
      let sanitizedRecords := (records.take MAXIMUM_RECORDS).filterMap (sanitizeRecord runtime)
      if 0 < records.length ∧ sanitizedRecords.length = 0 then none
      else
        return {
          truncated := truncated || sanitizedRecords.length < records.length
          records := sanitizedRecords }

end CoreUtils.Reporter.Lifecycle
