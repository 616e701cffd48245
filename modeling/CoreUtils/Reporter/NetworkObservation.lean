import CoreUtils.Reporter.TextProcessing

/-!
# Network observations

How `buildNetworkObservationFromEvent` of `networkProcessing.ts` makes an observation out of an
event of a trace: the headers on an allow list, the shape, the instance and the two bodies. The
headers that are not on the list have no influence on the observation.
-/

namespace CoreUtils.Reporter.Trace

open Text

/-- The greatest length of a header. -/
def HEADER_VALUE_CAP : ℕ := 256

/-- The headers of requests that are reported. -/
def REQUEST_HEADER_ALLOWLIST : List Text :=
  ["content-type".toList, "x-datadog-parent-id".toList, "x-datadog-trace-id".toList,
    "x-request-id".toList, "x-correlation-id".toList, "traceparent".toList, "tracestate".toList]

/-- The headers of responses that are reported. -/
def RESPONSE_HEADER_ALLOWLIST : List Text :=
  ["content-type".toList, "location".toList, "x-request-id".toList, "x-correlation-id".toList,
    "traceparent".toList, "tracestate".toList]

/-- The truth value that a value is. -/
def asBoolean : Option Json → Option Bool
  | some (.bool value) => some value
  | _ => none

/-! ## Headers -/

/-- The name of a header in lower case, if it is on the list. -/
def allowlistedName (platform : Platform) (allowlist : List Text) (headerValue : Json) :
    Option Text :=
  let headerRecord := asRecord (some headerValue)
  let headerName := (asString (headerRecord.bind (·.member "name".toList))).map fun name ↦
    platform.toLowerCase (trim isWhiteSpace name)
  headerName.filter fun name ↦ name ≠ [] && allowlist.contains name

/-- A header that `extractAllowlistedHeaders` takes, with its capped value. -/
def allowlistedHeader (platform : Platform) (allowlist : List Text) (headerValue : Json) :
    Option (Text × Text) := do
  let headerName ← allowlistedName platform allowlist headerValue
  let headerText ← present
    (stringOf ((asRecord (some headerValue)).bind (·.member "value".toList)))
  return (headerName, (capString (stripAnsi headerText) HEADER_VALUE_CAP).toList)

/-- The headers of an array that are on the list, by their names in lower case; the last one of a
name counts. Nothing comes of other values, or of an array without such headers. -/
def extractAllowlistedHeaders (platform : Platform) (allowlist : List Text) :
    Option Json → Option Headers
  | some (.array headerValues) =>
      let headers := headerValues.foldl
        (fun headers headerValue ↦
          match allowlistedHeader platform allowlist headerValue with
          | some header => headers.set header.1 header.2
          | none => headers)
        (OrderedMap.empty : Headers)
      if headers.size = 0 then none else some headers
  | _ => none

/-! ## Resource types -/

/-- The part of a content type before its parameters, without blanks and in lower case. -/
def normalizeContentType (platform : Platform) (contentType : Text) : Text :=
  platform.toLowerCase (trim isWhiteSpace (contentType.takeWhile (· ≠ ';')))

/-- The type of a resource by its content type, none if this is empty or of no known kind. -/
def inferResourceTypeFromContentType (platform : Platform) (contentType : Option Text) :
    Option String := do
  let contentType ← contentType.filter (· ≠ [])
  let normalized := normalizeContentType platform contentType
  if normalized = [] then none
  else if "image/".toList.isPrefixOf normalized then some "image"
  else if "font/".toList.isPrefixOf normalized || decide ("font".toList <:+: normalized) then
    some "font"
  else if "video/".toList.isPrefixOf normalized || "audio/".toList.isPrefixOf normalized then
    some "media"
  else if normalized = "text/css".toList then some "stylesheet"
  else if normalized = "text/javascript".toList ∨ "javascript".toList <:+: normalized then
    some "script"
  else if normalized = "text/html".toList then some "document"
  else none

/-- The extensions of `URL_EXTENSION_RESOURCE_TYPES` with the types they stand for. -/
def URL_EXTENSION_RESOURCE_TYPES : List (List Text × String) :=
  [(["js".toList, "mjs".toList, "cjs".toList], "script"),
    (["css".toList], "stylesheet"),
    (["png".toList, "jpg".toList, "jpeg".toList, "gif".toList, "webp".toList, "svg".toList,
      "ico".toList, "bmp".toList], "image"),
    (["woff".toList, "woff2".toList, "ttf".toList, "otf".toList, "eot".toList], "font"),
    (["mp4".toList, "webm".toList, "ogg".toList, "mp3".toList, "wav".toList], "media")]

/-- Whether a text starts with an extension that the end of the text, a query or a fragment
follows, in any case. -/
def startsWithExtension (extensions : List Text) (rest : Text) : Bool :=
  extensions.any fun extension ↦
    (rest.take extension.length).map Char.toLower == extension &&
      ((rest.drop extension.length).head?.all fun c ↦ c == '?' || c == '#')

/-- Whether a URL has one of the extensions, anywhere. -/
def hasExtension (extensions : List Text) (url : Text) : Bool :=
  url.tails.any fun
    | '.' :: rest => startsWithExtension extensions rest
    | _ => false

/-- The type of a resource by the ending of its URL, none for other endings. -/
def inferResourceTypeFromUrl (url : Text) : Option String :=
  URL_EXTENSION_RESOURCE_TYPES.findSome? fun entry ↦
    if hasExtension entry.1 url then some entry.2 else none

/-- The type of a resource: the declared one, else that of the content type, else that of the
URL. -/
def inferResourceType (platform : Platform) (declaredResourceType : Option String) (url : Text)
    (responseContentType : Option Text) : Option String :=
  (present declaredResourceType).or <|
    (inferResourceTypeFromContentType platform responseContentType).or
      (inferResourceTypeFromUrl url)

/-! ## Observations -/

/-- What observations have in common if they are of one group. -/
def buildShape (platform : Platform) (method url : Text) (status : ℚ)
    (snapshotRecord responseRecord : Json) (responseContentType : Option Text) :
    NetworkObservationShape where
  method := String.ofList method
  url := String.ofList url
  status := status
  resourceType := inferResourceType platform
    (stringOf (snapshotRecord.member "_resourceType".toList)) url responseContentType
  failureText := (present (stringOf (responseRecord.member "_failureText".toList))).map
    fun failureText ↦ capString (stripAnsi failureText) NETWORK_BODY_CAP
  wasAborted := asBoolean (snapshotRecord.member "_wasAborted".toList)

/-- The records of a resource snapshot: the snapshot, its request and its response. -/
def snapshotRecords (eventRecord : Json) : Option (Json × Json × Json) :=
  if stringOf (eventRecord.member "type".toList) = some "resource-snapshot" then do
    let snapshotRecord ← asRecord (eventRecord.member "snapshot".toList)
    let requestRecord ← asRecord (snapshotRecord.member "request".toList)
    let responseRecord ← asRecord (snapshotRecord.member "response".toList)
    return (snapshotRecord, requestRecord, responseRecord)
  else none

/-- What observations depend on besides the event: the platform, the digest of bodies, the entries
of the archive, the anchor of its clock and the start of the attempt. -/
structure TraceContents where
  platform : Platform
  sha1 : CodeUnits × Option String → String
  archiveEntries : Zip.Entries
  anchor : Option MonotonicAnchor
  attemptStartTimeMs : ℚ

/-- The observation of a snapshot whose records are known. -/
def observationOf (contents : TraceContents)
    (snapshotRecord requestRecord responseRecord : Json) : Option NetworkObservation := do
  let method ← (asString (requestRecord.member "method".toList)).filter (· ≠ [])
  let url ← (asString (requestRecord.member "url".toList)).filter (· ≠ [])
  let status ← asNumber (responseRecord.member "status".toList)
  let requestHeaders := extractAllowlistedHeaders contents.platform REQUEST_HEADER_ALLOWLIST
    (requestRecord.member "headers".toList)
  let responseHeaders := extractAllowlistedHeaders contents.platform RESPONSE_HEADER_ALLOWLIST
    (responseRecord.member "headers".toList)
  return {
    shape := buildShape contents.platform method url status snapshotRecord responseRecord
      (headerOf responseHeaders "content-type")
    instance_ := buildInstance contents.platform
      { snapshotRecord := snapshotRecord
        responseRecord := responseRecord
        requestHeaders := requestHeaders
        responseHeaders := responseHeaders
        anchor := contents.anchor
        attemptStartTimeMs := contents.attemptStartTimeMs }
    requestBody := readTraceResourceBody contents.platform contents.sha1 contents.archiveEntries
      (asRecord (requestRecord.member "postData".toList))
    responseBody := readTraceResourceBody contents.platform contents.sha1 contents.archiveEntries
      (asRecord (responseRecord.member "content".toList)) }

/-- The observation of an event. There is none without a snapshot, a request and a response that
have a URL, a method and a status. -/
def buildNetworkObservationFromEvent (contents : TraceContents) (eventRecord : Json) :
    Option NetworkObservation := do
  let records ← snapshotRecords eventRecord
  observationOf contents records.1 records.2.1 records.2.2

/-! ## Hidden headers -/

/-- The headers of a list whose names are on an allow list. -/
def keepAllowlisted (platform : Platform) (allowlist : List Text) : Json → Json
  | .array headerValues => .array (headerValues.filter fun headerValue ↦
      (allowlistedName platform allowlist headerValue).isSome)
  | value => value

/-- Remove the headers of a request or a response that are not on its allow list. -/
def hideSide (platform : Platform) (allowlist : List Text) (record : Json) : Json :=
  record.onMember "headers".toList (keepAllowlisted platform allowlist)

/-- Remove the headers of a snapshot that are not on the allow lists. -/
def hideSnapshot (platform : Platform) (snapshotRecord : Json) : Json :=
  (snapshotRecord.onMember "request".toList (hideSide platform REQUEST_HEADER_ALLOWLIST)).onMember
    "response".toList (hideSide platform RESPONSE_HEADER_ALLOWLIST)

/-- Remove the headers of an event that are not on the allow lists. -/
def hideHeaders (platform : Platform) (eventRecord : Json) : Json :=
  eventRecord.onMember "snapshot".toList (hideSnapshot platform)

variable {platform : Platform} {contents : TraceContents}

/-- A member under another key than that of a change is kept. -/
theorem member_on_member_of_ne {key other : Text} (h : other ≠ key) (change : Json → Json)
    (value : Json) : (value.onMember key change).member other = value.member other := by
  rw [Json.member_onMember, if_neg h]

/-- The member under the key of a change is changed. -/
theorem member_on_member_self (key : Text) (change : Json → Json) (value : Json) :
    (value.onMember key change).member key = (value.member key).map change := by
  rw [Json.member_onMember, if_pos rfl]

/-- A changed record is a record. -/
theorem as_record_map_on_member (key : Text) (change : Json → Json) (value : Option Json) :
    asRecord (value.map (Json.onMember key change)) =
      (asRecord value).map (Json.onMember key change) := by
  rcases value with _ | _ | _ | _ | _ | _ | _ | _ <;> rfl

/-- A changed snapshot is a record. -/
theorem as_record_map_hide_snapshot (value : Option Json) :
    asRecord (value.map (hideSnapshot platform)) =
      (asRecord value).map (hideSnapshot platform) := by
  have hmap : value.map (hideSnapshot platform) =
      (value.map (Json.onMember "request".toList (hideSide platform REQUEST_HEADER_ALLOWLIST))).map
        (Json.onMember "response".toList (hideSide platform RESPONSE_HEADER_ALLOWLIST)) := by
    rw [Option.map_map]
    rfl
  rw [hmap, as_record_map_on_member, as_record_map_on_member, Option.map_map]
  rfl

/-- Headers that are not on the list are not extracted. -/
theorem extract_keep_allowlisted (allowlist : List Text) (headersValue : Option Json) :
    extractAllowlistedHeaders platform allowlist
        (headersValue.map (keepAllowlisted platform allowlist)) =
      extractAllowlistedHeaders platform allowlist headersValue := by
  rcases headersValue with _ | _ | _ | _ | _ | _ | headerValues | _
  case some.array =>
    simp only [Option.map_some, keepAllowlisted, extractAllowlistedHeaders, List.foldl_filter]
    suffices hstep : ∀ headerValue ∈ headerValues, ∀ headers : Headers,
        (if (allowlistedName platform allowlist headerValue).isSome = true then
          match allowlistedHeader platform allowlist headerValue with
          | some header => headers.set header.1 header.2
          | none => headers
        else headers) =
          match allowlistedHeader platform allowlist headerValue with
          | some header => headers.set header.1 header.2
          | none => headers by
      rw [List.foldl_ext _ _ _ fun headers headerValue hmem ↦ hstep headerValue hmem headers]
    intro headerValue _ headers
    cases hname : allowlistedName platform allowlist headerValue with
    | some name => rfl
    | none =>
        have hheader : allowlistedHeader platform allowlist headerValue = none := by
          rw [allowlistedHeader, hname]
          rfl
        rw [hheader]
        rfl
  all_goals rfl

/-- Hiding headers keeps the other members of a request or a response. -/
theorem member_hide_side {allowlist : List Text} {key : Text} (h : key ≠ "headers".toList)
    (record : Json) : (hideSide platform allowlist record).member key = record.member key :=
  member_on_member_of_ne h _ record

/-- Hiding headers keeps what is extracted of them. -/
theorem extract_hide_side (allowlist : List Text) (record : Json) :
    extractAllowlistedHeaders platform allowlist
        ((hideSide platform allowlist record).member "headers".toList) =
      extractAllowlistedHeaders platform allowlist (record.member "headers".toList) := by
  rw [hideSide, member_on_member_self, extract_keep_allowlisted]

/-- Hiding headers keeps the members of a snapshot besides its request and its response. -/
theorem member_hide_snapshot {key : Text} (hrequest : key ≠ "request".toList)
    (hresponse : key ≠ "response".toList) (record : Json) :
    (hideSnapshot platform record).member key = record.member key := by
  rw [hideSnapshot, member_on_member_of_ne hresponse, member_on_member_of_ne hrequest]

/-- The request of a snapshot whose headers are hidden. -/
theorem request_hide_snapshot (record : Json) :
    (hideSnapshot platform record).member "request".toList =
      (record.member "request".toList).map (hideSide platform REQUEST_HEADER_ALLOWLIST) := by
  rw [hideSnapshot, member_on_member_of_ne (by simp), member_on_member_self]

/-- The response of a snapshot whose headers are hidden. -/
theorem response_hide_snapshot (record : Json) :
    (hideSnapshot platform record).member "response".toList =
      (record.member "response".toList).map (hideSide platform RESPONSE_HEADER_ALLOWLIST) := by
  rw [hideSnapshot, member_on_member_self, member_on_member_of_ne (by simp)]

/-- The shape does not depend on headers besides the content type. -/
theorem build_shape_hide (method url : Text) (status : ℚ) (snapshotRecord responseRecord : Json)
    (responseContentType : Option Text) :
    buildShape platform method url status (hideSnapshot platform snapshotRecord)
        (hideSide platform RESPONSE_HEADER_ALLOWLIST responseRecord) responseContentType =
      buildShape platform method url status snapshotRecord responseRecord responseContentType := by
  have htype : (hideSnapshot platform snapshotRecord).member "_resourceType".toList = _ :=
    member_hide_snapshot (by simp) (by simp) snapshotRecord
  have haborted : (hideSnapshot platform snapshotRecord).member "_wasAborted".toList = _ :=
    member_hide_snapshot (by simp) (by simp) snapshotRecord
  have hfailure : (hideSide platform RESPONSE_HEADER_ALLOWLIST responseRecord).member
      "_failureText".toList = _ := member_hide_side (by simp) responseRecord
  simp only [buildShape, htype, haborted, hfailure]

/-- The instance does not depend on headers besides the extracted ones. -/
theorem build_instance_hide (snapshotRecord responseRecord : Json)
    (requestHeaders responseHeaders : Option Headers) (anchor : Option MonotonicAnchor)
    (attemptStartTimeMs : ℚ) :
    buildInstance platform ⟨hideSnapshot platform snapshotRecord,
        hideSide platform RESPONSE_HEADER_ALLOWLIST responseRecord, requestHeaders, responseHeaders,
        anchor, attemptStartTimeMs⟩ =
      buildInstance platform ⟨snapshotRecord, responseRecord, requestHeaders, responseHeaders,
        anchor, attemptStartTimeMs⟩ := by
  have htimings : (hideSnapshot platform snapshotRecord).member "timings".toList = _ :=
    member_hide_snapshot (by simp) (by simp) snapshotRecord
  have hmonotonic : (hideSnapshot platform snapshotRecord).member "_monotonicTime".toList = _ :=
    member_hide_snapshot (by simp) (by simp) snapshotRecord
  have hstarted : (hideSnapshot platform snapshotRecord).member "startedDateTime".toList = _ :=
    member_hide_snapshot (by simp) (by simp) snapshotRecord
  have hredirect : (hideSide platform RESPONSE_HEADER_ALLOWLIST responseRecord).member
      "redirectURL".toList = _ := member_hide_side (by simp) responseRecord
  have hnetworkTimings : extractNetworkTimings (hideSnapshot platform snapshotRecord) =
      extractNetworkTimings snapshotRecord := by
    rw [extractNetworkTimings, htimings, extractNetworkTimings]
  have hoffset : computeNetworkOffsetMs platform (hideSnapshot platform snapshotRecord) anchor
      attemptStartTimeMs = computeNetworkOffsetMs platform snapshotRecord anchor
        attemptStartTimeMs :=
    compute_network_offset_ms_congr hmonotonic hstarted anchor attemptStartTimeMs
  rw [buildInstance, buildInstance, hnetworkTimings, hoffset, hredirect]

/-- The observation of a snapshot does not depend on hidden headers. -/
theorem observation_of_hide (snapshotRecord requestRecord responseRecord : Json) :
    observationOf contents (hideSnapshot contents.platform snapshotRecord)
        (hideSide contents.platform REQUEST_HEADER_ALLOWLIST requestRecord)
        (hideSide contents.platform RESPONSE_HEADER_ALLOWLIST responseRecord) =
      observationOf contents snapshotRecord requestRecord responseRecord := by
  have hmethod : (hideSide contents.platform REQUEST_HEADER_ALLOWLIST requestRecord).member
      "method".toList = _ := member_hide_side (by simp) requestRecord
  have hurl : (hideSide contents.platform REQUEST_HEADER_ALLOWLIST requestRecord).member
      "url".toList = _ := member_hide_side (by simp) requestRecord
  have hpost : (hideSide contents.platform REQUEST_HEADER_ALLOWLIST requestRecord).member
      "postData".toList = _ := member_hide_side (by simp) requestRecord
  have hstatus : (hideSide contents.platform RESPONSE_HEADER_ALLOWLIST responseRecord).member
      "status".toList = _ := member_hide_side (by simp) responseRecord
  have hcontent : (hideSide contents.platform RESPONSE_HEADER_ALLOWLIST responseRecord).member
      "content".toList = _ := member_hide_side (by simp) responseRecord
  simp only [observationOf, extract_hide_side, hmethod, hurl, hpost, hstatus, hcontent,
    build_shape_hide, build_instance_hide]

/-- Members that the analysis of an event reads besides its snapshot are kept. -/
theorem member_hide_headers {key : Text} (h : key ≠ "snapshot".toList) (eventRecord : Json) :
    (hideHeaders platform eventRecord).member key = eventRecord.member key :=
  member_on_member_of_ne h _ eventRecord

/-- The records of an event whose headers are hidden. -/
theorem snapshot_records_hide (eventRecord : Json) :
    snapshotRecords (hideHeaders platform eventRecord) =
      (snapshotRecords eventRecord).map fun records ↦
        (hideSnapshot platform records.1, hideSide platform REQUEST_HEADER_ALLOWLIST records.2.1,
          hideSide platform RESPONSE_HEADER_ALLOWLIST records.2.2) := by
  have htype : (hideHeaders platform eventRecord).member "type".toList = _ :=
    member_hide_headers (by simp) eventRecord
  have hsnapshot : (hideHeaders platform eventRecord).member "snapshot".toList =
      (eventRecord.member "snapshot".toList).map (hideSnapshot platform) :=
    member_on_member_self _ _ eventRecord
  simp only [snapshotRecords, htype, hsnapshot, as_record_map_hide_snapshot]
  split
  next =>
    cases asRecord (eventRecord.member "snapshot".toList) with
    | none => rfl
    | some snapshotRecord =>
        have hside : ∀ (allowlist : List Text) (value : Option Json),
            asRecord (value.map (hideSide platform allowlist)) =
              (asRecord value).map (hideSide platform allowlist) :=
          fun _ value ↦ as_record_map_on_member _ _ value
        simp only [Option.map_some, Option.bind_eq_bind, Option.bind_some,
          request_hide_snapshot, response_hide_snapshot, hside]
        cases asRecord (snapshotRecord.member "request".toList) with
        | none => rfl
        | some requestRecord =>
            cases asRecord (snapshotRecord.member "response".toList) <;> rfl
  next => rfl

/-- The observation of an event does not depend on the headers that are not on the allow lists. -/
theorem build_network_observation_hide (eventRecord : Json) :
    buildNetworkObservationFromEvent contents (hideHeaders contents.platform eventRecord) =
      buildNetworkObservationFromEvent contents eventRecord := by
  simp only [buildNetworkObservationFromEvent, snapshot_records_hide]
  cases snapshotRecords eventRecord with
  | none => rfl
  | some records => exact observation_of_hide records.1 records.2.1 records.2.2

end CoreUtils.Reporter.Trace
