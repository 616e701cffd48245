import CoreUtils.Library.GreedyFill
import CoreUtils.Reporter.ClientLifecycleContract

/-!
# Round trip of the browser lifecycle attachment

A sanitized record is read again as it was (`sanitize_record_again`), unless its origin is longer
than the cap on the text of an origin. The sizes that the loop of `encodeBrowserLifecycleAttachment`
adds up are those of the serialized attachment (`length_serializeAttachment`), so that it includes
the sanitized records that it has room for, in the order of their priority
(`includedRecords_eq_fill`). The round trip succeeds exactly when none of these has such an origin
(`parse_encode_iff`).
-/

namespace CoreUtils.Reporter.Lifecycle

open GreedyFill Text Json

variable {runtime : Runtime}

/-! ## Sanitizing again -/

/-- A member of an object at a place in its list. -/
theorem member_of_getElem {members : List (Text × Option Json)} {keys : List Text} {i : ℕ}
    {key : Text} {value : Option Json} (hkeys : keys.Nodup) (hsame : members.map Prod.fst = keys)
    (h : members[i]? = some (key, value)) : (objectOf members).member key = value :=
  member_objectOf (hsame ▸ hkeys) (List.mem_of_getElem? h)

/-- An object that is written is a record. -/
theorem as_record_objectOf (members : List (Text × Option Json)) :
    asRecord (some (objectOf members)) = some (objectOf members) := rfl

/-- The keys of timestamps are different. -/
theorem timestamp_keys : ["utc".toList, "monotonicMilliseconds".toList].Nodup := by decide

/-- A printed time is read as the same time. -/
theorem sanitize_timestamp_again (hdocumented : runtime.Documented) {utc : Text} {time : ℤ}
    (htime : runtime.dateParse utc = some time) (value : Option Json) :
    sanitizeTimestamp runtime (some (BrowserLifecycleTimestamp.toJson
      ⟨runtime.toISOString time, sanitizeLifecycleNonNegativeNumber value⟩)) =
      some ⟨runtime.toISOString time, sanitizeLifecycleNonNegativeNumber value⟩ := by
  have hagain := hdocumented.dateParse_toISOString utc time htime
  have hne : runtime.toISOString time ≠ [] := by
    intro hempty
    rw [hempty, hdocumented.dateParse_nil] at hagain
    simp at hagain
  rw [BrowserLifecycleTimestamp.toJson, sanitizeTimestamp, as_record_objectOf]
  simp only [Option.bind_eq_bind, Option.bind_some]
  rw [member_of_getElem (i := 0) timestamp_keys rfl rfl,
    member_of_getElem (i := 1) timestamp_keys rfl rfl, stable_number.reread]
  simp [asString, Json.asString, Option.filter, hne, hagain]

/-- Timestamps are read again. -/
theorem stable_timestamp (hdocumented : runtime.Documented) :
    Stable (sanitizeTimestamp runtime) (·.toJson) where
  missing := rfl
  again := by
    intro value timestamp hread
    simp only [sanitizeTimestamp, Option.bind_eq_bind, Option.bind_eq_some_iff] at hread
    obtain ⟨source, -, utc, -, time, htime, hresult⟩ := hread
    obtain rfl := Option.some.inj hresult
    exact sanitize_timestamp_again hdocumented htime _

/-- The keys of events are different. -/
theorem event_keys : ["cdp".toList, "playwright".toList].Nodup := by decide

/-- An event has been seen by the sources that it came from. -/
theorem eventOf_eq_some {cdp playwright : Option BrowserLifecycleTimestamp}
    {event : BrowserLifecycleEvent} (h : eventOf cdp playwright = some event) :
    event.cdp = cdp ∧ event.playwright = playwright := by
  unfold eventOf at h
  split at h
  · obtain rfl := Option.some.inj h
    exact ⟨rfl, rfl⟩
  · simp at h

/-- Events are read again. -/
theorem stable_event (hdocumented : runtime.Documented) :
    Stable (sanitizeEvent runtime) (·.toJson) where
  missing := rfl
  again := by
    intro value event hread
    obtain ⟨source, -, hevent⟩ := Option.bind_eq_some_iff.mp hread
    obtain ⟨hcdp, hplaywright⟩ := eventOf_eq_some hevent
    show eventOf (sanitizeTimestamp runtime (event.toJson.member "cdp".toList))
      (sanitizeTimestamp runtime (event.toJson.member "playwright".toList)) = some event
    rw [show event.toJson.member "cdp".toList = event.cdp.map (·.toJson) from
        member_of_getElem (i := 0) event_keys rfl rfl,
      show event.toJson.member "playwright".toList = event.playwright.map (·.toJson) from
        member_of_getElem (i := 1) event_keys rfl rfl, hcdp, hplaywright,
      (stable_timestamp hdocumented).reread, (stable_timestamp hdocumented).reread]
    exact hevent

/-- What the first source has seen of an event. -/
theorem eventOf_cdp (cdp playwright : Option BrowserLifecycleTimestamp) :
    (eventOf cdp playwright).bind (·.cdp) = cdp := by
  unfold eventOf
  split
  · rfl
  · rename_i hunseen
    have hnone : cdp = none := by
      by_contra hne
      exact hunseen (.inl (Option.isSome_iff_ne_none.mpr hne))
    rw [hnone]
    rfl

/-- What the second source has seen of an event. -/
theorem eventOf_playwright (cdp playwright : Option BrowserLifecycleTimestamp) :
    (eventOf cdp playwright).bind (·.playwright) = playwright := by
  unfold eventOf
  split
  · rfl
  · rename_i hunseen
    have hnone : playwright = none := by
      by_contra hne
      exact hunseen (.inr (Option.isSome_iff_ne_none.mpr hne))
    rw [hnone]
    rfl

/-- The keys of failure events are different. -/
theorem failure_event_keys : ["cdp".toList, "playwright".toList, "errorText".toList,
    "canceled".toList, "blockedReason".toList, "corsErrorStatus".toList].Nodup := by decide

/-- The failure event in an object. -/
theorem sanitize_failure_event_eq {value : Option Json} {source : Json}
    (hsource : asRecord value = some source) :
    sanitizeFailureEvent runtime value =
      let event : BrowserLifecycleFailureEvent :=
        { cdp := sanitizeTimestamp runtime (source.member "cdp".toList)
          playwright := sanitizeTimestamp runtime (source.member "playwright".toList)
          errorText := sanitizeLifecycleNetworkError (source.member "errorText".toList)
          canceled := asBoolean (source.member "canceled".toList)
          blockedReason := sanitizeLifecycleIdentifier (source.member "blockedReason".toList)
          corsErrorStatus := sanitizeLifecycleIdentifier (source.member "corsErrorStatus".toList) }
      if event = ⟨none, none, none, none, none, none⟩ then none else some event := by
  simp only [sanitizeFailureEvent, sanitizeEvent, hsource, Option.bind_eq_bind, Option.bind_some,
    eventOf_cdp, eventOf_playwright]

/-- Failure events are read again. -/
theorem stable_failure_event (hdocumented : runtime.Documented) :
    Stable (sanitizeFailureEvent runtime) (·.toJson) where
  missing := rfl
  again := by
    intro value event hread
    obtain ⟨source, hsource, -⟩ := Option.bind_eq_some_iff.mp hread
    rw [sanitize_failure_event_eq hsource] at hread
    rw [BrowserLifecycleFailureEvent.toJson, sanitize_failure_event_eq (as_record_objectOf _)]
    simp only at hread ⊢
    split at hread
    · simp at hread
    · obtain rfl := Option.some.inj hread
      rw [member_of_getElem (i := 0) failure_event_keys rfl rfl,
        member_of_getElem (i := 1) failure_event_keys rfl rfl,
        member_of_getElem (i := 2) failure_event_keys rfl rfl,
        member_of_getElem (i := 3) failure_event_keys rfl rfl,
        member_of_getElem (i := 4) failure_event_keys rfl rfl,
        member_of_getElem (i := 5) failure_event_keys rfl rfl,
        (stable_timestamp hdocumented).reread, (stable_timestamp hdocumented).reread,
        stable_network_error.reread, stable_boolean.reread, stable_identifier.reread,
        stable_identifier.reread]
      rename_i hpresent
      rw [if_neg hpresent]

/-- The keys of remote endpoints are different. -/
theorem remote_endpoint_keys : ["ipAddress".toList, "port".toList].Nodup := by decide

/-- Remote endpoints are read again. -/
theorem stable_remote_endpoint : Stable sanitizeRemoteEndpoint (·.toJson) where
  missing := rfl
  again := by
    intro value endpoint hread
    obtain ⟨source, -, hendpoint⟩ := Option.bind_eq_some_iff.mp hread
    simp only at hendpoint
    split at hendpoint
    · simp at hendpoint
    · rename_i hpresent
      obtain rfl := Option.some.inj hendpoint
      rw [RemoteEndpoint.toJson, sanitizeRemoteEndpoint, as_record_objectOf]
      simp only [Option.bind_eq_bind, Option.bind_some]
      rw [member_of_getElem (i := 0) remote_endpoint_keys rfl rfl,
        member_of_getElem (i := 1) remote_endpoint_keys rfl rfl,
        stable_ip_address.reread, stable_number.reread, if_neg hpresent]

/-- The keys of connections are different. -/
theorem connection_keys :
    ["id".toList, "reused".toList, "remoteEndpoint".toList].Nodup := by decide

/-- Connections are read again. -/
theorem stable_connection : Stable sanitizeConnection (·.toJson) where
  missing := rfl
  again := by
    intro value connection hread
    obtain ⟨source, -, hconnection⟩ := Option.bind_eq_some_iff.mp hread
    simp only at hconnection
    split at hconnection
    · simp at hconnection
    · rename_i hpresent
      obtain rfl := Option.some.inj hconnection
      rw [BrowserLifecycleConnection.toJson, sanitizeConnection, as_record_objectOf]
      simp only [Option.bind_eq_bind, Option.bind_some]
      rw [member_of_getElem (i := 0) connection_keys rfl rfl,
        member_of_getElem (i := 1) connection_keys rfl rfl,
        member_of_getElem (i := 2) connection_keys rfl rfl, stable_number.reread,
        stable_boolean.reread, stable_remote_endpoint.reread, if_neg hpresent]

/-- The keys of the numbers of bytes are different. -/
theorem encoded_bytes_keys :
    ["data".toList, "responseHeaders".toList, "total".toList].Nodup := by decide

/-- Numbers of bytes are read again. -/
theorem stable_encoded_bytes : Stable sanitizeEncodedBytes (·.toJson) where
  missing := rfl
  again := by
    intro value encodedBytes hread
    obtain ⟨source, -, hbytes⟩ := Option.bind_eq_some_iff.mp hread
    simp only at hbytes
    split at hbytes
    · simp at hbytes
    · rename_i hpresent
      obtain rfl := Option.some.inj hbytes
      rw [BrowserLifecycleEncodedBytes.toJson, sanitizeEncodedBytes, as_record_objectOf]
      simp only [Option.bind_eq_bind, Option.bind_some]
      rw [member_of_getElem (i := 0) encoded_bytes_keys rfl rfl,
        member_of_getElem (i := 1) encoded_bytes_keys rfl rfl,
        member_of_getElem (i := 2) encoded_bytes_keys rfl rfl, stable_number.reread,
        stable_number.reread, stable_number.reread, if_neg hpresent]

/-- The keys of records. -/
def recordKeys : List Text :=
  ["method".toList, "origin".toList, "pathTemplate".toList, "requestStarted".toList,
    "classification".toList, "responseReceived".toList, "loadingFinished".toList,
    "loadingFailed".toList, "playwrightRequestKey".toList, "cdpRequestId".toList,
    "loaderId".toList, "apiGatewayRequestId".toList, "traceId".toList, "spanId".toList,
    "connection".toList, "encodedBytes".toList, "httpStatus".toList, "protocol".toList]

/-- The keys of records are different. -/
theorem record_keys : recordKeys.Nodup := by decide +kernel

/-- A member of a record at a place in its fields. -/
theorem member_record (record : BrowserLifecycleRecord) (i : ℕ) {key : Text} {value : Option Json}
    (h : record.fields[i]? = some (key, value)) : record.toJson.member key = value :=
  member_of_getElem record_keys rfl h

/-- What the fields of a record are when it has been sanitized from `source`. -/
structure Sanitized (runtime : Runtime) (source : Json) (record : BrowserLifecycleRecord) :
    Prop where
  method : sanitizeLifecycleMethod runtime (source.member "method".toList) = some record.method
  origin : sanitizeLifecycleOrigin runtime (source.member "origin".toList) = some record.origin
  origin_ne : record.origin ≠ []
  pathTemplate :
    sanitizeLifecyclePathTemplate (source.member "pathTemplate".toList) = some record.pathTemplate
  classification : sanitizeLifecycleClassification (source.member "classification".toList) =
    some record.classification
  requestStarted :
    sanitizeEvent runtime (source.member "requestStarted".toList) = some record.requestStarted
  responseReceived :
    sanitizeEvent runtime (source.member "responseReceived".toList) = record.responseReceived
  loadingFinished :
    sanitizeEvent runtime (source.member "loadingFinished".toList) = record.loadingFinished
  loadingFailed :
    sanitizeFailureEvent runtime (source.member "loadingFailed".toList) = record.loadingFailed
  playwrightRequestKey :
    sanitizeLifecycleIdentifier (source.member "playwrightRequestKey".toList) =
      record.playwrightRequestKey
  cdpRequestId :
    sanitizeLifecycleIdentifier (source.member "cdpRequestId".toList) = record.cdpRequestId
  loaderId : sanitizeLifecycleIdentifier (source.member "loaderId".toList) = record.loaderId
  apiGatewayRequestId :
    sanitizeLifecycleIdentifier (source.member "apiGatewayRequestId".toList) =
      record.apiGatewayRequestId
  traceId : sanitizeLifecycleTraceId runtime (source.member "traceId".toList) = record.traceId
  spanId : sanitizeLifecycleSpanId runtime (source.member "spanId".toList) = record.spanId
  connection : sanitizeConnection (source.member "connection".toList) = record.connection
  encodedBytes : sanitizeEncodedBytes (source.member "encodedBytes".toList) = record.encodedBytes
  httpStatus :
    sanitizeLifecycleNonNegativeNumber (source.member "httpStatus".toList) = record.httpStatus
  protocol : sanitizeLifecycleProtocol (source.member "protocol".toList) = record.protocol

/-- A value is sanitized to a record exactly when its members are sanitized to the fields. -/
theorem sanitize_record_iff {value source : Json} {record : BrowserLifecycleRecord}
    (hsource : asRecord (some value) = some source) :
    sanitizeRecord runtime value = some record ↔ Sanitized runtime source record := by
  simp only [sanitizeRecord, hsource, Option.bind_eq_bind, Option.bind_some]
  constructor
  · intro h
    simp only [Option.bind_eq_some_iff] at h
    obtain ⟨method, hmethod, origin, horigin, pathTemplate, hpath, classification,
      hclassification, requestStarted, hstarted, hresult⟩ := h
    obtain rfl := Option.some.inj hresult
    obtain ⟨horigin, hne⟩ := Option.filter_eq_some_iff.mp horigin
    exact ⟨hmethod, horigin, by simpa using hne, hpath, hclassification, hstarted, rfl, rfl, rfl,
      rfl, rfl, rfl, rfl, rfl, rfl, rfl, rfl, rfl, rfl⟩
  · intro h
    have horigin : (sanitizeLifecycleOrigin runtime (source.member "origin".toList)).filter
        (fun origin ↦ decide (origin ≠ [])) = some record.origin := by
      rw [h.origin, Option.filter_eq_some_iff]
      exact ⟨rfl, by simpa using h.origin_ne⟩
    rw [h.method, horigin, h.pathTemplate, h.classification, h.requestStarted, h.responseReceived,
      h.loadingFinished, h.loadingFailed, h.playwrightRequestKey, h.cdpRequestId, h.loaderId,
      h.apiGatewayRequestId, h.traceId, h.spanId, h.connection, h.encodedBytes, h.httpStatus,
      h.protocol]
    rfl

/-- A sanitized record is read again if its origin is not too long. -/
theorem Sanitized.again (hdocumented : runtime.Documented) {source : Json}
    {record : BrowserLifecycleRecord} (h : Sanitized runtime source record)
    (hlength : codeUnits record.origin ≤ CLIENT_LIFECYCLE_IDENTIFIER_CAP) :
    Sanitized runtime record.toJson record where
  method := by
    rw [member_record record 0 rfl]
    exact (stable_method hdocumented).again h.method
  origin := by
    rw [member_record record 1 rfl, sanitize_origin_again hdocumented h.origin h.origin_ne,
      if_pos hlength]
  origin_ne := h.origin_ne
  pathTemplate := by
    rw [member_record record 2 rfl]
    exact stable_path_template.again h.pathTemplate
  classification := by
    rw [member_record record 4 rfl]
    exact stable_classification.again h.classification
  requestStarted := by
    rw [member_record record 3 rfl]
    exact (stable_event hdocumented).again h.requestStarted
  responseReceived := by
    rw [member_record record 5 rfl, ← h.responseReceived, (stable_event hdocumented).reread]
  loadingFinished := by
    rw [member_record record 6 rfl, ← h.loadingFinished, (stable_event hdocumented).reread]
  loadingFailed := by
    rw [member_record record 7 rfl, ← h.loadingFailed, (stable_failure_event hdocumented).reread]
  playwrightRequestKey := by
    rw [member_record record 8 rfl, ← h.playwrightRequestKey, stable_identifier.reread]
  cdpRequestId := by
    rw [member_record record 9 rfl, ← h.cdpRequestId, stable_identifier.reread]
  loaderId := by rw [member_record record 10 rfl, ← h.loaderId, stable_identifier.reread]
  apiGatewayRequestId := by
    rw [member_record record 11 rfl, ← h.apiGatewayRequestId, stable_identifier.reread]
  traceId := by
    rw [member_record record 12 rfl, ← h.traceId, (stable_trace_id hdocumented).reread]
  spanId := by
    rw [member_record record 13 rfl, ← h.spanId, (stable_span_id hdocumented).reread]
  connection := by rw [member_record record 14 rfl, ← h.connection, stable_connection.reread]
  encodedBytes := by
    rw [member_record record 15 rfl, ← h.encodedBytes, stable_encoded_bytes.reread]
  httpStatus := by rw [member_record record 16 rfl, ← h.httpStatus, stable_number.reread]
  protocol := by rw [member_record record 17 rfl, ← h.protocol, stable_protocol.reread]

/-- A sanitized record is read again if its origin is not too long, and dropped otherwise. -/
theorem sanitize_record_again (hdocumented : runtime.Documented) {value : Json}
    {record : BrowserLifecycleRecord} (hread : sanitizeRecord runtime value = some record) :
    sanitizeRecord runtime record.toJson =
      if codeUnits record.origin ≤ CLIENT_LIFECYCLE_IDENTIFIER_CAP then some record else none := by
  obtain ⟨source, hsource, -⟩ := Option.bind_eq_some_iff.mp hread
  have hsanitized := (sanitize_record_iff hsource).mp hread
  have hself : asRecord (some record.toJson) = some record.toJson := rfl
  by_cases hlength : codeUnits record.origin ≤ CLIENT_LIFECYCLE_IDENTIFIER_CAP
  · rw [if_pos hlength, sanitize_record_iff hself]
    exact hsanitized.again hdocumented hlength
  · rw [if_neg hlength]
    cases hagain : sanitizeRecord runtime record.toJson with
    | none => rfl
    | some other =>
        have horigin := ((sanitize_record_iff hself).mp hagain).origin
        rw [member_record record 1 rfl, sanitize_origin_again hdocumented hsanitized.origin
          hsanitized.origin_ne, if_neg hlength] at horigin
        simp at horigin

/-! ## Sizes -/

/-- The records of an attachment as texts. -/
def recordTexts (runtime : Runtime) (records : List BrowserLifecycleRecord) : List Text :=
  records.map fun record ↦ record.toJson.stringify runtime.numberText

/-- The bytes of the records and the commas between them. -/
def joinedBytes (runtime : Runtime) (records : List BrowserLifecycleRecord) : ℕ :=
  (Utf8.encode ([','].intercalate (recordTexts runtime records))).length

/-- The bytes of two texts. -/
theorem length_encode_append (text text' : Text) :
    (Utf8.encode (text ++ text')).length =
      (Utf8.encode text).length + (Utf8.encode text').length := by
  simp [Utf8.encode]

/-- What stands around the records of a serialized attachment does not depend on them. -/
theorem stringify_attachment (runtime : Runtime) (truncated : Bool) :
    ∃ front : Text, ∀ records,
      (BrowserLifecycleAttachment.toJson ⟨truncated, records⟩).stringify runtime.numberText =
        front ++ ([','].intercalate (recordTexts runtime records) ++ [']', '}']) := by
  refine ⟨'{' :: (quote "schemaVersion".toList ++ ':' :: runtime.numberText SCHEMA_VERSION ++
    ',' :: (quote "truncated".toList ++ ':' :: stringify runtime.numberText (.bool truncated) ++
      ',' :: (quote "records".toList ++ [':', '[']))), fun records ↦ ?_⟩
  show stringify runtime.numberText (.object
    [("schemaVersion".toList, .number SCHEMA_VERSION), ("truncated".toList, .bool truncated),
      ("records".toList, .array (records.map (·.toJson)))]) = _
  have htexts : (records.map (·.toJson)).map (stringify runtime.numberText) =
      recordTexts runtime records := by simp [recordTexts]
  have hnumber : stringify runtime.numberText (.number SCHEMA_VERSION) =
      runtime.numberText SCHEMA_VERSION := by rw [stringify]
  rw [stringify_object, List.map_cons, List.map_cons, List.map_cons, List.map_nil, stringify_array,
    htexts, hnumber, List.intercalate_cons_cons, List.intercalate_cons_cons,
    List.intercalate_singleton]
  simp only [List.append_assoc, List.cons_append, List.nil_append]

/-- The size of a serialized attachment. -/
theorem length_serializeAttachment (runtime : Runtime) (truncated : Bool)
    (records : List BrowserLifecycleRecord) :
    (serializeAttachment runtime ⟨truncated, records⟩).length =
      (serializeAttachment runtime ⟨truncated, []⟩).length + joinedBytes runtime records := by
  obtain ⟨front, hfront⟩ := stringify_attachment runtime truncated
  rw [serializeAttachment, serializeAttachment, hfront, hfront, length_encode_append,
    length_encode_append, length_encode_append, length_encode_append, joinedBytes]
  have hnil : (Utf8.encode ([','].intercalate (recordTexts runtime []))).length = 0 := rfl
  omega

/-- The size of the records when another one is included. -/
theorem joinedBytes_concat (runtime : Runtime) (records : List BrowserLifecycleRecord)
    (record : BrowserLifecycleRecord) :
    joinedBytes runtime (records ++ [record]) =
      joinedBytes runtime records + (separatorBytes records + recordBytes runtime record) := by
  have hcomma : (Utf8.encode [',']).length = 1 := rfl
  cases records with
  | nil => simp [joinedBytes, recordTexts, recordBytes, separatorBytes, Utf8.encode]
  | cons first rest =>
      have hjoined : [','].intercalate (recordTexts runtime (first :: rest ++ [record])) =
          [','].intercalate (recordTexts runtime (first :: rest)) ++ ([','] ++
            record.toJson.stringify runtime.numberText) := by
        rw [recordTexts, List.map_append]
        exact intercalate_concat _ (by simp) _
      rw [joinedBytes, hjoined, length_encode_append, length_encode_append, hcomma]
      rfl

/-- The size of an attachment with some records, marked as truncated or not. -/
def attachmentBytes (runtime : Runtime) (records : List BrowserLifecycleRecord) : ℕ :=
  max (serializeAttachment runtime ⟨false, records⟩).length
    (serializeAttachment runtime ⟨true, records⟩).length

/-- Whether a record can be included beside others. -/
def hasRoom (runtime : Runtime) (included : List BrowserLifecycleRecord)
    (record : BrowserLifecycleRecord) : Bool :=
  included.length < MAXIMUM_RECORDS &&
    attachmentBytes runtime (included ++ [record]) ≤ MAXIMUM_BYTES

/-- The size of an attachment is what the loop adds up. -/
theorem attachmentBytes_eq (runtime : Runtime) (records : List BrowserLifecycleRecord) :
    attachmentBytes runtime records =
      emptyAttachmentBytes runtime + joinedBytes runtime records := by
  rw [attachmentBytes, length_serializeAttachment runtime false records,
    length_serializeAttachment runtime true records, emptyAttachmentBytes]
  omega

/-- The loop fills the attachment. -/
theorem includeRecords_eq_fill (rest included : List BrowserLifecycleRecord) :
    includeRecords runtime rest included (joinedBytes runtime included) =
      fill (hasRoom runtime) included rest := by
  induction rest generalizing included with
  | nil => rfl
  | cons record rest ih =>
      have hsize := joinedBytes_concat runtime included record
      have hbytes := attachmentBytes_eq runtime (included ++ [record])
      rw [includeRecords]
      split
      · rename_i hfull
        refine (fill_of_full (fun other ↦ ?_) (record :: rest)).symm
        simp only [hasRoom, not_lt.mpr hfull, decide_false, Bool.false_and]
      · rename_i hmore
        rw [fill]
        split
        · rename_i hfits
          have hroom : hasRoom runtime included record = true := by
            simp only [hasRoom, Bool.and_eq_true, decide_eq_true_eq]
            omega
          rw [if_pos hroom, ← ih (included ++ [record]), hsize]
        · rename_i hlarge
          have hroom : ¬hasRoom runtime included record = true := by
            simp only [hasRoom, Bool.and_eq_true, decide_eq_true_eq]
            omega
          rw [if_neg hroom]
          exact ih included

/-- The records that are included. -/
theorem includedRecords_eq_fill (records : List Json) :
    includedRecords runtime records =
      fill (hasRoom runtime) [] (prioritizeRecords (records.filterMap (sanitizeRecord runtime))) :=
  includeRecords_eq_fill _ []

/-- The loop includes some of the records, at most 100 and none beyond the size of an attachment. -/
theorem include_records_spec (runtime : Runtime) (rest included : List BrowserLifecycleRecord)
    (hcount : included.length ≤ MAXIMUM_RECORDS)
    (hroom : emptyAttachmentBytes runtime + joinedBytes runtime included ≤ MAXIMUM_BYTES) :
    ∃ kept, kept.Sublist rest ∧
      includeRecords runtime rest included (joinedBytes runtime included) = included ++ kept ∧
      (included ++ kept).length ≤ MAXIMUM_RECORDS ∧
      emptyAttachmentBytes runtime + joinedBytes runtime (included ++ kept) ≤ MAXIMUM_BYTES := by
  induction rest generalizing included with
  | nil => exact ⟨[], .slnil, by simp [includeRecords], by simpa using hcount, by simpa using hroom⟩
  | cons record rest ih =>
      rw [includeRecords]
      split
      · exact ⟨[], List.nil_sublist _, by simp, by simpa using hcount, by simpa using hroom⟩
      · rename_i hmore
        split
        · rename_i hfits
          have hsize := joinedBytes_concat runtime included record
          have hcount' : (included ++ [record]).length ≤ MAXIMUM_RECORDS := by
            rw [List.length_append, List.length_singleton]
            omega
          obtain ⟨kept, hsublist, hresult, hkept⟩ :=
            ih (included ++ [record]) hcount' (by omega)
          rw [hsize] at hresult
          have hconcat : included ++ [record] ++ kept = included ++ record :: kept := by simp
          rw [hconcat] at hresult hkept
          exact ⟨record :: kept, hsublist.cons_cons record, hresult, hkept⟩
        · obtain ⟨kept, hsublist, hresult⟩ := ih included hcount hroom
          exact ⟨kept, hsublist.cons record, hresult⟩

/-- An attachment without records is small. -/
theorem emptyAttachmentBytes_le (hdocumented : runtime.Documented) :
    emptyAttachmentBytes runtime ≤ MAXIMUM_BYTES := by
  have hsize : ∀ truncated, (serializeAttachment runtime ⟨truncated, []⟩).length ≤ 60 := by
    intro truncated
    have hnumber : runtime.numberText SCHEMA_VERSION = ['2'] := hdocumented.numberText_two
    show (Utf8.encode (stringify runtime.numberText (.object
      [("schemaVersion".toList, .number SCHEMA_VERSION), ("truncated".toList, .bool truncated),
        ("records".toList, .array [])]))).length ≤ 60
    cases truncated <;> simp [stringify, stringifyMembers, stringifyValues, hnumber] <;> decide
  have htrue := hsize true
  have hfalse := hsize false
  simp only [emptyAttachmentBytes, MAXIMUM_BYTES]
  omega

/-- Every record has its place in the order of priority. -/
theorem length_prioritizeRecords (records : List BrowserLifecycleRecord) :
    (prioritizeRecords records).length = records.length := by
  induction records with
  | nil => rfl
  | cons record rest ih =>
      simp only [prioritizeRecords, CLIENT_LIFECYCLE_CLASSIFICATION_PRIORITY, List.flatMap_cons,
        List.flatMap_nil, List.length_append, List.length_nil] at ih
      cases hclassification : record.classification <;>
        simp [prioritizeRecords, CLIENT_LIFECYCLE_CLASSIFICATION_PRIORITY, hclassification] <;>
        omega

/-- The included records are sanitized ones, at most as many as there are records. -/
theorem included_records_spec (hdocumented : runtime.Documented) (records : List Json) :
    (∀ record ∈ includedRecords runtime records,
        ∃ value ∈ records, sanitizeRecord runtime value = some record) ∧
      (includedRecords runtime records).length ≤ records.length ∧
      (includedRecords runtime records).length ≤ MAXIMUM_RECORDS ∧
      emptyAttachmentBytes runtime + joinedBytes runtime (includedRecords runtime records) ≤
        MAXIMUM_BYTES := by
  obtain ⟨kept, hsublist, hkept, hcount, hroom⟩ := include_records_spec runtime
    (prioritizeRecords (records.filterMap (sanitizeRecord runtime))) [] (Nat.zero_le _)
    (emptyAttachmentBytes_le hdocumented)
  have hincluded : includedRecords runtime records = kept := hkept
  rw [hincluded]
  refine ⟨fun record hrecord ↦ ?_, ?_, hcount, hroom⟩
  · have hmem := hsublist.subset hrecord
    obtain ⟨classification, -, hfiltered⟩ := List.mem_flatMap.mp hmem
    exact List.mem_filterMap.mp (List.mem_filter.mp hfiltered).1
  · have hlength := hsublist.length_le
    rw [length_prioritizeRecords] at hlength
    exact hlength.trans (List.length_filterMap_le _ _)

/-! ## The round trip -/

/-- The keys of attachments are different. -/
theorem attachment_keys :
    ["schemaVersion".toList, "truncated".toList, "records".toList].Nodup := by decide

/-- The origin of a record is short enough to be read again. -/
def ShortOrigin (record : BrowserLifecycleRecord) : Prop :=
  codeUnits record.origin ≤ CLIENT_LIFECYCLE_IDENTIFIER_CAP

/-- Whether an origin is short enough can be checked. -/
instance (record : BrowserLifecycleRecord) : Decidable (ShortOrigin record) :=
  inferInstanceAs (Decidable (_ ≤ _))

/-- The size of the body. -/
theorem length_body (hdocumented : runtime.Documented) (records : List Json) (truncated : Bool) :
    (encodeBrowserLifecycleAttachment runtime records truncated).body.length ≤ MAXIMUM_BYTES := by
  obtain ⟨-, -, -, hroom⟩ := included_records_spec hdocumented records
  show (serializeAttachment runtime ⟨_, includedRecords runtime records⟩).length ≤ MAXIMUM_BYTES
  rw [length_serializeAttachment]
  refine le_trans (Nat.add_le_add_right ?_ _) hroom
  cases (truncated || decide (0 < records.length - (includedRecords runtime records).length))
  · exact le_max_left _ _
  · exact le_max_right _ _

/-- What is read of an attachment: the records with short origins. -/
theorem parse_attachment (hdocumented : runtime.Documented)
    {attachment : BrowserLifecycleAttachment} {content : List ℕ}
    (hsize : content.length ≤ MAXIMUM_BYTES)
    (hjson : runtime.parseJson (Utf8.decode content) = some attachment.toJson)
    (hcount : attachment.records.length ≤ MAXIMUM_RECORDS)
    (hsanitized : ∀ record ∈ attachment.records,
      ∃ value, sanitizeRecord runtime value = some record) :
    parseBrowserLifecycleAttachment runtime content =
      if 0 < attachment.records.length ∧ (attachment.records.filter (ShortOrigin ·)).length = 0 then
        none
      else some
        ⟨attachment.truncated ||
            (attachment.records.filter (ShortOrigin ·)).length < attachment.records.length,
          attachment.records.filter (ShortOrigin ·)⟩ := by
  have hmember : ∀ (i : ℕ) {key : Text} {value : Option Json},
      [("schemaVersion".toList, some (.number SCHEMA_VERSION)),
        ("truncated".toList, some (.bool attachment.truncated)),
        ("records".toList, some (.array (attachment.records.map (·.toJson))))][i]? =
        some (key, value) → attachment.toJson.member key = value :=
    fun i key value h ↦ member_of_getElem attachment_keys rfl h
  have hself : asRecord (some attachment.toJson) = some attachment.toJson := rfl
  have hagain : (attachment.records.map (·.toJson)).filterMap (sanitizeRecord runtime) =
      attachment.records.filter (ShortOrigin ·) := by
    rw [List.filterMap_map, ← List.filterMap_eq_filter]
    refine List.filterMap_congr fun record hrecord ↦ ?_
    obtain ⟨value, hvalue⟩ := hsanitized record hrecord
    rw [Function.comp_apply, sanitize_record_again hdocumented hvalue]
    show (if ShortOrigin record then some record else none) = _
    by_cases hshort : ShortOrigin record <;> simp [Option.guard, hshort]
  have htake : (attachment.records.map (·.toJson)).take MAXIMUM_RECORDS =
      attachment.records.map (·.toJson) := List.take_of_length_le (by simpa using hcount)
  rw [parseBrowserLifecycleAttachment, if_neg (not_lt.mpr hsize), hjson]
  simp only [Option.bind_eq_bind, Option.bind_some, hself]
  rw [hmember 2 rfl, hmember 1 rfl, hmember 0 rfl]
  simp only [asArray, asBoolean, asNumber, Option.bind_some, Json.asNumber, ne_eq,
    not_true_eq_false, if_false, htake, hagain, List.length_map]
  rfl

/-- The codec keeps to its sizes and counts, and reads every attachment that it has written exactly
when no sanitized record that an attachment has room for has an origin that is longer than the cap
on the text of origins. -/
theorem parse_encode_iff (hdocumented : runtime.Documented) (records : List Json)
    (truncated : Bool)
    (hjson : runtime.parseJson
      ((encodeBrowserLifecycleAttachment runtime records truncated).attachment.toJson.stringify
        runtime.numberText) =
      some (encodeBrowserLifecycleAttachment runtime records truncated).attachment.toJson) :
    let encoded := encodeBrowserLifecycleAttachment runtime records truncated
    (encoded.body.length ≤ MAXIMUM_BYTES ∧ encoded.attachment.records.length ≤ MAXIMUM_RECORDS ∧
        encoded.observedRecordCount = encoded.includedRecordCount + encoded.droppedRecordCount ∧
        (encoded.attachment.truncated = true ↔ truncated = true ∨ 0 < encoded.droppedRecordCount) ∧
        parseBrowserLifecycleAttachment runtime encoded.body = some encoded.attachment) ↔
      ∀ record ∈ fill (hasRoom runtime) []
        (prioritizeRecords (records.filterMap (sanitizeRecord runtime))), ShortOrigin record := by
  intro encoded
  rw [← includedRecords_eq_fill]
  obtain ⟨hsanitized, hle, hcount, -⟩ := included_records_spec hdocumented records
  have hbody : encoded.body.length ≤ MAXIMUM_BYTES := length_body hdocumented records truncated
  have hincluded : encoded.attachment.records = includedRecords runtime records := rfl
  have hdecoded : runtime.parseJson (Utf8.decode encoded.body) =
      some encoded.attachment.toJson := by
    show runtime.parseJson (Utf8.decode (Utf8.encode _)) = _
    rw [Utf8.decode_encode]
    exact hjson
  have hparse := parse_attachment hdocumented hbody hdecoded hcount
    fun record hrecord ↦ (hsanitized record hrecord).imp fun _ h ↦ h.2
  rw [hincluded] at hparse
  constructor
  · rintro ⟨-, -, -, -, hround⟩
    rw [hparse] at hround
    split at hround
    · simp at hround
    · have hrecords := congrArg BrowserLifecycleAttachment.records (Option.some.inj hround)
      -- nothing is lost exactly if the filter of the reader keeps every record
      have hfilter : (includedRecords runtime records).filter (ShortOrigin ·) =
          includedRecords runtime records := hrecords
      exact fun record hrecord ↦ by simpa using List.filter_eq_self.mp hfilter record hrecord
  · intro hshort
    have hfilter : (includedRecords runtime records).filter (ShortOrigin ·) =
        includedRecords runtime records :=
      List.filter_eq_self.mpr fun record hrecord ↦ by simpa using hshort record hrecord
    refine ⟨hbody, hcount, ?_, ?_, ?_⟩
    · show records.length = (includedRecords runtime records).length +
        (records.length - (includedRecords runtime records).length)
      omega
    · show (truncated || decide (0 < records.length - (includedRecords runtime records).length)) =
        true ↔ truncated = true ∨ 0 < records.length - (includedRecords runtime records).length
      simp
    · rw [hparse, hfilter, if_neg (by omega)]
      simp only [lt_irrefl, decide_false, Bool.or_false]
      rfl

/-! ## A short origin and a long one -/

/-- `2026-07-28T16:08:52.453Z`. -/
def exampleTime : Text := "2026-07-28T16:08:52.453Z".toList

/-- A record of a completed request. -/
def exampleRecord (origin : Text) : BrowserLifecycleRecord where
  method := "GET".toList
  origin := origin
  pathTemplate := "/v1/orders".toList
  requestStarted := ⟨some ⟨exampleTime, none⟩, none, .inl rfl⟩
  classification := .completed
  responseReceived := none
  loadingFinished := none
  loadingFailed := none
  playwrightRequestKey := none
  cdpRequestId := none
  loaderId := none
  apiGatewayRequestId := none
  traceId := none
  spanId := none
  connection := none
  encodedBytes := none
  httpStatus := none
  protocol := none

/-- A parser of the text of one value. -/
def parseOnly (numberText : ℚ → Text) (written : Json) (text : Text) : Option Json :=
  if text = written.stringify numberText then some written else none

/-- It parses that text. -/
theorem parseOnly_stringify (numberText : ℚ → Text) (written : Json) :
    parseOnly numberText written (written.stringify numberText) = some written := if_pos rfl

/-- Whole numbers as texts. -/
def wholeText (number : ℚ) : Text := (Nat.repr number.num.toNat).toList

/-- The platform on records with one origin, which is written as `originText`. -/
def exampleRuntime (originText origin : Text) : Runtime where
  toUpperCase := id
  toLowerCase := id
  parseUrl text :=
    if text = originText ∨ text = origin then some ⟨"https:".toList, origin⟩ else none
  dateParse text := if text = exampleTime then some 1785254932453 else none
  toISOString _ := exampleTime
  numberText := wholeText
  parseJson :=
    parseOnly wholeText (BrowserLifecycleAttachment.toJson ⟨false, [exampleRecord origin]⟩)

/-- It behaves as documented. -/
theorem example_runtime_documented (originText origin : Text) :
    (exampleRuntime originText origin).Documented where
  toUpperCase_of_upper := fun _ _ ↦ rfl
  toLowerCase_of_hex := fun _ _ ↦ rfl
  parseUrl_origin := by
    intro text url hurl _
    simp only [exampleRuntime] at hurl
    split at hurl
    · obtain rfl := Option.some.inj hurl
      exact ⟨_, if_pos (.inr rfl), rfl, rfl⟩
    · simp at hurl
  dateParse_nil := by
    have hne : [] ≠ exampleTime := by decide +kernel
    show (if ([] : Text) = exampleTime then some (1785254932453 : ℤ) else none) = none
    rw [if_neg hne]
  dateParse_toISOString := by
    intro text time htime
    simp only [exampleRuntime] at htime ⊢
    split at htime
    · exact htime
    · simp at htime
  numberText_two := by
    show wholeText 2 = ['2']
    decide +kernel

/-- It parses the attachment with the example record. -/
theorem example_parse (originText origin : Text) :
    (exampleRuntime originText origin).parseJson
      ((BrowserLifecycleAttachment.toJson ⟨false, [exampleRecord origin]⟩).stringify
        (exampleRuntime originText origin).numberText) =
      some (BrowserLifecycleAttachment.toJson ⟨false, [exampleRecord origin]⟩) := by
  have hparse : ∀ written,
      (exampleRuntime originText origin).parseJson = parseOnly wholeText written →
      (exampleRuntime originText origin).parseJson (written.stringify wholeText) =
        some written := by
    intro written hwritten
    rw [hwritten, parseOnly_stringify]
  exact hparse _ rfl

/-- An origin that is its own text. -/
def plainOrigin : Text := "https://a.example".toList

/-- A record with that origin is read back. -/
theorem parse_encode_short :
    parseBrowserLifecycleAttachment (exampleRuntime plainOrigin plainOrigin)
      (encodeBrowserLifecycleAttachment (exampleRuntime plainOrigin plainOrigin)
        [(exampleRecord plainOrigin).toJson] false).body =
      some ⟨false, [exampleRecord plainOrigin]⟩ := by
  have hencoded : (encodeBrowserLifecycleAttachment (exampleRuntime plainOrigin plainOrigin)
      [(exampleRecord plainOrigin).toJson] false).attachment =
      ⟨false, [exampleRecord plainOrigin]⟩ := by decide +kernel
  have hshort : ∀ record ∈ fill (hasRoom (exampleRuntime plainOrigin plainOrigin)) []
      (prioritizeRecords ([(exampleRecord plainOrigin).toJson].filterMap
        (sanitizeRecord (exampleRuntime plainOrigin plainOrigin)))), ShortOrigin record := by
    decide +kernel
  rw [← hencoded]
  refine ((parse_encode_iff (example_runtime_documented _ _) _ false ?_).mpr hshort).2.2.2.2
  rw [hencoded]
  exact example_parse _ _

/-- 31 labels with an umlaut. -/
def umlautOrigin : Text :=
  "https://".toList ++ ((List.replicate 31 "ü.".toList).flatten ++ "com".toList)

/-- Its origin, where each label is in Punycode. -/
def punycodeOrigin : Text :=
  "https://".toList ++ ((List.replicate 31 "xn--tda.".toList).flatten ++ "com".toList)

/-- A record is included, and the attachment that holds it is rejected: its origin is short as it is
given, and longer than the cap as it is written. -/
theorem parse_encode_long :
    (exampleRuntime umlautOrigin punycodeOrigin).Documented ∧
    (encodeBrowserLifecycleAttachment (exampleRuntime umlautOrigin punycodeOrigin)
      [(exampleRecord umlautOrigin).toJson] false).attachment =
      ⟨false, [exampleRecord punycodeOrigin]⟩ ∧
    (exampleRuntime umlautOrigin punycodeOrigin).parseJson
      ((BrowserLifecycleAttachment.toJson ⟨false, [exampleRecord punycodeOrigin]⟩).stringify
        (exampleRuntime umlautOrigin punycodeOrigin).numberText) =
      some (BrowserLifecycleAttachment.toJson ⟨false, [exampleRecord punycodeOrigin]⟩) ∧
    parseBrowserLifecycleAttachment (exampleRuntime umlautOrigin punycodeOrigin)
      (encodeBrowserLifecycleAttachment (exampleRuntime umlautOrigin punycodeOrigin)
        [(exampleRecord umlautOrigin).toJson] false).body = none :=
  ⟨example_runtime_documented _ _, by decide +kernel, example_parse _ _, by decide +kernel⟩

end CoreUtils.Reporter.Lifecycle
