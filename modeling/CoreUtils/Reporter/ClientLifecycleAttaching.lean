import CoreUtils.Reporter.ClientLifecycleAttachment

/-!
# What is attached

The two bounded loops of `attachClientLifecycles` keep the first records of all attachments together
(`collect_records_eq`). From this: whatever is in the attachments, each lifecycle that is attached
conforms and is marked where others are missing (`attach_client_lifecycles_conforms`), and what the
browser side has encoded is what is joined (`attach_encoded`).
-/

namespace CoreUtils.Reporter.Lifecycle

open Text Json Dates

/-! ## The loops -/

/-- The inner loop keeps the first records, and says whether there were more. -/
theorem push_records_eq {collected : CollectedRecords}
    (hroom : collected.parsedRecords.length ≤ MAXIMUM_RECORDS)
    (records : List (ParsedClientLifecycle LifecycleDetails)) :
    pushRecords collected records =
      { parsedRecords := (collected.parsedRecords ++ records).take MAXIMUM_RECORDS
        truncated := collected.truncated ||
          MAXIMUM_RECORDS < (collected.parsedRecords ++ records).length } := by
  induction records generalizing collected with
  | nil =>
      have hlength : ¬MAXIMUM_RECORDS < collected.parsedRecords.length := not_lt.mpr hroom
      simp [pushRecords, List.take_of_length_le hroom, hlength]
  | cons record records ih =>
      rw [pushRecords]
      split
      next hfull =>
        have hlength : collected.parsedRecords.length = MAXIMUM_RECORDS := le_antisymm hroom hfull
        have hmore : MAXIMUM_RECORDS < (collected.parsedRecords ++ record :: records).length := by
          rw [List.length_append, List.length_cons]
          omega
        rw [List.take_append_of_le_length hfull, List.take_of_length_le hroom, decide_eq_true hmore,
          Bool.or_true]
      next hfree =>
        have hroom' : (collected.parsedRecords ++ [record]).length ≤ MAXIMUM_RECORDS := by
          rw [List.length_append, List.length_singleton]
          omega
        rw [ih hroom']
        simp only [List.append_assoc, List.singleton_append]

/-- Pushing to the first records is pushing to all of them. -/
theorem push_first_records (all records : List (ParsedClientLifecycle LifecycleDetails))
    (anyTruncated truncated : Bool) :
    (⟨(all.take MAXIMUM_RECORDS ++ records).take MAXIMUM_RECORDS,
      anyTruncated || decide (MAXIMUM_RECORDS < all.length) || truncated ||
        decide (MAXIMUM_RECORDS < (all.take MAXIMUM_RECORDS ++ records).length)⟩ :
      CollectedRecords) =
      ⟨(all ++ records).take MAXIMUM_RECORDS,
        anyTruncated || truncated || decide (MAXIMUM_RECORDS < (all ++ records).length)⟩ := by
  rcases le_or_gt all.length MAXIMUM_RECORDS with hroom | hfull
  · rw [List.take_of_length_le hroom, decide_eq_false (not_lt.mpr hroom), Bool.or_false]
  · have hmore : MAXIMUM_RECORDS < (all ++ records).length := by
      rw [List.length_append]
      omega
    have hlength : MAXIMUM_RECORDS ≤ (all.take MAXIMUM_RECORDS).length := by
      rw [List.length_take]
      omega
    rw [List.take_append_of_le_length hlength, List.take_append_of_le_length hfull.le,
      List.take_take, min_self, decide_eq_true hfull, decide_eq_true hmore]
    simp

variable {machine : AttachmentMachine}

/-- What the attachments hold, in order. -/
def parsedAttachments (machine : AttachmentMachine) (attemptStartTimeMs : ℤ)
    (attachments : List LifecycleAttachment) : List ParsedAttachment :=
  attachments.filterMap (parsedAttachmentOf machine attemptStartTimeMs)

/-- The records of all attachments, in order. -/
def allRecords (machine : AttachmentMachine) (attemptStartTimeMs : ℤ)
    (attachments : List LifecycleAttachment) : List (ParsedClientLifecycle LifecycleDetails) :=
  (parsedAttachments machine attemptStartTimeMs attachments).flatMap (·.records)

/-- Records are missing: the parser marks an attachment as truncated, or there are too many records.
What `parseLegacyAttachment` drops without a mark is not counted. -/
def missesRecords (machine : AttachmentMachine) (attemptStartTimeMs : ℤ)
    (attachments : List LifecycleAttachment) : Bool :=
  (parsedAttachments machine attemptStartTimeMs attachments).any (·.truncated) ||
    MAXIMUM_RECORDS < (allRecords machine attemptStartTimeMs attachments).length

/-- The loops keep the first records of all attachments together. -/
theorem collect_attachments_eq (attemptStartTimeMs : ℤ) (attachments : List LifecycleAttachment) :
    attachments.foldl (collectAttachment machine attemptStartTimeMs) ⟨[], false⟩ =
      { parsedRecords :=
          (allRecords machine attemptStartTimeMs attachments).take MAXIMUM_RECORDS
        truncated := missesRecords machine attemptStartTimeMs attachments } := by
  induction attachments using List.reverseRecOn with
  | nil => rfl
  | append_singleton attachments attachment ih =>
      have hparsed : parsedAttachments machine attemptStartTimeMs (attachments ++ [attachment]) =
          parsedAttachments machine attemptStartTimeMs attachments ++
            (parsedAttachmentOf machine attemptStartTimeMs attachment).toList := by
        rw [parsedAttachments, List.filterMap_append, List.filterMap_cons]
        cases parsedAttachmentOf machine attemptStartTimeMs attachment <;> rfl
      rw [List.foldl_concat, ih, collectAttachment]
      simp only [missesRecords, allRecords, hparsed]
      cases parsedAttachmentOf machine attemptStartTimeMs attachment with
      | none =>
          simp only [Option.toList_none, List.append_nil]
          rfl
      | some parsedAttachment =>
          simp only [Option.toList_some, List.flatMap_append, List.flatMap_singleton,
            List.any_append, List.any_cons, List.any_nil, Bool.or_false]
          rw [push_records_eq (List.length_take_le _ _)]
          exact push_first_records _ _ _ _

/-! ## What conforms -/

/-- The times of a lifecycle. -/
def LifecycleDetails.times (details : LifecycleDetails) : List (Option Text) :=
  [details.requestStartedAt, details.responseHeadersAt, details.completedAt, details.failedAt]

/-- The numbers of a lifecycle. -/
def LifecycleDetails.numbers (details : LifecycleDetails) : List (Option ℚ) :=
  [details.requestStartedMonotonicMs, details.responseHeadersMonotonicMs,
    details.completedMonotonicMs, details.failedMonotonicMs, details.connectionId,
    details.remotePort, details.dataEncodedDataLength, details.responseEncodedDataLength,
    details.completedEncodedDataLength]

/-- The identifiers of a lifecycle. -/
def LifecycleDetails.identifiers (details : LifecycleDetails) : List (Option Text) :=
  [details.playwrightRequestKey, details.cdpRequestId, details.loaderId,
    details.apiGatewayRequestId, details.blockedReason, details.corsErrorStatus]

/-- What the other fields of a lifecycle may hold: canonical times, safe numbers, and short texts of
small alphabets. -/
structure LifecycleDetails.Conforms (details : LifecycleDetails) : Prop where
  times : ∀ time ∈ details.times, ∀ text ∈ time, IsCanonical text
  numbers : ∀ number ∈ details.numbers, ∀ value ∈ number, IsSafeNumber value
  identifiers : ∀ identifier ∈ details.identifiers, ∀ text ∈ identifier,
    IsSafeText isSafeIdentifier text
  traceId : ∀ text ∈ details.traceId, IsHexIdentifier 32 text
  spanId : ∀ text ∈ details.spanId, IsHexIdentifier 16 text
  protocol : ∀ text ∈ details.protocol, IsSafeText isSafeProtocol text
  remoteIPAddress : ∀ text ∈ details.remoteIPAddress, IsSafeText isSafeIpAddress text
  errorText : ∀ text ∈ details.errorText, IsNetworkError text

/-- What a lifecycle may hold. -/
structure ClientLifecycle.Conforms (lifecycle : ClientLifecycle LifecycleDetails) : Prop where
  method : IsMethod lifecycle.method
  origin : IsHttpOrigin lifecycle.origin
  pathTemplate : IsPathTemplate lifecycle.pathTemplate
  details : lifecycle.details.Conforms

variable {runtime : Runtime}

/-- A time that was parsed is printed in the canonical form. -/
theorem is_canonical_print (hformats : runtime.Formats) {text : Text} {time : ℤ}
    (h : runtime.dateParse text = some time) : IsCanonical (runtime.toISOString time) := by
  obtain ⟨hvalid, hprint⟩ := hformats.print_parsed text time h
  rw [hprint]
  exact isCanonical_isoString hvalid

/-- Times of the older format. -/
theorem is_canonical_of_copy (hformats : runtime.Formats) {source : Json} {field : String}
    {text : Text} (h : copyTimestamp runtime source field = some text) : IsCanonical text := by
  simp only [copyTimestamp, Option.bind_eq_bind, Option.bind_eq_some_iff] at h
  obtain ⟨value, -, time, htime, hresult⟩ := h
  obtain rfl := Option.some.inj hresult
  exact is_canonical_print hformats htime

/-- The older format conforms. -/
theorem conforms_legacy_details (hformats : runtime.Formats) (source : Json) :
    (legacyDetails runtime source).Conforms where
  times := by
    simp only [LifecycleDetails.times, legacyDetails, List.forall_mem_cons, List.not_mem_nil,
      false_implies, implies_true, and_true]
    refine ⟨?_, ?_, ?_, ?_⟩ <;> exact fun _ ↦ is_canonical_of_copy hformats
  numbers := by
    simp only [LifecycleDetails.numbers, legacyDetails, List.forall_mem_cons, List.not_mem_nil,
      Option.mem_def, reduceCtorEq, false_implies, implies_true, true_and, and_true]
    refine ⟨?_, ?_, ?_, ?_, ?_, ?_, ?_, ?_⟩ <;> exact fun _ ↦ isSafeNumber_of_sanitize
  identifiers := by
    simp only [LifecycleDetails.identifiers, legacyDetails, List.forall_mem_cons, List.not_mem_nil,
      false_implies, implies_true, and_true]
    refine ⟨?_, ?_, ?_, ?_, ?_, ?_⟩ <;> exact fun _ ↦ isSafeText_of_sanitize
  traceId _ h := isHexIdentifier_of_sanitize h
  spanId _ h := isHexIdentifier_of_sanitize h
  protocol _ h := isSafeText_of_sanitize h
  remoteIPAddress _ h := isSafeText_of_sanitize h
  errorText _ h := isNetworkError_of_sanitize h

/-- A timestamp conforms. -/
theorem conforms_of_sanitize_timestamp (hformats : runtime.Formats) {value : Option Json}
    {timestamp : BrowserLifecycleTimestamp}
    (h : sanitizeTimestamp runtime value = some timestamp) :
    IsCanonical timestamp.utc ∧ ∀ number ∈ timestamp.monotonicMilliseconds,
      IsSafeNumber number := by
  simp only [sanitizeTimestamp, Option.bind_eq_bind, Option.bind_eq_some_iff] at h
  obtain ⟨source, -, utc, -, time, htime, hresult⟩ := h
  obtain rfl := Option.some.inj hresult
  exact ⟨is_canonical_print hformats htime, fun _ ↦ isSafeNumber_of_sanitize⟩

/-- The timestamp of a sanitized event was sanitized. -/
theorem timestamp_of_sanitize_event {value : Option Json} {event : BrowserLifecycleEvent}
    (h : sanitizeEvent runtime value = some event) {timestamp : BrowserLifecycleTimestamp}
    (htimestamp : event.timestamp = some timestamp) :
    ∃ source, sanitizeTimestamp runtime source = some timestamp := by
  obtain ⟨source, -, hevent⟩ := Option.bind_eq_some_iff.mp h
  obtain ⟨hcdp, hplaywright⟩ := eventOf_eq_some hevent
  rw [BrowserLifecycleEvent.timestamp, hcdp, hplaywright] at htimestamp
  rcases Option.or_eq_some_iff.mp htimestamp with hfound | ⟨-, hfound⟩
  · exact ⟨_, hfound⟩
  · exact ⟨_, hfound⟩

/-- So was the one of a failure event. -/
theorem timestamp_of_sanitize_failure_event {value : Option Json}
    {event : BrowserLifecycleFailureEvent} (h : sanitizeFailureEvent runtime value = some event)
    {timestamp : BrowserLifecycleTimestamp} (htimestamp : event.timestamp = some timestamp) :
    ∃ source, sanitizeTimestamp runtime source = some timestamp := by
  obtain ⟨source, hsource, -⟩ := Option.bind_eq_some_iff.mp h
  rw [sanitize_failure_event_eq hsource] at h
  simp only at h
  split at h
  · contradiction
  · obtain rfl := Option.some.inj h
    rcases Option.or_eq_some_iff.mp htimestamp with hfound | ⟨-, hfound⟩
    · exact ⟨_, hfound⟩
    · exact ⟨_, hfound⟩

/-- What is copied of a timestamp conforms. -/
theorem conforms_of_timestamp (hformats : runtime.Formats)
    {timestamp : Option BrowserLifecycleTimestamp}
    (h : ∀ present ∈ timestamp, ∃ source, sanitizeTimestamp runtime source = some present) :
    (∀ text ∈ timestamp.map (·.utc), IsCanonical text) ∧
      ∀ number ∈ timestamp.bind (·.monotonicMilliseconds), IsSafeNumber number := by
  cases timestamp with
  | none => exact ⟨fun _ htext ↦ absurd htext (by simp), fun _ hnumber ↦ absurd hnumber (by simp)⟩
  | some present =>
      obtain ⟨source, hsource⟩ := h present rfl
      obtain ⟨hutc, hnumber⟩ := conforms_of_sanitize_timestamp hformats hsource
      refine ⟨fun text htext ↦ ?_, hnumber⟩
      obtain rfl := Option.some.inj htext
      exact hutc

/-- What is copied of an event conforms. -/
theorem conforms_of_event (hformats : runtime.Formats) {value : Option Json}
    {event : Option BrowserLifecycleEvent} (h : sanitizeEvent runtime value = event) :
    (∀ text ∈ (event.bind (·.timestamp)).map (·.utc), IsCanonical text) ∧
      ∀ number ∈ (event.bind (·.timestamp)).bind (·.monotonicMilliseconds),
        IsSafeNumber number := by
  refine conforms_of_timestamp hformats fun present hpresent ↦ ?_
  obtain ⟨event', hevent, htimestamp⟩ := Option.bind_eq_some_iff.mp hpresent
  exact timestamp_of_sanitize_event (h.trans hevent) htimestamp

/-- What is copied of a failure event conforms. -/
theorem conforms_of_failure_event (hformats : runtime.Formats) {value : Option Json}
    {event : Option BrowserLifecycleFailureEvent} (h : sanitizeFailureEvent runtime value = event) :
    (∀ text ∈ (event.bind (·.timestamp)).map (·.utc), IsCanonical text) ∧
      ∀ number ∈ (event.bind (·.timestamp)).bind (·.monotonicMilliseconds),
        IsSafeNumber number := by
  refine conforms_of_timestamp hformats fun present hpresent ↦ ?_
  obtain ⟨event', hevent, htimestamp⟩ := Option.bind_eq_some_iff.mp hpresent
  exact timestamp_of_sanitize_failure_event (h.trans hevent) htimestamp

/-- The texts of a failure event. -/
theorem texts_of_failure_event {value : Option Json} {event : BrowserLifecycleFailureEvent}
    (h : sanitizeFailureEvent runtime value = some event) :
    (∀ text ∈ event.errorText, IsNetworkError text) ∧
      (∀ text ∈ event.blockedReason, IsSafeText isSafeIdentifier text) ∧
      ∀ text ∈ event.corsErrorStatus, IsSafeText isSafeIdentifier text := by
  obtain ⟨source, hsource, -⟩ := Option.bind_eq_some_iff.mp h
  rw [sanitize_failure_event_eq hsource] at h
  simp only at h
  split at h
  · contradiction
  · obtain rfl := Option.some.inj h
    exact ⟨fun _ ↦ isNetworkError_of_sanitize, fun _ ↦ isSafeText_of_sanitize,
      fun _ ↦ isSafeText_of_sanitize⟩

/-- The fields of a remote endpoint. -/
theorem fields_of_remote_endpoint {value : Option Json} {endpoint : RemoteEndpoint}
    (h : sanitizeRemoteEndpoint value = some endpoint) :
    (∀ text ∈ endpoint.ipAddress, IsSafeText isSafeIpAddress text) ∧
      ∀ number ∈ endpoint.port, IsSafeNumber number := by
  obtain ⟨source, -, hendpoint⟩ := Option.bind_eq_some_iff.mp h
  simp only at hendpoint
  split at hendpoint
  · contradiction
  · obtain rfl := Option.some.inj hendpoint
    exact ⟨fun _ ↦ isSafeText_of_sanitize, fun _ ↦ isSafeNumber_of_sanitize⟩

/-- The fields of a connection. -/
theorem fields_of_connection {value : Option Json} {connection : BrowserLifecycleConnection}
    (h : sanitizeConnection value = some connection) :
    (∀ number ∈ connection.id, IsSafeNumber number) ∧
      ∃ source, sanitizeRemoteEndpoint source = connection.remoteEndpoint := by
  obtain ⟨source, -, hconnection⟩ := Option.bind_eq_some_iff.mp h
  simp only at hconnection
  split at hconnection
  · contradiction
  · obtain rfl := Option.some.inj hconnection
    exact ⟨fun _ ↦ isSafeNumber_of_sanitize, _, rfl⟩

/-- The numbers of bytes. -/
theorem fields_of_encoded_bytes {value : Option Json} {encodedBytes : BrowserLifecycleEncodedBytes}
    (h : sanitizeEncodedBytes value = some encodedBytes) :
    (∀ number ∈ encodedBytes.data, IsSafeNumber number) ∧
      (∀ number ∈ encodedBytes.responseHeaders, IsSafeNumber number) ∧
      ∀ number ∈ encodedBytes.total, IsSafeNumber number := by
  obtain ⟨source, -, hbytes⟩ := Option.bind_eq_some_iff.mp h
  simp only at hbytes
  split at hbytes
  · contradiction
  · obtain rfl := Option.some.inj hbytes
    exact ⟨fun _ ↦ isSafeNumber_of_sanitize, fun _ ↦ isSafeNumber_of_sanitize,
      fun _ ↦ isSafeNumber_of_sanitize⟩

/-- What is copied of a field that is there. -/
theorem forall_mem_bind {α β : Type} {accepts : β → Prop} {field : Option α} {read : α → Option β}
    (h : ∀ present, field = some present → ∀ value ∈ read present, accepts value) :
    ∀ value ∈ field.bind read, accepts value := by
  intro value hvalue
  obtain ⟨present, hpresent, hread⟩ := Option.bind_eq_some_iff.mp hvalue
  exact h present hpresent value hread

/-- The remote endpoint of a sanitized record was sanitized. -/
theorem Sanitized.remote_endpoint {source : Json} {record : BrowserLifecycleRecord}
    (h : Sanitized runtime source record) {endpoint : RemoteEndpoint}
    (hendpoint : record.connection.bind (·.remoteEndpoint) = some endpoint) :
    ∃ value, sanitizeRemoteEndpoint value = some endpoint := by
  obtain ⟨connection, hconnection, hpresent⟩ := Option.bind_eq_some_iff.mp hendpoint
  obtain ⟨-, value, hvalue⟩ := fields_of_connection (h.connection.trans hconnection)
  exact ⟨value, hvalue.trans hpresent⟩

/-- The shared format conforms. -/
theorem conforms_shared_details (hformats : runtime.Formats) {source : Json}
    {record : BrowserLifecycleRecord} (h : Sanitized runtime source record) :
    (sharedDetails record).Conforms where
  times := by
    simp only [LifecycleDetails.times, sharedDetails, List.forall_mem_cons, List.not_mem_nil,
      false_implies, implies_true, and_true]
    exact ⟨(conforms_of_event hformats h.requestStarted).1,
      (conforms_of_event hformats h.responseReceived).1,
      (conforms_of_event hformats h.loadingFinished).1,
      (conforms_of_failure_event hformats h.loadingFailed).1⟩
  numbers := by
    simp only [LifecycleDetails.numbers, sharedDetails, List.forall_mem_cons, List.not_mem_nil,
      false_implies, implies_true, and_true]
    exact ⟨(conforms_of_event hformats h.requestStarted).2,
      (conforms_of_event hformats h.responseReceived).2,
      (conforms_of_event hformats h.loadingFinished).2,
      (conforms_of_failure_event hformats h.loadingFailed).2,
      forall_mem_bind fun connection hconnection ↦
        (fields_of_connection (h.connection.trans hconnection)).1,
      forall_mem_bind fun endpoint hendpoint ↦
        (h.remote_endpoint hendpoint).elim fun _ hvalue ↦ (fields_of_remote_endpoint hvalue).2,
      forall_mem_bind fun encodedBytes hbytes ↦
        (fields_of_encoded_bytes (h.encodedBytes.trans hbytes)).1,
      forall_mem_bind fun encodedBytes hbytes ↦
        (fields_of_encoded_bytes (h.encodedBytes.trans hbytes)).2.1,
      forall_mem_bind fun encodedBytes hbytes ↦
        (fields_of_encoded_bytes (h.encodedBytes.trans hbytes)).2.2⟩
  identifiers := by
    simp only [LifecycleDetails.identifiers, sharedDetails, List.forall_mem_cons, List.not_mem_nil,
      false_implies, implies_true, and_true]
    rw [← h.playwrightRequestKey, ← h.cdpRequestId, ← h.loaderId, ← h.apiGatewayRequestId]
    exact ⟨fun _ ↦ isSafeText_of_sanitize, fun _ ↦ isSafeText_of_sanitize,
      fun _ ↦ isSafeText_of_sanitize, fun _ ↦ isSafeText_of_sanitize,
      forall_mem_bind fun event hevent ↦
        (texts_of_failure_event (h.loadingFailed.trans hevent)).2.1,
      forall_mem_bind fun event hevent ↦
        (texts_of_failure_event (h.loadingFailed.trans hevent)).2.2⟩
  traceId _ htext := isHexIdentifier_of_sanitize (h.traceId.trans htext)
  spanId _ htext := isHexIdentifier_of_sanitize (h.spanId.trans htext)
  protocol _ htext := isSafeText_of_sanitize (h.protocol.trans htext)
  remoteIPAddress := forall_mem_bind fun endpoint hendpoint ↦
    (h.remote_endpoint hendpoint).elim fun _ hvalue ↦ (fields_of_remote_endpoint hvalue).1
  errorText := forall_mem_bind fun event hevent ↦
    (texts_of_failure_event (h.loadingFailed.trans hevent)).1

/-! ## Attachments -/

/-- A record of the older format conforms, and is not marked yet. -/
theorem conforms_of_parse_record (hformats : runtime.Formats) {attemptStartTimeMs : ℤ}
    {value : Json} {record : ParsedClientLifecycle LifecycleDetails}
    (h : parseLifecycleRecord runtime attemptStartTimeMs value = some record) :
    record.lifecycle.Conforms ∧ record.lifecycle.details.truncated = none := by
  simp only [parseLifecycleRecord, Option.bind_eq_bind, Option.bind_eq_some_iff] at h
  obtain ⟨source, -, method, hmethod, origin, horigin, pathTemplate, hpath, hresult⟩ := h
  obtain rfl := Option.some.inj hresult
  exact ⟨
    { method := isMethod_of_sanitize hmethod
      origin := isHttpOrigin_of_sanitize hformats (Option.filter_eq_some_iff.mp horigin).1
      pathTemplate := isPathTemplate_of_sanitize hpath
      details := conforms_legacy_details hformats source }, rfl⟩

/-- A record of the shared format conforms. -/
theorem conforms_of_shared_record (hformats : runtime.Formats) (attemptStartTimeMs : ℤ)
    {value : Json} {record : BrowserLifecycleRecord}
    (h : sanitizeRecord runtime value = some record) :
    (parseSharedLifecycleRecord runtime attemptStartTimeMs record).lifecycle.Conforms := by
  obtain ⟨source, hsource, -⟩ := Option.bind_eq_some_iff.mp h
  have hsanitized := (sanitize_record_iff hsource).mp h
  exact
    { method := isMethod_of_sanitize hsanitized.method
      origin := isHttpOrigin_of_sanitize hformats hsanitized.origin
      pathTemplate := isPathTemplate_of_sanitize hsanitized.pathTemplate
      details := conforms_shared_details hformats hsanitized }

/-- The records of an attachment of the shared format were sanitized. -/
theorem sanitized_of_parse {content : List ℕ} {attachment : BrowserLifecycleAttachment}
    (h : parseBrowserLifecycleAttachment runtime content = some attachment) :
    ∀ record ∈ attachment.records, ∃ value, sanitizeRecord runtime value = some record := by
  unfold parseBrowserLifecycleAttachment at h
  split at h
  · contradiction
  · simp only [Option.bind_eq_bind, Option.bind_eq_some_iff] at h
    obtain ⟨_, -, _, -, _, -, _, -, h⟩ := h
    split at h
    · contradiction
    · split at h
      · contradiction
      · obtain rfl := Option.some.inj h
        intro record hrecord
        obtain ⟨value, -, hvalue⟩ := List.mem_filterMap.mp hrecord
        exact ⟨value, hvalue⟩

/-- What is parsed of an attachment conforms and is not marked, in either format. -/
theorem conforms_of_parse_attachment (hformats : runtime.Formats) {attemptStartTimeMs : ℤ}
    {content : List ℕ} {parsed : ParsedAttachment}
    (h : parseAttachment runtime attemptStartTimeMs content = some parsed) :
    ∀ record ∈ parsed.records,
      record.lifecycle.Conforms ∧ record.lifecycle.details.truncated = none := by
  unfold parseAttachment at h
  split at h
  next sharedAttachment hshared =>
    obtain rfl := Option.some.inj h
    intro record hrecord
    obtain ⟨sharedRecord, hmem, rfl⟩ := List.mem_map.mp hrecord
    obtain ⟨value, hvalue⟩ := sanitized_of_parse hshared sharedRecord hmem
    exact ⟨conforms_of_shared_record hformats attemptStartTimeMs hvalue, rfl⟩
  next =>
    simp only [parseLegacyAttachment, Option.bind_eq_bind, Option.bind_eq_some_iff] at h
    obtain ⟨_, -, _, -, lifecycleRecords, -, h⟩ := h
    split at h
    · contradiction
    · obtain rfl := Option.some.inj h
      intro record hrecord
      obtain ⟨value, -, hvalue⟩ := List.mem_filterMap.mp hrecord
      exact conforms_of_parse_record hformats hvalue

/-- All records of the attachments conform and are not marked. -/
theorem conforms_of_mem_all_records (hformats : machine.runtime.Formats) {attemptStartTimeMs : ℤ}
    {attachments : List LifecycleAttachment} {record : ParsedClientLifecycle LifecycleDetails}
    (h : record ∈ allRecords machine attemptStartTimeMs attachments) :
    record.lifecycle.Conforms ∧ record.lifecycle.details.truncated = none := by
  obtain ⟨parsed, hparsed, hrecord⟩ := List.mem_flatMap.mp h
  obtain ⟨attachment, -, hattachment⟩ := List.mem_filterMap.mp hparsed
  unfold parsedAttachmentOf at hattachment
  split at hattachment
  · obtain ⟨content, -, hcontent⟩ := Option.bind_eq_some_iff.mp hattachment
    exact conforms_of_parse_attachment hformats hcontent record hrecord
  · contradiction

/-! ## The join -/

/-- Every lifecycle that records are given agrees with its instance. -/
theorem Served.agrees {platform : JoinPlatform} {instances : List NetworkInstance} {ρ : Type}
    {records : List (ParsedClientLifecycle ρ)} {served : List (Option ℕ)}
    (h : Served platform instances records served) {position : ℕ} {inst : NetworkInstance}
    (hinst : instances[position]? = some inst) {lifecycle : ClientLifecycle ρ}
    (hlifecycle : lifecycleAt records served position = some lifecycle) :
    Agrees platform lifecycle inst ∧ ∃ record ∈ records, record.lifecycle = lifecycle := by
  induction h with
  | nil => exact absurd hlifecycle (by simp [lifecycleAt])
  | @concat records served record target hearlier hserves ih =>
      rw [lifecycleAt_concat hearlier.length_eq] at hlifecycle
      rcases Option.or_eq_some_iff.mp hlifecycle with hfound | ⟨-, hfound⟩
      · obtain ⟨hagrees, earlier, hmem, heq⟩ := ih hfound
        exact ⟨hagrees, earlier, List.mem_append_left _ hmem, heq⟩
      · split at hfound
        next htarget =>
          obtain rfl := Option.some.inj hfound
          subst htarget
          cases hserves with
          | @instance_ _ other havailable _ =>
              obtain rfl := Option.some.inj (havailable.there.symm.trans hinst)
              exact ⟨havailable.agrees, record, by simp, rfl⟩
        next => contradiction

/-- What the join has done after all records. -/
theorem exists_joined {ρ : Type} (platform : JoinPlatform) (instances : List NetworkInstance)
    (records : List (ParsedClientLifecycle ρ)) :
    ∃ served, Joined platform instances records served
      (records.foldl (joinRecord (buildJoinCandidateIndex platform instances))
        ⟨instances.map fun inst ↦ ⟨inst, none⟩, .empty⟩) := by
  induction records using List.reverseRecOn with
  | nil => exact ⟨[], joined_start platform instances⟩
  | append_singleton records record ih =>
      obtain ⟨served, hjoined⟩ := ih
      obtain ⟨target, hnext⟩ := hjoined.joinRecord record
      rw [List.foldl_concat]
      exact ⟨_, hnext⟩

/-- The join keeps the instances of the report; what is attached to one is a lifecycle of the
records that agrees with it. -/
theorem mem_join_client_lifecycles {φ ρ : Type} {platform : JoinPlatform}
    {network : NetworkReport φ} {records : List (ParsedClientLifecycle ρ)}
    {joined : JoinedInstance ρ} (h : joined ∈ joinClientLifecycles platform network records) :
    joined.instance_ ∈ network.instances ∧ ∀ lifecycle ∈ joined.clientLifecycle,
      Agrees platform lifecycle joined.instance_ ∧
        ∃ record ∈ records, record.lifecycle = lifecycle := by
  obtain ⟨served, hjoined⟩ := exists_joined platform network.instances records
  obtain ⟨position, hposition⟩ := List.mem_iff_getElem?.mp h
  obtain ⟨inst, hinst, rfl⟩ :=
    Option.map_eq_some_iff.mp ((hjoined.attached position).symm.trans hposition)
  exact ⟨List.mem_of_getElem? hinst, fun lifecycle hlifecycle ↦
    hjoined.run.agrees hinst hlifecycle⟩

/-- The records that are joined: the first of all attachments together, marked if there are
others. -/
theorem collect_records_eq (attemptStartTimeMs : ℤ) (attachments : List LifecycleAttachment) :
    collectRecords machine attemptStartTimeMs attachments =
      ((allRecords machine attemptStartTimeMs attachments).take MAXIMUM_RECORDS).map
        (if missesRecords machine attemptStartTimeMs attachments then markTruncated else id) := by
  rw [collectRecords, collect_attachments_eq]
  simp only
  split
  · rfl
  · rw [List.map_id]

/-- What is attached to an instance of the report conforms and agrees with it, and is marked exactly
if records are missing. -/
theorem attached_conforms {φ : Type} (hformats : machine.runtime.Formats)
    {attachments : List LifecycleAttachment} {network : NetworkReport φ} {attemptStartTimeMs : ℤ}
    {joined : JoinedInstance LifecycleDetails}
    (hjoined : joined ∈ attachClientLifecycles machine attachments network attemptStartTimeMs) :
    joined.instance_ ∈ network.instances ∧
      ∀ lifecycle ∈ joined.clientLifecycle, lifecycle.Conforms ∧
        Agrees machine.platform lifecycle joined.instance_ ∧
        lifecycle.details.truncated =
          if missesRecords machine attemptStartTimeMs attachments then some true else none := by
  rw [attachClientLifecycles, collect_records_eq] at hjoined
  obtain ⟨hinst, hlifecycles⟩ := mem_join_client_lifecycles hjoined
  refine ⟨hinst, fun lifecycle hlifecycle ↦ ?_⟩
  obtain ⟨hagrees, record, hrecord, rfl⟩ := hlifecycles lifecycle hlifecycle
  obtain ⟨source, hsource, rfl⟩ := List.mem_map.mp hrecord
  obtain ⟨hconforms, hunmarked⟩ :=
    conforms_of_mem_all_records hformats (List.mem_of_mem_take hsource)
  cases hmissing : missesRecords machine attemptStartTimeMs attachments with
  | false =>
      rw [hmissing] at hagrees
      exact ⟨hconforms, hagrees, hunmarked⟩
  | true =>
      rw [hmissing] at hagrees
      -- marking changes none of the fields that have a kind
      refine ⟨⟨hconforms.method, hconforms.origin, hconforms.pathTemplate, ?_⟩, hagrees, rfl⟩
      obtain ⟨htimes, hnumbers, hidentifiers, htraceId, hspanId, hprotocol, haddress, herror⟩ :=
        hconforms.details
      exact ⟨htimes, hnumbers, hidentifiers, htraceId, hspanId, hprotocol, haddress, herror⟩

/-- Whatever bytes the attachments and their files hold: what is joined is the first 100 records of
all attachments together, and nothing is attached but lifecycles whose every field is of its kind,
that agree with the instance they are attached to, and that are marked exactly if the parser says of
some attachment that it is truncated or there are more than 100 records. -/
theorem attach_client_lifecycles_conforms {φ : Type} (hformats : machine.runtime.Formats)
    (attachments : List LifecycleAttachment) (network : NetworkReport φ)
    (attemptStartTimeMs : ℤ) :
    let missing := missesRecords machine attemptStartTimeMs attachments
    let attached := attachClientLifecycles machine attachments network attemptStartTimeMs
    attached = joinClientLifecycles machine.platform network
        (((allRecords machine attemptStartTimeMs attachments).take 100).map
          (if missing then markTruncated else id)) ∧
      ∀ joined ∈ attached, joined.instance_ ∈ network.instances ∧
        ∀ lifecycle ∈ joined.clientLifecycle, lifecycle.Conforms ∧
          Agrees machine.platform lifecycle joined.instance_ ∧
          lifecycle.details.truncated = if missing then some true else none := by
  intro missing attached
  have hattached : attached = joinClientLifecycles machine.platform network
      (((allRecords machine attemptStartTimeMs attachments).take 100).map
        (if missing then markTruncated else id)) :=
    congrArg (joinClientLifecycles machine.platform network)
      (collect_records_eq attemptStartTimeMs attachments)
  exact ⟨hattached, fun joined hjoined ↦ attached_conforms hformats hjoined⟩

/-! ## One request -/

/-- A machine on which the origin of the example record is parsed, and which has no files. -/
def plainMachine : AttachmentMachine where
  runtime := exampleRuntime plainOrigin plainOrigin
  platform :=
    { toUpperCase := id
      parseUrl := fun text ↦ if text = plainOrigin ++ "/v1/orders".toList then
        some ⟨plainOrigin, "/v1/orders".toList⟩ else none }
  statSync _ := none
  readSync _ _ := none

/-- A report with the request of the example record. -/
def plainReport : NetworkReport Unit where
  summary := ⟨1, 1, 0, 0, 0, 0, 0, 0, 0, 0, 0, 0⟩
  instances :=
    [{ id := ⟨0⟩
       groupId := ⟨0⟩
       method := "GET"
       url := "https://a.example/v1/orders"
       status := 200
       offsetMs := none
       durationMs := none
       timings := none
       traceId := none
       spanId := none
       requestId := none
       correlationId := none
       requestBodyRef := none
       responseBodyRef := none
       redirectFromId := none
       redirectToId := none }]
  groups := .empty
  bodies := .empty

/-- The attachment with what the codec has encoded. -/
def encodedAttachment (runtime : Runtime) (name : Text) (records : List Json) (truncated : Bool) :
    LifecycleAttachment where
  name := name
  body := some (encodeBrowserLifecycleAttachment runtime records truncated).body
  path := none

/-- The attachment with the example record. -/
def plainAttachment : LifecycleAttachment :=
  encodedAttachment (exampleRuntime plainOrigin plainOrigin) "browser-network-lifecycle".toList
    [(exampleRecord plainOrigin).toJson] false

/-- The lifecycle of the request is attached, and conforms. -/
theorem attach_client_lifecycles_conforms_plain :
    ∃ joined ∈ attachClientLifecycles plainMachine [plainAttachment] plainReport 0,
      ∃ lifecycle ∈ joined.clientLifecycle, lifecycle.Conforms := by
  have hattached : (attachClientLifecycles plainMachine [plainAttachment] plainReport 0).any
      (·.clientLifecycle.isSome) = true := by decide +kernel
  obtain ⟨joined, hjoined, hsome⟩ := List.any_eq_true.mp hattached
  obtain ⟨lifecycle, hlifecycle⟩ := Option.isSome_iff_exists.mp hsome
  have hall := (@attach_client_lifecycles_conforms plainMachine Unit
    example_runtime_formats [plainAttachment] plainReport 0).2
  exact ⟨joined, hjoined, lifecycle, hlifecycle, ((hall joined hjoined).2 lifecycle hlifecycle).1⟩

/-! ## From the browser to the report -/

/-- The records of an encoded attachment that are read. -/
def keptRecords (runtime : Runtime) (records : List Json) : List BrowserLifecycleRecord :=
  (includedRecords runtime records).filter (ShortOrigin ·)

/-- An attachment of the shared format is none of the older one. -/
theorem parse_legacy_attachment_shared {attemptStartTimeMs : ℤ} {content : List ℕ}
    {attachment : BrowserLifecycleAttachment}
    (h : runtime.parseJson (Utf8.decode content) = some attachment.toJson) :
    parseLegacyAttachment runtime attemptStartTimeMs content = none := by
  have hmember : ∀ (i : ℕ) {key : Text} {value : Option Json},
      [("schemaVersion".toList, some (.number SCHEMA_VERSION)),
        ("truncated".toList, some (.bool attachment.truncated)),
        ("records".toList, some (.array (attachment.records.map (·.toJson))))][i]? =
        some (key, value) → attachment.toJson.member key = value :=
    fun i key value h ↦ member_of_getElem attachment_keys rfl h
  have hself : asRecord (some attachment.toJson) = some attachment.toJson := rfl
  have hversion : asNumber (some (.number SCHEMA_VERSION)) ≠ some 1 := by decide
  simp only [parseLegacyAttachment, h, hself, Option.bind_eq_bind, Option.bind_some]
  rw [hmember 2 rfl, hmember 0 rfl, asArray, Option.bind_some, if_pos hversion]

/-- What is parsed of an encoded attachment. -/
theorem parse_encoded (hdocumented : runtime.Documented) (attemptStartTimeMs : ℤ)
    (records : List Json) (truncated : Bool)
    (hjson : runtime.parseJson
      ((encodeBrowserLifecycleAttachment runtime records truncated).attachment.toJson.stringify
        runtime.numberText) =
      some (encodeBrowserLifecycleAttachment runtime records truncated).attachment.toJson) :
    let parsed := parseAttachment runtime attemptStartTimeMs
      (encodeBrowserLifecycleAttachment runtime records truncated).body
    let kept := (keptRecords runtime records).map
      (parseSharedLifecycleRecord runtime attemptStartTimeMs)
    (kept = [] ∧ parsed = none) ∨
      parsed = some ⟨kept, truncated || decide (kept.length < records.length)⟩ := by
  intro parsed kept
  obtain ⟨hsanitized, hle, hcount, -⟩ := included_records_spec hdocumented records
  have hdecoded : runtime.parseJson
      (Utf8.decode (encodeBrowserLifecycleAttachment runtime records truncated).body) = some
        (encodeBrowserLifecycleAttachment runtime records truncated).attachment.toJson := by
    show runtime.parseJson (Utf8.decode (Utf8.encode _)) = _
    rw [Utf8.decode_encode]
    exact hjson
  have hparse := parse_attachment hdocumented (length_body hdocumented records truncated) hdecoded
    hcount fun record hrecord ↦ (hsanitized record hrecord).imp fun _ h ↦ h.2
  have hlength : kept.length = (keptRecords runtime records).length := List.length_map _
  have hshorter : (keptRecords runtime records).length ≤ (includedRecords runtime records).length :=
    List.length_filter_le _ _
  split at hparse
  next hnone =>
    left
    refine ⟨List.length_eq_zero_iff.mp (hlength.trans hnone.2), ?_⟩
    show parseAttachment runtime attemptStartTimeMs _ = none
    rw [parseAttachment, hparse]
    exact parse_legacy_attachment_shared hdecoded
  next =>
    right
    show parseAttachment runtime attemptStartTimeMs _ = _
    rw [parseAttachment, hparse]
    show some _ = some _
    congr 2
    -- a record is missing if it was dropped when encoding or has too long an origin
    rw [hlength, Bool.eq_iff_iff]
    show ((truncated || decide (0 < records.length - (includedRecords runtime records).length)) ||
      decide ((keptRecords runtime records).length < (includedRecords runtime records).length)) =
        true ↔ _
    simp only [Bool.or_eq_true, decide_eq_true_eq, or_assoc]
    refine or_congr_right ?_
    omega

/-- What the browser has recorded is what is joined: attaching what the codec has encoded joins the
included records, by priority and without those whose origin is too long, and marks them exactly if
the recorder or the codec has left out others. -/
theorem attach_encoded {φ : Type} (hdocumented : machine.runtime.Documented) {name : Text}
    (hname : machine.runtime.toLowerCase name ∈ ATTACHMENT_NAMES) (records : List Json)
    (truncated : Bool)
    (hjson : machine.runtime.parseJson
      ((encodeBrowserLifecycleAttachment machine.runtime records
        truncated).attachment.toJson.stringify machine.runtime.numberText) =
      some (encodeBrowserLifecycleAttachment machine.runtime records truncated).attachment.toJson)
    (network : NetworkReport φ) (attemptStartTimeMs : ℤ) :
    let kept := keptRecords machine.runtime records
    attachClientLifecycles machine [encodedAttachment machine.runtime name records truncated]
        network attemptStartTimeMs =
      joinClientLifecycles machine.platform network (kept.map fun record ↦
        (if truncated || kept.length < records.length then markTruncated else id)
          (parseSharedLifecycleRecord machine.runtime attemptStartTimeMs record)) := by
  intro kept
  have hread : parsedAttachmentOf machine attemptStartTimeMs
      (encodedAttachment machine.runtime name records truncated) =
      parseAttachment machine.runtime attemptStartTimeMs
        (encodeBrowserLifecycleAttachment machine.runtime records truncated).body := by
    have hnamed : ATTACHMENT_NAMES.contains (machine.runtime.toLowerCase
        (encodedAttachment machine.runtime name records truncated).name) = true :=
      List.contains_iff_mem.mpr hname
    rw [parsedAttachmentOf, if_pos hnamed]
    show (if MAXIMUM_BYTES < _ then none else some _).bind _ = _
    rw [if_neg (not_lt.mpr (length_body hdocumented records truncated)), Option.bind_some]
  have hcount : (kept.map (parseSharedLifecycleRecord machine.runtime
      attemptStartTimeMs)).length ≤ MAXIMUM_RECORDS := by
    rw [List.length_map]
    exact (List.length_filter_le _ _).trans (included_records_spec hdocumented records).2.2.1
  have hcollected : collectRecords machine attemptStartTimeMs
      [encodedAttachment machine.runtime name records truncated] =
      (kept.map (parseSharedLifecycleRecord machine.runtime attemptStartTimeMs)).map
        (if truncated || kept.length < records.length then markTruncated else id) := by
    rw [collect_records_eq, missesRecords, allRecords, parsedAttachments, List.filterMap_cons,
      hread]
    rcases parse_encoded hdocumented attemptStartTimeMs records truncated hjson with
      ⟨hempty, hnone⟩ | hsome
    · rw [hnone]
      show [].map _ = (kept.map _).map _
      rw [show kept.map (parseSharedLifecycleRecord machine.runtime attemptStartTimeMs) = []
        from hempty]
      rfl
    · rw [hsome]
      simp only [List.filterMap_nil, List.flatMap_singleton, List.any_cons, List.any_nil,
        Bool.or_false]
      rw [List.take_of_length_le hcount, decide_eq_false (not_lt.mpr hcount), Bool.or_false,
        List.length_map]
  rw [attachClientLifecycles, hcollected, List.map_map]
  rfl

/-- The example record is joined. -/
theorem attach_encoded_plain :
    attachClientLifecycles plainMachine [plainAttachment] plainReport 0 =
      joinClientLifecycles plainMachine.platform plainReport
        [parseSharedLifecycleRecord plainMachine.runtime 0 (exampleRecord plainOrigin)] := by
  have hencoded : (encodeBrowserLifecycleAttachment (exampleRuntime plainOrigin plainOrigin)
      [(exampleRecord plainOrigin).toJson] false).attachment =
      ⟨false, [exampleRecord plainOrigin]⟩ := by decide +kernel
  have hkept : keptRecords (exampleRuntime plainOrigin plainOrigin)
      [(exampleRecord plainOrigin).toJson] = [exampleRecord plainOrigin] := by decide +kernel
  have hjson : (exampleRuntime plainOrigin plainOrigin).parseJson
      ((encodeBrowserLifecycleAttachment (exampleRuntime plainOrigin plainOrigin)
        [(exampleRecord plainOrigin).toJson] false).attachment.toJson.stringify
        (exampleRuntime plainOrigin plainOrigin).numberText) =
      some (encodeBrowserLifecycleAttachment (exampleRuntime plainOrigin plainOrigin)
        [(exampleRecord plainOrigin).toJson] false).attachment.toJson := by
    rw [hencoded]
    exact example_parse _ _
  have hname : plainMachine.runtime.toLowerCase "browser-network-lifecycle".toList ∈
      ATTACHMENT_NAMES := .head _
  have hattach := @attach_encoded plainMachine Unit (example_runtime_documented _ _) _ hname
    [(exampleRecord plainOrigin).toJson] false hjson plainReport 0
  simp only at hattach
  rw [show keptRecords plainMachine.runtime [(exampleRecord plainOrigin).toJson] = _ from hkept]
    at hattach
  exact hattach

end CoreUtils.Reporter.Lifecycle
