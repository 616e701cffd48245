import CoreUtils.Library.Dates
import CoreUtils.Library.JsonSchema
import CoreUtils.Reporter.ClientLifecycleRoundTrip

/-!
# The schema of browser lifecycle attachments

Whatever the bytes of an attachment are, what `parseBrowserLifecycleAttachment` returns is a value
of `attachmentSchema`, which says of every field at every depth what it may hold (`parse_conforms`).
The schema is declared here from the record types; each sanitizer is shown to give texts and numbers
of its kind.
-/

namespace CoreUtils.Reporter.Lifecycle

open Text Json Dates

/-! ## Texts and numbers -/

/-- One to sixteen upper-case letters. -/
def IsMethod (text : Text) : Prop :=
  1 ≤ text.length ∧ text.length ≤ 16 ∧ ∀ c ∈ text, c.isUpper = true

/-- An HTTP or HTTPS origin: the scheme and a host, perhaps with a port. -/
def IsHttpOrigin (text : Text) : Prop :=
  ∃ host, host ≠ [] ∧ (∀ c ∈ host, c ∉ "/?#@".toList) ∧
    (text = "http://".toList ++ host ∨ text = "https://".toList ++ host)

/-- A path without query and fragment. -/
def IsPathTemplate (text : Text) : Prop :=
  codeUnits text ≤ 512 ∧ text.head? = some '/' ∧ '?' ∉ text ∧ '#' ∉ text

/-- One of the four classifications. -/
def IsClassification (text : Text) : Prop :=
  text ∈ ["no_response_headers".toList, "headers_without_body_completion".toList,
    "network_failure".toList, "completed".toList]

/-- A text of at most 256 characters of an alphabet. -/
def IsSafeText (isSafe : Char → Bool) (text : Text) : Prop :=
  text ≠ [] ∧ codeUnits text ≤ 256 ∧ ∀ c ∈ text, isSafe c = true

/-- A number of lower-case hexadecimal digits that are not all zero. -/
def IsHexIdentifier (length : ℕ) (text : Text) : Prop :=
  text.length = length ∧ (∀ c ∈ text, isHexDigit c = true) ∧ ∃ c ∈ text, c ≠ '0'

/-- `net::` and a name. -/
def IsNetworkError (text : Text) : Prop :=
  ∃ name, text = "net::".toList ++ name ∧ name ≠ [] ∧ ∀ c ∈ name, isSafeNetworkError c = true

/-- A number from 0 to 2^53 - 1. -/
def IsSafeNumber (number : ℚ) : Prop := 0 ≤ number ∧ number ≤ 2 ^ 53 - 1

/-! ## Schemas -/

/-- The schema of a timestamp. -/
def timestampSchema : Schema :=
  .object
    [("utc".toList, true, .text IsCanonical),
      ("monotonicMilliseconds".toList, false, .number IsSafeNumber)]

/-- The schema of an event. -/
def eventSchema : Schema :=
  .object [("cdp".toList, false, timestampSchema), ("playwright".toList, false, timestampSchema)]

/-- The schema of a failure event. -/
def failureEventSchema : Schema :=
  .object
    [("cdp".toList, false, timestampSchema),
      ("playwright".toList, false, timestampSchema),
      ("errorText".toList, false, .text IsNetworkError),
      ("canceled".toList, false, .boolean),
      ("blockedReason".toList, false, .text (IsSafeText isSafeIdentifier)),
      ("corsErrorStatus".toList, false, .text (IsSafeText isSafeIdentifier))]

/-- The schema of a remote endpoint. -/
def remoteEndpointSchema : Schema :=
  .object
    [("ipAddress".toList, false, .text (IsSafeText isSafeIpAddress)),
      ("port".toList, false, .number IsSafeNumber)]

/-- The schema of a connection. -/
def connectionSchema : Schema :=
  .object
    [("id".toList, false, .number IsSafeNumber),
      ("reused".toList, false, .boolean),
      ("remoteEndpoint".toList, false, remoteEndpointSchema)]

/-- The schema of the numbers of bytes. -/
def encodedBytesSchema : Schema :=
  .object
    [("data".toList, false, .number IsSafeNumber),
      ("responseHeaders".toList, false, .number IsSafeNumber),
      ("total".toList, false, .number IsSafeNumber)]

/-- The fields of a record. -/
def recordFields : List (Text × Bool × Schema) :=
  [("method".toList, true, .text IsMethod),
    ("origin".toList, true, .text IsHttpOrigin),
    ("pathTemplate".toList, true, .text IsPathTemplate),
    ("requestStarted".toList, true, eventSchema),
    ("classification".toList, true, .text IsClassification),
    ("responseReceived".toList, false, eventSchema),
    ("loadingFinished".toList, false, eventSchema),
    ("loadingFailed".toList, false, failureEventSchema),
    ("playwrightRequestKey".toList, false, .text (IsSafeText isSafeIdentifier)),
    ("cdpRequestId".toList, false, .text (IsSafeText isSafeIdentifier)),
    ("loaderId".toList, false, .text (IsSafeText isSafeIdentifier)),
    ("apiGatewayRequestId".toList, false, .text (IsSafeText isSafeIdentifier)),
    ("traceId".toList, false, .text (IsHexIdentifier 32)),
    ("spanId".toList, false, .text (IsHexIdentifier 16)),
    ("connection".toList, false, connectionSchema),
    ("encodedBytes".toList, false, encodedBytesSchema),
    ("httpStatus".toList, false, .number IsSafeNumber),
    ("protocol".toList, false, .text (IsSafeText isSafeProtocol))]

/-- The schema of a record. -/
def recordSchema : Schema := .object recordFields

/-- The schema of an attachment. -/
def attachmentSchema : Schema :=
  .object
    [("schemaVersion".toList, true, .number (· = 2)),
      ("truncated".toList, true, .boolean),
      ("records".toList, true, .array 100 recordSchema)]

/-! ## What the sanitizers accept -/

/-- What the schema relies on: the origin of an HTTP URL is its scheme and a host, and a time that
was parsed is valid and printed in the canonical form. -/
structure Runtime.Formats (runtime : Runtime) : Prop where
  origin_of_http : ∀ text url, runtime.parseUrl text = some url → url.isHttp = true →
    ∃ host, host ≠ [] ∧ (∀ c ∈ host, c ∉ "/?#@".toList) ∧
      url.origin = url.protocol ++ "//".toList ++ host
  print_parsed : ∀ text time, runtime.dateParse text = some time →
    (-MAXIMUM_TIME ≤ time ∧ time ≤ MAXIMUM_TIME) ∧
      runtime.toISOString time = (isoString time).toList

variable {runtime : Runtime} {value : Option Json}

/-- What a sanitizer of texts gives has been accepted. -/
theorem accepts_of_sanitizeText {normalize : Text → Text} {accepts : Text → Bool} {text : Text}
    (h : sanitizeText normalize accepts value = some text) :
    accepts text = true ∧ ∃ source, text = normalize source := by
  obtain ⟨hsource, haccepts⟩ := Option.filter_eq_some_iff.mp h
  obtain ⟨source, -, rfl⟩ := Option.map_eq_some_iff.mp hsource
  exact ⟨haccepts, source, rfl⟩

/-- Characters of the basic plane take one code unit each. -/
theorem codeUnits_eq_length {text : Text} (h : ∀ c ∈ text, c.toNat < 0x10000) :
    codeUnits text = text.length := by
  induction text with
  | nil => rfl
  | cons c rest ih =>
      have hc := h c List.mem_cons_self
      have hrest := ih fun d hd ↦ h d (List.mem_cons_of_mem _ hd)
      simp only [codeUnits, List.map_cons, List.sum_cons, if_pos hc, List.length_cons] at hrest ⊢
      omega

/-- Methods. -/
theorem isMethod_of_sanitize {text : Text} (h : sanitizeLifecycleMethod runtime value = some text) :
    IsMethod text := by
  obtain ⟨haccepts, -⟩ := accepts_of_sanitizeText h
  simp only [Bool.and_eq_true, decide_eq_true_eq, ne_eq] at haccepts
  obtain ⟨⟨hne, hlength⟩, hupper⟩ := haccepts
  have hall : ∀ c ∈ text, c.isUpper = true := List.all_eq_true.mp hupper
  rw [codeUnits_eq_length fun c hc ↦ by have := toNat_of_isUpper (hall c hc); omega] at hlength
  exact ⟨List.length_pos_iff.mpr hne, hlength, hall⟩

/-- Origins. -/
theorem isHttpOrigin_of_sanitize (hformats : runtime.Formats) {text : Text}
    (h : sanitizeLifecycleOrigin runtime value = some text) : IsHttpOrigin text := by
  simp only [sanitizeLifecycleOrigin, Option.bind_eq_bind, Option.bind_eq_some_iff] at h
  obtain ⟨source, -, h⟩ := h
  split at h
  · contradiction
  · obtain ⟨url, hurl, horigin⟩ := Option.bind_eq_some_iff.mp h
    split at horigin
    · rename_i hhttp
      obtain rfl := Option.some.inj horigin
      obtain ⟨host, hne, hhost, heq⟩ := hformats.origin_of_http source url hurl hhttp
      refine ⟨host, hne, hhost, ?_⟩
      simp only [Url.isHttp, Bool.or_eq_true, decide_eq_true_eq] at hhttp
      rcases hhttp with hprotocol | hprotocol
      · exact .inl (by rw [heq, hprotocol]; rfl)
      · exact .inr (by rw [heq, hprotocol]; rfl)
    · contradiction

/-- Path templates. -/
theorem isPathTemplate_of_sanitize {text : Text}
    (h : sanitizeLifecyclePathTemplate value = some text) : IsPathTemplate text := by
  obtain ⟨haccepts, source, rfl⟩ := accepts_of_sanitizeText h
  simp only [Bool.and_eq_true, decide_eq_true_eq, beq_iff_eq] at haccepts
  have hkept : ∀ c ∈ source.takeWhile fun c ↦ c != '?' && c != '#', c ≠ '?' ∧ c ≠ '#' := by
    intro c hc
    have := List.mem_takeWhile_imp hc
    simpa using this
  exact ⟨haccepts.2, haccepts.1, fun hmem ↦ (hkept _ hmem).1 rfl, fun hmem ↦ (hkept _ hmem).2 rfl⟩

/-- Classifications. -/
theorem isClassification_toText (classification : BrowserLifecycleClassification) :
    IsClassification classification.toText := by
  cases classification with
  | noResponseHeaders => exact .head _
  | headersWithoutBodyCompletion => exact .tail _ (.head _)
  | networkFailure => exact .tail _ (.tail _ (.head _))
  | completed => exact .tail _ (.tail _ (.tail _ (.head _)))

/-- Safe texts. -/
theorem isSafeText_of_sanitize {isSafe : Char → Bool} {text : Text}
    (h : sanitizeSafeText isSafe value = some text) : IsSafeText isSafe text := by
  obtain ⟨haccepts, -⟩ := accepts_of_sanitizeText h
  simp only [Bool.and_eq_true, decide_eq_true_eq, ne_eq] at haccepts
  exact ⟨haccepts.1.1, haccepts.1.2, List.all_eq_true.mp haccepts.2⟩

/-- A hexadecimal digit takes one code unit. -/
theorem toNat_of_isHexDigit {c : Char} (h : isHexDigit c = true) : c.toNat < 0x10000 := by
  simp only [isHexDigit, Bool.or_eq_true, decide_eq_true_eq] at h
  rcases h with hdigit | hletter
  · have := toNat_of_isDigit hdigit
    omega
  · have hall : "abcdef".toList.all (fun c ↦ c.toNat < 0x10000) = true := by decide
    exact of_decide_eq_true (List.all_eq_true.mp hall c hletter)

/-- Trace and span identifiers. -/
theorem isHexIdentifier_of_sanitize {length : ℕ} {text : Text}
    (h : sanitizeLifecycleHexIdentifier runtime length value = some text) :
    IsHexIdentifier length text := by
  obtain ⟨haccepts, -⟩ := accepts_of_sanitizeText h
  simp only [Bool.and_eq_true, decide_eq_true_eq, Bool.not_eq_true', List.all_eq_false] at haccepts
  obtain ⟨⟨⟨hlength, -⟩, hhex⟩, c, hc, hzero⟩ := haccepts
  have hall := List.all_eq_true.mp hhex
  rw [codeUnits_eq_length fun c hc ↦ toNat_of_isHexDigit (hall c hc)] at hlength
  exact ⟨hlength, hall, c, hc, by simpa using hzero⟩

/-- Network errors. -/
theorem isNetworkError_of_sanitize {text : Text}
    (h : sanitizeLifecycleNetworkError value = some text) : IsNetworkError text := by
  obtain ⟨haccepts, -⟩ := accepts_of_sanitizeText h
  simp only [Bool.and_eq_true, decide_eq_true_eq] at haccepts
  obtain ⟨⟨hnet, hlength⟩, hname⟩ := haccepts
  obtain ⟨name, rfl⟩ := List.isPrefixOf_iff_prefix.mp hnet
  refine ⟨name, rfl, ?_, List.all_eq_true.mp hname⟩
  rintro rfl
  exact absurd hlength (by decide)

/-- Numbers. -/
theorem isSafeNumber_of_sanitize {number : ℚ}
    (h : sanitizeLifecycleNonNegativeNumber value = some number) : IsSafeNumber number := by
  obtain ⟨-, haccepts⟩ := Option.filter_eq_some_iff.mp h
  obtain ⟨hnonnegative, hle⟩ := (Bool.and_eq_true _ _).mp haccepts
  have hmaximum : MAX_SAFE_INTEGER = 2 ^ 53 - 1 := by norm_num [MAX_SAFE_INTEGER]
  exact ⟨of_decide_eq_true hnonnegative, hmaximum ▸ of_decide_eq_true hle⟩

/-! ## What the copy helpers write -/

/-- An optional text of a kind. -/
theorem writes_text {accepts : Text → Prop} {key : Text} {text : Option Text}
    (h : ∀ a, text = some a → accepts a) :
    Writes (key, false, .text accepts) (key, text.map .string) :=
  .optional fun a ha ↦ .text (h a ha)

/-- An optional number. -/
theorem writes_number {key : Text} {field : Option Json} :
    Writes (key, false, .number IsSafeNumber)
      (key, (sanitizeLifecycleNonNegativeNumber field).map .number) :=
  .optional fun _ ha ↦ .number (isSafeNumber_of_sanitize ha)

/-- An optional truth value. -/
theorem writes_boolean {key : Text} {flag : Option Bool} :
    Writes (key, false, .boolean) (key, flag.map .bool) :=
  .optional fun _ _ ↦ .boolean

/-- An optional safe text. -/
theorem writes_safe_text {isSafe : Char → Bool} {key : Text} {field : Option Json} :
    Writes (key, false, .text (IsSafeText isSafe))
      (key, (sanitizeSafeText isSafe field).map .string) :=
  writes_text fun _ ha ↦ isSafeText_of_sanitize ha

/-- If nothing is written, the field is missing. -/
theorem none_of_unwritten {members : List (Text × Option Json)}
    (h : ¬∃ member ∈ members, member.2.isSome = true) {α : Type} {key : Text} {field : Option α}
    {write : α → Json} (hmem : (key, field.map write) ∈ members) : field = none := by
  cases field with
  | none => rfl
  | some a => exact absurd ⟨_, hmem, rfl⟩ h

/-- Timestamps. -/
theorem conforms_timestamp (hformats : runtime.Formats) {timestamp : BrowserLifecycleTimestamp}
    (h : sanitizeTimestamp runtime value = some timestamp) :
    Conforms timestampSchema timestamp.toJson := by
  simp only [sanitizeTimestamp, Option.bind_eq_bind, Option.bind_eq_some_iff] at h
  obtain ⟨source, -, utc, -, time, htime, hresult⟩ := h
  obtain rfl := Option.some.inj hresult
  obtain ⟨hvalid, hprint⟩ := hformats.print_parsed utc time htime
  have hutc : IsCanonical (runtime.toISOString time) := by
    rw [hprint]
    exact isCanonical_isoString hvalid
  refine conforms_objectOf timestamp_keys ?_ ⟨_, .head _, rfl⟩
  exact .cons (.required (.text hutc)) (.cons writes_number .nil)

/-- An optional timestamp. -/
theorem writes_timestamp (hformats : runtime.Formats) {key : Text} {field : Option Json} :
    Writes (key, false, timestampSchema)
      (key, (sanitizeTimestamp runtime field).map (·.toJson)) :=
  .optional fun _ ha ↦ conforms_timestamp hformats ha

/-- Events. -/
theorem conforms_event (hformats : runtime.Formats) {event : BrowserLifecycleEvent}
    (h : sanitizeEvent runtime value = some event) : Conforms eventSchema event.toJson := by
  obtain ⟨source, -, hevent⟩ := Option.bind_eq_some_iff.mp h
  obtain ⟨hcdp, hplaywright⟩ := eventOf_eq_some hevent
  refine conforms_objectOf event_keys ?_ ?_
  · rw [hcdp, hplaywright]
    exact .cons (writes_timestamp hformats) (.cons (writes_timestamp hformats) .nil)
  · rcases event.seen with hseen | hseen
    · exact ⟨_, .head _, by rw [Option.isSome_map]; exact hseen⟩
    · exact ⟨_, .tail _ (.head _), by rw [Option.isSome_map]; exact hseen⟩

/-- An optional event. -/
theorem writes_event (hformats : runtime.Formats) {key : Text} {field : Option Json} :
    Writes (key, false, eventSchema) (key, (sanitizeEvent runtime field).map (·.toJson)) :=
  .optional fun _ ha ↦ conforms_event hformats ha

/-- Failure events. -/
theorem conforms_failure_event (hformats : runtime.Formats) {event : BrowserLifecycleFailureEvent}
    (h : sanitizeFailureEvent runtime value = some event) :
    Conforms failureEventSchema event.toJson := by
  obtain ⟨source, hsource, -⟩ := Option.bind_eq_some_iff.mp h
  rw [sanitize_failure_event_eq hsource] at h
  simp only at h
  split at h
  · contradiction
  · rename_i hpresent
    obtain rfl := Option.some.inj h
    refine conforms_objectOf failure_event_keys ?_ ?_
    · exact .cons (writes_timestamp hformats) (.cons (writes_timestamp hformats)
        (.cons (writes_text fun _ ha ↦ isNetworkError_of_sanitize ha)
          (.cons writes_boolean (.cons writes_safe_text (.cons writes_safe_text .nil)))))
    · by_contra hnone
      refine hpresent ?_
      rw [BrowserLifecycleFailureEvent.mk.injEq]
      exact ⟨none_of_unwritten hnone (.head _), none_of_unwritten hnone (.tail _ (.head _)),
        none_of_unwritten hnone (.tail _ (.tail _ (.head _))),
        none_of_unwritten hnone (.tail _ (.tail _ (.tail _ (.head _)))),
        none_of_unwritten hnone (.tail _ (.tail _ (.tail _ (.tail _ (.head _))))),
        none_of_unwritten hnone (.tail _ (.tail _ (.tail _ (.tail _ (.tail _ (.head _))))))⟩

/-- Remote endpoints. -/
theorem conforms_remote_endpoint {endpoint : RemoteEndpoint}
    (h : sanitizeRemoteEndpoint value = some endpoint) :
    Conforms remoteEndpointSchema endpoint.toJson := by
  obtain ⟨source, -, hendpoint⟩ := Option.bind_eq_some_iff.mp h
  simp only at hendpoint
  split at hendpoint
  · contradiction
  · rename_i hpresent
    obtain rfl := Option.some.inj hendpoint
    refine conforms_objectOf remote_endpoint_keys
      (.cons writes_safe_text (.cons writes_number .nil)) ?_
    by_contra hnone
    refine hpresent ?_
    rw [RemoteEndpoint.mk.injEq]
    exact ⟨none_of_unwritten hnone (.head _), none_of_unwritten hnone (.tail _ (.head _))⟩

/-- Connections. -/
theorem conforms_connection {connection : BrowserLifecycleConnection}
    (h : sanitizeConnection value = some connection) :
    Conforms connectionSchema connection.toJson := by
  obtain ⟨source, -, hconnection⟩ := Option.bind_eq_some_iff.mp h
  simp only at hconnection
  split at hconnection
  · contradiction
  · rename_i hpresent
    obtain rfl := Option.some.inj hconnection
    refine conforms_objectOf connection_keys (.cons writes_number (.cons writes_boolean
      (.cons (.optional fun _ ha ↦ conforms_remote_endpoint ha) .nil))) ?_
    by_contra hnone
    refine hpresent ?_
    rw [BrowserLifecycleConnection.mk.injEq]
    exact ⟨none_of_unwritten hnone (.head _), none_of_unwritten hnone (.tail _ (.head _)),
      none_of_unwritten hnone (.tail _ (.tail _ (.head _)))⟩

/-- Numbers of bytes. -/
theorem conforms_encoded_bytes {encodedBytes : BrowserLifecycleEncodedBytes}
    (h : sanitizeEncodedBytes value = some encodedBytes) :
    Conforms encodedBytesSchema encodedBytes.toJson := by
  obtain ⟨source, -, hbytes⟩ := Option.bind_eq_some_iff.mp h
  simp only at hbytes
  split at hbytes
  · contradiction
  · rename_i hpresent
    obtain rfl := Option.some.inj hbytes
    refine conforms_objectOf encoded_bytes_keys
      (.cons writes_number (.cons writes_number (.cons writes_number .nil))) ?_
    by_contra hnone
    refine hpresent ?_
    rw [BrowserLifecycleEncodedBytes.mk.injEq]
    exact ⟨none_of_unwritten hnone (.head _), none_of_unwritten hnone (.tail _ (.head _)),
      none_of_unwritten hnone (.tail _ (.tail _ (.head _)))⟩

/-- Records. -/
theorem conforms_record (hformats : runtime.Formats) {source : Json}
    {record : BrowserLifecycleRecord} (h : sanitizeRecord runtime source = some record) :
    Conforms recordSchema record.toJson := by
  obtain ⟨fields, hfields, -⟩ := Option.bind_eq_some_iff.mp h
  have hsanitized := (sanitize_record_iff hfields).mp h
  have hwrites : List.Forall₂ Writes recordFields record.fields := by
    rw [BrowserLifecycleRecord.fields, ← hsanitized.responseReceived,
      ← hsanitized.loadingFinished, ← hsanitized.loadingFailed, ← hsanitized.playwrightRequestKey,
      ← hsanitized.cdpRequestId, ← hsanitized.loaderId, ← hsanitized.apiGatewayRequestId,
      ← hsanitized.traceId, ← hsanitized.spanId, ← hsanitized.connection,
      ← hsanitized.encodedBytes, ← hsanitized.httpStatus, ← hsanitized.protocol]
    exact .cons (.required (.text (isMethod_of_sanitize hsanitized.method)))
      (.cons (.required (.text (isHttpOrigin_of_sanitize hformats hsanitized.origin)))
      (.cons (.required (.text (isPathTemplate_of_sanitize hsanitized.pathTemplate)))
      (.cons (.required (conforms_event hformats hsanitized.requestStarted))
      (.cons (.required (.text (isClassification_toText _)))
      (.cons (writes_event hformats)
      (.cons (writes_event hformats)
      (.cons (.optional fun _ ha ↦ conforms_failure_event hformats ha)
      (.cons writes_safe_text
      (.cons writes_safe_text
      (.cons writes_safe_text
      (.cons writes_safe_text
      (.cons (writes_text fun _ ha ↦ isHexIdentifier_of_sanitize ha)
      (.cons (writes_text fun _ ha ↦ isHexIdentifier_of_sanitize ha)
      (.cons (.optional fun _ ha ↦ conforms_connection ha)
      (.cons (.optional fun _ ha ↦ conforms_encoded_bytes ha)
      (.cons writes_number
      (.cons writes_safe_text .nil)))))))))))))))))
  exact conforms_objectOf record_keys hwrites ⟨_, .head _, rfl⟩

/-- What is returned for an attachment is a value of the schema, whatever the bytes are: at most 100
records, each of them sanitized, and marked as truncated if a record of the input is missing. -/
theorem parse_conforms (hformats : runtime.Formats) {content : List ℕ}
    {attachment : BrowserLifecycleAttachment}
    (h : parseBrowserLifecycleAttachment runtime content = some attachment) :
    Conforms attachmentSchema attachment.toJson ∧ attachment.records.length ≤ 100 ∧
      (∀ record ∈ attachment.records, Conforms recordSchema record.toJson) ∧
      ∃ parsedValue source records, runtime.parseJson (Utf8.decode content) = some parsedValue ∧
        asRecord (some parsedValue) = some source ∧
        asArray (source.member "records".toList) = some records ∧
        (attachment.records.length < records.length → attachment.truncated = true) := by
  unfold parseBrowserLifecycleAttachment at h
  split at h
  · contradiction
  · simp only [Option.bind_eq_bind, Option.bind_eq_some_iff] at h
    obtain ⟨parsedValue, hparsed, source, hsource, records, hrecords, truncated, -, h⟩ := h
    split at h
    · contradiction
    · split at h
      · contradiction
      · obtain rfl := Option.some.inj h
        have hcount : ((records.take MAXIMUM_RECORDS).filterMap
            (sanitizeRecord runtime)).length ≤ 100 := by
          refine (List.length_filterMap_le _ _).trans ?_
          rw [List.length_take]
          exact Nat.min_le_left _ _
        have hall : ∀ record ∈ (records.take MAXIMUM_RECORDS).filterMap (sanitizeRecord runtime),
            Conforms recordSchema record.toJson := by
          intro record hrecord
          obtain ⟨value, -, hvalue⟩ := List.mem_filterMap.mp hrecord
          exact conforms_record hformats hvalue
        refine ⟨?_, hcount, hall, parsedValue, source, records, hparsed, hsource, hrecords, ?_⟩
        · refine conforms_objectOf attachment_keys (.cons (.required (.number rfl))
            (.cons (.required .boolean) (.cons (.required (.array ?_ ?_)) .nil)))
            ⟨_, .head _, rfl⟩
          · rw [List.length_map]
            exact hcount
          · intro value hvalue
            obtain ⟨record, hrecord, rfl⟩ := List.mem_map.mp hvalue
            exact hall record hrecord
        · intro hdropped
          show (truncated || decide _) = true
          rw [decide_eq_true hdropped, Bool.or_true]

/-- The platform on records with one origin prints the times that it parses. -/
theorem example_runtime_formats : (exampleRuntime plainOrigin plainOrigin).Formats where
  origin_of_http := by
    intro text url hurl _
    simp only [exampleRuntime] at hurl
    split at hurl
    · obtain rfl := Option.some.inj hurl
      have hall : "a.example".toList.all (fun c ↦ c ∉ "/?#@".toList) = true := by decide
      exact ⟨"a.example".toList, by decide,
        fun c hc ↦ of_decide_eq_true (List.all_eq_true.mp hall c hc), by decide +kernel⟩
    · contradiction
  print_parsed := by
    intro text time htime
    simp only [exampleRuntime] at htime ⊢
    split at htime
    · obtain rfl := Option.some.inj htime
      exact ⟨by decide, by decide +kernel⟩
    · contradiction

/-- The attachment with one record of that origin. -/
theorem parse_conforms_plain :
    Conforms attachmentSchema
      (BrowserLifecycleAttachment.toJson ⟨false, [exampleRecord plainOrigin]⟩) := by
  have hparse : parseBrowserLifecycleAttachment (exampleRuntime plainOrigin plainOrigin)
      (serializeAttachment (exampleRuntime plainOrigin plainOrigin)
        ⟨false, [exampleRecord plainOrigin]⟩) = some ⟨false, [exampleRecord plainOrigin]⟩ := by
    decide +kernel
  exact (parse_conforms example_runtime_formats hparse).1

end CoreUtils.Reporter.Lifecycle
