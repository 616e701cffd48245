import CoreUtils.Reporter.NetworkProcessing
import CoreUtils.Toolkit.Traceparent

/-!
# Trace correlation

Where the trace and span identifiers of an instance come from. `Ranked` gives the three sources in
their order, by what the headers hold, and `extract_trace_context_ranked` says that the code follows
it. What `createTraceparent` writes is read back (`parse_traceparent_of`).
-/

namespace CoreUtils.Reporter.Trace

open Text HexText LowerCase Toolkit.Traceparent

/-- A decimal number in the range of Datadog identifiers. -/
structure IsDatadogIdentifier (value : Text) (n : ℕ) : Prop where
  nonempty : value ≠ []
  digits : value.all Char.isDigit = true
  number : Nat.ofDigitChars 10 value 0 = n
  positive : 1 ≤ n
  bounded : n ≤ 2 ^ 64 - 1

/-- A header holds a Datadog identifier, which is this text in hexadecimal. -/
def HasDatadogIdentifier (headers : Option Headers) (name : String) (width : ℕ) (text : Text) :
    Prop :=
  ∃ value n, headerOf headers name = some value ∧ IsDatadogIdentifier value n ∧ Spells width n text

/-- The headers hold a valid traceparent with these identifiers. -/
def HasTraceparent (platform : Platform) (headers : Option Headers) (traceId spanId : Text) :
    Prop :=
  ∃ text, headerOf headers "traceparent" = some text ∧
    IsTraceparent platform.toLowerCase text traceId spanId

/-- The identifiers that the headers of a request and its response give: those of the traceparent of
the response, else those of Datadog, else those of the traceparent of the request. -/
inductive Ranked (platform : Platform) (requestHeaders responseHeaders : Option Headers) :
    Option Text → Option Text → Prop where
  | response {traceId spanId : Text}
      (hresponse : HasTraceparent platform responseHeaders traceId spanId) :
      Ranked platform requestHeaders responseHeaders (some traceId) (some spanId)
  | datadog {traceId spanId : Text}
      (hnone : ∀ traceId spanId, ¬HasTraceparent platform responseHeaders traceId spanId)
      (htrace : HasDatadogIdentifier requestHeaders "x-datadog-trace-id" 32 traceId)
      (hspan : HasDatadogIdentifier requestHeaders "x-datadog-parent-id" 16 spanId) :
      Ranked platform requestHeaders responseHeaders (some traceId) (some spanId)
  | datadogTrace {traceId : Text}
      (hnone : ∀ traceId spanId, ¬HasTraceparent platform responseHeaders traceId spanId)
      (htrace : HasDatadogIdentifier requestHeaders "x-datadog-trace-id" 32 traceId)
      (hspan : ∀ spanId, ¬HasDatadogIdentifier requestHeaders "x-datadog-parent-id" 16 spanId) :
      Ranked platform requestHeaders responseHeaders (some traceId) none
  | request {traceId spanId : Text}
      (hnone : ∀ traceId spanId, ¬HasTraceparent platform responseHeaders traceId spanId)
      (hdatadog : ∀ traceId, ¬HasDatadogIdentifier requestHeaders "x-datadog-trace-id" 32 traceId)
      (hrequest : HasTraceparent platform requestHeaders traceId spanId) :
      Ranked platform requestHeaders responseHeaders (some traceId) (some spanId)
  | nothing
      (hnone : ∀ traceId spanId, ¬HasTraceparent platform responseHeaders traceId spanId)
      (hdatadog : ∀ traceId, ¬HasDatadogIdentifier requestHeaders "x-datadog-trace-id" 32 traceId)
      (hrequest : ∀ traceId spanId, ¬HasTraceparent platform requestHeaders traceId spanId) :
      Ranked platform requestHeaders responseHeaders none none

variable {platform : Platform}

/-! ## Datadog identifiers -/

/-- Which texts are identifiers, and what is made of them. -/
theorem parse_datadog_identifier_eq_some_iff {value : Option Text} {width : ℕ}
    (hwidth : 16 ≤ width) {text : Text} :
    parseDatadogIdentifier value width = some text ↔
      ∃ digits n, value = some digits ∧ IsDatadogIdentifier digits n ∧ Spells width n text := by
  have hroom : ∀ n, n ≤ 0xffffffffffffffff → n < 16 ^ width := by
    intro n hn
    have hpower : 16 ^ 16 ≤ 16 ^ width := Nat.pow_le_pow_right (by omega) hwidth
    omega
  unfold parseDatadogIdentifier
  constructor
  · intro h
    obtain ⟨digits, rfl, htext⟩ := Option.bind_eq_some_iff.mp h
    split at htext
    · contradiction
    · rename_i hdigits
      simp only at htext
      split at htext
      · contradiction
      · rename_i hrange
        obtain rfl := Option.some.inj htext
        simp only [not_or, Bool.not_eq_false] at hdigits hrange
        refine ⟨digits, _, rfl, ⟨hdigits.1, hdigits.2, rfl, by omega, by omega⟩, ?_⟩
        exact spells_leftpad (by omega) (hroom _ (by omega))
  · rintro ⟨digits, n, rfl, hid, htext⟩
    have hpositive := hid.positive
    have hbounded := hid.bounded
    have hnumber := hid.number
    show (if digits = [] ∨ digits.all Char.isDigit = false then none
      else if Nat.ofDigitChars 10 digits 0 = 0 ∨ 0xffffffffffffffff < Nat.ofDigitChars 10 digits 0
        then none else some _) = some text
    rw [if_neg (by simp [hid.nonempty, hid.digits]), hnumber, if_neg (by omega)]
    have hpad : 0 < width := by omega
    have hspells := spells_leftpad hpad (hroom n (by omega))
    rw [hspells.unique htext]

/-- The identifier of a header. -/
theorem has_datadog_identifier_iff {headers : Option Headers} {name : String} {width : ℕ}
    (hwidth : 16 ≤ width) {text : Text} :
    parseDatadogIdentifier (headerOf headers name) width = some text ↔
      HasDatadogIdentifier headers name width text :=
  parse_datadog_identifier_eq_some_iff hwidth

/-- A header without an identifier. -/
theorem not_has_datadog_identifier {headers : Option Headers} {name : String} {width : ℕ}
    (hwidth : 16 ≤ width) (h : parseDatadogIdentifier (headerOf headers name) width = none)
    (text : Text) : ¬HasDatadogIdentifier headers name width text := by
  intro hid
  rw [(has_datadog_identifier_iff hwidth).mpr hid] at h
  contradiction

/-- The identifiers of Datadog are well formed. -/
theorem HasDatadogIdentifier.isIdentifier {headers : Option Headers} {name : String} {width : ℕ}
    {text : Text} (h : HasDatadogIdentifier headers name width text) : IsIdentifier width text := by
  obtain ⟨value, n, -, hid, htext⟩ := h
  have hpositive := hid.positive
  refine ⟨⟨htext.length, htext.digits⟩, fun hzeros ↦ ?_⟩
  have hzero := htext.eq_zeros_iff.mp hzeros
  omega

/-! ## The ranking -/

/-- Headers without a valid traceparent. -/
theorem not_has_traceparent (hlower : ∀ text, Lowered text (platform.toLowerCase text))
    {headers : Option Headers}
    (h : parseTraceparent platform.toLowerCase (headerOf headers "traceparent") = none)
    (traceId spanId : Text) : ¬HasTraceparent platform headers traceId spanId := by
  rintro ⟨text, htext, hvalid⟩
  exact (parse_traceparent_eq_none_iff hlower).mp h text traceId spanId htext hvalid

/-- The code follows the ranking. -/
theorem extract_trace_context_ranked (hlower : ∀ text, Lowered text (platform.toLowerCase text))
    (requestHeaders responseHeaders : Option Headers) :
    Ranked platform requestHeaders responseHeaders
      ((extractTraceContext platform requestHeaders responseHeaders).map (·.traceId))
      ((extractTraceContext platform requestHeaders responseHeaders).bind (·.spanId)) := by
  unfold extractTraceContext
  cases hresponse :
      parseTraceparent platform.toLowerCase (headerOf responseHeaders "traceparent") with
  | some ids => exact .response ((parse_traceparent_eq_some_iff hlower).mp hresponse)
  | none =>
      have hnone := not_has_traceparent hlower hresponse
      cases htrace : parseDatadogIdentifier (headerOf requestHeaders "x-datadog-trace-id") 32 with
      | some traceId =>
          have htrace' := (has_datadog_identifier_iff (by omega)).mp htrace
          cases hspan :
              parseDatadogIdentifier (headerOf requestHeaders "x-datadog-parent-id") 16 with
          | some spanId =>
              exact .datadog hnone htrace' ((has_datadog_identifier_iff (by omega)).mp hspan)
          | none =>
              exact .datadogTrace hnone htrace' (not_has_datadog_identifier (by omega) hspan)
      | none =>
          have hdatadog := not_has_datadog_identifier (by omega) htrace
          cases hrequest :
              parseTraceparent platform.toLowerCase (headerOf requestHeaders "traceparent") with
          | some ids =>
              exact .request hnone hdatadog ((parse_traceparent_eq_some_iff hlower).mp hrequest)
          | none => exact .nothing hnone hdatadog (not_has_traceparent hlower hrequest)

/-- What is ranked is well formed. -/
theorem Ranked.isIdentifier {requestHeaders responseHeaders : Option Headers}
    {traceId spanId : Option Text}
    (h : Ranked platform requestHeaders responseHeaders traceId spanId) :
    (∀ text, traceId = some text → IsIdentifier 32 text) ∧
      ∀ text, spanId = some text → IsIdentifier 16 text := by
  have hvalid : ∀ {headers : Option Headers} {traceId spanId : Text},
      HasTraceparent platform headers traceId spanId →
        (∀ text, some traceId = some text → IsIdentifier 32 text) ∧
          ∀ text, some spanId = some text → IsIdentifier 16 text := by
    rintro headers traceId spanId ⟨text, -, htrace, hspan, -⟩
    exact ⟨fun other hother ↦ Option.some.inj hother ▸ htrace,
      fun other hother ↦ Option.some.inj hother ▸ hspan⟩
  cases h with
  | response hresponse => exact hvalid hresponse
  | datadog hnone htrace hspan =>
      exact ⟨fun other hother ↦ Option.some.inj hother ▸ htrace.isIdentifier,
        fun other hother ↦ Option.some.inj hother ▸ hspan.isIdentifier⟩
  | datadogTrace hnone htrace hspan =>
      exact ⟨fun other hother ↦ Option.some.inj hother ▸ htrace.isIdentifier,
        fun other hother ↦ absurd hother (by simp)⟩
  | request hnone hdatadog hrequest => exact hvalid hrequest
  | nothing hnone hdatadog hrequest =>
      exact ⟨fun other hother ↦ absurd hother (by simp), fun other hother ↦ absurd hother (by simp)⟩

/-- The identifiers of a built instance follow the ranking. -/
theorem build_instance_ranked (hlower : ∀ text, Lowered text (platform.toLowerCase text))
    (params : BuildInstanceParams) :
    Ranked platform params.requestHeaders params.responseHeaders
      ((buildInstance platform params).traceId.map String.toList)
      ((buildInstance platform params).spanId.map String.toList) := by
  have hranked :=
    extract_trace_context_ranked hlower params.requestHeaders params.responseHeaders
  have htexts : ∀ text : Option Text, (text.map String.ofList).map String.toList = text := by
    intro text
    cases text with
    | none => rfl
    | some text => simp
  have htrace : (buildInstance platform params).traceId =
      ((extractTraceContext platform params.requestHeaders params.responseHeaders).map
        (·.traceId)).map String.ofList := by
    rw [Option.map_map]
    rfl
  have hspan : (buildInstance platform params).spanId =
      ((extractTraceContext platform params.requestHeaders params.responseHeaders).bind
        (·.spanId)).map String.ofList := rfl
  rw [htrace, hspan, htexts, htexts]
  exact hranked

/-! ## Created traceparents -/

/-- Drawn bytes are an identifier. -/
theorem isIdentifier_ofBytes {bytes : Bytes} {byteCount : ℕ} (hlength : bytes.length = byteCount)
    (hnonzero : bytes ≠ List.replicate byteCount 0) :
    IsIdentifier (byteCount * 2) (ofBytes bytes) := by
  have hspells := spells_ofBytes bytes
  rw [hlength, Nat.mul_comm] at hspells
  refine ⟨⟨hspells.length, hspells.digits⟩, fun hzeros ↦ hnonzero (ofBytes_injective ?_)⟩
  rw [hzeros, ofBytes_replicate]

/-- A created traceparent is read back. -/
theorem parse_traceparent_of (hlower : ∀ text, Lowered text (platform.toLowerCase text))
    {traceBytes parentBytes : Bytes}
    (htrace : IsIdentifier 32 (ofBytes traceBytes))
    (hparent : IsIdentifier 16 (ofBytes parentBytes)) :
    parseTraceparent platform.toLowerCase (some (traceparentOf traceBytes parentBytes)) =
      some ⟨ofBytes traceBytes, ofBytes parentBytes⟩ := by
  have hascii : ∀ c ∈ traceparentOf traceBytes parentBytes,
      32 < c.toNat ∧ c.toNat < 128 ∧ c.isUpper = false := by
    have hmarks : ∀ c ∈ "00-".toList ++ "-".toList ++ "-01".toList,
        32 < c.toNat ∧ c.toNat < 128 ∧ c.isUpper = false := by
      intro c hc
      have hall : ("00-".toList ++ "-".toList ++ "-01".toList).all
          (fun c ↦ 32 < c.toNat && c.toNat < 128 && !c.isUpper) = true := by decide
      simpa [and_assoc] using List.all_eq_true.mp hall c hc
    intro c hc
    simp only [traceparentOf, List.mem_append] at hc
    rcases hc with (((hc | hc) | hc) | hc) | hc
    · exact hmarks c (by simp only [List.mem_append]; exact .inl (.inl hc))
    · exact isHexDigit_ascii (List.all_eq_true.mp htrace.1.2 c hc)
    · exact hmarks c (by simp only [List.mem_append]; exact .inl (.inr hc))
    · exact isHexDigit_ascii (List.all_eq_true.mp hparent.1.2 c hc)
    · exact hmarks c (by simp only [List.mem_append]; exact .inr hc)
  have htrim : trim isWhiteSpace (traceparentOf traceBytes parentBytes) =
      traceparentOf traceBytes parentBytes := by
    refine trim_eq_self fun c hc ↦ ?_
    obtain ⟨hlow, hhigh, -⟩ := hascii c hc
    simp only [isWhiteSpace, isWhiteSpaceCode, Bool.or_eq_false_iff, Bool.and_eq_false_iff,
      decide_eq_false_iff_not, beq_eq_false_iff_ne]
    omega
  have hsame : platform.toLowerCase (traceparentOf traceBytes parentBytes) =
      traceparentOf traceBytes parentBytes :=
    (hlower _).eq_self fun c hc ↦ (hascii c hc).2
  refine (parse_traceparent_eq_some_iff hlower).mpr ⟨_, rfl, htrace, hparent, "00".toList,
    "01".toList, by decide, by decide, by decide, ?_⟩
  rw [htrim, hsame]
  simp [traceparentOf, TraceparentGroups.text]

/-- The identifiers of built instances are well formed and ranked, and what `createTraceparent`
makes of any source of random bytes is read as the identifiers that were drawn. It has a result
whenever both are drawn. -/
theorem trace_correlation (platform : Platform)
    (hlower : ∀ text, Lowered text (platform.toLowerCase text)) :
    (∀ params : BuildInstanceParams,
      let built := buildInstance platform params
      (∀ traceId, built.traceId = some traceId → IsIdentifier 32 traceId.toList) ∧
        (∀ spanId, built.spanId = some spanId → IsIdentifier 16 spanId.toList) ∧
        Ranked platform params.requestHeaders params.responseHeaders
          (built.traceId.map String.toList) (built.spanId.map String.toList)) ∧
      ∀ (E : Type) (randomBytesImplementation : RandomBytes E),
        (∀ iterations text,
          createTraceparent randomBytesImplementation iterations = some (.ok text) →
            ∃ traceBytes call parentBytes last,
              Drawn randomBytesImplementation 16 0 traceBytes call ∧
                Drawn randomBytesImplementation 8 call parentBytes last ∧
                parseTraceparent platform.toLowerCase (some text) =
                  some ⟨ofBytes traceBytes, ofBytes parentBytes⟩) ∧
        ∀ traceBytes call parentBytes last,
          Drawn randomBytesImplementation 16 0 traceBytes call →
            Drawn randomBytesImplementation 8 call parentBytes last →
              ∃ iterations, createTraceparent randomBytesImplementation iterations =
                some (.ok (traceparentOf traceBytes parentBytes)) := by
  refine ⟨fun params ↦ ?_, fun E randomBytesImplementation ↦ ⟨?_, ?_⟩⟩
  · have hranked := build_instance_ranked hlower params
    obtain ⟨htrace, hspan⟩ := hranked.isIdentifier
    refine ⟨fun traceId h ↦ htrace _ ?_, fun spanId h ↦ hspan _ ?_, hranked⟩
    · rw [h, Option.map_some]
    · rw [h, Option.map_some]
  · intro iterations text htext
    obtain ⟨traceBytes, call, parentBytes, last, hdrawn, hdrawn', rfl⟩ :=
      create_traceparent_iff.mp ⟨iterations, htext⟩
    refine ⟨traceBytes, call, parentBytes, last, hdrawn, hdrawn', ?_⟩
    exact parse_traceparent_of hlower (isIdentifier_ofBytes hdrawn.spec.1 hdrawn.spec.2)
      (isIdentifier_ofBytes hdrawn'.spec.1 hdrawn'.spec.2)
  · intro traceBytes call parentBytes last hdrawn hdrawn'
    exact create_traceparent_iff.mpr ⟨traceBytes, call, parentBytes, last, hdrawn, hdrawn', rfl⟩

/-- A request with the largest Datadog identifier, and a response that cannot be read. -/
def datadogParams : BuildInstanceParams where
  snapshotRecord := .object []
  responseRecord := .object []
  requestHeaders :=
    some (OrderedMap.empty.set "x-datadog-trace-id".toList "18446744073709551615".toList)
  responseHeaders := none
  anchor := none
  attemptStartTimeMs := 0

/-- The identifier of that request. -/
theorem trace_correlation_datadog :
    (buildInstance asciiPlatform datadogParams).traceId =
        some "0000000000000000ffffffffffffffff" ∧
      IsIdentifier 32 "0000000000000000ffffffffffffffff".toList := by
  have htrace : (buildInstance asciiPlatform datadogParams).traceId =
      some "0000000000000000ffffffffffffffff" := by decide +kernel
  exact ⟨htrace, ((trace_correlation asciiPlatform lowered_map).1 datadogParams).1 _ htrace⟩

end CoreUtils.Reporter.Trace
