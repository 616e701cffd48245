import CoreUtils.Library.Json
import CoreUtils.Library.Text
import CoreUtils.Reporter.AttemptResult

/-!
# Sanitizing browser lifecycle fields

The sanitizers of `clientLifecycleSanitization.ts`. Nearly all of them normalize a text and accept
the result or not (`sanitizeText`), and their results are accepted as they are (`stable_text`). The
origin is the exception: its text is checked before it is normalized, and the normalized one may be
longer (`sanitize_origin_again`).
-/

namespace CoreUtils.Reporter.Lifecycle

open Text Json

/-- Text as its characters. -/
abbrev Text := List Char

/-- What a URL is asked for. -/
structure Url where
  protocol : Text
  origin : Text

/-- Whether a URL is an HTTP one. -/
def Url.isHttp (url : Url) : Bool :=
  url.protocol = "http:".toList || url.protocol = "https:".toList

/-- What the codec uses of the platform. `dateParse` is `Date.parse` and says nothing where that is
not a number; `parseUrl` is `new URL` and says nothing where that throws, as does `parseJson`. -/
structure Runtime where
  toUpperCase : Text → Text
  toLowerCase : Text → Text
  parseUrl : Text → Option Url
  dateParse : Text → Option ℤ
  toISOString : ℤ → Text
  numberText : ℚ → Text
  parseJson : Text → Option Json

/-- The length of a text, in UTF-16 code units. -/
def codeUnits (text : Text) : ℕ := (text.map fun c ↦ if c.toNat < 0x10000 then 1 else 2).sum

/-- The greatest length of a path. -/
def CLIENT_LIFECYCLE_PATH_CAP : ℕ := 512

/-- The greatest length of an identifier. -/
def CLIENT_LIFECYCLE_IDENTIFIER_CAP : ℕ := 256

/-- The greatest whole number below which doubles have no gaps, `Number.MAX_SAFE_INTEGER`. -/
def MAX_SAFE_INTEGER : ℚ := 9007199254740991

/-- How far a request has come. -/
inductive BrowserLifecycleClassification where
  | noResponseHeaders
  | headersWithoutBodyCompletion
  | networkFailure
  | completed
  deriving DecidableEq

namespace BrowserLifecycleClassification

/-- The text of a classification. -/
def toText : BrowserLifecycleClassification → Text
  | noResponseHeaders => "no_response_headers".toList
  | headersWithoutBodyCompletion => "headers_without_body_completion".toList
  | networkFailure => "network_failure".toList
  | completed => "completed".toList

end BrowserLifecycleClassification

/-- The classifications in the order in which their records are included. -/
def CLIENT_LIFECYCLE_CLASSIFICATION_PRIORITY : List BrowserLifecycleClassification :=
  [.noResponseHeaders, .headersWithoutBodyCompletion, .networkFailure, .completed]

/-- The text that a value is. -/
def asString (value : Option Json) : Option Text := value.bind Json.asString

/-- The number that a value is. -/
def asNumber (value : Option Json) : Option ℚ := value.bind Json.asNumber

/-- The truth value that a value is. -/
def asBoolean : Option Json → Option Bool
  | some (.bool value) => some value
  | _ => none

/-! ## Texts -/

/-- A text that is normalized and then accepted or not. -/
def sanitizeText (normalize : Text → Text) (accepts : Text → Bool) (value : Option Json) :
    Option Text :=
  ((asString value).map normalize).filter accepts

/-- A short text whose characters are all safe. -/
def sanitizeSafeText (isSafe : Char → Bool) : Option Json → Option Text :=
  sanitizeText id fun text ↦
    text ≠ [] && codeUnits text ≤ CLIENT_LIFECYCLE_IDENTIFIER_CAP && text.all isSafe

/-- The characters of `SAFE_IDENTIFIER_PATTERN`. -/
def isSafeIdentifier (c : Char) : Bool := c.isAlphanum || c ∈ "_:=./+-".toList

/-- The characters of `SAFE_PROTOCOL_PATTERN`. -/
def isSafeProtocol (c : Char) : Bool := c.isAlphanum || c ∈ "./_-".toList

/-- The characters of `SAFE_NETWORK_ERROR_PATTERN` after its prefix. -/
def isSafeNetworkError (c : Char) : Bool := c.isUpper || c.isDigit || c == '_'

/-- The characters of `SAFE_IP_ADDRESS_PATTERN`. -/
def isSafeIpAddress (c : Char) : Bool := c.isDigit || c ∈ "ABCDEFabcdef:.".toList

/-- The digits of trace and span identifiers. -/
def isHexDigit (c : Char) : Bool := c.isDigit || c ∈ "abcdef".toList

/-- A method in capitals, none if it has other characters or more than 16. -/
def sanitizeLifecycleMethod (runtime : Runtime) : Option Json → Option Text :=
  sanitizeText (fun text ↦ runtime.toUpperCase (trim isWhiteSpace text)) fun method ↦
    method ≠ [] && codeUnits method ≤ 16 && method.all Char.isUpper

/-- The origin of an HTTP URL. Its cap is on the text that is given, and the origin can be
longer. -/
def sanitizeLifecycleOrigin (runtime : Runtime) (value : Option Json) : Option Text := do
  let originText ← asString value
  if originText = [] ∨ CLIENT_LIFECYCLE_IDENTIFIER_CAP < codeUnits originText then none
  else
    let url ← runtime.parseUrl originText
    if url.isHttp then some url.origin else none

/-- A path up to its query, none if it does not begin with a slash or is too long. -/
def sanitizeLifecyclePathTemplate : Option Json → Option Text :=
  sanitizeText (fun text ↦ text.takeWhile fun c ↦ c != '?' && c != '#') fun withoutQuery ↦
    withoutQuery.head? == some '/' && codeUnits withoutQuery ≤ CLIENT_LIFECYCLE_PATH_CAP

/-- The classification that a text names. -/
def sanitizeLifecycleClassification (value : Option Json) :
    Option BrowserLifecycleClassification := do
  let classification ← asString value
  CLIENT_LIFECYCLE_CLASSIFICATION_PRIORITY.find? (·.toText = classification)

/-- A text of the characters of identifiers, none if it has others or is too long. -/
def sanitizeLifecycleIdentifier : Option Json → Option Text := sanitizeSafeText isSafeIdentifier

/-- A text of the characters of protocols, none if it has others or is too long. -/
def sanitizeLifecycleProtocol : Option Json → Option Text := sanitizeSafeText isSafeProtocol

/-- The name of a network error without colors and blanks around it, none if it does not begin with
`net::` or has other characters behind. -/
def sanitizeLifecycleNetworkError : Option Json → Option Text :=
  sanitizeText (fun text ↦ trim isWhiteSpace (stripAnsiUpTo text.length text)) fun errorText ↦
    "net::".toList.isPrefixOf errorText && errorText.length > 5 &&
      (errorText.drop 5).all isSafeNetworkError

/-- A text of the characters of addresses, none if it has others or is too long. -/
def sanitizeLifecycleIpAddress : Option Json → Option Text := sanitizeSafeText isSafeIpAddress

/-- Hexadecimal digits in lower case, none if they are not as many as asked for or all zeros. -/
def sanitizeLifecycleHexIdentifier (runtime : Runtime) (length : ℕ) : Option Json → Option Text :=
  sanitizeText runtime.toLowerCase fun identifier ↦
    codeUnits identifier = length && identifier ≠ [] && identifier.all isHexDigit &&
      !identifier.all (· == '0')

/-- The id of a trace, of 32 digits. -/
def sanitizeLifecycleTraceId (runtime : Runtime) : Option Json → Option Text :=
  sanitizeLifecycleHexIdentifier runtime 32

/-- The id of a span, of 16 digits. -/
def sanitizeLifecycleSpanId (runtime : Runtime) : Option Json → Option Text :=
  sanitizeLifecycleHexIdentifier runtime 16

/-- A number that is neither negative nor beyond the safe ones. -/
def sanitizeLifecycleNonNegativeNumber (value : Option Json) : Option ℚ :=
  (asNumber value).filter fun number ↦ 0 ≤ number && number ≤ MAX_SAFE_INTEGER

/-! ## Reading again -/

/-- What the codec relies on: capital letters are their own upper case and hexadecimal digits their
own lower case, the origin of an origin is itself, and a printed time is read as the same time. -/
structure Runtime.Documented (runtime : Runtime) : Prop where
  toUpperCase_of_upper : ∀ text : Text,
    text.all Char.isUpper = true → runtime.toUpperCase text = text
  toLowerCase_of_hex : ∀ text : Text, text.all isHexDigit = true → runtime.toLowerCase text = text
  parseUrl_origin : ∀ text url, runtime.parseUrl text = some url → url.isHttp = true →
    ∃ again, runtime.parseUrl url.origin = some again ∧ again.protocol = url.protocol ∧
      again.origin = url.origin
  dateParse_nil : runtime.dateParse [] = none
  dateParse_toISOString : ∀ text time, runtime.dateParse text = some time →
    runtime.dateParse (runtime.toISOString time) = some time
  numberText_two : runtime.numberText 2 = ['2']

/-- A sanitizer that leaves what it accepts as it is reads its results again. -/
theorem stable_text {normalize : Text → Text} {accepts : Text → Bool}
    (h : ∀ text, accepts (normalize text) = true → normalize (normalize text) = normalize text) :
    Stable (sanitizeText normalize accepts) Json.string where
  missing := rfl
  again := by
    intro value result hread
    obtain ⟨hresult, haccepts⟩ := Option.filter_eq_some_iff.mp hread
    obtain ⟨text, -, rfl⟩ := Option.map_eq_some_iff.mp hresult
    show (some (normalize (normalize text))).filter accepts = some (normalize text)
    rw [h text haccepts]
    simpa using haccepts

/-- Safe texts are read again. -/
theorem stable_safe_text (isSafe : Char → Bool) : Stable (sanitizeSafeText isSafe) Json.string :=
  stable_text fun _ _ ↦ rfl

/-- Identifiers are read again. -/
theorem stable_identifier : Stable sanitizeLifecycleIdentifier Json.string := stable_safe_text _

/-- Protocols are read again. -/
theorem stable_protocol : Stable sanitizeLifecycleProtocol Json.string := stable_safe_text _

/-- Addresses are read again. -/
theorem stable_ip_address : Stable sanitizeLifecycleIpAddress Json.string := stable_safe_text _

/-- Path templates are read again. -/
theorem stable_path_template : Stable sanitizeLifecyclePathTemplate Json.string :=
  stable_text fun _ _ ↦ List.takeWhile_idem

/-- Between the blank and the end of ASCII nothing is white space. -/
theorem not_white_space {c : Char} (h : 32 < c.toNat) (h' : c.toNat < 0x80) :
    isWhiteSpace c = false := by
  simp only [isWhiteSpace, isWhiteSpaceCode, Bool.or_eq_false_iff, Bool.and_eq_false_iff,
    decide_eq_false_iff_not, beq_eq_false_iff_ne]
  omega

/-- The code of a capital letter. -/
theorem toNat_of_isUpper {c : Char} (h : c.isUpper = true) : 65 ≤ c.toNat ∧ c.toNat ≤ 90 := by
  have hcode := of_decide_eq_true h
  exact ⟨hcode.1, hcode.2⟩

/-- The code of a digit. -/
theorem toNat_of_isDigit {c : Char} (h : c.isDigit = true) : 48 ≤ c.toNat ∧ c.toNat ≤ 57 := by
  simp only [Char.isDigit, ge_iff_le, Bool.and_eq_true, decide_eq_true_eq] at h
  exact ⟨h.1, h.2⟩

/-- Methods are read again. -/
theorem stable_method {runtime : Runtime} (hdocumented : runtime.Documented) :
    Stable (sanitizeLifecycleMethod runtime) Json.string := by
  refine stable_text fun text haccepts ↦ ?_
  simp only [Bool.and_eq_true] at haccepts
  have hupper := List.all_eq_true.mp haccepts.2
  have htrim : trim isWhiteSpace (runtime.toUpperCase (trim isWhiteSpace text)) =
      runtime.toUpperCase (trim isWhiteSpace text) := by
    refine trim_eq_self fun c hc ↦ ?_
    have hcode := toNat_of_isUpper (hupper c hc)
    exact not_white_space (by omega) (by omega)
  rw [htrim]
  exact hdocumented.toUpperCase_of_upper _ haccepts.2

/-- Trace and span identifiers are read again. -/
theorem stable_hex_identifier {runtime : Runtime} (hdocumented : runtime.Documented)
    (length : ℕ) : Stable (sanitizeLifecycleHexIdentifier runtime length) Json.string := by
  refine stable_text fun text haccepts ↦ ?_
  simp only [Bool.and_eq_true] at haccepts
  exact hdocumented.toLowerCase_of_hex _ haccepts.1.2

/-- Trace identifiers are read again. -/
theorem stable_trace_id {runtime : Runtime} (hdocumented : runtime.Documented) :
    Stable (sanitizeLifecycleTraceId runtime) Json.string := stable_hex_identifier hdocumented 32

/-- Span identifiers are read again. -/
theorem stable_span_id {runtime : Runtime} (hdocumented : runtime.Documented) :
    Stable (sanitizeLifecycleSpanId runtime) Json.string := stable_hex_identifier hdocumented 16

/-- Text without escape characters has no escape sequences. -/
theorem stripAnsiUpTo_eq_self {text : Text} (h : '\x1b' ∉ text) (bound : ℕ) :
    stripAnsiUpTo bound text = text := by
  induction text generalizing bound with
  | nil => cases bound <;> rfl
  | cons c rest ih =>
      have hrest : '\x1b' ∉ rest := fun hmem ↦ h (List.mem_cons_of_mem _ hmem)
      cases bound with
      | zero => rfl
      | succ bound =>
          rw [stripAnsiUpTo, ih hrest]
          intro sequence hc
          exact absurd (hc ▸ List.mem_cons_self) h

/-- The characters of a network error. -/
theorem network_error_chars {text : Text}
    (h : ("net::".toList.isPrefixOf text && text.length > 5 &&
      (text.drop 5).all isSafeNetworkError) = true) :
    ∀ c ∈ text, 32 < c.toNat ∧ c.toNat < 0x80 := by
  simp only [Bool.and_eq_true] at h
  obtain ⟨rest, rfl⟩ := List.isPrefixOf_iff_prefix.mp h.1.1
  have hrest : ∀ c ∈ rest, isSafeNetworkError c = true := List.all_eq_true.mp h.2
  intro c hc
  rcases List.mem_append.mp hc with hnet | hc
  · have hall : "net::".toList.all (fun c ↦ 32 < c.toNat && c.toNat < 0x80) = true := by decide
    simpa using List.all_eq_true.mp hall c hnet
  · have hsafe := hrest c hc
    simp only [isSafeNetworkError, Bool.or_eq_true, beq_iff_eq] at hsafe
    rcases hsafe with (hupper | hdigit) | rfl
    · have := toNat_of_isUpper hupper
      omega
    · have := toNat_of_isDigit hdigit
      omega
    · decide

/-- Network errors are read again. -/
theorem stable_network_error : Stable sanitizeLifecycleNetworkError Json.string := by
  refine stable_text fun text haccepts ↦ ?_
  have hchars := network_error_chars haccepts
  have hescape : '\x1b' ∉ trim isWhiteSpace (stripAnsiUpTo text.length text) := by
    intro hmem
    have := (hchars _ hmem).1
    simp at this
  rw [stripAnsiUpTo_eq_self hescape]
  exact trim_eq_self fun c hc ↦ not_white_space (hchars c hc).1 (hchars c hc).2

/-- Classifications are read again. -/
theorem stable_classification :
    Stable sanitizeLifecycleClassification fun classification ↦ .string classification.toText where
  missing := rfl
  again := by
    intro value classification _
    cases classification <;> decide

/-- Numbers are read again. -/
theorem stable_number : Stable sanitizeLifecycleNonNegativeNumber Json.number where
  missing := rfl
  again := by
    intro value number hread
    obtain ⟨-, haccepts⟩ := Option.filter_eq_some_iff.mp hread
    show (some number).filter _ = some number
    simpa using haccepts

/-- Booleans are read again. -/
theorem stable_boolean : Stable asBoolean Json.bool := ⟨rfl, fun _ ↦ rfl⟩

/-- An origin is read again if it is not too long. -/
theorem sanitize_origin_again {runtime : Runtime} (hdocumented : runtime.Documented)
    {value : Option Json} {origin : Text}
    (hread : sanitizeLifecycleOrigin runtime value = some origin)
    (hne : origin ≠ []) :
    sanitizeLifecycleOrigin runtime (some (.string origin)) =
      if codeUnits origin ≤ CLIENT_LIFECYCLE_IDENTIFIER_CAP then some origin else none := by
  simp only [sanitizeLifecycleOrigin, Option.bind_eq_bind, Option.bind_eq_some_iff] at hread
  obtain ⟨text, -, hurl⟩ := hread
  split at hurl
  · simp at hurl
  · obtain ⟨url, hparsed, horigin⟩ := Option.bind_eq_some_iff.mp hurl
    split at horigin
    · rename_i hprotocol
      obtain rfl : url.origin = origin := Option.some.inj horigin
      obtain ⟨again, hagain, hsame, hself⟩ :=
        hdocumented.parseUrl_origin text url hparsed hprotocol
      have hhttp : again.isHttp = true := by
        rw [Url.isHttp, hsame]
        exact hprotocol
      by_cases hlength : codeUnits url.origin ≤ CLIENT_LIFECYCLE_IDENTIFIER_CAP
      · have hlength' := not_lt.mpr hlength
        simp [sanitizeLifecycleOrigin, asString, Json.asString, hne, hlength, hlength', hagain,
          hself, hhttp]
      · have hlength' := not_le.mp hlength
        simp [sanitizeLifecycleOrigin, asString, Json.asString, hlength, hlength']
    · simp at horigin

end CoreUtils.Reporter.Lifecycle
