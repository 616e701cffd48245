import CoreUtils.Clearance.Allowlist
import CoreUtils.Clearance.Egress
import CoreUtils.Clearance.HostForm

/-!
# The headers of forwarded requests

`handleHttpRequest` authorizes the host and the port of an absolute URL and forwards the request
with the headers that `stripHopByHopHeaders` leaves, of which it replaces `host`.
`forwarded_headers` says which headers are sent and that the host header is that of the URL.
-/

namespace CoreUtils.Clearance

/-! ## Headers -/

/-- The name of a header. Assigning to the property `__proto__` of an object makes no property of
its own, so that header objects have none of that name. -/
abbrev HeaderName := { name : Text // name ≠ "__proto__".toList }

/-- The value of a header: one text, or several for a header that is sent more than once. -/
inductive HeaderValue where
  | text (value : Text)
  | list (values : List Text)
  deriving DecidableEq

/-- The headers of a message; a property may be present and undefined. -/
abbrev HttpHeaders := OrderedMap HeaderName (Option HeaderValue)

/-- `headers.connection` -/
def connectionName : HeaderName := ⟨"connection".toList, by decide⟩

/-- `headers.host` -/
def hostName : HeaderName := ⟨"host".toList, by decide⟩

/-- The headers that are about one connection. -/
def hopByHopHeaders : List Text :=
  ["connection".toList, "keep-alive".toList, "proxy-authenticate".toList,
    "proxy-authorization".toList, "proxy-connection".toList, "te".toList, "trailer".toList,
    "transfer-encoding".toList, "upgrade".toList]

/-- The texts of a header value. -/
def HeaderValue.values : HeaderValue → List Text
  | .list values => values
  | .text value => [value]

/-- The tokens of a Connection header. -/
def parseConnectionHeaderTokens (runtime : Runtime) : Option HeaderValue → List Text
  | none => []
  | some value =>
      ((value.values.flatMap fun header ↦ header.splitOn ',').map fun token ↦
        runtime.toLowerCase (Text.trim Text.isWhiteSpace token)).filter fun token ↦
          token.length > 0

/-- The headers that are forwarded. -/
def stripHopByHopHeaders (runtime : Runtime) (headers : HttpHeaders) : HttpHeaders :=
  let blockedHeaders := hopByHopHeaders ++
    parseConnectionHeaderTokens runtime (headers.get connectionName).join
  headers.entries.foldl (fun out entry ↦
    if runtime.toLowerCase entry.1.val ∉ blockedHeaders ∧ entry.2 ≠ none then
      out.set entry.1 entry.2
    else out) OrderedMap.empty

/-! ## Requests -/

/-- A parsed URL. Its port is missing if it is the default one. -/
structure URL where
  protocol : Text
  hostname : Text
  port : Option ℕ
  pathname : Text
  search : Text
  deriving DecidableEq

/-- The host of a URL, and its port if that is not the default one. -/
def URL.host (url : URL) : Text :=
  match url.port with
  | none => url.hostname
  | some port => url.hostname ++ ':' :: Nat.toDigits 10 port

/-- A request that a client sends. -/
structure HttpRequest where
  method : Text
  url : Text
  headers : HttpHeaders

/-- The request that is made of a server. -/
structure RequestOptions where
  family : Ip.Family
  headers : HttpHeaders
  hostname : Text
  method : Text
  path : Text
  port : ℕ

/-- What becomes of a request. -/
inductive HttpOutcome where
  | reply (status : ℕ) (body : Text)
  | upstream (options : RequestOptions)

/-- The request that `authorize` decides on for a URL. -/
def URL.request (url : URL) : Request := ⟨url.hostname, url.port.getD 80⟩

/-- Handle a request for an absolute URL; `authorize` says what it returns or throws for this
request. -/
def handleHttpRequest (runtime : Runtime) (parseURL : Text → Option URL)
    (authorize : Request → Except Text Target) (req : HttpRequest) : HttpOutcome :=
  match parseURL req.url with
  | none => .reply 400 "HTTP proxy requests must use absolute URLs\n".toList
  | some url =>
      if url.protocol ≠ "http:".toList then .reply 400 "Use CONNECT for HTTPS\n".toList
      else
        match authorize url.request with
        | .error reason => .reply 403 (reason ++ ['\n'])
        | .ok target =>
            let headers := stripHopByHopHeaders runtime req.headers
            .upstream {
              family := target.family
              headers := headers.set hostName (some (.text url.host))
              hostname := target.address
              method := req.method
              path := url.pathname ++ url.search
              port := target.port }

/-! ## Which headers are forwarded -/

/-- A name stands in the Connection header: it is an item of a value of that header, in any case and
with white space around it. -/
def NamedByConnection (runtime : Runtime) (headers : HttpHeaders) (name : Text) : Prop :=
  name ≠ [] ∧ ∃ value, headers.get connectionName = some (some value) ∧
    ∃ header ∈ value.values, ∃ item, Text.IsItem ',' header item ∧
      runtime.toLowerCase (Text.trim Text.isWhiteSpace item) = name

/-- The names of the headers are in lower case. -/
def LowerCaseNames (runtime : Runtime) (headers : HttpHeaders) : Prop :=
  ∀ entry ∈ headers.entries, runtime.toLowerCase entry.1.val = entry.1.val

variable {runtime : Runtime} {headers : HttpHeaders}

/-- The tokens are the names that stand in the Connection header. -/
theorem mem_parseConnectionHeaderTokens {name : Text} :
    name ∈ parseConnectionHeaderTokens runtime (headers.get connectionName).join ↔
      NamedByConnection runtime headers name := by
  cases hvalue : (headers.get connectionName).join with
  | none =>
      refine ⟨fun h ↦ absurd h (List.not_mem_nil), ?_⟩
      rintro ⟨-, value, hget, -⟩
      rw [hget] at hvalue
      simp at hvalue
  | some value =>
      have hget : headers.get connectionName = some (some value) :=
        Option.join_eq_some_iff.mp hvalue
      simp only [parseConnectionHeaderTokens, List.mem_filter, List.mem_map, List.mem_flatMap,
        Text.mem_splitOn_iff, decide_eq_true_eq, gt_iff_lt, List.length_pos_iff]
      constructor
      · rintro ⟨⟨item, ⟨header, hheader, hitem⟩, hname⟩, hne⟩
        exact ⟨hne, value, hget, header, hheader, item, hitem, hname⟩
      · rintro ⟨hne, value', hget', header, hheader, item, hitem, hname⟩
        obtain rfl : value = value' := by simpa [hget] using hget'
        exact ⟨⟨item, ⟨header, hheader, hitem⟩, hname⟩, hne⟩

/-- The entries that are forwarded, in their order. -/
theorem entries_stripHopByHopHeaders (runtime : Runtime) (headers : HttpHeaders) :
    (stripHopByHopHeaders runtime headers).entries = headers.entries.filter fun entry ↦
      runtime.toLowerCase entry.1.val ∉ hopByHopHeaders ++
        parseConnectionHeaderTokens runtime (headers.get connectionName).join ∧ entry.2 ≠ none :=
  OrderedMap.entries_foldl_set (fun entry : HeaderName × Option HeaderValue ↦
    runtime.toLowerCase entry.1.val ∉ hopByHopHeaders ++
      parseConnectionHeaderTokens runtime (headers.get connectionName).join ∧ entry.2 ≠ none)
    headers.nodup fun _ _ ↦ rfl

/-- An entry is forwarded if it is defined, its header is not hop-by-hop, and the Connection header
does not name it. -/
theorem mem_stripHopByHopHeaders (hnames : LowerCaseNames runtime headers)
    {entry : HeaderName × Option HeaderValue} :
    entry ∈ (stripHopByHopHeaders runtime headers).entries ↔
      entry ∈ headers.entries ∧ entry.2 ≠ none ∧ entry.1.val ∉ hopByHopHeaders ∧
        ¬NamedByConnection runtime headers entry.1.val := by
  rw [entries_stripHopByHopHeaders, List.mem_filter, decide_eq_true_eq]
  refine and_congr_right fun hmem ↦ ?_
  rw [hnames entry hmem, List.mem_append, not_or, mem_parseConnectionHeaderTokens]
  tauto

/-- The headers that are sent, for a request that is made: the forwarded ones, with the host of the
URL. -/
theorem options_of_upstream {parseURL : Text → Option URL}
    {authorize : Request → Except Text Target} {req : HttpRequest} {options : RequestOptions}
    (h : handleHttpRequest runtime parseURL authorize req = .upstream options) :
    ∃ url target, parseURL req.url = some url ∧ authorize url.request = .ok target ∧
      options.hostname = target.address ∧ options.port = target.port ∧
      options.headers =
        (stripHopByHopHeaders runtime req.headers).set hostName (some (.text url.host)) := by
  unfold handleHttpRequest at h
  split at h
  · simp at h
  · rename_i url hurl
    split at h
    · simp at h
    · split at h
      · simp at h
      · rename_i target htarget
        obtain rfl := HttpOutcome.upstream.inj h
        exact ⟨url, target, hurl, htarget, rfl, rfl, rfl⟩

/-- Headers whose names are in lower case are forwarded exactly if they are defined, not hop-by-hop
and not named by the Connection header, in their order and with their values. Of a request that is
made, the host header is that of the URL whose host and port were authorized, the only one under
that name, and no other header is touched. -/
theorem forwarded_headers (runtime : Runtime) :
    (∀ headers, LowerCaseNames runtime headers →
      (∀ entry, entry ∈ (stripHopByHopHeaders runtime headers).entries ↔
        entry ∈ headers.entries ∧ entry.2 ≠ none ∧ entry.1.val ∉ hopByHopHeaders ∧
          ¬NamedByConnection runtime headers entry.1.val) ∧
      (stripHopByHopHeaders runtime headers).entries.Sublist headers.entries) ∧
    ∀ parseURL authorize req options,
      handleHttpRequest runtime parseURL authorize req = .upstream options →
      ∃ url target, parseURL req.url = some url ∧ authorize url.request = .ok target ∧
        options.hostname = target.address ∧ options.port = target.port ∧
        options.headers.get hostName = some (some (.text url.host)) ∧
        (∀ name, name ≠ hostName →
          options.headers.get name = (stripHopByHopHeaders runtime req.headers).get name) ∧
        (LowerCaseNames runtime req.headers → ∀ entry ∈ options.headers.entries,
          runtime.toLowerCase entry.1.val = hostName.val → entry.2 = some (.text url.host)) := by
  constructor
  · intro headers hnames
    refine ⟨fun entry ↦ mem_stripHopByHopHeaders hnames, ?_⟩
    rw [entries_stripHopByHopHeaders]
    exact List.filter_sublist
  · intro parseURL authorize req options h
    obtain ⟨url, target, hurl, htarget, haddress, hport, hheaders⟩ := options_of_upstream h
    have hget : ∀ name, options.headers.get name = if name = hostName then
        some (some (.text url.host)) else (stripHopByHopHeaders runtime req.headers).get name := by
      intro name
      rw [hheaders, OrderedMap.get_set]
    refine ⟨url, target, hurl, htarget, haddress, hport, ?_, fun name hne ↦ ?_,
      fun hnames entry hentry hhost ↦ ?_⟩
    · rw [hget, if_pos rfl]
    · rw [hget, if_neg hne]
    · have hvalue : options.headers.get entry.1 = some entry.2 :=
        OrderedMap.mem_entries.mp hentry
      rw [hget] at hvalue
      by_cases hname : entry.1 = hostName
      · rw [if_pos hname] at hvalue
        exact (Option.some.inj hvalue).symm
      · -- a header of the client with the name of the host header in lower case has that name
        rw [if_neg hname] at hvalue
        have hstripped : entry ∈ (stripHopByHopHeaders runtime req.headers).entries :=
          OrderedMap.mem_entries.mpr hvalue
        have hclient := ((mem_stripHopByHopHeaders hnames).mp hstripped).1
        rw [hnames entry hclient] at hhost
        exact absurd (Subtype.ext hhost) hname

/-- Headers with a foreign host and with a header that the Connection header names. -/
def exampleHeaders : HttpHeaders where
  entries :=
    [(hostName, some (.text "intranet".toList)),
      (connectionName, some (.list ["close".toList, "X-Trace , Host".toList])),
      (⟨"x-trace".toList, by decide⟩, some (.text "1".toList)),
      (⟨"accept".toList, by decide⟩, some (.text "*/*".toList))]
  nodup := by decide

/-- A request with these headers. -/
theorem forwarded_headers_example :
    (∀ entry ∈ (stripHopByHopHeaders plainRuntime exampleHeaders).entries,
      ¬NamedByConnection plainRuntime exampleHeaders entry.1.val) ∧
    ∃ options, handleHttpRequest plainRuntime
        (fun _ ↦ some ⟨"http:".toList, "example.com".toList, some 8080, "/".toList, []⟩)
        (fun request ↦ .ok ⟨"93.184.216.34".toList, .ipv4, request.host, request.port⟩)
        ⟨"GET".toList, "http://example.com:8080/".toList, exampleHeaders⟩ = .upstream options ∧
      options.headers.get hostName = some (some (.text "example.com:8080".toList)) := by
  have hforwarded := forwarded_headers plainRuntime
  have hnames : LowerCaseNames plainRuntime exampleHeaders := by
    unfold LowerCaseNames
    decide
  refine ⟨fun entry hentry ↦ (((hforwarded.1 _ hnames).1 entry).mp hentry).2.2.2, _, rfl, ?_⟩
  obtain ⟨url, target, hurl, -, -, -, hhost, -⟩ := hforwarded.2
    (fun _ ↦ some ⟨"http:".toList, "example.com".toList, some 8080, "/".toList, []⟩)
    (fun request ↦ .ok ⟨"93.184.216.34".toList, .ipv4, request.host, request.port⟩)
    ⟨"GET".toList, "http://example.com:8080/".toList, exampleHeaders⟩ _ rfl
  rw [hhost, ← Option.some.inj hurl]
  rfl

end CoreUtils.Clearance
