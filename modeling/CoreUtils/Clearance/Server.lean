import CoreUtils.Clearance.ConnectTarget
import CoreUtils.Clearance.EgressSafety
import CoreUtils.Clearance.HeaderForwarding

/-!
# The proxy server

`handleConnect` and `handleHttpRequest` of `index.ts` as they run for many clients at once. A
handler is suspended while `authorize` waits for a lookup, while its upstream connects, and while
bytes are piped; `serve` is one step of one of them. The clients share the DNS cache. Timeouts are
errors of the upstream or the client closing; the ends of pipes are left out.
-/

namespace CoreUtils.Clearance

/-- Bytes on a connection. -/
abbrev Bytes := List UInt8

/-! ## What the handlers write -/

/-- What is logged about a request that is let through or refused. -/
structure DecisionLogInput where
  allowed : Bool
  hostname : Host
  method : Text
  port : ℕ
  address : Option Text
  reason : Option Text
  deriving DecidableEq

/-- What a handler writes to its client ahead of piped bytes: `socketReply`, the line that
establishes a tunnel, `httpReply`, or the head of a response. -/
inductive Reply where
  | socketReply (status : ℕ) (reason body : Text)
  | established
  | httpReply (status : ℕ) (body : Text)
  | writeHead (status : ℕ) (headers : HttpHeaders)

/-- What a client asks the server for; with CONNECT, the first bytes may come along. -/
inductive ClientRequest where
  | connect (url : Text) (head : Bytes)
  | http (req : HttpRequest)

/-- The method of a request. -/
def ClientRequest.method : ClientRequest → Text
  | .connect _ _ => "CONNECT".toList
  | .http req => req.method

/-- What a handler opens: a socket, or a request to a server. -/
inductive Upstream where
  | socket (target : Target)
  | request (target : Target) (options : RequestOptions)

/-- The target of an upstream. -/
def Upstream.target : Upstream → Target
  | .socket target => target
  | .request target _ => target

/-! ## Connections -/

/-- Where a handler is. -/
inductive HandlerPhase (Time : Type) where
  | authorizing (lookup : Lookup Time)
  | opening
  | piping
  | closed

/-- A client with its handler: what has been decided, written and piped for it. The bytes of the
client that the handler has not passed on are buffered. `received` and `arrived` have all bytes that
have come from the client and from the upstream. -/
structure Connection (Time : Type) where
  request : ClientRequest
  phase : HandlerPhase Time
  clientOpen : Bool
  upstream : Option Upstream
  decisions : List DecisionLogInput
  replies : List Reply
  buffered : Bytes
  sent : Bytes
  delivered : Bytes
  received : Bytes
  arrived : Bytes

namespace Connection

variable {Time : Type}

/-- A handler before its first step. -/
def start (request : ClientRequest) : Connection Time where
  request := request
  phase := .closed
  clientOpen := true
  upstream := none
  decisions := []
  replies := []
  buffered := match request with | .connect _ head => head | .http _ => []
  sent := []
  delivered := []
  received := match request with | .connect _ head => head | .http _ => []
  arrived := []

/-- Write to the client, if it is there. -/
def write (connection : Connection Time) (reply : Reply) : Connection Time :=
  if connection.clientOpen then { connection with replies := connection.replies ++ [reply] }
  else connection

/-- Reply, and be done. -/
def finish (connection : Connection Time) (reply : Reply) : Connection Time :=
  { connection.write reply with phase := .closed }

/-- Log a decision. -/
def log (connection : Connection Time) (input : DecisionLogInput) : Connection Time :=
  { connection with decisions := connection.decisions ++ [input] }

/-- The decision to allow a target. -/
def allow (connection : Connection Time) (target : Target) : Connection Time :=
  connection.log
    { allowed := true
      hostname := target.hostname
      method := connection.request.method
      port := target.port
      address := some target.address
      reason := none }

/-- Pass on what is buffered. -/
def flush (connection : Connection Time) : Connection Time :=
  { connection with sent := connection.sent ++ connection.buffered, buffered := [] }

end Connection

/-- What the handlers use of the platform: the case of texts, and `new URL`, which says nothing
where that throws. -/
structure ServerPlatform where
  runtime : Runtime
  parseURL : Text → Option URL

variable {Time : Type}

/-! ## The handlers -/

/-- A handler up to `authorize`: what it asks for, or its reply to a request that is malformed. -/
def beginRequest (platform : ServerPlatform) : ClientRequest → Except Reply Request
  | .connect url _ =>
      match parseConnectTarget url with
      | none => .error (.socketReply 400 "Bad Request".toList "Bad CONNECT target\n".toList)
      | some parsed => .ok parsed
  | .http req =>
      match platform.parseURL req.url with
      | none => .error (.httpReply 400 "HTTP proxy requests must use absolute URLs\n".toList)
      | some url =>
          if url.protocol ≠ "http:".toList then
            .error (.httpReply 400 "Use CONNECT for HTTPS\n".toList)
          else .ok url.request

/-- The reply to a request that is denied. -/
def denied (reason : Text) : ClientRequest → Reply
  | .connect _ _ => .socketReply 403 "Forbidden".toList (reason ++ ['\n'])
  | .http _ => .httpReply 403 (reason ++ ['\n'])

/-- A handler after `authorize`: it denies the request, or opens its upstream. The body of an HTTP
request is piped at once. -/
def resume (platform : ServerPlatform) (connection : Connection Time) (asked : Request) :
    Except String Target → Connection Time
  | .error reason =>
      (connection.log
        { allowed := false
          hostname := asked.host
          method := connection.request.method
          port := asked.port
          address := none
          reason := some reason.toList }).finish (denied reason.toList connection.request)
  | .ok target =>
      match connection.request with
      | .connect _ _ => { connection with phase := .opening, upstream := some (.socket target) }
      | .http req =>
          match handleHttpRequest platform.runtime platform.parseURL (fun _ ↦ .ok target) req with
          | .reply status body => connection.finish (.httpReply status body)
          | .upstream options =>
              { connection.flush with
                phase := .opening
                upstream := some (.request target options) }

/-- The upstream of a CONNECT connects. -/
def onConnect (connection : Connection Time) : Option (Connection Time) :=
  match connection.phase, connection.upstream with
  | .opening, some (.socket target) =>
      some { ((connection.allow target).write .established).flush with phase := .piping }
  | _, _ => none

/-- The upstream of an HTTP request responds. -/
def onResponse (platform : ServerPlatform) (connection : Connection Time) (statusCode : ℕ)
    (headers : HttpHeaders) : Option (Connection Time) :=
  match connection.phase, connection.upstream with
  | .opening, some (.request target _) =>
      some { (connection.allow target).write (.writeHead statusCode
        (stripHopByHopHeaders platform.runtime headers)) with phase := .piping }
  | _, _ => none

/-- The upstream ends with an error. Once its bytes are piped, the client is destroyed. -/
def onError (connection : Connection Time) (message : Text) : Option (Connection Time) :=
  match connection.phase, connection.upstream with
  | .opening, some (.socket _) =>
      some (connection.finish (.socketReply 502 "Bad Gateway".toList (message ++ ['\n'])))
  | .opening, some (.request _ _) => some (connection.finish (.httpReply 502 (message ++ ['\n'])))
  | .piping, _ => some { connection with phase := .closed, clientOpen := false }
  | _, _ => none

/-- Bytes come from the client. They are passed on where they are piped, and wait otherwise. -/
def onClientData (connection : Connection Time) (bytes : Bytes) : Option (Connection Time) :=
  if connection.clientOpen then
    let buffered : Connection Time :=
      { connection with
        received := connection.received ++ bytes
        buffered := connection.buffered ++ bytes }
    match connection.phase, connection.upstream with
    | .piping, _ => some buffered.flush
    | .opening, some (.request _ _) => some buffered.flush
    | _, _ => some buffered
  else none

/-- Bytes come from the upstream, which is being piped. -/
def onUpstreamData (connection : Connection Time) (bytes : Bytes) : Option (Connection Time) :=
  match connection.phase with
  | .piping => some
      { connection with
        arrived := connection.arrived ++ bytes
        delivered :=
          if connection.clientOpen then connection.delivered ++ bytes else connection.delivered }
  | _ => none

/-- The client closes. An upstream that is open is destroyed; a handler that waits for a lookup does
not notice, and opens its upstream later. -/
def onClose (connection : Connection Time) : Option (Connection Time) :=
  if connection.clientOpen then
    match connection.phase with
    | .authorizing _ => some { connection with clientOpen := false }
    | _ => some { connection with clientOpen := false, phase := .closed }
  else none

/-! ## The server -/

/-- The state of the server: the DNS cache and the connections, by their numbers. -/
structure ServerState (Time : Type) where
  dnsCache : OrderedMap Host (DnsCacheEntry Time)
  connections : List (Connection Time)

/-- What reaches the server. -/
inductive ServerAction (Time : Type) where
  /-- A client sends a request. -/
  | request (request : ClientRequest) (nowMs : Time)
  /-- The lookup of a connection returns. -/
  | answer (number : ℕ) (lookupRecords : List LookupAddress)
  /-- The lookup of a connection throws. -/
  | fail (number : ℕ) (message : String)
  | connect (number : ℕ)
  | response (number statusCode : ℕ) (headers : HttpHeaders)
  | error (number : ℕ) (message : Text)
  | clientData (number : ℕ) (bytes : Bytes)
  | upstreamData (number : ℕ) (bytes : Bytes)
  | close (number : ℕ)

/-- A handler of one connection takes a step. -/
def ServerState.update (s : ServerState Time) (number : ℕ)
    (step : Connection Time → Option (Connection Time)) : Option (ServerState Time) := do
  let connection ← s.connections[number]?
  let next ← step connection
  return { s with connections := s.connections.set number next }

section Serving

variable [AddCommGroup Time] [LinearOrder Time]

/-- What `authorize` returns or throws after its lookup. -/
def lookupOutcome (config : ProxyConfig Time) (lookup : Lookup Time)
    (lookupRecords : List LookupAddress) : Except String Target :=
  match publicRecords config lookupRecords with
  | [] => .error ("no public address for " ++ String.ofList lookup.hostname)
  | firstRecord :: _ => .ok (targetOf lookup.request lookup.hostname firstRecord)

/-- The DNS cache after a lookup. -/
def cacheLookup (config : ProxyConfig Time) (dnsCache : OrderedMap Host (DnsCacheEntry Time))
    (lookup : Lookup Time) (lookupRecords : List LookupAddress) :
    OrderedMap Host (DnsCacheEntry Time) :=
  match publicRecords config lookupRecords with
  | firstRecord :: others =>
      if config.dnsTtlMs > 0 then
        dnsCache.set lookup.hostname ⟨firstRecord :: others, lookup.nowMs + config.dnsTtlMs⟩
      else dnsCache
  | [] => dnsCache

/-- A client sends a request: its handler runs until it waits. -/
def acceptRequest (platform : ServerPlatform) (config : ProxyConfig Time)
    (dnsCache : OrderedMap Host (DnsCacheEntry Time)) (request : ClientRequest) (nowMs : Time) :
    Connection Time × OrderedMap Host (DnsCacheEntry Time) :=
  let connection : Connection Time := Connection.start request
  match beginRequest platform request with
  | .error reply => (connection.finish reply, dnsCache)
  | .ok asked =>
      match beginAuthorize platform.runtime config dnsCache asked nowMs with
      | .error message => (resume platform connection asked (.error message), dnsCache)
      | .ok (hostname, .record record _, dnsCache) =>
          (resume platform connection asked (.ok (targetOf asked hostname record)), dnsCache)
      | .ok (hostname, .lookup, dnsCache) =>
          ({ connection with phase := .authorizing ⟨asked, hostname, nowMs⟩ }, dnsCache)

/-- One step of the server. -/
def serve (platform : ServerPlatform) (config : ProxyConfig Time) (s : ServerState Time) :
    ServerAction Time → Option (ServerState Time)
  | .request request nowMs =>
      let accepted := acceptRequest platform config s.dnsCache request nowMs
      some { dnsCache := accepted.2, connections := s.connections ++ [accepted.1] }
  | .answer number lookupRecords => do
      let connection ← s.connections[number]?
      match connection.phase with
      | .authorizing lookup =>
          let next := resume platform connection lookup.request
            (lookupOutcome config lookup lookupRecords)
          some
            { dnsCache := cacheLookup config s.dnsCache lookup lookupRecords
              connections := s.connections.set number next }
      | _ => none
  | .fail number message => s.update number fun connection ↦
      match connection.phase with
      | .authorizing lookup => some (resume platform connection lookup.request (.error message))
      | _ => none
  | .connect number => s.update number onConnect
  | .response number statusCode headers => s.update number fun connection ↦
      onResponse platform connection statusCode headers
  | .error number message => s.update number fun connection ↦ onError connection message
  | .clientData number bytes => s.update number fun connection ↦ onClientData connection bytes
  | .upstreamData number bytes => s.update number fun connection ↦ onUpstreamData connection bytes
  | .close number => s.update number onClose

/-- A server without clients. -/
def ServerState.initial : ServerState Time := ⟨OrderedMap.empty, []⟩

end Serving

end CoreUtils.Clearance
