import CoreUtils.Clearance.Server

/-!
# What the proxy server does for its clients

Two results about every interleaving of clients, lookups, upstreams and closing sockets. The
handlers ask for targets as the machine of `Egress` does (`exists_proxy`), so no client is connected
to what is not allowed; and each connection is decided and replied to at most once, and passes on
all bytes in their order (`Connection.Valid`). `serve_safe` puts them together.
-/

namespace CoreUtils.Clearance

open Transition

variable {Time : Type} {platform : ServerPlatform} {config : ProxyConfig Time}

/-! ## Stages of a connection -/

/-- An error is replied. -/
def Reply.IsError : Reply → Prop
  | .socketReply _ _ _ | .httpReply _ _ => True
  | .established | .writeHead _ _ => False

/-- The decision to allow a target to a request. -/
def allowed (request : ClientRequest) (target : Target) : DecisionLogInput where
  allowed := true
  hostname := target.hostname
  method := request.method
  port := target.port
  address := some target.address
  reason := none

/-- Nothing has been decided or replied, and nothing has come from the upstream. -/
structure Connection.Quiet (c : Connection Time) : Prop where
  decisions : c.decisions = []
  replies : c.replies = []
  arrived : c.arrived = []
  delivered : c.delivered = []

/-- Nothing has been sent through a tunnel that is not established. -/
def Connection.Held (c : Connection Time) : Prop :=
  ∀ target, c.upstream = some (.socket target) → c.sent = []

/-- An error was replied, unless the client was gone. -/
structure Connection.Refused (c : Connection Time) : Prop where
  errors : ∀ reply ∈ c.replies, reply.IsError
  once : c.replies.length ≤ 1
  replied : c.clientOpen = true → c.replies ≠ []

/-- What a connection has been through. -/
inductive Connection.Stage (platform : ServerPlatform) (c : Connection Time) : Prop where
  | authorizing {lookup : Lookup Time} (hphase : c.phase = .authorizing lookup)
      (hbegin : beginRequest platform c.request = .ok lookup.request) (hquiet : c.Quiet)
      (hupstream : c.upstream = none) (hsent : c.sent = [])
  | opening {upstream : Upstream} (hphase : c.phase = .opening) (hquiet : c.Quiet)
      (hupstream : c.upstream = some upstream) (hheld : c.Held)
  | piping {upstream : Upstream} (hphase : c.phase = .piping)
      (hupstream : c.upstream = some upstream)
      (hdecisions : c.decisions = [allowed c.request upstream.target])
      (hheads : ∀ reply ∈ c.replies, ¬reply.IsError) (honce : c.replies.length ≤ 1)
      (hreplied : c.clientOpen = true → c.replies ≠ [])
  | refused (hphase : c.phase = .closed) (hupstream : c.upstream = none) (hsent : c.sent = [])
      (hdenied : ∀ decision ∈ c.decisions, decision.allowed = false)
      (hdecided : c.decisions.length ≤ 1) (harrived : c.arrived = []) (hrefused : c.Refused)
  | failed {upstream : Upstream} (hphase : c.phase = .closed)
      (hupstream : c.upstream = some upstream) (hheld : c.Held) (hdecisions : c.decisions = [])
      (harrived : c.arrived = []) (hrefused : c.Refused)
  | ended {upstream : Upstream} (hphase : c.phase = .closed)
      (hupstream : c.upstream = some upstream)
      (hdecisions : c.decisions = [allowed c.request upstream.target])
      (hheads : ∀ reply ∈ c.replies, ¬reply.IsError) (honce : c.replies.length ≤ 1)
      (hgone : c.clientOpen = false)

/-- The invariant of a connection: no byte is lost, added or moved, and it is at one of the
stages. -/
structure Connection.Valid (platform : ServerPlatform) (c : Connection Time) : Prop where
  received : c.received = c.sent ++ c.buffered
  delivered : c.clientOpen = true → c.delivered = c.arrived
  stage : c.Stage platform

namespace Connection

variable {c c' : Connection Time}

/-- Writing changes the replies only. -/
theorem write_eq (c : Connection Time) (reply : Reply) :
    c.write reply =
      { c with replies := if c.clientOpen then c.replies ++ [reply] else c.replies } := by
  unfold write
  split <;> rfl

/-- The first reply, if it is an error, is that of a refused connection. -/
theorem refused_of_finish {reply : Reply} (hreply : reply.IsError) (hreplies : c.replies = []) :
    (c.finish reply).Refused := by
  rw [finish, write_eq, hreplies]
  cases hopen : c.clientOpen with
  | false => exact ⟨by simp, by simp, by simp⟩
  | true => exact ⟨by simpa using hreply, by simp, by simp⟩

/-- A connection whose handler has not opened anything. -/
structure Fresh (c : Connection Time) : Prop where
  quiet : c.Quiet
  upstream : c.upstream = none
  sent : c.sent = []
  received : c.received = c.buffered

/-- A connection is fresh at its start. -/
theorem fresh_start (request : ClientRequest) : (start request : Connection Time).Fresh :=
  ⟨⟨rfl, rfl, rfl, rfl⟩, rfl, rfl, rfl⟩

/-- Replying an error to a fresh connection. -/
theorem Fresh.finish (h : c.Fresh) {reply : Reply} (hreply : reply.IsError) :
    (c.finish reply).Valid platform := by
  have hrefused := refused_of_finish hreply h.quiet.replies
  rw [Connection.finish, write_eq] at hrefused ⊢
  exact
    { received := by rw [h.sent, h.received]; rfl
      delivered := fun _ ↦ h.quiet.delivered.trans h.quiet.arrived.symm
      stage := .refused rfl h.upstream h.sent (by simp [h.quiet.decisions])
        (by simp [h.quiet.decisions]) h.quiet.arrived hrefused }

/-- Denying a fresh connection. -/
theorem Fresh.deny (h : c.Fresh) {input : DecisionLogInput} (hinput : input.allowed = false)
    {reply : Reply} (hreply : reply.IsError) :
    ((c.log input).finish reply).Valid platform := by
  have hrefused := refused_of_finish (c := c.log input) hreply h.quiet.replies
  rw [Connection.finish, write_eq] at hrefused ⊢
  exact
    { received := by
        show c.received = c.sent ++ c.buffered
        rw [h.sent, h.received]
        rfl
      delivered := fun _ ↦ h.quiet.delivered.trans h.quiet.arrived.symm
      stage := .refused rfl h.upstream h.sent (by simp [Connection.log, h.quiet.decisions, hinput])
        (by simp [Connection.log, h.quiet.decisions]) h.quiet.arrived hrefused }

/-- A handler goes on after `authorize`. -/
theorem Fresh.resume (h : c.Fresh) (asked : Request) (result : Except String Target) :
    (resume platform c asked result).Valid platform := by
  cases result with
  | error reason =>
      refine h.deny rfl ?_
      cases c.request <;> trivial
  | ok target =>
      simp only [Clearance.resume]
      split
      next hrequest =>
        exact
          { received := by
              show c.received = c.sent ++ c.buffered
              rw [h.sent, h.received]
              rfl
            delivered := fun _ ↦ h.quiet.delivered.trans h.quiet.arrived.symm
            stage := .opening rfl ⟨h.quiet.decisions, h.quiet.replies, h.quiet.arrived,
              h.quiet.delivered⟩ rfl fun _ _ ↦ h.sent }
      next req hrequest =>
        split
        next status body _ => exact h.finish trivial
        next options _ =>
          exact
            { received := by
                show c.received = (c.sent ++ c.buffered) ++ []
                rw [h.sent, h.received, List.append_nil]
                rfl
              delivered := fun _ ↦ h.quiet.delivered.trans h.quiet.arrived.symm
              stage := .opening rfl ⟨h.quiet.decisions, h.quiet.replies, h.quiet.arrived,
                h.quiet.delivered⟩ rfl fun _ hsocket ↦ by cases hsocket }

/-- A connection that waits for a lookup is fresh. -/
theorem Valid.fresh (h : c.Valid platform) {lookup : Lookup Time}
    (hphase : c.phase = .authorizing lookup) :
    c.Fresh ∧ beginRequest platform c.request = .ok lookup.request := by
  cases h.stage with
  | @authorizing other hother hbegin hquiet hupstream hsent =>
      obtain rfl : lookup = other := HandlerPhase.authorizing.inj (hphase.symm.trans hother)
      exact ⟨⟨hquiet, hupstream, hsent, by rw [h.received, hsent]; rfl⟩, hbegin⟩
  | opening hother => simp [hphase] at hother
  | piping hother => simp [hphase] at hother
  | refused hother => simp [hphase] at hother
  | failed hother => simp [hphase] at hother
  | ended hother => simp [hphase] at hother

/-- A connection whose upstream is opening. -/
theorem Valid.of_opening (h : c.Valid platform) (hphase : c.phase = .opening) :
    c.Quiet ∧ c.Held := by
  cases h.stage with
  | opening _ hquiet _ hheld => exact ⟨hquiet, hheld⟩
  | authorizing hother => simp [hphase] at hother
  | piping hother => simp [hphase] at hother
  | refused hother => simp [hphase] at hother
  | failed hother => simp [hphase] at hother
  | ended hother => simp [hphase] at hother

/-- The facts about a connection that is being piped. -/
structure Piped (c : Connection Time) (opened : Upstream) : Prop where
  upstream : c.upstream = some opened
  decisions : c.decisions = [allowed c.request opened.target]
  heads : ∀ reply ∈ c.replies, ¬reply.IsError
  once : c.replies.length ≤ 1
  replied : c.clientOpen = true → c.replies ≠ []

/-- A connection that is being piped. -/
theorem Valid.of_piping (h : c.Valid platform) (hphase : c.phase = .piping) :
    ∃ upstream, c.Piped upstream := by
  cases h.stage with
  | piping _ hupstream hdecisions hheads honce hreplied =>
      exact ⟨_, hupstream, hdecisions, hheads, honce, hreplied⟩
  | authorizing hother => simp [hphase] at hother
  | opening hother => simp [hphase] at hother
  | refused hother => simp [hphase] at hother
  | failed hother => simp [hphase] at hother
  | ended hother => simp [hphase] at hother

/-- Allowing a quiet connection and writing the head of what follows. -/
theorem Quiet.piped (h : c.Quiet) {upstream : Upstream} (hupstream : c.upstream = some upstream)
    {reply : Reply} (hreply : ¬reply.IsError) :
    ((c.allow upstream.target).write reply).Piped upstream := by
  have hreplies : (c.allow upstream.target).replies = [] := h.replies
  have hdecisions : (c.allow upstream.target).decisions =
      [allowed c.request upstream.target] := by
    rw [allow, log, h.decisions]
    rfl
  rw [write_eq, hreplies]
  cases hopen : (c.allow upstream.target).clientOpen with
  | false => exact ⟨hupstream, hdecisions, by simp, by simp, fun hclient ↦ by simp at hclient⟩
  | true => exact ⟨hupstream, hdecisions, by simpa using hreply, by simp, by simp⟩

/-- A tunnel is established. -/
theorem Valid.onConnect (h : c.Valid platform) (hnext : onConnect c = some c') :
    c'.Valid platform := by
  unfold Clearance.onConnect at hnext
  split at hnext
  next target hphase hupstream =>
    obtain rfl := Option.some.inj hnext
    obtain ⟨hquiet, -⟩ := h.of_opening hphase
    have hpiped : ((c.allow target).write .established).Piped (.socket target) :=
      hquiet.piped hupstream not_false
    have hwrite := write_eq (c.allow target) .established
    exact
      { received := by
          rw [hwrite]
          show c.received = (c.sent ++ c.buffered) ++ []
          rw [List.append_nil, h.received]
        delivered := by
          rw [hwrite]
          exact h.delivered
        stage := .piping rfl hpiped.upstream hpiped.decisions hpiped.heads hpiped.once
          hpiped.replied }
  next => contradiction

/-- The upstream of an HTTP request responds. -/
theorem Valid.onResponse (h : c.Valid platform) {statusCode : ℕ} {headers : HttpHeaders}
    (hnext : onResponse platform c statusCode headers = some c') : c'.Valid platform := by
  unfold Clearance.onResponse at hnext
  split at hnext
  next target options hphase hupstream =>
    obtain rfl := Option.some.inj hnext
    obtain ⟨hquiet, -⟩ := h.of_opening hphase
    have hpiped : ((c.allow target).write (.writeHead statusCode
        (stripHopByHopHeaders platform.runtime headers))).Piped (.request target options) :=
      hquiet.piped hupstream not_false
    have hwrite := write_eq (c.allow target) (.writeHead statusCode
      (stripHopByHopHeaders platform.runtime headers))
    exact
      { received := by
          rw [hwrite]
          exact h.received
        delivered := by
          rw [hwrite]
          exact h.delivered
        stage := .piping rfl hpiped.upstream hpiped.decisions hpiped.heads hpiped.once
          hpiped.replied }
  next => contradiction

/-- The upstream ends with an error. -/
theorem Valid.onError (h : c.Valid platform) {message : Text}
    (hnext : onError c message = some c') : c'.Valid platform := by
  have hfailed : ∀ {upstream : Upstream} {reply : Reply}, c.phase = .opening →
      c.upstream = some upstream → reply.IsError → (c.finish reply).Valid platform := by
    intro upstream reply hphase hupstream hreply
    obtain ⟨hquiet, hheld⟩ := h.of_opening hphase
    have hrefused := refused_of_finish hreply hquiet.replies
    rw [finish, write_eq] at hrefused ⊢
    exact
      { received := h.received
        delivered := h.delivered
        stage := .failed rfl hupstream hheld hquiet.decisions hquiet.arrived hrefused }
  unfold Clearance.onError at hnext
  split at hnext
  next target hphase hupstream =>
    obtain rfl := Option.some.inj hnext
    exact hfailed hphase hupstream trivial
  next target options hphase hupstream =>
    obtain rfl := Option.some.inj hnext
    exact hfailed hphase hupstream trivial
  next hphase =>
    obtain rfl := Option.some.inj hnext
    obtain ⟨upstream, hpiped⟩ := h.of_piping hphase
    exact
      { received := h.received
        delivered := fun hopen ↦ by simp at hopen
        stage := .ended rfl hpiped.upstream hpiped.decisions hpiped.heads hpiped.once rfl }
  next => contradiction

/-- What waits in the buffer does not matter to a stage. -/
theorem Stage.buffer (h : c.Stage platform) (received buffered : Bytes) :
    ({ c with received := received, buffered := buffered } : Connection Time).Stage platform := by
  cases h with
  | authorizing hphase hbegin hquiet hupstream hsent =>
      exact .authorizing hphase hbegin ⟨hquiet.1, hquiet.2, hquiet.3, hquiet.4⟩ hupstream hsent
  | opening hphase hquiet hupstream hheld =>
      exact .opening hphase ⟨hquiet.1, hquiet.2, hquiet.3, hquiet.4⟩ hupstream hheld
  | piping hphase hupstream hdecisions hheads honce hreplied =>
      exact .piping hphase hupstream hdecisions hheads honce hreplied
  | refused hphase hupstream hsent hdenied hdecided harrived hrefused =>
      exact .refused hphase hupstream hsent hdenied hdecided harrived
        ⟨hrefused.1, hrefused.2, hrefused.3⟩
  | failed hphase hupstream hheld hdecisions harrived hrefused =>
      exact .failed hphase hupstream hheld hdecisions harrived
        ⟨hrefused.1, hrefused.2, hrefused.3⟩
  | ended hphase hupstream hdecisions hheads honce hgone =>
      exact .ended hphase hupstream hdecisions hheads honce hgone

/-- Bytes wait in the buffer. -/
theorem Valid.buffer (h : c.Valid platform) (bytes : Bytes) :
    ({ c with
      received := c.received ++ bytes
      buffered := c.buffered ++ bytes } : Connection Time).Valid platform where
  received := by
    show c.received ++ bytes = c.sent ++ (c.buffered ++ bytes)
    rw [h.received, List.append_assoc]
  delivered := h.delivered
  stage := h.stage.buffer _ _

/-- The buffer is passed on, where that is no tunnel or an established one. -/
theorem Valid.flush (h : c.Valid platform)
    (hopen : c.phase = .piping ∨ c.phase = .opening ∧
      ∃ target options, c.upstream = some (.request target options)) :
    c.flush.Valid platform where
  received := by
    show c.received = (c.sent ++ c.buffered) ++ []
    rw [List.append_nil, h.received]
  delivered := h.delivered
  stage := by
    rcases hopen with hphase | ⟨hphase, target, options, hupstream⟩
    · obtain ⟨upstream, hpiped⟩ := h.of_piping hphase
      exact .piping hphase hpiped.upstream hpiped.decisions hpiped.heads hpiped.once hpiped.replied
    · obtain ⟨hquiet, -⟩ := h.of_opening hphase
      refine .opening hphase ⟨hquiet.1, hquiet.2, hquiet.3, hquiet.4⟩ hupstream
        fun other hother ↦ ?_
      have hsocket : c.upstream = some (.socket other) := hother
      simp [hupstream] at hsocket

/-- Bytes come from the client. -/
theorem Valid.onClientData (h : c.Valid platform) {bytes : Bytes}
    (hnext : onClientData c bytes = some c') : c'.Valid platform := by
  unfold Clearance.onClientData at hnext
  split at hnext
  next =>
    simp only at hnext
    split at hnext
    next hphase =>
      obtain rfl := Option.some.inj hnext
      exact (h.buffer bytes).flush (.inl hphase)
    next target options hphase hupstream =>
      obtain rfl := Option.some.inj hnext
      exact (h.buffer bytes).flush (.inr ⟨hphase, target, options, hupstream⟩)
    next =>
      obtain rfl := Option.some.inj hnext
      exact h.buffer bytes
  next => contradiction

/-- Bytes come from the upstream. -/
theorem Valid.onUpstreamData (h : c.Valid platform) {bytes : Bytes}
    (hnext : onUpstreamData c bytes = some c') : c'.Valid platform := by
  unfold Clearance.onUpstreamData at hnext
  split at hnext
  next hphase =>
    obtain rfl := Option.some.inj hnext
    obtain ⟨upstream, hpiped⟩ := h.of_piping hphase
    exact
      { received := h.received
        delivered := fun hopen ↦ by
          have hopen' : c.clientOpen = true := hopen
          show (if c.clientOpen then c.delivered ++ bytes else c.delivered) = c.arrived ++ bytes
          rw [if_pos hopen', h.delivered hopen']
        stage := .piping hphase hpiped.upstream hpiped.decisions hpiped.heads hpiped.once
          hpiped.replied }
  next => contradiction

/-- The client closes. -/
theorem Valid.onClose (h : c.Valid platform) (hnext : onClose c = some c') :
    c'.Valid platform := by
  unfold Clearance.onClose at hnext
  split at hnext
  next hopen =>
    split at hnext
    next lookup hphase =>
      obtain rfl := Option.some.inj hnext
      obtain ⟨hfresh, hbegin⟩ := h.fresh hphase
      have hquiet := hfresh.quiet
      exact
        { received := h.received
          delivered := fun hclient ↦ by simp at hclient
          stage := .authorizing hphase hbegin ⟨hquiet.1, hquiet.2, hquiet.3, hquiet.4⟩
            hfresh.upstream hfresh.sent }
    next hwaits =>
      obtain rfl := Option.some.inj hnext
      refine ⟨h.received, fun hclient ↦ by simp at hclient, ?_⟩
      cases h.stage with
      | authorizing hphase => exact absurd hphase (hwaits _)
      | opening hphase hquiet hupstream hheld =>
          exact .failed rfl hupstream hheld hquiet.decisions hquiet.arrived
            ⟨by simp [hquiet.replies], by simp [hquiet.replies], fun hclient ↦ by simp at hclient⟩
      | piping hphase hupstream hdecisions hheads honce hreplied =>
          exact .ended rfl hupstream hdecisions hheads honce rfl
      | refused hphase hupstream hsent hdenied hdecided harrived hrefused =>
          exact .refused rfl hupstream hsent hdenied hdecided harrived
            ⟨hrefused.errors, hrefused.once, fun hclient ↦ by simp at hclient⟩
      | failed hphase hupstream hheld hdecisions harrived hrefused =>
          exact .failed rfl hupstream hheld hdecisions harrived
            ⟨hrefused.errors, hrefused.once, fun hclient ↦ by simp at hclient⟩
      | ended hphase hupstream hdecisions hheads honce hgone =>
          exact .ended rfl hupstream hdecisions hheads honce rfl
  next => contradiction

end Connection

/-! ## Steps of the server -/

/-- A step of a handler that does not wait for `authorize`. -/
inductive LocalStep (platform : ServerPlatform) (c c' : Connection Time) : Prop where
  | connect (h : onConnect c = some c')
  | response {statusCode : ℕ} {headers : HttpHeaders}
      (h : onResponse platform c statusCode headers = some c')
  | error {message : Text} (h : onError c message = some c')
  | clientData {bytes : Bytes} (h : onClientData c bytes = some c')
  | upstreamData {bytes : Bytes} (h : onUpstreamData c bytes = some c')
  | close (h : onClose c = some c')

variable [AddCommGroup Time] [LinearOrder Time] {s s' : ServerState Time}

/-- The records that an action brings match their families. -/
def ServerAction.Matches : ServerAction Time → Prop
  | .answer _ lookupRecords => MatchesFamilies lookupRecords
  | _ => True

/-- Whether they match can be checked. -/
instance (a : ServerAction Time) : Decidable a.Matches := by
  unfold ServerAction.Matches
  split
  · infer_instance
  · infer_instance

/-- What a step of the server does, when the records of its answers match their families. -/
inductive Serves (platform : ServerPlatform) (config : ProxyConfig Time) (s : ServerState Time) :
    ServerState Time → Prop where
  | accept (request : ClientRequest) (nowMs : Time) :
      Serves platform config s
        { dnsCache := (acceptRequest platform config s.dnsCache request nowMs).2
          connections :=
            s.connections ++ [(acceptRequest platform config s.dnsCache request nowMs).1] }
  | answer {number : ℕ} {connection : Connection Time} {lookup : Lookup Time}
      (lookupRecords : List LookupAddress) (hthere : s.connections[number]? = some connection)
      (hphase : connection.phase = .authorizing lookup)
      (hmatches : MatchesFamilies lookupRecords) :
      Serves platform config s
        { dnsCache := cacheLookup config s.dnsCache lookup lookupRecords
          connections := s.connections.set number
            (resume platform connection lookup.request
              (lookupOutcome config lookup lookupRecords)) }
  | fail {number : ℕ} {connection : Connection Time} {lookup : Lookup Time} (message : String)
      (hthere : s.connections[number]? = some connection)
      (hphase : connection.phase = .authorizing lookup) :
      Serves platform config s
        { s with
          connections := s.connections.set number
            (resume platform connection lookup.request (.error message)) }
  | handle {number : ℕ} {connection next : Connection Time}
      (hthere : s.connections[number]? = some connection)
      (hstep : LocalStep platform connection next) :
      Serves platform config s { s with connections := s.connections.set number next }

omit [AddCommGroup Time] [LinearOrder Time] in
/-- An update of one connection. -/
theorem update_eq_some {number : ℕ} {step : Connection Time → Option (Connection Time)}
    (h : s.update number step = some s') :
    ∃ connection next, s.connections[number]? = some connection ∧ step connection = some next ∧
      s' = { s with connections := s.connections.set number next } := by
  obtain ⟨connection, hthere, h⟩ := Option.bind_eq_some_iff.mp h
  obtain ⟨next, hnext, h⟩ := Option.bind_eq_some_iff.mp h
  exact ⟨connection, next, hthere, hnext, (Option.some.inj h).symm⟩

/-- Every step of the server is one of these. -/
theorem serves_of_serve {a : ServerAction Time} (h : serve platform config s a = some s')
    (hmatches : a.Matches) : Serves platform config s s' := by
  cases a with
  | request request nowMs =>
      obtain rfl := Option.some.inj h
      exact .accept request nowMs
  | answer number lookupRecords =>
      obtain ⟨connection, hthere, h⟩ := Option.bind_eq_some_iff.mp h
      split at h
      next lookup hphase =>
        obtain rfl := Option.some.inj h
        exact .answer lookupRecords hthere hphase hmatches
      next => contradiction
  | fail number message =>
      obtain ⟨connection, next, hthere, hnext, rfl⟩ := update_eq_some h
      split at hnext
      next lookup hphase =>
        obtain rfl := Option.some.inj hnext
        exact .fail message hthere hphase
      next => contradiction
  | connect number =>
      obtain ⟨connection, next, hthere, hnext, rfl⟩ := update_eq_some h
      exact .handle hthere (.connect hnext)
  | response number statusCode headers =>
      obtain ⟨connection, next, hthere, hnext, rfl⟩ := update_eq_some h
      exact .handle hthere (.response hnext)
  | error number message =>
      obtain ⟨connection, next, hthere, hnext, rfl⟩ := update_eq_some h
      exact .handle hthere (.error hnext)
  | clientData number bytes =>
      obtain ⟨connection, next, hthere, hnext, rfl⟩ := update_eq_some h
      exact .handle hthere (.clientData hnext)
  | upstreamData number bytes =>
      obtain ⟨connection, next, hthere, hnext, rfl⟩ := update_eq_some h
      exact .handle hthere (.upstreamData hnext)
  | close number =>
      obtain ⟨connection, next, hthere, hnext, rfl⟩ := update_eq_some h
      exact .handle hthere (.close hnext)

/-! ## Every connection is valid -/

omit [AddCommGroup Time] [LinearOrder Time] in
/-- A step of a handler keeps its connection valid. -/
theorem LocalStep.valid {c c' : Connection Time} (h : LocalStep platform c c')
    (hvalid : c.Valid platform) : c'.Valid platform := by
  cases h with
  | connect h => exact hvalid.onConnect h
  | response h => exact hvalid.onResponse h
  | error h => exact hvalid.onError h
  | clientData h => exact hvalid.onClientData h
  | upstreamData h => exact hvalid.onUpstreamData h
  | close h => exact hvalid.onClose h

omit [AddCommGroup Time] [LinearOrder Time] in
/-- A malformed request is replied an error. -/
theorem isError_of_beginRequest {request : ClientRequest} {reply : Reply}
    (h : beginRequest platform request = .error reply) : reply.IsError := by
  cases request with
  | connect url head =>
      simp only [beginRequest] at h
      split at h
      · obtain rfl := Except.error.inj h
        trivial
      · contradiction
  | http req =>
      simp only [beginRequest] at h
      split at h
      · obtain rfl := Except.error.inj h
        trivial
      · split at h
        · obtain rfl := Except.error.inj h
          trivial
        · contradiction

omit [AddCommGroup Time] in
/-- A connection is valid when its request has been accepted. -/
theorem valid_acceptRequest (dnsCache : OrderedMap Host (DnsCacheEntry Time))
    (request : ClientRequest) (nowMs : Time) :
    (acceptRequest platform config dnsCache request nowMs).1.Valid platform := by
  have hfresh : (Connection.start request : Connection Time).Fresh :=
    Connection.fresh_start request
  unfold acceptRequest
  simp only
  split
  next reply hbegin => exact hfresh.finish (isError_of_beginRequest hbegin)
  next asked hbegin =>
    split
    next message _ =>
      have hdenied : (resume platform (Connection.start request : Connection Time) asked
        (.error message)).Valid platform := hfresh.resume asked _
      exact hdenied
    next hostname record _ _ _ =>
      have hopened : (resume platform (Connection.start request : Connection Time) asked
        (.ok (targetOf asked hostname record))).Valid platform := hfresh.resume asked _
      exact hopened
    next =>
      exact
        { received := by
            show (Connection.start request : Connection Time).received = _
            rw [hfresh.received]
            rfl
          delivered := fun _ ↦ rfl
          stage := .authorizing rfl hbegin ⟨rfl, rfl, rfl, rfl⟩ rfl rfl }

/-! ## The server asks as the proxy does -/

/-- The lookup that a handler waits for. -/
def lookupOf (c : Connection Time) : Option (Lookup Time) :=
  match c.phase with
  | .authorizing lookup => some lookup
  | _ => none

/-- A state of the machine that authorizes has the cache of the server and the lookups that its
handlers wait for, and has returned every target that a handler has opened, for what the handler
asked. -/
structure Simulated (platform : ServerPlatform) (s : ServerState Time) (proxy : ProxyState Time) :
    Prop where
  valid : ∀ c ∈ s.connections, c.Valid platform
  dnsCache : proxy.dnsCache = s.dnsCache
  pending : proxy.pending = s.connections.filterMap lookupOf
  opened : ∀ c ∈ s.connections, ∀ upstream ∈ c.upstream, ∃ asked origin,
    beginRequest platform c.request = .ok asked ∧
      .returned asked upstream.target origin ∈ proxy.history

omit [AddCommGroup Time] [LinearOrder Time] in
/-- A step of a handler that does not wait for `authorize` asks for nothing. -/
theorem LocalStep.frame {c c' : Connection Time} (h : LocalStep platform c c') :
    c'.request = c.request ∧ lookupOf c' = lookupOf c ∧ c'.upstream = c.upstream := by
  cases h with
  | connect h =>
      unfold onConnect at h
      split at h
      next hphase hupstream =>
        obtain rfl := Option.some.inj h
        simp [lookupOf, hphase, Connection.flush, Connection.write_eq, Connection.allow,
          Connection.log]
      next => contradiction
  | response h =>
      unfold onResponse at h
      split at h
      next hphase hupstream =>
        obtain rfl := Option.some.inj h
        simp [lookupOf, hphase, Connection.write_eq, Connection.allow, Connection.log]
      next => contradiction
  | error h =>
      unfold onError at h
      split at h
      next hphase hupstream =>
        obtain rfl := Option.some.inj h
        simp [lookupOf, hphase, Connection.finish, Connection.write_eq]
      next hphase hupstream =>
        obtain rfl := Option.some.inj h
        simp [lookupOf, hphase, Connection.finish, Connection.write_eq]
      next hphase =>
        obtain rfl := Option.some.inj h
        simp [lookupOf, hphase]
      next => contradiction
  | clientData h =>
      unfold onClientData at h
      split at h
      next =>
        simp only at h
        split at h <;> exact Option.some.inj h ▸ ⟨rfl, rfl, rfl⟩
      next => contradiction
  | upstreamData h =>
      unfold onUpstreamData at h
      split at h
      next => exact Option.some.inj h ▸ ⟨rfl, rfl, rfl⟩
      next => contradiction
  | close h =>
      unfold onClose at h
      split at h
      next =>
        split at h
        next => exact Option.some.inj h ▸ ⟨rfl, rfl, rfl⟩
        next hwaits =>
          obtain rfl := Option.some.inj h
          refine ⟨rfl, ?_, rfl⟩
          cases hphase : c.phase with
          | authorizing lookup => exact absurd hphase (hwaits lookup)
          | _ => simp [lookupOf, hphase]
      next => contradiction

omit [AddCommGroup Time] [LinearOrder Time] in
/-- What a handler opens after `authorize`. -/
theorem resume_frame (c : Connection Time) (asked : Request) (result : Except String Target) :
    (resume platform c asked result).request = c.request ∧
      lookupOf (resume platform c asked result) = none ∧
      ∀ upstream ∈ (resume platform c asked result).upstream,
        upstream ∈ c.upstream ∨ result = .ok upstream.target := by
  have hfinish : ∀ (connection : Connection Time) (reply : Reply),
      (connection.finish reply).request = connection.request ∧
        lookupOf (connection.finish reply) = none ∧
        (connection.finish reply).upstream = connection.upstream := by
    intro connection reply
    rw [Connection.finish, Connection.write_eq]
    exact ⟨rfl, rfl, rfl⟩
  cases result with
  | error reason =>
      obtain ⟨hrequest, hlookup, hupstream⟩ := hfinish (c.log _) (denied reason.toList c.request)
      exact ⟨hrequest, hlookup, fun upstream h ↦ .inl (hupstream ▸ h)⟩
  | ok target =>
      simp only [resume]
      split
      next =>
        refine ⟨rfl, rfl, fun upstream h ↦ .inr ?_⟩
        obtain rfl := Option.some.inj h
        rfl
      next =>
        split
        next status body _ =>
          obtain ⟨hrequest, hlookup, hupstream⟩ := hfinish c (.httpReply status body)
          exact ⟨hrequest, hlookup, fun upstream h ↦ .inl (hupstream ▸ h)⟩
        next =>
          refine ⟨rfl, rfl, fun upstream h ↦ .inr ?_⟩
          obtain rfl := Option.some.inj h
          rfl

/-- What the machine has done after a lookup. -/
theorem finishLookup_spec (proxy : ProxyState Time) (lookup : Lookup Time)
    (lookupRecords : List LookupAddress) :
    let next := finishLookup config proxy lookup lookupRecords
    next.dnsCache = cacheLookup config proxy.dnsCache lookup lookupRecords ∧
      next.pending = proxy.pending ∧ proxy.history ⊆ next.history ∧
      ∀ target, lookupOutcome config lookup lookupRecords = .ok target →
        ∃ origin, .returned lookup.request target origin ∈ next.history := by
  unfold finishLookup cacheLookup lookupOutcome
  cases publicRecords config lookupRecords with
  | nil => exact ⟨rfl, rfl, List.subset_cons_self _ _, fun _ h ↦ by cases h⟩
  | cons firstRecord others =>
      refine ⟨rfl, rfl, fun event hevent ↦ .tail _ (.tail _ hevent), fun target h ↦ ?_⟩
      obtain rfl := Except.ok.inj h
      exact ⟨_, .head _⟩

/-! ## The simulation -/

section Places

variable {α β : Type*} {f : α → Option β} {l : List α} {number : ℕ} {a a' : α}

/-- Changing an element to one that is kept as the same changes nothing of what is kept. -/
theorem filterMap_set_of_eq (hthere : l[number]? = some a) (hsame : f a' = f a) :
    (l.set number a').filterMap f = l.filterMap f := by
  induction l generalizing number with
  | nil => simp at hthere
  | cons head rest ih =>
      cases number with
      | zero =>
          obtain rfl : head = a := by simpa using hthere
          rw [List.set_cons_zero, List.filterMap_cons, List.filterMap_cons, hsame]
      | succ number =>
          rw [List.set_cons_succ, List.filterMap_cons, List.filterMap_cons,
            ih (by simpa using hthere)]

/-- Changing an element to one that is dropped erases it from what is kept. -/
theorem filterMap_set_of_none {b : β} (hthere : l[number]? = some a) (hkept : f a = some b)
    (hdropped : f a' = none) :
    ∃ index, (l.filterMap f)[index]? = some b ∧
      (l.set number a').filterMap f = (l.filterMap f).eraseIdx index := by
  induction l generalizing number with
  | nil => simp at hthere
  | cons head rest ih =>
      cases number with
      | zero =>
          obtain rfl : head = a := by simpa using hthere
          refine ⟨0, ?_, ?_⟩
          · rw [List.filterMap_cons_some hkept, List.getElem?_cons_zero]
          · rw [List.set_cons_zero, List.filterMap_cons_none hdropped,
              List.filterMap_cons_some hkept, List.eraseIdx_cons_zero]
      | succ number =>
          obtain ⟨index, hindex, herase⟩ := ih (by simpa using hthere)
          rw [List.set_cons_succ]
          cases hhead : f head with
          | none =>
              refine ⟨index, ?_, ?_⟩
              · rw [List.filterMap_cons_none hhead, hindex]
              · rw [List.filterMap_cons_none hhead, List.filterMap_cons_none hhead, herase]
          | some kept =>
              refine ⟨index + 1, ?_, ?_⟩
              · rw [List.filterMap_cons_some hhead, List.getElem?_cons_succ, hindex]
              · rw [List.filterMap_cons_some hhead, List.filterMap_cons_some hhead,
                  List.eraseIdx_cons_succ, herase]

end Places

variable {proxy proxy' : ProxyState Time}

/-- What a handler has opened, the machine has returned. -/
def Opened (platform : ServerPlatform) (c : Connection Time) (proxy : ProxyState Time) : Prop :=
  ∀ upstream ∈ c.upstream, ∃ asked origin, beginRequest platform c.request = .ok asked ∧
    .returned asked upstream.target origin ∈ proxy.history

omit [AddCommGroup Time] [LinearOrder Time] in
/-- What was returned stays returned. -/
theorem Opened.mono {c : Connection Time} (h : Opened platform c proxy)
    (hhistory : proxy.history ⊆ proxy'.history) : Opened platform c proxy' := by
  intro upstream hupstream
  obtain ⟨asked, origin, hasked, hreturned⟩ := h upstream hupstream
  exact ⟨asked, origin, hasked, hhistory hreturned⟩

omit [AddCommGroup Time] [LinearOrder Time] in
/-- One handler takes a step: the related state of the machine is one with its cache, its lookup and
what it opens. -/
theorem Simulated.set (h : Simulated platform s proxy) {number : ℕ} {next : Connection Time}
    {dnsCache : OrderedMap Host (DnsCacheEntry Time)} (hnext : next.Valid platform)
    (hcache : proxy'.dnsCache = dnsCache)
    (hpending : proxy'.pending = (s.connections.set number next).filterMap lookupOf)
    (hhistory : proxy.history ⊆ proxy'.history) (hopened : Opened platform next proxy') :
    Simulated platform ⟨dnsCache, s.connections.set number next⟩ proxy' := by
  refine ⟨fun c hc ↦ ?_, hcache, hpending, fun c hc ↦ ?_⟩
  · rcases List.mem_or_eq_of_mem_set hc with hc | rfl
    · exact h.valid c hc
    · exact hnext
  · rcases List.mem_or_eq_of_mem_set hc with hc | rfl
    · exact Opened.mono (h.opened c hc) hhistory
    · exact hopened

omit [AddCommGroup Time] [LinearOrder Time] in
/-- A new handler: the related state of the machine is one with its cache, its lookup and what it
opens. -/
theorem Simulated.append (h : Simulated platform s proxy) {next : Connection Time}
    {dnsCache : OrderedMap Host (DnsCacheEntry Time)} (hnext : next.Valid platform)
    (hcache : proxy'.dnsCache = dnsCache)
    (hpending : proxy'.pending = proxy.pending ++ (lookupOf next).toList)
    (hhistory : proxy.history ⊆ proxy'.history) (hopened : Opened platform next proxy') :
    Simulated platform ⟨dnsCache, s.connections ++ [next]⟩ proxy' := by
  refine ⟨fun c hc ↦ ?_, hcache, ?_, fun c hc ↦ ?_⟩
  · rcases List.mem_append.mp hc with hc | hc
    · exact h.valid c hc
    · obtain rfl := List.mem_singleton.mp hc
      exact hnext
  · rw [hpending, h.pending, List.filterMap_append]
    cases hlookup : lookupOf next with
    | none => rw [List.filterMap_cons_none hlookup]; rfl
    | some lookup => rw [List.filterMap_cons_some hlookup]; rfl
  · rcases List.mem_append.mp hc with hc | hc
    · exact Opened.mono (h.opened c hc) hhistory
    · obtain rfl := List.mem_singleton.mp hc
      exact hopened

/-- The machine answers: it stays, or takes one step. -/
def Answers (platform : ServerPlatform) (config : ProxyConfig Time) (proxy : ProxyState Time)
    (s' : ServerState Time) : Prop :=
  ∃ proxy', (proxy' = proxy ∨ ∃ a, step platform.runtime config proxy a = some proxy' ∧ a.Matches) ∧
    Simulated platform s' proxy'

omit [AddCommGroup Time] [LinearOrder Time] in
/-- A handler that has come back from `authorize` has opened what it returned, if anything. -/
theorem opened_resume {c : Connection Time} {asked : Request} {result : Except String Target}
    (hbegin : beginRequest platform c.request = .ok asked) (hupstream : c.upstream = none)
    (hreturned : ∀ target, result = .ok target →
      ∃ origin, .returned asked target origin ∈ proxy.history) :
    Opened platform (resume platform c asked result) proxy := by
  obtain ⟨hrequest, -, hopens⟩ := @resume_frame _ platform c asked result
  intro upstream h
  rcases hopens upstream h with hold | hnew
  · simp [hupstream] at hold
  · obtain ⟨origin, hmem⟩ := hreturned upstream.target hnew
    exact ⟨asked, origin, hrequest ▸ hbegin, hmem⟩

/-- A new request is asked for as the machine does. -/
theorem Simulated.accept (h : Simulated platform s proxy) (request : ClientRequest)
    (nowMs : Time) :
    Answers platform config proxy
      { dnsCache := (acceptRequest platform config s.dnsCache request nowMs).2
        connections :=
          s.connections ++ [(acceptRequest platform config s.dnsCache request nowMs).1] } := by
  have hvalid : (acceptRequest platform config s.dnsCache request nowMs).1.Valid platform :=
    valid_acceptRequest s.dnsCache request nowMs
  cases hbegin : beginRequest platform request with
  | error reply =>
      -- a malformed request never gets to the machine
      simp only [acceptRequest, hbegin] at hvalid ⊢
      refine ⟨proxy, .inl rfl, h.append hvalid h.dnsCache ?_ (List.Subset.refl _) ?_⟩
      · simp [lookupOf, Connection.finish, Connection.write_eq]
      · intro upstream hupstream
        simp [Connection.finish, Connection.write_eq, Connection.start] at hupstream
  | ok asked =>
      cases hauthorize : beginAuthorize platform.runtime config s.dnsCache asked nowMs with
      | error message =>
          simp only [acceptRequest, hbegin, hauthorize] at hvalid ⊢
          have hstep : step platform.runtime config proxy (.request asked nowMs) =
              some { proxy with history := .thrown asked message :: proxy.history } := by
            simp only [step, h.dnsCache, hauthorize]
          refine ⟨_, .inr ⟨_, hstep, trivial⟩,
            h.append hvalid h.dnsCache ?_ (List.subset_cons_self _ _) ?_⟩
          · simp [(resume_frame _ asked _).2.1]
          · exact opened_resume hbegin rfl fun _ hok ↦ by cases hok
      | ok result =>
          obtain ⟨hostname, found, dnsCache⟩ := result
          cases found with
          | record record origin =>
              simp only [acceptRequest, hbegin, hauthorize] at hvalid ⊢
              have hstep : step platform.runtime config proxy (.request asked nowMs) =
                  some
                    { proxy with
                      dnsCache := dnsCache
                      history := .returned asked (targetOf asked hostname record) origin ::
                        proxy.history } := by
                simp only [step, h.dnsCache, hauthorize]
              refine ⟨_, .inr ⟨_, hstep, trivial⟩,
                h.append hvalid rfl ?_ (List.subset_cons_self _ _) ?_⟩
              · simp [(resume_frame _ asked _).2.1]
              · refine opened_resume hbegin rfl fun target hok ↦ ⟨origin, ?_⟩
                obtain rfl := Except.ok.inj hok
                exact List.mem_cons_self
          | lookup =>
              simp only [acceptRequest, hbegin, hauthorize] at hvalid ⊢
              have hstep : step platform.runtime config proxy (.request asked nowMs) =
                  some { proxy with
                    dnsCache := dnsCache
                    pending := proxy.pending ++ [⟨asked, hostname, nowMs⟩] } := by
                simp only [step, h.dnsCache, hauthorize]
              refine ⟨_, .inr ⟨_, hstep, trivial⟩,
                h.append hvalid rfl rfl (List.Subset.refl _) ?_⟩
              intro upstream hupstream
              simp [Connection.start] at hupstream

omit [AddCommGroup Time] [LinearOrder Time] in
/-- A lookup that comes back is one that the machine waits for. -/
theorem Simulated.pending_set (h : Simulated platform s proxy) {number : ℕ}
    {connection : Connection Time} {lookup : Lookup Time}
    (hthere : s.connections[number]? = some connection)
    (hphase : connection.phase = .authorizing lookup) (result : Except String Target) :
    ∃ index, proxy.pending[index]? = some lookup ∧
      proxy.pending.eraseIdx index = (s.connections.set number
        (resume platform connection lookup.request result)).filterMap lookupOf := by
  have hkept : lookupOf connection = some lookup := by rw [lookupOf, hphase]
  obtain ⟨index, hindex, herase⟩ := filterMap_set_of_none hthere hkept
    (@resume_frame _ platform connection lookup.request result).2.1
  exact ⟨index, h.pending ▸ hindex, h.pending ▸ herase.symm⟩

/-- Every step of the server is answered by the machine. -/
theorem Simulated.serves (h : Simulated platform s proxy) (hserves : Serves platform config s s') :
    Answers platform config proxy s' := by
  cases hserves with
  | accept request nowMs => exact h.accept request nowMs
  | @answer number connection lookup lookupRecords hthere hphase hmatches =>
      have hmem := List.mem_of_getElem? hthere
      obtain ⟨hfresh, hbegin⟩ := (h.valid _ hmem).fresh hphase
      obtain ⟨index, hindex, herase⟩ := h.pending_set hthere hphase
        (lookupOutcome config lookup lookupRecords)
      have hstep : step platform.runtime config proxy (.answer index lookupRecords) =
          some (finishLookup config { proxy with pending := proxy.pending.eraseIdx index } lookup
            lookupRecords) := by
        simp [step, hindex]
      obtain ⟨hcache, hpending, hhistory, hreturned⟩ := @finishLookup_spec _ config _ _
        { proxy with pending := proxy.pending.eraseIdx index } lookup lookupRecords
      refine ⟨_, .inr ⟨_, hstep, hmatches⟩, h.set (hfresh.resume _ _) ?_ ?_ hhistory ?_⟩
      · rw [hcache, h.dnsCache]
      · rw [hpending, herase]
      · exact opened_resume hbegin hfresh.upstream hreturned
  | @fail number connection lookup message hthere hphase =>
      have hmem := List.mem_of_getElem? hthere
      obtain ⟨hfresh, hbegin⟩ := (h.valid _ hmem).fresh hphase
      obtain ⟨index, hindex, herase⟩ := h.pending_set hthere hphase (.error message)
      have hstep : step platform.runtime config proxy (.fail index message) =
          some { proxy with
            pending := proxy.pending.eraseIdx index
            history := .thrown lookup.request message :: proxy.history } := by
        simp [step, hindex]
      refine ⟨_, .inr ⟨_, hstep, trivial⟩,
        h.set (hfresh.resume _ _) h.dnsCache herase (List.subset_cons_self _ _) ?_⟩
      exact opened_resume hbegin hfresh.upstream fun _ hok ↦ by cases hok
  | @handle number connection next hthere hstep =>
      have hmem := List.mem_of_getElem? hthere
      obtain ⟨hrequest, hlookup, hupstream⟩ := hstep.frame
      refine ⟨proxy, .inl rfl, h.set (hstep.valid (h.valid _ hmem)) h.dnsCache ?_
        (List.Subset.refl _) ?_⟩
      · rw [filterMap_set_of_eq hthere hlookup, h.pending]
      · intro upstream hopens
        rw [hupstream] at hopens
        rw [hrequest]
        exact h.opened _ hmem upstream hopens

/-- Every run of the server is one of the machine: its cache and its lookups are those of a state
that the machine reaches, which has returned what its handlers have opened. -/
theorem exists_proxy
    (h : Reachable (serve platform config) (fun _ a _ ↦ a.Matches)
      (ServerState.initial : ServerState Time) s) :
    ∃ proxy, Reachable (step platform.runtime config) (fun _ a _ ↦ a.Matches)
      (ProxyState.initial : ProxyState Time) proxy ∧ Simulated platform s proxy := by
  refine h.simulation ⟨?_, rfl, rfl, ?_⟩ fun hrelated hstep hmatches ↦
    hrelated.serves (serves_of_serve hstep hmatches)
  · intro c hc
    simp [ServerState.initial] at hc
  · intro c hc
    simp [ServerState.initial] at hc

/-! ## What the server guarantees -/

/-- What holds of a connection at any time. -/
structure Connection.Safe (platform : ServerPlatform) (config : ProxyConfig Time)
    (c : Connection Time) : Prop where
  /-- What was opened for the client is what it asked for, and is allowed. -/
  authorized : ∀ upstream ∈ c.upstream, ∃ asked, beginRequest platform c.request = .ok asked ∧
    Authorized platform.runtime config asked upstream.target
  /-- Without an upstream nothing leaves the client, and nothing comes in. -/
  silent : c.upstream = none → c.sent = [] ∧ c.arrived = []
  /-- At most one decision is logged, and one to allow names what was opened. -/
  decided : c.decisions.length ≤ 1
  logged : ∀ decision ∈ c.decisions,
    if decision.allowed then ∃ upstream ∈ c.upstream, decision = allowed c.request upstream.target
    else c.upstream = none
  /-- At most one reply is written, an error unless the target was allowed; a client is not left
  without one. -/
  replied : c.replies.length ≤ 1
  errors : ∀ reply ∈ c.replies, reply.IsError ↔ ∀ decision ∈ c.decisions, decision.allowed = false
  answered : c.clientOpen = true → c.phase = .piping ∨ c.phase = .closed → c.replies ≠ []
  /-- No byte of either side is lost, added or moved. -/
  received : c.received = c.sent ++ c.buffered
  delivered : c.clientOpen = true → c.delivered = c.arrived
  /-- A tunnel carries nothing before it is established. -/
  established : ∀ target, c.upstream = some (.socket target) → c.sent ≠ [] →
    c.decisions = [allowed c.request target]

omit [AddCommGroup Time] [LinearOrder Time] in
/-- A valid connection to an authorized target is safe. -/
theorem Connection.Valid.safe {c : Connection Time} (h : c.Valid platform)
    (hauthorized : ∀ upstream ∈ c.upstream, ∃ asked, beginRequest platform c.request = .ok asked ∧
      Authorized platform.runtime config asked upstream.target) : c.Safe platform config := by
  cases h.stage with
  | authorizing hphase hbegin hquiet hupstream hsent =>
      exact
        { authorized := hauthorized, received := h.received, delivered := h.delivered
          silent := fun _ ↦ ⟨hsent, hquiet.arrived⟩
          decided := by simp [hquiet.decisions]
          logged := by simp [hquiet.decisions]
          replied := by simp [hquiet.replies]
          errors := by simp [hquiet.replies]
          answered := by simp [hphase]
          established := fun _ hsocket ↦ by simp [hupstream] at hsocket }
  | opening hphase hquiet hupstream hheld =>
      exact
        { authorized := hauthorized, received := h.received, delivered := h.delivered
          silent := fun hnone ↦ by simp [hupstream] at hnone
          decided := by simp [hquiet.decisions]
          logged := by simp [hquiet.decisions]
          replied := by simp [hquiet.replies]
          errors := by simp [hquiet.replies]
          answered := by simp [hphase]
          established := fun target hsocket hsends ↦ absurd (hheld target hsocket) hsends }
  | piping hphase hupstream hdecisions hheads honce hreplied =>
      exact
        { authorized := hauthorized, received := h.received, delivered := h.delivered
          silent := fun hnone ↦ by simp [hupstream] at hnone
          decided := by simp [hdecisions]
          logged := by simp [hdecisions, hupstream, allowed]
          replied := honce
          errors := fun reply hreply ↦ by simp [hheads reply hreply, hdecisions, allowed]
          answered := fun hopen _ ↦ hreplied hopen
          established := fun target hsocket _ ↦ by
            obtain rfl := Option.some.inj (hupstream.symm.trans hsocket)
            exact hdecisions }
  | refused hphase hupstream hsent hdenied hdecided harrived hrefused =>
      exact
        { authorized := hauthorized, received := h.received, delivered := h.delivered
          silent := fun _ ↦ ⟨hsent, harrived⟩
          decided := hdecided
          logged := fun decision hdecision ↦ by simp [hdenied decision hdecision, hupstream]
          replied := hrefused.once
          errors := fun reply hreply ↦ ⟨fun _ ↦ hdenied, fun _ ↦ hrefused.errors reply hreply⟩
          answered := fun hopen _ ↦ hrefused.replied hopen
          established := fun _ hsocket ↦ by simp [hupstream] at hsocket }
  | failed hphase hupstream hheld hdecisions harrived hrefused =>
      exact
        { authorized := hauthorized, received := h.received, delivered := h.delivered
          silent := fun hnone ↦ by simp [hupstream] at hnone
          decided := by simp [hdecisions]
          logged := by simp [hdecisions]
          replied := hrefused.once
          errors := fun reply hreply ↦ by simp [hrefused.errors reply hreply, hdecisions]
          answered := fun hopen _ ↦ hrefused.replied hopen
          established := fun target hsocket hsends ↦ absurd (hheld target hsocket) hsends }
  | ended hphase hupstream hdecisions hheads honce hgone =>
      exact
        { authorized := hauthorized, received := h.received, delivered := h.delivered
          silent := fun hnone ↦ by simp [hupstream] at hnone
          decided := by simp [hdecisions]
          logged := by simp [hdecisions, hupstream, allowed]
          replied := honce
          errors := fun reply hreply ↦ by simp [hheads reply hreply, hdecisions, allowed]
          answered := fun hopen _ ↦ by simp [hgone] at hopen
          established := fun target hsocket _ ↦ by
            obtain rfl := Option.some.inj (hupstream.symm.trans hsocket)
            exact hdecisions }

/-- What a handler has opened in a run is authorized for what it asked. -/
theorem authorized_of_reachable
    (h : Reachable (serve platform config) (fun _ a _ ↦ a.Matches)
      (ServerState.initial : ServerState Time) s) :
    ∀ c ∈ s.connections, c.Valid platform ∧ ∀ upstream ∈ c.upstream, ∃ asked,
      beginRequest platform c.request = .ok asked ∧
        Authorized platform.runtime config asked upstream.target := by
  obtain ⟨proxy, hproxy, hsimulated⟩ := exists_proxy h
  have hinvariant : Invariant platform.runtime config proxy :=
    hproxy.invariant initial_invariant fun hs hstep hmatches ↦ hs.step hstep hmatches
  refine fun c hc ↦ ⟨hsimulated.valid c hc, fun upstream hupstream ↦ ?_⟩
  obtain ⟨asked, origin, hbegin, hreturned⟩ := hsimulated.opened c hc upstream hupstream
  exact ⟨asked, hbegin, (hinvariant.returned asked upstream.target origin hreturned).1⟩

/-- Whatever clients, lookups and upstreams do, and in whatever order, as long as the records of the
answers match their families: every connection is safe. -/
theorem serve_safe
    (h : Reachable (serve platform config) (fun _ a _ ↦ a.Matches)
      (ServerState.initial : ServerState Time) s) :
    ∀ c ∈ s.connections, c.Safe platform config := by
  intro c hc
  obtain ⟨hvalid, hauthorized⟩ := authorized_of_reachable h c hc
  exact hvalid.safe hauthorized

/-- A platform for tunnels. -/
def examplePlatform : ServerPlatform := ⟨asciiRuntime, fun _ ↦ none⟩

/-- A tunnel whose first bytes come before its lookup is answered, and a client that is denied. -/
def tunnelAndDenial : List (ServerAction ℤ) :=
  [.request (.connect "API.example.com:443".toList [1, 2]) 100,
    .request (.connect "other.test:443".toList []) 101,
    .clientData 0 [3],
    .answer 0 [⟨"10.0.0.1".toList, 4⟩, ⟨"93.184.216.34".toList, 4⟩],
    .connect 0,
    .clientData 0 [4],
    .upstreamData 0 [9]]

/-- The guarantees in a run in which a tunnel is established and another client denied. -/
theorem serve_safe_tunnel :
    ∃ s : ServerState ℤ,
      follow (serve examplePlatform exampleConfig) (fun _ a _ ↦ a.Matches) .initial
        tunnelAndDenial = some s ∧
      (s.connections.map (·.sent) = [[1, 2, 3, 4], []]) ∧
      ∀ c ∈ s.connections, c.Safe examplePlatform exampleConfig := by
  have hrun : (follow (serve examplePlatform exampleConfig) (fun _ a _ ↦ a.Matches) .initial
      tunnelAndDenial).any fun s ↦ s.connections.map (·.sent) = [[1, 2, 3, 4], []] := by
    decide +kernel
  obtain ⟨s, hs, hsent⟩ := (Option.any_eq_true _ _).mp hrun
  exact ⟨s, hs, of_decide_eq_true hsent, serve_safe (Reachable.start.of_follow hs)⟩

end CoreUtils.Clearance
