import CoreUtils.Clearance.Egress

/-!
# The egress policy holds in every run

Whatever requests, DNS answers and clock readings reach the proxy, a target that `authorize` returns
has an allowed port and host, and a public address when private ones are blocked. For the address,
the family of each record of an answer is assumed to match: the check is made in the block list of
that family, which has no text that is not an address of it. The invariant ties every cache entry to
the lookup it stems from, so that a cached record is as good as a fresh one, and is served only
within `dnsTtlMs` of the start of that lookup.
-/

namespace CoreUtils.Clearance

open Ip Transition

/-- The address of a record is an address of its family, in no private subnet of the family. -/
def Public (record : ResolvedLookupAddress) : Prop :=
  ∃ address, parse record.family record.address = some address ∧
    ¬(privateBlockList record.family).Blocks address

/-- The family of each record of an answer matches its address. -/
def MatchesFamilies (lookupRecords : List LookupAddress) : Prop :=
  ∀ record ∈ lookupRecords.filterMap hasIpFamily,
    (parse record.family record.address).isSome = true

/-- Whether the families match can be checked. -/
instance (lookupRecords : List LookupAddress) : Decidable (MatchesFamilies lookupRecords) :=
  List.decidableBAll _ _

/-- An address of its family that `isPrivateIpAddress` lets through is public. -/
theorem public_of_check {record : ResolvedLookupAddress}
    (hmatches : (parse record.family record.address).isSome = true)
    (h : isPrivateIpAddress record.address record.family = false) : Public record := by
  obtain ⟨address, haddress⟩ := Option.isSome_iff_exists.mp hmatches
  have hfamily : (privateBlockList record.family).family = record.family := by
    cases record.family <;> rfl
  exact ⟨address, haddress, BlockList.not_blocks_of_check h (hfamily.symm ▸ haddress)⟩

variable {Time : Type} {runtime : Runtime} {config : ProxyConfig Time}

/-- The records of an answer that are cached and served are public, when private ones are
blocked. -/
theorem publicRecords_public (hblock : config.shouldBlockPrivateIps = true)
    {lookupRecords : List LookupAddress} (hmatches : MatchesFamilies lookupRecords) :
    ∀ record ∈ publicRecords config lookupRecords, Public record := by
  intro record hrecord
  obtain ⟨hmem, hkept⟩ := List.mem_filter.mp ((List.mem_insertionSort familyLE).mp hrecord)
  rw [hblock, Bool.true_and, Bool.not_eq_true'] at hkept
  exact public_of_check (hmatches record hmem) hkept

/-! ## The two halves of a request -/

/-- The host and the port of a request have passed the checks of `authorize`. -/
structure Admissible (runtime : Runtime) (config : ProxyConfig Time) (request : Request)
    (hostname : Host) : Prop where
  host : normalizeHost runtime request.host = some hostname
  port : request.port ∈ config.allowedPorts
  allowed : hostAllowed hostname config.allowedHosts = true

variable [LinearOrder Time] {dnsCache dnsCache' : OrderedMap Host (DnsCacheEntry Time)}
  {hostname : Host} {nowMs : Time}

/-- What `findRecord` finds: a checked literal, a cached record that is still good, or nothing. -/
inductive Finds (config : ProxyConfig Time) (dnsCache : OrderedMap Host (DnsCacheEntry Time))
    (hostname : Host) (nowMs : Time) :
    Found Time → OrderedMap Host (DnsCacheEntry Time) → Prop where
  | literal {family : Family} :
      (config.shouldBlockPrivateIps = true → Public ⟨hostname, family⟩) →
      Finds config dnsCache hostname nowMs (.record ⟨hostname, family⟩ .literal) dnsCache
  | cached {entry : DnsCacheEntry Time} {record : ResolvedLookupAddress} :
      dnsCache.get hostname = some entry → record ∈ entry.records.head? → nowMs < entry.untilMs →
      Finds config dnsCache hostname nowMs (.record record (.cache nowMs)) dnsCache
  | lookup {dnsCache' : OrderedMap Host (DnsCacheEntry Time)} :
      (∀ other entry, dnsCache'.get other = some entry → dnsCache.get other = some entry) →
      Finds config dnsCache hostname nowMs .lookup dnsCache'

/-- Every result of `findRecord` is one of these. -/
theorem findRecord_finds {found : Found Time}
    (h : findRecord config dnsCache hostname nowMs = .ok (found, dnsCache')) :
    Finds config dnsCache hostname nowMs found dnsCache' := by
  unfold findRecord at h
  split at h
  · rename_i family hfamily
    split at h
    · contradiction
    · rename_i hpassed
      obtain ⟨rfl, rfl⟩ := Prod.mk.inj (Except.ok.inj h)
      refine .literal fun hblock ↦ public_of_check (isSome_parse_of_isIP hfamily) ?_
      rwa [hblock, Bool.true_and, Bool.not_eq_true] at hpassed
  · split at h
    · obtain ⟨rfl, rfl⟩ := Prod.mk.inj (Except.ok.inj h)
      exact .lookup fun _ _ hentry ↦ hentry
    · rename_i cached hcached
      split at h
      · rename_i hgood
        split at h
        · rename_i cachedRecord others hrecords
          obtain ⟨rfl, rfl⟩ := Prod.mk.inj (Except.ok.inj h)
          exact .cached hcached (by simp [hrecords]) hgood
        · obtain ⟨rfl, rfl⟩ := Prod.mk.inj (Except.ok.inj h)
          exact .lookup fun _ _ hentry ↦ hentry
      · obtain ⟨rfl, rfl⟩ := Prod.mk.inj (Except.ok.inj h)
        exact .lookup fun _ _ hentry ↦ OrderedMap.get_of_get_delete hentry

/-- A request that gets as far as an address has passed the checks. -/
theorem beginAuthorize_spec {request : Request} {found : Found Time}
    (h : beginAuthorize runtime config dnsCache request nowMs = .ok (hostname, found, dnsCache')) :
    Admissible runtime config request hostname ∧
      Finds config dnsCache hostname nowMs found dnsCache' := by
  unfold beginAuthorize at h
  split at h
  · contradiction
  · rename_i normalized hnormalized
    split at h
    · contradiction
    · rename_i hport
      split at h
      · contradiction
      · rename_i hallowed
        cases hfound : findRecord config dnsCache normalized nowMs with
        | error message =>
            rw [hfound] at h
            contradiction
        | ok result =>
            rw [hfound] at h
            obtain ⟨rfl, rfl⟩ := Prod.mk.inj (Except.ok.inj h)
            exact ⟨⟨hnormalized, not_not.mp hport, by simpa using hallowed⟩,
              findRecord_finds hfound⟩

/-! ## The invariant -/

variable [AddCommGroup Time]

/-- A lookup in the history came back for the host name with this record first. -/
structure LookedUp (history : List (Event Time)) (hostname : Host)
    (record : ResolvedLookupAddress) (lookup : Lookup Time)
    (records : List ResolvedLookupAddress) : Prop where
  resolved : .resolved lookup records ∈ history
  hostname : lookup.hostname = hostname
  first : record ∈ records.head?

/-- A cached record stems from a lookup whose start was less than `dnsTtlMs` ago. -/
def Sourced (config : ProxyConfig Time) (history : List (Event Time)) (hostname : Host)
    (record : ResolvedLookupAddress) : Origin Time → Prop
  | .cache nowMs => ∃ lookup records, LookedUp history hostname record lookup records ∧
      nowMs < lookup.nowMs + config.dnsTtlMs
  | .lookup _ | .literal => True

/-- A target that `authorize` may return. -/
structure Authorized (runtime : Runtime) (config : ProxyConfig Time) (request : Request)
    (target : Target) : Prop where
  admissible : Admissible runtime config request target.hostname
  port : target.port = request.port
  isPublic : config.shouldBlockPrivateIps = true → Public ⟨target.address, target.family⟩

/-- The invariant of the proxy. -/
structure Invariant (runtime : Runtime) (config : ProxyConfig Time) (s : ProxyState Time) :
    Prop where
  pending : ∀ lookup ∈ s.pending, Admissible runtime config lookup.request lookup.hostname
  cache : ∀ hostname entry, s.dnsCache.get hostname = some entry →
    ∃ lookup, .resolved lookup entry.records ∈ s.history ∧ lookup.hostname = hostname ∧
      entry.untilMs = lookup.nowMs + config.dnsTtlMs
  resolved : ∀ lookup records, .resolved lookup records ∈ s.history → records ≠ [] ∧
    (config.shouldBlockPrivateIps = true → ∀ record ∈ records, Public record)
  returned : ∀ request target origin, .returned request target origin ∈ s.history →
    Authorized runtime config request target ∧
      Sourced config s.history target.hostname ⟨target.address, target.family⟩ origin

variable {s s' : ProxyState Time}

/-- Later events take nothing away from where a record comes from. -/
theorem Sourced.mono {history : List (Event Time)} {record : ResolvedLookupAddress}
    {origin : Origin Time} (h : Sourced config history hostname record origin)
    {history' : List (Event Time)} (hsubset : history ⊆ history') :
    Sourced config history' hostname record origin := by
  cases origin with
  | literal | lookup => trivial
  | cache nowMs =>
      obtain ⟨lookup, records, hlooked, hfresh⟩ := h
      exact ⟨lookup, records, ⟨hsubset hlooked.resolved, hlooked.hostname, hlooked.first⟩, hfresh⟩

/-- Dropping cache entries and lookups, and recording that a request was thrown out, keeps the
invariant. -/
theorem Invariant.thrown (h : Invariant runtime config s) {request : Request} {message : String}
    {pending : List (Lookup Time)} (hpending : pending ⊆ s.pending) :
    Invariant runtime config
      { s with pending := pending, history := .thrown request message :: s.history } := by
  refine ⟨fun lookup hlookup ↦ h.pending lookup (hpending hlookup), ?_, ?_, ?_⟩
  · intro hostname entry hentry
    obtain ⟨lookup, hresolved, hspec⟩ := h.cache hostname entry hentry
    exact ⟨lookup, List.mem_cons_of_mem _ hresolved, hspec⟩
  · intro lookup records hresolved
    exact h.resolved lookup records (by simpa using hresolved)
  · intro request target origin hreturned
    obtain ⟨hauthorized, hsourced⟩ := h.returned request target origin (by simpa using hreturned)
    exact ⟨hauthorized, hsourced.mono (List.subset_cons_self _ _)⟩

/-- Starting a lookup for a request that has passed the checks keeps the invariant. -/
theorem Invariant.await (h : Invariant runtime config s) {request : Request}
    (hadmissible : Admissible runtime config request hostname)
    (hcache : ∀ other entry, dnsCache'.get other = some entry →
      s.dnsCache.get other = some entry) :
    Invariant runtime config
      { s with dnsCache := dnsCache', pending := s.pending ++ [⟨request, hostname, nowMs⟩] } := by
  refine ⟨fun lookup hlookup ↦ ?_, fun other entry hentry ↦ h.cache other entry
    (hcache other entry hentry), h.resolved, h.returned⟩
  rcases List.mem_append.mp hlookup with hold | hnew
  · exact h.pending lookup hold
  · obtain rfl := List.mem_singleton.mp hnew
    exact hadmissible

/-- Returning an authorized target keeps the invariant. -/
theorem Invariant.return (h : Invariant runtime config s) {request : Request} {target : Target}
    {origin : Origin Time} (hauthorized : Authorized runtime config request target)
    (hsourced : Sourced config s.history target.hostname ⟨target.address, target.family⟩ origin) :
    Invariant runtime config
      { s with history := .returned request target origin :: s.history } := by
  refine ⟨h.pending, ?_, ?_, ?_⟩
  · intro hostname entry hentry
    obtain ⟨lookup, hresolved, hspec⟩ := h.cache hostname entry hentry
    exact ⟨lookup, List.mem_cons_of_mem _ hresolved, hspec⟩
  · intro lookup records hresolved
    exact h.resolved lookup records (by simpa using hresolved)
  · intro other otherTarget otherOrigin hreturned
    rcases List.mem_cons.mp hreturned with hnew | hold
    · obtain ⟨rfl, rfl, rfl⟩ := Event.returned.inj hnew
      exact ⟨hauthorized, hsourced.mono (List.subset_cons_self _ _)⟩
    · obtain ⟨hother, hold⟩ := h.returned other otherTarget otherOrigin hold
      exact ⟨hother, hold.mono (List.subset_cons_self _ _)⟩

/-- Recording and caching the public records of a lookup keeps the invariant. -/
theorem Invariant.resolve (h : Invariant runtime config s) {lookup : Lookup Time}
    {records : List ResolvedLookupAddress} (hnonempty : records ≠ [])
    (hpublic : config.shouldBlockPrivateIps = true → ∀ record ∈ records, Public record)
    (hcache : ∀ other entry, dnsCache'.get other = some entry →
      s.dnsCache.get other = some entry ∨
      (other = lookup.hostname ∧ entry = ⟨records, lookup.nowMs + config.dnsTtlMs⟩)) :
    Invariant runtime config
      { s with dnsCache := dnsCache', history := .resolved lookup records :: s.history } := by
  refine ⟨h.pending, ?_, ?_, ?_⟩
  · intro hostname entry hentry
    rcases hcache hostname entry hentry with hold | ⟨rfl, rfl⟩
    · obtain ⟨other, hresolved, hspec⟩ := h.cache hostname entry hold
      exact ⟨other, List.mem_cons_of_mem _ hresolved, hspec⟩
    · exact ⟨lookup, List.mem_cons_self, rfl, rfl⟩
  · intro other otherRecords hresolved
    rcases List.mem_cons.mp hresolved with hnew | hold
    · obtain ⟨rfl, rfl⟩ := Event.resolved.inj hnew
      exact ⟨hnonempty, hpublic⟩
    · exact h.resolved other otherRecords hold
  · intro request target origin hreturned
    obtain ⟨hauthorized, hsourced⟩ := h.returned request target origin (by simpa using hreturned)
    exact ⟨hauthorized, hsourced.mono (List.subset_cons_self _ _)⟩

/-- A record that `findRecord` finds is public, when private addresses are blocked. -/
theorem Invariant.found (h : Invariant runtime config s) {record : ResolvedLookupAddress}
    {origin : Origin Time}
    (hfinds : Finds config s.dnsCache hostname nowMs (.record record origin) dnsCache') :
    dnsCache' = s.dnsCache ∧ (config.shouldBlockPrivateIps = true → Public record) ∧
      Sourced config s.history hostname record origin := by
  cases hfinds with
  | literal hpublic => exact ⟨rfl, hpublic, trivial⟩
  | cached hentry hfirst hgood =>
      obtain ⟨lookup, hresolved, hhostname, huntil⟩ := h.cache _ _ hentry
      refine ⟨rfl, fun hblock ↦ ?_, lookup, _, ⟨hresolved, hhostname, hfirst⟩, huntil ▸ hgood⟩
      exact (h.resolved _ _ hresolved).2 hblock record (List.mem_of_mem_head? hfirst)

/-- The half of a request after its lookup keeps the invariant. -/
theorem Invariant.finishLookup (h : Invariant runtime config s) {lookup : Lookup Time}
    (hadmissible : Admissible runtime config lookup.request lookup.hostname)
    {pending : List (Lookup Time)} (hpending : pending ⊆ s.pending)
    {lookupRecords : List LookupAddress} (hmatches : MatchesFamilies lookupRecords) :
    Invariant runtime config
      (Clearance.finishLookup config { s with pending := pending } lookup lookupRecords) := by
  have hdropped : Invariant runtime config { s with pending := pending } :=
    ⟨fun other hother ↦ h.pending other (hpending hother), h.cache, h.resolved, h.returned⟩
  unfold Clearance.finishLookup
  split
  · exact hdropped.thrown (List.Subset.refl _)
  · rename_i firstRecord others hrecords
    have hpublic : config.shouldBlockPrivateIps = true →
        ∀ record ∈ firstRecord :: others, Public record :=
      fun hblock ↦ hrecords ▸ publicRecords_public hblock hmatches
    have hcache : ∀ other entry, (if config.dnsTtlMs > 0 then
          s.dnsCache.set lookup.hostname ⟨firstRecord :: others, lookup.nowMs + config.dnsTtlMs⟩
        else s.dnsCache).get other = some entry →
        s.dnsCache.get other = some entry ∨ (other = lookup.hostname ∧
          entry = ⟨firstRecord :: others, lookup.nowMs + config.dnsTtlMs⟩) := by
      intro other entry hentry
      split at hentry
      · rw [OrderedMap.get_set] at hentry
        split at hentry
        · exact .inr ⟨‹_›, (Option.some.inj hentry).symm⟩
        · exact .inl hentry
      · exact .inl hentry
    exact (hdropped.resolve (List.cons_ne_nil _ _) hpublic hcache).return
      ⟨hadmissible, rfl, fun hblock ↦ hpublic hblock firstRecord List.mem_cons_self⟩ trivial

/-- The records that an action brings match their families. -/
def Action.Matches : Action Time → Prop
  | .answer _ lookupRecords => MatchesFamilies lookupRecords
  | .request _ _ | .fail _ _ => True

/-- Whether they match can be checked. -/
instance (a : Action Time) : Decidable a.Matches := by
  cases a with
  | request | fail => exact inferInstanceAs (Decidable True)
  | answer _ lookupRecords => exact inferInstanceAs (Decidable (MatchesFamilies lookupRecords))

/-- Every step keeps the invariant. -/
theorem Invariant.step (h : Invariant runtime config s) {a : Action Time}
    (hstep : Clearance.step runtime config s a = some s') (hmatches : a.Matches) :
    Invariant runtime config s' := by
  cases a with
  | request request nowMs =>
      simp only [Clearance.step] at hstep
      split at hstep
      · exact Option.some.inj hstep ▸ h.thrown (List.Subset.refl _)
      · rename_i hostname record origin dnsCache' hbegin
        obtain ⟨hadmissible, hfinds⟩ := beginAuthorize_spec hbegin
        obtain ⟨rfl, hpublic, hsourced⟩ := h.found hfinds
        exact Option.some.inj hstep ▸ h.return ⟨hadmissible, rfl, hpublic⟩ hsourced
      · rename_i hostname dnsCache' hbegin
        obtain ⟨hadmissible, hfinds⟩ := beginAuthorize_spec hbegin
        cases hfinds with
        | lookup hcache => exact Option.some.inj hstep ▸ h.await hadmissible hcache
  | answer index lookupRecords =>
      obtain ⟨lookup, hlookup, hnext⟩ := Option.bind_eq_some_iff.mp hstep
      have hadmissible := h.pending lookup (List.mem_of_getElem? hlookup)
      exact Option.some.inj hnext ▸
        h.finishLookup hadmissible (List.eraseIdx_subset ..) hmatches
  | fail index message =>
      obtain ⟨lookup, -, hnext⟩ := Option.bind_eq_some_iff.mp hstep
      exact Option.some.inj hnext ▸ h.thrown (List.eraseIdx_subset ..)

/-- The invariant holds before the first request. -/
theorem initial_invariant : Invariant runtime config (ProxyState.initial : ProxyState Time) :=
  ⟨by simp [ProxyState.initial], by simp [ProxyState.initial], by simp [ProxyState.initial],
    by simp [ProxyState.initial]⟩

/-! ## The policy -/

/-- In every run whose answers match their families, a target that `authorize` returns has an
allowed port, an allowed normalized host and, with blocking on, a public address; every cache entry
is nonempty and, with blocking on, public; and a cached record is served only within `dnsTtlMs` of
the start of its lookup. -/
theorem authorize_safe
    (h : Reachable (Clearance.step runtime config) (fun _ a _ ↦ a.Matches)
      (ProxyState.initial : ProxyState Time) s) :
    (∀ request target origin, .returned request target origin ∈ s.history →
      target.port = request.port ∧ target.port ∈ config.allowedPorts ∧
      normalizeHost runtime request.host = some target.hostname ∧
      hostAllowed target.hostname config.allowedHosts = true ∧
      (config.shouldBlockPrivateIps = true → Public ⟨target.address, target.family⟩)) ∧
    (∀ hostname entry, s.dnsCache.get hostname = some entry →
      entry.records ≠ [] ∧
      (config.shouldBlockPrivateIps = true → ∀ record ∈ entry.records, Public record)) ∧
    (∀ request target nowMs, .returned request target (.cache nowMs) ∈ s.history →
      ∃ lookup records, .resolved lookup records ∈ s.history ∧
        lookup.hostname = target.hostname ∧
        records.head? = some ⟨target.address, target.family⟩ ∧
        nowMs < lookup.nowMs + config.dnsTtlMs) := by
  have hinv : Invariant runtime config s :=
    h.invariant initial_invariant fun hs hstep hmatches ↦ hs.step hstep hmatches
  refine ⟨fun request target origin hreturned ↦ ?_, fun hostname entry hentry ↦ ?_,
    fun request target nowMs hreturned ↦ ?_⟩
  · obtain ⟨⟨⟨hhost, hport, hallowed⟩, hsame, hpublic⟩, -⟩ :=
      hinv.returned request target origin hreturned
    exact ⟨hsame, hsame ▸ hport, hhost, hallowed, hpublic⟩
  · obtain ⟨lookup, hresolved, -⟩ := hinv.cache hostname entry hentry
    exact hinv.resolved lookup entry.records hresolved
  · obtain ⟨-, lookup, records, hlooked, hfresh⟩ := hinv.returned request target _ hreturned
    exact ⟨lookup, records, hlooked.resolved, hlooked.hostname, hlooked.first, hfresh⟩

/-- A proxy for one wildcard rule that blocks private addresses. -/
def exampleConfig : ProxyConfig ℤ := ⟨["*.example.com".toList], [443], 60, true⟩

/-- A runtime that knows the case of ASCII letters and leaves ASCII names alone. -/
def asciiRuntime : Runtime := ⟨fun host ↦ host.map Char.toLower, id⟩

/-- A first request waits for a lookup whose answer has a private record; a second request is
served from the cache. -/
def lookupThenCache : List (Action ℤ) :=
  [.request ⟨"API.example.com".toList, 443⟩ 100,
    .answer 0 [⟨"10.0.0.1".toList, 4⟩, ⟨"2606:2800:220:1::1".toList, 6⟩,
      ⟨"93.184.216.34".toList, 4⟩],
    .request ⟨"api.example.com".toList, 443⟩ 159]

/-- The second target of that run: the public IPv4 record, ahead of the IPv6 record. -/
def cachedTarget : Target := ⟨"93.184.216.34".toList, .ipv4, "api.example.com".toList, 443⟩

/-- The policy in a run that serves a target from the cache. -/
theorem authorize_safe_cached :
    ∃ s : ProxyState ℤ,
      follow (Clearance.step asciiRuntime exampleConfig) (fun _ a _ ↦ a.Matches) .initial
        lookupThenCache = some s ∧
      hostAllowed cachedTarget.hostname exampleConfig.allowedHosts = true ∧
      Public ⟨cachedTarget.address, cachedTarget.family⟩ ∧
      ∃ lookup records, .resolved lookup records ∈ s.history ∧
        lookup.hostname = cachedTarget.hostname ∧
        records.head? = some ⟨cachedTarget.address, cachedTarget.family⟩ ∧
        (159 : ℤ) < lookup.nowMs + exampleConfig.dnsTtlMs := by
  have hrun : (follow (Clearance.step asciiRuntime exampleConfig) (fun _ a _ ↦ a.Matches) .initial
      lookupThenCache).any fun s ↦
        .returned ⟨"api.example.com".toList, 443⟩ cachedTarget (.cache 159) ∈ s.history := by
    decide +kernel
  obtain ⟨s, hs, hreturned⟩ := (Option.any_eq_true _ _).mp hrun
  have hmem := of_decide_eq_true hreturned
  obtain ⟨htargets, -, hcached⟩ := authorize_safe (Reachable.start.of_follow hs)
  obtain ⟨-, -, -, hallowed, hpublic⟩ := htargets _ _ _ hmem
  exact ⟨s, hs, hallowed, hpublic rfl, hcached _ _ _ hmem⟩

end CoreUtils.Clearance
