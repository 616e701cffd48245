import Mathlib.Algebra.Group.Basic
import Mathlib.Data.List.Sort
import CoreUtils.Clearance.HostRule
import CoreUtils.Library.OrderedMap
import CoreUtils.Library.Transition

/-!
# Authorizing the targets of the proxy

`authorize` decides on a request, and `resolveHost` finds the address it may connect to: an IP
literal, a cached record, or the first record of a DNS lookup. The lookup is awaited, so that any
number of them are in flight while other requests run; the two halves of `resolveHost` around the
`await` are separate steps. Every step reads the clock anew, and nothing is assumed about the
readings. `ProxyState.history` is bookkeeping: no step depends on it.
-/

namespace CoreUtils.Clearance

open Ip

/-! ## Private addresses -/

/-- The IPv4 subnets that are not public. -/
def privateIPv4Ranges : List (String × ℕ) :=
  [("0.0.0.0", 8), ("10.0.0.0", 8), ("100.64.0.0", 10), ("127.0.0.0", 8), ("169.254.0.0", 16),
    ("172.16.0.0", 12), ("192.0.0.0", 24), ("192.0.2.0", 24), ("192.168.0.0", 16),
    ("198.18.0.0", 15), ("198.51.100.0", 24), ("203.0.113.0", 24), ("224.0.0.0", 4),
    ("240.0.0.0", 4)]

/-- The IPv6 subnets that are not public. -/
def privateIPv6Ranges : List (String × ℕ) :=
  [("::", 128), ("::1", 128), ("::", 96), ("::ffff:0:0", 96), ("64:ff9b::", 96),
    ("64:ff9b:1::", 48), ("100::", 64), ("2001::", 23), ("2001:db8::", 32), ("2002::", 16),
    ("fc00::", 7), ("fe80::", 10), ("ff00::", 8)]

/-- The block list of some ranges. `addSubnet` throws for a text that is no address; the ranges of
the proxy have none. -/
def createIpBlockList (ranges : List (String × ℕ)) (family : Family) : BlockList where
  family := family
  subnets := ranges.filterMap fun (address, bits) ↦
    (parse family address.toList).map fun base ↦ ⟨base, bits⟩

/-- The private block list of a family. -/
def privateBlockList : Family → BlockList
  | .ipv4 => createIpBlockList privateIPv4Ranges .ipv4
  | .ipv6 => createIpBlockList privateIPv6Ranges .ipv6

example : (privateBlockList .ipv4).subnets.length = privateIPv4Ranges.length ∧
    (privateBlockList .ipv6).subnets.length = privateIPv6Ranges.length := by decide +kernel

/-- Whether an address is in the private block list of a family. -/
def isPrivateIpAddress (ip : List Char) (family : Family) : Bool :=
  (privateBlockList family).check ip

/-! ## Requests and records -/

/-- A record of a DNS answer. -/
structure LookupAddress where
  address : List Char
  family : ℕ
  deriving DecidableEq

/-- A record whose family is one of the two. -/
structure ResolvedLookupAddress where
  address : List Char
  family : Family
  deriving DecidableEq

/-- The record, if its family is one of the two. -/
def hasIpFamily (record : LookupAddress) : Option ResolvedLookupAddress :=
  match record.family with
  | 4 => some ⟨record.address, .ipv4⟩
  | 6 => some ⟨record.address, .ipv6⟩
  | _ => none

/-- What a request asks for: the parsed target of a CONNECT, or the host name and port of an
absolute URL. -/
structure Request where
  host : Host
  port : ℕ
  deriving DecidableEq

/-- Where the proxy connects to. -/
structure Target where
  address : List Char
  family : Family
  hostname : Host
  port : ℕ
  deriving DecidableEq

/-- The settings of a proxy. -/
structure ProxyConfig (Time : Type) where
  allowedHosts : List Host
  allowedPorts : List ℕ
  dnsTtlMs : Time
  shouldBlockPrivateIps : Bool

/-- The public records of one host name, and the time they are good until. -/
structure DnsCacheEntry (Time : Type) where
  records : List ResolvedLookupAddress
  untilMs : Time

/-- A DNS lookup in flight: the request that waits for it, and the clock reading before it. -/
structure Lookup (Time : Type) where
  request : Request
  hostname : Host
  nowMs : Time
  deriving DecidableEq

/-- Where the address of a target comes from. -/
inductive Origin (Time : Type) where
  | literal
  | lookup (lookup : Lookup Time)
  | cache (nowMs : Time)
  deriving DecidableEq

/-- What has happened. -/
inductive Event (Time : Type) where
  /-- `authorize` has returned a target. -/
  | returned (request : Request) (target : Target) (origin : Origin Time)
  /-- `authorize` has thrown. -/
  | thrown (request : Request) (message : String)
  /-- A lookup has come back with these public records. -/
  | resolved (lookup : Lookup Time) (records : List ResolvedLookupAddress)
  deriving DecidableEq

/-- The cache, the lookups in flight, and what has happened, latest first. -/
structure ProxyState (Time : Type) where
  dnsCache : OrderedMap Host (DnsCacheEntry Time)
  pending : List (Lookup Time)
  history : List (Event Time)

/-- What reaches the proxy. -/
inductive Action (Time : Type) where
  /-- A request arrives; the clock reads `nowMs` when `resolveHost` asks for it. -/
  | request (request : Request) (nowMs : Time)
  /-- The lookup at this place returns an answer. -/
  | answer (index : ℕ) (lookupRecords : List LookupAddress)
  /-- The lookup at this place throws. -/
  | fail (index : ℕ) (message : String)

/-! ## Resolving -/

section Resolving

variable {Time : Type} [AddCommGroup Time] [LinearOrder Time]

/-- What `resolveHost` finds before it awaits a lookup. -/
inductive Found (Time : Type) where
  | record (record : ResolvedLookupAddress) (origin : Origin Time)
  | lookup

/-- `resolveHost` up to the `await`, with the cache it leaves. -/
def findRecord (config : ProxyConfig Time) (dnsCache : OrderedMap Host (DnsCacheEntry Time))
    (hostname : Host) (nowMs : Time) :
    Except String (Found Time × OrderedMap Host (DnsCacheEntry Time)) :=
  match isIP hostname with
  | some family =>
      if config.shouldBlockPrivateIps && isPrivateIpAddress hostname family then
        .error ("private IP blocked: " ++ String.ofList hostname)
      else .ok (.record ⟨hostname, family⟩ .literal, dnsCache)
  | none =>
      match dnsCache.get hostname with
      | none => .ok (.lookup, dnsCache)
      | some cached =>
          if cached.untilMs > nowMs then
            match cached.records with
            | cachedRecord :: _ => .ok (.record cachedRecord (.cache nowMs), dnsCache)
            | [] => .ok (.lookup, dnsCache)
          else .ok (.lookup, dnsCache.delete hostname)

/-- IPv4 records come before IPv6 records. -/
def familyLE (a b : ResolvedLookupAddress) : Prop := a.family.width ≤ b.family.width

instance : DecidableRel familyLE := fun _ _ ↦ inferInstanceAs (Decidable (_ ≤ _))

/-- The records that are kept of an answer, sorted by family; the sort is stable. -/
def publicRecords (config : ProxyConfig Time) (lookupRecords : List LookupAddress) :
    List ResolvedLookupAddress :=
  let records := (lookupRecords.filterMap hasIpFamily).filter fun record ↦
    !(config.shouldBlockPrivateIps && isPrivateIpAddress record.address record.family)
  records.insertionSort familyLE

/-- `authorize` up to the `await`: the checked host name and what `resolveHost` finds. -/
def beginAuthorize (runtime : Runtime) (config : ProxyConfig Time)
    (dnsCache : OrderedMap Host (DnsCacheEntry Time)) (request : Request) (nowMs : Time) :
    Except String (Host × Found Time × OrderedMap Host (DnsCacheEntry Time)) :=
  match normalizeHost runtime request.host with
  | none => .error "empty or invalid host"
  | some hostname =>
      if request.port ∉ config.allowedPorts then
        .error ("port not allowed: " ++ toString request.port)
      else if hostAllowed hostname config.allowedHosts = false then
        .error ("host not allowed: " ++ String.ofList hostname)
      else do
        let found ← findRecord config dnsCache hostname nowMs
        return (hostname, found)

/-- The target of a request that has been authorized. -/
def targetOf (request : Request) (hostname : Host) (record : ResolvedLookupAddress) : Target :=
  ⟨record.address, record.family, hostname, request.port⟩

/-- The rest of `authorize` after a lookup has come back. -/
def finishLookup (config : ProxyConfig Time) (s : ProxyState Time) (lookup : Lookup Time)
    (lookupRecords : List LookupAddress) : ProxyState Time :=
  match publicRecords config lookupRecords with
  | [] =>
      let message := "no public address for " ++ String.ofList lookup.hostname
      { s with history := .thrown lookup.request message :: s.history }
  | firstRecord :: others =>
      let records := firstRecord :: others
      { s with
        dnsCache :=
          if config.dnsTtlMs > 0 then
            s.dnsCache.set lookup.hostname ⟨records, lookup.nowMs + config.dnsTtlMs⟩
          else s.dnsCache
        history :=
          .returned lookup.request (targetOf lookup.request lookup.hostname firstRecord)
            (.lookup lookup) :: .resolved lookup records :: s.history }

/-- One step of the proxy. -/
def step (runtime : Runtime) (config : ProxyConfig Time) (s : ProxyState Time) :
    Action Time → Option (ProxyState Time)
  | .request request nowMs =>
      match beginAuthorize runtime config s.dnsCache request nowMs with
      | .error message => some { s with history := .thrown request message :: s.history }
      | .ok (hostname, .record record origin, dnsCache) =>
          some { s with
            dnsCache := dnsCache
            history := .returned request (targetOf request hostname record) origin :: s.history }
      | .ok (hostname, .lookup, dnsCache) =>
          some { s with
            dnsCache := dnsCache
            pending := s.pending ++ [⟨request, hostname, nowMs⟩] }
  | .answer index lookupRecords => do
      let lookup ← s.pending[index]?
      return finishLookup config { s with pending := s.pending.eraseIdx index } lookup lookupRecords
  | .fail index message => do
      let lookup ← s.pending[index]?
      return { s with
        pending := s.pending.eraseIdx index
        history := .thrown lookup.request message :: s.history }

/-- A proxy that has not seen a request yet. -/
def ProxyState.initial : ProxyState Time := ⟨OrderedMap.empty, [], []⟩

end Resolving

end CoreUtils.Clearance
