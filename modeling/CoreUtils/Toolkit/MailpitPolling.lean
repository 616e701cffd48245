import CoreUtils.Library.Dates
import CoreUtils.Library.StateExcept
import CoreUtils.Toolkit.Mailpit

/-!
# What polling Mailpit finds

The cache of the polling has what was extracted from the messages that have been fetched
(`PollInvariant`). An attempt keeps this and passes over a candidate only for a reason
(`checkCandidates_spec`), and so the value of a polling that resolves is that of the newest usable
message. No message is fetched that is in the cache, and a message gets there unless its extraction
throws (`FetchedOnce`), so that none is fetched twice in a run in which no extraction throws a
transient error (`fetchMailpitValue_newest`).
-/

namespace CoreUtils.Toolkit.Mailpit

open Retry

variable {E τ : Type*} {platform : Platform τ} {params : FetchMailpitValueParams E τ}
  {s : PollState E τ} {attempt index : ℕ} {message : MailpitMessageSummary}

/-! ## The cache -/

/-- What has been fetched is in the cache. -/
def Known (s : PollState E τ) : Prop :=
  ∀ id ∈ s.fetched.map Prod.fst, (s.valuesByMessageId.get id).isSome = true

/-- No message has been fetched twice, and what has been fetched is in the cache. -/
structure FetchedOnce (s : PollState E τ) : Prop where
  once : (s.fetched.map Prod.fst).Nodup
  known : Known s

/-- An extraction throws no transient error of the client's class. -/
def Extracts (params : FetchMailpitValueParams E τ) (fullMessage : MailpitMessage) : Prop :=
  ∀ error, params.extractValue fullMessage = .error error → isTransientMailpitError error = false

/-- So it is for all messages that have been fetched. -/
def AllExtract (params : FetchMailpitValueParams E τ) (s : PollState E τ) : Prop :=
  ∀ entry ∈ s.fetched, Extracts params entry.2

/-- A value that is not excluded has been extracted from a message that was fetched for an
identifier. -/
def Found (params : FetchMailpitValueParams E τ) (s : PollState E τ) (id value : Text) : Prop :=
  params.excludes value = false ∧
    ∃ fullMessage, (id, fullMessage) ∈ s.fetched ∧
      params.extractValue fullMessage = .ok (some value)

/-- Why an attempt passes over a candidate: its request or the extraction fails transiently in the
attempt, or its message has no value or an excluded one. -/
def PassedOver (params : FetchMailpitValueParams E τ) (s : PollState E τ) (attempt index : ℕ)
    (message : MailpitMessageSummary) : Prop :=
  (∃ error, isTransientMailpitError error = true ∧
    (⟨attempt, index, message.id, .error error⟩ ∈ s.requests ∨
      ∃ fullMessage, ⟨attempt, index, message.id, .ok fullMessage⟩ ∈ s.requests ∧
        params.extractValue fullMessage = .error error)) ∨
  ∃ fullMessage, (message.id, fullMessage) ∈ s.fetched ∧
    (params.extractValue fullMessage = .ok none ∨
      ∃ value, params.extractValue fullMessage = .ok (some value) ∧ params.excludes value = true)

/-- There are more requests. -/
def Extends (s next : PollState E τ) : Prop := ∃ more, next.requests = s.requests ++ more

/-- Requests are never forgotten. -/
theorem Extends.trans {next last : PollState E τ} (h : Extends s next) (h' : Extends next last) :
    Extends s last := by
  obtain ⟨more, hmore⟩ := h
  obtain ⟨rest, hrest⟩ := h'
  exact ⟨more ++ rest, by rw [hrest, hmore, List.append_assoc]⟩

/-- What has been fetched stays fetched. -/
theorem Extends.fetched {next : PollState E τ} (h : Extends s next) {entry : Text × MailpitMessage}
    (hentry : entry ∈ s.fetched) : entry ∈ next.fetched := by
  obtain ⟨more, hmore⟩ := h
  rw [PollState.fetched, hmore, List.filterMap_append]
  exact List.mem_append_left _ hentry

/-- When all messages extract, so have those that were fetched before. -/
theorem AllExtract.of_extends {next : PollState E τ} (h : AllExtract params next)
    (hextends : Extends s next) : AllExtract params s :=
  fun entry hentry ↦ h entry (hextends.fetched hentry)

/-- A reason to pass over a candidate stays one. -/
theorem PassedOver.mono {next : PollState E τ} (h : PassedOver params s attempt index message)
    (hextends : Extends s next) : PassedOver params next attempt index message := by
  rcases h with ⟨error, htransient, hfailed⟩ | ⟨fullMessage, hfetched, hvalue⟩
  · obtain ⟨more, hmore⟩ := hextends
    refine .inl ⟨error, htransient, ?_⟩
    rcases hfailed with hrequest | ⟨fullMessage, hrequest, hvalue⟩
    · exact .inl (hmore ▸ List.mem_append_left _ hrequest)
    · exact .inr ⟨fullMessage, hmore ▸ List.mem_append_left _ hrequest, hvalue⟩
  · exact .inr ⟨fullMessage, hextends.fetched hfetched, hvalue⟩

/-- A value that is used has been extracted, and is not excluded. -/
theorem usableValue_eq_some {value : Option Text} {used : Text}
    (h : usableValue params value = some used) :
    value = some used ∧ params.excludes used = false := by
  obtain ⟨hvalue, hused⟩ := Option.filter_eq_some_iff.mp h
  exact ⟨hvalue, by simpa using hused⟩

/-- A value that is not used is missing or excluded. -/
theorem usableValue_eq_none {value : Option Text} (h : usableValue params value = none) :
    value = none ∨ ∃ extracted, value = some extracted ∧ params.excludes extracted = true := by
  cases value with
  | none => exact .inl rfl
  | some extracted => exact .inr ⟨extracted, rfl, by simpa [usableValue] using h⟩

/-! ## One candidate -/

/-- What the body of the loop can lead to. -/
def CandidateOutcome (params : FetchMailpitValueParams E τ) (attempt index : ℕ)
    (message : MailpitMessageSummary) (s : PollState E τ) :
    Except (PollError E) (Option Text) → Prop
  | .error error => isTransientPollError error = false
  | .ok none => PassedOver params s attempt index message
  | .ok (some value) => Found params s message.id value

/-- What an extracted value leads to. -/
theorem candidateOutcome_usableValue {value : Option Text} {fullMessage : MailpitMessage}
    (hfetched : (message.id, fullMessage) ∈ s.fetched)
    (hvalue : params.extractValue fullMessage = .ok value) :
    CandidateOutcome params attempt index message s (.ok (usableValue params value)) := by
  cases hused : usableValue params value with
  | none =>
      refine .inr ⟨fullMessage, hfetched, ?_⟩
      rcases usableValue_eq_none hused with rfl | ⟨extracted, rfl, hexcluded⟩
      · exact .inl hvalue
      · exact .inr ⟨extracted, hvalue, hexcluded⟩
  | some used =>
      obtain ⟨rfl, hallowed⟩ := usableValue_eq_some hused
      exact ⟨hallowed, fullMessage, hfetched, hvalue⟩

/-- What one more request adds to what has been fetched. -/
theorem fetched_append (values : OrderedMap Text (Option Text))
    (pollingSnapshot : MailpitPollingSnapshot τ) (requests : List (MessageRequest E))
    (request : MessageRequest E) :
    (PollState.mk values pollingSnapshot (requests ++ [request])).fetched =
      requests.filterMap MessageRequest.fetched ++ request.fetched.toList := by
  rw [PollState.fetched, List.filterMap_append]
  cases hrequest : request.fetched <;> simp [hrequest]

/-- A request that fails fetches nothing. -/
theorem fetched_failed (pollingSnapshot : MailpitPollingSnapshot τ) (error : ClientError E) :
    (PollState.mk s.valuesByMessageId pollingSnapshot
      (s.requests ++ [⟨attempt, index, message.id, .error error⟩])).fetched = s.fetched := by
  rw [fetched_append]
  exact List.append_nil _

/-- A request that succeeds fetches a message. -/
theorem fetched_ok (values : OrderedMap Text (Option Text))
    (pollingSnapshot : MailpitPollingSnapshot τ) (fullMessage : MailpitMessage) :
    (PollState.mk values pollingSnapshot
      (s.requests ++ [⟨attempt, index, message.id, .ok fullMessage⟩])).fetched =
      s.fetched ++ [(message.id, fullMessage)] := by
  rw [fetched_append]
  rfl

/-- The message of a request that succeeds, if it is not in the cache, is fetched for the first
time. -/
theorem FetchedOnce.append (honce : FetchedOnce s)
    (hcache : s.valuesByMessageId.get message.id = none)
    (values : OrderedMap Text (Option Text)) (pollingSnapshot : MailpitPollingSnapshot τ)
    (fullMessage : MailpitMessage) :
    ((PollState.mk values pollingSnapshot
      (s.requests ++ [⟨attempt, index, message.id, .ok fullMessage⟩])).fetched.map
        Prod.fst).Nodup := by
  have hnew : message.id ∉ s.fetched.map Prod.fst := fun hmem ↦ by
    have hsome := honce.known _ hmem
    rw [hcache] at hsome
    exact absurd hsome (by decide)
  rw [fetched_ok, List.map_append, List.nodup_append']
  exact ⟨honce.once, List.nodup_singleton _, by simpa using hnew⟩

/-- The cache has the message that has just been fetched. -/
theorem Known.fetchedOne (hknown : Known s) (value : Option Text)
    (pollingSnapshot : MailpitPollingSnapshot τ) (fullMessage : MailpitMessage) :
    Known (PollState.mk (s.valuesByMessageId.set message.id value) pollingSnapshot
      (s.requests ++ [⟨attempt, index, message.id, .ok fullMessage⟩])) := by
  intro id hid
  rw [fetched_ok, List.map_append, List.mem_append] at hid
  rw [OrderedMap.get_set]
  by_cases hsame : id = message.id
  · rw [if_pos hsame]
    rfl
  · rw [if_neg hsame]
    exact hknown id (hid.resolve_right fun hlast ↦ hsame (List.mem_singleton.mp hlast))

/-! ## The invariant -/

section Candidates

variable [LinearOrder τ] {environment : MailpitEnvironment E τ}

/-- What the cache and the requests are in every attempt: the cached values are extracted from
messages that have been fetched, and the requests have been answered by the client. -/
structure PollInvariant (params : FetchMailpitValueParams E τ)
    (environment : MailpitEnvironment E τ) (s : PollState E τ) : Prop where
  cached : ∀ id value, s.valuesByMessageId.get id = some value →
    ∃ fullMessage, (id, fullMessage) ∈ s.fetched ∧ params.extractValue fullMessage = .ok value
  answered : ∀ request ∈ s.requests,
    environment.getMessage request.attempt request.index request.messageId = request.outcome

/-- The snapshot has no part in the invariant. -/
theorem PollInvariant.snapshot (hinv : PollInvariant params environment s)
    (pollingSnapshot : MailpitPollingSnapshot τ) :
    PollInvariant params environment { s with pollingSnapshot } :=
  ⟨hinv.cached, hinv.answered⟩

/-- One more request is answered. -/
theorem PollInvariant.answered_append (hinv : PollInvariant params environment s)
    {request : MessageRequest E}
    (hrequest : environment.getMessage request.attempt request.index request.messageId =
      request.outcome) :
    ∀ r ∈ s.requests ++ [request],
      environment.getMessage r.attempt r.index r.messageId = r.outcome := by
  intro r hr
  rcases List.mem_append.mp hr with hold | hlast
  · exact hinv.answered r hold
  · rw [List.mem_singleton.mp hlast]
    exact hrequest

/-- A request that fails keeps the invariant. -/
theorem PollInvariant.failed (hinv : PollInvariant params environment s) {error : ClientError E}
    (houtcome : environment.getMessage attempt index message.id = .error error)
    (pollingSnapshot : MailpitPollingSnapshot τ) :
    PollInvariant params environment (PollState.mk s.valuesByMessageId pollingSnapshot
      (s.requests ++ [⟨attempt, index, message.id, .error error⟩])) where
  cached id value hget := by
    rw [fetched_failed]
    exact hinv.cached id value hget
  answered := hinv.answered_append houtcome

/-- A request that succeeds keeps the invariant, if the cache gets nothing but what is extracted
from the message. -/
theorem PollInvariant.fetchedOne (hinv : PollInvariant params environment s)
    {fullMessage : MailpitMessage}
    (houtcome : environment.getMessage attempt index message.id = .ok fullMessage)
    {values : OrderedMap Text (Option Text)}
    (hvalues : ∀ id value, values.get id = some value →
      s.valuesByMessageId.get id = some value ∨
        id = message.id ∧ params.extractValue fullMessage = .ok value)
    (pollingSnapshot : MailpitPollingSnapshot τ) :
    PollInvariant params environment (PollState.mk values pollingSnapshot
      (s.requests ++ [⟨attempt, index, message.id, .ok fullMessage⟩])) where
  cached id value hget := by
    rw [fetched_ok]
    rcases hvalues id value hget with hold | ⟨rfl, hvalue⟩
    · obtain ⟨earlier, hearlier, hextracted⟩ := hinv.cached id value hold
      exact ⟨earlier, List.mem_append_left _ hearlier, hextracted⟩
    · exact ⟨fullMessage, List.mem_append_right _ (List.mem_singleton_self _), hvalue⟩
  answered := hinv.answered_append houtcome

/-- The body of the loop keeps the requests. -/
theorem checkCandidate_extends (attempt index : ℕ) (message : MailpitMessageSummary) :
    Extends s (checkCandidate params environment attempt index message s).2 := by
  unfold checkCandidate
  split
  · exact ⟨[], (List.append_nil _).symm⟩
  · simp only
    split
    · split
      · exact ⟨_, rfl⟩
      · exact ⟨_, rfl⟩
    · split
      · split
        · exact ⟨_, rfl⟩
        · exact ⟨_, rfl⟩
      · exact ⟨_, rfl⟩

/-- The body of the loop keeps the invariant, and does one of the three. -/
theorem checkCandidate_spec (hinv : PollInvariant params environment s) (attempt index : ℕ)
    (message : MailpitMessageSummary) :
    PollInvariant params environment
        (checkCandidate params environment attempt index message s).2 ∧
      CandidateOutcome params attempt index message
        (checkCandidate params environment attempt index message s).2
        (checkCandidate params environment attempt index message s).1 := by
  unfold checkCandidate
  cases hcache : s.valuesByMessageId.get message.id with
  | some cachedValue =>
      obtain ⟨fullMessage, hfetched, hvalue⟩ := hinv.cached _ _ hcache
      exact ⟨hinv, candidateOutcome_usableValue hfetched hvalue⟩
  | none =>
      cases houtcome : environment.getMessage attempt index message.id with
      | error error =>
          simp only
          by_cases htransient : isTransientMailpitError error = true
          · rw [if_pos htransient]
            refine ⟨hinv.failed houtcome _, .inl ⟨error, htransient, .inl ?_⟩⟩
            exact List.mem_append_right _ (List.mem_singleton_self _)
          · rw [if_neg htransient]
            exact ⟨hinv.failed houtcome _, Bool.eq_false_iff.mpr htransient⟩
      | ok fullMessage =>
          simp only
          cases hvalue : params.extractValue fullMessage with
          | error error =>
              have hkept := hinv.fetchedOne houtcome (fun id value hget ↦ .inl hget)
              simp only
              by_cases htransient : isTransientMailpitError error = true
              · rw [if_pos htransient]
                refine ⟨hkept _, .inl ⟨error, htransient, .inr ⟨fullMessage, ?_, hvalue⟩⟩⟩
                exact List.mem_append_right _ (List.mem_singleton_self _)
              · rw [if_neg htransient]
                exact ⟨hkept _, Bool.eq_false_iff.mpr htransient⟩
          | ok value =>
              refine ⟨hinv.fetchedOne houtcome (fun id stored hget ↦ ?_) _,
                candidateOutcome_usableValue ?_ hvalue⟩
              · rw [OrderedMap.get_set] at hget
                by_cases hsame : id = message.id
                · rw [if_pos hsame] at hget
                  exact .inr ⟨hsame, Option.some.inj hget ▸ hvalue⟩
                · rw [if_neg hsame] at hget
                  exact .inl hget
              · rw [fetched_ok]
                exact List.mem_append_right _ (List.mem_singleton_self _)

/-- The body of the loop fetches no message twice, and the cache has what was fetched unless an
error is thrown. -/
theorem checkCandidate_once (honce : FetchedOnce s) (attempt index : ℕ)
    (message : MailpitMessageSummary)
    (hextract : AllExtract params
      (checkCandidate params environment attempt index message s).2) :
    ((checkCandidate params environment attempt index message s).2.fetched.map
        Prod.fst).Nodup ∧
      ∀ value, (checkCandidate params environment attempt index message s).1 = .ok value →
        Known (checkCandidate params environment attempt index message s).2 := by
  unfold checkCandidate at hextract ⊢
  cases hcache : s.valuesByMessageId.get message.id with
  | some cachedValue => exact ⟨honce.once, fun _ _ ↦ honce.known⟩
  | none =>
      simp only [hcache] at hextract
      cases houtcome : environment.getMessage attempt index message.id with
      | error error =>
          simp only
          split
          · refine ⟨?_, fun _ _ ↦ ?_⟩
            · rw [fetched_failed]
              exact honce.once
            · rw [Known, fetched_failed]
              exact honce.known
          · refine ⟨?_, fun value hvalue ↦ by cases hvalue⟩
            rw [fetched_failed]
            exact honce.once
      | ok fullMessage =>
          simp only [houtcome] at hextract ⊢
          cases hvalue : params.extractValue fullMessage with
          | error error =>
              simp only [hvalue] at hextract ⊢
              -- an error that is not transient is thrown, so that the loop is over
              by_cases htransient : isTransientMailpitError error = true
              · rw [if_pos htransient] at hextract
                have hfetched : (message.id, fullMessage) ∈ (PollState.mk s.valuesByMessageId
                    (recordTransientRequestError error { s.pollingSnapshot with
                      fetchedMessageCount := s.pollingSnapshot.fetchedMessageCount + 1 })
                    (s.requests ++ [⟨attempt, index, message.id, .ok fullMessage⟩])).fetched := by
                  rw [fetched_ok]
                  exact List.mem_append_right _ (List.mem_singleton_self _)
                rw [hextract _ hfetched error hvalue] at htransient
                exact absurd htransient Bool.false_ne_true
              · rw [if_neg htransient]
                exact ⟨honce.append hcache _ _ fullMessage, fun value hvalue ↦ by cases hvalue⟩
          | ok value =>
              exact ⟨honce.append hcache _ _ fullMessage,
                fun _ _ ↦ honce.known.fetchedOne value _ fullMessage⟩

/-! ## The candidates of an attempt -/

/-- What the loop can lead to. -/
def CandidatesOutcome (params : FetchMailpitValueParams E τ) (attempt index : ℕ)
    (candidates : List MailpitMessageSummary) (s : PollState E τ) :
    Except (PollError E) (Option (MailpitMessageSummary × Text)) → Prop
  | .error error => isTransientPollError error = false
  | .ok none => True
  | .ok (some (message, value)) => Found params s message.id value ∧
      ∃ before after, candidates = before ++ message :: after ∧
        ∀ i other, before[i]? = some other → PassedOver params s attempt (index + i) other

/-- The loop keeps the requests. -/
theorem checkCandidates_extends (candidates : List MailpitMessageSummary) (attempt index : ℕ) :
    Extends s (checkCandidates params environment attempt index candidates s).2 := by
  induction candidates generalizing s index with
  | nil => exact ⟨[], (List.append_nil _).symm⟩
  | cons message rest ih =>
      have hfirst : Extends s (checkCandidate params environment attempt index message s).2 :=
        checkCandidate_extends attempt index message
      rw [checkCandidates]
      generalize checkCandidate params environment attempt index message s = checked at hfirst
      obtain ⟨outcome, next⟩ := checked
      cases outcome with
      | error error => exact hfirst
      | ok value =>
          cases value with
          | some value => exact hfirst
          | none => exact hfirst.trans (ih (index + 1))

/-- The loop keeps the invariant, and ends with the first usable candidate, an error that is not
transient, or nothing. -/
theorem checkCandidates_spec (candidates : List MailpitMessageSummary)
    (hinv : PollInvariant params environment s) (attempt index : ℕ) :
    PollInvariant params environment
        (checkCandidates params environment attempt index candidates s).2 ∧
      CandidatesOutcome params attempt index candidates
        (checkCandidates params environment attempt index candidates s).2
        (checkCandidates params environment attempt index candidates s).1 := by
  induction candidates generalizing s index with
  | nil => exact ⟨hinv, trivial⟩
  | cons message rest ih =>
      have hfirst := checkCandidate_spec hinv attempt index message
      rw [checkCandidates]
      generalize checkCandidate params environment attempt index message s = checked at hfirst
      obtain ⟨outcome, next⟩ := checked
      obtain ⟨hinv', houtcome⟩ := hfirst
      cases outcome with
      | error error => exact ⟨hinv', houtcome⟩
      | ok value =>
          cases value with
          | some value => exact ⟨hinv', houtcome, [], rest, rfl, nofun⟩
          | none =>
              have hrest := ih hinv' (index + 1)
              have hextends : Extends next
                  (checkCandidates params environment attempt (index + 1) rest next).2 :=
                checkCandidates_extends rest attempt (index + 1)
              simp only
              generalize checkCandidates params environment attempt (index + 1) rest next =
                checked at hrest hextends
              obtain ⟨outcome, last⟩ := checked
              obtain ⟨hinv'', hlast⟩ := hrest
              refine ⟨hinv'', ?_⟩
              cases outcome with
              | error error => exact hlast
              | ok found =>
                  cases found with
                  | none => exact hlast
                  | some found =>
                      obtain ⟨hfound, before, after, hsplit, hbefore⟩ := hlast
                      refine ⟨hfound, message :: before, after,
                        congrArg (message :: ·) hsplit, fun i other hother ↦ ?_⟩
                      cases i with
                      | zero =>
                          obtain rfl := Option.some.inj hother
                          exact houtcome.mono hextends
                      | succ i =>
                          have hlater := hbefore i other hother
                          rwa [Nat.add_right_comm, Nat.add_assoc] at hlater

/-- The loop fetches no message twice. -/
theorem checkCandidates_once (candidates : List MailpitMessageSummary) (honce : FetchedOnce s)
    (attempt index : ℕ)
    (hextract : AllExtract params
      (checkCandidates params environment attempt index candidates s).2) :
    ((checkCandidates params environment attempt index candidates s).2.fetched.map
        Prod.fst).Nodup ∧
      ∀ found, (checkCandidates params environment attempt index candidates s).1 = .ok found →
        Known (checkCandidates params environment attempt index candidates s).2 := by
  induction candidates generalizing s index with
  | nil => exact ⟨honce.once, fun _ _ ↦ honce.known⟩
  | cons message rest ih =>
      have hfirst : AllExtract params
          (checkCandidate params environment attempt index message s).2 → _ :=
        checkCandidate_once honce attempt index message
      rw [checkCandidates] at hextract ⊢
      generalize checkCandidate params environment attempt index message s = checked
        at hfirst hextract
      obtain ⟨outcome, next⟩ := checked
      cases outcome with
      | error error => exact ⟨(hfirst hextract).1, fun found hfound ↦ by cases hfound⟩
      | ok value =>
          cases value with
          | some value =>
              obtain ⟨hnodup, hknown⟩ := hfirst hextract
              exact ⟨hnodup, fun _ _ ↦ hknown _ rfl⟩
          | none =>
              have hextends : Extends next
                  (checkCandidates params environment attempt (index + 1) rest next).2 :=
                checkCandidates_extends rest attempt (index + 1)
              obtain ⟨hnodup, hknown⟩ := hfirst (hextract.of_extends hextends)
              exact ih ⟨hnodup, hknown _ rfl⟩ (index + 1) hextract

end Candidates

/-! ## The newest first -/

section Order

variable [Ring τ] [LinearOrder τ] [IsStrictOrderedRing τ]

/-- A message is newer than another: its timestamp is later, or the other has none. -/
def IsNewer (platform : Platform τ) (first second : MailpitMessageSummary) : Prop :=
  compareMailpitMessagesNewestFirst platform first second < 0

omit [LinearOrder τ] [IsStrictOrderedRing τ] in
/-- The comparison the other way round. -/
theorem compareMailpitMessagesNewestFirst_neg (first second : MailpitMessageSummary) :
    compareMailpitMessagesNewestFirst platform second first =
      -compareMailpitMessagesNewestFirst platform first second := by
  unfold compareMailpitMessagesNewestFirst
  cases getMailpitMessageTimestampMs platform first <;>
    cases getMailpitMessageTimestampMs platform second <;> simp

/-- The comparison is transitive. -/
theorem compareMailpitMessagesNewestFirst_trans {first second third : MailpitMessageSummary}
    (h : compareMailpitMessagesNewestFirst platform first second ≤ 0)
    (h' : compareMailpitMessagesNewestFirst platform second third ≤ 0) :
    compareMailpitMessagesNewestFirst platform first third ≤ 0 := by
  have hone : ¬(1 : τ) ≤ 0 := not_le.mpr zero_lt_one
  have hnegative : (-1 : τ) ≤ 0 := neg_nonpos.mpr zero_le_one
  unfold compareMailpitMessagesNewestFirst at h h' ⊢
  generalize getMailpitMessageTimestampMs platform first = firstTimestamp at h ⊢
  generalize getMailpitMessageTimestampMs platform second = secondTimestamp at h h'
  generalize getMailpitMessageTimestampMs platform third = thirdTimestamp at h' ⊢
  cases firstTimestamp with
  | none =>
      cases secondTimestamp with
      | none => exact h'
      | some time => exact absurd h hone
  | some latest =>
      cases thirdTimestamp with
      | none => exact hnegative
      | some earliest =>
          cases secondTimestamp with
          | none => exact absurd h' hone
          | some time =>
              exact sub_nonpos.mpr ((sub_nonpos.mp h').trans (sub_nonpos.mp h))

instance (platform : Platform τ) : Std.Total fun first second ↦
    compareMailpitMessagesNewestFirst platform first second ≤ 0 where
  total first second := by
    rw [compareMailpitMessagesNewestFirst_neg first second, neg_nonpos]
    exact le_total _ _

instance (platform : Platform τ) : IsTrans MailpitMessageSummary fun first second ↦
    compareMailpitMessagesNewestFirst platform first second ≤ 0 where
  trans _ _ _ := compareMailpitMessagesNewestFirst_trans

/-- The candidates stand with the newest first. -/
theorem newestCandidates_pairwise (messages : List MailpitMessageSummary) :
    (newestCandidates platform params messages).Pairwise fun first second ↦
      compareMailpitMessagesNewestFirst platform first second ≤ 0 :=
  (List.pairwise_insertionSort _ _).sublist (List.take_sublist _ _)

/-- A candidate that is newer than another stands before it. -/
theorem lt_length_of_isNewer {messages before after : List MailpitMessageSummary}
    (hsplit : newestCandidates platform params messages = before ++ message :: after)
    {index : ℕ} {other : MailpitMessageSummary}
    (hother : (newestCandidates platform params messages)[index]? = some other)
    (hnewer : IsNewer platform other message) : index < before.length := by
  by_contra hlate
  have hpairwise : (newestCandidates platform params messages).Pairwise fun first second ↦
      compareMailpitMessagesNewestFirst platform first second ≤ 0 :=
    newestCandidates_pairwise messages
  rw [hsplit] at hother hpairwise
  rw [List.getElem?_append_right (not_lt.mp hlate)] at hother
  rw [IsNewer, compareMailpitMessagesNewestFirst_neg message other, neg_lt_zero] at hnewer
  rcases List.mem_cons.mp (List.mem_of_getElem? hother) with rfl | hafter
  · have hself : compareMailpitMessagesNewestFirst platform other other =
        -compareMailpitMessagesNewestFirst platform other other :=
      compareMailpitMessagesNewestFirst_neg other other
    rw [self_eq_neg] at hself
    exact absurd hself hnewer.ne'
  · have hle := (List.pairwise_cons.mp (List.pairwise_append.mp hpairwise).2.1).1 other hafter
    exact absurd hle (not_le.mpr hnewer)

end Order

/-! ## Attempts -/

section Attempts

variable [Ring τ] [LinearOrder τ] {environment : MailpitEnvironment E τ}

/-- What an attempt can lead to. -/
def AttemptOutcome (platform : Platform τ) (params : FetchMailpitValueParams E τ)
    (environment : MailpitEnvironment E τ) (attempt : ℕ) (s : PollState E τ) :
    Except (PollError E) FetchMailpitValueResult → Prop
  | .error _ => True
  | .ok result => ∃ messages message before after,
      environment.searchMessages attempt (mailpitQuery params) = .ok messages ∧
      newestCandidates platform params messages = before ++ message :: after ∧
      result.messageId = message.id ∧ Found params s message.id result.value ∧
      ∀ index other, before[index]? = some other → PassedOver params s attempt index other

/-- An attempt keeps the requests. -/
theorem pollMailpit_extends (platform : Platform τ) (attempt : ℕ) :
    Extends s (pollMailpit platform params environment attempt s).2 := by
  unfold pollMailpit
  cases hsearch : environment.searchMessages attempt (mailpitQuery params) with
  | error error =>
      simp only
      split
      · exact ⟨[], (List.append_nil _).symm⟩
      · exact ⟨[], (List.append_nil _).symm⟩
  | ok messages =>
      simp only
      have hcandidates : ∀ pollingSnapshot, Extends { s with pollingSnapshot }
          (checkCandidates params environment attempt 0 (newestCandidates platform params messages)
            { s with pollingSnapshot }).2 :=
        fun _ ↦ checkCandidates_extends _ attempt 0
      split
      · rename_i checked hchecked
        exact congrArg Prod.snd hchecked ▸ hcandidates _
      · rename_i checked hchecked
        exact congrArg Prod.snd hchecked ▸ hcandidates _
      · rename_i message value checked hchecked
        exact congrArg Prod.snd hchecked ▸ hcandidates _

/-- An attempt keeps the invariant, and ends with the first usable candidate or an error. -/
theorem pollMailpit_spec (platform : Platform τ) (hinv : PollInvariant params environment s)
    (attempt : ℕ) :
    PollInvariant params environment (pollMailpit platform params environment attempt s).2 ∧
      AttemptOutcome platform params environment attempt
        (pollMailpit platform params environment attempt s).2
        (pollMailpit platform params environment attempt s).1 := by
  unfold pollMailpit
  cases hsearch : environment.searchMessages attempt (mailpitQuery params) with
  | error error =>
      simp only
      split
      · exact ⟨hinv.snapshot _, trivial⟩
      · exact ⟨hinv.snapshot _, trivial⟩
  | ok messages =>
      simp only
      have hcandidates := checkCandidates_spec (newestCandidates platform params messages)
        (hinv.snapshot (recordSearch platform params messages { s.pollingSnapshot with
          searchAttempts := s.pollingSnapshot.searchAttempts + 1 })) attempt 0
      generalize checkCandidates params environment attempt 0 _ _ = checked at hcandidates
      obtain ⟨outcome, next⟩ := checked
      obtain ⟨hinv', houtcome⟩ := hcandidates
      cases outcome with
      | error error => exact ⟨hinv', trivial⟩
      | ok found =>
          cases found with
          | none => exact ⟨hinv', trivial⟩
          | some found =>
              obtain ⟨hfound, before, after, hsplit, hbefore⟩ := houtcome
              refine ⟨hinv', messages, found.1, before, after, hsearch, hsplit, rfl, hfound,
                fun index other hother ↦ ?_⟩
              have hpassed := hbefore index other hother
              rwa [Nat.zero_add] at hpassed

/-- An attempt fetches no message twice, and when its error is transient the cache has what was
fetched. -/
theorem pollMailpit_once (platform : Platform τ) (hinv : PollInvariant params environment s)
    (honce : FetchedOnce s) (attempt : ℕ)
    (hextract : AllExtract params (pollMailpit platform params environment attempt s).2) :
    ((pollMailpit platform params environment attempt s).2.fetched.map Prod.fst).Nodup ∧
      ∀ error, (pollMailpit platform params environment attempt s).1 = .error error →
        isTransientPollError error = true →
        Known (pollMailpit platform params environment attempt s).2 := by
  unfold pollMailpit at hextract ⊢
  cases hsearch : environment.searchMessages attempt (mailpitQuery params) with
  | error error =>
      simp only
      split
      · exact ⟨honce.once, fun _ _ _ ↦ honce.known⟩
      · exact ⟨honce.once, fun _ _ _ ↦ honce.known⟩
  | ok messages =>
      simp only [hsearch] at hextract ⊢
      generalize hsearched : (PollState.mk s.valuesByMessageId _ s.requests) = searched
        at hextract ⊢
      have hinv' : PollInvariant params environment searched :=
        hsearched ▸ ⟨hinv.cached, hinv.answered⟩
      have honce' : FetchedOnce searched := hsearched ▸ ⟨honce.once, honce.known⟩
      have hoa := (checkCandidates_spec (newestCandidates platform params messages) hinv' attempt
        0).2
      have hcandidates : AllExtract params (checkCandidates params environment attempt 0
          (newestCandidates platform params messages) searched).2 → _ :=
        checkCandidates_once _ honce' attempt 0
      generalize checkCandidates params environment attempt 0 _ _ = checked
        at hcandidates hoa hextract
      obtain ⟨outcome, next⟩ := checked
      cases outcome with
      | error error =>
          refine ⟨(hcandidates hextract).1, fun thrown hthrown htransient ↦ ?_⟩
          -- an error of the loop is not transient
          obtain rfl := Except.error.inj hthrown
          rw [show isTransientPollError error = false from hoa] at htransient
          exact absurd htransient Bool.false_ne_true
      | ok found =>
          cases found with
          | none =>
              obtain ⟨hnodup, hknown⟩ := hcandidates hextract
              exact ⟨hnodup, fun _ _ _ ↦ hknown _ rfl⟩
          | some found =>
              obtain ⟨hnodup, hknown⟩ := hcandidates hextract
              exact ⟨hnodup, fun _ _ _ ↦ hknown _ rfl⟩

/-- A number of attempts keeps the invariant. -/
theorem stateAfter_invariant (platform : Platform τ) (params : FetchMailpitValueParams E τ)
    (environment : MailpitEnvironment E τ) (attempts : ℕ) :
    PollInvariant params environment (stateAfter platform params environment attempts) := by
  induction attempts with
  | zero => exact ⟨fun _ _ ↦ nofun, fun _ ↦ nofun⟩
  | succ attempts ih => exact (pollMailpit_spec platform ih (attempts + 1)).1

omit [Ring τ] [LinearOrder τ] in
/-- An error of the operation that is thrown as a value is that value. -/
theorem PollError.eq_of_thrown {error value : PollError E} (h : error.thrown = .value value) :
    error = value := by
  match error with
  | .mailpitValueNotFound message => exact Thrown.value.inj h
  | .caught (.mailpitRequest error) => exact Thrown.value.inj h
  | .caught (.other (.value error)) => exact Thrown.value.inj h
  | .caught (.other (.pollAttemptTimeoutError run)) => exact absurd h nofun

/-- What `sentAfter` asks of a candidate. -/
theorem sentAfter_of_mem {messages : List MailpitMessageSummary}
    (h : message ∈ newestCandidates platform params messages) {timestampMs : τ}
    {sentAfter : Number τ}
    (htimestamp : getMailpitMessageTimestampMs platform message = some timestampMs)
    (hsentAfter : params.sentAfter = some sentAfter) :
    ∃ time, sentAfter = some time ∧ time - SENT_AFTER_TOLERANCE_MS ≤ timestampMs := by
  have hmem := (List.mem_insertionSort _).mp (List.mem_of_mem_take h)
  have hallowed := (List.mem_filter.mp hmem).2
  rw [isMessageSentAfter, hsentAfter, htimestamp] at hallowed
  cases sentAfter with
  | none => exact absurd hallowed Bool.false_ne_true
  | some time => exact ⟨time, rfl, of_decide_eq_true hallowed⟩

/-! ## Runs -/

variable [FloorRing τ]

/-- An attempt that is retried has failed transiently. -/
theorem transient_of_retriedAt {mode : ValidPoll (PollError E) τ} {n : ℕ}
    (hmode : mode.isTransient = some isTransientAttempt)
    (h : RetriedAt (pollEnvironment platform params environment) (.poll mode) n) :
    ∃ error, (pollMailpit platform params environment n
        (stateAfter platform params environment (n - 1))).1 = .error error ∧
      isTransientPollError error = true := by
  obtain ⟨error, context, hresult, herror, htransient⟩ := h.transient
  refine ⟨error, ?_, by simpa [hmode, isTransientAttempt, herror] using htransient⟩
  obtain ⟨rejection, hrejection, hthrown⟩ := StateExcept.mapError_eq_error.mp hresult
  rw [hrejection, PollError.eq_of_thrown hthrown]

/-- Attempts that are retried, and whose extractions throw nothing transient, fetch no message
twice. -/
theorem stateAfter_once {mode : ValidPoll (PollError E) τ} {attempts : ℕ}
    (hmode : mode.isTransient = some isTransientAttempt)
    (hretried : ∀ n, 1 ≤ n → n ≤ attempts →
      RetriedAt (pollEnvironment platform params environment) (.poll mode) n)
    (hextract : AllExtract params (stateAfter platform params environment attempts)) :
    FetchedOnce (stateAfter platform params environment attempts) := by
  induction attempts with
  | zero => exact ⟨List.nodup_nil, fun _ ↦ nofun⟩
  | succ attempts ih =>
      have honce := ih (fun n hfirst hn ↦ hretried n hfirst (hn.trans (Nat.le_succ _)))
        (hextract.of_extends (pollMailpit_extends platform (attempts + 1)))
      obtain ⟨hnodup, hknown⟩ := pollMailpit_once platform
        (stateAfter_invariant platform params environment attempts) honce (attempts + 1) hextract
      obtain ⟨error, hresult, htransient⟩ :=
        transient_of_retriedAt hmode (hretried (attempts + 1) (Nat.succ_pos _) le_rfl)
      exact ⟨hnodup, hknown error hresult htransient⟩

variable [IsStrictOrderedRing τ]

/-- The policy of a run that has begun. -/
theorem pollRun_eq_ok {iterations : ℕ}
    {progress : Progress FetchMailpitValueResult (PollError E) τ}
    (h : pollRun platform params environment iterations = .ok progress) :
    ∃ mode : ValidPoll (PollError E) τ, mode.isTransient = some isTransientAttempt ∧
      progress = runFor (pollEnvironment platform params environment) (.poll mode) iterations := by
  unfold pollRun runWithRetry at h
  cases hvalid : validateRetryMode (pollMode params) with
  | error message => simp [hvalid, Except.map] at h
  | ok valid =>
      obtain ⟨mode, rfl, hmode⟩ := validateRetryMode_poll hvalid
      rw [hvalid] at h
      exact ⟨mode, hmode, (Except.ok.inj h).symm⟩

/-- A run whose extractions throw nothing transient has fetched no message twice. -/
theorem pollRun_once {iterations : ℕ}
    {progress : Progress FetchMailpitValueResult (PollError E) τ}
    (h : pollRun platform params environment iterations = .ok progress)
    (hextract : AllExtract params
      (stateAfter platform params environment progress.state.attemptNumber)) :
    ((stateAfter platform params environment
      progress.state.attemptNumber).fetched.map Prod.fst).Nodup := by
  obtain ⟨mode, hmode, rfl⟩ := pollRun_eq_ok h
  generalize hattempts : (runFor (pollEnvironment platform params environment) (.poll mode)
    iterations).state.attemptNumber = attempts at hextract ⊢
  cases attempts with
  | zero => exact List.nodup_nil
  | succ attempts =>
      -- the last attempt need not be retried, so that the cache may lack its last message
      have honce := stateAfter_once hmode (fun n hfirst hn ↦
          retriedAt_of_lt _ _ iterations hfirst (by omega))
        (hextract.of_extends (pollMailpit_extends platform (attempts + 1)))
      exact (pollMailpit_once platform (stateAfter_invariant platform params environment attempts)
        honce (attempts + 1) hextract).1

/-- A run that resolves has done so in its last attempt. -/
theorem pollRun_success {iterations last : ℕ} {result : FetchMailpitValueResult}
    {final : LoopState (PollError E) τ}
    (h : pollRun platform params environment iterations =
      .ok (.ended final (.success result last))) :
    AttemptOutcome platform params environment last
      (stateAfter platform params environment last) (.ok result) := by
  obtain ⟨mode, -, hrun⟩ := pollRun_eq_ok h
  have hsteps := runFor_steps (pollEnvironment platform params environment) (.poll mode) iterations
  rw [← hrun] at hsteps
  obtain ⟨hpos, hresult, -⟩ := hsteps result last rfl
  obtain ⟨before, rfl⟩ : ∃ before, last = before + 1 := ⟨last - 1, by omega⟩
  have houtcome := (pollMailpit_spec platform
    (stateAfter_invariant platform params environment before) (before + 1)).2
  have hvalue : (pollMailpit platform params environment (before + 1)
      (stateAfter platform params environment before)).1 = .ok result :=
    StateExcept.mapError_eq_ok.mp hresult
  rwa [hvalue] at houtcome

/-- The polling resolves only as its retry loop does. -/
theorem pollRun_of_resolved {iterations : ℕ} {result : FetchMailpitValueResult}
    (h : fetchMailpitValue platform params environment iterations = .resolved result) :
    ∃ final last, pollRun platform params environment iterations =
      .ok (.ended final (.success result last)) := by
  unfold fetchMailpitValue at h
  split at h
  · contradiction
  · contradiction
  · rename_i final ending hrun
    cases ending with
    | success value last =>
        obtain rfl := FetchProgress.resolved.inj h
        exact ⟨final, last, hrun⟩
    | failed error =>
        rw [settleFetch] at h
        split at h <;> contradiction
    | threw error => contradiction
    | invalidDelay message => contradiction

/-- For all search results, messages, failures and extractions of a polling. When it resolves, its
value is not excluded, and it is what is extracted from the full message that was fetched for the
message it is attributed to; that message is a candidate of the last attempt, its timestamp is
missing or late enough, and each candidate before it, in particular each that is newer, was passed
over for a reason. The requests of a run are those that the client has answered, and if no
extraction of the run has thrown a transient error, none has fetched a message twice. -/
theorem fetchMailpitValue_newest (platform : Platform τ) (params : FetchMailpitValueParams E τ)
    (environment : MailpitEnvironment E τ) (iterations : ℕ) :
    (∀ result, fetchMailpitValue platform params environment iterations = .resolved result →
      ∃ final last messages message before after,
        pollRun platform params environment iterations =
          .ok (.ended final (.success result last)) ∧
        environment.searchMessages last (mailpitQuery params) = .ok messages ∧
        newestCandidates platform params messages = before ++ message :: after ∧
        result.messageId = message.id ∧
        result.value ∉ params.excludedValues.getD [] ∧
        (∃ fullMessage,
          (message.id, fullMessage) ∈ (stateAfter platform params environment last).fetched ∧
          params.extractValue fullMessage = .ok (some result.value)) ∧
        (∀ timestampMs sentAfter,
          getMailpitMessageTimestampMs platform message = some timestampMs →
          params.sentAfter = some sentAfter →
          ∃ time, sentAfter = some time ∧ time - SENT_AFTER_TOLERANCE_MS ≤ timestampMs) ∧
        ∀ index other, (newestCandidates platform params messages)[index]? = some other →
          index < before.length ∨ IsNewer platform other message →
          PassedOver params (stateAfter platform params environment last) last index other) ∧
    ∀ progress, pollRun platform params environment iterations = .ok progress →
      (∀ request ∈ (stateAfter platform params environment progress.state.attemptNumber).requests,
        environment.getMessage request.attempt request.index request.messageId =
          request.outcome) ∧
      (AllExtract params (stateAfter platform params environment progress.state.attemptNumber) →
        ((stateAfter platform params environment
          progress.state.attemptNumber).fetched.map Prod.fst).Nodup) := by
  refine ⟨fun result hresolved ↦ ?_, fun progress hrun ↦ ⟨?_, pollRun_once hrun⟩⟩
  · obtain ⟨final, last, hrun⟩ := pollRun_of_resolved hresolved
    obtain ⟨messages, message, before, after, hsearch, hsplit, hid, ⟨hallowed, hfetched⟩,
      hbefore⟩ := pollRun_success hrun
    refine ⟨final, last, messages, message, before, after, hrun, hsearch, hsplit, hid, ?_,
      hfetched, fun timestampMs sentAfter htimestamp hsentAfter ↦ ?_,
      fun index other hother hearly ↦ ?_⟩
    · intro hexcluded
      rw [FetchMailpitValueParams.excludes, List.contains_iff_mem.mpr hexcluded] at hallowed
      exact Bool.noConfusion hallowed
    · have hmem : message ∈ newestCandidates platform params messages := by
        rw [hsplit]
        exact List.mem_append_right _ List.mem_cons_self
      exact sentAfter_of_mem hmem htimestamp hsentAfter
    · have hlt : index < before.length := hearly.elim id (lt_length_of_isNewer hsplit hother)
      rw [hsplit, List.getElem?_append_left hlt] at hother
      exact hbefore index other hother
  · exact (stateAfter_invariant platform params environment progress.state.attemptNumber).answered

end Attempts

/-! ## A polling with two messages -/

/-- The headers of a message. -/
def codeHeaders (id : String) : MailpitMessageHeaders :=
  ⟨id.toList, ⟨"no-reply@example.com".toList, []⟩, [⟨"user@example.com".toList, []⟩],
    "Your code".toList⟩

/-- Two search results, a minute apart. -/
def codeSummaries : List MailpitMessageSummary :=
  [⟨codeHeaders "first", some "2024-01-01T00:00:00Z".toList⟩,
    ⟨codeHeaders "second", some "2024-01-01T00:01:00Z".toList⟩]

/-- The dates of these results. -/
def codePlatform : Platform ℤ where
  parseDate text :=
    if text = "2024-01-01T00:00:00Z".toList then some 1704067200000
    else if text = "2024-01-01T00:01:00Z".toList then some 1704067260000 else none
  toISOString ms := (Dates.isoString ms).toList
  numberToText number := (toString number).toList

/-- The code is the whole text of a message. The first code is not wanted. -/
def codeParams : FetchMailpitValueParams Empty ℤ where
  email := "user@example.com".toList
  extractValue message := .ok (some message.text)
  valueLabel := "Cognito email OTP".toList
  timeoutMs := none
  pollIntervalMs := none
  sentAfter := some (some 1704067200000)
  excludedValues := some ["11111111".toList]

/-- The second message is not there yet when it is first asked for. -/
def lateSecond : MailpitEnvironment Empty ℤ where
  searchMessages _ _ := .ok codeSummaries
  getMessage attempt _ id :=
    if id = "first".toList then
      .ok ⟨codeHeaders "first", "2024-01-01T00:00:00Z".toList, "11111111".toList, []⟩
    else if attempt = 1 then
      .error (.mailpitRequest ⟨"Mailpit request failed with HTTP 404".toList, some 404, false⟩)
    else .ok ⟨codeHeaders "second", "2024-01-01T00:01:00Z".toList, "22222222".toList, []⟩
  settling _ := .atOnce
  notFoundNowMs _ := 1704067300000
  interruptedSnapshot _ := createMailpitPollingSnapshot
  interruptedNowMs _ := 1704067300000
  retryNow reading := .ok (1704067270000 + 1000 * reading)
  sleep _ := ⟨.ok (), .atOnce⟩
  toErrorMessage := nofun

/-- The second attempt resolves with the second message, and has not fetched the first again. -/
theorem fetchMailpitValue_newest_lateSecond :
    (∃ fullMessage, ("second".toList, fullMessage) ∈
        (stateAfter codePlatform codeParams lateSecond 2).fetched ∧
      codeParams.extractValue fullMessage = .ok (some "22222222".toList)) ∧
    ((stateAfter codePlatform codeParams lateSecond 2).fetched.map Prod.fst).Nodup := by
  obtain ⟨result, final, hresolved, hrun, hattempts, hid, hvalue⟩ : ∃ result final,
      fetchMailpitValue codePlatform codeParams lateSecond 2 = .resolved result ∧
      pollRun codePlatform codeParams lateSecond 2 = .ok (.ended final (.success result 2)) ∧
      final.attemptNumber = 2 ∧ result.messageId = "second".toList ∧
      result.value = "22222222".toList := ⟨_, _, rfl, rfl, rfl, rfl, rfl⟩
  obtain ⟨hnewest, honce⟩ := fetchMailpitValue_newest codePlatform codeParams lateSecond 2
  obtain ⟨final', last, messages, message, before, after, hrun', -, -, hmessage, -, hfetched, -⟩ :=
    hnewest result hresolved
  rw [hrun] at hrun'
  obtain ⟨-, hending⟩ := Progress.ended.inj (Except.ok.inj hrun')
  obtain ⟨-, rfl⟩ := Ending.success.inj hending
  rw [← hmessage, hid, hvalue] at hfetched
  have hnodup := (honce _ hrun).2 fun entry _ error herror ↦ by cases herror
  rw [Progress.state, hattempts] at hnodup
  exact ⟨hfetched, hnodup⟩

/-- The code is not in the message yet, and the extraction says so with a transient error of the
client's class. -/
def unreadyParams : FetchMailpitValueParams Empty ℤ :=
  { codeParams with
    extractValue _ := .error (.mailpitRequest ⟨"The code is not there yet".toList, none, true⟩) }

/-- Each of two attempts fetches the same message. -/
theorem fetchMailpitValue_newest_unready : ∃ final,
    pollRun codePlatform unreadyParams lateSecond 2 = .ok (.continues final) ∧
      final.attemptNumber = 2 ∧
      ¬((stateAfter codePlatform unreadyParams lateSecond 2).fetched.map Prod.fst).Nodup :=
  ⟨_, rfl, rfl, by decide⟩

end CoreUtils.Toolkit.Mailpit
