import Mathlib.Tactic.Linarith
import CoreUtils.Toolkit.AdminAuthTokenExclusive

/-!
# Sharing the replacement of a rejected admin token

Any number of calls on a cache that holds a token, some of which reject that token (`Refresh`). The
cache holds the token until a forced call removes it under the lock, and its replacement once that
call has written it (`Settled`), so that every later forced call finds a token other than the one it
rejects. Therefore `createToken` runs once, and all forced calls get what it returns
(`forced_refresh_shared`).
-/

namespace CoreUtils.Toolkit.AdminAuth

/-! ## Calls that share a refresh -/

/-- Whether a call is between `createToken` and the end of its write. -/
def Control.isMinting : Control → Bool
  | .creating | .created _ | .probingCreated _ _ | .acceptedCreated _ _ | .writing _ => true
  | _ => false

/-- A cache file holds a token that counts beyond `horizon`. -/
def Holds (horizon : ℚ) (file : CacheFile) (authToken : Text) : Prop :=
  ∃ entry, file.entry = some entry ∧ entry.authToken = authToken ∧ horizon < entry.expiresAtMs

/-- The JWT payload of a token lets it count beyond `horizon`, whatever the skew of the calls. -/
def Outlives {P : Type} (env : Environment) (params : P → GetOrCreateParams) (horizon : ℚ)
    (authToken : Text) : Prop :=
  ∀ p jwtExpiresAtMs, getJwtExpirationMs env authToken = some jwtExpiresAtMs →
    horizon < jwtExpiresAtMs - (params p).skew

/-- Calls on a cache that holds `token`. Each of them is plain or rejects `token`, and nothing
expires before `horizon`. -/
structure Refresh (P : Type) where
  env : Environment
  params : P → GetOrCreateParams
  start : State P
  token : Text
  horizon : ℚ
  valid : ∀ p, validateParams (params p) = .ok ()
  forceRefresh_eq : ∀ p, (params p).forceRefresh = .none ∨ (params p).forceRefresh = .rejected token
  initial : start.Initial
  now_le : start.nowMs ≤ horizon
  holds : Holds horizon start.cacheFile token
  outlives : Outlives env params horizon token
  duration : ∀ p, horizon < start.nowMs + (params p).cacheDurationMs

namespace Refresh

variable {P : Type}

/-- The calls. -/
def calls (refresh : Refresh P) (p : P) : Call := .getOrCreate (refresh.params p)

/-- A plain call. -/
def Plain (refresh : Refresh P) (p : P) : Prop := (refresh.params p).forceRefresh = .none

/-- A call that rejects the token in the cache. -/
def Forced (refresh : Refresh P) (p : P) : Prop :=
  (refresh.params p).forceRefresh = .rejected refresh.token

/-- A token that can replace the one in the cache: it is well-formed, its fingerprint is another
one, and it does not expire. -/
structure Replaces (refresh : Refresh P) (authToken : Text) : Prop where
  valid : isValidBearerToken authToken = true
  hash_ne : refresh.env.hash authToken ≠ refresh.env.hash refresh.token
  outlives : Outlives refresh.env refresh.params refresh.horizon authToken

/-- What the calls count on at a step: the clock stays before `horizon`, tokens are accepted,
created tokens can replace the one in the cache, and only calls in `failing` fail, none of them once
it runs `createToken`. -/
def Smooth (refresh : Refresh P) (failing : P → Prop) (s : State P) (a : Action P) (s' : State P) :
    Prop :=
  s'.nowMs ≤ refresh.horizon ∧
    match a with
    | .probe _ isAccepted => isAccepted = true
    | .create _ authToken => refresh.Replaces authToken
    | .fail p => failing p ∧ (s.control p).isMinting = false
    | _ => True

/-! ## What is known of the cache -/

/-- The one created token. -/
def Minted (refresh : Refresh P) (created : List (P × Text)) (authToken : Text) : Prop :=
  (∃ q, created = [(q, authToken)]) ∧ refresh.Replaces authToken

/-- The cache holds the rejected token, before `createToken` has run, or the created one. -/
def Settled (refresh : Refresh P) (created : List (P × Text)) (file : CacheFile) : Prop :=
  (created = [] ∧ Holds refresh.horizon file refresh.token) ∨
    ∃ authToken, refresh.Minted created authToken ∧ Holds refresh.horizon file authToken

/-- A token that a call may return. -/
def Result (refresh : Refresh P) (p : P) (created : List (P × Text)) (authToken : Text) : Prop :=
  (refresh.Plain p ∧ authToken = refresh.token) ∨ refresh.Minted created authToken

/-- An entry that a call may write and return: that of the created token, or, before `createToken`
has run, that of the token in the cache if the call is plain. -/
def Current (refresh : Refresh P) (p : P) (created : List (P × Text)) (entry : StoredEntry) :
    Prop :=
  refresh.horizon < entry.expiresAtMs ∧
    ((created = [] ∧ refresh.Plain p ∧ entry.authToken = refresh.token) ∨
      refresh.Minted created entry.authToken)

/-- How a call may end. -/
def Ends (refresh : Refresh P) (failing : P → Prop) (p : P) (created : List (P × Text))
    (outcome : Outcome) : Prop :=
  (outcome = .failed ∧ failing p) ∨
    ∃ entry, outcome = .returned entry ∧ refresh.Result p created entry.authToken

/-- The fingerprint that a call compares with the entry it finds under the lock. -/
def target (refresh : Refresh P) (p : P) : Option Text :=
  getForceRefreshTargetCredentialFingerprint refresh.env (refresh.params p).forceRefresh none

/-- What is known of a call at a control point. -/
def Placed (refresh : Refresh P) (failing : P → Prop) (p : P) (created : List (P × Text))
    (cacheFile : CacheFile) : Control → Prop
  | .start => True
  | .reading file => refresh.Plain p ∧
      ∀ entry, file.entry = some entry → refresh.Result p created entry.authToken
  | .waiting target => target = refresh.target p
  | .locked target => target = refresh.target p ∧ refresh.Settled created cacheFile
  | .readingLocked target file => target = refresh.target p ∧ file = cacheFile ∧
      refresh.Settled created cacheFile
  | .removing => refresh.Forced p ∧ created = [] ∧ refresh.Settled created cacheFile
  | .probing entry => refresh.Settled created cacheFile ∧ refresh.Current p created entry
  | .validated entry => refresh.Settled created cacheFile ∧ refresh.Current p created entry
  | .accepted entry _ => refresh.Settled created cacheFile ∧ refresh.Current p created entry
  | .creating => refresh.Forced p ∧ created = [] ∧ cacheFile = .absent
  | .created authToken => refresh.Minted created authToken
  | .probingCreated authToken _ => refresh.Minted created authToken
  | .acceptedCreated authToken _ => refresh.Minted created authToken
  | .writing entry => refresh.Current p created entry
  | .releasing outcome => refresh.Settled created cacheFile ∧ refresh.Ends failing p created outcome
  | .ended outcome => refresh.Ends failing p created outcome

variable {refresh : Refresh P} {failing : P → Prop} {p : P} {created created' : List (P × Text)}
  {cacheFile cacheFile' : CacheFile} {control : Control} {nowMs : ℚ} {entry : StoredEntry}
  {authToken : Text}

/-- A call is not both plain and forced. -/
theorem Forced.not_plain (h : refresh.Forced p) : ¬ refresh.Plain p := by
  intro hplain
  rw [Plain, h] at hplain
  simp at hplain

/-- The created token is not the rejected one. -/
theorem Replaces.ne (h : refresh.Replaces authToken) : authToken ≠ refresh.token :=
  fun hsame ↦ h.hash_ne (by rw [hsame])

/-- What a call may return it may return later. -/
theorem Result.mono (h : refresh.Result p created authToken)
    (hminted : ∀ other, refresh.Minted created other → refresh.Minted created' other) :
    refresh.Result p created' authToken :=
  h.imp_right (hminted _)

/-- The way a call may end stays open to it. -/
theorem Ends.mono {outcome : Outcome} (h : refresh.Ends failing p created outcome)
    (hminted : ∀ other, refresh.Minted created other → refresh.Minted created' other) :
    refresh.Ends failing p created' outcome := by
  rcases h with hfailed | ⟨entry, houtcome, hresult⟩
  · exact .inl hfailed
  · exact .inr ⟨entry, houtcome, hresult.mono hminted⟩

/-- What is known of a call stays known while others take steps. -/
theorem Placed.frame (h : refresh.Placed failing p created cacheFile control)
    (hminted : ∀ other, refresh.Minted created other → refresh.Minted created' other)
    (hcreated : control.holdsLock = true → created' = created)
    (hfile : control.holdsLock = true → cacheFile' = cacheFile) :
    refresh.Placed failing p created' cacheFile' control := by
  by_cases hlock : control.holdsLock = true
  · rw [hcreated hlock, hfile hlock]
    exact h
  · cases control with
    | start => trivial
    | waiting target => exact h
    | reading file => exact ⟨h.1, fun entry hentry ↦ (h.2 entry hentry).mono hminted⟩
    | ended outcome => exact Ends.mono h hminted
    | _ => simp [Control.holdsLock] at hlock

/-- While a call holds the lock and does not run `createToken`, the cache is settled. -/
theorem Placed.settled (h : refresh.Placed failing p created cacheFile control)
    (hlock : control.holdsLock = true) (hminting : control.isMinting = false) :
    refresh.Settled created cacheFile := by
  cases control with
  | locked target => exact h.2
  | readingLocked target file | removing => exact h.2.2
  | probing entry | validated entry | accepted entry needsValidation | releasing outcome =>
      exact h.1
  | _ => simp [Control.holdsLock, Control.isMinting] at hlock hminting

/-- A token held by a file is read. -/
theorem read_of_holds {file : CacheFile} (p : P) (h : Holds refresh.horizon file authToken)
    (houtlives : Outlives refresh.env refresh.params refresh.horizon authToken)
    (hnow : nowMs ≤ refresh.horizon) :
    ∃ entry, readCachedEntry refresh.env (refresh.params p).skew nowMs file = some entry ∧
      entry.authToken = authToken ∧ refresh.horizon < entry.expiresAtMs := by
  obtain ⟨parsed, hparsed, htoken, hexpires⟩ := h
  subst htoken
  obtain ⟨entry, hread, hsame, -, hlive⟩ :=
    read_cached_entry_of_lt hparsed hnow hexpires (houtlives p)
  exact ⟨entry, hread, hsame, hlive⟩

/-- An entry in a settled cache is one that a plain call may return. -/
theorem Settled.result {file : CacheFile} (h : refresh.Settled created file)
    (hplain : refresh.Plain p) (hentry : file.entry = some entry) :
    refresh.Result p created entry.authToken := by
  rcases h with ⟨-, parsed, hparsed, htoken, -⟩ | ⟨authToken, hminted, parsed, hparsed, htoken, -⟩
  · obtain rfl : parsed = entry := Option.some.inj (hparsed.symm.trans hentry)
    exact .inl ⟨hplain, htoken⟩
  · obtain rfl : parsed = entry := Option.some.inj (hparsed.symm.trans hentry)
    exact .inr (htoken ▸ hminted)

/-- The public part of a current entry may be returned. -/
theorem Current.ends (h : refresh.Current p created entry) :
    refresh.Ends failing p created (.returned (getPublicCacheEntry entry)) := by
  refine .inr ⟨_, rfl, ?_⟩
  rcases h.2 with ⟨-, hplain, htoken⟩ | hminted
  · exact .inl ⟨hplain, htoken⟩
  · exact .inr hminted

/-- Writing a current entry settles the cache. -/
theorem Current.settled (h : refresh.Current p created entry) :
    refresh.Settled created (writeCachedEntry entry) := by
  obtain ⟨hexpires, ⟨hcreated, -, htoken⟩ | hminted⟩ := h
  · obtain ⟨held, hheld, hsame, -⟩ := refresh.holds
    have hvalid : isValidBearerToken entry.authToken = true := by
      rw [htoken, ← hsame]
      exact is_valid_bearer_token_of_entry hheld
    exact .inl ⟨hcreated, entry, entry_write_cached_entry hvalid, htoken, hexpires⟩
  · exact .inr ⟨_, hminted, entry, entry_write_cached_entry hminted.2.valid, rfl, hexpires⟩

/-! ## Steps of a call -/

/-- A call starts by reading the cache if it is plain, and by waiting for the lock if it is
forced. -/
theorem placed_start
    (hcache : refresh.Settled created cacheFile ∨ cacheFile = .absent) :
    refresh.Placed failing p created cacheFile
      (startCall refresh.env cacheFile (refresh.calls p)).control := by
  rcases refresh.forceRefresh_eq p with hplain | hforced
  · have hstart : (startCall refresh.env cacheFile (refresh.calls p)).control =
        .reading cacheFile := by
      simp [calls, startCall, refresh.valid p, hplain]
    rw [hstart]
    refine ⟨hplain, fun entry hentry ↦ ?_⟩
    rcases hcache with hsettled | habsent
    · exact hsettled.result hplain hentry
    · simp [habsent, CacheFile.entry] at hentry
  · have hstart : (startCall refresh.env cacheFile (refresh.calls p)).control =
        .waiting (refresh.target p) := by
      simp [calls, startCall, refresh.valid p, hforced, target]
    rw [hstart]
    rfl

/-- A plain call returns the entry it has read outside of the lock, or goes on to the lock. -/
theorem placed_reading {file : CacheFile} (hplain : refresh.Plain p)
    (hfile : ∀ entry, file.entry = some entry → refresh.Result p created entry.authToken) :
    refresh.Placed failing p created cacheFile (checkCachedEntry refresh.env (refresh.params p)
      (readCachedEntry refresh.env (refresh.params p).skew nowMs file)) := by
  have hforce : (refresh.params p).forceRefresh = .none := hplain
  have htarget : getForceRefreshTargetCredentialFingerprint refresh.env
      (refresh.params p).forceRefresh
      (readCachedEntry refresh.env (refresh.params p).skew nowMs file) = refresh.target p := by
    simp [target, hforce, getForceRefreshTargetCredentialFingerprint]
  unfold checkCachedEntry
  split
  · exact htarget
  · split
    · rename_i entry hread
      split
      · exact htarget
      · obtain ⟨parsed, hparsed, htoken, -⟩ := read_cached_entry_eq_some hread
        refine .inr ⟨_, rfl, ?_⟩
        show refresh.Result p created entry.authToken
        rw [htoken]
        exact hfile parsed hparsed
    · exact htarget

/-- Under the lock, a call goes on with an entry that it does not refresh. -/
theorem placed_kept (hsettled : refresh.Settled created cacheFile)
    (hcurrent : refresh.Current p created entry)
    (hkept : refreshesCurrentEntry refresh.env (refresh.params p) (refresh.target p) (some entry) =
      false) :
    refresh.Placed failing p created cacheFile
      (checkLockedEntry refresh.env (refresh.params p) (refresh.target p) (some entry)) := by
  simp only [checkLockedEntry, hkept, Bool.false_eq_true, if_false]
  split <;> exact ⟨hsettled, hcurrent⟩

/-- Whether a call refreshes an entry that it finds under the lock: if it is forced and the entry
has the fingerprint of the rejected token. -/
theorem refreshes_current_entry_iff :
    refreshesCurrentEntry refresh.env (refresh.params p) (refresh.target p) (some entry) = true ↔
      refresh.Forced p ∧ refresh.env.hash entry.authToken = refresh.env.hash refresh.token := by
  rcases refresh.forceRefresh_eq p with hplain | hforced
  · simp [refreshesCurrentEntry, isForceRefreshRequested, Forced, hplain]
  · simp [refreshesCurrentEntry, isForceRefreshRequested, Forced, hforced, target,
      getForceRefreshTargetCredentialFingerprint, getCredentialFingerprint]

/-- Under the lock, a forced call removes the rejected token, and every call goes on with the
created one. -/
theorem placed_reading_locked (hsettled : refresh.Settled created cacheFile)
    (hnow : nowMs ≤ refresh.horizon) :
    refresh.Placed failing p created cacheFile (checkLockedEntry refresh.env (refresh.params p)
      (refresh.target p)
      (readCachedEntry refresh.env (refresh.params p).skew nowMs cacheFile)) := by
  rcases hsettled with ⟨hcreated, hholds⟩ | ⟨authToken, hminted, hholds⟩
  · obtain ⟨entry, hread, htoken, hlive⟩ := read_of_holds p hholds refresh.outlives hnow
    rw [hread]
    rcases refresh.forceRefresh_eq p with hplain | hforced
    · refine placed_kept (.inl ⟨hcreated, hholds⟩) ⟨hlive, .inl ⟨hcreated, hplain, htoken⟩⟩ ?_
      rw [Bool.eq_false_iff, ne_eq, refreshes_current_entry_iff]
      exact fun hrefreshes ↦ hrefreshes.1.not_plain hplain
    · have hrefreshes : refreshesCurrentEntry refresh.env (refresh.params p) (refresh.target p)
          (some entry) = true := refreshes_current_entry_iff.mpr ⟨hforced, by rw [htoken]⟩
      simp only [checkLockedEntry, hrefreshes, if_true]
      exact ⟨hforced, hcreated, .inl ⟨hcreated, hholds⟩⟩
  · obtain ⟨entry, hread, htoken, hlive⟩ := read_of_holds p hholds hminted.2.outlives hnow
    rw [hread]
    refine placed_kept (.inr ⟨authToken, hminted, hholds⟩) ⟨hlive, .inr (htoken ▸ hminted)⟩ ?_
    rw [Bool.eq_false_iff, ne_eq, refreshes_current_entry_iff, htoken]
    exact fun hrefreshes ↦ hminted.2.hash_ne hrefreshes.2

/-- A created token that has been accepted makes a current entry. -/
theorem placed_accepted_created (p : P) (mintedAtMs : ℚ)
    (hminted : refresh.Minted created authToken)
    (hstart : refresh.start.nowMs ≤ nowMs) (hnow : nowMs ≤ refresh.horizon) :
    ∃ entry, createdEntry refresh.env nowMs (refresh.params p) authToken mintedAtMs = some entry ∧
      refresh.Current p created entry := by
  have hduration : refresh.horizon < nowMs + (refresh.params p).cacheDurationMs := by
    linarith [refresh.duration p]
  have hlive : refresh.horizon < getAdminAuthTokenExpiration refresh.env authToken
      (refresh.params p).cacheDurationMs (refresh.params p).skew nowMs :=
    lt_expiration hduration (hminted.2.outlives p)
  exact ⟨_, if_neg (not_le.mpr (lt_of_le_of_lt hnow hlive)), hlive, .inr hminted⟩

/-- A step of a call keeps what is known of it, and the cache settled or empty. -/
theorem Placed.advance {advanced : Advanced}
    (h : refresh.Placed failing p created cacheFile control)
    (hcache : refresh.Settled created cacheFile ∨ cacheFile = .absent)
    (hstart : refresh.start.nowMs ≤ nowMs) (hnow : nowMs ≤ refresh.horizon)
    (hadvanced : advanceCall refresh.env nowMs cacheFile (refresh.calls p) control =
      some advanced) :
    refresh.Placed failing p created advanced.cacheFile advanced.control ∧
      (refresh.Settled created advanced.cacheFile ∨ advanced.cacheFile = .absent) := by
  cases control with
  | start =>
      obtain rfl : startCall refresh.env cacheFile (refresh.calls p) = advanced :=
        Option.some.inj hadvanced
      rw [(start_call_outside refresh.env cacheFile (refresh.calls p)).2]
      exact ⟨placed_start hcache, hcache⟩
  | reading file =>
      obtain rfl := Option.some.inj hadvanced
      exact ⟨placed_reading h.1 h.2, hcache⟩
  | locked target =>
      obtain rfl := Option.some.inj hadvanced
      exact ⟨⟨h.1, rfl, h.2⟩, hcache⟩
  | readingLocked target file =>
      obtain rfl := Option.some.inj hadvanced
      -- the lock is held, so the file is still the one that was read
      obtain ⟨rfl, rfl, hsettled⟩ := h
      exact ⟨placed_reading_locked hsettled hnow, hcache⟩
  | removing =>
      obtain rfl := Option.some.inj hadvanced
      exact ⟨⟨h.1, h.2.1, rfl⟩, .inr rfl⟩
  | validated entry =>
      obtain rfl := Option.some.inj hadvanced
      exact ⟨h, hcache⟩
  | accepted entry needsValidation =>
      obtain rfl := Option.some.inj hadvanced
      obtain ⟨hsettled, hcurrent⟩ := h
      -- the token outlives the horizon of the refresh
      have hcounts : isAdminAuthTokenExpired entry nowMs = false := by
        simpa [isAdminAuthTokenExpired] using lt_of_le_of_lt hnow hcurrent.1
      refine ⟨?_, hcache⟩
      simp only [hcounts, Bool.false_eq_true, if_false]
      split
      · exact hcurrent
      · exact ⟨hsettled, hcurrent.ends⟩
  | created authToken =>
      rcases advance_created hadvanced with ⟨hinvalid, -⟩ | ⟨-, rfl⟩ | ⟨-, rfl⟩
      · simp [h.2.valid] at hinvalid
      · exact ⟨h, hcache⟩
      · exact ⟨h, hcache⟩
  | acceptedCreated authToken mintedAtMs =>
      obtain ⟨entry, hentry, hcurrent⟩ :=
        placed_accepted_created p mintedAtMs h hstart hnow
      obtain rfl : Advanced.mk (.writing entry) cacheFile [nowMs] = advanced := by
        simpa [calls, advanceCall, advanceGetOrCreate, hentry] using hadvanced
      exact ⟨hcurrent, hcache⟩
  | writing entry =>
      obtain rfl := Option.some.inj hadvanced
      have hcurrent : refresh.Current p created entry := h
      exact ⟨⟨hcurrent.settled, hcurrent.ends⟩, .inl hcurrent.settled⟩
  | _ => simp [calls, advanceCall, advanceGetOrCreate] at hadvanced

/-! ## Runs -/

/-- What is known of all calls, the clock and the cache. -/
structure Shared (refresh : Refresh P) (failing : P → Prop) (s : State P) : Prop where
  exclusive : s.Exclusive
  start_le : refresh.start.nowMs ≤ s.nowMs
  now_le : s.nowMs ≤ refresh.horizon
  created_eq : s.created = [] ∨ ∃ authToken, refresh.Minted s.created authToken
  cache : refresh.Settled s.created s.cacheFile ∨ s.cacheFile = .absent
  unlocked : s.lockHolder = none → refresh.Settled s.created s.cacheFile
  placed : ∀ p, refresh.Placed failing p s.created s.cacheFile (s.control p)

variable [DecidableEq P] {s s' : State P} {a : Action P}

omit [DecidableEq P] in
/-- What is known before the calls. -/
theorem shared_start (refresh : Refresh P) (failing : P → Prop) :
    refresh.Shared failing refresh.start where
  exclusive := by
    intro p
    simp [refresh.initial.control_eq p, refresh.initial.lockHolder_eq, Control.holdsLock]
  start_le := le_rfl
  now_le := refresh.now_le
  created_eq := .inl refresh.initial.created_eq
  cache := .inl (.inl ⟨refresh.initial.created_eq, refresh.holds⟩)
  unlocked := fun _ ↦ .inl ⟨refresh.initial.created_eq, refresh.holds⟩
  placed := by
    intro p
    rw [refresh.initial.control_eq p]
    trivial

omit [DecidableEq P] in
/-- What is known of a call that is at `createToken`. -/
theorem Shared.creating (h : refresh.Shared failing s) (hcontrol : s.control p = .creating) :
    refresh.Forced p ∧ s.created = [] ∧ s.cacheFile = .absent := by
  have hplaced := h.placed p
  rw [hcontrol] at hplaced
  exact hplaced

/-- The created token stays the created token. -/
theorem Shared.minted_step (h : refresh.Shared failing s)
    (hstep : State.Step refresh.env refresh.calls s a s')
    (hminted : refresh.Minted s.created authToken) : refresh.Minted s'.created authToken := by
  cases hstep with
  | create hcontrol =>
      obtain ⟨⟨q, hcreated⟩, -⟩ := hminted
      rw [(h.creating hcontrol).2.1] at hcreated
      simp at hcreated
  | _ => exact hminted

/-- Where a smooth step takes the call that it belongs to, and what it leaves in the cache. -/
theorem Shared.placed_actor (h : refresh.Shared failing s)
    (hstep : State.Step refresh.env refresh.calls s a s') (hsmooth : refresh.Smooth failing s a s')
    (hp : a.actor = some p) :
    refresh.Placed failing p s'.created s'.cacheFile (s'.control p) ∧
      (refresh.Settled s'.created s'.cacheFile ∨ s'.cacheFile = .absent) := by
  have hplaced := h.placed p
  cases hstep with
  | tick _ => simp [Action.actor] at hp
  | @acquire q target hcontrol hholder =>
      obtain rfl : q = p := Option.some.inj hp
      rw [hcontrol] at hplaced
      simp only [State.goto, Function.update_self]
      exact ⟨⟨hplaced, h.unlocked hholder⟩, h.cache⟩
  | @advance q advanced hadvanced =>
      obtain rfl : q = p := Option.some.inj hp
      simp only [State.advanceTo, Function.update_self]
      exact hplaced.advance h.cache h.start_le h.now_le hadvanced
  | @accept q entry hcontrol | @acceptCreated q authToken mintedAtMs hcontrol =>
      obtain rfl : q = p := Option.some.inj hp
      rw [hcontrol] at hplaced
      simp only [State.answerTo, Function.update_self]
      exact ⟨hplaced, h.cache⟩
  | reject hcontrol | rejectCreated hcontrol => simp [Smooth] at hsmooth
  | @create q authToken hcontrol =>
      obtain rfl : q = p := Option.some.inj hp
      obtain ⟨-, hcreated, habsent⟩ := h.creating hcontrol
      simp only [State.goto, Function.update_self, hcreated, List.nil_append]
      exact ⟨⟨⟨q, rfl⟩, hsmooth.2⟩, .inr habsent⟩
  | @release q outcome hcontrol =>
      obtain rfl : q = p := Option.some.inj hp
      rw [hcontrol] at hplaced
      simp only [State.goto, Function.update_self]
      exact ⟨hplaced.2, h.cache⟩
  | @failOutside q hcontrol =>
      obtain rfl : q = p := Option.some.inj hp
      simp only [State.goto, Function.update_self]
      exact ⟨.inl ⟨rfl, hsmooth.2.1⟩, h.cache⟩
  | @failInside q hcontrol =>
      obtain rfl : q = p := Option.some.inj hp
      simp only [State.goto, Function.update_self]
      exact ⟨⟨hplaced.settled hcontrol hsmooth.2.2, .inl ⟨rfl, hsmooth.2.1⟩⟩, h.cache⟩

/-- While nobody holds the lock, a step keeps the cache settled. -/
theorem Shared.unlocked_step (h : refresh.Shared failing s)
    (hstep : State.Step refresh.env refresh.calls s a s') (hsmooth : refresh.Smooth failing s a s')
    (hholder : s'.lockHolder = none) : refresh.Settled s'.created s'.cacheFile := by
  cases hstep with
  | tick _ | accept _ | acceptCreated _ | failOutside _ | failInside _ => exact h.unlocked hholder
  | reject _ | rejectCreated _ => simp [Smooth] at hsmooth
  | acquire hcontrol _ => simp [State.goto] at hholder
  | @advance p advanced hadvanced =>
      have houtside : (s.control p).holdsLock = false := by
        rw [Bool.eq_false_iff, ne_eq, h.exclusive p, show s.lockHolder = none from hholder]
        simp
      simp only [State.advanceTo, (advance_call_lock hadvanced).2 houtside]
      exact h.unlocked hholder
  | @create p authToken hcontrol =>
      have hlocked : s.lockHolder = some p := (h.exclusive p).mp (by rw [hcontrol]; rfl)
      rw [show s.lockHolder = none from hholder] at hlocked
      simp at hlocked
  | @release p outcome hcontrol =>
      exact (h.placed p).settled (by rw [hcontrol]; rfl) (by rw [hcontrol]; rfl)

/-- A smooth step keeps what is known. -/
theorem Shared.step (h : refresh.Shared failing s)
    (hstep : State.Step refresh.env refresh.calls s a s')
    (hsmooth : refresh.Smooth failing s a s') : refresh.Shared failing s' where
  exclusive := h.exclusive.step hstep
  start_le := by
    cases hstep with
    | tick hle => exact h.start_le.trans hle
    | _ => exact h.start_le
  now_le := hsmooth.1
  created_eq := by
    cases hstep with
    | @create p authToken hcontrol =>
        refine .inr ⟨authToken, ⟨p, ?_⟩, hsmooth.2⟩
        simp only [State.goto, (h.creating hcontrol).2.1, List.nil_append]
    | _ => exact h.created_eq
  cache := by
    cases hp : a.actor with
    | some p => exact (h.placed_actor hstep hsmooth hp).2
    | none =>
        cases hstep with
        | tick _ => exact h.cache
        | _ => simp [Action.actor] at hp
  unlocked := h.unlocked_step hstep hsmooth
  placed := by
    intro p
    by_cases hp : a.actor = some p
    · exact (h.placed_actor hstep hsmooth hp).1
    · have hundisturbed := h.exclusive.undisturbed hstep hp
      rw [hundisturbed.control_eq]
      exact (h.placed p).frame (fun _ ↦ h.minted_step hstep) hundisturbed.created_eq
        hundisturbed.cacheFile_eq

/-- In every smooth run, whatever the interleaving of the calls, `createToken` returns at most once
and does not run again after that, and calls that may not fail return. Once a forced call has
returned, it has run exactly once: the call has returned its token, which is not the rejected one. A
plain call returns the token that the cache held or the created one. -/
theorem forced_refresh_shared (refresh : Refresh P) (failing : P → Prop) {s : State P}
    (hreachable : Transition.Reachable (State.step refresh.env refresh.calls)
      (refresh.Smooth failing) refresh.start s) :
    s.created.length ≤ 1 ∧
    (∀ p, s.control p = .creating → s.created = [] ∧ ∀ q, s.control q = .creating → q = p) ∧
    (∀ p outcome, s.control p = .ended outcome → ¬ failing p → ∃ entry, outcome = .returned entry) ∧
    (∀ p entry, s.control p = .ended (.returned entry) → refresh.Forced p →
      (∃ q, s.created = [(q, entry.authToken)]) ∧ entry.authToken ≠ refresh.token) ∧
    ∀ p entry, s.control p = .ended (.returned entry) → refresh.Plain p →
      entry.authToken = refresh.token ∨ ∃ q, s.created = [(q, entry.authToken)] := by
  -- the induction over the run is on `Shared`; the rest reads it at the end
  have hshared : refresh.Shared failing s := hreachable.invariant (shared_start refresh failing)
    fun hinvariant hnext hsmooth ↦ hinvariant.step (.of_step hnext) hsmooth
  have hends : ∀ p outcome, s.control p = .ended outcome →
      refresh.Ends failing p s.created outcome := by
    intro p outcome hended
    have hplaced := hshared.placed p
    rw [hended] at hplaced
    exact hplaced
  have hresult : ∀ p entry, s.control p = .ended (.returned entry) →
      refresh.Result p s.created entry.authToken := by
    intro p entry hended
    rcases hends p _ hended with ⟨hfailed, -⟩ | ⟨other, hother, hresult⟩
    · simp at hfailed
    · obtain rfl : entry = other := Outcome.returned.inj hother
      exact hresult
  refine ⟨?_, fun p hcreating ↦ ⟨(hshared.creating hcreating).2.1, fun q hother ↦ ?_⟩,
    fun p outcome hended hfailing ↦ ?_, fun p entry hended hforced ↦ ?_,
    fun p entry hended hplain ↦ ?_⟩
  · rcases hshared.created_eq with hcreated | ⟨authToken, ⟨q, hcreated⟩, -⟩
    · simp [hcreated]
    · simp [hcreated]
  · -- a party that creates a token holds the lock
    exact hshared.exclusive.unique (by rw [hother]; rfl) (by rw [hcreating]; rfl)
  · rcases hends p outcome hended with ⟨-, hfails⟩ | ⟨entry, houtcome, -⟩
    · exact absurd hfails hfailing
    · exact ⟨entry, houtcome⟩
  · rcases hresult p entry hended with ⟨hplain, -⟩ | hminted
    · exact absurd hplain hforced.not_plain
    · exact ⟨hminted.1, hminted.2.ne⟩
  · rcases hresult p entry hended with ⟨-, htoken⟩ | hminted
    · exact .inl htoken
    · exact .inr hminted.1

/-! ## Two forced calls and a plain one -/

/-- Texts stand for their own hashes, and no payload is decoded. -/
def exampleEnvironment : Environment := ⟨id, fun _ ↦ none⟩

/-- No token has a JWT payload. -/
theorem example_outlives (params : Fin 3 → GetOrCreateParams) (horizon : ℚ) (authToken : Text) :
    Outlives exampleEnvironment params horizon authToken := by
  intro p jwtExpiresAtMs hjwt
  unfold getJwtExpirationMs at hjwt
  split at hjwt <;> simp [exampleEnvironment] at hjwt

/-- The token in the cache. -/
def exampleToken : Text := "Bearer t".toList

/-- The parameters of the calls: the first one is plain, the others reject the token in the
cache. -/
def exampleParams (p : Fin 3) : GetOrCreateParams where
  location := ⟨['a'], ['e'], none, none⟩
  cacheDurationMs := 60
  forceRefresh := if p = 0 then .none else .rejected exampleToken
  jwtExpirationSafetySkewMs := none
  validationPolicy := some ['p']
  validationTimeoutMs := none
  validateToken := true

/-- The entry of that token, which has been accepted. -/
def exampleEntry : StoredEntry := ⟨exampleToken, 50, some 0, some 0, some ['p']⟩

/-- The calls on the cache of that token. -/
def exampleRefresh : Refresh (Fin 3) where
  env := exampleEnvironment
  params := exampleParams
  start := ⟨0, writeCachedEntry exampleEntry, none, fun _ ↦ .start, fun _ ↦ ⟨[], none⟩,
    [(exampleToken, some ['p'])], []⟩
  token := exampleToken
  horizon := 10
  valid := by decide +kernel
  forceRefresh_eq := by decide +kernel
  initial := ⟨rfl, fun _ ↦ rfl, fun _ ↦ rfl, rfl⟩
  now_le := by norm_num
  holds := ⟨exampleEntry, entry_write_cached_entry (by decide +kernel), rfl, by
    norm_num [exampleEntry]⟩
  outlives := example_outlives _ _ _
  duration := by
    intro p
    norm_num [exampleParams]

/-- The plain call reads the cache, a forced call replaces the token, and another one follows. -/
def exampleSchedule : List (Action (Fin 3)) :=
  [.advance 0, .advance 2, .advance 1, .acquire 1, .advance 1, .advance 1, .advance 1,
    .create 1 "Bearer n".toList, .advance 1, .tick 5, .probe 1 true, .advance 1, .advance 1,
    .release 1, .acquire 2, .advance 2, .advance 2, .advance 2, .release 2, .advance 0]

/-- Steps of the schedule: the probe accepts, the created token is the new one, and no call
fails. -/
def exampleAllowed : Action (Fin 3) → Bool
  | .probe _ isAccepted => isAccepted
  | .create _ authToken => authToken = "Bearer n".toList
  | .fail _ => false
  | _ => true

/-- Steps of the schedule are smooth. -/
theorem example_smooth (s : State (Fin 3)) (a : Action (Fin 3)) (s' : State (Fin 3))
    (h : s'.nowMs ≤ 10 ∧ exampleAllowed a = true) :
    exampleRefresh.Smooth (fun _ ↦ False) s a s' := by
  refine ⟨h.1, ?_⟩
  cases a with
  | probe p isAccepted => exact h.2
  | create p authToken =>
      obtain rfl : authToken = "Bearer n".toList := of_decide_eq_true h.2
      exact ⟨by decide +kernel, by decide +kernel, example_outlives _ _ _⟩
  | fail p => simp [exampleAllowed] at h
  | _ => trivial

/-- Both forced calls return the one created token, and the plain call the token it has read. -/
theorem forced_refresh_shared_example : ∃ s : State (Fin 3),
    Transition.follow (State.step exampleRefresh.env exampleRefresh.calls)
      (fun _ a s' ↦ s'.nowMs ≤ 10 ∧ exampleAllowed a = true) exampleRefresh.start
      exampleSchedule = some s ∧
    s.control 0 = .ended (.returned ⟨"Bearer t".toList, 50⟩) ∧
    s.control 1 = .ended (.returned ⟨"Bearer n".toList, 65⟩) ∧
    s.control 2 = .ended (.returned ⟨"Bearer n".toList, 65⟩) ∧
    s.created.length ≤ 1 ∧ (∃ q, s.created = [(q, "Bearer n".toList)]) ∧
    "Bearer n".toList ≠ exampleRefresh.token := by
  have hrun : (Transition.follow (State.step exampleRefresh.env exampleRefresh.calls)
      (fun _ a s' ↦ s'.nowMs ≤ 10 ∧ exampleAllowed a = true) exampleRefresh.start
      exampleSchedule).any fun s ↦
        (s.control 0).result = some ⟨"Bearer t".toList, 50⟩ ∧
        (s.control 1).result = some ⟨"Bearer n".toList, 65⟩ ∧
        (s.control 2).result = some ⟨"Bearer n".toList, 65⟩ := by
    decide +kernel
  obtain ⟨s, hs, hresults⟩ := (Option.any_eq_true _ _).mp hrun
  obtain ⟨hplain, hforced, hother⟩ := of_decide_eq_true hresults
  obtain ⟨honce, -, -, hnew, -⟩ := forced_refresh_shared exampleRefresh (fun _ ↦ False)
    ((Transition.Reachable.start.of_follow hs).mono example_smooth)
  have hended := Control.eq_of_result hforced
  exact ⟨s, hs, Control.eq_of_result hplain, hended, Control.eq_of_result hother, honce,
    hnew 1 _ hended rfl⟩

end Refresh

end CoreUtils.Toolkit.AdminAuth
