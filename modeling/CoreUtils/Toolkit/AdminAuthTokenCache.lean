import Mathlib.Logic.Function.Basic
import CoreUtils.Library.Transition
import CoreUtils.Toolkit.AdminAuthTokenEntry

/-!
# Calls on the admin token cache

Any number of calls of `getOrCreateAdminAuthToken` and `invalidateAdminAuthToken` on one cache file.
Each access to the file, each reading of the clock, each probe and each `createToken` is a step of
its own, so that the steps of different calls interleave. The file lock appears as its holder: a
call takes it when it is free. A call can fail wherever the code can throw.

`State.history`, `State.accepted` and `State.created` are bookkeeping: no step depends on them.
-/

namespace CoreUtils.Toolkit.AdminAuth

open Text

/-! ## Parameters -/

/-- The `forceRefresh` parameter; `false` counts as missing. -/
inductive ForceRefresh where
  | none
  | always
  | rejected (rejectedAuthToken : Text)
  deriving DecidableEq

/-- The parameters that say which cache is meant. -/
structure CacheLocationParams where
  adminEmail : Text
  apiEnvironmentName : Text
  namespace_ : Option Text
  tokenKind : Option Text
  deriving DecidableEq

/-- The parameters of `getOrCreateAdminAuthToken`. `validateToken` says whether it is configured. -/
structure GetOrCreateParams where
  location : CacheLocationParams
  cacheDurationMs : ℚ
  forceRefresh : ForceRefresh
  jwtExpirationSafetySkewMs : Option ℚ
  validationPolicy : Option Text
  validationTimeoutMs : Option ℚ
  validateToken : Bool
  deriving DecidableEq

/-- A call of one of the two functions. -/
inductive Call where
  | getOrCreate (params : GetOrCreateParams)
  | invalidate (location : CacheLocationParams)
  deriving DecidableEq

/-- Whether a text has nothing but white space. -/
def isBlank (text : Text) : Bool := trim isWhiteSpace text = []

/-- Fails if a part of the place of an entry is blank; the parts that can be left out are checked if
they are given. -/
def validateCacheLocationParams (location : CacheLocationParams) : Except String Unit :=
  if isBlank location.adminEmail then .error "adminEmail must not be empty"
  else if isBlank location.apiEnvironmentName then .error "apiEnvironmentName must not be empty"
  else if location.namespace_.any isBlank then
    .error "cacheIdentity.namespace must not be empty"
  else if location.tokenKind.any isBlank then .error "cacheIdentity.tokenKind must not be empty"
  else .ok ()

/-- Fails if the place of the entry, one of the durations, the policy of the validation or the
rejected token is not valid; the first error is the one that is given. -/
def validateParams (params : GetOrCreateParams) : Except String Unit := do
  validateCacheLocationParams params.location
  if params.cacheDurationMs ≤ 0 then .error "cacheDurationMs must be positive"
  else if params.jwtExpirationSafetySkewMs.any (· < 0) then
    .error "jwtExpirationSafetySkewMs must be finite and non-negative"
  else if params.validateToken && params.validationPolicy.all isBlank then
    .error "validationPolicy must be provided when validateToken is configured"
  else if params.validationTimeoutMs.any (· ≤ 0) then
    .error "validationTimeoutMs must be positive"
  else
    match params.forceRefresh with
    | .rejected rejectedAuthToken =>
        if isValidBearerToken rejectedAuthToken then .ok ()
        else .error "forceRefresh.rejectedAuthToken must be a valid bearer token"
    | _ => .ok ()

/-- How long before its expiration a JWT counts as expired,
`DEFAULT_JWT_EXPIRATION_SAFETY_SKEW_MS`. -/
def defaultJwtExpirationSafetySkewMs : ℚ := 60000

/-- The skew of a call. -/
def GetOrCreateParams.skew (params : GetOrCreateParams) : ℚ :=
  params.jwtExpirationSafetySkewMs.getD defaultJwtExpirationSafetySkewMs

/-- The skew with which a call reads the cache. -/
def Call.skew : Call → ℚ
  | .getOrCreate params => params.skew
  | .invalidate _ => defaultJwtExpirationSafetySkewMs

/-- The caller asks for another token than the current one. -/
def isForceRefreshRequested : ForceRefresh → Bool
  | .none => false
  | _ => true

/-- The hash of the policy, none if tokens are not validated. -/
def getValidationPolicyFingerprint (env : Environment) (params : GetOrCreateParams) : Option Text :=
  if params.validateToken then params.validationPolicy.map env.hash else none

/-- The hash of a token. -/
def getCredentialFingerprint (env : Environment) (authToken : Text) : Text := env.hash authToken

/-- The hash of the token to get rid of: the rejected one, or that of the current entry. -/
def getForceRefreshTargetCredentialFingerprint (env : Environment) (forceRefresh : ForceRefresh)
    (cachedEntry : Option StoredEntry) : Option Text :=
  match forceRefresh with
  | .none => none
  | .rejected rejectedAuthToken => some (getCredentialFingerprint env rejectedAuthToken)
  | .always => cachedEntry.map fun entry ↦ getCredentialFingerprint env entry.authToken

/-- Tokens are validated, and the entry was not under the current policy. -/
def needsValidation (env : Environment) (params : GetOrCreateParams) (entry : StoredEntry) : Bool :=
  params.validateToken &&
    entry.validationPolicyFingerprint ≠ getValidationPolicyFingerprint env params

/-- A refresh is asked for, and the current entry is still the one to get rid of. -/
def refreshesCurrentEntry (env : Environment) (params : GetOrCreateParams) (target : Option Text)
    (cachedEntry : Option StoredEntry) : Bool :=
  isForceRefreshRequested params.forceRefresh &&
    match cachedEntry with
    | some entry => some (getCredentialFingerprint env entry.authToken) = target
    | none => target.isNone

/-! ## Control points -/

/-- How a call ends. -/
inductive Outcome where
  | returned (entry : CacheEntry)
  | invalidated
  | failed
  deriving DecidableEq

/-- Where a call is. -/
inductive Control where
  /-- Before the first step. -/
  | start
  /-- `readCachedEntry` outside of the lock has read the file. -/
  | reading (file : CacheFile)
  /-- Waiting for the lock. -/
  | waiting (target : Option Text)
  /-- Holding the lock, about to read the file. -/
  | locked (target : Option Text)
  /-- `readCachedEntry` inside of the lock has read the file. -/
  | readingLocked (target : Option Text) (file : CacheFile)
  /-- About to remove the file. -/
  | removing
  /-- Probing the token of a cached entry. -/
  | probing (cachedEntry : StoredEntry)
  /-- The probe has accepted the token of a cached entry. -/
  | validated (cachedEntry : StoredEntry)
  /-- About to see whether an accepted entry has expired meanwhile. -/
  | accepted (acceptedEntry : StoredEntry) (needsValidation : Bool)
  /-- Running `createToken`. -/
  | creating
  /-- `createToken` has returned. -/
  | created (authToken : Text)
  /-- Probing a created token. -/
  | probingCreated (authToken : Text) (mintedAtMs : ℚ)
  /-- A created token has been accepted. -/
  | acceptedCreated (authToken : Text) (mintedAtMs : ℚ)
  /-- About to rename an entry into place. -/
  | writing (storedEntry : StoredEntry)
  /-- About to release the lock. -/
  | releasing (outcome : Outcome)
  /-- At the end. -/
  | ended (outcome : Outcome)

/-- Whether a call holds the lock. -/
def Control.holdsLock : Control → Bool
  | .start | .reading _ | .waiting _ | .ended _ => false
  | _ => true

/-- The entry that a call has returned. -/
def Control.result : Control → Option CacheEntry
  | .ended (.returned entry) => some entry
  | _ => none

/-- A call with a result has returned it. -/
theorem Control.eq_of_result {control : Control} {entry : CacheEntry}
    (h : control.result = some entry) : control = .ended (.returned entry) := by
  unfold Control.result at h
  split at h
  · rw [Option.some.inj h]
  · simp at h

/-! ## Steps of a call -/

/-- What a call does in a step: where it goes, what the cache file holds then, and the readings it
took of the clock. -/
structure Advanced where
  control : Control
  cacheFile : CacheFile
  readings : List ℚ

section Steps

variable (env : Environment) (nowMs : ℚ) (cacheFile : CacheFile)

/-- The first step of a call. -/
def startCall : Call → Advanced
  | .invalidate location =>
      match validateCacheLocationParams location with
      | .error _ => ⟨.ended .failed, cacheFile, []⟩
      | .ok () => ⟨.waiting none, cacheFile, []⟩
  | .getOrCreate params =>
      match validateParams params with
      | .error _ => ⟨.ended .failed, cacheFile, []⟩
      | .ok () =>
          match params.forceRefresh with
          | .rejected _ =>
              ⟨.waiting (getForceRefreshTargetCredentialFingerprint env params.forceRefresh none),
                cacheFile, []⟩
          | _ => ⟨.reading cacheFile, cacheFile, []⟩

/-- What `getOrCreateAdminAuthToken` does with the entry it has read outside of the lock. -/
def checkCachedEntry (params : GetOrCreateParams) (cachedEntry : Option StoredEntry) : Control :=
  let wait := Control.waiting
    (getForceRefreshTargetCredentialFingerprint env params.forceRefresh cachedEntry)
  if isForceRefreshRequested params.forceRefresh then wait
  else
    match cachedEntry with
    | some entry =>
        if needsValidation env params entry then wait
        else .ended (.returned (getPublicCacheEntry entry))
    | none => wait

/-- What `getOrCreateWithLock` does with the entry it has read. -/
def checkLockedEntry (params : GetOrCreateParams) (target : Option Text)
    (cachedEntry : Option StoredEntry) : Control :=
  if refreshesCurrentEntry env params target cachedEntry then .removing
  else
    match cachedEntry with
    | some entry =>
        if needsValidation env params entry then .probing entry else .accepted entry false
    | none => .creating

/-- The entry for a created token that has been accepted, unless it has expired already. -/
def createdEntry (params : GetOrCreateParams) (authToken : Text) (mintedAtMs : ℚ) :
    Option StoredEntry :=
  let expiresAtMs :=
    getAdminAuthTokenExpiration env authToken params.cacheDurationMs params.skew nowMs
  if expiresAtMs ≤ nowMs then none
  else some
    { authToken := authToken
      expiresAtMs := expiresAtMs
      mintedAtMs := some mintedAtMs
      validatedAtMs := if params.validateToken then some nowMs else none
      validationPolicyFingerprint := getValidationPolicyFingerprint env params }

/-- A step of `getOrCreateAdminAuthToken` that depends on nothing but the clock and the file. -/
def advanceGetOrCreate (params : GetOrCreateParams) : Control → Option Advanced
  | .start => some (startCall env cacheFile (.getOrCreate params))
  | .reading file =>
      some ⟨checkCachedEntry env params (readCachedEntry env params.skew nowMs file), cacheFile,
        readingsOf file nowMs⟩
  | .locked target => some ⟨.readingLocked target cacheFile, cacheFile, []⟩
  | .readingLocked target file =>
      some ⟨checkLockedEntry env params target (readCachedEntry env params.skew nowMs file),
        cacheFile, readingsOf file nowMs⟩
  | .removing => some ⟨.creating, .absent, []⟩
  | .validated cachedEntry =>
      some ⟨.accepted { cachedEntry with
          validatedAtMs := some nowMs
          validationPolicyFingerprint := getValidationPolicyFingerprint env params } true,
        cacheFile, [nowMs]⟩
  | .accepted acceptedEntry needsValidation =>
      let control :=
        if isAdminAuthTokenExpired acceptedEntry nowMs then Control.removing
        else if needsValidation then .writing acceptedEntry
        else .releasing (.returned (getPublicCacheEntry acceptedEntry))
      some ⟨control, cacheFile, [nowMs]⟩
  | .created authToken =>
      if !isValidBearerToken authToken then some ⟨.releasing .failed, cacheFile, []⟩
      else if params.validateToken then
        some ⟨.probingCreated authToken nowMs, cacheFile, [nowMs]⟩
      else some ⟨.acceptedCreated authToken nowMs, cacheFile, [nowMs]⟩
  | .acceptedCreated authToken mintedAtMs =>
      match createdEntry env nowMs params authToken mintedAtMs with
      | none => some ⟨.releasing .failed, cacheFile, [nowMs]⟩
      | some storedEntry => some ⟨.writing storedEntry, cacheFile, [nowMs]⟩
  | .writing storedEntry =>
      some ⟨.releasing (.returned (getPublicCacheEntry storedEntry)),
        writeCachedEntry storedEntry, []⟩
  | .waiting _ | .probing _ | .creating | .probingCreated _ _ | .releasing _ | .ended _ => none

/-- A step of `invalidateAdminAuthToken`. -/
def advanceInvalidate (location : CacheLocationParams) : Control → Option Advanced
  | .start => some (startCall env cacheFile (.invalidate location))
  | .locked target => some ⟨.readingLocked target cacheFile, cacheFile, []⟩
  | .readingLocked _ file => some ⟨.removing, cacheFile, readingsOf file nowMs⟩
  | .removing => some ⟨.releasing .invalidated, .absent, []⟩
  | _ => none

/-- A step of a call. -/
def advanceCall : Call → Control → Option Advanced
  | .getOrCreate params, control => advanceGetOrCreate env nowMs cacheFile params control
  | .invalidate location, control => advanceInvalidate env nowMs cacheFile location control

variable {env nowMs cacheFile} {params : GetOrCreateParams} {authToken : Text} {advanced : Advanced}

/-- What becomes of a created token: it is refused, probed, or accepted as it is. -/
theorem advance_created
    (h : advanceCall env nowMs cacheFile (.getOrCreate params) (.created authToken) =
      some advanced) :
    (isValidBearerToken authToken = false ∧ advanced = ⟨.releasing .failed, cacheFile, []⟩) ∨
      (params.validateToken = true ∧
        advanced = ⟨.probingCreated authToken nowMs, cacheFile, [nowMs]⟩) ∨
      (params.validateToken = false ∧
        advanced = ⟨.acceptedCreated authToken nowMs, cacheFile, [nowMs]⟩) := by
  simp only [advanceCall, advanceGetOrCreate] at h
  cases hvalid : isValidBearerToken authToken with
  | false => exact .inl ⟨rfl, by simpa [hvalid] using h.symm⟩
  | true =>
      cases hvalidate : params.validateToken with
      | true => exact .inr (.inl ⟨rfl, by simpa [hvalid, hvalidate] using h.symm⟩)
      | false => exact .inr (.inr ⟨rfl, by simpa [hvalid, hvalidate] using h.symm⟩)

end Steps

/-! ## The system -/

/-- What a call has seen: its readings of the clock since its last probe, and the cached token that
its probe has rejected. -/
structure History where
  readings : List ℚ
  rejected : Option Text

/-- The clock, the cache file, the lock and all calls; the probes that have accepted a token, with
the fingerprint of their policy; and the created tokens. -/
structure State (P : Type) where
  nowMs : ℚ
  cacheFile : CacheFile
  lockHolder : Option P
  control : P → Control
  history : P → History
  accepted : List (Text × Option Text)
  created : List (P × Text)

/-- One step of the clock or of one call. -/
inductive Action (P : Type) where
  /-- The clock moves on. -/
  | tick (nowMs : ℚ)
  /-- A waiting call takes the lock. -/
  | acquire (p : P)
  /-- A call takes its next step. -/
  | advance (p : P)
  /-- `validateToken` answers. -/
  | probe (p : P) (isAccepted : Bool)
  /-- `createToken` returns. -/
  | create (p : P) (authToken : Text)
  /-- A call releases the lock. -/
  | release (p : P)
  /-- Something throws. -/
  | fail (p : P)

/-- The fingerprint of the policy of a call. -/
def Call.policyFingerprint (env : Environment) : Call → Option Text
  | .getOrCreate params => getValidationPolicyFingerprint env params
  | .invalidate _ => none

namespace State

variable {P : Type} [DecidableEq P]

/-- Send a call somewhere. -/
def goto (s : State P) (p : P) (control : Control) : State P :=
  { s with control := Function.update s.control p control }

/-- A call takes a step. -/
def advanceTo (s : State P) (p : P) (advanced : Advanced) : State P :=
  { s with
    cacheFile := advanced.cacheFile
    control := Function.update s.control p advanced.control
    history := Function.update s.history p
      { s.history p with readings := (s.history p).readings ++ advanced.readings } }

/-- A probe of a token answers; `rejected` is the cached token, if it is one and is rejected. -/
def answerTo (s : State P) (p : P) (accepted : Option (Text × Option Text))
    (rejected : Option Text) (control : Control) : State P :=
  { s with
    accepted := s.accepted ++ accepted.toList
    control := Function.update s.control p control
    history := Function.update s.history p
      { readings := [], rejected := rejected.or (s.history p).rejected } }

/-- One step of the system. The clock does not go back. -/
def step (env : Environment) (calls : P → Call) (s : State P) : Action P → Option (State P)
  | .tick nowMs => if s.nowMs ≤ nowMs then some { s with nowMs := nowMs } else none
  | .acquire p =>
      match s.control p, s.lockHolder with
      | .waiting target, none => some ({ s with lockHolder := some p }.goto p (.locked target))
      | _, _ => none
  | .advance p =>
      (advanceCall env s.nowMs s.cacheFile (calls p) (s.control p)).map (s.advanceTo p)
  | .probe p isAccepted =>
      match s.control p, isAccepted with
      | .probing entry, true =>
          some (s.answerTo p (some (entry.authToken, (calls p).policyFingerprint env)) none
            (.validated entry))
      | .probing entry, false => some (s.answerTo p none (some entry.authToken) .removing)
      | .probingCreated authToken mintedAtMs, true =>
          some (s.answerTo p (some (authToken, (calls p).policyFingerprint env)) none
            (.acceptedCreated authToken mintedAtMs))
      | .probingCreated _ _, false => some (s.answerTo p none none (.releasing .failed))
      | _, _ => none
  | .create p authToken =>
      match s.control p with
      | .creating =>
          some ({ s with created := s.created ++ [(p, authToken)] }.goto p (.created authToken))
      | _ => none
  | .release p =>
      match s.control p with
      | .releasing outcome => some ({ s with lockHolder := none }.goto p (.ended outcome))
      | _ => none
  | .fail p =>
      match s.control p with
      | .ended _ => none
      | .start | .reading _ | .waiting _ => some (s.goto p (.ended .failed))
      | _ => some (s.goto p (.releasing .failed))

/-- Before the calls: the lock is free, and no token has been created. -/
structure Initial (s : State P) : Prop where
  lockHolder_eq : s.lockHolder = none
  control_eq : ∀ p, s.control p = .start
  history_eq : ∀ p, s.history p = ⟨[], none⟩
  created_eq : s.created = []

/-- What a step does, one case for each kind. -/
inductive Step (env : Environment) (calls : P → Call) (s : State P) :
    Action P → State P → Prop where
  | tick {nowMs : ℚ} : s.nowMs ≤ nowMs → Step env calls s (.tick nowMs) { s with nowMs := nowMs }
  | acquire {p : P} {target : Option Text} : s.control p = .waiting target →
      s.lockHolder = none →
      Step env calls s (.acquire p) ({ s with lockHolder := some p }.goto p (.locked target))
  | advance {p : P} {advanced : Advanced} :
      advanceCall env s.nowMs s.cacheFile (calls p) (s.control p) = some advanced →
      Step env calls s (.advance p) (s.advanceTo p advanced)
  | accept {p : P} {entry : StoredEntry} : s.control p = .probing entry →
      Step env calls s (.probe p true) (s.answerTo p
        (some (entry.authToken, (calls p).policyFingerprint env)) none (.validated entry))
  | reject {p : P} {entry : StoredEntry} : s.control p = .probing entry →
      Step env calls s (.probe p false) (s.answerTo p none (some entry.authToken) .removing)
  | acceptCreated {p : P} {authToken : Text} {mintedAtMs : ℚ} :
      s.control p = .probingCreated authToken mintedAtMs →
      Step env calls s (.probe p true) (s.answerTo p
        (some (authToken, (calls p).policyFingerprint env)) none
        (.acceptedCreated authToken mintedAtMs))
  | rejectCreated {p : P} {authToken : Text} {mintedAtMs : ℚ} :
      s.control p = .probingCreated authToken mintedAtMs →
      Step env calls s (.probe p false) (s.answerTo p none none (.releasing .failed))
  | create {p : P} {authToken : Text} : s.control p = .creating →
      Step env calls s (.create p authToken)
        ({ s with created := s.created ++ [(p, authToken)] }.goto p (.created authToken))
  | release {p : P} {outcome : Outcome} : s.control p = .releasing outcome →
      Step env calls s (.release p) ({ s with lockHolder := none }.goto p (.ended outcome))
  | failOutside {p : P} : (s.control p).holdsLock = false →
      Step env calls s (.fail p) (s.goto p (.ended .failed))
  | failInside {p : P} : (s.control p).holdsLock = true →
      Step env calls s (.fail p) (s.goto p (.releasing .failed))

variable {env : Environment} {calls : P → Call} {s s' : State P} {a : Action P}

/-- A step is one of its kinds. -/
theorem Step.of_step (h : s.step env calls a = some s') : Step env calls s a s' := by
  cases a with
  | tick nowMs =>
      rw [step] at h
      split at h
      · rename_i hle
        obtain rfl := Option.some.inj h
        exact .tick hle
      · simp at h
  | acquire p =>
      rw [step] at h
      split at h
      · rename_i target hcontrol hholder
        obtain rfl := Option.some.inj h
        exact .acquire hcontrol hholder
      · simp at h
  | advance p =>
      -- which statement is reached is left to `advanceCall`
      obtain ⟨advanced, hadvanced, rfl⟩ := Option.map_eq_some_iff.mp h
      exact .advance hadvanced
  | probe p isAccepted =>
      cases hcontrol : s.control p with
      | probing entry =>
          cases isAccepted with
          | true =>
              obtain rfl : _ = s' := by simpa [step, hcontrol] using h
              exact .accept hcontrol
          | false =>
              obtain rfl : _ = s' := by simpa [step, hcontrol] using h
              exact .reject hcontrol
      | probingCreated authToken mintedAtMs =>
          cases isAccepted with
          | true =>
              obtain rfl : _ = s' := by simpa [step, hcontrol] using h
              exact .acceptCreated hcontrol
          | false =>
              obtain rfl : _ = s' := by simpa [step, hcontrol] using h
              exact .rejectCreated hcontrol
      | _ => simp [step, hcontrol] at h
  | create p authToken =>
      rw [step] at h
      split at h
      · rename_i hcontrol
        obtain rfl := Option.some.inj h
        exact .create hcontrol
      · simp at h
  | release p =>
      rw [step] at h
      split at h
      · rename_i outcome hcontrol
        obtain rfl := Option.some.inj h
        exact .release hcontrol
      · simp at h
  | fail p =>
      rw [step] at h
      split at h
      · simp at h
      · rename_i hcontrol
        obtain rfl := Option.some.inj h
        exact .failOutside (by rw [hcontrol]; rfl)
      · rename_i file hcontrol
        obtain rfl := Option.some.inj h
        exact .failOutside (by rw [hcontrol]; rfl)
      · rename_i target hcontrol
        obtain rfl := Option.some.inj h
        exact .failOutside (by rw [hcontrol]; rfl)
      · rename_i hended hstart hreading hwaiting
        obtain rfl := Option.some.inj h
        -- every other place of a call is inside the lock
        refine .failInside ?_
        cases hcontrol : s.control p with
        | ended outcome => exact absurd hcontrol (hended outcome)
        | start => exact absurd hcontrol hstart
        | reading file => exact absurd hcontrol (hreading file)
        | waiting target => exact absurd hcontrol (hwaiting target)
        | _ => rfl

end State

end CoreUtils.Toolkit.AdminAuth
