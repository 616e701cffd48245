import Mathlib.Algebra.Order.Field.Rat
import CoreUtils.Library.Json
import CoreUtils.Library.Text

/-!
# Entries of the admin token cache

What the cache file holds and until when it counts, after `adminAuthToken.ts`: the checks of
`isStoredCacheEntry`, the expiration of a token from its cache duration and from its JWT payload,
and `readCachedEntry`. Times are rationals. The hash and the decoding of base64url payloads are
parameters.
-/

namespace CoreUtils.Toolkit.AdminAuth

open Text

/-- Text as its characters. -/
abbrev Text := List Char

/-- The functions that the cache uses as they are: `createDeterministicHash` cut to 16 characters,
and the JSON value that a base64url payload spells, where it spells one. -/
structure Environment where
  hash : Text → Text
  decodePayload : Text → Option Json

/-- The entry as it is stored in the cache, `StoredAdminAuthTokenCacheEntry`. -/
structure StoredEntry where
  authToken : Text
  expiresAtMs : ℚ
  mintedAtMs : Option ℚ
  validatedAtMs : Option ℚ
  validationPolicyFingerprint : Option Text
  deriving DecidableEq

/-- The entry that a caller gets, `AdminAuthTokenCacheEntry`. -/
structure CacheEntry where
  authToken : Text
  expiresAtMs : ℚ
  deriving DecidableEq

/-- What a caller gets of a stored entry. -/
def getPublicCacheEntry (storedEntry : StoredEntry) : CacheEntry :=
  ⟨storedEntry.authToken, storedEntry.expiresAtMs⟩

/-- What every token begins with, `BEARER_TOKEN_PREFIX`. -/
def bearerTokenPrefix : Text := "Bearer ".toList

/-- The token has the prefix and something behind it, and no blanks around. -/
def isValidBearerToken (authToken : Text) : Bool :=
  authToken = trim isWhiteSpace authToken && bearerTokenPrefix.isPrefixOf authToken &&
    authToken.length > bearerTokenPrefix.length

/-! ## Expiration -/

/-- When a JWT expires by its own payload. There is no such time if the token has not three parts,
or its payload is not read or has no number there. -/
def getJwtExpirationMs (env : Environment) (authToken : Text) : Option ℚ :=
  match (authToken.drop bearerTokenPrefix.length).splitOn '.' with
  | [_, encodedPayload, _] => do
      let payload ← env.decodePayload encodedPayload
      let exp ← payload.member "exp".toList
      let expirationSeconds ← exp.asNumber
      return expirationSeconds * 1000
  | _ => none

/-- `getAdminAuthTokenExpiration`, the time until which an entry counts. -/
def getAdminAuthTokenExpiration (env : Environment) (authToken : Text)
    (cacheDurationMs jwtExpirationSafetySkewMs nowMs : ℚ) : ℚ :=
  let configuredExpiresAtMs := nowMs + cacheDurationMs
  match getJwtExpirationMs env authToken with
  | none => configuredExpiresAtMs
  | some jwtExpiresAtMs => min configuredExpiresAtMs (jwtExpiresAtMs - jwtExpirationSafetySkewMs)

/-- The time of an entry is over. -/
def isAdminAuthTokenExpired (entry : StoredEntry) (nowMs : ℚ) : Bool := entry.expiresAtMs ≤ nowMs

/-! ## The cache file -/

/-- The contents of the cache file. -/
inductive CacheFile where
  | absent
  | malformed
  | json (contents : Json)

/-- The fields of an entry, where they have the types that `isStoredCacheEntry` asks for. -/
def storedFields (value : Json) : Option StoredEntry := do
  let authToken ← (value.member "authToken".toList).bind Json.asString
  let expiresAtMs ← (value.member "expiresAtMs".toList).bind Json.asNumber
  let mintedAtMs ← Json.optional Json.asNumber (value.member "mintedAtMs".toList)
  let validatedAtMs ← Json.optional Json.asNumber (value.member "validatedAtMs".toList)
  let validationPolicyFingerprint ←
    Json.optional Json.asString (value.member "validationPolicyFingerprint".toList)
  return { authToken, expiresAtMs, mintedAtMs, validatedAtMs, validationPolicyFingerprint }

/-- The entry that a JSON value is, if `isStoredCacheEntry` holds of it. -/
def storedCacheEntry (value : Json) : Option StoredEntry :=
  (storedFields value).filter fun entry ↦ isValidBearerToken entry.authToken

/-- `JSON.stringify` of an entry, as the value that is read back. -/
def StoredEntry.toJson (entry : StoredEntry) : Json :=
  Json.objectOf
    [("authToken".toList, some (.string entry.authToken)),
      ("expiresAtMs".toList, some (.number entry.expiresAtMs)),
      ("mintedAtMs".toList, entry.mintedAtMs.map .number),
      ("validatedAtMs".toList, entry.validatedAtMs.map .number),
      ("validationPolicyFingerprint".toList, entry.validationPolicyFingerprint.map .string)]

/-- The entry in a cache file. -/
def CacheFile.entry : CacheFile → Option StoredEntry
  | .absent => none
  | .malformed => none
  | .json contents => storedCacheEntry contents

/-- `writeCachedEntry`: what the cache file holds after the rename. -/
def writeCachedEntry (storedEntry : StoredEntry) : CacheFile := .json storedEntry.toJson

/-- `readCachedEntry` of a file that has been read, at a time of the clock. -/
def readCachedEntry (env : Environment) (jwtExpirationSafetySkewMs nowMs : ℚ) (file : CacheFile) :
    Option StoredEntry := do
  let parsed ← file.entry
  let expiresAtMs := getAdminAuthTokenExpiration env parsed.authToken (parsed.expiresAtMs - nowMs)
    jwtExpirationSafetySkewMs nowMs
  if expiresAtMs ≤ nowMs then none
  else some { parsed with expiresAtMs := min parsed.expiresAtMs expiresAtMs }

/-- The readings of the clock that `readCachedEntry` takes: one if the file holds an entry. -/
def readingsOf (file : CacheFile) (nowMs : ℚ) : List ℚ :=
  if file.entry.isSome then [nowMs] else []

/-! ## Facts about entries -/

/-- The fields of an entry are read back. -/
theorem stored_fields_to_json (entry : StoredEntry) : storedFields entry.toJson = some entry := by
  rcases entry with ⟨authToken, expiresAtMs, mintedAtMs, validatedAtMs, fingerprint⟩
  cases mintedAtMs <;> cases validatedAtMs <;> cases fingerprint <;>
    simp [StoredEntry.toJson, Json.objectOf, storedFields, Json.member, Json.asString,
      Json.asNumber, Json.optional, List.lookup_cons]

/-- A written entry with a valid token is read back. -/
theorem entry_write_cached_entry {entry : StoredEntry}
    (h : isValidBearerToken entry.authToken = true) :
    (writeCachedEntry entry).entry = some entry := by
  simp [writeCachedEntry, CacheFile.entry, storedCacheEntry, stored_fields_to_json, h]

/-- Nothing but the written entry is read back. -/
theorem eq_of_entry_write_cached_entry {entry other : StoredEntry}
    (h : (writeCachedEntry entry).entry = some other) : other = entry := by
  simp only [writeCachedEntry, CacheFile.entry, storedCacheEntry, stored_fields_to_json] at h
  exact (Option.some.inj (Option.filter_eq_some_iff.mp h).1).symm

/-- An entry in a cache file has a valid token. -/
theorem is_valid_bearer_token_of_entry {file : CacheFile} {entry : StoredEntry}
    (h : file.entry = some entry) : isValidBearerToken entry.authToken = true := by
  cases file with
  | absent => simp [CacheFile.entry] at h
  | malformed => simp [CacheFile.entry] at h
  | json contents => exact (Option.filter_eq_some_iff.mp h).2

variable {env : Environment}

/-- The expiration of a token is at most what its cache duration and its JWT payload allow. -/
theorem expiration_le (env : Environment) (authToken : Text) (cacheDurationMs skew nowMs : ℚ) :
    getAdminAuthTokenExpiration env authToken cacheDurationMs skew nowMs ≤
        nowMs + cacheDurationMs ∧
      ∀ jwtExpiresAtMs, getJwtExpirationMs env authToken = some jwtExpiresAtMs →
        getAdminAuthTokenExpiration env authToken cacheDurationMs skew nowMs ≤
          jwtExpiresAtMs - skew := by
  unfold getAdminAuthTokenExpiration
  cases hjwt : getJwtExpirationMs env authToken with
  | none => exact ⟨le_rfl, by simp⟩
  | some jwtExpiresAtMs =>
      refine ⟨min_le_left _ _, fun other hother ↦ ?_⟩
      obtain rfl : jwtExpiresAtMs = other := Option.some.inj hother
      exact min_le_right _ _

/-- A token counts beyond any time that neither its cache duration nor its JWT payload ends
before. -/
theorem lt_expiration {authToken : Text} {cacheDurationMs skew nowMs horizon : ℚ}
    (hduration : horizon < nowMs + cacheDurationMs)
    (hjwt : ∀ jwtExpiresAtMs, getJwtExpirationMs env authToken = some jwtExpiresAtMs →
      horizon < jwtExpiresAtMs - skew) :
    horizon < getAdminAuthTokenExpiration env authToken cacheDurationMs skew nowMs := by
  unfold getAdminAuthTokenExpiration
  cases hexpiration : getJwtExpirationMs env authToken with
  | none => exact hduration
  | some jwtExpiresAtMs => exact lt_min hduration (hjwt _ hexpiration)

/-- What is known of an entry that has been read: it is in the file, except that its expiration may
have been brought forward, and it counts beyond the reading of the clock. -/
theorem read_cached_entry_eq_some {skew nowMs : ℚ} {file : CacheFile} {entry : StoredEntry}
    (h : readCachedEntry env skew nowMs file = some entry) :
    ∃ parsed, file.entry = some parsed ∧ entry.authToken = parsed.authToken ∧
      entry.validationPolicyFingerprint = parsed.validationPolicyFingerprint ∧
      nowMs < entry.expiresAtMs ∧ readingsOf file nowMs = [nowMs] ∧
      ∀ jwtExpiresAtMs, getJwtExpirationMs env entry.authToken = some jwtExpiresAtMs →
        entry.expiresAtMs ≤ jwtExpiresAtMs - skew := by
  simp only [readCachedEntry, Option.bind_eq_bind, Option.bind_eq_some_iff] at h
  obtain ⟨parsed, hparsed, hentry⟩ := h
  have hexpiration := expiration_le env parsed.authToken (parsed.expiresAtMs - nowMs)
    skew nowMs
  split at hentry
  · simp at hentry
  · rename_i hcounts
    obtain rfl := Option.some.inj hentry
    have hnow := not_le.mp hcounts
    have hparsedCounts : nowMs < parsed.expiresAtMs := by
      have := hexpiration.1
      rw [add_sub_cancel] at this
      exact lt_of_lt_of_le hnow this
    refine ⟨parsed, hparsed, rfl, rfl, lt_min hparsedCounts hnow, by simp [readingsOf, hparsed],
      fun jwtExpiresAtMs hjwt ↦ ?_⟩
    exact le_trans (min_le_right _ _) (hexpiration.2 _ hjwt)

/-- An entry is read while neither it nor the JWT payload of its token has expired. -/
theorem read_cached_entry_of_lt {skew nowMs horizon : ℚ} {file : CacheFile} {parsed : StoredEntry}
    (hparsed : file.entry = some parsed) (hnow : nowMs ≤ horizon)
    (hexpires : horizon < parsed.expiresAtMs)
    (hjwt : ∀ jwtExpiresAtMs, getJwtExpirationMs env parsed.authToken = some jwtExpiresAtMs →
      horizon < jwtExpiresAtMs - skew) :
    ∃ entry, readCachedEntry env skew nowMs file = some entry ∧
      entry.authToken = parsed.authToken ∧
      entry.validationPolicyFingerprint = parsed.validationPolicyFingerprint ∧
      horizon < entry.expiresAtMs := by
  have hexpiration : horizon < getAdminAuthTokenExpiration env parsed.authToken
      (parsed.expiresAtMs - nowMs) skew nowMs :=
    lt_expiration (by rw [add_sub_cancel]; exact hexpires) hjwt
  refine ⟨{ parsed with expiresAtMs := min parsed.expiresAtMs _ }, ?_, rfl, rfl,
    lt_min hexpires hexpiration⟩
  simp only [readCachedEntry, hparsed, Option.bind_eq_bind, Option.bind_some]
  rw [if_neg (not_le.mpr (lt_of_le_of_lt hnow hexpiration))]

end CoreUtils.Toolkit.AdminAuth
