import CoreUtils.Toolkit.AdminAuthTokenExclusive

/-!
# Freshness and validation of admin tokens

What is known of a call at each of its control points (`Known`) is kept by its own steps and by the
steps of others. An entry that a call returns counts beyond a reading of the clock after the last
probe and no longer than its JWT payload allows, and its token has been accepted under the policy of
the call; a cached token that a probe rejects is gone from the cache when `createToken` runs
(`returned_entries_fresh`).
-/

namespace CoreUtils.Toolkit.AdminAuth

/-! ## What is known of entries -/

/-- The parameters of a call have been validated. -/
def Call.Valid (call : Call) : Prop :=
  ∀ params, call = .getOrCreate params → validateParams params = .ok ()

/-- A token does not count longer than its JWT payload allows. -/
def Bounded (env : Environment) (call : Call) (authToken : Text) (expiresAtMs : ℚ) : Prop :=
  ∀ jwtExpiresAtMs, getJwtExpirationMs env authToken = some jwtExpiresAtMs →
    expiresAtMs ≤ jwtExpiresAtMs - call.skew

/-- A token counts beyond a reading of the clock since the last probe. -/
def Counted (history : History) (expiresAtMs : ℚ) : Prop :=
  ∃ reading ∈ history.readings, reading < expiresAtMs

/-- If the call validates tokens, a probe has accepted this one under its policy. -/
def Admitted (env : Environment) (call : Call) (accepted : List (Text × Option Text))
    (authToken : Text) : Prop :=
  ∀ params, call = .getOrCreate params → params.validateToken = true →
    (authToken, getValidationPolicyFingerprint env params) ∈ accepted

/-- A probe has accepted the token of an entry under the policy whose fingerprint the entry has. -/
def Justified (accepted : List (Text × Option Text)) (entry : StoredEntry) : Prop :=
  ∀ fingerprint, entry.validationPolicyFingerprint = some fingerprint →
    (entry.authToken, some fingerprint) ∈ accepted

/-- The entry of a file is justified. -/
def FileJustified (accepted : List (Text × Option Text)) (file : CacheFile) : Prop :=
  ∀ entry, file.entry = some entry → Justified accepted entry

variable {env : Environment} {params : GetOrCreateParams} {call : Call}
  {accepted accepted' : List (Text × Option Text)} {history : History} {authToken : Text}
  {entry : StoredEntry}

/-- A call that validates tokens has a policy. -/
theorem policy_fingerprint_isSome (env : Environment) (hvalid : validateParams params = .ok ())
    (hvalidate : params.validateToken = true) :
    ∃ fingerprint, getValidationPolicyFingerprint env params = some fingerprint := by
  cases hpolicy : params.validationPolicy with
  | some policy => exact ⟨env.hash policy, by simp [getValidationPolicyFingerprint, *]⟩
  | none =>
      unfold validateParams at hvalid
      cases hlocation : validateCacheLocationParams params.location with
      | error message => simp [hlocation, bind, Except.bind] at hvalid
      | ok _ =>
          simp only [hlocation, hvalidate, hpolicy, bind, Except.bind, Option.all_none,
            Bool.and_self, if_true] at hvalid
          split at hvalid
          · simp at hvalid
          · split at hvalid <;> simp at hvalid

/-- Only calls that validate tokens have a policy fingerprint. -/
theorem validate_token_of_fingerprint {fingerprint : Text}
    (h : getValidationPolicyFingerprint env params = some fingerprint) :
    params.validateToken = true := by
  unfold getValidationPolicyFingerprint at h
  split at h
  · assumption
  · simp at h

/-- A justified entry that needs no validation has an admitted token. -/
theorem admitted_of_justified (hvalid : validateParams params = .ok ())
    (hneeds : needsValidation env params entry = false) (hjustified : Justified accepted entry) :
    Admitted env (.getOrCreate params) accepted entry.authToken := by
  intro other hother hvalidate
  obtain rfl : params = other := Call.getOrCreate.inj hother
  obtain ⟨fingerprint, hfingerprint⟩ := policy_fingerprint_isSome env hvalid hvalidate
  have hsame : entry.validationPolicyFingerprint = getValidationPolicyFingerprint env params := by
    simpa [needsValidation, hvalidate] using hneeds
  rw [hfingerprint] at hsame ⊢
  exact hjustified fingerprint hsame

/-- An entry with an admitted token and the fingerprint of the call is justified. -/
theorem justified_of_admitted
    (hadmitted : Admitted env (.getOrCreate params) accepted entry.authToken)
    (hfingerprint : entry.validationPolicyFingerprint =
      getValidationPolicyFingerprint env params) : Justified accepted entry := by
  intro fingerprint hentry
  rw [hfingerprint] at hentry
  have hmem := hadmitted params rfl (validate_token_of_fingerprint hentry)
  rwa [hentry] at hmem

/-- An entry that has been read is justified if the file is. -/
theorem justified_of_read {skew nowMs : ℚ} {file : CacheFile} (hfile : FileJustified accepted file)
    (hread : readCachedEntry env skew nowMs file = some entry) : Justified accepted entry := by
  obtain ⟨parsed, hparsed, htoken, hfingerprint, -⟩ := read_cached_entry_eq_some hread
  intro fingerprint hentry
  rw [hfingerprint] at hentry
  rw [htoken]
  exact hfile parsed hparsed fingerprint hentry

/-- A written entry makes a justified file. -/
theorem file_justified_write (h : Justified accepted entry) :
    FileJustified accepted (writeCachedEntry entry) := by
  intro other hother
  rw [eq_of_entry_write_cached_entry hother]
  exact h

/-! ## What is known of a call -/

/-- What is known of a call at a control point. What rests on the entries that the cache held in the
beginning is known if those can be trusted. -/
def Known (trusted : Prop) (env : Environment) (call : Call) (accepted : List (Text × Option Text))
    (history : History) (cacheFile : CacheFile) : Control → Prop
  | .start => history.rejected = none
  | .reading file =>
      history.rejected = none ∧ call.Valid ∧ (trusted → FileJustified accepted file)
  | .waiting _ => history.rejected = none ∧ call.Valid
  | .locked _ => history.rejected = none ∧ call.Valid
  | .readingLocked _ file =>
      history.rejected = none ∧ call.Valid ∧ (trusted → FileJustified accepted file)
  | .removing => True
  | .probing entry => Bounded env call entry.authToken entry.expiresAtMs
  | .validated entry => Bounded env call entry.authToken entry.expiresAtMs ∧
      Admitted env call accepted entry.authToken
  | .accepted entry _ => Bounded env call entry.authToken entry.expiresAtMs ∧
      (trusted → Admitted env call accepted entry.authToken ∧ Justified accepted entry)
  | .creating => history.rejected ≠ none → cacheFile = .absent
  | .created _ => True
  | .probingCreated _ _ => True
  | .acceptedCreated authToken _ => Admitted env call accepted authToken
  | .writing entry => Bounded env call entry.authToken entry.expiresAtMs ∧
      Counted history entry.expiresAtMs ∧
      (trusted → Admitted env call accepted entry.authToken ∧ Justified accepted entry)
  | .releasing outcome => ∀ entry, outcome = .returned entry →
      Bounded env call entry.authToken entry.expiresAtMs ∧ Counted history entry.expiresAtMs ∧
        (trusted → Admitted env call accepted entry.authToken)
  | .ended outcome => ∀ entry, outcome = .returned entry →
      Bounded env call entry.authToken entry.expiresAtMs ∧ Counted history entry.expiresAtMs ∧
        (trusted → Admitted env call accepted entry.authToken)

/-- More accepted probes admit more. -/
theorem Admitted.mono (h : Admitted env call accepted authToken) (hsubset : accepted ⊆ accepted') :
    Admitted env call accepted' authToken :=
  fun params hparams hvalidate ↦ hsubset (h params hparams hvalidate)

/-- More accepted probes justify more. -/
theorem Justified.mono (h : Justified accepted entry) (hsubset : accepted ⊆ accepted') :
    Justified accepted' entry :=
  fun fingerprint hfingerprint ↦ hsubset (h fingerprint hfingerprint)

/-- More accepted probes justify more files. -/
theorem FileJustified.mono {file : CacheFile} (h : FileJustified accepted file)
    (hsubset : accepted ⊆ accepted') : FileJustified accepted' file :=
  fun entry hentry ↦ (h entry hentry).mono hsubset

variable {trusted : Prop} {cacheFile cacheFile' : CacheFile} {control : Control} {nowMs : ℚ}

/-- What is known of a call stays known while others take steps. -/
theorem Known.frame (h : Known trusted env call accepted history cacheFile control)
    (hsubset : accepted ⊆ accepted')
    (hfile : control.holdsLock = true → cacheFile' = cacheFile) :
    Known trusted env call accepted' history cacheFile' control := by
  cases control with
  | start | waiting target | locked target | removing | created authToken
  | probingCreated authToken mintedAtMs | probing entry => exact h
  | reading file | readingLocked target file =>
      exact ⟨h.1, h.2.1, fun htrusted ↦ (h.2.2 htrusted).mono hsubset⟩
  | validated entry => exact ⟨h.1, h.2.mono hsubset⟩
  | accepted entry needsValidation =>
      exact ⟨h.1, fun htrusted ↦ ⟨(h.2 htrusted).1.mono hsubset, (h.2 htrusted).2.mono hsubset⟩⟩
  | creating => exact fun hrejected ↦ (hfile rfl).trans (h hrejected)
  | acceptedCreated authToken mintedAtMs => exact Admitted.mono h hsubset
  | writing entry =>
      exact ⟨h.1, h.2.1,
        fun htrusted ↦ ⟨(h.2.2 htrusted).1.mono hsubset, (h.2.2 htrusted).2.mono hsubset⟩⟩
  | releasing outcome | ended outcome =>
      intro entry hentry
      obtain ⟨hbounded, hcounted, hadmitted⟩ := h entry hentry
      exact ⟨hbounded, hcounted, fun htrusted ↦ (hadmitted htrusted).mono hsubset⟩

/-! ## Steps of a call -/

/-- A call starts with its parameters validated, or fails. -/
theorem known_start (hrejected : history.rejected = none)
    (hfile : trusted → FileJustified accepted cacheFile) :
    Known trusted env call accepted history cacheFile
      (startCall env cacheFile call).control := by
  have hvalidInvalidate : ∀ location, Call.Valid (.invalidate location) := by
    intro location params hparams
    simp at hparams
  have hvalidGetOrCreate : ∀ params, validateParams params = .ok () →
      Call.Valid (.getOrCreate params) := by
    intro params hvalid other hother
    obtain rfl : params = other := Call.getOrCreate.inj hother
    exact hvalid
  unfold startCall
  split
  · split
    · simp [Known]
    · exact ⟨hrejected, hvalidInvalidate _⟩
  · rename_i params
    split
    · simp [Known]
    · rename_i hvalid
      split
      · exact ⟨hrejected, hvalidGetOrCreate _ hvalid⟩
      · exact ⟨hrejected, hvalidGetOrCreate _ hvalid, hfile⟩

/-- What is known of an entry that a call has read: it is bounded, it counts beyond the reading of
the clock, and it is justified if the file is. -/
theorem known_of_read (history : History) {skew : ℚ} (hskew : call.skew = skew) {file : CacheFile}
    (hread : readCachedEntry env skew nowMs file = some entry) :
    Bounded env call entry.authToken entry.expiresAtMs ∧
      Counted { history with readings := history.readings ++ readingsOf file nowMs }
        entry.expiresAtMs := by
  obtain ⟨parsed, -, -, -, hnow, hreadings, hbounded⟩ := read_cached_entry_eq_some hread
  refine ⟨?_, nowMs, ?_, hnow⟩
  · rw [Bounded, hskew]
    exact hbounded
  · simp [hreadings]

/-- Outside of the lock, a call returns an entry that it has read and that needs no validation, or
goes on to the lock. -/
theorem known_reading {file : CacheFile}
    (h : Known trusted env (.getOrCreate params) accepted history cacheFile (.reading file)) :
    Known trusted env (.getOrCreate params) accepted
      { history with readings := history.readings ++ readingsOf file nowMs } cacheFile
      (checkCachedEntry env params (readCachedEntry env params.skew nowMs file)) := by
  obtain ⟨hrejected, hvalid, hfile⟩ := h
  unfold checkCachedEntry
  split
  · exact ⟨hrejected, hvalid⟩
  · split
    · rename_i entry hread
      split
      · exact ⟨hrejected, hvalid⟩
      · rename_i hneeds
        have hskew : (Call.getOrCreate params).skew = params.skew := rfl
        obtain ⟨hbounded, hcounted⟩ := known_of_read history hskew hread
        intro other hother
        obtain rfl : getPublicCacheEntry entry = other := Outcome.returned.inj hother
        refine ⟨hbounded, hcounted, fun htrusted ↦ ?_⟩
        exact admitted_of_justified (hvalid params rfl) (by simpa using hneeds)
          (justified_of_read (hfile htrusted) hread)
    · exact ⟨hrejected, hvalid⟩

/-- Inside of the lock, a call goes on with an entry that it has read. -/
theorem known_reading_locked {target : Option Text} {file : CacheFile}
    (h : Known trusted env (.getOrCreate params) accepted history cacheFile
      (.readingLocked target file)) :
    Known trusted env (.getOrCreate params) accepted
      { history with readings := history.readings ++ readingsOf file nowMs } cacheFile
      (checkLockedEntry env params target (readCachedEntry env params.skew nowMs file)) := by
  obtain ⟨hrejected, hvalid, hfile⟩ := h
  unfold checkLockedEntry
  split
  · trivial
  · split
    · rename_i entry hread
      have hskew : (Call.getOrCreate params).skew = params.skew := rfl
      obtain ⟨hbounded, -⟩ := known_of_read history hskew hread
      split
      · exact hbounded
      · rename_i hneeds
        refine ⟨hbounded, fun htrusted ↦ ?_⟩
        have hjustified := justified_of_read (hfile htrusted) hread
        exact ⟨admitted_of_justified (hvalid params rfl) (by simpa using hneeds) hjustified,
          hjustified⟩
    · exact fun hne ↦ absurd hrejected hne

/-- An accepted entry is returned or written if it still counts. -/
theorem known_accepted {needsValidation : Bool}
    (h : Known trusted env call accepted history cacheFile (.accepted entry needsValidation)) :
    Known trusted env call accepted { history with readings := history.readings ++ [nowMs] }
      cacheFile
      (if isAdminAuthTokenExpired entry nowMs then .removing
        else if needsValidation then .writing entry
        else .releasing (.returned (getPublicCacheEntry entry))) := by
  obtain ⟨hbounded, hadmitted⟩ := h
  split
  · trivial
  · rename_i hcounts
    have hcounted : Counted { history with readings := history.readings ++ [nowMs] }
        entry.expiresAtMs :=
      ⟨nowMs, by simp, by simpa [isAdminAuthTokenExpired] using hcounts⟩
    split
    · exact ⟨hbounded, hcounted, hadmitted⟩
    · intro other hother
      obtain rfl : getPublicCacheEntry entry = other := Outcome.returned.inj hother
      exact ⟨hbounded, hcounted, fun htrusted ↦ (hadmitted htrusted).1⟩

/-- An entry for a created token is bounded, counts beyond the reading of the clock, and has the
fingerprint of the call. -/
theorem created_entry_eq_some {mintedAtMs : ℚ}
    (h : createdEntry env nowMs params authToken mintedAtMs = some entry) :
    entry.authToken = authToken ∧ nowMs < entry.expiresAtMs ∧
      entry.validationPolicyFingerprint = getValidationPolicyFingerprint env params ∧
      Bounded env (.getOrCreate params) authToken entry.expiresAtMs := by
  simp only [createdEntry] at h
  by_cases hexpired : getAdminAuthTokenExpiration env authToken params.cacheDurationMs
      params.skew nowMs ≤ nowMs
  · simp [hexpired] at h
  · rw [if_neg hexpired] at h
    obtain rfl := Option.some.inj h
    exact ⟨rfl, not_le.mp hexpired, rfl, (expiration_le env authToken _ _ nowMs).2⟩

/-- A created token that has been accepted is written, or the call fails. -/
theorem known_accepted_created {mintedAtMs : ℚ}
    (h : Known trusted env (.getOrCreate params) accepted history cacheFile
      (.acceptedCreated authToken mintedAtMs))
    (hentry : createdEntry env nowMs params authToken mintedAtMs = some entry) :
    Known trusted env (.getOrCreate params) accepted
      { history with readings := history.readings ++ [nowMs] } cacheFile (.writing entry) := by
  obtain ⟨htoken, hnow, hfingerprint, hbounded⟩ := created_entry_eq_some hentry
  have hadmitted : Admitted env (.getOrCreate params) accepted entry.authToken := by
    rw [htoken]
    exact h
  refine ⟨?_, ⟨nowMs, by simp, hnow⟩, fun _ ↦ ⟨hadmitted, ?_⟩⟩
  · rw [htoken]
    exact hbounded
  · exact justified_of_admitted hadmitted hfingerprint

/-- A step of a call keeps what is known of it, and the cache file justified. -/
theorem Known.advance {advanced : Advanced}
    (h : Known trusted env call accepted history cacheFile control)
    (hfile : trusted → FileJustified accepted cacheFile)
    (hadvanced : advanceCall env nowMs cacheFile call control = some advanced) :
    Known trusted env call accepted
        { history with readings := history.readings ++ advanced.readings } advanced.cacheFile
        advanced.control ∧
      (trusted → FileJustified accepted advanced.cacheFile) := by
  -- no file holds no token
  have habsent : FileJustified accepted .absent := by
    intro entry hentry
    simp [CacheFile.entry] at hentry
  cases call with
  | invalidate location =>
      cases control with
      | start =>
          obtain rfl : startCall env cacheFile (.invalidate location) = advanced :=
            Option.some.inj hadvanced
          rw [(start_call_outside env cacheFile (.invalidate location)).2]
          exact ⟨known_start h hfile, hfile⟩
      | locked target =>
          obtain rfl := Option.some.inj hadvanced
          exact ⟨⟨h.1, h.2, hfile⟩, hfile⟩
      | readingLocked target file =>
          obtain rfl := Option.some.inj hadvanced
          exact ⟨trivial, hfile⟩
      | removing =>
          obtain rfl := Option.some.inj hadvanced
          exact ⟨by simp [Known], fun _ ↦ habsent⟩
      | _ => simp [advanceCall, advanceInvalidate] at hadvanced
  | getOrCreate params =>
      cases control with
      | start =>
          obtain rfl : startCall env cacheFile (.getOrCreate params) = advanced :=
            Option.some.inj hadvanced
          rw [(start_call_outside env cacheFile (.getOrCreate params)).2]
          exact ⟨known_start h hfile, hfile⟩
      | reading file =>
          obtain rfl := Option.some.inj hadvanced
          exact ⟨known_reading h, hfile⟩
      | locked target =>
          obtain rfl := Option.some.inj hadvanced
          exact ⟨⟨h.1, h.2, hfile⟩, hfile⟩
      | readingLocked target file =>
          obtain rfl := Option.some.inj hadvanced
          exact ⟨known_reading_locked h, hfile⟩
      | removing =>
          obtain rfl := Option.some.inj hadvanced
          exact ⟨fun _ ↦ rfl, fun _ ↦ habsent⟩
      | validated entry =>
          obtain rfl := Option.some.inj hadvanced
          obtain ⟨hbounded, hadmitted⟩ := h
          exact ⟨⟨hbounded, fun _ ↦ ⟨hadmitted, justified_of_admitted hadmitted rfl⟩⟩, hfile⟩
      | accepted entry needsValidation =>
          obtain rfl := Option.some.inj hadvanced
          exact ⟨known_accepted h, hfile⟩
      | created authToken =>
          rcases advance_created hadvanced with ⟨-, rfl⟩ | ⟨-, rfl⟩ | ⟨hvalidate, rfl⟩
          · exact ⟨by simp [Known], hfile⟩
          · exact ⟨trivial, hfile⟩
          · refine ⟨fun other hother hother' ↦ ?_, hfile⟩
            obtain rfl : params = other := Call.getOrCreate.inj hother
            simp [hvalidate] at hother'
      | acceptedCreated authToken mintedAtMs =>
          rw [advanceCall, advanceGetOrCreate] at hadvanced
          split at hadvanced
          · obtain rfl := Option.some.inj hadvanced
            exact ⟨by simp [Known], hfile⟩
          · rename_i storedEntry hentry
            obtain rfl := Option.some.inj hadvanced
            exact ⟨known_accepted_created h hentry, hfile⟩
      | writing entry =>
          obtain rfl := Option.some.inj hadvanced
          obtain ⟨hbounded, hcounted, hadmitted⟩ := h
          refine ⟨fun other hother ↦ ?_, fun htrusted ↦
            file_justified_write (hadmitted htrusted).2⟩
          obtain rfl : getPublicCacheEntry entry = other := Outcome.returned.inj hother
          obtain ⟨reading, hmem, hcounts⟩ := hcounted
          exact ⟨hbounded, ⟨reading, by simpa using hmem, hcounts⟩,
            fun htrusted ↦ (hadmitted htrusted).1⟩
      | _ => simp [advanceCall, advanceGetOrCreate] at hadvanced

/-! ## Runs -/

namespace State

variable {P : Type} [DecidableEq P] {calls : P → Call} {s s' : State P} {a : Action P}

/-- What is known of all calls and of the cache file. -/
structure Fresh (trusted : Prop) (env : Environment) (calls : P → Call) (s : State P) : Prop where
  exclusive : s.Exclusive
  file : trusted → FileJustified s.accepted s.cacheFile
  known : ∀ p, Known trusted env (calls p) s.accepted (s.history p) s.cacheFile (s.control p)

/-- What is known of the call that takes a step. -/
theorem Fresh.known_actor (h : Fresh trusted env calls s) (hstep : Step env calls s a s') {p : P}
    (hp : a.actor = some p) :
    Known trusted env (calls p) s'.accepted (s'.history p) s'.cacheFile (s'.control p) := by
  have hknown := h.known p
  cases hstep with
  | tick _ => simp [Action.actor] at hp
  | @acquire q target hcontrol hholder =>
      -- the party that takes the step is the one asked about
      obtain rfl : q = p := Option.some.inj hp
      rw [hcontrol] at hknown
      simp only [goto, Function.update_self]
      exact hknown
  | @advance q advanced hadvanced =>
      obtain rfl : q = p := Option.some.inj hp
      simpa [advanceTo] using (hknown.advance h.file hadvanced).1
  | @accept q entry hcontrol =>
      obtain rfl : q = p := Option.some.inj hp
      rw [hcontrol] at hknown
      simp only [answerTo, Function.update_self]
      refine ⟨hknown, fun params hparams _ ↦ ?_⟩
      simp [hparams, Call.policyFingerprint]
  | @reject q entry hcontrol =>
      obtain rfl : q = p := Option.some.inj hp
      simp [answerTo, Known]
  | @acceptCreated q authToken mintedAtMs hcontrol =>
      obtain rfl : q = p := Option.some.inj hp
      simp only [answerTo, Function.update_self]
      intro params hparams _
      simp [hparams, Call.policyFingerprint]
  | @rejectCreated q authToken mintedAtMs hcontrol =>
      obtain rfl : q = p := Option.some.inj hp
      simp [answerTo, Known]
  | @create q authToken hcontrol =>
      obtain rfl : q = p := Option.some.inj hp
      simp [goto, Known]
  | @release q outcome hcontrol =>
      obtain rfl : q = p := Option.some.inj hp
      rw [hcontrol] at hknown
      simp only [goto, Function.update_self]
      exact hknown
  | @failOutside q hcontrol =>
      obtain rfl : q = p := Option.some.inj hp
      simp [goto, Known]
  | @failInside q hcontrol =>
      obtain rfl : q = p := Option.some.inj hp
      simp [goto, Known]

/-- A step keeps the cache file justified. -/
theorem Fresh.file_step (h : Fresh trusted env calls s) (hstep : Step env calls s a s')
    (htrusted : trusted) : FileJustified s'.accepted s'.cacheFile := by
  have hfile := h.file htrusted
  cases hstep with
  | @advance p advanced hadvanced => exact ((h.known p).advance h.file hadvanced).2 htrusted
  | accept _ | reject _ | acceptCreated _ | rejectCreated _ =>
      exact hfile.mono (List.subset_append_left _ _)
  | _ => exact hfile

/-- A step keeps what is known. -/
theorem Fresh.step (h : Fresh trusted env calls s) (hstep : Step env calls s a s') :
    Fresh trusted env calls s' where
  exclusive := h.exclusive.step hstep
  file := h.file_step hstep
  known := by
    intro p
    by_cases hp : a.actor = some p
    · exact h.known_actor hstep hp
    · have hundisturbed := h.exclusive.undisturbed hstep hp
      rw [hundisturbed.control_eq, hundisturbed.history_eq]
      exact (h.known p).frame hundisturbed.accepted_subset hundisturbed.cacheFile_eq

omit [DecidableEq P] in
/-- What is known before the calls. -/
theorem Initial.fresh (h : s.Initial) (env : Environment) (calls : P → Call) :
    Fresh (FileJustified s.accepted s.cacheFile) env calls s where
  exclusive := by
    intro p
    simp [h.control_eq p, h.lockHolder_eq, Control.holdsLock]
  file := id
  known := by
    intro p
    simp [h.control_eq p, h.history_eq p, Known]

end State

end CoreUtils.Toolkit.AdminAuth
