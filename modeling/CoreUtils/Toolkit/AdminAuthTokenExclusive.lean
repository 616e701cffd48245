import CoreUtils.Toolkit.AdminAuthTokenCache

/-!
# Exclusive access to the admin token cache

The lock is held by exactly the calls that are inside of it (`Exclusive`), and calls outside of it
leave the cache file alone. What is known of a call and of the cache therefore only has to be
checked against the steps of that call, and against what other calls can change meanwhile
(`Undisturbed`).
-/

namespace CoreUtils.Toolkit.AdminAuth

variable {env : Environment} {nowMs : ℚ} {cacheFile : CacheFile}

/-! ## The lock -/

/-- The first step of a call stays outside of the lock. -/
theorem start_call_outside (env : Environment) (cacheFile : CacheFile) (call : Call) :
    (startCall env cacheFile call).control.holdsLock = false ∧
      (startCall env cacheFile call).cacheFile = cacheFile := by
  unfold startCall
  split
  · split <;> exact ⟨rfl, rfl⟩
  · split
    · exact ⟨rfl, rfl⟩
    · split <;> exact ⟨rfl, rfl⟩

/-- The check outside of the lock stays outside. -/
theorem check_cached_entry_outside (params : GetOrCreateParams) (cachedEntry : Option StoredEntry) :
    (checkCachedEntry env params cachedEntry).holdsLock = false := by
  unfold checkCachedEntry
  split
  · rfl
  · split
    · split <;> rfl
    · rfl

/-- The check inside of the lock stays inside. -/
theorem check_locked_entry_inside (params : GetOrCreateParams) (target : Option Text)
    (cachedEntry : Option StoredEntry) :
    (checkLockedEntry env params target cachedEntry).holdsLock = true := by
  unfold checkLockedEntry
  split
  · rfl
  · split
    · split <;> rfl
    · rfl

/-- A step of a call neither takes nor releases the lock, and writes the file only inside of it. -/
theorem advance_call_lock {call : Call} {control : Control} {advanced : Advanced}
    (h : advanceCall env nowMs cacheFile call control = some advanced) :
    advanced.control.holdsLock = control.holdsLock ∧
      (control.holdsLock = false → advanced.cacheFile = cacheFile) := by
  cases call with
  | invalidate location =>
      cases control with
      | start =>
          obtain rfl : startCall env cacheFile (.invalidate location) = advanced :=
            Option.some.inj h
          have hstart := start_call_outside env cacheFile (.invalidate location)
          exact ⟨hstart.1, fun _ ↦ hstart.2⟩
      | locked target | readingLocked target file | removing =>
          obtain rfl := Option.some.inj h
          exact ⟨rfl, by simp [Control.holdsLock]⟩
      | _ => simp [advanceCall, advanceInvalidate] at h
  | getOrCreate params =>
      cases control with
      | start =>
          obtain rfl : startCall env cacheFile (.getOrCreate params) = advanced :=
            Option.some.inj h
          have hstart := start_call_outside env cacheFile (.getOrCreate params)
          exact ⟨hstart.1, fun _ ↦ hstart.2⟩
      | reading file =>
          obtain rfl := Option.some.inj h
          exact ⟨check_cached_entry_outside _ _, fun _ ↦ rfl⟩
      | locked target | removing | validated cachedEntry | writing storedEntry =>
          obtain rfl := Option.some.inj h
          exact ⟨rfl, by simp [Control.holdsLock]⟩
      | readingLocked target file =>
          obtain rfl := Option.some.inj h
          -- whatever is found in the file, the lock is still held
          exact ⟨check_locked_entry_inside _ _ _, fun _ ↦ rfl⟩
      | accepted acceptedEntry needsValidation =>
          obtain rfl := Option.some.inj h
          refine ⟨?_, fun _ ↦ rfl⟩
          show (if isAdminAuthTokenExpired acceptedEntry nowMs then Control.removing
            else if needsValidation then _ else _).holdsLock = _
          split
          · rfl
          · split <;> rfl
      | created authToken =>
          rcases advance_created h with ⟨-, rfl⟩ | ⟨-, rfl⟩ | ⟨-, rfl⟩
          · exact ⟨rfl, fun _ ↦ rfl⟩
          · exact ⟨rfl, fun _ ↦ rfl⟩
          · exact ⟨rfl, fun _ ↦ rfl⟩
      | acceptedCreated authToken mintedAtMs =>
          rw [advanceCall, advanceGetOrCreate] at h
          split at h <;> (obtain rfl := Option.some.inj h; exact ⟨rfl, fun _ ↦ rfl⟩)
      | _ => simp [advanceCall, advanceGetOrCreate] at h

/-- The call that takes a step. -/
def Action.actor {P : Type} : Action P → Option P
  | .tick _ => none
  | .acquire p | .advance p | .probe p _ | .create p _ | .release p | .fail p => some p

namespace State

variable {P : Type} [DecidableEq P] {calls : P → Call} {s s' : State P} {a : Action P}

/-- The lock is held by the calls that are inside of it. -/
def Exclusive (s : State P) : Prop := ∀ p, (s.control p).holdsLock = true ↔ s.lockHolder = some p

/-- Moving a call without taking or releasing the lock keeps it exclusive. -/
theorem Exclusive.update (h : s.Exclusive) {p : P} {control : Control}
    (hcontrol : s'.control = Function.update s.control p control)
    (hlock : control.holdsLock = (s.control p).holdsLock)
    (hholder : s'.lockHolder = s.lockHolder) : s'.Exclusive := by
  intro q
  rw [hcontrol, hholder, ← h q]
  by_cases hq : q = p
  · rw [hq, Function.update_self, hlock]
  · rw [Function.update_of_ne hq]

/-- A step keeps the lock exclusive. -/
theorem Exclusive.step (h : s.Exclusive) (hstep : Step env calls s a s') : s'.Exclusive := by
  cases hstep with
  | tick _ => exact h
  | @acquire p target hcontrol hholder =>
      intro q
      by_cases hq : q = p
      · simp [goto, hq, Control.holdsLock]
      · have hother := h q
        rw [hholder] at hother
        simp only [goto, Function.update_of_ne hq, Option.some.injEq]
        constructor
        · intro hlock
          simp [hother] at hlock
        · intro hsame
          exact absurd hsame.symm hq
  | @advance p advanced hadvanced => exact h.update rfl (advance_call_lock hadvanced).1 rfl
  | accept hcontrol => exact h.update rfl (by rw [hcontrol]; rfl) rfl
  | reject hcontrol => exact h.update rfl (by rw [hcontrol]; rfl) rfl
  | acceptCreated hcontrol => exact h.update rfl (by rw [hcontrol]; rfl) rfl
  | rejectCreated hcontrol => exact h.update rfl (by rw [hcontrol]; rfl) rfl
  | create hcontrol => exact h.update rfl (by rw [hcontrol]; rfl) rfl
  | @release p outcome hcontrol =>
      have hholds : s.lockHolder = some p := (h p).mp (by rw [hcontrol]; rfl)
      intro q
      by_cases hq : q = p
      · simp [goto, hq, Control.holdsLock]
      · have hother := h q
        rw [hholds, Option.some.injEq] at hother
        simp only [goto, Function.update_of_ne hq, reduceCtorEq, iff_false]
        exact fun hlock ↦ hq (hother.mp hlock).symm
  | failOutside hcontrol => exact h.update rfl (by rw [hcontrol]; rfl) rfl
  | failInside hcontrol => exact h.update rfl (by rw [hcontrol]; rfl) rfl

omit [DecidableEq P] in
/-- At most one call is inside of the lock. -/
theorem Exclusive.unique (h : s.Exclusive) {p q : P} (hp : (s.control p).holdsLock = true)
    (hq : (s.control q).holdsLock = true) : p = q := by
  have hholder := (h p).mp hp
  rw [(h q).mp hq] at hholder
  exact (Option.some.inj hholder).symm

/-- What a call can count on while others take steps: it stays where it is, and while it is inside
of the lock the cache file stays and no token is created. -/
structure Undisturbed (s s' : State P) (q : P) : Prop where
  control_eq : s'.control q = s.control q
  history_eq : s'.history q = s.history q
  accepted_subset : s.accepted ⊆ s'.accepted
  cacheFile_eq : (s.control q).holdsLock = true → s'.cacheFile = s.cacheFile
  created_eq : (s.control q).holdsLock = true → s'.created = s.created

/-- The steps of others leave a call undisturbed. -/
theorem Exclusive.undisturbed (h : s.Exclusive) (hstep : Step env calls s a s') {q : P}
    (hq : a.actor ≠ some q) : Undisturbed s s' q := by
  have hne : ∀ p, a.actor = some p → q ≠ p := fun p hp hsame ↦ hq (hsame ▸ hp)
  cases hstep with
  | tick _ => exact ⟨rfl, rfl, List.Subset.refl _, fun _ ↦ rfl, fun _ ↦ rfl⟩
  | @acquire p target hcontrol hholder =>
      exact ⟨Function.update_of_ne (hne p rfl) _ _, rfl, List.Subset.refl _, fun _ ↦ rfl,
        fun _ ↦ rfl⟩
  | @advance p advanced hadvanced =>
      have hp := hne p rfl
      refine ⟨Function.update_of_ne hp _ _, Function.update_of_ne hp _ _, List.Subset.refl _, ?_,
        fun _ ↦ rfl⟩
      intro hinside
      -- only a holder of the lock touches the file, and there is one holder
      refine (advance_call_lock hadvanced).2 ?_
      by_contra hother
      exact hp (h.unique hinside (by simpa using hother))
  | @accept p entry hcontrol =>
      exact ⟨Function.update_of_ne (hne p rfl) _ _, Function.update_of_ne (hne p rfl) _ _,
        List.subset_append_left _ _, fun _ ↦ rfl, fun _ ↦ rfl⟩
  | @reject p entry hcontrol =>
      exact ⟨Function.update_of_ne (hne p rfl) _ _, Function.update_of_ne (hne p rfl) _ _,
        List.subset_append_left _ _, fun _ ↦ rfl, fun _ ↦ rfl⟩
  | @acceptCreated p authToken mintedAtMs hcontrol =>
      exact ⟨Function.update_of_ne (hne p rfl) _ _, Function.update_of_ne (hne p rfl) _ _,
        List.subset_append_left _ _, fun _ ↦ rfl, fun _ ↦ rfl⟩
  | @rejectCreated p authToken mintedAtMs hcontrol =>
      exact ⟨Function.update_of_ne (hne p rfl) _ _, Function.update_of_ne (hne p rfl) _ _,
        List.subset_append_left _ _, fun _ ↦ rfl, fun _ ↦ rfl⟩
  | @create p authToken hcontrol =>
      have hp := hne p rfl
      refine ⟨Function.update_of_ne hp _ _, rfl, List.Subset.refl _, fun _ ↦ rfl, ?_⟩
      intro hinside
      exact absurd (h.unique hinside (by rw [hcontrol]; rfl)) hp
  | @release p outcome hcontrol =>
      exact ⟨Function.update_of_ne (hne p rfl) _ _, rfl, List.Subset.refl _, fun _ ↦ rfl,
        fun _ ↦ rfl⟩
  | @failOutside p hcontrol =>
      exact ⟨Function.update_of_ne (hne p rfl) _ _, rfl, List.Subset.refl _, fun _ ↦ rfl,
        fun _ ↦ rfl⟩
  | @failInside p hcontrol =>
      exact ⟨Function.update_of_ne (hne p rfl) _ _, rfl, List.Subset.refl _, fun _ ↦ rfl,
        fun _ ↦ rfl⟩

end State

end CoreUtils.Toolkit.AdminAuth
