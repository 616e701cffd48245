import CoreUtils.Toolkit.RetryPoll

/-!
# What an iteration of the retry loop can do

In either mode the loop goes on only after an attempt whose failure is not terminal (`RetriedAt`),
and it succeeds only with the value of its last attempt (`runFor_steps`). In classified mode it is
over after the allowed attempts, whatever the environment does (`runFor_classified_lt`).
-/

namespace CoreUtils.Toolkit.Retry

variable {T E α τ : Type*} [Ring τ] [LinearOrder τ] [FloorRing τ] {env : Environment T E τ}
  {mode : ValidMode E τ} {s : LoopState E τ}

/-! ## After a failure -/

/-- What the `catch` block can lead to: the loop goes on with the same attempt number if the failure
is not terminal, and it never succeeds. -/
def AfterFailure (mode : ValidMode E τ) (attemptNumber : ℕ) (failure : Failure E) :
    Progress T E τ → Prop
  | .continues s => s.attemptNumber = attemptNumber ∧
      ∃ elapsedMs, getTerminalReason mode ⟨attemptNumber, elapsedMs, failure⟩ = none
  | .ended _ ending => ∀ value attempts, ending ≠ .success value attempts

omit [FloorRing τ] in
/-- Giving up is no success. -/
theorem giveUp_after (failure : Failure E) (attemptNumber : ℕ) (elapsedMs : τ)
    (reason : RetryFailureReason) (cause : Option (Failure E)) :
    AfterFailure mode attemptNumber failure (giveUp env s elapsedMs reason cause) := by
  intro value attempts hsuccess
  rcases throwRetryError_cases env s.attemptNumber elapsedMs reason cause with
    ⟨error, hending, -⟩ | ⟨thrown, -, hending⟩
  · exact absurd (hending.symm.trans hsuccess) nofun
  · exact absurd (hending.symm.trans hsuccess) nofun

omit [FloorRing τ] in
/-- Nor is a rejection of the hook or the sleep. -/
theorem endAfterRejection_after (attemptNumber : ℕ) (error failure : Failure E) :
    AfterFailure mode attemptNumber error (endAfterRejection env s error failure) := by
  unfold endAfterRejection
  split
  · exact fun _ _ ↦ nofun
  · exact getElapsedMs_induction (fun _ _ _ _ ↦ nofun) (giveUp_after _ _ _ _ _)

/-- The sleep after a failure that is not terminal. -/
theorem sleepThenContinue_after {context : RetryFailureContext E τ}
    (hreason : getTerminalReason mode context = none)
    (hattempt : s.attemptNumber = context.attemptNumber) :
    AfterFailure mode context.attemptNumber context.error
      (sleepThenContinue env mode s context) := by
  unfold sleepThenContinue
  split
  · exact fun _ _ ↦ nofun
  · split
    · exact ⟨hattempt, context.elapsedMs, hreason⟩
    · exact endAfterRejection_after _ _ _

/-- The decision about a failure. -/
theorem decideRetry_after (failure : Failure E) :
    AfterFailure mode s.attemptNumber failure (decideRetry env mode s failure) := by
  unfold decideRetry
  refine getElapsedMs_induction (fun _ _ _ _ ↦ nofun) ?_
  simp only
  split
  · exact giveUp_after _ _ _ _ _
  · rename_i hreason
    exact sleepThenContinue_after hreason rfl

/-- The hook and the decision. -/
theorem handleFailure_after (failure : Failure E) :
    AfterFailure mode s.attemptNumber failure (handleFailure env mode s failure) := by
  unfold handleFailure
  refine getElapsedMs_induction (fun _ _ _ _ ↦ nofun) ?_
  simp only
  split
  · exact decideRetry_after failure
  · exact endAfterRejection_after _ _ _

/-! ## Iterations and runs -/

/-- An attempt fails, and its failure is not terminal. -/
def RetriedAt (env : Environment T E τ) (mode : ValidMode E τ) (attemptNumber : ℕ) : Prop :=
  ∃ (elapsedMs : τ) (context : RetryFailureContext E τ),
    context.attemptNumber = attemptNumber ∧
    runWithinRetryBudget mode elapsedMs (env.operation attemptNumber) = .error context.error ∧
    getTerminalReason mode context = none

/-- What a number of attempts can lead to: all of them have been retried, or the run is over. When
it has succeeded, all but the last have been retried and the last gave the value. -/
def AfterAttempts (env : Environment T E τ) (mode : ValidMode E τ) (iterations : ℕ) :
    Progress T E τ → Prop
  | .continues s => s.attemptNumber = iterations ∧
      ∀ n, 1 ≤ n → n ≤ iterations → RetriedAt env mode n
  | .ended _ ending => ∀ value attempts, ending = .success value attempts →
      1 ≤ attempts ∧ (env.operation attempts).result = .ok value ∧
        ∀ n, 1 ≤ n → n < attempts → RetriedAt env mode n

/-- A promise that wins its race has settled with that value. -/
theorem result_of_runWithinRetryBudget {elapsedMs : τ} {promise : Pending α E τ} {value : α}
    (h : runWithinRetryBudget mode elapsedMs promise = .ok value) : promise.result = .ok value := by
  cases mode with
  | classified mode =>
      cases hresult : promise.result with
      | ok value' => simpa [runWithinRetryBudget, hresult, Except.mapError] using h
      | error error => simp [runWithinRetryBudget, hresult, Except.mapError] at h
  | poll mode =>
      have hspec := runWithinRetryBudget_spec mode elapsedMs promise
      rw [h] at hspec
      exact hspec

/-- A promise that is caught has rejected with that value. -/
theorem result_of_thrown {elapsedMs : τ} {promise : Pending α E τ} {thrown : Thrown E}
    (h : runWithinRetryBudget mode elapsedMs promise = .error (.thrown thrown)) :
    promise.result = .error thrown := by
  cases mode with
  | classified mode =>
      cases hresult : promise.result with
      | ok value => simp [runWithinRetryBudget, hresult, Except.mapError] at h
      | error error => simpa [runWithinRetryBudget, hresult, Except.mapError] using h
  | poll mode =>
      have hspec := runWithinRetryBudget_spec mode elapsedMs promise
      rw [h] at hspec
      exact hspec

/-- One more attempt. -/
theorem iterate_steps {iterations : ℕ} (h : AfterAttempts env mode iterations (.continues s)) :
    AfterAttempts env mode (iterations + 1) (iterate env mode s) := by
  obtain ⟨rfl, hretried⟩ := h
  unfold iterate
  refine getElapsedMs_induction (fun _ _ _ _ ↦ nofun) ?_
  simp only
  split
  · intro value attempts hsuccess
    have hother : AfterFailure mode 0 .budgetExceeded
        (giveUp env s.read (env.elapsedMs s.readings) .timeout s.read.lastError) :=
      giveUp_after _ _ _ _ _
    exact absurd hsuccess (hother value attempts)
  · split
    · rename_i value hbudget
      intro value' attempts hsuccess
      obtain ⟨rfl, rfl⟩ := Ending.success.inj hsuccess
      exact ⟨Nat.succ_pos _, result_of_runWithinRetryBudget hbudget,
        fun n hfirst hlt ↦ hretried n hfirst (Nat.lt_succ_iff.mp hlt)⟩
    · rename_i failure hbudget
      have hafter : AfterFailure mode (s.attemptNumber + 1) failure
          (handleFailure env mode ⟨s.attemptNumber + 1, s.lastError, s.readings + 1,
            s.trace ++ [.attempt (s.attemptNumber + 1) (env.elapsedMs s.readings)]⟩ failure) :=
        handleFailure_after failure
      simp only [LoopState.read] at hbudget ⊢
      generalize handleFailure env mode _ failure = progress at hafter
      cases progress with
      | continues s' =>
          obtain ⟨hattempt, elapsedMs, hreason⟩ := hafter
          refine ⟨hattempt, fun n hfirst hn ↦ ?_⟩
          rcases Nat.lt_or_eq_of_le hn with hlt | rfl
          · exact hretried n hfirst (Nat.lt_succ_iff.mp hlt)
          · exact ⟨_, ⟨_, elapsedMs, failure⟩, rfl, hbudget, hreason⟩
      | ended s' ending =>
          exact fun value attempts hsuccess ↦ absurd hsuccess (hafter value attempts)

/-- Any number of iterations. -/
theorem runFor_steps (env : Environment T E τ) (mode : ValidMode E τ) (iterations : ℕ) :
    AfterAttempts env mode iterations (runFor env mode iterations) := by
  induction iterations with
  | zero =>
      rw [runFor]
      split
      · intro value attempts hsuccess
        cases hsuccess
      · exact ⟨rfl, fun n hfirst hn ↦ by omega⟩
  | succ iterations ih =>
      rw [runFor]
      cases hrun : runFor env mode iterations with
      | continues s =>
          rw [hrun] at ih
          exact iterate_steps ih
      | ended s ending =>
          rw [hrun] at ih
          exact ih

omit [FloorRing τ] in
/-- The end after a rejection belongs to the same attempt. -/
theorem endAfterRejection_attemptNumber (error failure : Failure E) :
    (endAfterRejection env s error failure).state.attemptNumber = s.attemptNumber := by
  unfold endAfterRejection
  split
  · rfl
  · exact getElapsedMs_induction (P := fun progress ↦ progress.state.attemptNumber =
      s.attemptNumber) (fun _ _ ↦ rfl) rfl

/-- What follows a failure belongs to the same attempt. -/
theorem handleFailure_attemptNumber (failure : Failure E) :
    (handleFailure env mode s failure).state.attemptNumber = s.attemptNumber := by
  unfold handleFailure
  refine getElapsedMs_induction (P := fun progress ↦ progress.state.attemptNumber =
    s.attemptNumber) (fun _ _ ↦ rfl) ?_
  simp only
  split
  · unfold decideRetry
    refine getElapsedMs_induction (P := fun progress ↦ progress.state.attemptNumber =
      s.attemptNumber) (fun _ _ ↦ rfl) ?_
    simp only
    split
    · rfl
    · unfold sleepThenContinue
      split
      · rfl
      · split
        · rfl
        · exact endAfterRejection_attemptNumber ..
  · exact endAfterRejection_attemptNumber ..

/-- An iteration starts at most one attempt. -/
theorem iterate_attemptNumber_le :
    (iterate env mode s).state.attemptNumber ≤ s.attemptNumber + 1 := by
  unfold iterate
  refine getElapsedMs_induction (P := fun progress ↦ progress.state.attemptNumber ≤
    s.attemptNumber + 1) (fun _ _ ↦ Nat.le_succ _) ?_
  simp only
  split
  · exact Nat.le_succ _
  · split
    · exact le_rfl
    · exact (handleFailure_attemptNumber _).le

/-- All attempts of a run but the last have been retried. -/
theorem retriedAt_of_lt (env : Environment T E τ) (mode : ValidMode E τ) (iterations : ℕ) {n : ℕ}
    (hfirst : 1 ≤ n) (hlt : n < (runFor env mode iterations).state.attemptNumber) :
    RetriedAt env mode n := by
  induction iterations with
  | zero =>
      rw [runFor] at hlt
      split at hlt
      · exact absurd hlt (Nat.not_lt_zero n)
      · exact absurd hlt (Nat.not_lt_zero n)
  | succ iterations ih =>
      have hsteps := runFor_steps env mode iterations
      rw [runFor] at hlt
      cases hrun : runFor env mode iterations with
      | continues s =>
          rw [hrun] at hsteps hlt
          obtain ⟨hattempt, hretried⟩ := hsteps
          have hle : (iterate env mode s).state.attemptNumber ≤ s.attemptNumber + 1 :=
            iterate_attemptNumber_le
          have hbelow : n < (iterate env mode s).state.attemptNumber := hlt
          exact hretried n hfirst (by omega)
      | ended s ending =>
          rw [hrun] at ih hlt
          exact ih hlt

/-- In classified mode fewer attempts are retried than are allowed. -/
theorem RetriedAt.lt {mode : ValidClassified E τ} {attemptNumber : ℕ}
    (h : RetriedAt env (.classified mode) attemptNumber) : attemptNumber < mode.maxAttempts := by
  obtain ⟨elapsedMs, context, rfl, -, hreason⟩ := h
  unfold getTerminalReason at hreason
  simp only at hreason
  split at hreason
  · contradiction
  · split at hreason
    · contradiction
    · omega

/-- A run of classified mode that goes on has made fewer attempts than are allowed. -/
theorem runFor_classified_lt {mode : ValidClassified E τ} {iterations : ℕ}
    (h : runFor env (.classified mode) iterations = .continues s) :
    iterations < mode.maxAttempts := by
  have hsteps := runFor_steps env (.classified mode) iterations
  rw [h] at hsteps
  cases iterations with
  | zero => exact mode.maxAttempts_pos
  | succ iterations => exact (hsteps.2 (iterations + 1) (Nat.succ_pos _) le_rfl).lt

/-- In poll mode an attempt that is retried has failed by itself, not with a marker, and its failure
is transient. -/
theorem RetriedAt.transient {mode : ValidPoll E τ} {attemptNumber : ℕ}
    (h : RetriedAt env (.poll mode) attemptNumber) :
    ∃ (error : E) (context : RetryFailureContext E τ),
      (env.operation attemptNumber).result = .error (.value error) ∧
      context.error = .thrown (.value error) ∧
      (mode.isTransient.map fun isTransient ↦ isTransient context) ≠ some false := by
  obtain ⟨elapsedMs, context, rfl, hbudget, hreason⟩ := h
  unfold getTerminalReason at hreason
  simp only at hreason
  split at hreason
  · contradiction
  · rename_i hvalue
    split at hreason
    · contradiction
    · rename_i hnotFatal
      cases herror : context.error with
      | budgetExceeded => simp [herror, Failure.isPollAttemptTimeoutError] at hvalue
      | thrown thrown =>
          rw [herror] at hbudget
          have hresult := result_of_thrown hbudget
          cases thrown with
          | value error => exact ⟨error, context, hresult, herror, hnotFatal⟩
          | pollAttemptTimeoutError run =>
              simp [herror, Failure.isPollAttemptTimeoutError] at hvalue

/-! ## What a run throws -/

/-- Where the value comes from that a run throws: a reading of its clock, a hook or a sleep that it
has called, or the message of the error that it gives up with. -/
inductive ThrownBy (env : Environment T E τ) (s : LoopState E τ) (thrown : Thrown E) : Prop where
  | clock {reading : ℕ} (hread : reading < s.readings)
      (hthrown : env.clockError reading = some thrown)
  | hook {context : RetryFailureContext E τ} (hreport : .report context ∈ s.trace)
      (hthrown : (env.onFailedAttempt context.attemptNumber).result = .error thrown)
  | sleep {attemptNumber : ℕ} {durationMs : τ} {readings : ℕ} {completed : Bool}
      (hsleep : .sleep attemptNumber durationMs readings completed ∈ s.trace)
      (hthrown : (env.sleep attemptNumber).result = .error thrown)
  | message {cause : Option (Failure E)} (hgiveUp : .giveUp cause ∈ s.trace)
      (hthrown : env.getErrorMessage cause = .error thrown)

/-- A run that throws has thrown a value that one of its steps did. -/
def ThrowsOn (env : Environment T E τ) : Progress T E τ → Prop
  | .ended s (.threw thrown) => ThrownBy env s thrown
  | _ => True

omit [FloorRing τ] in
/-- Reading the clock. -/
theorem getElapsedMs_throwsOn {next : LoopState E τ → τ → Progress T E τ}
    (h : ThrowsOn env (next s.read (env.elapsedMs s.readings))) :
    ThrowsOn env (getElapsedMs env s next) :=
  getElapsedMs_induction (fun _ herror ↦ .clock (Nat.lt_succ_self _) herror) h

omit [FloorRing τ] [Ring τ] in
/-- Giving up. -/
theorem giveUp_throwsOn (elapsedMs : τ) (reason : RetryFailureReason)
    (cause : Option (Failure E)) : ThrowsOn env (giveUp env s elapsedMs reason cause) := by
  unfold giveUp
  rcases throwRetryError_cases env s.attemptNumber elapsedMs reason cause with
    ⟨error, hending, -⟩ | ⟨thrown, hthrown, hending⟩
  · rw [hending]
    trivial
  · rw [hending]
    exact .message (List.mem_append_right _ (List.mem_singleton_self _)) hthrown

omit [FloorRing τ] in
/-- A rejection of the hook or the sleep. -/
theorem endAfterRejection_throwsOn (error : Failure E) {failure : Failure E}
    (h : ∀ rejection, failure = .thrown rejection → ThrownBy env s rejection) :
    ThrowsOn env (endAfterRejection env s error failure) := by
  unfold endAfterRejection
  split
  · exact h _ rfl
  · exact getElapsedMs_throwsOn (giveUp_throwsOn ..)

/-- The sleep after a failure. -/
theorem sleepThenContinue_throwsOn (context : RetryFailureContext E τ) :
    ThrowsOn env (sleepThenContinue env mode s context) := by
  unfold sleepThenContinue
  split
  · trivial
  · split
    · trivial
    · rename_i failure hbudget
      refine endAfterRejection_throwsOn _ fun rejection hrejection ↦ ?_
      rw [hrejection] at hbudget
      exact .sleep (List.mem_append_right _ (List.mem_singleton_self _))
        (result_of_thrown hbudget)

/-- The decision about a failure. -/
theorem decideRetry_throwsOn (failure : Failure E) :
    ThrowsOn env (decideRetry env mode s failure) := by
  unfold decideRetry
  refine getElapsedMs_throwsOn ?_
  simp only
  split
  · exact giveUp_throwsOn ..
  · exact sleepThenContinue_throwsOn _

/-- The hook and the decision. -/
theorem handleFailure_throwsOn (failure : Failure E) :
    ThrowsOn env (handleFailure env mode s failure) := by
  unfold handleFailure
  refine getElapsedMs_throwsOn ?_
  simp only
  split
  · exact decideRetry_throwsOn failure
  · rename_i hookError hbudget
    refine endAfterRejection_throwsOn _ fun rejection hrejection ↦ ?_
    rw [hrejection] at hbudget
    exact .hook (List.mem_append_right _ (List.mem_singleton_self _)) (result_of_thrown hbudget)

/-- One iteration. -/
theorem iterate_throwsOn : ThrowsOn env (iterate env mode s) := by
  unfold iterate
  refine getElapsedMs_throwsOn ?_
  simp only
  split
  · exact giveUp_throwsOn ..
  · split
    · trivial
    · exact handleFailure_throwsOn _

/-- Any number of iterations. -/
theorem runFor_throwsOn (env : Environment T E τ) (mode : ValidMode E τ) (iterations : ℕ) :
    ThrowsOn env (runFor env mode iterations) := by
  induction iterations with
  | zero =>
      rw [runFor]
      split
      · rename_i error herror
        exact .clock Nat.zero_lt_one herror
      · trivial
  | succ iterations ih =>
      rw [runFor]
      cases hrun : runFor env mode iterations with
      | continues s => exact iterate_throwsOn
      | ended s ending =>
          rw [hrun] at ih
          exact ih

/-! ## Validated policies -/

omit [FloorRing τ] in
/-- A policy of classified mode that passes is what was passed in. -/
theorem validateRetryMode_classified [IsStrictOrderedRing τ] {raw : ClassifiedRetryMode E τ}
    (h : validateRetryMode (.classified raw) = .ok mode) :
    ∃ valid : ValidClassified E τ, mode = .classified valid ∧
      raw.maxAttempts = some (valid.maxAttempts : ℤ) ∧ valid.isTransient = raw.isTransient := by
  have hmap : (validateClassified raw).map ValidMode.classified = .ok mode := h
  unfold validateClassified at hmap
  cases hraw : raw.maxAttempts with
  | none => simp [hraw, Except.map] at hmap
  | some maxAttempts =>
      by_cases hmax : maxAttempts < 1
      · simp [hraw, hmax, Except.map] at hmap
      · by_cases hdelay : raw.delayMs.valid = true
        · simp only [hraw, hmax, hdelay, Except.map, dite_true, dite_false] at hmap
          refine ⟨_, (Except.ok.inj hmap).symm, ?_, rfl⟩
          rw [Int.toNat_of_nonneg (by omega)]
        · simp [hraw, hmax, hdelay, Except.map] at hmap

omit [FloorRing τ] in
/-- So it is with the predicate of poll mode. -/
theorem validateRetryMode_poll [IsStrictOrderedRing τ] {raw : PollRetryMode E τ}
    (h : validateRetryMode (.poll raw) = .ok mode) :
    ∃ valid : ValidPoll E τ, mode = .poll valid ∧ valid.isTransient = raw.isTransient := by
  have hmap : (validatePoll raw).map ValidMode.poll = .ok mode := h
  unfold validatePoll at hmap
  split at hmap
  · contradiction
  · split at hmap
    · split at hmap
      · exact ⟨_, (Except.ok.inj hmap).symm, rfl⟩
      · split at hmap
        · contradiction
        · split at hmap
          · exact ⟨_, (Except.ok.inj hmap).symm, rfl⟩
          · contradiction
    · contradiction

end CoreUtils.Toolkit.Retry
