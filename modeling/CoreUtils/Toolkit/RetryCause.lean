import CoreUtils.Toolkit.RetryPoll

/-!
# The cause of a terminal error

What the attempts of a run came to can be read off its trace: an attempt has rejected, or the timer
of the poll budget has cut it off. As long as no attempt is cut off, the last rejection is what the
loop remembers (`Retains`), and it is the cause of every `RetryError`. An attempt that is cut off
ends the run, and its marker takes the place of that rejection; and a rejection may be the marker of
another run itself (`retry_error_cause_iff`).
-/

namespace CoreUtils.Toolkit.Retry

variable {T E τ : Type*} [Ring τ] [LinearOrder τ] [FloorRing τ]

/-! ## What attempts come to -/

/-- The value that the operation of an attempt has rejected with, if it has. -/
def Event.rejection (env : Environment T E τ) (mode : ValidMode E τ) : Event E τ → Option (Thrown E)
  | .attempt attemptNumber elapsedMs =>
      match runWithinRetryBudget mode elapsedMs (env.operation attemptNumber) with
      | .error (.thrown error) => some error
      | _ => none
  | _ => none

/-- Whether the timer of the poll budget has cut an attempt off. -/
def Event.isCutOff (env : Environment T E τ) (mode : ValidMode E τ) : Event E τ → Bool
  | .attempt attemptNumber elapsedMs =>
      match runWithinRetryBudget mode elapsedMs (env.operation attemptNumber) with
      | .error .budgetExceeded => true
      | _ => false
  | _ => false

/-- The rejections of the operation, in the order of the attempts. -/
def rejections (env : Environment T E τ) (mode : ValidMode E τ) (trace : List (Event E τ)) :
    List (Thrown E) :=
  trace.filterMap (Event.rejection env mode)

/-- No attempt has been cut off. -/
def NoneCutOff (env : Environment T E τ) (mode : ValidMode E τ) (trace : List (Event E τ)) : Prop :=
  ∀ event ∈ trace, event.isCutOff env mode = false

/-- Whether no attempt has been cut off can be computed. -/
instance (env : Environment T E τ) (mode : ValidMode E τ) (trace : List (Event E τ)) :
    Decidable (NoneCutOff env mode trace) :=
  inferInstanceAs (Decidable (∀ event ∈ trace, event.isCutOff env mode = false))

variable {env : Environment T E τ} {mode : ValidMode E τ} {s s' : LoopState E τ}
  {trace trace' : List (Event E τ)}

/-- A trace with the same attempts: it goes on with events that are none. -/
structure SameAttempts (env : Environment T E τ) (mode : ValidMode E τ)
    (trace trace' : List (Event E τ)) : Prop where
  rejections_eq : rejections env mode trace' = rejections env mode trace
  noneCutOff_iff : NoneCutOff env mode trace' ↔ NoneCutOff env mode trace

/-- A trace has its own attempts. -/
theorem SameAttempts.refl (trace : List (Event E τ)) : SameAttempts env mode trace trace :=
  ⟨rfl, Iff.rfl⟩

/-- The attempts of a trace stay the same from one trace to the next. -/
theorem SameAttempts.trans {trace'' : List (Event E τ)} (h : SameAttempts env mode trace trace')
    (h' : SameAttempts env mode trace' trace'') : SameAttempts env mode trace trace'' :=
  ⟨h'.rejections_eq.trans h.rejections_eq, h'.noneCutOff_iff.trans h.noneCutOff_iff⟩

/-- Verdicts and sleeps are no attempts. -/
theorem SameAttempts.append {events : List (Event E τ)}
    (h : ∀ event ∈ events, event.rejection env mode = none ∧ event.isCutOff env mode = false) :
    SameAttempts env mode trace (trace ++ events) where
  rejections_eq := by
    have hnone : events.filterMap (Event.rejection env mode) = [] :=
      List.filterMap_eq_nil_iff.mpr fun event hevent ↦ (h event hevent).1
    rw [rejections, List.filterMap_append, hnone, List.append_nil, rejections]
  noneCutOff_iff := by
    constructor
    · exact fun hnone event hevent ↦ hnone event (List.mem_append_left _ hevent)
    · intro hnone event hevent
      rcases List.mem_append.mp hevent with hold | hnew
      · exact hnone event hold
      · exact (h event hnew).2

/-! ## The end of a failed attempt -/

/-- What follows the failure of an attempt: the loop goes on if the attempt was not cut off, and a
`RetryError` has the failure as its cause. -/
def Follows (env : Environment T E τ) (mode : ValidMode E τ) (s : LoopState E τ)
    (failure : Failure E) : Progress T E τ → Prop
  | .continues s' => SameAttempts env mode s.trace s'.trace ∧ s'.lastError = s.lastError ∧
      failure ≠ .budgetExceeded
  | .ended s' (.failed error) =>
      SameAttempts env mode s.trace s'.trace ∧ error.cause = some failure
  | .ended _ _ => True

/-- Only the attempts and the remembered failure of the state before matter. -/
theorem Follows.of_state {failure : Failure E} {progress : Progress T E τ}
    (h : Follows env mode s failure progress) (htrace : SameAttempts env mode s'.trace s.trace)
    (herror : s.lastError = s'.lastError) : Follows env mode s' failure progress := by
  cases progress with
  | continues next => exact ⟨htrace.trans h.1, h.2.1.trans herror, h.2.2⟩
  | ended last ending =>
      cases ending with
      | failed error => exact ⟨htrace.trans h.1, h.2⟩
      | success | threw | invalidDelay => trivial

/-- An event that is no attempt leaves the attempts as they are. -/
theorem SameAttempts.log {event : Event E τ} (hrejection : event.rejection env mode = none)
    (hcutOff : event.isCutOff env mode = false) :
    SameAttempts env mode s.trace (s.log [event]).trace := by
  refine .append fun other hother ↦ ?_
  rw [List.mem_singleton.mp hother]
  exact ⟨hrejection, hcutOff⟩

/-- Giving up has the failure as its cause. -/
theorem giveUp_follows (failure : Failure E) (elapsedMs : τ) (reason : RetryFailureReason) :
    Follows env mode s failure (giveUp env s elapsedMs reason (some failure)) := by
  unfold giveUp
  rcases throwRetryError_cases env s.attemptNumber elapsedMs reason (some failure) with
    ⟨error, hending, -, -, -, hcause⟩ | ⟨thrown, -, hending⟩
  · rw [hending]
    exact ⟨.log rfl rfl, hcause⟩
  · rw [hending]
    trivial

/-- So has the end after a rejection of the hook or the sleep. -/
theorem endAfterRejection_follows (error failure : Failure E) :
    Follows env mode s error (endAfterRejection env s error failure) := by
  unfold endAfterRejection
  split
  · trivial
  · exact getElapsedMs_induction (fun _ _ ↦ trivial) ((giveUp_follows ..).of_state (.refl _) rfl)

/-- The sleep after a failure keeps the failure. -/
theorem sleepThenContinue_follows (context : RetryFailureContext E τ)
    (hthrown : context.error ≠ .budgetExceeded) :
    Follows env mode s context.error (sleepThenContinue env mode s context) := by
  unfold sleepThenContinue
  split
  · trivial
  · split
    · exact ⟨.log rfl rfl, rfl, hthrown⟩
    · exact (endAfterRejection_follows ..).of_state (.log rfl rfl) rfl

/-- In classified mode nothing is cut off. -/
theorem runWithinRetryBudget_classified {α : Type*} (mode : ValidClassified E τ) (elapsedMs : τ)
    (promise : Pending α E τ) :
    runWithinRetryBudget (.classified mode) elapsedMs promise ≠ .error .budgetExceeded := by
  cases hresult : promise.result <;> simp [runWithinRetryBudget, hresult, Except.mapError]

/-- The decision about a failure keeps the failure. A cut-off attempt is always the last one. -/
theorem decideRetry_follows {failure : Failure E}
    (hpoll : ∀ mode' : ValidClassified E τ, mode = .classified mode' →
      failure ≠ .budgetExceeded) :
    Follows env mode s failure (decideRetry env mode s failure) := by
  have hjudged : ∀ context : RetryFailureContext E τ, SameAttempts env mode s.trace
      (s.read.log ((mode.verdict context).map (Event.judgement context)).toList).trace := by
    intro context
    refine .append fun event hevent ↦ ?_
    obtain ⟨isTransient, -, rfl⟩ := Option.map_eq_some_iff.mp (Option.mem_toList.mp hevent)
    exact ⟨rfl, rfl⟩
  unfold decideRetry
  refine getElapsedMs_induction (fun _ _ ↦ trivial) ?_
  simp only
  split
  · exact (giveUp_follows ..).of_state (hjudged _) rfl
  · rename_i hreason
    have hthrown : failure ≠ .budgetExceeded := by
      cases mode with
      | classified mode' => exact hpoll mode' rfl
      | poll mode' =>
          rintro rfl
          simp [getTerminalReason, Failure.isPollAttemptTimeoutError] at hreason
    exact (sleepThenContinue_follows ⟨s.attemptNumber, env.elapsedMs s.readings, failure⟩
      hthrown).of_state (hjudged _) rfl

/-- The hook keeps the failure, which the loop remembers from here on. -/
theorem handleFailure_follows {failure : Failure E}
    (hpoll : ∀ mode' : ValidClassified E τ, mode = .classified mode' →
      failure ≠ .budgetExceeded) :
    Follows env mode { s with lastError := some failure } failure
      (handleFailure env mode s failure) := by
  unfold handleFailure
  refine getElapsedMs_induction (fun _ _ ↦ trivial) ?_
  simp only
  split
  · exact (decideRetry_follows hpoll).of_state (.log rfl rfl) rfl
  · exact (endAfterRejection_follows ..).of_state (.log rfl rfl) rfl

/-! ## Runs -/

/-- What holds of a run after any number of iterations. Going on, no attempt has been cut off, and
the loop remembers the last rejection. Given up, either that is still so of the cause, or an attempt
has been cut off and the cause is its marker. -/
def Retains (env : Environment T E τ) (mode : ValidMode E τ) : Progress T E τ → Prop
  | .continues s => NoneCutOff env mode s.trace ∧
      s.lastError = (rejections env mode s.trace).getLast?.map .thrown
  | .ended s (.failed error) =>
      (NoneCutOff env mode s.trace ∧
        error.cause = (rejections env mode s.trace).getLast?.map .thrown) ∨
      (¬NoneCutOff env mode s.trace ∧ error.cause = some .budgetExceeded)
  | .ended _ _ => True

/-- A rejected attempt becomes the one that is remembered. -/
theorem Follows.retains_thrown {error : Thrown E} {progress : Progress T E τ}
    (h : Follows env mode s (.thrown error) progress) (hnone : NoneCutOff env mode s.trace)
    (hlast : (rejections env mode s.trace).getLast? = some error)
    (hremembered : s.lastError = some (.thrown error)) : Retains env mode progress := by
  cases progress with
  | continues next =>
      obtain ⟨hsame, herror, -⟩ := h
      refine ⟨hsame.noneCutOff_iff.mpr hnone, ?_⟩
      rw [herror, hremembered, hsame.rejections_eq, hlast]
      rfl
  | ended last ending =>
      cases ending with
      | failed failed =>
          obtain ⟨hsame, hcause⟩ := h
          refine .inl ⟨hsame.noneCutOff_iff.mpr hnone, ?_⟩
          rw [hcause, hsame.rejections_eq, hlast]
          rfl
      | success | threw | invalidDelay => trivial

/-- An attempt that is cut off ends the run, with its marker as the cause. -/
theorem Follows.retains_cutOff {progress : Progress T E τ}
    (h : Follows env mode s .budgetExceeded progress)
    (hcut : ¬NoneCutOff env mode s.trace) : Retains env mode progress := by
  cases progress with
  | continues next => exact absurd rfl h.2.2
  | ended last ending =>
      cases ending with
      | failed failed => exact .inr ⟨fun hnone ↦ hcut (h.1.noneCutOff_iff.mp hnone), h.2⟩
      | success | threw | invalidDelay => trivial

/-- Giving up before another attempt has what is remembered as its cause. -/
theorem giveUp_retains (hnone : NoneCutOff env mode s.trace)
    (hremembered : s.lastError = (rejections env mode s.trace).getLast?.map .thrown)
    (elapsedMs : τ) (reason : RetryFailureReason) :
    Retains env mode (giveUp env s elapsedMs reason s.lastError) := by
  have hsame : SameAttempts env mode s.trace (s.log [.giveUp s.lastError]).trace := .log rfl rfl
  unfold giveUp
  rcases throwRetryError_cases env s.attemptNumber elapsedMs reason s.lastError with
    ⟨error, hending, -, -, -, hcause⟩ | ⟨thrown, -, hending⟩
  · rw [hending]
    refine .inl ⟨hsame.noneCutOff_iff.mpr hnone, ?_⟩
    rw [hcause, hsame.rejections_eq, hremembered]
  · rw [hending]
    trivial

/-- One iteration retains the last rejection. -/
theorem iterate_retains (h : Retains env mode (.continues s)) :
    Retains env mode (iterate env mode s) := by
  obtain ⟨hnone, hremembered⟩ := h
  unfold iterate
  refine getElapsedMs_induction (fun _ _ ↦ trivial) ?_
  simp only
  split
  · exact giveUp_retains (s := s.read) hnone hremembered _ _
  · split
    · trivial
    · rename_i failure hbudget
      have hpoll : ∀ mode' : ValidClassified E τ, mode = .classified mode' →
          failure ≠ .budgetExceeded := by
        rintro mode' rfl rfl
        exact runWithinRetryBudget_classified mode' _ _ hbudget
      have hfollows : Follows env mode _ failure _ := handleFailure_follows
        (s := ⟨s.attemptNumber + 1, s.lastError, s.readings + 1,
          s.trace ++ [.attempt (s.attemptNumber + 1) (env.elapsedMs s.readings)]⟩) hpoll
      change runWithinRetryBudget mode (env.elapsedMs s.readings)
        (env.operation (s.attemptNumber + 1)) = .error failure at hbudget
      cases failure with
      | thrown error =>
          refine hfollows.retains_thrown ?_ ?_ rfl
          · intro event hevent
            rcases List.mem_append.mp hevent with hold | hnew
            · exact hnone event hold
            · rw [List.mem_singleton.mp hnew]
              simp [Event.isCutOff, hbudget]
          · simp [rejections, Event.rejection, hbudget]
      | budgetExceeded =>
          refine hfollows.retains_cutOff fun hall ↦ ?_
          have hlast := hall _ (List.mem_append_right _ (List.mem_singleton_self _))
          simp [Event.isCutOff, hbudget] at hlast

/-- After any number of iterations a run retains the last rejection. -/
theorem runFor_retains (env : Environment T E τ) (mode : ValidMode E τ) (iterations : ℕ) :
    Retains env mode (runFor env mode iterations) := by
  induction iterations with
  | zero =>
      rw [runFor]
      split
      · trivial
      · exact ⟨fun _ hevent ↦ absurd hevent List.not_mem_nil, rfl⟩
  | succ iterations ih =>
      rw [runFor]
      cases hrun : runFor env mode iterations with
      | continues next =>
          rw [hrun] at ih
          exact iterate_retains ih
      | ended last ending =>
          rw [hrun] at ih
          exact ih

/-- For every run that gives up with a `RetryError`: its cause is the last rejection of the
operation, where there is one, and no marker, exactly when none has rejected, or no attempt was cut
off and the last rejection is not the marker of another run. -/
theorem retry_error_cause_iff [IsStrictOrderedRing τ] (env : Environment T E τ)
    (raw : RetryMode E τ) (valid : ValidMode E τ) (hmode : validateRetryMode raw = .ok valid)
    (iterations : ℕ) (s : LoopState E τ) (error : RetryError E τ)
    (hrun : runWithRetry env raw iterations = .ok (.ended s (.failed error))) :
    (∀ rejection, (rejections env valid s.trace).getLast? = some rejection →
        error.cause = some (.thrown rejection) ∧ ∃ value, rejection = .value value) ↔
      rejections env valid s.trace = [] ∨
        NoneCutOff env valid s.trace ∧ ∀ run,
          (rejections env valid s.trace).getLast? ≠ some (.pollAttemptTimeoutError run) := by
  have hended : runFor env valid iterations = .ended s (.failed error) := by
    rw [runWithRetry, hmode] at hrun
    exact Except.ok.inj hrun
  have hretains := runFor_retains env valid iterations
  rw [hended] at hretains
  constructor
  · intro hretained
    by_cases hempty : rejections env valid s.trace = []
    · exact .inl hempty
    · have hlast := List.getLast?_eq_some_getLast hempty
      obtain ⟨hcause, value, hvalue⟩ := hretained _ hlast
      refine .inr ⟨?_, fun run hmarker ↦ ?_⟩
      · rcases hretains with ⟨hnone, -⟩ | ⟨-, hmarked⟩
        · exact hnone
        · rw [hmarked] at hcause
          cases hcause
      · rw [hlast, hvalue] at hmarker
        cases hmarker
  · rintro (hempty | ⟨hnone, hunmarked⟩) rejection hlast
    · simp [hempty] at hlast
    · rcases hretains with ⟨-, hcause⟩ | ⟨hcut, -⟩
      · refine ⟨by rw [hcause, hlast]; rfl, ?_⟩
        cases rejection with
        | value value => exact ⟨value, rfl⟩
        | pollAttemptTimeoutError run => exact absurd hlast (hunmarked run)
      · exact absurd hnone hcut

/-- The first attempt rejects at once, and the second one hangs; every reading of the clock is ten
milliseconds later. -/
def hangsSecond : Environment Unit String ℤ where
  operationName := "wait".toList
  numberToText n := (toString n).toList
  toErrorMessage error := .ok error.toList
  clock reading := .ok (10 * reading)
  operation n := ⟨.error (.value "not ready"), if n < 2 then .atOnce else .never⟩
  onFailedAttempt _ := ⟨.ok (), .atOnce⟩
  sleep _ := ⟨.ok (), .atOnce⟩

/-- The rejection of the first attempt is not the cause when the second one times out. -/
theorem retry_error_cause_hangsSecond :
    ∃ (valid : ValidMode String ℤ) (s : LoopState String ℤ) (error : RetryError String ℤ),
      validateRetryMode (pollFor 100) = .ok valid ∧
      runWithRetry hangsSecond (pollFor 100) 2 = .ok (.ended s (.failed error)) ∧
      (rejections hangsSecond valid s.trace).getLast? = some (.value "not ready") ∧
      error.cause = some .budgetExceeded := by
  exact ⟨.poll ⟨100, [5], none, by decide, by decide⟩, _, _, rfl, rfl, rfl, rfl⟩

/-- Two rejections and a timeout: no attempt has been cut off, and the cause is the second one. -/
theorem retry_error_cause_neverReady :
    ∃ (s : LoopState String ℤ) (error : RetryError String ℤ),
      runWithRetry neverReady (pollFor 50) 2 = .ok (.ended s (.failed error)) ∧
      error.cause = some (.thrown (.value "not ready")) := by
  let valid : ValidMode String ℤ := .poll ⟨50, [5], none, by decide, by decide⟩
  have hrun := (rfl : runWithRetry neverReady (pollFor 50) 2 = .ok (runFor neverReady valid 2))
  refine ⟨_, _, hrun, ?_⟩
  refine ((retry_error_cause_iff neverReady (pollFor 50) valid rfl 2 _ _ hrun).mpr
    (.inr ⟨?_, fun run hmarker ↦ ?_⟩) (.value "not ready") rfl).1
  · decide
  · exact absurd (Option.some.inj hmarker) nofun

end CoreUtils.Toolkit.Retry
