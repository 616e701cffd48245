import CoreUtils.Toolkit.Retry
import Mathlib.Algebra.Order.Group.Int
import Mathlib.Algebra.Order.Ring.Int
import Mathlib.Data.Nat.Find

/-!
# Classified retries

In classified mode a run makes attempts `1..k` with one sleep between two of them, where `k` is the
first attempt that does not fail transiently, or the last one allowed (`Settles.runFor`). It then
succeeds or gives up with a `RetryError`, unless what the last attempt has rejected with has no
message: then the constructor of the error throws (`runWithRetry_classified`).
-/

namespace CoreUtils.Toolkit.Retry

variable {T E τ : Type*} [Ring τ] [LinearOrder τ]

/-! ## Traces and runs -/

/-- A mark of the trace: an attempt with its number, or a sleep. -/
inductive Mark where
  | attempt (attemptNumber : ℕ)
  | sleep
  deriving DecidableEq, Repr

/-- The mark of an event, if it is an attempt or a sleep. -/
def Event.mark : Event E τ → Option Mark
  | .attempt attemptNumber _ => some (.attempt attemptNumber)
  | .sleep _ _ _ _ => some .sleep
  | _ => none

/-- The attempts and sleeps of a state, in order. -/
def LoopState.marks (s : LoopState E τ) : List Mark := s.trace.filterMap Event.mark

/-- Attempts `1..count`, each followed by a sleep. -/
def rounds (count : ℕ) : List Mark :=
  (List.range count).flatMap fun index ↦ [.attempt (index + 1), .sleep]

/-- One more round. -/
theorem rounds_succ (count : ℕ) :
    rounds (count + 1) = rounds count ++ [.attempt (count + 1), .sleep] := by
  simp [rounds, List.range_succ]

variable {env : Environment T E τ}

/-! ## Rounds of classified mode -/

variable {mode : ValidClassified E τ}

/-- What the predicate is told about the failure of an attempt. Every attempt before it has taken
three readings of the clock, and the last of its own three is the one it reports. -/
def contextAt (env : Environment T E τ) (attemptNumber : ℕ) (error : Thrown E) :
    RetryFailureContext E τ :=
  ⟨attemptNumber, env.elapsedMs (3 * attemptNumber), .thrown error⟩

/-- An attempt fails, and the predicate calls its failure transient. -/
def TransientAt (env : Environment T E τ) (mode : ValidClassified E τ) (attemptNumber : ℕ) : Prop :=
  ∃ error, (env.operation attemptNumber).result = .error error ∧
    mode.isTransient (contextAt env attemptNumber error) = true

/-- The head of the loop after a number of rounds. -/
structure Retried (count : ℕ) (s : LoopState E τ) : Prop where
  attemptNumber : s.attemptNumber = count
  readings : s.readings = 3 * count + 1
  marks : s.marks = rounds count

/-- The clock, the hook and the sleep do not throw. -/
structure Quiet (env : Environment T E τ) : Prop where
  clock : ∀ n, env.clockError n = none
  onFailedAttempt : ∀ n, (env.onFailedAttempt n).result = .ok ()
  sleep : ∀ n, (env.sleep n).result = .ok ()

/-- A delay function returns finite numbers that are not negative. -/
def DelaysValid (mode : ValidClassified E τ) : Prop :=
  ∀ delayMs, mode.delayMs = .function delayMs → ∀ context, validDuration (delayMs context) = true

/-- A valid delay is what the loop sleeps for. -/
theorem getRetryDelayMs_of_valid (hdelays : DelaysValid mode) (context : RetryFailureContext E τ) :
    ∃ durationMs, getRetryDelayMs (.classified mode) context = .ok durationMs := by
  have hvalid : validDuration (configuredDelayMs (.classified mode) context) = true := by
    have hconstant := mode.delayMs_valid
    cases hdelay : mode.delayMs with
    | absent => simp [configuredDelayMs, hdelay, validDuration]
    | constant delayMs => simpa [configuredDelayMs, hdelay, Delay.valid] using hconstant
    | function delayMs => simpa [configuredDelayMs, hdelay] using hdelays delayMs hdelay context
  unfold getRetryDelayMs
  cases hconfigured : configuredDelayMs (.classified mode) context with
  | none => simp [hconfigured, validDuration] at hvalid
  | some durationMs =>
      simp only [hconfigured, validDuration, decide_eq_true_eq] at hvalid
      exact ⟨durationMs, if_neg (not_lt.mpr hvalid)⟩

variable {count : ℕ} {s : LoopState E τ}

/-- The state in which an attempt starts. -/
def attemptState (env : Environment T E τ) (s : LoopState E τ) (attemptNumber : ℕ) :
    LoopState E τ :=
  ⟨attemptNumber, s.lastError, s.readings + 1,
    s.trace ++ [.attempt attemptNumber (env.elapsedMs s.readings)]⟩

/-- The state in which the loop asks the predicate about the failure of an attempt. -/
def failedState (env : Environment T E τ) (s : LoopState E τ) (attemptNumber : ℕ)
    (error : Thrown E) : LoopState E τ :=
  ⟨attemptNumber, some (.thrown error), 3 * attemptNumber,
    (attemptState env s attemptNumber).trace ++
      [.report ⟨attemptNumber, env.elapsedMs (s.readings + 1), .thrown error⟩]⟩

/-- The state after the predicate has been asked. -/
def judgedState (env : Environment T E τ) (s : LoopState E τ) (attemptNumber : ℕ)
    (error : Thrown E) (isTransient : Bool) : LoopState E τ :=
  (failedState env s attemptNumber error).read.log
    [.judgement (contextAt env attemptNumber error) isTransient]

/-- The marks of that state. -/
theorem marks_judgedState (env : Environment T E τ) (hs : Retried count s) (error : Thrown E)
    (isTransient : Bool) :
    (judgedState env s (count + 1) error isTransient).marks =
      rounds count ++ [.attempt (count + 1)] := by
  have hmarks := hs.marks
  simp only [LoopState.marks] at hmarks ⊢
  simp [judgedState, failedState, attemptState, LoopState.read, LoopState.log, hmarks, Event.mark]

omit [Ring τ] [LinearOrder τ] in
/-- Giving up adds no mark. -/
theorem marks_giveUp (s : LoopState E τ) (cause : Option (Failure E)) :
    (s.log [.giveUp cause]).marks = s.marks := by
  simp [LoopState.marks, LoopState.log, Event.mark]

/-- Why a failure ends a run of classified mode, if it does. -/
theorem getTerminalReason_classified (env : Environment T E τ) (mode : ValidClassified E τ)
    (attemptNumber : ℕ) (error : Thrown E) :
    getTerminalReason (.classified mode) (contextAt env attemptNumber error) =
      if mode.isTransient (contextAt env attemptNumber error) = true then
        if mode.maxAttempts ≤ attemptNumber then some .attemptsExhausted else none
      else some .nonTransient := by
  cases htransient : mode.isTransient (contextAt env attemptNumber error) with
  | false => simp [getTerminalReason, htransient]
  | true =>
      rw [contextAt] at htransient
      by_cases hlast : mode.maxAttempts ≤ attemptNumber
      · simp [getTerminalReason, htransient, contextAt, hlast]
      · simp [getTerminalReason, htransient, contextAt, hlast]

/-! ## The attempt that settles a run -/

/-- The attempt that settles a run: the first that does not fail transiently, or the last one. -/
structure Settles (env : Environment T E τ) (mode : ValidClassified E τ) (attempts : ℕ) : Prop where
  first : 1 ≤ attempts
  allowed : attempts ≤ mode.maxAttempts
  retried : ∀ n, 1 ≤ n → n < attempts → TransientAt env mode n
  settled : ¬TransientAt env mode attempts ∨ attempts = mode.maxAttempts

/-- Some attempt settles the run. -/
theorem exists_settles (env : Environment T E τ) (mode : ValidClassified E τ) :
    ∃ attempts, Settles env mode attempts := by
  classical
  have hexists : ∃ n, 1 ≤ n ∧ (¬TransientAt env mode n ∨ n = mode.maxAttempts) :=
    ⟨mode.maxAttempts, mode.maxAttempts_pos, .inr rfl⟩
  obtain ⟨hfirst, hsettled⟩ := Nat.find_spec hexists
  refine ⟨Nat.find hexists, hfirst, ?_, ?_, hsettled⟩
  · exact Nat.find_min' hexists ⟨mode.maxAttempts_pos, .inr rfl⟩
  · intro n hn hlt
    by_contra htransient
    exact Nat.find_min hexists hlt ⟨hn, .inl htransient⟩

/-- Only one attempt settles the run. -/
theorem Settles.unique {attempts attempts' : ℕ} (h : Settles env mode attempts)
    (h' : Settles env mode attempts') : attempts = attempts' := by
  have hle : ∀ {n n' : ℕ}, Settles env mode n → Settles env mode n' → n ≤ n' := by
    intro n n' hn hn'
    by_contra hlt
    rcases hn'.settled with hfatal | hlast
    · exact hfatal (hn.retried n' hn'.first (Nat.not_le.mp hlt))
    · exact hlt (hlast ▸ hn.allowed)
  exact Nat.le_antisymm (hle h h') (hle h' h)

/-! ## How a run settles -/

/-- The result that the last attempt of a run gives it. -/
def classifiedEnding (env : Environment T E τ) (mode : ValidClassified E τ) (attempts : ℕ) :
    Ending T E τ :=
  match (env.operation attempts).result with
  | .ok value => .success value attempts
  | .error error =>
      env.throwRetryError attempts (env.elapsedMs (3 * attempts))
        (if mode.isTransient (contextAt env attempts error) = true then .attemptsExhausted
        else .nonTransient) (some (.thrown error))

/-- A run gives up with a `RetryError` about an attempt, which has this cause. -/
def FailsWith (env : Environment T E τ) (ending : Ending T E τ) (attempts : ℕ)
    (reason : RetryFailureReason) (cause : Thrown E) : Prop :=
  ∃ error, ending = .failed error ∧ error.attempts = attempts ∧
    error.elapsedMs = env.elapsedMs (3 * attempts) ∧ error.reason = reason ∧
    error.cause = some (.thrown cause)

/-- What a run of classified mode is meant to do. It ends after attempts `1..k` with exactly one
sleep between two of them and none after the last. It succeeds with the first success if only
transient failures come before it and its number is allowed; it fails as non-transient with the
first failure that is not transient under the same condition; and it is exhausted when every allowed
attempt fails transiently. The cause is always the error of that attempt. -/
structure RunsClassified (env : Environment T E τ) (mode : ValidClassified E τ)
    (run : ℕ → Except String (Progress T E τ)) (k : ℕ) (s : LoopState E τ)
    (ending : Ending T E τ) : Prop where
  ended : ∀ iterations, k ≤ iterations → run iterations = .ok (.ended s ending)
  first : 1 ≤ k
  allowed : k ≤ mode.maxAttempts
  marks : s.marks = rounds (k - 1) ++ [.attempt k]
  success : ∀ n value, 1 ≤ n → n ≤ mode.maxAttempts →
    (∀ j, 1 ≤ j → j < n → TransientAt env mode j) →
    (env.operation n).result = .ok value → k = n ∧ ending = .success value n
  nonTransient : ∀ n error, 1 ≤ n → n ≤ mode.maxAttempts →
    (∀ j, 1 ≤ j → j < n → TransientAt env mode j) →
    (env.operation n).result = .error error →
    mode.isTransient (contextAt env n error) = false →
    k = n ∧ FailsWith env ending n .nonTransient error
  exhausted : ∀ error, (∀ j, 1 ≤ j → j ≤ mode.maxAttempts → TransientAt env mode j) →
    (env.operation mode.maxAttempts).result = .error error →
    k = mode.maxAttempts ∧ FailsWith env ending mode.maxAttempts .attemptsExhausted error

/-- The message of a `RetryError` with this cause can be made. -/
def HasMessage (env : Environment T E τ) (error : Thrown E) : Prop :=
  ∃ message, env.getErrorMessage (some (.thrown error)) = .ok message

/-- Giving up throws a `RetryError` when its message can be made. -/
theorem HasMessage.failsWith {error : Thrown E} (h : HasMessage env error) (attempts : ℕ)
    (reason : RetryFailureReason) :
    FailsWith env (env.throwRetryError attempts (env.elapsedMs (3 * attempts)) reason
      (some (.thrown error))) attempts reason error := by
  obtain ⟨message, hmessage⟩ := h
  rcases throwRetryError_cases env attempts (env.elapsedMs (3 * attempts)) reason
    (some (.thrown error)) with ⟨made, hending, hattempts, helapsed, hreason, hcause⟩ |
      ⟨thrown, hthrown, -⟩
  · exact ⟨made, hending, hattempts, helapsed, hreason, hcause⟩
  · rw [hmessage] at hthrown
    contradiction

omit [Ring τ] in
/-- What has been thrown as a `RetryError` has a message. -/
theorem hasMessage_of_failed {error : Thrown E} {attempts : ℕ} {elapsedMs : τ}
    {reason : RetryFailureReason} {made : RetryError E τ}
    (h : env.throwRetryError attempts elapsedMs reason (some (.thrown error)) = .failed made) :
    HasMessage env error := by
  unfold Environment.throwRetryError Environment.formatRetryErrorMessage at h
  cases hmessage : env.getErrorMessage (some (.thrown error)) with
  | error thrown => simp [hmessage, Except.map] at h
  | ok message => exact ⟨message, hmessage⟩

/-! ## Iterations of classified mode -/

variable [FloorRing τ]

/-- An operation that succeeds ends the run. -/
theorem iterate_success (hquiet : Quiet env) (hs : Retried count s) {value : T}
    (hvalue : (env.operation (count + 1)).result = .ok value) :
    ∃ s', iterate env (.classified mode) s = .ended s' (.success value (count + 1)) ∧
      s'.marks = rounds count ++ [.attempt (count + 1)] := by
  refine ⟨attemptState env s (count + 1), ?_, ?_⟩
  · rw [iterate, getElapsedMs_of_none (hquiet.clock _)]
    simp [ValidMode.exhausted, runWithinRetryBudget, hs.attemptNumber, hvalue, Except.mapError,
      LoopState.read, attemptState]
  · have hmarks := hs.marks
    simp only [LoopState.marks] at hmarks ⊢
    simp [attemptState, hmarks, Event.mark]

/-- An operation that fails leads to the predicate. -/
theorem iterate_failure (hquiet : Quiet env) (hs : Retried count s) {error : Thrown E}
    (herror : (env.operation (count + 1)).result = .error error) :
    iterate env (.classified mode) s =
      decideRetry env (.classified mode) (failedState env s (count + 1) error) (.thrown error) := by
  have hreadings : s.readings + 1 + 1 = 3 * (count + 1) := by
    rw [hs.readings]
    omega
  rw [iterate, getElapsedMs_of_none (hquiet.clock _)]
  simp only [ValidMode.exhausted, runWithinRetryBudget, LoopState.read, hs.attemptNumber, herror,
    Except.mapError, Bool.false_eq_true, if_false]
  rw [handleFailure, getElapsedMs_of_none (hquiet.clock _)]
  simp [runWithinRetryBudget, hquiet.onFailedAttempt, Except.mapError, LoopState.read,
    LoopState.log, failedState, attemptState, hreadings]

/-- A failure that ends the run, for the reason that the mode gives. -/
theorem iterate_terminal (hquiet : Quiet env) (hs : Retried count s) {error : Thrown E}
    (herror : (env.operation (count + 1)).result = .error error) {reason : RetryFailureReason}
    (hreason : getTerminalReason (.classified mode) (contextAt env (count + 1) error) =
      some reason) :
    ∃ s', iterate env (.classified mode) s = .ended s' (env.throwRetryError (count + 1)
        (env.elapsedMs (3 * (count + 1))) reason (some (.thrown error))) ∧
      s'.marks = rounds count ++ [.attempt (count + 1)] := by
  let isTransient := mode.isTransient (contextAt env (count + 1) error)
  refine ⟨(judgedState env s (count + 1) error isTransient).log
    [.giveUp (some (.thrown error))], ?_, ?_⟩
  · rw [contextAt] at hreason
    rw [iterate_failure hquiet hs herror, decideRetry, getElapsedMs_of_none (hquiet.clock _)]
    simp [failedState, LoopState.read, hreason, giveUp, LoopState.log, judgedState, contextAt,
      ValidMode.verdict, isTransient]
  · rw [marks_giveUp, marks_judgedState env hs]

/-- After any other failure the loop sleeps once and goes on. -/
theorem iterate_transient (hquiet : Quiet env) (hdelays : DelaysValid mode) (hs : Retried count s)
    {error : Thrown E} (herror : (env.operation (count + 1)).result = .error error)
    (hreason : getTerminalReason (.classified mode) (contextAt env (count + 1) error) = none) :
    ∃ s', iterate env (.classified mode) s = .continues s' ∧ Retried (count + 1) s' := by
  obtain ⟨durationMs, hduration⟩ :=
    getRetryDelayMs_of_valid hdelays (contextAt env (count + 1) error)
  let isTransient := mode.isTransient (contextAt env (count + 1) error)
  let judged := judgedState env s (count + 1) error isTransient
  refine ⟨judged.log [.sleep (count + 1) durationMs judged.readings true], ?_, ⟨rfl, rfl, ?_⟩⟩
  · rw [contextAt] at hreason hduration
    rw [iterate_failure hquiet hs herror, decideRetry, getElapsedMs_of_none (hquiet.clock _)]
    simp [failedState, LoopState.read, hreason, LoopState.log, sleepThenContinue, hduration,
      runWithinRetryBudget, hquiet.sleep, Except.mapError, judged, judgedState, contextAt,
      ValidMode.verdict, isTransient]
  · have hmarks := marks_judgedState env hs error isTransient
    rw [rounds_succ]
    simp only [LoopState.marks] at hmarks ⊢
    simp [LoopState.log, judged, hmarks, Event.mark]

/-! ## Runs of classified mode -/

/-- As long as every attempt fails transiently and more are allowed, the run goes on. -/
theorem runFor_retried (hquiet : Quiet env) (hdelays : DelaysValid mode) {count : ℕ}
    (hcount : count < mode.maxAttempts)
    (htransient : ∀ n, 1 ≤ n → n ≤ count → TransientAt env mode n) :
    ∃ s, runFor env (.classified mode) count = .continues s ∧ Retried count s := by
  induction count with
  | zero => exact ⟨LoopState.initial, by rw [runFor, hquiet.clock], rfl, rfl, rfl⟩
  | succ count ih =>
      obtain ⟨s, hrun, hs⟩ := ih (by omega) fun n hfirst hn ↦ htransient n hfirst (by omega)
      obtain ⟨error, herror, htrue⟩ := htransient (count + 1) (by omega) le_rfl
      have hreason : getTerminalReason (.classified mode) (contextAt env (count + 1) error) =
          none := by
        rw [getTerminalReason_classified, if_pos htrue, if_neg (Nat.not_le.mpr hcount)]
      obtain ⟨s', hiterate, hs'⟩ := iterate_transient hquiet hdelays hs herror hreason
      exact ⟨s', by rw [runFor, hrun, Progress.next, hiterate], hs'⟩

/-- The run ends with the attempt that settles it. -/
theorem Settles.runFor (hquiet : Quiet env) (hdelays : DelaysValid mode) {attempts : ℕ}
    (h : Settles env mode attempts) :
    ∃ s, runFor env (.classified mode) attempts =
        .ended s (classifiedEnding env mode attempts) ∧
      s.marks = rounds (attempts - 1) ++ [.attempt attempts] := by
  obtain ⟨count, rfl⟩ : ∃ count, attempts = count + 1 := ⟨attempts - 1, by have := h.first; omega⟩
  have hallowed := h.allowed
  obtain ⟨s, hrun, hs⟩ := runFor_retried hquiet hdelays (by omega : count < mode.maxAttempts)
    fun n hfirst hn ↦ h.retried n hfirst (by omega)
  rw [Retry.runFor, hrun, Progress.next]
  cases hresult : (env.operation (count + 1)).result with
  | ok value =>
      have hending : classifiedEnding env mode (count + 1) = .success value (count + 1) := by
        simp [classifiedEnding, hresult]
      rw [hending]
      exact iterate_success hquiet hs hresult
  | error error =>
      have hreason : getTerminalReason (.classified mode) (contextAt env (count + 1) error) =
          some (if mode.isTransient (contextAt env (count + 1) error) = true then
            .attemptsExhausted else .nonTransient) := by
        rw [getTerminalReason_classified]
        by_cases htrue : mode.isTransient (contextAt env (count + 1) error) = true
        · have hlast : mode.maxAttempts ≤ count + 1 :=
            (h.settled.resolve_left fun hfatal ↦ hfatal ⟨error, hresult, htrue⟩).ge
          rw [if_pos htrue, if_pos htrue, if_pos hlast]
        · rw [if_neg htrue, if_neg htrue]
      have hending := iterate_terminal hquiet hs hresult hreason
      simpa [classifiedEnding, hresult] using hending

/-- When what the last attempt rejects with has a message, the run does what it is meant to. -/
theorem Settles.runsClassified [IsStrictOrderedRing τ] (hquiet : Quiet env)
    (hdelays : DelaysValid mode) {raw : RetryMode E τ}
    (hmode : validateRetryMode raw = .ok (.classified mode)) {k : ℕ} (hk : Settles env mode k)
    (hmessage : ∀ error, (env.operation k).result = .error error → HasMessage env error) :
    ∃ s, RunsClassified env mode (runWithRetry env raw) k s (classifiedEnding env mode k) := by
  obtain ⟨s, hrun, hmarks⟩ := hk.runFor hquiet hdelays
  refine ⟨s, ?_, hk.first, hk.allowed, hmarks, ?_, ?_, ?_⟩
  · intro iterations hle
    rw [runWithRetry, hmode, Except.map, runFor_of_ended hrun hle]
  · intro n value hfirst hallowed hretried hvalue
    have hfatal : ¬TransientAt env mode n := by
      rintro ⟨error, herror, -⟩
      simp [hvalue] at herror
    -- only one attempt can be the first that is not retried
    obtain rfl := hk.unique ⟨hfirst, hallowed, hretried, .inl hfatal⟩
    exact ⟨rfl, by simp [classifiedEnding, hvalue]⟩
  · intro n error hfirst hallowed hretried herror hverdict
    have hfatal : ¬TransientAt env mode n := by
      rintro ⟨error', herror', htrue⟩
      obtain rfl := Except.error.inj (herror.symm.trans herror')
      simp [hverdict] at htrue
    obtain rfl := hk.unique ⟨hfirst, hallowed, hretried, .inl hfatal⟩
    have hfails := (hmessage error herror).failsWith k .nonTransient
    exact ⟨rfl, by simpa [classifiedEnding, herror, hverdict] using hfails⟩
  · intro error htransient herror
    obtain rfl := hk.unique ⟨mode.maxAttempts_pos, le_rfl,
      fun j hfirst hlt ↦ htransient j hfirst (Nat.le_of_lt hlt), .inr rfl⟩
    obtain ⟨error', herror', htrue⟩ := htransient mode.maxAttempts mode.maxAttempts_pos le_rfl
    obtain rfl := Except.error.inj (herror.symm.trans herror')
    have hfails := (hmessage error herror).failsWith mode.maxAttempts .attemptsExhausted
    exact ⟨rfl, by simpa [classifiedEnding, herror, htrue] using hfails⟩

/-- A run that does what it is meant to, and gives up, has made the error of its last attempt. -/
theorem RunsClassified.hasMessage [IsStrictOrderedRing τ] (hquiet : Quiet env)
    (hdelays : DelaysValid mode) {raw : RetryMode E τ}
    (hmode : validateRetryMode raw = .ok (.classified mode)) {k' : ℕ} {s' : LoopState E τ}
    {ending : Ending T E τ} (h : RunsClassified env mode (runWithRetry env raw) k' s' ending)
    {k : ℕ} (hk : Settles env mode k) {error : Thrown E}
    (herror : (env.operation k).result = .error error) : HasMessage env error := by
  obtain ⟨s, hrun, -⟩ := hk.runFor hquiet hdelays
  have hending : ending = classifiedEnding env mode k := by
    have hended := h.ended (max k k') (le_max_right _ _)
    rw [runWithRetry, hmode, Except.map, runFor_of_ended hrun (le_max_left _ _)] at hended
    exact ((Progress.ended.inj (Except.ok.inj hended)).2).symm
  have hfails : ∃ made, ending = .failed made := by
    cases hverdict : mode.isTransient (contextAt env k error) with
    | false =>
        obtain ⟨-, made, hmade, -⟩ :=
          h.nonTransient k error hk.first hk.allowed hk.retried herror hverdict
        exact ⟨made, hmade⟩
    | true =>
        have htransient : TransientAt env mode k := ⟨error, herror, hverdict⟩
        obtain rfl := hk.settled.resolve_left fun hfatal ↦ hfatal htransient
        obtain ⟨-, made, hmade, -⟩ := h.exhausted error (fun j hfirst hle ↦ by
          rcases Nat.lt_or_eq_of_le hle with hlt | rfl
          · exact hk.retried j hfirst hlt
          · exact htransient) herror
        exact ⟨made, hmade⟩
  obtain ⟨made, hmade⟩ := hfails
  rw [hending, classifiedEnding, herror] at hmade
  exact hasMessage_of_failed hmade

/-- A run of classified mode does what it is meant to exactly when the attempt that settles it
succeeds or rejects with something whose message can be made. -/
theorem runWithRetry_classified [IsStrictOrderedRing τ] (env : Environment T E τ)
    (raw : RetryMode E τ) (mode : ValidClassified E τ)
    (hmode : validateRetryMode raw = .ok (.classified mode)) (hdelays : DelaysValid mode)
    (hquiet : Quiet env) :
    (∃ k s ending, RunsClassified env mode (runWithRetry env raw) k s ending) ↔
      ∀ k error, Settles env mode k → (env.operation k).result = .error error →
        HasMessage env error := by
  constructor
  · rintro ⟨k', s, ending, hruns⟩ k error hk herror
    exact hruns.hasMessage hquiet hdelays hmode hk herror
  · intro hmessage
    obtain ⟨k, hk⟩ := exists_settles env mode
    obtain ⟨s, hruns⟩ := hk.runsClassified hquiet hdelays hmode fun error ↦ hmessage k error hk
    exact ⟨k, s, classifiedEnding env mode k, hruns⟩

/-- Two failures and a success; the second failure is called transient too. -/
def succeedsThird : Environment String String ℤ where
  operationName := "deploy".toList
  numberToText n := (toString n).toList
  toErrorMessage error := .ok error.toList
  clock reading := .ok (10 * reading)
  operation n := ⟨if n < 3 then .error (.value "not ready") else .ok "ready", .atOnce⟩
  onFailedAttempt _ := ⟨.ok (), .atOnce⟩
  sleep _ := ⟨.ok (), .atOnce⟩

/-- Five attempts, with every failure transient. -/
def fiveAttempts : RetryMode String ℤ := .classified ⟨some 5, .constant (some 100), fun _ ↦ true⟩

/-- The third attempt succeeds after two sleeps. -/
theorem runWithRetry_classified_third :
    ∃ (k : ℕ) (s : LoopState String ℤ) (ending : Ending String String ℤ),
      (∀ iterations, k ≤ iterations →
        runWithRetry succeedsThird fiveAttempts iterations = .ok (.ended s ending)) ∧
      s.marks = rounds (k - 1) ++ [.attempt k] ∧ k = 3 ∧ ending = .success "ready" 3 := by
  obtain ⟨k, s, ending, hruns⟩ := (runWithRetry_classified succeedsThird fiveAttempts
    ⟨5, .constant (some 100), fun _ ↦ true, by decide, by decide⟩ (by rfl)
    (fun delayMs hfunction ↦ by simp at hfunction)
    ⟨fun _ ↦ rfl, fun _ ↦ rfl, fun _ ↦ rfl⟩).mpr fun k error _ _ ↦ by
      cases error with
      | value text => exact ⟨text.toList, rfl⟩
      | pollAttemptTimeoutError run => exact ⟨_, rfl⟩
  obtain ⟨hk, hending⟩ := hruns.success 3 "ready" (by decide) (by decide) (fun j hfirst hlt ↦ by
    refine ⟨.value "not ready", ?_, rfl⟩
    simp [succeedsThird, hlt]) rfl
  exact ⟨k, s, ending, hruns.ended, hruns.marks, hk, hending⟩

/-- Every attempt rejects with an object whose message is an object without a prototype. Making a
text of it is an error of its own. -/
def rejectsUntold : Environment String String ℤ where
  operationName := "deploy".toList
  numberToText n := (toString n).toList
  toErrorMessage error :=
    if error = "{message: Object.create(null)}" then
      .error (.value "TypeError: Cannot convert object to primitive value")
    else .ok error.toList
  clock reading := .ok (10 * reading)
  operation _ := ⟨.error (.value "{message: Object.create(null)}"), .atOnce⟩
  onFailedAttempt _ := ⟨.ok (), .atOnce⟩
  sleep _ := ⟨.ok (), .atOnce⟩

/-- One attempt, and no failure is transient. -/
def oneAttempt : RetryMode String ℤ := .classified ⟨some 1, .absent, fun _ ↦ false⟩

/-- The failure is not transient, and the run ends with the error of its message instead of a
`RetryError`. -/
theorem runWithRetry_classified_untold :
    ∃ mode : ValidClassified String ℤ, validateRetryMode oneAttempt = .ok (.classified mode) ∧
      DelaysValid mode ∧ Quiet rejectsUntold ∧
      (∃ s, runWithRetry rejectsUntold oneAttempt 1 = .ok (.ended s
        (.threw (.value "TypeError: Cannot convert object to primitive value")))) ∧
      ¬∃ k s ending,
        RunsClassified rejectsUntold mode (runWithRetry rejectsUntold oneAttempt) k s ending := by
  let mode : ValidClassified String ℤ := ⟨1, .absent, fun _ ↦ false, by decide, by decide⟩
  have hdelays : DelaysValid mode := fun delayMs hfunction ↦ by simp [mode] at hfunction
  have hquiet : Quiet rejectsUntold := ⟨fun _ ↦ rfl, fun _ ↦ rfl, fun _ ↦ rfl⟩
  refine ⟨mode, rfl, hdelays, hquiet, ⟨_, rfl⟩, ?_⟩
  rintro ⟨k, s, ending, hruns⟩
  have hsettles : Settles rejectsUntold mode 1 :=
    ⟨le_rfl, le_rfl, fun n hfirst hlt ↦ by omega, .inr rfl⟩
  obtain ⟨message, hmessage⟩ := hruns.hasMessage hquiet hdelays rfl hsettles
    (show (rejectsUntold.operation 1).result = .error (.value "{message: Object.create(null)}")
      from rfl)
  have huntold : rejectsUntold.getErrorMessage
      (some (.thrown (.value "{message: Object.create(null)}"))) =
        .error (.value "TypeError: Cannot convert object to primitive value") := rfl
  rw [huntold] at hmessage
  contradiction

end CoreUtils.Toolkit.Retry
