import Mathlib.Algebra.Order.Floor.Ring
import Mathlib.Data.List.Basic
import Mathlib.Data.List.ReduceOption
import Mathlib.Data.Nat.Cast.Order.Ring

/-!
# Bounded retries

`runWithRetry` of the Playwright toolkit. The environment gives the clock readings in the order in
which they are taken, and for each attempt what the operation, the hook and the sleep do: how they
settle, and before which timers. A run records the attempts it starts, what it reports to the hook,
the verdicts of the predicate, the sleeps it asks for and the error it gives up with. Times are in
an ordered ring; the abort signal is left out.
-/

namespace CoreUtils.Toolkit.Retry

/-- Why a run gave up. -/
inductive RetryFailureReason where
  | attemptsExhausted
  | nonTransient
  | timeout
  deriving DecidableEq, Repr

/-- A value that is thrown. The class of the budget marker is private to the module, but a run
leaves its marker as the cause of its error, so that an operation, a hook or a sleep which retries
on its own can throw the marker of that other run. -/
inductive Thrown (E : Type*) where
  | value (error : E)
  | pollAttemptTimeoutError (run : ℕ)
  deriving DecidableEq, Repr

/-- A caught value: one that was thrown, or the marker of the budget of this run. -/
inductive Failure (E : Type*) where
  | thrown (error : Thrown E)
  | budgetExceeded
  deriving DecidableEq, Repr

/-- `instanceof PollAttemptTimeoutError`, which is true of the marker of any run. -/
def Failure.isPollAttemptTimeoutError {E : Type*} : Failure E → Bool
  | .thrown (.value _) => false
  | .thrown (.pollAttemptTimeoutError _) => true
  | .budgetExceeded => true

/-- What the hook, the predicate and the delay function are told about a failed attempt. -/
structure RetryFailureContext (E τ : Type*) where
  attemptNumber : ℕ
  elapsedMs : τ
  error : Failure E
  deriving DecidableEq, Repr

/-- A number of ECMAScript: a finite one, or none of them. -/
abbrev Number (τ : Type*) := Option τ

/-- The delay of classified mode: not given, a number, or a function of the failure. -/
inductive Delay (E τ : Type*) where
  | absent
  | constant (delayMs : Number τ)
  | function (delayMs : RetryFailureContext E τ → Number τ)

/-- Classified mode as it is passed in; `maxAttempts` is missing when it is not an integer. -/
structure ClassifiedRetryMode (E τ : Type*) where
  maxAttempts : Option ℤ
  delayMs : Delay E τ
  isTransient : RetryFailureContext E τ → Bool

/-- Poll mode as it is passed in. -/
structure PollRetryMode (E τ : Type*) where
  timeoutMs : Number τ
  intervalsMs : Option (List (Number τ))
  isTransient : Option (RetryFailureContext E τ → Bool)

/-- The retry policy as it is passed in. -/
inductive RetryMode (E τ : Type*) where
  | classified (mode : ClassifiedRetryMode E τ)
  | poll (mode : PollRetryMode E τ)

section Modes

variable {E τ : Type*} [Ring τ] [LinearOrder τ]

/-- A number that is finite and not negative. -/
def validDuration (value : Number τ) : Bool :=
  match value with
  | none => false
  | some value => decide (0 ≤ value)

/-- A constant delay is finite and not negative. -/
def Delay.valid : Delay E τ → Bool
  | .constant delayMs => validDuration delayMs
  | _ => true

/-- Classified mode after validation. -/
structure ValidClassified (E τ : Type*) [Ring τ] [LinearOrder τ] where
  maxAttempts : ℕ
  delayMs : Delay E τ
  isTransient : RetryFailureContext E τ → Bool
  maxAttempts_pos : 1 ≤ maxAttempts
  delayMs_valid : delayMs.valid = true

/-- Poll mode after validation, with the default intervals filled in. -/
structure ValidPoll (E τ : Type*) [Ring τ] [LinearOrder τ] where
  timeoutMs : τ
  intervalsMs : List τ
  isTransient : Option (RetryFailureContext E τ → Bool)
  timeoutMs_pos : 0 < timeoutMs
  intervalsMs_nonneg : ∀ intervalMs ∈ intervalsMs, 0 ≤ intervalMs

/-- A validated retry policy. -/
inductive ValidMode (E τ : Type*) [Ring τ] [LinearOrder τ] where
  | classified (mode : ValidClassified E τ)
  | poll (mode : ValidPoll E τ)

/-- Check classified mode. -/
def validateClassified (mode : ClassifiedRetryMode E τ) : Except String (ValidClassified E τ) :=
  match mode.maxAttempts with
  | none => .error "Classified retry maxAttempts must be a positive integer"
  | some maxAttempts =>
      if hmax : maxAttempts < 1 then
        .error "Classified retry maxAttempts must be a positive integer"
      else if hdelay : mode.delayMs.valid = true then
        .ok ⟨maxAttempts.toNat, mode.delayMs, mode.isTransient, by omega, hdelay⟩
      else .error "Classified retry delayMs must be finite and non-negative"

variable [IsStrictOrderedRing τ]

/-- The default poll intervals. -/
def defaultIntervalsMs : List τ := [100, 250, 500, 1000]

/-- Check poll mode. -/
def validatePoll (mode : PollRetryMode E τ) : Except String (ValidPoll E τ) :=
  match mode.timeoutMs with
  | none => .error "Poll retry timeoutMs must be positive"
  | some timeoutMs =>
      if htimeout : 0 < timeoutMs then
        match mode.intervalsMs with
        | none => .ok ⟨timeoutMs, defaultIntervalsMs, mode.isTransient, htimeout, by
            simp [defaultIntervalsMs, Nat.ofNat_nonneg]⟩
        | some intervalsMs =>
            if intervalsMs.length = 0 then .error "Poll retry intervalsMs must not be empty"
            else if hvalid : intervalsMs.all validDuration then
              .ok ⟨timeoutMs, intervalsMs.reduceOption, mode.isTransient, htimeout, by
                intro intervalMs hmem
                have hall := List.all_eq_true.mp hvalid _ (List.reduceOption_mem_iff.mp hmem)
                simpa [validDuration] using hall⟩
            else .error "Poll retry intervalsMs must be finite and non-negative"
      else .error "Poll retry timeoutMs must be positive"

/-- `validateRetryMode`: the validated policy, or the message of the error it throws. -/
def validateRetryMode : RetryMode E τ → Except String (ValidMode E τ)
  | .classified mode => (validateClassified mode).map .classified
  | .poll mode => (validatePoll mode).map .poll

end Modes

/-! ## The environment and the trace -/

/-- When a promise settles: before the timers of which durations. A longer timer does not fire
earlier. -/
structure Settling (τ : Type*) [LE τ] where
  within : τ → Bool
  mono : ∀ {durationMs durationMs' : τ}, durationMs ≤ durationMs' →
    within durationMs = true → within durationMs' = true

/-- Before every timer. -/
def Settling.atOnce {τ : Type*} [LE τ] : Settling τ := ⟨fun _ ↦ true, fun _ h ↦ h⟩

/-- Never. -/
def Settling.never {τ : Type*} [LE τ] : Settling τ := ⟨fun _ ↦ false, fun _ h ↦ h⟩

/-- A promise: what it settles to, and when. -/
structure Pending (α E τ : Type*) [LE τ] where
  result : Except (Thrown E) α
  settling : Settling τ

/-- The environment of a run: the name of the operation, the text of a number and of an error, the
clock by the number of the reading, and the operation, the hook and the sleep by the number of the
attempt. A reading of the clock may throw. `toErrorMessage` throws for a value whose message has no
text. -/
structure Environment (T E τ : Type*) [LE τ] where
  operationName : List Char
  numberToText : τ → List Char
  toErrorMessage : E → Except (Thrown E) (List Char)
  clock : ℕ → Except (Thrown E) τ
  operation : ℕ → Pending T E τ
  onFailedAttempt : ℕ → Pending Unit E τ
  sleep : ℕ → Pending Unit E τ

/-- What a run does: start an attempt, report its failure to the hook, ask the predicate about it,
ask for a sleep, or make the error it gives up with. A sleep is recorded with the number of clock
readings before it, and with whether it ended. -/
inductive Event (E τ : Type*) where
  | attempt (attemptNumber : ℕ) (elapsedMs : τ)
  | report (context : RetryFailureContext E τ)
  | judgement (context : RetryFailureContext E τ) (isTransient : Bool)
  | sleep (attemptNumber : ℕ) (durationMs : τ) (readings : ℕ) (completed : Bool)
  | giveUp (cause : Option (Failure E))
  deriving DecidableEq, Repr

/-- A `RetryError`; its cause is missing when no attempt has failed. -/
structure RetryError (E τ : Type*) where
  operationName : List Char
  attempts : ℕ
  elapsedMs : τ
  reason : RetryFailureReason
  cause : Option (Failure E)
  message : List Char
  deriving DecidableEq, Repr

/-- How a run ends. -/
inductive Ending (T E τ : Type*) where
  | success (value : T) (attempts : ℕ)
  | failed (error : RetryError E τ)
  | threw (error : Thrown E)
  | invalidDelay (message : String)
  deriving DecidableEq, Repr

/-- The variables of the loop, with the number of clock readings and the trace. -/
structure LoopState (E τ : Type*) where
  attemptNumber : ℕ
  lastError : Option (Failure E)
  readings : ℕ
  trace : List (Event E τ)
  deriving DecidableEq, Repr

/-- Whether a run has ended. -/
inductive Progress (T E τ : Type*) where
  | continues (state : LoopState E τ)
  | ended (state : LoopState E τ) (ending : Ending T E τ)
  deriving DecidableEq, Repr

/-- The state of a run, ended or not. -/
def Progress.state {T E τ : Type*} : Progress T E τ → LoopState E τ
  | .continues state => state
  | .ended state _ => state

/-- The loop before its first iteration: the start has been read. -/
def LoopState.initial {E τ : Type*} : LoopState E τ := ⟨0, none, 1, []⟩

/-- The state after another reading of the clock. -/
def LoopState.read {E τ : Type*} (s : LoopState E τ) : LoopState E τ :=
  { s with readings := s.readings + 1 }

/-- The state after more events. -/
def LoopState.log {E τ : Type*} (s : LoopState E τ) (events : List (Event E τ)) : LoopState E τ :=
  { s with trace := s.trace ++ events }

/-! ## The error of a run -/

section Error

variable {T E τ : Type*} [LE τ]

/-- The text of a reason. -/
def reasonText : RetryFailureReason → String
  | .attemptsExhausted => "attempts-exhausted"
  | .nonTransient => "non-transient"
  | .timeout => "timeout"

/-- `getErrorMessage` of the last error of a run. A marker is an error with a message of its own. -/
def Environment.getErrorMessage (env : Environment T E τ) :
    Option (Failure E) → Except (Thrown E) (List Char)
  | none => .ok []
  | some (.thrown (.value error)) => env.toErrorMessage error
  | some _ => .ok "Poll attempt exceeded the remaining timeout budget".toList

/-- `formatRetryErrorMessage`, which throws what the last error's message throws. -/
def Environment.formatRetryErrorMessage (env : Environment T E τ) (attempts : ℕ) (elapsedMs : τ)
    (reason : RetryFailureReason) (cause : Option (Failure E)) : Except (Thrown E) (List Char) :=
  (env.getErrorMessage cause).map fun lastError ↦
    env.operationName ++ " failed after ".toList ++ (toString attempts).toList ++ [' '] ++
      (if attempts = 1 then "attempt" else "attempts").toList ++ " (".toList ++
      env.numberToText elapsedMs ++ "ms, reason: ".toList ++ (reasonText reason).toList ++
      "). Last error: ".toList ++ lastError

/-- `throw new RetryError(..)`: the constructor makes the message first, and when that throws there
is no `RetryError`. -/
def Environment.throwRetryError (env : Environment T E τ) (attempts : ℕ) (elapsedMs : τ)
    (reason : RetryFailureReason) (cause : Option (Failure E)) : Ending T E τ :=
  match env.formatRetryErrorMessage attempts elapsedMs reason cause with
  | .error thrown => .threw thrown
  | .ok message => .failed ⟨env.operationName, attempts, elapsedMs, reason, cause, message⟩

/-- A run gives up. -/
def giveUp (env : Environment T E τ) (s : LoopState E τ) (elapsedMs : τ)
    (reason : RetryFailureReason) (cause : Option (Failure E)) : Progress T E τ :=
  .ended (s.log [.giveUp cause]) (env.throwRetryError s.attemptNumber elapsedMs reason cause)

end Error

/-! ## The loop -/

section Loop

variable {T E α τ : Type*} [Ring τ] [LinearOrder τ]

/-- The time that the clock shows at a reading. -/
def Environment.now (env : Environment T E τ) (reading : ℕ) : τ :=
  match env.clock reading with
  | .ok time => time
  | .error _ => 0

/-- What a reading of the clock throws, if it does. -/
def Environment.clockError (env : Environment T E τ) (reading : ℕ) : Option (Thrown E) :=
  match env.clock reading with
  | .ok _ => none
  | .error error => some error

/-- The elapsed time at a reading of the clock; the first reading is the start. -/
def Environment.elapsedMs (env : Environment T E τ) (reading : ℕ) : τ :=
  max (env.now reading - env.now 0) 0

/-- `getElapsedMs`, and what is done with it. A reading that throws ends the run. -/
def getElapsedMs (env : Environment T E τ) (s : LoopState E τ)
    (next : LoopState E τ → τ → Progress T E τ) : Progress T E τ :=
  match env.clockError s.readings with
  | some error => .ended s.read (.threw error)
  | none => next s.read (env.elapsedMs s.readings)

/-- The budget that is left after some time. -/
def ValidPoll.remainingMs (mode : ValidPoll E τ) (elapsedMs : τ) : τ :=
  max (mode.timeoutMs - elapsedMs) 0

/-- Whether the loop stops before another attempt. -/
def ValidMode.exhausted (mode : ValidMode E τ) (attemptNumber : ℕ) (elapsedMs : τ) : Bool :=
  match mode with
  | .classified _ => false
  | .poll mode => decide (0 < attemptNumber ∧ mode.timeoutMs ≤ elapsedMs)

/-- What `getTerminalReason` asks the predicate about a failure. -/
def ValidMode.verdict (mode : ValidMode E τ) (context : RetryFailureContext E τ) : Option Bool :=
  match mode with
  | .classified mode => some (mode.isTransient context)
  | .poll mode =>
      if context.error.isPollAttemptTimeoutError then none
      else mode.isTransient.map fun isTransient ↦ isTransient context

/-- `getTerminalReason`: why a failure ends the run, if it does. -/
def getTerminalReason (mode : ValidMode E τ) (context : RetryFailureContext E τ) :
    Option RetryFailureReason :=
  match mode with
  | .classified mode =>
      if mode.isTransient context = false then some .nonTransient
      else if mode.maxAttempts ≤ context.attemptNumber then some .attemptsExhausted
      else none
  | .poll mode =>
      if context.error.isPollAttemptTimeoutError then some .timeout
      else if (mode.isTransient.map fun isTransient ↦ isTransient context) = some false then
        some .nonTransient
      else if mode.timeoutMs ≤ context.elapsedMs then some .timeout
      else none

/-- The delay that the mode configures after a failure. -/
def configuredDelayMs (mode : ValidMode E τ) (context : RetryFailureContext E τ) : Number τ :=
  match mode with
  | .classified mode =>
      match mode.delayMs with
      | .absent => some 0
      | .constant delayMs => delayMs
      | .function delayMs => delayMs context
  | .poll mode =>
      let intervalIndex := min (context.attemptNumber - 1) (mode.intervalsMs.length - 1)
      let configured := (mode.intervalsMs[intervalIndex]?).getD 0
      some (min configured (mode.remainingMs context.elapsedMs))

/-- `getRetryDelayMs`: the duration of the next sleep, or the message of the error it throws. -/
def getRetryDelayMs (mode : ValidMode E τ) (context : RetryFailureContext E τ) :
    Except String τ :=
  match configuredDelayMs mode context with
  | none => .error "Retry delay must be finite and non-negative"
  | some durationMs =>
      if durationMs < 0 then .error "Retry delay must be finite and non-negative"
      else .ok durationMs

/-- The hook or the sleep after a failure has rejected. A marker becomes the error of
`createPollTimeoutError`, whose cause is that failure; anything else is thrown on. -/
def endAfterRejection (env : Environment T E τ) (s : LoopState E τ) (error : Failure E) :
    Failure E → Progress T E τ
  | .thrown (.value rejection) => .ended s (.threw (.value rejection))
  | _ => getElapsedMs env s fun s elapsedMs ↦ giveUp env s elapsedMs .timeout (some error)

variable [FloorRing τ]

/-- After how many milliseconds a timer of `setTimeout` fires: a delay below one or above
`2 ^ 31 - 1` is one millisecond, and a fraction is cut off. -/
def timerMs (delayMs : τ) : τ :=
  if 1 ≤ delayMs ∧ delayMs ≤ 2147483647 then (⌊delayMs⌋ : τ) else 1

/-- `runWithinRetryBudget`: in poll mode a timer for the remaining budget races the promise. -/
def runWithinRetryBudget (mode : ValidMode E τ) (elapsedMs : τ) (promise : Pending α E τ) :
    Except (Failure E) α :=
  match mode with
  | .classified _ => promise.result.mapError .thrown
  | .poll mode =>
      if promise.settling.within (timerMs (mode.remainingMs elapsedMs)) then
        promise.result.mapError .thrown
      else .error .budgetExceeded

/-- The sleep after a failure that does not end the run. -/
def sleepThenContinue (env : Environment T E τ) (mode : ValidMode E τ) (s : LoopState E τ)
    (context : RetryFailureContext E τ) : Progress T E τ :=
  match getRetryDelayMs mode context with
  | .error message => .ended s (.invalidDelay message)
  | .ok durationMs =>
      let slept (completed : Bool) : LoopState E τ :=
        s.log [.sleep s.attemptNumber durationMs s.readings completed]
      match runWithinRetryBudget mode context.elapsedMs (env.sleep s.attemptNumber) with
      | .ok () => .continues (slept true)
      | .error sleepError => endAfterRejection env (slept false) context.error sleepError

/-- The decision about a failure after its hook has run, with a new reading of the clock. -/
def decideRetry (env : Environment T E τ) (mode : ValidMode E τ) (s : LoopState E τ)
    (error : Failure E) : Progress T E τ :=
  getElapsedMs env s fun s elapsedMs ↦
    let context : RetryFailureContext E τ := ⟨s.attemptNumber, elapsedMs, error⟩
    let judged := s.log ((mode.verdict context).map (Event.judgement context)).toList
    match getTerminalReason mode context with
    | some reason => giveUp env judged elapsedMs reason (some error)
    | none => sleepThenContinue env mode judged context

/-- The `catch` block: report the failure to the hook, then decide. -/
def handleFailure (env : Environment T E τ) (mode : ValidMode E τ) (s : LoopState E τ)
    (error : Failure E) : Progress T E τ :=
  getElapsedMs env { s with lastError := some error } fun s elapsedMs ↦
    let reported := s.log [.report ⟨s.attemptNumber, elapsedMs, error⟩]
    match runWithinRetryBudget mode elapsedMs (env.onFailedAttempt s.attemptNumber) with
    | .ok () => decideRetry env mode reported error
    | .error hookError => endAfterRejection env reported error hookError

/-- One iteration of the loop. -/
def iterate (env : Environment T E τ) (mode : ValidMode E τ) (s : LoopState E τ) :
    Progress T E τ :=
  getElapsedMs env s fun s elapsedBeforeAttemptMs ↦
    if mode.exhausted s.attemptNumber elapsedBeforeAttemptMs then
      giveUp env s elapsedBeforeAttemptMs .timeout s.lastError
    else
      let attemptNumber := s.attemptNumber + 1
      let started : LoopState E τ :=
        { s with
          attemptNumber
          trace := s.trace ++ [.attempt attemptNumber elapsedBeforeAttemptMs] }
      match runWithinRetryBudget mode elapsedBeforeAttemptMs (env.operation attemptNumber) with
      | .ok value => .ended started (.success value attemptNumber)
      | .error error => handleFailure env mode started error

/-- Go on with a run that has not ended. -/
def Progress.next (env : Environment T E τ) (mode : ValidMode E τ) :
    Progress T E τ → Progress T E τ
  | .continues state => iterate env mode state
  | .ended state ending => .ended state ending

/-- A run after a number of iterations. The start of the clock is read before the first. -/
def runFor (env : Environment T E τ) (mode : ValidMode E τ) : ℕ → Progress T E τ
  | 0 =>
      match env.clockError 0 with
      | some error => .ended LoopState.initial (.threw error)
      | none => .continues LoopState.initial
  | iterations + 1 => (runFor env mode iterations).next env mode

variable [IsStrictOrderedRing τ]

/-- `runWithRetry` after a number of iterations, or the message of an invalid policy. -/
def runWithRetry (env : Environment T E τ) (mode : RetryMode E τ) (iterations : ℕ) :
    Except String (Progress T E τ) :=
  (validateRetryMode mode).map fun valid ↦ runFor env valid iterations

end Loop

/-! ## Steps of an iteration -/

section Steps

variable {T E τ : Type*}

/-- A reading of the clock ends the run or leads on. -/
theorem getElapsedMs_induction [Ring τ] [LinearOrder τ] {env : Environment T E τ}
    {s : LoopState E τ} {next : LoopState E τ → τ → Progress T E τ} {P : Progress T E τ → Prop}
    (hthrew : ∀ error, env.clockError s.readings = some error → P (.ended s.read (.threw error)))
    (hnext : P (next s.read (env.elapsedMs s.readings))) : P (getElapsedMs env s next) := by
  unfold getElapsedMs
  cases herror : env.clockError s.readings with
  | some error => exact hthrew error herror
  | none => exact hnext

/-- A reading that does not throw leads on. -/
theorem getElapsedMs_of_none [Ring τ] [LinearOrder τ] {env : Environment T E τ} {s : LoopState E τ}
    (h : env.clockError s.readings = none) (next : LoopState E τ → τ → Progress T E τ) :
    getElapsedMs env s next = next s.read (env.elapsedMs s.readings) := by
  rw [getElapsedMs, h]

/-- Giving up ends in a `RetryError` with the given cause, or with what its message throws. -/
theorem throwRetryError_cases [LE τ] (env : Environment T E τ) (attempts : ℕ) (elapsedMs : τ)
    (reason : RetryFailureReason) (cause : Option (Failure E)) :
    (∃ error, env.throwRetryError attempts elapsedMs reason cause = .failed error ∧
      error.attempts = attempts ∧ error.elapsedMs = elapsedMs ∧ error.reason = reason ∧
      error.cause = cause) ∨
    ∃ thrown, env.getErrorMessage cause = .error thrown ∧
      env.throwRetryError attempts elapsedMs reason cause = .threw thrown := by
  unfold Environment.throwRetryError Environment.formatRetryErrorMessage
  cases hmessage : env.getErrorMessage cause with
  | error thrown => exact .inr ⟨thrown, rfl, rfl⟩
  | ok lastError => exact .inl ⟨_, rfl, rfl, rfl, rfl, rfl⟩

/-- A run that has ended stays as it is. -/
theorem runFor_of_ended [Ring τ] [LinearOrder τ] [FloorRing τ] {env : Environment T E τ}
    {mode : ValidMode E τ} {count : ℕ} {s : LoopState E τ} {ending : Ending T E τ}
    (h : runFor env mode count = .ended s ending) {iterations : ℕ} (hle : count ≤ iterations) :
    runFor env mode iterations = .ended s ending := by
  induction hle with
  | refl => exact h
  | step _ ih => rw [runFor, ih, Progress.next]

end Steps

end CoreUtils.Toolkit.Retry
