import CoreUtils.Toolkit.Retry
import Mathlib.Algebra.BigOperators.Group.List.Basic
import Mathlib.Algebra.Order.Group.Int
import Mathlib.Algebra.Order.Ring.Int
import Mathlib.Order.Monotone.Basic
import Mathlib.Tactic.Abel
import Mathlib.Tactic.Linarith

/-!
# The budget of a polling run

In poll mode every attempt, hook and sleep gets what is left of the timeout by the last reading of
the clock. `InLoop` is what holds whenever the run is inside its loop and `Ended` what holds when it
is over, and the main result is `runWithRetry_poll`. A run may end without a reason that the budget
gives it when one of its steps is not regular: a timer fires too early, a rejection is the marker of
another run, or the error to give up with cannot be made (`Event.Regular`).
-/

namespace CoreUtils.Toolkit.Retry

variable {T E α τ : Type*} [Ring τ] [LinearOrder τ] {env : Environment T E τ}
  {mode : ValidPoll E τ}

/-! ## The trace -/

/-- The duration that an event asks to sleep for. -/
def Event.sleptMs : Event E τ → τ
  | .sleep _ durationMs _ _ => durationMs
  | _ => 0

/-- The sum of the requested sleeps. -/
def sleptMs (trace : List (Event E τ)) : τ := (trace.map Event.sleptMs).sum

/-- Each sleep that ends has moved the next reading of the clock by at least its duration. -/
def SleepsAdvance (env : Environment T E τ) (trace : List (Event E τ)) : Prop :=
  ∀ attemptNumber durationMs readings, .sleep attemptNumber durationMs readings true ∈ trace →
    env.now (readings - 1) + durationMs ≤ env.now readings

/-- Part of a trace asks for fewer sleeps. -/
theorem SleepsAdvance.of_append {trace trace' : List (Event E τ)}
    (h : SleepsAdvance env (trace ++ trace')) : SleepsAdvance env trace :=
  fun attemptNumber durationMs readings hmem ↦
    h attemptNumber durationMs readings (List.mem_append_left _ hmem)

/-- What each event of a polling run satisfies: only the first attempt may start without budget, a
sleep fits the budget left at the reading before it, and a verdict is the predicate's about a
failure of the operation. -/
def EventSound (env : Environment T E τ) (mode : ValidPoll E τ) : Event E τ → Prop
  | .attempt attemptNumber elapsedMs => attemptNumber = 1 ∨ elapsedMs < mode.timeoutMs
  | .sleep _ durationMs readings _ =>
      0 ≤ durationMs ∧ durationMs ≤ mode.timeoutMs - env.elapsedMs (readings - 1)
  | .judgement context isTransient =>
      ∃ predicate error, mode.isTransient = some predicate ∧ predicate context = isTransient ∧
        context.error = .thrown (.value error) ∧
        (env.operation context.attemptNumber).result = .error (.value error)
  | .report _ => True
  | .giveUp _ => True

/-- The operation, the hook or the sleep of an attempt did not settle within the budget that was
left at the reading of the clock before it. -/
def Outlived (env : Environment T E τ) (mode : ValidPoll E τ) (attemptNumber : ℕ) : Prop :=
  (env.operation attemptNumber).settling.within
      (mode.remainingMs (env.elapsedMs (3 * attemptNumber - 2))) = false ∨
    (env.onFailedAttempt attemptNumber).settling.within
      (mode.remainingMs (env.elapsedMs (3 * attemptNumber - 1))) = false ∨
    (env.sleep attemptNumber).settling.within
      (mode.remainingMs (env.elapsedMs (3 * attemptNumber))) = false

/-- Why a polling run may end as it does. -/
def EndsFor (env : Environment T E τ) (mode : ValidPoll E τ) (attemptNumber : ℕ) :
    Ending T E τ → Prop
  | .success value attempts => (env.operation attempts).result = .ok value
  | .failed error =>
      error.reason = .nonTransient ∨
        error.reason = .timeout ∧
          (mode.timeoutMs ≤ error.elapsedMs ∨ Outlived env mode error.attempts)
  | .threw error =>
      (env.onFailedAttempt attemptNumber).result = .error error ∨
        (env.sleep attemptNumber).result = .error error
  | .invalidDelay _ => False

/-- A run that ends because its predicate rejected a failure. -/
def Ending.IsNonTransient : Ending T E τ → Prop
  | .failed error => error.reason = .nonTransient
  | _ => False

/-! ## Regular steps -/

section Regular

variable [FloorRing τ]

/-- The timer of a race cuts its promise short: it fires first, although the promise settles within
the budget that is left. -/
def CutShort (mode : ValidPoll E τ) (elapsedMs : τ) (promise : Pending α E τ) : Prop :=
  promise.settling.within (mode.remainingMs elapsedMs) = true ∧
    promise.settling.within (timerMs (mode.remainingMs elapsedMs)) = false

/-- A race that the timer does not cut short, and that does not end with the marker of another
run. -/
structure RegularRace (mode : ValidPoll E τ) (elapsedMs : τ) (promise : Pending α E τ) : Prop where
  cut : ¬CutShort mode elapsedMs promise
  unmarked : ∀ run, runWithinRetryBudget (.poll mode) elapsedMs promise ≠
    .error (.thrown (.pollAttemptTimeoutError run))

/-- A step that keeps to the budget: its race is regular, or the error that it makes to give up has
a message. -/
def Event.Regular (env : Environment T E τ) (mode : ValidPoll E τ) : Event E τ → Prop
  | .attempt attemptNumber elapsedMs => RegularRace mode elapsedMs (env.operation attemptNumber)
  | .report context =>
      RegularRace mode context.elapsedMs (env.onFailedAttempt context.attemptNumber)
  | .judgement _ _ => True
  | .sleep attemptNumber _ readings _ =>
      RegularRace mode (env.elapsedMs (readings - 1)) (env.sleep attemptNumber)
  | .giveUp cause => ∃ message, env.getErrorMessage cause = .ok message

/-- Some step of a trace is not regular. -/
def Irregular (env : Environment T E τ) (mode : ValidPoll E τ) (trace : List (Event E τ)) : Prop :=
  ∃ event ∈ trace, ¬event.Regular env mode

/-- What the race of a promise against the budget tells. -/
theorem runWithinRetryBudget_spec (mode : ValidPoll E τ) (elapsedMs : τ) (promise : Pending α E τ) :
    match runWithinRetryBudget (.poll mode) elapsedMs promise with
    | .ok value => promise.result = .ok value
    | .error (.thrown error) => promise.result = .error error
    | .error .budgetExceeded =>
        promise.settling.within (timerMs (mode.remainingMs elapsedMs)) = false := by
  unfold runWithinRetryBudget
  cases hsettles : promise.settling.within (timerMs (mode.remainingMs elapsedMs)) with
  | false => simp [hsettles]
  | true =>
      cases hresult : promise.result with
      | ok value => simp [hsettles, Except.mapError]
      | error error => simp [hsettles, Except.mapError]

/-- The race of a promise that settles at once is regular, unless it rejects with a marker. -/
theorem RegularRace.atOnce {elapsedMs : τ} {result : Except (Thrown E) α}
    (h : ∀ run, result ≠ .error (.pollAttemptTimeoutError run)) :
    RegularRace mode elapsedMs ⟨result, .atOnce⟩ where
  cut hcut := absurd hcut.2 (by simp [Settling.atOnce])
  unmarked run hrace := by
    cases result with
    | ok value => simp [runWithinRetryBudget, Settling.atOnce, Except.mapError] at hrace
    | error error =>
        simp only [runWithinRetryBudget, Settling.atOnce, if_true, Except.mapError,
          Except.error.injEq, Failure.thrown.injEq] at hrace
        exact h run (congrArg Except.error hrace)

/-- A race that ends with a marker has outlived its budget, or is not regular. -/
theorem outlived_of_marker {elapsedMs : τ} {promise : Pending α E τ} {failure : Failure E}
    (hrace : runWithinRetryBudget (.poll mode) elapsedMs promise = .error failure)
    (hmarker : failure.isPollAttemptTimeoutError = true)
    (hregular : RegularRace mode elapsedMs promise) :
    promise.settling.within (mode.remainingMs elapsedMs) = false := by
  cases failure with
  | thrown error =>
      cases error with
      | value error => exact absurd hmarker Bool.false_ne_true
      | pollAttemptTimeoutError run => exact absurd hrace (hregular.unmarked run)
  | budgetExceeded =>
      have hspec := runWithinRetryBudget_spec mode elapsedMs promise
      rw [hrace] at hspec
      by_contra hsettles
      exact hregular.cut ⟨Bool.eq_true_of_not_eq_false hsettles, hspec⟩

/-- A timer is set too early only for a budget that is above the limit of timers or has a fraction
of a millisecond. -/
theorem CutShort.limit {elapsedMs : τ} {promise : Pending α E τ}
    (h : CutShort mode elapsedMs promise) :
    2147483647 < mode.remainingMs elapsedMs ∨
      (⌊mode.remainingMs elapsedMs⌋ : τ) < mode.remainingMs elapsedMs := by
  by_contra hnone
  obtain ⟨hlimit, hwhole⟩ := not_or.mp hnone
  have hearly : timerMs (mode.remainingMs elapsedMs) < mode.remainingMs elapsedMs := by
    by_contra hlate
    have hsettles := promise.settling.mono (not_lt.mp hlate) h.1
    rw [h.2] at hsettles
    contradiction
  unfold timerMs at hearly
  split at hearly
  · exact hwhole hearly
  · rename_i hrange
    exact hrange ⟨hearly.le, not_lt.mp hlimit⟩

end Regular

/-! ## What holds of the trace -/

/-- What holds of the trace as long as no failure has been rejected. -/
structure Open (env : Environment T E τ) (mode : ValidPoll E τ) (s : LoopState E τ) : Prop where
  first : 0 < s.attemptNumber → ∃ elapsedMs, .attempt 1 elapsedMs ∈ s.trace
  sound : ∀ event ∈ s.trace, EventSound env mode event
  transient : ∀ context, .judgement context false ∉ s.trace
  bounded : SleepsAdvance env s.trace → sleptMs s.trace ≤ mode.timeoutMs

/-- What holds inside the loop. -/
structure InLoop (env : Environment T E τ) (mode : ValidPoll E τ) (s : LoopState E τ) : Prop
    extends Open env mode s where
  slept : SleepsAdvance env s.trace → sleptMs s.trace ≤ env.elapsedMs s.readings

/-- An event that neither sleeps nor rejects a failure. -/
structure Plain (env : Environment T E τ) (mode : ValidPoll E τ) (event : Event E τ) : Prop where
  sound : EventSound env mode event
  slept : event.sleptMs = 0
  judged : ∀ context, event ≠ .judgement context false

variable {s : LoopState E τ}

omit [LinearOrder τ] in
/-- One more event. -/
theorem sleptMs_append (trace : List (Event E τ)) (event : Event E τ) :
    sleptMs (trace ++ [event]) = sleptMs trace + event.sleptMs := by
  simp [sleptMs]

/-- A plain event changes nothing of it. -/
theorem Open.log (h : Open env mode s) {event : Event E τ} (hplain : Plain env mode event) :
    Open env mode (s.log [event]) where
  first hpos := by
    obtain ⟨elapsedMs, hmem⟩ := h.first hpos
    exact ⟨elapsedMs, List.mem_append_left _ hmem⟩
  sound other hmem := by
    rcases List.mem_append.mp hmem with hold | hnew
    · exact h.sound other hold
    · rw [List.mem_singleton.mp hnew]
      exact hplain.sound
  transient context hmem := by
    rcases List.mem_append.mp hmem with hold | hnew
    · exact h.transient context hold
    · exact hplain.judged context (List.mem_singleton.mp hnew).symm
  bounded hadvance := by
    rw [LoopState.log, sleptMs_append, hplain.slept, add_zero]
    exact h.bounded hadvance.of_append

/-- So it is inside the loop. -/
theorem InLoop.log (h : InLoop env mode s) {event : Event E τ} (hplain : Plain env mode event) :
    InLoop env mode (s.log [event]) where
  toOpen := h.toOpen.log hplain
  slept hadvance := by
    rw [LoopState.log, sleptMs_append, hplain.slept, add_zero]
    exact h.slept hadvance.of_append

/-- A report to the hook is plain. -/
theorem plain_report (context : RetryFailureContext E τ) :
    Plain env mode (.report context) := ⟨trivial, rfl, nofun⟩

/-- Giving up is plain. -/
theorem plain_giveUp (cause : Option (Failure E)) : Plain env mode (.giveUp cause) :=
  ⟨trivial, rfl, nofun⟩

/-- Reading the clock leaves the trace. -/
theorem Open.read (h : Open env mode s) : Open env mode s.read :=
  ⟨h.first, h.sound, h.transient, h.bounded⟩

/-- What the loop remembers has no part in it. -/
theorem InLoop.remember (h : InLoop env mode s) (lastError : Option (Failure E)) :
    InLoop env mode { s with lastError } :=
  ⟨⟨h.first, h.sound, h.transient, h.bounded⟩, h.slept⟩

/-! ## The end of a run -/

section Ends

variable [FloorRing τ]

/-- What holds when a run is over. -/
structure Ended (env : Environment T E τ) (mode : ValidPoll E τ) (s : LoopState E τ)
    (ending : Ending T E τ) : Prop where
  first : ∃ elapsedMs, .attempt 1 elapsedMs ∈ s.trace
  sound : ∀ event ∈ s.trace, EventSound env mode event
  bounded : SleepsAdvance env s.trace → sleptMs s.trace ≤ mode.timeoutMs
  settled : ¬Irregular env mode s.trace →
    ((∃ context, .judgement context false ∈ s.trace) ↔ ending.IsNonTransient) ∧
      EndsFor env mode s.attemptNumber ending

/-- What holds after an iteration, whether the run is over or not; back at the head of the loop
three readings have been taken for each attempt. -/
def Sound (env : Environment T E τ) (mode : ValidPoll E τ) : Progress T E τ → Prop
  | .continues s =>
      InLoop env mode s ∧ s.readings = 3 * s.attemptNumber + 1 ∧ 0 < s.attemptNumber
  | .ended s ending => Ended env mode s ending

/-- A run may end for any reason but a rejected failure. -/
theorem Open.ended (h : Open env mode s) (hpos : 0 < s.attemptNumber) {ending : Ending T E τ}
    (hother : ¬ending.IsNonTransient)
    (hreason : ¬Irregular env mode s.trace → EndsFor env mode s.attemptNumber ending) :
    Ended env mode s ending where
  first := h.first hpos
  sound := h.sound
  bounded := h.bounded
  settled hregular := by
    refine ⟨⟨fun hmem ↦ absurd hmem.choose_spec (h.transient _), fun hnon ↦ ?_⟩,
      hreason hregular⟩
    exact absurd hnon hother

/-- Part of a regular trace is regular. -/
theorem Irregular.append {trace : List (Event E τ)} (h : Irregular env mode trace)
    (events : List (Event E τ)) : Irregular env mode (trace ++ events) := by
  obtain ⟨event, hmem, hirregular⟩ := h
  exact ⟨event, List.mem_append_left _ hmem, hirregular⟩

/-- The events of a regular trace are regular. -/
theorem regular_of_mem {trace : List (Event E τ)} (h : ¬Irregular env mode trace)
    {event : Event E τ} (hmem : event ∈ trace) : event.Regular env mode := by
  by_contra hirregular
  exact h ⟨event, hmem, hirregular⟩

/-- In a regular trace the error of giving up has been made. -/
theorem exists_failed_of_regular {cause : Option (Failure E)} (attempts : ℕ) (elapsedMs : τ)
    (reason : RetryFailureReason)
    (hregular : ¬Irregular env mode (s.log [.giveUp cause]).trace) :
    ∃ error, env.throwRetryError attempts elapsedMs reason cause = .failed error ∧
      error.attempts = attempts ∧ error.elapsedMs = elapsedMs ∧ error.reason = reason := by
  have hmade : (Event.giveUp cause : Event E τ).Regular env mode :=
    regular_of_mem hregular (List.mem_append_right _ (List.mem_singleton_self _))
  obtain ⟨message, hmessage⟩ := hmade
  rcases throwRetryError_cases env attempts elapsedMs reason cause with
    ⟨error, hending, hattempts, helapsed, hreason, -⟩ | ⟨thrown, hthrown, -⟩
  · exact ⟨error, hending, hattempts, helapsed, hreason⟩
  · rw [hmessage] at hthrown
    contradiction

/-- A run that gives up for lack of time. -/
theorem Open.giveUp (h : Open env mode s) (hpos : 0 < s.attemptNumber) {elapsedMs : τ}
    {cause : Option (Failure E)}
    (hreason : ¬Irregular env mode s.trace →
      mode.timeoutMs ≤ elapsedMs ∨ Outlived env mode s.attemptNumber) :
    Sound env mode (giveUp env s elapsedMs .timeout cause) := by
  have hlogged : Open env mode (s.log [.giveUp cause]) := h.log (plain_giveUp cause)
  have hother : ¬(env.throwRetryError s.attemptNumber elapsedMs .timeout cause).IsNonTransient := by
    rcases throwRetryError_cases env s.attemptNumber elapsedMs .timeout cause with
      ⟨error, hending, -, -, hmade, -⟩ | ⟨thrown, -, hending⟩
    · rw [hending]
      intro hnon
      exact RetryFailureReason.noConfusion (hmade.symm.trans hnon)
    · rw [hending]
      exact id
  refine hlogged.ended hpos hother fun hregular ↦ ?_
  obtain ⟨error, hending, hattempts, helapsed, hmade⟩ :=
    exists_failed_of_regular s.attemptNumber elapsedMs .timeout hregular
  rw [hending]
  refine .inr ⟨hmade, ?_⟩
  rw [hattempts, helapsed]
  exact hreason fun hirregular ↦ hregular (hirregular.append _)

/-- The clock does not throw and does not go back. -/
structure SteadyClock (env : Environment T E τ) : Prop where
  reads : ∀ n, env.clockError n = none
  mono : Monotone env.now

/-- The hook or the sleep has rejected, in a race that the trace has recorded. -/
theorem Open.endAfterRejection (hclock : SteadyClock env) (h : Open env mode s)
    (hpos : 0 < s.attemptNumber) {elapsedMs : τ} {promise : Pending Unit E τ}
    {error failure : Failure E}
    (hrace : runWithinRetryBudget (.poll mode) elapsedMs promise = .error failure)
    (hrecorded : ¬Irregular env mode s.trace → RegularRace mode elapsedMs promise)
    (houtlived : promise.settling.within (mode.remainingMs elapsedMs) = false →
      Outlived env mode s.attemptNumber)
    (hthrew : ∀ thrown, promise.result = .error thrown →
      EndsFor (T := T) env mode s.attemptNumber (.threw thrown)) :
    Sound env mode (endAfterRejection env s error failure) := by
  have hmarker : failure.isPollAttemptTimeoutError = true →
      Sound env mode (getElapsedMs env s fun s elapsedMs ↦
        Retry.giveUp env s elapsedMs .timeout (some error)) := by
    intro hmarker
    rw [getElapsedMs_of_none (hclock.reads _)]
    refine h.read.giveUp hpos fun hregular ↦ .inr (houtlived ?_)
    exact outlived_of_marker hrace hmarker (hrecorded hregular)
  cases failure with
  | budgetExceeded => exact hmarker rfl
  | thrown thrown =>
      cases thrown with
      | pollAttemptTimeoutError run => exact hmarker rfl
      | value rejection =>
          have hspec := runWithinRetryBudget_spec mode elapsedMs promise
          rw [hrace] at hspec
          exact h.ended hpos id fun _ ↦ hthrew _ hspec

/-- What a sound run satisfies, over or not. -/
theorem Sound.facts {progress : Progress T E τ} (h : Sound env mode progress) :
    (∃ elapsedMs, .attempt 1 elapsedMs ∈ progress.state.trace) ∧
      (∀ event ∈ progress.state.trace, EventSound env mode event) ∧
      (SleepsAdvance env progress.state.trace → sleptMs progress.state.trace ≤ mode.timeoutMs) ∧
      (¬Irregular env mode progress.state.trace →
        ((∃ context, .judgement context false ∈ progress.state.trace) ↔
          ∃ s ending, progress = .ended s ending ∧ ending.IsNonTransient) ∧
        ∀ s ending, progress = .ended s ending → EndsFor env mode s.attemptNumber ending) := by
  cases progress with
  | continues s =>
      refine ⟨h.1.first h.2.2, h.1.sound, h.1.bounded, fun _ ↦ ⟨?_, by simp⟩⟩
      exact ⟨fun hmem ↦ absurd hmem.choose_spec (h.1.transient _), by simp⟩
  | ended s ending =>
      refine ⟨h.first, h.sound, h.bounded, fun hregular ↦ ?_⟩
      obtain ⟨hrejected, hreason⟩ := h.settled hregular
      refine ⟨hrejected.trans ⟨fun hnon ↦ ⟨s, ending, rfl, hnon⟩, by simp⟩, ?_⟩
      rintro s' ending' hsame
      obtain ⟨rfl, rfl⟩ := Progress.ended.inj hsame
      exact hreason

/-! ## The failure of an attempt -/

/-- The attempt of a state has failed in this way, in a race that the trace has recorded. -/
structure FailedWith (env : Environment T E τ) (mode : ValidPoll E τ) (s : LoopState E τ)
    (failure : Failure E) : Prop where
  race : runWithinRetryBudget (.poll mode) (env.elapsedMs (3 * s.attemptNumber - 2))
    (env.operation s.attemptNumber) = .error failure
  recorded : .attempt s.attemptNumber (env.elapsedMs (3 * s.attemptNumber - 2)) ∈ s.trace

/-- More events leave it so. -/
theorem FailedWith.log {failure : Failure E} (h : FailedWith env mode s failure)
    (events : List (Event E τ)) : FailedWith env mode (s.log events) failure :=
  ⟨h.race, List.mem_append_left _ h.recorded⟩

/-- An attempt that fails with a marker has outlived its budget, when its trace is regular. -/
theorem FailedWith.outlived {failure : Failure E} (h : FailedWith env mode s failure)
    (hmarker : failure.isPollAttemptTimeoutError = true) (hregular : ¬Irregular env mode s.trace) :
    Outlived env mode s.attemptNumber :=
  .inl (outlived_of_marker h.race hmarker (regular_of_mem hregular h.recorded))

/-- A failure that is no marker is what the operation has rejected with. -/
theorem FailedWith.rejection {failure : Failure E} (h : FailedWith env mode s failure)
    (hvalue : ¬failure.isPollAttemptTimeoutError = true) :
    ∃ error, failure = .thrown (.value error) ∧
      (env.operation s.attemptNumber).result = .error (.value error) := by
  have hspec := runWithinRetryBudget_spec mode (env.elapsedMs (3 * s.attemptNumber - 2))
    (env.operation s.attemptNumber)
  rw [h.race] at hspec
  cases failure with
  | budgetExceeded => exact absurd rfl hvalue
  | thrown error =>
      cases error with
      | value error => exact ⟨error, rfl, hspec⟩
      | pollAttemptTimeoutError run => exact absurd rfl hvalue

omit [FloorRing τ] in
/-- The predicate is asked about failures that are no markers. -/
theorem verdict_eq_some {context : RetryFailureContext E τ} {isTransient : Bool}
    (h : (ValidMode.poll mode).verdict context = some isTransient) :
    ¬context.error.isPollAttemptTimeoutError = true ∧
      ∃ predicate, mode.isTransient = some predicate ∧ predicate context = isTransient := by
  unfold ValidMode.verdict at h
  by_cases hmarker : context.error.isPollAttemptTimeoutError = true
  · simp [hmarker] at h
  · simp only [hmarker, Bool.false_eq_true, if_false, Option.map_eq_some_iff] at h
    exact ⟨hmarker, h⟩

variable {context : RetryFailureContext E τ}

/-- The verdict is about a failure of the operation. -/
theorem FailedWith.verdict_sound {isTransient : Bool} (h : FailedWith env mode s context.error)
    (hattempt : context.attemptNumber = s.attemptNumber)
    (hverdict : (ValidMode.poll mode).verdict context = some isTransient) :
    EventSound env mode (.judgement context isTransient) := by
  obtain ⟨hvalue, predicate, hpredicate, hjudged⟩ := verdict_eq_some hverdict
  obtain ⟨error, herror, hrejection⟩ := h.rejection hvalue
  exact ⟨predicate, error, hpredicate, hjudged, herror, hattempt ▸ hrejection⟩

/-- The events that the predicate's verdict adds. -/
def verdictEvents (mode : ValidPoll E τ) (context : RetryFailureContext E τ) :
    List (Event E τ) :=
  (((ValidMode.poll mode).verdict context).map (Event.judgement context)).toList

/-- A failure that is not rejected keeps what holds inside the loop. -/
theorem InLoop.judged (h : InLoop env mode s) (hfailed : FailedWith env mode s context.error)
    (hattempt : context.attemptNumber = s.attemptNumber)
    (hverdict : (ValidMode.poll mode).verdict context ≠ some false) :
    InLoop env mode (s.log (verdictEvents mode context)) := by
  unfold verdictEvents
  cases hasked : (ValidMode.poll mode).verdict context with
  | none => simpa [LoopState.log] using h
  | some isTransient =>
      refine h.log ⟨hfailed.verdict_sound hattempt hasked, rfl, fun other hsame ↦ ?_⟩
      obtain ⟨-, rfl⟩ := Event.judgement.inj hsame
      exact hverdict hasked

/-- A rejected failure ends the run as non-transient. -/
theorem Open.rejected (h : Open env mode s) (hpos : 0 < s.attemptNumber)
    (hfailed : FailedWith env mode s context.error)
    (hattempt : context.attemptNumber = s.attemptNumber)
    (hverdict : (ValidMode.poll mode).verdict context = some false) {elapsedMs : τ}
    {cause : Option (Failure E)} :
    Sound env mode (Retry.giveUp env (s.log (verdictEvents mode context)) elapsedMs .nonTransient
      cause) := by
  have hevents : verdictEvents mode context = [.judgement context false] := by
    simp [verdictEvents, hverdict]
  rw [hevents]
  constructor
  · obtain ⟨elapsedMs, hmem⟩ := h.first hpos
    exact ⟨elapsedMs, List.mem_append_left _ (List.mem_append_left _ hmem)⟩
  · intro event hmem
    rcases List.mem_append.mp hmem with hmem | hlast
    · rcases List.mem_append.mp hmem with hold | hjudged
      · exact h.sound event hold
      · rw [List.mem_singleton.mp hjudged]
        exact hfailed.verdict_sound hattempt hverdict
    · rw [List.mem_singleton.mp hlast]
      trivial
  · intro hadvance
    have hsum : sleptMs ((s.log [.judgement context false]).log [.giveUp cause]).trace =
        sleptMs s.trace := by
      simp [LoopState.log, sleptMs, Event.sleptMs]
    rw [hsum]
    exact h.bounded hadvance.of_append.of_append
  · intro hregular
    obtain ⟨error, hending, -, -, hreason⟩ :=
      exists_failed_of_regular s.attemptNumber elapsedMs .nonTransient hregular
    have hjudged : .judgement context false ∈
        ((s.log [.judgement context false]).log [.giveUp cause]).trace :=
      List.mem_append_left _ (List.mem_append_right _ (List.mem_singleton_self _))
    refine ⟨⟨fun _ ↦ ?_, fun _ ↦ ⟨context, hjudged⟩⟩, ?_⟩
    · show (env.throwRetryError s.attemptNumber elapsedMs .nonTransient cause).IsNonTransient
      rw [hending]
      exact hreason
    · show EndsFor env mode s.attemptNumber
        (env.throwRetryError s.attemptNumber elapsedMs .nonTransient cause)
      rw [hending]
      exact .inl hreason

omit [FloorRing τ] in
/-- Before the first iteration nothing has happened. -/
theorem inLoop_initial : InLoop env mode LoopState.initial where
  first hpos := absurd hpos (lt_irrefl 0)
  sound := by simp [LoopState.initial]
  transient := by simp [LoopState.initial]
  bounded _ := mode.timeoutMs_pos.le
  slept _ := le_max_right _ _

/-! ## The clock and the sleep -/

variable [IsStrictOrderedRing τ]

omit [FloorRing τ] in
/-- Later readings show no less elapsed time. -/
theorem elapsedMs_mono (hclock : Monotone env.now) {reading reading' : ℕ}
    (hle : reading ≤ reading') : env.elapsedMs reading ≤ env.elapsedMs reading' :=
  max_le_max (sub_le_sub_right (hclock hle) _) le_rfl

omit [FloorRing τ] in
/-- With a clock that does not go back, elapsed time is the distance to the start. -/
theorem elapsedMs_eq (hclock : Monotone env.now) (reading : ℕ) :
    env.elapsedMs reading = env.now reading - env.now 0 :=
  max_eq_left (sub_nonneg.mpr (hclock (Nat.zero_le _)))

omit [FloorRing τ] in
/-- Reading the clock keeps what holds inside the loop. -/
theorem InLoop.read (hclock : Monotone env.now) (h : InLoop env mode s) :
    InLoop env mode s.read where
  toOpen := h.toOpen.read
  slept hadvance := (h.slept hadvance).trans (elapsedMs_mono hclock (Nat.le_succ _))

omit [FloorRing τ] in
/-- The sleep of a polling run fits the budget that is left. -/
theorem getRetryDelayMs_poll (context : RetryFailureContext E τ)
    (helapsed : context.elapsedMs ≤ mode.timeoutMs) :
    ∃ durationMs, getRetryDelayMs (.poll mode) context = .ok durationMs ∧ 0 ≤ durationMs ∧
      durationMs ≤ mode.timeoutMs - context.elapsedMs := by
  let index := min (context.attemptNumber - 1) (mode.intervalsMs.length - 1)
  have hconfigured : 0 ≤ (mode.intervalsMs[index]?).getD 0 := by
    cases hinterval : mode.intervalsMs[index]? with
    | none => exact le_rfl
    | some intervalMs => exact mode.intervalsMs_nonneg _ (List.mem_of_getElem? hinterval)
  have hremaining : mode.remainingMs context.elapsedMs = mode.timeoutMs - context.elapsedMs :=
    max_eq_left (sub_nonneg.mpr helapsed)
  have hnonneg : 0 ≤ min ((mode.intervalsMs[index]?).getD 0) (mode.remainingMs context.elapsedMs) :=
    le_min hconfigured (le_max_right _ _)
  exact ⟨_, if_neg (not_lt.mpr hnonneg), hnonneg, (min_le_right _ _).trans_eq hremaining⟩

/-- The state at the point where the delay is computed: the last reading is the one that the
predicate was told. -/
structure AtDelay (env : Environment T E τ) (mode : ValidPoll E τ) (s : LoopState E τ)
    (context : RetryFailureContext E τ) : Prop where
  inLoop : InLoop env mode s
  started : 0 < s.attemptNumber
  readings : s.readings = 3 * s.attemptNumber + 1
  elapsedMs : context.elapsedMs = env.elapsedMs (s.readings - 1)
  inTime : context.elapsedMs < mode.timeoutMs
  slept : SleepsAdvance env s.trace → sleptMs s.trace ≤ context.elapsedMs

/-- A state after a sleep has been requested. -/
def LoopState.withSleep (s : LoopState E τ) (durationMs : τ) (completed : Bool) : LoopState E τ :=
  s.log [.sleep s.attemptNumber durationMs s.readings completed]

variable {durationMs : τ}

omit [FloorRing τ] in
/-- A sleep that fits leaves the trace open, and the sleeps so far within the timeout. -/
theorem AtDelay.requested (h : AtDelay env mode s context) {completed : Bool}
    (hnonneg : 0 ≤ durationMs) (hfits : durationMs ≤ mode.timeoutMs - context.elapsedMs) :
    Open env mode (s.withSleep durationMs completed) where
  first hpos := by
    obtain ⟨elapsedMs, hmem⟩ := h.inLoop.first hpos
    exact ⟨elapsedMs, List.mem_append_left _ hmem⟩
  sound event hmem := by
    rcases List.mem_append.mp hmem with hold | hnew
    · exact h.inLoop.sound event hold
    · rw [List.mem_singleton.mp hnew]
      exact ⟨hnonneg, h.elapsedMs ▸ hfits⟩
  transient judged hmem := by
    rcases List.mem_append.mp hmem with hold | hnew
    · exact h.inLoop.transient judged hold
    · simp at hnew
  bounded hadvance := by
    rw [LoopState.withSleep, LoopState.log, sleptMs_append]
    exact (add_le_add (h.slept hadvance.of_append) hfits).trans_eq (add_sub_cancel _ _)

omit [FloorRing τ] in
/-- A completed sleep leads back to the head of the loop. -/
theorem AtDelay.completed (hclock : Monotone env.now) (h : AtDelay env mode s context)
    (hnonneg : 0 ≤ durationMs) (hfits : durationMs ≤ mode.timeoutMs - context.elapsedMs) :
    InLoop env mode (s.withSleep durationMs true) where
  toOpen := h.requested hnonneg hfits
  slept hadvance := by
    -- the sleep has moved the clock past everything slept so far
    have hmoved := hadvance s.attemptNumber durationMs s.readings
      (List.mem_append_right _ List.mem_cons_self)
    have hbefore := h.slept hadvance.of_append
    rw [h.elapsedMs, elapsedMs_eq hclock] at hbefore
    rw [LoopState.withSleep, LoopState.log, sleptMs_append]
    calc sleptMs s.trace + durationMs
        ≤ env.now (s.readings - 1) - env.now 0 + durationMs := add_le_add_left hbefore _
      _ = env.now (s.readings - 1) + durationMs - env.now 0 := by abel
      _ ≤ env.now s.readings - env.now 0 := sub_le_sub_right hmoved _
      _ = env.elapsedMs s.readings := (elapsedMs_eq hclock _).symm

/-- The sleep after a failure. -/
theorem AtDelay.sleepThenContinue (hclock : SteadyClock env) (h : AtDelay env mode s context) :
    Sound env mode (sleepThenContinue env (.poll mode) s context) := by
  obtain ⟨durationMs, hdelay, hnonneg, hfits⟩ := getRetryDelayMs_poll context h.inTime.le
  unfold Retry.sleepThenContinue
  rw [hdelay]
  cases hbudget : runWithinRetryBudget (.poll mode) context.elapsedMs
      (env.sleep s.attemptNumber) with
  | ok value => exact ⟨h.completed hclock.mono hnonneg hfits, h.readings, h.started⟩
  | error failure =>
      have hslept : Open env mode (s.withSleep durationMs false) := h.requested hnonneg hfits
      refine hslept.endAfterRejection hclock h.started hbudget (fun hregular ↦ ?_)
        (fun houtlived ↦ .inr (.inr ?_)) fun thrown hthrown ↦ .inr hthrown
      · have hrecorded :
            (Event.sleep s.attemptNumber durationMs s.readings false).Regular env mode :=
          regular_of_mem hregular (List.mem_append_right _ (List.mem_singleton_self _))
        rw [h.elapsedMs]
        exact hrecorded
      · have hlast : s.readings - 1 = 3 * s.attemptNumber := by
          have := h.readings
          omega
        rw [h.elapsedMs, hlast] at houtlived
        exact houtlived

/-! ## The loop -/

omit [IsStrictOrderedRing τ] in
/-- The decision about a failure that ends the run. -/
theorem decideRetry_of_reason (hclock : SteadyClock env) {error : Failure E}
    {reason : RetryFailureReason}
    (hcontext : context = ⟨s.attemptNumber, env.elapsedMs s.readings, error⟩)
    (hreason : getTerminalReason (.poll mode) context = some reason) :
    decideRetry env (.poll mode) s error =
      giveUp env (s.read.log (verdictEvents mode context)) context.elapsedMs reason
        (some error) := by
  subst hcontext
  rw [Retry.decideRetry, getElapsedMs_of_none (hclock.reads _)]
  simp only [LoopState.read, hreason]
  rfl

omit [IsStrictOrderedRing τ] in
/-- The decision about a failure that does not end the run. -/
theorem decideRetry_of_none (hclock : SteadyClock env) {error : Failure E}
    (hcontext : context = ⟨s.attemptNumber, env.elapsedMs s.readings, error⟩)
    (hreason : getTerminalReason (.poll mode) context = none) :
    decideRetry env (.poll mode) s error =
      sleepThenContinue env (.poll mode) (s.read.log (verdictEvents mode context)) context := by
  subst hcontext
  rw [Retry.decideRetry, getElapsedMs_of_none (hclock.reads _)]
  simp only [LoopState.read, hreason]
  rfl

omit [FloorRing τ] [IsStrictOrderedRing τ] in
/-- The predicate's verdict asks for no sleep. -/
theorem sleptMs_verdictEvents (trace : List (Event E τ)) :
    sleptMs (trace ++ verdictEvents mode context) = sleptMs trace := by
  unfold verdictEvents
  cases (ValidMode.poll mode).verdict context with
  | none => simp
  | some isTransient => simp [sleptMs, Event.sleptMs]

/-- The decision about a failure. -/
theorem InLoop.decideRetry (hclock : SteadyClock env) (h : InLoop env mode s)
    (hpos : 0 < s.attemptNumber) (hreadings : s.readings = 3 * s.attemptNumber)
    {error : Failure E} (hfailed : FailedWith env mode s error) :
    Sound env mode (decideRetry env (.poll mode) s error) := by
  let context : RetryFailureContext E τ := ⟨s.attemptNumber, env.elapsedMs s.readings, error⟩
  have hread : InLoop env mode s.read := h.read hclock.mono
  have hfailed' : FailedWith env mode s.read context.error := ⟨hfailed.race, hfailed.recorded⟩
  by_cases hverdict : (ValidMode.poll mode).verdict context = some false
  · have hvalue := (verdict_eq_some hverdict).1
    have hfatal : (mode.isTransient.map fun isTransient ↦ isTransient context) = some false := by
      simpa [ValidMode.verdict, hvalue] using hverdict
    have hreason : getTerminalReason (.poll mode) context = some .nonTransient := by
      simp [getTerminalReason, hvalue, hfatal]
    rw [decideRetry_of_reason hclock rfl hreason]
    exact hread.toOpen.rejected hpos hfailed' rfl hverdict
  · have hjudged : InLoop env mode (s.read.log (verdictEvents mode context)) :=
      hread.judged hfailed' rfl hverdict
    have hlogged := hfailed'.log (verdictEvents mode context)
    by_cases hmarker : error.isPollAttemptTimeoutError = true
    · have hreason : getTerminalReason (.poll mode) context = some .timeout := if_pos hmarker
      rw [decideRetry_of_reason hclock rfl hreason]
      exact hjudged.giveUp hpos fun hregular ↦ .inr (hlogged.outlived hmarker hregular)
    · have hnotFatal : (mode.isTransient.map fun isTransient ↦ isTransient context) ≠
          some false := by
        simpa [ValidMode.verdict, context, hmarker] using hverdict
      have hreason : getTerminalReason (.poll mode) context =
          if mode.timeoutMs ≤ context.elapsedMs then some .timeout else none :=
        (if_neg hmarker).trans (if_neg hnotFatal)
      by_cases hlate : mode.timeoutMs ≤ context.elapsedMs
      · rw [if_pos hlate] at hreason
        rw [decideRetry_of_reason hclock rfl hreason]
        exact hjudged.giveUp hpos fun _ ↦ .inl hlate
      · rw [if_neg hlate] at hreason
        rw [decideRetry_of_none hclock rfl hreason]
        refine AtDelay.sleepThenContinue hclock ⟨hjudged, hpos, ?_, rfl, not_le.mp hlate, ?_⟩
        · show s.readings + 1 = 3 * s.attemptNumber + 1
          rw [hreadings]
        · intro hadvance
          rw [LoopState.log, sleptMs_verdictEvents]
          exact h.slept hadvance.of_append

/-- The `catch` block. -/
theorem InLoop.handleFailure (hclock : SteadyClock env) (h : InLoop env mode s)
    (hpos : 0 < s.attemptNumber) (hreadings : s.readings + 1 = 3 * s.attemptNumber)
    {error : Failure E} (hfailed : FailedWith env mode s error) :
    Sound env mode (handleFailure env (.poll mode) s error) := by
  let context : RetryFailureContext E τ := ⟨s.attemptNumber, env.elapsedMs s.readings, error⟩
  let remembered : LoopState E τ := { s with lastError := some error }
  let reported : LoopState E τ := remembered.read.log [.report context]
  have hreported : InLoop env mode reported :=
    ((h.remember (some error)).read hclock.mono).log (plain_report context)
  have hfailed' : FailedWith env mode reported error :=
    (FailedWith.mk hfailed.race hfailed.recorded : FailedWith env mode remembered.read error).log _
  rw [Retry.handleFailure, getElapsedMs_of_none (hclock.reads _)]
  simp only
  split
  · exact hreported.decideRetry hclock hpos hreadings hfailed'
  · rename_i failure hbudget
    refine hreported.toOpen.endAfterRejection hclock hpos hbudget (fun hregular ↦ ?_)
      (fun houtlived ↦ .inr (.inl ?_)) fun thrown hthrown ↦ .inl hthrown
    · have hrecorded : (Event.report context).Regular env mode :=
        regular_of_mem hregular (List.mem_append_right _ (List.mem_singleton_self _))
      exact hrecorded
    · have hlast : s.readings = 3 * s.attemptNumber - 1 := by omega
      rw [hlast] at houtlived
      exact houtlived

/-- The state of the loop when an attempt starts. -/
def LoopState.started (s : LoopState E τ) (elapsedMs : τ) : LoopState E τ :=
  { s with
    attemptNumber := s.attemptNumber + 1
    trace := s.trace ++ [.attempt (s.attemptNumber + 1) elapsedMs] }

omit [FloorRing τ] [IsStrictOrderedRing τ] in
/-- Starting an attempt in time keeps what holds inside the loop. -/
theorem InLoop.started (h : InLoop env mode s) {elapsedMs : τ}
    (hinTime : s.attemptNumber = 0 ∨ elapsedMs < mode.timeoutMs) :
    InLoop env mode (s.started elapsedMs) := by
  have hplain : Plain env mode (.attempt (s.attemptNumber + 1) elapsedMs) :=
    ⟨hinTime.imp_left fun hzero ↦ by rw [hzero], rfl, nofun⟩
  have hlogged := h.log hplain
  refine ⟨⟨fun _ ↦ ?_, hlogged.sound, hlogged.transient, hlogged.bounded⟩, hlogged.slept⟩
  rcases Nat.eq_zero_or_pos s.attemptNumber with hzero | hpos
  · exact ⟨elapsedMs, List.mem_append_right _ (by simp [hzero])⟩
  · obtain ⟨earlier, hmem⟩ := h.first hpos
    exact ⟨earlier, List.mem_append_left _ hmem⟩

/-- One iteration of the loop. -/
theorem InLoop.iterate (hclock : SteadyClock env) (h : InLoop env mode s)
    (hreadings : s.readings = 3 * s.attemptNumber + 1) :
    Sound env mode (iterate env (.poll mode) s) := by
  have hread : InLoop env mode s.read := h.read hclock.mono
  rw [Retry.iterate, getElapsedMs_of_none (hclock.reads _)]
  simp only
  split
  · rename_i hexhausted
    obtain ⟨hpos, hlate⟩ := of_decide_eq_true hexhausted
    exact hread.toOpen.giveUp hpos fun _ ↦ .inl hlate
  · rename_i hexhausted
    have hinTime : s.attemptNumber = 0 ∨ env.elapsedMs s.readings < mode.timeoutMs := by
      by_contra hlate
      rw [not_or, not_lt] at hlate
      exact hexhausted (decide_eq_true ⟨Nat.pos_of_ne_zero hlate.1, hlate.2⟩)
    have hstarted : InLoop env mode (s.read.started (env.elapsedMs s.readings)) :=
      hread.started hinTime
    have hlast : s.readings = 3 * (s.attemptNumber + 1) - 2 := by omega
    split
    · rename_i value hbudget
      have hspec := runWithinRetryBudget_spec mode (env.elapsedMs s.readings)
        (env.operation (s.attemptNumber + 1))
      have hvalue : (env.operation (s.attemptNumber + 1)).result = .ok value := by
        change runWithinRetryBudget (.poll mode) (env.elapsedMs s.readings)
          (env.operation (s.attemptNumber + 1)) = .ok value at hbudget
        rw [hbudget] at hspec
        exact hspec
      exact hstarted.toOpen.ended (Nat.succ_pos _) id fun _ ↦ hvalue
    · rename_i failure hbudget
      have hfailed : FailedWith env mode (s.read.started (env.elapsedMs s.readings)) failure := by
        constructor
        · show runWithinRetryBudget (.poll mode) (env.elapsedMs (3 * (s.attemptNumber + 1) - 2))
            (env.operation (s.attemptNumber + 1)) = .error failure
          rw [← hlast]
          exact hbudget
        · show Event.attempt (s.attemptNumber + 1)
            (env.elapsedMs (3 * (s.attemptNumber + 1) - 2)) ∈ _
          rw [← hlast]
          exact List.mem_append_right _ (List.mem_singleton_self _)
      refine hstarted.handleFailure hclock (Nat.succ_pos _) ?_ hfailed
      show s.readings + 1 + 1 = 3 * (s.attemptNumber + 1)
      omega

/-- A run is sound after each of its iterations. -/
theorem runFor_sound (mode : ValidPoll E τ) (hclock : SteadyClock env) (iterations : ℕ) :
    Sound env mode (runFor env (.poll mode) (iterations + 1)) := by
  induction iterations with
  | zero =>
      have hstart : runFor env (.poll mode) 0 = .continues LoopState.initial := by
        rw [runFor, hclock.reads]
      rw [runFor, hstart]
      exact inLoop_initial.iterate hclock rfl
  | succ iterations ih =>
      rw [runFor]
      cases hrun : runFor env (.poll mode) (iterations + 1) with
      | continues s =>
          rw [hrun] at ih
          exact ih.1.iterate hclock ih.2.1
      | ended s ending =>
          rw [hrun] at ih
          exact ih

/-- In poll mode, after any positive number of iterations and with a clock that does not go back:
the operation has been attempted; only the first attempt may start with the timeout elapsed; every
sleep fits the time that was left at the reading before it, and if the sleeps move the clock they
sum to at most the timeout; and a verdict is the predicate's about a failure of the operation. When
all steps of the run are regular, it is over as non-transient exactly when the predicate rejected
such a failure; it times out only when the timeout has elapsed, or the operation, the hook or the
sleep of the last attempt outlived its budget; and the only other way to end without a success is an
error that the hook or the sleep throws. A timer cuts a promise short only for a budget that is
above the limit of timers or has a fraction of a millisecond. -/
theorem runWithRetry_poll (env : Environment T E τ) (raw : RetryMode E τ) (mode : ValidPoll E τ)
    (hmode : validateRetryMode raw = .ok (.poll mode)) (hclock : SteadyClock env)
    (iterations : ℕ) :
    ∃ progress, runWithRetry env raw (iterations + 1) = .ok progress ∧
      (∃ elapsedMs, .attempt 1 elapsedMs ∈ progress.state.trace) ∧
      (∀ attemptNumber elapsedMs, .attempt attemptNumber elapsedMs ∈ progress.state.trace →
        attemptNumber = 1 ∨ elapsedMs < mode.timeoutMs) ∧
      (∀ attemptNumber durationMs readings completed,
        .sleep attemptNumber durationMs readings completed ∈ progress.state.trace →
        0 ≤ durationMs ∧ durationMs ≤ mode.timeoutMs - env.elapsedMs (readings - 1)) ∧
      (SleepsAdvance env progress.state.trace → sleptMs progress.state.trace ≤ mode.timeoutMs) ∧
      (∀ context isTransient, .judgement context isTransient ∈ progress.state.trace →
        ∃ predicate error, mode.isTransient = some predicate ∧ predicate context = isTransient ∧
          context.error = .thrown (.value error) ∧
          (env.operation context.attemptNumber).result = .error (.value error)) ∧
      ((∀ event ∈ progress.state.trace, event.Regular env mode) →
        ((∃ context, .judgement context false ∈ progress.state.trace) ↔
          ∃ s ending, progress = .ended s ending ∧ ending.IsNonTransient) ∧
        ∀ s ending, progress = .ended s ending → EndsFor env mode s.attemptNumber ending) ∧
      ∀ (elapsedMs : τ) (promise : Pending T E τ), CutShort mode elapsedMs promise →
        2147483647 < mode.remainingMs elapsedMs ∨
          (⌊mode.remainingMs elapsedMs⌋ : τ) < mode.remainingMs elapsedMs := by
  obtain ⟨hfirst, hsound, hbounded, hends⟩ := (runFor_sound mode hclock iterations).facts
  refine ⟨_, by rw [runWithRetry, hmode]; rfl, hfirst, ?_, ?_, hbounded, ?_, fun hregular ↦ ?_,
    fun elapsedMs promise ↦ CutShort.limit⟩
  · exact fun attemptNumber elapsedMs hmem ↦ hsound _ hmem
  · exact fun attemptNumber durationMs readings completed hmem ↦ hsound _ hmem
  · exact fun context isTransient hmem ↦ hsound _ hmem
  · exact hends fun ⟨event, hmem, hirregular⟩ ↦ hirregular (hregular event hmem)

end Ends

/-- The operation never succeeds, and every reading of the clock is ten milliseconds later. -/
def neverReady : Environment Unit String ℤ where
  operationName := "wait".toList
  numberToText n := (toString n).toList
  toErrorMessage error := .ok error.toList
  clock reading := .ok (10 * reading)
  operation _ := ⟨.error (.value "not ready"), .atOnce⟩
  onFailedAttempt _ := ⟨.ok (), .atOnce⟩
  sleep _ := ⟨.ok (), .atOnce⟩

/-- All steps of its runs are regular. -/
theorem neverReady_regular (mode : ValidPoll String ℤ) (event : Event String ℤ) :
    event.Regular neverReady mode := by
  cases event with
  | attempt attemptNumber elapsedMs => exact .atOnce nofun
  | report context => exact .atOnce nofun
  | judgement context isTransient => trivial
  | sleep attemptNumber durationMs readings completed => exact .atOnce nofun
  | giveUp cause =>
      match cause with
      | none => exact ⟨_, rfl⟩
      | some (.thrown (.value error)) => exact ⟨_, rfl⟩
      | some (.thrown (.pollAttemptTimeoutError run)) => exact ⟨_, rfl⟩
      | some .budgetExceeded => exact ⟨_, rfl⟩

/-- Polling for so many milliseconds, every five. -/
def pollFor (timeoutMs : ℤ) : RetryMode String ℤ := .poll ⟨some timeoutMs, some [some 5], none⟩

/-- Two attempts, one sleep between them, and a timeout. -/
theorem runWithRetry_poll_neverReady :
    ∃ progress, runWithRetry neverReady (pollFor 50) 2 = .ok progress ∧
      (∃ s error, progress = .ended s (.failed error) ∧ error.attempts = 2 ∧
        error.elapsedMs = 60 ∧ error.reason = .timeout) ∧
      (∃ elapsedMs, .attempt 1 elapsedMs ∈ progress.state.trace) ∧
      (SleepsAdvance neverReady progress.state.trace → sleptMs progress.state.trace ≤ 50) ∧
      (∀ s ending, progress = .ended s ending →
        EndsFor neverReady ⟨50, [5], none, by decide, by decide⟩ s.attemptNumber ending) := by
  obtain ⟨progress, hrun, hfirst, -, -, hbounded, -, hends, -⟩ :=
    runWithRetry_poll neverReady (pollFor 50) ⟨50, [5], none, by decide, by decide⟩ (by rfl)
      ⟨fun _ ↦ rfl, fun _ _ hle ↦
        Int.mul_le_mul_of_nonneg_left (Int.ofNat_le.mpr hle) (by decide)⟩ 1
  obtain rfl := (Except.ok.inj hrun).symm
  refine ⟨_, hrun, ⟨_, _, rfl, rfl, rfl, rfl⟩, hfirst, hbounded, (hends ?_).2⟩
  exact fun event _ ↦ neverReady_regular _ event

/-- Settled after so many milliseconds. -/
def Settling.after (durationMs : ℤ) : Settling ℤ where
  within timerMs := decide (durationMs ≤ timerMs)
  mono hle h := decide_eq_true ((of_decide_eq_true h).trans hle)

/-- The operation succeeds after five milliseconds. -/
def readyAfterFive : Environment String String ℤ where
  operationName := "wait".toList
  numberToText n := (toString n).toList
  toErrorMessage error := .ok error.toList
  clock _ := .ok 0
  operation _ := ⟨.ok "ready", .after 5⟩
  onFailedAttempt _ := ⟨.ok (), .atOnce⟩
  sleep _ := ⟨.ok (), .atOnce⟩

/-- With a timeout of three thousand million milliseconds the run times out at once: its timer fires
after one millisecond. No time has elapsed, and nothing has outlived the budget. -/
theorem runWithRetry_poll_longTimeout :
    ∃ (mode : ValidPoll String ℤ) (s : LoopState String ℤ) (error : RetryError String ℤ),
      validateRetryMode (pollFor 3000000000) = .ok (.poll mode) ∧ SteadyClock readyAfterFive ∧
      runWithRetry readyAfterFive (pollFor 3000000000) 1 = .ok (.ended s (.failed error)) ∧
      error.reason = .timeout ∧
      ¬EndsFor readyAfterFive mode s.attemptNumber (.failed error) := by
  refine ⟨⟨3000000000, [5], none, by decide, by decide⟩, _, _, rfl,
    ⟨fun _ ↦ rfl, fun _ _ _ ↦ le_rfl⟩, rfl, rfl, ?_⟩
  rintro (hreason | ⟨-, hlate | houtlived | houtlived | houtlived⟩)
  · exact RetryFailureReason.noConfusion hreason
  · revert hlate
    decide
  · revert houtlived
    decide
  · revert houtlived
    decide
  · revert houtlived
    decide

end CoreUtils.Toolkit.Retry
