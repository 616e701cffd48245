import CoreUtils.Library.Outline
import CoreUtils.Reporter.LlmReporterRuns

/-!
# Steps and timelines

The report has the steps of an attempt in a flat list and, together with the network instances and
the console messages, in a timeline. Nothing is lost by either (`AttemptResult.Faithful`): the tree
of steps can be read off the flat list, and the timeline has all entries, by their offsets, those
with equal offsets in their order. This holds of every attempt in every report (`report_faithful`).
-/

namespace CoreUtils.Reporter

open Outline

/-! ## Steps -/

/-- What the report has of a step, apart from its place in the tree. -/
structure StepFacts where
  title : String
  category : String
  durationMs : ℚ
  offsetMs : ℚ
  error : Option String
  deriving DecidableEq

/-- What a step of the report says. -/
def FlatStep.facts (step : FlatStep) : StepFacts where
  title := step.title
  category := step.category
  durationMs := step.durationMs
  offsetMs := step.offsetMs
  error := step.error

mutual

/-- The tree of a step, with what the report has of each step. -/
def stepTree (attemptStartTimeMs : ℤ) : TestStep → RoseTree StepFacts
  | .step title category duration startTime errorMessage steps =>
      .node
        { title := title
          category := category
          durationMs := duration
          offsetMs := startTime - attemptStartTimeMs
          error := extractFirstLine errorMessage }
        (stepTrees attemptStartTimeMs steps)

/-- The trees of some steps. -/
def stepTrees (attemptStartTimeMs : ℤ) : List TestStep → List (RoseTree StepFacts)
  | [] => []
  | step :: steps => stepTree attemptStartTimeMs step :: stepTrees attemptStartTimeMs steps

end

/-- The trees of steps that a flat list stands for. -/
def readSteps (steps : List FlatStep) : List (RoseTree StepFacts) :=
  read (steps.map fun step ↦ (step.depth, step.facts))

/-- A flattened step is the outline of its tree. -/
theorem map_flatten_step (attemptStartTimeMs : ℤ) (step : TestStep) : ∀ depth,
    (flattenStep attemptStartTimeMs depth step).map (fun step ↦ (step.depth, step.facts)) =
      flattenTree depth (stepTree attemptStartTimeMs step) := by
  refine @TestStep.rec
    (fun step ↦ ∀ depth, (flattenStep attemptStartTimeMs depth step).map
      (fun step ↦ (step.depth, step.facts)) = flattenTree depth (stepTree attemptStartTimeMs step))
    (fun steps ↦ ∀ depth, (flattenSteps attemptStartTimeMs depth steps).map
      (fun step ↦ (step.depth, step.facts)) = flatten depth (stepTrees attemptStartTimeMs steps))
    ?_ ?_ ?_ step
  · intro title category duration startTime errorMessage steps ih depth
    rw [flattenStep, List.map_cons, ih, stepTree, flattenTree]
    simp only [FlatStep.facts]
  · intro depth
    rw [flattenSteps, stepTrees, flatten, List.map_nil]
  · intro step steps hstep hsteps depth
    rw [flattenSteps, stepTrees, flatten, List.map_append, hstep, hsteps]

/-- Flattened steps are the outline of their trees. -/
theorem map_flatten_steps (attemptStartTimeMs : ℤ) (depth : ℕ) (steps : List TestStep) :
    (flattenSteps attemptStartTimeMs depth steps).map (fun step ↦ (step.depth, step.facts)) =
      flatten depth (stepTrees attemptStartTimeMs steps) := by
  induction steps with
  | nil => rw [flattenSteps, stepTrees, flatten, List.map_nil]
  | cons step steps ih =>
      rw [flattenSteps, stepTrees, flatten, List.map_append, map_flatten_step, ih]

/-- The tree of steps can be read off the flat list. -/
theorem read_flatten_steps (attemptStartTimeMs : ℤ) (steps : List TestStep) :
    readSteps (flattenSteps attemptStartTimeMs 0 steps) = stepTrees attemptStartTimeMs steps := by
  rw [readSteps, map_flatten_steps, read_flatten]

/-! ## Timelines -/

/-- The entries of a timeline in the order of their kinds: the steps, the network instances and the
console messages, as far as they have offsets. -/
def timelineEntries (steps : List FlatStep) (instances : List NetworkInstance)
    (consoleMessages : List ConsoleEntry) : List TimelineEntry :=
  steps.map .step ++
    (instances.filterMap fun inst ↦ inst.offsetMs.map fun offsetMs ↦
      .network offsetMs inst.id inst.method inst.url inst.status) ++
    (consoleMessages.filterMap fun entry ↦ entry.offsetMs.map fun offsetMs ↦
      .console offsetMs entry.type entry.text)

/-- A timeline is sorted by the offsets. -/
theorem build_timeline_sorted (steps : List FlatStep) (instances : List NetworkInstance)
    (consoleMessages : List ConsoleEntry) :
    (buildTimeline steps instances consoleMessages).Pairwise fun a b ↦ a.offsetMs ≤ b.offsetMs := by
  have htotal : Std.Total fun a b : TimelineEntry ↦ a.offsetMs ≤ b.offsetMs :=
    ⟨fun a b ↦ le_total a.offsetMs b.offsetMs⟩
  have htrans : IsTrans TimelineEntry fun a b ↦ a.offsetMs ≤ b.offsetMs :=
    ⟨fun _ _ _ hab hbc ↦ le_trans hab hbc⟩
  exact List.pairwise_insertionSort _ (timelineEntries steps instances consoleMessages)

/-- A timeline has the entries of each offset in the order of their kinds. -/
theorem build_timeline_stable (steps : List FlatStep) (instances : List NetworkInstance)
    (consoleMessages : List ConsoleEntry) (offsetMs : ℚ) :
    (buildTimeline steps instances consoleMessages).filter (·.offsetMs = offsetMs) =
      (timelineEntries steps instances consoleMessages).filter (·.offsetMs = offsetMs) :=
  filter_insertionSort TimelineEntry.offsetMs (timelineEntries steps instances consoleMessages)
    offsetMs

/-! ## Attempts -/

variable {φ lifecycle : Type}

/-- An attempt of the report says what its result says. -/
structure AttemptResult.Faithful (attempt : AttemptResult φ lifecycle) (result : TestResult) :
    Prop where
  steps : readSteps attempt.steps = stepTrees result.startTime result.steps
  sorted : attempt.timeline.Pairwise fun a b ↦ a.offsetMs ≤ b.offsetMs
  stable : ∀ offsetMs, attempt.timeline.filter (·.offsetMs = offsetMs) =
    (timelineEntries attempt.steps attempt.network.instances attempt.consoleMessages).filter
      (·.offsetMs = offsetMs)

/-- What `buildAttemptResult` builds is faithful to its result. -/
theorem build_attempt_faithful (env : Environment φ lifecycle) (result : TestResult)
    (errors : List TestError) (attachments : List TestAttachment)
    (network : AttemptNetwork φ lifecycle) (consoleMessages : List ConsoleEntry)
    (failingAction : Option ActionRecord) :
    (buildAttemptResult env result errors attachments network consoleMessages
      failingAction).1.Faithful result where
  steps := read_flatten_steps result.startTime result.steps
  sorted := build_timeline_sorted _ network.instances consoleMessages
  stable := build_timeline_stable _ network.instances consoleMessages

/-! ## Runs -/

variable {env : Environment φ lifecycle}

/-- Every attempt that a reporter has is that of a test that has ended. -/
def AttemptsFrom (env : Environment φ lifecycle) (ends : List TestEnd)
    (reporter : LlmReporter φ lifecycle) : Prop :=
  ∀ id entry, reporter.entriesById.get id = some entry → ∀ attempt ∈ entry.attempts,
    ∃ config, ∃ testEnd ∈ ends, attempt = attemptOf env config testEnd

/-- Attempts of an earlier part of a run. -/
theorem AttemptsFrom.mono {ends ends' : List TestEnd} {reporter : LlmReporter φ lifecycle}
    (h : AttemptsFrom env ends reporter) (hsubset : ends ⊆ ends') :
    AttemptsFrom env ends' reporter := by
  intro id entry hentry attempt hattempt
  obtain ⟨config, testEnd, hmem, hsame⟩ := h id entry hentry attempt hattempt
  exact ⟨config, testEnd, hsubset hmem, hsame⟩

/-- `onTestEnd` adds one attempt. -/
theorem AttemptsFrom.on_test_end {ends : List TestEnd} {reporter : LlmReporter φ lifecycle}
    (h : AttemptsFrom env ends reporter) (test : TestCase) (result : TestResult) :
    AttemptsFrom env (ends ++ [(test, result)]) (reporter.onTestEnd env test result) := by
  have hold := h.mono (List.subset_append_left ends [(test, result)])
  unfold LlmReporter.onTestEnd
  split
  next => exact hold
  next config _ =>
    intro id entry hentry attempt hattempt
    simp only at hentry
    split at hentry
    next existingEntry hexisting =>
      rw [OrderedMap.get_set] at hentry
      split at hentry
      next =>
        obtain rfl := Option.some.inj hentry
        rcases List.mem_append.mp hattempt with hattempt | hattempt
        · exact hold test.id existingEntry hexisting attempt hattempt
        · obtain rfl := List.mem_singleton.mp hattempt
          exact ⟨config, (test, result), by simp, rfl⟩
      next => exact hold id entry hentry attempt hattempt
    next =>
      rw [OrderedMap.get_set] at hentry
      split at hentry
      next =>
        obtain rfl := Option.some.inj hentry
        obtain rfl := List.mem_singleton.mp hattempt
        exact ⟨config, (test, result), by simp, rfl⟩
      next => exact hold id entry hentry attempt hattempt

/-- Every attempt of a run is that of a test that has ended in it. -/
theorem attempts_from_run (env : Environment φ lifecycle) (events : List Event) :
    AttemptsFrom env (testEnds events) (runEvents env events) := by
  induction events using List.reverseRecOn with
  | nil => exact fun id entry hentry ↦ by simp [runEvents, LlmReporter.initial] at hentry
  | append_singleton events event ih =>
      have hends : testEnds (events ++ [event]) = testEnds events ++ testEnds [event] :=
        List.filterMap_append
      have hrun : runEvents env (events ++ [event]) =
          handle env (runEvents env events) event := by
        rw [runEvents, List.foldl_append]
        rfl
      rw [hends, hrun]
      cases event with
      | begin config now =>
          exact fun id entry hentry ↦ by simp [handle, LlmReporter.onBegin] at hentry
      | testEnd test result => exact ih.on_test_end test result
      | error error => exact ih.mono (List.subset_append_left _ _)

/-- In every report of every run, an attempt is faithful to the result of a test that has ended. -/
theorem report_faithful {events : List Event} {nodeVersion platform : String} {endTime : ℤ}
    {report : LlmTestReport φ lifecycle}
    (hreport : (runEvents env events).onEnd nodeVersion platform endTime = some report) :
    ∀ entry ∈ report.tests, ∀ attempt ∈ entry.attempts,
      ∃ testEnd ∈ testEnds events, attempt.Faithful testEnd.2 := by
  obtain ⟨config, -, rfl⟩ := Option.map_eq_some_iff.mp hreport
  intro entry hentry attempt hattempt
  obtain ⟨id, hget⟩ := OrderedMap.mem_values.mp hentry
  obtain ⟨config, testEnd, hmem, rfl⟩ := attempts_from_run env events id entry hget attempt hattempt
  exact ⟨testEnd, hmem, build_attempt_faithful env testEnd.2 _ _ _ _ _⟩

/-- A result with a step inside another one. -/
def nestedResult : TestResult :=
  { retryResult .failed 0 with
    startTime := 100
    steps :=
      [.step "sign in" "test.step" 7 105 none [.step "click" "pw:api" 2 106 (some "late") []],
        .step "hook" "hook" 1 101 none []] }

/-- The steps of that result can be read off the report, which has them by their times. -/
theorem report_faithful_nested :
    ∃ report, (runEvents quietEnvironment [.begin plainConfig 0,
        .testEnd (loginTest 1) nestedResult]).onEnd "22.0.0" "linux" 9 = some report ∧
      ∀ entry ∈ report.tests, ∀ attempt ∈ entry.attempts,
        readSteps attempt.steps = stepTrees 100 nestedResult.steps ∧
          attempt.timeline.Pairwise fun a b ↦ a.offsetMs ≤ b.offsetMs := by
  obtain ⟨report, hreport⟩ : ∃ report, (runEvents quietEnvironment [.begin plainConfig 0,
      .testEnd (loginTest 1) nestedResult]).onEnd "22.0.0" "linux" 9 = some report := ⟨_, rfl⟩
  refine ⟨report, hreport, fun entry hentry attempt hattempt ↦ ?_⟩
  obtain ⟨testEnd, hmem, hfaithful⟩ := report_faithful hreport entry hentry attempt hattempt
  obtain rfl : testEnd = (loginTest 1, nestedResult) := List.mem_singleton.mp hmem
  exact ⟨hfaithful.steps, hfaithful.sorted⟩

end CoreUtils.Reporter
