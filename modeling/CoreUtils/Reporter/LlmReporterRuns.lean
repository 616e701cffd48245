import CoreUtils.Reporter.LlmReporter

/-!
# Runs of the reporter

The entries of the reporter are a function of the tests that ended since the last `onBegin`
(`Records`): `onTestEnd` builds a new entry and updates an existing one to the same effect
(`update_entry_eq`). The report of `onEnd` therefore has one entry for each test, and its summary
counts each entry once (`on_end_report`).
-/

namespace CoreUtils.Reporter

variable {φ lifecycle : Type} (env : Environment φ lifecycle)

/-! ## Entries -/

/-- Updating an entry leaves its attempts and makes everything else as in a new entry. -/
theorem update_entry_eq {test : TestCase} {existingEntry : LlmTestEntry φ lifecycle}
    (hid : existingEntry.id = test.id) (result : TestResult) (ended : EndedAttempt φ lifecycle) :
    updateEntry test result ended existingEntry =
      { createEntry test result ended with
        attempts := existingEntry.attempts ++ [ended.attemptResult] } := by
  cases herror : ended.attemptResult.error with
  | none => simp [updateEntry, createEntry, herror, hid]
  | some error => simp [updateEntry, createEntry, herror, hid]

/-- A test that has ended, with its result. -/
abbrev TestEnd := TestCase × TestResult

/-- The ends of one test. -/
def endsOf (id : String) (ends : List TestEnd) : List TestEnd := ends.filter (·.1.id = id)

/-- The attempt result of a test that has ended. -/
def attemptOf (config : FullConfig) (testEnd : TestEnd) : AttemptResult φ lifecycle :=
  (endAttempt env config testEnd.1 testEnd.2).attemptResult

/-- The entry that a test that has ended has by itself. -/
def freshEntry (config : FullConfig) (testEnd : TestEnd) : LlmTestEntry φ lifecycle :=
  createEntry testEnd.1 testEnd.2 (endAttempt env config testEnd.1 testEnd.2)

/-- The entry of a test: that of its last end, with the attempts of all of its ends. -/
def entryOf (config : FullConfig) (ends : List TestEnd) (id : String) :
    Option (LlmTestEntry φ lifecycle) :=
  (endsOf id ends).getLast?.map fun last ↦
    { freshEntry env config last with attempts := (endsOf id ends).map (attemptOf env config) }

/-- The ends of a test with one more end. -/
theorem ends_of_concat (id : String) (ends : List TestEnd) (testEnd : TestEnd) :
    endsOf id (ends ++ [testEnd]) =
      endsOf id ends ++ if testEnd.1.id = id then [testEnd] else [] := by
  by_cases h : testEnd.1.id = id <;> simp [endsOf, h]

/-- Nothing is known of a test that has not ended. -/
theorem entry_of_eq_none {config : FullConfig} {ends : List TestEnd} {id : String} :
    entryOf env config ends id = none ↔ id ∉ ends.map fun testEnd ↦ testEnd.1.id := by
  simp [entryOf, endsOf]

/-- The entry of a test has its identifier. -/
theorem id_entry_of {config : FullConfig} {ends : List TestEnd} {id : String}
    {entry : LlmTestEntry φ lifecycle} (h : entryOf env config ends id = some entry) :
    entry.id = id := by
  obtain ⟨last, hlast, rfl⟩ := Option.map_eq_some_iff.mp h
  have hmem := List.mem_of_getLast? hlast
  show last.1.id = id
  simpa using (List.mem_filter.mp hmem).2

/-- The entry of a test has the attempts of all ends, and the rest from the last end. -/
theorem entry_of_eq_some {config : FullConfig} {ends : List TestEnd} {id : String}
    {entry : LlmTestEntry φ lifecycle} (h : entryOf env config ends id = some entry) :
    ∃ last, (endsOf id ends).getLast? = some last ∧
      entry.attempts = (endsOf id ends).map (attemptOf env config) ∧
      { entry with attempts := [attemptOf env config last] } = freshEntry env config last := by
  obtain ⟨last, hlast, rfl⟩ := Option.map_eq_some_iff.mp h
  exact ⟨last, hlast, rfl, rfl⟩

/-- The entry of a test that ends once more. -/
theorem entry_of_concat (config : FullConfig) (ends : List TestEnd) (testEnd : TestEnd)
    (id : String) :
    entryOf env config (ends ++ [testEnd]) id =
      if testEnd.1.id = id then
        some { freshEntry env config testEnd with
          attempts := (endsOf id ends).map (attemptOf env config) ++
            [attemptOf env config testEnd] }
      else entryOf env config ends id := by
  by_cases h : testEnd.1.id = id
  · simp [entryOf, ends_of_concat, h]
  · simp [entryOf, ends_of_concat, h]

/-! ## States -/

/-- What the reporter knows after tests have ended under a configuration. -/
structure Records (config : FullConfig) (ends : List TestEnd)
    (reporter : LlmReporter φ lifecycle) : Prop where
  config_eq : reporter.config = some config
  keys_eq : reporter.entriesById.keys = (ends.map fun testEnd ↦ testEnd.1.id).eraseDups
  get_eq : ∀ id, reporter.entriesById.get id = entryOf env config ends id

variable {env} {config : FullConfig} {ends : List TestEnd} {reporter : LlmReporter φ lifecycle}

/-- After `onBegin` no test has ended. -/
theorem records_on_begin (reporter : LlmReporter φ lifecycle) (config : FullConfig) (now : ℤ) :
    Records env config [] (reporter.onBegin config now) where
  config_eq := rfl
  keys_eq := rfl
  get_eq := fun _ ↦ rfl

/-- `onError` leaves the entries alone. -/
theorem Records.on_error (h : Records env config ends reporter) (error : PlaywrightTestError) :
    Records env config ends (reporter.onError error) where
  config_eq := h.config_eq
  keys_eq := h.keys_eq
  get_eq := h.get_eq

/-- `onTestEnd` stores the entry of the test with its new end. -/
theorem Records.entries_on_test_end (h : Records env config ends reporter) (test : TestCase)
    (result : TestResult) :
    (reporter.onTestEnd env test result).entriesById = reporter.entriesById.set test.id
      { freshEntry env config (test, result) with
        attempts := (endsOf test.id ends).map (attemptOf env config) ++
          [attemptOf env config (test, result)] } := by
  have hget := h.get_eq test.id
  unfold LlmReporter.onTestEnd
  simp only [h.config_eq]
  cases hentry : entryOf env config ends test.id with
  | none =>
      have hends : endsOf test.id ends = [] := by
        simpa [entryOf] using hentry
      rw [hentry] at hget
      simp only [hget, hends]
      rfl
  | some entry =>
      have hid := id_entry_of env hentry
      obtain ⟨last, -, rfl⟩ := Option.map_eq_some_iff.mp hentry
      rw [hentry] at hget
      simp only [hget, update_entry_eq hid]
      rfl

/-- `onTestEnd` adds an end of a test. -/
theorem Records.on_test_end (h : Records env config ends reporter) (test : TestCase)
    (result : TestResult) :
    Records env config (ends ++ [(test, result)]) (reporter.onTestEnd env test result) where
  config_eq := by
    unfold LlmReporter.onTestEnd
    simp only [h.config_eq]
  keys_eq := by
    rw [h.entries_on_test_end, List.map_append, List.eraseDups_append, ← h.keys_eq]
    have hget := h.get_eq test.id
    cases hentry : entryOf env config ends test.id with
    | none =>
        have hnew := (entry_of_eq_none env).mp hentry
        rw [hentry] at hget
        rw [OrderedMap.keys_set_of_get_none hget]
        simp [List.removeAll, hnew, List.eraseDups_cons]
    | some entry =>
        have hold : test.id ∈ ends.map fun testEnd ↦ testEnd.1.id := by
          by_contra hnew
          simp [(entry_of_eq_none env).mpr hnew] at hentry
        rw [hentry] at hget
        rw [OrderedMap.keys_set_of_get_some hget]
        simp [List.removeAll, hold]
  get_eq := by
    intro id
    rw [h.entries_on_test_end, OrderedMap.get_set, entry_of_concat, h.get_eq]
    by_cases hid : test.id = id
    · rw [if_pos hid.symm, if_pos hid, hid]
    · rw [if_neg fun hsame ↦ hid hsame.symm, if_neg hid]

/-- The tests that end in a part of a run. -/
def testEnds (events : List Event) : List TestEnd :=
  events.filterMap fun event ↦
    match event with
    | .testEnd test result => some (test, result)
    | _ => none

/-- Whether an event is an `onBegin`. -/
def Event.isBegin : Event → Bool
  | .begin _ _ => true
  | _ => false

/-- A part of a run without `onBegin` adds the tests that end in it. -/
theorem Records.run {events : List Event} (h : Records env config ends reporter)
    (hevents : ∀ event ∈ events, event.isBegin = false) :
    Records env config (ends ++ testEnds events) (events.foldl (handle env) reporter) := by
  induction events generalizing ends reporter with
  | nil => simpa [testEnds] using h
  | cons event events ih =>
      have hevent := hevents event List.mem_cons_self
      have hrest := fun other hother ↦ hevents other (List.mem_cons_of_mem _ hother)
      cases event with
      | begin config now => simp [Event.isBegin] at hevent
      | testEnd test result =>
          have hrun := ih (h.on_test_end test result) hrest
          rw [List.append_assoc] at hrun
          exact hrun
      | error error => exact ih (h.on_error error) hrest

/-! ## The report -/

/-- The number of entries that a summary has counted. -/
def TestSummary.counted (summary : TestSummary) : ℕ :=
  summary.passed + summary.failed + summary.flaky + summary.skipped + summary.timedOut +
    summary.interrupted

/-- Counting an entry counts one more. -/
theorem counted_count_entry (summary : TestSummary) (entry : LlmTestEntry φ lifecycle) :
    (LlmReporter.countEntry summary entry).counted = summary.counted + 1 ∧
      (LlmReporter.countEntry summary entry).total = summary.total := by
  unfold LlmReporter.countEntry
  by_cases hflaky : entry.flaky
  · rw [if_pos hflaky]
    refine ⟨?_, rfl⟩
    simp only [TestSummary.counted]
    omega
  · rw [if_neg hflaky]
    cases entry.status <;>
      simp only [LlmReporter.countStatus, TestSummary.counted, and_true] <;> omega

/-- Counting entries counts all of them. -/
theorem counted_foldl_count_entry (entries : List (LlmTestEntry φ lifecycle))
    (summary : TestSummary) :
    (entries.foldl LlmReporter.countEntry summary).counted = summary.counted + entries.length ∧
      (entries.foldl LlmReporter.countEntry summary).total = summary.total := by
  induction entries generalizing summary with
  | nil => exact ⟨rfl, rfl⟩
  | cons entry entries ih =>
      obtain ⟨hcounted, htotal⟩ := counted_count_entry summary entry
      obtain ⟨hcounted', htotal'⟩ := ih (LlmReporter.countEntry summary entry)
      refine ⟨?_, ?_⟩
      · rw [List.foldl_cons, hcounted', hcounted, List.length_cons]
        omega
      · rw [List.foldl_cons, htotal', htotal]

/-- The summary counts each entry once. -/
theorem summarize_eq (entries : List (LlmTestEntry φ lifecycle)) :
    (LlmReporter.summarize entries).counted = entries.length ∧
      (LlmReporter.summarize entries).total = entries.length := by
  obtain ⟨hcounted, htotal⟩ := counted_foldl_count_entry entries
    { total := entries.length
      passed := 0
      failed := 0
      flaky := 0
      skipped := 0
      timedOut := 0
      interrupted := 0 }
  exact ⟨hcounted.trans (Nat.zero_add _), htotal⟩

/-- The identifiers of the entries are their keys. -/
theorem Records.map_id_values (h : Records env config ends reporter) :
    reporter.entriesById.values.map LlmTestEntry.id = reporter.entriesById.keys := by
  refine OrderedMap.map_values fun {id entry} hget ↦ ?_
  rw [h.get_eq] at hget
  exact id_entry_of env hget

/-- The report of `onEnd` after an `onBegin`: one entry for each test that ended since then, in the
order in which the tests first ended; a summary that counts each entry once; and in each entry the
attempts of all ends of the test, and everything else as its last end alone makes it. -/
theorem on_end_report (env : Environment φ lifecycle) (before after : List Event)
    (config : FullConfig) (startTime : ℤ) (nodeVersion platform : String) (endTime : ℤ)
    (hafter : ∀ event ∈ after, event.isBegin = false) :
    ∃ report, (runEvents env (before ++ .begin config startTime :: after)).onEnd
        nodeVersion platform endTime = some report ∧
      report.tests.map LlmTestEntry.id =
        ((testEnds after).map fun testEnd ↦ testEnd.1.id).eraseDups ∧
      report.summary.total = report.tests.length ∧
      report.summary.total = report.summary.passed + report.summary.failed +
        report.summary.flaky + report.summary.skipped + report.summary.timedOut +
        report.summary.interrupted ∧
      ∀ entry ∈ report.tests, ∃ last,
        (endsOf entry.id (testEnds after)).getLast? = some last ∧
        entry.attempts = (endsOf entry.id (testEnds after)).map (attemptOf env config) ∧
        { entry with attempts := [attemptOf env config last] } = freshEntry env config last := by
  let started := (runEvents env before).onBegin config startTime
  have hrun : runEvents env (before ++ .begin config startTime :: after) =
      after.foldl (handle env) started := by
    rw [runEvents, List.foldl_append, List.foldl_cons]
    rfl
  have hrecords : Records env config (testEnds after) (after.foldl (handle env) started) :=
    (records_on_begin (runEvents env before) config startTime).run hafter
  -- only what comes after the last `onBegin` counts
  rw [hrun]
  generalize after.foldl (handle env) started = reporter at hrecords
  obtain ⟨hcounted, htotal⟩ := summarize_eq reporter.entriesById.values
  have hend : ∃ report, reporter.onEnd nodeVersion platform endTime = some report ∧
      report.tests = reporter.entriesById.values ∧
      report.summary = LlmReporter.summarize reporter.entriesById.values := by
    rw [LlmReporter.onEnd, hrecords.config_eq]
    exact ⟨_, rfl, rfl, rfl⟩
  obtain ⟨report, hreport, htests, hsummary⟩ := hend
  refine ⟨report, hreport, ?_, ?_, ?_, ?_⟩
  · rw [htests, hrecords.map_id_values, hrecords.keys_eq]
  · rw [hsummary, htests, htotal]
  · rw [hsummary, htotal, ← hcounted, TestSummary.counted]
  · intro entry hentry
    rw [htests] at hentry
    obtain ⟨id, hget⟩ := OrderedMap.mem_values.mp hentry
    rw [hrecords.get_eq] at hget
    rw [← id_entry_of env hget] at hget
    exact entry_of_eq_some env hget

/-! ## A retried test -/

/-- A machine on which traces say nothing. -/
def quietEnvironment : Environment Unit Unit where
  relative _ path := path
  collectTraceDiagnosticsFromAttachments _ _ :=
    .ok { network := emptyNetworkReport, consoleMessages := [], failingAction := none }
  attachClientLifecycles _ network _ := (network, none)
  embedScreenshot _ := none
  stdioChunkToString _ := ""
  capOutput text := text

/-- A configuration without projects. -/
def plainConfig : FullConfig where
  rootDir := "/repo"
  version := "1.50.0"
  workers := 1
  projects := []

/-- A test that has a number of results. -/
def loginTest (resultCount : ℕ) : TestCase where
  id := "login"
  title := "logs in"
  location := { file := "login.spec.ts", line := 3, column := 1 }
  suites := []
  project := none
  tags := []
  annotations := []
  resultCount := resultCount

/-- The result of a retry with a status. -/
def retryResult (status : TestStatus) (retry : ℕ) : TestResult where
  status := status
  duration := 1
  retry := retry
  startTime := 0
  workerIndex := 0
  parallelIndex := 0
  errors := []
  steps := []
  stdout := []
  stderr := []
  attachments := []

/-- A test that fails and passes when retried has one entry. -/
theorem on_end_report_retried :
    ∃ report, (runEvents quietEnvironment [.begin plainConfig 0,
        .testEnd (loginTest 1) (retryResult .failed 0),
        .testEnd (loginTest 2) (retryResult .passed 1)]).onEnd "22.0.0" "linux" 9 = some report ∧
      report.tests.map LlmTestEntry.id = ["login"] ∧
      report.summary.total = report.tests.length := by
  obtain ⟨report, hreport, hids, htotal, -⟩ := on_end_report quietEnvironment []
    [.testEnd (loginTest 1) (retryResult .failed 0),
      .testEnd (loginTest 2) (retryResult .passed 1)]
    plainConfig 0 "22.0.0" "linux" 9 (by simp [Event.isBegin])
  exact ⟨report, hreport, hids, htotal⟩

end CoreUtils.Reporter
