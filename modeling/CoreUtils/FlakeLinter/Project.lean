import CoreUtils.FlakeLinter.Violations
import CoreUtils.Library.Json
import CoreUtils.Library.Outline
import CoreUtils.Library.StateExcept

/-!
# The linter of a project and its command

`projectLinter.ts` and `runCli.ts`: the files under the scan roots are linted one by one, and the
command prints what they violate. `main_spec` says when the command succeeds and what it prints,
`lintPlaywrightProject_allow` what one more entry of the allowlist changes.
-/

namespace CoreUtils.FlakeLinter

open Fuel (EndsWith)

/-! ## Reading a configuration -/

/-- A text. -/
def stringOf (value : Json) : Option String := value.asString.map String.ofList

/-- The texts of an array, none if the value is no array or an element no text (`isStringArray`). -/
def stringArrayOf : Json → Option (List String)
  | .array values => values.mapM stringOf
  | _ => none

/-- A member that may be missing. -/
def optionalMember {α : Type} (kind : Json → Option α) (key : String) (value : Json) :
    Option (Option α) :=
  match value.member key.toList with
  | none => some none
  | some member => (kind member).map some

/-- A member that must be there. -/
def requiredMember {α : Type} (kind : Json → Option α) (key : String) (value : Json) : Option α :=
  (value.member key.toList).bind kind

/-- The rule that a value names, none if it names none (`isPlaywrightFlakeRuleId`). -/
def ruleIdOf (value : Json) : Option PlaywrightFlakeRuleId := do
  let text ← stringOf value
  [.fixedSleep, .responseWait, .retryClassification, .testDataIdentity, .sharedReadiness].find?
    fun ruleId : PlaywrightFlakeRuleId ↦ ruleId.text = text

/-- `isOptionalAllowlist`, of the items of an array. -/
def allowlistEntryOf (value : Json) : Option PlaywrightFlakeLinterAllowlistEntry := do
  let filePathPattern ← requiredMember stringOf "filePathPattern" value
  let reason ← requiredMember stringOf "reason" value
  let ruleId ← requiredMember ruleIdOf "ruleId" value
  some ⟨filePathPattern, reason, ruleId⟩

/-- `isOptionalSharedReadinessMechanisms`, of the items of an array. -/
def mechanismOf (value : Json) : Option SharedReadinessMechanism := do
  let directCallNames ← requiredMember stringArrayOf "directCallNames" value
  let filePathPattern ← requiredMember stringOf "filePathPattern" value
  let name ← requiredMember stringOf "name" value
  let sharedHelperNames ← requiredMember stringArrayOf "sharedHelperNames" value
  some ⟨directCallNames, filePathPattern, name, sharedHelperNames⟩

/-- The items of an array that are all of a kind. -/
def arrayOf {α : Type} (kind : Json → Option α) : Json → Option (List α)
  | .array values => values.mapM kind
  | _ => none

/-- `isOptionalNumberRecord`, of a record: of a repeated key the last one counts. -/
def numberRecordOf : Json → Option (OrderedMap String ℚ)
  | .object members => do
      let entries ← members.mapM fun entry ↦
        entry.2.asNumber.map fun number ↦ (String.ofList entry.1, number)
      some (entries.foldl (fun record entry ↦ record.set entry.1 entry.2) .empty)
  | _ => none

/-- `isPlaywrightFlakeLinterConfig`, with the configuration that the value is. -/
def configOf (value : Json) : Option PlaywrightFlakeLinterConfig := do
  let scanRoots ← requiredMember stringArrayOf "scanRoots" value
  let specFilePattern ← optionalMember stringOf "specFilePattern" value
  let identityNamePattern ← optionalMember stringOf "identityNamePattern" value
  let hardenedIdentityHelperNames ←
    optionalMember stringArrayOf "hardenedIdentityHelperNames" value
  let responseWaitCallNames ← optionalMember stringArrayOf "responseWaitCallNames" value
  let retryHelperNames ← optionalMember stringArrayOf "retryHelperNames" value
  let specificRequestMatcherNames ←
    optionalMember stringArrayOf "specificRequestMatcherNames" value
  let transientClassifierNamePatterns ←
    optionalMember stringArrayOf "transientClassifierNamePatterns" value
  let undiscriminatingRetryHelperNames ←
    optionalMember stringArrayOf "undiscriminatingRetryHelperNames" value
  let identityHelperMinimumLengths ←
    optionalMember numberRecordOf "identityHelperMinimumLengths" value
  let allowlist ← optionalMember (arrayOf allowlistEntryOf) "allowlist" value
  let sharedReadinessMechanisms ←
    optionalMember (arrayOf mechanismOf) "sharedReadinessMechanisms" value
  some { allowlist, hardenedIdentityHelperNames, identityHelperMinimumLengths, identityNamePattern,
         responseWaitCallNames, retryHelperNames, scanRoots, sharedReadinessMechanisms,
         specificRequestMatcherNames, specFilePattern, transientClassifierNamePatterns,
         undiscriminatingRetryHelperNames }

/-- The configuration that a value is. It fails if the value has not the shape of one, or has it and
is not valid. -/
def parsePlaywrightFlakeLinterConfig (platform : Platform) (sourceDescription : String)
    (value : Option Json) : Except String PlaywrightFlakeLinterConfig :=
  match value.bind configOf with
  | none => .error ("Invalid Playwright flake linter config at " ++ sourceDescription ++ ".")
  | some config => do
      validateConfig platform config
      .ok config

/-! ## The files of a project -/

/-- What the command runs on: the platform of the linter, the functions of `node:path`, the files
that patterns match, what the files hold, and the default export of a module. -/
structure Project where
  platform : Platform
  resolve : (base path : String) → String
  relative : (base path : String) → String
  join : List String → String
  glob : (patterns : List String) → (cwd : String) → List String
  readFile : String → Except String String
  importDefault : String → Except String (Option Json)

/-- The endings of source files: `/\.[cm]?[jt]sx?$/`. -/
def sourceFileEndings : List (List Char) :=
  [".js", ".jsx", ".ts", ".tsx", ".cjs", ".cjsx", ".cts", ".ctsx", ".mjs", ".mjsx", ".mts",
    ".mtsx"].map String.toList

/-- The path ends as those of source files do. -/
def isSourceFile (filePath : String) : Bool :=
  sourceFileEndings.any fun ending ↦ ending.isSuffixOf filePath.toList

/-- The source files among what is found of the roots themselves and below them. -/
def findSourceFiles (project : Project) (config : PlaywrightFlakeLinterConfig) (cwd : String) :
    List String :=
  let patterns := config.scanRoots.flatMap fun scanRoot ↦
    [normalizeFilePath project.platform scanRoot,
      project.join [normalizeFilePath project.platform scanRoot, "**",
        "*.{js,jsx,ts,tsx,mjs,cjs,mts,cts}"]]
  (project.glob patterns cwd).filter isSourceFile

/-- The violations of a file. -/
def lintFile (project : Project) (fuel : ℕ) (config : PlaywrightFlakeLinterConfig)
    (cwd filePath : String) : Option (Except String (List PlaywrightFlakePatternViolation)) :=
  match project.readFile filePath with
  | .error message => some (.error message)
  | .ok source =>
      findPlaywrightFlakePatternViolations project.platform fuel config
        (project.relative cwd filePath) source

/-- The violations of two outcomes, or the first error. -/
def appendOutcomes :
    Except String (List PlaywrightFlakePatternViolation) →
    Except String (List PlaywrightFlakePatternViolation) →
    Except String (List PlaywrightFlakePatternViolation)
  | .error message, _ => .error message
  | .ok _, .error message => .error message
  | .ok violations, .ok more => .ok (violations ++ more)

/-- The violations of some files, one after the other. Of several errors the first one counts;
the code reads the files at once, and reports the error that it meets first. -/
def lintFiles (project : Project) (fuel : ℕ) (config : PlaywrightFlakeLinterConfig)
    (cwd : String) : List String → Option (Except String (List PlaywrightFlakePatternViolation))
  | [] => some (.ok [])
  | filePath :: rest => do
      let first ← lintFile project fuel config cwd filePath
      let others ← lintFiles project fuel config cwd rest
      some (appendOutcomes first others)

/-- The violations of all source files in order, or the error of a file that fails. -/
def lintPlaywrightProject (project : Project) (fuel : ℕ) (config : PlaywrightFlakeLinterConfig)
    (cwd : String) : Option (Except String (List PlaywrightFlakePatternViolation)) :=
  (lintFiles project fuel config cwd (findSourceFiles project config cwd)).map
    (·.map sortViolations)

/-! ## The command -/

/-- The path of the configuration that the arguments give, or the usual one. Others fail. -/
def getConfigFilePath : List String → Except String String
  | [] => .ok "playwright-flake-lint.config.mjs"
  | ["--config", configFilePath] => .ok configFilePath
  | _ => .error "Usage: playwright-flake-lint [--config <config-file-path>]"

/-- `loadPlaywrightFlakeLinterConfig` of the file that the arguments name. -/
def loadPlaywrightFlakeLinterConfig (project : Project) (arguments : List String) (cwd : String) :
    Except String PlaywrightFlakeLinterConfig := do
  let given ← getConfigFilePath arguments
  let configFilePath := project.resolve cwd given
  let value ← project.importDefault configFilePath
  parsePlaywrightFlakeLinterConfig project.platform configFilePath value

/-- The comment that the command suggests, with a reason. -/
def suggestedComment (ruleId : PlaywrightFlakeRuleId) (reason : String) : String :=
  "// flake-lint-allow " ++ ruleId.text ++ " -- " ++ reason

/-- What the command writes about a violation. -/
def violationLine (violation : PlaywrightFlakePatternViolation) : String :=
  violation.filePath ++ ":" ++ toString violation.line ++ ":" ++ toString violation.column ++
    " [" ++ violation.ruleId.text ++ "] " ++ violation.message ++
    ". For a justified exception, add " ++ suggestedComment violation.ruleId "<reason>.\n"

/-- What a run of the command leaves. -/
structure CliOutcome where
  stderr : List String
  exitCode : ℕ

/-- Writes the violations of the project and exits with 0 if there is none. It fails if the
configuration is not loaded or a file not linted. -/
def runCli (project : Project) (fuel : ℕ) (arguments : List String) (cwd : String) :
    Option (Except String CliOutcome) :=
  match loadPlaywrightFlakeLinterConfig project arguments cwd with
  | .error message => some (.error message)
  | .ok config =>
      (lintPlaywrightProject project fuel config cwd).map (·.map fun violations ↦
        ⟨violations.map violationLine, if violations.length = 0 then 0 else 1⟩)

/-- The command: an error is written on a line and exits with 1. -/
def main (project : Project) (fuel : ℕ) (arguments : List String) (cwd : String) :
    Option CliOutcome :=
  (runCli project fuel arguments cwd).map fun
    | .ok outcome => outcome
    | .error message => ⟨[message ++ "\n"], 1⟩

/-! ## What the command reports -/

/-- What a file of the project is called in its violations. -/
def reportedPath (project : Project) (cwd filePath : String) : String :=
  normalizeFilePath project.platform (project.relative cwd filePath)

/-- A finding in a file of the project that can be read, and that nothing allows. -/
def ProjectViolates (project : Project) (config : PlaywrightFlakeLinterConfig)
    (cwd filePath : String) (finding : Finding) : Prop :=
  ∃ source, project.readFile filePath = .ok source ∧
    Violates project.platform config (reportedPath project cwd filePath)
      (project.platform.createSourceFile (reportedPath project cwd filePath) source
        ((reportedPath project cwd filePath).endsWith "x"))
      finding

/-- Each finding in a file of the project that nothing allows, once. -/
def ListsFindings (project : Project) (config : PlaywrightFlakeLinterConfig) (cwd filePath : String)
    (findings : List Finding) : Prop :=
  findings.Nodup ∧ ∀ finding, finding ∈ findings ↔
    ProjectViolates project config cwd filePath finding

/-- The violations that report the findings in some files, one file after the other. -/
def violationsOf (project : Project) (config : PlaywrightFlakeLinterConfig) (cwd : String)
    (findings : String → List Finding) (filePaths : List String) :
    List PlaywrightFlakePatternViolation :=
  filePaths.flatMap fun filePath ↦
    (findings filePath).map (Finding.violation config (reportedPath project cwd filePath))

/-- What comes of linting some files with a valid configuration: the error of a file that cannot
be read, or the violations of them all. -/
def LintsTo (project : Project) (config : PlaywrightFlakeLinterConfig) (cwd : String)
    (findings : String → List Finding) (filePaths : List String) :
    Except String (List PlaywrightFlakePatternViolation) → Prop
  | .error message => ∃ filePath ∈ filePaths, project.readFile filePath = .error message
  | .ok violations =>
      (∀ filePath ∈ filePaths, ∃ source, project.readFile filePath = .ok source) ∧
        violations.Perm (violationsOf project config cwd findings filePaths)

variable {project : Project} {config : PlaywrightFlakeLinterConfig}

/-- Linting a file ends. -/
theorem lintFile_ends (hvalid : validateConfig project.platform config = .ok ())
    (cwd filePath : String) :
    ∃ outcome findings, EndsWith (lintFile project · config cwd filePath) outcome ∧
      ListsFindings project config cwd filePath findings ∧
      LintsTo project config cwd (fun _ ↦ findings) [filePath] outcome := by
  cases hread : project.readFile filePath with
  | error message =>
      refine ⟨.error message, [], ⟨0, fun fuel _ ↦ by simp [lintFile, hread]⟩,
        ⟨List.nodup_nil, fun finding ↦ ?_⟩, filePath, List.mem_singleton_self filePath, hread⟩
      simp [ProjectViolates, hread]
  | ok source =>
      rcases violations_iff project.platform config (project.relative cwd filePath) source with
        ⟨message, hinvalid, -⟩ | ⟨violations, findings, ⟨bound, hrun⟩, -, hperm, hnodup, hmem⟩
      · simp [hvalid] at hinvalid
      · refine ⟨.ok violations, findings, ⟨bound, fun fuel hfuel ↦ ?_⟩,
          ⟨hnodup, fun finding ↦ ?_⟩, by simp [hread], ?_⟩
        · show lintFile project fuel config cwd filePath = some (.ok violations)
          rw [lintFile, hread]
          exact hrun fuel hfuel
        · rw [hmem]
          simp [ProjectViolates, reportedPath, hread]
        · rw [violationsOf, List.flatMap_singleton]
          exact hperm

/-- Linting some files ends. -/
theorem lintFiles_ends {cwd : String} {findings : String → List Finding}
    (hfile : ∀ filePath, ∃ outcome, EndsWith (lintFile project · config cwd filePath) outcome ∧
      LintsTo project config cwd findings [filePath] outcome)
    (filePaths : List String) :
    ∃ outcome, EndsWith (lintFiles project · config cwd filePaths) outcome ∧
      LintsTo project config cwd findings filePaths outcome := by
  induction filePaths with
  | nil => exact ⟨.ok [], EndsWith.const _, by simp, List.Perm.nil⟩
  | cons filePath rest ih =>
      obtain ⟨first, hfirstRun, hfirst⟩ := hfile filePath
      obtain ⟨others, hothersRun, hothers⟩ := ih
      refine ⟨_, hfirstRun.bind (hothersRun.bind (EndsWith.const _)), ?_⟩
      cases first with
      | error message =>
          obtain ⟨failed, hfailed, hmessage⟩ := hfirst
          obtain rfl := List.mem_singleton.mp hfailed
          exact ⟨failed, List.mem_cons_self, hmessage⟩
      | ok violations =>
          obtain ⟨hread, hviolations⟩ := hfirst
          cases others with
          | error message =>
              obtain ⟨failed, hfailed, hmessage⟩ := hothers
              exact ⟨failed, List.mem_cons_of_mem _ hfailed, hmessage⟩
          | ok more =>
              obtain ⟨hreadMore, hmore⟩ := hothers
              refine ⟨List.forall_mem_cons.mpr ⟨hread _ (List.mem_singleton_self _), hreadMore⟩, ?_⟩
              rw [violationsOf, List.flatMap_singleton] at hviolations
              exact hviolations.append hmore

/-- A configuration that is loaded is valid. -/
theorem valid_of_load {arguments : List String} {cwd : String}
    (h : loadPlaywrightFlakeLinterConfig project arguments cwd = .ok config) :
    validateConfig project.platform config = .ok () := by
  obtain ⟨given, -, h⟩ := StateExcept.except_bind_eq_ok.mp h
  obtain ⟨value, -, h⟩ := StateExcept.except_bind_eq_ok.mp h
  rw [parsePlaywrightFlakeLinterConfig] at h
  split at h
  next => contradiction
  next =>
    obtain ⟨_, hvalid, h⟩ := StateExcept.except_bind_eq_ok.mp h
    obtain rfl := Except.ok.inj h
    exact hvalid

/-- The command ends for all arguments. It fails with an error if the configuration cannot be
loaded or a file cannot be read; otherwise it writes a line for each finding in each of the files
that nothing allows, in order, and succeeds if there is none. -/
theorem main_spec (project : Project) (arguments : List String) (cwd : String) :
    ∃ outcome, EndsWith (main project · arguments cwd) outcome ∧
      ((∃ message, outcome = ⟨[message ++ "\n"], 1⟩ ∧
        (loadPlaywrightFlakeLinterConfig project arguments cwd = .error message ∨
          ∃ config, loadPlaywrightFlakeLinterConfig project arguments cwd = .ok config ∧
            ∃ filePath ∈ findSourceFiles project config cwd,
              project.readFile filePath = .error message)) ∨
      ∃ config violations, loadPlaywrightFlakeLinterConfig project arguments cwd = .ok config ∧
        outcome = ⟨violations.map violationLine, if violations = [] then 0 else 1⟩ ∧
        violations.Pairwise (fun first second ↦ compareViolations first second ≤ 0) ∧
        (∀ filePath ∈ findSourceFiles project config cwd,
          ∃ source, project.readFile filePath = .ok source) ∧
        ∃ findings, (∀ filePath, ListsFindings project config cwd filePath (findings filePath)) ∧
          violations.Perm
            (violationsOf project config cwd findings (findSourceFiles project config cwd))) := by
  cases hload : loadPlaywrightFlakeLinterConfig project arguments cwd with
  | error message =>
      exact ⟨_, ⟨0, fun fuel _ ↦ by simp only [main, runCli, hload, Option.map_some]⟩,
        .inl ⟨message, rfl, .inl rfl⟩⟩
  | ok config =>
      choose each findings heach hlists hlints using
        lintFile_ends (valid_of_load hload) cwd
      obtain ⟨outcome, ⟨bound, hrun⟩, houtcome⟩ := lintFiles_ends
        (fun filePath ↦ ⟨each filePath, heach filePath, hlints filePath⟩)
        (findSourceFiles project config cwd)
      cases outcome with
      | error message =>
          obtain ⟨filePath, hfile, hread⟩ := houtcome
          refine ⟨_, ⟨bound, fun fuel hfuel ↦ ?_⟩,
            .inl ⟨message, rfl, .inr ⟨config, rfl, filePath, hfile, hread⟩⟩⟩
          have hfiles : lintFiles project fuel config cwd (findSourceFiles project config cwd) =
              some (.error message) := hrun fuel hfuel
          simp only [main, runCli, hload, lintPlaywrightProject, hfiles, Option.map_some]
          rfl
      | ok violations =>
          obtain ⟨hread, hviolations⟩ := houtcome
          refine ⟨_, ⟨bound, fun fuel hfuel ↦ ?_⟩,
            .inr ⟨config, sortViolations violations, rfl, rfl, List.pairwise_insertionSort _ _,
              hread, findings, hlists, (List.perm_insertionSort _ _).trans hviolations⟩⟩
          have hfiles : lintFiles project fuel config cwd (findSourceFiles project config cwd) =
              some (.ok violations) := hrun fuel hfuel
          simp only [main, runCli, hload, lintPlaywrightProject, hfiles, Option.map_some,
            Except.map, List.length_eq_zero_iff]

/-! ## One more entry of the allowlist -/

/-- An entry that is accepted: its reason is not empty, and its pattern compiles. -/
structure ValidEntry (platform : Platform) where
  entry : PlaywrightFlakeLinterAllowlistEntry
  valid : validateAllowlistEntry platform entry = .ok ()

/-- The configuration with one more entry of the allowlist. -/
def PlaywrightFlakeLinterConfig.allow (config : PlaywrightFlakeLinterConfig)
    (entry : PlaywrightFlakeLinterAllowlistEntry) : PlaywrightFlakeLinterConfig :=
  { config with allowlist := some (config.allowlist.getD [] ++ [entry]) }

/-- What an entry does not allow. -/
def withoutAllowed (platform : Platform) (entry : PlaywrightFlakeLinterAllowlistEntry)
    (violations : List PlaywrightFlakePatternViolation) : List PlaywrightFlakePatternViolation :=
  violations.filter fun violation ↦ !entry.allows platform violation.filePath violation.ruleId

/-- A valid entry changes nothing for the validation. -/
theorem validateConfig_allow (platform : Platform) (config : PlaywrightFlakeLinterConfig)
    (added : ValidEntry platform) :
    validateConfig platform (config.allow added.entry) = validateConfig platform config := by
  have hforM : ∀ entries : List PlaywrightFlakeLinterAllowlistEntry,
      (entries ++ [added.entry]).forM (validateAllowlistEntry platform) =
        entries.forM (validateAllowlistEntry platform) := by
    intro entries
    induction entries with
    | nil =>
        show (validateAllowlistEntry platform added.entry >>= fun _ ↦ pure ()) = pure ()
        rw [added.valid]
        rfl
    | cons entry rest ih =>
        show (validateAllowlistEntry platform entry >>= fun _ ↦
            (rest ++ [added.entry]).forM (validateAllowlistEntry platform)) = _
        rw [ih]
        rfl
  rw [validateConfig, validateConfig]
  simp only [PlaywrightFlakeLinterConfig.allow, Option.getD_some, hforM]

/-- The violations of a file with one more entry of the allowlist are those that it does not
allow. -/
theorem reported_allow (platform : Platform) (config : PlaywrightFlakeLinterConfig)
    (entry : PlaywrightFlakeLinterAllowlistEntry) (filePath : String) (root : Source)
    (findings : RoseTree.Position × Source → List (PlaywrightFlakeRuleId × String)) :
    reported platform (config.allow entry) filePath root findings =
      withoutAllowed platform entry (reported platform config filePath root findings) := by
  rw [reported, reported, withoutAllowed, List.filter_flatMap]
  congr 1
  funext node
  rw [violationsAt, violationsAt, List.filter_map, List.filter_filter]
  congr 1
  refine List.filter_congr fun finding _ ↦ ?_
  simp only [isAllowed, isAllowlistedByConfig, PlaywrightFlakeLinterConfig.allow,
    Option.getD_some, List.any_append, List.any_cons, List.any_nil, Bool.or_false, Bool.not_or]
  exact (Bool.and_assoc _ _ _).symm.trans (Bool.and_comm _ _)

/-- The errors stay, and of the violations those that an entry does not allow. -/
theorem lintFile_allow (project : Project) (config : PlaywrightFlakeLinterConfig)
    (added : ValidEntry project.platform) (cwd filePath : String) :
    ∃ outcome, EndsWith (lintFile project · config cwd filePath) outcome ∧
      EndsWith (lintFile project · (config.allow added.entry) cwd filePath)
        (outcome.map (withoutAllowed project.platform added.entry)) := by
  cases hread : project.readFile filePath with
  | error message =>
      exact ⟨.error message, ⟨0, fun fuel _ ↦ by simp [lintFile, hread]⟩,
        ⟨0, fun fuel _ ↦ by simp [lintFile, hread, Except.map]⟩⟩
  | ok source =>
      simp only [lintFile, hread]
      cases hvalid : validateConfig project.platform config with
      | error message =>
          have hinvalid := (validateConfig_allow project.platform config added).trans hvalid
          exact ⟨.error message,
            ⟨0, fun fuel _ ↦ by simp [findPlaywrightFlakePatternViolations, hvalid]⟩,
            ⟨0, fun fuel _ ↦ by simp [findPlaywrightFlakePatternViolations, hinvalid, Except.map]⟩⟩
      | ok valid =>
          obtain ⟨found, hrun, -⟩ := exists_found project.platform config
            (normalizeFilePath project.platform (project.relative cwd filePath))
            (project.platform.createSourceFile
              (normalizeFilePath project.platform (project.relative cwd filePath)) source
              ((normalizeFilePath project.platform (project.relative cwd filePath)).endsWith "x"))
          have hmore : validateConfig project.platform (config.allow added.entry) = .ok () :=
            (validateConfig_allow project.platform config added).trans hvalid
          have hextended := findPlaywrightFlakePatternViolations_ends hmore rfl hrun
          rw [reported_allow, sortViolations, withoutAllowed,
            ← Outline.filter_insertionSort_comm] at hextended
          exact ⟨_, findPlaywrightFlakePatternViolations_ends hvalid rfl hrun, hextended⟩

/-- The same for some files. -/
theorem lintFiles_allow (project : Project) (config : PlaywrightFlakeLinterConfig)
    (added : ValidEntry project.platform) (cwd : String) (filePaths : List String) :
    ∃ outcome, EndsWith (lintFiles project · config cwd filePaths) outcome ∧
      EndsWith (lintFiles project · (config.allow added.entry) cwd filePaths)
        (outcome.map (withoutAllowed project.platform added.entry)) := by
  induction filePaths with
  | nil => exact ⟨.ok [], EndsWith.const _, EndsWith.const _⟩
  | cons filePath rest ih =>
      obtain ⟨first, hfirst, hfirstMore⟩ := lintFile_allow project config added cwd filePath
      obtain ⟨others, hothers, hothersMore⟩ := ih
      refine ⟨appendOutcomes first others, hfirst.bind (hothers.bind (EndsWith.const _)), ?_⟩
      have houtcome : (appendOutcomes first others).map
            (withoutAllowed project.platform added.entry) =
          appendOutcomes (first.map (withoutAllowed project.platform added.entry))
            (others.map (withoutAllowed project.platform added.entry)) := by
        cases first with
        | error message => rfl
        | ok violations =>
            cases others with
            | error message => rfl
            | ok more => exact congrArg Except.ok (List.filter_append violations more)
      rw [houtcome]
      exact hfirstMore.bind (hothersMore.bind (EndsWith.const _))

/-- Of a project, exactly the violations that the new entry allows disappear, and nothing else
changes. -/
theorem lintPlaywrightProject_allow (project : Project) (config : PlaywrightFlakeLinterConfig)
    (added : ValidEntry project.platform) (cwd : String) :
    ∃ outcome, EndsWith (lintPlaywrightProject project · config cwd) outcome ∧
      EndsWith (lintPlaywrightProject project · (config.allow added.entry) cwd)
        (outcome.map (withoutAllowed project.platform added.entry)) := by
  obtain ⟨outcome, hrun, hmore⟩ := lintFiles_allow project config added cwd
    (findSourceFiles project config cwd)
  refine ⟨_, hrun.map (·.map sortViolations), ?_⟩
  have hsort : ∀ violations, withoutAllowed project.platform added.entry
      (sortViolations violations) =
        sortViolations (withoutAllowed project.platform added.entry violations) := fun violations ↦
    Outline.filter_insertionSort_comm _ violations
  have houtcome : (outcome.map sortViolations).map (withoutAllowed project.platform added.entry) =
      (outcome.map (withoutAllowed project.platform added.entry)).map sortViolations := by
    cases outcome with
    | error message => rfl
    | ok violations => exact congrArg Except.ok (hsort violations)
  rw [houtcome]
  exact hmore.map (·.map sortViolations)

/-- A node without a text of its own. -/
def exampleNode (role : Role) (kind : SourceKind) (children : List Source) : Source :=
  .node ⟨role, kind, false, "", 0, 0, []⟩ children

/-- The call `setTimeout()`. -/
def exampleSource : Source :=
  exampleNode .other .sourceFile [exampleNode .statements .callExpression
    [exampleNode .expression (.identifier "setTimeout") []]]

/-- A project of one file with the call, whose patterns are texts to look for. -/
def exampleProject : Project where
  platform :=
    { regExp := fun pattern _ ↦ some fun text ↦
        text.toList.tails.any pattern.toList.isPrefixOf
      sep := '/'
      createSourceFile := fun _ _ _ ↦ exampleSource }
  resolve _ path := path
  relative _ path := path
  join := String.intercalate "/"
  glob _ _ := ["sleep.spec.ts"]
  readFile _ := .ok "setTimeout();"
  importDefault _ := .ok none

/-- A configuration that takes the call for a sleep, and for the gate of a mechanism. -/
def exampleConfig : PlaywrightFlakeLinterConfig where
  allowlist := none
  hardenedIdentityHelperNames := none
  identityHelperMinimumLengths := none
  identityNamePattern := none
  responseWaitCallNames := none
  retryHelperNames := none
  scanRoots := ["."]
  sharedReadinessMechanisms := some [⟨["setTimeout"], "spec", "ready", ["waitUntilReady"]⟩]
  specificRequestMatcherNames := none
  specFilePattern := some "spec"
  transientClassifierNamePatterns := none
  undiscriminatingRetryHelperNames := none

/-- An entry that allows sleeps in the file. -/
def exampleEntry : ValidEntry exampleProject.platform where
  entry := ⟨"sleep", "the clock is under test", .fixedSleep⟩
  valid := by decide

/-- The call is a sleep and opens a gate, and only the sleep is allowed. -/
theorem lintPlaywrightProject_allow_sleep :
    let gate : PlaywrightFlakePatternViolation := ⟨1, "sleep.spec.ts", 1,
      getSharedReadinessMessage ⟨["setTimeout"], "spec", "ready", ["waitUntilReady"]⟩,
      .sharedReadiness⟩
    EndsWith (lintPlaywrightProject exampleProject · exampleConfig "")
        (.ok [⟨1, "sleep.spec.ts", 1, ruleMessage .fixedSleep, .fixedSleep⟩, gate]) ∧
      EndsWith (lintPlaywrightProject exampleProject ·
        (exampleConfig.allow exampleEntry.entry) "") (.ok [gate]) := by
  intro gate
  have hruns : ∀ fuel, lintPlaywrightProject exampleProject fuel exampleConfig "" =
      some (.ok [⟨1, "sleep.spec.ts", 1, ruleMessage .fixedSleep, .fixedSleep⟩, gate]) :=
    fun fuel ↦ by with_unfolding_all rfl
  obtain ⟨outcome, ⟨bound, hrun⟩, hallowed⟩ :=
    lintPlaywrightProject_allow exampleProject exampleConfig exampleEntry ""
  obtain rfl := Option.some.inj ((hruns _).symm.trans (hrun _ bound.lt_succ_self))
  exact ⟨⟨bound, hrun⟩, hallowed⟩

end CoreUtils.FlakeLinter
