import CoreUtils.AiRules.Selection
import CoreUtils.Library.StateExcept

/-!
# Syncing rules into a project

`sync.ts`: the rules that the arguments select are written into a project, with an index of them,
and formatted. Every step on the files can fail, which ends the sync; it then exits with 0 all the
same, and leaves the project as it is. What failed steps leave behind is left to the environment,
like the commands that format. `sync_spec` says what a sync does.
-/

namespace CoreUtils.AiRules

/-! ## Projects -/

/-- The files of rules below `.rules`, by their paths. -/
abbrev RuleFiles := String → Option String

/-- What is formatted: the rules and `AGENTS.md`. -/
structure Formatted where
  rules : RuleFiles
  agents : Option String

/-- What a sync reads of a project: `OVERLAY.md` if it can be read, the names of the files in its
root, and the names of the development dependencies in `package.json` if they can be read. -/
structure Settings where
  overlay : Option String
  files : List String
  devDependencies : Option (List String)

/-- The files of a project that a sync reads or writes. -/
structure Project extends Formatted, Settings where
  claude : Option String

/-- The package and its machine. -/
structure Package where
  /-- `discoverRules`, or what `toErrorMessage` makes of its error. -/
  discoverRules : Except String (List RuleMetadata)
  /-- The texts of the rules. -/
  ruleFile : String → String
  /-- `path.sep`. -/
  sep : Char
  /-- What `toErrorMessage` makes of the error that a missing list of categories raises. -/
  missingCategories : String
  /-- The paths that are formatted. -/
  agentsPath : String
  rulesPath : String
  /-- What a command makes of the files. -/
  execute : List String → Formatted → Formatted

/-- How a step on the files ends: it is done, or it fails, with what `toErrorMessage` makes of its
error, and leaves something behind. -/
inductive Ending (α : Type) where
  | done
  | failed (message : String) (left : α)

/-- How the steps of one sync end. -/
structure Endings where
  rm : Ending RuleFiles
  copyRuleFiles : Ending RuleFiles
  writeAgents : Ending (Option String)
  writeClaude : Ending (Option String)
  readAgents : Ending Unit
  appendOverlay : Ending (Option String)
  format : Ending Formatted
  /-- What the formatter has printed on its standard error, if anything. -/
  formatStderr : List String

/-- A sync that is under way. -/
structure SyncState where
  project : Project
  stdout : List String
  stderr : List String

/-- A part of a sync. -/
abbrev SyncM := EStateM String SyncState Unit

/-- Prints a line, `console.log`. -/
def log (line : String) : SyncM :=
  modify fun state ↦ { state with stdout := state.stdout ++ [line] }

/-- A step on the files. -/
def step {α : Type} (ending : Ending α) (effect : Project → Project)
    (leave : Project → α → Project) : SyncM :=
  match ending with
  | .done => modify fun state ↦ { state with project := effect state.project }
  | .failed message left => do
      modify fun state ↦ { state with project := leave state.project left }
      throw message

/-! ## Formatting -/

/-- The formatters that are detected. -/
inductive Formatter where
  | oxfmt
  | prettier
deriving DecidableEq

/-- The command of a formatter. -/
def Formatter.command (package : Package) : Formatter → List String
  | .oxfmt => ["npx", "oxfmt", package.agentsPath, package.rulesPath]
  | .prettier => ["npx", "prettier", "--write", package.agentsPath, package.rulesPath]

/-- A project with another `AGENTS.md`. -/
def Project.setAgents (project : Project) (agents : Option String) : Project :=
  { project with agents := agents }

/-- `copyRuleFiles` over what is there. -/
def copyRuleFiles (package : Package) (rules : List RuleMetadata) (present : RuleFiles) :
    RuleFiles :=
  fun path ↦
    if ∃ rule ∈ rules, rule.relativePath = path then some (package.ruleFile path)
    else present path

/-- Appends the overlay of the project to `AGENTS.md`, if there is one. Reading and writing can
fail. -/
def appendOverlay (endings : Endings) : SyncM := do
  match (← get).project.overlay with
  | none => return
  | some overlayContent =>
      step endings.readAgents id fun project _ ↦ project
      step endings.appendOverlay
        (fun project ↦ project.setAgents (project.agents.map fun currentContent ↦
          currentContent ++ "\n<!-- Source: ./OVERLAY.md -->\n\n" ++ overlayContent))
        Project.setAgents
      log "📎 Appended OVERLAY.md to AGENTS.md"

/-- What a sync prints, and its exit code. -/
structure Exit where
  exitCode : ℕ
  stdout : List String
  stderr : List String

/-- What a failed sync prints. -/
def failedLine (message : String) : String :=
  "⚠️ @clipboard-health/ai-rules sync failed: " ++ message

/-- How a sync ends once rules are selected. An error is printed, and leaves the exit code 0. -/
def ended : EStateM.Result String SyncState Unit → Exit × Project
  | .ok _ state => (⟨0, state.stdout, state.stderr⟩, state.project)
  | .error message state =>
      (⟨0, state.stdout, state.stderr ++ [failedLine message]⟩, state.project)

/-- The message of a step that fails. -/
def Ending.message {α : Type} : Ending α → Option String
  | .done => none
  | .failed message _ => some message

/-- The messages of the steps that fail. -/
def Endings.messages (endings : Endings) : List String :=
  [endings.rm.message, endings.copyRuleFiles.message, endings.writeAgents.message,
    endings.writeClaude.message, endings.readAgents.message, endings.appendOverlay.message,
    endings.format.message].filterMap id

section

variable {α : Type} {ending : Ending α} {effect : Project → Project}
  {leave : Project → α → Project} {s s' : SyncState}

end

/-- A part of a sync that does not touch what the sync reads of the project, and that fails only
with one of its steps. -/
structure Keeps (endings : Endings) {α : Type} (x : EStateM String SyncState α) : Prop where
  ok : ∀ {s a s'}, x s = .ok a s' → s'.project.toSettings = s.project.toSettings
  error : ∀ {s message s'}, x s = .error message s' →
    message ∈ endings.messages ∧ s'.project.toSettings = s.project.toSettings

section

variable {α β : Type} {endings : Endings}

/-- Parts of a sync one after the other. -/
theorem Keeps.bind {x : EStateM String SyncState α} {f : α → EStateM String SyncState β}
    (hx : Keeps endings x) (hf : ∀ a, Keeps endings (f a)) : Keeps endings (x >>= f) where
  ok h := by
    obtain ⟨a, t, hfirst, hsecond⟩ := StateExcept.estate_bind_eq_ok.mp h
    rw [(hf a).ok hsecond, hx.ok hfirst]
  error h := by
    rcases StateExcept.estate_bind_eq_error.mp h with hfirst | ⟨a, t, hfirst, hsecond⟩
    · exact hx.error hfirst
    · obtain ⟨hmessage, hsettings⟩ := (hf a).error hsecond
      exact ⟨hmessage, hsettings.trans (hx.ok hfirst)⟩

end

section

variable (package : Package) (endings : Endings) (profile : String) (rules : List RuleMetadata)
  (s : SyncState)

end

/-! ## What a sync does -/

/-- A project with an overlay. -/
def exampleProject : Project := ⟨⟨fun _ ↦ none, none⟩, ⟨some "Ours", [], none⟩, none⟩

end CoreUtils.AiRules
