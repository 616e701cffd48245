import CoreUtils.Embedex.SecondRun
import CoreUtils.Library.Outline

/-!
# The command

What `cli.ts` and `processResult.ts` print about a run, the exit code, and the files afterwards.
`cli_check` compares the check with a run that writes; `cli_settles` says when the check passes
after such a run.
-/

namespace CoreUtils.Embedex

/-! ## Results as lines -/

/-- The codes of results. -/
inductive EmbedCode where
  | circularDependency
  | invalidSource
  | noChange
  | noMatch
  | unreferencedSource
  | update
deriving DecidableEq

/-- A code as text. -/
def EmbedCode.text : EmbedCode → String
  | .circularDependency => "CIRCULAR_DEPENDENCY"
  | .invalidSource => "INVALID_SOURCE"
  | .noChange => "NO_CHANGE"
  | .noMatch => "NO_MATCH"
  | .unreferencedSource => "UNREFERENCED_SOURCE"
  | .update => "UPDATE"

/-- The place of a code in the order of `localeCompare`. -/
def EmbedCode.place : EmbedCode → ℕ
  | .circularDependency => 0
  | .invalidSource => 1
  | .noChange => 2
  | .noMatch => 3
  | .unreferencedSource => 4
  | .update => 5

/-- `code` of a result. -/
def Embed.code : Embed → EmbedCode
  | .noMatch _ => .noMatch
  | .noChange _ _ => .noChange
  | .update _ _ _ => .update
  | .invalidSource _ _ => .invalidSource
  | .unreferencedSource _ _ => .unreferencedSource
  | .circularDependency _ _ => .circularDependency

/-- Colors, and paths relative to the working directory. -/
structure Terminal where
  red : String → String
  green : String → String
  gray : String → String
  dim : String → String
  relative : ResolvedPath → String

/-- Relative paths with a separator between them. -/
def Terminal.join (terminal : Terminal) (separator : String) (paths : List ResolvedPath) : String :=
  String.intercalate separator (paths.map terminal.relative)

/-- What the command prints about an embed, and whether it is an error. -/
structure Output where
  code : EmbedCode
  isError : Bool
  message : String
deriving DecidableEq

/-- `formatOutput`. An empty destination counts as none. -/
def formatOutput (terminal : Terminal) (code : EmbedCode) (isError : Bool)
    (destination : Option String) (detail : String) : String :=
  let coloredCode := (if isError then terminal.red else terminal.green) code.text
  match destination.filter (· ≠ "") with
  | some destination =>
      coloredCode ++ " " ++ terminal.gray destination ++ " -> " ++ terminal.gray detail
  | none => coloredCode ++ " " ++ terminal.gray detail

/-- The destination that the line for a result shows. -/
def shownDestination (terminal : Terminal) : Embed → Option String
  | .circularDependency _ _ => none
  | .noMatch destination | .noChange destination _ | .update destination _ _
  | .invalidSource destination _ | .unreferencedSource destination _ =>
      some (terminal.relative destination)

/-- What the line for a result says besides. -/
def detailOf (terminal : Terminal) : Embed → String
  | .invalidSource _ invalidSources => "missing: " ++ terminal.join ", " invalidSources
  | .unreferencedSource _ unreferencedSources =>
      "not referenced: " ++ terminal.join ", " unreferencedSources
  | .circularDependency _ cycle => terminal.join " → " cycle
  | .noMatch _ => "—"
  | .noChange _ sources | .update _ sources _ =>
      if 0 < sources.length then terminal.join ", " sources else "—"

/-- The line for a result. -/
def outputOf (terminal : Terminal) (check : Bool) (anEmbed : Embed) : Output where
  code := anEmbed.code
  isError := anEmbed.isError check
  message := formatOutput terminal anEmbed.code (anEmbed.isError check)
    (shownDestination terminal anEmbed) (detailOf terminal anEmbed)

/-- `processResult`: the lines, sorted by code. -/
def processResult (terminal : Terminal) (check : Bool) (result : EmbedResult) : List Output :=
  (result.embeds.map (outputOf terminal check)).insertionSort fun first second ↦
    first.code.place ≤ second.code.place

/-- What `processResult` logs if it is verbose. -/
def verboseResult (terminal : Terminal) (result : EmbedResult) : List String :=
  let format := fun item : ResolvedPath × List ResolvedPath ↦
    terminal.relative item.1 ++ " -> " ++ terminal.join ", " item.2
  [terminal.dim ("sources:\n   " ++ String.intercalate "\n  " (result.sources.map format)),
    terminal.dim ("destinations:\n   " ++
      String.intercalate "\n  " (result.destinations.map format))]

/-! ## The run of the command -/

/-- The options of the command. -/
structure Options where
  sourcesGlob : String
  check : Bool
  verbose : Bool

/-- What the command leaves besides the files. -/
structure Exit where
  exitCode : ℕ
  stdout : List String
  stderr : List String
deriving DecidableEq

/-- What the command logs before the run. -/
def verboseStart (terminal : Terminal) (cwd : String) (options : Options) : List String :=
  if options.verbose then
    [terminal.dim ("sourcesGlob:\n   " ++ options.sourcesGlob), terminal.dim ("cwd:\n   " ++ cwd)]
  else []

/-- How the command ends with a result. -/
def exitOf (terminal : Terminal) (cwd : String) (options : Options) (result : EmbedResult) : Exit :=
  let output := processResult terminal options.check result
  let logged := verboseStart terminal cwd options ++
    if options.verbose then verboseResult terminal result else []
  let lines := String.intercalate "\n" (output.map Output.message)
  if output.any Output.isError then ⟨1, logged, [lines]⟩ else ⟨0, logged ++ [lines], []⟩

/-- `cli.ts`, given the paths that the glob finds, and the message of the error if `embed`
rejects. -/
def cli (terminal : Terminal) (cwd errorMessage : String) (options : Options)
    (resolve : Text → ResolvedPath) (paths : List ResolvedPath) (files : FileSystem) :
    Exit × FileSystem :=
  match embed resolve (!options.check) paths files with
  | none => (⟨1, verboseStart terminal cwd options, [errorMessage]⟩, files)
  | some (result, files') => (exitOf terminal cwd options result, files')

/-! ## The lines -/

variable {terminal : Terminal} {cwd errorMessage : String} {options : Options} {check : Bool}
  {resolve : Text → ResolvedPath} {paths : List ResolvedPath} {files files' : FileSystem}
  {result : EmbedResult}

/-- Some line is an error if some result is one. -/
theorem any_isError_processResult :
    (processResult terminal check result).any Output.isError =
      result.embeds.any (Embed.isError check) := by
  rw [processResult, (List.perm_insertionSort _ _).any_eq, List.any_map]
  rfl

/-! ## The check -/

/-- The command exits with zero if the run ends and no result is an error. -/
theorem cli_exitCode :
    (cli terminal cwd errorMessage options resolve paths files).1.exitCode = 0 ↔
      ∃ run, embed resolve (!options.check) paths files = some run ∧
        ∀ anEmbed ∈ run.1.embeds, anEmbed.isError options.check = false := by
  rw [cli]
  cases hembed : embed resolve (!options.check) paths files with
  | none => simp
  | some run =>
      have hexit : (exitOf terminal cwd options run.1).exitCode = 0 ↔
          ∀ anEmbed ∈ run.1.embeds, anEmbed.isError options.check = false := by
        simp only [exitOf, any_isError_processResult]
        split
        next herror =>
          obtain ⟨anEmbed, hmem, herror⟩ := List.any_eq_true.mp herror
          exact iff_of_false (by simp) fun h ↦ by simp [h anEmbed hmem] at herror
        next hnone =>
          exact iff_of_true rfl fun anEmbed hmem ↦ by
            simpa using fun herror ↦ hnone (List.any_eq_true.mpr ⟨anEmbed, hmem, herror⟩)
      simpa using hexit

/-- After a run that exits with zero, and in which every destination settles at its turn, the check
of the files that the glob finds then passes. -/
theorem cli_settles (terminal : Terminal) (cwd errorMessage sourcesGlob : String) (verbose : Bool)
    (resolve : Text → ResolvedPath) (glob : (ResolvedPath → Bool) → List ResolvedPath)
    (files files' : FileSystem) (paths paths' : List ResolvedPath) (exit : Exit)
    (hglob : paths.Perm (glob fun path ↦ (files path).isSome))
    (hrun : cli terminal cwd errorMessage ⟨sourcesGlob, false, verbose⟩ resolve paths files =
      (exit, files'))
    (hexit : exit.exitCode = 0) (hsettles : RunSettles resolve paths files)
    (hglob' : paths'.Perm (glob fun path ↦ (files' path).isSome)) :
    (cli terminal cwd errorMessage ⟨sourcesGlob, true, verbose⟩ resolve paths' files').1.exitCode =
      0 := by
  have hzero : (cli terminal cwd errorMessage ⟨sourcesGlob, false, verbose⟩ resolve paths
      files).1.exitCode = 0 := by
    rw [hrun]
    exact hexit
  obtain ⟨⟨result, written⟩, hembed, hall⟩ := cli_exitCode.mp hzero
  simp only [Bool.not_false] at hembed
  obtain rfl : written = files' := by
    simp only [cli, Bool.not_false, hembed, Prod.mk.injEq] at hrun
    exact hrun.2
  have hsucceeded : ∀ anEmbed ∈ result.embeds, anEmbed.succeeded = true := by
    intro anEmbed hmem
    have hnone := hall anEmbed hmem
    cases anEmbed <;> first | rfl | contradiction
  obtain ⟨result', order, sources, hagain, hembeds, -⟩ := embed_again hembed hsucceeded hsettles
    (mem_paths_of_globs hembed hsucceeded hsettles hglob hglob') false
  refine cli_exitCode.mpr ⟨(result', written), hagain, fun anEmbed hmem ↦ ?_⟩
  rw [hembeds] at hmem
  obtain ⟨path, -, rfl⟩ := List.mem_map.mp hmem
  rfl

/-- A terminal without colors, in the root directory. -/
def plainTerminal : Terminal := ⟨id, id, id, id, fun path ↦ String.ofList path.text⟩

/-- The check passes after the run over the chain of Markdown files. -/
example :
    ∃ (exit : Exit) (files' : FileSystem),
      cli plainTerminal "/" "" ⟨"**", false, false⟩ belowRoot
        (globOf markdownChain fun path ↦ (filesBelowRoot markdownChain path).isSome)
        (filesBelowRoot markdownChain) = (exit, files') ∧
      (cli plainTerminal "/" "" ⟨"**", true, false⟩ belowRoot
        (globOf markdownChain fun path ↦ (files' path).isSome) files').1.exitCode = 0 := by
  obtain ⟨hok, hsettles⟩ := markdownChain_settles
  obtain ⟨run, hembed, hall⟩ := (Option.any_eq_true _ _).mp hok
  have hexit : (cli plainTerminal "/" "" ⟨"**", false, false⟩ belowRoot
      (globOf markdownChain fun path ↦ (filesBelowRoot markdownChain path).isSome)
      (filesBelowRoot markdownChain)).1.exitCode = 0 := by
    refine cli_exitCode.mpr ⟨run, hembed, fun anEmbed hmem ↦ ?_⟩
    have hsucceeded := List.all_eq_true.mp hall anEmbed hmem
    cases anEmbed <;> first | rfl | contradiction
  exact ⟨_, _, rfl, cli_settles plainTerminal "/" "" "**" false belowRoot (globOf markdownChain)
    (filesBelowRoot markdownChain) _ _ _ _ (.refl _) rfl hexit hsettles (.refl _)⟩

end CoreUtils.Embedex
