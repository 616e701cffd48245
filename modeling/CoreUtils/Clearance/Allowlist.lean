import CoreUtils.Clearance.HostRule
import CoreUtils.Library.OrderedMap

/-!
# The allow list of the proxy

`resolveAllowlist` collects the host rules of the environment: a list in one variable, and the files
that another one names. It throws when a file cannot be read or when no rule is left.
-/

namespace CoreUtils.Clearance

open Ip

/-- A text of the environment or of a file. -/
abbrev Text := List Char

/-- A thrown error: its message, and its `code` if it has one. -/
structure Failure where
  code : Option String
  message : Text
  deriving DecidableEq, Repr

/-- The variables of a process; a variable may be present without a value. -/
abbrev ProcessEnv := OrderedMap String (Option Text)

/-- The value of a variable. -/
def ProcessEnv.value (env : ProcessEnv) (name : String) : Option Text := (env.get name).join

/-- Spread the variables of one environment over another. -/
def ProcessEnv.spread (env overrides : ProcessEnv) : ProcessEnv :=
  overrides.entries.foldl (fun env entry ↦ env.set entry.1 entry.2) env

/-- The normal form of a rule, or nothing for text that is no rule. -/
def normalizeRule (runtime : Runtime) (rule : Host) : Option Host :=
  let trimmed := dropTrailingDot (runtime.toLowerCase (Text.trim Text.isWhiteSpace rule))
  if trimmed.length = 0 then none
  else if ['*', '.'].isPrefixOf trimmed then
    match normalizeHost runtime (trimmed.drop 2) with
    | none => none
    | some suffix => if (isIP suffix).isSome then none else some (['*', '.'] ++ suffix)
  else normalizeHost runtime trimmed

/-- Split a list at white space and commas. A run of separators is one separator in the source; here
it leaves empty items, which are dropped either way. -/
def parseList : Option Text → List Host
  | none => []
  | some input =>
      ((input.splitOnP fun c ↦ Text.isWhiteSpace c || c == ',').map
        (Text.trim Text.isWhiteSpace)).filter fun item ↦ item.length > 0

/-- The paths of the hosts files. -/
def parseFilesEnv (delimiter : Char) : Option Text → List Text
  | none => []
  | some value =>
      ((value.splitOnP (· == delimiter)).map (Text.trim Text.isWhiteSpace)).filter fun path ↦
        path.length > 0

/-- The hosts of a file: its lines without comments and blank lines. -/
def hostsOf (content : Text) : List Host :=
  ((content.splitOnP (· == '\n')).map fun rawLine ↦
    Text.trim Text.isWhiteSpace (rawLine.takeWhile (· ≠ '#'))).filter fun trimmed ↦
      trimmed.length > 0

/-- What `resolveAllowlist` uses of its platform: the separator of path lists, and how a path is
written in a message. -/
structure ListPlatform where
  delimiter : Char
  stringify : Text → Text

/-- The hosts of the file at a path. -/
def readHostsFile (platform : ListPlatform) (readFile : Text → Except Failure Text) (path : Text) :
    Except Failure (List Host) :=
  match readFile path with
  | .ok content => .ok (hostsOf content)
  | .error error => .error ⟨none, "Failed to read CLEARANCE_ALLOW_HOSTS_FILES path ".toList ++
      platform.stringify path ++ ": ".toList ++ error.message⟩

/-- The rules that an environment allows, in their normal form and without duplicates. -/
def resolveAllowlist (runtime : Runtime) (platform : ListPlatform)
    (readFile : Text → Except Failure Text) (env : ProcessEnv) : Except Failure (List Host) := do
  let fromEnv := parseList (env.value "CLEARANCE_ALLOW_HOSTS")
  let paths := parseFilesEnv platform.delimiter (env.value "CLEARANCE_ALLOW_HOSTS_FILES")
  let fromFiles ← paths.mapM (readHostsFile platform readFile)
  let normalized := (fromEnv ++ fromFiles.flatten).filterMap (normalizeRule runtime)
  if normalized.length = 0 then
    .error ⟨none, "Set CLEARANCE_ALLOW_HOSTS or CLEARANCE_ALLOW_HOSTS_FILES, ".toList ++
      "e.g. CLEARANCE_ALLOW_HOSTS=api.example.com.".toList⟩
  else .ok (OrderedMap.keys (OrderedSet.ofList normalized))

end CoreUtils.Clearance
