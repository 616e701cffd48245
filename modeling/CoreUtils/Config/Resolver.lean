import Mathlib.Data.Rat.Defs
import Mathlib.Data.List.Nodup
import Mathlib.Tactic.Common
import CoreUtils.Library.ObjectLiteral

/-!
# Static configuration

`createConfig.ts` and `resolver.ts`: a configuration is a tree of config values, each with a default
and overrides for some environments, and is resolved with the environment variables. Read
`resolve_precedence` first: what comes out at the path of a config value is the variable of the
path, else the override, else the default; an environment with the name of a built-in property finds
that property in any overrides. `createConfig_congr` says which variables can matter.
-/

namespace CoreUtils.Config

/-- A text. -/
abbrev Text := List Char

/-- A value, of a configuration or of a part of it. -/
inductive Value where
  | undefined
  | null
  | bool (value : Bool)
  | number (value : ℚ)
  | bigint (value : ℤ)
  | date (time : ℤ)
  | string (value : Text)
  | array (items : List Value)
  | object (members : List (Text × Value))
  /-- What every object inherits under this name. -/
  | inherited (name : Text)

namespace Value

/-- The value is neither `undefined` nor `null`. -/
def isDefined : Value → Bool
  | undefined => false
  | null => false
  | _ => true

/-- A member of an object. -/
def member (key : Text) : Value → Option Value
  | object members => members.lookup key
  | _ => none

/-- A property of an object: its member, or else what it inherits. -/
def property (key : Text) : Value → Option Value
  | object members =>
      (members.lookup key).or (if inheritedNames.contains key then some (inherited key) else none)
  | _ => none

/-- The value at a path. -/
def atPath : List Text → Value → Option Value
  | [], value => some value
  | key :: path, value => (value.member key).bind (atPath path)

end Value

/-- A Zod schema, as far as the code looks at it. -/
inductive ZodType where
  | object (shape : List (Text × ZodType))
  | array (element : ZodType)
  | other

/-- What the code calls: `decamelize`, `toUpperCase`, and `JSON.parse`, which may throw. -/
structure Runtime where
  decamelize : Text → Text
  toUpperCase : Text → Text
  parseJson : Text → Option Value

/-- What a configuration is resolved with: `process.env`, the current environment and the schema. -/
structure Params where
  runtime : Runtime
  env : Text → Option Text
  environment : Text
  schema : ZodType

/-! ## The code -/

/-- The key of the description of a config value. -/
def descriptionKey : Text := "description".toList

/-- The key of the default of a config value. -/
def defaultValueKey : Text := "defaultValue".toList

/-- The key of the overrides of a config value. -/
def overridesKey : Text := "overrides".toList

/-- An object with the two members that every config value has. -/
def isConfigValue (value : Value) : Bool :=
  (value.member descriptionKey).isSome && (value.member defaultValueKey).isSome

/-- The member of a schema under a key, if it is a `ZodObject`. What its shape inherits is no
schema. -/
def ZodType.shape (key : Text) : ZodType → Option ZodType
  | .object shape => shape.lookup key
  | _ => none

/-- The schema below a path of keys, none if one of the keys leads to nothing. -/
def getSchema (path : List Text) (schema : ZodType) : Option ZodType :=
  path.foldl (fun result key ↦ result.bind (ZodType.shape key)) (some schema)

/-- The value of an environment variable: parsed as JSON where the schema is an array and this
succeeds, else the text. -/
def parseEnvironmentVariable (runtime : Runtime) (value : Text) : Option ZodType → Value
  | some (.array _) => (runtime.parseJson value).getD (.string value)
  | _ => .string value

/-- The name of the environment variable of a path. -/
def variableName (runtime : Runtime) (path : List Text) : Text :=
  runtime.toUpperCase (runtime.decamelize (['_'].intercalate path))

/-- What a config value is in the environment: the variable of its path, else a defined override,
else the default. -/
def resolveConfigValue (params : Params) (path : List Text) (value : Value) : Value :=
  match params.env (variableName params.runtime path) with
  | some text => parseEnvironmentVariable params.runtime text (getSchema path params.schema)
  | none =>
      let override := ((value.member overridesKey).bind
        (Value.property params.environment)).getD .undefined
      if override.isDefined then override
      else (value.member defaultValueKey).getD .undefined

mutual

/-- The configuration with every config value resolved. What is no object becomes an empty one. -/
def resolve (params : Params) (path : List Text) : Value → Value
  | .object members => .object (resolveEntries params path members)
  | _ => .object []

/-- The entries of `resolve`. -/
def resolveEntries (params : Params) (path : List Text) :
    List (Text × Value) → List (Text × Value)
  | [] => []
  | (key, value) :: rest =>
      (key, if isConfigValue value then resolveConfigValue params (path ++ [key]) value
        else resolve params (path ++ [key]) value) :: resolveEntries params path rest

end

/-- `createConfig`, with the `safeParse` of the schema. The data of a success are frozen then. -/
def createConfig {Data Error : Type*} (params : Params) (safeParse : Value → Except Error Data)
    (config : Value) : Except Error Data :=
  safeParse (resolve params [] config)

/-! ## Config values and their paths -/

/-- The first config value on the way along a path ends the path. -/
def configAt : List Text → Value → Option Value
  | [], _ => none
  | key :: path, config => do
      let value ← config.member key
      if isConfigValue value then
        if path = [] then some value else none
      else configAt path value

/-- The map of config values at a path. -/
def mapAt : List Text → Value → Option (List (Text × Value))
  | [], .object members => some members
  | [], _ => none
  | key :: path, config => do
      let value ← config.member key
      if isConfigValue value then none else mapAt path value

/-- The schema that a path leads to through objects. -/
inductive Leads : ZodType → List Text → ZodType → Prop where
  | here (schema : ZodType) : Leads schema [] schema
  | member {shape : List (Text × ZodType)} {key : Text} {path : List Text} {inner found : ZodType} :
      shape.lookup key = some inner → Leads inner path found →
      Leads (.object shape) (key :: path) found

mutual

/-- The keys of every object are distinct, as they are in the language. -/
def Value.Distinct : Value → Prop
  | .object members => (members.map Prod.fst).Nodup ∧ DistinctEntries members
  | _ => True

/-- The keys of every object in the entries are distinct. -/
def DistinctEntries : List (Text × Value) → Prop
  | [] => True
  | (_, value) :: rest => value.Distinct ∧ DistinctEntries rest

end

/-! ## What a schema is looked up by -/

/-- A schema that is missing stays missing. -/
theorem foldl_shape_none (path : List Text) :
    path.foldl (fun result key ↦ result.bind (ZodType.shape key)) none = none := by
  induction path with
  | nil => rfl
  | cons key path ih => exact ih

/-- `getSchema` finds what a path leads to through objects only. -/
theorem getSchema_eq_some_iff {path : List Text} {schema found : ZodType} :
    getSchema path schema = some found ↔ Leads schema path found := by
  induction path generalizing schema with
  | nil =>
      refine ⟨fun h ↦ ?_, fun h ↦ ?_⟩
      · obtain rfl := Option.some.inj h
        exact .here schema
      · cases h
        rfl
  | cons key path ih =>
      have hfold : getSchema (key :: path) schema =
          path.foldl (fun result key ↦ result.bind (ZodType.shape key)) (schema.shape key) := rfl
      rw [hfold]
      constructor
      · intro h
        cases hshape : schema.shape key with
        | none =>
            rw [hshape, foldl_shape_none] at h
            contradiction
        | some inner =>
            rw [hshape] at h
            cases schema with
            | object shape => exact .member hshape (ih.mp h)
            | array element => contradiction
            | other => contradiction
      · intro h
        cases h with
        | @member shape _ _ inner _ hlookup hrest =>
            rw [show (ZodType.object shape).shape key = some inner from hlookup]
            exact ih.mpr hrest

/-! ## Resolving a tree -/

variable {params : Params}

/-- What an entry of a configuration is resolved to. -/
def resolved (params : Params) (path : List Text) (value : Value) : Value :=
  if isConfigValue value then resolveConfigValue params path value else resolve params path value

/-- An entry of a resolved map is the resolved entry. -/
theorem lookup_resolveEntries (path : List Text) (members : List (Text × Value)) (key : Text) :
    (resolveEntries params path members).lookup key =
      (members.lookup key).map (resolved params (path ++ [key])) := by
  induction members with
  | nil => simp [resolveEntries]
  | cons entry rest ih =>
      obtain ⟨stored, value⟩ := entry
      rw [resolveEntries, List.lookup_cons, List.lookup_cons, ih]
      by_cases hkey : key = stored
      · subst hkey
        simp [resolved]
      · have hne : (key == stored) = false := by simpa using hkey
        simp [hne]

/-- The keys of a resolved map are its keys, in their order. -/
theorem map_fst_resolveEntries (path : List Text) (members : List (Text × Value)) :
    (resolveEntries params path members).map Prod.fst = members.map Prod.fst := by
  induction members with
  | nil => simp [resolveEntries]
  | cons entry rest ih => simp [resolveEntries, ih]

/-- A member of a resolved configuration is the resolved member. -/
theorem member_resolve (path : List Text) (config : Value) (key : Text) :
    (resolve params path config).member key =
      (config.member key).map (resolved params (path ++ [key])) := by
  cases config with
  | object members =>
      rw [resolve]
      exact lookup_resolveEntries path members key
  | _ => simp [resolve, Value.member]

/-- At the path of a config value stands what it is resolved to. -/
theorem atPath_resolve_of_configAt {path : List Text} {config value : Value} (start : List Text)
    (h : configAt path config = some value) :
    (resolve params start config).atPath path =
      some (resolveConfigValue params (start ++ path) value) := by
  induction path generalizing start config with
  | nil => contradiction
  | cons key path ih =>
      rw [configAt, Option.bind_eq_bind, Option.bind_eq_some_iff] at h
      obtain ⟨inner, hmember, h⟩ := h
      rw [Value.atPath, member_resolve, hmember, Option.map_some, Option.bind_some, resolved]
      split at h
      next hconfig =>
        split at h
        next hpath =>
          obtain rfl := Option.some.inj h
          subst hpath
          rw [if_pos hconfig]
          rfl
        next => contradiction
      next hconfig =>
        rw [if_neg hconfig, ih (start ++ [key]) h, List.append_assoc]
        rfl

/-- A config value has a default. -/
theorem isSome_defaultValue_of_configAt {path : List Text} {config value : Value}
    (h : configAt path config = some value) : (value.member defaultValueKey).isSome := by
  induction path generalizing config with
  | nil => contradiction
  | cons key path ih =>
      rw [configAt, Option.bind_eq_bind, Option.bind_eq_some_iff] at h
      obtain ⟨inner, -, h⟩ := h
      split at h
      next hconfig =>
        split at h
        next =>
          obtain rfl := Option.some.inj h
          exact (Bool.and_eq_true_iff.mp hconfig).2
        next => contradiction
      next => exact ih h

/-- At the path of a map stands a map with the same keys. -/
theorem atPath_resolve_of_mapAt {path : List Text} {config : Value} {members : List (Text × Value)}
    (start : List Text) (h : mapAt path config = some members) :
    ∃ members', (resolve params start config).atPath path = some (.object members') ∧
      members'.map Prod.fst = members.map Prod.fst := by
  induction path generalizing start config with
  | nil =>
      cases config with
      | object stored =>
          obtain rfl := Option.some.inj h
          refine ⟨resolveEntries params start stored, ?_, map_fst_resolveEntries start stored⟩
          rw [resolve]
          rfl
      | _ => contradiction
  | cons key path ih =>
      rw [mapAt, Option.bind_eq_bind, Option.bind_eq_some_iff] at h
      obtain ⟨inner, hmember, h⟩ := h
      rw [Value.atPath, member_resolve, hmember, Option.map_some, Option.bind_some, resolved]
      split at h
      next => contradiction
      next hconfig =>
        rw [if_neg hconfig]
        exact ih (start ++ [key]) h

mutual

/-- The variables that a configuration is resolved with. -/
def variableNames (runtime : Runtime) (path : List Text) : Value → List Text
  | .object members => variableNamesOf runtime path members
  | _ => []

/-- The variables that the entries of a map are resolved with. -/
def variableNamesOf (runtime : Runtime) (path : List Text) : List (Text × Value) → List Text
  | [] => []
  | (key, value) :: rest =>
      (if isConfigValue value then [variableName runtime (path ++ [key])]
        else variableNames runtime (path ++ [key]) value) ++ variableNamesOf runtime path rest

end

mutual

/-- Environments that agree on these variables give the same resolved configuration. -/
theorem resolve_congr (env : Text → Option Text) : ∀ (config : Value) (path : List Text),
    (∀ name ∈ variableNames params.runtime path config, params.env name = env name) →
    resolve params path config = resolve { params with env := env } path config
  | .object members, path, h => by
      rw [resolve, resolve, resolveEntries_congr env members path h]
  | .undefined, _, _ | .null, _, _ | .bool _, _, _ | .number _, _, _ | .bigint _, _, _
  | .date _, _, _ | .string _, _, _ | .array _, _, _ | .inherited _, _, _ => by simp [resolve]

/-- Environments that agree on these variables give the same resolved entries. -/
theorem resolveEntries_congr (env : Text → Option Text) :
    ∀ (members : List (Text × Value)) (path : List Text),
    (∀ name ∈ variableNamesOf params.runtime path members, params.env name = env name) →
    resolveEntries params path members = resolveEntries { params with env := env } path members
  | [], _, _ => by simp [resolveEntries]
  | (key, value) :: rest, path, h => by
      rw [variableNamesOf, List.forall_mem_append] at h
      obtain ⟨hvalue, hrest⟩ := h
      rw [resolveEntries, resolveEntries, resolveEntries_congr env rest path hrest]
      split at hvalue
      next hconfig =>
        have hname := hvalue _ (List.mem_singleton_self _)
        rw [if_pos hconfig, if_pos hconfig, resolveConfigValue, resolveConfigValue, hname]
      next hconfig =>
        rw [if_neg hconfig, if_neg hconfig, resolve_congr env value _ hvalue]

end

mutual

/-- Each of these variables is that of a config value. -/
theorem exists_configAt_of_mem_variableNames {runtime : Runtime} {name : Text} :
    ∀ (config : Value) (start : List Text), config.Distinct →
      name ∈ variableNames runtime start config →
      ∃ path value, configAt path config = some value ∧ name = variableName runtime (start ++ path)
  | .object members, start, hdistinct, h => by
      rw [Value.Distinct] at hdistinct
      rw [variableNames] at h
      obtain ⟨key, path, value, rest, hlookup, hconfig, hname⟩ :=
        exists_lookup_of_mem_variableNamesOf members start hdistinct.1 hdistinct.2 h
      refine ⟨key :: path, rest, ?_, hname⟩
      rw [configAt, Option.bind_eq_bind, show (Value.object members).member key = some value from
        hlookup, Option.bind_some]
      exact hconfig
  | .undefined, _, _, h | .null, _, _, h | .bool _, _, _, h | .number _, _, _, h
  | .bigint _, _, _, h | .date _, _, _, h | .string _, _, _, h | .array _, _, _, h
  | .inherited _, _, _, h => by
      simp [variableNames] at h

/-- Each variable of the entries of a map is that of a config value below one of them. -/
theorem exists_lookup_of_mem_variableNamesOf {runtime : Runtime} {name : Text} :
    ∀ (members : List (Text × Value)) (start : List Text), (members.map Prod.fst).Nodup →
      DistinctEntries members → name ∈ variableNamesOf runtime start members →
      ∃ key path value found, members.lookup key = some value ∧
        (if isConfigValue value then if path = [] then some value else none
          else configAt path value) = some found ∧
        name = variableName runtime (start ++ key :: path)
  | [], _, _, _, h => by simp [variableNamesOf] at h
  | (key, value) :: rest, start, hnodup, hdistinct, h => by
      rw [List.map_cons, List.nodup_cons] at hnodup
      rw [DistinctEntries] at hdistinct
      rw [variableNamesOf, List.mem_append] at h
      rcases h with h | h
      · by_cases hconfig : isConfigValue value
        · rw [if_pos hconfig, List.mem_singleton] at h
          exact ⟨key, [], value, value, by simp, by simp [hconfig], h⟩
        · rw [if_neg hconfig] at h
          obtain ⟨path, found, hfound, hname⟩ :=
            exists_configAt_of_mem_variableNames value (start ++ [key]) hdistinct.1 h
          exact ⟨key, path, value, found, by simp, by simpa [hconfig] using hfound,
            by simpa using hname⟩
      · obtain ⟨other, path, inner, found, hlookup, hfound, hname⟩ :=
          exists_lookup_of_mem_variableNamesOf rest start hnodup.2 hdistinct.2 h
        refine ⟨other, path, inner, found, ?_, hfound, hname⟩
        have hne : other ≠ key := by
          rintro rfl
          obtain ⟨before, after, rfl, -⟩ := List.lookup_eq_some_iff.mp hlookup
          exact hnodup.1 (by simp)
        rw [List.lookup_cons, beq_false_of_ne hne]
        exact hlookup

end

/-! ## Configurations -/

/-- What is resolved for a config value follows the precedence: the variable of its path, as JSON
where the schema has an array at the path and the text can be parsed; else the override for the
environment, if it is defined; else what the overrides inherit under the name of the environment;
else the default. -/
structure FollowsPrecedence (params : Params) (path : List Text) (value resolved : Value) :
    Prop where
  parsed {text : Text} {element : ZodType} :
    params.env (variableName params.runtime path) = some text →
    Leads params.schema path (.array element) →
    resolved = (params.runtime.parseJson text).getD (.string text)
  text {text : Text} :
    params.env (variableName params.runtime path) = some text →
    (∀ element, ¬ Leads params.schema path (.array element)) → resolved = .string text
  override {override : Value} :
    params.env (variableName params.runtime path) = none →
    value.atPath [overridesKey, params.environment] = some override → override.isDefined →
    resolved = override
  inherited {overrides : List (Text × Value)} :
    params.env (variableName params.runtime path) = none →
    value.member overridesKey = some (.object overrides) →
    overrides.lookup params.environment = none → params.environment ∈ inheritedNames →
    resolved = .inherited params.environment
  default :
    params.env (variableName params.runtime path) = none →
    (∀ override, value.atPath [overridesKey, params.environment] = some override →
      override.isDefined = false) →
    (params.environment ∈ inheritedNames → ∀ overrides,
      value.member overridesKey = some (.object overrides) →
      overrides.lookup params.environment ≠ none) →
    value.atPath [defaultValueKey] = some resolved

/-- A member of an object hides what it inherits. -/
theorem Value.property_of_member {value found : Value} {key : Text}
    (h : value.member key = some found) : value.property key = some found := by
  cases value with
  | object members =>
      replace h : members.lookup key = some found := h
      rw [property, h, Option.some_or]
  | _ => contradiction

/-- A property is a member, or inherited where there is none. -/
theorem Value.member_or_inherited {value found : Value} {key : Text}
    (h : value.property key = some found) :
    value.member key = some found ∨
      ∃ members, value = .object members ∧ members.lookup key = none ∧ key ∈ inheritedNames ∧
        found = .inherited key := by
  cases value with
  | object members =>
      rw [property] at h
      cases hlookup : members.lookup key with
      | some own =>
          rw [hlookup, Option.some_or] at h
          exact .inl (hlookup.trans h)
      | none =>
          rw [hlookup, Option.none_or] at h
          split at h
          · rename_i hinherited
            exact .inr ⟨members, rfl, hlookup, List.contains_iff_mem.mp hinherited,
              (Option.some.inj h).symm⟩
          · contradiction
  | _ => contradiction

/-- What a config value is resolved to follows the precedence. -/
theorem followsPrecedence_resolveConfigValue (path : List Text) {value : Value}
    (hdefault : (value.member defaultValueKey).isSome) :
    FollowsPrecedence params path value (resolveConfigValue params path value) where
  parsed htext hleads := by
    rw [resolveConfigValue, htext]
    simp only [getSchema_eq_some_iff.mpr hleads, parseEnvironmentVariable]
  text htext hnone := by
    rw [resolveConfigValue, htext]
    show parseEnvironmentVariable _ _ _ = _
    rw [parseEnvironmentVariable.eq_def]
    split
    next element hfound => exact absurd (getSchema_eq_some_iff.mp hfound) (hnone element)
    next => rfl
  override {override} hunset hoverride hdefined := by
    have hbind : (value.member overridesKey).bind (Value.property params.environment) =
        some override := by
      rw [Value.atPath, Option.bind_eq_some_iff] at hoverride
      obtain ⟨overrides, hoverrides, hmember⟩ := hoverride
      rw [Value.atPath, Option.bind_eq_some_iff] at hmember
      obtain ⟨found, hfound, hsame⟩ := hmember
      obtain rfl : found = override := Option.some.inj hsame
      rw [hoverrides, Option.bind_some]
      exact Value.property_of_member hfound
    rw [resolveConfigValue, hunset]
    simp only [hbind, Option.getD_some, if_pos hdefined]
  inherited {overrides} hunset hoverrides hnone hinherited := by
    have hproperty : (Value.object overrides).property params.environment =
        some (.inherited params.environment) := by
      rw [Value.property, hnone, Option.none_or, if_pos (List.contains_iff_mem.mpr hinherited)]
    rw [resolveConfigValue, hunset]
    simp only [hoverrides, Option.bind_some, hproperty, Option.getD_some]
    rfl
  default hunset hnone hown := by
    obtain ⟨stored, hstored⟩ := Option.isSome_iff_exists.mp hdefault
    have hundefined : ∀ override,
        (value.member overridesKey).bind (Value.property params.environment) = some override →
        override.isDefined = false := by
      intro override hoverride
      obtain ⟨overrides, hoverrides, hproperty⟩ := Option.bind_eq_some_iff.mp hoverride
      rcases Value.member_or_inherited hproperty with
        hmember | ⟨members, rfl, hlookup, hinherited, -⟩
      · exact hnone override (by simp [Value.atPath, hoverrides, hmember])
      · exact absurd hlookup (hown hinherited members hoverrides)
    rw [resolveConfigValue, hunset]
    cases hoverride : (value.member overridesKey).bind (Value.property params.environment) with
    | none => simp [Value.isDefined, Value.atPath, hstored]
    | some override => simp [hundefined override hoverride, Value.atPath, hstored]

/-- At the path of every config value stands what the precedence says, and at the path of every map
a map with the same keys in the same order. -/
theorem resolve_precedence (params : Params) (config : Value) :
    (∀ path value, configAt path config = some value →
      ∃ resolved, (resolve params [] config).atPath path = some resolved ∧
        FollowsPrecedence params path value resolved) ∧
    ∀ path members, mapAt path config = some members →
      ∃ members', (resolve params [] config).atPath path = some (.object members') ∧
        members'.map Prod.fst = members.map Prod.fst := by
  refine ⟨fun path value h ↦ ⟨_, atPath_resolve_of_configAt [] h, ?_⟩,
    fun path members h ↦ atPath_resolve_of_mapAt [] h⟩
  exact followsPrecedence_resolveConfigValue path (isSome_defaultValue_of_configAt h)

/-- Environments that agree on the variables of the config values' paths give the same
configuration, or the same error. -/
theorem createConfig_congr {Data Error : Type*} (safeParse : Value → Except Error Data)
    {config : Value} (hdistinct : config.Distinct) (env : Text → Option Text)
    (h : ∀ path value, configAt path config = some value →
      params.env (variableName params.runtime path) = env (variableName params.runtime path)) :
    createConfig params safeParse config =
      createConfig { params with env := env } safeParse config := by
  refine congrArg safeParse (resolve_congr env config [] fun name hname ↦ ?_)
  obtain ⟨path, value, hconfig, rfl⟩ :=
    exists_configAt_of_mem_variableNames config [] hdistinct hname
  exact h path value hconfig

/-- A configuration with a port. -/
def portConfig : Value :=
  .object [("port".toList, .object [(defaultValueKey, .number 5432),
    (descriptionKey, .string "Database port".toList)])]

/-- What it is resolved with, `decamelize` being what it is on lower case. -/
def portParams : Params where
  runtime := ⟨id, List.map Char.toUpper, fun _ ↦ none⟩
  env := fun name ↦ if name = "PORT".toList then some "5434".toList else none
  environment := "development".toList
  schema := .object [("port".toList, .other)]

example : (resolve portParams [] portConfig).atPath ["port".toList] =
    some (.string "5434".toList) := rfl

/-- The variables of a process with a home directory too. -/
def homeEnv (name : Text) : Option Text :=
  if name = "HOME".toList then some "/root".toList else portParams.env name

/-- The path of the port is the only one. -/
theorem configAt_portConfig {path : List Text} {value : Value}
    (h : configAt path portConfig = some value) : path = ["port".toList] := by
  cases path with
  | nil => contradiction
  | cons key path =>
      rw [configAt, Option.bind_eq_bind, Option.bind_eq_some_iff] at h
      obtain ⟨inner, hmember, h⟩ := h
      obtain ⟨before, after, hsplit, -⟩ := List.lookup_eq_some_iff.mp hmember
      obtain ⟨rfl, hentry⟩ : before = [] ∧ ((key, inner) :: after).length = 1 := by
        have hlength := congrArg List.length hsplit
        cases before with
        | nil => exact ⟨rfl, by simpa using hlength.symm⟩
        | cons entry before => simp at hlength
      obtain ⟨hport, -⟩ := List.cons_eq_cons.mp hsplit
      obtain ⟨rfl, rfl⟩ := Prod.mk.injEq .. ▸ hport
      split at h
      next =>
        split at h
        next hpath => rw [hpath]
        next => contradiction
      next hconfig => exact absurd rfl hconfig

/-- A schema that accepts everything. -/
def acceptAll (value : Value) : Except Unit Value := .ok value

/-- The home directory of the process does not matter. -/
theorem createConfig_congr_port :
    createConfig portParams acceptAll portConfig =
      createConfig { portParams with env := homeEnv } acceptAll portConfig := by
  have hdistinct : portConfig.Distinct := by
    have hkeys : defaultValueKey ≠ descriptionKey := by decide
    simp only [portConfig, Value.Distinct, DistinctEntries, List.map_cons, List.map_nil,
      List.nodup_cons, and_true]
    simpa using hkeys
  refine createConfig_congr acceptAll hdistinct homeEnv fun path value h ↦ ?_
  rw [configAt_portConfig h]
  decide

end CoreUtils.Config
