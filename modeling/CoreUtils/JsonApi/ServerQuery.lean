import CoreUtils.JsonApi.QueryFilter
import CoreUtils.Library.NumericText
import CoreUtils.Library.StateExcept

/-!
# What a server accepts

The query schemas of `json-api-nestjs`: `cursorPaginationQuery`, `fieldsQuery`, `filterQuery`,
`sortQuery` and `includeQuery`, put together in a strict object as its documentation shows. A schema
is what it makes of a value that it accepts. The schemas are put together with the functions of Zod,
which are a parameter; `Zod.Documented` is what the schemas rely on. What Zod writes about a value
that it does not accept is left to it; the issues that the code adds itself are `sortIssues` and
`includeIssues`.
-/

namespace CoreUtils.JsonApi

/-! ## Zod -/

/-- A schema. -/
abbrev Schema (α : Type) := FilterInput → Option α

/-- An issue that the code adds. -/
structure Issue where
  message : Text
  path : List Text
  deriving DecidableEq

/-- The functions of Zod that schemas are made with. -/
structure Zod where
  /-- `z.string()`. -/
  string : Schema Text
  /-- `z.string().min(1)`. -/
  nonEmptyString : Schema Text
  /-- `z.enum(values)`. -/
  enum (values : List Text) : Schema Text
  /-- `z.coerce.number()`, as far as numbers are finite: `int()` accepts no others. -/
  coerceNumber : Schema ℚ
  /-- What `int().positive().max(maximum)` makes of a number. -/
  positiveInt (maximum : ℚ) : ℚ → Option ℚ
  /-- `schema.array().min(min).max(max)`. -/
  array {α : Type} (schema : Schema α) (min max : ℕ) : Schema (List α)
  /-- `schema.optional()`. -/
  optional {α : Type} (schema : Schema α) : Schema (Option α)
  /-- `schema.default(value)`, with what the schema makes of the value. -/
  default {α : Type} (schema : Schema α) (parsed : Option α) : Schema α
  /-- `z.preprocess(f, schema)`. -/
  preprocess {α : Type} (f : FilterInput → FilterInput) (schema : Schema α) : Schema α
  /-- `schema.superRefine`, with the issues that are added. -/
  superRefine {α : Type} (schema : Schema α) (issues : α → List Issue) : Schema α
  /-- `z.object(shape).strict()`: the keys of the shape, what its schemas make of the members. -/
  strictObject {α : Type} (keys : List Text) (parse : (Text → FilterInput) → Option α) : Schema α

/-- A member of an object, `undefined` if it is absent. -/
def memberOf (members : List (Text × FilterInput)) (key : Text) : FilterInput :=
  (members.lookup key).getD .undefined

/-- What is documented of these functions, on the values that a query brings. -/
structure Zod.Documented (zod : Zod) : Prop where
  string_text : ∀ text, zod.string (.string text) = some text
  nonEmptyString_text : ∀ text result,
    zod.nonEmptyString (.string text) = some result ↔ text ≠ [] ∧ result = text
  enum_text : ∀ values text result,
    zod.enum values (.string text) = some result ↔ text ∈ values ∧ result = text
  coerceNumber_text : ∀ text, zod.coerceNumber (.string text) = NumericText.number text
  positiveInt_iff : ∀ maximum number result, zod.positiveInt maximum number = some result ↔
    number = result ∧ result.isInt = true ∧ 0 < result ∧ result ≤ maximum
  array_array : ∀ {α : Type} (schema : Schema α) min max values items,
    zod.array schema min max (.array values) = some items ↔
      (min ≤ items.length ∧ items.length ≤ max) ∧
        List.Forall₂ (fun value item ↦ schema value = some item) values items
  optional_undefined : ∀ {α : Type} (schema : Schema α),
    zod.optional schema .undefined = some none
  optional_value : ∀ {α : Type} (schema : Schema α) value, value ≠ .undefined →
    zod.optional schema value = (schema value).map some
  default_undefined : ∀ {α : Type} (schema : Schema α) parsed,
    zod.default schema parsed .undefined = parsed
  default_value : ∀ {α : Type} (schema : Schema α) parsed value, value ≠ .undefined →
    zod.default schema parsed value = schema value
  preprocess_value : ∀ {α : Type} (schema : Schema α) f value,
    zod.preprocess f schema value = schema (f value)
  superRefine_iff : ∀ {α : Type} (schema : Schema α) issues value result,
    zod.superRefine schema issues value = some result ↔
      schema value = some result ∧ issues result = []
  strictObject_object : ∀ {α : Type} keys (parse : (Text → FilterInput) → Option α) members result,
    zod.strictObject keys parse (.object members) = some result ↔
      (∀ member ∈ members, member.1 ∈ keys) ∧ parse (memberOf members) = some result

/-- A strict object whose members are of one kind. -/
def Zod.strictObjectOf {α : Type} (zod : Zod) (shape : List (Text × Schema α)) :
    Schema (List (Text × α)) :=
  zod.strictObject (shape.map Prod.fst) fun member ↦
    shape.mapM fun field ↦ (field.2 (member field.1)).map (field.1, ·)

/-- What is optional twice: there is one `undefined`. -/
def Schema.join {α : Type} (schema : Schema (Option (Option α))) : Schema (Option α) :=
  fun value ↦ (schema value).map Option.join

/-! ## The code -/

/-- A text as the list of what its commas separate; other values stay. -/
def splitString : FilterInput → FilterInput
  | .string value => .array ((value.splitOn ',').map .string)
  | value => value

/-- A text as the list of it alone; other values stay. -/
def wrapString : FilterInput → FilterInput
  | .string value => .array [.string value]
  | value => value

/-- The size of a page, unless another is asked for: `PAGINATION.size.default`. -/
def defaultPageSize : ℚ := 20

/-- The greatest size of a page, `PAGINATION.size.maximum`. -/
def maximumPageSize : ℚ := 200

/-- A page that is asked for. -/
structure Page where
  cursor : Option Text
  size : ℚ
  deriving DecidableEq

/-- The schema of the page size. The default is parsed like any other number. -/
def sizeSchema (zod : Zod) (defaultSize maximum : ℚ) : Schema ℚ :=
  zod.default (fun value ↦ (zod.coerceNumber value).bind (zod.positiveInt maximum))
    (zod.positiveInt maximum defaultSize)

/-- The key of the cursor. -/
def cursorKey : Text := "cursor".toList

/-- The key of the page size. -/
def sizeKey : Text := "size".toList

/-- `cursorPaginationQuery`. Where there is no page, one with the default size is parsed. -/
def cursorPaginationQuery (zod : Zod) (defaultSize maximum : Option ℚ) : Schema Page :=
  let defaultSize := defaultSize.getD defaultPageSize
  let maximum := maximum.getD maximumPageSize
  zod.default
    (zod.strictObject [cursorKey, sizeKey] fun member ↦ do
      let cursor ← zod.optional zod.nonEmptyString (member cursorKey)
      let size ← sizeSchema zod defaultSize maximum (member sizeKey)
      return ⟨cursor, size⟩)
    ((zod.positiveInt maximum defaultSize).map (⟨none, ·⟩))

/-- The schema of the fields that are asked for: of each type at most those that it has. Other types
and fields fail. -/
def fieldsQuery (zod : Zod) (parameters : List (Text × List Text)) :
    Schema (Option (List (Text × Option (List Text)))) :=
  zod.optional (zod.strictObjectOf (parameters.map fun entry ↦
    (entry.1, zod.preprocess splitString (zod.optional (zod.array (zod.enum entry.2) 1 100)))))

/-- The operators of filters. -/
inductive Filter where
  | eq
  | ne
  | gt
  | gte
  | lt
  | lte
  | search
  deriving DecidableEq, Repr

/-- The text of a filter. -/
def Filter.name : Filter → Text
  | eq => "eq".toList
  | ne => "ne".toList
  | gt => "gt".toList
  | gte => "gte".toList
  | lt => "lt".toList
  | lte => "lte".toList
  | search => "search".toList

/-- The operators that a field can be filtered by, and the schema of its values. -/
structure FilterValue (α : Type) where
  filters : List Filter
  schema : Schema α

variable {α : Type}

/-- The schema of the values behind an operator: a list that is not empty, where only the text of a
search is not split. -/
def filterValueSchema (zod : Zod) (filter : Filter) (schema : Schema α) :
    Schema (Option (List α)) :=
  .join (zod.optional (zod.preprocess (if filter = .search then wrapString else splitString)
    (zod.optional (zod.array schema 1 10000))))

/-- The schema of the filter of a field. Other operators fail. -/
def filterSchema (zod : Zod) (parameters : FilterValue α) :
    Schema (Option (List (Text × Option (List α)))) :=
  zod.optional (zod.strictObjectOf (parameters.filters.map fun filter ↦
    (filter.name, filterValueSchema zod filter parameters.schema)))

/-- A filter record as a value. -/
def recordInput (record : FilterRecord) : FilterInput :=
  .object (record.entries.map fun entry ↦ (entry.1, .string entry.2))

/-- The schema of the filters of all fields. Other fields fail. -/
def filterQuery (zod : Zod) (parameters : List (Text × FilterValue α)) :
    Schema (Option (List (Text × Option (List (Text × Option (List α)))))) :=
  zod.optional (zod.strictObjectOf (parameters.map fun entry ↦ (entry.1,
    .join (zod.optional (zod.preprocess (fun value ↦ recordInput (queryFilterPreprocessor value))
      (filterSchema zod entry.2))))))

/-- A field without its sign. -/
def unsigned : Text → Text
  | '-' :: field => field
  | field => field

/-- The issues of `sortQuery`. -/
def sortIssues (fields value : List Text) : List Issue :=
  value.filterMap fun field ↦
    if fields.contains (unsigned field) then none
    else some ⟨"Invalid sort field: '".toList ++ field ++ "'".toList, ["sort".toList, field]⟩

/-- The schema of a list of texts. -/
def textsSchema (zod : Zod) : Schema (Option (List Text)) :=
  zod.preprocess splitString (zod.optional (zod.array zod.string 1 100))

/-- The schema of the fields to sort by, each with an optional `-`. Other fields fail. -/
def sortQuery (zod : Zod) (fields : List Text) : Schema (Option (List Text)) :=
  zod.superRefine (textsSchema zod) fun value ↦ sortIssues fields (value.getD [])

/-- The issues of `includeQuery`. -/
def includeIssues (fields value : List Text) : List Issue :=
  value.filterMap fun field ↦
    if fields.contains field then none
    else some ⟨"Invalid include field: '".toList ++ field ++ "'".toList,
      ["include".toList, field]⟩

/-- The schema of the relationships to include. Other relationships fail. -/
def includeQuery (zod : Zod) (fields : List Text) : Schema (Option (List Text)) :=
  zod.superRefine (textsSchema zod) fun value ↦ includeIssues fields (value.getD [])

/-! ## The schema of a query -/

/-- What the five functions are called with. -/
structure QuerySchema (α : Type) where
  defaultSize : Option ℚ
  maximum : Option ℚ
  fields : List (Text × List Text)
  filter : List (Text × FilterValue α)
  sort : List Text
  included : List Text

set_option synthInstance.maxSize 1000 in
/-- A query that has been accepted. -/
structure Query (α : Type) where
  page : Page
  fields : Option (List (Text × Option (List Text)))
  filter : Option (List (Text × Option (List (Text × Option (List α)))))
  sort : Option (List Text)
  included : Option (List Text)
  deriving DecidableEq

/-- The keys of a query. -/
def queryKeys : List Text :=
  ["page".toList, "fields".toList, "filter".toList, "sort".toList, "include".toList]

/-- The schema of the documentation, a strict object of the five. -/
def querySchema (zod : Zod) (schema : QuerySchema α) : Schema (Query α) :=
  zod.strictObject queryKeys fun member ↦ do
    let page ← cursorPaginationQuery zod schema.defaultSize schema.maximum (member "page".toList)
    let fields ← fieldsQuery zod schema.fields (member "fields".toList)
    let filter ← filterQuery zod schema.filter (member "filter".toList)
    let sort ← sortQuery zod schema.sort (member "sort".toList)
    let included ← includeQuery zod schema.included (member "include".toList)
    return ⟨page, fields, filter, sort, included⟩

/-! ## What the schemas accept -/

namespace Zod.Documented

variable {zod : Zod} (hzod : zod.Documented)
include hzod

/-- What an array of texts is made into by a schema that changes no text. -/
theorem array_texts_eq_some_iff {schema : Schema Text} {p : Text → Prop} {min max : ℕ}
    (hschema : ∀ value item, schema (.string value) = some item ↔ p value ∧ item = value)
    {values items : List Text} :
    zod.array schema min max (.array (values.map .string)) = some items ↔
      (min ≤ items.length ∧ items.length ≤ max) ∧ items = values ∧ ∀ value ∈ values, p value := by
  rw [hzod.array_array, List.forall₂_map_left_iff]
  refine and_congr Iff.rfl ?_
  simp only [hschema]
  constructor
  · intro h
    induction h with
    | nil => exact ⟨rfl, by simp⟩
    | cons hfirst _ ih =>
        obtain ⟨rfl, hall⟩ := ih
        exact ⟨by rw [hfirst.2], List.forall_mem_cons.mpr ⟨hfirst.1, hall⟩⟩
  · rintro ⟨rfl, hall⟩
    exact List.forall₂_same.mpr fun value hvalue ↦ ⟨hall value hvalue, rfl⟩

/-- A string is accepted as it is. -/
theorem string_eq_some_iff (value item : Text) :
    zod.string (.string value) = some item ↔ True ∧ item = value := by
  rw [hzod.string_text, Option.some.injEq, true_and, eq_comm]

/-- What is not undefined is optional like the schema itself. -/
theorem optional_eq_some_iff {schema : Schema α} {value : FilterInput} (h : value ≠ .undefined)
    {result : Option α} :
    zod.optional schema value = some result ↔
      ∃ item, schema value = some item ∧ result = some item := by
  rw [hzod.optional_value schema value h, Option.map_eq_some_iff]
  simp only [eq_comm]

/-- What a strict object is made into: each member of the shape by its own schema. -/
theorem strictObjectOf_eq_some_iff {shape : List (Text × Schema α)}
    {members : List (Text × FilterInput)} {items : List (Text × α)} :
    zod.strictObjectOf shape (.object members) = some items ↔
      (∀ member ∈ members, member.1 ∈ shape.map Prod.fst) ∧
        List.Forall₂ (fun field item ↦
          item.1 = field.1 ∧ field.2 (memberOf members field.1) = some item.2) shape items := by
  rw [strictObjectOf, hzod.strictObject_object, StateExcept.mapM_eq_some_iff]
  refine and_congr_right fun _ ↦ ?_
  constructor
  · refine fun hitems ↦ hitems.imp fun field item hitem ↦ ?_
    obtain ⟨found, hfound, rfl⟩ := Option.map_eq_some_iff.mp hitem
    exact ⟨rfl, hfound⟩
  · refine fun hitems ↦ hitems.imp fun field item hitem ↦ ?_
    exact Option.map_eq_some_iff.mpr ⟨item.2, hitem.2, by rw [← hitem.1]⟩

end Zod.Documented

/-- The text of a leaf, split again, is its values if none of them has a comma. -/
theorem splitString_joined {values : List Text} (hne : values ≠ [])
    (hcommas : ∀ value ∈ values, ',' ∉ value) :
    splitString (.string ([','].intercalate values)) = .array (values.map .string) := by
  rw [splitString, List.splitOn_intercalate ',' hcommas hne]

/-- A text list without issues. -/
theorem filterMap_issue_eq_nil {value : List Text} {p : Text → Bool} {issue : Text → Issue} :
    (value.filterMap fun field ↦ if p field then none else some (issue field)) = [] ↔
      ∀ field ∈ value, p field = true := by
  rw [List.filterMap_eq_nil_iff]
  refine forall₂_congr fun field _ ↦ ?_
  cases p field <;> simp

/-- What holds of the values of a list that may be missing. -/
theorem forall_mem_getD {answer : Option (List Text)} {p : Text → Prop} :
    (∀ field ∈ answer.getD [], p field) ↔ ∀ values ∈ answer, ∀ field ∈ values, p field := by
  cases answer <;> simp

/-- `sortQuery` accepts the lists without an issue. -/
theorem sortQuery_accepts {zod : Zod} (hzod : zod.Documented) {fields : List Text}
    {value : FilterInput} {answer : Option (List Text)} :
    sortQuery zod fields value = some answer ↔
      zod.optional (zod.array zod.string 1 100) (splitString value) = some answer ∧
        ∀ values ∈ answer, ∀ field ∈ values, unsigned field ∈ fields := by
  rw [sortQuery, hzod.superRefine_iff, textsSchema, hzod.preprocess_value, sortIssues,
    filterMap_issue_eq_nil, forall_mem_getD]
  simp only [List.contains_iff_mem]

/-- `includeQuery` accepts the lists without an issue. -/
theorem includeQuery_accepts {zod : Zod} (hzod : zod.Documented) {fields : List Text}
    {value : FilterInput} {answer : Option (List Text)} :
    includeQuery zod fields value = some answer ↔
      zod.optional (zod.array zod.string 1 100) (splitString value) = some answer ∧
        ∀ values ∈ answer, ∀ field ∈ values, field ∈ fields := by
  rw [includeQuery, hzod.superRefine_iff, textsSchema, hzod.preprocess_value, includeIssues,
    filterMap_issue_eq_nil, forall_mem_getD]
  simp only [List.contains_iff_mem]

/-! ## A reading of the documentation -/

/-- The functions of Zod as they are documented. A number is coerced from a text only. -/
def plainZod : Zod where
  string
    | .string text => some text
    | _ => none
  nonEmptyString
    | .string text => if text = [] then none else some text
    | _ => none
  enum values
    | .string text => if values.contains text then some text else none
    | _ => none
  coerceNumber
    | .string text => NumericText.number text
    | _ => none
  positiveInt maximum number :=
    if number.isInt ∧ 0 < number ∧ number ≤ maximum then some number else none
  array schema min max
    | .array values => do
        let items ← values.mapM schema
        if min ≤ items.length ∧ items.length ≤ max then some items else none
    | _ => none
  optional schema
    | .undefined => some none
    | value => (schema value).map some
  default schema parsed
    | .undefined => parsed
    | value => schema value
  preprocess f schema value := schema (f value)
  superRefine schema issues value :=
    (schema value).filter fun result ↦ issues result = []
  strictObject keys parse
    | .object members =>
        if members.all fun member ↦ keys.contains member.1 then parse (memberOf members) else none
    | _ => none

/-- They are as documented. -/
theorem plainZod_documented : plainZod.Documented where
  string_text _ := rfl
  nonEmptyString_text text result := by
    show (if text = [] then none else some text) = some result ↔ _
    by_cases h : text = []
    · simp [h]
    · simp [h, eq_comm]
  enum_text values text result := by
    show (if values.contains text then some text else none) = some result ↔ _
    by_cases h : text ∈ values
    · simp [h, eq_comm]
    · simp [h]
  coerceNumber_text _ := rfl
  positiveInt_iff maximum number result := by
    show (if _ then some number else none) = some result ↔ _
    constructor
    · intro h
      split at h
      next hbounds =>
        obtain rfl := Option.some.inj h
        exact ⟨rfl, hbounds⟩
      next => contradiction
    · rintro ⟨rfl, hbounds⟩
      exact if_pos hbounds
  array_array schema min max values items := by
    show (values.mapM schema >>= fun items ↦
      if min ≤ items.length ∧ items.length ≤ max then some items else none) = some items ↔ _
    rw [Option.bind_eq_bind, Option.bind_eq_some_iff]
    simp only [StateExcept.mapM_eq_some_iff]
    constructor
    · rintro ⟨converted, hconverted, h⟩
      split at h
      next hlength =>
        obtain rfl := Option.some.inj h
        exact ⟨hlength, hconverted⟩
      next => contradiction
    · rintro ⟨hlength, hconverted⟩
      exact ⟨items, hconverted, if_pos hlength⟩
  optional_undefined _ := rfl
  optional_value schema value h := by
    cases value with
    | undefined => contradiction
    | _ => rfl
  default_undefined _ _ := rfl
  default_value schema parsed value h := by
    cases value with
    | undefined => contradiction
    | _ => rfl
  preprocess_value _ _ _ := rfl
  superRefine_iff schema issues value result := by
    show (schema value).filter (fun result ↦ issues result = []) = some result ↔ _
    rw [Option.filter_eq_some_iff, decide_eq_true_iff]
  strictObject_object keys parse members result := by
    show (if members.all fun member ↦ keys.contains member.1 then _ else none) = some result ↔ _
    have hkeys : (members.all fun member ↦ keys.contains member.1) = true ↔
        ∀ member ∈ members, member.1 ∈ keys := by
      simp
    rw [← hkeys]
    by_cases h : (members.all fun member ↦ keys.contains member.1) = true
    · rw [if_pos h, and_iff_right h]
    · rw [if_neg h]
      exact iff_of_false (by simp) fun hboth ↦ h hboth.1

/-- The schema of the documentation, with one filter, whose values are texts. -/
def userSchema : QuerySchema Text where
  defaultSize := none
  maximum := none
  fields := [("article".toList, ["title".toList]),
    ("user".toList, ["age".toList, "dateOfBirth".toList])]
  filter := [("age".toList, ⟨[.eq, .gt], plainZod.string⟩)]
  sort := ["age".toList, "dateOfBirth".toList]
  included := ["articles".toList, "articles.comments".toList]

end CoreUtils.JsonApi
