import CoreUtils.JsonApi.QueryRoundTrip
import CoreUtils.JsonApi.ServerQuery

/-!
# From a client's query to a server's

A client gives `stringifyQuery` an object of lists; a server parses the text with the decoder that
comes with `qs` and hands what it gets to its query schema. `serve_stringifyQuery` says what the
server then has: exactly the lists of the client, type by type and operator by operator, with
numbers and dates read by the schema, or nothing if the query asks for anything that the schema does
not list.
-/

namespace CoreUtils.JsonApi

open PercentEncoding

variable {α : Type}

/-! ## The client -/

/-- The values of a leaf. -/
def Leaf.values : Leaf → List Text
  | .text value => [value]
  | .array values => values

/-- A leaf whose values stay apart: there is one, and none of them has a comma. -/
def Leaf.Separable (leaf : Leaf) : Prop :=
  leaf.values ≠ [] ∧ ∀ value ∈ leaf.values, ',' ∉ value

instance (leaf : Leaf) : Decidable leaf.Separable := inferInstanceAs (Decidable (_ ∧ _))

/-- What a field is filtered by: a value, or values by operators. -/
inductive ClientFilter where
  | plain (value : Leaf)
  | operators (values : OrderedMap Filter Leaf)

/-- What is given for each operator; a value without one is for `eq`. -/
def ClientFilter.values : ClientFilter → OrderedMap Filter Leaf
  | .plain value => OrderedMap.empty.set .eq value
  | .operators values => values

/-- A `ClientJsonApiQuery`, with numbers and dates as the texts that `qs` makes of them. -/
structure ClientQuery where
  fields : OrderedMap Text Leaf
  filter : OrderedMap Text ClientFilter
  included : Option Leaf
  page : OrderedMap Text Text
  sort : Option Leaf

/-- The leaves of an object, before other members. -/
def withLeaves (entries : List (Text × Leaf)) (rest : QueryObject) : QueryObject :=
  entries.foldr (fun entry rest ↦ .leaf entry.1 entry.2 rest) rest

/-- The filters of an object. -/
def filterObject (entries : List (Text × ClientFilter)) : QueryObject :=
  entries.foldr (fun entry rest ↦
    match entry.2 with
    | .plain value => .leaf entry.1 value rest
    | .operators values =>
        .object entry.1 (withLeaves (values.entries.map fun value ↦ (value.1.name, value.2)) .nil)
          rest) .nil

/-- An object under a key. `qs` writes nothing for an object without members. -/
def nested (key : Text) (members rest : QueryObject) : QueryObject :=
  if members = .nil then rest else .object key members rest

/-- The query as an object. -/
def ClientQuery.toObject (query : ClientQuery) : QueryObject :=
  nested "fields".toList (withLeaves query.fields.entries .nil)
    (nested "filter".toList (filterObject query.filter.entries)
      (withLeaves (query.included.toList.map ("include".toList, ·))
        (nested "page".toList
          (withLeaves (query.page.entries.map fun entry ↦ (entry.1, .text entry.2)) .nil)
          (withLeaves (query.sort.toList.map ("sort".toList, ·)) .nil))))

/-! ## The server -/

/-- How an application parses a query: the decoder is the one of `qs`. -/
def serverOptions : ParseOptions where
  decoder item defaultDecoder charset type := some (.text (defaultDecoder item charset type))
  ignoreQueryPrefix := false

/-- A leaf as a value. -/
def Leaf.input : Leaf → FilterInput
  | .text value => .string value
  | .array values => .array (values.map .string)

/-- The members of an object as values. -/
def QueryObject.input : QueryObject → List (Text × FilterInput)
  | .nil => []
  | .leaf key value rest => (key, value.input) :: rest.input
  | .object key members rest => (key, .object members.input) :: rest.input

/-- The query that a server gets from a text. -/
def serve (qs : Qs) (zod : Zod) (schema : QuerySchema α) (text : Text) : Option (Query α) := do
  let query ← qs.parse text serverOptions
  querySchema zod schema (.object query.input)

/-! ## The wire -/

/-- An object with its leaves joined. -/
def QueryObject.joined : QueryObject → QueryObject
  | .nil => .nil
  | .leaf key value rest => .leaf key (.text value.joined) rest.joined
  | .object key members rest => .object key members.joined rest.joined

/-- The leaves of a joined object are joined. -/
theorem leavesBelow_joined (path : Option Text) (query : QueryObject) :
    query.joined.leavesBelow path =
      (query.leavesBelow path).map fun pair ↦ (pair.1, .text pair.2.joined) := by
  induction query generalizing path with
  | nil => rfl
  | leaf key value rest ih => simp [QueryObject.joined, QueryObject.leavesBelow, ih]
  | object key members rest ihMembers ihRest =>
      simp [QueryObject.joined, QueryObject.leavesBelow, ihMembers, ihRest]

/-- Joining the leaves keeps the members. -/
theorem joined_eq_nil {query : QueryObject} : query.joined = .nil ↔ query = .nil := by
  cases query <;> simp [QueryObject.joined]

/-- Joining the leaves keeps objects full. -/
theorem QueryObject.Full.joined {query : QueryObject} (h : query.Full) : query.joined.Full := by
  induction query with
  | nil => trivial
  | leaf key value rest ih => exact ih h
  | object key members rest ihMembers ihRest =>
      exact ⟨fun hnil ↦ h.1 (joined_eq_nil.mp hnil), ihMembers h.2.1, ihRest h.2.2⟩

/-- The default decoder reads an encoded text back. -/
theorem defaultDecode_percentEncode (text : Text) : defaultDecode (percentEncode text) = text := by
  have hplus : '+' ∉ percentEncode text := not_mem_percent_encode (by decide) (by decide) text
  rw [defaultDecode, plus_to_space_eq hplus, decodeURIComponent_percentEncode]
  rfl

/-- A server receives an encoded pair with its value joined. -/
theorem decodePiece_serverOptions {defaultDecoder : DefaultDecoder}
    (hdecoder : ∀ text type, defaultDecoder text .utf8 type = defaultDecode text)
    (pair : Text × Leaf) :
    decodePiece serverOptions defaultDecoder (encodedPair pair) =
      some (pair.1, .text pair.2.joined) := by
  obtain ⟨hkey, hvalue⟩ := split_encoded_pair pair
  simp only [decodePiece, hkey, hvalue, serverOptions, hdecoder, defaultDecode_percentEncode]
  rfl

/-- What a server parses is the client's object with its leaves joined. -/
theorem parse_stringifyQuery {qs : Qs} {rebuild : List (Text × Leaf) → QueryObject}
    {query : QueryObject} (hdocumented : Documented qs rebuild query)
    (hjoined : Documented qs rebuild query.joined) (hfull : query.Full) :
    qs.parse (stringifyQuery qs query none) serverOptions = some query.joined := by
  obtain ⟨defaultDecoder, hdecoder, hparse⟩ := hdocumented.parse_eq
  have hpieces : (query.leaves.map encodedPair).mapM (decodePiece serverOptions defaultDecoder) =
      some query.joined.leaves := by
    rw [StateExcept.mapM_eq_some_iff, QueryObject.leaves, QueryObject.leaves, leavesBelow_joined,
      List.forall₂_map_left_iff, List.forall₂_map_right_iff, List.forall₂_same]
    exact fun pair _ ↦ decodePiece_serverOptions hdecoder pair
  show qs.parse (qs.stringify query { arrayFormat := .comma, encode := true }) _ = _
  rw [hdocumented.stringify_eq, hparse, without_prefix_eq, pieces_of_eq, hpieces, Option.map_some,
    hjoined.rebuild_leaves hfull.joined]

/-! ## What a server receives -/

/-- The member of an object under a key, if there is one. -/
def part (key : Text) (value : Option FilterInput) : List (Text × FilterInput) :=
  value.toList.map (key, ·)

/-- The members of an object, if it has any. -/
def membersOf (members : QueryObject) : Option FilterInput :=
  if members = .nil then none else some (.object members.joined.input)

/-- The value of a joined leaf. -/
def textInput (leaf : Leaf) : FilterInput := .string leaf.joined

/-- A part has no other member. -/
theorem lookup_part (key other : Text) (value : Option FilterInput) :
    (part key value).lookup other = if other = key then value else none := by
  cases value with
  | none => simp [part]
  | some value =>
      by_cases h : other = key
      · simp [part, h]
      · simp [part, h]

/-- Leaves are received one after another. -/
theorem input_withLeaves (entries : List (Text × Leaf)) (rest : QueryObject) :
    (withLeaves entries rest).joined.input =
      (entries.map fun entry ↦ (entry.1, textInput entry.2)) ++ rest.joined.input := by
  induction entries with
  | nil => rfl
  | cons entry entries ih => exact congrArg _ ih

/-- An object without members is not received. -/
theorem input_nested (key : Text) (members rest : QueryObject) :
    (nested key members rest).joined.input = part key (membersOf members) ++ rest.joined.input := by
  rw [nested, membersOf]
  split
  next => rfl
  next => rfl

/-- What a server receives of a query. -/
theorem input_toObject (query : ClientQuery) :
    query.toObject.joined.input =
      part "fields".toList (membersOf (withLeaves query.fields.entries .nil)) ++
        (part "filter".toList (membersOf (filterObject query.filter.entries)) ++
          (part "include".toList (query.included.map textInput) ++
            (part "page".toList (membersOf (withLeaves
                (query.page.entries.map fun entry ↦ (entry.1, .text entry.2)) .nil)) ++
              part "sort".toList (query.sort.map textInput)))) := by
  rw [ClientQuery.toObject, input_nested, input_nested, input_withLeaves, input_nested,
    input_withLeaves]
  cases query.included <;> cases query.sort <;> simp [part, QueryObject.joined, QueryObject.input]

/-- A member of an ordered map as the member of an object. -/
theorem memberOf_entries {ν : Type*} (f : ν → FilterInput) (map : OrderedMap Text ν) (key : Text) :
    memberOf (map.entries.map fun entry ↦ (entry.1, f entry.2)) key =
      ((map.get key).map f).getD .undefined := by
  rw [← OrderedMap.get_mapValues, OrderedMap.get, memberOf]
  congr
  exact lawful_beq_subsingleton _ _

/-! ## What a server answers -/

/-- A page answers what was asked for: no other keys, the cursor itself, the number of the size or
the default, and within the bounds. -/
structure PageAnswers (defaultSize maximum : ℚ) (given : OrderedMap Text Text) (page : Page) :
    Prop where
  keys : ∀ key ∈ given.keys, key = cursorKey ∨ key = sizeKey
  cursor : page.cursor = given.get cursorKey
  cursor_ne : page.cursor ≠ some []
  size : (match given.get sizeKey with
    | none => some defaultSize
    | some text => NumericText.number text) = some page.size
  bounds : page.size.isInt = true ∧ 0 < page.size ∧ page.size ≤ maximum

/-- A list answers what was asked for: the values themselves, all of them allowed. -/
def ListAnswers (allowed : Text → Prop) (given : Option Leaf) (answer : Option (List Text)) :
    Prop :=
  answer = given.map Leaf.values ∧
    ∀ values ∈ answer, values.length ≤ 100 ∧ ∀ value ∈ values, allowed value

/-- Fields answer what was asked for: no other types, and for each type its listed fields. -/
def FieldsAnswer (parameters : List (Text × List Text)) (given : OrderedMap Text Leaf)
    (fields : List (Text × Option (List Text))) : Prop :=
  (∀ type ∈ given.keys, type ∈ parameters.map Prod.fst) ∧
    List.Forall₂ (fun type answer ↦ answer.1 = type.1 ∧
      ListAnswers (· ∈ type.2) (given.get type.1) answer.2) parameters fields

/-- The values that are filtered by for an operator. A search is for the text as a whole. -/
def Filter.valuesOf (operator : Filter) (leaf : Leaf) : List Text :=
  if operator = .search then [leaf.joined] else leaf.values

/-- The filters of a field answer what was asked for: no other operators, and for each operator its
values as the schema reads them. -/
def OperatorsAnswer (parameters : FilterValue α) (given : ClientFilter)
    (operators : List (Text × Option (List α))) : Prop :=
  (∀ operator ∈ given.values.keys, operator ∈ parameters.filters) ∧
    List.Forall₂ (fun operator answer ↦ answer.1 = operator.name ∧
      match given.values.get operator with
      | none => answer.2 = none
      | some leaf => ∃ items, answer.2 = some items ∧ items.length ≤ 10000 ∧
          List.Forall₂ (fun value item ↦ parameters.schema (.string value) = some item)
            (operator.valuesOf leaf) items) parameters.filters operators

/-- Filters answer what was asked for: no other fields, and for each field its operators. -/
def FiltersAnswer (parameters : List (Text × FilterValue α)) (given : OrderedMap Text ClientFilter)
    (filters : List (Text × Option (List (Text × Option (List α))))) : Prop :=
  (∀ field ∈ given.keys, field ∈ parameters.map Prod.fst) ∧
    List.Forall₂ (fun field answer ↦ answer.1 = field.1 ∧
      match given.get field.1 with
      | none => answer.2 = none
      | some filter => ∃ operators, answer.2 = some operators ∧
          OperatorsAnswer field.2 filter operators) parameters filters

/-- An answer to a part that may be missing. -/
def AnswersPart {γ : Type} (missing : Prop) (answers : γ → Prop) (answer : Option γ) : Prop :=
  (missing ∧ answer = none) ∨ (¬ missing ∧ ∃ found, answer = some found ∧ answers found)

/-! ## The schemas on what is received -/

variable {zod : Zod}

/-- The text of a separable leaf is split into its values. -/
theorem splitString_textInput {leaf : Leaf} (h : leaf.Separable) :
    splitString (textInput leaf) = .array (leaf.values.map .string) := by
  have hjoined : leaf.joined = [','].intercalate leaf.values := by
    cases leaf with
    | text value => simp [Leaf.joined, Leaf.values]
    | array values => rfl
  rw [textInput, hjoined, splitString_joined h.1 h.2]

/-- A list of a separable leaf, read by a schema that changes no text. -/
theorem optional_array_textInput (hzod : zod.Documented) {schema : Schema Text} {p : Text → Prop}
    (hschema : ∀ value item, schema (.string value) = some item ↔ p value ∧ item = value)
    {leaf : Leaf} (h : leaf.Separable) {max : ℕ} {answer : Option (List Text)} :
    zod.optional (zod.array schema 1 max) (splitString (textInput leaf)) = some answer ↔
      answer = some leaf.values ∧ leaf.values.length ≤ max ∧ ∀ value ∈ leaf.values, p value := by
  rw [splitString_textInput h, hzod.optional_eq_some_iff (by simp)]
  simp only [hzod.array_texts_eq_some_iff hschema]
  constructor
  · rintro ⟨items, ⟨⟨-, hmax⟩, rfl, hall⟩, rfl⟩
    exact ⟨rfl, hmax, hall⟩
  · rintro ⟨rfl, hmax, hall⟩
    exact ⟨_, ⟨⟨List.length_pos_of_ne_nil h.1, hmax⟩, rfl, hall⟩, rfl⟩

/-- A list that is missing, or of a separable leaf. -/
theorem optional_array_getD (hzod : zod.Documented) {schema : Schema Text} {p : Text → Prop}
    (hschema : ∀ value item, schema (.string value) = some item ↔ p value ∧ item = value)
    {given : Option Leaf} (h : ∀ leaf ∈ given, leaf.Separable) {answer : Option (List Text)} :
    zod.optional (zod.array schema 1 100) (splitString ((given.map textInput).getD .undefined)) =
        some answer ↔ ListAnswers p given answer := by
  cases given with
  | none =>
      have hmissing : zod.optional (zod.array schema 1 100) (splitString .undefined) = some none :=
        hzod.optional_undefined _
      rw [Option.map_none, Option.getD_none, hmissing, ListAnswers, Option.map_none]
      constructor
      · intro heq
        obtain rfl := Option.some.inj heq
        simp
      · rintro ⟨rfl, -⟩
        rfl
  | some leaf =>
      rw [Option.map_some, Option.getD_some, optional_array_textInput hzod hschema (h leaf rfl),
        ListAnswers, Option.map_some]
      refine and_congr_right fun heq ↦ ?_
      subst heq
      simp

/-- A checked list that is missing, or of a separable leaf. -/
theorem listAnswers_iff (hzod : zod.Documented) {allowed : Text → Prop} {given : Option Leaf}
    (h : ∀ leaf ∈ given, leaf.Separable) {answer : Option (List Text)} :
    (zod.optional (zod.array zod.string 1 100)
        (splitString ((given.map textInput).getD .undefined)) = some answer ∧
      ∀ values ∈ answer, ∀ value ∈ values, allowed value) ↔ ListAnswers allowed given answer := by
  rw [optional_array_getD hzod hzod.string_eq_some_iff h]
  exact ⟨fun ⟨hlist, hall⟩ ↦ ⟨hlist.1, fun values hvalues ↦
      ⟨(hlist.2 values hvalues).1, hall values hvalues⟩⟩,
    fun hanswer ↦ ⟨⟨hanswer.1, fun values hvalues ↦
      ⟨(hanswer.2 values hvalues).1, fun _ _ ↦ trivial⟩⟩,
      fun values hvalues ↦ (hanswer.2 values hvalues).2⟩⟩

/-- The members of an object of leaves. -/
theorem membersOf_withLeaves (entries : List (Text × Leaf)) :
    membersOf (withLeaves entries .nil) = if entries = [] then none
      else some (.object (entries.map fun entry ↦ (entry.1, textInput entry.2))) := by
  cases entries with
  | nil => rfl
  | cons entry entries =>
      rw [membersOf, if_neg (by simp [withLeaves]), if_neg (by simp), input_withLeaves]
      simp [QueryObject.joined, QueryObject.input]

/-- The keys of the members that are received of an ordered map. -/
theorem forall_mem_keys {ν : Type*} (f : Text × ν → FilterInput) (map : OrderedMap Text ν)
    (p : Text → Prop) :
    (∀ member ∈ map.entries.map fun entry ↦ (entry.1, f entry), p member.1) ↔
      ∀ key ∈ map.keys, p key := by
  rw [OrderedMap.keys, List.forall_mem_map, List.forall_mem_map]

/-- The keys of a shape. -/
theorem map_fst_shape {ν : Type*} {β : Type} (f : Text × ν → Schema β)
    (parameters : List (Text × ν)) :
    (parameters.map fun entry ↦ (entry.1, f entry)).map Prod.fst = parameters.map Prod.fst := by
  rw [List.map_map]
  rfl

/-- Relations that agree relate the same lists. -/
theorem forall₂_congr_of_iff {β γ : Type*} {r s : β → γ → Prop} (h : ∀ b c, r b c ↔ s b c)
    {bs : List β} {cs : List γ} : List.Forall₂ r bs cs ↔ List.Forall₂ s bs cs :=
  ⟨fun hr ↦ hr.imp fun b c ↦ (h b c).mp, fun hs ↦ hs.imp fun b c ↦ (h b c).mpr⟩

/-- `fieldsQuery` on what is received. -/
theorem fieldsQuery_eq_some_iff (hzod : zod.Documented) {parameters : List (Text × List Text)}
    {given : OrderedMap Text Leaf} (h : ∀ key leaf, given.get key = some leaf → leaf.Separable)
    {answer : Option (List (Text × Option (List Text)))} :
    fieldsQuery zod parameters ((membersOf (withLeaves given.entries .nil)).getD .undefined) =
        some answer ↔
      AnswersPart (given.entries = []) (FieldsAnswer parameters given) answer := by
  rw [membersOf_withLeaves]
  by_cases hempty : given.entries = []
  · have hmissing : fieldsQuery zod parameters .undefined = some none :=
      hzod.optional_undefined _
    rw [if_pos hempty, Option.getD_none, hmissing, AnswersPart]
    simp [hempty, eq_comm]
  rw [if_neg hempty, Option.getD_some, fieldsQuery, hzod.optional_eq_some_iff (by simp),
    AnswersPart]
  simp only [hempty, false_and, not_false_eq_true, true_and, false_or]
  refine exists_congr fun answers ↦ ?_
  rw [and_comm]
  refine and_congr_right fun _ ↦ ?_
  rw [hzod.strictObjectOf_eq_some_iff, FieldsAnswer, List.forall₂_map_left_iff]
  rw [map_fst_shape fun entry : Text × List Text ↦
    zod.preprocess splitString (zod.optional (zod.array (zod.enum entry.2) 1 100)),
    forall_mem_keys fun entry ↦ textInput entry.2]
  refine and_congr_right fun _ ↦ forall₂_congr_of_iff fun type answer ↦ and_congr_right fun _ ↦ ?_
  dsimp only
  rw [memberOf_entries, hzod.preprocess_value]
  exact optional_array_getD hzod (hzod.enum_text type.2) fun leaf hleaf ↦ h type.1 leaf hleaf

/-! ## Filters -/

/-- Operators have different texts. -/
theorem Filter.name_injective : Function.Injective Filter.name := by
  intro operator other h
  cases operator <;> cases other <;> first | rfl | exact absurd h (by decide)

/-- The text of an operator is no index. -/
theorem isDigits_name (operator : Filter) : isDigits operator.name = false := by
  cases operator <;> decide

/-- The text of an operator is not the name of an inherited property. -/
theorem name_not_mem_inheritedNames (operator : Filter) : operator.name ∉ inheritedNames := by
  cases operator <;> decide

/-- A value that is added for an operator without one is its value. -/
theorem appendFilterValue_name {record : FilterRecord} {operator : Filter}
    (h : record.get operator.name = none) (value : Text) :
    appendFilterValue record operator.name value = record.set operator.name value := by
  have htext : propertyText record operator.name = [] := by
    have hempty := (propertyText_empty_eq_nil operator.name).mpr (name_not_mem_inheritedNames _)
    rw [propertyText, h]
    exact hempty
  rw [appendFilterValue, if_pos htext]

/-- What is received of operators and their values. -/
def operatorInputs (entries : List (Filter × Leaf)) : List (Text × FilterInput) :=
  entries.map fun entry ↦ (entry.1.name, textInput entry.2)

/-- Operators that are new to a record are added to it one after another. -/
theorem entries_normalizeObjectFrom {entries : List (Filter × Leaf)}
    (hnodup : (entries.map Prod.fst).Nodup) {record : FilterRecord}
    (hnew : ∀ entry ∈ entries, record.get entry.1.name = none) :
    (normalizeObjectFrom (operatorInputs entries) record).entries =
      record.entries ++ entries.map fun entry ↦ (entry.1.name, entry.2.joined) := by
  induction entries generalizing record with
  | nil => simp [operatorInputs, normalizeObjectFrom]
  | cons entry rest ih =>
      rw [List.map_cons, List.nodup_cons] at hnodup
      obtain ⟨hentry, hrest⟩ := List.forall_mem_cons.mp hnew
      have hstep : normalizeObjectFrom (operatorInputs (entry :: rest)) record =
          normalizeObjectFrom (operatorInputs rest)
            (record.set entry.1.name entry.2.joined) := by
        rw [operatorInputs, List.map_cons, normalizeObjectFrom, isDigits_name,
          ← appendFilterValue_name hentry]
        rfl
      have hnext : ∀ other ∈ rest,
          (record.set entry.1.name entry.2.joined).get other.1.name = none := by
        intro other hother
        have hne : other.1.name ≠ entry.1.name := fun hsame ↦
          hnodup.1 (List.mem_map.mpr ⟨other, hother, Filter.name_injective hsame⟩)
        rw [OrderedMap.get_set, if_neg hne]
        exact hrest other hother
      rw [hstep, ih hnodup.2 hnext, OrderedMap.entries_set_of_get_none hentry, List.append_assoc]
      rfl

/-- What is received of a filter. -/
def ClientFilter.input : ClientFilter → FilterInput
  | .plain value => textInput value
  | .operators values => .object (operatorInputs values.entries)

/-- The preprocessor makes the text of each operator of what is received of a filter. -/
theorem recordInput_queryFilterPreprocessor (filter : ClientFilter) :
    recordInput (queryFilterPreprocessor filter.input) =
      .object (operatorInputs filter.values.entries) := by
  cases filter with
  | plain value => rfl
  | operators values =>
      have hentries : (queryFilterPreprocessor (.object (operatorInputs values.entries))).entries =
          values.entries.map fun entry ↦ (entry.1.name, entry.2.joined) :=
        entries_normalizeObjectFrom values.nodup fun _ _ ↦ rfl
      rw [ClientFilter.input, recordInput, hentries, List.map_map]
      rfl

/-- The member of an operator. -/
theorem memberOf_operatorInputs (values : OrderedMap Filter Leaf) (operator : Filter) :
    memberOf (operatorInputs values.entries) operator.name =
      ((values.get operator).map textInput).getD .undefined := by
  rw [memberOf, OrderedMap.get, operatorInputs]
  congr 1
  induction values.entries with
  | nil => rfl
  | cons entry rest ih =>
      rw [List.map_cons, List.lookup_cons, List.lookup_cons, ih]
      by_cases hsame : operator = entry.1
      · simp [hsame]
      · have hname : (operator.name == entry.1.name) = false := by
          simpa using fun h ↦ hsame (Filter.name_injective h)
        have hoperator : (operator == entry.1) = false := by simpa using hsame
        rw [hname, hoperator]

/-- `filterValueSchema` on what is received. -/
theorem filterValueSchema_eq_some_iff (hzod : zod.Documented) {schema : Schema α}
    {operator : Filter} {leaf : Leaf} (h : leaf.Separable) {answer : Option (List α)} :
    filterValueSchema zod operator schema (textInput leaf) = some answer ↔
      ∃ items, answer = some items ∧ items.length ≤ 10000 ∧
        List.Forall₂ (fun value item ↦ schema (.string value) = some item)
          (operator.valuesOf leaf) items := by
  have hsplit : (if operator = .search then wrapString else splitString) (textInput leaf) =
      .array ((operator.valuesOf leaf).map .string) := by
    rw [Filter.valuesOf]
    by_cases hsearch : operator = .search
    · rw [if_pos hsearch, if_pos hsearch]
      rfl
    · rw [if_neg hsearch, if_neg hsearch, splitString_textInput h]
  have hvalue : filterValueSchema zod operator schema (textInput leaf) = some answer ↔
      zod.optional (zod.array schema 1 10000) (.array ((operator.valuesOf leaf).map .string)) =
        some answer := by
    rw [filterValueSchema, Schema.join, hzod.optional_value _ _ (by simp [textInput]),
      hzod.preprocess_value, hsplit, Option.map_map, show Option.join ∘ some = id from rfl,
      Option.map_id, id]
  have hne : operator.valuesOf leaf ≠ [] := by
    rw [Filter.valuesOf]
    split
    next => simp
    next => exact h.1
  rw [hvalue, hzod.optional_eq_some_iff (by simp)]
  simp only [hzod.array_array, List.forall₂_map_left_iff]
  constructor
  · rintro ⟨items, ⟨⟨-, hmax⟩, hitems⟩, rfl⟩
    exact ⟨items, rfl, hmax, hitems⟩
  · rintro ⟨items, rfl, hmax, hitems⟩
    refine ⟨items, ⟨⟨?_, hmax⟩, hitems⟩, rfl⟩
    rw [← hitems.length_eq]
    exact List.length_pos_of_ne_nil hne

/-- `filterSchema` on what the preprocessor makes of what is received. -/
theorem filterSchema_eq_some_iff (hzod : zod.Documented) {parameters : FilterValue α}
    {filter : ClientFilter}
    (h : ∀ operator leaf, filter.values.get operator = some leaf → leaf.Separable)
    {operators : List (Text × Option (List α))} :
    filterSchema zod parameters (recordInput (queryFilterPreprocessor filter.input)) =
        some (some operators) ↔ OperatorsAnswer parameters filter operators := by
  rw [recordInput_queryFilterPreprocessor, filterSchema, hzod.optional_value _ _ (by simp),
    Option.map_eq_some_iff]
  simp only [Option.some.injEq, exists_eq_right]
  rw [hzod.strictObjectOf_eq_some_iff, OperatorsAnswer, List.forall₂_map_left_iff]
  refine and_congr ?_ (forall₂_congr_of_iff fun operator answer ↦ and_congr_right fun _ ↦ ?_)
  · rw [operatorInputs, List.forall_mem_map, OrderedMap.keys, List.forall_mem_map, List.map_map]
    refine forall₂_congr fun entry _ ↦ ?_
    exact (List.mem_map_of_injective Filter.name_injective :)
  · rw [memberOf_operatorInputs]
    cases hget : filter.values.get operator with
    | none =>
        show (zod.optional _ _).map Option.join = some answer.2 ↔ answer.2 = none
        rw [Option.map_none, Option.getD_none, hzod.optional_undefined, Option.map_some,
          Option.some.injEq, eq_comm]
        rfl
    | some leaf => exact filterValueSchema_eq_some_iff hzod (h operator leaf hget)

/-- What the preprocessor makes is not undefined, so that there are operators. -/
theorem filterSchema_answer (hzod : zod.Documented) {parameters : FilterValue α}
    (filter : ClientFilter) {answer : Option (List (Text × Option (List α)))} :
    (filterSchema zod parameters (recordInput (queryFilterPreprocessor filter.input))).map
        (Option.join ∘ some) = some answer ↔
      ∃ operators, answer = some operators ∧
        filterSchema zod parameters (recordInput (queryFilterPreprocessor filter.input)) =
          some (some operators) := by
  have hjoin : (Option.join ∘ some : Option (List (Text × Option (List α))) → _) = id := rfl
  rw [hjoin, Option.map_id, id, recordInput_queryFilterPreprocessor, filterSchema,
    hzod.optional_value _ _ (by simp), Option.map_eq_some_iff]
  simp only [Option.map_eq_some_iff, Option.some.injEq, exists_eq_right]
  exact exists_congr fun operators ↦ and_comm.trans (and_congr_left fun _ ↦ eq_comm)

/-- What is received of filters. -/
theorem input_filterObject (entries : List (Text × ClientFilter)) :
    (filterObject entries).joined.input = entries.map fun entry ↦ (entry.1, entry.2.input) := by
  induction entries with
  | nil => rfl
  | cons entry rest ih =>
      obtain ⟨key, filter⟩ := entry
      cases filter with
      | plain value => exact congrArg _ ih
      | operators values =>
          have hvalues : (withLeaves (values.entries.map fun value ↦ (value.1.name, value.2))
              .nil).joined.input = operatorInputs values.entries := by
            rw [input_withLeaves, List.map_map]
            exact List.append_nil _
          rw [List.map_cons, ClientFilter.input, ← hvalues, ← ih]
          rfl

/-- The members of an object of filters. -/
theorem membersOf_filterObject (entries : List (Text × ClientFilter)) :
    membersOf (filterObject entries) = if entries = [] then none
      else some (.object (entries.map fun entry ↦ (entry.1, entry.2.input))) := by
  cases entries with
  | nil => rfl
  | cons entry entries =>
      have hne : filterObject (entry :: entries) ≠ .nil := by
        obtain ⟨key, value | values⟩ := entry <;> simp [filterObject]
      rw [membersOf, if_neg hne, if_neg (by simp), input_filterObject]

/-- What is received of a filter is not missing. -/
theorem input_ne_undefined (filter : ClientFilter) : filter.input ≠ .undefined := by
  cases filter <;> simp [ClientFilter.input, textInput]

/-- `filterQuery` on what is received. -/
theorem filterQuery_eq_some_iff (hzod : zod.Documented) {parameters : List (Text × FilterValue α)}
    {given : OrderedMap Text ClientFilter}
    (h : ∀ key filter, given.get key = some filter →
      ∀ operator leaf, filter.values.get operator = some leaf → leaf.Separable)
    {answer : Option (List (Text × Option (List (Text × Option (List α)))))} :
    filterQuery zod parameters ((membersOf (filterObject given.entries)).getD .undefined) =
        some answer ↔
      AnswersPart (given.entries = []) (FiltersAnswer parameters given) answer := by
  rw [membersOf_filterObject]
  by_cases hempty : given.entries = []
  · have hmissing : filterQuery zod parameters .undefined = some none :=
      hzod.optional_undefined _
    rw [if_pos hempty, Option.getD_none, hmissing, AnswersPart]
    simp [hempty, eq_comm]
  rw [if_neg hempty, Option.getD_some, filterQuery, hzod.optional_eq_some_iff (by simp),
    AnswersPart]
  simp only [hempty, false_and, not_false_eq_true, true_and, false_or]
  refine exists_congr fun answers ↦ ?_
  rw [and_comm]
  refine and_congr_right fun _ ↦ ?_
  rw [hzod.strictObjectOf_eq_some_iff, FiltersAnswer, List.forall₂_map_left_iff]
  rw [map_fst_shape fun entry : Text × FilterValue α ↦ Schema.join (zod.optional (zod.preprocess
    (fun value ↦ recordInput (queryFilterPreprocessor value)) (filterSchema zod entry.2))),
    forall_mem_keys fun entry : Text × ClientFilter ↦ entry.2.input]
  refine and_congr_right fun _ ↦ forall₂_congr_of_iff fun field answer ↦ and_congr_right fun _ ↦ ?_
  dsimp only [Schema.join]
  rw [memberOf_entries]
  cases hget : given.get field.1 with
  | none =>
      rw [Option.map_none, Option.getD_none, hzod.optional_undefined, Option.map_some,
        Option.some.injEq, eq_comm]
      rfl
  | some filter =>
      rw [Option.map_some, Option.getD_some, hzod.optional_value _ _ (input_ne_undefined filter),
        hzod.preprocess_value, Option.map_map]
      simp only [← filterSchema_eq_some_iff hzod (h field.1 filter hget)]
      exact filterSchema_answer hzod filter

/-! ## Pages -/

/-- The page size that is received, or the default. -/
theorem sizeSchema_eq_some_iff (hzod : zod.Documented) {defaultSize maximum size : ℚ}
    {given : Option Text} :
    sizeSchema zod defaultSize maximum ((given.map .string).getD .undefined) = some size ↔
      (match given with
        | none => some defaultSize
        | some text => NumericText.number text) = some size ∧
        size.isInt = true ∧ 0 < size ∧ size ≤ maximum := by
  cases given with
  | none =>
      rw [Option.map_none, Option.getD_none, sizeSchema, hzod.default_undefined,
        hzod.positiveInt_iff, Option.some.injEq]
  | some text =>
      rw [Option.map_some, Option.getD_some, sizeSchema, hzod.default_value _ _ _ (by simp),
        hzod.coerceNumber_text, Option.bind_eq_some_iff]
      simp only [hzod.positiveInt_iff]
      constructor
      · rintro ⟨number, hnumber, rfl, hbounds⟩
        exact ⟨hnumber, hbounds⟩
      · rintro ⟨hnumber, hbounds⟩
        exact ⟨size, hnumber, rfl, hbounds⟩

/-- The cursor that is received. -/
theorem optional_nonEmptyString_eq_some_iff (hzod : zod.Documented) {given cursor : Option Text} :
    zod.optional zod.nonEmptyString ((given.map .string).getD .undefined) = some cursor ↔
      cursor = given ∧ cursor ≠ some [] := by
  cases given with
  | none =>
      rw [Option.map_none, Option.getD_none, hzod.optional_undefined, Option.some.injEq, eq_comm]
      constructor
      · rintro rfl
        exact ⟨rfl, by simp⟩
      · exact fun h ↦ h.1
  | some text =>
      rw [Option.map_some, Option.getD_some, hzod.optional_eq_some_iff (by simp)]
      simp only [hzod.nonEmptyString_text]
      constructor
      · rintro ⟨item, ⟨hne, rfl⟩, rfl⟩
        exact ⟨rfl, fun hnil ↦ hne (Option.some.inj hnil)⟩
      · rintro ⟨rfl, hne⟩
        exact ⟨text, ⟨fun hnil ↦ hne (congrArg some hnil), rfl⟩, rfl⟩

/-- A page is answered by the values that its object has. -/
theorem pageAnswers_iff (hzod : zod.Documented) {defaultSize maximum : ℚ}
    {given : OrderedMap Text Text} {page : Page} :
    PageAnswers defaultSize maximum given page ↔
      (∀ key ∈ given.keys, key = cursorKey ∨ key = sizeKey) ∧
        (page.cursor = given.get cursorKey ∧ page.cursor ≠ some []) ∧
        sizeSchema zod defaultSize maximum (((given.get sizeKey).map .string).getD .undefined) =
          some page.size := by
  rw [sizeSchema_eq_some_iff hzod]
  exact ⟨fun h ↦ ⟨h.keys, ⟨h.cursor, h.cursor_ne⟩, h.size, h.bounds⟩,
    fun ⟨hkeys, hcursor, hsize⟩ ↦ ⟨hkeys, hcursor.1, hcursor.2, hsize.1, hsize.2⟩⟩

/-- `cursorPaginationQuery` on what is received. -/
theorem cursorPaginationQuery_eq_some_iff (hzod : zod.Documented)
    {defaultSize maximum : Option ℚ} {given : OrderedMap Text Text} {page : Page} :
    cursorPaginationQuery zod defaultSize maximum ((membersOf (withLeaves
        (given.entries.map fun entry ↦ (entry.1, .text entry.2)) .nil)).getD .undefined) =
        some page ↔
      PageAnswers (defaultSize.getD defaultPageSize) (maximum.getD maximumPageSize) given page := by
  rw [pageAnswers_iff hzod, membersOf_withLeaves]
  by_cases hempty : given.entries = []
  · have hget : ∀ key, given.get key = none := fun key ↦ by rw [OrderedMap.get, hempty]; rfl
    have hkeys : given.keys = [] := by rw [OrderedMap.keys, hempty]; rfl
    rw [hempty, List.map_nil, if_pos rfl, Option.getD_none, hget, hget, hkeys, Option.map_none,
      Option.getD_none, sizeSchema, hzod.default_undefined, cursorPaginationQuery,
      hzod.default_undefined, Option.map_eq_some_iff]
    obtain ⟨cursor, size⟩ := page
    constructor
    · rintro ⟨checked, hchecked, hpage⟩
      obtain ⟨rfl, rfl⟩ := Page.mk.injEq .. ▸ hpage
      exact ⟨by simp, ⟨rfl, by simp⟩, hchecked⟩
    · rintro ⟨-, ⟨hcursor, -⟩, hsize⟩
      exact ⟨size, hsize, by rw [← show cursor = none from hcursor]⟩
  · have hmembers : (given.entries.map fun entry ↦ (entry.1, Leaf.text entry.2)).map
        (fun entry ↦ (entry.1, textInput entry.2)) =
          given.entries.map fun entry ↦ (entry.1, FilterInput.string entry.2) := by
      rw [List.map_map]
      rfl
    rw [if_neg (by simpa using hempty), hmembers, Option.getD_some, cursorPaginationQuery,
      hzod.default_value _ _ _ (by simp), hzod.strictObject_object, OrderedMap.keys]
    refine and_congr ?_ ?_
    · rw [List.forall_mem_map, List.forall_mem_map]
      exact forall₂_congr fun entry _ ↦ by rw [List.mem_pair, or_comm]
    simp only [Option.bind_eq_bind, Option.bind_eq_some_iff, memberOf_entries,
      optional_nonEmptyString_eq_some_iff hzod]
    constructor
    · rintro ⟨cursor, hcursor, size, hsize, hpage⟩
      obtain rfl := Option.some.inj hpage
      exact ⟨hcursor, hsize⟩
    · rintro ⟨hcursor, hsize⟩
      exact ⟨page.cursor, hcursor, page.size, hsize, rfl⟩

/-! ## The whole query -/

/-- A query whose leaves are separable. -/
structure ClientQuery.Separable (query : ClientQuery) : Prop where
  fields : ∀ key leaf, query.fields.get key = some leaf → leaf.Separable
  filter : ∀ key filter, query.filter.get key = some filter →
    ∀ operator leaf, filter.values.get operator = some leaf → leaf.Separable
  included : ∀ leaf ∈ query.included, leaf.Separable
  sort : ∀ leaf ∈ query.sort, leaf.Separable

/-- A query answers what a client asked for, part by part. -/
structure Answers (schema : QuerySchema α) (query : ClientQuery) (answer : Query α) : Prop where
  page : PageAnswers (schema.defaultSize.getD defaultPageSize)
    (schema.maximum.getD maximumPageSize) query.page answer.page
  fields : AnswersPart (query.fields.entries = []) (FieldsAnswer schema.fields query.fields)
    answer.fields
  filter : AnswersPart (query.filter.entries = []) (FiltersAnswer schema.filter query.filter)
    answer.filter
  sort : ListAnswers (unsigned · ∈ schema.sort) query.sort answer.sort
  included : ListAnswers (· ∈ schema.included) query.included answer.included

/-- No other key is received. -/
theorem keys_input_toObject (query : ClientQuery) :
    ∀ member ∈ query.toObject.joined.input, member.1 ∈ queryKeys := by
  rw [input_toObject]
  have hpart : ∀ {key value}, key ∈ queryKeys → ∀ member ∈ part key value,
      member.1 ∈ queryKeys := by
    intro key value hkey member hmember
    obtain ⟨_, -, rfl⟩ := List.mem_map.mp hmember
    exact hkey
  simp only [List.mem_append]
  rintro member (h | h | h | h | h)
  · exact hpart (by decide) member h
  · exact hpart (by decide) member h
  · exact hpart (by decide) member h
  · exact hpart (by decide) member h
  · exact hpart (by decide) member h

/-- The members that are received of a query, by their keys. -/
theorem memberOf_input_toObject (query : ClientQuery) :
    memberOf query.toObject.joined.input "page".toList =
        (membersOf (withLeaves
          (query.page.entries.map fun entry ↦ (entry.1, .text entry.2)) .nil)).getD .undefined ∧
      memberOf query.toObject.joined.input "fields".toList =
        (membersOf (withLeaves query.fields.entries .nil)).getD .undefined ∧
      memberOf query.toObject.joined.input "filter".toList =
        (membersOf (filterObject query.filter.entries)).getD .undefined ∧
      memberOf query.toObject.joined.input "sort".toList =
        (query.sort.map textInput).getD .undefined ∧
      memberOf query.toObject.joined.input "include".toList =
        (query.included.map textInput).getD .undefined := by
  rw [input_toObject]
  simp [memberOf, List.lookup_append, lookup_part]

/-- The schema on what is received. -/
theorem querySchema_eq_some_iff (hzod : zod.Documented) {schema : QuerySchema α}
    {query : ClientQuery} (h : query.Separable) {answer : Query α} :
    querySchema zod schema (.object query.toObject.joined.input) = some answer ↔
      Answers schema query answer := by
  obtain ⟨hpage, hfields, hfilter, hsort, hincluded⟩ := memberOf_input_toObject query
  rw [querySchema, hzod.strictObject_object, and_iff_right (keys_input_toObject query), hpage,
    hfields, hfilter, hsort, hincluded]
  simp only [Option.bind_eq_bind, Option.bind_eq_some_iff,
    cursorPaginationQuery_eq_some_iff hzod, fieldsQuery_eq_some_iff hzod h.fields,
    filterQuery_eq_some_iff hzod h.filter, sortQuery_accepts hzod, includeQuery_accepts hzod,
    listAnswers_iff hzod h.sort, listAnswers_iff hzod h.included]
  constructor
  · rintro ⟨page, hpage, fields, hfields, filter, hfilter, sort, hsort, included, hincluded, heq⟩
    obtain rfl := Option.some.inj heq
    exact ⟨hpage, hfields, hfilter, hsort, hincluded⟩
  · rintro ⟨hpage, hfields, hfilter, hsort, hincluded⟩
    exact ⟨_, hpage, _, hfields, _, hfilter, _, hsort, _, hincluded, rfl⟩

/-- What a client writes, a server answers exactly if the query asks only for what the schema lists,
and then with the client's own values. -/
theorem serve_stringifyQuery (hzod : zod.Documented) {qs : Qs}
    {rebuild : List (Text × Leaf) → QueryObject} {schema : QuerySchema α} {query : ClientQuery}
    (hdocumented : Documented qs rebuild query.toObject)
    (hjoined : Documented qs rebuild query.toObject.joined) (hfull : query.toObject.Full)
    (hseparable : query.Separable) (answer : Query α) :
    serve qs zod schema (stringifyQuery qs query.toObject none) = some answer ↔
      Answers schema query answer := by
  rw [serve, parse_stringifyQuery hdocumented hjoined hfull, Option.bind_eq_bind, Option.bind_some]
  exact querySchema_eq_some_iff hzod hseparable

/-- The query of the documentation: fields of users, a filter by age, the articles, ten users in
descending order of age. -/
def userQuery : ClientQuery where
  fields := OrderedMap.empty.set "user".toList (.array ["age".toList, "dateOfBirth".toList])
  filter := OrderedMap.empty.set "age".toList (.operators
    (OrderedMap.empty.set .gt (.array ["10".toList, "20".toList])))
  included := some (.text "articles".toList)
  page := OrderedMap.empty.set sizeKey "10".toList
  sort := some (.text "-age".toList)

/-- What the server answers. -/
def userAnswer : Query Text where
  page := ⟨none, 10⟩
  fields := some [("article".toList, none),
    ("user".toList, some ["age".toList, "dateOfBirth".toList])]
  filter := some [("age".toList, some [("eq".toList, none),
    ("gt".toList, some ["10".toList, "20".toList])])]
  sort := some ["-age".toList]
  included := some ["articles".toList]

/-- The leaves of the query of the documentation are separable. -/
theorem separable_userQuery : userQuery.Separable where
  fields key leaf h := by
    rw [userQuery, OrderedMap.get_set] at h
    split at h
    next =>
      obtain rfl := Option.some.inj h
      decide
    next => contradiction
  filter key filter h operator leaf hleaf := by
    rw [userQuery, OrderedMap.get_set] at h
    split at h
    next =>
      obtain rfl := Option.some.inj h
      rw [ClientFilter.values, OrderedMap.get_set] at hleaf
      split at hleaf
      next =>
        obtain rfl := Option.some.inj hleaf
        decide
      next => contradiction
    next => contradiction
  included leaf h := by
    obtain rfl := Option.some.inj h
    decide
  sort leaf h := by
    obtain rfl := Option.some.inj h
    decide

/-- The answer to the query of the documentation answers what the client asked for. -/
theorem serve_stringifyQuery_user : Answers userSchema userQuery userAnswer := by
  have hdocumented : Documented bracketQs rebuildBrackets userQuery.toObject :=
    bracket_qs_documented (by decide +kernel) (by decide +kernel) (by decide +kernel)
  have hjoined : Documented bracketQs rebuildBrackets userQuery.toObject.joined :=
    bracket_qs_documented (by decide +kernel) (by decide +kernel) (by decide +kernel)
  refine (serve_stringifyQuery plainZod_documented hdocumented hjoined (by decide +kernel)
    separable_userQuery _).mp ?_
  decide +kernel

end CoreUtils.JsonApi
