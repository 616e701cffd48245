import CoreUtils.JsonApi.Query
import CoreUtils.Library.ObjectLiteral
import CoreUtils.Library.OrderedMap

/-!
# Repeated filters

`queryFilterPreprocessor` of `json-api-nestjs` turns the shapes in which `qs` delivers a repeated
filter into one text for each operator. Arrays and objects with indices as keys come to the same.
What has been collected is tested by its truth, so that an empty value in front is lost, and an
operator that every object inherits counts as collected from the beginning; otherwise all values
are kept in order (`queryFilterPreprocessor_spec`).
-/

namespace CoreUtils.JsonApi

/-! ## The preprocessor -/

/-- What `qs` delivers for a filter. -/
inductive FilterInput where
  | undefined
  | null
  | bool (value : Bool)
  | string (value : Text)
  | array (values : List FilterInput)
  | object (members : List (Text × FilterInput))

/-- `undefined` or `null`, for which `join` writes nothing. -/
def FilterInput.isNullish : FilterInput → Bool
  | .undefined => true
  | .null => true
  | _ => false

/-- A boolean. -/
def FilterInput.isBool : FilterInput → Bool
  | .bool _ => true
  | _ => false

mutual

/-- `String` of a value. An object is printed like every plain object. -/
def FilterInput.text : FilterInput → Text
  | .undefined => "undefined".toList
  | .null => "null".toList
  | .bool true => "true".toList
  | .bool false => "false".toList
  | .string value => value
  | .array values => [','].intercalate (joinedTexts values)
  | .object _ => "[object Object]".toList

/-- The texts that `join` puts commas between. -/
def joinedTexts : List FilterInput → List Text
  | [] => []
  | value :: rest => (if value.isNullish then [] else value.text) :: joinedTexts rest

end

/-- A filter: the collected text of each operator. -/
abbrev FilterRecord := OrderedMap Text Text

/-- The text of a property of a filter, own or inherited. -/
def propertyText (filter : FilterRecord) (key : Text) : Text :=
  ((filter.get key).or ((inheritedProperties.find? fun entry ↦ entry.1.toList == key).map
    fun entry ↦ entry.2.toList)).getD []

/-- `appendFilterValue`. A property that is missing or empty is false. -/
def appendFilterValue (filter : FilterRecord) (key value : Text) : FilterRecord :=
  filter.set key
    (if propertyText filter key = [] then value else propertyText filter key ++ ',' :: value)

/-- A filter with the values of another one added to its own, operator by operator. -/
def mergeFilters (currentFilter newFilter : FilterRecord) : FilterRecord :=
  newFilter.entries.foldl (fun mergedFilter entry ↦ appendFilterValue mergedFilter entry.1 entry.2)
    currentFilter

/-- `/^\d+$/`. -/
def isDigits (key : Text) : Bool := key != [] && key.all Char.isDigit

/-- The operator of a value without one. -/
def eqOperator : Text := "eq".toList

mutual

/-- The filter of a value that is an array or an object. -/
def normalizeNested : FilterInput → Option FilterRecord
  | .array values => some (normalizeArrayFrom values .empty)
  | .object members => some (normalizeObjectFrom members .empty)
  | _ => none

/-- The loop of `normalizeArrayFilter`. -/
def normalizeArrayFrom : List FilterInput → FilterRecord → FilterRecord
  | [], filter => filter
  | value :: rest, filter =>
      normalizeArrayFrom rest ((normalizeNested value).elim
        (appendFilterValue filter eqOperator value.text) (mergeFilters filter))

/-- The loop of `normalizeObjectFilter`. -/
def normalizeObjectFrom : List (Text × FilterInput) → FilterRecord → FilterRecord
  | [], filter => filter
  | (key, value) :: rest, filter =>
      normalizeObjectFrom rest
        (if value.isBool then appendFilterValue filter eqOperator key
        else if isDigits key then
          (normalizeNested value).elim (appendFilterValue filter eqOperator value.text)
            (mergeFilters filter)
        else appendFilterValue filter key value.text)

end

/-- The filter that a value is: a record of operators, or values that are to be equal. -/
def queryFilterPreprocessor (value : FilterInput) : FilterRecord :=
  (normalizeNested value).getD (OrderedMap.empty.set eqOperator value.text)

/-! ## Occurrences of a filter -/

/-- An occurrence of a filter: a value, which is for `eq`, or an operator and its value. -/
inductive FilterOccurrence where
  | plain (value : Text)
  | operator (operator value : Text) (notDigits : isDigits operator = false)

namespace FilterOccurrence

/-- The operator of an occurrence. -/
def key : FilterOccurrence → Text
  | plain _ => eqOperator
  | operator key _ _ => key

/-- The value of an occurrence. -/
def value : FilterOccurrence → Text
  | plain value => value
  | operator _ value _ => value

/-- An occurrence on its own. -/
def input : FilterOccurrence → FilterInput
  | plain value => .string value
  | operator key value _ => .object [(key, .string value)]

end FilterOccurrence

/-- The array with the occurrences. -/
def arrayForm (occurrences : List FilterOccurrence) : FilterInput :=
  .array (occurrences.map FilterOccurrence.input)

/-- The object with the occurrences under their indices from `start` on. -/
def indexedMembers (start : ℕ) (occurrences : List FilterOccurrence) : List (Text × FilterInput) :=
  occurrences.mapIdx fun index occurrence ↦ (Nat.toDigits 10 (start + index), occurrence.input)

/-- The object with the occurrences under their indices. -/
def objectForm (occurrences : List FilterOccurrence) : FilterInput :=
  .object (indexedMembers 0 occurrences)

/-- The values that are supplied to an operator, in order. -/
def valuesOf (key : Text) (occurrences : List FilterOccurrence) : List Text :=
  (occurrences.filter fun occurrence ↦ occurrence.key == key).map FilterOccurrence.value

/-- What an occurrence adds to a filter. -/
def addOccurrence (filter : FilterRecord) (occurrence : FilterOccurrence) : FilterRecord :=
  match occurrence with
  | .plain value => appendFilterValue filter eqOperator value
  | .operator key value _ =>
      mergeFilters filter (appendFilterValue .empty key value)

/-! ## Both shapes -/

/-- The index of an occurrence is a digit string. -/
theorem isDigits_toDigits (n : ℕ) : isDigits (Nat.toDigits 10 n) = true := by
  have hne : Nat.toDigits 10 n ≠ [] := Nat.toDigits_ne_nil
  have hdigits : ∀ c ∈ Nat.toDigits 10 n, c.isDigit = true := fun c hc ↦
    Nat.isDigit_of_mem_toDigits (by decide) (by decide) hc
  simpa [isDigits, hne] using hdigits

/-- What an occurrence adds in an array. -/
theorem addOccurrence_eq (filter : FilterRecord) (occurrence : FilterOccurrence) :
    (normalizeNested occurrence.input).elim
        (appendFilterValue filter eqOperator occurrence.input.text) (mergeFilters filter) =
      addOccurrence filter occurrence := by
  cases occurrence with
  | plain value => rfl
  | operator key value hdigits =>
      have hnested : normalizeNested (.object [(key, .string value)]) =
          some (if isDigits key then appendFilterValue .empty eqOperator value
            else appendFilterValue .empty key value) := rfl
      rw [FilterOccurrence.input, hnested, hdigits]
      rfl

/-- In an array, the occurrences are added one after another. -/
theorem normalizeArrayFrom_input (occurrences : List FilterOccurrence) (filter : FilterRecord) :
    normalizeArrayFrom (occurrences.map FilterOccurrence.input) filter =
      occurrences.foldl addOccurrence filter := by
  induction occurrences generalizing filter with
  | nil => rfl
  | cons occurrence rest ih =>
      rw [List.map_cons, normalizeArrayFrom, addOccurrence_eq, ih, List.foldl_cons]

/-- In an object with indices as keys, the occurrences are added one after another. -/
theorem normalizeObjectFrom_indexedMembers (start : ℕ) (occurrences : List FilterOccurrence)
    (filter : FilterRecord) :
    normalizeObjectFrom (indexedMembers start occurrences) filter =
      occurrences.foldl addOccurrence filter := by
  induction occurrences generalizing filter start with
  | nil => rfl
  | cons occurrence rest ih =>
      have hmembers : indexedMembers start (occurrence :: rest) =
          (Nat.toDigits 10 start, occurrence.input) :: indexedMembers (start + 1) rest := by
        simp [indexedMembers, List.mapIdx_cons, Nat.add_assoc, Nat.add_comm 1]
      have hbool : occurrence.input.isBool = false := by
        cases occurrence <;> rfl
      rw [hmembers, normalizeObjectFrom, hbool, isDigits_toDigits, List.foldl_cons,
        ← addOccurrence_eq, ih]
      rfl

/-! ## The text of an operator -/

/-- A text after a value has been added to it. -/
def joinText (current value : Text) : Text :=
  if current = [] then value else current ++ ',' :: value

/-- The text that an occurrence brings for its operator. -/
def FilterOccurrence.contribution : FilterOccurrence → Text
  | plain value => value
  | operator key value _ => joinText (propertyText .empty key) value

/-- The texts that occurrences bring for an operator. -/
def contributions (key : Text) (occurrences : List FilterOccurrence) : List Text :=
  (occurrences.filter fun occurrence ↦ occurrence.key == key).map FilterOccurrence.contribution

/-- An occurrence adds its text to that of its operator. -/
theorem addOccurrence_eq_append (filter : FilterRecord) (occurrence : FilterOccurrence) :
    addOccurrence filter occurrence =
      appendFilterValue filter occurrence.key occurrence.contribution := by
  cases occurrence <;> rfl

/-- The text of a property after a value has been added to one. -/
theorem propertyText_appendFilterValue (filter : FilterRecord) (key other value : Text) :
    propertyText (appendFilterValue filter key value) other =
      if other = key then joinText (propertyText filter key) value
      else propertyText filter other := by
  by_cases hsame : other = key
  · rw [if_pos hsame, propertyText, appendFilterValue, OrderedMap.get_set, if_pos hsame]
    rfl
  · rw [if_neg hsame, propertyText, appendFilterValue, OrderedMap.get_set, if_neg hsame]
    rfl

/-- What an operator has after the occurrences have been added. -/
theorem get_foldl_addOccurrence (occurrences : List FilterOccurrence) (filter : FilterRecord)
    (key : Text) :
    (occurrences.foldl addOccurrence filter).get key =
      if contributions key occurrences = [] then filter.get key
      else some ((contributions key occurrences).foldl joinText (propertyText filter key)) := by
  induction occurrences generalizing filter with
  | nil => rfl
  | cons occurrence rest ih =>
      rw [List.foldl_cons, ih, addOccurrence_eq_append, propertyText_appendFilterValue]
      by_cases hsame : occurrence.key = key
      · have hcontributions : contributions key (occurrence :: rest) =
            occurrence.contribution :: contributions key rest := by
          simp [contributions, hsame]
        rw [hcontributions, if_neg (List.cons_ne_nil _ _), List.foldl_cons, if_pos hsame.symm,
          hsame]
        by_cases hlast : contributions key rest = []
        · rw [if_pos hlast, hlast, appendFilterValue, OrderedMap.get_set, if_pos rfl]
          rfl
        · rw [if_neg hlast]
      · have hcontributions : contributions key (occurrence :: rest) = contributions key rest := by
          simp [contributions, hsame]
        rw [hcontributions, if_neg (Ne.symm hsame), appendFilterValue, OrderedMap.get_set,
          if_neg (Ne.symm hsame)]

/-! ## Pieces between commas -/

/-- What is added to a text that is not empty is kept. -/
theorem splitOn_foldl_joinText {current : Text} (values : List Text) (h : current ≠ []) :
    (values.foldl joinText current).splitOn ',' =
      (current :: values).flatMap (·.splitOn ',') := by
  induction values generalizing current with
  | nil => simp
  | cons value rest ih =>
      have hjoin : joinText current value = current ++ ',' :: value := if_neg h
      rw [List.foldl_cons, hjoin, ih (by simp), List.flatMap_cons, List.splitOn_append_cons_self,
        List.append_assoc, List.flatMap_cons, List.flatMap_cons]

/-- Adding values never makes pieces of its own. -/
theorem length_splitOn_foldl_joinText (current : Text) (values : List Text) :
    ((values.foldl joinText current).splitOn ',').length ≤
      ((current :: values).flatMap (·.splitOn ',')).length := by
  induction values generalizing current with
  | nil => simp
  | cons value rest ih =>
      by_cases h : current = []
      · have hjoin : joinText current value = value := if_pos h
        rw [List.foldl_cons, hjoin, List.flatMap_cons, List.length_append]
        exact (ih value).trans (Nat.le_add_left _ _)
      · exact (splitOn_foldl_joinText (value :: rest) h).symm ▸ le_rfl

/-- Values that are added to nothing are kept exactly when the first of them is not empty, or
alone. -/
theorem splitOn_foldl_joinText_iff (value : Text) (rest : List Text) :
    ((value :: rest).foldl joinText []).splitOn ',' = (value :: rest).flatMap (·.splitOn ',') ↔
      (value = [] → rest = []) := by
  have hfirst : joinText [] value = value := rfl
  rw [List.foldl_cons, hfirst]
  by_cases h : value = []
  · subst h
    constructor
    · intro heq
      cases rest with
      | nil => exact fun _ ↦ rfl
      | cons second rest =>
          -- the empty value is a piece that adding the second value drops
          have hsecond : joinText [] second = second := rfl
          have hle := length_splitOn_foldl_joinText second rest
          have hlength := congrArg List.length heq
          rw [List.foldl_cons, hsecond, List.flatMap_cons, List.length_append,
            List.splitOn_nil, List.length_singleton] at hlength
          omega
    · intro hrest
      rw [hrest rfl]
      simp
  · exact iff_of_true (splitOn_foldl_joinText rest h) fun hempty ↦ absurd hempty h

/-- The inherited properties are those with a text. -/
theorem propertyText_empty_eq_nil (key : Text) :
    propertyText .empty key = [] ↔ key ∉ inheritedNames := by
  have hnotEmpty : ∀ entry ∈ inheritedProperties, entry.2.toList ≠ [] := by
    intro entry hentry hnil
    rcases getLast?_inheritedProperties hentry with hlast | hlast <;> simp [hnil] at hlast
  have htext : propertyText .empty key =
      ((inheritedProperties.find? fun entry ↦ entry.1.toList == key).map
        fun entry ↦ entry.2.toList).getD [] := rfl
  rw [htext]
  cases hfind : inheritedProperties.find? fun entry ↦ entry.1.toList == key with
  | none =>
      have hnone := List.find?_eq_none.mp hfind
      refine iff_of_true rfl fun hmem ↦ ?_
      obtain ⟨entry, hentry, hname⟩ := List.mem_map.mp hmem
      exact hnone entry hentry (beq_iff_eq.mpr hname)
  | some entry =>
      have hentry := List.mem_of_find?_eq_some hfind
      have hname : (entry.1.toList == key) = true := by
        simpa only using List.find?_some hfind
      refine iff_of_false (hnotEmpty entry hentry) fun hnot ↦ hnot ?_
      exact List.mem_map.mpr ⟨entry, hentry, beq_iff_eq.mp hname⟩

/-- An operator that is not inherited gets its values themselves. -/
theorem contributions_eq_valuesOf {key : Text} (h : propertyText .empty key = [])
    (occurrences : List FilterOccurrence) :
    contributions key occurrences = valuesOf key occurrences := by
  refine List.map_congr_left fun occurrence hoccurrence ↦ ?_
  have hkey : occurrence.key = key := beq_iff_eq.mp (List.mem_filter.mp hoccurrence).2
  cases occurrence with
  | plain value => rfl
  | operator other value hdigits =>
      have hother : propertyText .empty other = [] := (show other = key from hkey) ▸ h
      exact if_pos hother

/-- Every text that is brought has at least the pieces of its value. -/
theorem length_pieces_contributions (key : Text) (occurrences : List FilterOccurrence) :
    ((valuesOf key occurrences).flatMap (·.splitOn ',')).length ≤
      ((contributions key occurrences).flatMap (·.splitOn ',')).length := by
  have hone : ∀ occurrence : FilterOccurrence,
      (occurrence.value.splitOn ',').length ≤ (occurrence.contribution.splitOn ',').length := by
    rintro (value | ⟨other, value, hdigits⟩)
    · exact le_rfl
    · show _ ≤ ((joinText (propertyText .empty other) value).splitOn ',').length
      by_cases hinherited : propertyText .empty other = []
      · rw [joinText, if_pos hinherited]
        exact le_rfl
      · rw [joinText, if_neg hinherited, List.splitOn_append_cons_self, List.length_append]
        exact Nat.le_add_left _ _
  induction occurrences with
  | nil => exact le_rfl
  | cons occurrence rest ih =>
      by_cases hsame : occurrence.key = key
      · have hvalues : valuesOf key (occurrence :: rest) =
            occurrence.value :: valuesOf key rest := by
          simp [valuesOf, hsame]
        have hcontributions : contributions key (occurrence :: rest) =
            occurrence.contribution :: contributions key rest := by
          simp [contributions, hsame]
        rw [hvalues, hcontributions, List.flatMap_cons, List.flatMap_cons, List.length_append,
          List.length_append]
        exact Nat.add_le_add (hone occurrence) ih
      · have hvalues : valuesOf key (occurrence :: rest) = valuesOf key rest := by
          simp [valuesOf, hsame]
        have hcontributions : contributions key (occurrence :: rest) = contributions key rest := by
          simp [contributions, hsame]
        rw [hvalues, hcontributions]
        exact ih

/-- An operator with values has texts, and the other way round. -/
theorem contributions_eq_nil (key : Text) (occurrences : List FilterOccurrence) :
    contributions key occurrences = [] ↔ valuesOf key occurrences = [] := by
  rw [contributions, valuesOf, List.map_eq_nil_iff, List.map_eq_nil_iff]

/-- The pieces of one operator are those of its values exactly when it is not inherited and its
first value is not empty, or alone. -/
theorem pieces_iff (key : Text) (occurrences : List FilterOccurrence) :
    (((occurrences.foldl addOccurrence .empty).get key).map (·.splitOn ',') =
        if valuesOf key occurrences = [] then none
        else some ((valuesOf key occurrences).flatMap (·.splitOn ','))) ↔
      (valuesOf key occurrences ≠ [] → key ∉ inheritedNames) ∧
        ∀ rest, valuesOf key occurrences = [] :: rest → rest = [] := by
  rw [get_foldl_addOccurrence]
  by_cases hvalues : valuesOf key occurrences = []
  · rw [if_pos hvalues, if_pos ((contributions_eq_nil key occurrences).mpr hvalues)]
    exact iff_of_true rfl ⟨fun hsome ↦ absurd hvalues hsome, fun rest hcons ↦ by
      rw [hvalues] at hcons
      exact nomatch hcons⟩
  rw [if_neg hvalues, if_neg fun hnil ↦ hvalues ((contributions_eq_nil key occurrences).mp hnil),
    Option.map_some, Option.some.injEq, forall_prop_of_true hvalues,
    ← propertyText_empty_eq_nil]
  by_cases hinherited : propertyText .empty key = []
  · rw [hinherited, contributions_eq_valuesOf hinherited, and_iff_right rfl]
    obtain ⟨value, rest, hcons⟩ := List.exists_cons_of_ne_nil hvalues
    rw [hcons, splitOn_foldl_joinText_iff]
    constructor
    · rintro hfirst others heq
      obtain ⟨hvalue, hrest⟩ := List.cons_eq_cons.mp heq
      exact hrest ▸ hfirst hvalue
    · intro hfirst hvalue
      exact hfirst rest (hvalue ▸ rfl)
  · -- the inherited text is a piece too much
    refine iff_of_false (fun heq ↦ ?_) fun hboth ↦ hinherited hboth.1
    have hlength := congrArg List.length heq
    have hle := length_pieces_contributions key occurrences
    have hpos : 0 < ((propertyText .empty key).splitOn ',').length :=
      List.length_pos_of_ne_nil (List.splitOn_ne_nil _ _)
    rw [splitOn_foldl_joinText _ hinherited, List.flatMap_cons, List.length_append] at hlength
    omega

/-! ## Repeated filters -/

/-- Both shapes give the same record always. Every operator has the pieces of all its values in
order exactly when no operator with a value is the name of an inherited property and no operator
has an empty first value and others. -/
theorem queryFilterPreprocessor_spec (occurrences : List FilterOccurrence) :
    (queryFilterPreprocessor (arrayForm occurrences) =
        queryFilterPreprocessor (objectForm occurrences) ∧
      ∀ key, ((queryFilterPreprocessor (arrayForm occurrences)).get key).map (·.splitOn ',') =
        if valuesOf key occurrences = [] then none
        else some ((valuesOf key occurrences).flatMap (·.splitOn ','))) ↔
      ∀ key, (valuesOf key occurrences ≠ [] → key ∉ inheritedNames) ∧
        ∀ rest, valuesOf key occurrences = [] :: rest → rest = [] := by
  have harray : queryFilterPreprocessor (arrayForm occurrences) =
      occurrences.foldl addOccurrence .empty :=
    normalizeArrayFrom_input occurrences .empty
  have hobject : queryFilterPreprocessor (objectForm occurrences) =
      occurrences.foldl addOccurrence .empty :=
    normalizeObjectFrom_indexedMembers 0 occurrences .empty
  rw [harray, hobject, and_iff_right rfl]
  exact forall_congr' fun key ↦ pieces_iff key occurrences

/-- With `?filter[age]=&filter[age]=10`, the empty value is lost. -/
theorem queryFilterPreprocessor_emptyFirst :
    ¬ (queryFilterPreprocessor (arrayForm [.plain [], .plain "10".toList]) =
        queryFilterPreprocessor (objectForm [.plain [], .plain "10".toList]) ∧
      ∀ key, ((queryFilterPreprocessor (arrayForm [.plain [], .plain "10".toList])).get key).map
          (·.splitOn ',') =
        if valuesOf key [.plain [], .plain "10".toList] = [] then none
        else some ((valuesOf key [.plain [], .plain "10".toList]).flatMap (·.splitOn ','))) := by
  rintro ⟨-, hpieces⟩
  have hget : (queryFilterPreprocessor (arrayForm [.plain [], .plain "10".toList])).get
      eqOperator = some "10".toList := rfl
  have hvalues : valuesOf eqOperator [.plain [], .plain "10".toList] = [[], "10".toList] := rfl
  have heq := hpieces eqOperator
  rw [hget, hvalues] at heq
  exact absurd heq (by decide)

end CoreUtils.JsonApi
