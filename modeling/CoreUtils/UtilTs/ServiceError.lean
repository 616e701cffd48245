import CoreUtils.Library.ObjectLiteral
import CoreUtils.Library.OrderedMap

/-!
# Service errors and their statuses

`ServiceError` of `util-ts`: an error with a list of issues, each of which has a code and perhaps a
status of its own. The status of an issue without one is looked up by its code, and the status of
the error is the greatest of its issues. The lookup tests for the code with `in`, which also finds
what every object inherits, so that a code such as `toString` yields no status at all. The statuses
are right exactly when no issue without a status has such a code (`serviceError_status_iff`).
-/

namespace CoreUtils.UtilTs

/-- The text of a string. -/
abbrev Text := List Char

/-! ## Statuses -/

/-- The numbers of the type `Status`. -/
inductive Status where
  | badRequest
  | unauthorized
  | forbidden
  | notFound
  | conflict
  | unprocessableEntity
  | tooManyRequests
  | internal
deriving DecidableEq

/-- The number that a status is. -/
def Status.number : Status → ℕ
  | .badRequest => 400
  | .unauthorized => 401
  | .forbidden => 403
  | .notFound => 404
  | .conflict => 409
  | .unprocessableEntity => 422
  | .tooManyRequests => 429
  | .internal => 500

/-- The numbers that a status can be at run time. -/
inductive StatusValue where
  | status (status : Status)
  | nan
  | negativeInfinity
deriving DecidableEq

namespace StatusValue

/-- The greater of two numbers; a value that is not a number prevails. -/
def max : StatusValue → StatusValue → StatusValue
  | .nan, _ => .nan
  | _, .nan => .nan
  | .negativeInfinity, value => value
  | value, .negativeInfinity => value
  | .status a, .status b => .status (if a.number < b.number then b else a)

/-- The numeric order, in which `NaN` has no place. -/
def le : StatusValue → StatusValue → Bool
  | .nan, _ => false
  | _, .nan => false
  | .negativeInfinity, _ => true
  | _, .negativeInfinity => false
  | .status a, .status b => a.number ≤ b.number

end StatusValue

/-- A value as an argument of `Math.max`: `undefined` becomes `NaN`. -/
def toNumber (value : Option StatusValue) : StatusValue := value.getD .nan

/-- The greatest of the values as numbers, as `Math.max` computes it: `NaN` if one of them is, and
minus infinity if there are no values. -/
def mathMax (values : List (Option StatusValue)) : StatusValue :=
  values.foldr (fun value greatest ↦ (toNumber value).max greatest) .negativeInfinity

/-- `String` of a status. -/
def statusText : Option StatusValue → Text
  | none => "undefined".toList
  | some .nan => "NaN".toList
  | some .negativeInfinity => "-Infinity".toList
  | some (.status status) => Nat.toDigits 10 status.number

/-! ## Codes -/

/-- What the table `ERROR_METADATA` says about a code. -/
structure ErrorMetadata where
  status : Status
  title : String

/-- The status and the title of each code, `ERROR_METADATA`. -/
def errorMetadata : List (String × ErrorMetadata) :=
  [("badRequest", ⟨.badRequest, "Invalid or malformed request"⟩),
    ("unauthorized", ⟨.unauthorized, "Invalid or missing credentials"⟩),
    ("forbidden", ⟨.forbidden, "Access to resource denied"⟩),
    ("notFound", ⟨.notFound, "Resource not found"⟩),
    ("conflict", ⟨.conflict, "Conflict with server state"⟩),
    ("unprocessableEntity", ⟨.unprocessableEntity, "Request failed validation"⟩),
    ("tooManyRequests", ⟨.tooManyRequests, "Request limit exceeded"⟩),
    ("internal", ⟨.internal, "Internal server error"⟩)]

/-- The entry of the table under a code. -/
def errorMetadataOf (code : Text) : Option ErrorMetadata :=
  (errorMetadata.find? fun entry ↦ entry.1.toList == code).map Prod.snd

/-- `isKeyOf(code, ERROR_METADATA)`, which uses the operator `in`. -/
def isKeyOfErrorMetadata (code : Text) : Bool :=
  (errorMetadataOf code).isSome || inheritedNames.contains code

/-- `ERROR_METADATA[code].title` for a key. An inherited property of the table has no title. -/
def titleOfCode (code : Text) : Option Text :=
  if isKeyOfErrorMetadata code then
    (errorMetadataOf code).map fun metadata ↦ metadata.title.toList
  else none

/-- `ERROR_METADATA[code].status` for a key. An inherited property of the table has no status. -/
def statusOfCode (code : Text) : Option StatusValue :=
  if isKeyOfErrorMetadata code then
    (errorMetadataOf code).map fun metadata ↦ .status metadata.status
  else some (.status .internal)

/-- The code of an error about which nothing is known, `ERROR_CODES.internal`. -/
def internalCode : Text := "internal".toList

/-! ## Issues -/

/-- A number in a path, given by its text, which is not empty and has no slash. -/
structure NumberText where
  text : Text
  ne_nil : text ≠ []
  slash_notMem : '/' ∉ text

/-- A part of the path to an issue. -/
inductive PathSegment where
  | key (key : Text)
  | number (number : NumberText)

/-- The text of a part of a path. -/
def PathSegment.text : PathSegment → Text
  | .key text => text
  | .number value => value.text

/-- An issue as it is given, where all is optional. -/
structure ServiceIssue where
  code : Option Text
  message : Option Text
  path : Option (List PathSegment)
  title : Option Text
  status : Option StatusValue

/-- `Issue`: a `ServiceIssue` with a code. -/
structure Issue where
  code : Text
  message : Option Text
  path : Option (List PathSegment)
  title : Option Text
  status : Option StatusValue

/-- An issue is a service issue. -/
def Issue.toServiceIssue (issue : Issue) : ServiceIssue :=
  { issue with code := some issue.code }

/-- Give an issue a code, and the title of the code unless it has one. -/
def toIssue (issue : ServiceIssue) : Issue :=
  let code := issue.code.getD internalCode
  { issue with code, title := issue.title.or (titleOfCode code) }

/-- The status of an issue. -/
def getStatusFromIssue (issue : ServiceIssue) : Option StatusValue :=
  issue.status.or (issue.code.elim (some (.status .internal)) statusOfCode)

/-- What the message of an error says about an issue. -/
def issueText (issue : Issue) : Text :=
  let message := (issue.message.filter (· ≠ [])).elim [] fun message ↦ ": ".toList ++ message
  let path := (issue.path.filter (· ≠ [])).elim [] fun path ↦
    " at \"".toList ++ ".".toList.intercalate (path.map PathSegment.text) ++ "\"".toList
  "[".toList ++ issue.code ++ "]".toList ++ message ++ path

/-- The message of an error: the texts of its issues, and a fixed one if it has none. -/
def createServiceErrorMessage (issues : List Issue) : Text :=
  if issues.length = 0 then "[unknown]".toList
  else "; ".toList.intercalate (issues.map issueText)

/-! ## Errors -/

/-- The part of a request that an error is about. -/
inductive ErrorSource where
  | header
  | parameter
  | pointer
deriving DecidableEq

variable {Value : Type}

/-- The parameters of an error: a message, or its parts. A cause is any value but `null` and
`undefined`. -/
inductive ServiceErrorParams (Value : Type) where
  | message (message : Text)
  | parts (cause : Option Value) (id : Option Text) (issues : List ServiceIssue)
      (source : Option ErrorSource)

/-- An error as its constructor leaves it, for good. -/
structure ServiceError (Value : Type) where
  cause : Option Value
  id : Text
  issues : List Issue
  message : Text
  source : ErrorSource
  status : StatusValue
  toIssue_eq : ∀ issue ∈ issues, toIssue issue.toServiceIssue = issue
  message_eq : message = createServiceErrorMessage issues
  status_eq : status = mathMax (issues.map fun issue ↦ getStatusFromIssue issue.toServiceIssue)

/-- An issue has a code and the title of the code once and for all. -/
@[simp] theorem toIssue_toIssue (issue : ServiceIssue) :
    toIssue (toIssue issue).toServiceIssue = toIssue issue := by
  simp only [toIssue, Issue.toServiceIssue, Option.getD_some, Issue.mk.injEq, true_and, and_true]
  rw [Option.or_assoc]
  cases titleOfCode (issue.code.getD internalCode) <;> simp

theorem toIssue_of_mem_map {issues : List ServiceIssue} :
    ∀ issue ∈ issues.map toIssue, toIssue issue.toServiceIssue = issue := by
  simp

/-- An error with the parts that have been computed from the parameters. -/
def ServiceError.ofParts (uuid : Text) (cause : Option Value) (id : Option Text)
    (issues : List ServiceIssue) (source : Option ErrorSource) : ServiceError Value where
  cause
  id := id.getD uuid
  issues := issues.map toIssue
  message := createServiceErrorMessage (issues.map toIssue)
  source := source.getD .pointer
  status := mathMax ((issues.map toIssue).map fun issue ↦ getStatusFromIssue issue.toServiceIssue)
  toIssue_eq := toIssue_of_mem_map
  message_eq := rfl
  status_eq := rfl

/-- The constructor. The random identifier is given. -/
def ServiceError.new (uuid : Text) : ServiceErrorParams Value → ServiceError Value
  | .message message => .ofParts uuid none none [⟨none, some message, none, none, none⟩] none
  | .parts cause id issues source => .ofParts uuid cause id issues source

/-- An error object. The members that are `none` are left out. -/
structure JsonApiError where
  id : Option Text
  status : Option Text
  code : Option Text
  title : Option Text
  detail : Option Text
  source : Option (OrderedMap Text Text)

/-- The name of a source in an error object. -/
def ErrorSource.key : ErrorSource → Text
  | .header => "header".toList
  | .parameter => "parameter".toList
  | .pointer => "pointer".toList

/-- The path of an issue in an error object. -/
def sourcePath (path : List PathSegment) : Text :=
  '/' :: ['/'].intercalate (path.map PathSegment.text)

/-- The error object of an issue. -/
def jsonApiErrorOf (id : Text) (source : ErrorSource) (issue : Issue) : JsonApiError where
  id := some id
  status := some (statusText (getStatusFromIssue issue.toServiceIssue))
  code := some issue.code
  title := issue.title
  detail := issue.message.filter (· ≠ [])
  source := issue.path.map fun path ↦ .set .empty source.key (sourcePath path)

/-- The errors of a JSON:API response, one for each issue. -/
def ServiceError.toJsonApi (error : ServiceError Value) : List JsonApiError :=
  error.issues.map (jsonApiErrorOf error.id error.source)

section

-- `toError`: the error that a value is converted to, and its message
variable (toError : Value → Value × Text)

/-- A value that is thrown: a service error, or another value. -/
inductive Thrown (Value : Type) where
  | serviceError (value : Value) (error : ServiceError Value)
  | other (value : Value)

/-- The error of whatever has been thrown: itself, or an internal error with the message of the
value. -/
def ServiceError.fromUnknown (uuid : Text) : Thrown Value → ServiceError Value
  | .serviceError _ error => error
  | .other value =>
      let (error, message) := toError value
      .new uuid
        (.parts (some error) none [⟨some internalCode, some message, none, none, none⟩] none)

/-- `firstError.cause ?? firstError`. An error that was converted has a cause. -/
def ServiceError.mergedCause : Thrown Value → Value
  | .serviceError value error => error.cause.getD value
  | .other value => (toError value).1

/-- `merge`. The random identifiers are given. -/
def ServiceError.merge (uuid : ℕ → Text) (error : Thrown Value) (errors : List (Thrown Value)) :
    ServiceError Value :=
  let firstError := fromUnknown toError (uuid 0) error
  if errors.length = 0 then firstError
  else
    let additionalErrors := errors.mapIdx fun index error ↦
      fromUnknown toError (uuid (index + 1)) error
    .new (uuid (errors.length + 1)) (.parts (some (mergedCause toError error)) none
      ((firstError.issues ++ additionalErrors.flatMap fun error ↦ error.issues).map
        Issue.toServiceIssue) none)

end

/-! ## The greatest status -/

/-- A number is the greatest of several, none of which is `NaN`. -/
def IsMaximum (value : StatusValue) (values : List StatusValue) : Prop :=
  value ∈ values ∧ ∀ other ∈ values, other.le value = true

namespace StatusValue

@[simp] theorem max_negativeInfinity (value : StatusValue) :
    value.max .negativeInfinity = value := by
  cases value <;> rfl

@[simp] theorem negativeInfinity_max (value : StatusValue) :
    negativeInfinity.max value = value := by
  cases value <;> rfl

theorem max_assoc (a b c : StatusValue) : (a.max b).max c = a.max (b.max c) := by
  cases a <;> cases b <;> cases c <;> try rfl
  simp only [max, status.injEq]
  split_ifs <;> first | rfl | omega

/-- The greater of two numbers is one of them and not less than either. -/
theorem max_spec {a b : StatusValue} (ha : a ≠ .nan) (hb : b ≠ .nan) :
    (a.max b = a ∨ a.max b = b) ∧ a.le (a.max b) = true ∧ b.le (a.max b) = true := by
  cases a <;> cases b <;> try simp_all [max, le]
  split_ifs <;> simp <;> omega

theorem le_trans {a b c : StatusValue} (hab : a.le b = true) (hbc : b.le c = true) :
    a.le c = true := by
  cases a <;> cases b <;> cases c <;> simp_all [le]
  omega

end StatusValue

/-- The greatest of the numbers of two lists. -/
theorem mathMax_append (values others : List (Option StatusValue)) :
    mathMax (values ++ others) = (mathMax values).max (mathMax others) := by
  induction values with
  | nil => simp [mathMax]
  | cons value rest ih =>
      show (toNumber value).max (mathMax (rest ++ others)) =
        ((toNumber value).max (mathMax rest)).max (mathMax others)
      rw [ih, StatusValue.max_assoc]

/-- The greatest of the numbers of many lists. -/
theorem mathMax_flatMap {α : Type} (items : List α) (values : α → List (Option StatusValue)) :
    mathMax (items.flatMap values) =
      mathMax (items.map fun item ↦ some (mathMax (values item))) := by
  induction items with
  | nil => rfl
  | cons item rest ih =>
      rw [List.flatMap_cons, mathMax_append, ih]
      rfl

/-- `Math.max` of numbers is their maximum. -/
theorem isMaximum_mathMax {values : List StatusValue} (hne : values ≠ [])
    (hnan : ∀ value ∈ values, value ≠ .nan) : IsMaximum (mathMax (values.map some)) values := by
  induction values with
  | nil => exact absurd rfl hne
  | cons value rest ih =>
      obtain ⟨hvalue, hrest⟩ := List.forall_mem_cons.mp hnan
      show IsMaximum (value.max (mathMax (rest.map some))) (value :: rest)
      by_cases hempty : rest = []
      · subst hempty
        have hself : value.le value = true := by
          cases value <;> simp_all [StatusValue.le]
        simpa [mathMax, IsMaximum] using hself
      · obtain ⟨hmem, hgreatest⟩ := ih hempty hrest
        obtain ⟨hone, hle, hle'⟩ := StatusValue.max_spec hvalue (hrest _ hmem)
        refine ⟨?_, List.forall_mem_cons.mpr ⟨hle, fun other hother ↦ ?_⟩⟩
        · rcases hone with heq | heq <;> rw [heq]
          · exact .head _
          · exact .tail _ hmem
        · exact StatusValue.le_trans (hgreatest other hother) hle'

/-! ## The status of an error -/

/-- The status an issue is to have: its own, or else that of its standard code, or else 500. -/
def declaredStatus (issue : ServiceIssue) : StatusValue :=
  issue.status.getD (.status
    (((issue.code.bind errorMetadataOf).map ErrorMetadata.status).getD .internal))

/-- An issue without a status, under a code that every object inherits. -/
def InheritsStatus (issue : ServiceIssue) : Prop :=
  issue.status = none ∧ ∃ code ∈ inheritedNames, issue.code = some code

instance (issue : ServiceIssue) : Decidable (InheritsStatus issue) :=
  inferInstanceAs (Decidable (_ ∧ _))

/-- The table has no entry under a code that every object inherits. -/
theorem errorMetadataOf_of_inherited :
    ∀ code ∈ inheritedNames, errorMetadataOf code = none := by
  decide

/-- A code that every object inherits has no status. -/
theorem statusOfCode_of_inherited {code : Text} (h : code ∈ inheritedNames) :
    statusOfCode code = none := by
  simp [statusOfCode, isKeyOfErrorMetadata, errorMetadataOf_of_inherited code h, h]

/-- Another code has the status of its entry, or else 500. -/
theorem statusOfCode_of_not_inherited {code : Text} (h : code ∉ inheritedNames) :
    statusOfCode code = some (.status
      (((errorMetadataOf code).map ErrorMetadata.status).getD .internal)) := by
  cases hentry : errorMetadataOf code <;> simp [statusOfCode, isKeyOfErrorMetadata, hentry, h]

/-- An issue without a status has none in the end either under a code that every object
inherits. -/
theorem getStatusFromIssue_of_inherits {issue : ServiceIssue} (h : InheritsStatus issue) :
    getStatusFromIssue (toIssue issue).toServiceIssue = none := by
  obtain ⟨hstatus, code, hinherited, hcode⟩ := h
  simp [getStatusFromIssue, toIssue, Issue.toServiceIssue, hstatus, hcode,
    statusOfCode_of_inherited hinherited]

/-- Another issue has the status it is to have. -/
theorem getStatusFromIssue_of_not_inherits {issue : ServiceIssue} (h : ¬InheritsStatus issue) :
    getStatusFromIssue (toIssue issue).toServiceIssue = some (declaredStatus issue) := by
  have hinternal : statusOfCode internalCode = some (.status .internal) := by decide
  cases hstatus : issue.status with
  | some value => simp [getStatusFromIssue, toIssue, Issue.toServiceIssue, declaredStatus, hstatus]
  | none =>
      cases hcode : issue.code with
      | none =>
          simp [getStatusFromIssue, toIssue, Issue.toServiceIssue, declaredStatus, hstatus, hcode,
            hinternal]
      | some code =>
          have hinherited : code ∉ inheritedNames := fun hmem ↦ h ⟨hstatus, code, hmem, hcode⟩
          simp [getStatusFromIssue, toIssue, Issue.toServiceIssue, declaredStatus, hstatus, hcode,
            statusOfCode_of_not_inherited hinherited]

/-- No status is written like a missing one. -/
theorem statusText_ne_undefined (value : StatusValue) :
    statusText (some value) ≠ statusText none := by
  rcases value with status | _ | _
  · cases status <;> decide
  · decide
  · decide

namespace ServiceError

variable {issues : List ServiceIssue} (uuid : Text) (cause : Option Value) (id : Option Text)
  (source : Option ErrorSource)

/-- The statuses in the error objects are as declared exactly when no issue inherits its status. -/
theorem statusTexts_iff :
    (ofParts uuid cause id issues source).toJsonApi.map JsonApiError.status =
        issues.map (fun issue ↦ some (statusText (some (declaredStatus issue)))) ↔
      ∀ issue ∈ issues, ¬InheritsStatus issue := by
  simp only [toJsonApi, jsonApiErrorOf, ofParts, List.map_map, List.map_inj_left,
    Function.comp_apply, Option.some.injEq]
  refine forall₂_congr fun issue _ ↦ ⟨fun htext h ↦ ?_, fun h ↦ ?_⟩
  · rw [getStatusFromIssue_of_inherits h] at htext
    exact statusText_ne_undefined _ htext.symm
  · rw [getStatusFromIssue_of_not_inherits h]

/-- The status of an error is the greatest of those declared when no issue inherits its status. -/
theorem status_eq_of_not_inherits (h : ∀ issue ∈ issues, ¬InheritsStatus issue) :
    (ofParts uuid cause id issues source).status =
      mathMax ((issues.map declaredStatus).map some) := by
  simp only [ofParts, List.map_map]
  refine congrArg mathMax (List.map_congr_left fun issue hissue ↦ ?_)
  exact getStatusFromIssue_of_not_inherits (h issue hissue)

end ServiceError

/-! ## Merging -/

section

variable {toError : Value → Value × Text}

namespace ServiceError

/-- The issues of an error say what its status is. -/
theorem issues_fromUnknown (uuid uuid' : Text) (error : Thrown Value) :
    (fromUnknown toError uuid error).issues = (fromUnknown toError uuid' error).issues := by
  cases error <;> rfl

/-- An error made of issues of other errors keeps them as they are. -/
theorem map_toIssue {issues : List Issue}
    (h : ∀ issue ∈ issues, toIssue issue.toServiceIssue = issue) :
    (issues.map Issue.toServiceIssue).map toIssue = issues := by
  rw [List.map_map]
  exact (List.map_congr_left h).trans (List.map_id issues)

/-- Several errors are merged into one with all their issues in order. -/
theorem issues_merge (uuid : ℕ → Text) (first second : Thrown Value) (rest : List (Thrown Value)) :
    (merge toError uuid first (second :: rest)).issues =
      (first :: second :: rest).flatMap fun error ↦
        (fromUnknown toError (uuid 0) error).issues := by
  have hadditional : ((second :: rest).mapIdx fun index error ↦
      fromUnknown toError (uuid (index + 1)) error).map (fun error ↦ error.issues) =
        (second :: rest).map fun error ↦ (fromUnknown toError (uuid 0) error).issues := by
    refine List.ext_getElem (by simp) fun index _ _ ↦ ?_
    rw [List.getElem_map, List.getElem_mapIdx, List.getElem_map]
    exact issues_fromUnknown _ _ _
  have hissues : ((fromUnknown toError (uuid 0) first).issues ++
      ((second :: rest).mapIdx fun index error ↦
        fromUnknown toError (uuid (index + 1)) error).flatMap fun error ↦ error.issues) =
      (first :: second :: rest).flatMap fun error ↦
        (fromUnknown toError (uuid 0) error).issues := by
    rw [List.flatMap_cons, List.flatMap_def, List.flatMap_def, hadditional]
  have hmerge : (merge toError uuid first (second :: rest)).issues =
      (((fromUnknown toError (uuid 0) first).issues ++
        ((second :: rest).mapIdx fun index error ↦
          fromUnknown toError (uuid (index + 1)) error).flatMap fun error ↦ error.issues).map
            Issue.toServiceIssue).map toIssue := by
    simp [merge, new, ofParts]
  rw [hmerge, hissues]
  refine map_toIssue fun issue hissue ↦ ?_
  obtain ⟨error, -, hmem⟩ := List.mem_flatMap.mp hissue
  exact (fromUnknown toError (uuid 0) error).toIssue_eq issue hmem

/-- The status of the merged error is the greatest of the statuses. -/
theorem status_merge (uuid : ℕ → Text) (first second : Thrown Value) (rest : List (Thrown Value)) :
    (merge toError uuid first (second :: rest)).status =
      mathMax ((first :: second :: rest).map fun error ↦
        some (fromUnknown toError (uuid 0) error).status) := by
  rw [status_eq, issues_merge, List.map_flatMap, mathMax_flatMap]
  refine congrArg mathMax (List.map_congr_left fun error _ ↦ ?_)
  rw [status_eq]

end ServiceError

/-- The status of an error is the greatest of the declared ones, and its error objects have the
declared ones, exactly when no issue is without a status under a code that every object inherits.
Merging errors takes their issues in order and the greatest of their statuses. -/
theorem serviceError_status_iff (toError : Value → Value × Text) :
    (∀ issues : List ServiceIssue, issues ≠ [] →
      (∀ issue ∈ issues, ∀ value, issue.status = some value → ∃ status, value = .status status) →
      ∀ uuid cause id source,
        let error : ServiceError Value := .new uuid (.parts cause id issues source)
        (IsMaximum error.status (issues.map declaredStatus) ∧
          error.toJsonApi.map JsonApiError.status =
            issues.map fun issue ↦ some (statusText (some (declaredStatus issue)))) ↔
          ∀ issue ∈ issues, ¬InheritsStatus issue) ∧
      ∀ uuid first second rest,
        let errors := (first :: second :: rest).map (ServiceError.fromUnknown toError (uuid 0))
        let merged := ServiceError.merge toError uuid first (second :: rest)
        merged.issues = errors.flatMap (fun error ↦ error.issues) ∧
          merged.status = mathMax (errors.map fun error ↦ some error.status) ∧
          ((∀ error ∈ errors, error.status ≠ .nan) →
            IsMaximum merged.status (errors.map fun error ↦ error.status)) := by
  refine ⟨fun issues hne htyped uuid cause id source ↦ ?_, fun uuid first second rest ↦ ?_⟩
  · refine ⟨fun h ↦ (ServiceError.statusTexts_iff uuid cause id source).mp h.2, fun h ↦
      ⟨?_, (ServiceError.statusTexts_iff uuid cause id source).mpr h⟩⟩
    show IsMaximum (ServiceError.ofParts uuid cause id issues source).status _
    rw [ServiceError.status_eq_of_not_inherits uuid cause id source h]
    refine isMaximum_mathMax (by simpa using hne) fun value hvalue ↦ ?_
    obtain ⟨issue, hissue, rfl⟩ := List.mem_map.mp hvalue
    -- an explicit status is one of the numbers, and any other is looked up
    cases hstatus : issue.status with
    | none => simp [declaredStatus, hstatus]
    | some value =>
        obtain ⟨status, rfl⟩ := htyped issue hissue value hstatus
        simp [declaredStatus, hstatus]
  · have hstatus := @ServiceError.status_merge Value toError uuid first second rest
    refine ⟨?_, ?_, fun hnan ↦ ?_⟩
    · rw [ServiceError.issues_merge, List.flatMap_map]
    · rw [hstatus, List.map_map]
      rfl
    · have hvalues : ∀ value ∈ ((first :: second :: rest).map
          (ServiceError.fromUnknown toError (uuid 0))).map (fun error ↦ error.status),
          value ≠ .nan :=
        List.forall_mem_map.mpr hnan
      have hmaximum := isMaximum_mathMax (by simp) hvalues
      rw [hstatus]
      simpa only [List.map_map, Function.comp_def] using hmaximum

/-- An issue without a status. -/
def exampleIssue (code : String) : ServiceIssue :=
  { code := some code.toList, message := none, path := none, title := none, status := none }

/-- An error with an invalid request and a conflict. -/
def exampleError : ServiceError Unit :=
  .new [] (.parts none none [exampleIssue "badRequest", exampleIssue "conflict"] none)

/-- The conflict decides, also when the error is merged with itself. -/
theorem serviceError_status_conflict :
    IsMaximum exampleError.status
        ([exampleIssue "badRequest", exampleIssue "conflict"].map declaredStatus) ∧
      (ServiceError.merge (fun _ ↦ ((), [])) (fun _ ↦ []) (.serviceError () exampleError)
        [.serviceError () exampleError]).status = .status .conflict := by
  have hspec := serviceError_status_iff fun _ : Unit ↦ ((), [])
  have hinherits : ∀ issue ∈ [exampleIssue "badRequest", exampleIssue "conflict"],
      ¬InheritsStatus issue := by
    decide
  refine ⟨((hspec.1 _ (List.cons_ne_nil _ _) ?_ [] none none none).mpr hinherits).1, ?_⟩
  · simp [exampleIssue]
  · exact (hspec.2 (fun _ ↦ []) (.serviceError () exampleError) (.serviceError () exampleError)
      []).2.1.trans (by decide)

/-- The code `toString` yields no number and no number as text. -/
theorem serviceError_status_inherited :
    let error : ServiceError Unit := .new [] (.parts none none [exampleIssue "toString"] none)
    error.status = .nan ∧
      error.toJsonApi.map JsonApiError.status = [some "undefined".toList] ∧
      declaredStatus (exampleIssue "toString") = .status .internal := by
  decide

end

end CoreUtils.UtilTs
