import CoreUtils.Library.Text
import CoreUtils.UtilTs.ServiceError

/-!
# Service errors on the wire

`fromJsonApi` reads the error objects that `toJsonApi` writes. What it does not read is the name of
the source, a title that is empty, parts of a path that are empty, and a status that is not a
number, so that a service error survives the wire exactly when its issues have none of these
(`toJsonApi_fromJsonApi_iff`).
-/

namespace CoreUtils.UtilTs

/-- The statuses that have a text of their own. -/
def statusValues : List StatusValue :=
  [.status .badRequest, .status .unauthorized, .status .forbidden, .status .notFound,
    .status .conflict, .status .unprocessableEntity, .status .tooManyRequests, .status .internal,
    .negativeInfinity]

/-- `Number` of the text of a status; any other text is taken for none of a number. -/
def statusOfText (text : Text) : StatusValue :=
  (statusValues.find? fun value ↦ statusText (some value) == text).getD .nan

/-- `split("/").filter(Boolean)`. -/
def pathParts (text : Text) : List Text := (text.splitOn '/').filter (· ≠ [])

/-- The issue that an error object is read as. -/
def issueFromJsonApi (error : JsonApiError) : Issue :=
  let path := ((error.source.getD .empty).values.head?).map pathParts
  toIssue
    { code := some (error.code.getD internalCode)
      message := error.detail
      title := error.title.filter (· ≠ [])
      status := (error.status.filter (· ≠ [])).map statusOfText
      path := (path.filter fun path ↦ 0 < path.length).map fun path ↦ path.map .key }

variable {Value : Type}

/-- The error of the errors of a JSON:API response. Its id is that of the first of them, or
empty. -/
def ServiceError.fromJsonApi (uuid : Text) (errors : List JsonApiError) : ServiceError Value :=
  let issues := errors.map issueFromJsonApi
  .new uuid (.parts none (some ((errors.head?.bind JsonApiError.id).getD []))
    (issues.map Issue.toServiceIssue) none)

/-! ## The parts of an issue -/

/-- The text of a status is not empty. -/
theorem statusText_ne_nil (value : Option StatusValue) : statusText value ≠ [] := by
  rcases value with _ | status | _ | _
  · decide
  · cases status <;> decide
  · decide
  · decide

/-- A status is read as it was written. -/
theorem statusOfText_statusText (value : StatusValue) :
    statusOfText (statusText (some value)) = value := by
  rcases value with status | _ | _
  · cases status <;> decide
  · decide
  · decide

/-- The titles of the codes are not empty. -/
theorem titleOfCode_ne_nil (code : Text) : titleOfCode code ≠ some [] := by
  have htitles : ∀ entry ∈ errorMetadata, entry.2.title.toList ≠ [] := by decide
  unfold titleOfCode errorMetadataOf
  split
  · cases hfind : errorMetadata.find? fun entry ↦ entry.1.toList == code with
    | none => simp
    | some entry => simpa using htitles entry (List.mem_of_find?_eq_some hfind)
  · simp

/-- A path is read as it was written exactly when no part of its text is empty. -/
theorem sourcePath_pathParts_iff (path : List PathSegment) :
    (pathParts (sourcePath path) ≠ [] ∧
        sourcePath ((pathParts (sourcePath path)).map .key) = sourcePath path) ↔
      ∀ part ∈ (['/'].intercalate (path.map PathSegment.text)).splitOn '/', part ≠ [] := by
  generalize htext : ['/'].intercalate (path.map PathSegment.text) = text
  have hpath : sourcePath path = '/' :: text := by rw [sourcePath, htext]
  have hparts : pathParts ('/' :: text) = (text.splitOn '/').filter (· ≠ []) := by
    rw [pathParts, ← List.nil_append ('/' :: text), List.splitOn_append_cons_self]
    simp
  have hreread : sourcePath (((text.splitOn '/').filter (· ≠ [])).map .key) =
      '/' :: ['/'].intercalate ((text.splitOn '/').filter (· ≠ [])) := by
    simp [sourcePath, PathSegment.text, Function.comp_def]
  rw [hpath, hparts, hreread, List.cons.injEq, and_iff_right rfl]
  constructor
  · rintro ⟨hne, hjoined⟩
    have hslash : ∀ part ∈ (text.splitOn '/').filter (· ≠ []), '/' ∉ part := fun part hpart ↦
      (Text.mem_splitOn_iff.mp (List.mem_of_mem_filter hpart)).1
    have hself := List.splitOn_intercalate '/' hslash hne
    rw [hjoined] at hself
    simpa using List.filter_eq_self.mp hself.symm
  · intro h
    have hself : (text.splitOn '/').filter (· ≠ []) = text.splitOn '/' :=
      List.filter_eq_self.mpr (by simpa using h)
    rw [hself]
    exact ⟨List.splitOn_ne_nil '/' text, List.intercalate_splitOn '/'⟩

/-! ## One issue -/

/-- What of an issue is read as it was written: a status that is a number, a title that is not
empty, and a path under the name `pointer` without empty parts. -/
def SurvivesWire (source : ErrorSource) (issue : Issue) : Prop :=
  ¬(issue.status = none ∧ issue.code ∈ inheritedNames) ∧ issue.title ≠ some [] ∧
    ∀ path ∈ issue.path, source = .pointer ∧
      ∀ part ∈ (['/'].intercalate (path.map PathSegment.text)).splitOn '/', part ≠ []

section

variable {id : Text} {source : ErrorSource} {issue : Issue}

/-- An issue has no status only under a code that every object inherits. -/
theorem getStatusFromIssue_eq_none_iff :
    getStatusFromIssue issue.toServiceIssue = none ↔
      issue.status = none ∧ issue.code ∈ inheritedNames := by
  simp only [getStatusFromIssue, Issue.toServiceIssue, Option.elim_some, Option.or_eq_none_iff]
  refine and_congr_right fun _ ↦ ⟨fun hcode ↦ ?_, statusOfCode_of_inherited⟩
  by_contra hnot
  simp [statusOfCode_of_not_inherited hnot] at hcode

/-- The status is read as it was written when it is a number. -/
theorem statusText_reread_iff :
    statusText (getStatusFromIssue
        (issueFromJsonApi (jsonApiErrorOf id source issue)).toServiceIssue) =
        statusText (getStatusFromIssue issue.toServiceIssue) ↔
      ¬(issue.status = none ∧ issue.code ∈ inheritedNames) := by
  rw [← getStatusFromIssue_eq_none_iff]
  generalize hvalue : getStatusFromIssue issue.toServiceIssue = value
  have hreread : getStatusFromIssue
      (issueFromJsonApi (jsonApiErrorOf id source issue)).toServiceIssue =
      some (statusOfText (statusText value)) := by
    rw [← hvalue]
    simp [getStatusFromIssue, issueFromJsonApi, toIssue, Issue.toServiceIssue, jsonApiErrorOf,
      statusText_ne_nil]
  rw [hreread]
  cases value with
  | none => simpa using statusText_ne_undefined _
  | some value => simp [statusOfText_statusText]

/-- The title is read as it was written when it is not empty. -/
theorem title_reread_iff (h : toIssue issue.toServiceIssue = issue) :
    (issueFromJsonApi (jsonApiErrorOf id source issue)).title = issue.title ↔
      issue.title ≠ some [] := by
  have htitle : issue.title.or (titleOfCode issue.code) = issue.title := by
    conv_rhs => rw [← h]
    rfl
  have hreread : (issueFromJsonApi (jsonApiErrorOf id source issue)).title =
      (issue.title.filter (· ≠ [])).or (titleOfCode issue.code) := rfl
  rw [hreread]
  cases hcase : issue.title with
  | none =>
      rw [hcase] at htitle
      simpa using htitle
  | some title =>
      by_cases hempty : title = []
      · subst hempty
        simpa using titleOfCode_ne_nil issue.code
      · simp [hempty]

/-- The source of an error object says its name and its path. -/
theorem singleSource_inj {name name' : ErrorSource} {path path' : Text} :
    (OrderedMap.empty : OrderedMap Text Text).set name.key path = .set .empty name'.key path' ↔
      name = name' ∧ path = path' := by
  have hkey : name.key = name'.key ↔ name = name' := by
    cases name <;> cases name' <;> decide
  simp [OrderedMap.set, OrderedMap.empty, OrderedMap.get, hkey]

/-- The path is read as it was written when it is under the name `pointer` and has no empty
parts. -/
theorem source_reread_iff :
    (issueFromJsonApi (jsonApiErrorOf id source issue)).path.map
          (fun path ↦ OrderedMap.empty.set ErrorSource.pointer.key (sourcePath path)) =
        issue.path.map (fun path ↦ OrderedMap.empty.set source.key (sourcePath path)) ↔
      ∀ path ∈ issue.path, source = .pointer ∧
        ∀ part ∈ (['/'].intercalate (path.map PathSegment.text)).splitOn '/', part ≠ [] := by
  cases hpath : issue.path with
  | none =>
      simp [issueFromJsonApi, jsonApiErrorOf, toIssue, hpath, OrderedMap.values, OrderedMap.empty]
  | some path =>
      have hreread : (issueFromJsonApi (jsonApiErrorOf id source issue)).path =
          ((some (pathParts (sourcePath path))).filter fun path ↦ 0 < path.length).map
            fun path ↦ path.map .key := by
        simp [issueFromJsonApi, jsonApiErrorOf, toIssue, hpath, OrderedMap.values, OrderedMap.empty,
          OrderedMap.set, OrderedMap.get]
      rw [hreread]
      simp only [Option.mem_def, Option.some.injEq, forall_eq', ← sourcePath_pathParts_iff]
      by_cases hempty : pathParts (sourcePath path) = []
      · simp [hempty]
      · have hlength : 0 < (pathParts (sourcePath path)).length := List.length_pos_iff.mpr hempty
        simp only [Option.filter_some, hlength, decide_true, if_true, Option.map_some,
          Option.some.injEq, singleSource_inj, ne_eq, hempty, not_false_eq_true, true_and]
        rw [eq_comm (a := ErrorSource.pointer)]

/-- An issue is read as it was written when it survives the wire. -/
theorem jsonApiErrorOf_reread_iff (h : toIssue issue.toServiceIssue = issue) :
    jsonApiErrorOf id .pointer (issueFromJsonApi (jsonApiErrorOf id source issue)) =
        jsonApiErrorOf id source issue ↔
      SurvivesWire source issue := by
  have hfields : ∀ reread : Issue, reread.code = issue.code →
      reread.message = issue.message.filter (· ≠ []) →
      (jsonApiErrorOf id .pointer reread = jsonApiErrorOf id source issue ↔
        statusText (getStatusFromIssue reread.toServiceIssue) =
            statusText (getStatusFromIssue issue.toServiceIssue) ∧
          reread.title = issue.title ∧
          reread.path.map
              (fun path ↦ OrderedMap.empty.set ErrorSource.pointer.key (sourcePath path)) =
            issue.path.map fun path ↦ OrderedMap.empty.set source.key (sourcePath path)) := by
    intro reread hcode hmessage
    simp [jsonApiErrorOf, hcode, hmessage]
  rw [hfields (issueFromJsonApi (jsonApiErrorOf id source issue)) rfl rfl, statusText_reread_iff,
    title_reread_iff h, source_reread_iff, SurvivesWire]

end

/-! ## The whole error -/

/-- What is read is what `toJsonApi` writes for each issue that is read. -/
theorem toJsonApi_fromJsonApi (uuid : Text) (errors : List JsonApiError) :
    (ServiceError.fromJsonApi uuid errors : ServiceError Value).toJsonApi =
      errors.map fun error ↦ jsonApiErrorOf ((errors.head?.bind JsonApiError.id).getD []) .pointer
        (issueFromJsonApi error) := by
  simp [ServiceError.fromJsonApi, ServiceError.new, ServiceError.ofParts, ServiceError.toJsonApi,
    issueFromJsonApi, Function.comp_def]

/-- A service error survives the wire exactly when all its issues do. -/
theorem toJsonApi_fromJsonApi_iff (uuid : Text) (error : ServiceError Value) :
    (ServiceError.fromJsonApi uuid error.toJsonApi : ServiceError Value).toJsonApi =
        error.toJsonApi ↔
      ∀ issue ∈ error.issues, SurvivesWire error.source issue := by
  rw [toJsonApi_fromJsonApi, ServiceError.toJsonApi, List.map_map, List.map_inj_left]
  refine forall₂_congr fun issue hissue ↦ ?_
  -- there is an issue, so that the first error object has the identifier
  have hid : ((error.issues.map (jsonApiErrorOf error.id error.source)).head?.bind
      JsonApiError.id).getD [] = error.id := by
    obtain ⟨first, rest, hissues⟩ := List.exists_cons_of_ne_nil (List.ne_nil_of_mem hissue)
    simp [hissues, jsonApiErrorOf]
  rw [hid]
  exact jsonApiErrorOf_reread_iff (error.toIssue_eq issue hissue)

/-- An error in a header. -/
def headerError : ServiceError Unit :=
  .new [] (.parts none none [{ exampleIssue "badRequest" with
    path := some [.key "authorization".toList] }] (some .header))

/-- The header is read as a pointer. -/
theorem toJsonApi_fromJsonApi_header :
    (ServiceError.fromJsonApi [] headerError.toJsonApi : ServiceError Unit).toJsonApi ≠
      headerError.toJsonApi := by
  intro h
  have hnames := congrArg (List.map fun error ↦ error.source.map OrderedMap.keys) h
  have hheader : headerError.toJsonApi.map (fun error ↦ error.source.map OrderedMap.keys) =
      [some ["header".toList]] := by decide
  have hpointer : (ServiceError.fromJsonApi [] headerError.toJsonApi :
      ServiceError Unit).toJsonApi.map (fun error ↦ error.source.map OrderedMap.keys) =
        [some ["pointer".toList]] := by decide
  rw [hheader, hpointer] at hnames
  exact absurd hnames (by decide)

end CoreUtils.UtilTs
