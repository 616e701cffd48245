import CoreUtils.Library.JsonText
import CoreUtils.Library.Utf16

/-!
# Idempotency keys of triggers

An enqueued notification job carries its idempotency key as JSON text, and `trigger` reads the key
and hashes it. A key that was made is read again, and two keys have the same hash exactly when they
agree but for the order of their recipients (`triggerIdempotencyKey_spec`).
-/

namespace CoreUtils.Notifications

open Json

/-! ## Keys -/

/-- The resource that triggered a workflow. -/
structure IdempotencyResource where
  type : List Char
  id : List Char

/-- What a caller may say about the event of a notification. -/
structure IdempotencyKeyParts where
  eventOccurredAt : Option (List Char)
  resource : Option IdempotencyResource

/-- What the key of a chunk is made from. -/
structure TriggerIdempotencyKeyParams extends IdempotencyKeyParts where
  chunk : Double
  recipients : List (List Char)
  workflowKey : List Char

/-- The parameters of a hash. -/
structure HashParams extends TriggerIdempotencyKeyParams where
  workplaceId : Option (List Char)

/-- Whether a value has a member under a key. -/
def hasMember (key : String) : Json → Bool
  | .object members => members.any (·.1 == key.toList)
  | _ => false

/-- `isTriggerIdempotencyKeyParams`. An array has no members under these keys. -/
def isTriggerIdempotencyKeyParams (value : Json) : Bool :=
  hasMember "chunk" value && hasMember "workflowKey" value && hasMember "recipients" value &&
    match value.member "recipients".toList with
    | some (.array recipients) => recipients.all fun recipient ↦ recipient.asString.isSome
    | _ => false

section

variable (numberText : ℚ → List Char)

/-- `DO_NOT_CALL_THIS_OUTSIDE_OF_TESTS`: the key with these members, in their order. -/
def triggerIdempotencyKey (members : List (List Char × Option Json)) : List Char :=
  stringify numberText (objectOf members)

/-- `parseTriggerIdempotencyKey`. What `JSON.parse` throws for is not read. -/
def parseTriggerIdempotencyKey (jsonParse : List Char → Option Json) (idempotencyKey : List Char) :
    Option Json :=
  (jsonParse idempotencyKey).filter isTriggerIdempotencyKeyParams

/-- The members that `toSorted` puts in order. -/
def sortedMembers (params : HashParams) : List (List Char × Option Json) :=
  [("chunk".toList, some (.number params.chunk.1)),
    ("eventOccurredAt".toList, params.eventOccurredAt.map .string),
    ("recipients".toList, some (.array ((Utf16.sort params.recipients).map .string))),
    ("resource".toList, some (objectOf
      [("id".toList, params.resource.map fun resource ↦ .string resource.id),
        ("type".toList, params.resource.map fun resource ↦ .string resource.type)])),
    ("workflowKey".toList, some (.string params.workflowKey)),
    ("workplaceId".toList, params.workplaceId.map .string)]

/-- The members in the order of their keys, with the recipients sorted. -/
def toSorted (params : HashParams) : Json := objectOf (sortedMembers params)

/-- `createDeterministicHash` of a value that is not a string. -/
def createDeterministicHash (sha256 : List Char → List Char) (value : Json) : List Char :=
  sha256 (stringify numberText value)

/-- The hash of the sorted members as JSON. -/
def triggerIdempotencyKeyParamsToHash (sha256 : List Char → List Char) (params : HashParams) :
    List Char :=
  createDeterministicHash numberText sha256 (toSorted params)

end

/-! ## Keys that were made are read -/

/-- The members of the parameters of a key, in any order, perhaps with others. -/
structure IsKeyParams (members : List (List Char × Option Json)) : Prop where
  nodup : (members.map Prod.fst).Nodup
  serializable : ∀ key value, (key, some value) ∈ members → Serializable value
  chunk : ∃ chunk : Double, ("chunk".toList, some (.number chunk.1)) ∈ members
  recipients : ∃ recipients : List (List Char),
    ("recipients".toList, some (.array (recipients.map .string))) ∈ members
  workflowKey : ∃ workflowKey, ("workflowKey".toList, some (.string workflowKey)) ∈ members

/-- A member that is there is found. -/
theorem hasMember_objectOf {members : List (List Char × Option Json)} {key : String} {value : Json}
    (h : (key.toList, some value) ∈ members) : hasMember key (objectOf members) = true :=
  List.any_eq_true.mpr ⟨_, mem_present.mpr h, beq_self_eq_true key.toList⟩

/-- The parameters of a key are accepted as such. -/
theorem isTriggerIdempotencyKeyParams_objectOf {members : List (List Char × Option Json)}
    (h : IsKeyParams members) : isTriggerIdempotencyKeyParams (objectOf members) = true := by
  obtain ⟨chunk, hchunk⟩ := h.chunk
  obtain ⟨recipients, hrecipients⟩ := h.recipients
  obtain ⟨workflowKey, hworkflowKey⟩ := h.workflowKey
  rw [isTriggerIdempotencyKeyParams, hasMember_objectOf hchunk, hasMember_objectOf hworkflowKey,
    hasMember_objectOf hrecipients, member_objectOf h.nodup hrecipients]
  simp [asString]

/-- The members of the parameters of a key, as the enqueuer puts them together. -/
def TriggerIdempotencyKeyParams.members (params : TriggerIdempotencyKeyParams) :
    List (List Char × Option Json) :=
  [("eventOccurredAt".toList, params.eventOccurredAt.map .string),
    ("resource".toList, params.resource.map fun resource ↦
      .object [("type".toList, .string resource.type), ("id".toList, .string resource.id)]),
    ("chunk".toList, some (.number params.chunk.1)),
    ("recipients".toList, some (.array (params.recipients.map .string))),
    ("workflowKey".toList, some (.string params.workflowKey))]

/-- A text that may be missing can be written. -/
theorem serializable_of_map_string {text : Option (List Char)} {value : Json}
    (h : text.map .string = some value) : Serializable value := by
  obtain ⟨text, -, rfl⟩ := Option.map_eq_some_iff.mp h
  exact .string text

/-- A list of texts can be written. -/
theorem serializable_texts (texts : List (List Char)) :
    Serializable (.array (texts.map .string)) := by
  refine .array fun value hvalue ↦ ?_
  obtain ⟨text, -, rfl⟩ := List.mem_map.mp hvalue
  exact .string text

/-- The parameters of a key are made of what can be written, in whatever order. -/
theorem isKeyParams_of_perm {params : TriggerIdempotencyKeyParams}
    {members : List (List Char × Option Json)} (h : members.Perm params.members) :
    IsKeyParams members where
  nodup := by
    refine (h.map Prod.fst).nodup_iff.mpr ?_
    show ["eventOccurredAt".toList, "resource".toList, "chunk".toList, "recipients".toList,
      "workflowKey".toList].Nodup
    decide
  serializable key value hmem := by
    have hmem := h.mem_iff.mp hmem
    simp only [TriggerIdempotencyKeyParams.members, List.mem_cons, Prod.mk.injEq,
      List.not_mem_nil, or_false, Option.some.injEq] at hmem
    rcases hmem with ⟨-, hvalue⟩ | ⟨-, hvalue⟩ | ⟨-, rfl⟩ | ⟨-, rfl⟩ | ⟨-, rfl⟩
    · exact serializable_of_map_string hvalue.symm
    · obtain ⟨resource, -, rfl⟩ := Option.map_eq_some_iff.mp hvalue.symm
      refine .object (by simp) ?_
      simp only [List.forall_mem_cons]
      exact ⟨.string _, .string _, by simp⟩
    · exact .number params.chunk.2
    · exact serializable_texts params.recipients
    · exact .string params.workflowKey
  chunk := ⟨params.chunk, h.mem_iff.mpr (by simp [TriggerIdempotencyKeyParams.members])⟩
  recipients := ⟨params.recipients, h.mem_iff.mpr (by simp [TriggerIdempotencyKeyParams.members])⟩
  workflowKey :=
    ⟨params.workflowKey, h.mem_iff.mpr (by simp [TriggerIdempotencyKeyParams.members])⟩

section

variable {numberText : ℚ → List Char}

/-- `JSON.parse` inverts `JSON.stringify`. -/
def InvertsStringify (numberText : ℚ → List Char) (jsonParse : List Char → Option Json) : Prop :=
  ∀ value, Serializable value → jsonParse (stringify numberText value) = some value

/-- Different texts of values have different hashes. -/
def CollisionFree (numberText : ℚ → List Char) (sha256 : List Char → List Char) : Prop :=
  ∀ value value', Serializable value → Serializable value' →
    sha256 (stringify numberText value) = sha256 (stringify numberText value') →
      stringify numberText value = stringify numberText value'

/-- A key that was made is read. -/
theorem parseTriggerIdempotencyKey_triggerIdempotencyKey {jsonParse : List Char → Option Json}
    (hparse : InvertsStringify numberText jsonParse) {members : List (List Char × Option Json)}
    (h : IsKeyParams members) :
    parseTriggerIdempotencyKey jsonParse (triggerIdempotencyKey numberText members) =
      some (objectOf members) := by
  rw [parseTriggerIdempotencyKey, triggerIdempotencyKey,
    hparse _ (serializable_objectOf h.nodup h.serializable), Option.filter_some,
    isTriggerIdempotencyKeyParams_objectOf h, if_pos rfl]

end

/-! ## What a hash says -/

/-- The hashes of two keys are to be the same. -/
structure SameEvent (p q : HashParams) : Prop where
  chunk : p.chunk = q.chunk
  eventOccurredAt : p.eventOccurredAt = q.eventOccurredAt
  resourceId : p.resource.map IdempotencyResource.id = q.resource.map IdempotencyResource.id
  resourceType : p.resource.map IdempotencyResource.type = q.resource.map IdempotencyResource.type
  workflowKey : p.workflowKey = q.workflowKey
  workplaceId : p.workplaceId = q.workplaceId
  recipients : p.recipients.Perm q.recipients

/-- No member is put in order twice. -/
theorem nodup_sortedMembers (params : HashParams) :
    ((sortedMembers params).map Prod.fst).Nodup := by
  show ["chunk".toList, "eventOccurredAt".toList, "recipients".toList, "resource".toList,
    "workflowKey".toList, "workplaceId".toList].Nodup
  decide

/-- The members of a resource that may be missing. -/
theorem nodup_resourceMembers (id type : Option Json) :
    ([("id".toList, id), ("type".toList, type)].map Prod.fst).Nodup := by
  show ["id".toList, "type".toList].Nodup
  decide

/-- The members that are put in order can be written. -/
theorem serializable_toSorted (params : HashParams) : Serializable (toSorted params) := by
  refine serializable_objectOf (nodup_sortedMembers params) fun key value hmem ↦ ?_
  simp only [sortedMembers, List.mem_cons, Prod.mk.injEq, List.not_mem_nil, or_false,
    Option.some.injEq] at hmem
  rcases hmem with ⟨-, rfl⟩ | ⟨-, hvalue⟩ | ⟨-, rfl⟩ | ⟨-, rfl⟩ | ⟨-, rfl⟩ | ⟨-, hvalue⟩
  · exact .number params.chunk.2
  · exact serializable_of_map_string hvalue.symm
  · exact serializable_texts _
  · refine serializable_objectOf (nodup_resourceMembers _ _) fun key value hmem ↦ ?_
    simp only [List.mem_cons, Prod.mk.injEq, List.not_mem_nil, or_false] at hmem
    rcases hmem with ⟨-, hvalue⟩ | ⟨-, hvalue⟩
    · obtain ⟨resource, -, rfl⟩ := Option.map_eq_some_iff.mp hvalue.symm
      exact .string resource.id
    · obtain ⟨resource, -, rfl⟩ := Option.map_eq_some_iff.mp hvalue.symm
      exact .string resource.type
  · exact .string params.workflowKey
  · exact serializable_of_map_string hvalue.symm

/-- A member that is put in order is found there. -/
theorem member_toSorted {params : HashParams} {key : List Char} {value : Option Json}
    (h : (key, value) ∈ sortedMembers params) : (toSorted params).member key = value :=
  member_objectOf (nodup_sortedMembers params) h

/-- An object with the members of a resource says what they are. -/
theorem resourceMembers_inj {id id' type type' : Option Json}
    (h : objectOf [("id".toList, id), ("type".toList, type)] =
      objectOf [("id".toList, id'), ("type".toList, type')]) : id = id' ∧ type = type' := by
  constructor
  · rw [← member_objectOf (nodup_resourceMembers id type) (.head _), h,
      member_objectOf (nodup_resourceMembers id' type') (.head _)]
  · rw [← member_objectOf (nodup_resourceMembers id type) (.tail _ (.head _)), h,
      member_objectOf (nodup_resourceMembers id' type') (.tail _ (.head _))]

/-- The members that are put in order say all that counts. -/
theorem toSorted_eq_iff {p q : HashParams} : toSorted p = toSorted q ↔ SameEvent p q := by
  have htext : Function.Injective Json.string := fun _ _ ↦ Json.string.inj
  constructor
  · intro h
    have hmember : ∀ key value value', (key, value) ∈ sortedMembers p →
        (key, value') ∈ sortedMembers q → value = value' := by
      intro key value value' hp hq
      rw [← member_toSorted hp, h, member_toSorted hq]
    have hchunk := hmember _ _ _ (.head _) (.head _)
    have hevent := hmember _ _ _ (.tail _ (.head _)) (.tail _ (.head _))
    have hrecipients := hmember _ _ _ (.tail _ (.tail _ (.head _))) (.tail _ (.tail _ (.head _)))
    have hresource := hmember _ _ _ (.tail _ (.tail _ (.tail _ (.head _))))
      (.tail _ (.tail _ (.tail _ (.head _))))
    have hworkflowKey := hmember _ _ _ (.tail _ (.tail _ (.tail _ (.tail _ (.head _)))))
      (.tail _ (.tail _ (.tail _ (.tail _ (.head _)))))
    have hworkplaceId := hmember _ _ _ (.tail _ (.tail _ (.tail _ (.tail _ (.tail _ (.head _))))))
      (.tail _ (.tail _ (.tail _ (.tail _ (.tail _ (.head _))))))
    obtain ⟨hid, htype⟩ := resourceMembers_inj (Option.some.inj hresource)
    refine ⟨?_, Option.map_injective htext hevent, ?_, ?_, ?_,
      Option.map_injective htext hworkplaceId, ?_⟩
    · exact Subtype.ext (Json.number.inj (Option.some.inj hchunk))
    · refine Option.map_injective htext ?_
      rw [Option.map_map, Option.map_map]
      exact hid
    · refine Option.map_injective htext ?_
      rw [Option.map_map, Option.map_map]
      exact htype
    · exact Json.string.inj (Option.some.inj hworkflowKey)
    · have hsorted := Json.array.inj (Option.some.inj hrecipients)
      exact Utf16.sort_eq_sort_iff.mp (List.map_injective_iff.mpr htext hsorted)
  · intro h
    have hid : (p.resource.map fun resource ↦ Json.string resource.id) =
        q.resource.map fun resource ↦ Json.string resource.id := by
      have hids := congrArg (Option.map Json.string) h.resourceId
      rwa [Option.map_map, Option.map_map] at hids
    have htype : (p.resource.map fun resource ↦ Json.string resource.type) =
        q.resource.map fun resource ↦ Json.string resource.type := by
      have htypes := congrArg (Option.map Json.string) h.resourceType
      rwa [Option.map_map, Option.map_map] at htypes
    rw [toSorted, toSorted, sortedMembers, sortedMembers, h.chunk, h.eventOccurredAt,
      h.workflowKey, h.workplaceId, Utf16.sort_eq_sort_iff.mpr h.recipients, hid, htype]

/-- Two keys have the same hash exactly when they are of the same event. -/
theorem hash_eq_iff {format : NumberFormat} {sha256 : List Char → List Char}
    (hsha256 : CollisionFree format.text sha256) {p q : HashParams} :
    triggerIdempotencyKeyParamsToHash format.text sha256 p =
        triggerIdempotencyKeyParamsToHash format.text sha256 q ↔ SameEvent p q := by
  have hp := serializable_toSorted p
  have hq := serializable_toSorted q
  rw [← toSorted_eq_iff]
  exact ⟨fun h ↦ stringify_inj format hp hq (hsha256 _ _ hp hq h),
    fun h ↦ congrArg (createDeterministicHash format.text sha256) h⟩

/-- A key that was made is read, with its members as they were given, and two keys have the same
hash exactly when they are of the same event. -/
theorem triggerIdempotencyKey_spec (format : NumberFormat)
    {jsonParse : List Char → Option Json} (hparse : InvertsStringify format.text jsonParse)
    {sha256 : List Char → List Char} (hsha256 : CollisionFree format.text sha256) :
    (∀ (params : TriggerIdempotencyKeyParams) (members : List (List Char × Option Json)),
      members.Perm params.members →
        parseTriggerIdempotencyKey jsonParse (triggerIdempotencyKey format.text members) =
          some (objectOf members)) ∧
      ∀ p q : HashParams,
        triggerIdempotencyKeyParamsToHash format.text sha256 p =
          triggerIdempotencyKeyParamsToHash format.text sha256 q ↔ SameEvent p q :=
  ⟨fun _ _ hperm ↦
    parseTriggerIdempotencyKey_triggerIdempotencyKey hparse (isKeyParams_of_perm hperm),
    fun _ _ ↦ hash_eq_iff hsha256⟩

/-- One is a number. -/
theorem isDouble_one : IsDouble (1 : ℕ) := NumericText.roundToDouble_natCast (by decide)

/-- The parameters of a key for some recipients. -/
def exampleParams (recipients : List String) : HashParams where
  eventOccurredAt := none
  resource := some ⟨"shift".toList, "7".toList⟩
  chunk := ⟨(1 : ℕ), isDouble_one⟩
  recipients := recipients.map String.toList
  workflowKey := "reminder".toList
  workplaceId := none

/-- A key for two recipients is read, and has the same hash in either order of them. -/
theorem triggerIdempotencyKey_spec_reordered :
    parseTriggerIdempotencyKey (Json.parse fractions) (triggerIdempotencyKey fractions.text
        (exampleParams ["b", "a"]).toTriggerIdempotencyKeyParams.members) =
      some (objectOf (exampleParams ["b", "a"]).toTriggerIdempotencyKeyParams.members) ∧
    triggerIdempotencyKeyParamsToHash fractions.text id (exampleParams ["b", "a"]) =
      triggerIdempotencyKeyParamsToHash fractions.text id (exampleParams ["a", "b"]) := by
  have hcollisionFree : CollisionFree fractions.text id := fun _ _ _ _ h ↦ h
  have hspec := triggerIdempotencyKey_spec fractions (fun _ ↦ parse_stringify fractions)
    hcollisionFree
  refine ⟨hspec.1 _ _ (.refl _), (hspec.2 _ _).mpr ⟨rfl, rfl, rfl, rfl, rfl, rfl, ?_⟩⟩
  decide

end CoreUtils.Notifications
