import CoreUtils.Library.Json

/-!
# Redacting what is logged

`redact` replaces the values under some keys, at any depth, before the data of a trigger request is
logged. The data is a tree of JSON values. The keys of an object differ from each other and from
`__proto__`, so that setting the properties of a new object one after another keeps them all in
order. What is logged does not depend on the redacted values, and everything else is kept
(`redact_spec`).
-/

namespace CoreUtils.Notifications

/-- What is logged instead of a redacted value. -/
def redacted : Json := .string "[REDACTED]".toList

/-- Whether the value under a key is redacted; a value in an array has no key, and the empty key
counts as none. -/
def isKeyToRedact (keysToRedact : List (List Char)) (key : Option (List Char)) : Bool :=
  key.any fun key ↦ key != [] && keysToRedact.contains key

section

variable (keysToRedact : List (List Char))

mutual

/-- `redactValue` for a value that is not redacted itself. -/
def redactWithin : Json → Json
  | .array values => .array (redactValues values)
  | .object members => .object (redactMembers members)
  | .null => .null
  | .bool value => .bool value
  | .number value => .number value
  | .infinite negative => .infinite negative
  | .string value => .string value

/-- The loop over an array, where the key is forgotten. -/
def redactValues : List Json → List Json
  | [] => []
  | value :: rest =>
      (if isKeyToRedact keysToRedact none then redacted else redactWithin value) ::
        redactValues rest

/-- The loop over an object. -/
def redactMembers : List (List Char × Json) → List (List Char × Json)
  | [] => []
  | (key, value) :: rest =>
      (key, if isKeyToRedact keysToRedact (some key) then redacted else redactWithin value) ::
        redactMembers rest

end

/-- The value at a key without secrets: all of it is redacted if the key asks for this, and else
what is at such keys below it. -/
def redactValue (key : Option (List Char)) (value : Json) : Json :=
  if isKeyToRedact keysToRedact key then redacted else redactWithin keysToRedact value

/-- `redact`. The data is an object, or not there. -/
def redact (data : Option (List (List Char × Json))) : Option (List (List Char × Json)) :=
  data.map fun entries ↦ entries.map fun entry ↦
    (entry.1, redactValue keysToRedact (some entry.1) entry.2)

/-- The loop over an object is a map. -/
theorem redactMembers_eq (members : List (List Char × Json)) :
    redactMembers keysToRedact members = members.map fun entry ↦
      (entry.1, redactValue keysToRedact (some entry.1) entry.2) := by
  induction members with
  | nil => rfl
  | cons entry rest ih => rw [redactMembers, ih]; rfl

/-! ## Values that differ under redacted keys only -/

mutual

/-- Two values are the same but for what is stored under keys of the list: they have the same
positions in arrays, the same keys in objects and the same other values. -/
def SameOutside : Json → Json → Prop
  | .array values, .array values' => SameValuesOutside values values'
  | .object members, .object members' => SameMembersOutside members members'
  | value, value' => value = value'

/-- The values of two arrays. -/
def SameValuesOutside : List Json → List Json → Prop
  | [], [] => True
  | value :: rest, value' :: rest' => SameOutside value value' ∧ SameValuesOutside rest rest'
  | _, _ => False

/-- The members of two objects. -/
def SameMembersOutside : List (List Char × Json) → List (List Char × Json) → Prop
  | [], [] => True
  | (key, value) :: rest, (key', value') :: rest' =>
      key = key' ∧ (key ∈ keysToRedact ∨ SameOutside value value') ∧ SameMembersOutside rest rest'
  | _, _ => False

end

/-- Two data, each of which may be missing. -/
def SameDataOutside : Option (List (List Char × Json)) → Option (List (List Char × Json)) → Prop :=
  Option.Rel (SameMembersOutside keysToRedact)

variable {keysToRedact}

/-- A key of the list is redacted when it is not empty. -/
theorem isKeyToRedact_of_mem (hkeys : ∀ key ∈ keysToRedact, key ≠ []) {key : List Char}
    (h : key ∈ keysToRedact) : isKeyToRedact keysToRedact (some key) = true := by
  simp [isKeyToRedact, h, hkeys key h]

/-- Only keys of the list are redacted. -/
theorem mem_of_isKeyToRedact {key : List Char}
    (h : isKeyToRedact keysToRedact (some key) = true) : key ∈ keysToRedact := by
  have hboth : key ≠ [] ∧ key ∈ keysToRedact := by simpa [isKeyToRedact] using h
  exact hboth.2

mutual

/-- Two values that are the same outside of redacted keys are redacted to the same value. -/
theorem redactWithin_eq (hkeys : ∀ key ∈ keysToRedact, key ≠ []) :
    ∀ value value', SameOutside keysToRedact value value' →
      redactWithin keysToRedact value = redactWithin keysToRedact value'
  | .array values, .array values', h => by
      rw [redactWithin, redactWithin, redactValues_eq hkeys values values' (by
        simpa only [SameOutside] using h)]
  | .object members, .object members', h => by
      rw [redactWithin, redactWithin, redactMembers_eq_of_same hkeys members members' (by
        simpa only [SameOutside] using h)]
  | .array _, .null, h | .array _, .bool _, h | .array _, .number _, h | .array _, .infinite _, h
  | .array _, .string _, h | .array _, .object _, h | .object _, .null, h | .object _, .bool _, h
  | .object _, .number _, h | .object _, .infinite _, h | .object _, .string _, h
  | .object _, .array _, h | .null, _, h | .bool _, _, h | .number _, _, h | .infinite _, _, h
  | .string _, _, h => by
      rw [SameOutside] at h
      · rw [h]
      all_goals simp

/-- Two arrays that are the same outside of redacted keys. -/
theorem redactValues_eq (hkeys : ∀ key ∈ keysToRedact, key ≠ []) :
    ∀ values values', SameValuesOutside keysToRedact values values' →
      redactValues keysToRedact values = redactValues keysToRedact values'
  | [], [], _ => rfl
  | value :: rest, value' :: rest', h => by
      rw [SameValuesOutside] at h
      rw [redactValues, redactValues, redactWithin_eq hkeys value value' h.1,
        redactValues_eq hkeys rest rest' h.2]
  | [], _ :: _, h | _ :: _, [], h => by simp [SameValuesOutside] at h

/-- Two objects that are the same outside of redacted keys. -/
theorem redactMembers_eq_of_same (hkeys : ∀ key ∈ keysToRedact, key ≠ []) :
    ∀ members members', SameMembersOutside keysToRedact members members' →
      redactMembers keysToRedact members = redactMembers keysToRedact members'
  | [], [], _ => rfl
  | (key, value) :: rest, (key', value') :: rest', h => by
      rw [SameMembersOutside] at h
      obtain ⟨rfl, hvalue, hrest⟩ := h
      rw [redactMembers, redactMembers, redactMembers_eq_of_same hkeys rest rest' hrest]
      rcases hvalue with hmem | hvalue
      · rw [isKeyToRedact_of_mem hkeys hmem, if_pos rfl, if_pos rfl]
      · rw [redactWithin_eq hkeys value value' hvalue]
  | [], _ :: _, h | _ :: _, [], h => by simp [SameMembersOutside] at h

end

mutual

/-- A redacted value is the same outside of redacted keys. -/
theorem sameOutside_redactWithin :
    ∀ value, SameOutside keysToRedact value (redactWithin keysToRedact value)
  | .array values => by
      rw [redactWithin, SameOutside]
      exact sameOutside_redactValues values
  | .object members => by
      rw [redactWithin, SameOutside]
      exact sameOutside_redactMembers members
  | .null | .bool _ | .number _ | .infinite _ | .string _ => by simp [redactWithin, SameOutside]

/-- So are the values of an array. -/
theorem sameOutside_redactValues :
    ∀ values, SameValuesOutside keysToRedact values (redactValues keysToRedact values)
  | [] => by simp [redactValues, SameValuesOutside]
  | value :: rest => by
      rw [redactValues, SameValuesOutside]
      exact ⟨sameOutside_redactWithin value, sameOutside_redactValues rest⟩

/-- So are the members of an object. -/
theorem sameOutside_redactMembers :
    ∀ members, SameMembersOutside keysToRedact members (redactMembers keysToRedact members)
  | [] => by simp [redactMembers, SameMembersOutside]
  | (key, value) :: rest => by
      rw [redactMembers, SameMembersOutside]
      refine ⟨rfl, ?_, sameOutside_redactMembers rest⟩
      split
      · rename_i hkey
        exact .inl (mem_of_isKeyToRedact hkey)
      · exact .inr (sameOutside_redactWithin value)

end

end

/-- Two data that differ only in values under redacted keys are logged as the same; and what is
logged differs from the data only in values under these keys, so that every other value is as it
was, with the same keys and the same positions in arrays. -/
theorem redact_spec (keysToRedact : List (List Char)) (hkeys : ∀ key ∈ keysToRedact, key ≠ [])
    (data data' : Option (List (List Char × Json))) :
    (SameDataOutside keysToRedact data data' →
      redact keysToRedact data = redact keysToRedact data') ∧
    SameDataOutside keysToRedact data (redact keysToRedact data) := by
  constructor
  · rintro (h | _)
    · rw [redact, redact, Option.map_some, Option.map_some, ← redactMembers_eq, ← redactMembers_eq,
        redactMembers_eq_of_same hkeys _ _ h]
    · rfl
  · cases data with
    | none => exact .none
    | some entries =>
        rw [redact, Option.map_some, ← redactMembers_eq]
        exact .some (sameOutside_redactMembers entries)

/-- An order with a phone number inside an array, under a key that is to be redacted. -/
def exampleOrder (phone : String) : List (List Char × Json) :=
  [("name".toList, .string "A".toList),
    ("contacts".toList, .array [.object [("phone".toList, .string phone.toList)]])]

/-- The order is logged without the phone number. -/
theorem redact_spec_order :
    redact ["phone".toList] (some (exampleOrder "123")) =
        redact ["phone".toList] (some (exampleOrder "456")) ∧
      SameDataOutside ["phone".toList] (some (exampleOrder "123"))
        (redact ["phone".toList] (some (exampleOrder "123"))) := by
  have hspec := redact_spec ["phone".toList] (by decide) (some (exampleOrder "123"))
    (some (exampleOrder "456"))
  refine ⟨hspec.1 (.some ?_), hspec.2⟩
  simp [exampleOrder, SameMembersOutside, SameOutside, SameValuesOutside]

end CoreUtils.Notifications
