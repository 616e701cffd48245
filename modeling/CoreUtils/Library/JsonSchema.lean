import CoreUtils.Library.Json

/-!
# Schemas of JSON values

A schema says which values are allowed, and `Conforms` that a value is one of them. An object has
some of the declared fields, each at most once, and no other ones; the required fields are there,
and an object is never empty. An object that is written field by field conforms when each field does
(`conforms_objectOf`).
-/

namespace CoreUtils.Json

/-- Which values are allowed. A field of an object has a key, whether it is required, and a
schema. -/
inductive Schema where
  | text (accepts : List Char → Prop)
  | number (accepts : ℚ → Prop)
  | boolean
  | array (maximum : ℕ) (items : Schema)
  | object (fields : List (List Char × Bool × Schema))

/-- A value is allowed by a schema. -/
inductive Conforms : Schema → Json → Prop where
  | text {accepts : List Char → Prop} {value : List Char} (h : accepts value) :
      Conforms (.text accepts) (.string value)
  | number {accepts : ℚ → Prop} {value : ℚ} (h : accepts value) :
      Conforms (.number accepts) (.number value)
  | boolean {value : Bool} : Conforms .boolean (.bool value)
  | array {maximum : ℕ} {items : Schema} {values : List Json} (hlength : values.length ≤ maximum)
      (hitems : ∀ value ∈ values, Conforms items value) :
      Conforms (.array maximum items) (.array values)
  | object {fields : List (List Char × Bool × Schema)} {members : List (List Char × Json)}
      (hdistinct : (members.map Prod.fst).Nodup) (hnonempty : members ≠ [])
      (hdeclared : ∀ member ∈ members, member.1 ∈ fields.map Prod.fst)
      (hrequired : ∀ field ∈ fields, field.2.1 = true → field.1 ∈ members.map Prod.fst)
      (hmembers : ∀ key value required schema, (key, value) ∈ members →
        (key, required, schema) ∈ fields → Conforms schema value) :
      Conforms (.object fields) (.object members)

/-- What is written for a field of an object, if it is, is allowed. -/
inductive Writes : List Char × Bool × Schema → List Char × Option Json → Prop where
  | required {key : List Char} {schema : Schema} {value : Json} (h : Conforms schema value) :
      Writes (key, true, schema) (key, some value)
  | optional {key : List Char} {schema : Schema} {α : Type} {value : Option α} {write : α → Json}
      (h : ∀ a, value = some a → Conforms schema (write a)) :
      Writes (key, false, schema) (key, value.map write)

/-- What is written for a field is under its key. -/
theorem Writes.key_eq {field : List Char × Bool × Schema} {member : List Char × Option Json}
    (h : Writes field member) : member.1 = field.1 := by
  cases h with
  | required => rfl
  | optional => rfl

/-- What is written for a field is allowed. -/
theorem Writes.conforms {key : List Char} {required : Bool} {schema : Schema} {value : Json}
    (h : Writes (key, required, schema) (key, some value)) : Conforms schema value := by
  generalize hmember : (key, some value) = member at h
  cases h with
  | required h =>
      obtain ⟨-, hvalue⟩ := Prod.mk.inj hmember
      obtain rfl := Option.some.inj hvalue
      exact h
  | optional h =>
      obtain ⟨-, hvalue⟩ := Prod.mk.inj hmember
      obtain ⟨a, ha, rfl⟩ := Option.map_eq_some_iff.mp hvalue.symm
      exact h a ha

/-- A required field is written. -/
theorem Writes.isSome {field : List Char × Bool × Schema} {member : List Char × Option Json}
    (h : Writes field member) (hrequired : field.2.1 = true) : member.2.isSome = true := by
  cases h with
  | required => rfl
  | optional => contradiction

section Fields

variable {fields : List (List Char × Bool × Schema)} {members : List (List Char × Option Json)}

/-- What is written has the keys of the fields. -/
theorem map_fst_of_writes (h : List.Forall₂ Writes fields members) :
    members.map Prod.fst = fields.map Prod.fst := by
  induction h with
  | nil => rfl
  | cons hwrite _ ih => rw [List.map_cons, List.map_cons, hwrite.key_eq, ih]

/-- Everything that is written is written for some field. -/
theorem exists_field_of_writes (h : List.Forall₂ Writes fields members)
    {member : List Char × Option Json} (hmem : member ∈ members) :
    ∃ field ∈ fields, Writes field member := by
  induction h with
  | nil => contradiction
  | cons hwrite _ ih =>
      rcases List.mem_cons.mp hmem with rfl | hmem
      · exact ⟨_, List.mem_cons_self, hwrite⟩
      · obtain ⟨field, hfield, hwrites⟩ := ih hmem
        exact ⟨field, List.mem_cons_of_mem _ hfield, hwrites⟩

/-- For every field something is written, or nothing is. -/
theorem exists_member_of_writes (h : List.Forall₂ Writes fields members)
    {field : List Char × Bool × Schema} (hmem : field ∈ fields) :
    ∃ member ∈ members, Writes field member := by
  induction h with
  | nil => contradiction
  | cons hwrite _ ih =>
      rcases List.mem_cons.mp hmem with rfl | hmem
      · exact ⟨_, List.mem_cons_self, hwrite⟩
      · obtain ⟨member, hmember, hwrites⟩ := ih hmem
        exact ⟨member, List.mem_cons_of_mem _ hmember, hwrites⟩

/-- An object that is written field by field is allowed. -/
theorem conforms_objectOf (hkeys : (fields.map Prod.fst).Nodup)
    (hwrites : List.Forall₂ Writes fields members)
    (hnonempty : ∃ member ∈ members, member.2.isSome = true) :
    Conforms (.object fields) (objectOf members) := by
  have hmap := map_fst_of_writes hwrites
  refine .object ?_ ?_ ?_ ?_ ?_
  · -- the keys that are there are some of the keys of the fields
    exact (hmap ▸ hkeys).sublist (map_fst_present_sublist members)
  · obtain ⟨⟨key, value⟩, hmem, hsome⟩ := hnonempty
    obtain ⟨present, rfl⟩ := Option.isSome_iff_exists.mp hsome
    exact List.ne_nil_of_mem (mem_present.mpr hmem)
  · rintro ⟨key, value⟩ hmem
    rw [← hmap]
    exact List.mem_map_of_mem (mem_present.mp hmem)
  · intro field hfield hrequired
    obtain ⟨⟨key, value⟩, hmem, hwrite⟩ := exists_member_of_writes hwrites hfield
    obtain ⟨present, hpresent⟩ := Option.isSome_iff_exists.mp (hwrite.isSome hrequired)
    have hvalue : value = some present := hpresent
    rw [← hwrite.key_eq]
    exact List.mem_map_of_mem (mem_present.mpr (hvalue ▸ hmem))
  · intro key value required schema hmem hfield
    obtain ⟨field, hfield', hwrite⟩ := exists_field_of_writes hwrites (mem_present.mp hmem)
    obtain rfl : field = (key, required, schema) :=
      List.inj_on_of_nodup_map hkeys hfield' hfield hwrite.key_eq.symm
    exact hwrite.conforms

end Fields

end CoreUtils.Json
