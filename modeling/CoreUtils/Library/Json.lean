import Mathlib.Data.List.Nodup
import Mathlib.Data.Rat.Defs
import Mathlib.Tactic.Common

/-!
# JSON values

What `JSON.parse` returns and how `JSON.stringify` writes it. A number is a finite double, which is
a rational, or infinite where its literal is beyond the range of doubles. A field of an object is
`Stable` when what is read from it is read again after it has been written.
-/

namespace CoreUtils

/-- A JSON value. -/
inductive Json where
  | null
  | bool (value : Bool)
  | number (value : ℚ)
  | infinite (negative : Bool)
  | string (value : List Char)
  | array (values : List Json)
  | object (members : List (List Char × Json))

namespace Json

/-- The member of an object under a key: the last one if the key is repeated. Other values have no
members. -/
def member (key : List Char) : Json → Option Json
  | object members => members.reverse.lookup key
  | _ => none

/-- Change the member of an object under a key. -/
def onMember (key : List Char) (change : Json → Json) : Json → Json
  | object members =>
      object (members.map fun entry ↦ if entry.1 = key then (entry.1, change entry.2) else entry)
  | value => value

/-- The member under the key of a change is changed, any other one is kept. -/
theorem member_onMember (key other : List Char) (change : Json → Json) (value : Json) :
    (onMember key change value).member other =
      if other = key then (value.member other).map change else value.member other := by
  cases value with
  | object members =>
      simp only [onMember, member, ← List.map_reverse]
      induction members.reverse with
      | nil => simp
      | cons entry rest ih =>
          rcases entry with ⟨stored, content⟩
          by_cases hstored : stored = key
          · rw [List.map_cons, if_pos hstored, List.lookup_cons, List.lookup_cons, ih]
            by_cases hother : other = key
            · simp [hstored, hother]
            · have hne : (other == stored) = false := by simpa [hstored] using hother
              simp [hother, hne]
          · rw [List.map_cons, if_neg hstored, List.lookup_cons, List.lookup_cons, ih]
            by_cases hother : other = stored
            · subst hother
              simp [hstored]
            · have hne : (other == stored) = false := by simpa using hother
              simp [hne]
  | _ => simp [onMember, member]

/-- A text. -/
def asString : Json → Option (List Char)
  | string value => some value
  | _ => none

/-- A finite number. -/
def asNumber : Json → Option ℚ
  | number value => some value
  | _ => none

/-- A member that may be missing or `null`, and is of some kind otherwise; nothing stands for one of
another kind. -/
def optional {α : Type} (kind : Json → Option α) : Option Json → Option (Option α)
  | none => some none
  | some null => some none
  | some value => (kind value).map some

/-- The members of an object that are there. -/
def objectOf (members : List (List Char × Option Json)) : Json :=
  object (members.filterMap fun entry ↦ entry.2.map fun value ↦ (entry.1, value))

/-- A member of an object is what was put there under its key. -/
theorem member_objectOf {members : List (List Char × Option Json)} {key : List Char}
    {value : Option Json} (hkeys : (members.map Prod.fst).Nodup) (hmem : (key, value) ∈ members) :
    (objectOf members).member key = value := by
  show (members.filterMap fun entry ↦
    entry.2.map fun present ↦ (entry.1, present)).reverse.lookup key = value
  induction members with
  | nil => simp at hmem
  | cons entry rest ih =>
      obtain ⟨hfresh, hrest⟩ := List.nodup_cons.mp hkeys
      have hmissing : key = entry.1 → (rest.filterMap fun other ↦
          other.2.map fun present ↦ (other.1, present)).reverse.lookup key = none := by
        intro hsame
        rw [List.lookup_eq_none_iff]
        intro other hother
        obtain ⟨source, hsource, hpresent⟩ :=
          List.mem_filterMap.mp (List.mem_reverse.mp hother)
        obtain ⟨present, -, rfl⟩ := Option.map_eq_some_iff.mp hpresent
        have hne : source.1 ≠ key := by
          rintro rfl
          exact hfresh (hsame ▸ List.mem_map_of_mem hsource)
        simpa using hne.symm
      rw [List.filterMap_cons]
      rcases List.mem_cons.mp hmem with hentry | hmem'
      · obtain rfl : entry = (key, value) := hentry.symm
        cases value with
        | none => exact hmissing rfl
        | some present =>
            rw [Option.map_some, List.reverse_cons, List.lookup_append, hmissing rfl]
            simp
      · have hne : key ≠ entry.1 := by
          rintro rfl
          exact hfresh (List.mem_map.mpr ⟨_, hmem', rfl⟩)
        have hbeq : (key == entry.1) = false := by simpa using hne
        cases hpresent : entry.2 with
        | none => exact ih hrest hmem'
        | some present =>
            rw [Option.map_some, List.reverse_cons, List.lookup_append, ih hrest hmem']
            cases value with
            | none => simp [List.lookup_cons, hbeq]
            | some present => rfl

/-- The members of an object that are there. -/
theorem mem_present {members : List (List Char × Option Json)} {key : List Char} {value : Json} :
    (key, value) ∈ (members.filterMap fun entry ↦ entry.2.map fun value ↦ (entry.1, value)) ↔
      (key, some value) ∈ members := by
  rw [List.mem_filterMap]
  constructor
  · rintro ⟨⟨key', value'⟩, hmem, hpresent⟩
    obtain ⟨present, hvalue, heq⟩ := Option.map_eq_some_iff.mp hpresent
    obtain ⟨rfl, rfl⟩ := Prod.mk.inj heq
    have hsome : value' = some present := hvalue
    rw [← hsome]
    exact hmem
  · intro hmem
    exact ⟨(key, some value), hmem, rfl⟩

/-- The keys that are there are some of the keys, in order. -/
theorem map_fst_present_sublist (members : List (List Char × Option Json)) :
    ((members.filterMap fun entry ↦ entry.2.map fun value ↦ (entry.1, value)).map
      Prod.fst).Sublist (members.map Prod.fst) := by
  induction members with
  | nil => exact List.Sublist.refl _
  | cons member rest ih =>
      rw [List.filterMap_cons]
      cases member.2 with
      | none => exact ih.cons _
      | some value => exact ih.cons_cons _

/-! ## Fields that are read again -/

/-- What `read` finds in a field it finds again once `write` has written it. -/
structure Stable {α : Type} (read : Option Json → Option α) (write : α → Json) : Prop where
  missing : read none = none
  again : ∀ {value a}, read value = some a → read (some (write a)) = some a

/-- A field that has been read and written is read as before. -/
theorem Stable.reread {α : Type} {read : Option Json → Option α} {write : α → Json}
    (h : Stable read write) (value : Option Json) : read ((read value).map write) = read value := by
  cases hread : read value with
  | none => exact h.missing
  | some a => exact h.again hread

/-! ## Printing -/

/-- A character between the quotes of a text. -/
def escapeChar (c : Char) : List Char :=
  if c = '"' then ['\\', '"']
  else if c = '\\' then ['\\', '\\']
  else if c = '\n' then ['\\', 'n']
  else if c = '\r' then ['\\', 'r']
  else if c = '\t' then ['\\', 't']
  else if c = '\x08' then ['\\', 'b']
  else if c = '\x0c' then ['\\', 'f']
  else if c.toNat < 32 then
    ['\\', 'u', '0', '0', Nat.digitChar (c.toNat / 16), Nat.digitChar (c.toNat % 16)]
  else [c]

/-- A text in quotes. -/
def quote (text : List Char) : List Char := '"' :: (text.flatMap escapeChar ++ ['"'])

section Stringify

variable (numberText : ℚ → List Char)

mutual

/-- `JSON.stringify`; `numberText` writes finite numbers. -/
def stringify : Json → List Char
  | null => "null".toList
  | bool true => "true".toList
  | bool false => "false".toList
  | number value => numberText value
  | infinite _ => "null".toList
  | string value => quote value
  | array values => '[' :: ([','].intercalate (stringifyValues values) ++ [']'])
  | object members => '{' :: ([','].intercalate (stringifyMembers members) ++ ['}'])

/-- The values of an array. -/
def stringifyValues : List Json → List (List Char)
  | [] => []
  | value :: rest => stringify value :: stringifyValues rest

/-- The members of an object. -/
def stringifyMembers : List (List Char × Json) → List (List Char)
  | [] => []
  | (key, value) :: rest => (quote key ++ ':' :: stringify value) :: stringifyMembers rest

end

variable {numberText}

/-- The values of an array as texts. -/
theorem stringifyValues_eq (values : List Json) :
    stringifyValues numberText values = values.map (stringify numberText) := by
  induction values with
  | nil => rfl
  | cons value rest ih => rw [stringifyValues, ih, List.map_cons]

/-- The members of an object as texts. -/
theorem stringifyMembers_eq (members : List (List Char × Json)) :
    stringifyMembers numberText members =
      members.map fun entry ↦ quote entry.1 ++ ':' :: stringify numberText entry.2 := by
  induction members with
  | nil => rfl
  | cons entry rest ih => rw [stringifyMembers, ih, List.map_cons]

/-- An array as a text. -/
theorem stringify_array (values : List Json) :
    stringify numberText (.array values) =
      '[' :: ([','].intercalate (values.map (stringify numberText)) ++ [']']) := by
  rw [stringify, stringifyValues_eq]

/-- An object as a text. -/
theorem stringify_object (members : List (List Char × Json)) :
    stringify numberText (.object members) = '{' :: ([','].intercalate (members.map fun entry ↦
      quote entry.1 ++ ':' :: stringify numberText entry.2) ++ ['}']) := by
  rw [stringify, stringifyMembers_eq]

end Stringify

/-- Text joined to one more text. -/
theorem intercalate_concat {α : Type} (separator : List α) {texts : List (List α)}
    (h : texts ≠ []) (text : List α) :
    separator.intercalate (texts ++ [text]) =
      separator.intercalate texts ++ (separator ++ text) := by
  induction texts with
  | nil => exact absurd rfl h
  | cons first rest ih =>
      cases rest with
      | nil => simp
      | cons second rest =>
          rw [List.cons_append, List.intercalate_cons_of_ne_nil (by simp), ih (by simp),
            List.intercalate_cons_cons]
          simp only [List.append_assoc]

end Json

end CoreUtils
