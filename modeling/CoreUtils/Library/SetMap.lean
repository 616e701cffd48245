import CoreUtils.Library.OrderedMap

/-!
# Maps of sets

A map whose values are sets is a relation between its keys and their elements. `holds_foldl` says
which pairs it relates after a loop that adds one pair after another.
-/

namespace CoreUtils.OrderedMap

variable {κ ν β : Type*} [DecidableEq κ] [DecidableEq ν]

/-- The set under a key has an element. -/
def Holds (m : OrderedMap κ (OrderedSet ν)) (key : κ) (element : ν) : Prop :=
  ∃ set, m.get key = some set ∧ set.get element = some ()

/-- The elements under a key, of which an absent key has none. -/
theorem mem_elim_keys {m : OrderedMap κ (OrderedSet ν)} {key : κ} {element : ν} :
    element ∈ (m.get key).elim [] keys ↔ m.Holds key element := by
  rw [Holds]
  cases m.get key with
  | none => simp
  | some set =>
      rw [Option.elim_some, mem_keys]
      constructor
      · rintro ⟨⟨⟩, helement⟩
        exact ⟨set, rfl, helement⟩
      · rintro ⟨other, hother, helement⟩
        exact ⟨(), Option.some.inj hother ▸ helement⟩

/-- Add an element to the set under a key. An absent key changes nothing. -/
def addTo (m : OrderedMap κ (OrderedSet ν)) (key : κ) (element : ν) :
    OrderedMap κ (OrderedSet ν) :=
  m.modify key fun known ↦ known.add element

/-- Adding to a set does not change the keys. -/
theorem isSome_addTo (m : OrderedMap κ (OrderedSet ν)) (key other : κ) (element : ν) :
    ((m.addTo key element).get other).isSome = (m.get other).isSome := by
  rw [addTo, get_modify]
  split <;> simp

/-- Adding a pair to a present key relates that pair, and no other. -/
theorem holds_addTo (m : OrderedMap κ (OrderedSet ν)) (key other : κ) (element x : ν) :
    (m.addTo key element).Holds other x ↔
      m.Holds other x ∨ ((m.get other).isSome ∧ key = other ∧ element = x) := by
  rw [Holds, Holds, addTo, get_modify]
  cases hother : m.get other with
  | none => simp
  | some set =>
      by_cases hkey : other = key
      · subst hkey
        by_cases helement : x = element
        · simp [helement]
        · simp [helement, Ne.symm helement]
      · simp [hkey, Ne.symm hkey]

/-- A loop that adds pairs does not change the keys. -/
theorem isSome_foldl {m : OrderedMap κ (OrderedSet ν)} {entries : List β}
    {step : OrderedMap κ (OrderedSet ν) → β → OrderedMap κ (OrderedSet ν)} {p : β → Prop}
    {key : β → κ} {element : β → ν}
    (hstep : ∀ m entry, p entry ∧ step m entry = m.addTo (key entry) (element entry) ∨
      ¬p entry ∧ step m entry = m) (other : κ) :
    ((entries.foldl step m).get other).isSome = (m.get other).isSome := by
  induction entries generalizing m with
  | nil => rfl
  | cons entry rest ih =>
      rw [List.foldl_cons, ih]
      rcases hstep m entry with ⟨-, heq⟩ | ⟨-, heq⟩
      · rw [heq, isSome_addTo]
      · rw [heq]

/-- After a loop that adds some pairs, a present key is related to what it was related to before
and to what was added to it. -/
theorem holds_foldl {m : OrderedMap κ (OrderedSet ν)} {entries : List β}
    {step : OrderedMap κ (OrderedSet ν) → β → OrderedMap κ (OrderedSet ν)} {p : β → Prop}
    {key : β → κ} {element : β → ν}
    (hstep : ∀ m entry, p entry ∧ step m entry = m.addTo (key entry) (element entry) ∨
      ¬p entry ∧ step m entry = m) (other : κ) (x : ν) :
    (entries.foldl step m).Holds other x ↔ m.Holds other x ∨ ((m.get other).isSome ∧
      ∃ entry ∈ entries, p entry ∧ key entry = other ∧ element entry = x) := by
  induction entries generalizing m with
  | nil => simp
  | cons entry rest ih =>
      rw [List.foldl_cons, ih, List.exists_mem_cons_iff]
      rcases hstep m entry with ⟨hp, heq⟩ | ⟨hp, heq⟩
      · rw [heq, isSome_addTo, holds_addTo]
        tauto
      · rw [heq]
        tauto

end CoreUtils.OrderedMap
