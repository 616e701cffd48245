import Mathlib.Data.Fintype.Card
import Mathlib.Logic.Relation
import CoreUtils.Library.OrderedMap

/-!
# Freezing everything an object refers to

`deepFreeze` of `util-ts` on a finite graph of plain objects and arrays. Two tests cut its
recursion: an object that has been seen is not visited again, and the value of a property is not
visited when it is frozen already. The second one hides what an object that was frozen on its own
refers to, so that the result is deeply frozen exactly when everything an object refers to can be
reached without passing through an object that was frozen before (`deepFreeze_reachable_iff`).
-/

namespace CoreUtils.UtilTs

open Relation (ReflTransGen)

/-! ## Objects and their properties -/

/-- The key of a property. -/
inductive PropertyKey where
  | string (key : List Char)
  | symbol (id : ℕ)
deriving DecidableEq

/-- The value of a property: an object or an array, or else `null`, a primitive or a function. -/
inductive PropertyValue (Ref : Type*) where
  | object (ref : Ref)
  | other
deriving DecidableEq

/-- An own data property. -/
structure Property (Ref : Type*) where
  value : PropertyValue Ref
  writable : Bool
  configurable : Bool

/-- A plain object or an array. -/
structure PlainObject (Ref : Type*) where
  properties : OrderedMap PropertyKey (Property Ref)
  extensible : Bool

/-- The objects by their identities. -/
abbrev ObjectGraph (Ref : Type*) := Ref → PlainObject Ref

namespace PlainObject

variable {Ref : Type*}

/-- Nothing can be added to the object, and none of its properties changed: `Object.isFrozen`. -/
def isFrozen (object : PlainObject Ref) : Bool :=
  !object.extensible &&
    object.properties.values.all fun property ↦ !property.writable && !property.configurable

/-- The object with all that locked, `Object.freeze`. -/
def freeze (object : PlainObject Ref) : PlainObject Ref where
  properties := object.properties.mapValues fun property ↦
    { property with writable := false, configurable := false }
  extensible := false

/-- The value of the property with a key. -/
def value (object : PlainObject Ref) (key : PropertyKey) : PropertyValue Ref :=
  (object.properties.get key).elim .other Property.value

/-- Whether an own property of the object has another object as its value. -/
def RefersTo (object : PlainObject Ref) (ref : Ref) : Prop :=
  ∃ key ∈ object.properties.keys, object.value key = .object ref

@[simp] theorem isFrozen_freeze (object : PlainObject Ref) : object.freeze.isFrozen = true := by
  simp [isFrozen, freeze, OrderedMap.mapValues, OrderedMap.mapWithKey, OrderedMap.values]

/-- Freezing twice is freezing once. -/
@[simp] theorem freeze_freeze (object : PlainObject Ref) :
    object.freeze.freeze = object.freeze := by
  simp [freeze, OrderedMap.mapValues, OrderedMap.mapWithKey]

@[simp] theorem value_freeze (object : PlainObject Ref) (key : PropertyKey) :
    object.freeze.value key = object.value key := by
  rw [value, value, freeze, OrderedMap.get_mapValues]
  cases object.properties.get key <;> rfl

@[simp] theorem keys_freeze (object : PlainObject Ref) :
    object.freeze.properties.keys = object.properties.keys := by
  simp [freeze, OrderedMap.keys, OrderedMap.mapValues, OrderedMap.mapWithKey]

/-- Freezing changes no references. -/
@[simp] theorem refersTo_freeze (object : PlainObject Ref) (ref : Ref) :
    object.freeze.RefersTo ref ↔ object.RefersTo ref := by
  simp [RefersTo]

end PlainObject

/-! ## The recursion -/

variable {Ref : Type*}

/-- What the calls share: the objects, and the set of those that have been seen. -/
structure Freezing (Ref : Type*) where
  graph : ObjectGraph Ref
  seen : List Ref

namespace Freezing

/-- Add an object to the set. -/
def see (state : Freezing Ref) (ref : Ref) : Freezing Ref :=
  { state with seen := ref :: state.seen }

/-- Freeze one object. -/
def freeze [DecidableEq Ref] (state : Freezing Ref) (ref : Ref) : Freezing Ref :=
  { state with graph := Function.update state.graph ref (state.graph ref).freeze }

end Freezing

/-- One turn of the loop over the keys of an object. A call on the value of a property is given. -/
def freezeProperty (visit : PropertyValue Ref → Freezing Ref → Option (Freezing Ref))
    (value : Ref) (key : PropertyKey) (state : Freezing Ref) : Option (Freezing Ref) :=
  match (state.graph value).value key with
  | .object ref => if (state.graph ref).isFrozen then some state else visit (.object ref) state
  | .other => some state

/-- The loop over the keys of an object. -/
def freezeProperties (visit : PropertyValue Ref → Freezing Ref → Option (Freezing Ref))
    (value : Ref) : List PropertyKey → Freezing Ref → Option (Freezing Ref)
  | [], state => some state
  | key :: keys, state => do
      let next ← freezeProperty visit value key state
      freezeProperties visit value keys next

/-- The calls of `deepFreeze`, at most so many deep. A call returns the value it is given. -/
def deepFreezeWithin [DecidableEq Ref] :
    ℕ → PropertyValue Ref → Freezing Ref → Option (Freezing Ref)
  | 0, _, _ => none
  | _ + 1, .other, state => some state
  | bound + 1, .object ref, state =>
      if state.seen.contains ref then some state
      else do
        let state := state.see ref
        let keys := (state.graph ref).properties.keys
        let visited ← freezeProperties (deepFreezeWithin bound) ref keys state
        some (visited.freeze ref)

/-- `deepFreeze`: the value and the objects afterwards. -/
def deepFreeze [DecidableEq Ref] [Fintype Ref] (graph : ObjectGraph Ref)
    (value : PropertyValue Ref) : Option (PropertyValue Ref × ObjectGraph Ref) := do
  let state ← deepFreezeWithin (Fintype.card Ref + 1) value { graph, seen := [] }
  some (value, state.graph)

/-! ## What one call does -/

variable {before : ObjectGraph Ref} {root : Ref}

/-- One object refers to another. -/
def Refers (graph : ObjectGraph Ref) (a b : Ref) : Prop := (graph a).RefersTo b

/-- One object refers to another that is not frozen, so that the recursion goes on there. -/
def Enters (graph : ObjectGraph Ref) (a b : Ref) : Prop :=
  Refers graph a b ∧ (graph b).isFrozen = false

/-- What holds between the steps of a run: an object is as it was, or it has been seen and is
frozen, and the recursion has reached whatever has been seen. -/
structure FreezingFrom (before : ObjectGraph Ref) (root : Ref) (state : Freezing Ref) : Prop where
  graph : ∀ a, state.graph a = before a ∨ a ∈ state.seen ∧ state.graph a = (before a).freeze
  entered : ∀ a ∈ state.seen, ReflTransGen (Enters before) root a

/-- Between two states, the recursion has finished whatever it has newly seen. -/
structure Finishes (before : ObjectGraph Ref) (state next : Freezing Ref) : Prop where
  seen : ∀ {a}, a ∈ state.seen → a ∈ next.seen
  kept : ∀ {a}, state.graph a = (before a).freeze → next.graph a = (before a).freeze
  frozen : ∀ {a}, a ∈ next.seen → a ∉ state.seen → next.graph a = (before a).freeze
  closed : ∀ {a b}, a ∈ next.seen → a ∉ state.seen → Enters before a b → b ∈ next.seen

/-- Doing nothing. -/
theorem Finishes.refl (state : Freezing Ref) : Finishes before state state :=
  ⟨id, id, fun h hnot ↦ absurd h hnot, fun h hnot ↦ absurd h hnot⟩

/-- One part of a run after another. -/
theorem Finishes.trans {state middle next : Freezing Ref} (h₁ : Finishes before state middle)
    (h₂ : Finishes before middle next) : Finishes before state next where
  seen h := h₂.seen (h₁.seen h)
  kept h := h₂.kept (h₁.kept h)
  frozen {a} ha hnot := by
    by_cases hmiddle : a ∈ middle.seen
    · exact h₂.kept (h₁.frozen hmiddle hnot)
    · exact h₂.frozen ha hmiddle
  closed {a b} ha hnot hab := by
    by_cases hmiddle : a ∈ middle.seen
    · exact h₂.seen (h₁.closed hmiddle hnot hab)
    · exact h₂.closed ha hmiddle hab

namespace FreezingFrom

variable {state : Freezing Ref}

/-- Freezing changes no keys. -/
theorem keys_eq (h : FreezingFrom before root state) (a : Ref) :
    (state.graph a).properties.keys = (before a).properties.keys := by
  obtain hgraph | ⟨-, hgraph⟩ := h.graph a <;> simp [hgraph]

/-- Freezing changes no values. -/
theorem value_eq (h : FreezingFrom before root state) (a : Ref) (key : PropertyKey) :
    (state.graph a).value key = (before a).value key := by
  obtain hgraph | ⟨-, hgraph⟩ := h.graph a <;> simp [hgraph]

/-- An object that is frozen by now was frozen before or has been seen. -/
theorem frozen_or_seen (h : FreezingFrom before root state) {a : Ref}
    (ha : (state.graph a).isFrozen = true) : (before a).isFrozen = true ∨ a ∈ state.seen := by
  obtain hgraph | ⟨hseen, -⟩ := h.graph a
  · exact .inl (hgraph ▸ ha)
  · exact .inr hseen

/-- An object that is not frozen by now was not frozen before. -/
theorem not_frozen (h : FreezingFrom before root state) {a : Ref}
    (ha : (state.graph a).isFrozen = false) : (before a).isFrozen = false := by
  obtain hgraph | ⟨-, hgraph⟩ := h.graph a
  · exact hgraph ▸ ha
  · simp [hgraph] at ha

/-- Seeing an object that the recursion reaches. -/
theorem see (h : FreezingFrom before root state) {ref : Ref}
    (href : ReflTransGen (Enters before) root ref) :
    FreezingFrom before root (state.see ref) where
  graph a := (h.graph a).imp_right fun ⟨hseen, hgraph⟩ ↦ ⟨.tail _ hseen, hgraph⟩
  entered a ha := by
    obtain rfl | ha := List.mem_cons.mp ha
    · exact href
    · exact h.entered a ha

/-- An object is frozen in the end, whether it has been frozen in between or not. -/
theorem freeze_eq (h : FreezingFrom before root state) (ref : Ref) :
    (state.graph ref).freeze = (before ref).freeze := by
  obtain hgraph | ⟨-, hgraph⟩ := h.graph ref <;> simp [hgraph]

/-- Freezing an object that has been seen. -/
theorem freeze [DecidableEq Ref] (h : FreezingFrom before root state) {ref : Ref}
    (href : ref ∈ state.seen) : FreezingFrom before root (state.freeze ref) where
  graph a := by
    by_cases ha : a = ref
    · subst ha
      exact .inr ⟨href, by simp [Freezing.freeze, h.freeze_eq]⟩
    · simpa [Freezing.freeze, ha] using h.graph a
  entered := h.entered

end FreezingFrom

variable [DecidableEq Ref]

/-- An object is finished when it is frozen after all the objects that it enters are seen. -/
theorem Finishes.freeze {state next : Freezing Ref} {ref : Ref}
    (hnext : FreezingFrom before root next) (h : Finishes before (state.see ref) next)
    (hclosed : ∀ b, Enters before ref b → b ∈ next.seen) :
    Finishes before state (next.freeze ref) where
  seen ha := h.seen (.tail _ ha)
  kept {a} ha := by
    by_cases heq : a = ref
    · subst heq
      simp [Freezing.freeze, hnext.freeze_eq]
    · simpa [Freezing.freeze, heq] using h.kept ha
  frozen {a} ha hnot := by
    by_cases heq : a = ref
    · subst heq
      simp [Freezing.freeze, hnext.freeze_eq]
    · simpa [Freezing.freeze, heq] using h.frozen ha (by simp [Freezing.see, heq, hnot])
  closed {a b} ha hnot hab := by
    by_cases heq : a = ref
    · exact hclosed b (heq ▸ hab)
    · exact h.closed ha (by simp [Freezing.see, heq, hnot]) hab

variable [Fintype Ref]

/-- The objects that have not been seen. -/
def Freezing.remaining (state : Freezing Ref) : ℕ :=
  (Finset.univ.filter fun a ↦ a ∉ state.seen).card

/-- What has been seen is not forgotten. -/
theorem Finishes.remaining_le {state next : Freezing Ref}
    (h : Finishes before state next) : next.remaining ≤ state.remaining := by
  refine Finset.card_le_card fun a ha ↦ ?_
  simp only [Finset.mem_filter, Finset.mem_univ, true_and] at ha ⊢
  exact fun hseen ↦ ha (h.seen hseen)

/-- Seeing an object for the first time leaves one object fewer. -/
theorem Freezing.remaining_see_lt {state : Freezing Ref} {ref : Ref}
    (h : ref ∉ state.seen) : (state.see ref).remaining < state.remaining := by
  refine Finset.card_lt_card (Finset.ssubset_iff_subset_ne.mpr ⟨fun a ha ↦ ?_, fun heq ↦ ?_⟩)
  · simp only [Freezing.see, List.mem_cons, Finset.mem_filter, Finset.mem_univ, true_and] at ha ⊢
    exact fun hseen ↦ ha (.inr hseen)
  · have hmem : ref ∈ Finset.univ.filter fun a ↦ a ∉ (state.see ref).seen := by
      rw [heq]
      simpa using h
    simp [Freezing.see] at hmem

/-- A call is correct: with fewer than `bound` objects unseen it sees the object it is given and
finishes whatever it newly sees. -/
def Visits (before : ObjectGraph Ref) (root : Ref) (bound : ℕ)
    (visit : PropertyValue Ref → Freezing Ref → Option (Freezing Ref)) : Prop :=
  ∀ state a, FreezingFrom before root state → ReflTransGen (Enters before) root a →
    state.remaining < bound →
    ∃ next, visit (.object a) state = some next ∧ FreezingFrom before root next ∧
      Finishes before state next ∧ a ∈ next.seen

/-- One turn of the loop sees the object that the object enters there. -/
theorem freezeProperty_spec {bound : ℕ}
    {visit : PropertyValue Ref → Freezing Ref → Option (Freezing Ref)}
    (hvisit : Visits before root bound visit) {ref : Ref} {key : PropertyKey}
    (hkey : key ∈ (before ref).properties.keys) {state : Freezing Ref}
    (h : FreezingFrom before root state) (href : ReflTransGen (Enters before) root ref)
    (hbound : state.remaining < bound) :
    ∃ next, freezeProperty visit ref key state = some next ∧ FreezingFrom before root next ∧
      Finishes before state next ∧ ∀ child, (before ref).value key = .object child →
        (before child).isFrozen = false → child ∈ next.seen := by
  rw [freezeProperty, h.value_eq]
  cases hvalue : (before ref).value key with
  | other => exact ⟨state, rfl, h, .refl state, by simp⟩
  | object child =>
      simp only [PropertyValue.object.injEq, forall_eq']
      split
      · rename_i hfrozen
        refine ⟨state, rfl, h, .refl state, fun hnot ↦ ?_⟩
        exact (h.frozen_or_seen hfrozen).resolve_left (by simp [hnot])
      · rename_i hfrozen
        have henters : Enters before ref child :=
          ⟨⟨key, hkey, hvalue⟩, h.not_frozen (by simpa using hfrozen)⟩
        obtain ⟨next, hnext, hfrom, hfinishes, hseen⟩ :=
          hvisit state child h (href.tail henters) hbound
        exact ⟨next, hnext, hfrom, hfinishes, fun _ ↦ hseen⟩

/-- The loop over the keys of an object sees every object that the object enters there. -/
theorem freezeProperties_spec {bound : ℕ}
    {visit : PropertyValue Ref → Freezing Ref → Option (Freezing Ref)}
    (hvisit : Visits before root bound visit) {ref : Ref} {keys : List PropertyKey}
    (hkeys : ∀ key ∈ keys, key ∈ (before ref).properties.keys) {state : Freezing Ref}
    (h : FreezingFrom before root state) (href : ReflTransGen (Enters before) root ref)
    (hbound : state.remaining < bound) :
    ∃ next, freezeProperties visit ref keys state = some next ∧ FreezingFrom before root next ∧
      Finishes before state next ∧ ∀ key ∈ keys, ∀ child, (before ref).value key = .object child →
        (before child).isFrozen = false → child ∈ next.seen := by
  induction keys generalizing state with
  | nil => exact ⟨state, rfl, h, .refl state, by simp⟩
  | cons key keys ih =>
      obtain ⟨hkey, hkeys⟩ := List.forall_mem_cons.mp hkeys
      obtain ⟨middle, hmiddle, hfrom, hfinishes, hseen⟩ :=
        freezeProperty_spec hvisit hkey h href hbound
      obtain ⟨next, hnext, hfrom', hfinishes', hseen'⟩ :=
        ih hkeys hfrom (hfinishes.remaining_le.trans_lt hbound)
      refine ⟨next, ?_, hfrom', hfinishes.trans hfinishes', List.forall_mem_cons.mpr ⟨?_, hseen'⟩⟩
      · rw [freezeProperties, hmiddle]
        exact hnext
      · exact fun child hvalue hfrozen ↦ hfinishes'.seen (hseen child hvalue hfrozen)

/-- Every call is correct that may still go as deep as there are unseen objects. -/
theorem visits_deepFreezeWithin (bound : ℕ) :
    Visits before root bound (deepFreezeWithin bound) := by
  induction bound with
  | zero => exact fun _ _ _ _ hbound ↦ absurd hbound (Nat.not_lt_zero _)
  | succ bound ih =>
      intro state ref h href hbound
      by_cases hseen : ref ∈ state.seen
      · exact ⟨state, by simp [deepFreezeWithin, hseen], h, .refl state, hseen⟩
      · have hremaining := Freezing.remaining_see_lt hseen
        obtain ⟨visited, hvisited, hfrom, hfinishes, hchildren⟩ :=
          freezeProperties_spec ih (fun _ ↦ id) (h.see href) href (by omega)
        have hvisitedRef : ref ∈ visited.seen := hfinishes.seen (.head _)
        refine ⟨visited.freeze ref, ?_, hfrom.freeze hvisitedRef, .freeze hfrom hfinishes ?_,
          hvisitedRef⟩
        · have hkeys := (h.see href).keys_eq ref
          simp only [deepFreezeWithin, List.contains_eq_mem, decide_eq_true_eq, hseen, if_false,
            hkeys, hvisited]
          rfl
        · rintro child ⟨⟨key, hkey, hvalue⟩, hfrozen⟩
          exact hchildren key hkey child hvalue hfrozen

/-! ## What `deepFreeze` does -/

/-- `deepFreeze` terminates and freezes exactly the objects that its recursion can enter. -/
theorem deepFreeze_object (before : ObjectGraph Ref) (root : Ref) :
    ∃ after, deepFreeze before (.object root) = some (.object root, after) ∧
      (∀ a, ReflTransGen (Enters before) root a → after a = (before a).freeze) ∧
      ∀ a, ¬ReflTransGen (Enters before) root a → after a = before a := by
  have hstart : FreezingFrom before root { graph := before, seen := [] } :=
    ⟨fun _ ↦ .inl rfl, by simp⟩
  obtain ⟨state, hstate, hfrom, hfinishes, hroot⟩ :=
    visits_deepFreezeWithin (Fintype.card Ref + 1) _ root hstart .refl
      (Nat.lt_succ_of_le (Finset.card_le_univ _))
  have hseen : ∀ a, ReflTransGen (Enters before) root a → a ∈ state.seen := by
    intro a ha
    induction ha with
    | refl => exact hroot
    | tail _ hab ih => exact hfinishes.closed ih (by simp) hab
  refine ⟨state.graph, by simp [deepFreeze, hstate], fun a ha ↦ ?_, fun a ha ↦ ?_⟩
  · exact hfinishes.frozen (hseen a ha) (by simp)
  · exact (hfrom.graph a).resolve_right fun ⟨h, _⟩ ↦ ha (hfrom.entered a h)

omit [DecidableEq Ref] [Fintype Ref] in
/-- The recursion enters only what the root refers to, however indirectly. -/
theorem reaches_of_enters {a : Ref} (h : ReflTransGen (Enters before) root a) :
    ReflTransGen (Refers before) root a := by
  induction h with
  | refl => exact .refl
  | tail _ henters ih => exact ih.tail henters.1

/-- `deepFreeze` terminates, changes no references and nothing that the root does not reach, and
whatever the root reaches is frozen afterwards exactly when all of it was frozen before or can be
reached through objects that were not. -/
theorem deepFreeze_reachable_iff (before : ObjectGraph Ref) (root : Ref) :
    ∃ after, deepFreeze before (.object root) = some (.object root, after) ∧
      (∀ a b, Refers after a b ↔ Refers before a b) ∧
      (∀ a, ¬ReflTransGen (Refers before) root a → after a = before a) ∧
      ((∀ a, ReflTransGen (Refers before) root a → (after a).isFrozen = true) ↔
        ∀ a, ReflTransGen (Refers before) root a →
          (before a).isFrozen = true ∨ ReflTransGen (Enters before) root a) := by
  obtain ⟨after, hafter, hentered, hkept⟩ := deepFreeze_object before root
  refine ⟨after, hafter, fun a b ↦ ?_, fun a ha ↦ hkept a (mt reaches_of_enters ha), ?_⟩
  · by_cases ha : ReflTransGen (Enters before) root a
    · simp [Refers, hentered a ha]
    · simp [Refers, hkept a ha]
  · refine forall₂_congr fun a _ ↦ ?_
    by_cases ha : ReflTransGen (Enters before) root a
    · simp [hentered a ha, ha]
    · simp [hkept a ha, ha]

/-! ## An object that was frozen on its own -/

/-- The objects of a configuration. -/
inductive ConfigPart where
  | config
  | defaults
  | limits
deriving DecidableEq

theorem ConfigPart.mem_parts (part : ConfigPart) : part ∈ [config, defaults, limits] := by
  cases part <;> decide

instance : Fintype ConfigPart := .ofList _ ConfigPart.mem_parts

/-- An object with one property. -/
def plainObject (key : String) (value : PropertyValue Ref) : PlainObject Ref where
  properties := .set .empty (.string key.toList) { value, writable := true, configurable := true }
  extensible := true

/-- The defaults were frozen, but not the limits that they refer to. -/
def configGraph : ObjectGraph ConfigPart
  | .config => plainObject "defaults" (.object .defaults)
  | .defaults => (plainObject "limits" (.object .limits)).freeze
  | .limits => plainObject "size" .other

/-- The limits of the configuration can still be changed. -/
theorem deepFreeze_configGraph :
    ReflTransGen (Refers configGraph) .config .limits ∧
      ∃ after, deepFreeze configGraph (.object .config) = some (.object .config, after) ∧
        (after .limits).isFrozen = false := by
  have hdefaults : Refers configGraph .config .defaults :=
    ⟨.string "defaults".toList, by decide, by decide⟩
  have hlimits : Refers configGraph .defaults .limits :=
    ⟨.string "limits".toList, by decide, by decide⟩
  exact ⟨.tail (.single hdefaults) hlimits, _, rfl, by decide⟩

end CoreUtils.UtilTs
