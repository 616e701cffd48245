import Mathlib.Data.List.Nodup
import Mathlib.Algebra.BigOperators.Group.List.Basic
import Mathlib.Algebra.GroupWithZero.Nat
import Mathlib.Data.List.Sort
import Mathlib.Tactic.Common

/-!
# Insertion-ordered maps and sets

A finite map that remembers the order in which its keys were first inserted, as the `Map` of
ECMAScript does: overwriting a key keeps its position, deleting it forgets the position. The
distinctness of the keys is a field, so a map with a duplicated key cannot be built. Every
operation is described by what it does to `get`, to `size`, and to sums over the entries
(`total`), and proofs about programs that use these maps need nothing else.
-/

namespace CoreUtils

/-- An insertion-ordered map: its entries in iteration order, with distinct keys. -/
structure OrderedMap (κ ν : Type*) where
  entries : List (κ × ν)
  nodup : (entries.map Prod.fst).Nodup

namespace OrderedMap

variable {κ ν : Type*}

/-- The map with no entries. -/
def empty : OrderedMap κ ν := ⟨[], List.nodup_nil⟩

/-- The keys in iteration order. -/
def keys (m : OrderedMap κ ν) : List κ := m.entries.map Prod.fst

/-- The values in iteration order. -/
def values (m : OrderedMap κ ν) : List ν := m.entries.map Prod.snd

/-- The number of entries. -/
def size (m : OrderedMap κ ν) : ℕ := m.entries.length

/-- The sum of a weight over all entries. -/
def total (weight : κ → ν → ℕ) (m : OrderedMap κ ν) : ℕ :=
  (m.entries.map fun entry ↦ weight entry.1 entry.2).sum

variable [DecidableEq κ]

/-- The value stored under a key. -/
def get (m : OrderedMap κ ν) (key : κ) : Option ν := m.entries.lookup key

/-- Whether a key is present. -/
def has (m : OrderedMap κ ν) (key : κ) : Bool := (m.get key).isSome

/-- Apply a function to the value under a key, in place. An absent key changes nothing. -/
def modify (m : OrderedMap κ ν) (key : κ) (f : ν → ν) : OrderedMap κ ν where
  entries := m.entries.map fun entry ↦ if entry.1 = key then (entry.1, f entry.2) else entry
  nodup := by
    have hkeys : (Prod.fst ∘ fun entry : κ × ν ↦
        if entry.1 = key then (entry.1, f entry.2) else entry) = Prod.fst := by
      funext entry
      by_cases h : entry.1 = key <;> simp [h]
    simpa only [List.map_map, hkeys] using m.nodup

/-- A key without a value is not the key of any entry. -/
theorem not_mem_keys {m : OrderedMap κ ν} {key : κ} (h : m.get key = none) :
    key ∉ m.entries.map Prod.fst := by
  intro hmem
  obtain ⟨entry, hentry, rfl⟩ := List.mem_map.mp hmem
  have := List.lookup_eq_none_iff.mp h entry hentry
  simp at this

/-- Store a value: an existing key keeps its position, a new key goes to the end. -/
def set (m : OrderedMap κ ν) (key : κ) (value : ν) : OrderedMap κ ν :=
  if h : m.get key = none then
    { entries := m.entries ++ [(key, value)]
      nodup := by
        rw [List.map_append, List.nodup_append]
        refine ⟨m.nodup, by simp, ?_⟩
        rintro k hk _ hlast rfl
        simp only [List.map_cons, List.map_nil, List.mem_singleton] at hlast
        exact not_mem_keys h (hlast ▸ hk) }
  else m.modify key fun _ ↦ value

/-- Storing under a new key appends an entry. -/
theorem entries_set_of_get_none {m : OrderedMap κ ν} {key : κ} (h : m.get key = none) (value : ν) :
    (m.set key value).entries = m.entries ++ [(key, value)] := by
  rw [set, dif_pos h]

/-- Remove a key. -/
def delete (m : OrderedMap κ ν) (key : κ) : OrderedMap κ ν where
  entries := m.entries.filter fun entry ↦ entry.1 ≠ key
  nodup := m.nodup.sublist ((List.filter_sublist).map _)

/-- Apply a function to every entry. -/
def mapWithKey {μ : Type*} (m : OrderedMap κ ν) (f : κ → ν → μ) : OrderedMap κ μ where
  entries := m.entries.map fun entry ↦ (entry.1, f entry.1 entry.2)
  nodup := by simpa only [List.map_map, Function.comp_def] using m.nodup

/-- Apply a function to every value. -/
def mapValues {μ : Type*} (m : OrderedMap κ ν) (f : ν → μ) : OrderedMap κ μ :=
  m.mapWithKey fun _ ↦ f

/-- Put the entries in another order, keeping the order of entries that compare equal. -/
def sortBy (le : κ × ν → κ × ν → Prop) [DecidableRel le] (m : OrderedMap κ ν) :
    OrderedMap κ ν where
  entries := m.entries.insertionSort le
  nodup := (((List.perm_insertionSort le m.entries).map _).nodup_iff).mpr m.nodup

/-! ## Lookup -/

/-- The entries are exactly the graph of `get`. -/
theorem mem_entries {m : OrderedMap κ ν} {key : κ} {value : ν} :
    (key, value) ∈ m.entries ↔ m.get key = some value := by
  rcases m with ⟨entries, hnodup⟩
  show (key, value) ∈ entries ↔ entries.lookup key = some value
  induction entries with
  | nil => simp
  | cons entry rest ih =>
      rcases entry with ⟨other, stored⟩
      rw [List.map_cons, List.nodup_cons] at hnodup
      rw [List.lookup_cons]
      by_cases h : key = other
      · subst other
        have hrest : (key, value) ∉ rest := fun hmem ↦
          hnodup.1 (List.mem_map.mpr ⟨_, hmem, rfl⟩)
        simp [hrest, eq_comm]
      · have hbeq : (key == other) = false := by simpa using h
        simp [h, hbeq, ih hnodup.2]

/-- A value found under a key belongs to the entries. -/
theorem mem_of_get {m : OrderedMap κ ν} {key : κ} {value : ν} (h : m.get key = some value) :
    (key, value) ∈ m.entries :=
  mem_entries.mpr h

/-- The keys are those with a value. -/
theorem mem_keys {m : OrderedMap κ ν} {key : κ} :
    key ∈ m.keys ↔ ∃ value, m.get key = some value := by
  simp only [keys, List.mem_map, Prod.exists, exists_and_right, exists_eq_right, mem_entries]

/-- The values are those found under some key. -/
theorem mem_values {m : OrderedMap κ ν} {value : ν} :
    value ∈ m.values ↔ ∃ key, m.get key = some value := by
  simp only [values, List.mem_map, Prod.exists, exists_eq_right, mem_entries]

@[simp] theorem has_eq (m : OrderedMap κ ν) (key : κ) : m.has key = (m.get key).isSome := rfl

@[simp] theorem get_empty (key : κ) : (empty : OrderedMap κ ν).get key = none := rfl

@[simp] theorem get_modify (m : OrderedMap κ ν) (key other : κ) (f : ν → ν) :
    (m.modify key f).get other = if other = key then (m.get other).map f else m.get other := by
  refine Option.ext fun value ↦ ?_
  rw [← mem_entries]
  simp only [modify, List.mem_map, Prod.exists]
  constructor
  · rintro ⟨k, v, hmem, heq⟩
    by_cases hk : k = key
    · simp only [hk, if_true, Prod.mk.injEq] at heq
      obtain ⟨rfl, rfl⟩ := heq
      subst hk
      simp [mem_entries.mp hmem]
    · simp only [hk, if_false, Prod.mk.injEq] at heq
      obtain ⟨rfl, rfl⟩ := heq
      simp [hk, mem_entries.mp hmem]
  · by_cases ho : other = key
    · subst ho
      simp only [if_true, Option.map_eq_some_iff]
      rintro ⟨v, hv, rfl⟩
      exact ⟨other, v, mem_entries.mpr hv, by simp⟩
    · simp only [ho, if_false]
      intro h
      exact ⟨other, value, mem_entries.mpr h, by simp [ho]⟩

/-- The value under a changed key. -/
theorem get_modify_self {m : OrderedMap κ ν} {key : κ} {value : ν} (h : m.get key = some value)
    (f : ν → ν) : (m.modify key f).get key = some (f value) := by
  simp [h]

@[simp] theorem get_set (m : OrderedMap κ ν) (key other : κ) (value : ν) :
    (m.set key value).get other = if other = key then some value else m.get other := by
  by_cases h : m.get key = none
  · rw [set, dif_pos h]
    show (m.entries ++ [(key, value)]).lookup other = _
    rw [List.lookup_append, List.lookup_cons, List.lookup_nil]
    by_cases ho : other = key
    · subst ho
      have hnone : m.entries.lookup other = none := h
      simp [hnone]
    · have hbeq : (other == key) = false := by simpa using ho
      simp [ho, hbeq, get]
  · rw [set, dif_neg h, get_modify]
    by_cases ho : other = key
    · subst ho
      obtain ⟨stored, hstored⟩ := Option.ne_none_iff_exists'.mp h
      simp [hstored]
    · simp [ho]

/-- Storing the entries of a list that a condition selects, whose keys are new and distinct, adds
these entries at the end. -/
theorem entries_foldl_set (p : κ × ν → Prop) [DecidablePred p] {entries : List (κ × ν)}
    (hnodup : (entries.map Prod.fst).Nodup) {m : OrderedMap κ ν}
    (hnew : ∀ entry ∈ entries, m.get entry.1 = none) :
    (entries.foldl (fun m entry ↦ if p entry then m.set entry.1 entry.2 else m) m).entries =
      m.entries ++ entries.filter p := by
  induction entries generalizing m with
  | nil => simp
  | cons entry rest ih =>
      rw [List.map_cons, List.nodup_cons] at hnodup
      have hrest : ∀ other ∈ rest, m.get other.1 = none := fun other hother ↦
        hnew other (List.mem_cons_of_mem _ hother)
      have hentry := hnew entry List.mem_cons_self
      rw [List.foldl_cons]
      by_cases hselected : p entry
      · have hset : ∀ other ∈ rest, (m.set entry.1 entry.2).get other.1 = none := by
          intro other hother
          have hne : other.1 ≠ entry.1 := fun heq ↦
            hnodup.1 (heq ▸ List.mem_map_of_mem (f := Prod.fst) hother)
          rw [get_set, if_neg hne]
          exact hrest other hother
        rw [if_pos hselected, ih hnodup.2 hset, entries_set_of_get_none hentry,
          List.filter_cons_of_pos (by simpa using hselected), List.append_assoc]
        rfl
      · rw [if_neg hselected, ih hnodup.2 hrest,
          List.filter_cons_of_neg (by simpa using hselected)]

/-- A map whose entries are stored over another one shadows it. -/
theorem get_foldl_set (base extra : OrderedMap κ ν) (key : κ) :
    (extra.entries.foldl (fun stored entry ↦ stored.set entry.1 entry.2) base).get key =
      (extra.get key).or (base.get key) := by
  obtain ⟨entries, hnodup⟩ := extra
  show _ = (entries.lookup key).or (base.get key)
  simp only
  induction entries generalizing base with
  | nil => rfl
  | cons entry rest ih =>
      obtain ⟨stored, value⟩ := entry
      rw [List.map_cons, List.nodup_cons] at hnodup
      rw [List.foldl_cons, ih _ hnodup.2, get_set, List.lookup_cons]
      by_cases hkey : key = stored
      · subst hkey
        have hnone : rest.lookup key = none := by
          rw [List.lookup_eq_none_iff]
          intro other hother
          have hne : key ≠ other.1 := fun hsame ↦
            hnodup.1 (List.mem_map.mpr ⟨other, hother, hsame.symm⟩)
          simpa using hne
        simp [hnone]
      · have hne : (key == stored) = false := by simpa using hkey
        rw [if_neg hkey, hne]

/-- Changing the value of an absent key changes nothing. -/
theorem modify_of_get_none {m : OrderedMap κ ν} {key : κ} (h : m.get key = none) (f : ν → ν) :
    m.modify key f = m := by
  rcases m with ⟨entries, hnodup⟩
  have hkeep : (entries.map fun entry ↦ if entry.1 = key then (entry.1, f entry.2) else entry) =
      entries := by
    conv_rhs => rw [← List.map_id entries]
    refine List.map_congr_left fun entry hentry ↦ ?_
    have hne : key ≠ entry.1 := by simpa using List.lookup_eq_none_iff.mp h entry hentry
    simp [hne.symm]
  simp only [modify, mk.injEq]
  exact hkeep

@[simp] theorem modify_id (m : OrderedMap κ ν) (key : κ) : m.modify key id = m := by
  rcases m with ⟨entries, hnodup⟩
  simp [modify]

@[simp] theorem modify_modify (m : OrderedMap κ ν) (key : κ) (f g : ν → ν) :
    (m.modify key f).modify key g = m.modify key (g ∘ f) := by
  simp only [modify, List.map_map, mk.injEq]
  refine List.map_congr_left fun entry _ ↦ ?_
  by_cases h : entry.1 = key <;> simp [h]

@[simp] theorem keys_modify (m : OrderedMap κ ν) (key : κ) (f : ν → ν) :
    (m.modify key f).keys = m.keys := by
  simp only [keys, modify, List.map_map]
  refine List.map_congr_left fun entry _ ↦ ?_
  by_cases h : entry.1 = key <;> simp [h]

@[simp] theorem get_mapWithKey {μ : Type*} (m : OrderedMap κ ν) (f : κ → ν → μ) (key : κ) :
    (m.mapWithKey f).get key = (m.get key).map (f key) := by
  refine Option.ext fun value ↦ ?_
  rw [← mem_entries, Option.map_eq_some_iff]
  simp only [mapWithKey, List.mem_map, Prod.mk.injEq, Prod.exists]
  constructor
  · rintro ⟨k, v, hmem, rfl, rfl⟩
    exact ⟨v, mem_entries.mp hmem, rfl⟩
  · rintro ⟨v, hv, rfl⟩
    exact ⟨key, v, mem_of_get hv, rfl, rfl⟩

@[simp] theorem get_mapValues {μ : Type*} (m : OrderedMap κ ν) (f : ν → μ) (key : κ) :
    (m.mapValues f).get key = (m.get key).map f :=
  get_mapWithKey m _ key

@[simp] theorem get_sortBy (m : OrderedMap κ ν) (le : κ × ν → κ × ν → Prop) [DecidableRel le]
    (key : κ) : (m.sortBy le).get key = m.get key := by
  refine Option.ext fun value ↦ ?_
  rw [← mem_entries, ← mem_entries]
  exact (List.perm_insertionSort le m.entries).mem_iff

/-- Storing under an existing key replaces its value in place. -/
theorem set_eq_modify {m : OrderedMap κ ν} {key : κ} {stored : ν} (h : m.get key = some stored)
    (value : ν) : m.set key value = m.modify key fun _ ↦ value := by
  rw [set, dif_neg (by simp [h])]

/-- Storing under a new key puts the key last. -/
theorem keys_set_of_get_none {m : OrderedMap κ ν} {key : κ} (h : m.get key = none) (value : ν) :
    (m.set key value).keys = m.keys ++ [key] := by
  rw [keys, entries_set_of_get_none h, List.map_append]
  rfl

/-- Storing under an existing key keeps the keys. -/
theorem keys_set_of_get_some {m : OrderedMap κ ν} {key : κ} {stored : ν}
    (h : m.get key = some stored)
    (value : ν) : (m.set key value).keys = m.keys := by
  rw [set_eq_modify h, keys_modify]

@[simp] theorem get_delete (m : OrderedMap κ ν) (key other : κ) :
    (m.delete key).get other = if other = key then none else m.get other := by
  refine Option.ext fun value ↦ ?_
  rw [← mem_entries]
  by_cases ho : other = key <;> simp [delete, List.mem_filter, ho, mem_entries]

/-- What is left after deleting a key was there before. -/
theorem get_of_get_delete {m : OrderedMap κ ν} {key other : κ} {value : ν}
    (h : (m.delete key).get other = some value) : m.get other = some value := by
  rw [get_delete] at h
  split at h
  · exact absurd h (by simp)
  · exact h

/-! ## Values that carry their key -/

section

variable {m : OrderedMap κ ν} {keyOf : ν → κ}

/-- The keys that the values carry are the keys of the map. -/
theorem map_values (h : ∀ {key value}, m.get key = some value → keyOf value = key) :
    m.values.map keyOf = m.keys := by
  rw [values, keys, List.map_map]
  exact List.map_congr_left fun entry hentry ↦ h (mem_entries.mp hentry)

/-- A value is stored under the key it carries. -/
theorem get_of_mem_values (h : ∀ {key value}, m.get key = some value → keyOf value = key)
    {value : ν} (hvalue : value ∈ m.values) : m.get (keyOf value) = some value := by
  obtain ⟨key, hget⟩ := mem_values.mp hvalue
  rwa [h hget]

/-- Values that carry the same key are the same. -/
theorem eq_of_mem_values (h : ∀ {key value}, m.get key = some value → keyOf value = key)
    {value other : ν} (hvalue : value ∈ m.values) (hother : other ∈ m.values)
    (heq : keyOf value = keyOf other) : value = other := by
  have hget := get_of_mem_values h hvalue
  rw [heq, get_of_mem_values h hother] at hget
  exact (Option.some.inj hget).symm

end

/-! ## Sums over the entries -/

omit [DecidableEq κ] in
@[simp] theorem total_empty (weight : κ → ν → ℕ) : (empty : OrderedMap κ ν).total weight = 0 := rfl

/-- A sum over the entries as a sum over the keys. -/
theorem total_eq_sum_keys (weight : κ → ν → ℕ) (m : OrderedMap κ ν) :
    m.total weight = (m.keys.map fun key ↦ (m.get key).elim 0 (weight key)).sum := by
  rw [total, keys, List.map_map]
  congr 1
  refine List.map_congr_left fun entry hentry ↦ ?_
  simp [mem_entries.mp hentry]

/-- Two maps with the same keys have the same sum when their entries weigh the same. -/
theorem total_congr {weight : κ → ν → ℕ} {m m' : OrderedMap κ ν} (hkeys : m'.keys = m.keys)
    (h : ∀ {key value'}, m'.get key = some value' →
      ∃ value, m.get key = some value ∧ weight key value' = weight key value) :
    m'.total weight = m.total weight := by
  rw [total_eq_sum_keys, total_eq_sum_keys, hkeys]
  congr 1
  refine List.map_congr_left fun key hkey ↦ ?_
  obtain ⟨value', hvalue'⟩ := mem_keys.mp (hkeys ▸ hkey)
  obtain ⟨value, hvalue, heq⟩ := h hvalue'
  simp [hvalue, hvalue', heq]

omit [DecidableEq κ] in
/-- A sum over the values. -/
theorem total_values (weight : ν → ℕ) (m : OrderedMap κ ν) :
    m.total (fun _ value ↦ weight value) = (m.values.map weight).sum := by
  simp [total, values, Function.comp_def]

omit [DecidableEq κ] in
/-- The number of values that satisfy a predicate, as a sum. -/
theorem countP_values (p : ν → Bool) (m : OrderedMap κ ν) :
    m.values.countP p = m.total fun _ value ↦ if p value then 1 else 0 := by
  rw [total_values fun value ↦ if p value then 1 else 0]
  induction m.values with
  | nil => rfl
  | cons value rest ih =>
      rw [List.countP_cons, List.map_cons, List.sum_cons, ih, Nat.add_comm]

omit [DecidableEq κ] in
/-- The order of the entries does not matter for a sum. -/
@[simp] theorem total_sortBy (weight : κ → ν → ℕ) (m : OrderedMap κ ν)
    (le : κ × ν → κ × ν → Prop) [DecidableRel le] :
    (m.sortBy le).total weight = m.total weight :=
  ((List.perm_insertionSort le m.entries).map _).sum_eq

/-- Storing under a new key adds the weight of the new entry. -/
theorem total_set_of_get_none {m : OrderedMap κ ν} {key : κ} (h : m.get key = none)
    (weight : κ → ν → ℕ) (value : ν) :
    (m.set key value).total weight = m.total weight + weight key value := by
  rw [set, dif_pos h]
  simp [total]

/-- The weight of a present entry is what deleting it takes away. -/
theorem total_delete {m : OrderedMap κ ν} {key : κ} {value : ν} (h : m.get key = some value)
    (weight : κ → ν → ℕ) :
    (m.delete key).total weight + weight key value = m.total weight := by
  rcases m with ⟨entries, hnodup⟩
  replace h : entries.lookup key = some value := h
  show ((entries.filter fun entry ↦ entry.1 ≠ key).map fun e ↦ weight e.1 e.2).sum +
    weight key value = (entries.map fun e ↦ weight e.1 e.2).sum
  induction entries with
  | nil => simp at h
  | cons entry rest ih =>
      rcases entry with ⟨other, stored⟩
      rw [List.map_cons, List.nodup_cons] at hnodup
      by_cases ho : other = key
      · subst ho
        have hstored : stored = value := by simpa [List.lookup_cons] using h
        have hrest : rest.filter (fun entry ↦ entry.1 ≠ other) = rest := by
          rw [List.filter_eq_self]
          intro entry hentry
          have : entry.1 ≠ other := fun heq ↦
            hnodup.1 (List.mem_map.mpr ⟨entry, hentry, heq⟩)
          simpa using this
        rw [List.filter_cons_of_neg (by simp), hrest, hstored, List.map_cons, List.sum_cons,
          Nat.add_comm]
      · have hbeq : (key == other) = false := by simpa using Ne.symm ho
        have hlookup : rest.lookup key = some value := by simpa [List.lookup_cons, hbeq] using h
        rw [List.filter_cons_of_pos (by simpa using ho), List.map_cons, List.sum_cons,
          List.map_cons, List.sum_cons, Nat.add_assoc, ih hnodup.2 hlookup]

/-- Changing a present value changes the sum by the difference of the weights. -/
theorem total_modify {m : OrderedMap κ ν} {key : κ} {value : ν} (h : m.get key = some value)
    (weight : κ → ν → ℕ) (f : ν → ν) :
    (m.modify key f).total weight + weight key value =
      m.total weight + weight key (f value) := by
  rcases m with ⟨entries, hnodup⟩
  replace h : entries.lookup key = some value := h
  show ((entries.map fun e ↦ if e.1 = key then (e.1, f e.2) else e).map
      fun e ↦ weight e.1 e.2).sum + weight key value =
    (entries.map fun e ↦ weight e.1 e.2).sum + weight key (f value)
  induction entries with
  | nil => simp at h
  | cons entry rest ih =>
      rcases entry with ⟨other, stored⟩
      rw [List.map_cons, List.nodup_cons] at hnodup
      by_cases ho : other = key
      · subst ho
        have hstored : stored = value := by simpa [List.lookup_cons] using h
        have hrest : rest.map (fun e ↦ if e.1 = other then (e.1, f e.2) else e) = rest := by
          conv_rhs => rw [← List.map_id rest]
          refine List.map_congr_left fun entry hentry ↦ ?_
          have : entry.1 ≠ other := fun heq ↦
            hnodup.1 (List.mem_map.mpr ⟨entry, hentry, heq⟩)
          simp [this]
        simp only [List.map_cons, List.sum_cons, hrest, if_true, hstored]
        omega
      · have hbeq : (key == other) = false := by simpa using Ne.symm ho
        have hlookup : rest.lookup key = some value := by simpa [List.lookup_cons, hbeq] using h
        have hrec := ih hnodup.2 hlookup
        simp only [List.map_cons, List.sum_cons, ho, if_false]
        omega

/-- Replacing a present value changes the sum by the difference of the weights. -/
theorem total_set_of_get_some {m : OrderedMap κ ν} {key : κ} {stored : ν}
    (h : m.get key = some stored) (weight : κ → ν → ℕ) (value : ν) :
    (m.set key value).total weight + weight key stored = m.total weight + weight key value := by
  rw [set_eq_modify h]
  exact total_modify h weight _

/-! ## Size -/

omit [DecidableEq κ] in
theorem size_eq_total (m : OrderedMap κ ν) : m.size = m.total fun _ _ ↦ 1 := by
  simp [size, total]

@[simp] theorem size_modify (m : OrderedMap κ ν) (key : κ) (f : ν → ν) :
    (m.modify key f).size = m.size := by
  simp [size, modify]

omit [DecidableEq κ] in
@[simp] theorem size_mapValues {μ : Type*} (m : OrderedMap κ ν) (f : ν → μ) :
    (m.mapValues f).size = m.size := by
  simp [size, mapValues, mapWithKey]

omit [DecidableEq κ] in
/-- A sum of zeros and ones is at most the number of entries. -/
theorem total_le_size (m : OrderedMap κ ν) {weight : κ → ν → ℕ}
    (h : ∀ key value, weight key value ≤ 1) : m.total weight ≤ m.size := by
  rcases m with ⟨entries, hnodup⟩
  show (entries.map fun entry ↦ weight entry.1 entry.2).sum ≤ entries.length
  clear hnodup
  induction entries with
  | nil => simp
  | cons entry rest ih =>
      rw [List.map_cons, List.sum_cons, List.length_cons, Nat.add_comm rest.length]
      exact Nat.add_le_add (h entry.1 entry.2) ih

/-- Storing under a new key adds one entry. -/
theorem size_set_of_get_none {m : OrderedMap κ ν} {key : κ} (h : m.get key = none) (value : ν) :
    (m.set key value).size = m.size + 1 := by
  simp only [size_eq_total, total_set_of_get_none h]

/-- Deleting a present key removes one entry. -/
theorem size_delete {m : OrderedMap κ ν} {key : κ} {value : ν} (h : m.get key = some value) :
    (m.delete key).size + 1 = m.size := by
  simpa only [size_eq_total] using total_delete h fun _ _ ↦ 1

/-- A set of the keys whose values satisfy a predicate counts these values. -/
theorem size_eq_countP {m : OrderedMap κ ν} {s : OrderedMap κ Unit} {p : ν → Bool}
    (h : ∀ key, s.get key = some () ↔ ∃ value, m.get key = some value ∧ p value = true) :
    s.size = m.values.countP p := by
  have hperm : s.keys.Perm ((m.entries.filter fun entry ↦ p entry.2).map Prod.fst) := by
    refine (List.perm_ext_iff_of_nodup s.nodup ?_).mpr fun key ↦ ?_
    · exact m.nodup.sublist ((List.filter_sublist).map _)
    · simp only [List.mem_map, List.mem_filter, Prod.exists, exists_and_right, exists_eq_right,
        mem_entries]
      rw [← h key]
      exact ⟨fun ⟨_, hu⟩ ↦ hu, fun hu ↦ ⟨(), hu⟩⟩
  have hlength := hperm.length_eq
  rw [keys, List.length_map, List.length_map] at hlength
  rw [values, List.countP_map, List.countP_eq_length_filter]
  exact hlength

/-- Maps with the same keys have the same size. -/
theorem size_congr {μ : Type*} {m : OrderedMap κ ν} {m' : OrderedMap κ μ}
    (h : ∀ key, (m.get key).isSome = (m'.get key).isSome) : m.size = m'.size := by
  have hmem : ∀ key, key ∈ m.keys ↔ key ∈ m'.keys := by
    intro key
    rw [mem_keys, mem_keys, ← Option.isSome_iff_exists, ← Option.isSome_iff_exists, h]
  have hperm : m.keys.Perm m'.keys := (List.perm_ext_iff_of_nodup m.nodup m'.nodup).mpr hmem
  simpa [keys, size] using hperm.length_eq

/-- Deleting never adds an entry. -/
theorem size_delete_le (m : OrderedMap κ ν) (key : κ) : (m.delete key).size ≤ m.size :=
  List.length_filter_le _ _

/-- A map with an entry has positive size. -/
theorem size_pos {m : OrderedMap κ ν} {key : κ} {value : ν} (h : m.get key = some value) :
    0 < m.size := by
  have := size_delete h
  omega

/-- A map of positive size has an entry. -/
theorem exists_get_of_size_pos {m : OrderedMap κ ν} (h : 0 < m.size) :
    ∃ key value, m.get key = some value := by
  obtain ⟨entry, hentry⟩ := List.exists_mem_of_length_pos h
  exact ⟨entry.1, entry.2, mem_entries.mp hentry⟩

end OrderedMap

/-- An insertion-ordered set: a map whose values carry no information. -/
abbrev OrderedSet (α : Type*) := OrderedMap α Unit

namespace OrderedSet

variable {α : Type*} [DecidableEq α]

/-- Add an element at the end; a present element keeps its position. -/
def add (s : OrderedSet α) (a : α) : OrderedSet α := s.set a ()

@[simp] theorem get_add (s : OrderedSet α) (a b : α) :
    (s.add a).get b = if b = a then some () else s.get b :=
  OrderedMap.get_set s a b ()

/-- The elements of a set after another one has been added. -/
theorem mem_keys_add {s : OrderedSet α} {a b : α} :
    b ∈ OrderedMap.keys (s.add a) ↔ b ∈ OrderedMap.keys s ∨ b = a := by
  rw [OrderedMap.mem_keys, OrderedMap.mem_keys]
  simp only [get_add]
  by_cases hsame : b = a
  · simp [hsame]
  · simp [hsame]

/-- The set of the elements of a list, in the order of their first occurrences. -/
def ofList (elements : List α) : OrderedSet α := elements.foldl add OrderedMap.empty

/-- The elements of `ofList` are those of the list. -/
theorem mem_keys_ofList {elements : List α} {a : α} :
    a ∈ OrderedMap.keys (ofList elements) ↔ a ∈ elements := by
  have hfold : ∀ s : OrderedSet α,
      a ∈ OrderedMap.keys (elements.foldl add s) ↔ a ∈ OrderedMap.keys s ∨ a ∈ elements := by
    induction elements with
    | nil => simp
    | cons b rest ih =>
        intro s
        rw [List.foldl_cons, ih, mem_keys_add, List.mem_cons, or_assoc]
  have hempty : a ∉ OrderedMap.keys (OrderedMap.empty : OrderedSet α) := by
    simp [OrderedMap.empty, OrderedMap.keys]
  exact (hfold OrderedMap.empty).trans (or_iff_right hempty)

/-- The elements of a list without duplicates are kept in order. -/
theorem keys_ofList {elements : List α} (h : elements.Nodup) :
    OrderedMap.keys (ofList elements) = elements := by
  have hfold : ∀ s : OrderedSet α, (∀ a ∈ elements, a ∉ OrderedMap.keys s) →
      OrderedMap.keys (elements.foldl add s) = OrderedMap.keys s ++ elements := by
    induction elements with
    | nil => simp
    | cons a rest ih =>
        intro s hnew
        rw [List.nodup_cons] at h
        have hnone : s.get a = none := by
          by_contra hsome
          obtain ⟨value, hvalue⟩ := Option.ne_none_iff_exists'.mp hsome
          exact hnew a List.mem_cons_self (OrderedMap.mem_keys.mpr ⟨value, hvalue⟩)
        rw [List.foldl_cons, ih h.2, add, OrderedMap.keys_set_of_get_none hnone, List.append_assoc]
        · rfl
        · intro b hb hmem
          rcases mem_keys_add.mp hmem with hold | rfl
          · exact hnew b (List.mem_cons_of_mem _ hb) hold
          · exact h.1 hb
  exact hfold OrderedMap.empty (by simp [OrderedMap.empty, OrderedMap.keys])

end OrderedSet

end CoreUtils
