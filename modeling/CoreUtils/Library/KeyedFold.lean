import CoreUtils.Library.OrderedMap
import Mathlib.Data.List.Induction

/-!
# Records accumulated under keys

Events arrive one after the other, each under a key, and are folded into one record for each key
in an insertion-ordered map. The result is that of sorting the events by their keys first: the keys
stand in the order of their first events, and the record under a key is the fold of the events
under that key alone.
-/

namespace CoreUtils.KeyedFold

variable {κ ε ν : Type*} [DecidableEq κ] (start : κ → ν) (apply : ν → ε → ν)

/-- Apply an event to the record under its key, which is started if there is none. -/
def enter (records : OrderedMap κ ν) (event : κ × ε) : OrderedMap κ ν :=
  records.set event.1 (apply ((records.get event.1).getD (start event.1)) event.2)

/-- The records after a list of events. -/
def run (events : List (κ × ε)) : OrderedMap κ ν :=
  events.foldl (enter start apply) OrderedMap.empty

/-- The events under a key, in order. -/
def under (key : κ) (events : List (κ × ε)) : List ε :=
  (events.filter (·.1 = key)).map Prod.snd

/-- The keys of a list of events, in the order of their first events. -/
def keysOf (events : List (κ × ε)) : List κ :=
  OrderedMap.keys (OrderedSet.ofList (events.map Prod.fst))

variable {start apply}

/-- Changing the record of a key that has one is storing the changed record. -/
theorem modify_eq_set {records : OrderedMap κ ν} {key : κ} {stored : ν}
    (h : records.get key = some stored) (change : ν → ν) :
    records.modify key change = records.set key (change stored) := by
  rw [OrderedMap.set_eq_modify h]
  simp only [OrderedMap.modify, OrderedMap.mk.injEq]
  refine List.map_congr_left fun entry hentry ↦ ?_
  by_cases hkey : entry.1 = key
  · have hstored : entry.2 = stored :=
      Option.some.inj ((OrderedMap.mem_entries.mp (hkey ▸ hentry)).symm.trans h)
    rw [if_pos hkey, if_pos hkey, hstored]
  · rw [if_neg hkey, if_neg hkey]

/-- Changing a record that was just started is storing the changed record. -/
theorem modify_set (records : OrderedMap κ ν) {key : κ} (h : records.get key = none) (started : ν)
    (change : ν → ν) :
    (records.set key started).modify key change = records.set key (change started) := by
  have hkeys : ∀ entry ∈ records.entries, entry.1 ≠ key := fun entry hentry heq ↦
    OrderedMap.not_mem_keys h (heq ▸ List.mem_map_of_mem hentry)
  have hentries : ((records.set key started).modify key change).entries =
      (records.set key (change started)).entries := by
    simp only [OrderedMap.modify, OrderedMap.entries_set_of_get_none h, List.map_append,
      List.map_cons, List.map_nil, if_true]
    congr 1
    conv_rhs => rw [← List.map_id records.entries]
    exact List.map_congr_left fun entry hentry ↦ if_neg (hkeys entry hentry)
  cases hleft : (records.set key started).modify key change
  cases hright : records.set key (change started)
  rw [hleft, hright] at hentries
  simpa using hentries

/-- A key has a record when it has an event. -/
theorem mem_keysOf {key : κ} {events : List (κ × ε)} :
    key ∈ keysOf events ↔ key ∈ events.map Prod.fst :=
  OrderedSet.mem_keys_ofList

/-- The events under a key after one more event. -/
theorem under_concat (key : κ) (events : List (κ × ε)) (event : κ × ε) :
    under key (events ++ [event]) =
      under key events ++ if event.1 = key then [event.2] else [] := by
  by_cases h : event.1 = key <;> simp [under, h]

/-- The keys after one more event. -/
theorem keysOf_concat (events : List (κ × ε)) (event : κ × ε) :
    keysOf (events ++ [event]) =
      if event.1 ∈ events.map Prod.fst then keysOf events else keysOf events ++ [event.1] := by
  have hadd : OrderedSet.ofList ((events ++ [event]).map Prod.fst) =
      (OrderedSet.ofList (events.map Prod.fst)).add event.1 := by
    simp [OrderedSet.ofList]
  rw [keysOf, hadd, keysOf, OrderedSet.add]
  by_cases h : event.1 ∈ events.map Prod.fst
  · obtain ⟨stored, hstored⟩ := OrderedMap.mem_keys.mp (OrderedSet.mem_keys_ofList.mpr h)
    rw [if_pos h, OrderedMap.keys_set_of_get_some hstored]
  · have hnone : (OrderedSet.ofList (events.map Prod.fst)).get event.1 = none := by
      by_contra hsome
      obtain ⟨stored, hstored⟩ := Option.ne_none_iff_exists'.mp hsome
      exact h (OrderedSet.mem_keys_ofList.mp (OrderedMap.mem_keys.mpr ⟨stored, hstored⟩))
    rw [if_neg h, OrderedMap.keys_set_of_get_none hnone]

/-- The record under a key is the fold of the events under it. -/
theorem get_run (events : List (κ × ε)) (key : κ) :
    (run start apply events).get key =
      if key ∈ events.map Prod.fst then some ((under key events).foldl apply (start key))
      else none := by
  induction events using List.reverseRecOn with
  | nil => simp [run, OrderedMap.empty, OrderedMap.get]
  | append_singleton events event ih =>
      have hrun : run start apply (events ++ [event]) =
          enter start apply (run start apply events) event := by
        simp [run]
      rw [hrun, enter, OrderedMap.get_set, under_concat]
      by_cases hkey : key = event.1
      · subst hkey
        by_cases hseen : event.1 ∈ events.map Prod.fst
        · rw [if_pos hseen] at ih
          simp [ih]
        · -- the first event under a key is applied to the record it starts
          rw [if_neg hseen] at ih
          have hunder : under event.1 events = [] := by
            rw [under, List.map_eq_nil_iff, List.filter_eq_nil_iff]
            intro other hother heq
            have hfirst : other.1 = event.1 := by simpa using heq
            exact hseen (hfirst ▸ List.mem_map_of_mem hother)
          simp [ih, hunder]
      · rw [if_neg hkey, ih, if_neg (Ne.symm hkey), List.append_nil]
        simp only [List.map_append, List.map_cons, List.map_nil, List.mem_append,
          List.mem_singleton, hkey, or_false]

/-- The keys of the records stand in the order of their first events. -/
theorem keys_run (events : List (κ × ε)) : (run start apply events).keys = keysOf events := by
  induction events using List.reverseRecOn with
  | nil => rfl
  | append_singleton events event ih =>
      have hrun : run start apply (events ++ [event]) =
          enter start apply (run start apply events) event := by
        simp [run]
      rw [hrun, keysOf_concat, enter]
      have hget : (run start apply events).get event.1 = _ := get_run events event.1
      by_cases hseen : event.1 ∈ events.map Prod.fst
      · rw [if_pos hseen] at hget ⊢
        rw [OrderedMap.keys_set_of_get_some hget, ih]
      · rw [if_neg hseen] at hget ⊢
        rw [OrderedMap.keys_set_of_get_none hget, ih]

/-! ## Fields of a record -/

variable {α : Type*}

/-- A field that takes each new value holds the last one. -/
theorem foldl_or_eq_getLast (f : ε → Option α) (events : List ε) :
    events.foldl (fun field event ↦ (f event).or field) none = (events.filterMap f).getLast? := by
  induction events using List.reverseRecOn with
  | nil => rfl
  | append_singleton events event ih =>
      rw [List.foldl_append, ih, List.filterMap_append, List.getLast?_append]
      cases f event with
      | none => simp
      | some value => simp

/-- Keep the smaller of the value of a field and a new one. -/
def keepMin [Min α] (field : Option α) (value : α) : Option α :=
  match field with
  | none => some value
  | some stored => some (min stored value)

/-- A field that keeps the smaller value holds the minimum. -/
theorem foldl_keepMin_eq_min [Min α] (f : ε → Option α) (events : List ε) :
    events.foldl (fun field event ↦ (f event).elim field (keepMin field)) none =
      (events.filterMap f).min? := by
  induction events using List.reverseRecOn with
  | nil => rfl
  | append_singleton events event ih =>
      rw [List.foldl_append, ih, List.filterMap_append]
      cases hvalue : f event with
      | none => simp [hvalue]
      | some value =>
          cases hfound : events.filterMap f with
          | nil => simp [hvalue, keepMin]
          | cons first rest => simp [hvalue, keepMin, List.min?_cons']

/-- A field that collects values holds those of all events, in order. -/
theorem foldl_append_eq_flatMap (f : ε → List α) (events : List ε) :
    events.foldl (fun field event ↦ field ++ f event) [] = events.flatMap f := by
  induction events using List.reverseRecOn with
  | nil => rfl
  | append_singleton events event ih => simp [ih]

end CoreUtils.KeyedFold
