import Mathlib.Data.List.Nodup
import Mathlib.Data.List.Perm.Subperm
import Mathlib.Data.Set.Basic
import Mathlib.Logic.Relation
import Mathlib.Order.Bounds.Basic
import Mathlib.Tactic.Common

/-!
# Working through a list that grows

A worklist that is never emptied: an index walks over the items, and the item it passes appends its
successors, those that the list does not hold yet. When all successors come from a finite list, the
walk ends, and the list then holds the least set that contains the items it began with and is
closed under successors (`run_isLeast`).
-/

namespace CoreUtils.Worklist

open Relation (ReflTransGen)

variable {α : Type*}

/-! ## Least closed sets -/

/-- A set that contains the seeds, and with an element everything it refers to. -/
structure Closed (seeds : Set α) (refers : α → α → Prop) (s : Set α) : Prop where
  seeds : seeds ⊆ s
  refers : ∀ {a b}, a ∈ s → refers a b → b ∈ s

/-- What the seeds refer to, however indirectly. -/
def closure (seeds : Set α) (refers : α → α → Prop) : Set α :=
  {b | ∃ a ∈ seeds, ReflTransGen refers a b}

/-- The closure is the least closed set. -/
theorem isLeast_closure (seeds : Set α) (refers : α → α → Prop) :
    IsLeast {s | Closed seeds refers s} (closure seeds refers) := by
  refine ⟨⟨fun a ha ↦ ⟨a, ha, .refl⟩, ?_⟩, ?_⟩
  · rintro b c ⟨a, ha, hab⟩ hbc
    exact ⟨a, ha, hab.tail hbc⟩
  · rintro s hs b ⟨a, ha, hab⟩
    induction hab with
    | refl => exact hs.seeds ha
    | tail _ hbc ih => exact hs.refers ih hbc

/-- A closed set inside the closure is the least one. -/
theorem isLeast_of_subset_closure {seeds s : Set α} {refers : α → α → Prop}
    (hclosed : Closed seeds refers s) (hsubset : s ⊆ closure seeds refers) :
    IsLeast {s | Closed seeds refers s} s :=
  ⟨hclosed, fun _ ht ↦ hsubset.trans ((isLeast_closure seeds refers).2 ht)⟩

/-- Equal seeds and equal references have the same least closed set. -/
theorem isLeast_congr {seeds seeds' s : Set α} {refers refers' : α → α → Prop}
    (h : IsLeast {s | Closed seeds refers s} s) (hseeds : ∀ a, a ∈ seeds ↔ a ∈ seeds')
    (hrefers : ∀ a b, refers a b ↔ refers' a b) :
    IsLeast {s | Closed seeds' refers' s} s := by
  obtain rfl : seeds = seeds' := Set.ext hseeds
  obtain rfl : refers = refers' := by
    funext a b
    exact propext (hrefers a b)
  exact h

/-! ## Appending what is new -/

variable [DecidableEq α]

/-- Append an item unless the list holds it. -/
def pushNew (items : List α) (item : α) : List α :=
  if item ∈ items then items else items ++ [item]

/-- Appending several items, each unless the list holds it by then. -/
theorem foldl_pushNew (items new : List α) :
    ∃ added, new.foldl pushNew items = items ++ added ∧ added.Nodup ∧
      (∀ a ∈ added, a ∈ new ∧ a ∉ items) ∧ ∀ a ∈ new, a ∈ items ++ added := by
  induction new generalizing items with
  | nil => exact ⟨[], by simp⟩
  | cons item new ih =>
      rw [List.foldl_cons, pushNew]
      split
      · rename_i hitem
        obtain ⟨added, heq, hnodup, hadded, hnew⟩ := ih items
        refine ⟨added, heq, hnodup, fun a ha ↦ ?_, List.forall_mem_cons.mpr ⟨?_, hnew⟩⟩
        · exact ⟨.tail _ (hadded a ha).1, (hadded a ha).2⟩
        · exact List.mem_append_left _ hitem
      · rename_i hitem
        obtain ⟨added, heq, hnodup, hadded, hnew⟩ := ih (items ++ [item])
        have hfresh : ∀ a ∈ added, a ∉ items ∧ a ≠ item := fun a ha ↦ by
          simpa using (hadded a ha).2
        refine ⟨item :: added, by rw [heq, List.append_assoc, List.singleton_append], ?_, ?_, ?_⟩
        · exact List.nodup_cons.mpr ⟨fun hmem ↦ (hfresh item hmem).2 rfl, hnodup⟩
        · refine List.forall_mem_cons.mpr ⟨⟨.head _, hitem⟩, fun a ha ↦ ?_⟩
          exact ⟨.tail _ (hadded a ha).1, (hfresh a ha).1⟩
        · have happend : items ++ item :: added = items ++ [item] ++ added := by simp
          rw [happend]
          refine List.forall_mem_cons.mpr ⟨?_, hnew⟩
          simp

/-! ## The walk -/

/-- Walk on from an index with at most so many steps. -/
def run (successors : α → List α) : ℕ → ℕ → List α → Option (List α)
  | 0, _, _ => none
  | fuel + 1, index, items =>
      match items[index]? with
      | none => some items
      | some item => run successors fuel (index + 1) ((successors item).foldl pushNew items)

variable {successors : α → List α} {targets seeds : List α}

/-- What holds whenever the walk looks at an index: the list has grown by distinct elements of the
targets, all of it is reached from the seeds, and what has been passed has its successors. -/
structure Walking (successors : α → List α) (targets seeds : List α) (index : ℕ)
    (items : List α) : Prop where
  index_le : index ≤ items.length
  grown : ∃ added, items = seeds ++ added ∧ added.Nodup ∧ added ⊆ targets
  reached : ∀ a ∈ items, a ∈ closure {a | a ∈ seeds} fun a b ↦ b ∈ successors a
  passed : ∀ a ∈ items.take index, ∀ b ∈ successors a, b ∈ items

omit [DecidableEq α] in
/-- The walk at its start. -/
theorem walking_start : Walking successors targets seeds 0 seeds where
  index_le := Nat.zero_le _
  grown := ⟨[], by simp⟩
  reached := fun a ha ↦ ⟨a, ha, .refl⟩
  passed := by simp

variable {index : ℕ} {items : List α}

omit [DecidableEq α] in
/-- The list never outgrows the seeds and the targets together. -/
theorem Walking.length_le (h : Walking successors targets seeds index items) :
    items.length ≤ seeds.length + targets.length := by
  obtain ⟨added, rfl, hnodup, hsubset⟩ := h.grown
  rw [List.length_append]
  exact Nat.add_le_add_left (List.subperm_of_subset hnodup hsubset).length_le _

/-- Passing an item keeps the invariant. -/
theorem Walking.step (htargets : ∀ a, successors a ⊆ targets)
    (h : Walking successors targets seeds index items) {item : α}
    (hitem : items[index]? = some item) :
    Walking successors targets seeds (index + 1) ((successors item).foldl pushNew items) := by
  obtain ⟨hindex, hget⟩ := List.getElem?_eq_some_iff.mp hitem
  obtain ⟨new, heq, hnodup, hnew, hcomplete⟩ := foldl_pushNew items (successors item)
  obtain ⟨added, hitems, hadded, hsubset⟩ := h.grown
  rw [heq]
  refine ⟨?_, ⟨added ++ new, ?_, ?_, ?_⟩, ?_, ?_⟩
  · rw [List.length_append]
    omega
  · rw [hitems, List.append_assoc]
  · refine List.nodup_append'.mpr ⟨hadded, hnodup, fun a ha hanew ↦ ?_⟩
    exact (hnew a hanew).2 (hitems ▸ List.mem_append_right _ ha)
  · exact List.append_subset.mpr ⟨hsubset, fun a ha ↦ htargets item (hnew a ha).1⟩
  · intro a ha
    rcases List.mem_append.mp ha with ha | ha
    · exact h.reached a ha
    · obtain ⟨seed, hseed, hreach⟩ := h.reached item (hget ▸ List.getElem_mem hindex)
      exact ⟨seed, hseed, hreach.tail (hnew a ha).1⟩
  · intro a ha b hb
    rw [List.take_append_of_le_length hindex, List.take_add_one, hitem] at ha
    rcases List.mem_append.mp ha with ha | ha
    · exact List.mem_append_left _ (h.passed a ha b hb)
    · obtain rfl : a = item := by simpa using ha
      exact hcomplete b hb

omit [DecidableEq α] in
/-- When the walk has passed the whole list, the list is the least closed set. -/
theorem Walking.isLeast (h : Walking successors targets seeds index items)
    (hend : items.length ≤ index) :
    IsLeast {s | Closed {a | a ∈ seeds} (fun a b ↦ b ∈ successors a) s} {a | a ∈ items} := by
  refine isLeast_of_subset_closure ⟨fun a ha ↦ ?_, fun {a b} ha hb ↦ ?_⟩ h.reached
  · obtain ⟨added, rfl, -, -⟩ := h.grown
    exact List.mem_append_left _ ha
  · refine h.passed a ?_ b hb
    rwa [List.take_of_length_le hend]

/-- The walk ends once there is a step for every place the list can still have. -/
theorem Walking.run (htargets : ∀ a, successors a ⊆ targets) {fuel : ℕ}
    (h : Walking successors targets seeds index items)
    (hfuel : seeds.length + targets.length < index + fuel) :
    ∃ result, Worklist.run successors fuel index items = some result ∧
      ∃ last, Walking successors targets seeds last result ∧ result.length ≤ last := by
  induction fuel generalizing index items with
  | zero =>
      have := h.index_le.trans h.length_le
      omega
  | succ fuel ih =>
      rw [Worklist.run]
      cases hitem : items[index]? with
      | none => exact ⟨items, rfl, index, h, List.getElem?_eq_none_iff.mp hitem⟩
      | some item => exact ih (h.step htargets hitem) (by omega)

/-- More steps do not change the result. -/
theorem run_mono {fuel more : ℕ} {result : List α} (hfuel : fuel ≤ more)
    (h : run successors fuel index items = some result) :
    run successors more index items = some result := by
  induction fuel generalizing more index items with
  | zero => simp [run] at h
  | succ fuel ih =>
      obtain ⟨more, rfl⟩ := Nat.exists_eq_add_of_lt hfuel
      rw [run] at h ⊢
      cases hitem : items[index]? with
      | none => simpa [hitem] using h
      | some item =>
          rw [hitem] at h
          exact ih (by omega) h

/-- The walk ends, and with how many steps it was allowed makes no difference to the result: the
least set that contains the seeds and is closed under successors. -/
theorem run_isLeast (htargets : ∀ a, successors a ⊆ targets) (seeds : List α) :
    ∃ result, (∀ fuel, seeds.length + targets.length < fuel →
        run successors fuel 0 seeds = some result) ∧
      IsLeast {s | Closed {a | a ∈ seeds} (fun a b ↦ b ∈ successors a) s} {a | a ∈ result} := by
  have hstart : Walking successors targets seeds 0 seeds := walking_start
  obtain ⟨result, hrun, last, hlast, hend⟩ := hstart.run htargets
    (show seeds.length + targets.length < 0 + (seeds.length + targets.length + 1) by omega)
  exact ⟨result, fun fuel hfuel ↦ run_mono hfuel hrun, hlast.isLeast hend⟩

end CoreUtils.Worklist
