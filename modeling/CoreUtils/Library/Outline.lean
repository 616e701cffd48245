import CoreUtils.Library.RoseTree
import Mathlib.Data.List.Sort

/-!
# Outlines and stable sorting

An outline lists the nodes of some trees in document order, each with its depth. It determines the
trees (`read_flatten`). The last part is about lists that are sorted by a key: what has equal keys
keeps its order (`filter_insertionSort`).
-/

namespace CoreUtils.Outline

variable {L : Type*}

/-! ## Outlines -/

mutual

/-- The outline of a tree at a depth. -/
def flattenTree (depth : ℕ) : RoseTree L → List (ℕ × L)
  | .node label children => (depth, label) :: flatten (depth + 1) children

/-- The outline of some trees at a depth. -/
def flatten (depth : ℕ) : List (RoseTree L) → List (ℕ × L)
  | [] => []
  | tree :: trees => flattenTree depth tree ++ flatten depth trees

end

/-- Read trees at a depth off the front of an outline, with a bound on the number of nodes; what
stands after them is returned. -/
def readTrees : ℕ → ℕ → List (ℕ × L) → List (RoseTree L) × List (ℕ × L)
  | 0, _, entries => ([], entries)
  | _ + 1, _, [] => ([], [])
  | bound + 1, depth, (entryDepth, label) :: entries =>
      if entryDepth = depth then
        let below := readTrees bound (depth + 1) entries
        let after := readTrees bound depth below.2
        (.node label below.1 :: after.1, after.2)
      else ([], (entryDepth, label) :: entries)

/-- The trees of an outline. -/
def read (entries : List (ℕ × L)) : List (RoseTree L) := (readTrees entries.length 0 entries).1

/-- An outline begins at its depth. -/
theorem head_flatten {depth : ℕ} {trees : List (RoseTree L)} {entry : ℕ × L}
    (h : entry ∈ (flatten depth trees).head?) : entry.1 = depth := by
  cases trees with
  | nil => simp [flatten] at h
  | cons tree trees =>
      obtain ⟨label, children⟩ := tree
      obtain rfl : (depth, label) = entry := by simpa [flatten, flattenTree] using h
      rfl

/-- The trees are read off an outline, up to an entry that stands higher. -/
theorem readTrees_flatten {bound depth : ℕ} {trees : List (RoseTree L)} {after : List (ℕ × L)}
    (hbound : (flatten depth trees).length ≤ bound)
    (hafter : ∀ entry ∈ after.head?, entry.1 < depth) :
    readTrees bound depth (flatten depth trees ++ after) = (trees, after) := by
  induction bound generalizing depth trees after with
  | zero =>
      cases trees with
      | nil => rfl
      | cons tree trees =>
          obtain ⟨label, children⟩ := tree
          simp [flatten, flattenTree] at hbound
  | succ bound ih =>
      cases trees with
      | nil =>
          cases after with
          | nil => rfl
          | cons entry rest =>
              have hlt : entry.1 < depth := hafter entry rfl
              show readTrees (bound + 1) depth (entry :: rest) = ([], entry :: rest)
              rw [readTrees, if_neg hlt.ne]
      | cons tree trees =>
          obtain ⟨label, children⟩ := tree
          have hlength : (flatten depth (.node label children :: trees)).length =
              (flatten (depth + 1) children).length + (flatten depth trees).length + 1 := by
            simp only [flatten, flattenTree, List.cons_append, List.length_cons,
              List.length_append]
          -- what follows the children stands above them
          have hchildren : readTrees bound (depth + 1)
              (flatten (depth + 1) children ++ (flatten depth trees ++ after)) =
              (children, flatten depth trees ++ after) := by
            refine ih (by omega) fun entry hentry ↦ ?_
            rw [List.head?_append] at hentry
            rcases Option.or_eq_some_iff.mp hentry with hhead | ⟨-, hhead⟩
            · exact (head_flatten hhead).trans_lt (Nat.lt_succ_self depth)
            · exact (hafter entry hhead).trans (Nat.lt_succ_self depth)
          have htrees : readTrees bound depth (flatten depth trees ++ after) = (trees, after) :=
            ih (by omega) hafter
          show readTrees (bound + 1) depth ((depth, label) :: flatten (depth + 1) children ++
            flatten depth trees ++ after) = _
          rw [List.append_assoc, List.cons_append, readTrees, if_pos rfl]
          simp only [hchildren, htrees]

/-- Some trees can be read off their outline. -/
theorem read_flatten (trees : List (RoseTree L)) : read (flatten 0 trees) = trees := by
  have h := readTrees_flatten (le_refl (flatten 0 trees).length)
    (fun (entry : ℕ × L) (hentry : entry ∈ [].head?) ↦ by simp at hentry)
  rw [List.append_nil] at h
  rw [read, h]

/-! ## Stable sorting -/

variable {α κ : Type*} [LinearOrder κ]

/-- Sorting by a key keeps the order of what has equal keys. -/
theorem filter_insertionSort (key : α → κ) (elements : List α) (k : κ) :
    (elements.insertionSort fun a b ↦ key a ≤ key b).filter (key · = k) =
      elements.filter (key · = k) := by
  have hequal : (elements.filter (key · = k)).Pairwise fun a b ↦ key a ≤ key b := by
    refine List.pairwise_of_forall_mem_list fun a ha b hb ↦ ?_
    have hka : key a = k := by simpa using (List.mem_filter.mp ha).2
    have hkb : key b = k := by simpa using (List.mem_filter.mp hb).2
    exact (hka.trans hkb.symm).le
  have hkept := (List.sublist_insertionSort hequal List.filter_sublist).filter (key · = k)
  rw [List.filter_filter] at hkept
  simp only [Bool.and_self] at hkept
  have hperm := (List.perm_insertionSort (fun a b ↦ key a ≤ key b) elements).filter (key · = k)
  exact (hkept.eq_of_length hperm.length_eq.symm).symm

variable {r : α → α → Prop} [DecidableRel r]

/-- What is not after any element of a list is inserted before them all. -/
theorem orderedInsert_of_forall {a : α} {sorted : List α} (h : ∀ b ∈ sorted, r a b) :
    sorted.orderedInsert r a = a :: sorted := by
  cases sorted with
  | nil => rfl
  | cons b after => exact List.orderedInsert_cons_of_le r after (h b List.mem_cons_self)

variable [IsTrans α r]

/-- What is dropped can be dropped before an insertion. -/
theorem filter_orderedInsert (keep : α → Bool) (a : α) {sorted : List α}
    (h : sorted.Pairwise r) :
    (sorted.orderedInsert r a).filter keep =
      if keep a then (sorted.filter keep).orderedInsert r a else sorted.filter keep := by
  induction sorted with
  | nil => cases hkeep : keep a <;> simp [hkeep]
  | cons b after ih =>
      obtain ⟨hb, hafter⟩ := List.pairwise_cons.mp h
      by_cases hab : r a b
      · have hall : ∀ c ∈ (b :: after).filter keep, r a c := by
          intro c hc
          rcases List.mem_cons.mp (List.mem_of_mem_filter hc) with rfl | hc
          · exact hab
          · exact IsTrans.trans a b c hab (hb c hc)
        rw [List.orderedInsert_cons_of_le r after hab, orderedInsert_of_forall hall,
          List.filter_cons]
      · rw [List.orderedInsert_of_not_le r after hab, List.filter_cons, List.filter_cons,
          ih hafter]
        cases keep b with
        | false => simp
        | true => cases keep a <;> simp [hab]

/-- What is dropped can be dropped before the sorting. -/
theorem filter_insertionSort_comm [Std.Total r] (keep : α → Bool) (elements : List α) :
    (elements.insertionSort r).filter keep = (elements.filter keep).insertionSort r := by
  induction elements with
  | nil => rfl
  | cons a rest ih =>
      rw [List.insertionSort_cons, filter_orderedInsert keep a (List.pairwise_insertionSort r rest),
        ih, List.filter_cons]
      split
      next => rfl
      next => rfl

end CoreUtils.Outline
