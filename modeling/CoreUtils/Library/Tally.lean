import Mathlib.Algebra.BigOperators.Group.Finset.Basic
import Mathlib.Algebra.Order.BigOperators.Group.Finset

/-!
# Sums over the distinct elements of a list

`tally f l` adds, over the distinct elements of `l`, a function of how often each occurs. It does
not depend on the order of the list, and one more element changes one of its terms.
-/

namespace CoreUtils

variable {α : Type*} [DecidableEq α] {f : ℕ → ℕ} {l l' : List α}

/-- The sum over the distinct elements of a list of a function of their counts. -/
def tally (f : ℕ → ℕ) (l : List α) : ℕ := ∑ a ∈ l.toFinset, f (l.count a)

/-- A tally does not depend on the order. -/
theorem tally_perm (f : ℕ → ℕ) (h : l.Perm l') : tally f l = tally f l' := by
  rw [tally, tally, List.toFinset_eq_of_perm _ _ h]
  exact Finset.sum_congr rfl fun a _ ↦ by rw [h.count_eq]

/-- Without repetitions, each element counts once. -/
theorem tally_of_nodup {f : ℕ → ℕ} (hf : f 1 = 1) (h : l.Nodup) : tally f l = l.length := by
  rw [tally, ← List.toFinset_card_of_nodup h, Finset.card_eq_sum_ones]
  refine Finset.sum_congr rfl fun a ha ↦ ?_
  rw [List.count_eq_one_of_mem h (List.mem_toFinset.mp ha), hf]

/-- A tally may range over more elements than occur, if those that do not occur count nothing. -/
theorem tally_eq_sum (hf : f 0 = 0) {s : Finset α} (hs : l.toFinset ⊆ s) :
    tally f l = ∑ a ∈ s, f (l.count a) := by
  refine Finset.sum_subset hs fun a _ ha ↦ ?_
  rw [List.mem_toFinset] at ha
  -- an element that does not occur adds `f 0`
  rw [List.count_eq_zero_of_not_mem ha, hf]

/-- One more element changes the term of that element. -/
theorem tally_concat (hf : f 0 = 0) (l : List α) (a : α) :
    tally f (l ++ [a]) + f (l.count a) = tally f l + f (l.count a + 1) := by
  have hsubset : l.toFinset ⊆ (l ++ [a]).toFinset := by
    intro b hb
    rw [List.mem_toFinset] at hb ⊢
    exact List.mem_append_left _ hb
  have ha : a ∈ (l ++ [a]).toFinset := by simp
  have hown : (l ++ [a]).count a = l.count a + 1 := by simp
  -- the terms of the other elements do not change
  have hothers : ∑ b ∈ (l ++ [a]).toFinset.erase a, f ((l ++ [a]).count b) =
      ∑ b ∈ (l ++ [a]).toFinset.erase a, f (l.count b) := by
    refine Finset.sum_congr rfl fun b hb ↦ ?_
    have hne : a ≠ b := (Finset.ne_of_mem_erase hb).symm
    rw [List.count_append, List.count_singleton, if_neg (by simpa using hne), Nat.add_zero]
  rw [tally_eq_sum hf hsubset, tally, ← Finset.add_sum_erase _ _ ha,
    ← Finset.add_sum_erase _ (fun b ↦ f (l.count b)) ha, hothers, hown]
  omega

/-- A monotone function tallies no less over a longer list. -/
theorem tally_le_tally_append (hf : f 0 = 0) (hmono : Monotone f) (l l' : List α) :
    tally f l ≤ tally f (l ++ l') := by
  have hsubset : l.toFinset ⊆ (l ++ l').toFinset := by
    intro b hb
    rw [List.mem_toFinset] at hb ⊢
    exact List.mem_append_left _ hb
  rw [tally_eq_sum hf hsubset, tally]
  refine Finset.sum_le_sum fun b _ ↦ hmono ?_
  rw [List.count_append]
  exact Nat.le_add_right _ _

/-- A function below the identity tallies at most the length. -/
theorem tally_le_length (hf : ∀ n, f n ≤ n) (l : List α) : tally f l ≤ l.length := by
  rw [← List.sum_toFinset_count_eq_length l]
  exact Finset.sum_le_sum fun a _ ↦ hf _

end CoreUtils
