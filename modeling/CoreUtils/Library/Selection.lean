import Mathlib.Data.List.MinMax

/-!
# Selecting a first minimum by a fold

A scan that keeps the best entry so far computes `firstMin`: of the entries with the least key, the
one that comes first. `foldl_eq_firstMin` recognizes such a scan however its variables are
represented.
-/

namespace CoreUtils

variable {α β σ : Type*} [LinearOrder β]

/-- The first entry with the least key. -/
def firstMin (key : α → β) (entries : List α) : Option α := entries.argmin key

/-- The better of the best entry so far and a new entry: a tie keeps the old one. -/
def better (key : α → β) : Option α → α → Option α
  | none, entry => some entry
  | some best, entry => if key entry < key best then some entry else some best

/-- A fold whose every step keeps the better of two entries finds the first minimum. -/
theorem foldl_eq_firstMin {key : α → β} (represent : Option α → σ) {step : σ → α → σ}
    {entries : List α}
    (hstep : ∀ entry ∈ entries, ∀ best,
      step (represent best) entry = represent (better key best entry)) :
    entries.foldl step (represent none) = represent (firstMin key entries) := by
  suffices ∀ best, entries.foldl step (represent best) =
      represent (entries.foldl (List.argAux fun x y ↦ key x < key y) best) from this none
  induction entries with
  | nil => intro best; rfl
  | cons entry rest ih =>
      intro best
      have hbetter : better key best entry = List.argAux (fun x y ↦ key x < key y) best entry := by
        cases best <;> rfl
      rw [List.foldl_cons, hstep entry (by simp), List.foldl_cons, hbetter]
      exact ih (fun other hother ↦ hstep other (List.mem_cons_of_mem _ hother)) _

/-- The first minimum is one of the entries. -/
theorem mem_of_firstMin {key : α → β} {entries : List α} {best : α}
    (h : firstMin key entries = some best) : best ∈ entries :=
  List.argmin_mem h

/-- The first minimum has the least key. -/
theorem firstMin_le {key : α → β} {entries : List α} {best : α}
    (h : firstMin key entries = some best) {entry : α} (hentry : entry ∈ entries) :
    key best ≤ key entry :=
  List.le_of_mem_argmin hentry h

/-- Only no entries have no minimum. -/
theorem firstMin_ne_none {key : α → β} {entries : List α} {entry : α} (hentry : entry ∈ entries) :
    firstMin key entries ≠ none := by
  rw [firstMin, Ne, List.argmin_eq_none]
  exact List.ne_nil_of_mem hentry

/-- The entries before the first minimum have larger keys. -/
theorem firstMin_split {key : α → β} {entries : List α} {best : α}
    (h : firstMin key entries = some best) : ∃ before after, entries = before ++ best :: after ∧
      (∀ entry ∈ before, key best < key entry) ∧ ∀ entry ∈ after, key best ≤ key entry := by
  induction entries with
  | nil => contradiction
  | cons entry rest ih =>
      rw [firstMin, List.argmin_cons] at h
      cases hrest : rest.argmin key with
      | none =>
          rw [hrest] at h
          obtain rfl := Option.some.inj h
          obtain rfl := List.argmin_eq_none.mp hrest
          exact ⟨[], [], rfl, by simp, by simp⟩
      | some least =>
          simp only [hrest] at h
          split at h
          · rename_i hlt
            obtain rfl := Option.some.inj h
            obtain ⟨before, after, rfl, hbefore, hafter⟩ := ih hrest
            refine ⟨entry :: before, after, rfl, ?_, hafter⟩
            exact List.forall_mem_cons.mpr ⟨hlt, hbefore⟩
          · rename_i hge
            obtain rfl := Option.some.inj h
            refine ⟨[], rest, rfl, by simp, fun other hother ↦ ?_⟩
            exact (not_lt.mp hge).trans (firstMin_le hrest hother)

end CoreUtils
