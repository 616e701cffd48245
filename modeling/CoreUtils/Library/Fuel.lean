import Mathlib.Order.Lattice.Nat
import Mathlib.Order.MinMax
import Mathlib.Tactic.Common

/-!
# Computations with enough turns

A loop that is given a number of turns returns nothing when the number is too small. It ends with
a value when it returns that value for every number beyond some bound. Such computations compose.
-/

namespace CoreUtils.Fuel

variable {α β γ : Type*}

/-- With enough turns the result is this value. -/
def EndsWith (run : ℕ → Option α) (value : α) : Prop :=
  ∃ bound, ∀ fuel, bound < fuel → run fuel = some value

/-- What needs no turns. -/
theorem EndsWith.const (value : α) : EndsWith (fun _ ↦ some value) value := ⟨0, fun _ _ ↦ rfl⟩

/-- One computation after another. -/
theorem EndsWith.bind {run : ℕ → Option α} {next : ℕ → α → Option β} {a : α} {b : β}
    (h : EndsWith run a) (hnext : EndsWith (fun fuel ↦ next fuel a) b) :
    EndsWith (fun fuel ↦ (run fuel).bind (next fuel)) b := by
  obtain ⟨bound, hrun⟩ := h
  obtain ⟨more, hnext⟩ := hnext
  refine ⟨max bound more, fun fuel hfuel ↦ ?_⟩
  show (run fuel).bind (next fuel) = some b
  obtain ⟨hbound, hmore⟩ := max_lt_iff.mp hfuel
  rw [hrun fuel hbound, Option.bind_some]
  exact hnext fuel hmore

/-- A computation and then a function. -/
theorem EndsWith.map {run : ℕ → Option α} {a : α} (h : EndsWith run a) (f : α → β) :
    EndsWith (fun fuel ↦ (run fuel).map f) (f a) := by
  obtain ⟨bound, hrun⟩ := h
  refine ⟨bound, fun fuel hfuel ↦ ?_⟩
  show (run fuel).map f = some (f a)
  rw [hrun fuel hfuel, Option.map_some]

/-- Computations for the elements of a list, one after the other, that each append to a list. -/
theorem EndsWith.foldl_append {run : ℕ → α → Option (List β)} {results : α → List β}
    {step : ℕ → Option (List β) → α → Option (List β)}
    (hstep : ∀ fuel done a, step fuel (some done) a = (run fuel a).map (done ++ ·))
    {elements : List α} (h : ∀ a ∈ elements, EndsWith (fun fuel ↦ run fuel a) (results a))
    (done : List β) :
    EndsWith (fun fuel ↦ elements.foldl (step fuel) (some done))
      (done ++ elements.flatMap results) := by
  induction elements generalizing done with
  | nil => simpa using EndsWith.const done
  | cons a rest ih =>
      obtain ⟨hfirst, hrest⟩ := List.forall_mem_cons.mp h
      obtain ⟨bound, hfirst⟩ := hfirst
      obtain ⟨more, hrest⟩ := ih hrest (done ++ results a)
      simp only at hfirst hrest
      refine ⟨max bound more, fun fuel hfuel ↦ ?_⟩
      obtain ⟨hbound, hmore⟩ := max_lt_iff.mp hfuel
      show (a :: rest).foldl (step fuel) (some done) = _
      rw [List.foldl_cons, hstep, hfirst fuel hbound, Option.map_some, hrest fuel hmore,
        List.flatMap_cons, List.append_assoc]

end CoreUtils.Fuel
