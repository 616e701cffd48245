import Mathlib.Data.Fintype.Basic
import Mathlib.Data.List.Chain
import Mathlib.Logic.Relation
import Mathlib.Order.WellFounded
import Mathlib.Data.Fintype.EquivFin
import Mathlib.Data.Set.Finite.Basic
import Mathlib.Tactic.Common

/-!
# Cycles and orders of a relation

The vocabulary in which a cycle finder and a topological sort are specified: a relation `r a b`,
read as "`a` depends on `b`", is acyclic, a walk is a cycle of it, and a list is sorted by it.
A sorted list that covers the relation rules cycles out, and in a finite set an acyclic relation
has a minimal element.
-/

namespace CoreUtils.DirectedGraph

open Relation

variable {α : Type*} (r : α → α → Prop)

/-- Nothing depends on itself, however indirectly. -/
def Acyclic : Prop := ∀ a, ¬TransGen r a a

/-- A walk over at least one edge that ends where it starts. -/
structure IsCycle (walk : List α) : Prop where
  length : 2 ≤ walk.length
  closed : walk.head? = walk.getLast?
  edges : walk.IsChain r

/-- A list in which everything an element depends on comes before it. -/
def Sorted (order : List α) : Prop :=
  ∀ before a after, order = before ++ a :: after → ∀ b, r a b → b ∈ before

variable {r}

/-- The first element of a walk reaches the last. -/
theorem transGen_of_isChain {a b : α} {walk : List α} (h : (a :: (walk ++ [b])).IsChain r) :
    TransGen r a b := by
  induction walk generalizing a with
  | nil => exact .single (by simpa using h)
  | cons c rest ih =>
      rw [List.cons_append, List.isChain_cons_cons] at h
      exact .head h.1 (ih h.2)

/-- A cycle contradicts acyclicity. -/
theorem IsCycle.not_acyclic {walk : List α} (h : IsCycle r walk) : ¬Acyclic r := by
  intro hacyclic
  match walk, h with
  | a :: rest, h =>
      rcases List.eq_nil_or_concat rest with rfl | ⟨middle, b, rfl⟩
      · exact absurd h.length (by simp)
      · have hclosed : a = b := by
          have hheads := h.closed
          rw [List.head?_cons, List.concat_eq_append, ← List.cons_append,
            List.getLast?_append] at hheads
          simpa using hheads
        have hedges := h.edges
        rw [List.concat_eq_append] at hedges
        have hreach := transGen_of_isChain hedges
        rw [← hclosed] at hreach
        exact hacyclic a hreach

/-- In a sorted list the first position decreases along the relation. -/
theorem Sorted.idxOf_lt [DecidableEq α] {order : List α} (h : Sorted r order) {a b : α}
    (ha : a ∈ order) (hab : r a b) : order.idxOf b < order.idxOf a := by
  obtain ⟨before, after, rfl, hbefore⟩ := List.eq_append_cons_of_mem ha
  have hb := h before a after rfl b hab
  rw [List.idxOf_append_of_mem hb, List.idxOf_append_of_notMem hbefore]
  have := List.idxOf_lt_length_of_mem hb
  omega

/-- A sorted list that holds everything that depends on something rules cycles out. -/
theorem Sorted.acyclic {order : List α} (h : Sorted r order)
    (hcovers : ∀ {a b}, r a b → a ∈ order) : Acyclic r := by
  classical
  intro a ha
  have hdecreases : ∀ {x y}, TransGen r x y → order.idxOf y < order.idxOf x := by
    intro x y hxy
    induction hxy with
    | single hr => exact h.idxOf_lt (hcovers hr) hr
    | tail _ hr ih => exact (h.idxOf_lt (hcovers hr) hr).trans ih
  exact Nat.lt_irrefl _ (hdecreases ha)

/-- Among finitely many elements, an acyclic relation has one that depends on none of them. -/
theorem Acyclic.exists_minimal (h : Acyclic r) {elements : List α} (hne : elements ≠ []) :
    ∃ a ∈ elements, ∀ b ∈ elements, ¬r a b := by
  have : IsTrans {x // x ∈ elements} fun a b ↦ TransGen r b.1 a.1 :=
    ⟨fun _ _ _ hab hbc ↦ hbc.trans hab⟩
  have : Std.Irrefl fun a b : {x // x ∈ elements} ↦ TransGen r b.1 a.1 := ⟨fun a ↦ h a.1⟩
  have : Finite {x // x ∈ elements} := List.finite_toSet elements
  have hwf := Finite.wellFounded_of_trans_of_irrefl
    fun a b : {x // x ∈ elements} ↦ TransGen r b.1 a.1
  obtain ⟨a, ha⟩ := List.exists_mem_of_ne_nil elements hne
  obtain ⟨least, -, hleast⟩ := hwf.has_min Set.univ ⟨⟨a, ha⟩, trivial⟩
  exact ⟨least.1, least.2, fun b hb hr ↦ hleast ⟨b, hb⟩ trivial (.single hr)⟩

end CoreUtils.DirectedGraph
