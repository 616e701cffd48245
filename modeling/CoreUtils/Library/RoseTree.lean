import Mathlib.Data.List.Basic
import Mathlib.Order.Basic
import Mathlib.Tactic.Common

/-!
# Trees and the positions of their nodes

A finitely branching tree with labels. A node is identified by its position, the child indices on
the way from the node up to the root, so that two nodes with equal contents stay apart and the
parent of a node is the tail of its position. `preorder` lists what a recursive walk visits that
enters only some of the children; `mem_preorder` says which nodes these are, and
`preorder_pairwise` that they come in document order.
-/

namespace CoreUtils

/-- A finitely branching tree with a label at each node. -/
inductive RoseTree (L : Type*) where
  | node (label : L) (children : List (RoseTree L))

namespace RoseTree

variable {L : Type*}

/-- The label of the root. -/
def label : RoseTree L → L
  | .node label _ => label

/-- The subtrees below the root. -/
def children : RoseTree L → List (RoseTree L)
  | .node _ children => children

/-- What holds of a node whenever it holds of its children holds of every tree. -/
theorem childInduction {motive : RoseTree L → Prop}
    (node : ∀ label children, (∀ child ∈ children, motive child) → motive (.node label children))
    (t : RoseTree L) : motive t :=
  @RoseTree.rec L motive (fun children ↦ ∀ child ∈ children, motive child) node (by simp)
    (fun _ _ hhead htail ↦ List.forall_mem_cons.mpr ⟨hhead, htail⟩) t

/-- Where a node is: the index of the node among the children of its parent comes first. -/
abbrev Position := List ℕ

/-- The node at a position. -/
def subtree (t : RoseTree L) : Position → Option (RoseTree L)
  | [] => some t
  | i :: p => do
      let parent ← t.subtree p
      parent.children[i]?

/-- Document order: ancestors first, then by the first index at which two positions differ. -/
def Before (p q : Position) : Prop := p.reverse < q.reverse

/-! ## Walks -/

mutual

/-- The nodes that a walk visits from a node on, with their positions. -/
def preorder (enter : L → Bool) (p : Position) : RoseTree L → List (Position × RoseTree L)
  | .node label children => (p, .node label children) :: preorderChildren enter p 0 children

/-- The nodes that a walk visits from some children on, the first of which has an index. -/
def preorderChildren (enter : L → Bool) (p : Position) :
    ℕ → List (RoseTree L) → List (Position × RoseTree L)
  | _, [] => []
  | i, child :: rest =>
      if enter child.label then
        preorder enter (i :: p) child ++ preorderChildren enter p (i + 1) rest
      else preorderChildren enter p (i + 1) rest

end

/-- A node that a walk visits from the node `t` at `p` on: that node itself, or a child, which may
be entered, of a visited node. -/
inductive Visited (enter : L → Bool) (p : Position) (t : RoseTree L) :
    Position → RoseTree L → Prop
  | self : Visited enter p t p t
  | child {q : Position} {n c : RoseTree L} {i : ℕ} : Visited enter p t q n →
      n.children[i]? = some c → enter c.label = true → Visited enter p t (i :: q) c

variable {enter : L → Bool} {p q : Position} {t n c : RoseTree L} {i : ℕ}

/-- What a walk visits is below the node it starts from. -/
theorem Visited.extends (h : Visited enter p t q n) : ∃ r, q = r ++ p := by
  induction h with
  | self => exact ⟨[], rfl⟩
  | @child q n c i _ _ _ ih =>
      obtain ⟨r, rfl⟩ := ih
      exact ⟨i :: r, rfl⟩

/-- The nodes of a walk stand at their positions. -/
theorem Visited.subtree {root : RoseTree L} (h : Visited enter p t q n)
    (hp : root.subtree p = some t) : root.subtree q = some n := by
  induction h with
  | self => exact hp
  | child _ hc _ ih =>
      rw [RoseTree.subtree, ih]
      exact hc

/-- What a walk visits from a child on, it visits from the parent on. -/
theorem Visited.of_child (hc : t.children[i]? = some c) (henter : enter c.label = true)
    (h : Visited enter (i :: p) c q n) : Visited enter p t q n := by
  induction h with
  | self => exact .child .self hc henter
  | child _ hchild hchildEnter ih => exact ih.child hchild hchildEnter

/-- What a walk over some children visits. -/
theorem mem_preorderChildren {k : ℕ} {children : List (RoseTree L)} :
    (q, n) ∈ preorderChildren enter p k children ↔ ∃ j c, children[j]? = some c ∧
      enter c.label = true ∧ (q, n) ∈ preorder enter ((k + j) :: p) c := by
  induction children generalizing k with
  | nil => simp [preorderChildren]
  | cons child rest ih =>
      have hrest : (∃ j c, (child :: rest)[j + 1]? = some c ∧ enter c.label = true ∧
          (q, n) ∈ preorder enter ((k + (j + 1)) :: p) c) ↔
          (q, n) ∈ preorderChildren enter p (k + 1) rest := by
        rw [ih]
        simp only [List.getElem?_cons_succ, Nat.add_right_comm k 1, Nat.add_assoc]
      rw [preorderChildren]
      constructor
      · intro h
        split at h
        · rename_i henter
          rcases List.mem_append.mp h with h | h
          · exact ⟨0, child, rfl, henter, h⟩
          · obtain ⟨j, hj⟩ := hrest.mpr h
            exact ⟨j + 1, hj⟩
        · obtain ⟨j, hj⟩ := hrest.mpr h
          exact ⟨j + 1, hj⟩
      · rintro ⟨j, c, hc, henter, h⟩
        cases j with
        | zero =>
            obtain rfl : child = c := by simpa using hc
            rw [if_pos henter]
            exact List.mem_append_left _ h
        | succ j =>
            have hmem := hrest.mp ⟨j, c, hc, henter, h⟩
            split
            · exact List.mem_append_right _ hmem
            · exact hmem

/-- A walk starts with the node it is called on. -/
theorem self_mem_preorder : (p, t) ∈ preorder enter p t := by
  cases t
  simp [preorder]

/-- A walk enters the children of the nodes it visits. -/
theorem child_mem_preorder (h : (q, n) ∈ preorder enter p t) (hc : n.children[i]? = some c)
    (henter : enter c.label = true) : (i :: q, c) ∈ preorder enter p t := by
  induction t using childInduction generalizing p with
  | node label children ih =>
      rw [preorder] at h ⊢
      refine List.mem_cons_of_mem _ (mem_preorderChildren.mpr ?_)
      rcases List.mem_cons.mp h with heq | hmem
      · obtain ⟨rfl, rfl⟩ := Prod.mk.inj heq
        exact ⟨i, c, hc, henter, by simpa using self_mem_preorder⟩
      · obtain ⟨j, child, hchild, hchildEnter, hmem⟩ := mem_preorderChildren.mp hmem
        exact ⟨j, child, hchild, hchildEnter, ih child (List.mem_of_getElem? hchild) hmem⟩

/-- The nodes that a walk visits. -/
theorem mem_preorder : (q, n) ∈ preorder enter p t ↔ Visited enter p t q n := by
  constructor
  · intro h
    induction t using childInduction generalizing p with
    | node label children ih =>
        rw [preorder] at h
        rcases List.mem_cons.mp h with heq | hmem
        · obtain ⟨rfl, rfl⟩ := Prod.mk.inj heq
          exact .self
        · obtain ⟨j, child, hchild, henter, hmem⟩ := mem_preorderChildren.mp hmem
          have hvisited := ih child (List.mem_of_getElem? hchild) hmem
          rw [Nat.zero_add] at hvisited
          exact .of_child hchild henter hvisited
  · intro h
    induction h with
    | self => exact self_mem_preorder
    | child _ hc henter ih => exact child_mem_preorder ih hc henter

/-! ## Document order -/

/-- A node comes before what is below it. -/
theorem before_append_cons (r : Position) (p : Position) : Before p (r ++ i :: p) := by
  have happend : p.reverse ++ [] < p.reverse ++ i :: r.reverse :=
    List.append_left_lt (List.nil_lt_cons i r.reverse)
  simpa [Before] using happend

/-- What is below a child comes before what is below a later child. -/
theorem before_of_lt {j : ℕ} (hij : i < j) (r s p : Position) :
    Before (r ++ i :: p) (s ++ j :: p) := by
  have happend : p.reverse ++ i :: r.reverse < p.reverse ++ j :: s.reverse :=
    List.append_left_lt (List.cons_lt_cons_iff.mpr (.inl hij))
  simpa [Before] using happend

/-- Document order is irreflexive. -/
theorem not_before_self (p : Position) : ¬Before p p := List.lt_irrefl _

/-- Of two nodes that precede each other neither does. -/
theorem Before.asymm (h : Before p q) : ¬Before q p := List.lt_asymm h

/-- A walk goes in document order. -/
theorem preorder_pairwise (enter : L → Bool) (p : Position) (t : RoseTree L) :
    (preorder enter p t).Pairwise fun a b ↦ Before a.1 b.1 := by
  induction t using childInduction generalizing p with
  | node label children ih =>
      rw [preorder, List.pairwise_cons]
      constructor
      · rintro ⟨q, n⟩ hmem
        obtain ⟨j, child, -, -, hmem⟩ := mem_preorderChildren.mp hmem
        obtain ⟨r, rfl⟩ := (mem_preorder.mp hmem).extends
        exact before_append_cons r p
      · generalize 0 = k
        induction children generalizing k with
        | nil => simp [preorderChildren]
        | cons child rest ihRest =>
            obtain ⟨hchild, hrest⟩ := List.forall_mem_cons.mp ih
            rw [preorderChildren]
            split
            · refine List.pairwise_append.mpr ⟨hchild _, ihRest hrest _, ?_⟩
              rintro ⟨q, n⟩ hleft ⟨q', n'⟩ hright
              obtain ⟨r, rfl⟩ := (mem_preorder.mp hleft).extends
              obtain ⟨j, child', -, -, hright⟩ := mem_preorderChildren.mp hright
              obtain ⟨s, rfl⟩ := (mem_preorder.mp hright).extends
              exact before_of_lt (by omega) r s p
            · exact ihRest hrest _

/-! ## Walking with a state -/

variable {σ : Type*}

mutual

/-- Do something at a node, and then walk over those of its children that may be entered. -/
def walk (enter : L → Bool) (act : Position → RoseTree L → σ → σ) (p : Position) :
    RoseTree L → σ → σ
  | .node label children, s =>
      walkChildren enter act p 0 children (act p (.node label children) s)

/-- Walk over some children, the first of which has an index. -/
def walkChildren (enter : L → Bool) (act : Position → RoseTree L → σ → σ) (p : Position) :
    ℕ → List (RoseTree L) → σ → σ
  | _, [], s => s
  | i, child :: rest, s =>
      walkChildren enter act p (i + 1) rest
        (if enter child.label then walk enter act (i :: p) child s else s)

end

/-- A walk acts at the nodes that it visits, in their order. -/
theorem walk_eq (enter : L → Bool) (act : Position → RoseTree L → σ → σ) (p : Position)
    (t : RoseTree L) (s : σ) :
    walk enter act p t s = (preorder enter p t).foldl (fun s entry ↦ act entry.1 entry.2 s) s := by
  induction t using childInduction generalizing p s with
  | node label children ih =>
      rw [walk, preorder, List.foldl_cons]
      generalize act p (.node label children) s = s
      generalize 0 = k
      induction children generalizing k s with
      | nil => simp [walkChildren, preorderChildren]
      | cons child rest ihRest =>
          obtain ⟨hchild, hrest⟩ := List.forall_mem_cons.mp ih
          rw [walkChildren, preorderChildren, ihRest hrest]
          split
          next henter => rw [hchild, List.foldl_append]
          next henter => rfl

/-! ## Climbing -/

variable {β : Type*}

/-- Ask the nodes from a position upwards; the first answer counts. -/
def climb (root : RoseTree L) (ask : Position → RoseTree L → Option β) : Position → Option β
  | [] => ask [] root
  | i :: parent =>
      ((root.subtree (i :: parent)).bind (ask (i :: parent))).or (climb root ask parent)

/-- Ask the nodes around a position, from its parent upwards. -/
def climbParents (root : RoseTree L) (ask : Position → RoseTree L → Option β) :
    Position → Option β
  | [] => none
  | _ :: parent => climb root ask parent

variable {root : RoseTree L} {ask : Position → RoseTree L → Option β} {answer : β}

/-- The first answer of a climb: that of a node at or above the position, where the nodes on the
way to it do not answer. -/
theorem climb_eq_some_iff : climb root ask p = some answer ↔
    ∃ q node, q <:+ p ∧ root.subtree q = some node ∧ ask q node = some answer ∧
      ∀ r below, q <:+ r → r ≠ q → r <:+ p → root.subtree r = some below →
        ask r below = none := by
  induction p with
  | nil =>
      rw [climb]
      constructor
      · intro h
        refine ⟨[], root, List.suffix_rfl, rfl, h, fun r _ _ hne hr ↦ ?_⟩
        exact absurd (List.suffix_nil.mp hr) hne
      · rintro ⟨q, node, hq, hnode, h, -⟩
        obtain rfl := List.suffix_nil.mp hq
        obtain rfl := Option.some.inj hnode
        exact h
  | cons i parent ih =>
      rw [climb, Option.or_eq_some_iff, ih]
      constructor
      · rintro (h | ⟨hnone, q, node, hq, hnode, h, hbelow⟩)
        · obtain ⟨node, hnode, h⟩ := Option.bind_eq_some_iff.mp h
          refine ⟨i :: parent, node, List.suffix_rfl, hnode, h, fun r _ hq hne hr ↦ ?_⟩
          exact absurd (hr.eq_of_length_le hq.length_le) hne
        · refine ⟨q, node, hq.trans (List.suffix_cons i parent), hnode, h,
            fun r below hqr hne hr hsub ↦ ?_⟩
          rcases List.suffix_cons_iff.mp hr with rfl | hr
          · exact Option.bind_eq_none_iff.mp hnone below hsub
          · exact hbelow r below hqr hne hr hsub
      · rintro ⟨q, node, hq, hnode, h, hbelow⟩
        rcases List.suffix_cons_iff.mp hq with rfl | hq
        · exact .inl (Option.bind_eq_some_iff.mpr ⟨node, hnode, h⟩)
        · refine .inr ⟨?_, q, node, hq, hnode, h, fun r below hqr hne hr hsub ↦
            hbelow r below hqr hne (hr.trans (List.suffix_cons i parent)) hsub⟩
          refine Option.bind_eq_none_iff.mpr fun below hsub ↦ hbelow (i :: parent) below
            (hq.trans (List.suffix_cons i parent)) ?_ List.suffix_rfl hsub
          rintro rfl
          exact absurd hq.length_le (by simp)

/-- The first answer of a climb from the parent. -/
theorem climbParents_eq_some_iff : climbParents root ask p = some answer ↔
    ∃ q node, q <:+ p ∧ q ≠ p ∧ root.subtree q = some node ∧ ask q node = some answer ∧
      ∀ r below, q <:+ r → r ≠ q → r <:+ p → r ≠ p → root.subtree r = some below →
        ask r below = none := by
  cases p with
  | nil =>
      refine iff_of_false (by simp [climbParents]) ?_
      rintro ⟨q, node, hq, hne, -⟩
      exact hne (List.suffix_nil.mp hq)
  | cons i parent =>
      have hparent : ∀ r, r <:+ i :: parent ∧ r ≠ i :: parent ↔ r <:+ parent := by
        intro r
        rw [List.suffix_cons_iff]
        constructor
        · rintro ⟨rfl | hr, hne⟩
          · exact absurd rfl hne
          · exact hr
        · intro hr
          refine ⟨.inr hr, ?_⟩
          rintro rfl
          exact absurd hr.length_le (by simp)
      rw [climbParents, climb_eq_some_iff]
      simp only [← hparent, and_assoc, and_imp]

/-! ## Other labels -/

variable {M : Type*}

mutual

/-- The tree with other labels. -/
def map (f : L → M) : RoseTree L → RoseTree M
  | .node label children => .node (f label) (mapChildren f children)

/-- Some trees with other labels. -/
def mapChildren (f : L → M) : List (RoseTree L) → List (RoseTree M)
  | [] => []
  | child :: rest => map f child :: mapChildren f rest

end

end RoseTree

end CoreUtils
