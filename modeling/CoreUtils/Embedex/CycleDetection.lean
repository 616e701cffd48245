import CoreUtils.Embedex.DependencyGraph
import CoreUtils.Library.DirectedGraph

/-!
# The depth-first search decides acyclicity

The search keeps its path as a walk of the graph, and what it has finished as a set that is closed
under dependencies and contains no cycle (`Searching`). Every visit either extends that set or
finds a cycle (`hasCycle_spec`); entering a node uses up one unvisited node, so the recursion is at
most as deep as the graph is large.
-/

namespace CoreUtils.Embedex

open Relation DirectedGraph

variable {graph : DependencyGraph}

/-- The nodes that the search has not reached. -/
def Search.remaining (search : Search) : ℕ :=
  search.visited.total fun _ mark ↦ if mark = .unvisited then 1 else 0

/-- What holds of the shared variables between the steps of the search. -/
structure Searching (graph : DependencyGraph) (search : Search) : Prop where
  marks : ∀ a, (search.visited.get a).isSome = (graph.destinations.get a).isSome
  on_path : ∀ a, search.visited.get a = some .visiting ↔ a ∈ search.path
  nodup : search.path.Nodup
  chain : search.path.IsChain graph.DependsOn
  closed : ∀ {a b}, search.visited.get a = some .visited → graph.DependsOn a b →
    search.visited.get b = some .visited
  acyclic : ∀ {a}, search.visited.get a = some .visited → ¬TransGen graph.DependsOn a a

/-- The search has closed a walk of the graph. -/
def Found (graph : DependencyGraph) (search : Search) : Prop :=
  ∃ node, search.cycleNode = some node ∧ node ∈ search.path ∧
    (search.path ++ [node]).IsChain graph.DependsOn

/-- The search has gone on without finding a cycle and is back where it was. -/
structure Advanced (graph : DependencyGraph) (search left : Search) : Prop where
  searching : Searching graph left
  path : left.path = search.path
  remaining : left.remaining ≤ search.remaining
  visited : ∀ {a}, search.visited.get a = some .visited → left.visited.get a = some .visited

/-- A node can be visited next: it is a destination, and the end of the path depends on it. -/
def Next (graph : DependencyGraph) (search : Search) (node : ResolvedPath) : Prop :=
  (graph.destinations.get node).isSome ∧ ∀ last ∈ search.path.getLast?, graph.DependsOn last node

/-- A visit, of one node or of several, with fewer than `bound` nodes unvisited, ends either in a
cycle or with all of them visited. -/
def Visits (graph : DependencyGraph) (bound : ℕ) (nodes : List ResolvedPath)
    (visit : Search → Option (Bool × Search)) : Prop :=
  ∀ search, Searching graph search → (∀ node ∈ nodes, Next graph search node) →
    search.remaining < bound →
    (∃ found, visit search = some (true, found) ∧ Found graph found) ∨
      ∃ left, visit search = some (false, left) ∧ Advanced graph search left ∧
        ∀ node ∈ nodes, left.visited.get node = some .visited

/-! ## Steps -/

/-- Doing nothing. -/
theorem Searching.advanced {search : Search} (h : Searching graph search) :
    Advanced graph search search :=
  ⟨h, rfl, le_rfl, id⟩

/-- One advance after another. -/
theorem Advanced.trans {search middle left : Search} (h₁ : Advanced graph search middle)
    (h₂ : Advanced graph middle left) : Advanced graph search left :=
  ⟨h₂.searching, h₂.path.trans h₁.path, h₂.remaining.trans h₁.remaining,
    fun ha ↦ h₂.visited (h₁.visited ha)⟩

/-- What is finished reaches only what is finished. -/
theorem Searching.visited_of_reaches {search : Search} (h : Searching graph search)
    {a b : ResolvedPath} (ha : search.visited.get a = some .visited)
    (hab : ReflTransGen graph.DependsOn a b) : search.visited.get b = some .visited := by
  induction hab with
  | refl => exact ha
  | tail _ hr ih => exact h.closed ih hr

/-- Entering a node that can be visited next extends the walk. -/
theorem Searching.enter {search : Search} (h : Searching graph search) {node : ResolvedPath}
    (hnode : search.visited.get node = some .unvisited) (hnext : Next graph search node) :
    Searching graph (search.enter node) ∧
      (search.enter node).remaining + 1 = search.remaining := by
  have hnotOnPath : node ∉ search.path := by
    rw [← h.on_path, hnode]
    simp
  have hvisited : ∀ {a}, (search.enter node).visited.get a = some .visited →
      search.visited.get a = some .visited := by
    intro a ha
    rw [Search.enter, OrderedMap.get_set] at ha
    split at ha
    · exact absurd ha (by simp)
    · exact ha
  have hkept : ∀ {a}, search.visited.get a = some .visited →
      (search.enter node).visited.get a = some .visited := by
    intro a ha
    -- the node itself was unvisited
    have hne : a ≠ node := by
      rintro rfl
      rw [hnode] at ha
      exact absurd ha (by simp)
    simpa [Search.enter, hne] using ha
  refine ⟨⟨fun a ↦ ?_, fun a ↦ ?_, ?_, ?_, fun ha hab ↦ hkept (h.closed (hvisited ha) hab),
    fun ha ↦ h.acyclic (hvisited ha)⟩, ?_⟩
  · rw [← h.marks, Search.enter, OrderedMap.get_set]
    split
    · rename_i heq
      rw [heq, hnode]
      rfl
    · rfl
  · rw [Search.enter, OrderedMap.get_set, List.mem_append, List.mem_singleton]
    split
    · rename_i heq
      simp [heq]
    · rename_i hne
      rw [h.on_path]
      simp [hne]
  · rw [Search.enter, List.nodup_append]
    refine ⟨h.nodup, List.nodup_singleton node, ?_⟩
    rintro a ha b hb rfl
    exact hnotOnPath (List.mem_singleton.mp hb ▸ ha)
  · rw [Search.enter, List.isChain_append]
    refine ⟨h.chain, by simp, fun last hlast other hother ↦ ?_⟩
    simp only [List.head?_cons, Option.mem_def, Option.some.injEq] at hother
    exact hother ▸ hnext.2 last hlast
  · -- one node fewer is unvisited
    have htotal := OrderedMap.total_set_of_get_some hnode
      (fun _ mark ↦ if mark = Mark.unvisited then 1 else 0) .visiting
    simpa [Search.enter, Search.remaining] using htotal

/-- Finishing a node whose dependencies are all finished. -/
theorem Searching.finish {search left : Search} (h : Searching graph left) (node : ResolvedPath)
    (hpath : left.path = search.path ++ [node])
    (hdeps : ∀ b, graph.DependsOn node b → left.visited.get b = some .visited) :
    Searching graph (left.finish node) ∧ (left.finish node).path = search.path ∧
      (left.finish node).remaining = left.remaining := by
  have hvisiting : left.visited.get node = some .visiting := by
    rw [h.on_path, hpath]
    simp
  have hnodup := h.nodup
  rw [hpath, List.nodup_append] at hnodup
  have hfinishPath : (left.finish node).path = search.path := by
    rw [Search.finish, hpath, List.dropLast_concat]
  have hcases : ∀ {a}, (left.finish node).visited.get a = some .visited →
      a = node ∨ left.visited.get a = some .visited := by
    intro a ha
    rw [Search.finish, OrderedMap.get_set] at ha
    split at ha
    · exact .inl ‹_›
    · exact .inr ha
  have hkept : ∀ {a}, left.visited.get a = some .visited →
      (left.finish node).visited.get a = some .visited := by
    intro a ha
    rw [Search.finish, OrderedMap.get_set]
    split
    · rfl
    · exact ha
  refine ⟨⟨fun a ↦ ?_, fun a ↦ ?_, ?_, ?_, fun {a b} ha hab ↦ ?_, fun {a} ha hcycle ↦ ?_⟩,
    hfinishPath, ?_⟩
  · rw [← h.marks, Search.finish, OrderedMap.get_set]
    split
    · rename_i heq
      rw [heq, hvisiting]
      rfl
    · rfl
  · rw [hfinishPath, Search.finish, OrderedMap.get_set]
    split
    · rename_i heq
      subst heq
      simpa using fun ha ↦ hnodup.2.2 _ ha _ (by simp) rfl
    · rename_i hne
      rw [h.on_path, hpath]
      simp [hne]
  · rw [hfinishPath]
    exact hnodup.1
  · rw [hfinishPath]
    have hchain := h.chain
    rw [hpath, List.isChain_append] at hchain
    exact hchain.1
  · rcases hcases ha with rfl | ha
    · exact hkept (hdeps b hab)
    · exact hkept (h.closed ha hab)
  · rcases hcases ha with rfl | ha
    · -- a cycle through the node would finish it before it is finished
      obtain ⟨b, hab, hba⟩ := TransGen.head'_iff.mp hcycle
      have := h.visited_of_reaches (hdeps b hab) hba
      rw [hvisiting] at this
      exact absurd this (by simp)
    · exact h.acyclic ha hcycle
  · -- the node was on the path, so the number of unvisited nodes stays
    have htotal := OrderedMap.total_set_of_get_some hvisiting
      (fun _ mark ↦ if mark = Mark.unvisited then 1 else 0) .visited
    simpa [Search.finish, Search.remaining] using htotal

/-! ## The search -/

/-- Visiting nodes one after another, each within the bound. -/
theorem anyHasCycle_spec {bound : ℕ} {visit : ResolvedPath → Search → Option (Bool × Search)}
    (hvisit : ∀ node, Visits graph bound [node] (visit node)) (nodes : List ResolvedPath) :
    Visits graph bound nodes (anyHasCycle visit nodes) := by
  induction nodes with
  | nil => exact fun search h _ _ ↦ .inr ⟨search, rfl, h.advanced, by simp⟩
  | cons node rest ih =>
      intro search h hnext hbound
      rcases hvisit node search h (by simpa using hnext node (by simp)) hbound with
        ⟨found, heq, hfound⟩ | ⟨middle, heq, hadvanced, hnode⟩
      · exact .inl ⟨found, by rw [anyHasCycle, heq], hfound⟩
      · have hnext' : ∀ other ∈ rest, Next graph middle other := by
          intro other hother
          obtain ⟨hdestination, hlast⟩ := hnext other (List.mem_cons_of_mem _ hother)
          exact ⟨hdestination, hadvanced.path ▸ hlast⟩
        rcases ih middle hadvanced.searching hnext' (hadvanced.remaining.trans_lt hbound) with
          ⟨found, heq', hfound⟩ | ⟨left, heq', hadvanced', hrest⟩
        · exact .inl ⟨found, by rw [anyHasCycle, heq]; exact heq', hfound⟩
        · refine .inr ⟨left, by rw [anyHasCycle, heq]; exact heq', hadvanced.trans hadvanced', ?_⟩
          intro other hother
          rcases List.mem_cons.mp hother with rfl | hother
          · exact hadvanced'.visited (hnode other (by simp))
          · exact hrest other hother

/-- Visiting one node. The bound on the unvisited nodes bounds the depth of the recursion. -/
theorem hasCycle_spec (hclosed : graph.Closed) (fuel : ℕ) (node : ResolvedPath) :
    Visits graph fuel [node] (hasCycle graph.dependencies fuel node) := by
  induction fuel generalizing node with
  | zero => exact fun search _ _ hbound ↦ absurd hbound (Nat.not_lt_zero _)
  | succ fuel ih =>
      intro search h hnext hbound
      have hnext := hnext node (by simp)
      cases hmark : search.visited.get node with
      | none =>
          -- every destination has a mark
          have hmarks := h.marks node
          rw [hmark, hnext.1] at hmarks
          exact absurd hmarks (by simp)
      | some mark =>
          cases mark with
          | visiting =>
              refine .inl ⟨{ search with cycleNode := some node }, by simp only [hasCycle, hmark],
                node, rfl, (h.on_path node).mp hmark, ?_⟩
              rw [List.isChain_append]
              refine ⟨h.chain, by simp, fun last hlast other hother ↦ ?_⟩
              simp only [List.head?_cons, Option.mem_def, Option.some.injEq] at hother
              exact hother ▸ hnext.2 last hlast
          | visited =>
              exact .inr ⟨search, by simp only [hasCycle, hmark], h.advanced, by simpa using hmark⟩
          | unvisited =>
              obtain ⟨hentered, hremaining⟩ := h.enter hmark hnext
              have hdeps : ∀ b, graph.DependsOn node b ↔
                  b ∈ (graph.dependencies.get node).elim [] OrderedMap.keys :=
                fun b ↦ OrderedMap.mem_elim_keys.symm
              have hnextDeps : ∀ b ∈ (graph.dependencies.get node).elim [] OrderedMap.keys,
                  Next graph (search.enter node) b := by
                intro b hb
                have hedge := (hdeps b).mpr hb
                refine ⟨hclosed.target hedge, fun last hlast ↦ ?_⟩
                rw [Search.enter, List.getLast?_concat, Option.mem_def, Option.some.injEq] at hlast
                exact hlast ▸ hedge
              -- the recursion visits the dependencies with the node on the path
              rcases anyHasCycle_spec ih _ (search.enter node) hentered hnextDeps (by omega) with
                ⟨found, heq, hfound⟩ | ⟨left, heq, hadvanced, hvisited⟩
              · exact .inl ⟨found, by simp only [hasCycle, hmark, heq], hfound⟩
              · obtain ⟨hfinished, hpath, hsame⟩ := hadvanced.searching.finish node
                  hadvanced.path fun b hb ↦ hvisited b ((hdeps b).mp hb)
                refine .inr ⟨left.finish node, by simp only [hasCycle, hmark, heq],
                  ⟨hfinished, hpath, ?_, fun {a} ha ↦ ?_⟩, ?_⟩
                · have := hadvanced.remaining
                  omega
                · have hne : a ≠ node := by
                    rintro rfl
                    rw [hmark] at ha
                    exact absurd ha (by simp)
                  have hleft := hadvanced.visited (a := a) (by simpa [Search.enter, hne] using ha)
                  simpa [Search.finish, hne] using hleft
                · simp [Search.finish]

/-! ## The result -/

/-- The cycle that is cut out of a closed walk. -/
theorem extractCycle_isCycle {found : Search} {node : ResolvedPath} (hnode : node ∈ found.path)
    (hchain : (found.path ++ [node]).IsChain graph.DependsOn) :
    IsCycle graph.DependsOn (extractCycle found.path node) := by
  obtain ⟨before, after, heq, hbefore⟩ := List.eq_append_cons_of_mem hnode
  have hcycle : extractCycle found.path node = node :: (after ++ [node]) := by
    have hidx : found.path.idxOf? node = some before.length := by
      rw [List.idxOf?_eq_some_iff, heq]
      refine ⟨by simp, by simp, fun j hj hnode ↦ hbefore ?_⟩
      rw [List.getElem_append_left hj] at hnode
      exact hnode ▸ List.getElem_mem hj
    rw [extractCycle, hidx, Option.getD_some, heq, List.drop_left]
    rfl
  rw [hcycle]
  refine ⟨by simp, ?_, ?_⟩
  · rw [List.head?_cons, ← List.cons_append, List.getLast?_concat]
  · rw [heq, List.append_assoc, List.isChain_append] at hchain
    exact hchain.2.1

/-- The outer loop: either a cycle, or every node is finished. -/
theorem detectFrom_spec (hclosed : graph.Closed) {fuel : ℕ} {nodes : List ResolvedPath}
    {search : Search} (h : Searching graph search) (hpath : search.path = [])
    (hnodes : ∀ node ∈ nodes, (graph.destinations.get node).isSome)
    (hbound : search.remaining < fuel) :
    (∃ cycle, detectFrom graph.dependencies fuel nodes search = some (some cycle) ∧
      IsCycle graph.DependsOn cycle) ∨
    (detectFrom graph.dependencies fuel nodes search = some none ∧
      ∃ left, Searching graph left ∧
        ∀ node, node ∈ nodes ∨ search.visited.get node = some .visited →
          left.visited.get node = some .visited) := by
  induction nodes generalizing search with
  | nil => exact .inr ⟨rfl, search, h, by simp⟩
  | cons node rest ih =>
      have hrest : ∀ other ∈ rest, (graph.destinations.get other).isSome :=
        fun other hother ↦ hnodes other (List.mem_cons_of_mem _ hother)
      by_cases hmark : search.visited.get node = some .unvisited
      · have hnext : ∀ other ∈ [node], Next graph search other := by
          intro other hother
          rw [List.mem_singleton] at hother
          subst hother
          exact ⟨hnodes other (by simp), by simp [hpath]⟩
        rcases hasCycle_spec hclosed fuel node search h hnext hbound with
          ⟨found, heq, cycleNode, hcycleNode, hmem, hchain⟩ | ⟨left, heq, hadvanced, hvisited⟩
        · refine .inl ⟨extractCycle found.path cycleNode, ?_, extractCycle_isCycle hmem hchain⟩
          simp only [detectFrom, if_pos hmark, heq, hcycleNode, Option.map_some, Option.getD_some]
        · have hdetect : detectFrom graph.dependencies fuel (node :: rest) search =
              detectFrom graph.dependencies fuel rest left := by
            simp only [detectFrom, if_pos hmark, heq]
          rw [hdetect]
          rcases ih hadvanced.searching (hadvanced.path.trans hpath) hrest
            (hadvanced.remaining.trans_lt hbound) with hfound | ⟨hnone, final, hfinal, hall⟩
          · exact .inl hfound
          · refine .inr ⟨hnone, final, hfinal, fun other hother ↦ hall other ?_⟩
            rcases hother with hother | hother
            · rcases List.mem_cons.mp hother with rfl | hother
              · exact .inr (hvisited other (by simp))
              · exact .inl hother
            · exact .inr (hadvanced.visited hother)
      · have hdetect : detectFrom graph.dependencies fuel (node :: rest) search =
            detectFrom graph.dependencies fuel rest search := by
          rw [detectFrom, if_neg hmark]
        -- between two starts nothing is on the path, so the node is unvisited or finished
        have hvisited : search.visited.get node = some .visited := by
          have hmarks := h.marks node
          rw [hnodes node (by simp)] at hmarks
          obtain ⟨mark, hget⟩ := Option.isSome_iff_exists.mp hmarks
          cases mark with
          | unvisited => exact absurd hget hmark
          | visiting =>
              have := (h.on_path node).mp hget
              rw [hpath] at this
              exact absurd this (by simp)
          | visited => exact hget
        rw [hdetect]
        rcases ih h hpath hrest hbound with hfound | ⟨hnone, final, hfinal, hall⟩
        · exact .inl hfound
        · refine .inr ⟨hnone, final, hfinal, fun other hother ↦ hall other ?_⟩
          rcases hother with hother | hother
          · rcases List.mem_cons.mp hother with rfl | hother
            · exact .inr hvisited
            · exact .inl hother
          · exact .inr hother

/-- The search returns a cycle, or nothing on an acyclic graph. -/
theorem detectCircularDependency_spec (hclosed : graph.Closed) {fuel : ℕ}
    (hfuel : graph.destinations.size < fuel) :
    (∃ cycle, detectCircularDependency graph fuel = some (some cycle) ∧
      IsCycle graph.DependsOn cycle) ∨
    (detectCircularDependency graph fuel = some none ∧ Acyclic graph.DependsOn) := by
  have hmarks : ∀ a mark, (graph.destinations.mapValues fun _ ↦ Mark.unvisited).get a =
      some mark → mark = .unvisited := by
    intro a mark hmark
    rw [OrderedMap.get_mapValues, Option.map_eq_some_iff] at hmark
    obtain ⟨-, -, rfl⟩ := hmark
    rfl
  have hstart : Searching graph ⟨graph.destinations.mapValues fun _ ↦ .unvisited, [], none⟩ := by
    refine ⟨fun a ↦ by simp, fun a ↦ ?_, List.nodup_nil, List.isChain_nil, fun ha ↦ ?_,
      fun ha ↦ ?_⟩
    · simp
    · exact absurd (hmarks _ _ ha) (by simp)
    · exact absurd (hmarks _ _ ha) (by simp)
  have hremaining : Search.remaining ⟨graph.destinations.mapValues fun _ ↦ .unvisited, [], none⟩ ≤
      graph.destinations.size := by
    refine (OrderedMap.total_le_size _ fun _ mark ↦ ?_).trans (OrderedMap.size_mapValues _ _).le
    split <;> simp
  have hnodes : ∀ node ∈ graph.destinations.keys, (graph.destinations.get node).isSome := by
    intro node hnode
    obtain ⟨value, hvalue⟩ := OrderedMap.mem_keys.mp hnode
    rw [hvalue]
    rfl
  rcases detectFrom_spec hclosed hstart rfl hnodes (hremaining.trans_lt hfuel) with
    hfound | ⟨hnone, left, hsearching, hall⟩
  · exact .inl hfound
  · refine .inr ⟨hnone, fun a hcycle ↦ ?_⟩
    obtain ⟨b, ⟨set, hset, -⟩, -⟩ := TransGen.head'_iff.mp hcycle
    have hdestination : (graph.destinations.get a).isSome := by
      rw [← hclosed.keys, hset]
      rfl
    obtain ⟨value, hvalue⟩ := Option.isSome_iff_exists.mp hdestination
    exact hsearching.acyclic (hall a (.inl (OrderedMap.mem_keys.mpr ⟨value, hvalue⟩))) hcycle

end CoreUtils.Embedex
