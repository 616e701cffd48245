import CoreUtils.Embedex.DependencyGraph
import CoreUtils.Library.DirectedGraph

/-!
# Kahn's algorithm sorts exactly the acyclic graphs

At every turn of the loop the in-degree of a node is the number of its dependencies that are not
yet in the result, and the nodes of in-degree zero are those in the result or in the queue
(`Draining`). When the queue is empty, either everything is in the result or the rest contains a
cycle.
-/

namespace CoreUtils.Embedex

open DirectedGraph

variable {graph : DependencyGraph}

/-- The number of dependencies of a node that are not in the result. -/
def unmet (result : List ResolvedPath) (deps : OrderedSet ResolvedPath) : ℕ :=
  deps.keys.countP (· ∉ result)

/-- What holds at the head of the loop over the queue. -/
structure Draining (graph : DependencyGraph) (queue : List ResolvedPath)
    (inDegree : OrderedMap ResolvedPath ℤ) (result : List ResolvedPath) : Prop where
  degree : ∀ a, inDegree.get a =
    (graph.dependencies.get a).map fun deps ↦ (unmet result deps : ℤ)
  nodup : (result ++ queue).Nodup
  ready : ∀ a, a ∈ result ++ queue ↔ inDegree.get a = some 0
  sorted : Sorted graph.DependsOn result

/-! ## One turn -/

/-- What releasing distinct dependents does: each in-degree goes down by one, and those that reach
zero are queued in order. -/
theorem foldl_release {dependents : List ResolvedPath} (hnodup : dependents.Nodup)
    {inDegree : OrderedMap ResolvedPath ℤ}
    (hdegrees : ∀ d ∈ dependents, (inDegree.get d).isSome) (queue : List ResolvedPath) :
    (∀ a, (dependents.foldl release (inDegree, queue)).1.get a =
      if a ∈ dependents then (inDegree.get a).map (· - 1) else inDegree.get a) ∧
    (dependents.foldl release (inDegree, queue)).2 =
      queue ++ dependents.filter fun d ↦ inDegree.get d = some 1 := by
  induction dependents generalizing inDegree queue with
  | nil => simp
  | cons dependent rest ih =>
      rw [List.nodup_cons] at hnodup
      obtain ⟨degree, hdegree⟩ := Option.isSome_iff_exists.mp (hdegrees dependent (by simp))
      have hget : ∀ a, (inDegree.set dependent (degree - 1)).get a =
          if a = dependent then some (degree - 1) else inDegree.get a :=
        fun a ↦ OrderedMap.get_set _ _ _ _
      have hrest : ∀ d ∈ rest, ((inDegree.set dependent (degree - 1)).get d).isSome := by
        intro d hd
        rw [hget]
        split
        · rfl
        · exact hdegrees d (List.mem_cons_of_mem _ hd)
      -- the dependents are distinct, so the others are still at their old in-degree
      have hsame : ∀ d ∈ rest, (inDegree.set dependent (degree - 1)).get d = inDegree.get d := by
        intro d hd
        rw [hget, if_neg]
        rintro rfl
        exact hnodup.1 hd
      rw [List.foldl_cons, release, hdegree, Option.getD_some]
      obtain ⟨hdegrees', hqueue'⟩ := ih hnodup.2 hrest
        (if degree - 1 = 0 then queue ++ [dependent] else queue)
      refine ⟨fun a ↦ ?_, ?_⟩
      · rw [hdegrees', hget]
        by_cases ha : a = dependent
        · subst ha
          rw [if_neg hnodup.1, if_pos rfl, if_pos List.mem_cons_self, hdegree, Option.map_some]
        · simp [ha]
      · rw [hqueue', List.filter_cons, hdegree]
        have hfilter : rest.filter (fun d ↦
            (inDegree.set dependent (degree - 1)).get d = some 1) =
            rest.filter fun d ↦ inDegree.get d = some 1 :=
          List.filter_congr fun d hd ↦ by rw [hsame d hd]
        rw [hfilter]
        by_cases hone : degree = 1
        · simp [hone]
        · have hne : degree - 1 ≠ 0 := by omega
          simp [hone, hne]

/-- Appending a node to the result takes it off the unmet dependencies. -/
theorem unmet_concat {result : List ResolvedPath} {current : ResolvedPath}
    (hcurrent : current ∉ result) (deps : OrderedSet ResolvedPath) :
    unmet (result ++ [current]) deps + (if deps.get current = some () then 1 else 0) =
      unmet result deps := by
  have hmem : deps.get current = some () ↔ current ∈ deps.keys := by
    rw [OrderedMap.mem_keys]
    exact ⟨fun h ↦ ⟨(), h⟩, fun ⟨_, h⟩ ↦ h⟩
  have hnodup : deps.keys.Nodup := deps.nodup
  simp only [hmem, unmet]
  generalize deps.keys = keys at hnodup
  induction keys with
  | nil => rfl
  | cons key rest ih =>
      rw [List.nodup_cons] at hnodup
      have hrec := ih hnodup.2
      rw [List.countP_cons, List.countP_cons]
      by_cases hkey : key = current
      · subst hkey
        rw [if_neg hnodup.1] at hrec
        simp only [List.mem_append, List.mem_cons, true_or, or_true, not_true_eq_false,
          decide_false, hcurrent, not_false_eq_true, decide_true, if_true]
        simpa using hrec
      · have hiff : key ∉ result ++ [current] ↔ key ∉ result := by simp [hkey]
        have hcons : current ∈ key :: rest ↔ current ∈ rest := by simp [Ne.symm hkey]
        simp only [hiff, hcons]
        omega

/-- A node has no unmet dependency when all of them are in the result. -/
theorem unmet_eq_zero {result : List ResolvedPath} {deps : OrderedSet ResolvedPath} :
    unmet result deps = 0 ↔ ∀ b, deps.get b = some () → b ∈ result := by
  rw [unmet, List.countP_eq_zero]
  simp only [OrderedMap.mem_keys, decide_not, Bool.not_eq_true', decide_eq_false_iff_not, not_not]
  refine ⟨fun h b hb ↦ h b ⟨(), hb⟩, ?_⟩
  rintro h b ⟨_, hb⟩
  exact h b hb

/-- A list followed by a node whose dependencies it holds. -/
theorem sorted_concat {result : List ResolvedPath} (h : Sorted graph.DependsOn result)
    {current : ResolvedPath} (hdeps : ∀ b, graph.DependsOn current b → b ∈ result) :
    Sorted graph.DependsOn (result ++ [current]) := by
  intro before a after heq b hab
  rcases Text.concat_eq_append_cons.mp heq with ⟨rfl, rfl, -⟩ | ⟨init, -, hsplit⟩
  · exact hdeps b hab
  · exact h before a init hsplit b hab

/-- The nodes that the loop releases when it takes a node off the queue. -/
def nodeDependents (graph : DependencyGraph) (current : ResolvedPath) : List ResolvedPath :=
  ((dependentsOf graph).get current).elim [] OrderedMap.keys

/-- These are the nodes that depend on it. -/
theorem mem_nodeDependents (hclosed : graph.Closed) {a current : ResolvedPath} :
    a ∈ nodeDependents graph current ↔ graph.DependsOn a current :=
  OrderedMap.mem_elim_keys.trans (holds_dependentsOf hclosed a current)

/-- Each of them is released once. -/
theorem nodup_nodeDependents (graph : DependencyGraph) (current : ResolvedPath) :
    (nodeDependents graph current).Nodup := by
  unfold nodeDependents
  cases (dependentsOf graph).get current with
  | none => exact List.nodup_nil
  | some set => exact set.nodup

section Turn

variable {current : ResolvedPath} {queue result : List ResolvedPath}
  {inDegree : OrderedMap ResolvedPath ℤ}

/-- The head of the queue is not in the result. -/
theorem Draining.head_not_mem (h : Draining graph (current :: queue) inDegree result) :
    current ∉ result := by
  have hnodup := h.nodup
  rw [List.nodup_append] at hnodup
  exact fun hin ↦ hnodup.2.2 _ hin _ List.mem_cons_self rfl

/-- The in-degree is zero exactly if all dependencies are in the result. -/
theorem Draining.zero_iff (h : Draining graph queue inDegree result) {a : ResolvedPath}
    {deps : OrderedSet ResolvedPath} (hdeps : graph.dependencies.get a = some deps) :
    inDegree.get a = some 0 ↔ ∀ b, deps.get b = some () → b ∈ result := by
  rw [h.degree, hdeps, Option.map_some, Option.some.injEq, Int.natCast_eq_zero, unmet_eq_zero]

/-- Lowering the in-degree of the dependents of a node keeps count of the unmet dependencies. -/
theorem Draining.degree_turn (hclosed : graph.Closed)
    (h : Draining graph (current :: queue) inDegree result) (a : ResolvedPath) :
    (if a ∈ nodeDependents graph current then (inDegree.get a).map (· - 1) else inDegree.get a) =
      (graph.dependencies.get a).map fun deps ↦ (unmet (result ++ [current]) deps : ℤ) := by
  rw [h.degree]
  cases hdeps : graph.dependencies.get a with
  | none => simp
  | some deps =>
      have hunmet := unmet_concat h.head_not_mem deps
      by_cases ha : a ∈ nodeDependents graph current
      · obtain ⟨set, hset, hget⟩ := (mem_nodeDependents hclosed).mp ha
        rw [hdeps, Option.some.injEq] at hset
        subst hset
        rw [if_pos hget] at hunmet
        rw [if_pos ha, Option.map_some, Option.map_some, Option.map_some, Option.some.injEq]
        omega
      · have hget : ¬deps.get current = some () :=
          fun hget ↦ ha ((mem_nodeDependents hclosed).mpr ⟨deps, hdeps, hget⟩)
        rw [if_neg hget, Nat.add_zero] at hunmet
        rw [if_neg ha, Option.map_some, Option.map_some, hunmet]

/-- The nodes that reach in-degree zero are the dependents of in-degree one. -/
theorem Draining.ready_turn (hclosed : graph.Closed)
    (h : Draining graph (current :: queue) inDegree result) (a : ResolvedPath) :
    (inDegree.get a = some 0 ∨
        a ∈ nodeDependents graph current ∧ inDegree.get a = some 1) ↔
      (if a ∈ nodeDependents graph current then (inDegree.get a).map (· - 1)
        else inDegree.get a) = some 0 := by
  -- a node of in-degree zero has no dependency outside the result, so it is not released
  have hself : inDegree.get a = some 0 → a ∉ nodeDependents graph current := by
    intro hzero hin
    obtain ⟨deps, hdeps, hget⟩ := (mem_nodeDependents hclosed).mp hin
    exact h.head_not_mem ((h.zero_iff hdeps).mp hzero current hget)
  constructor
  · rintro (hzero | ⟨ha, hone⟩)
    · rw [if_neg (hself hzero), hzero]
    · rw [if_pos ha, hone]
      rfl
  · intro hzero
    by_cases ha : a ∈ nodeDependents graph current
    · rw [if_pos ha, Option.map_eq_some_iff] at hzero
      obtain ⟨degree, hdegree, hsub⟩ := hzero
      have hone : degree = 1 := by omega
      exact .inr ⟨ha, hone ▸ hdegree⟩
    · rw [if_neg ha] at hzero
      exact .inl hzero

/-- One turn of the loop. -/
theorem Draining.turn (hclosed : graph.Closed)
    (h : Draining graph (current :: queue) inDegree result) :
    let state := (nodeDependents graph current).foldl release (inDegree, queue)
    Draining graph state.2 state.1 (result ++ [current]) := by
  intro state
  have hdegrees : ∀ d ∈ nodeDependents graph current, (inDegree.get d).isSome := by
    intro d hd
    obtain ⟨deps, hdeps, -⟩ := (mem_nodeDependents hclosed).mp hd
    rw [h.degree, hdeps]
    rfl
  obtain ⟨hdegrees', hqueue'⟩ := foldl_release (nodup_nodeDependents graph current) hdegrees queue
  have hsplit : result ++ [current] ++ state.2 =
      (result ++ current :: queue) ++
        (nodeDependents graph current).filter fun d ↦ inDegree.get d = some 1 := by
    show result ++ [current] ++ ((nodeDependents graph current).foldl release _).2 = _
    rw [hqueue']
    simp
  constructor
  case degree => exact fun a ↦ (hdegrees' a).trans (h.degree_turn hclosed a)
  case nodup =>
    rw [hsplit, List.nodup_append]
    refine ⟨h.nodup, (nodup_nodeDependents graph current).filter _, ?_⟩
    rintro a ha b hb rfl
    have hone : inDegree.get a = some 1 := by simpa using (List.mem_filter.mp hb).2
    have hzero := (h.ready a).mp ha
    rw [hone] at hzero
    exact absurd hzero (by simp)
  case ready =>
    intro a
    show _ ↔ ((nodeDependents graph current).foldl release _).1.get a = some 0
    rw [hsplit, List.mem_append, hdegrees', ← h.ready_turn hclosed, h.ready, List.mem_filter,
      decide_eq_true_eq]
  case sorted =>
    refine sorted_concat h.sorted fun b hb ↦ ?_
    obtain ⟨deps, hdeps, hget⟩ := hb
    have hzero := (h.ready current).mp (by simp)
    exact (h.zero_iff hdeps).mp hzero b hget

end Turn

/-! ## The loop -/

/-- What is in the result or the queue is a destination. -/
theorem Draining.subset (hclosed : graph.Closed) {queue result : List ResolvedPath}
    {inDegree : OrderedMap ResolvedPath ℤ} (h : Draining graph queue inDegree result) :
    result ++ queue ⊆ graph.destinations.keys := by
  intro a ha
  have hzero := (h.ready a).mp ha
  rw [h.degree, Option.map_eq_some_iff] at hzero
  obtain ⟨deps, hdeps, -⟩ := hzero
  have hdestination : (graph.destinations.get a).isSome := by
    rw [← hclosed.keys, hdeps]
    rfl
  obtain ⟨value, hvalue⟩ := Option.isSome_iff_exists.mp hdestination
  exact OrderedMap.mem_keys.mpr ⟨value, hvalue⟩

/-- The result and the queue hold each destination at most once. -/
theorem Draining.length_le (hclosed : graph.Closed) {queue result : List ResolvedPath}
    {inDegree : OrderedMap ResolvedPath ℤ} (h : Draining graph queue inDegree result) :
    result.length + queue.length ≤ graph.destinations.size := by
  have hsubperm := h.nodup.subperm (h.subset hclosed)
  simpa [OrderedMap.keys, OrderedMap.size] using hsubperm.length_le

/-- The loop ends with an empty queue: every turn moves a destination to the result. -/
theorem drainQueue_spec (hclosed : graph.Closed) {fuel : ℕ} {queue result : List ResolvedPath}
    {inDegree : OrderedMap ResolvedPath ℤ} (h : Draining graph queue inDegree result)
    (hfuel : graph.destinations.size < fuel + result.length) :
    ∃ inDegree' final, drainQueue (dependentsOf graph) fuel queue inDegree result = some final ∧
      Draining graph [] inDegree' final := by
  induction fuel generalizing queue inDegree result with
  | zero =>
      have := h.length_le hclosed
      omega
  | succ fuel ih =>
      cases queue with
      | nil => exact ⟨inDegree, result, rfl, h⟩
      | cons current queue =>
          have hturn := h.turn hclosed
          obtain ⟨inDegree', final, hfinal, hdone⟩ := ih hturn (by
            rw [List.length_append, List.length_singleton]
            omega)
          exact ⟨inDegree', final, hfinal, hdone⟩

/-- The variables before the loop. -/
theorem draining_start (hclosed : graph.Closed) :
    Draining graph (((initialInDegree graph).entries.filter fun entry ↦ entry.2 = 0).map Prod.fst)
      (initialInDegree graph) [] := by
  have hdegree : ∀ a, (initialInDegree graph).get a =
      (graph.dependencies.get a).map fun deps ↦ (unmet [] deps : ℤ) := by
    intro a
    have hkeys := hclosed.keys a
    rw [initialInDegree, OrderedMap.get_mapWithKey]
    cases hdeps : graph.dependencies.get a with
    | none =>
        rw [hdeps] at hkeys
        have hnone : graph.destinations.get a = none := by simpa using hkeys.symm
        rw [hnone]
        rfl
    | some deps =>
        rw [hdeps] at hkeys
        obtain ⟨value, hvalue⟩ := Option.isSome_iff_exists.mp hkeys.symm
        have hall : unmet [] deps = deps.size := by
          simp [unmet, OrderedMap.keys, OrderedMap.size, List.countP_true]
        rw [hvalue, Option.map_some, Option.map_some, Option.map_some, Option.getD_some, hall]
  refine ⟨hdegree, ?_, fun a ↦ ?_, fun before a after heq ↦ ?_⟩
  · rw [List.nil_append]
    exact (initialInDegree graph).nodup.sublist ((List.filter_sublist).map _)
  · simp [List.mem_filter, OrderedMap.mem_entries]
  · exact absurd heq (by simp)

/-- Kahn's algorithm returns the destinations in dependency order, or fails on a graph that has a
cycle. -/
theorem topologicalSort_spec (hclosed : graph.Closed) {fuel : ℕ}
    (hfuel : graph.destinations.size < fuel) :
    (∃ order, topologicalSort graph fuel = some (.ok order) ∧
      order.Perm graph.destinations.keys ∧ Sorted graph.DependsOn order ∧
        Acyclic graph.DependsOn) ∨
    (topologicalSort graph fuel = some (.error cycleMessage) ∧ ¬Acyclic graph.DependsOn) := by
  have hroom : graph.destinations.size < fuel + ([] : List ResolvedPath).length := by
    simpa using hfuel
  obtain ⟨inDegree, final, hfinal, hdone⟩ :=
    drainQueue_spec hclosed (draining_start hclosed) hroom
  have hnodup : final.Nodup := by simpa using hdone.nodup
  have hsubset : final ⊆ graph.destinations.keys := by simpa using hdone.subset hclosed
  have hsource : ∀ {a b}, graph.DependsOn a b → a ∈ graph.destinations.keys := by
    rintro a b ⟨deps, hdeps, -⟩
    have hdestination : (graph.destinations.get a).isSome := by
      rw [← hclosed.keys, hdeps]
      rfl
    obtain ⟨value, hvalue⟩ := Option.isSome_iff_exists.mp hdestination
    exact OrderedMap.mem_keys.mpr ⟨value, hvalue⟩
  -- the source compares the lengths to tell whether a cycle is left
  by_cases hlength : final.length = graph.destinations.size
  · have hperm : final.Perm graph.destinations.keys :=
      (hnodup.subperm hsubset).perm_of_length_le
        (by simp [OrderedMap.keys, hlength, OrderedMap.size])
    refine .inl ⟨final, ?_, hperm, hdone.sorted,
      hdone.sorted.acyclic fun hab ↦ hperm.mem_iff.mpr (hsource hab)⟩
    simp only [topologicalSort, hfinal, Option.map_some]
    rw [if_neg (not_not.mpr hlength)]
  · refine .inr ⟨?_, fun hacyclic ↦ ?_⟩
    · simp only [topologicalSort, hfinal, Option.map_some]
      rw [if_pos hlength]
    · -- what is left over has in-degree above zero, and its unmet dependencies are left over too
      have hmissing : graph.destinations.keys.filter (· ∉ final) ≠ [] := by
        intro hnone
        rw [List.filter_eq_nil_iff] at hnone
        have hall : graph.destinations.keys ⊆ final := fun a ha ↦ by simpa using hnone a ha
        have hle := (graph.destinations.nodup.subperm hall).length_le
        have hge := (hnodup.subperm hsubset).length_le
        simp only [OrderedMap.keys, List.length_map, OrderedMap.size] at hle hge hlength
        omega
      obtain ⟨a, ha, hminimal⟩ := hacyclic.exists_minimal hmissing
      obtain ⟨hkey, hnot⟩ := List.mem_filter.mp ha
      have hnotFinal : a ∉ final := by simpa using hnot
      obtain ⟨value, hvalue⟩ := OrderedMap.mem_keys.mp hkey
      have hkeys := hclosed.keys a
      rw [hvalue] at hkeys
      obtain ⟨deps, hdeps⟩ := Option.isSome_iff_exists.mp hkeys
      refine hnotFinal ?_
      have hready := (hdone.ready a).mpr
      rw [List.append_nil, hdone.degree, hdeps, Option.map_some, Option.some.injEq,
        Int.natCast_eq_zero, unmet_eq_zero] at hready
      refine hready fun b hb ↦ ?_
      by_contra hmissed
      have hedge : graph.DependsOn a b := ⟨deps, hdeps, hb⟩
      obtain ⟨other, hother⟩ := Option.isSome_iff_exists.mp (hclosed.target hedge)
      refine hminimal b (List.mem_filter.mpr ⟨OrderedMap.mem_keys.mpr ⟨other, hother⟩, ?_⟩) hedge
      simpa using hmissed

end CoreUtils.Embedex
