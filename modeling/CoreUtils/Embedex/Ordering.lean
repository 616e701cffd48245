import CoreUtils.Embedex.CycleDetection
import CoreUtils.Embedex.TopologicalOrder

/-!
# The two graph algorithms agree

On the graph of any destination map the cycle search and Kahn's algorithm terminate and decide the
same question, and the order they allow puts every embedded destination before the destinations it
is embedded in.
-/

namespace CoreUtils.Embedex

open DirectedGraph

/-- In the order in which `embed` processes the destinations, everything before a position has been
processed when its turn comes, and it contains each source that is a destination itself. -/
def SourcesFirst (destinationMap : DestinationMap) (order : List ResolvedPath) : Prop :=
  ∀ before destinationPath after, order = before ++ destinationPath :: after →
    ∀ destination source, destinationMap.get destinationPath = some destination →
      destination.sources.get source = some () → (destinationMap.get source).isSome →
        source ∈ before

/-- A sorted order has the sources of each destination first. -/
theorem sourcesFirst_of_sorted {destinationMap : DestinationMap} {order : List ResolvedPath}
    (h : Sorted (buildDependencyGraph destinationMap).DependsOn order) :
    SourcesFirst destinationMap order := by
  intro before destinationPath after heq destination source hdestination hsource hboth
  refine h before destinationPath after heq source ?_
  rw [dependsOn_buildDependencyGraph]
  exact ⟨⟨destination, hdestination, hsource⟩, hboth⟩

/-- The nodes of the graph are the destinations. -/
theorem keys_buildDependencyGraph (destinationMap : DestinationMap) :
    (buildDependencyGraph destinationMap).destinations.keys = destinationMap.keys := by
  simp [buildDependencyGraph, OrderedMap.keys, OrderedMap.mapValues, OrderedMap.mapWithKey,
    Function.comp_def]

/-- There are as many nodes as destinations. -/
theorem size_buildDependencyGraph (destinationMap : DestinationMap) :
    (buildDependencyGraph destinationMap).destinations.size = destinationMap.size :=
  OrderedMap.size_mapValues _ _

/-- For every destination map, and with any bound above its size, both algorithms terminate, both
succeed exactly on the acyclic graphs, a reported cycle is a closed walk, and a returned order
lists each destination once, after everything it depends on. -/
theorem detectCircularDependency_topologicalSort (destinationMap : DestinationMap) (extra : ℕ) :
    let graph := buildDependencyGraph destinationMap
    let fuel := destinationMap.size + 1 + extra
    ∃ detected sorted, detectCircularDependency graph fuel = some detected ∧
      topologicalSort graph fuel = some sorted ∧
      (detected = none ↔ Acyclic graph.DependsOn) ∧
      (Acyclic graph.DependsOn ↔ ∃ order, sorted = .ok order) ∧
      (∀ cycle, detected = some cycle → 2 ≤ cycle.length ∧ cycle.head? = cycle.getLast? ∧
        cycle.IsChain graph.DependsOn) ∧
      ∀ order, sorted = .ok order → order.Perm destinationMap.keys ∧
        Sorted graph.DependsOn order ∧ SourcesFirst destinationMap order := by
  intro graph fuel
  have hclosed := buildDependencyGraph_closed destinationMap
  have hkeys : graph.destinations.keys = destinationMap.keys :=
    keys_buildDependencyGraph destinationMap
  have hfuel : graph.destinations.size < fuel := by
    have : graph.destinations.size = destinationMap.size := size_buildDependencyGraph destinationMap
    omega
  rcases topologicalSort_spec hclosed hfuel with
    ⟨order, hsort, hperm, hsorted, hacyclic⟩ | ⟨hsort, hcyclic⟩
  · rcases detectCircularDependency_spec hclosed hfuel with
      ⟨cycle, -, hcycle⟩ | ⟨hdetect, -⟩
    · exact absurd hacyclic hcycle.not_acyclic
    · refine ⟨none, .ok order, hdetect, hsort, iff_of_true rfl hacyclic,
        iff_of_true hacyclic ⟨order, rfl⟩, by simp, fun order' heq ↦ ?_⟩
      rw [Except.ok.injEq] at heq
      subst heq
      exact ⟨hkeys ▸ hperm, hsorted, sourcesFirst_of_sorted hsorted⟩
  · rcases detectCircularDependency_spec hclosed hfuel with
      ⟨cycle, hdetect, hcycle⟩ | ⟨-, hacyclic⟩
    · refine ⟨some cycle, .error cycleMessage, hdetect, hsort,
        iff_of_false (by simp) hcyclic, iff_of_false hcyclic (by simp), fun cycle' heq ↦ ?_,
        by simp⟩
      rw [Option.some.injEq] at heq
      subst heq
      exact ⟨hcycle.length, hcycle.closed, hcycle.edges⟩
    · exact absurd hacyclic hcyclic

end CoreUtils.Embedex
