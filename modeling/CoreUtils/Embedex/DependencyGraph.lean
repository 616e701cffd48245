import CoreUtils.Embedex.Types
import CoreUtils.Library.SetMap

/-!
# The dependency graph of destinations

`dependencyGraph.ts`: which destinations embed other destinations, the depth-first search for a
cycle among them, and Kahn's algorithm for the order in which to process them. The search and the
loop take a bound on their depth and length; `none` means that the bound was too small.
-/

namespace CoreUtils.Embedex

/-- Which destinations have to be processed before which. -/
structure DependencyGraph where
  dependencies : OrderedMap ResolvedPath (OrderedSet ResolvedPath)
  destinations : OrderedSet ResolvedPath

/-- Enter the sources of one destination that are destinations themselves. -/
def addDependencies (destinations : OrderedSet ResolvedPath)
    (dependencies : OrderedMap ResolvedPath (OrderedSet ResolvedPath))
    (entry : ResolvedPath × Destination) : OrderedMap ResolvedPath (OrderedSet ResolvedPath) :=
  entry.2.sources.keys.foldl
    (fun dependencies sourcePath ↦
      if destinations.has sourcePath then
        dependencies.addTo entry.1 sourcePath
      else dependencies)
    dependencies

/-- The graph of a destination map. -/
def buildDependencyGraph (destinationMap : DestinationMap) : DependencyGraph :=
  let destinations : OrderedSet ResolvedPath := destinationMap.mapValues fun _ ↦ ()
  let empty := destinationMap.mapValues fun _ ↦ (.empty : OrderedSet ResolvedPath)
  { dependencies := destinationMap.entries.foldl (addDependencies destinations) empty
    destinations := destinations }

/-! ## Cycle detection -/

/-- The marks of the search: the numbers 0, 1 and 2 of the code. -/
inductive Mark where
  | unvisited
  | visiting
  | visited
  deriving DecidableEq

/-- The variables that the recursive calls of the search share. -/
structure Search where
  visited : OrderedMap ResolvedPath Mark
  path : List ResolvedPath
  cycleNode : Option ResolvedPath

/-- Mark a node as visiting and put it at the end of the path. -/
def Search.enter (search : Search) (node : ResolvedPath) : Search :=
  { search with visited := search.visited.set node .visiting, path := search.path ++ [node] }

/-- Mark a node as visited and take the last node off the path. -/
def Search.finish (search : Search) (node : ResolvedPath) : Search :=
  { search with visited := search.visited.set node .visited, path := search.path.dropLast }

/-- Visit nodes until a visit reports a cycle. -/
def anyHasCycle (visit : ResolvedPath → Search → Option (Bool × Search)) :
    List ResolvedPath → Search → Option (Bool × Search)
  | [], search => some (false, search)
  | node :: rest, search =>
      match visit node search with
      | none => none
      | some (true, found) => some (true, found)
      | some (false, left) => anyHasCycle visit rest left

/-- The depth-first search from a node. -/
def hasCycle (dependencies : OrderedMap ResolvedPath (OrderedSet ResolvedPath)) :
    ℕ → ResolvedPath → Search → Option (Bool × Search)
  | 0, _, _ => none
  | fuel + 1, node, search =>
      match search.visited.get node with
      | some .visiting => some (true, { search with cycleNode := some node })
      | some .visited => some (false, search)
      | some .unvisited | none =>
          let deps := (dependencies.get node).elim [] OrderedMap.keys
          match anyHasCycle (hasCycle dependencies fuel) deps (search.enter node) with
          | none => none
          | some (true, found) => some (true, found)
          | some (false, left) => some (false, left.finish node)

/-- The part of the path from a node on, closed by that node. An index of -1 slices off all but the
last element. -/
def extractCycle (path : List ResolvedPath) (cycleNode : ResolvedPath) : List ResolvedPath :=
  path.drop ((path.idxOf? cycleNode).getD (path.length - 1)) ++ [cycleNode]

/-- Search from every node that no earlier search has reached. -/
def detectFrom (dependencies : OrderedMap ResolvedPath (OrderedSet ResolvedPath)) (fuel : ℕ) :
    List ResolvedPath → Search → Option (Option (List ResolvedPath))
  | [], _ => some none
  | destination :: rest, search =>
      if search.visited.get destination = some .unvisited then
        match hasCycle dependencies fuel destination search with
        | none => none
        | some (true, found) =>
            some (some ((found.cycleNode.map (extractCycle found.path)).getD []))
        | some (false, left) => detectFrom dependencies fuel rest left
      else detectFrom dependencies fuel rest search

/-- The cycle that the search finds, if there is one. -/
def detectCircularDependency (graph : DependencyGraph) (fuel : ℕ) :
    Option (Option (List ResolvedPath)) :=
  detectFrom graph.dependencies fuel graph.destinations.keys
    ⟨graph.destinations.mapValues fun _ ↦ .unvisited, [], none⟩

/-! ## Topological order -/

/-- The nodes that depend on each node. -/
def dependentsOf (graph : DependencyGraph) : OrderedMap ResolvedPath (OrderedSet ResolvedPath) :=
  graph.dependencies.entries.foldl
    (fun dependents entry ↦ entry.2.keys.foldl
      (fun dependents dependency ↦ dependents.addTo dependency entry.1)
      dependents)
    (graph.destinations.mapValues fun _ ↦ .empty)

/-- Count down the in-degree of a dependent, and queue it when nothing is left to wait for. -/
def release (state : OrderedMap ResolvedPath ℤ × List ResolvedPath) (dependent : ResolvedPath) :
    OrderedMap ResolvedPath ℤ × List ResolvedPath :=
  let newDegree := (state.1.get dependent).getD 0 - 1
  (state.1.set dependent newDegree,
    if newDegree = 0 then state.2 ++ [dependent] else state.2)

/-- The loop over the queue. -/
def drainQueue (dependents : OrderedMap ResolvedPath (OrderedSet ResolvedPath)) :
    ℕ → List ResolvedPath → OrderedMap ResolvedPath ℤ → List ResolvedPath →
      Option (List ResolvedPath)
  | 0, _, _, _ => none
  | _ + 1, [], _, result => some result
  | fuel + 1, current :: queue, inDegree, result =>
      let nodeDependents := (dependents.get current).elim [] OrderedMap.keys
      let (inDegree', queue') := nodeDependents.foldl release (inDegree, queue)
      drainQueue dependents fuel queue' inDegree' (result ++ [current])

/-- The number of dependencies of each node. -/
def initialInDegree (graph : DependencyGraph) : OrderedMap ResolvedPath ℤ :=
  graph.destinations.mapWithKey fun destination _ ↦
    (((graph.dependencies.get destination).map OrderedMap.size).getD 0 : ℕ)

/-- The text of the error on a graph that has a cycle. -/
def cycleMessage : String :=
  "Graph has a cycle - should be detected before calling topologicalSort"

/-- Kahn's algorithm. A graph with a cycle is an error. -/
def topologicalSort (graph : DependencyGraph) (fuel : ℕ) :
    Option (Except String (List ResolvedPath)) :=
  let inDegree := initialInDegree graph
  let queue := (inDegree.entries.filter fun entry ↦ entry.2 = 0).map Prod.fst
  (drainQueue (dependentsOf graph) fuel queue inDegree []).map fun result ↦
    if result.length ≠ graph.destinations.size then
      .error cycleMessage
    else .ok result

/-! ## The dependency relation -/

/-- `a` depends on `b`: the text of `b` is embedded in `a`, and is embedded into itself. -/
def DependencyGraph.DependsOn (graph : DependencyGraph) (a b : ResolvedPath) : Prop :=
  graph.dependencies.Holds a b

/-- The dependencies of a graph are among its destinations. -/
structure DependencyGraph.Closed (graph : DependencyGraph) : Prop where
  keys : ∀ a, (graph.dependencies.get a).isSome = (graph.destinations.get a).isSome
  target : ∀ {a b}, graph.DependsOn a b → (graph.destinations.get b).isSome

/-- The dependents of a destination are what depends on it. -/
theorem holds_dependentsOf {graph : DependencyGraph} (h : graph.Closed) (a b : ResolvedPath) :
    (dependentsOf graph).Holds b a ↔ graph.DependsOn a b := by
  have hfold : dependentsOf graph =
      (graph.dependencies.entries.flatMap fun entry ↦ entry.2.keys.map fun dependency ↦
        (entry.1, dependency)).foldl (fun dependents edge ↦ dependents.addTo edge.2 edge.1)
        (graph.destinations.mapValues fun _ ↦ .empty) := by
    rw [List.foldl_flatMap]
    simp only [dependentsOf, List.foldl_map]
  rw [hfold, OrderedMap.holds_foldl (p := fun _ ↦ True) fun m edge ↦ .inl ⟨trivial, rfl⟩]
  have hempty : ¬(graph.destinations.mapValues fun _ ↦
      (.empty : OrderedSet ResolvedPath)).Holds b a := by
    rintro ⟨set, hset, ha⟩
    rw [OrderedMap.get_mapValues, Option.map_eq_some_iff] at hset
    obtain ⟨-, -, rfl⟩ := hset
    simp at ha
  simp only [hempty, OrderedMap.get_mapValues, Option.isSome_map, true_and, false_or,
    List.mem_flatMap, List.mem_map, Prod.exists, OrderedMap.mem_entries, OrderedMap.mem_keys]
  constructor
  · rintro ⟨-, _, _, ⟨a', set, hset, dependency, ⟨⟨⟩, hdependency⟩, heq⟩, rfl, rfl⟩
    rw [Prod.mk.injEq] at heq
    obtain ⟨rfl, rfl⟩ := heq
    exact ⟨set, hset, hdependency⟩
  · intro hab
    obtain ⟨set, hset, hb⟩ := hab
    exact ⟨h.target ⟨set, hset, hb⟩, a, b, ⟨a, set, hset, b, ⟨(), hb⟩, rfl⟩, rfl, rfl⟩

/-- The two nested loops of `buildDependencyGraph` as one loop over pairs. -/
theorem dependencies_buildDependencyGraph (destinationMap : DestinationMap) :
    (buildDependencyGraph destinationMap).dependencies =
      (destinationMap.entries.flatMap fun entry ↦ entry.2.sources.keys.map fun sourcePath ↦
        (entry.1, sourcePath)).foldl
        (fun dependencies edge ↦
          if (buildDependencyGraph destinationMap).destinations.has edge.2 then
            dependencies.addTo edge.1 edge.2
          else dependencies)
        (destinationMap.mapValues fun _ ↦ .empty) := by
  rw [List.foldl_flatMap]
  simp only [List.foldl_map]
  rfl

/-- One step of that loop. -/
theorem addDependency_step (destinations : OrderedSet ResolvedPath)
    (dependencies : OrderedMap ResolvedPath (OrderedSet ResolvedPath))
    (edge : ResolvedPath × ResolvedPath) :
    destinations.has edge.2 = true ∧
        (if destinations.has edge.2 then dependencies.addTo edge.1 edge.2 else dependencies) =
          dependencies.addTo edge.1 edge.2 ∨
      ¬destinations.has edge.2 = true ∧
        (if destinations.has edge.2 then dependencies.addTo edge.1 edge.2 else dependencies) =
          dependencies := by
  by_cases h : destinations.has edge.2 = true
  · exact .inl ⟨h, if_pos h⟩
  · exact .inr ⟨h, if_neg h⟩

/-- The graph of a destination map relates a destination to the destinations among its sources. -/
theorem dependsOn_buildDependencyGraph (destinationMap : DestinationMap) (a b : ResolvedPath) :
    (buildDependencyGraph destinationMap).DependsOn a b ↔
      (∃ destination, destinationMap.get a = some destination ∧
        destination.sources.get b = some ()) ∧ (destinationMap.get b).isSome := by
  have hempty : ¬(destinationMap.mapValues fun _ ↦
      (.empty : OrderedSet ResolvedPath)).Holds a b := by
    rintro ⟨set, hset, hb⟩
    rw [OrderedMap.get_mapValues, Option.map_eq_some_iff] at hset
    obtain ⟨-, -, rfl⟩ := hset
    simp at hb
  have hdestinations : ∀ x, (buildDependencyGraph destinationMap).destinations.has x =
      (destinationMap.get x).isSome := fun x ↦ by
    simp [buildDependencyGraph, OrderedMap.has_eq]
  rw [DependencyGraph.DependsOn, dependencies_buildDependencyGraph,
    OrderedMap.holds_foldl (addDependency_step _)]
  simp only [hempty, hdestinations, OrderedMap.get_mapValues, Option.isSome_map, false_or,
    List.mem_flatMap, List.mem_map, Prod.exists, OrderedMap.mem_entries, OrderedMap.mem_keys]
  constructor
  · rintro ⟨-, _, _, ⟨a', destination, hget, source, ⟨⟨⟩, hsource⟩, heq⟩, hb, rfl, rfl⟩
    rw [Prod.mk.injEq] at heq
    obtain ⟨rfl, rfl⟩ := heq
    exact ⟨⟨destination, hget, hsource⟩, hb⟩
  · rintro ⟨⟨destination, hget, hsource⟩, hb⟩
    exact ⟨by rw [hget]; rfl, a, b, ⟨a, destination, hget, b, ⟨(), hsource⟩, rfl⟩, hb, rfl, rfl⟩

/-- The graph of a destination map is closed. -/
theorem buildDependencyGraph_closed (destinationMap : DestinationMap) :
    (buildDependencyGraph destinationMap).Closed where
  keys a := by
    rw [dependencies_buildDependencyGraph, OrderedMap.isSome_foldl (addDependency_step _)]
    simp [buildDependencyGraph]
  target h := by
    have := ((dependsOn_buildDependencyGraph _ _ _).mp h).2
    simpa [buildDependencyGraph] using this

end CoreUtils.Embedex
