import CoreUtils.FlakeLinter.Dependencies
import Mathlib.Data.List.Induction

/-!
# The dependency collections are least closed sets

The seeds and the references of a function body are defined by where the nodes stand in the tree,
without the code's walks: `IsReturnSeed` and `IsBailSeed` say what a collection begins with,
`References` that an expression mentions a name with a recorded initializer. The walks of the code
are folds over the nodes in document order (`visit_eq`, `addReferencedInitializers_eq`), and its
two loops are one worklist (`resultLoop_eq`, `retryLoop_eq`), which ends with the least closed set.
-/

namespace CoreUtils.FlakeLinter

open RoseTree (Position Before Visited preorder preorderChildren)
open Worklist (pushNew Closed)

/-! ## Seeds and references -/

/-- Whether `ts.forEachChild` visits a child. -/
def isSyntax (data : NodeData) : Bool := data.property ≠ .jsDoc

/-- Whether a child is visited and belongs to the same function. -/
def isOwn (data : NodeData) : Bool := data.property ≠ .jsDoc ∧ data.kind ≠ .functionLike

/-- A node in the body of a function and in none of the functions inside it. -/
def Own (root : Node) (body p : Position) (node : Node) : Prop :=
  ∃ t, root.subtree body = some t ∧ Visited isOwn body t p node

/-- An `if` statement around a node, inside the body, has this condition. -/
def Governs (root : Node) (body p condition : Position) : Prop :=
  ∃ ancestor, ancestor <:+ p ∧ ancestor ≠ p ∧ body <:+ ancestor ∧ ancestor ≠ body ∧
    ifCondition root ancestor = some condition

/-- A returned expression, or a condition that governs its `return`. -/
def IsReturnSeed (root : Node) (body seed : Position) : Prop :=
  ∃ p node expression, Own root body p node ∧ node.label.kind = .returnStatement ∧
    propertyOf node .expression = some expression ∧
    (seed = expression.1 :: p ∨ Governs root body p seed)

/-- A condition that governs a call of the bail parameter. -/
def IsBailSeed (root : Node) (body : Position) (bailParameterName : String) (seed : Position) :
    Prop :=
  ∃ p node, Own root body p node ∧ isBailCall bailParameterName node = true ∧
    Governs root body p seed

/-- The initializer recorded for a name: that of the last declaration of the name. -/
def Records (root : Node) (body : Position) (text : String) (initializer : Position) : Prop :=
  ∃ p node, Own root body p node ∧ namedInitializer p node = some (text, initializer) ∧
    ∀ q other later, Own root body q other → namedInitializer q other = some (text, later) →
      ¬Before p q

/-- The subtree of a node has an identifier in it. -/
def Mentions (root : Node) (dependency : Position) (text : String) : Prop :=
  ∃ t q node, root.subtree dependency = some t ∧ Visited isSyntax dependency t q node ∧
    identifierText node = some text

/-- A node mentions a name with a recorded initializer. -/
def References (root : Node) (body dependency initializer : Position) : Prop :=
  ∃ text, Mentions root dependency text ∧ Records root body text initializer

/-! ## Conditions on the way up -/

/-- The collection only grows at its end. -/
theorem addGoverningConditions_append (root : Node) (boundary p : Position)
    (dependencies : List Position) :
    addGoverningConditions root boundary p dependencies =
      dependencies ++ addGoverningConditions root boundary p [] := by
  induction p generalizing dependencies with
  | nil => simp [addGoverningConditions]
  | cons i ancestor ih =>
      rw [addGoverningConditions, addGoverningConditions]
      split
      · simp
      · rw [ih, ih ([] ++ _), List.nil_append, List.append_assoc]

/-- The climb from a node below the boundary adds the conditions that govern the node. -/
theorem mem_addGoverningConditions {root : Node} {body p condition : Position}
    (hbelow : body <:+ p) (hne : body ≠ p) :
    condition ∈ addGoverningConditions root body p [] ↔ Governs root body p condition := by
  induction p with
  | nil => exact absurd (List.suffix_nil.mp hbelow) hne
  | cons i parent ih =>
      have hparent : body <:+ parent := (List.suffix_cons_iff.mp hbelow).resolve_left hne
      rw [addGoverningConditions]
      split
      · rename_i hboundary
        -- between a child of the body and the body there is nothing
        refine iff_of_false List.not_mem_nil ?_
        rintro ⟨ancestor, hancestor, hself, hbody, hother, -⟩
        have hupper := (List.suffix_cons_iff.mp hancestor).resolve_left hself
        rw [hboundary] at hupper
        exact hother (hupper.eq_of_length_le hbody.length_le)
      · rename_i hboundary
        rw [addGoverningConditions_append, List.nil_append, List.mem_append, Option.mem_toList,
          ih hparent fun heq ↦ hboundary heq.symm]
        constructor
        · rintro (hcondition | ⟨ancestor, hancestor, -, hrest⟩)
          · exact ⟨parent, List.suffix_cons i parent, by simp, hparent, hboundary, hcondition⟩
          · refine ⟨ancestor, hancestor.trans (List.suffix_cons i parent), ?_, hrest⟩
            rintro rfl
            exact absurd hancestor.length_le (by simp)
        · rintro ⟨ancestor, hancestor, hself, hbody, hother, hcondition⟩
          have hupper := (List.suffix_cons_iff.mp hancestor).resolve_left hself
          by_cases hlast : ancestor = parent
          · exact .inl (hlast ▸ hcondition)
          · exact .inr ⟨ancestor, hupper, hlast, hbody, hother, hcondition⟩

/-! ## The visit as a fold -/

variable {push : Position → Node → List Position → List Position}

/-- A visit handles its nodes in document order. -/
theorem visit_eq {p : Position} {t : Node} (h : p = [] ∨ t.label.kind ≠ .functionLike)
    (collected : Collected) :
    visit push p t collected = (preorder isOwn p t).foldl
      (fun collected entry ↦ collect push entry.1 entry.2 collected) collected := by
  induction t using RoseTree.childInduction generalizing p collected with
  | node data children ih =>
      have hvisit : ¬(p ≠ [] ∧ data.kind = .functionLike) := by
        rintro ⟨hp, hkind⟩
        exact h.elim hp fun hkind' ↦ hkind' hkind
      rw [visit, if_neg hvisit, preorder, List.foldl_cons]
      generalize collect push p (.node data children) collected = state
      clear h hvisit
      generalize 0 = i
      induction children generalizing i state with
      | nil => rw [visitChildren, preorderChildren, List.foldl_nil]
      | cons child rest ihRest =>
          obtain ⟨hchild, hrest⟩ := List.forall_mem_cons.mp ih
          rw [visitChildren, preorderChildren]
          by_cases hdoc : child.label.property = .jsDoc
          · rw [if_pos hdoc, if_neg (by simp [isOwn, hdoc]), ihRest hrest]
          · rw [if_neg hdoc, ihRest hrest]
            by_cases hkind : child.label.kind = .functionLike
            · have hskip : visit push (i :: p) child state = state := by
                cases child
                exact if_pos ⟨List.cons_ne_nil i p, hkind⟩
              rw [hskip, if_neg (by simp [isOwn, hkind])]
            · rw [if_pos (by simp [isOwn, hdoc, hkind]), List.foldl_append,
                hchild (.inr hkind)]

/-- The two halves of a collection are filled independently of each other. -/
theorem foldl_collect (entries : List (Position × Node)) (collected : Collected) :
    entries.foldl (fun collected entry ↦ collect push entry.1 entry.2 collected) collected =
      { dependencies := entries.foldl
          (fun dependencies entry ↦ push entry.1 entry.2 dependencies) collected.dependencies
        initializerByName := entries.foldl
          (fun initializers entry ↦ recordInitializer entry.1 entry.2 initializers)
          collected.initializerByName } := by
  induction entries generalizing collected with
  | nil => rfl
  | cons entry entries ih =>
      rw [List.foldl_cons, ih]
      rfl

/-- A declaration of a name stores its initializer. -/
theorem get_recordInitializer {p initializer : Position} {node : Node} {text : String}
    (h : namedInitializer p node = some (text, initializer))
    (initializerByName : OrderedMap String Position) :
    (recordInitializer p node initializerByName).get text = some initializer := by
  rw [recordInitializer, h, Option.elim_some, OrderedMap.get_set, if_pos rfl]

/-- Any other node leaves the name as it was. -/
theorem get_recordInitializer_of_other {p : Position} {node : Node} {text : String}
    (h : ∀ initializer, namedInitializer p node ≠ some (text, initializer))
    (initializerByName : OrderedMap String Position) :
    (recordInitializer p node initializerByName).get text = initializerByName.get text := by
  cases hnamed : namedInitializer p node with
  | none => rw [recordInitializer, hnamed, Option.elim_none]
  | some entry =>
      have hother : text ≠ entry.1 := by
        rintro rfl
        exact h entry.2 hnamed
      rw [recordInitializer, hnamed, Option.elim_some, OrderedMap.get_set, if_neg hother]

/-- What has been recorded after some nodes in document order. -/
theorem get_foldl_recordInitializer {entries : List (Position × Node)} {text : String}
    {initializer : Position} (h : entries.Pairwise fun a b ↦ Before a.1 b.1) :
    (entries.foldl (fun initializers entry ↦ recordInitializer entry.1 entry.2 initializers)
        OrderedMap.empty).get text = some initializer ↔
      ∃ entry ∈ entries, namedInitializer entry.1 entry.2 = some (text, initializer) ∧
        ∀ other ∈ entries, ∀ later, namedInitializer other.1 other.2 = some (text, later) →
          ¬Before entry.1 other.1 := by
  induction entries using List.reverseRecOn with
  | nil => simp
  | append_singleton entries last ih =>
      obtain ⟨hbefore, -, hlast⟩ := List.pairwise_append.mp h
      replace hlast : ∀ entry ∈ entries, Before entry.1 last.1 := fun entry hentry ↦
        hlast entry hentry last (.head _)
      rw [List.foldl_concat]
      -- the last node either declares the name, or changes nothing about it
      by_cases hname : ∃ stored, namedInitializer last.1 last.2 = some (text, stored)
      · obtain ⟨stored, hstored⟩ := hname
        rw [get_recordInitializer hstored]
        constructor
        · rintro ⟨⟩
          refine ⟨last, by simp, hstored, fun other hother _ _ ↦ ?_⟩
          rcases List.mem_append.mp hother with hother | hother
          · exact (hlast other hother).asymm
          · rw [List.mem_singleton.mp hother]
            exact RoseTree.not_before_self _
        · rintro ⟨entry, hentry, hnamed, hfinal⟩
          rcases List.mem_append.mp hentry with hentry | hentry
          · exact absurd (hlast entry hentry) (hfinal last (by simp) stored hstored)
          · rw [List.mem_singleton.mp hentry, hstored] at hnamed
            exact congrArg some (Prod.mk.inj (Option.some.inj hnamed)).2
      · replace hname := not_exists.mp hname
        rw [get_recordInitializer_of_other hname, ih hbefore]
        constructor
        · rintro ⟨entry, hentry, hnamed, hfinal⟩
          refine ⟨entry, List.mem_append_left _ hentry, hnamed, fun other hother later hlater ↦ ?_⟩
          rcases List.mem_append.mp hother with hother | hother
          · exact hfinal other hother later hlater
          · rw [List.mem_singleton.mp hother] at hlater
            exact absurd hlater (hname later)
        · rintro ⟨entry, hentry, hnamed, hfinal⟩
          rcases List.mem_append.mp hentry with hentry | hentry
          · exact ⟨entry, hentry, hnamed, fun other hother ↦
              hfinal other (List.mem_append_left _ hother)⟩
          · rw [List.mem_singleton.mp hentry] at hnamed
            exact absurd hnamed (hname initializer)

/-- A push only appends, and what it appends does not depend on the collection. -/
def Appends (push : Position → Node → List Position → List Position) : Prop :=
  ∀ p node dependencies, push p node dependencies = dependencies ++ push p node []

/-- What the nodes of a visit push. -/
theorem mem_foldl_push (h : Appends push) {entries : List (Position × Node)}
    {dependencies : List Position} {seed : Position} :
    seed ∈ entries.foldl (fun dependencies entry ↦ push entry.1 entry.2 dependencies)
        dependencies ↔
      seed ∈ dependencies ∨ ∃ entry ∈ entries, seed ∈ push entry.1 entry.2 [] := by
  induction entries generalizing dependencies with
  | nil => simp
  | cons entry entries ih =>
      rw [List.foldl_cons, ih, h]
      simp only [List.mem_append, List.exists_mem_cons_iff, or_assoc]

/-! ## Names as references -/

/-- `addReferencedInitializers` appends the initializers of the names in document order, each
unless it is there. -/
theorem addReferencedInitializers_eq (initializerByName : OrderedMap String Position)
    (p : Position) (t : Node) (dependencies : List Position) :
    addReferencedInitializers initializerByName p t dependencies =
      ((preorder isSyntax p t).filterMap fun entry ↦
        initializerOf initializerByName entry.2).foldl pushNew dependencies := by
  induction t using RoseTree.childInduction generalizing p dependencies with
  | node data children ih =>
      have hself : ((preorder isSyntax p (.node data children)).filterMap fun entry ↦
          initializerOf initializerByName entry.2).foldl pushNew dependencies =
          ((preorderChildren isSyntax p 0 children).filterMap fun entry ↦
            initializerOf initializerByName entry.2).foldl pushNew
            ((initializerOf initializerByName (.node data children)).elim dependencies
              (pushNew dependencies)) := by
        rw [preorder, List.filterMap_cons]
        cases initializerOf initializerByName (.node data children) <;> rfl
      rw [hself, addReferencedInitializers]
      generalize Option.elim _ dependencies _ = state
      clear hself
      generalize 0 = i
      induction children generalizing i state with
      | nil => rw [addReferencedInChildren, preorderChildren, List.filterMap_nil, List.foldl_nil]
      | cons child rest ihRest =>
          obtain ⟨hchild, hrest⟩ := List.forall_mem_cons.mp ih
          rw [addReferencedInChildren, preorderChildren]
          by_cases hdoc : child.label.property = .jsDoc
          · rw [if_pos hdoc, if_neg (by simp [isSyntax, hdoc]), ihRest hrest]
          · rw [if_neg hdoc, ihRest hrest, if_pos (by simp [isSyntax, hdoc]), hchild,
              List.filterMap_append, List.foldl_append]

/-- The initializers that a node of the tree refers to. -/
def referenced (root : Node) (initializerByName : OrderedMap String Position)
    (dependency : Position) : List Position :=
  (root.subtree dependency).elim [] fun t ↦
    (preorder isSyntax dependency t).filterMap fun entry ↦ initializerOf initializerByName entry.2

/-- Handling a dependency appends what it refers to. -/
theorem addReferencedAt_eq (root : Node) (initializerByName : OrderedMap String Position)
    (dependency : Position) (dependencies : List Position) :
    addReferencedAt root initializerByName dependency dependencies =
      (referenced root initializerByName dependency).foldl pushNew dependencies := by
  rw [addReferencedAt, referenced]
  cases root.subtree dependency with
  | none => rfl
  | some t => exact addReferencedInitializers_eq _ _ _ _

/-- A node refers to the initializers stored for the names it mentions. -/
theorem mem_referenced {root : Node} {initializerByName : OrderedMap String Position}
    {dependency initializer : Position} :
    initializer ∈ referenced root initializerByName dependency ↔
      ∃ text, Mentions root dependency text ∧ initializerByName.get text = some initializer := by
  rw [referenced]
  constructor
  · intro h
    cases ht : root.subtree dependency with
    | none => simp [ht] at h
    | some t =>
        rw [ht, Option.elim_some] at h
        obtain ⟨⟨q, node⟩, hmem, hinitializer⟩ := List.mem_filterMap.mp h
        obtain ⟨text, htext, hget⟩ := Option.bind_eq_some_iff.mp hinitializer
        exact ⟨text, ⟨t, q, node, ht, RoseTree.mem_preorder.mp hmem, htext⟩, hget⟩
  · rintro ⟨text, ⟨t, q, node, ht, hvisited, htext⟩, hget⟩
    rw [ht, Option.elim_some]
    refine List.mem_filterMap.mpr ⟨(q, node), RoseTree.mem_preorder.mpr hvisited, ?_⟩
    exact Option.bind_eq_some_iff.mpr ⟨text, htext, hget⟩

/-- Whatever is referred to has been recorded. -/
theorem referenced_subset (root : Node) (initializerByName : OrderedMap String Position)
    (dependency : Position) :
    referenced root initializerByName dependency ⊆ initializerByName.values := by
  intro initializer h
  obtain ⟨text, -, hget⟩ := mem_referenced.mp h
  exact List.mem_map.mpr ⟨_, OrderedMap.mem_entries.mpr hget, rfl⟩

/-! ## The loops as a worklist -/

variable (root : Node) (initializerByName : OrderedMap String Position)

/-- The `while` loop works through the dependencies; its `continue` is never reached. -/
theorem resultLoop_eq (fuel index : ℕ) (dependencies : List Position) :
    resultLoop root initializerByName fuel index dependencies =
      Worklist.run (referenced root initializerByName) fuel index dependencies := by
  induction fuel generalizing index dependencies with
  | zero => rfl
  | succ fuel ih =>
      rw [resultLoop, Worklist.run]
      split
      · rename_i hindex
        rw [List.getElem?_eq_getElem hindex]
        simp only [addReferencedAt_eq, ih]
      · rename_i hindex
        rw [List.getElem?_eq_none (Nat.le_of_not_lt hindex)]

/-- The `for` loop works through the dependencies, since its iterator reads the live array. -/
theorem retryLoop_eq (fuel index : ℕ) (dependencies : List Position) :
    retryLoop root initializerByName fuel ⟨index⟩ dependencies =
      Worklist.run (referenced root initializerByName) fuel index dependencies := by
  induction fuel generalizing index dependencies with
  | zero => rfl
  | succ fuel ih =>
      rw [retryLoop, Worklist.run, ArrayIterator.next]
      cases dependencies[index]? with
      | none => rfl
      | some dependency =>
          show retryLoop root initializerByName fuel ⟨index + 1⟩ _ = _
          rw [ih, addReferencedAt_eq]

/-! ## Visited bodies -/

variable {root} {body : Position} {t : Node}

/-- The nodes of a body that belong to the function are those of the visit. -/
theorem own_iff (hbody : root.subtree body = some t) {p : Position} {node : Node} :
    Own root body p node ↔ (p, node) ∈ preorder isOwn body t := by
  rw [RoseTree.mem_preorder]
  constructor
  · rintro ⟨t', ht', hvisited⟩
    rw [hbody] at ht'
    exact Option.some.inj ht' ▸ hvisited
  · exact fun hvisited ↦ ⟨t, hbody, hvisited⟩

/-- A node of another kind than the body is below the body. -/
theorem Own.below {p : Position} {node : Node} (h : Own root body p node)
    (hbody : root.subtree body = some t) (hkind : node.label.kind ≠ t.label.kind) :
    body <:+ p ∧ body ≠ p := by
  obtain ⟨t', ht', hvisited⟩ := h
  obtain ⟨r, rfl⟩ := hvisited.extends
  refine ⟨List.suffix_append r body, fun hself ↦ hkind ?_⟩
  have hnode := hvisited.subtree ht'
  rw [← hself, hbody] at hnode
  rw [Option.some.inj hnode]

/-- What the visit records. -/
theorem get_visit (hbody : root.subtree body = some t) (hkind : t.label.kind ≠ .functionLike)
    {text : String} {initializer : Position} :
    (visit push body t ⟨[], .empty⟩).initializerByName.get text = some initializer ↔
      Records root body text initializer := by
  rw [visit_eq (.inr hkind), foldl_collect,
    get_foldl_recordInitializer (RoseTree.preorder_pairwise isOwn body t)]
  simp only [Records, own_iff hbody, Prod.exists, Prod.forall]
  grind

/-- What the visit collects. -/
theorem mem_visit (hbody : root.subtree body = some t) (hkind : t.label.kind ≠ .functionLike)
    (h : Appends push) {seed : Position} :
    seed ∈ (visit push body t ⟨[], .empty⟩).dependencies ↔
      ∃ p node, Own root body p node ∧ seed ∈ push p node [] := by
  rw [visit_eq (.inr hkind), foldl_collect, mem_foldl_push h]
  simp only [own_iff hbody, Prod.exists, List.not_mem_nil, false_or]

/-- The worklist over what a visit has collected ends with the least set that is closed under the
references of the body. -/
theorem worklist_isLeast (hbody : root.subtree body = some t)
    (hkind : t.label.kind ≠ .functionLike) (happends : Appends push) {IsSeed : Position → Prop}
    (hseeds : ∀ seed, (∃ p node, Own root body p node ∧ seed ∈ push p node []) ↔ IsSeed seed) :
    ∃ bound dependencies, (∀ fuel, bound < fuel →
        Worklist.run
          (referenced root (visit push body t ⟨[], .empty⟩).initializerByName) fuel 0
          (visit push body t ⟨[], .empty⟩).dependencies = some dependencies) ∧
      IsLeast {s | Closed {seed | IsSeed seed} (References root body) s}
        {d | d ∈ dependencies} := by
  obtain ⟨dependencies, hrun, hleast⟩ := Worklist.run_isLeast
    (referenced_subset root (visit push body t ⟨[], .empty⟩).initializerByName)
    (visit push body t ⟨[], .empty⟩).dependencies
  refine ⟨_, dependencies, hrun, Worklist.isLeast_congr hleast (fun seed ↦ ?_) fun a b ↦ ?_⟩
  · exact (mem_visit hbody hkind happends).trans (hseeds seed)
  · rw [mem_referenced]
    simp only [get_visit hbody hkind, References]

/-! ## Positions of nodes -/

/-- The value of a property stands below the node. -/
theorem subtree_of_propertyOf {p : Position} {node : Node} {property : PropertyName}
    {value : ℕ × Node} (hnode : root.subtree p = some node)
    (h : propertyOf node property = some value) : root.subtree (value.1 :: p) = some value.2 := by
  obtain ⟨i, -, hvalue⟩ := Option.bind_eq_some_iff.mp h
  obtain ⟨child, hchild, heq⟩ := Option.bind_eq_some_iff.mp hvalue
  obtain rfl := Option.some.inj heq
  rw [RoseTree.subtree, hnode]
  exact hchild

/-! ## The result of a predicate -/

/-- What the result of a predicate depends on in the first place: a body that is an expression,
or the seeds of a block. -/
def IsResultSeed (predicate : Node) (seed : Position) : Prop :=
  ∃ predicateBody, propertyOf predicate .body = some predicateBody ∧
    (predicateBody.2.label.kind = .block ∧ IsReturnSeed predicate [predicateBody.1] seed ∨
      predicateBody.2.label.kind ≠ .block ∧ seed = [predicateBody.1])

/-- The references in a predicate. Only the declarations of a block are recorded. -/
def ResultReferences (predicate : Node) (dependency initializer : Position) : Prop :=
  ∃ predicateBody, propertyOf predicate .body = some predicateBody ∧
    predicateBody.2.label.kind = .block ∧
    References predicate [predicateBody.1] dependency initializer

/-- What a `return` pushes does not depend on the collection. -/
theorem appends_pushReturn (root : Node) (boundary : Position) :
    Appends (pushReturn root boundary) := by
  intro p node dependencies
  rw [pushReturn, pushReturn]
  split
  · cases propertyOf node .expression with
    | none => simp
    | some expression =>
        rw [Option.elim_some, Option.elim_some, addGoverningConditions_append,
          addGoverningConditions_append root boundary p ([] ++ _), List.nil_append,
          List.append_assoc]
  · simp

/-- The visit of a predicate collects the seeds of its block. -/
theorem mem_pushReturn (hbody : root.subtree body = some t) (hblock : t.label.kind = .block)
    (seed : Position) :
    (∃ p node, Own root body p node ∧ seed ∈ pushReturn root body p node []) ↔
      IsReturnSeed root body seed := by
  constructor
  · rintro ⟨p, node, hown, hseed⟩
    rw [pushReturn] at hseed
    split at hseed
    · rename_i hreturn
      obtain ⟨hbelow, hne⟩ := hown.below hbody (by simp [hreturn, hblock])
      cases hexpression : propertyOf node .expression with
      | none => simp [hexpression] at hseed
      | some expression =>
          rw [hexpression, Option.elim_some, addGoverningConditions_append, List.nil_append,
            List.mem_append, List.mem_singleton, mem_addGoverningConditions hbelow hne] at hseed
          exact ⟨p, node, expression, hown, hreturn, hexpression, hseed⟩
    · simp at hseed
  · rintro ⟨p, node, expression, hown, hreturn, hexpression, hseed⟩
    obtain ⟨hbelow, hne⟩ := hown.below hbody (by simp [hreturn, hblock])
    refine ⟨p, node, hown, ?_⟩
    rwa [pushReturn, if_pos hreturn, hexpression, Option.elim_some, addGoverningConditions_append,
      List.nil_append, List.mem_append, List.mem_singleton, mem_addGoverningConditions hbelow hne]

/-- `getPredicateResultDependencies` ends, with the least set that contains the seeds of the
predicate and is closed under its references. -/
theorem getPredicateResultDependencies_isLeast (predicate : Node) :
    ∃ bound dependencies,
      (∀ fuel, bound < fuel → getPredicateResultDependencies fuel predicate = some dependencies) ∧
      IsLeast {s | Closed {seed | IsResultSeed predicate seed} (ResultReferences predicate) s}
        {d | d ∈ dependencies} := by
  cases hproperty : propertyOf predicate .body with
  | none =>
      refine ⟨0, [], fun fuel _ ↦ by simp [getPredicateResultDependencies, hproperty], ?_, ?_⟩
      · exact ⟨by simp [IsResultSeed, hproperty], by simp [ResultReferences, hproperty]⟩
      · simp [lowerBounds]
  | some predicateBody =>
      have hbody := subtree_of_propertyOf (p := []) rfl hproperty
      by_cases hblock : predicateBody.2.label.kind = .block
      · obtain ⟨bound, dependencies, hrun, hleast⟩ := worklist_isLeast hbody (by simp [hblock])
          (appends_pushReturn predicate [predicateBody.1]) (mem_pushReturn hbody hblock)
        refine ⟨bound, dependencies, fun fuel hfuel ↦ ?_, ?_⟩
        · simp only [getPredicateResultDependencies, hproperty, hblock, if_true, resultLoop_eq]
          exact hrun fuel hfuel
        · refine Worklist.isLeast_congr hleast (fun seed ↦ ?_) fun a b ↦ ?_
          · simp [IsResultSeed, hproperty, hblock, IsReturnSeed]
          · simp [ResultReferences, hproperty, hblock]
      · refine ⟨0, [[predicateBody.1]], fun fuel _ ↦ ?_, ?_, ?_⟩
        · simp [getPredicateResultDependencies, hproperty, hblock]
        · exact ⟨by simp [IsResultSeed, hproperty, hblock],
            by simp [ResultReferences, hproperty, hblock]⟩
        · intro s hs d hd
          exact hs.seeds (by simpa [IsResultSeed, hproperty, hblock] using hd)

/-! ## The bail calls of a retry -/

/-- What a bail call pushes does not depend on the collection. -/
theorem appends_pushBail (root : Node) (boundary : Position) (bailParameterName : String) :
    Appends (pushBail root boundary bailParameterName) := by
  intro p node dependencies
  rw [pushBail, pushBail]
  split
  · exact addGoverningConditions_append root boundary p dependencies
  · simp

/-- A call is no block. -/
theorem kind_of_isBailCall {bailParameterName : String} {node : Node}
    (h : isBailCall bailParameterName node = true) : node.label.kind = .callExpression := by
  simp only [isBailCall, Bool.and_eq_true, decide_eq_true_eq] at h
  exact h.1

/-- The visit of a retry callback collects what governs its bail calls. -/
theorem mem_pushBail (hbody : root.subtree body = some t) (hblock : t.label.kind = .block)
    (bailParameterName : String) (seed : Position) :
    (∃ p node, Own root body p node ∧ seed ∈ pushBail root body bailParameterName p node []) ↔
      IsBailSeed root body bailParameterName seed := by
  refine exists₂_congr fun p node ↦ and_congr_right fun hown ↦ ?_
  by_cases hcall : isBailCall bailParameterName node = true
  · obtain ⟨hbelow, hne⟩ := hown.below hbody (by simp [kind_of_isBailCall hcall, hblock])
    rw [pushBail, if_pos hcall, mem_addGoverningConditions hbelow hne, and_iff_right hcall]
  · simp [pushBail, hcall]

/-- The checks leave a block. -/
theorem of_retryScope {callback : Node} {scope : RetryScope}
    (h : retryScope callback = some scope) :
    callback.subtree [scope.bodyIndex] = some scope.body ∧ scope.body.label.kind = .block := by
  obtain ⟨callbackBody, hproperty, h⟩ := Option.bind_eq_some_iff.mp h
  split at h
  · rename_i hblock
    obtain ⟨parameter, -, h⟩ := Option.bind_eq_some_iff.mp h
    obtain ⟨bailParameter, -, h⟩ := Option.bind_eq_some_iff.mp h
    obtain ⟨bailParameterName, -, h⟩ := Option.bind_eq_some_iff.mp h
    obtain rfl := Option.some.inj h
    exact ⟨subtree_of_propertyOf rfl hproperty, hblock⟩
  · contradiction

/-- `getChildren` reaches every identifier below a node. -/
theorem containsClassifierReference_iff (classifierPatterns : List (String → Bool))
    (p : Position) (t : Node) :
    containsClassifierReference classifierPatterns t = true ↔
      ∃ q node text, Visited (fun _ ↦ true) p t q node ∧ identifierText node = some text ∧
        ∃ pattern ∈ classifierPatterns, pattern text = true := by
  simp only [← RoseTree.mem_preorder]
  induction t using RoseTree.childInduction generalizing p with
  | node data children ih =>
      have hchildren : ∀ k, someContainsClassifierReference classifierPatterns children = true ↔
          ∃ q node text, (q, node) ∈ preorderChildren (fun _ ↦ true) p k children ∧
            identifierText node = some text ∧
              ∃ pattern ∈ classifierPatterns, pattern text = true := by
        induction children with
        | nil => simp [someContainsClassifierReference, preorderChildren]
        | cons child rest ihRest =>
            obtain ⟨hchild, hrest⟩ := List.forall_mem_cons.mp ih
            intro k
            rw [someContainsClassifierReference, Bool.or_eq_true, hchild (k :: p),
              ihRest hrest (k + 1), preorderChildren, if_pos rfl]
            simp only [List.mem_append, or_and_right, exists_or]
      rw [containsClassifierReference, Bool.or_eq_true, hchildren 0, preorder]
      simp only [List.mem_cons, or_and_right, exists_or, Prod.mk.injEq, Option.any_eq_true,
        List.any_eq_true]
      refine or_congr ?_ Iff.rfl
      constructor
      · rintro ⟨text, htext, pattern, hpattern, hmatch⟩
        exact ⟨p, _, text, ⟨rfl, rfl⟩, htext, pattern, hpattern, hmatch⟩
      · rintro ⟨q, node, text, ⟨rfl, rfl⟩, htext, pattern, hpattern, hmatch⟩
        exact ⟨text, htext, pattern, hpattern, hmatch⟩

/-- The collection of a retry callback ends as the least set that contains what governs the bail
calls and is closed under the references of the callback. -/
theorem retryDependencies_isLeast {callback : Node} {scope : RetryScope}
    (h : retryScope callback = some scope) :
    ∃ bound dependencies,
      (∀ fuel, bound < fuel → retryDependencies fuel callback scope = some dependencies) ∧
      IsLeast {s | Closed
          {seed | IsBailSeed callback [scope.bodyIndex] scope.bailParameterName seed}
          (References callback [scope.bodyIndex]) s} {d | d ∈ dependencies} := by
  obtain ⟨hbody, hblock⟩ := of_retryScope h
  obtain ⟨bound, dependencies, hrun, hleast⟩ := worklist_isLeast hbody (by simp [hblock])
    (appends_pushBail callback [scope.bodyIndex] scope.bailParameterName)
    (mem_pushBail hbody hblock scope.bailParameterName)
  refine ⟨bound, dependencies, fun fuel hfuel ↦ ?_, hleast⟩
  rw [retryDependencies, retryLoop_eq]
  exact hrun fuel hfuel

/-! ## Both functions -/

/-- A classifier pattern matches an identifier in the subtree of a node. -/
def ContainsClassifier (root : Node) (classifierPatterns : List (String → Bool))
    (dependency : Position) : Prop :=
  ∃ t q node text, root.subtree dependency = some t ∧
    Visited (fun _ ↦ true) dependency t q node ∧ identifierText node = some text ∧
      ∃ pattern ∈ classifierPatterns, pattern text = true

/-- The search at a position. -/
theorem containsClassifierReferenceAt_iff {root : Node} {classifierPatterns : List (String → Bool)}
    {dependency : Position} :
    containsClassifierReferenceAt root classifierPatterns dependency = true ↔
      ContainsClassifier root classifierPatterns dependency := by
  rw [containsClassifierReferenceAt, ContainsClassifier, Option.any_eq_true]
  refine exists_congr fun t ↦ ?_
  rw [containsClassifierReference_iff classifierPatterns dependency t]
  simp only [exists_and_left]

/-- For every predicate the loop ends, with the least set that contains the seeds of its result
and is closed under references. For every retry callback the checks fail, or the loop ends with the
least such set for its bail calls, and the answer is whether that set contains a classifier. -/
theorem dependencies_isLeast :
    (∀ predicate : Node, ∃ bound dependencies,
      (∀ fuel, bound < fuel → getPredicateResultDependencies fuel predicate = some dependencies) ∧
      IsLeast {s | Closed {seed | IsResultSeed predicate seed} (ResultReferences predicate) s}
        {d | d ∈ dependencies}) ∧
    ∀ (callback : Node) (classifierPatterns : List (String → Bool)),
      (retryScope callback = none ∧
        ∀ fuel, usesTransientClassifierToGovernRetry fuel classifierPatterns callback =
          some false) ∨
      ∃ scope bound dependencies result, retryScope callback = some scope ∧
        (∀ fuel, bound < fuel → retryDependencies fuel callback scope = some dependencies ∧
          usesTransientClassifierToGovernRetry fuel classifierPatterns callback = some result) ∧
        IsLeast {s | Closed
            {seed | IsBailSeed callback [scope.bodyIndex] scope.bailParameterName seed}
            (References callback [scope.bodyIndex]) s} {d | d ∈ dependencies} ∧
        (result = true ↔ ∃ d ∈ dependencies, ContainsClassifier callback classifierPatterns d) := by
  refine ⟨getPredicateResultDependencies_isLeast, fun callback classifierPatterns ↦ ?_⟩
  cases hscope : retryScope callback with
  | none =>
      exact .inl ⟨rfl, fun fuel ↦ by rw [usesTransientClassifierToGovernRetry, hscope]⟩
  | some scope =>
      obtain ⟨bound, dependencies, hrun, hleast⟩ := retryDependencies_isLeast hscope
      refine .inr ⟨scope, bound, dependencies,
        dependencies.any (containsClassifierReferenceAt callback classifierPatterns), rfl,
        fun fuel hfuel ↦ ⟨hrun fuel hfuel, ?_⟩, hleast, ?_⟩
      · rw [usesTransientClassifierToGovernRetry, hscope]
        exact congrArg (· >>= _) (hrun fuel hfuel)
      · simp only [List.any_eq_true, containsClassifierReferenceAt_iff]

/-- An identifier on a property. -/
def identifier (property : PropertyName) (text : String) : Node :=
  .node ⟨property, .identifier text⟩ []

/-- `const name = initializer`, both names. -/
def declaration (name initializer : String) : Node :=
  .node ⟨.other, .variableDeclaration⟩ [identifier .name name, identifier .initializer initializer]

/-- Initializers that refer to each other are collected once each. -/
example :
    getPredicateResultDependencies 9
      (.node ⟨.other, .functionLike⟩ [.node ⟨.body, .block⟩
        [declaration "a" "b", declaration "b" "a",
          .node ⟨.other, .returnStatement⟩ [identifier .expression "a"]]]) =
      some [[0, 2, 0], [1, 0, 0], [1, 1, 0]] := by
  decide

end CoreUtils.FlakeLinter
