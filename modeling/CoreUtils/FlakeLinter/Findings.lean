import CoreUtils.FlakeLinter.DependencyClosure
import CoreUtils.FlakeLinter.Linter
import CoreUtils.Library.Fuel

/-!
# What the linter reports

`Finds` says when a rule has something against a call, without the walks, climbs and loops of the
code: what a predicate looks at is what the least closed set of its dependencies mentions, names are
resolved in the nearest scope that declares a function of that name, and a comment allows what is
below it inside the same statement. For every configuration and every source file the linter ends,
and reports exactly the findings that are not allowed, in order (`violations_iff`).
-/

namespace CoreUtils.FlakeLinter

open Fuel (EndsWith)
open RoseTree (Position Visited preorder)

/-! ## Names -/

/-- A scope around a position declares a function of a name, and no scope nearer to the position
does. -/
def DeclaredAround (root : Source) (functionName : String) (p : Position) (declared : Source) :
    Prop :=
  ∃ q scope, q <:+ p ∧ q ≠ p ∧ root.subtree q = some scope ∧
    functionOfScope functionName scope = some declared ∧
    ∀ r nearer, q <:+ r → r ≠ q → r <:+ p → r ≠ p → root.subtree r = some nearer →
      functionOfScope functionName nearer = none

/-- The function that an argument stands for: the argument itself, or what its name refers to. -/
def StandsFor (root : Source) (p : Position) (expression function : Source) : Prop :=
  isFunctionExpressionLike expression = true ∧ function = expression ∨
    isFunctionExpressionLike expression = false ∧ ∃ functionName,
      sourceIdentifier expression = some functionName ∧
        DeclaredAround root functionName p function

/-- `resolveFunctionLike` finds what an argument stands for. -/
theorem resolveFunctionLike_eq_some_iff {root : Source} {p : Position}
    {expression : Option Source} {function : Source} :
    resolveFunctionLike root p expression = some function ↔
      ∃ given, expression = some given ∧ StandsFor root p given function := by
  rw [resolveFunctionLike, Option.bind_eq_bind, Option.bind_eq_some_iff]
  refine exists_congr fun given ↦ and_congr Iff.rfl ?_
  rw [StandsFor]
  cases isFunctionExpressionLike given with
  | true => simp [eq_comm]
  | false =>
      simp only [Bool.false_eq_true, if_false, false_and, false_or, true_and,
        Option.bind_eq_bind, Option.bind_eq_some_iff, RoseTree.climbParents_eq_some_iff,
        DeclaredAround]

/-- Where `resolveFunctionLike` finds nothing, an argument stands for nothing. -/
theorem not_standsFor_of_resolveFunctionLike {root : Source} {p : Position}
    {expression : Option Source} {given function : Source}
    (hresolve : resolveFunctionLike root p expression = none) (hgiven : expression = some given) :
    ¬StandsFor root p given function := by
  intro hstands
  have hsome := resolveFunctionLike_eq_some_iff.mpr ⟨given, hgiven, hstands⟩
  exact absurd (hresolve.symm.trans hsome) (by simp)

/-- An argument stands for one function at most. -/
theorem eq_of_standsFor {root : Source} {p : Position} {expression : Option Source}
    {given function other : Source}
    (hresolve : resolveFunctionLike root p expression = some function)
    (hgiven : expression = some given) (hstands : StandsFor root p given other) :
    other = function := by
  have hsome := resolveFunctionLike_eq_some_iff.mpr ⟨given, hgiven, hstands⟩
  exact Option.some.inj (hsome.symm.trans hresolve)

/-! ## What a predicate looks at -/

/-- What the result of a predicate depends on. -/
def ResultDependsOn (predicate : Source) (dependency : Position) : Prop :=
  dependency ∈ Worklist.closure {seed | IsResultSeed (plain predicate) seed}
    (ResultReferences (plain predicate))

/-- Some node below a dependency of the result looks at something. -/
def LooksAt (predicate : Source) (look : Source → Bool) : Prop :=
  ∃ dependency resultNode q node, ResultDependsOn predicate dependency ∧
    predicate.subtree dependency = some resultNode ∧
    Visited isSourceSyntax dependency resultNode q node ∧ look node = true

/-- A predicate that looks at the status of a response and does not tell apart whose it is. -/
def Undiscriminating (predicate : Source) (responseName : String)
    (specificRequestMatcherNames : List String) : Prop :=
  LooksAt predicate (looksAtStatus responseName) ∧
    ¬LooksAt predicate (handsToMatcher specificRequestMatcherNames) ∧
    ¬(LooksAt predicate (looksAtMethod responseName) ∧
      LooksAt predicate (looksAtUrl responseName) ∧
      LooksAt predicate (discriminates responseName))

/-- The nodes that the walks from some dependencies visit. -/
def resultEntries (predicate : Source) (dependencies : List Position) :
    List (Position × Source) :=
  dependencies.flatMap fun dependency ↦
    (predicate.subtree dependency).elim [] (preorder isSourceSyntax dependency)

/-- The checks after a walk. -/
theorem foldl_examine (responseName : String) (names : List String)
    (entries : List (Position × Source)) (checks : ResponseChecks) :
    entries.foldl (fun checks entry ↦ examine responseName names entry.1 entry.2 checks) checks =
      { checksStatus := checks.checksStatus ||
          entries.any fun entry ↦ looksAtStatus responseName entry.2
        delegatesSpecificRequestMatching := checks.delegatesSpecificRequestMatching ||
          entries.any fun entry ↦ handsToMatcher names entry.2
        checksMethod := checks.checksMethod ||
          entries.any fun entry ↦ looksAtMethod responseName entry.2
        checksUrl := checks.checksUrl ||
          entries.any fun entry ↦ looksAtUrl responseName entry.2
        checksDiscriminatingRequestProperty := checks.checksDiscriminatingRequestProperty ||
          entries.any fun entry ↦ discriminates responseName entry.2 } := by
  induction entries generalizing checks with
  | nil => simp
  | cons entry rest ih =>
      rw [List.foldl_cons, ih]
      simp only [examine, List.any_cons, Bool.or_assoc]

/-- The walks from some dependencies, one after the other. -/
theorem examineDependencies_eq (predicate : Source) (responseName : String) (names : List String)
    (dependencies : List Position) :
    examineDependencies predicate responseName names dependencies =
      (resultEntries predicate dependencies).foldl
        (fun checks entry ↦ examine responseName names entry.1 entry.2 checks)
        ⟨false, false, false, false, false⟩ := by
  rw [examineDependencies, resultEntries]
  generalize (⟨false, false, false, false, false⟩ : ResponseChecks) = checks
  induction dependencies generalizing checks with
  | nil => rfl
  | cons dependency rest ih =>
      rw [List.foldl_cons, List.flatMap_cons, List.foldl_append, ih]
      cases predicate.subtree dependency with
      | none => rfl
      | some resultNode => rw [Option.elim_some, Option.elim_some, RoseTree.walk_eq]

/-- What the walks visit is what the result depends on. -/
theorem any_resultEntries {predicate : Source} {dependencies : List Position}
    (hleast : ∀ d, d ∈ dependencies ↔ ResultDependsOn predicate d) (look : Source → Bool) :
    (resultEntries predicate dependencies).any (fun entry ↦ look entry.2) = true ↔
      LooksAt predicate look := by
  rw [List.any_eq_true]
  constructor
  · rintro ⟨⟨q, node⟩, hentry, hlook⟩
    obtain ⟨dependency, hdependency, hentry⟩ := List.mem_flatMap.mp hentry
    cases hsubtree : predicate.subtree dependency with
    | none => simp [hsubtree] at hentry
    | some resultNode =>
        rw [hsubtree, Option.elim_some, RoseTree.mem_preorder] at hentry
        exact ⟨dependency, resultNode, q, node, (hleast dependency).mp hdependency, hsubtree,
          hentry, hlook⟩
  · rintro ⟨dependency, resultNode, q, node, hdependency, hsubtree, hvisited, hlook⟩
    refine ⟨(q, node), List.mem_flatMap.mpr ⟨dependency, (hleast dependency).mpr hdependency, ?_⟩,
      hlook⟩
    rw [hsubtree, Option.elim_some, RoseTree.mem_preorder]
    exact hvisited

/-- The answer from what the walks look at. -/
theorem isUndiscriminating_iff {predicate : Source} {responseName : String} {names : List String}
    {dependencies : List Position}
    (hleast : ∀ d, d ∈ dependencies ↔ ResultDependsOn predicate d) :
    (examineDependencies predicate responseName names dependencies).isUndiscriminating = true ↔
      Undiscriminating predicate responseName names := by
  have hlooks := fun look ↦ any_resultEntries hleast look
  rw [examineDependencies_eq, foldl_examine, ResponseChecks.isUndiscriminating, Undiscriminating,
    ← hlooks, ← hlooks, ← hlooks, ← hlooks, ← hlooks]
  simp only [Bool.false_or]
  cases (resultEntries predicate dependencies).any fun entry ↦
      looksAtStatus responseName entry.2 with
  | false => simp
  | true => simp [or_assoc, imp_iff_not_or]

/-- The collection of a predicate's dependencies ends with what its result depends on. -/
theorem getPredicateResultDependencies_ends (predicate : Source) :
    ∃ dependencies, EndsWith (getPredicateResultDependencies · (plain predicate)) dependencies ∧
      ∀ d, d ∈ dependencies ↔ ResultDependsOn predicate d := by
  obtain ⟨bound, dependencies, hrun, hleast⟩ :=
    getPredicateResultDependencies_isLeast (plain predicate)
  refine ⟨dependencies, ⟨bound, hrun⟩, fun d ↦ ?_⟩
  exact Set.ext_iff.mp (hleast.unique (Worklist.isLeast_closure _ _)) d

/-- `hasUndiscriminatingResponsePredicate` ends, and says whether the argument of the call stands
for an undiscriminating predicate. -/
theorem hasUndiscriminatingResponsePredicate_ends (root : Source) (p : Position) (node : Source)
    (names : List String) :
    ∃ result, EndsWith (hasUndiscriminatingResponsePredicate · root p node names) result ∧
      (result = true ↔ ∃ argument predicate responseName,
        childOf node .arguments = some argument ∧ StandsFor root p argument predicate ∧
          firstParameterName predicate = some responseName ∧
          Undiscriminating predicate responseName names) := by
  cases hresolve : resolveFunctionLike root p (childOf node .arguments) with
  | none =>
      refine ⟨false, ⟨0, fun fuel _ ↦ by simp [hasUndiscriminatingResponsePredicate, hresolve]⟩,
        iff_of_false (by simp) ?_⟩
      rintro ⟨argument, predicate, -, hargument, hstands, -⟩
      exact not_standsFor_of_resolveFunctionLike hresolve hargument hstands
  | some predicate =>
      obtain ⟨argument, hargument, hstands⟩ := resolveFunctionLike_eq_some_iff.mp hresolve
      cases hname : firstParameterName predicate with
      | none =>
          refine ⟨false, ⟨0, fun fuel _ ↦ by
            simp [hasUndiscriminatingResponsePredicate, hresolve, hname]⟩,
            iff_of_false (by simp) ?_⟩
          rintro ⟨argument, other, responseName, hargument, hstands, hsome, -⟩
          obtain rfl := eq_of_standsFor hresolve hargument hstands
          simp [hname] at hsome
      | some responseName =>
          obtain ⟨dependencies, ⟨bound, hrun⟩, hleast⟩ :=
            getPredicateResultDependencies_ends predicate
          refine ⟨(examineDependencies predicate responseName names
            dependencies).isUndiscriminating, ⟨bound, fun fuel hfuel ↦ ?_⟩, ?_⟩
          · have hdependencies : getPredicateResultDependencies fuel (plain predicate) =
                some dependencies := hrun fuel hfuel
            simp [hasUndiscriminatingResponsePredicate, hresolve, hname, hdependencies]
          · rw [isUndiscriminating_iff hleast]
            constructor
            · intro h
              exact ⟨argument, predicate, responseName, hargument, hstands, hname, h⟩
            · rintro ⟨argument, other, name, hargument, hstands, hsome, h⟩
              obtain rfl := eq_of_standsFor hresolve hargument hstands
              obtain rfl := Option.some.inj (hname.symm.trans hsome)
              exact h

/-! ## What governs a retry -/

/-- A condition around a bail call of a retry callback, or an initializer that it depends on,
mentions a classifier. -/
def ClassifiesRetry (callback : Source) (classifierPatterns : List (String → Bool)) : Prop :=
  ∃ scope dependency, retryScope (plain callback) = some scope ∧
    dependency ∈ Worklist.closure
      {seed | IsBailSeed (plain callback) [scope.bodyIndex] scope.bailParameterName seed}
      (References (plain callback) [scope.bodyIndex]) ∧
    ContainsClassifier (plain callback) classifierPatterns dependency

/-- `usesTransientClassifierToGovernRetry` ends, and says whether a callback classifies. -/
theorem usesTransientClassifierToGovernRetry_ends (callback : Source)
    (classifierPatterns : List (String → Bool)) :
    ∃ result, EndsWith
        (usesTransientClassifierToGovernRetry · classifierPatterns (plain callback)) result ∧
      (result = true ↔ ClassifiesRetry callback classifierPatterns) := by
  cases hscope : retryScope (plain callback) with
  | none =>
      refine ⟨false, ⟨0, fun fuel _ ↦ by simp [usesTransientClassifierToGovernRetry, hscope]⟩,
        iff_of_false (by simp) ?_⟩
      rintro ⟨scope, dependency, hsome, -⟩
      simp [hscope] at hsome
  | some scope =>
      obtain ⟨bound, dependencies, hrun, hleast⟩ := retryDependencies_isLeast hscope
      have hmem := Set.ext_iff.mp (hleast.unique (Worklist.isLeast_closure _ _))
      refine ⟨dependencies.any
        (containsClassifierReferenceAt (plain callback) classifierPatterns),
        ⟨bound, fun fuel hfuel ↦ by
          simp [usesTransientClassifierToGovernRetry, hscope, hrun fuel hfuel]⟩, ?_⟩
      rw [List.any_eq_true]
      constructor
      · rintro ⟨dependency, hdependency, hcontains⟩
        exact ⟨scope, dependency, hscope, (hmem dependency).mp hdependency,
          containsClassifierReferenceAt_iff.mp hcontains⟩
      · rintro ⟨other, dependency, hother, hdependency, hcontains⟩
        obtain rfl := Option.some.inj (hscope.symm.trans hother)
        exact ⟨dependency, (hmem dependency).mpr hdependency,
          containsClassifierReferenceAt_iff.mpr hcontains⟩

/-- A call of a helper that retries everything, or of a retry helper whose callback, if it is
known, does not classify failures. -/
def UndiscriminatingRetry (platform : Platform) (config : PlaywrightFlakeLinterConfig)
    (root : Source) (p : Position) (node : Source) : Prop :=
  ∃ callName, getCallName node = some callName ∧
    (callName ∈ config.undiscriminatingRetryHelperNames.getD [] ∨
      callName ∈ config.retryHelperNames.getD [] ∧
        ∀ argument callback, childOf node .arguments = some argument →
          StandsFor root p argument callback →
            ¬ClassifiesRetry callback ((config.transientClassifierNamePatterns.getD
              defaultTransientClassifierNamePatterns).map (platform.test · false)))

/-- `isUndiscriminatingRetryCall` ends, and says whether a call is an undiscriminating retry. -/
theorem isUndiscriminatingRetryCall_ends (platform : Platform)
    (config : PlaywrightFlakeLinterConfig) (root : Source) (p : Position) (node : Source) :
    ∃ result, EndsWith (isUndiscriminatingRetryCall platform · root p node config) result ∧
      (result = true ↔ UndiscriminatingRetry platform config root p node) := by
  cases hname : getCallName node with
  | none =>
      exact ⟨false, ⟨0, fun fuel _ ↦ by simp [isUndiscriminatingRetryCall, hname]⟩,
        iff_of_false (by simp) (by simp [UndiscriminatingRetry, hname])⟩
  | some callName =>
      by_cases hall : callName ∈ config.undiscriminatingRetryHelperNames.getD []
      · exact ⟨true, ⟨0, fun fuel _ ↦ by simp [isUndiscriminatingRetryCall, hname, hall]⟩,
          iff_of_true rfl ⟨callName, hname, .inl hall⟩⟩
      by_cases hhelper : callName ∈ config.retryHelperNames.getD []
      · cases hresolve : resolveFunctionLike root p (childOf node .arguments) with
        | none =>
            refine ⟨true, ⟨0, fun fuel _ ↦ by
              simp [isUndiscriminatingRetryCall, hname, hall, hhelper, hresolve]⟩,
              iff_of_true rfl ⟨callName, hname, .inr ⟨hhelper, ?_⟩⟩⟩
            intro argument callback hargument hstands
            exact absurd hstands (not_standsFor_of_resolveFunctionLike hresolve hargument)
        | some callback =>
            obtain ⟨result, ⟨bound, hrun⟩, hresult⟩ :=
              usesTransientClassifierToGovernRetry_ends callback
                ((config.transientClassifierNamePatterns.getD
                  defaultTransientClassifierNamePatterns).map (platform.test · false))
            refine ⟨!result, ⟨bound, fun fuel hfuel ↦ ?_⟩, ?_⟩
            · have huses : usesTransientClassifierToGovernRetry fuel _ (plain callback) =
                  some result := hrun fuel hfuel
              simp [isUndiscriminatingRetryCall, hname, hall, hhelper, hresolve, huses]
            · rw [Bool.not_eq_true', ← Bool.not_eq_true, hresult]
              constructor
              · intro hclassifies
                refine ⟨callName, hname, .inr ⟨hhelper, fun argument other hargument hstands ↦ ?_⟩⟩
                obtain rfl := eq_of_standsFor hresolve hargument hstands
                exact hclassifies
              · rintro ⟨other, hother, hhelpers⟩
                obtain rfl := Option.some.inj (hname.symm.trans hother)
                obtain ⟨-, hcallbacks⟩ := hhelpers.resolve_left hall
                obtain ⟨argument, hargument, hstands⟩ :=
                  resolveFunctionLike_eq_some_iff.mp hresolve
                exact hcallbacks argument callback hargument hstands
      · exact ⟨false, ⟨0, fun fuel _ ↦ by
          simp [isUndiscriminatingRetryCall, hname, hall, hhelper]⟩,
          iff_of_false (by simp) (by simp [UndiscriminatingRetry, hname, hall, hhelper])⟩

/-! ## What names test data -/

/-- The nearest node around a position that names what is below it, inside the same statement. -/
def NamedBy (root : Source) (p : Position) (name : String) : Prop :=
  ∃ q ancestor, q <:+ p ∧ q ≠ p ∧ root.subtree q = some ancestor ∧
    identityContext q ancestor = some name ∧
    ∀ r nearer, q <:+ r → r ≠ q → r <:+ p → r ≠ p → root.subtree r = some nearer →
      identityContext r nearer = none ∧ nearer.label.isStatement = false

/-- `findIdentityContextName` finds the nearest name. -/
theorem findIdentityContextName_eq_some_iff {root : Source} {p : Position} {name : String} :
    findIdentityContextName root p = some name ↔ NamedBy root p name := by
  rw [findIdentityContextName, Option.join_eq_some_iff, RoseTree.climbParents_eq_some_iff, NamedBy]
  refine exists_congr fun q ↦ exists_congr fun ancestor ↦ and_congr Iff.rfl (and_congr Iff.rfl
    (and_congr Iff.rfl (and_congr ?_ ?_)))
  · cases identityContext q ancestor with
    | some found => simp
    | none => cases ancestor.label.isStatement <;> simp
  · refine forall_congr' fun r ↦ forall_congr' fun nearer ↦ forall_congr' fun _ ↦
      forall_congr' fun _ ↦ forall_congr' fun _ ↦ forall_congr' fun _ ↦ forall_congr' fun _ ↦ ?_
    cases identityContext r nearer with
    | some found => simp
    | none => cases nearer.label.isStatement <;> simp

/-- A call gives test data an identity of low entropy: it is `Date.now` or `Math.random`, or a
helper of which the configuration demands a length, unless the length is written out and long
enough. A name that every object inherits counts as such a helper. -/
def LowEntropyIdentity (platform : Platform) (config : PlaywrightFlakeLinterConfig)
    (root : Source) (p : Position) (node : Source) : Prop :=
  (∃ name, NamedBy root p name ∧
    platform.test (config.identityNamePattern.getD defaultIdentityNamePattern) true name = true) ∧
  (∀ callName, getCallName node = some callName →
    callName ∉ config.hardenedIdentityHelperNames.getD []) ∧
  (isLowEntropyBuiltInIdentitySource node = true ∨ ∃ callName, getCallName node = some callName ∧
    ((∃ minimumLength,
        (config.identityHelperMinimumLengths.getD .empty).get callName = some minimumLength ∧
        ∀ length, (childOf node .arguments).bind numericLiteral = some length →
          length < (minimumLength : WithTop ℚ)) ∨
      (config.identityHelperMinimumLengths.getD .empty).get callName = none ∧
        callName ∈ prototypeKeys ∧ (childOf node .arguments).bind numericLiteral = none))

/-- `isLowEntropyTestDataIdentityCall` finds identities of low entropy. -/
theorem isLowEntropyTestDataIdentityCall_iff {platform : Platform}
    {config : PlaywrightFlakeLinterConfig} {root : Source} {p : Position} {node : Source} :
    isLowEntropyTestDataIdentityCall platform root p node config = true ↔
      LowEntropyIdentity platform config root p node := by
  have hnamed : (findIdentityContextName root p).any
      (platform.test (config.identityNamePattern.getD defaultIdentityNamePattern) true) = true ↔
      ∃ name, NamedBy root p name ∧ platform.test
        (config.identityNamePattern.getD defaultIdentityNamePattern) true name = true := by
    simp only [Option.any_eq_true, findIdentityContextName_eq_some_iff]
  have hhardened : (getCallName node).any
      (config.hardenedIdentityHelperNames.getD []).contains = true ↔
      ¬∀ callName, getCallName node = some callName →
        callName ∉ config.hardenedIdentityHelperNames.getD [] := by
    simp [Option.any_eq_true]
  rw [isLowEntropyTestDataIdentityCall, LowEntropyIdentity, ← hnamed]
  cases hidentity : (findIdentityContextName root p).any
      (platform.test (config.identityNamePattern.getD defaultIdentityNamePattern) true) with
  | false => simp
  | true =>
      by_cases hhard : (getCallName node).any
          (config.hardenedIdentityHelperNames.getD []).contains = true
      · simp [hhard, hhardened.mp hhard]
      · have hnone := not_not.mp (mt hhardened.mpr hhard)
        rw [and_iff_right rfl, and_iff_right hnone]
        cases hbuiltIn : isLowEntropyBuiltInIdentitySource node with
        | true => simp [hhard]
        | false =>
            cases hcall : getCallName node with
            | none => simp
            | some callName =>
                rw [hcall] at hhard
                cases hget : (config.identityHelperMinimumLengths.getD .empty).get callName with
                | none =>
                    by_cases hinherited : callName ∈ prototypeKeys
                    · cases hliteral : (childOf node .arguments).bind numericLiteral with
                      | none => simp [hhard, OrderedMap.has, hget, hinherited]
                      | some length => simp [hhard, OrderedMap.has, hget, hinherited]
                    · simp [hhard, OrderedMap.has, hget, hinherited]
                | some minimumLength =>
                    cases hliteral : (childOf node .arguments).bind numericLiteral with
                    | none => simp [hhard, OrderedMap.has, hget]
                    | some length => simp [hhard, OrderedMap.has, hget]

end CoreUtils.FlakeLinter
