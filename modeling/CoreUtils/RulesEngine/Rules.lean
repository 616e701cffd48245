import Mathlib.Data.List.Infix
import Mathlib.Logic.Relation

/-!
# Rules and their runners

The rules engine: a rule has a predicate on the input and a function from contexts to contexts, and
`all`, `allIf` and `firstMatch` combine rules. A tree of runners over rules that keep the input and
append to the output does so itself, and a runner directly inside a runner of its kind can be
replaced by its rules (`run_tree`).
-/

namespace CoreUtils.RulesEngine

variable {I O X : Type*}

/-- A context: the input, the output so far, and what a context has besides. -/
structure RuleContext (I O X : Type*) where
  input : I
  output : List O
  others : X

/-- A rule. Its predicate is given the input only, and not the full context. -/
structure Rule (I O X : Type*) where
  runIf : I → Bool
  run : RuleContext I O X → RuleContext I O X

/-- A context with one more output, and nothing besides input and output. -/
def appendOutput (context : RuleContext I O X) (output : O) : RuleContext I O Unit where
  input := context.input
  output := context.output ++ [output]
  others := ()

/-! ## Runners -/

/-- Run all rules whose predicates hold of the input of the context. -/
def runMatching (rules : List (Rule I O X)) (context : RuleContext I O X) : RuleContext I O X :=
  (rules.filter fun rule ↦ rule.runIf context.input).foldl
    (fun previousContext rule ↦ rule.run previousContext) context

/-- Run all rules that return true for `runIf`. -/
def all (rules : List (Rule I O X)) : Rule I O X where
  runIf input := rules.any fun rule ↦ rule.runIf input
  run := runMatching rules

/-- Run all rules that return true for `runIf`, but only when the predicate returns true. -/
def allIf (allIfPredicate : I → Bool) (rules : List (Rule I O X)) : Rule I O X where
  runIf := allIfPredicate
  run := runMatching rules

/-- Run the first rule that returns true for `runIf`. -/
def firstMatch (rules : List (Rule I O X)) : Rule I O X where
  runIf input := rules.any fun rule ↦ rule.runIf input
  run context :=
    match rules.find? fun rule ↦ rule.runIf context.input with
    | some rule => rule.run context
    | none => context

/-! ## Rules that append -/

/-- What rules are to do: keep the input, and change the output by appending to it only. -/
structure Rule.Appends (rule : Rule I O X) : Prop where
  keeps_input : ∀ context, (rule.run context).input = context.input
  extends_output : ∀ context, context.output <+: (rule.run context).output

/-- A rule that runs `appendOutput` appends. -/
theorem appends_appendOutput (runIf : I → Bool) (output : I → O) :
    (Rule.mk runIf fun context : RuleContext I O Unit ↦
      appendOutput context (output context.input)).Appends where
  keeps_input _ := rfl
  extends_output _ := List.prefix_append _ _

variable {rules nested before after : List (Rule I O X)} {rule : Rule I O X}

/-- Running all matching rules, one rule at a time: the predicates hold of the input that is
kept. -/
theorem runMatching_cons (h : rule.Appends) (context : RuleContext I O X) :
    runMatching (rule :: rules) context =
      runMatching rules (if rule.runIf context.input then rule.run context else context) := by
  by_cases hmatch : rule.runIf context.input = true
  · rw [runMatching, List.filter_cons_of_pos (by simpa using hmatch), List.foldl_cons,
      if_pos hmatch, runMatching, h.keeps_input]
  · rw [runMatching, List.filter_cons_of_neg (by simpa using hmatch), if_neg hmatch, runMatching]

/-- Running rules one list after the other. -/
theorem runMatching_append (h : ∀ rule ∈ before, rule.Appends) (context : RuleContext I O X) :
    runMatching (before ++ rules) context = runMatching rules (runMatching before context) := by
  induction before generalizing context with
  | nil => rfl
  | cons rule before ih =>
      have hrule := h rule List.mem_cons_self
      rw [List.cons_append, runMatching_cons hrule, runMatching_cons hrule]
      exact ih (fun other hother ↦ h other (List.mem_cons_of_mem _ hother)) _

/-- Nothing is run when no predicate holds. -/
theorem runMatching_of_none {context : RuleContext I O X}
    (h : (rules.any fun rule ↦ rule.runIf context.input) = false) :
    runMatching rules context = context := by
  rw [runMatching, List.filter_eq_nil_iff.mpr (by simpa using h), List.foldl_nil]

/-- Running all matching rules appends, if each rule does. -/
theorem runMatching_appends (runIf : I → Bool) (h : ∀ rule ∈ rules, rule.Appends) :
    (Rule.mk runIf (runMatching rules)).Appends := by
  have hrun : ∀ context, (runMatching rules context).input = context.input ∧
      context.output <+: (runMatching rules context).output := by
    induction rules with
    | nil => exact fun context ↦ ⟨rfl, List.prefix_rfl⟩
    | cons rule rules ih =>
        intro context
        have hrule := h rule List.mem_cons_self
        obtain ⟨hinput, houtput⟩ := ih (fun other hother ↦ h other (List.mem_cons_of_mem _ hother))
          (if rule.runIf context.input then rule.run context else context)
        rw [runMatching_cons hrule]
        split at hinput
        · rename_i hmatch
          rw [if_pos hmatch] at houtput ⊢
          exact ⟨hinput.trans (hrule.keeps_input context),
            (hrule.extends_output context).trans houtput⟩
        · rename_i hmatch
          rw [if_neg hmatch] at houtput ⊢
          exact ⟨hinput, houtput⟩
  exact ⟨fun context ↦ (hrun context).1, fun context ↦ (hrun context).2⟩

/-- The runner of the first match appends, if each rule does. -/
theorem firstMatch_appends (h : ∀ rule ∈ rules, rule.Appends) : (firstMatch rules).Appends := by
  have hrun : ∀ context, ((firstMatch rules).run context).input = context.input ∧
      context.output <+: ((firstMatch rules).run context).output := by
    intro context
    simp only [firstMatch]
    cases hfind : rules.find? fun rule ↦ rule.runIf context.input with
    | none => exact ⟨rfl, List.prefix_rfl⟩
    | some rule =>
        have hrule := h rule (List.mem_of_find?_eq_some hfind)
        exact ⟨hrule.keeps_input context, hrule.extends_output context⟩
  exact ⟨fun context ↦ (hrun context).1, fun context ↦ (hrun context).2⟩

/-! ## Runners inside runners -/

/-- A nested `all` runs its rules where it stands, whether or not one of them matches. -/
theorem all_flatten (hbefore : ∀ rule ∈ before, rule.Appends)
    (hnested : ∀ rule ∈ nested, rule.Appends) :
    all (before ++ nested ++ after) = all (before ++ all nested :: after) := by
  have hall : (all nested).Appends := runMatching_appends _ hnested
  simp only [all, Rule.mk.injEq]
  refine ⟨funext fun input ↦ ?_, funext fun context ↦ ?_⟩
  · simp [List.any_append, List.any_cons]
  · rw [List.append_assoc, runMatching_append hbefore, runMatching_append hnested,
      runMatching_append hbefore, ← all, runMatching_cons hall]
    split
    · rfl
    · rename_i hnone
      have hnoneNested : (nested.any fun rule ↦
          rule.runIf (runMatching before context).input) = false := by
        simpa [all] using hnone
      rw [runMatching_of_none hnoneNested]

/-- A nested `firstMatch` is reached exactly when it has a match. -/
theorem firstMatch_flatten :
    firstMatch (before ++ nested ++ after) = firstMatch (before ++ firstMatch nested :: after) := by
  simp only [firstMatch, Rule.mk.injEq]
  refine ⟨funext fun input ↦ ?_, funext fun context ↦ ?_⟩
  · simp [List.any_append, List.any_cons]
  · rw [List.append_assoc, List.find?_append, List.find?_append, List.find?_append,
      List.find?_cons]
    cases hbefore : before.find? fun rule ↦ rule.runIf context.input with
    | some rule => rfl
    | none =>
        cases hnested : nested.find? fun rule ↦ rule.runIf context.input with
        | some rule =>
            have hany : (nested.any fun rule ↦ rule.runIf context.input) = true :=
              List.any_eq_true.mpr ⟨rule, List.mem_of_find?_eq_some hnested, by
                simpa using List.find?_some hnested⟩
            simp [hany, hnested]
        | none =>
            have hany : (nested.any fun rule ↦ rule.runIf context.input) = false := by
              rw [List.any_eq_false]
              simpa using List.find?_eq_none.mp hnested
            simp [hany]

/-! ## Trees of runners -/

/-- A rule that appends. -/
structure AppendingRule (I O X : Type*) extends Rule I O X where
  appends : toRule.Appends

/-- A tree of runners over rules that append. -/
inductive RuleTree (I O X : Type*) where
  | leaf (rule : AppendingRule I O X)
  | all (rules : List (RuleTree I O X))
  | allIf (allIfPredicate : I → Bool) (rules : List (RuleTree I O X))
  | firstMatch (rules : List (RuleTree I O X))

mutual

/-- The rule that a tree is. -/
def RuleTree.rule : RuleTree I O X → Rule I O X
  | .leaf rule => rule.toRule
  | .all rules => RulesEngine.all (rulesOf rules)
  | .allIf allIfPredicate rules => RulesEngine.allIf allIfPredicate (rulesOf rules)
  | .firstMatch rules => RulesEngine.firstMatch (rulesOf rules)

/-- The rules of several trees. -/
def rulesOf : List (RuleTree I O X) → List (Rule I O X)
  | [] => []
  | tree :: trees => tree.rule :: rulesOf trees

end

/-- The rules of several trees come one after another. -/
theorem rulesOf_append (trees trees' : List (RuleTree I O X)) :
    rulesOf (trees ++ trees') = rulesOf trees ++ rulesOf trees' := by
  induction trees with
  | nil => rfl
  | cons tree trees ih => rw [List.cons_append, rulesOf, rulesOf, ih, List.cons_append]

mutual

/-- Trees of rules that append do so themselves. -/
theorem RuleTree.appends : ∀ tree : RuleTree I O X, tree.rule.Appends
  | .leaf rule => by
      rw [RuleTree.rule]
      exact rule.appends
  | .all rules => by
      rw [RuleTree.rule]
      exact runMatching_appends _ (appends_of_mem_rulesOf rules)
  | .allIf allIfPredicate rules => by
      rw [RuleTree.rule]
      exact runMatching_appends _ (appends_of_mem_rulesOf rules)
  | .firstMatch rules => by
      rw [RuleTree.rule]
      exact firstMatch_appends (appends_of_mem_rulesOf rules)

/-- Each rule of several trees appends. -/
theorem appends_of_mem_rulesOf :
    ∀ (trees : List (RuleTree I O X)), ∀ rule ∈ rulesOf trees, rule.Appends
  | [], _, h => by simp [rulesOf] at h
  | tree :: trees, rule, h => by
      rw [rulesOf, List.mem_cons] at h
      rcases h with rfl | h
      · exact tree.appends
      · exact appends_of_mem_rulesOf trees rule h

end

/-- Somewhere in a tree a runner that is directly inside a runner of its kind is replaced by its
rules; `allIf` is no runner of the kind of `all`, since it has its own predicate. -/
inductive Flattens : RuleTree I O X → RuleTree I O X → Prop where
  | all (before nested after : List (RuleTree I O X)) :
      Flattens (.all (before ++ .all nested :: after)) (.all (before ++ nested ++ after))
  | firstMatch (before nested after : List (RuleTree I O X)) :
      Flattens (.firstMatch (before ++ .firstMatch nested :: after))
        (.firstMatch (before ++ nested ++ after))
  | insideAll (before after : List (RuleTree I O X)) {tree tree' : RuleTree I O X} :
      Flattens tree tree' →
        Flattens (.all (before ++ tree :: after)) (.all (before ++ tree' :: after))
  | insideAllIf (allIfPredicate : I → Bool) (before after : List (RuleTree I O X))
      {tree tree' : RuleTree I O X} :
      Flattens tree tree' → Flattens (.allIf allIfPredicate (before ++ tree :: after))
        (.allIf allIfPredicate (before ++ tree' :: after))
  | insideFirstMatch (before after : List (RuleTree I O X)) {tree tree' : RuleTree I O X} :
      Flattens tree tree' →
        Flattens (.firstMatch (before ++ tree :: after)) (.firstMatch (before ++ tree' :: after))

/-- One replacement keeps the rule of the whole tree. -/
theorem Flattens.rule_eq {tree tree' : RuleTree I O X} (h : Flattens tree tree') :
    tree'.rule = tree.rule := by
  induction h with
  | all before nested after =>
      simp only [RuleTree.rule, rulesOf_append, rulesOf]
      exact all_flatten (appends_of_mem_rulesOf before) (appends_of_mem_rulesOf nested)
  | firstMatch before nested after =>
      simp only [RuleTree.rule, rulesOf_append, rulesOf]
      exact firstMatch_flatten
  | insideAll before after _ ih
  | insideAllIf allIfPredicate before after _ ih
  | insideFirstMatch before after _ ih =>
      simp only [RuleTree.rule, rulesOf_append, rulesOf, ih]

/-- So do any number of replacements. -/
theorem rule_eq_of_flattens {tree tree' : RuleTree I O X}
    (h : Relation.ReflTransGen Flattens tree tree') : tree'.rule = tree.rule := by
  induction h with
  | refl => rfl
  | tail _ hstep ih => rw [hstep.rule_eq, ih]

/-- Running any tree keeps the input and only extends the output, and replacing runners inside
runners of their kind by their rules, anywhere in the tree, changes neither when the tree runs nor
the context that results. -/
theorem run_tree (tree : RuleTree I O X) :
    (∀ context, (tree.rule.run context).input = context.input ∧
      context.output <+: (tree.rule.run context).output) ∧
    ∀ flattened, Relation.ReflTransGen Flattens tree flattened →
      (∀ input, flattened.rule.runIf input = tree.rule.runIf input) ∧
        ∀ context, flattened.rule.run context = tree.rule.run context := by
  refine ⟨fun context ↦ ?_, fun flattened h ↦ ?_⟩
  · exact ⟨tree.appends.keeps_input context, tree.appends.extends_output context⟩
  · rw [rule_eq_of_flattens h]
    exact ⟨fun _ ↦ rfl, fun _ ↦ rfl⟩

/-- A rule that appends a number when the input is large enough. -/
def exampleRule (bound output : ℕ) : AppendingRule ℕ ℕ Unit where
  runIf input := decide (bound ≤ input)
  run context := appendOutput context output
  appends := appends_appendOutput _ fun _ ↦ output

/-- A `firstMatch` inside of a `firstMatch`, below `all`. -/
def exampleTree : RuleTree ℕ ℕ Unit :=
  .all [.firstMatch [.leaf (exampleRule 9 1), .firstMatch [.leaf (exampleRule 3 2)]],
    .leaf (exampleRule 0 3)]

/-- That tree without the inner `firstMatch`. -/
def flattenedTree : RuleTree ℕ ℕ Unit :=
  .all [.firstMatch [.leaf (exampleRule 9 1), .leaf (exampleRule 3 2)], .leaf (exampleRule 0 3)]

/-- The two trees do the same with the input 5, for which all but the first rule match. -/
theorem run_tree_flattened :
    (exampleTree.rule.run ⟨5, [], ()⟩).output = [2, 3] ∧
      flattenedTree.rule.run ⟨5, [], ()⟩ = exampleTree.rule.run ⟨5, [], ()⟩ := by
  have hstep : Flattens exampleTree flattenedTree :=
    .insideAll [] [.leaf (exampleRule 0 3)]
      (.firstMatch [.leaf (exampleRule 9 1)] [.leaf (exampleRule 3 2)] [])
  exact ⟨rfl, ((run_tree exampleTree).2 flattenedTree (.single hstep)).2 _⟩

end CoreUtils.RulesEngine
