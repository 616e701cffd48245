import CoreUtils.Library.OrderedMap
import CoreUtils.Library.RoseTree
import CoreUtils.Library.Worklist

/-!
# What a predicate's result and a retry's bail depend on

`getPredicateResultDependencies` and `usesTransientClassifierToGovernRetry` of
`playwrightFlakeLinter.ts`. Both collect some expressions of a function body, and then add to the
collection, while they walk over it, the initializers of all names that a collected expression
mentions. The function is the root of the tree; a node is the same object as another exactly when
it stands at the same position.
-/

namespace CoreUtils.FlakeLinter

open RoseTree (Position)
open Worklist (pushNew)

/-! ## Syntax trees -/

/-- The property of its parent that holds a node. Documentation comments are children for
`getChildren`, and are not visited by `ts.forEachChild`. -/
inductive PropertyName where
  | name
  | initializer
  | expression
  | parameters
  | body
  | jsDoc
  | other
deriving DecidableEq

/-- The kinds of nodes that are told apart. -/
inductive SyntaxKind where
  | identifier (text : String)
  | variableDeclaration
  | returnStatement
  | ifStatement
  | callExpression
  | block
  | functionLike
  | other
deriving DecidableEq

/-- A node without its children. -/
structure NodeData where
  property : PropertyName
  kind : SyntaxKind
deriving DecidableEq

/-- A node with its children, in the order in which `ts.forEachChild` visits them. -/
abbrev Node := RoseTree NodeData

/-- The value of a property, or the first element of an array, with its index among the
children. -/
def propertyOf (node : Node) (property : PropertyName) : Option (ℕ × Node) := do
  let i ← node.children.findIdx? fun child ↦ child.label.property = property
  let child ← node.children[i]?
  some (i, child)

/-- The text of an identifier. -/
def identifierText (node : Node) : Option String :=
  match node.label.kind with
  | .identifier text => some text
  | _ => none

/-- The name and the initializer of a variable declaration, if it has both. -/
def namedInitializer (p : Position) (node : Node) : Option (String × Position) :=
  if node.label.kind = .variableDeclaration then do
    let name ← propertyOf node .name
    let text ← identifierText name.2
    let initializer ← propertyOf node .initializer
    some (text, initializer.1 :: p)
  else none

/-- The condition of the `if` statement at a position. -/
def ifCondition (root : Node) (p : Position) : Option Position := do
  let node ← root.subtree p
  if node.label.kind = .ifStatement then do
    let expression ← propertyOf node .expression
    some (expression.1 :: p)
  else none

/-! ## Collecting -/

/-- `addGoverningConditions`: climb to the boundary and add the conditions passed on the way. -/
def addGoverningConditions (root : Node) (boundary : Position) :
    Position → List Position → List Position
  | [], dependencies => dependencies
  | _ :: ancestor, dependencies =>
      if ancestor = boundary then dependencies
      else addGoverningConditions root boundary ancestor
        (dependencies ++ (ifCondition root ancestor).toList)

/-- What `visit` fills. -/
structure Collected where
  dependencies : List Position
  initializerByName : OrderedMap String Position

/-- Store the initializer of a declaration under its name. -/
def recordInitializer (p : Position) (node : Node)
    (initializerByName : OrderedMap String Position) : OrderedMap String Position :=
  (namedInitializer p node).elim initializerByName fun entry ↦
    initializerByName.set entry.1 entry.2

/-- What `visit` does at a node before it goes on to the children. The two functions differ in
what they push. -/
def collect (push : Position → Node → List Position → List Position) (p : Position) (node : Node)
    (collected : Collected) : Collected where
  dependencies := push p node collected.dependencies
  initializerByName := recordInitializer p node collected.initializerByName

mutual

/-- `visit`: functions inside the visited one are left out. -/
def visit (push : Position → Node → List Position → List Position) (p : Position) :
    Node → Collected → Collected
  | .node data children, collected =>
      if p ≠ [] ∧ data.kind = .functionLike then collected
      else visitChildren push p 0 children (collect push p (.node data children) collected)

/-- `ts.forEachChild(node, visit)`. -/
def visitChildren (push : Position → Node → List Position → List Position) (p : Position) :
    ℕ → List Node → Collected → Collected
  | _, [], collected => collected
  | i, child :: rest, collected =>
      if child.label.property = .jsDoc then visitChildren push p (i + 1) rest collected
      else visitChildren push p (i + 1) rest (visit push (i :: p) child collected)

end

/-- What the visit of a predicate pushes: the expression of a `return` and the conditions that
govern it. -/
def pushReturn (root : Node) (boundary : Position) (p : Position) (node : Node)
    (dependencies : List Position) : List Position :=
  if node.label.kind = .returnStatement then
    (propertyOf node .expression).elim dependencies fun expression ↦
      addGoverningConditions root boundary p (dependencies ++ [expression.1 :: p])
  else dependencies

/-- Whether a node calls the parameter that bails out. -/
def isBailCall (bailParameterName : String) (node : Node) : Bool :=
  node.label.kind = .callExpression &&
    ((propertyOf node .expression).bind fun expression ↦ identifierText expression.2) =
      some bailParameterName

/-- What the visit of a retry callback pushes: the conditions that govern a call of the bail
parameter. -/
def pushBail (root : Node) (boundary : Position) (bailParameterName : String) (p : Position)
    (node : Node) (dependencies : List Position) : List Position :=
  if isBailCall bailParameterName node then addGoverningConditions root boundary p dependencies
  else dependencies

/-! ## Following names -/

/-- The initializer that a node refers to by name. -/
def initializerOf (initializerByName : OrderedMap String Position) (node : Node) :
    Option Position := do
  let text ← identifierText node
  initializerByName.get text

mutual

/-- Adds the initializers of the names that are read in a subtree, without those that are there
already, and looks into no nested function. -/
def addReferencedInitializers (initializerByName : OrderedMap String Position) (p : Position) :
    Node → List Position → List Position
  | .node data children, dependencies =>
      addReferencedInChildren initializerByName p 0 children
        ((initializerOf initializerByName (.node data children)).elim dependencies
          (pushNew dependencies))

/-- The calls for the children of a node. -/
def addReferencedInChildren (initializerByName : OrderedMap String Position) (p : Position) :
    ℕ → List Node → List Position → List Position
  | _, [], dependencies => dependencies
  | i, child :: rest, dependencies =>
      if child.label.property = .jsDoc then
        addReferencedInChildren initializerByName p (i + 1) rest dependencies
      else
        addReferencedInChildren initializerByName p (i + 1) rest
          (addReferencedInitializers initializerByName (i :: p) child dependencies)

end

/-- `addReferencedInitializers` at a node of the tree. -/
def addReferencedAt (root : Node) (initializerByName : OrderedMap String Position)
    (dependency : Position) (dependencies : List Position) : List Position :=
  (root.subtree dependency).elim dependencies fun node ↦
    addReferencedInitializers initializerByName dependency node dependencies

/-! ## The two functions -/

/-- The `while` loop over the dependencies, for at most so many turns. -/
def resultLoop (root : Node) (initializerByName : OrderedMap String Position) :
    ℕ → ℕ → List Position → Option (List Position)
  | 0, _, _ => none
  | fuel + 1, dependencyIndex, dependencies =>
      if dependencyIndex < dependencies.length then
        match dependencies[dependencyIndex]? with
        | none => resultLoop root initializerByName fuel (dependencyIndex + 1) dependencies
        | some dependency =>
            resultLoop root initializerByName fuel (dependencyIndex + 1)
              (addReferencedAt root initializerByName dependency dependencies)
      else some dependencies

/-- The nodes that the result of a predicate depends on: its body, or what it returns and the
initializers that this reads. There is none without a body, and `none` says that the fuel did not
last. -/
def getPredicateResultDependencies (fuel : ℕ) (predicate : Node) : Option (List Position) :=
  match propertyOf predicate .body with
  | none => some []
  | some predicateBody =>
      if predicateBody.2.label.kind = .block then
        let collected := visit (pushReturn predicate [predicateBody.1]) [predicateBody.1]
          predicateBody.2 ⟨[], .empty⟩
        resultLoop predicate collected.initializerByName fuel 0 collected.dependencies
      else some [[predicateBody.1]]

/-- The iterator of an array, which reads the array anew at each step. -/
structure ArrayIterator where
  nextIndex : ℕ

/-- The next element, if the array has one by now. -/
def ArrayIterator.next {α : Type*} (iterator : ArrayIterator) (array : List α) :
    Option (α × ArrayIterator) := do
  let element ← array[iterator.nextIndex]?
  some (element, ⟨iterator.nextIndex + 1⟩)

/-- The `for` loop over the dependencies, for at most so many turns. -/
def retryLoop (root : Node) (initializerByName : OrderedMap String Position) :
    ℕ → ArrayIterator → List Position → Option (List Position)
  | 0, _, _ => none
  | fuel + 1, iterator, dependencies =>
      match iterator.next dependencies with
      | none => some dependencies
      | some step =>
          retryLoop root initializerByName fuel step.2
            (addReferencedAt root initializerByName step.1 dependencies)

/-- The block of a retry callback and the name of its first parameter. -/
structure RetryScope where
  bodyIndex : ℕ
  body : Node
  bailParameterName : String

/-- The checks at the beginning of `usesTransientClassifierToGovernRetry`. -/
def retryScope (callback : Node) : Option RetryScope := do
  let body ← propertyOf callback .body
  if body.2.label.kind = .block then do
    let parameter ← propertyOf callback .parameters
    let bailParameter ← propertyOf parameter.2 .name
    let bailParameterName ← identifierText bailParameter.2
    some ⟨body.1, body.2, bailParameterName⟩
  else none

/-- The collection that `usesTransientClassifierToGovernRetry` searches. -/
def retryDependencies (fuel : ℕ) (callback : Node) (scope : RetryScope) :
    Option (List Position) :=
  let collected := visit (pushBail callback [scope.bodyIndex] scope.bailParameterName)
    [scope.bodyIndex] scope.body ⟨[], .empty⟩
  retryLoop callback collected.initializerByName fuel ⟨0⟩ collected.dependencies

mutual

/-- `containsClassifierReference`, for the tests of some patterns. -/
def containsClassifierReference (classifierPatterns : List (String → Bool)) : Node → Bool
  | .node data children =>
      ((identifierText (.node data children)).any fun text ↦
        classifierPatterns.any fun pattern ↦ pattern text) ||
        someContainsClassifierReference classifierPatterns children

/-- `getChildren().some(...)`. -/
def someContainsClassifierReference (classifierPatterns : List (String → Bool)) :
    List Node → Bool
  | [] => false
  | child :: rest =>
      containsClassifierReference classifierPatterns child ||
        someContainsClassifierReference classifierPatterns rest

end

/-- `containsClassifierReference` at a node of the tree. -/
def containsClassifierReferenceAt (root : Node) (classifierPatterns : List (String → Bool))
    (dependency : Position) : Bool :=
  (root.subtree dependency).any (containsClassifierReference classifierPatterns)

/-- Whether a classifier governs the bail calls of a callback. A callback without a bail parameter
has none to govern; `none` says that the fuel did not last. -/
def usesTransientClassifierToGovernRetry (fuel : ℕ) (classifierPatterns : List (String → Bool))
    (callback : Node) : Option Bool :=
  match retryScope callback with
  | none => some false
  | some scope => do
      let dependencies ← retryDependencies fuel callback scope
      some (dependencies.any (containsClassifierReferenceAt callback classifierPatterns))

end CoreUtils.FlakeLinter
