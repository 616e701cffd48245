import CoreUtils.FlakeLinter.Dependencies
import Mathlib.Algebra.Order.Ring.Unbundled.Rat
import Mathlib.Order.WithBot

/-!
# The syntax trees of the linter

What the rules of `playwrightFlakeLinter.ts` read of a source file. The parser of TypeScript is not
part of the repository: a tree says of each node what the parser reports about it. `Node` keeps what
the dependency collections read of it (`plain`).
-/

namespace CoreUtils.FlakeLinter

open RoseTree (Position)

/-- The property of its parent that holds a node. -/
inductive Role where
  | name
  | initializer
  | expression
  | parameters
  | body
  | arguments
  | statements
  | declarationList
  | declarations
  | jsDoc
  | other
deriving DecidableEq

/-- The kinds of nodes that the rules tell apart. A numeric literal may be too large for a finite
number. -/
inductive SourceKind where
  | sourceFile
  | identifier (text : String)
  | privateIdentifier (text : String)
  | stringLiteralLike (text : String)
  | numericLiteral (value : WithTop ℚ)
  | templateExpression
  | callExpression
  | propertyAccessExpression
  | propertyAssignment
  | variableDeclaration
  | variableStatement
  | returnStatement
  | ifStatement
  | block
  | functionDeclaration
  | functionExpression
  | arrowFunction
  | functionLike
  | other
deriving DecidableEq

/-- A node without its children: also `ts.isStatement` of it, its text, where it starts, and the
comments before it. -/
structure SourceData where
  role : Role
  kind : SourceKind
  isStatement : Bool
  getText : String
  line : ℕ
  character : ℕ
  leadingComments : List String

/-- A node of a source file. -/
abbrev Source := RoseTree SourceData

/-! ## What the dependency collections read -/

/-- The property, as far as the collections tell it. -/
def Role.plain : Role → PropertyName
  | .name => .name
  | .initializer => .initializer
  | .expression => .expression
  | .parameters => .parameters
  | .body => .body
  | .jsDoc => .jsDoc
  | _ => .other

/-- The kind, as far as the collections tell it. -/
def SourceKind.plain : SourceKind → SyntaxKind
  | .identifier text => .identifier text
  | .variableDeclaration => .variableDeclaration
  | .returnStatement => .returnStatement
  | .ifStatement => .ifStatement
  | .callExpression => .callExpression
  | .block => .block
  | .functionDeclaration | .functionExpression | .arrowFunction | .functionLike => .functionLike
  | _ => .other

/-- A tree, as far as the collections tell it. -/
def plain (node : Source) : Node := node.map fun data ↦ ⟨data.role.plain, data.kind.plain⟩

/-! ## Reading a node -/

/-- Whether `ts.forEachChild` visits a child. -/
def isSourceSyntax (data : SourceData) : Bool := data.role ≠ .jsDoc

/-- The children under a property. -/
def childrenOf (node : Source) (role : Role) : List Source :=
  node.children.filter fun child ↦ child.label.role = role

/-- The child under a property, or the first of them. -/
def childOf (node : Source) (role : Role) : Option Source := (childrenOf node role).head?

/-- `node.text` of an identifier. -/
def sourceIdentifier (node : Source) : Option String :=
  match node.label.kind with
  | .identifier text => some text
  | _ => none

/-- `expression.name.text` of a property access, whose name may be private. -/
def accessedName (node : Source) : Option String := do
  let name ← childOf node .name
  match node.label.kind, name.label.kind with
  | .propertyAccessExpression, .identifier text => some text
  | .propertyAccessExpression, .privateIdentifier text => some text
  | _, _ => none

/-- The name that is called, or the name of the member that is; other expressions have none. -/
def getCallName (callExpression : Source) : Option String := do
  let expression ← childOf callExpression .expression
  (sourceIdentifier expression).or (accessedName expression)

/-! ## Scopes -/

/-- Whether an expression is a function itself. -/
def isFunctionExpressionLike (node : Source) : Bool :=
  node.label.kind = .arrowFunction ∨ node.label.kind = .functionExpression

/-- The function that a variable declaration gives a name. -/
def functionOfDeclaration (functionName : String) (declaration : Source) : Option Source := do
  let name ← childOf declaration .name
  let initializer ← childOf declaration .initializer
  if sourceIdentifier name = some functionName ∧ isFunctionExpressionLike initializer then
    some initializer
  else none

/-- The function that a statement declares under a name. -/
def functionOfStatement (functionName : String) (statement : Source) : Option Source :=
  if statement.label.kind = .functionDeclaration ∧
      ((childOf statement .name).bind sourceIdentifier) = some functionName then
    some statement
  else if statement.label.kind = .variableStatement then do
    let declarationList ← childOf statement .declarationList
    (childrenOf declarationList .declarations).findSome? (functionOfDeclaration functionName)
  else none

/-- The first function that one of the statements declares under a name. -/
def findFunctionLikeInStatements (functionName : String) (statements : List Source) :
    Option Source :=
  statements.findSome? (functionOfStatement functionName)

/-- The function of a name that a block or a source file declares. -/
def functionOfScope (functionName : String) (scope : Source) : Option Source :=
  if scope.label.kind = .block ∨ scope.label.kind = .sourceFile then
    findFunctionLikeInStatements functionName (childrenOf scope .statements)
  else none

/-- The function that an expression is, or that the nearest scope around a reference declares under
the name that the expression is. There is none for other expressions and unknown names. -/
def resolveFunctionLike (root : Source) (referenceNode : Position) (expression : Option Source) :
    Option Source := do
  let expression ← expression
  if isFunctionExpressionLike expression then some expression
  else do
    let functionName ← sourceIdentifier expression
    root.climbParents (fun _ scope ↦ functionOfScope functionName scope) referenceNode

end CoreUtils.FlakeLinter
