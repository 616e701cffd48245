import CoreUtils.FlakeLinter.Syntax
import CoreUtils.Library.Text
import CoreUtils.Library.Utf16

/-!
# The Playwright flake linter

`findPlaywrightFlakePatternViolations` of `playwrightFlakeLinter.ts`: every call of a source file
is checked against five rules, and what a rule finds is reported unless a comment or the
configuration allows it.
-/

namespace CoreUtils.FlakeLinter

open RoseTree (Position)

/-! ## Rules and configurations -/

/-- The five rules. -/
inductive PlaywrightFlakeRuleId where
  | fixedSleep
  | responseWait
  | retryClassification
  | testDataIdentity
  | sharedReadiness
deriving DecidableEq

/-- The text of a rule id. -/
def PlaywrightFlakeRuleId.text : PlaywrightFlakeRuleId → String
  | .fixedSleep => "fixed-sleep"
  | .responseWait => "response-wait"
  | .retryClassification => "retry-classification"
  | .testDataIdentity => "test-data-identity"
  | .sharedReadiness => "shared-readiness"

/-- An entry of the allowlist: the files whose findings of one rule are allowed, and why. -/
structure PlaywrightFlakeLinterAllowlistEntry where
  filePathPattern : String
  reason : String
  ruleId : PlaywrightFlakeRuleId

/-- A way of waiting that has shared helpers, and the calls that open it without them. -/
structure SharedReadinessMechanism where
  directCallNames : List String
  filePathPattern : String
  name : String
  sharedHelperNames : List String

/-- The configuration. All but the roots of the scan can be left out. -/
structure PlaywrightFlakeLinterConfig where
  allowlist : Option (List PlaywrightFlakeLinterAllowlistEntry)
  hardenedIdentityHelperNames : Option (List String)
  identityHelperMinimumLengths : Option (OrderedMap String ℚ)
  identityNamePattern : Option String
  responseWaitCallNames : Option (List String)
  retryHelperNames : Option (List String)
  scanRoots : List String
  sharedReadinessMechanisms : Option (List SharedReadinessMechanism)
  specificRequestMatcherNames : Option (List String)
  specFilePattern : Option String
  transientClassifierNamePatterns : Option (List String)
  undiscriminatingRetryHelperNames : Option (List String)

/-- A finding that nothing allows, at a line and a column from 1. -/
structure PlaywrightFlakePatternViolation where
  column : ℕ
  filePath : String
  line : ℕ
  message : String
  ruleId : PlaywrightFlakeRuleId
deriving DecidableEq

/-- The names that ask for an identity, `DEFAULT_IDENTITY_NAME_PATTERN`. -/
def defaultIdentityNamePattern : String :=
  "(address|email|identifier|license|message|name|phone|street|suffix|title|id$)"

/-- The calls that wait for a response, `DEFAULT_RESPONSE_WAIT_CALL_NAMES`. -/
def defaultResponseWaitCallNames : List String := ["waitForResponse"]

/-- The calls that tell requests apart, `DEFAULT_SPECIFIC_REQUEST_MATCHER_NAMES`. -/
def defaultSpecificRequestMatcherNames : List String := ["isMatchingRequest"]

/-- The files that are specs, `DEFAULT_SPEC_FILE_PATTERN`. -/
def defaultSpecFilePattern : String := "\\.spec\\.[cm]?[jt]sx?$"

/-- The names of classifiers, `DEFAULT_TRANSIENT_CLASSIFIER_NAME_PATTERNS`. -/
def defaultTransientClassifierNamePatterns : List String := ["^isRetryable", "retryClassification"]

/-- `RULE_MESSAGES`, for the rules whose message is fixed. -/
def ruleMessage : PlaywrightFlakeRuleId → String
  | .fixedSleep => "Fixed sleep anti-pattern (rubric B2). Replace waitForTimeout/setTimeout " ++
      "delays with a deterministic readiness signal"
  | .responseWait =>
      "Undiscriminating response-wait anti-pattern (rubric B2). Match the request " ++
      "method, URL, and a discriminating request predicate"
  | .retryClassification =>
      "Undiscriminating retry anti-pattern (rubric B1). Retry only failures " ++
      "classified as transient and fail fast for genuine failures"
  | .testDataIdentity => "Low-entropy parallel-worker identity collision anti-pattern (rubric " ++
      "A2). Use a configured hardened random helper or UUID-backed identity"
  | .sharedReadiness => ""

/-- The message about a spec that opens a mechanism itself: it names all of the shared helpers. -/
def getSharedReadinessMessage (mechanism : SharedReadinessMechanism) : String :=
  "Per-spec " ++ mechanism.name ++ " gate anti-pattern (rubric A1 shared-helper rule). " ++
    "Use or extend " ++ String.intercalate " or " mechanism.sharedHelperNames

/-- What the linter runs on: `new RegExp` with and without the flag `i`, which throws for some
patterns, the separator of paths, and the parser. -/
structure Platform where
  regExp : (pattern : String) → (ignoreCase : Bool) → Option (String → Bool)
  sep : Char
  createSourceFile : (fileName source : String) → (tsx : Bool) → Source

/-- `new RegExp(pattern).test(text)` where the pattern is known to compile. -/
def Platform.test (platform : Platform) (pattern : String) (ignoreCase : Bool) (text : String) :
    Bool :=
  (platform.regExp pattern ignoreCase).elim false (· text)

/-! ## Validation -/

/-- `text.trim().length === 0`. -/
def isBlankText (text : String) : Bool := (Text.trim Text.isWhiteSpace text.toList).isEmpty

/-- Throw unless a condition holds. -/
def ensure (condition : Bool) (message : String) : Except String Unit :=
  if condition then .ok () else .error message

/-- Fails, with the pattern in the message, if a text is no pattern of a regular expression. -/
def validatePattern (platform : Platform) (label pattern : String) : Except String Unit :=
  ensure (platform.regExp pattern false).isSome
    ("Invalid " ++ label ++ " pattern: " ++ pattern)

/-- Fails if a pattern is given and is none of a regular expression. -/
def validateOptionalPattern (platform : Platform) (label : String) (pattern : Option String) :
    Except String Unit :=
  pattern.elim (.ok ()) (validatePattern platform label)

/-- The checks of an entry of the allowlist. -/
def validateAllowlistEntry (platform : Platform) (entry : PlaywrightFlakeLinterAllowlistEntry) :
    Except String Unit := do
  ensure (!isBlankText entry.reason)
    "Every Playwright flake linter allowlist reason must be non-empty."
  validatePattern platform "allowlist file path" entry.filePathPattern

/-- The check of the minimum length of an identity helper. -/
def validateMinimumLength (entry : String × ℚ) : Except String Unit :=
  ensure (!isBlankText entry.1 && entry.2.den = 1 && 0 < entry.2)
    "Identity helper minimum lengths require a non-empty helper name and positive integer."

/-- The checks of a readiness mechanism. -/
def validateMechanism (platform : Platform) (mechanism : SharedReadinessMechanism) :
    Except String Unit := do
  ensure (!isBlankText mechanism.name && !mechanism.directCallNames.isEmpty &&
      !mechanism.sharedHelperNames.isEmpty)
    "Shared readiness mechanisms require a name, direct call, and shared helper."
  validatePattern platform (mechanism.name ++ " file path") mechanism.filePathPattern

/-- Refuses a configuration that has no root or a blank one, an entry, a mechanism or a minimum
length that is not valid, or a text that is no pattern; the first error is the one that is given. -/
def validateConfig (platform : Platform) (config : PlaywrightFlakeLinterConfig) :
    Except String Unit := do
  ensure (!config.scanRoots.isEmpty && !config.scanRoots.any isBlankText)
    "Playwright flake linter config requires at least one scan root."
  (config.allowlist.getD []).forM (validateAllowlistEntry platform)
  validateOptionalPattern platform "spec file" config.specFilePattern
  validateOptionalPattern platform "identity name" config.identityNamePattern
  (config.transientClassifierNamePatterns.getD []).forM
    (validatePattern platform "transient classifier name")
  ((config.identityHelperMinimumLengths.elim [] OrderedMap.entries)).forM validateMinimumLength
  (config.sharedReadinessMechanisms.getD []).forM (validateMechanism platform)

/-! ## Fixed sleeps -/

/-- A call of `waitForTimeout` of something, or of `setTimeout` alone or of a global object. -/
def isFixedSleepCall (callExpression : Source) : Bool :=
  (childOf callExpression .expression).any fun expression ↦
    let isQualifiedSetTimeout := accessedName expression = some "setTimeout" &&
      ((childOf expression .expression).bind sourceIdentifier).any
        ["globalThis", "self", "window"].contains
    accessedName expression = some "waitForTimeout" || isQualifiedSetTimeout ||
      sourceIdentifier expression = some "setTimeout"

/-! ## Waits for responses -/

/-- A call by one of the configured names. -/
def isConfiguredCall (callExpression : Source) (names : List String) : Bool :=
  (getCallName callExpression).any names.contains

/-- A call of one of the methods of the response itself. -/
def isDirectResponseCall (methodNames : List String) (responseName : String)
    (callExpression : Source) : Bool :=
  (childOf callExpression .expression).any fun expression ↦
    (accessedName expression).any methodNames.contains &&
      (childOf expression .expression).bind sourceIdentifier = some responseName

/-- The call whose result a call's member is taken from. -/
def receiverCall (callExpression : Source) : Option Source := do
  let expression ← childOf callExpression .expression
  let receiver ← childOf expression .expression
  if receiver.label.kind = .callExpression then some receiver else none

/-- The name of the member that a call calls. -/
def calledMember (callExpression : Source) : Option String :=
  (childOf callExpression .expression).bind accessedName

/-- A call of one of the methods of the request of the response. -/
def isResponseRequestCall (methodNames : List String) (responseName : String)
    (callExpression : Source) : Bool :=
  (calledMember callExpression).any methodNames.contains &&
    (receiverCall callExpression).any (isDirectResponseCall ["request"] responseName)

/-- A search in the URL of the response for a text that is computed. -/
def isDynamicResponseUrlMatch (responseName : String) (callExpression : Source) : Bool :=
  (calledMember callExpression).any ["endsWith", "includes", "startsWith"].contains &&
    (receiverCall callExpression).any (isDirectResponseCall ["url"] responseName) &&
    (childrenOf callExpression .arguments).any fun argument ↦
      argument.label.kind = .templateExpression

/-- What the result of a predicate looks at. -/
structure ResponseChecks where
  checksStatus : Bool
  delegatesSpecificRequestMatching : Bool
  checksMethod : Bool
  checksUrl : Bool
  checksDiscriminatingRequestProperty : Bool

/-- The answer from what was looked at. -/
def ResponseChecks.isUndiscriminating (checks : ResponseChecks) : Bool :=
  if !checks.checksStatus then false
  else !checks.delegatesSpecificRequestMatching &&
    (!checks.checksMethod || !checks.checksUrl || !checks.checksDiscriminatingRequestProperty)

/-- Whether a call looks at the status of a response. -/
def looksAtStatus (responseName : String) (node : Source) : Bool :=
  node.label.kind = .callExpression && isDirectResponseCall ["ok", "status"] responseName node

/-- Whether a call hands the request to one of the matchers. -/
def handsToMatcher (specificRequestMatcherNames : List String) (node : Source) : Bool :=
  node.label.kind = .callExpression &&
    ((childOf node .expression).bind sourceIdentifier).any specificRequestMatcherNames.contains

/-- Whether a call looks at the method of the request. -/
def looksAtMethod (responseName : String) (node : Source) : Bool :=
  node.label.kind = .callExpression && isResponseRequestCall ["method"] responseName node

/-- Whether a call looks at the address of a response. -/
def looksAtUrl (responseName : String) (node : Source) : Bool :=
  node.label.kind = .callExpression && isDirectResponseCall ["url"] responseName node

/-- Whether a node tells requests of one method and address apart. -/
def discriminates (responseName : String) (node : Source) : Bool :=
  node.label.kind = .callExpression &&
      (isResponseRequestCall ["headerValue", "postData", "postDataJSON", "resourceType"]
        responseName node || isDynamicResponseUrlMatch responseName node) ||
    accessedName node = some "searchParams"

/-- `visitResultDependency` at a node, before it goes on to the children. -/
def examine (responseName : String) (specificRequestMatcherNames : List String) (_ : Position)
    (node : Source) (checks : ResponseChecks) : ResponseChecks where
  checksStatus := checks.checksStatus || looksAtStatus responseName node
  delegatesSpecificRequestMatching := checks.delegatesSpecificRequestMatching ||
    handsToMatcher specificRequestMatcherNames node
  checksMethod := checks.checksMethod || looksAtMethod responseName node
  checksUrl := checks.checksUrl || looksAtUrl responseName node
  checksDiscriminatingRequestProperty := checks.checksDiscriminatingRequestProperty ||
    discriminates responseName node

/-- The name of the first parameter of a function. -/
def firstParameterName (predicate : Source) : Option String := do
  let parameter ← childOf predicate .parameters
  let name ← childOf parameter .name
  sourceIdentifier name

/-- What the dependencies of a predicate's result look at. -/
def examineDependencies (predicate : Source) (responseName : String)
    (specificRequestMatcherNames : List String) (dependencies : List Position) : ResponseChecks :=
  dependencies.foldl (fun checks dependency ↦
    (predicate.subtree dependency).elim checks fun resultNode ↦
      resultNode.walk isSourceSyntax (examine responseName specificRequestMatcherNames) dependency
        checks)
    ⟨false, false, false, false, false⟩

/-- `hasUndiscriminatingResponsePredicate`, with so many turns for the collection. -/
def hasUndiscriminatingResponsePredicate (fuel : ℕ) (root : Source) (p : Position)
    (callExpression : Source) (specificRequestMatcherNames : List String) : Option Bool :=
  match resolveFunctionLike root p (childOf callExpression .arguments) with
  | none => some false
  | some predicate =>
      match firstParameterName predicate with
      | none => some false
      | some responseName => do
          let dependencies ← getPredicateResultDependencies fuel (plain predicate)
          some (examineDependencies predicate responseName specificRequestMatcherNames
            dependencies).isUndiscriminating

/-! ## Retries -/

/-- `isUndiscriminatingRetryCall`, with so many turns for the collection. -/
def isUndiscriminatingRetryCall (platform : Platform) (fuel : ℕ) (root : Source) (p : Position)
    (callExpression : Source) (config : PlaywrightFlakeLinterConfig) : Option Bool :=
  match getCallName callExpression with
  | none => some false
  | some callName =>
      if (config.undiscriminatingRetryHelperNames.getD []).contains callName then some true
      else if !(config.retryHelperNames.getD []).contains callName then some false
      else
        match resolveFunctionLike root p (childOf callExpression .arguments) with
        | none => some true
        | some callback => do
            let classifierPatterns := (config.transientClassifierNamePatterns.getD
              defaultTransientClassifierNamePatterns).map (platform.test · false)
            let uses ← usesTransientClassifierToGovernRetry fuel classifierPatterns (plain callback)
            some (!uses)

/-! ## Identities of test data -/

/-- The texts of the string literals below a node, with blanks between them. -/
def collectStringLiteralText (p : Position) (node : Source) : String :=
  String.intercalate " " (node.walk isSourceSyntax (fun _ descendant stringValues ↦
    match descendant.label.kind with
    | .stringLiteralLike text => stringValues ++ [text]
    | _ => stringValues) p [])

/-- The name that a node gives to what is below it. -/
def identityContext (p : Position) (ancestor : Source) : Option String :=
  match ancestor.label.kind with
  | .variableDeclaration => (childOf ancestor .name).bind sourceIdentifier
  | .propertyAssignment => (childOf ancestor .name).map (·.label.getText)
  | .callExpression =>
      if calledMember ancestor = some "fill" then some (collectStringLiteralText p ancestor)
      else none
  | _ => none

/-- `findIdentityContextName`: the climb ends without a name at a statement. -/
def findIdentityContextName (root : Source) (p : Position) : Option String :=
  (root.climbParents (fun q ancestor ↦
    match identityContext q ancestor with
    | some name => some (some name)
    | none => if ancestor.label.isStatement then some none else none) p).join

/-- A call of `Date.now` or of `Math.random`. -/
def isLowEntropyBuiltInIdentitySource (callExpression : Source) : Bool :=
  (childOf callExpression .expression).any fun expression ↦
    (childOf expression .expression).any fun receiver ↦
      receiver.label.getText = "Date" && accessedName expression = some "now" ||
        receiver.label.getText = "Math" && accessedName expression = some "random"

/-- The keys that every object has from its prototype. -/
def prototypeKeys : List String :=
  ["constructor", "__defineGetter__", "__defineSetter__", "hasOwnProperty", "__lookupGetter__",
    "__lookupSetter__", "isPrototypeOf", "propertyIsEnumerable", "toString", "valueOf",
    "__proto__", "toLocaleString"]

/-- The number of a numeric literal. -/
def numericLiteral (node : Source) : Option (WithTop ℚ) :=
  match node.label.kind with
  | .numericLiteral value => some value
  | _ => none

/-- A call that gives something the name of an identity too few different values: the clock, the
random numbers, or a helper with a length below its minimum. Hardened helpers are fine. -/
def isLowEntropyTestDataIdentityCall (platform : Platform) (root : Source) (p : Position)
    (callExpression : Source) (config : PlaywrightFlakeLinterConfig) : Bool :=
  let minimumLengths := config.identityHelperMinimumLengths.getD .empty
  let isIdentity := (findIdentityContextName root p).any
    (platform.test (config.identityNamePattern.getD defaultIdentityNamePattern) true)
  let callName := getCallName callExpression
  if !isIdentity then false
  else if callName.any (config.hardenedIdentityHelperNames.getD []).contains then false
  else if isLowEntropyBuiltInIdentitySource callExpression then true
  else
    match callName with
    | none => false
    | some name =>
        -- the operator `in` finds inherited keys, under which no number is stored
        if !(minimumLengths.has name || prototypeKeys.contains name) then false
        else
          match (childOf callExpression .arguments).bind numericLiteral with
          | none => true
          | some length => (minimumLengths.get name).any fun minimumLength ↦
              length < (minimumLength : WithTop ℚ)

/-! ## What is allowed -/

/-- `\s+`, where the pattern goes on with something else. -/
def dropSpaces (text : List Char) : Option (List Char) :=
  if text.head?.any Text.isWhiteSpace then some (text.dropWhile Text.isWhiteSpace) else none

/-- What comes after the blanks of an allowlist comment that begins with a text. -/
def allowlistReason (ruleId : PlaywrightFlakeRuleId) (text : List Char) : Option (List Char) := do
  let text ← text.dropPrefix? "flake-lint-allow".toList
  let text ← dropSpaces text
  let text ← text.dropPrefix? ruleId.text.toList
  let text ← dropSpaces text
  let text ← text.dropPrefix? "--".toList
  dropSpaces text

/-- The pattern for an allowlist comment, where it begins. -/
def startsAllowlistComment (ruleId : PlaywrightFlakeRuleId) (text : List Char) : Bool :=
  (allowlistReason ruleId text).any fun reason ↦ !reason.isEmpty

/-- `allowlistPattern.test(comment)`. -/
def isAllowlistComment (ruleId : PlaywrightFlakeRuleId) (comment : String) : Bool :=
  comment.toList.tails.any (startsAllowlistComment ruleId)

/-- `hasInlineAllowlistComment`: the climb ends at a statement or the source file. -/
def hasInlineAllowlistComment (root : Source) (ruleId : PlaywrightFlakeRuleId) (p : Position) :
    Bool :=
  (root.climb (fun q currentNode ↦
    if q = [] then some false
    else if currentNode.label.leadingComments.any (isAllowlistComment ruleId) then some true
    else if currentNode.label.isStatement then some false
    else none) p).getD false

/-- Whether an entry of the allowlist allows a rule in a file. -/
def PlaywrightFlakeLinterAllowlistEntry.allows (entry : PlaywrightFlakeLinterAllowlistEntry)
    (platform : Platform) (filePath : String) (ruleId : PlaywrightFlakeRuleId) : Bool :=
  entry.ruleId = ruleId && platform.test entry.filePathPattern false filePath

/-- An entry of the allowlist allows the findings of a rule in a file. -/
def isAllowlistedByConfig (platform : Platform) (config : PlaywrightFlakeLinterConfig)
    (filePath : String) (ruleId : PlaywrightFlakeRuleId) : Bool :=
  (config.allowlist.getD []).any (·.allows platform filePath ruleId)

/-! ## The order of violations -/

/-- Compares texts by their UTF-16 code units. -/
def compareStrings (first second : String) : ℤ :=
  if first = second then 0
  else if Utf16.units first.toList < Utf16.units second.toList then -1 else 1

/-- The first of two comparisons, unless it finds no difference. -/
def thenCompare (first second : ℤ) : ℤ := if first ≠ 0 then first else second

/-- Compares violations by file, line, column and rule, in this order. -/
def compareViolations (first second : PlaywrightFlakePatternViolation) : ℤ :=
  thenCompare (compareStrings first.filePath second.filePath)
    (thenCompare (first.line - second.line)
      (thenCompare (first.column - second.column)
        (compareStrings first.ruleId.text second.ruleId.text)))

/-- `violations.toSorted(compareViolations)`. -/
def sortViolations (violations : List PlaywrightFlakePatternViolation) :
    List PlaywrightFlakePatternViolation :=
  violations.insertionSort fun first second ↦ compareViolations first second ≤ 0

/-! ## The linter -/

/-- A path with slashes for the separators of the platform. -/
def normalizeFilePath (platform : Platform) (filePath : String) : String :=
  filePath.map fun c ↦ if c = platform.sep then '/' else c

/-- Whether a call waits for a response that its predicate does not tell apart. -/
def isUndiscriminatingResponseWait (fuel : ℕ) (root : Source) (p : Position) (node : Source)
    (config : PlaywrightFlakeLinterConfig) : Option Bool :=
  if isConfiguredCall node (config.responseWaitCallNames.getD defaultResponseWaitCallNames) then
    hasUndiscriminatingResponsePredicate fuel root p node
      (config.specificRequestMatcherNames.getD defaultSpecificRequestMatcherNames)
  else some false

/-- `getMatchingSharedReadinessMechanisms`, those whose gate a call opens. -/
def mechanismsAt (platform : Platform) (config : PlaywrightFlakeLinterConfig) (filePath : String)
    (node : Source) : List SharedReadinessMechanism :=
  ((config.sharedReadinessMechanisms.getD []).filter fun mechanism ↦
    platform.test mechanism.filePathPattern false filePath).filter fun mechanism ↦
      mechanism.directCallNames.contains ((getCallName node).getD "")

/-- A rule with its fixed message, if it finds something. -/
def report (found : Bool) (ruleId : PlaywrightFlakeRuleId) :
    List (PlaywrightFlakeRuleId × String) :=
  if found then [(ruleId, ruleMessage ruleId)] else []

/-- What the rules find at a call, with the message of each, in the order of the checks. -/
def findingsAt (platform : Platform) (fuel : ℕ) (config : PlaywrightFlakeLinterConfig)
    (filePath : String) (root : Source) (p : Position) (node : Source) :
    Option (List (PlaywrightFlakeRuleId × String)) := do
  let isSpecFile :=
    platform.test (config.specFilePattern.getD defaultSpecFilePattern) false filePath
  let isWait ← isUndiscriminatingResponseWait fuel root p node config
  let isRetry ← isUndiscriminatingRetryCall platform fuel root p node config
  some (report (isSpecFile && isFixedSleepCall node) .fixedSleep ++
    (report isWait .responseWait ++
    ((mechanismsAt platform config filePath node).map
        (fun mechanism ↦ (.sharedReadiness, getSharedReadinessMessage mechanism)) ++
    (report isRetry .retryClassification ++
    report (isLowEntropyTestDataIdentityCall platform root p node config) .testDataIdentity))))

/-- Adds the violation of a finding at the place where its node begins, unless a comment or the
configuration allows it. -/
def addViolation (platform : Platform) (config : PlaywrightFlakeLinterConfig) (filePath : String)
    (root : Source) (p : Position) (node : Source)
    (violations : List PlaywrightFlakePatternViolation)
    (finding : PlaywrightFlakeRuleId × String) : List PlaywrightFlakePatternViolation :=
  if hasInlineAllowlistComment root finding.1 p ||
      isAllowlistedByConfig platform config filePath finding.1 then
    violations
  else
    violations ++ [⟨node.label.character + 1, filePath, node.label.line + 1, finding.2, finding.1⟩]

/-- `visit` at a node, before it goes on to the children. -/
def visitCall (platform : Platform) (fuel : ℕ) (config : PlaywrightFlakeLinterConfig)
    (filePath : String) (root : Source) (p : Position) (node : Source)
    (violations : Option (List PlaywrightFlakePatternViolation)) :
    Option (List PlaywrightFlakePatternViolation) := do
  let violations ← violations
  if node.label.kind = .callExpression then do
    let findings ← findingsAt platform fuel config filePath root p node
    some (findings.foldl (addViolation platform config filePath root p node) violations)
  else some violations

/-- `findPlaywrightFlakePatternViolations`, with so many turns for each collection. -/
def findPlaywrightFlakePatternViolations (platform : Platform) (fuel : ℕ)
    (config : PlaywrightFlakeLinterConfig) (filePath source : String) :
    Option (Except String (List PlaywrightFlakePatternViolation)) :=
  match validateConfig platform config with
  | .error message => some (.error message)
  | .ok () => do
      let normalizedFilePath := normalizeFilePath platform filePath
      let sourceFile := platform.createSourceFile normalizedFilePath source
        (normalizedFilePath.endsWith "x")
      let violations ← sourceFile.walk isSourceSyntax
        (visitCall platform fuel config normalizedFilePath sourceFile) [] (some [])
      some (.ok (sortViolations violations))

end CoreUtils.FlakeLinter
