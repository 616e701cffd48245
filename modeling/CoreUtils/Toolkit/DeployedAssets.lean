import CoreUtils.Library.OrderedMap
import CoreUtils.Library.Text
import CoreUtils.Library.WorkerPool
import CoreUtils.Toolkit.RetrySteps

/-!
# Deployed assets

`verifyDeployedAssets` of the Playwright toolkit: workers take the checks of a list one after the
other, and verify each with classified retries. What an attempt meets is its environment's: the
response, the answer of the validator, the clocks and the sleeps, each of which may throw. The
platform gives URLs, case mapping and the text of numbers; the timer that aborts a request is left
out.
-/

namespace CoreUtils.Toolkit.DeployedAssets

open Retry

/-- A text. -/
abbrev Text := List Char

/-! ## Checks, attempts and results -/

/-- How an asset is asked for. -/
inductive DeployedAssetRequestMethod where
  | GET
  | HEAD
  deriving DecidableEq, Repr

/-- Whether the caches on the way are passed by. -/
inductive DeployedAssetCacheMode where
  | cacheBusted
  | normal
  deriving DecidableEq, Repr

/-- `DeployedAssetCheck`. Of a validator it says whether there is one; what it answers is the
environment's. -/
structure DeployedAssetCheck where
  path : Text
  url : Text
  method : Option DeployedAssetRequestMethod
  cacheMode : Option DeployedAssetCacheMode
  expectedContentTypes : Option (List Text)
  headers : Option (OrderedMap Text Text)
  validateResponse : Bool

/-- What the report says of a check. -/
structure DeployedAssetReportCheck where
  path : Text
  url : Text
  method : Option DeployedAssetRequestMethod
  cacheMode : Option DeployedAssetCacheMode
  expectedContentTypes : Option (List Text)
  deriving DecidableEq, Repr

/-- `toDeployedAssetReportCheck`: a check without its headers and its validator. -/
def toDeployedAssetReportCheck (check : DeployedAssetCheck) : DeployedAssetReportCheck :=
  ⟨check.path, check.url, check.method, check.cacheMode, check.expectedContentTypes⟩

/-- One request for an asset, and what came of it. -/
structure DeployedAssetAttempt (τ : Type*) where
  attemptNumber : ℕ
  contentType : Option Text
  durationMs : τ
  errorMessage : Option Text
  status : Option ℕ
  url : Text
  deriving DecidableEq, Repr

/-- What came of a check: its attempts, and the last response or error. -/
structure DeployedAssetResult (τ : Type*) where
  attempts : List (DeployedAssetAttempt τ)
  check : DeployedAssetReportCheck
  contentType : Option Text
  errorMessage : Option Text
  isSuccess : Bool
  status : Option ℕ
  deriving DecidableEq, Repr

/-- What a validator says of a response. -/
structure DeployedAssetValidationResult where
  isValid : Bool
  message : Option Text
  isTransient : Option Bool

/-! ## Errors -/

/-- What is inspected of an object on a chain of causes: its name and its code, where these are
texts, and the object that is its cause. -/
structure ErrorObject where
  name : Option Text
  code : Option Text
  cause : Option ℕ
  deriving DecidableEq, Repr

/-- A thrown value: one whose message has a text, or one for which `toErrorMessage` throws another
value, like `{ message: Object.create(null) }`. Either has the objects that its causes lead to; the
value itself is the object `first`, if it is one. -/
inductive ThrownValue where
  | told (message : Text) (objects : List ErrorObject) (first : Option ℕ)
  | untold (thrown : ThrownValue) (objects : List ErrorObject) (first : Option ℕ)
  deriving DecidableEq, Repr

/-- The message of a thrown value. Taking it throws if the value cannot be made a text. -/
def ThrownValue.toErrorMessage : ThrownValue → Except ThrownValue Text
  | .told message _ _ => .ok message
  | .untold thrown _ _ => .error thrown

/-- The objects of a value. -/
def ThrownValue.objects : ThrownValue → List ErrorObject
  | .told _ objects _ => objects
  | .untold _ objects _ => objects

/-- The object that a value is. -/
def ThrownValue.first : ThrownValue → Option ℕ
  | .told _ _ first => first
  | .untold _ _ first => first

/-- The error of a failed attempt, with the attempt. -/
structure AssetAttemptFailure (τ : Type*) where
  attempt : DeployedAssetAttempt τ
  isTransient : Bool
  message : Text
  deriving DecidableEq, Repr

/-- What an attempt throws. -/
inductive AttemptError (τ : Type*) where
  | assetAttemptFailure (failure : AssetAttemptFailure τ)
  | other (error : ThrownValue)
  deriving DecidableEq, Repr

/-- What is used of the platform. `parseUrl` is the constructor of a URL, which may throw. -/
structure Platform (Url : Type) (τ : Type*) where
  parseUrl : Text → Except ThrownValue Url
  urlToString : Url → Text
  setSearchParam : Url → Text → Text → Url
  toLowerCase : Text → Text
  numberToText : τ → Text

/-- The name and the codes of errors that may go away. -/
def ErrorObject.isTransient (error : ErrorObject) : Bool :=
  error.name = some "AbortError".toList || error.code = some "ECONNREFUSED".toList ||
    error.code = some "ECONNRESET".toList || error.code = some "EAI_AGAIN".toList ||
    error.code = some "ENOTFOUND".toList || error.code = some "ETIMEDOUT".toList

/-- The loop of `isTransientFetchError`. It stops at a value that is no object, and at one that has
been inspected; `uninspected` has the others. -/
def inspectCauses (objects : List ErrorObject) (uninspected : List ℕ) (error : Option ℕ) : Bool :=
  match error with
  | none => false
  | some reference =>
      if reference ∈ uninspected then
        match objects[reference]? with
        | none => false
        | some object =>
            object.isTransient ||
              inspectCauses objects (uninspected.erase reference) object.cause
      else false
termination_by uninspected.length
decreasing_by
  have hpos := List.length_pos_of_mem ‹reference ∈ uninspected›
  have hlength := List.length_erase_of_mem ‹reference ∈ uninspected›
  omega

section Platform

variable {Url : Type} {τ : Type*} (platform : Platform Url τ)

/-- `isTransientFetchError`, which throws what the message does. -/
def isTransientFetchError (error : ThrownValue) : Except ThrownValue Bool :=
  if inspectCauses error.objects (List.range error.objects.length) error.first then .ok true
  else
    error.toErrorMessage.map fun message ↦
      let normalizedMessage := platform.toLowerCase message
      decide ("failed to fetch".toList <:+: normalizedMessage) ||
        decide ("fetch failed".toList <:+: normalizedMessage) ||
        decide ("networkerror".toList <:+: normalizedMessage)

/-- A status that another request may not get: a timeout, too many requests or an error of the
server. -/
def isRetryableHttpStatus (status : ℕ) : Bool :=
  status = 408 || status = 429 || (500 ≤ status && status ≤ 599)

/-- A status that an asset may have while it is being deployed. -/
def isTransientAssetStatus (status : ℕ) : Bool := status = 425 || isRetryableHttpStatus status

/-! ## Content types -/

/-- `normalizeContentType`: what comes before the parameters. -/
def normalizeContentType (contentType : Text) : Text :=
  platform.toLowerCase (Text.trim Text.isWhiteSpace (contentType.takeWhile (· ≠ ';')))

/-- The content types that stand for one: several for scripts, JSON and icons. -/
def getEquivalentContentTypes (contentType : Text) : List Text :=
  let normalized := normalizeContentType platform contentType
  let javascript := ["application/javascript".toList, "text/javascript".toList]
  let json := ["application/json".toList, "application/manifest+json".toList]
  let icon := ["image/x-icon".toList, "image/vnd.microsoft.icon".toList]
  if javascript.contains normalized then javascript
  else if json.contains normalized then json
  else if icon.contains normalized then icon
  else [normalized]

/-- The content type of the response stands for an expected one. A response without one is not
expected. -/
def isExpectedContentType (actualContentType : Option Text) (expectedContentTypes : List Text) :
    Bool :=
  match actualContentType with
  | none => false
  | some actualContentType =>
      (expectedContentTypes.flatMap (getEquivalentContentTypes platform)).contains
        (normalizeContentType platform actualContentType)

/-! ## One attempt -/

/-- A request: its address, its method, whether caches are kept out, and its headers. -/
structure AssetRequest where
  url : Text
  method : DeployedAssetRequestMethod
  noStore : Bool
  headers : Option (OrderedMap Text Text)

/-- What is read of a response. -/
structure AssetResponse where
  status : ℕ
  contentType : Option Text
  deriving DecidableEq, Repr

/-- The status says that the request has succeeded, `response.ok`. -/
def AssetResponse.ok (response : AssetResponse) : Bool :=
  200 ≤ response.status && response.status ≤ 299

/-- What a verification meets, by the number of the attempt: the clock of the day, the readings at
the start of a request and at its end, its response, and the answer of the validator; and for the
retry loop its readings of the clock and its sleeps. -/
structure AssetEnvironment (τ : Type*) where
  dateNow : ℕ → ℕ
  startedAtMs : ℕ → Except ThrownValue τ
  endedAtMs : ℕ → Except ThrownValue τ
  fetch : ℕ → AssetRequest → Except ThrownValue AssetResponse
  validateResponse : ℕ → AssetResponse → Except ThrownValue DeployedAssetValidationResult
  retryNow : ℕ → Except ThrownValue τ
  sleep : ℕ → Except (Thrown ThrownValue) Unit

/-- `getRequestUrl`: a check that busts caches gets a parameter of its own for each attempt. -/
def getRequestUrl (dateNow attemptNumber : ℕ) (check : DeployedAssetCheck) :
    Except ThrownValue Text := do
  let url ← platform.parseUrl check.url
  match check.cacheMode.getD .normal with
  | .normal => return platform.urlToString url
  | .cacheBusted =>
      let value := (toString dateNow).toList ++ '-' :: (toString attemptNumber).toList
      return platform.urlToString
        (platform.setSearchParam url "cbhAssetVerifier".toList value)

/-- `getRequestInit`, with the address and the method. The headers of a check come after those that
keep caches out, and replace them. -/
def getRequestInit (requestUrl : Text) (check : DeployedAssetCheck) : AssetRequest :=
  let method := check.method.getD .GET
  match check.cacheMode.getD .normal with
  | .normal => ⟨requestUrl, method, false, check.headers⟩
  | .cacheBusted =>
      let noCache := (OrderedMap.empty.set "cache-control".toList "no-cache".toList).set
        "pragma".toList "no-cache".toList
      let entries := (check.headers.map OrderedMap.entries).getD []
      ⟨requestUrl, method, true,
        some (entries.foldl (fun headers entry ↦ headers.set entry.1 entry.2) noCache)⟩

/-- The failure of an attempt, with its message in the record of the attempt. -/
def attemptFailure (attempt : DeployedAssetAttempt τ) (isTransient : Bool) (message : Text) :
    AttemptError τ :=
  .assetAttemptFailure ⟨{ attempt with errorMessage := some message }, isTransient, message⟩

/-- The `catch` blocks of `checkAssetOnce`: the failure of an attempt with the message of a thrown
value. The record of the attempt is made after the message, and where either throws there is no
`AssetAttemptFailure`. -/
def caughtFailure (error : ThrownValue)
    (attempt : Text → Except ThrownValue (DeployedAssetAttempt τ)) : AttemptError τ :=
  match error.toErrorMessage with
  | .error thrown => .other thrown
  | .ok message =>
      match attempt message with
      | .error thrown => .other thrown
      | .ok attempt =>
          match isTransientFetchError platform error with
          | .error thrown => .other thrown
          | .ok isTransient => attemptFailure attempt isTransient message

/-- The checks of `checkAssetOnce` on a response: its status, its content type and the answer of the
validator. -/
def checkResponse (check : DeployedAssetCheck) (response : AssetResponse)
    (validation : Except ThrownValue DeployedAssetValidationResult)
    (attempt : DeployedAssetAttempt τ) : Except (AttemptError τ) (DeployedAssetAttempt τ) :=
  if response.ok = false then
    .error (attemptFailure attempt (isTransientAssetStatus response.status)
      ("expected HTTP 2xx but received HTTP ".toList ++ (toString response.status).toList))
  else if ∃ expected ∈ check.expectedContentTypes,
      isExpectedContentType platform response.contentType expected = false then
    .error (attemptFailure attempt false
      ("expected content-type ".toList ++
        List.intercalate " or ".toList (check.expectedContentTypes.getD []) ++
        " but received ".toList ++ response.contentType.getD "none".toList))
  else if check.validateResponse then
    match validation with
    | .error error => .error (caughtFailure platform error fun _ ↦ .ok attempt)
    | .ok validation =>
        if validation.isValid then .ok attempt
        else
          .error (attemptFailure attempt (validation.isTransient.getD false)
            (validation.message.getD "custom deployed asset validation failed".toList))
  else .ok attempt

variable [Ring τ]

/-- `checkAssetOnce` from the request on. -/
def fetchAsset (check : DeployedAssetCheck) (environment : AssetEnvironment τ) (attemptNumber : ℕ)
    (requestUrl : Text) (startedAtMs : τ) : Except (AttemptError τ) (DeployedAssetAttempt τ) :=
  match environment.fetch attemptNumber (getRequestInit requestUrl check) with
  | .error error =>
      .error (caughtFailure platform error fun message ↦
        (environment.endedAtMs attemptNumber).map fun endedAtMs ↦
          ⟨attemptNumber, none, endedAtMs - startedAtMs, some message, none, requestUrl⟩)
  | .ok response =>
      match environment.endedAtMs attemptNumber with
      | .error error => .error (.other error)
      | .ok endedAtMs =>
          checkResponse platform check response
            (environment.validateResponse attemptNumber response)
            ⟨attemptNumber, response.contentType, endedAtMs - startedAtMs, none,
              some response.status, requestUrl⟩

/-- One attempt at an asset. It fails if the URL of the request cannot be made, the clock throws, or
the response is not as it is expected. -/
def checkAssetOnce (check : DeployedAssetCheck) (environment : AssetEnvironment τ)
    (attemptNumber : ℕ) : Except (AttemptError τ) (DeployedAssetAttempt τ) :=
  match getRequestUrl platform (environment.dateNow attemptNumber) attemptNumber check with
  | .error error => .error (.other error)
  | .ok requestUrl =>
      match environment.startedAtMs attemptNumber with
      | .error error => .error (.other error)
      | .ok startedAtMs =>
          fetchAsset platform check environment attemptNumber requestUrl startedAtMs

/-! ## One verification -/

/-- `retry` of the options. A number of attempts that is no integer is `some none`. -/
structure RetryOptions (τ : Type*) where
  maxAttempts : Option (Option ℤ)
  delayMs : Option (Number τ)

/-- The policy of a verification: three attempts, half a second apart, where the options say nothing
else, and only failures that are marked so are transient. -/
def retryMode (retry : Option (RetryOptions τ)) : RetryMode (AttemptError τ) τ :=
  .classified {
    maxAttempts := (retry.bind RetryOptions.maxAttempts).getD (some 3)
    delayMs := .constant ((retry.bind RetryOptions.delayMs).getD (some ((500 : ℕ) : τ)))
    isTransient := fun context ↦
      match context.error with
      | .thrown (.value (.assetAttemptFailure failure)) => failure.isTransient
      | _ => false }

/-- `toErrorMessage` of what an attempt throws. -/
def AttemptError.toErrorMessage : AttemptError τ → Except ThrownValue Text
  | .assetAttemptFailure failure => .ok failure.message
  | .other error => error.toErrorMessage

/-- A value that a sleep throws. -/
def AttemptError.ofThrown (thrown : Thrown ThrownValue) : Thrown (AttemptError τ) :=
  match thrown with
  | .value error => .value (.other error)
  | .pollAttemptTimeoutError run => .pollAttemptTimeoutError run

variable [LinearOrder τ]

/-- What the retry loop of a verification meets. There is no hook. -/
def retryEnvironment (check : DeployedAssetCheck) (environment : AssetEnvironment τ) :
    Environment (DeployedAssetAttempt τ) (AttemptError τ) τ where
  operationName := "verify deployed asset ".toList ++ check.path
  numberToText := platform.numberToText
  toErrorMessage error := error.toErrorMessage.mapError (.value ∘ .other)
  clock reading := (environment.retryNow reading).mapError (.value ∘ .other)
  operation attemptNumber :=
    ⟨(checkAssetOnce platform check environment attemptNumber).mapError .value, .atOnce⟩
  onFailedAttempt _ := ⟨.ok (), .atOnce⟩
  sleep attemptNumber := ⟨(environment.sleep attemptNumber).mapError AttemptError.ofThrown, .atOnce⟩

/-- The attempts that a verification records, among so many that it has made. -/
def recordedAttempts (check : DeployedAssetCheck) (environment : AssetEnvironment τ)
    (attempts : ℕ) : List (DeployedAssetAttempt τ) :=
  (List.range attempts).filterMap fun index ↦
    match checkAssetOnce platform check environment (index + 1) with
    | .ok attempt => some attempt
    | .error (.assetAttemptFailure failure) => some failure.attempt
    | .error (.other _) => none

/-- What `runWithRetry` throws: a value of an attempt, a sleep or the clock, an error of its own, or
one about its policy. -/
inductive Caught (τ : Type*) where
  | thrown (error : Thrown (AttemptError τ))
  | retryError (error : RetryError (AttemptError τ) τ)
  | error (message : String)

omit [Ring τ] [LinearOrder τ] in
/-- `getErrorMessage` of what was caught. -/
def getErrorMessage : Caught τ → Except ThrownValue Text
  | .thrown (.value error) => error.toErrorMessage
  | .thrown (.pollAttemptTimeoutError _) =>
      .ok "Poll attempt exceeded the remaining timeout budget".toList
  | .retryError error => .ok error.message
  | .error message => .ok message.toList

omit [Ring τ] [LinearOrder τ] in
/-- The failed attempt behind a caught error: the error itself, or the cause of a retry error. -/
def getAssetAttemptFailure : Caught τ → Option (AssetAttemptFailure τ)
  | .thrown (.value (.assetAttemptFailure failure)) => some failure
  | .retryError error =>
      match error.cause with
      | some (.thrown (.value (.assetAttemptFailure failure))) => some failure
      | _ => none
  | _ => none

/-- What `verifyDeployedAsset` makes of the outcome of its retries: a result from the last attempt,
or the `catch` block's result from the error. The block throws what the message of the error
does. -/
def verifiedAsset (check : DeployedAssetCheck) (attempts : List (DeployedAssetAttempt τ))
    (outcome : Except (Caught τ) (DeployedAssetAttempt τ)) :
    Except ThrownValue (DeployedAssetResult τ) :=
  let reportCheck := toDeployedAssetReportCheck check
  match outcome with
  | .ok finalAttempt =>
      .ok ⟨attempts, reportCheck, finalAttempt.contentType, none, true, finalAttempt.status⟩
  | .error error =>
      let finalAttempt := attempts.getLast?
      let errorMessage : Except ThrownValue Text :=
        match getAssetAttemptFailure error with
        | some failure => .ok failure.message
        | none => getErrorMessage error
      errorMessage.map fun message ↦
        ⟨attempts, reportCheck, finalAttempt.bind DeployedAssetAttempt.contentType, some message,
          false, finalAttempt.bind DeployedAssetAttempt.status⟩

/-- How `runWithRetry` settles at the end of a run. -/
def outcomeOf : Ending (DeployedAssetAttempt τ) (AttemptError τ) τ →
    Except (Caught τ) (DeployedAssetAttempt τ)
  | .success value _ => .ok value
  | .failed error => .error (.retryError error)
  | .threw error => .error (.thrown error)
  | .invalidDelay message => .error (.error message)

/-- What `verifyDeployedAsset` makes of a run of its retry loop: nothing while the run goes on. -/
def settledAsset (check : DeployedAssetCheck) (environment : AssetEnvironment τ) :
    Except String (Progress (DeployedAssetAttempt τ) (AttemptError τ) τ) →
      Option (Except ThrownValue (DeployedAssetResult τ))
  | .error message => some (verifiedAsset check [] (.error (.error message)))
  | .ok (.continues _) => none
  | .ok (.ended s ending) =>
      some (verifiedAsset check
        (recordedAttempts platform check environment s.attemptNumber) (outcomeOf ending))

variable [IsStrictOrderedRing τ] [FloorRing τ] (retry : Option (RetryOptions τ))

/-- `verifyDeployedAsset` after a number of iterations of its retry loop. -/
def verifyDeployedAsset (check : DeployedAssetCheck) (environment : AssetEnvironment τ)
    (iterations : ℕ) : Option (Except ThrownValue (DeployedAssetResult τ)) :=
  settledAsset platform check environment
    (runWithRetry (retryEnvironment platform check environment) (retryMode retry) iterations)

/-! ## The workers -/

/-- A verification that a worker awaits. -/
structure Verification (τ : Type*) where
  check : DeployedAssetCheck
  environment : AssetEnvironment τ
  iterations : ℕ

/-- One iteration of the retry loop of a verification. -/
def Verification.turn (verification : Verification τ) :
    WorkerPool.Turn (Verification τ) ThrownValue (DeployedAssetResult τ) :=
  match verifyDeployedAsset platform retry verification.check verification.environment
      verification.iterations with
  | none => .goesOn { verification with iterations := verification.iterations + 1 }
  | some outcome => .settles outcome

/-- The verifications of a list of checks. -/
def verifications (checks : List DeployedAssetCheck) :
    WorkerPool.Tasks checks.length (AssetEnvironment τ) (Verification τ) ThrownValue
      (DeployedAssetResult τ) where
  start index environment := ⟨checks.get index, environment, 0⟩
  turn := Verification.turn platform retry

end Platform

/-- `VerifyDeployedAssetsParams`. A limit that is no integer is `some none`. -/
structure VerifyDeployedAssetsParams (τ : Type*) where
  checks : List DeployedAssetCheck
  concurrencyLimit : Option (Option ℤ)
  retry : Option (RetryOptions τ)

/-- A positive limit. -/
abbrev ConcurrencyLimit := { limit : ℕ // 1 ≤ limit }

/-- A limit that is not below one. -/
theorem one_le_toNat {limit : ℤ} (h : ¬limit < 1) : 1 ≤ limit.toNat := by omega

/-- The limit, which is five where none is given, or the message of the error. -/
def validateConcurrencyLimit (concurrencyLimit : Option (Option ℤ)) :
    Except String ConcurrencyLimit :=
  match concurrencyLimit.getD (some 5) with
  | none => .error "concurrencyLimit must be a positive integer"
  | some limit =>
      if hlimit : limit < 1 then .error "concurrencyLimit must be a positive integer"
      else .ok ⟨limit.toNat, one_le_toNat hlimit⟩

/-- The workers, as many as the limit allows and the checks need, with what they share. -/
abbrev AssetPool (τ : Type*) (checks : List DeployedAssetCheck) (limit : ConcurrencyLimit) :=
  WorkerPool.Pool checks.length (Fin (min limit.val checks.length)) (AssetEnvironment τ)
    (Verification τ) ThrownValue (DeployedAssetResult τ)

/-- The beginning of `verifyDeployedAssets`: the workers of a valid limit at the head of their
loops, or the message of the error it rejects with. -/
def startWorkers {τ : Type*} (params : VerifyDeployedAssetsParams τ) :
    Except String (Σ limit, AssetPool τ params.checks limit) :=
  match validateConcurrencyLimit params.concurrencyLimit with
  | .error message => .error message
  | .ok limit => .ok ⟨limit, WorkerPool.Pool.initial⟩

/-- `summary` of a report. -/
structure DeployedAssetSummary where
  failureCount : ℕ
  passedCount : ℕ
  totalCount : ℕ
  deriving DecidableEq, Repr

/-- `wait` of a report. -/
structure DeployedAssetWait (τ : Type*) where
  attempts : ℕ
  isStableWindowSatisfied : Bool
  stableWindowElapsedMs : τ
  deriving DecidableEq, Repr

/-- The report on all checks of one verification. -/
structure DeployedAssetVerificationReport (τ : Type*) where
  results : List (DeployedAssetResult τ)
  summary : DeployedAssetSummary
  wait : Option (DeployedAssetWait τ)
  deriving DecidableEq, Repr

/-- What `verifyDeployedAssets` returns when all workers have returned. -/
def verificationReport {τ : Type*} (results : List (Option (DeployedAssetResult τ))) :
    DeployedAssetVerificationReport τ :=
  let completedResults := results.reduceOption
  let failureCount := (completedResults.filter fun result ↦ !result.isSuccess).length
  ⟨completedResults,
    ⟨failureCount, completedResults.length - failureCount, completedResults.length⟩, none⟩

end CoreUtils.Toolkit.DeployedAssets
