import CoreUtils.Toolkit.DeployedAssets

/-!
# Polling Mailpit for a value

`fetchMailpitValue` of the Playwright toolkit searches for messages until one of them has a value
that is not excluded. The extracted values are cached by message over all attempts. What an attempt
meets is its environment's: the search results, the answers for single messages and the readings of
the clock. The platform gives the reading and writing of dates and the text of numbers.
-/

namespace CoreUtils.Toolkit.Mailpit

open Retry

/-- A text. -/
abbrev Text := List Char

/-! ## Messages and errors -/

/-- An address of a mail and the name before it. -/
structure MailpitAddress where
  address : Text
  name : Text
  deriving DecidableEq, Repr

/-- The fields that messages and their summaries share. -/
structure MailpitMessageHeaders where
  id : Text
  fromAddress : MailpitAddress
  toAddresses : List MailpitAddress
  subject : Text
  deriving DecidableEq, Repr

/-- `MailpitMessageSummary`. A `Created` that is `null` is missing. -/
structure MailpitMessageSummary extends MailpitMessageHeaders where
  created : Option Text
  deriving DecidableEq, Repr

/-- A message with its texts. -/
structure MailpitMessage extends MailpitMessageHeaders where
  date : Text
  text : Text
  html : Text
  deriving DecidableEq, Repr

/-- The error of a request to Mailpit, without a status if there was no response. -/
structure MailpitRequestError where
  message : Text
  status : Option ℕ
  isTransient : Bool
  deriving DecidableEq, Repr

/-- What the client and the extraction throw: an error of the client's exported class, or something
else. -/
inductive ClientError (E : Type*) where
  | mailpitRequest (error : MailpitRequestError)
  | other (error : Thrown E)
  deriving DecidableEq, Repr

/-- What the operation of the polling throws: a `MailpitValueNotFoundError`, whose class is private
to the module, or what it has caught. -/
inductive PollError (E : Type*) where
  | mailpitValueNotFound (message : Text)
  | caught (error : ClientError E)
  deriving DecidableEq, Repr

/-- Another poll may not meet the error: it says so itself, or its status is 404 or one to retry. -/
def isTransientMailpitError {E : Type*} : ClientError E → Bool
  | .mailpitRequest error =>
      error.isTransient || error.status = some 404 ||
        error.status.elim false DeployedAssets.isRetryableHttpStatus
  | .other _ => false

/-- What is used of the platform. `parseDate` is `Date.parse`, and `toISOString` prints the date
with that time. -/
structure Platform (τ : Type*) where
  parseDate : Text → Number τ
  toISOString : τ → Text
  numberToText : τ → Text

/-- `FetchMailpitValueParams` without the client and the clock. `extractValue` may throw, also an
error of the client's class. The time of `sentAfter` is missing when that date is invalid. -/
structure FetchMailpitValueParams (E τ : Type*) where
  email : Text
  extractValue : MailpitMessage → Except (ClientError E) (Option Text)
  valueLabel : Text
  timeoutMs : Option (Number τ)
  pollIntervalMs : Option (Number τ)
  sentAfter : Option (Number τ)
  excludedValues : Option (List Text)

/-! ## The snapshot of the polling -/

/-- What the polls have counted up to now. -/
structure MailpitPollingSnapshot (τ : Type*) where
  searchAttempts : ℕ
  rawResultCount : ℕ
  postSentAfterCandidateCount : ℕ
  invalidOrMissingTimestampCount : ℕ
  fetchedMessageCount : ℕ
  extractionMissCount : ℕ
  excludedValueCount : ℕ
  transientRequestErrorCount : ℕ
  transientRequestErrorStatuses : OrderedSet Text
  newestCandidateTimestampMs : Option τ

/-- The counters before the first poll. -/
def createMailpitPollingSnapshot {τ : Type*} : MailpitPollingSnapshot τ :=
  ⟨0, 0, 0, 0, 0, 0, 0, 0, .empty, none⟩

/-- Counts a transient error, and keeps its status or that there was none. -/
def recordTransientRequestError {E τ : Type*} (error : ClientError E)
    (pollingSnapshot : MailpitPollingSnapshot τ) : MailpitPollingSnapshot τ :=
  { pollingSnapshot with
    transientRequestErrorCount := pollingSnapshot.transientRequestErrorCount + 1
    transientRequestErrorStatuses :=
      match error with
      | .mailpitRequest error =>
          OrderedSet.add pollingSnapshot.transientRequestErrorStatuses
            (error.status.elim "unavailable".toList fun status ↦ (toString status).toList)
      | .other _ => pollingSnapshot.transientRequestErrorStatuses }

/-- The counters as they are reported. -/
structure MailpitPollingDiagnostics where
  searchAttempts : ℕ
  rawResultCount : ℕ
  postSentAfterCandidateCount : ℕ
  invalidOrMissingTimestampCount : ℕ
  fetchedMessageCount : ℕ
  extractionMissCount : ℕ
  excludedValueCount : ℕ
  transientRequestErrorCount : ℕ
  transientRequestErrorStatuses : List Text
  newestCandidateTimestamp : Option Text
  deriving DecidableEq, Repr

/-- The value that was found, the message with it, and how it was found. -/
structure FetchMailpitValueResult where
  value : Text
  messageId : Text
  messageCreatedAt : Option Text
  pollingDiagnostics : MailpitPollingDiagnostics
  deriving DecidableEq, Repr

section Polling

variable {E τ : Type*} [Ring τ] [LinearOrder τ] (platform : Platform τ)
  (params : FetchMailpitValueParams E τ)

/-- When a message was created, none if this is missing or cannot be parsed. -/
def getMailpitMessageTimestampMs (message : MailpitMessageSummary) : Option τ :=
  message.created.bind platform.parseDate

/-- The result for a message with the value, with the counters up to there. -/
def createFetchMailpitValueResult (message : MailpitMessageSummary)
    (pollingSnapshot : MailpitPollingSnapshot τ) (value : Text) : FetchMailpitValueResult where
  value := value
  messageId := message.id
  messageCreatedAt := (getMailpitMessageTimestampMs platform message).map platform.toISOString
  pollingDiagnostics := {
    searchAttempts := pollingSnapshot.searchAttempts
    rawResultCount := pollingSnapshot.rawResultCount
    postSentAfterCandidateCount := pollingSnapshot.postSentAfterCandidateCount
    invalidOrMissingTimestampCount := pollingSnapshot.invalidOrMissingTimestampCount
    fetchedMessageCount := pollingSnapshot.fetchedMessageCount
    extractionMissCount := pollingSnapshot.extractionMissCount
    excludedValueCount := pollingSnapshot.excludedValueCount
    transientRequestErrorCount := pollingSnapshot.transientRequestErrorCount
    transientRequestErrorStatuses := OrderedMap.keys pollingSnapshot.transientRequestErrorStatuses
    newestCandidateTimestamp :=
      pollingSnapshot.newestCandidateTimestampMs.map platform.toISOString }

/-- A count with its name. -/
def countText (name : String) (count : ℕ) : Text := (name ++ "=" ++ toString count).toList

/-- The counters as a text, for the message of an error. -/
def formatMailpitPollingSnapshot (nowMs : τ) (pollingSnapshot : MailpitPollingSnapshot τ) : Text :=
  "Polling snapshot: ".toList ++ ", ".toList.intercalate [
    countText "searchAttempts" pollingSnapshot.searchAttempts,
    countText "rawResultCount" pollingSnapshot.rawResultCount,
    countText "postSentAfterCandidateCount" pollingSnapshot.postSentAfterCandidateCount,
    countText "invalidOrMissingTimestampCount" pollingSnapshot.invalidOrMissingTimestampCount,
    countText "fetchedMessageCount" pollingSnapshot.fetchedMessageCount,
    countText "extractionMissCount" pollingSnapshot.extractionMissCount,
    countText "excludedValueCount" pollingSnapshot.excludedValueCount,
    countText "transientRequestErrorCount" pollingSnapshot.transientRequestErrorCount,
    "transientRequestErrorStatuses=[".toList ++
      [','].intercalate (OrderedMap.keys pollingSnapshot.transientRequestErrorStatuses) ++
      "]".toList,
    "newestCandidateAgeMs=".toList ++
      pollingSnapshot.newestCandidateTimestampMs.elim "unavailable".toList fun timestampMs ↦
        platform.numberToText (nowMs - timestampMs)]

/-- The message of `createMailpitValueNotFoundError`. -/
def createMailpitValueNotFoundError (nowMs : τ) (pollingSnapshot : MailpitPollingSnapshot τ) :
    Text :=
  "No matching Mailpit ".toList ++ params.valueLabel ++ " is available yet. ".toList ++
    formatMailpitPollingSnapshot platform nowMs pollingSnapshot

/-! ## Candidates -/

/-- How much earlier than asked for a message may have been sent. -/
def SENT_AFTER_TOLERANCE_MS : τ := 30000

/-- How many messages a poll looks into. -/
def MAX_MESSAGES_TO_FETCH : ℕ := 3

/-- `isMessageSentAfter`. Nothing is at or after the time of an invalid date. -/
def isMessageSentAfter (message : MailpitMessageSummary) : Bool :=
  match params.sentAfter with
  | none => true
  | some sentAfter =>
      match getMailpitMessageTimestampMs platform message with
      | none => true
      | some timestampMs =>
          sentAfter.elim false fun time ↦ decide (time - SENT_AFTER_TOLERANCE_MS ≤ timestampMs)

/-- Compares messages by their times, the newer first and those without a time last. -/
def compareMailpitMessagesNewestFirst (first second : MailpitMessageSummary) : τ :=
  match getMailpitMessageTimestampMs platform first,
    getMailpitMessageTimestampMs platform second with
  | none, none => 0
  | none, some _ => 1
  | some _, none => -1
  | some firstTimestamp, some secondTimestamp => secondTimestamp - firstTimestamp

/-- The search results that `sentAfter` allows. -/
def postSentAfterCandidates (messages : List MailpitMessageSummary) :
    List MailpitMessageSummary :=
  messages.filter (isMessageSentAfter platform params)

/-- The candidates of an attempt: the newest three, in a stable order. -/
def newestCandidates (messages : List MailpitMessageSummary) : List MailpitMessageSummary :=
  ((postSentAfterCandidates platform params messages).insertionSort fun first second ↦
    compareMailpitMessagesNewestFirst platform first second ≤ 0).take MAX_MESSAGES_TO_FETCH

/-- Keeps the time of the newest message among the candidates up to now. -/
def recordNewestCandidateTimestamp (candidates : List MailpitMessageSummary)
    (pollingSnapshot : MailpitPollingSnapshot τ) : MailpitPollingSnapshot τ :=
  { pollingSnapshot with
    newestCandidateTimestampMs :=
      (candidates.filterMap (getMailpitMessageTimestampMs platform)).foldl
        (fun newest timestampMs ↦ some (newest.elim timestampMs (max timestampMs)))
        pollingSnapshot.newestCandidateTimestampMs }

/-- The snapshot after a search has come back. -/
def recordSearch (messages : List MailpitMessageSummary)
    (pollingSnapshot : MailpitPollingSnapshot τ) : MailpitPollingSnapshot τ :=
  let candidates := postSentAfterCandidates platform params messages
  recordNewestCandidateTimestamp platform candidates
    { pollingSnapshot with
      rawResultCount := pollingSnapshot.rawResultCount + messages.length
      invalidOrMissingTimestampCount := pollingSnapshot.invalidOrMissingTimestampCount +
        messages.countP fun message ↦ (getMailpitMessageTimestampMs platform message).isNone
      postSentAfterCandidateCount :=
        pollingSnapshot.postSentAfterCandidateCount + candidates.length }

/-! ## An attempt -/

/-- A request for the message of a candidate: in which attempt and for which candidate it is made,
for which identifier, and what came of it. -/
structure MessageRequest (E : Type*) where
  attempt : ℕ
  index : ℕ
  messageId : Text
  outcome : Except (ClientError E) MailpitMessage

/-- What the attempts share: the cache and the snapshot, and for the record the requests. -/
structure PollState (E τ : Type*) where
  valuesByMessageId : OrderedMap Text (Option Text)
  pollingSnapshot : MailpitPollingSnapshot τ
  requests : List (MessageRequest E)

/-- The message that a request has brought. -/
def MessageRequest.fetched {E : Type*} (request : MessageRequest E) :
    Option (Text × MailpitMessage) :=
  match request.outcome with
  | .ok fullMessage => some (request.messageId, fullMessage)
  | .error _ => none

/-- The messages that have been fetched, with the identifiers they were requested by. -/
def PollState.fetched {E τ : Type*} (s : PollState E τ) : List (Text × MailpitMessage) :=
  s.requests.filterMap MessageRequest.fetched

/-- What the polling meets: by attempt, what a search brings, what the request for the message of a
candidate brings, when the attempt settles, and the reading of the clock when it has found nothing.
What an attempt has recorded and the clock reads when its budget has run out is given as well, and
so are the readings and sleeps of the retry loop, and the texts of errors. -/
structure MailpitEnvironment (E τ : Type*) [LE τ] where
  searchMessages : ℕ → Text → Except (ClientError E) (List MailpitMessageSummary)
  getMessage : ℕ → ℕ → Text → Except (ClientError E) MailpitMessage
  settling : ℕ → Settling τ
  notFoundNowMs : ℕ → τ
  interruptedSnapshot : ℕ → MailpitPollingSnapshot τ
  interruptedNowMs : ℕ → τ
  retryNow : ℕ → Except (Thrown E) τ
  sleep : ℕ → Pending Unit (PollError E) τ
  toErrorMessage : E → Except (Thrown E) Text

/-- The value is one that is not looked for, `excludedValues.has`. -/
def FetchMailpitValueParams.excludes (params : FetchMailpitValueParams E τ) (value : Text) : Bool :=
  (params.excludedValues.getD []).contains value

/-- What follows from an extracted value: it is returned, or the loop goes on. -/
def usableValue (value : Option Text) : Option Text :=
  value.filter fun value ↦ !params.excludes value

/-- The snapshot after a value has been extracted. -/
def recordExtraction (value : Option Text) (pollingSnapshot : MailpitPollingSnapshot τ) :
    MailpitPollingSnapshot τ :=
  match value with
  | none =>
      { pollingSnapshot with extractionMissCount := pollingSnapshot.extractionMissCount + 1 }
  | some value =>
      if params.excludes value then
        { pollingSnapshot with excludedValueCount := pollingSnapshot.excludedValueCount + 1 }
      else pollingSnapshot

variable (environment : MailpitEnvironment E τ)

/-- The body of the loop: the value that ends it, if there is one, or what is thrown. -/
def checkCandidate (attempt index : ℕ) (message : MailpitMessageSummary) (s : PollState E τ) :
    Except (PollError E) (Option Text) × PollState E τ :=
  match s.valuesByMessageId.get message.id with
  | some cachedValue => (.ok (usableValue params cachedValue), s)
  | none =>
      let outcome := environment.getMessage attempt index message.id
      let requested : PollState E τ :=
        { s with requests := s.requests ++ [⟨attempt, index, message.id, outcome⟩] }
      match outcome with
      | .error error =>
          if isTransientMailpitError error then
            (.ok none, { requested with
              pollingSnapshot := recordTransientRequestError error s.pollingSnapshot })
          else (.error (.caught error), requested)
      | .ok fullMessage =>
          let pollingSnapshot : MailpitPollingSnapshot τ := { s.pollingSnapshot with
            fetchedMessageCount := s.pollingSnapshot.fetchedMessageCount + 1 }
          match params.extractValue fullMessage with
          | .error error =>
              if isTransientMailpitError error then
                (.ok none, { requested with
                  pollingSnapshot := recordTransientRequestError error pollingSnapshot })
              else (.error (.caught error), { requested with pollingSnapshot })
          | .ok value =>
              (.ok (usableValue params value), { requested with
                valuesByMessageId := s.valuesByMessageId.set message.id value
                pollingSnapshot := recordExtraction params value pollingSnapshot })

/-- The loop over the candidates from an index on. -/
def checkCandidates (attempt index : ℕ) :
    List MailpitMessageSummary → PollState E τ →
      Except (PollError E) (Option (MailpitMessageSummary × Text)) × PollState E τ
  | [], s => (.ok none, s)
  | message :: rest, s =>
      match checkCandidate params environment attempt index message s with
      | (.ok none, next) => checkCandidates attempt (index + 1) rest next
      | (.ok (some value), next) => (.ok (some (message, value)), next)
      | (.error error, next) => (.error error, next)

/-- The query of every search. -/
def mailpitQuery : Text := "to:".toList ++ params.email

/-- What is thrown when an attempt has found nothing. -/
def notFound (attempt : ℕ) (s : PollState E τ) : PollError E :=
  .mailpitValueNotFound
    (createMailpitValueNotFoundError platform params (environment.notFoundNowMs attempt)
      s.pollingSnapshot)

/-- The operation: how it settles, and what it leaves. -/
def pollMailpit (attempt : ℕ) (s : PollState E τ) :
    Except (PollError E) FetchMailpitValueResult × PollState E τ :=
  let started : PollState E τ := { s with
    pollingSnapshot := { s.pollingSnapshot with
      searchAttempts := s.pollingSnapshot.searchAttempts + 1 } }
  match environment.searchMessages attempt (mailpitQuery params) with
  | .error error =>
      if isTransientMailpitError error then
        let recorded : PollState E τ := { started with
          pollingSnapshot := recordTransientRequestError error started.pollingSnapshot }
        (.error (notFound platform params environment attempt recorded), recorded)
      else (.error (.caught error), started)
  | .ok messages =>
      let searched : PollState E τ := { started with
        pollingSnapshot := recordSearch platform params messages started.pollingSnapshot }
      match checkCandidates params environment attempt 0
        (newestCandidates platform params messages) searched with
      | (.error error, checked) => (.error error, checked)
      | (.ok none, checked) => (.error (notFound platform params environment attempt checked),
          checked)
      | (.ok (some (message, value)), checked) =>
          (.ok (createFetchMailpitValueResult platform message checked.pollingSnapshot value),
            checked)

/-! ## The polling -/

/-- What the attempts share before the first of them. -/
def PollState.initial : PollState E τ := ⟨.empty, createMailpitPollingSnapshot, []⟩

/-- What the attempts share after a number of them. -/
def stateAfter : ℕ → PollState E τ
  | 0 => PollState.initial
  | attempts + 1 =>
      (pollMailpit platform params environment (attempts + 1) (stateAfter attempts)).2

/-- What is thrown by something else, past the operation. -/
def PollError.ofThrown : Thrown E → Thrown (PollError E)
  | .pollAttemptTimeoutError run => .pollAttemptTimeoutError run
  | .value error => .value (.caught (.other (.value error)))

/-- An error as what the operation throws. -/
def PollError.thrown : PollError E → Thrown (PollError E)
  | .caught (.other error) => PollError.ofThrown error
  | error => .value error

/-- `toErrorMessage` of what the operation throws. -/
def MailpitEnvironment.errorMessage (environment : MailpitEnvironment E τ) :
    PollError E → Except (Thrown E) Text
  | .mailpitValueNotFound message => .ok message
  | .caught (.mailpitRequest error) => .ok error.message
  | .caught (.other (.value error)) => environment.toErrorMessage error
  | .caught (.other (.pollAttemptTimeoutError _)) =>
      .ok "Poll attempt exceeded the remaining timeout budget".toList

/-- What the retry loop of the polling meets. There is no hook. -/
def pollEnvironment : Environment FetchMailpitValueResult (PollError E) τ where
  operationName := "wait for Mailpit ".toList ++ params.valueLabel
  numberToText := platform.numberToText
  toErrorMessage error := (environment.errorMessage error).mapError PollError.ofThrown
  clock reading := (environment.retryNow reading).mapError PollError.ofThrown
  operation attempt :=
    ⟨(pollMailpit platform params environment attempt
      (stateAfter platform params environment (attempt - 1))).1.mapError PollError.thrown,
      environment.settling attempt⟩
  onFailedAttempt _ := ⟨.ok (), .atOnce⟩
  sleep := environment.sleep

/-- Whether the polling goes on after an error. -/
def isTransientPollError : PollError E → Bool
  | .mailpitValueNotFound _ => true
  | .caught error => isTransientMailpitError error

/-- `isTransient` of the policy. -/
def isTransientAttempt (context : RetryFailureContext (PollError E) τ) : Bool :=
  match context.error with
  | .thrown (.value error) => isTransientPollError error
  | _ => false

/-- `DEFAULT_TIMEOUT_MS`: a minute. -/
def DEFAULT_TIMEOUT_MS : ℕ := 60000

/-- `DEFAULT_POLL_INTERVAL_MS`: a second. -/
def DEFAULT_POLL_INTERVAL_MS : ℕ := 1000

/-- The policy of the polling. -/
def pollMode : RetryMode (PollError E) τ :=
  .poll {
    timeoutMs := params.timeoutMs.getD (some DEFAULT_TIMEOUT_MS)
    intervalsMs := some [params.pollIntervalMs.getD (some DEFAULT_POLL_INTERVAL_MS)]
    isTransient := some isTransientAttempt }

/-- How `fetchMailpitValue` goes: it polls, its policy is invalid, it resolves, or it rejects. It
rejects as the retry loop does, or with an error that is the same up to its cause: that is a
`MailpitValueNotFoundError` with the message given here, whose cause is the one of the loop. -/
inductive FetchProgress (E τ : Type*) where
  | polling
  | invalidMode (message : String)
  | resolved (result : FetchMailpitValueResult)
  | rejected (ending : Ending FetchMailpitValueResult (PollError E) τ)
  | rejectedNotFound (error : RetryError (PollError E) τ) (message : Text)

/-- Whether the cause of an error is a `MailpitValueNotFoundError`. -/
def causedByNotFound (error : RetryError (PollError E) τ) : Bool :=
  match error.cause with
  | some (.thrown (.value (.mailpitValueNotFound _))) => true
  | _ => false

/-- How `fetchMailpitValue` ends with the retry loop. -/
def settleFetch : Ending FetchMailpitValueResult (PollError E) τ → FetchProgress E τ
  | .success value _ => .resolved value
  | .failed error =>
      if error.reason = .timeout ∧ causedByNotFound error = false then
        .rejectedNotFound error
          (createMailpitValueNotFoundError platform params
            (environment.interruptedNowMs error.attempts)
            (environment.interruptedSnapshot error.attempts))
      else .rejected (.failed error)
  | ending => .rejected ending

variable [IsStrictOrderedRing τ] [FloorRing τ]

/-- The retry loop of the polling after a number of iterations. -/
def pollRun (iterations : ℕ) :
    Except String (Progress FetchMailpitValueResult (PollError E) τ) :=
  runWithRetry (pollEnvironment platform params environment) (pollMode params) iterations

/-- `fetchMailpitValue` after a number of iterations of its retry loop. -/
def fetchMailpitValue (iterations : ℕ) : FetchProgress E τ :=
  match pollRun platform params environment iterations with
  | .error message => .invalidMode message
  | .ok (.continues _) => .polling
  | .ok (.ended _ ending) => settleFetch platform params environment ending

end Polling

end CoreUtils.Toolkit.Mailpit
