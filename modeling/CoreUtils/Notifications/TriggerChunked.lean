import CoreUtils.Library.Transition
import CoreUtils.Notifications.TriggerBody
import CoreUtils.UtilTs.Chunk

/-!
# Triggering a notification in chunks

`NotificationClient.triggerChunked` as a state machine. Any number of attempts run the same request:
`begin` validates it and splits the recipients, and each `call` sends one chunk. The provider
executes the first accepted call of an idempotency key and replays its result afterwards; a call may
fail before the provider recorded it, or after. Logging and tracing are left out.
-/

namespace CoreUtils.Notifications

open Dates UtilTs

/-- The error codes of the requests modelled here. -/
inductive ErrorCode where
  | clientError
  | expired
  | invalidExpiresAt
  | rateLimited
  | recipientCountBelowMinimum
  | unknown
  deriving DecidableEq, Repr

/-- An error as a request returns it. -/
structure NotificationError where
  code : ErrorCode
  message : String
  deriving DecidableEq, Repr

/-- The status of a rate limited response. -/
def RATE_LIMITED_STATUS : ℤ := 429

/-- The smallest status of a client error. -/
def MINIMUM_CLIENT_ERROR_STATUS : ℤ := 400

/-- The largest status of a client error. -/
def MAXIMUM_CLIENT_ERROR_STATUS : ℤ := 499

/-- The error code of a status. -/
def errorCodeOf : Option ℤ → ErrorCode
  | none => .unknown
  | some status =>
      if status = RATE_LIMITED_STATUS then .rateLimited
      else if MINIMUM_CLIENT_ERROR_STATUS ≤ status ∧ status ≤ MAXIMUM_CLIENT_ERROR_STATUS then
        .clientError
      else .unknown

/-- The error for a caught value. -/
def toNotificationError (thrown : Thrown) : NotificationError :=
  ⟨errorCodeOf thrown.status, thrown.message⟩

/-- A chunk of the recipients with its number. -/
structure RecipientChunk (R : Type*) where
  number : ℕ
  recipients : List R

/-- The largest number of recipients of one trigger call. -/
def MAXIMUM_RECIPIENTS_COUNT : ℕ := 1000

/-- Split the recipients into chunks that are numbered from one. -/
def chunkRecipients {R : Type*} (recipients : List R) : Except String (List (RecipientChunk R)) :=
  if recipients.length = 0 then .ok [⟨1, []⟩]
  else (chunk recipients MAXIMUM_RECIPIENTS_COUNT).map fun groups ↦
    groups.mapIdx fun index recipientsChunk ↦ ⟨index + 1, recipientsChunk⟩

/-- A request to trigger a notification in chunks. -/
structure TriggerChunkedRequest (V : Type*) where
  body : TriggerBody V
  dryRun : Option Bool
  expiresAt : Date
  idempotencyKey : String
  workflowKey : String

/-- A call of the provider's `workflows.trigger`. -/
structure TriggerCall (V : Type*) where
  workflowKey : String
  body : WorkflowTriggerParams V
  idempotencyKey : String

/-- The provider's answer to one chunk. -/
structure ChunkResponse where
  chunkNumber : ℕ
  id : String
  deriving DecidableEq, Repr

/-- Check the number of recipients and the expiry date. -/
def validateTriggerChunkedRequest {R : Type*} (recipients : List R) (expiresAt : Date) (now : ℤ) :
    Except NotificationError Date :=
  if recipients.length ≤ 0 then
    let count := recipients.length
    .error ⟨.recipientCountBelowMinimum, s!"Got {count} recipients; must be > 0."⟩
  else
    match expiresAt with
    | none => .error ⟨.invalidExpiresAt, "Invalid expiresAt: Invalid Date"⟩
    | some expiry =>
        if now > expiry then
          let current := isoString now
          let limit := isoString expiry
          .error ⟨.expired, s!"Got {current}; notification expires at {limit}."⟩
        else .ok expiresAt

/-- The idempotency key of a chunk. -/
def chunkIdempotencyKey (idempotencyKey : String) (number : ℕ) : String :=
  idempotencyKey ++ "-" ++ toString number

variable {V A : Type*}

/-- The provider's call for a chunk, unless the conversion of a recipient throws. -/
def chunkCall (formatE164 : String → Option String) (request : TriggerChunkedRequest V)
    (recipientChunk : RecipientChunk (RecipientRequest V)) : Except Thrown (TriggerCall V) := do
  let triggerBody ←
    toTriggerBody formatE164 { request.body with recipients := recipientChunk.recipients }
  return {
    workflowKey := request.workflowKey
    body := triggerBody
    idempotencyKey := chunkIdempotencyKey request.idempotencyKey recipientChunk.number }

/-- The error of a request one of whose chunks failed. -/
def chunkError (number total : ℕ) (thrown : Thrown) : NotificationError :=
  let error := toNotificationError thrown
  let message := error.message
  ⟨error.code, s!"Chunk {number}/{total} failed: {message}"⟩

/-! ## The provider -/

/-- A workflow run that the provider has recorded. -/
structure WorkflowRun (V : Type*) where
  id : String
  call : TriggerCall V

/-- The provider's runs by idempotency key. -/
abbrev Runs (V : Type*) := OrderedMap String (WorkflowRun V)

/-- Accept a call: the first one of its key is executed as a run with the given id. -/
def Runs.accept (runs : Runs V) (call : TriggerCall V) (id : String) : Runs V :=
  match runs.get call.idempotencyKey with
  | some _ => runs
  | none => runs.set call.idempotencyKey ⟨id, call⟩

/-- The id of the run of a key, which is what the provider answers. -/
def Runs.workflow_run_id (runs : Runs V) (idempotencyKey : String) : String :=
  ((runs.get idempotencyKey).map WorkflowRun.id).getD ""

/-- How a provider call ends: it fails before the provider recorded it, or after, or its answer
arrives. The id is the one of the run if this call is the first of its key. -/
inductive CallOutcome where
  | failsBefore (thrown : Thrown)
  | failsAfter (id : String) (thrown : Thrown)
  | responds (id : String)

/-! ## The attempts -/

/-- Where an attempt stands. -/
inductive Attempt (V : Type*) where
  | idle
  | sending (total : ℕ) (remaining : List (RecipientChunk (RecipientRequest V)))
      (responses : List ChunkResponse)
  | returned (result : Except NotificationError (List ChunkResponse))
  | threw (message : String)

/-- The head of the loop over the chunks. -/
def Attempt.loop (total : ℕ) (remaining : List (RecipientChunk (RecipientRequest V)))
    (responses : List ChunkResponse) : Attempt V :=
  match remaining with
  | [] => .returned (.ok responses)
  | _ :: _ => .sending total remaining responses

/-- The attempt before its first provider call. -/
def Attempt.begin (request : TriggerChunkedRequest V) (now : ℤ) : Attempt V :=
  match validateTriggerChunkedRequest request.body.recipients request.expiresAt now with
  | .error error => .returned (.error error)
  | .ok _ =>
      if request.dryRun = some true then .returned (.ok [⟨1, "dry-run"⟩])
      else
        match chunkRecipients request.body.recipients with
        | .error message => .threw message
        | .ok chunks => .loop chunks.length chunks []

/-- The attempts, the provider's runs, and every call the provider has received. -/
structure State (A V : Type*) where
  attempts : A → Attempt V
  recorded : Runs V
  received : List (TriggerCall V)

/-- Nothing has been attempted. -/
def State.initial : State A V := ⟨fun _ ↦ .idle, OrderedMap.empty, []⟩

/-- A step of an attempt. -/
inductive Action (A : Type*) where
  | begin (attempt : A) (now : ℤ)
  | call (attempt : A) (outcome : CallOutcome)

variable [DecidableEq A]

/-- Move an attempt. -/
def State.move (s : State A V) (attempt : A) (control : Attempt V) : State A V :=
  { s with attempts := Function.update s.attempts attempt control }

/-- Hand a call to the provider; whether it records it is left to the outcome. -/
def State.receive (s : State A V) (call : TriggerCall V) (recorded : Runs V) : State A V :=
  { s with recorded, received := s.received ++ [call] }

/-- One chunk of the loop, with the provider's outcome. -/
def State.callChunk (s : State A V) (attempt : A) (total : ℕ)
    (recipientChunk : RecipientChunk (RecipientRequest V))
    (remaining : List (RecipientChunk (RecipientRequest V))) (responses : List ChunkResponse)
    (call : TriggerCall V) : CallOutcome → State A V
  | .failsBefore thrown =>
      (s.receive call s.recorded).move attempt
        (.returned (.error (chunkError recipientChunk.number total thrown)))
  | .failsAfter id thrown =>
      (s.receive call (s.recorded.accept call id)).move attempt
        (.returned (.error (chunkError recipientChunk.number total thrown)))
  | .responds id =>
      let recorded := s.recorded.accept call id
      let response := ⟨recipientChunk.number, recorded.workflow_run_id call.idempotencyKey⟩
      (s.receive call recorded).move attempt (.loop total remaining (responses ++ [response]))

/-- One step of the system. -/
def step (formatE164 : String → Option String) (request : TriggerChunkedRequest V)
    (s : State A V) : Action A → Option (State A V)
  | .begin attempt now =>
      match s.attempts attempt with
      | .idle => some (s.move attempt (.begin request now))
      | _ => none
  | .call attempt outcome =>
      match s.attempts attempt with
      | .sending total (recipientChunk :: remaining) responses =>
          match chunkCall formatE164 request recipientChunk with
          | .error thrown =>
              some (s.move attempt
                (.returned (.error (chunkError recipientChunk.number total thrown))))
          | .ok call =>
              some (s.callChunk attempt total recipientChunk remaining responses call outcome)
      | _ => none

end CoreUtils.Notifications
