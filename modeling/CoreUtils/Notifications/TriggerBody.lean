import CoreUtils.Library.Dates
import CoreUtils.Library.OrderedMap

/-!
# The body of a trigger call

`toTriggerBody` turns a `TriggerBody` into the parameters of the provider's `workflows.trigger`.
Values that the client only passes on are of an arbitrary type. `formatE164` is the phone number
library: the number in E.164, or nothing when it cannot be parsed.
-/

namespace CoreUtils.Notifications

open Dates

/-- What the client reads of a caught value: its message, and its status if that is a number. -/
structure Thrown where
  status : Option ℤ
  message : String
  deriving DecidableEq, Repr

/-- An optional text counts as given when it is not empty. -/
def given (text : Option String) : Option String := text.filter (· ≠ "")

/-- Spread an optional field into an object. -/
def setField {ν : Type*} (key : String) (value : Option ν) (object : OrderedMap String ν) :
    OrderedMap String ν :=
  match value with
  | none => object
  | some value => object.set key value

/-- An inline user as the caller gives it. -/
structure InlineIdentifyUserRequest (V : Type*) where
  userId : String
  channelData : Option V
  createdAt : Option Date
  email : Option String
  name : Option String
  phoneNumber : Option String
  timeZone : Option String
  customProperties : Option (OrderedMap String V)
  triggerData : Option (OrderedMap String V)

/-- A recipient: the id of a user, or an inline user. -/
inductive RecipientRequest (V : Type*) where
  | userId (id : String)
  | inline (user : InlineIdentifyUserRequest V)

/-- A file attachment. -/
structure Attachment where
  name : String
  contentType : String
  content : String

/-- The body of a trigger request. -/
structure TriggerBody (V : Type*) where
  recipients : List (RecipientRequest V)
  actor : Option (RecipientRequest V)
  attachments : Option (List Attachment)
  cancellationKey : Option String
  data : Option (OrderedMap String V)
  workplaceId : Option String

/-- A field of the provider's inline user: a value of the caller, a text, or a record. -/
inductive UserField (V : Type*) where
  | own (value : V)
  | text (text : String)
  | record (fields : OrderedMap String V)

/-- A recipient as the provider takes it. -/
inductive KnockRecipient (V : Type*) where
  | id (id : String)
  | user (fields : OrderedMap String (UserField V))

/-- An attachment as the provider takes it. -/
structure KnockAttachment where
  name : String
  content_type : String
  content : String

/-- A field of the provider's data: a value of the caller, or the attachments. -/
inductive DataField (V : Type*) where
  | own (value : V)
  | attachments (files : List KnockAttachment)

/-- The parameters of `workflows.trigger`. -/
structure WorkflowTriggerParams (V : Type*) where
  actor : Option (KnockRecipient V)
  cancellation_key : Option String
  tenant : Option String
  recipients : List (KnockRecipient V)
  data : Option (OrderedMap String (DataField V))

variable {V : Type*} (formatE164 : String → Option String)

/-- A phone number in E.164, or as it was given. -/
def formatPhoneNumber (phoneNumber : String) : String :=
  (formatE164 phoneNumber).getD phoneNumber

/-- The creation date of an inline user as text; an invalid date throws. -/
def createdAtField : Option Date → Except Thrown (Option (UserField V))
  | none => .ok none
  | some createdAt =>
      match toISOString createdAt with
      | .error message => .error ⟨none, message⟩
      | .ok text => .ok (some (.text text))

/-- The fields of an inline user other than its id. Custom properties come first, so that a named
field wins over a custom property of the same name. -/
def toInlineIdentifyUserRequestWithoutUserId (recipient : InlineIdentifyUserRequest V) :
    Except Thrown (OrderedMap String (UserField V)) := do
  let createdAt ← createdAtField recipient.createdAt
  let custom := (recipient.customProperties.getD OrderedMap.empty).mapValues UserField.own
  return custom
    |> setField "channel_data" (recipient.channelData.map .own)
    |> setField "created_at" createdAt
    |> setField "email" ((given recipient.email).map .text)
    |> setField "name" ((given recipient.name).map .text)
    |> setField "phone_number"
        ((given recipient.phoneNumber).map fun phoneNumber ↦
          .text (formatPhoneNumber formatE164 phoneNumber))
    |> setField "timezone" ((given recipient.timeZone).map .text)
    |> setField "$trigger_data" (recipient.triggerData.map .record)

/-- An inline user with its id. -/
def toInlineIdentifyUserRequest (recipient : InlineIdentifyUserRequest V) :
    Except Thrown (OrderedMap String (UserField V)) := do
  let fields ← toInlineIdentifyUserRequestWithoutUserId formatE164 recipient
  return fields.set "id" (.text recipient.userId)

/-- A recipient for the provider. -/
def toRecipient : RecipientRequest V → Except Thrown (KnockRecipient V)
  | .userId id => .ok (.id id)
  | .inline user => do return .user (← toInlineIdentifyUserRequest formatE164 user)

/-- An attachment for the provider. -/
def toKnockAttachment (attachment : Attachment) : KnockAttachment :=
  ⟨attachment.name, attachment.contentType, attachment.content⟩

/-- The data for the provider, if there are data or attachments. -/
def toTriggerData (data : Option (OrderedMap String V)) (attachments : Option (List Attachment)) :
    Option (OrderedMap String (DataField V)) :=
  if data.isSome || attachments.isSome then
    some (setField "attachments"
      (attachments.map fun files ↦ .attachments (files.map toKnockAttachment))
      ((data.getD OrderedMap.empty).mapValues DataField.own))
  else none

/-- The parameters of the provider's call for a body. -/
def toTriggerBody (body : TriggerBody V) : Except Thrown (WorkflowTriggerParams V) := do
  let actor ← body.actor.mapM (toRecipient formatE164)
  let recipients ← body.recipients.mapM (toRecipient formatE164)
  return {
    actor
    cancellation_key := given body.cancellationKey
    tenant := given body.workplaceId
    recipients
    data := toTriggerData body.data body.attachments }

variable {formatE164}

/-- The provider's recipients of a body are the body's recipients, converted one by one. -/
theorem recipients_of_toTriggerBody {body : TriggerBody V} {params : WorkflowTriggerParams V}
    (h : toTriggerBody formatE164 body = .ok params) :
    body.recipients.mapM (toRecipient formatE164) = .ok params.recipients := by
  unfold toTriggerBody at h
  cases hactor : body.actor.mapM (toRecipient formatE164) with
  | error e => simp [hactor, bind, Except.bind] at h
  | ok actor =>
      cases hrecipients : body.recipients.mapM (toRecipient formatE164) with
      | error e => simp [hactor, hrecipients, bind, Except.bind] at h
      | ok recipients =>
          simp only [hactor, hrecipients, bind, Except.bind, pure, Except.pure] at h
          obtain rfl := Except.ok.inj h
          rfl

end CoreUtils.Notifications
