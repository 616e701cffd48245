import CoreUtils.Library.KeyedFold
import CoreUtils.Reporter.TextProcessing
import Mathlib.Data.List.MinMax

/-!
# The failing action of a trace

`ActionBuilder` of `actionDiagnostics.ts`: it is fed the events of a trace one by one, keeps a
record for each call, and in the end names the call that failed. The events of a call arrive in
any order and mixed with those of other calls.
-/

namespace CoreUtils.Reporter.Trace

/-- The greatest length of a message in the log of an action. -/
def ACTION_LOG_MESSAGE_CAP : ℕ := 512

/-- The greatest number of lines that are reported of a log. -/
def ACTION_LOG_MESSAGES_CAP : ℕ := 20

/-- The greatest length of a selector. -/
def ACTION_SELECTOR_CAP : ℕ := 256

/-- What the events of a call have said about it. -/
structure ActionRecord where
  callId : Text
  log : List String
  apiName : Option String
  selector : Option String
  error : Option String
  startTime : Option ℚ
  endTime : Option ℚ
  deriving DecidableEq

/-- What errors are enriched with. -/
def ActionRecord.enrichment (record : ActionRecord) : Reporter.ActionRecord :=
  ⟨record.apiName, record.selector, record.log⟩

/-! ## Fields of an event -/

/-- A message without colors, cut at its greatest length. -/
def capActionLogMessage (message : String) : String :=
  capString (stripAnsi message) ACTION_LOG_MESSAGE_CAP

/-- The call of an event, if it names one. -/
def callIdOf (eventRecord : Json) : Option Text :=
  (asString (eventRecord.member "callId".toList)).filter (· ≠ [])

/-- `extractApiName`. An empty title is a name. -/
def extractApiName (eventRecord : Json) : Option String :=
  match present (stringOf (eventRecord.member "apiName".toList)) with
  | some explicitApiName => some explicitApiName
  | none =>
      match present (stringOf (eventRecord.member "class".toList)),
          present (stringOf (eventRecord.member "method".toList)) with
      | some className, some methodName => some (className ++ "." ++ methodName)
      | _, _ => stringOf (eventRecord.member "title".toList)

/-- `extractSelector`. The first text counts, also when it is empty. -/
def extractSelector (eventRecord : Json) : Option String :=
  let paramsRecord := asRecord (eventRecord.member "params".toList)
  let selector :=
    (stringOf (paramsRecord.bind (·.member "selector".toList))).or <|
      (stringOf (paramsRecord.bind (·.member "source".toList))).or <|
        (stringOf (paramsRecord.bind (·.member "target".toList))).or
          (stringOf (eventRecord.member "selector".toList))
  (present selector).map fun selector ↦ capString (stripAnsi selector) ACTION_SELECTOR_CAP

/-- The texts of an array, without what is no text; other values have none. -/
def extractLogMessages : Option Json → List String
  | some (.array items) => items.filterMap fun item ↦ stringOf (some item)
  | _ => []

/-- The message of an error: the value itself, its message or that of the error in it, whichever is
the first text that is not empty. -/
def extractErrorText (errorValue : Option Json) : Option String :=
  let errorRecord := asRecord errorValue
  let nestedErrorRecord := asRecord (errorRecord.bind (·.member "error".toList))
  ((present (stringOf errorValue)).or <|
      (present (stringOf (errorRecord.bind (·.member "message".toList)))).or
        (present (stringOf (nestedErrorRecord.bind (·.member "message".toList))))).map
    capActionLogMessage

/-! ## The builder -/

/-- The records of the calls, and the calls in the order of their first events. -/
structure ActionBuilder where
  recordsByCallId : OrderedMap Text ActionRecord
  orderedCallIds : List Text

/-- A record without events. -/
def emptyRecord (callId : Text) : ActionRecord := ⟨callId, [], none, none, none, none, none⟩

namespace ActionBuilder

/-- A builder before the first event. -/
def initial : ActionBuilder := ⟨OrderedMap.empty, []⟩

/-- `getOrCreateRecord`, the builder that has the record. -/
def getOrCreateRecord (builder : ActionBuilder) (callId : Text) : ActionBuilder :=
  match builder.recordsByCallId.get callId with
  | some _ => builder
  | none =>
      { recordsByCallId := builder.recordsByCallId.set callId (emptyRecord callId)
        orderedCallIds := builder.orderedCallIds ++ [callId] }

/-- Change the record of a call. -/
def changeRecord (builder : ActionBuilder) (callId : Text) (change : ActionRecord → ActionRecord) :
    ActionBuilder :=
  let builder := builder.getOrCreateRecord callId
  { builder with recordsByCallId := builder.recordsByCallId.modify callId change }

/-- What a start event says about its call. -/
def applyStartEvent (eventRecord : Json) (record : ActionRecord) : ActionRecord :=
  { record with
    apiName := (extractApiName eventRecord).or record.apiName
    selector := (extractSelector eventRecord).or record.selector
    startTime := match asNumber (eventRecord.member "startTime".toList) with
      | none => record.startTime
      | some startTime =>
          match record.startTime with
          | none => some startTime
          | some recorded => some (min recorded startTime)
    log := record.log ++
      (extractLogMessages (eventRecord.member "log".toList)).map capActionLogMessage }

/-- Adds what an event at the start of a call says. One without a call is passed over. -/
def admitStartEvent (builder : ActionBuilder) (eventRecord : Json) : ActionBuilder :=
  match callIdOf eventRecord with
  | none => builder
  | some callId => builder.changeRecord callId (applyStartEvent eventRecord)

/-- Adds a message to the log of a call. An event without a call or a message is passed over. -/
def admitLogEvent (builder : ActionBuilder) (eventRecord : Json) : ActionBuilder :=
  match callIdOf eventRecord, stringOf (eventRecord.member "message".toList) with
  | some callId, some message => builder.changeRecord callId fun record ↦
      { record with log := record.log ++ [capActionLogMessage message] }
  | _, _ => builder

/-- What the end of a call says about it. -/
def applyAfterEvent (eventRecord : Json) (record : ActionRecord) : ActionRecord :=
  { record with
    error := (extractErrorText (eventRecord.member "error".toList)).or record.error
    endTime := (asNumber (eventRecord.member "endTime".toList)).or record.endTime }

/-- Adds what an event at the end of a call says. One without a call is passed over. -/
def admitAfterEvent (builder : ActionBuilder) (eventRecord : Json) : ActionBuilder :=
  match callIdOf eventRecord with
  | none => builder
  | some callId => builder.changeRecord callId (applyAfterEvent eventRecord)

/-- Adds an event by its type, `admit`. Events of other types are passed over. -/
def admitRecord (builder : ActionBuilder) (eventRecord : Json) : ActionBuilder :=
  let eventType := stringOf (eventRecord.member "type".toList)
  if eventType = some "before" ∨ eventType = some "action" then builder.admitStartEvent eventRecord
  else if eventType = some "log" then builder.admitLogEvent eventRecord
  else if eventType = some "after" then builder.admitAfterEvent eventRecord
  else builder

/-- The builder after the events of a list. -/
def admitAll (events : List Json) : ActionBuilder := events.foldl admitRecord initial

/-- `findLastRecord`, from the last call back. -/
def findLastRecord (builder : ActionBuilder) (predicate : ActionRecord → Bool) :
    Option ActionRecord :=
  builder.orderedCallIds.reverse.findSome? fun callId ↦
    (builder.recordsByCallId.get callId).filter fun record ↦ predicate record

end ActionBuilder

/-- The log with its first and last lines only if there are too many, and a line that counts the
others. -/
def compactActionLog (logMessages : List String) : List String :=
  if logMessages.length ≤ ACTION_LOG_MESSAGES_CAP then logMessages
  else
    let headCount := 5
    let tailCount := ACTION_LOG_MESSAGES_CAP - headCount - 1
    let omittedCount := logMessages.length - headCount - tailCount
    logMessages.take headCount ++ [s!"[{omittedCount} action log messages omitted]"] ++
      logMessages.drop (logMessages.length - tailCount)

/-- The record as it is reported, with a compact log. -/
def cloneRecord (record : ActionRecord) : ActionRecord :=
  { record with log := compactActionLog record.log }

/-- The last call with an error, else the last one that has ended. -/
def ActionBuilder.findFailingAction (builder : ActionBuilder) : Option ActionRecord :=
  ((builder.findLastRecord fun record ↦ record.error.isSome).or
    (builder.findLastRecord fun record ↦ record.endTime.isSome)).map cloneRecord

/-! ## What the events of a call say -/

/-- The kinds of events that a builder reads. -/
inductive EventKind where
  | start
  | log
  | after
  deriving DecidableEq

/-- The kind of an event. -/
def kindOf (eventRecord : Json) : Option EventKind :=
  let eventType := stringOf (eventRecord.member "type".toList)
  if eventType = some "before" ∨ eventType = some "action" then some .start
  else if eventType = some "log" then some .log
  else if eventType = some "after" then some .after
  else none

/-- The call that an event reports on. A log event without a message reports on none. -/
def reportsOn (eventRecord : Json) : Option Text :=
  match kindOf eventRecord with
  | none => none
  | some .log =>
      if (stringOf (eventRecord.member "message".toList)).isSome then callIdOf eventRecord else none
  | some _ => callIdOf eventRecord

/-- The messages that an event logs. -/
def loggedBy (eventRecord : Json) : List String :=
  match kindOf eventRecord with
  | some .start => (extractLogMessages (eventRecord.member "log".toList)).map capActionLogMessage
  | some .log =>
      ((stringOf (eventRecord.member "message".toList)).map capActionLogMessage).toList
  | _ => []

/-- A field that events of one kind report. -/
def reportedAt {α : Type} (kind : EventKind) (field : Json → Option α) (eventRecord : Json) :
    Option α :=
  if kindOf eventRecord = some kind then field eventRecord else none

/-- The name of a call, as a start event reports it. -/
def apiNameOf : Json → Option String := reportedAt .start extractApiName

/-- The selector of a call, as a start event reports it. -/
def selectorOf : Json → Option String := reportedAt .start extractSelector

/-- The time a call started at, as a start event reports it. -/
def startTimeOf : Json → Option ℚ :=
  reportedAt .start fun eventRecord ↦ asNumber (eventRecord.member "startTime".toList)

/-- The error of a call, as its end reports it. -/
def errorOf : Json → Option String :=
  reportedAt .after fun eventRecord ↦ extractErrorText (eventRecord.member "error".toList)

/-- The time a call ended at, as its end reports it. -/
def endTimeOf : Json → Option ℚ :=
  reportedAt .after fun eventRecord ↦ asNumber (eventRecord.member "endTime".toList)

/-- The record of a call, read off its events: all messages in order, the earliest start, and of
everything else what was reported last. -/
def recordOf (callId : Text) (events : List Json) : ActionRecord where
  callId := callId
  log := events.flatMap loggedBy
  apiName := (events.filterMap apiNameOf).getLast?
  selector := (events.filterMap selectorOf).getLast?
  error := (events.filterMap errorOf).getLast?
  startTime := (events.filterMap startTimeOf).min?
  endTime := (events.filterMap endTimeOf).getLast?

/-- The events with the calls they report on. -/
def reports (events : List Json) : List (Text × Json) :=
  events.filterMap fun eventRecord ↦ (reportsOn eventRecord).map fun callId ↦ (callId, eventRecord)

/-- The records of all calls, in the order in which the calls are first reported on. -/
def recordsOf (events : List Json) : List ActionRecord :=
  (KeyedFold.keysOf (reports events)).map fun callId ↦
    recordOf callId (KeyedFold.under callId (reports events))

/-- The call that failed: the last one with an error, else the last one that ended. -/
def failingActionOf (events : List Json) : Option ActionRecord :=
  (((recordsOf events).filter fun record ↦ record.error.isSome).getLast?).or
    ((recordsOf events).filter fun record ↦ record.endTime.isSome).getLast?

/-! ## The builder computes the records -/

/-- Apply an event to the record of the call it reports on. -/
def applyEvent (record : ActionRecord) (eventRecord : Json) : ActionRecord where
  callId := record.callId
  log := record.log ++ loggedBy eventRecord
  apiName := (apiNameOf eventRecord).or record.apiName
  selector := (selectorOf eventRecord).or record.selector
  error := (errorOf eventRecord).or record.error
  startTime := (startTimeOf eventRecord).elim record.startTime
    (KeyedFold.keepMin record.startTime)
  endTime := (endTimeOf eventRecord).or record.endTime

/-- Applying events changes each field on its own. -/
theorem foldl_apply_event (events : List Json) (record : ActionRecord) :
    events.foldl applyEvent record =
      { callId := record.callId
        log := events.foldl (fun log event ↦ log ++ loggedBy event) record.log
        apiName := events.foldl (fun field event ↦ (apiNameOf event).or field) record.apiName
        selector := events.foldl (fun field event ↦ (selectorOf event).or field) record.selector
        error := events.foldl (fun field event ↦ (errorOf event).or field) record.error
        startTime := events.foldl
          (fun field event ↦ (startTimeOf event).elim field (KeyedFold.keepMin field))
          record.startTime
        endTime := events.foldl (fun field event ↦ (endTimeOf event).or field)
          record.endTime } := by
  induction events generalizing record with
  | nil => rfl
  | cons event events ih => rw [List.foldl_cons, ih]; rfl

/-- The record that the events of a call leave. -/
theorem foldl_apply_event_empty (callId : Text) (events : List Json) :
    events.foldl applyEvent (emptyRecord callId) = recordOf callId events := by
  rw [foldl_apply_event, recordOf]
  simp only [emptyRecord, KeyedFold.foldl_append_eq_flatMap, KeyedFold.foldl_or_eq_getLast,
    KeyedFold.foldl_keepMin_eq_min]

namespace ActionBuilder

variable {builder : ActionBuilder}

/-- The call ids stand in the order in which the records were created. -/
def Ordered (builder : ActionBuilder) : Prop :=
  builder.orderedCallIds = builder.recordsByCallId.keys

/-- Changing the record of a call keeps the order, and stores what an event makes of the record. -/
theorem change_record_spec (h : builder.Ordered) {callId : Text} {eventRecord : Json}
    {change : ActionRecord → ActionRecord}
    (hchange : ∀ record, change record = applyEvent record eventRecord) :
    (builder.changeRecord callId change).recordsByCallId =
        KeyedFold.enter emptyRecord applyEvent builder.recordsByCallId (callId, eventRecord) ∧
      (builder.changeRecord callId change).Ordered := by
  cases hget : builder.recordsByCallId.get callId with
  | some stored =>
      have hcreate : builder.getOrCreateRecord callId = builder := by
        simp only [getOrCreateRecord, hget]
      simp only [changeRecord, hcreate, Ordered, OrderedMap.keys_modify]
      refine ⟨?_, h⟩
      rw [KeyedFold.modify_eq_set hget, hchange, KeyedFold.enter, hget, Option.getD_some]
  | none =>
      have hcreate : builder.getOrCreateRecord callId =
          { recordsByCallId := builder.recordsByCallId.set callId (emptyRecord callId)
            orderedCallIds := builder.orderedCallIds ++ [callId] } := by
        simp only [getOrCreateRecord, hget]
      simp only [changeRecord, hcreate, Ordered, OrderedMap.keys_modify,
        OrderedMap.keys_set_of_get_none hget]
      refine ⟨?_, by rw [h]⟩
      rw [KeyedFold.modify_set _ hget, hchange, KeyedFold.enter, hget, Option.getD_none]

/-- The kind of an event decides which part of the builder reads it. -/
theorem admit_eq_kind (builder : ActionBuilder) (eventRecord : Json) :
    builder.admitRecord eventRecord =
      match kindOf eventRecord with
      | some .start => builder.admitStartEvent eventRecord
      | some .log => builder.admitLogEvent eventRecord
      | some .after => builder.admitAfterEvent eventRecord
      | none => builder := by
  simp only [admitRecord, kindOf]
  split_ifs <;> rfl

/-- A start event is applied to the record of its call. -/
theorem apply_start_event_eq {eventRecord : Json} (hkind : kindOf eventRecord = some .start)
    (record : ActionRecord) :
    applyStartEvent eventRecord record = applyEvent record eventRecord := by
  simp only [applyStartEvent, applyEvent, loggedBy, apiNameOf, selectorOf, startTimeOf, errorOf,
    endTimeOf, reportedAt, hkind, if_true]
  cases asNumber (eventRecord.member "startTime".toList) with
  | none => rfl
  | some startTime => cases record.startTime <;> rfl

/-- The end of a call is applied to its record. -/
theorem apply_after_event_eq {eventRecord : Json} (hkind : kindOf eventRecord = some .after)
    (record : ActionRecord) :
    applyAfterEvent eventRecord record = applyEvent record eventRecord := by
  simp only [applyAfterEvent, applyEvent, loggedBy, apiNameOf, selectorOf, startTimeOf, errorOf,
    endTimeOf, reportedAt, hkind, if_true, List.append_nil]
  rfl

/-- A message is applied to the record of its call. -/
theorem apply_log_event_eq {eventRecord : Json} {message : String}
    (hkind : kindOf eventRecord = some .log)
    (hmessage : stringOf (eventRecord.member "message".toList) = some message)
    (record : ActionRecord) :
    { record with log := record.log ++ [capActionLogMessage message] } =
      applyEvent record eventRecord := by
  simp only [applyEvent, loggedBy, apiNameOf, selectorOf, startTimeOf, errorOf, endTimeOf,
    reportedAt, hkind, hmessage]
  rfl

/-- What one event does: it is applied to the record of the call it reports on. -/
theorem admit_spec (h : builder.Ordered) (eventRecord : Json) :
    (builder.admitRecord eventRecord).recordsByCallId =
        ((reportsOn eventRecord).elim builder.recordsByCallId fun callId ↦
          KeyedFold.enter emptyRecord applyEvent builder.recordsByCallId (callId, eventRecord)) ∧
      (builder.admitRecord eventRecord).Ordered := by
  rw [admit_eq_kind]
  cases hkind : kindOf eventRecord with
  | none =>
      simp only [reportsOn, hkind]
      exact ⟨rfl, h⟩
  | some kind =>
      cases kind with
      | start =>
          simp only [reportsOn, hkind, admitStartEvent]
          cases callIdOf eventRecord with
          | none => exact ⟨rfl, h⟩
          | some callId => exact change_record_spec h (apply_start_event_eq hkind)
      | after =>
          simp only [reportsOn, hkind, admitAfterEvent]
          cases callIdOf eventRecord with
          | none => exact ⟨rfl, h⟩
          | some callId => exact change_record_spec h (apply_after_event_eq hkind)
      | log =>
          simp only [reportsOn, hkind, admitLogEvent]
          cases hmessage : stringOf (eventRecord.member "message".toList) with
          | none => cases callIdOf eventRecord <;> exact ⟨rfl, h⟩
          | some message =>
              cases callIdOf eventRecord with
              | none => exact ⟨rfl, h⟩
              | some callId => exact change_record_spec h (apply_log_event_eq hkind hmessage)

/-- The builder after a run: the records are those of the calls, kept in their order. -/
theorem admit_all_spec (events : List Json) :
    (admitAll events).recordsByCallId = KeyedFold.run emptyRecord applyEvent (reports events) ∧
      (admitAll events).Ordered := by
  induction events using List.reverseRecOn with
  | nil => exact ⟨rfl, rfl⟩
  | append_singleton events event ih =>
      obtain ⟨hrecords, hordered⟩ := ih
      have hrun : admitAll (events ++ [event]) = (admitAll events).admitRecord event := by
        simp [admitAll]
      obtain ⟨hadmitted, hordered'⟩ := admit_spec hordered event
      refine ⟨?_, hrun ▸ hordered'⟩
      rw [hrun, hadmitted, hrecords]
      cases hon : reportsOn event with
      | none => simp [reports, hon]
      | some callId => simp [reports, hon, KeyedFold.run]

/-- The record that a run leaves of a call. -/
theorem get_admit_all (events : List Json) {callId : Text}
    (h : callId ∈ KeyedFold.keysOf (reports events)) :
    (admitAll events).recordsByCallId.get callId =
      some (recordOf callId (KeyedFold.under callId (reports events))) := by
  rw [(admit_all_spec events).1, KeyedFold.get_run, if_pos (KeyedFold.mem_keysOf.mp h),
    foldl_apply_event_empty]

/-- The search from the back finds the last of the records that the predicate holds of. -/
theorem find_last_record_admit_all (events : List Json) (predicate : ActionRecord → Bool) :
    (admitAll events).findLastRecord predicate =
      ((recordsOf events).filter predicate).getLast? := by
  obtain ⟨hrecords, hordered⟩ := admit_all_spec events
  have hkeys : (admitAll events).orderedCallIds = KeyedFold.keysOf (reports events) := by
    rw [hordered, hrecords, KeyedFold.keys_run]
  rw [findLastRecord, hkeys, ← List.getLast?_filterMap, recordsOf, ← List.filterMap_eq_filter,
    List.filterMap_map]
  congr 1
  refine List.filterMap_congr fun callId hcallId ↦ ?_
  rw [get_admit_all events hcallId]
  simp only [Option.filter_some, Function.comp_apply, Option.guard]

end ActionBuilder

/-! ## How much the report holds of an action -/

/-- A capped message fits. -/
theorem length_cap_action_log_message_le (message : String) :
    lengthOf (capActionLogMessage message) ≤ ACTION_LOG_MESSAGE_CAP :=
  length_cap_string_le _ (by decide)

/-- Every message that is logged was capped. -/
theorem length_logged_by_le {eventRecord : Json} {message : String}
    (h : message ∈ loggedBy eventRecord) : lengthOf message ≤ ACTION_LOG_MESSAGE_CAP := by
  unfold loggedBy at h
  split at h
  · obtain ⟨logged, -, rfl⟩ := List.mem_map.mp h
    exact length_cap_action_log_message_le logged
  · rw [Option.mem_toList, Option.map_eq_some_iff] at h
    obtain ⟨logged, -, rfl⟩ := h
    exact length_cap_action_log_message_le logged
  · exact absurd h List.not_mem_nil

/-- What is reported last was reported by an event. -/
theorem exists_reported_at {α : Type} {kind : EventKind} {field : Json → Option α}
    {events : List Json} {value : α}
    (h : (events.filterMap (reportedAt kind field)).getLast? = some value) :
    ∃ eventRecord ∈ events, field eventRecord = some value := by
  obtain ⟨eventRecord, hmem, hfield⟩ := List.mem_filterMap.mp (List.mem_of_getLast? h)
  unfold reportedAt at hfield
  split at hfield
  · exact ⟨eventRecord, hmem, hfield⟩
  · exact absurd hfield (by simp)

/-- An error text was capped. -/
theorem length_extract_error_text_le {errorValue : Option Json} {error : String}
    (h : extractErrorText errorValue = some error) : lengthOf error ≤ ACTION_LOG_MESSAGE_CAP := by
  obtain ⟨text, -, rfl⟩ := Option.map_eq_some_iff.mp h
  exact length_cap_action_log_message_le text

/-- A selector was capped. -/
theorem length_extract_selector_le {eventRecord : Json} {selector : String}
    (h : extractSelector eventRecord = some selector) :
    lengthOf selector ≤ ACTION_SELECTOR_CAP := by
  obtain ⟨text, -, rfl⟩ := Option.map_eq_some_iff.mp h
  exact length_cap_string_le _ (by decide)

/-- A compacted log has room for all its messages, or keeps the first five and the last fourteen
around a note. -/
theorem length_compact_action_log_le (logMessages : List String) :
    (compactActionLog logMessages).length ≤ ACTION_LOG_MESSAGES_CAP := by
  unfold compactActionLog
  split
  next hfits => exact hfits
  next hlong =>
    simp only [ACTION_LOG_MESSAGES_CAP, List.length_append, List.length_take, List.length_singleton,
      List.length_drop] at hlong ⊢
    omega

/-- An action of the report is bounded, however long its log is in the trace. -/
structure Bounded (record : ActionRecord) : Prop where
  log : record.log.length ≤ 20
  messages : ∃ logMessages, (∀ message ∈ logMessages, lengthOf message ≤ 512) ∧
    record.log = compactActionLog logMessages
  selector : ∀ selector ∈ record.selector, lengthOf selector ≤ 256
  error : ∀ error ∈ record.error, lengthOf error ≤ 512

/-- The record of a call is bounded once its log is compacted. -/
theorem bounded_clone_record (callId : Text) (events : List Json) :
    Bounded (cloneRecord (recordOf callId events)) where
  log := length_compact_action_log_le _
  messages := by
    refine ⟨events.flatMap loggedBy, fun message hmessage ↦ ?_, rfl⟩
    obtain ⟨eventRecord, -, hlogged⟩ := List.mem_flatMap.mp hmessage
    exact length_logged_by_le hlogged
  selector := by
    intro selector hselector
    obtain ⟨eventRecord, -, hfield⟩ := exists_reported_at hselector
    exact length_extract_selector_le hfield
  error := by
    intro error herror
    obtain ⟨eventRecord, -, hfield⟩ := exists_reported_at herror
    exact length_extract_error_text_le hfield

/-- The call that failed is one of the calls reported on. -/
theorem exists_of_failing_action_of {events : List Json} {record : ActionRecord}
    (h : failingActionOf events = some record) :
    ∃ callId, record = recordOf callId (KeyedFold.under callId (reports events)) := by
  have hmem : record ∈ recordsOf events := by
    rcases Option.or_eq_some_iff.mp h with hfailed | ⟨-, hended⟩
    · exact (List.mem_filter.mp (List.mem_of_getLast? hfailed)).1
    · exact (List.mem_filter.mp (List.mem_of_getLast? hended)).1
  obtain ⟨callId, -, rfl⟩ := List.mem_map.mp hmem
  exact ⟨callId, rfl⟩

/-- The builder names the call that the records name, with its log compacted. -/
theorem find_failing_action_eq (events : List Json) :
    (ActionBuilder.admitAll events).findFailingAction =
      (failingActionOf events).map cloneRecord := by
  rw [ActionBuilder.findFailingAction, ActionBuilder.find_last_record_admit_all,
    ActionBuilder.find_last_record_admit_all, failingActionOf]

/-- The builder names the call that the events of the trace name, however they are mixed: among the
calls in the order of their first events the last one with an error, else the last one that ended,
with the record that its own events describe. The action is bounded. -/
theorem find_failing_action_admit_all (events : List Json) :
    (ActionBuilder.admitAll events).findFailingAction =
        (failingActionOf events).map cloneRecord ∧
      ∀ record ∈ (ActionBuilder.admitAll events).findFailingAction, Bounded record := by
  refine ⟨find_failing_action_eq events, fun record hrecord ↦ ?_⟩
  rw [find_failing_action_eq, Option.mem_def, Option.map_eq_some_iff] at hrecord
  obtain ⟨failed, hfailed, rfl⟩ := hrecord
  obtain ⟨callId, rfl⟩ := exists_of_failing_action_of hfailed
  exact bounded_clone_record callId _

end CoreUtils.Reporter.Trace
