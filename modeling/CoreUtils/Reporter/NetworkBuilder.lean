import CoreUtils.Library.OrderedMap
import CoreUtils.Reporter.NetworkPriority
import Mathlib.Data.Rat.Defs
import Mathlib.Order.WithBot

/-!
# The network builder

The admission half of `NetworkBuilder` in `networkBuilder.ts`: the ten maps, the counters, and
every operation that `admit` performs on them. Identifiers such as `g3` are a counter under the
type of what they name. The SHA-1 digest is a parameter, so that fingerprints are of any type `φ`,
and the builder works with any function from shapes to fingerprints; body fingerprints arrive with
the observation.

The code mutates records through references held by the maps; here a mutation is `modify` on the
map that owns the record.
-/

namespace CoreUtils.Reporter

/-- The identifier `g<counter>` of a group. -/
structure GroupId where
  counter : ℕ
  deriving DecidableEq

/-- The identifier `n<counter>` of an instance. -/
structure InstanceId where
  counter : ℕ
  deriving DecidableEq

/-- The identifier `b<counter>` of a body. -/
structure BodyId where
  counter : ℕ
  deriving DecidableEq

instance : ToString GroupId := ⟨fun id ↦ s!"g{id.counter}"⟩

/-- What an observation looked like: the fields that identify its group. -/
structure NetworkObservationShape where
  method : String
  url : String
  status : ℚ
  resourceType : Option String
  failureText : Option String
  wasAborted : Option Bool
  deriving DecidableEq

/-- The phases of a request, each in milliseconds when known. -/
structure NetworkTimingBreakdown where
  sendMs : Option ℚ
  waitMs : Option ℚ
  receiveMs : Option ℚ
  dnsMs : Option ℚ
  connectMs : Option ℚ
  sslMs : Option ℚ
  deriving DecidableEq

/-- The scalars of the array that `hashShape` serializes. -/
inductive JsonScalar where
  | null
  | string (value : String)
  | number (value : ℚ)
  | boolean (value : Bool)
  deriving DecidableEq

/-- The fingerprint of a shape. `sha1` is the digest of the JSON text of an array. -/
def hashShape {φ : Type} (sha1 : List JsonScalar → φ) (shape : NetworkObservationShape) : φ :=
  sha1 [.string shape.method, .string shape.url, .number shape.status,
    shape.resourceType.elim .null .string, shape.failureText.elim .null .string,
    shape.wasAborted.elim .null .boolean]

/-- Every field is delimited in the array, so shapes collide only if the digest does. -/
theorem hashShape_injective {φ : Type} {sha1 : List JsonScalar → φ}
    (hsha1 : Function.Injective sha1) : Function.Injective (hashShape sha1) := by
  intro a b h
  have hfields := hsha1 h
  rcases a with ⟨method, url, status, resourceType, failureText, wasAborted⟩
  rcases b with ⟨method', url', status', resourceType', failureText', wasAborted'⟩
  cases resourceType <;> cases resourceType' <;> cases failureText <;> cases failureText' <;>
    cases wasAborted <;> cases wasAborted' <;> simp_all

/-- What belongs to one occurrence only. -/
structure NetworkObservationInstance where
  offsetMs : Option ℚ
  durationMs : Option ℚ
  timings : Option NetworkTimingBreakdown
  traceId : Option String
  spanId : Option String
  requestId : Option String
  correlationId : Option String
  redirectToUrl : Option String
  deriving DecidableEq

/-- Text as its UTF-16 code units, among which there may be half of a surrogate pair. -/
abbrev CodeUnits := List UInt16

/-- A request or response payload with the fingerprint it is shared by. -/
structure NetworkObservationBody where
  content : CodeUnits
  contentType : Option String
  truncated : Bool
  fingerprint : String
  deriving DecidableEq

/-- One observed request. -/
structure NetworkObservation where
  shape : NetworkObservationShape
  instance_ : NetworkObservationInstance
  requestBody : Option NetworkObservationBody
  responseBody : Option NetworkObservationBody
  deriving DecidableEq

/-- A retained occurrence. -/
structure NetworkInstance where
  id : InstanceId
  groupId : GroupId
  method : String
  url : String
  status : ℚ
  offsetMs : Option ℚ
  durationMs : Option ℚ
  timings : Option NetworkTimingBreakdown
  traceId : Option String
  spanId : Option String
  requestId : Option String
  correlationId : Option String
  requestBodyRef : Option BodyId
  responseBodyRef : Option BodyId
  redirectFromId : Option InstanceId
  redirectToId : Option InstanceId
  deriving DecidableEq

/-- The occurrences of one shape. -/
structure NetworkGroup (φ : Type) where
  id : GroupId
  method : String
  url : String
  status : ℚ
  resourceType : Option String
  failureText : Option String
  wasAborted : Option Bool
  occurrenceCount : ℕ
  retainedInstanceCount : ℕ
  suppressedInstanceCount : ℕ
  evictedInstanceCount : ℕ
  firstOffsetMs : Option ℚ
  lastOffsetMs : Option ℚ
  fingerprint : φ
  deriving DecidableEq

/-- A retained payload. -/
structure NetworkBody where
  id : BodyId
  content : CodeUnits
  contentType : Option String
  truncated : Bool
  canonicalized : Bool
  fingerprint : String
  deriving DecidableEq

/-- Where every observation went. -/
structure NetworkSummary where
  observedInstances : ℕ
  retainedInstances : ℕ
  retainedGroups : ℕ
  retainedBodies : ℕ
  instancesDroppedByFilter : ℕ
  instancesDroppedByGroupCap : ℕ
  instancesDroppedByInstanceCap : ℕ
  instancesSuppressedAsDuplicate : ℕ
  instancesEvictedAfterAdmission : ℕ
  bodiesOmittedByBodyCap : ℕ
  bodiesTruncated : ℕ
  bodiesCanonicalized : ℕ
  deriving DecidableEq

/-- What is remembered about a shape while its group is retained. -/
structure ShapeMetadata where
  firstOffsetMs : Option ℚ
  lastOffsetMs : Option ℚ
  totalPostFilterObservations : ℕ
  deriving DecidableEq

/-- The fields of an observed shape that decide its priority. -/
def NetworkObservationShape.toPriorityShape (shape : NetworkObservationShape) : PriorityShape :=
  ⟨shape.status, shape.resourceType, shape.failureText, shape.wasAborted⟩

/-- The fields of a group that decide its priority. -/
def NetworkGroup.toPriorityShape {φ : Type} (group : NetworkGroup φ) : PriorityShape :=
  ⟨group.status, group.resourceType, group.failureText, group.wasAborted⟩

/-- Count an eviction in a group. -/
def NetworkGroup.countEvicted {φ : Type} (group : NetworkGroup φ) : NetworkGroup φ :=
  { group with evictedInstanceCount := group.evictedInstanceCount + 1 }

/-- Count a suppressed duplicate in a group. -/
def NetworkGroup.countSuppressed {φ : Type} (group : NetworkGroup φ) : NetworkGroup φ :=
  { group with
    suppressedInstanceCount := group.suppressedInstanceCount + 1
    occurrenceCount := group.occurrenceCount + 1 }

/-- Count a committed instance in a group. -/
def NetworkGroup.countCommitted {φ : Type} (group : NetworkGroup φ) : NetworkGroup φ :=
  { group with occurrenceCount := group.occurrenceCount + 1 }

/-- Count one more post-filter observation of a shape, and widen its offset bounds. -/
def ShapeMetadata.observe (offsetMs : Option ℚ) (metadata : ShapeMetadata) : ShapeMetadata :=
  match offsetMs with
  | none => { metadata with
      totalPostFilterObservations := metadata.totalPostFilterObservations + 1 }
  | some offset =>
      { firstOffsetMs := some (metadata.firstOffsetMs.elim offset (min · offset))
        lastOffsetMs := some (metadata.lastOffsetMs.elim offset (max · offset))
        totalPostFilterObservations := metadata.totalPostFilterObservations + 1 }

/-- An optional offset as the scans read it: `offsetMs ?? Number.POSITIVE_INFINITY`. -/
def offsetOrInfinity : Option ℚ → WithTop ℚ
  | none => ⊤
  | some offset => offset

/-- An optional sequence number as the instance scan reads it. -/
def sequenceOrInfinity : Option ℕ → WithTop ℕ
  | none => ⊤
  | some sequence => sequence

/-- The builder: three tables of retained records, the indexes over them, and the counters. -/
structure NetworkBuilder (φ : Type) where
  nextGroupCounter : ℕ
  nextInstanceCounter : ℕ
  nextBodyCounter : ℕ
  sequenceCounter : ℕ
  instancesById : OrderedMap InstanceId NetworkInstance
  groupsById : OrderedMap GroupId (NetworkGroup φ)
  bodiesById : OrderedMap BodyId NetworkBody
  fingerprintToGroupId : OrderedMap φ GroupId
  bodyHashToBodyId : OrderedMap String BodyId
  shapeMetadata : OrderedMap φ ShapeMetadata
  bodyRefCounts : OrderedMap BodyId ℕ
  groupInstanceIndex : OrderedMap GroupId (OrderedSet InstanceId)
  instanceSequenceById : OrderedMap InstanceId ℕ
  instanceRedirectToUrl : OrderedMap InstanceId String
  summary : NetworkSummary

namespace NetworkBuilder

variable {φ : Type}

/-- A new builder. -/
def initial : NetworkBuilder φ where
  nextGroupCounter := 0
  nextInstanceCounter := 0
  nextBodyCounter := 0
  sequenceCounter := 0
  instancesById := .empty
  groupsById := .empty
  bodiesById := .empty
  fingerprintToGroupId := .empty
  bodyHashToBodyId := .empty
  shapeMetadata := .empty
  bodyRefCounts := .empty
  groupInstanceIndex := .empty
  instanceSequenceById := .empty
  instanceRedirectToUrl := .empty
  summary := ⟨0, 0, 0, 0, 0, 0, 0, 0, 0, 0, 0, 0⟩

variable [DecidableEq φ]

/-! ## Removal -/

/-- Drop one reference to a body, and the body with its last reference. -/
def decrementBodyRef (b : NetworkBuilder φ) : Option BodyId → NetworkBuilder φ
  | none => b
  | some bodyId =>
      let count := (b.bodyRefCounts.get bodyId).getD 0
      if count ≤ 1 then
        { b with
          bodyRefCounts := b.bodyRefCounts.delete bodyId
          bodiesById := b.bodiesById.delete bodyId
          bodyHashToBodyId :=
            match b.bodiesById.get bodyId with
            | some body => b.bodyHashToBodyId.delete body.fingerprint
            | none => b.bodyHashToBodyId }
      else { b with bodyRefCounts := b.bodyRefCounts.set bodyId (count - 1) }

/-- Count an eviction in the summary and in the group of the victim. -/
def countEviction (b : NetworkBuilder φ) (groupId : GroupId) : NetworkBuilder φ :=
  { b with
    groupsById := b.groupsById.modify groupId NetworkGroup.countEvicted
    summary := { b.summary with
      instancesEvictedAfterAdmission := b.summary.instancesEvictedAfterAdmission + 1 } }

/-- Forget an instance in its table, its notes and the index of its group. -/
def forgetInstance (b : NetworkBuilder φ) (instanceId : InstanceId) (groupId : GroupId) :
    NetworkBuilder φ :=
  { b with
    instancesById := b.instancesById.delete instanceId
    instanceSequenceById := b.instanceSequenceById.delete instanceId
    instanceRedirectToUrl := b.instanceRedirectToUrl.delete instanceId
    groupInstanceIndex := b.groupInstanceIndex.modify groupId fun ids ↦ ids.delete instanceId }

/-- Forget a group in its table and in the indexes by fingerprint. -/
def forgetGroup (b : NetworkBuilder φ) (groupId : GroupId) (fingerprint : φ) : NetworkBuilder φ :=
  { b with
    groupsById := b.groupsById.delete groupId
    fingerprintToGroupId := b.fingerprintToGroupId.delete fingerprint
    shapeMetadata := b.shapeMetadata.delete fingerprint }

/-- Forget the entry of a group in the instance index. -/
def forgetIndex (b : NetworkBuilder φ) (groupId : GroupId) : NetworkBuilder φ :=
  { b with groupInstanceIndex := b.groupInstanceIndex.delete groupId }

/-- The part of `removeInstance` that concerns the instance: its counters, its entries and its
references to bodies. -/
def releaseInstance (b : NetworkBuilder φ) (instanceId : InstanceId) (inst : NetworkInstance)
    (countAsEviction : Bool) : NetworkBuilder φ :=
  let counted := if countAsEviction then b.countEviction inst.groupId else b
  ((counted.forgetInstance instanceId inst.groupId).decrementBodyRef
    inst.requestBodyRef).decrementBodyRef inst.responseBodyRef

/-- Remove an instance, and its group when that leaves the group empty, unless the caller is
about to remove the group itself. -/
def removeInstance (b : NetworkBuilder φ) (instanceId : InstanceId) (countAsEviction : Bool)
    (skipEmptyGroupCleanup : Bool) : NetworkBuilder φ :=
  match b.instancesById.get instanceId with
  | none => b
  | some inst =>
      let released := b.releaseInstance instanceId inst countAsEviction
      if !skipEmptyGroupCleanup &&
          (released.groupInstanceIndex.get inst.groupId).map OrderedMap.size == some 0 then
        (match released.groupsById.get inst.groupId with
          | some emptyGroup => released.forgetGroup inst.groupId emptyGroup.fingerprint
          | none => released).forgetIndex inst.groupId
      else released

/-- Remove a group with all its instances. The code walks the live index of the group while the
walk removes the elements it has passed, which visits every element present at the start. -/
def removeGroup (b : NetworkBuilder φ) (groupId : GroupId) (countCascadedEvictions : Bool) :
    NetworkBuilder φ :=
  match b.groupsById.get groupId with
  | none => b
  | some group =>
      let instanceIds := ((b.groupInstanceIndex.get groupId).map OrderedMap.keys).getD []
      let emptied := instanceIds.foldl
        (fun current instanceId ↦ current.removeInstance instanceId countCascadedEvictions true) b
      (emptied.forgetGroup groupId group.fingerprint).forgetIndex groupId

/-! ## Eviction -/

/-- The running minimum of `evictLowestPriorityGroup`. -/
structure GroupScan where
  lowestScore : WithTop ℕ
  lowestGroupId : Option GroupId
  lowestOffset : WithTop ℚ

/-- One iteration of the group scan. The tie-break offset is the live one of the metadata. -/
def scanGroup (b : NetworkBuilder φ) (scan : GroupScan) (entry : GroupId × NetworkGroup φ) :
    GroupScan :=
  let score : WithTop ℕ := priorityScore entry.2.toPriorityShape
  let firstOffset :=
    offsetOrInfinity ((b.shapeMetadata.get entry.2.fingerprint).bind (·.firstOffsetMs))
  if score < scan.lowestScore ∨
      (score = scan.lowestScore ∧ firstOffset < scan.lowestOffset) then
    ⟨score, some entry.1, firstOffset⟩
  else scan

/-- Evict the group of lowest priority if it ranks strictly below the incoming shape. `none`
stands for `false`, which leaves the builder as it was. -/
def evictLowestPriorityGroup (b : NetworkBuilder φ) (incoming : PriorityShape) :
    Option (NetworkBuilder φ) :=
  let incomingScore := priorityScore incoming
  let scan := b.groupsById.entries.foldl b.scanGroup ⟨⊤, none, ⊤⟩
  match scan.lowestGroupId with
  | none => none
  | some groupId =>
      if scan.lowestScore ≥ incomingScore then none
      else some (b.removeGroup groupId true)

/-- The running minimum of `evictLowestPriorityInstance`. -/
structure InstanceScan where
  lowestScore : WithTop ℕ
  lowestInstanceId : Option InstanceId
  lowestOffset : WithTop ℚ
  lowestSequence : WithTop ℕ

/-- One iteration of the instance scan. An instance without a group is passed over. -/
def scanInstance (b : NetworkBuilder φ) (scan : InstanceScan)
    (entry : InstanceId × NetworkInstance) : InstanceScan :=
  match b.groupsById.get entry.2.groupId with
  | none => scan
  | some group =>
      let score : WithTop ℕ := priorityScore group.toPriorityShape
      let offset := offsetOrInfinity entry.2.offsetMs
      let sequence := sequenceOrInfinity (b.instanceSequenceById.get entry.1)
      if score < scan.lowestScore ∨
          (score = scan.lowestScore ∧ offset < scan.lowestOffset) ∨
          (score = scan.lowestScore ∧ offset = scan.lowestOffset ∧
            sequence < scan.lowestSequence) then
        ⟨score, some entry.1, offset, sequence⟩
      else scan

/-- Evict the instance of lowest priority if it ranks strictly below the incoming shape. -/
def evictLowestPriorityInstance (b : NetworkBuilder φ) (incoming : PriorityShape) :
    Option (NetworkBuilder φ) :=
  let incomingScore := priorityScore incoming
  let scan := b.instancesById.entries.foldl b.scanInstance ⟨⊤, none, ⊤, ⊤⟩
  match scan.lowestInstanceId with
  | none => none
  | some instanceId =>
      if scan.lowestScore ≥ incomingScore then none
      else some (b.removeInstance instanceId true false)

/-! ## Commitment -/

/-- Create the group of a shape seen for the first time. -/
def commitGroup (b : NetworkBuilder φ) (fingerprint : φ) (shape : NetworkObservationShape)
    (offsetMs : Option ℚ) : NetworkBuilder φ :=
  let groupId : GroupId := ⟨b.nextGroupCounter⟩
  { b with
    nextGroupCounter := b.nextGroupCounter + 1
    groupsById := b.groupsById.set groupId
      { id := groupId
        method := shape.method
        url := shape.url
        status := shape.status
        resourceType := shape.resourceType
        failureText := shape.failureText
        wasAborted := shape.wasAborted
        occurrenceCount := 0
        retainedInstanceCount := 0
        suppressedInstanceCount := 0
        evictedInstanceCount := 0
        firstOffsetMs := none
        lastOffsetMs := none
        fingerprint := fingerprint }
    fingerprintToGroupId := b.fingerprintToGroupId.set fingerprint groupId
    groupInstanceIndex := b.groupInstanceIndex.set groupId .empty
    shapeMetadata := b.shapeMetadata.set fingerprint ⟨offsetMs, offsetMs, 1⟩ }

/-- Create the instance of an observation and enter it in its group. -/
def commitInstance (b : NetworkBuilder φ) (groupId : GroupId) (shape : NetworkObservationShape)
    (instance_ : NetworkObservationInstance) : NetworkBuilder φ :=
  let instanceId : InstanceId := ⟨b.nextInstanceCounter⟩
  { b with
    nextInstanceCounter := b.nextInstanceCounter + 1
    sequenceCounter := b.sequenceCounter + 1
    instancesById := b.instancesById.set instanceId
      { id := instanceId
        groupId := groupId
        method := shape.method
        url := shape.url
        status := shape.status
        offsetMs := instance_.offsetMs
        durationMs := instance_.durationMs
        timings := instance_.timings
        traceId := instance_.traceId
        spanId := instance_.spanId
        requestId := instance_.requestId
        correlationId := instance_.correlationId
        requestBodyRef := none
        responseBodyRef := none
        redirectFromId := none
        redirectToId := none }
    instanceSequenceById := b.instanceSequenceById.set instanceId (b.sequenceCounter + 1)
    instanceRedirectToUrl :=
      match instance_.redirectToUrl with
      | none => b.instanceRedirectToUrl
      | some url => b.instanceRedirectToUrl.set instanceId url
    groupInstanceIndex := b.groupInstanceIndex.set groupId
      (OrderedSet.add ((b.groupInstanceIndex.get groupId).getD .empty) instanceId)
    groupsById := b.groupsById.modify groupId NetworkGroup.countCommitted }

/-- Find the retained body with the same fingerprint, or admit a new one below the cap. -/
def resolveOrAdmitBody (b : NetworkBuilder φ) (body : NetworkObservationBody) :
    NetworkBuilder φ × Option BodyId :=
  match b.bodyHashToBodyId.get body.fingerprint with
  | some existing =>
      ({ b with
          bodyRefCounts :=
            b.bodyRefCounts.set existing ((b.bodyRefCounts.get existing).getD 0 + 1) },
        some existing)
  | none =>
      if b.bodiesById.size ≥ BODIES_CAP then
        ({ b with summary := { b.summary with
            bodiesOmittedByBodyCap := b.summary.bodiesOmittedByBodyCap + 1 } }, none)
      else
        let bodyId : BodyId := ⟨b.nextBodyCounter⟩
        ({ b with
            nextBodyCounter := b.nextBodyCounter + 1
            bodiesById := b.bodiesById.set bodyId
              { id := bodyId
                content := body.content
                contentType := body.contentType
                truncated := body.truncated
                canonicalized := false
                fingerprint := body.fingerprint }
            bodyHashToBodyId := b.bodyHashToBodyId.set body.fingerprint bodyId
            bodyRefCounts := b.bodyRefCounts.set bodyId 1
            summary := { b.summary with
              bodiesTruncated :=
                if body.truncated then b.summary.bodiesTruncated + 1
                else b.summary.bodiesTruncated } },
          some bodyId)

/-- Resolve one payload of an observation and refer to it from the instance through `setRef`. -/
def commitBody (b : NetworkBuilder φ) (instanceId : InstanceId)
    (setRef : BodyId → NetworkInstance → NetworkInstance) :
    Option NetworkObservationBody → NetworkBuilder φ
  | none => b
  | some body =>
      match b.resolveOrAdmitBody body with
      | (resolved, none) => resolved
      | (resolved, some bodyId) =>
          { resolved with
            instancesById := resolved.instancesById.modify instanceId (setRef bodyId) }

/-- Refer to a body as the request payload. -/
def setRequestBodyRef (bodyId : BodyId) (inst : NetworkInstance) : NetworkInstance :=
  { inst with requestBodyRef := some bodyId }

/-- Refer to a body as the response payload. -/
def setResponseBodyRef (bodyId : BodyId) (inst : NetworkInstance) : NetworkInstance :=
  { inst with responseBodyRef := some bodyId }

/-- Attach both payloads of an observation to its instance. -/
def commitBodies (b : NetworkBuilder φ) (instanceId : InstanceId)
    (observation : NetworkObservation) : NetworkBuilder φ :=
  match b.instancesById.get instanceId with
  | none => b
  | some _ =>
      (b.commitBody instanceId setRequestBodyRef observation.requestBody).commitBody instanceId
        setResponseBodyRef observation.responseBody

/-! ## Admission -/

/-- Whether the `k`-th observation of a shape falls between two samples. -/
def isSuppressedDuplicate (k : ℕ) : Bool :=
  k > DUPLICATE_SAMPLE_THRESHOLD &&
    (k - DUPLICATE_SAMPLE_THRESHOLD) % DUPLICATE_SAMPLE_STRIDE != 0

/-- Note an observation in the metadata of its shape. -/
def noteObservation (b : NetworkBuilder φ) (fingerprint : φ) (offsetMs : Option ℚ) :
    NetworkBuilder φ :=
  { b with shapeMetadata :=
      b.shapeMetadata.modify fingerprint (ShapeMetadata.observe offsetMs) }

/-- Count a suppressed duplicate in its group and in the summary. -/
def suppressDuplicate (b : NetworkBuilder φ) (groupId : GroupId) : NetworkBuilder φ :=
  { b with
    groupsById := b.groupsById.modify groupId NetworkGroup.countSuppressed
    summary := { b.summary with
      instancesSuppressedAsDuplicate := b.summary.instancesSuppressedAsDuplicate + 1 } }

/-- Count a drop by the filter. -/
def dropByFilter (b : NetworkBuilder φ) : NetworkBuilder φ :=
  { b with summary := { b.summary with
      instancesDroppedByFilter := b.summary.instancesDroppedByFilter + 1 } }

/-- Count a drop by the group cap. -/
def dropByGroupCap (b : NetworkBuilder φ) : NetworkBuilder φ :=
  { b with summary := { b.summary with
      instancesDroppedByGroupCap := b.summary.instancesDroppedByGroupCap + 1 } }

/-- Count a drop by the instance cap. -/
def dropByInstanceCap (b : NetworkBuilder φ) : NetworkBuilder φ :=
  { b with summary := { b.summary with
      instancesDroppedByInstanceCap := b.summary.instancesDroppedByInstanceCap + 1 } }

/-- The last three calls of `admit`: group unless there is one, instance, bodies. -/
def commit (b : NetworkBuilder φ) (fingerprint : φ) (existingGroupId : Option GroupId)
    (observation : NetworkObservation) : NetworkBuilder φ :=
  let grouped :=
    match existingGroupId with
    | some _ => b
    | none => b.commitGroup fingerprint observation.shape observation.instance_.offsetMs
  let groupId := existingGroupId.getD ⟨b.nextGroupCounter⟩
  (grouped.commitInstance groupId observation.shape observation.instance_).commitBodies
    ⟨b.nextInstanceCounter⟩ observation

/-- The instance cap and the commitment that follows it. -/
def admitBelowInstanceCap (b : NetworkBuilder φ) (fingerprint : φ)
    (existingGroupId : Option GroupId) (observation : NetworkObservation) : NetworkBuilder φ :=
  if b.instancesById.size ≥ INSTANCES_CAP then
    match b.evictLowestPriorityInstance observation.shape.toPriorityShape with
    | none => b.dropByInstanceCap
    | some evicted => evicted.commit fingerprint existingGroupId observation
  else b.commit fingerprint existingGroupId observation

/-- Admit an observation that has passed the filter. -/
def admitPostFilter (hashShape : NetworkObservationShape → φ) (b : NetworkBuilder φ)
    (observation : NetworkObservation) : NetworkBuilder φ :=
  let fingerprint := hashShape observation.shape
  match b.fingerprintToGroupId.get fingerprint with
  | some existingGroupId =>
      let noted := b.noteObservation fingerprint observation.instance_.offsetMs
      let k := ((noted.shapeMetadata.get fingerprint).map (·.totalPostFilterObservations)).getD 1
      if isSuppressedDuplicate k then noted.suppressDuplicate existingGroupId
      else noted.admitBelowInstanceCap fingerprint (some existingGroupId) observation
  | none =>
      if b.groupsById.size ≥ GROUPS_CAP then
        match b.evictLowestPriorityGroup observation.shape.toPriorityShape with
        | none => b.dropByGroupCap
        | some evicted => evicted.admitBelowInstanceCap fingerprint none observation
      else b.admitBelowInstanceCap fingerprint none observation

/-- Count an observation. -/
def observe (b : NetworkBuilder φ) : NetworkBuilder φ :=
  { b with summary := { b.summary with observedInstances := b.summary.observedInstances + 1 } }

/-- The method `admit`. -/
def admitObservation (hashShape : NetworkObservationShape → φ) (b : NetworkBuilder φ)
    (observation : NetworkObservation) : NetworkBuilder φ :=
  if isLowSignalStaticAsset observation.shape.toPriorityShape then b.observe.dropByFilter
  else b.observe.admitPostFilter hashShape observation

/-- The builder after a sequence of `admit` calls. -/
def admitAll (hashShape : NetworkObservationShape → φ) (observations : List NetworkObservation) :
    NetworkBuilder φ :=
  observations.foldl (admitObservation hashShape) initial

/-- One more call of `admit`. -/
theorem admitAll_concat (hashShape : NetworkObservationShape → φ)
    (observations : List NetworkObservation) (observation : NetworkObservation) :
    admitAll hashShape (observations ++ [observation]) =
      (admitAll hashShape observations).admitObservation hashShape observation :=
  List.foldl_concat _ _ _ _

end NetworkBuilder

end CoreUtils.Reporter
