import CoreUtils.Reporter.NetworkAdmission
import CoreUtils.Reporter.NetworkOrigin
import CoreUtils.Reporter.NetworkProcessing
import CoreUtils.Reporter.ZipRecovery

/-!
# Shared bodies

Bodies with one fingerprint share one record, made of the body seen first while that record is
retained. The fingerprint covers the capped content and the content type, but not whether the
content was truncated: a body that is as long as the cap and ends in the marker shares its record
with a longer one. `Resolves` says what attaching a body does to the records, and
`keepsMetadata_concat_iff` for which observations a retained instance keeps the metadata of its own
bodies.
-/

namespace CoreUtils.Reporter

/-- The record that is made of a body. -/
def NetworkObservationBody.record (body : NetworkObservationBody) (id : BodyId) : NetworkBody where
  id := id
  content := body.content
  contentType := body.contentType
  truncated := body.truncated
  canonicalized := false
  fingerprint := body.fingerprint

/-- The bodies of an observation. -/
def NetworkObservation.bodies (observation : NetworkObservation) : List NetworkObservationBody :=
  observation.requestBody.toList ++ observation.responseBody.toList

/-- What a record says of a body. -/
structure SameMetadata (stored : NetworkBody) (body : NetworkObservationBody) : Prop where
  content : stored.content = body.content
  contentType : stored.contentType = body.contentType
  truncated : stored.truncated = body.truncated

/-- A reference leads to a record of the instance's own body. -/
def LeadsTo (bodies : OrderedMap BodyId NetworkBody) (ref : Option BodyId)
    (payload : Option NetworkObservationBody) : Prop :=
  ∀ id, ref = some id → ∃ stored body, bodies.get id = some stored ∧ payload = some body ∧
    SameMetadata stored body

/-- References that the earlier records resolve, the later ones resolve too. -/
theorem LeadsTo.mono {bodies later : OrderedMap BodyId NetworkBody} {ref : Option BodyId}
    {payload : Option NetworkObservationBody} (h : LeadsTo bodies ref payload)
    (hlater : ∀ {id stored}, bodies.get id = some stored → later.get id = some stored) :
    LeadsTo later ref payload := by
  intro id hid
  obtain ⟨stored, body, hstored, hrest⟩ := h id hid
  exact ⟨stored, body, hlater hstored, hrest⟩

/-- Every record was made of a body that satisfies `P`. -/
def Recorded (P : NetworkObservationBody → Prop) (bodies : OrderedMap BodyId NetworkBody) : Prop :=
  ∀ ⦃id stored⦄, bodies.get id = some stored → ∃ body, P body ∧ stored = body.record id

/-- The records with the fingerprint of a body agree with it about the truncation. -/
def Agrees (bodies : OrderedMap BodyId NetworkBody) (body : NetworkObservationBody) : Prop :=
  ∀ ⦃id stored⦄, bodies.get id = some stored → stored.fingerprint = body.fingerprint →
    stored.truncated = body.truncated

/-! ## Attaching one body -/

/-- What attaching a body does: the reference it gives, and the records after it. -/
inductive Resolves (bodies : OrderedMap BodyId NetworkBody) :
    Option NetworkObservationBody → Option BodyId → OrderedMap BodyId NetworkBody → Prop where
  | nothing : Resolves bodies none none bodies
  | shared {body : NetworkObservationBody} {id : BodyId} {stored : NetworkBody}
      (hget : bodies.get id = some stored) (hfingerprint : stored.fingerprint = body.fingerprint)
      (hunique : ∀ {id' stored'}, bodies.get id' = some stored' →
        stored'.fingerprint = body.fingerprint → id' = id) :
      Resolves bodies (some body) (some id) bodies
  | omitted {body : NetworkObservationBody} (hfull : BODIES_CAP ≤ bodies.size)
      (hnew : ∀ {id stored}, bodies.get id = some stored →
        stored.fingerprint ≠ body.fingerprint) :
      Resolves bodies (some body) none bodies
  | admitted {body : NetworkObservationBody} {id : BodyId} (hroom : bodies.size < BODIES_CAP)
      (hnew : ∀ {id stored}, bodies.get id = some stored →
        stored.fingerprint ≠ body.fingerprint)
      (hfree : bodies.get id = none) :
      Resolves bodies (some body) (some id) (bodies.set id (body.record id))

namespace Resolves

variable {bodies bodies' : OrderedMap BodyId NetworkBody}
  {payload : Option NetworkObservationBody} {ref : Option BodyId}

/-- No record is lost or changed. -/
theorem mono (h : Resolves bodies payload ref bodies') {id : BodyId} {stored : NetworkBody}
    (hget : bodies.get id = some stored) : bodies'.get id = some stored := by
  cases h with
  | nothing => exact hget
  | shared => exact hget
  | omitted => exact hget
  | @admitted body new _ _ hfree =>
      have hne : id ≠ new := by
        intro heq
        rw [heq, hfree] at hget
        contradiction
      simpa [hne] using hget

/-- A record is an earlier one, or made of the body that there was room for. -/
theorem origin (h : Resolves bodies payload ref bodies') {id : BodyId} {stored : NetworkBody}
    (hget : bodies'.get id = some stored) :
    bodies.get id = some stored ∨ bodies.size < BODIES_CAP ∧
      ∃ body, payload = some body ∧ stored = body.record id := by
  cases h with
  | nothing => exact .inl hget
  | shared => exact .inl hget
  | omitted => exact .inl hget
  | @admitted body new hroom _ _ =>
      rw [OrderedMap.get_set] at hget
      split at hget
      · rename_i heq
        exact .inr ⟨hroom, body, rfl, by rw [heq, ← Option.some.inj hget]⟩
      · exact .inl hget

/-- Records of satisfying bodies. -/
theorem recorded (h : Resolves bodies payload ref bodies') {P : NetworkObservationBody → Prop}
    (hrecorded : Recorded P bodies) (hpayload : ∀ body ∈ payload, P body) :
    Recorded P bodies' := by
  intro id stored hget
  rcases h.origin hget with hget | ⟨-, body, rfl, rfl⟩
  · exact hrecorded hget
  · exact ⟨body, hpayload body rfl, rfl⟩

/-- The reference leads to the body when the records agree with it. -/
theorem leadsTo (h : Resolves bodies payload ref bodies') {P : NetworkObservationBody → Prop}
    (hfree : ∀ {body other}, P body → P other → body.fingerprint = other.fingerprint →
      body.content = other.content ∧ body.contentType = other.contentType)
    (hrecorded : Recorded P bodies) (hpayload : ∀ body ∈ payload, P body)
    (hagrees : ∀ body ∈ payload, Agrees bodies body) : LeadsTo bodies' ref payload := by
  cases h with
  | nothing => exact fun id hid ↦ absurd hid (by simp)
  | omitted => exact fun id hid ↦ absurd hid (by simp)
  | @shared body id stored hget hfingerprint _ =>
      rintro _ ⟨⟩
      obtain ⟨first, hfirst, rfl⟩ := hrecorded hget
      obtain ⟨hcontent, hcontentType⟩ := hfree hfirst (hpayload body rfl) hfingerprint
      exact ⟨_, body, hget, rfl, hcontent, hcontentType, hagrees body rfl hget hfingerprint⟩
  | @admitted body id _ _ _ =>
      rintro _ ⟨⟩
      exact ⟨body.record id, body, by simp, rfl, rfl, rfl, rfl⟩

/-- The records agree with a body when its reference leads to it. -/
theorem agrees (h : Resolves bodies payload ref bodies') {later : OrderedMap BodyId NetworkBody}
    (hlater : ∀ {id stored}, bodies'.get id = some stored → later.get id = some stored)
    (hleads : LeadsTo later ref payload) : ∀ body ∈ payload, Agrees bodies body := by
  intro body hbody id stored hget hfingerprint
  cases h with
  | nothing => exact absurd hbody (by simp)
  | omitted _ hnew =>
      obtain rfl := Option.some.inj hbody
      exact absurd hfingerprint (hnew hget)
  | admitted _ hnew _ =>
      obtain rfl := Option.some.inj hbody
      exact absurd hfingerprint (hnew hget)
  | shared _ _ hunique =>
      obtain rfl := Option.some.inj hbody
      obtain rfl := hunique hget hfingerprint
      obtain ⟨found, own, hfound, ⟨⟩, hsame⟩ := hleads id rfl
      obtain rfl := Option.some.inj ((hlater hget).symm.trans hfound)
      exact hsame.truncated

/-- While there is room for one more record, a body has one afterwards. -/
theorem found (h : Resolves bodies payload ref bodies') (hroom : bodies.size < BODIES_CAP)
    (hagrees : ∀ body ∈ payload, Agrees bodies body) :
    ∀ body ∈ payload, ∃ id stored, bodies'.get id = some stored ∧
      stored.fingerprint = body.fingerprint ∧ stored.truncated = body.truncated := by
  intro body hbody
  cases h with
  | nothing => exact absurd hbody (by simp)
  | omitted hfull _ => exact absurd hroom (Nat.not_lt.mpr hfull)
  | @shared _ id stored hget hfingerprint _ =>
      obtain rfl := Option.some.inj hbody
      exact ⟨id, stored, hget, hfingerprint, hagrees _ rfl hget hfingerprint⟩
  | @admitted _ id _ _ _ =>
      obtain rfl := Option.some.inj hbody
      exact ⟨id, _, (OrderedMap.get_set _ _ _ _).trans (if_pos rfl), rfl, rfl⟩

end Resolves

namespace NetworkBuilder

variable {φ : Type} {b r : NetworkBuilder φ}

/-! ## Making room -/

/-- Nothing was added to the instances and the bodies, and the counter of instances stands. -/
structure Shrunk (b r : NetworkBuilder φ) : Prop where
  instances : ∀ {i inst}, r.instancesById.get i = some inst → b.instancesById.get i = some inst
  bodies : ∀ {id body}, r.bodiesById.get id = some body → b.bodiesById.get id = some body
  nextInstance : r.nextInstanceCounter = b.nextInstanceCounter

/-- Builders that agree on the instances and the bodies. -/
theorem Shrunk.of_eq (hinstances : r.instancesById = b.instancesById)
    (hbodies : r.bodiesById = b.bodiesById)
    (hnext : r.nextInstanceCounter = b.nextInstanceCounter) : Shrunk b r :=
  ⟨fun h ↦ hinstances ▸ h, fun h ↦ hbodies ▸ h, hnext⟩

/-- Two removals. -/
theorem Shrunk.trans {c : NetworkBuilder φ} (h : Shrunk b c) (h' : Shrunk c r) : Shrunk b r :=
  ⟨fun hi ↦ h.instances (h'.instances hi), fun hid ↦ h.bodies (h'.bodies hid),
    h'.nextInstance.trans h.nextInstance⟩

/-- Dropping a reference to a body. -/
theorem shrunk_decrementBodyRef (b : NetworkBuilder φ) (ref : Option BodyId) :
    Shrunk b (b.decrementBodyRef ref) := by
  cases ref with
  | none => exact .of_eq rfl rfl rfl
  | some bodyId =>
      unfold decrementBodyRef
      simp only
      split
      · exact ⟨id, OrderedMap.get_of_get_delete, rfl⟩
      · exact .of_eq rfl rfl rfl

/-- Releasing an instance. -/
theorem shrunk_releaseInstance (b : NetworkBuilder φ) (i : InstanceId) (inst : NetworkInstance)
    (countAsEviction : Bool) : Shrunk b (b.releaseInstance i inst countAsEviction) := by
  unfold releaseInstance
  have hcounted : Shrunk b (if countAsEviction then b.countEviction inst.groupId else b) := by
    split
    · exact .of_eq rfl rfl rfl
    · exact .of_eq rfl rfl rfl
  have hforgotten : ∀ c : NetworkBuilder φ, Shrunk c (c.forgetInstance i inst.groupId) :=
    fun c ↦ ⟨OrderedMap.get_of_get_delete, id, rfl⟩
  exact ((hcounted.trans (hforgotten _)).trans (shrunk_decrementBodyRef _ _)).trans
    (shrunk_decrementBodyRef _ _)

variable [DecidableEq φ]

/-- Removing an instance. -/
theorem shrunk_removeInstance (b : NetworkBuilder φ) (i : InstanceId)
    (countAsEviction skipEmptyGroupCleanup : Bool) :
    Shrunk b (b.removeInstance i countAsEviction skipEmptyGroupCleanup) := by
  unfold removeInstance
  split
  · exact .of_eq rfl rfl rfl
  · rename_i inst hinst
    have hreleased := b.shrunk_releaseInstance i inst countAsEviction
    simp only
    split
    · split
      · exact hreleased.trans (.of_eq rfl rfl rfl)
      · exact hreleased.trans (.of_eq rfl rfl rfl)
    · exact hreleased

/-- Removing a group. -/
theorem shrunk_removeGroup (b : NetworkBuilder φ) (g : GroupId) (countCascadedEvictions : Bool) :
    Shrunk b (b.removeGroup g countCascadedEvictions) := by
  unfold removeGroup
  split
  · exact .of_eq rfl rfl rfl
  · have hemptied := List.foldlRecOn (motive := fun current : NetworkBuilder φ ↦ Shrunk b current)
      (((b.groupInstanceIndex.get g).map OrderedMap.keys).getD [])
      (fun current i ↦ current.removeInstance i countCascadedEvictions true) (.of_eq rfl rfl rfl)
      fun current hcurrent i _ ↦ hcurrent.trans (current.shrunk_removeInstance i _ true)
    exact hemptied.trans (.of_eq rfl rfl rfl)

/-- Which observation of its shape this is. -/
def occurrence (hashShape : NetworkObservationShape → φ) (b : NetworkBuilder φ)
    (observation : NetworkObservation) : ℕ :=
  (((b.noted hashShape observation).shapeMetadata.get (hashShape observation.shape)).map
    (·.totalPostFilterObservations)).getD 1

/-- The builder below the instance cap, if there is room or can be. -/
def roomForInstance (b : NetworkBuilder φ) (observation : NetworkObservation) :
    Option (NetworkBuilder φ) :=
  if b.instancesById.size ≥ INSTANCES_CAP then
    b.evictLowestPriorityInstance observation.shape.toPriorityShape
  else some b

/-- The builder that an observation is committed to, if it is: `admit` has noted the observation and
made room for it. -/
def roomFor (hashShape : NetworkObservationShape → φ) (b : NetworkBuilder φ)
    (observation : NetworkObservation) : Option (NetworkBuilder φ) :=
  if isLowSignalStaticAsset observation.shape.toPriorityShape then none
  else
    match b.fingerprintToGroupId.get (hashShape observation.shape) with
    | some _ =>
        if isSuppressedDuplicate (b.occurrence hashShape observation) then none
        else (b.noted hashShape observation).roomForInstance observation
    | none =>
        if b.groupsById.size ≥ GROUPS_CAP then
          (b.observe.evictLowestPriorityGroup observation.shape.toPriorityShape).bind
            (·.roomForInstance observation)
        else b.observe.roomForInstance observation

/-- The instance cap: a commitment to the builder with room, or a drop. -/
theorem admitBelowInstanceCap_eq (b : NetworkBuilder φ) (fingerprint : φ)
    (existing : Option GroupId) (observation : NetworkObservation) :
    b.admitBelowInstanceCap fingerprint existing observation =
      ((b.roomForInstance observation).map
        (·.commit fingerprint existing observation)).getD b.dropByInstanceCap := by
  unfold admitBelowInstanceCap roomForInstance
  split
  · cases b.evictLowestPriorityInstance observation.shape.toPriorityShape with
    | none => rfl
    | some evicted => rfl
  · rfl

/-- Room for an instance is made by removing one. -/
theorem roomForInstance_spec {hashShape : NetworkObservationShape → φ}
    (h : b.Invariant hashShape 1) {observation : NetworkObservation} {c : NetworkBuilder φ}
    (hc : b.roomForInstance observation = some c) : c.Invariant hashShape 1 ∧ Shrunk b c := by
  unfold roomForInstance at hc
  split at hc
  · obtain ⟨i, inst, hi, rfl, -, -⟩ :=
      victim_of_evictInstance hc fun hi ↦ h.groups.instance_group hi
    exact ⟨(removeInstance_spec h hi).1, b.shrunk_removeInstance i true false⟩
  · obtain rfl := Option.some.inj hc
    exact ⟨h, .of_eq rfl rfl rfl⟩

/-- A call of `admit` commits to the builder with room, or adds nothing. -/
theorem admitObservation_cases {hashShape : NetworkObservationShape → φ}
    (h : b.Invariant hashShape 0) (observation : NetworkObservation) :
    (∃ c, b.roomFor hashShape observation = some c ∧ c.Invariant hashShape 1 ∧ Shrunk b c ∧
      b.admitObservation hashShape observation = c.commit (hashShape observation.shape)
        (b.fingerprintToGroupId.get (hashShape observation.shape)) observation) ∨
      (b.roomFor hashShape observation = none ∧
        Shrunk b (b.admitObservation hashShape observation)) := by
  have hbelow : ∀ (c : NetworkBuilder φ) (existing : Option GroupId), c.Invariant hashShape 1 →
      Shrunk b c → (∃ d, c.roomForInstance observation = some d ∧ d.Invariant hashShape 1 ∧
        Shrunk b d ∧ c.admitBelowInstanceCap (hashShape observation.shape) existing observation =
          d.commit (hashShape observation.shape) existing observation) ∨
        (c.roomForInstance observation = none ∧ Shrunk b
          (c.admitBelowInstanceCap (hashShape observation.shape) existing observation)) := by
    intro c existing hc hshrunk
    rw [admitBelowInstanceCap_eq]
    cases hroom : c.roomForInstance observation with
    | none => exact .inr ⟨rfl, hshrunk.trans (.of_eq rfl rfl rfl)⟩
    | some d =>
        obtain ⟨hd, hcd⟩ := roomForInstance_spec hc hroom
        exact .inl ⟨d, rfl, hd, hshrunk.trans hcd, rfl⟩
  have hnoted := noted_invariant h observation
  unfold admitObservation roomFor
  split
  · exact .inr ⟨rfl, .of_eq rfl rfl rfl⟩
  · cases hexisting : b.fingerprintToGroupId.get (hashShape observation.shape) with
    | some g =>
        have hobserved : b.observe.fingerprintToGroupId.get (hashShape observation.shape) =
          some g := hexisting
        have hpost : b.observe.admitPostFilter hashShape observation =
            if isSuppressedDuplicate (b.occurrence hashShape observation) then
              (b.noted hashShape observation).suppressDuplicate g
            else (b.noted hashShape observation).admitBelowInstanceCap
              (hashShape observation.shape) (some g) observation := by
          simp only [admitPostFilter, hobserved, occurrence, noted]
          rfl
        rw [hpost]
        by_cases hsuppressed : isSuppressedDuplicate (b.occurrence hashShape observation) = true
        · simp only [hsuppressed, if_true]
          exact .inr ⟨trivial, .of_eq rfl rfl rfl⟩
        · simp only [hsuppressed]
          exact hbelow _ (some g) hnoted (.of_eq rfl rfl rfl)
    | none =>
        have hobserved : b.observe.fingerprintToGroupId.get (hashShape observation.shape) =
          none := hexisting
        rw [noted_of_new h hexisting] at hnoted
        have hsize : b.observe.groupsById.size = b.groupsById.size := rfl
        simp only [admitPostFilter, hobserved, hsize]
        by_cases hfull : b.groupsById.size ≥ GROUPS_CAP
        · simp only [hfull, if_true]
          cases hevict : b.observe.evictLowestPriorityGroup observation.shape.toPriorityShape with
          | none => exact .inr ⟨rfl, .of_eq rfl rfl rfl⟩
          | some c =>
              obtain ⟨g, group, hg, rfl, -, -⟩ := victim_of_evictGroup hevict
              have hshrunk : Shrunk b b.observe := .of_eq rfl rfl rfl
              exact hbelow _ none (removeGroup_spec hnoted hg).1
                (hshrunk.trans (b.observe.shrunk_removeGroup g true))
        · simp only [hfull, if_false]
          exact hbelow _ none hnoted (.of_eq rfl rfl rfl)

/-! ## Committing -/

omit [DecidableEq φ] in
/-- What attaching a body does to the records, and where the reference is written. -/
theorem commitBody_resolves (h : b.BodiesLinked fun _ ↦ 0) (i : InstanceId)
    (setRef : BodyId → NetworkInstance → NetworkInstance)
    (payload : Option NetworkObservationBody) :
    ∃ ref, Resolves b.bodiesById payload ref (b.commitBody i setRef payload).bodiesById ∧
      (b.commitBody i setRef payload).instancesById =
        ref.elim b.instancesById fun id ↦ b.instancesById.modify i (setRef id) := by
  cases payload with
  | none => exact ⟨none, .nothing, rfl⟩
  | some body =>
      cases hhash : b.bodyHashToBodyId.get body.fingerprint with
      | some existing =>
          obtain ⟨stored, hstored, hfingerprint⟩ := h.hash_iff.mp hhash
          simp only [commitBody, resolveOrAdmitBody, hhash]
          refine ⟨some existing, .shared hstored hfingerprint fun {id other} hother hsame ↦ ?_, rfl⟩
          have hid := h.hash_iff.mpr ⟨other, hother, hsame⟩
          exact Option.some.inj (hid.symm.trans hhash)
      | none =>
          have hnew : ∀ {id stored}, b.bodiesById.get id = some stored →
              stored.fingerprint ≠ body.fingerprint := by
            intro id stored hstored hsame
            have hid := h.hash_iff.mpr ⟨stored, hstored, hsame⟩
            exact absurd (hid.symm.trans hhash) (by simp)
          simp only [commitBody, resolveOrAdmitBody, hhash]
          by_cases hfull : b.bodiesById.size ≥ BODIES_CAP
          · simp only [hfull, if_true]
            exact ⟨none, .omitted hfull hnew, rfl⟩
          · have hfree : b.bodiesById.get ⟨b.nextBodyCounter⟩ = none := by
              cases hget : b.bodiesById.get ⟨b.nextBodyCounter⟩ with
              | none => rfl
              | some stored => exact absurd (h.body_fresh hget) (Nat.lt_irrefl _)
            simp only [hfull, if_false]
            exact ⟨some ⟨b.nextBodyCounter⟩, .admitted (by omega) hnew hfree, rfl⟩

/-- What a commitment does: the two bodies are attached one after the other, and the instance is
entered with their references. -/
structure Attached (observation : NetworkObservation) (requestRef responseRef : Option BodyId)
    (between : OrderedMap BodyId NetworkBody) (c r : NetworkBuilder φ) : Prop where
  request : Resolves c.bodiesById observation.requestBody requestRef between
  response : Resolves between observation.responseBody responseRef r.bodiesById
  nextInstance : r.nextInstanceCounter = c.nextInstanceCounter + 1
  instances : ∃ g, ∀ i, r.instancesById.get i = if i = ⟨c.nextInstanceCounter⟩ then
    some (observation.record i g requestRef responseRef) else c.instancesById.get i

/-- A commitment attaches the bodies of the observation to its instance. -/
theorem commit_attached {hashShape : NetworkObservationShape → φ} {c : NetworkBuilder φ}
    (h : c.Invariant hashShape 1) (fingerprint : φ) (existing : Option GroupId)
    (observation : NetworkObservation) :
    ∃ requestRef responseRef between, Attached observation requestRef responseRef between c
      (c.commit fingerprint existing observation) := by
  set g := existing.getD ⟨c.nextGroupCounter⟩ with hg
  set i : InstanceId := ⟨c.nextInstanceCounter⟩ with hi
  set entered := (c.ensureGroup fingerprint observation existing).commitInstance g
    observation.shape observation.instance_ with hentered
  have hinstances : entered.instancesById =
      c.instancesById.set i (observation.record i g none none) := by
    rw [hentered]
    cases existing <;> rfl
  have hbodies : entered.bodiesById = c.bodiesById := by
    rw [hentered]
    cases existing <;> rfl
  have hnext : entered.nextInstanceCounter = c.nextInstanceCounter + 1 := by
    rw [hentered]
    cases existing <;> rfl
  have hget : entered.instancesById.get i = some (observation.record i g none none) := by
    rw [hinstances]
    simp
  have hlinked : entered.BodiesLinked fun _ ↦ 0 := by
    -- the new instance refers to nothing yet
    have hmoved : Reporter.BodiesLinked entered.instancesById c.bodiesById c.bodyHashToBodyId
        c.bodyRefCounts c.nextBodyCounter fun _ ↦ 0 := by
      refine h.bodies.of_instances fun id ↦ ?_
      rw [hinstances, references, references,
        OrderedMap.total_set_of_get_none h.groups.instance_free]
      rfl
    rw [hentered] at hmoved ⊢
    cases existing <;> exact hmoved
  have hcommitBodies : c.commit fingerprint existing observation =
      entered.commitBodies i observation := by
    rw [hentered]
    cases existing <;> rfl
  have hcommit : c.commit fingerprint existing observation =
      (entered.commitBody i setRequestBodyRef observation.requestBody).commitBody i
        setResponseBodyRef observation.responseBody := by
    rw [hcommitBodies, commitBodies, hget]
  obtain ⟨requestRef, hrequest, hrequestInstances⟩ :=
    commitBody_resolves hlinked i setRequestBodyRef observation.requestBody
  obtain ⟨_, _, _, _, _, _, _, _, heq, _, hlinked'⟩ :=
    commitBody_spec setRequestBodyRef hlinked (hbodies ▸ h.bodies_cap) hget
      (fun bodyId id ↦ by
        simp only [NetworkInstance.references, setRequestBodyRef, NetworkObservation.record,
          refersTo_none]
        omega)
      observation.requestBody
  obtain ⟨responseRef, hresponse, hresponseInstances⟩ :=
    commitBody_resolves hlinked' i setResponseBodyRef observation.responseBody
  refine ⟨requestRef, responseRef, _, hbodies ▸ hrequest, hcommit ▸ hresponse, ?_, g, fun j ↦ ?_⟩
  · obtain ⟨_, _, _, _, _, _, _, _, hframe⟩ := entered.commitBodies_frame i observation
    rw [hcommitBodies, hframe]
    exact hnext
  · rw [hcommit, hresponseInstances, hrequestInstances, hinstances, ← hi]
    by_cases hj : j = i
    · cases requestRef <;> cases responseRef <;>
        simp [hj, NetworkObservation.record, setRequestBodyRef, setResponseBodyRef]
    · cases requestRef <;> cases responseRef <;> simp [hj]

/-! ## Runs -/

/-- Every retained instance refers to the records of its own bodies. -/
def Keeps (created : InstanceId → NetworkObservation → Prop) (b : NetworkBuilder φ) : Prop :=
  ∀ ⦃i inst observation⦄, b.instancesById.get i = some inst → created i observation →
    LeadsTo b.bodiesById inst.requestBodyRef observation.requestBody ∧
      LeadsTo b.bodiesById inst.responseBodyRef observation.responseBody

/-- After these observations, every retained instance refers to the records of the bodies of the
observation that it was created by. -/
def KeepsMetadata (hashShape : NetworkObservationShape → φ)
    (observations : List NetworkObservation) : Prop :=
  Keeps (CreatedBy hashShape observations) (admitAll hashShape observations)

/-- If an observation is committed, the records that its bodies find agree with them about the
truncation, and so do its two bodies with one another when one of them may be the record of the
other. -/
def StepAgrees (hashShape : NetworkObservationShape → φ) (b : NetworkBuilder φ)
    (observation : NetworkObservation) : Prop :=
  ∀ c, b.roomFor hashShape observation = some c →
    (∀ body ∈ observation.bodies, Agrees c.bodiesById body) ∧
      (c.bodiesById.size < BODIES_CAP → ∀ request ∈ observation.requestBody,
        ∀ response ∈ observation.responseBody, request.fingerprint = response.fingerprint →
          request.truncated = response.truncated)

omit [DecidableEq φ] in
/-- A retained instance counts among the references to its bodies. -/
theorem references_pos {instances : OrderedMap InstanceId NetworkInstance} {i : InstanceId}
    {inst : NetworkInstance} (hi : instances.get i = some inst) {id : BodyId}
    (hid : inst.requestBodyRef = some id ∨ inst.responseBodyRef = some id) :
    0 < references instances id := by
  have htotal := OrderedMap.total_delete hi fun _ inst ↦ inst.references id
  have hown : 0 < inst.references id := by
    rcases hid with hid | hid
    · simp [NetworkInstance.references, hid, refersTo]
    · simp [NetworkInstance.references, hid, refersTo]
  simp only [references]
  omega

/-- Removing instances leaves the others their bodies. -/
theorem Keeps.shrunk {created : InstanceId → NetworkObservation → Prop} (h : Keeps created b)
    {hashShape : NetworkObservationShape → φ} {pending : ℕ} (hr : r.Invariant hashShape pending)
    (hshrunk : Shrunk b r) : Keeps created r := by
  intro i inst observation hi hcreated
  obtain ⟨hrequest, hresponse⟩ := h (hshrunk.instances hi) hcreated
  have hkept : ∀ {ref payload}, LeadsTo b.bodiesById ref payload →
      (∀ id, ref = some id → 0 < references r.instancesById id) →
      LeadsTo r.bodiesById ref payload := by
    intro ref payload hleads hpos id hid
    obtain ⟨stored, body, hstored, hpayload, hsame⟩ := hleads id hid
    obtain ⟨kept, hget⟩ := hr.bodies.body_of_count (hr.bodies.count_of_owed (hpos id hid))
    obtain rfl := Option.some.inj ((hshrunk.bodies hget).symm.trans hstored)
    exact ⟨kept, body, hget, hpayload, hsame⟩
  exact ⟨hkept hrequest fun id hid ↦ references_pos hi (.inl hid),
    hkept hresponse fun id hid ↦ references_pos hi (.inr hid)⟩

section

variable {hashShape : NetworkObservationShape → φ}

/-- The counter of instances never goes back. -/
theorem nextInstance_le (hashShape : NetworkObservationShape → φ)
    (before after : List NetworkObservation) :
    (admitAll hashShape before).nextInstanceCounter ≤
      (admitAll hashShape (before ++ after)).nextInstanceCounter := by
  induction after using List.reverseRecOn with
  | nil => rw [List.append_nil]
  | append_singleton after observation ih =>
      rw [← List.append_assoc, admitAll_concat]
      rcases (originated_admitAll hashShape (before ++ after)).admitObservation hashShape
        observation with h | h
      · exact ih.trans h.nextInstance.ge
      · exact ih.trans ((Nat.le_succ _).trans h.nextInstance.ge)

/-- What was created has a number below the counter. -/
theorem CreatedBy.lt_nextInstance {observations : List NetworkObservation} {i : InstanceId}
    {observation : NetworkObservation} (h : CreatedBy hashShape observations i observation) :
    i.counter < (admitAll hashShape observations).nextInstanceCounter := by
  obtain ⟨before, after, rfl, -, hafter⟩ := h
  have hle := nextInstance_le hashShape (before ++ [observation]) after
  rw [hafter, List.append_assoc, List.singleton_append] at hle
  exact hle

/-- One more observation creates at most the next instance. -/
theorem CreatedBy.of_concat {observations : List NetworkObservation} {i : InstanceId}
    {observation other : NetworkObservation}
    (h : CreatedBy hashShape (observations ++ [observation]) i other) :
    CreatedBy hashShape observations i other ∨ other = observation ∧
      (admitAll hashShape observations).nextInstanceCounter = i.counter ∧
      (admitAll hashShape (observations ++ [observation])).nextInstanceCounter =
        i.counter + 1 := by
  obtain ⟨before, after, heq, hbefore, hafter⟩ := h
  rcases Text.concat_eq_append_cons.mp heq with ⟨rfl, rfl, -⟩ | ⟨later, -, hsplit⟩
  · exact .inr ⟨rfl, hbefore, hafter⟩
  · exact .inl ⟨before, later, hsplit, hbefore, hafter⟩

/-- Every record was made of a body of an observation. -/
theorem recorded_admitAll (hinj : Function.Injective hashShape) {P : NetworkObservationBody → Prop}
    {observations : List NetworkObservation}
    (hP : ∀ observation ∈ observations, ∀ body ∈ observation.bodies, P body) :
    Recorded P (admitAll hashShape observations).bodiesById := by
  induction observations using List.reverseRecOn with
  | nil => exact fun _ _ hget ↦ absurd hget (by simp [admitAll, initial])
  | append_singleton observations observation ih =>
      have hrecorded := ih fun other hother ↦ hP other (List.mem_append_left _ hother)
      have hown := hP observation (by simp)
      rw [admitAll_concat]
      rcases admitObservation_cases (admitAll_invariant hinj observations) observation with
        ⟨c, -, hc, hshrunk, heq⟩ | ⟨-, hshrunk⟩
      · rw [heq]
        obtain ⟨_, _, _, hattached⟩ := commit_attached hc (hashShape observation.shape)
          ((admitAll hashShape observations).fingerprintToGroupId.get
            (hashShape observation.shape)) observation
        refine hattached.response.recorded (hattached.request.recorded
          (fun _ _ hget ↦ hrecorded (hshrunk.bodies hget)) fun body hbody ↦ hown body ?_)
          fun body hbody ↦ hown body ?_
        · exact List.mem_append_left _ (Option.mem_toList.mpr hbody)
        · exact List.mem_append_right _ (Option.mem_toList.mpr hbody)
      · exact fun _ _ hget ↦ hrecorded (hshrunk.bodies hget)

/-- When the metadata is kept after one more observation, the step agreed. -/
theorem KeepsMetadata.stepAgrees (hinj : Function.Injective hashShape)
    {observations : List NetworkObservation} {observation : NetworkObservation}
    (hkept : KeepsMetadata hashShape (observations ++ [observation])) :
    StepAgrees hashShape (admitAll hashShape observations) observation := by
  intro c' hroom'
  rcases admitObservation_cases (admitAll_invariant hinj observations) observation with
    ⟨c, hroom, hc, hshrunk, heq⟩ | ⟨hroom, -⟩
  · obtain rfl := Option.some.inj (hroom.symm.trans hroom')
    obtain ⟨requestRef, responseRef, between, hattached⟩ := commit_attached hc
      (hashShape observation.shape)
      ((admitAll hashShape observations).fingerprintToGroupId.get (hashShape observation.shape))
      observation
    rw [← heq, ← admitAll_concat] at hattached
    obtain ⟨g, hinstances⟩ := hattached.instances
    have hnew : CreatedBy hashShape (observations ++ [observation])
        ⟨c.nextInstanceCounter⟩ observation :=
      ⟨observations, [], rfl, hshrunk.nextInstance.symm, hattached.nextInstance⟩
    obtain ⟨hrequest, hresponse⟩ := hkept ((hinstances _).trans (if_pos rfl)) hnew
    have hrequestAgrees := hattached.request.agrees hattached.response.mono hrequest
    have hresponseAgrees := hattached.response.agrees id hresponse
    refine ⟨fun body hbody ↦ ?_, fun hsize request hmem response hmem' hsame ↦ ?_⟩
    · rcases List.mem_append.mp hbody with hbody | hbody
      · exact hrequestAgrees body (Option.mem_toList.mp hbody)
      · intro id stored hget
        exact hresponseAgrees body (Option.mem_toList.mp hbody) (hattached.request.mono hget)
    · obtain ⟨id, stored, hget, hfingerprint, htruncated⟩ :=
        hattached.request.found hsize hrequestAgrees request hmem
      rw [← htruncated]
      exact hresponseAgrees response hmem' hget (hfingerprint.trans hsame)
  · rw [hroom] at hroom'
    contradiction

/-- A run that has kept the metadata keeps it through one more observation when the step agrees. -/
theorem KeepsMetadata.concat (hinj : Function.Injective hashShape)
    {P : NetworkObservationBody → Prop}
    (hfree : ∀ {body other}, P body → P other → body.fingerprint = other.fingerprint →
      body.content = other.content ∧ body.contentType = other.contentType)
    {observations : List NetworkObservation} {observation : NetworkObservation}
    (hP : ∀ other ∈ observations ++ [observation], ∀ body ∈ other.bodies, P body)
    (hkeeps : KeepsMetadata hashShape observations)
    (hagrees : StepAgrees hashShape (admitAll hashShape observations) observation) :
    KeepsMetadata hashShape (observations ++ [observation]) := by
  have hinvariant := admitAll_invariant hinj observations
  intro i inst other hi hcreated
  rcases admitObservation_cases hinvariant observation with
    ⟨c, hroom, hc, hshrunk, heq⟩ | ⟨-, hshrunk⟩
  · obtain ⟨requestRef, responseRef, between, hattached⟩ := commit_attached hc
      (hashShape observation.shape)
      ((admitAll hashShape observations).fingerprintToGroupId.get (hashShape observation.shape))
      observation
    rw [← heq, ← admitAll_concat] at hattached
    obtain ⟨g, hinstances⟩ := hattached.instances
    rw [hinstances] at hi
    split at hi
    · rename_i hid
      obtain rfl := Option.some.inj hi
      -- the number of the new instance is that of no earlier one
      have hother : other = observation := by
        rcases hcreated.of_concat with hearlier | ⟨hother, -⟩
        · have hlt := hearlier.lt_nextInstance
          rw [hid, hshrunk.nextInstance] at hlt
          exact absurd hlt (Nat.lt_irrefl _)
        · exact hother
      rw [hother]
      have hown := hP observation (by simp)
      have hrequestP : ∀ body ∈ observation.requestBody, P body := fun body hbody ↦
        hown body (List.mem_append_left _ (Option.mem_toList.mpr hbody))
      have hresponseP : ∀ body ∈ observation.responseBody, P body := fun body hbody ↦
        hown body (List.mem_append_right _ (Option.mem_toList.mpr hbody))
      have hrecorded : Recorded P c.bodiesById := fun _ _ hget ↦
        recorded_admitAll hinj (fun other hother ↦ hP other (List.mem_append_left _ hother))
          (hshrunk.bodies hget)
      have hbetween : Recorded P between := hattached.request.recorded hrecorded hrequestP
      obtain ⟨hbodies, hpair⟩ := hagrees c hroom
      refine ⟨(hattached.request.leadsTo hfree hrecorded hrequestP fun body hbody ↦
          hbodies body (List.mem_append_left _ (Option.mem_toList.mpr hbody))).mono
            hattached.response.mono,
        hattached.response.leadsTo hfree hbetween hresponseP fun body hbody id stored hget
          hfingerprint ↦ ?_⟩
      rcases hattached.request.origin hget with hget | ⟨hsize, request, hrequest, rfl⟩
      · exact hbodies body (List.mem_append_right _ (Option.mem_toList.mpr hbody)) hget
          hfingerprint
      · exact hpair hsize request hrequest body hbody hfingerprint
    · rename_i hid
      have hearlier : CreatedBy hashShape observations i other := by
        rcases hcreated.of_concat with hearlier | ⟨-, hcounter, -⟩
        · exact hearlier
        · exact absurd (by rw [hshrunk.nextInstance, hcounter]) hid
      have hlater : ∀ {id stored}, c.bodiesById.get id = some stored →
          (admitAll hashShape (observations ++ [observation])).bodiesById.get id = some stored :=
        fun hget ↦ hattached.response.mono (hattached.request.mono hget)
      obtain ⟨hrequest, hresponse⟩ := hkeeps.shrunk hc hshrunk hi hearlier
      exact ⟨hrequest.mono hlater, hresponse.mono hlater⟩
  · rw [admitAll_concat] at hi ⊢
    refine hkeeps.shrunk (admit_invariant hinvariant hinj observation) hshrunk hi ?_
    rcases hcreated.of_concat with hearlier | ⟨-, hcounter, hnext⟩
    · exact hearlier
    · rw [admitAll_concat, hshrunk.nextInstance, hcounter] at hnext
      omega

/-- A run that has kept the metadata keeps it through one more observation exactly when the step
agrees. -/
theorem keepsMetadata_concat_iff (hinj : Function.Injective hashShape)
    {P : NetworkObservationBody → Prop}
    (hfree : ∀ {body other}, P body → P other → body.fingerprint = other.fingerprint →
      body.content = other.content ∧ body.contentType = other.contentType)
    {observations : List NetworkObservation} {observation : NetworkObservation}
    (hP : ∀ other ∈ observations ++ [observation], ∀ body ∈ other.bodies, P body)
    (hkeeps : KeepsMetadata hashShape observations) :
    KeepsMetadata hashShape (observations ++ [observation]) ↔
      StepAgrees hashShape (admitAll hashShape observations) observation :=
  ⟨fun hkept ↦ hkept.stepAgrees hinj, hkeeps.concat hinj hfree hP⟩

/-- A step agrees when no two bodies seen so far differ in the truncation alone. -/
theorem stepAgrees_of_unambiguous (hinj : Function.Injective hashShape)
    {P : NetworkObservationBody → Prop}
    (hsame : ∀ {body other}, P body → P other → body.fingerprint = other.fingerprint →
      body.truncated = other.truncated)
    {observations : List NetworkObservation} {observation : NetworkObservation}
    (hP : ∀ other ∈ observations ++ [observation], ∀ body ∈ other.bodies, P body) :
    StepAgrees hashShape (admitAll hashShape observations) observation := by
  intro c hc
  have hown := hP observation (by simp)
  rcases admitObservation_cases (admitAll_invariant hinj observations) observation with
    ⟨c', hroom, -, hshrunk, -⟩ | ⟨hroom, -⟩
  · obtain rfl := Option.some.inj (hc.symm.trans hroom)
    refine ⟨fun body hbody id stored hget hfingerprint ↦ ?_,
      fun _ request hrequest response hresponse hfingerprint ↦ hsame (hown request ?_)
        (hown response ?_) hfingerprint⟩
    · obtain ⟨first, hfirst, rfl⟩ := recorded_admitAll hinj
        (fun other hother ↦ hP other (List.mem_append_left _ hother)) (hshrunk.bodies hget)
      exact hsame hfirst (hown body hbody) hfingerprint
    · exact List.mem_append_left _ (Option.mem_toList.mpr hrequest)
    · exact List.mem_append_right _ (Option.mem_toList.mpr hresponse)
  · rw [hc] at hroom
    contradiction

end

/-! ## Bodies of a trace -/

section

open Trace

/-- The bodies of an observation were read from a trace. -/
def ReadFromTrace (platform : Platform) (sha1 : CodeUnits × Option String → String)
    (observation : NetworkObservation) : Prop :=
  ∀ body ∈ observation.bodies, ∃ archiveEntries record,
    readTraceResourceBody platform sha1 archiveEntries record = some body

/-- What is hashed for the bodies of the observations. -/
def hashedInputs (observations : List NetworkObservation) : Set (CodeUnits × Option String) :=
  {input | ∃ observation ∈ observations, ∃ body ∈ observation.bodies,
    input = (body.content, body.contentType)}

/-- A body that was read carries the digest of its content and content type. -/
theorem fingerprint_of_read {platform : Platform} {sha1 : CodeUnits × Option String → String}
    {archiveEntries : Zip.Entries} {record : Option Json} {body : NetworkObservationBody}
    (h : readTraceResourceBody platform sha1 archiveEntries record = some body) :
    body.fingerprint = sha1 (body.content, body.contentType) := by
  unfold readTraceResourceBody at h
  obtain ⟨traceBodyRecord, -, h⟩ := Option.bind_eq_some_iff.mp h
  simp only at h
  split at h
  · contradiction
  · obtain ⟨resourceSha, -, h⟩ := Option.bind_eq_some_iff.mp h
    obtain ⟨resourceContent, -, h⟩ := Option.bind_eq_some_iff.mp h
    obtain rfl := Option.some.inj h
    rfl

/-- Along a run the retained instances keep the metadata of their own bodies, in every state,
exactly when every step agrees. -/
theorem metadata_kept_iff (platform : Platform) (sha1 : CodeUnits × Option String → String)
    (shapeSha1 : List JsonScalar → φ) (hinj : Function.Injective (hashShape shapeSha1))
    (observations : List NetworkObservation)
    (hread : ∀ observation ∈ observations, ReadFromTrace platform sha1 observation)
    (hsha1 : Set.InjOn sha1 (hashedInputs observations)) :
    (∀ before after, observations = before ++ after →
        KeepsMetadata (hashShape shapeSha1) before) ↔
      ∀ before observation after, observations = before ++ observation :: after →
        StepAgrees (hashShape shapeSha1) (admitAll (hashShape shapeSha1) before) observation := by
  have hfree : ∀ {body other : NetworkObservationBody},
      (∃ observation ∈ observations, body ∈ observation.bodies) →
      (∃ observation ∈ observations, other ∈ observation.bodies) →
      body.fingerprint = other.fingerprint →
      body.content = other.content ∧ body.contentType = other.contentType := by
    rintro body other ⟨o, ho, hbody⟩ ⟨o', ho', hother⟩ hsame
    obtain ⟨_, _, hget⟩ := hread o ho body hbody
    obtain ⟨_, _, hget'⟩ := hread o' ho' other hother
    rw [fingerprint_of_read hget, fingerprint_of_read hget'] at hsame
    exact Prod.mk.inj (hsha1 ⟨o, ho, body, hbody, rfl⟩ ⟨o', ho', other, hother, rfl⟩ hsame)
  have hstep : ∀ before observation after, observations = before ++ observation :: after →
      KeepsMetadata (hashShape shapeSha1) before →
      (KeepsMetadata (hashShape shapeSha1) (before ++ [observation]) ↔
        StepAgrees (hashShape shapeSha1) (admitAll (hashShape shapeSha1) before) observation) := by
    rintro before observation after rfl hkeeps
    refine keepsMetadata_concat_iff hinj hfree (fun other hother body hbody ↦ ?_) hkeeps
    refine ⟨other, ?_, hbody⟩
    rw [← List.singleton_append, ← List.append_assoc]
    exact List.mem_append_left _ hother
  constructor
  · intro hkept before observation after heq
    refine (hstep before observation after heq (hkept before _ heq)).mp (hkept _ after ?_)
    rw [heq, List.append_assoc, List.singleton_append]
  · intro hagrees before
    induction before using List.reverseRecOn with
    | nil => exact fun after _ i inst observation hi ↦ absurd hi (by simp [admitAll, initial])
    | append_singleton before observation ih =>
        intro after heq
        rw [List.append_assoc, List.singleton_append] at heq
        exact (hstep before observation after heq (ih _ heq)).mpr (hagrees before observation after
          heq)

/-! ### A body that ends in the marker -/

/-- An archive with one resource. -/
def archiveOf (text : Text) : Zip.Entries :=
  OrderedMap.empty.set "resources/f".toList (Zip.utf8Bytes text)

/-- The record of a plain text whose resource is that one. -/
def plainTextRecord : Json :=
  .object [("mimeType".toList, .string "text/plain".toList), ("_sha1".toList, .string "f".toList)]

/-- The body of such a record. -/
theorem read_plain_text (sha1 : CodeUnits × Option String → String) (text : Text) :
    readTraceResourceBody asciiPlatform sha1 (archiveOf text) (some plainTextRecord) = some
      { content := capNetworkBody (toCodeUnits text)
        contentType := some "text/plain"
        truncated := decide (capNetworkBody (toCodeUnits text) ≠ toCodeUnits text)
        fingerprint := sha1 (capNetworkBody (toCodeUnits text), some "text/plain") } := by
  have htype : asString (plainTextRecord.member "mimeType".toList) =
      some "text/plain".toList := by decide
  have hplain : isJsonOrTextContentType asciiPlatform (some "text/plain".toList) = true := by
    decide
  have hsha : (asString (plainTextRecord.member "_sha1".toList)).filter (· ≠ []) =
      some "f".toList := by decide
  have hresource : (archiveOf text).get ("resources/".toList ++ "f".toList) =
      some (Zip.utf8Bytes text) := rfl
  simp only [readTraceResourceBody, Option.bind_eq_bind, Option.bind_some, htype, hplain, hsha,
    hresource, Zip.to_utf8_string_utf8Bytes, hashBody, Option.map_some]
  rfl

/-- The cap of every longer text of letters, and a text that is as long as the cap. -/
def ambiguousText : Text := List.replicate 2037 'a' ++ "[truncated]".toList

/-- The digest of the cap that the two texts share. -/
def ambiguousSha1 (_ : CodeUnits × Option String) : String :=
  "f62a019f369c34d13f4c9321c58bc74ebb361f33"

/-- The body of the text that is as long as the cap, and that of a longer one. -/
def ambiguousBody (truncated : Bool) : NetworkObservationBody where
  content := toCodeUnits ambiguousText
  contentType := some "text/plain"
  truncated := truncated
  fingerprint := "f62a019f369c34d13f4c9321c58bc74ebb361f33"

/-- A failed request with a body as its response. -/
def respondedWith (body : NetworkObservationBody) : NetworkObservation :=
  { sampleObservation with responseBody := some body }

/-- Letters as code units. -/
theorem toCodeUnits_letters (n : ℕ) :
    toCodeUnits (List.replicate n 'a') = List.replicate n 97 := by
  rw [toCodeUnits, List.flatMap_replicate]
  exact List.flatten_replicate_singleton

/-- The code units of the text that is as long as the cap. -/
theorem toCodeUnits_ambiguousText :
    toCodeUnits ambiguousText = List.replicate 2037 97 ++ TRUNCATION_MARKER := by
  rw [ambiguousText, toCodeUnits, List.flatMap_append]
  exact congrArg (· ++ TRUNCATION_MARKER) (toCodeUnits_letters 2037)

/-- The marker has eleven code units. -/
theorem length_truncation_marker : TRUNCATION_MARKER.length = 11 := by decide

/-- The text that is as long as the cap is kept. -/
theorem read_ambiguousText :
    readTraceResourceBody asciiPlatform ambiguousSha1 (archiveOf ambiguousText)
      (some plainTextRecord) = some (ambiguousBody false) := by
  have hcap : capNetworkBody (toCodeUnits ambiguousText) = toCodeUnits ambiguousText := by
    rw [capNetworkBody, capText, if_pos]
    rw [toCodeUnits_ambiguousText, List.length_append, List.length_replicate,
      length_truncation_marker]
    decide
  rw [read_plain_text, hcap, decide_eq_false (not_not_intro rfl)]
  rfl

/-- A longer text is truncated to the same content. -/
theorem read_letters :
    readTraceResourceBody asciiPlatform ambiguousSha1 (archiveOf (List.replicate 2049 'a'))
      (some plainTextRecord) = some (ambiguousBody true) := by
  have hcap : capNetworkBody (List.replicate 2049 97) = toCodeUnits ambiguousText := by
    rw [capNetworkBody, capText, if_neg (by rw [List.length_replicate]; decide),
      List.take_replicate, toCodeUnits_ambiguousText, length_truncation_marker]
    rfl
  have hne : toCodeUnits ambiguousText ≠ List.replicate 2049 97 := by
    intro heq
    have hlength := congrArg List.length heq
    rw [toCodeUnits_ambiguousText, List.length_append, List.length_replicate,
      length_truncation_marker, List.length_replicate] at hlength
    omega
  rw [read_plain_text, toCodeUnits_letters, hcap, decide_eq_true hne]
  rfl

/-- Responses with these bodies. -/
def responses (flags : List Bool) : List NetworkObservation :=
  flags.map fun truncated ↦ respondedWith (ambiguousBody truncated)

/-- All their bodies are those of the two texts. -/
theorem body_of_responses {flags : List Bool} {observation : NetworkObservation}
    (hobservation : observation ∈ responses flags) {body : NetworkObservationBody}
    (hbody : body ∈ observation.bodies) : ∃ truncated ∈ flags, body = ambiguousBody truncated := by
  obtain ⟨truncated, hmem, rfl⟩ := List.mem_map.mp hobservation
  exact ⟨truncated, hmem, List.mem_singleton.mp hbody⟩

/-- All their bodies are read from traces. -/
theorem read_responses (flags : List Bool) :
    ∀ observation ∈ responses flags, ReadFromTrace asciiPlatform ambiguousSha1 observation := by
  intro observation hobservation body hbody
  obtain ⟨truncated, -, rfl⟩ := body_of_responses hobservation hbody
  cases truncated with
  | false => exact ⟨_, _, read_ambiguousText⟩
  | true => exact ⟨_, _, read_letters⟩

/-- One input is hashed for all of them. -/
theorem injOn_responses (flags : List Bool) :
    Set.InjOn ambiguousSha1 (hashedInputs (responses flags)) := by
  rintro _ ⟨o, ho, body, hbody, rfl⟩ _ ⟨o', ho', body', hbody', rfl⟩ -
  obtain ⟨truncated, -, rfl⟩ := body_of_responses ho hbody
  obtain ⟨truncated', -, rfl⟩ := body_of_responses ho' hbody'
  rfl

/-- Two bodies of one trace, without a collision of the digest: the instance of the longer one is
given the record of the other, which is not marked as truncated. -/
theorem metadata_lost :
    (∀ observation ∈ responses [false, true],
        ReadFromTrace asciiPlatform ambiguousSha1 observation) ∧
      Set.InjOn ambiguousSha1 (hashedInputs (responses [false, true])) ∧
      ¬KeepsMetadata (hashShape id) (responses [false, true]) := by
  refine ⟨read_responses _, injOn_responses _, fun hkeeps ↦ ?_⟩
  have hinst : (admitAll (hashShape id) (responses [false, true])).instancesById.get ⟨1⟩ = some
    ((respondedWith (ambiguousBody true)).record ⟨1⟩ ⟨0⟩ none (some ⟨0⟩)) := rfl
  have hbody : (admitAll (hashShape id) (responses [false, true])).bodiesById.get ⟨0⟩ =
    some ((ambiguousBody false).record ⟨0⟩) := rfl
  obtain ⟨-, hresponse⟩ := hkeeps hinst ⟨responses [false], [], rfl, rfl, rfl⟩
  obtain ⟨stored, body, hstored, ⟨⟩, hsame⟩ := hresponse ⟨0⟩ rfl
  obtain rfl := Option.some.inj (hbody.symm.trans hstored)
  exact absurd hsame.truncated (by decide)

/-- A truncated body that is seen twice keeps its metadata. -/
theorem metadata_kept_twice : KeepsMetadata (hashShape id) (responses [true, true]) := by
  refine (metadata_kept_iff asciiPlatform ambiguousSha1 id
    (hashShape_injective Function.injective_id) (responses [true, true]) (read_responses _)
    (injOn_responses _)).mpr (fun before observation after heq ↦ ?_) _ [] (List.append_nil _).symm
  refine stepAgrees_of_unambiguous (P := fun body ↦ body = ambiguousBody true)
    (hashShape_injective Function.injective_id) (fun hbody hother _ ↦ by rw [hbody, hother])
    fun other hother body hbody ↦ ?_
  have hmem : other ∈ responses [true, true] := by
    rw [heq, ← List.singleton_append, ← List.append_assoc]
    exact List.mem_append_left _ hother
  obtain ⟨truncated, htruncated, rfl⟩ := body_of_responses hmem hbody
  rw [List.eq_of_mem_replicate (n := 2) htruncated]

end

end NetworkBuilder

end CoreUtils.Reporter
