import CoreUtils.Reporter.NetworkInvariant

/-!
# Committing an observation

The three calls at the end of `admit`. `commitGroup_linked`, `commitInstance_linked` and
`commitBodies_spec` say what each does to the agreements between the tables, and `commit_spec`
composes them: the pending observation becomes a retained instance of its group.
-/

namespace CoreUtils.Reporter

/-- An update of the payload references of an instance. -/
def AttachesBodies (f : NetworkInstance → NetworkInstance) : Prop :=
  ∀ inst, ∃ request response,
    f inst = { inst with requestBodyRef := request, responseBodyRef := response }

/-- Attaching bodies does not change whose instance it is. -/
theorem AttachesBodies.identity {f : NetworkInstance → NetworkInstance} (h : AttachesBodies f)
    (inst : NetworkInstance) : (f inst).id = inst.id ∧ (f inst).groupId = inst.groupId := by
  obtain ⟨request, response, heq⟩ := h inst
  rw [heq]
  exact ⟨rfl, rfl⟩

/-- Attaching bodies links no redirect. -/
theorem AttachesBodies.unlinked {f : NetworkInstance → NetworkInstance} (h : AttachesBodies f)
    {inst : NetworkInstance} (hinst : inst.redirectFromId = none ∧ inst.redirectToId = none) :
    (f inst).redirectFromId = none ∧ (f inst).redirectToId = none := by
  obtain ⟨request, response, heq⟩ := h inst
  rw [heq]
  exact hinst

/-- Two attachments in a row. -/
theorem AttachesBodies.comp {f g : NetworkInstance → NetworkInstance} (hf : AttachesBodies f)
    (hg : AttachesBodies g) : AttachesBodies (g ∘ f) := by
  intro inst
  obtain ⟨_, _, heq⟩ := hf inst
  obtain ⟨request, response, heq'⟩ := hg (f inst)
  exact ⟨request, response, by rw [Function.comp_apply, heq', heq]⟩

namespace NetworkBuilder

variable {φ : Type} [DecidableEq φ] {hashShape : NetworkObservationShape → φ}
  {b : NetworkBuilder φ} {pending : ℕ}

/-! ## Group and instance -/

/-- Creating a group keeps the tables linked. -/
theorem commitGroup_linked (h : b.Linked hashShape pending) {fingerprint : φ}
    {shape : NetworkObservationShape} (offsetMs : Option ℚ) (hfp : hashShape shape = fingerprint)
    (hnew : b.fingerprintToGroupId.get fingerprint = none) :
    (b.commitGroup fingerprint shape offsetMs).Linked hashShape pending :=
  ⟨h.groups.add_group rfl hfp hnew, h.counted.set_entry _ rfl, h.bodies, h.sequences, h.balanced⟩

/-- The group that `commitGroup` has created. -/
theorem commitGroup_group (b : NetworkBuilder φ) (fingerprint : φ)
    (shape : NetworkObservationShape) (offsetMs : Option ℚ) :
    ∃ group, (b.commitGroup fingerprint shape offsetMs).groupsById.get ⟨b.nextGroupCounter⟩ =
        some group ∧ group.shape = shape ∧ group.fingerprint = fingerprint := by
  simp only [commitGroup, OrderedMap.get_set, if_true, Option.some.injEq]
  exact ⟨_, rfl, rfl, rfl⟩

omit [DecidableEq φ] in
/-- The instance that `commitInstance` has created. -/
theorem commitInstance_instance (b : NetworkBuilder φ) (g : GroupId)
    (shape : NetworkObservationShape) (instance_ : NetworkObservationInstance) :
    ∃ inst, (b.commitInstance g shape instance_).instancesById.get ⟨b.nextInstanceCounter⟩ =
        some inst ∧
      inst.groupId = g ∧ inst.requestBodyRef = none ∧ inst.responseBodyRef = none := by
  simp only [commitInstance, OrderedMap.get_set, if_true, Option.some.injEq]
  exact ⟨_, rfl, rfl, rfl, rfl⟩

/-- Entering an instance of a retained group keeps the tables linked and settles the pending
observation. -/
theorem commitInstance_linked (h : b.Linked hashShape (pending + 1)) {g : GroupId}
    {group : NetworkGroup φ} (hg : b.groupsById.get g = some group)
    (shape : NetworkObservationShape) (instance_ : NetworkObservationInstance) :
    (b.commitInstance g shape instance_).Linked hashShape pending := by
  obtain ⟨ids, hids⟩ := h.groups.index_of_group hg
  have hfree := h.groups.instance_free
  have hids' : (b.groupInstanceIndex.get g).getD .empty = ids := by simp [hids]
  simp only [commitInstance, hids']
  constructor
  case groups =>
    exact (h.groups.add_instance rfl hids).modify_group g countCommitted_keepsIdentity
  case counted =>
    rw [OrderedMap.set_eq_modify hids]
    refine h.counted.modify_entry g fun {group ids'} _ hget hcount ↦ ?_
    rw [hids, Option.some.injEq] at hget
    subst hget
    rw [OrderedSet.add, OrderedMap.size_set_of_get_none (h.groups.next_not_indexed hids)]
    simp only [NetworkGroup.countCommitted, hcount]
    omega
  case bodies =>
    refine h.bodies.of_instances fun id ↦ ?_
    simp only [references, OrderedMap.total_set_of_get_none hfree, NetworkInstance.references,
      refersTo]
    simp
  case sequences =>
    refine ⟨by rw [h.sequences.counter], fun j ↦ ?_, fun {j url} hj ↦ ?_, fun {j inst} hj ↦ ?_⟩
    · by_cases heq : j = ⟨b.nextInstanceCounter⟩
      · simp [heq, h.sequences.counter]
      · simpa [heq] using h.sequences.sequence j
    · by_cases heq : j = ⟨b.nextInstanceCounter⟩
      · simp [heq]
      · have hbefore : b.instanceRedirectToUrl.get j = some url := by
          cases hredirect : instance_.redirectToUrl with
          | none => simpa [hredirect] using hj
          | some target => simpa [hredirect, heq] using hj
        simpa [heq] using h.sequences.redirect hbefore
    · by_cases heq : j = ⟨b.nextInstanceCounter⟩
      · simp only [heq, OrderedMap.get_set, if_true, Option.some.injEq] at hj
        rw [← hj]
        exact ⟨rfl, rfl⟩
      · exact h.sequences.unlinked (i := j) (by simpa [heq] using hj)
  case balanced =>
    have hbalanced := h.balanced
    show b.summary.observedInstances = OrderedMap.size _ + b.summary.terminal + pending
    rw [OrderedMap.size_set_of_get_none hfree]
    omega

/-! ## Bodies -/

omit [DecidableEq φ] in
/-- Attaching one payload: the body tables and counters change, and at most the reference field
that `setRef` writes. -/
theorem commitBody_spec {i : InstanceId} {inst : NetworkInstance}
    (setRef : BodyId → NetworkInstance → NetworkInstance) (h : b.BodiesLinked fun _ ↦ 0)
    (hcap : b.bodiesById.size ≤ BODIES_CAP) (hi : b.instancesById.get i = some inst)
    (hset : ∀ bodyId id,
      (setRef bodyId inst).references id = inst.references id + refersTo (some bodyId) id)
    (body : Option NetworkObservationBody) :
    ∃ f bodies hashes counts next omitted truncated,
      (f = id ∨ ∃ bodyId, f = setRef bodyId) ∧
      b.commitBody i setRef body =
        { b with
          instancesById := b.instancesById.modify i f
          bodiesById := bodies, bodyHashToBodyId := hashes, bodyRefCounts := counts
          nextBodyCounter := next
          summary := { b.summary with
            bodiesOmittedByBodyCap := omitted, bodiesTruncated := truncated } } ∧
      bodies.size ≤ BODIES_CAP ∧ (b.commitBody i setRef body).BodiesLinked fun _ ↦ 0 := by
  cases body with
  | none =>
      refine ⟨id, b.bodiesById, b.bodyHashToBodyId, b.bodyRefCounts, b.nextBodyCounter,
        b.summary.bodiesOmittedByBodyCap, b.summary.bodiesTruncated, .inl rfl, ?_, hcap, h⟩
      rw [OrderedMap.modify_id]
      rfl
  | some body =>
      obtain ⟨bodies, hashes, counts, next, omitted, truncated, heq, hsize, hlinked⟩ :=
        resolveOrAdmitBody_spec h hcap body
      rcases hresolved : b.resolveOrAdmitBody body with ⟨resolved, ref⟩
      simp only [hresolved] at heq hlinked
      subst heq
      cases ref with
      | none =>
          simp only [commitBody, hresolved]
          refine ⟨id, bodies, hashes, counts, next, omitted, truncated, .inl rfl, ?_, hsize,
            hlinked.congr_owed fun id ↦ by simp [refersTo]⟩
          rw [OrderedMap.modify_id]
      | some bodyId =>
          simp only [commitBody, hresolved]
          refine ⟨setRef bodyId, bodies, hashes, counts, next, omitted, truncated,
            .inr ⟨bodyId, rfl⟩, rfl, hsize, hlinked.of_instances fun id ↦ ?_⟩
          have htotal := OrderedMap.total_modify hi (fun _ inst ↦ inst.references id)
            (setRef bodyId)
          have := hset bodyId id
          simp only [references] at *
          omega

omit [DecidableEq φ] in
/-- Attaching both payloads to an instance that has none. -/
theorem commitBodies_spec {i : InstanceId} {inst : NetworkInstance}
    (h : b.BodiesLinked fun _ ↦ 0) (hcap : b.bodiesById.size ≤ BODIES_CAP)
    (hi : b.instancesById.get i = some inst) (hrequest : inst.requestBodyRef = none)
    (hresponse : inst.responseBodyRef = none) (observation : NetworkObservation) :
    ∃ f bodies hashes counts next omitted truncated,
      AttachesBodies f ∧
      b.commitBodies i observation =
        { b with
          instancesById := b.instancesById.modify i f
          bodiesById := bodies, bodyHashToBodyId := hashes, bodyRefCounts := counts
          nextBodyCounter := next
          summary := { b.summary with
            bodiesOmittedByBodyCap := omitted, bodiesTruncated := truncated } } ∧
      bodies.size ≤ BODIES_CAP ∧ (b.commitBodies i observation).BodiesLinked fun _ ↦ 0 := by
  obtain ⟨f, bodies₁, hashes₁, counts₁, next₁, omitted₁, truncated₁, hf, heq₁, hsize₁, hlinked₁⟩ :=
    commitBody_spec setRequestBodyRef h hcap hi
      (fun bodyId id ↦ by
        simp only [NetworkInstance.references, setRequestBodyRef, hrequest, refersTo_none]
        omega)
      observation.requestBody
  have hf' : AttachesBodies f ∧ (f inst).responseBodyRef = none := by
    rcases hf with rfl | ⟨bodyId, rfl⟩
    · exact ⟨fun _ ↦ ⟨_, _, rfl⟩, hresponse⟩
    · exact ⟨fun _ ↦ ⟨_, _, rfl⟩, hresponse⟩
  rw [heq₁] at hlinked₁
  obtain ⟨g, bodies₂, hashes₂, counts₂, next₂, omitted₂, truncated₂, hg, heq₂, hsize₂, hlinked₂⟩ :=
    commitBody_spec setResponseBodyRef hlinked₁ hsize₁ (OrderedMap.get_modify_self hi f)
      (fun bodyId id ↦ by
        simp only [NetworkInstance.references, setResponseBodyRef, hf'.2, refersTo_none,
          Nat.add_zero])
      observation.responseBody
  have hg' : AttachesBodies g := by
    rcases hg with rfl | ⟨bodyId, rfl⟩ <;> exact fun _ ↦ ⟨_, _, rfl⟩
  have hbodies : b.commitBodies i observation = (b.commitBody i setRequestBodyRef
      observation.requestBody).commitBody i setResponseBodyRef observation.responseBody := by
    simp only [commitBodies, hi]
  rw [hbodies, heq₁]
  refine ⟨g ∘ f, bodies₂, hashes₂, counts₂, next₂, omitted₂, truncated₂, hf'.1.comp hg', ?_,
    hsize₂, hlinked₂⟩
  rw [heq₂]
  simp only [OrderedMap.modify_modify]

/-! ## The whole commitment -/

/-- What committing an observation to a group changes: one new instance of that group, and
counters. -/
structure Committed (g : GroupId) (shape : NetworkObservationShape) (b r : NetworkBuilder φ) :
    Prop where
  new_instance : ∃ inst, r.instancesById.get ⟨b.nextInstanceCounter⟩ = some inst ∧
    inst.groupId = g
  instances : ∀ {i}, i ≠ ⟨b.nextInstanceCounter⟩ →
    r.instancesById.get i = b.instancesById.get i
  group : ∃ group, r.groupsById.get g = some group ∧ group.shape = shape
  groups : ∀ {g'}, g' ≠ g → r.groupsById.get g' = b.groupsById.get g'
  fingerprints : ∀ {fingerprint}, b.fingerprintToGroupId.get fingerprint = some g →
    r.fingerprintToGroupId.get fingerprint = some g
  nextInstance : r.nextInstanceCounter = b.nextInstanceCounter + 1
  summary : ∃ omitted truncated, r.summary = { b.summary with
    bodiesOmittedByBodyCap := omitted, bodiesTruncated := truncated }

/-- Committing to a retained group, which may still be empty, restores the invariant. -/
theorem commitInstance_commitBodies_spec (h : b.Linked hashShape (pending + 1)) {g : GroupId}
    {group : NetworkGroup φ} (hg : b.groupsById.get g = some group)
    (hothers : ∀ {g' ids}, g' ≠ g → b.groupInstanceIndex.get g' = some ids → 0 < ids.size)
    (hgroups : b.groupsById.size ≤ GROUPS_CAP) (hinstances : b.instancesById.size < INSTANCES_CAP)
    (hbodies : b.bodiesById.size ≤ BODIES_CAP) (observation : NetworkObservation)
    (hshape : group.shape = observation.shape) :
    let r := (b.commitInstance g observation.shape observation.instance_).commitBodies
      ⟨b.nextInstanceCounter⟩ observation
    r.Invariant hashShape pending ∧ Committed g observation.shape b r := by
  have hentered := commitInstance_linked h hg observation.shape observation.instance_
  obtain ⟨ids, hids⟩ := h.groups.index_of_group hg
  have hfree := h.groups.instance_free
  obtain ⟨inst, hinst, hgroup, hrequest, hresponse⟩ :=
    b.commitInstance_instance g observation.shape observation.instance_
  obtain ⟨f, bodies, hashes, counts, next, omitted, truncated, hf, heq, hsize, hlinked⟩ :=
    commitBodies_spec hentered.bodies hbodies hinst hrequest hresponse observation
  intro r
  -- both payloads change only the table of instances, through `f`, and the tables of bodies
  have hr : r = _ := heq
  have hbodiesLinked : r.BodiesLinked fun _ ↦ 0 := hlinked
  rw [hr] at hbodiesLinked ⊢
  refine ⟨⟨⟨?_, hentered.counted, hbodiesLinked, ?_, ?_⟩, ?_, ?_, ?_, hsize⟩,
    ⟨?_, ?_, ?_, ?_, id, rfl, ⟨omitted, truncated, rfl⟩⟩⟩
  · exact hentered.groups.modify_instance _ (fun inst ↦ (hf.identity inst).1)
      fun inst ↦ (hf.identity inst).2
  · refine ⟨hentered.sequences.counter, fun i ↦ ?_, fun {i url} hi ↦ ?_, fun {i inst} hi ↦ ?_⟩
    · rw [hentered.sequences.sequence i, OrderedMap.get_modify]
      split <;> simp [Option.map_map, Function.comp_def]
    · rw [OrderedMap.get_modify]
      split <;> simpa using hentered.sequences.redirect hi
    · rw [OrderedMap.get_modify] at hi
      split at hi
      · obtain ⟨before, hbefore, rfl⟩ := Option.map_eq_some_iff.mp hi
        exact hf.unlinked (hentered.sequences.unlinked hbefore)
      · exact hentered.sequences.unlinked hi
  · rw [OrderedMap.size_modify]
    exact hentered.balanced
  · intro g' ids' hget
    by_cases heq : g' = g
    · subst heq
      -- the group itself has the new instance
      simp only [commitInstance, OrderedMap.get_set, if_true, Option.some.injEq] at hget
      rw [← hget]
      have hmem : (OrderedSet.add ((b.groupInstanceIndex.get g').getD .empty)
          ⟨b.nextInstanceCounter⟩).get ⟨b.nextInstanceCounter⟩ = some () := by simp
      exact OrderedMap.size_pos hmem
    · exact hothers heq (by simpa [commitInstance, heq] using hget)
  · simpa [commitInstance] using hgroups
  · simp only [commitInstance, OrderedMap.size_modify, OrderedMap.size_set_of_get_none hfree]
    exact hinstances
  · exact ⟨f inst, OrderedMap.get_modify_self hinst f, (hf.identity inst).2.trans hgroup⟩
  · intro i hi
    simp [commitInstance, hi]
  · simp only [commitInstance, OrderedMap.get_modify, if_true, hg, Option.map_some]
    exact ⟨_, rfl, hshape⟩
  · intro g' hne
    simp [commitInstance, hne]

/-- Committing below the caps restores the invariant. -/
theorem commit_spec (h : b.Invariant hashShape (pending + 1)) {observation : NetworkObservation}
    (hinj : Function.Injective hashShape)
    (hgroups : b.fingerprintToGroupId.get (hashShape observation.shape) = none →
      b.groupsById.size < GROUPS_CAP)
    (hinstances : b.instancesById.size < INSTANCES_CAP) :
    let existing := b.fingerprintToGroupId.get (hashShape observation.shape)
    let r := b.commit (hashShape observation.shape) existing observation
    r.Invariant hashShape pending ∧
      Committed (existing.getD ⟨b.nextGroupCounter⟩) observation.shape b r ∧
      r.fingerprintToGroupId.get (hashShape observation.shape) =
        some (existing.getD ⟨b.nextGroupCounter⟩) := by
  cases hexisting : b.fingerprintToGroupId.get (hashShape observation.shape) with
  | some g =>
      obtain ⟨group, hg, hfp⟩ := h.groups.fingerprint_iff.mp hexisting
      have hshape : group.shape = observation.shape := hinj ((h.groups.group_shape hg).trans hfp)
      have hspec := commitInstance_commitBodies_spec h.toLinked hg
        (fun _ hget ↦ h.nonempty hget) h.groups_cap hinstances h.bodies_cap observation hshape
      exact ⟨hspec.1, hspec.2, hspec.2.fingerprints hexisting⟩
  | none =>
      obtain ⟨group, hg, hshape, -⟩ := b.commitGroup_group (hashShape observation.shape)
        observation.shape observation.instance_.offsetMs
      have hgrouped := commitGroup_linked h.toLinked observation.instance_.offsetMs rfl hexisting
      have hfree := h.groups.group_free
      have hspec := commitInstance_commitBodies_spec hgrouped hg
        (fun {g' ids} hne hget ↦ h.nonempty (g := g') (by simpa [commitGroup, hne] using hget))
        (by
          simp only [commitGroup, OrderedMap.size_set_of_get_none hfree]
          exact hgroups hexisting)
        hinstances h.bodies_cap observation hshape
      have hnamed : (b.commitGroup (hashShape observation.shape) observation.shape
          observation.instance_.offsetMs).fingerprintToGroupId.get (hashShape observation.shape) =
            some ⟨b.nextGroupCounter⟩ := by
        simp [commitGroup]
      refine ⟨hspec.1, ?_, hspec.2.fingerprints hnamed⟩
      exact
        { hspec.2 with
          groups := fun {g'} hne ↦ by
            refine (hspec.2.groups hne).trans ?_
            rw [Option.getD_none] at hne
            simp [commitGroup, hne]
          fingerprints := fun {fingerprint} hget ↦ by
            obtain ⟨found, hfound, -⟩ := h.groups.fingerprint_iff.mp hget
            rw [Option.getD_none, hfree] at hfound
            exact absurd hfound (by simp) }

/-! ## The tables of groups and instances -/

omit [DecidableEq φ] in
/-- Attaching one payload changes no tables but those of bodies and instances. -/
theorem commitBody_frame (b : NetworkBuilder φ) (i : InstanceId)
    (setRef : BodyId → NetworkInstance → NetworkInstance)
    (hset : ∀ bodyId, AttachesBodies (setRef bodyId)) (body : Option NetworkObservationBody) :
    ∃ f bodies hashes counts next omitted truncated, AttachesBodies f ∧
      b.commitBody i setRef body =
        { b with
          instancesById := b.instancesById.modify i f
          bodiesById := bodies, bodyHashToBodyId := hashes, bodyRefCounts := counts
          nextBodyCounter := next
          summary := { b.summary with
            bodiesOmittedByBodyCap := omitted, bodiesTruncated := truncated } } := by
  have hid : AttachesBodies id := fun inst ↦ ⟨_, _, rfl⟩
  cases body with
  | none =>
      refine ⟨id, b.bodiesById, b.bodyHashToBodyId, b.bodyRefCounts, b.nextBodyCounter,
        b.summary.bodiesOmittedByBodyCap, b.summary.bodiesTruncated, hid, ?_⟩
      rw [OrderedMap.modify_id]
      rfl
  | some body =>
      cases hhash : b.bodyHashToBodyId.get body.fingerprint with
      | some existing =>
          simp only [commitBody, resolveOrAdmitBody, hhash]
          exact ⟨setRef existing, b.bodiesById, b.bodyHashToBodyId, _, b.nextBodyCounter,
            b.summary.bodiesOmittedByBodyCap, b.summary.bodiesTruncated, hset existing, rfl⟩
      | none =>
          simp only [commitBody, resolveOrAdmitBody, hhash]
          by_cases hfull : b.bodiesById.size ≥ BODIES_CAP
          · simp only [if_pos hfull]
            refine ⟨id, b.bodiesById, b.bodyHashToBodyId, b.bodyRefCounts, b.nextBodyCounter,
              b.summary.bodiesOmittedByBodyCap + 1, b.summary.bodiesTruncated, hid, ?_⟩
            rw [OrderedMap.modify_id]
          · simp only [if_neg hfull]
            exact ⟨setRef ⟨b.nextBodyCounter⟩, _, _, _, _, b.summary.bodiesOmittedByBodyCap, _,
              hset _, rfl⟩

omit [DecidableEq φ] in
/-- Attaching both payloads changes no tables but those of bodies and instances. -/
theorem commitBodies_frame (b : NetworkBuilder φ) (i : InstanceId)
    (observation : NetworkObservation) :
    ∃ f bodies hashes counts next omitted truncated, AttachesBodies f ∧
      b.commitBodies i observation =
        { b with
          instancesById := b.instancesById.modify i f
          bodiesById := bodies, bodyHashToBodyId := hashes, bodyRefCounts := counts
          nextBodyCounter := next
          summary := { b.summary with
            bodiesOmittedByBodyCap := omitted, bodiesTruncated := truncated } } := by
  unfold commitBodies
  split
  · refine ⟨id, b.bodiesById, b.bodyHashToBodyId, b.bodyRefCounts, b.nextBodyCounter,
      b.summary.bodiesOmittedByBodyCap, b.summary.bodiesTruncated, fun inst ↦ ⟨_, _, rfl⟩, ?_⟩
    rw [OrderedMap.modify_id]
  · obtain ⟨f, bodies₁, hashes₁, counts₁, next₁, omitted₁, truncated₁, hf, heq₁⟩ :=
      b.commitBody_frame i setRequestBodyRef (fun _ inst ↦ ⟨_, _, rfl⟩)
        observation.requestBody
    rw [heq₁]
    obtain ⟨g, bodies₂, hashes₂, counts₂, next₂, omitted₂, truncated₂, hg, heq₂⟩ :=
      commitBody_frame _ i setResponseBodyRef (fun _ inst ↦ ⟨_, _, rfl⟩)
        observation.responseBody
    rw [heq₂]
    refine ⟨g ∘ f, bodies₂, hashes₂, counts₂, next₂, omitted₂, truncated₂, hf.comp hg, ?_⟩
    simp only [OrderedMap.modify_modify]

/-- What a commitment to a group changes in the tables of groups and instances. -/
structure Entered (g : GroupId) (observation : NetworkObservation) (b r : NetworkBuilder φ) :
    Prop where
  groups : r.groupsById = b.groupsById.modify g NetworkGroup.countCommitted
  metadata : r.shapeMetadata = b.shapeMetadata
  fingerprints : r.fingerprintToGroupId = b.fingerprintToGroupId
  instances : ∀ {i inst}, r.instancesById.get i = some inst →
    b.instancesById.get i = some inst ∨
      inst.groupId = g ∧ inst.offsetMs = observation.instance_.offsetMs
  size : b.instancesById.get ⟨b.nextInstanceCounter⟩ = none →
    r.instancesById.size = b.instancesById.size + 1
  summary : ∃ omitted truncated, r.summary = { b.summary with
    bodiesOmittedByBodyCap := omitted, bodiesTruncated := truncated }

/-- The builder with a group for an observation. -/
def ensureGroup (b : NetworkBuilder φ) (fingerprint : φ) (observation : NetworkObservation) :
    Option GroupId → NetworkBuilder φ
  | some _ => b
  | none => b.commitGroup fingerprint observation.shape observation.instance_.offsetMs

/-- A commitment enters a new instance in the group, after creating it if there is none. -/
theorem commit_entered (b : NetworkBuilder φ) (fingerprint : φ) (existing : Option GroupId)
    (observation : NetworkObservation) :
    Entered (existing.getD ⟨b.nextGroupCounter⟩) observation
      (b.ensureGroup fingerprint observation existing)
      (b.commit fingerprint existing observation) := by
  have hcommit : b.commit fingerprint existing observation =
      ((b.ensureGroup fingerprint observation existing).commitInstance
        (existing.getD ⟨b.nextGroupCounter⟩) observation.shape
        observation.instance_).commitBodies ⟨b.nextInstanceCounter⟩ observation := by
    cases existing <;> rfl
  have hnext : (b.ensureGroup fingerprint observation existing).nextInstanceCounter =
      b.nextInstanceCounter := by
    cases existing <;> rfl
  rw [hcommit]
  generalize b.ensureGroup fingerprint observation existing = grouped at hnext
  generalize existing.getD ⟨b.nextGroupCounter⟩ = g
  obtain ⟨f, bodies, hashes, counts, next, omitted, truncated, hf, heq⟩ :=
    (grouped.commitInstance g observation.shape observation.instance_).commitBodies_frame
      ⟨b.nextInstanceCounter⟩ observation
  rw [heq]
  refine ⟨rfl, rfl, rfl, fun {i inst} hi ↦ ?_, fun hfree ↦ ?_, omitted, truncated, rfl⟩
  · by_cases hnew : i = ⟨b.nextInstanceCounter⟩
    · subst hnew
      simp only [commitInstance, hnext, OrderedMap.get_modify, OrderedMap.get_set, if_true,
        Option.map_some, Option.some.injEq] at hi
      right
      obtain ⟨request, response, hattached⟩ := hf _
      rw [← hi, hattached]
      exact ⟨rfl, rfl⟩
    · left
      simpa [commitInstance, hnext, hnew] using hi
  · rw [OrderedMap.size_modify]
    exact OrderedMap.size_set_of_get_none hfree _

end NetworkBuilder

end CoreUtils.Reporter
