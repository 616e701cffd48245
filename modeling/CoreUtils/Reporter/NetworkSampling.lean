import CoreUtils.Library.Tally
import CoreUtils.Reporter.NetworkOffsets

/-!
# Sampling does not depend on the order

As long as no cap is found reached, the group of a shape is a function of how often the shape was
observed and with which offsets. `Sampled` states the closed form of a builder after some
observations; a call of `admit` keeps it (`Sampled.step`), so reports of the same observations in
different orders have the same groups, but for their ids, and the same counters
(`sampling_order_independent`).
-/

namespace CoreUtils.Reporter

/-- How many of the first `n` observations of a shape are retained. -/
def keptCount (n : ℕ) : ℕ :=
  min n DUPLICATE_SAMPLE_THRESHOLD + (n - DUPLICATE_SAMPLE_THRESHOLD) / DUPLICATE_SAMPLE_STRIDE

/-- The first three observations of a shape are samples, and then every tenth. -/
theorem isSuppressedDuplicate_iff {k : ℕ} :
    NetworkBuilder.isSuppressedDuplicate k = true ↔ 3 < k ∧ (k - 3) % 10 ≠ 0 := by
  simp only [NetworkBuilder.isSuppressedDuplicate, Bool.and_eq_true, decide_eq_true_eq, bne_iff_ne]
  rfl

/-- One more observation of a shape is retained unless it falls between two samples. -/
theorem keptCount_succ (n : ℕ) :
    keptCount (n + 1) =
      keptCount n + if NetworkBuilder.isSuppressedDuplicate (n + 1) = true then 0 else 1 := by
  by_cases hsuppressed : NetworkBuilder.isSuppressedDuplicate (n + 1) = true
  · rw [if_pos hsuppressed]
    rw [isSuppressedDuplicate_iff] at hsuppressed
    simp only [keptCount, DUPLICATE_SAMPLE_THRESHOLD, DUPLICATE_SAMPLE_STRIDE]
    omega
  · rw [if_neg hsuppressed]
    rw [isSuppressedDuplicate_iff] at hsuppressed
    simp only [keptCount, DUPLICATE_SAMPLE_THRESHOLD, DUPLICATE_SAMPLE_STRIDE]
    omega

/-- No more are retained than are observed. -/
theorem keptCount_le (n : ℕ) : keptCount n ≤ n := by
  simp only [keptCount, DUPLICATE_SAMPLE_THRESHOLD, DUPLICATE_SAMPLE_STRIDE]
  omega

/-- More observations retain no less. -/
theorem keptCount_mono : Monotone keptCount := by
  refine monotone_nat_of_le_succ fun n ↦ ?_
  rw [keptCount_succ]
  exact Nat.le_add_right _ _

/-- How many of the first `n` observations of a shape are suppressed. -/
def suppressedCount (n : ℕ) : ℕ := n - keptCount n

/-- One more observation of a shape is suppressed if it falls between two samples. -/
theorem suppressedCount_succ (n : ℕ) :
    suppressedCount (n + 1) =
      suppressedCount n + if NetworkBuilder.isSuppressedDuplicate (n + 1) = true then 1 else 0 := by
  have hle := keptCount_le n
  simp only [suppressedCount, keptCount_succ]
  split <;> omega

/-! ## Observed shapes -/

/-- The shapes of the observations that pass the filter, in order. -/
def shapesOf (observations : List NetworkObservation) : List NetworkObservationShape :=
  (observations.filter NetworkObservation.isPostFilter).map NetworkObservation.shape

/-- The shapes of one more observation. -/
theorem shapesOf_concat (observations : List NetworkObservation)
    (observation : NetworkObservation) :
    shapesOf (observations ++ [observation]) =
      if observation.isPostFilter = true then shapesOf observations ++ [observation.shape]
      else shapesOf observations := by
  unfold shapesOf
  split
  · rename_i hpost
    simp [hpost]
  · rename_i hfilter
    rw [List.filter_append, List.filter_cons_of_neg hfilter]
    simp

/-- A shape that passes the filter is counted whenever it is observed. -/
theorem count_shapesOf {shape : NetworkObservationShape}
    (hpost : isLowSignalStaticAsset shape.toPriorityShape = false)
    (observations : List NetworkObservation) :
    (shapesOf observations).count shape =
      observations.countP fun observation ↦ observation.shape == shape := by
  rw [shapesOf, List.count, List.countP_map, List.countP_filter]
  refine List.countP_congr fun observation _ ↦ ?_
  simp only [Function.comp_apply, Bool.and_eq_true, beq_iff_eq, and_iff_left_iff_imp]
  rintro rfl
  simp [NetworkObservation.isPostFilter, hpost]

/-- Every observation of a shape that passes the filter has an offset, if only a missing one. -/
theorem length_offsetsOf (shape : NetworkObservationShape)
    (observations : List NetworkObservation) :
    (offsetsOf shape observations).length = (shapesOf observations).count shape := by
  rw [offsetsOf, List.length_map, ← List.countP_eq_length_filter, shapesOf, List.count,
    List.countP_map, List.countP_filter]
  refine List.countP_congr fun observation _ ↦ ?_
  simp [and_comm]

/-- The shapes of a prefix are a prefix of the shapes. -/
theorem shapesOf_append (observations later : List NetworkObservation) :
    shapesOf (observations ++ later) = shapesOf observations ++ shapesOf later := by
  simp [shapesOf]

/-- The order of the observations only orders their shapes. -/
theorem shapesOf_perm {observations permuted : List NetworkObservation}
    (h : observations.Perm permuted) : (shapesOf observations).Perm (shapesOf permuted) :=
  (h.filter _).map _

/-- How many groups some observations have without caps. -/
def groupsTally (observations : List NetworkObservation) : ℕ :=
  tally (min 1) (shapesOf observations)

/-- How many instances some observations retain without caps. -/
def instancesTally (observations : List NetworkObservation) : ℕ :=
  tally keptCount (shapesOf observations)

/-- How many of some observations are suppressed without caps. -/
def suppressedTally (observations : List NetworkObservation) : ℕ :=
  tally suppressedCount (shapesOf observations)

section Tallies

variable {observations : List NetworkObservation} {observation : NetworkObservation}

/-- A filtered observation changes no tally. -/
theorem tallies_of_filtered (observations : List NetworkObservation)
    (hfilter : observation.isPostFilter = false) :
    groupsTally (observations ++ [observation]) = groupsTally observations ∧
      instancesTally (observations ++ [observation]) = instancesTally observations ∧
        suppressedTally (observations ++ [observation]) = suppressedTally observations := by
  have hshapes : shapesOf (observations ++ [observation]) = shapesOf observations := by
    rw [shapesOf_concat, if_neg (by simp [hfilter])]
  simp only [groupsTally, instancesTally, suppressedTally, hshapes, and_self]

/-- A new shape is one more group. -/
theorem groupsTally_concat (hpost : observation.isPostFilter = true) :
    groupsTally (observations ++ [observation]) =
      groupsTally observations + if observation.shape ∈ shapesOf observations then 0 else 1 := by
  have hconcat := tally_concat (f := min 1) rfl (shapesOf observations) observation.shape
  rw [groupsTally, groupsTally, shapesOf_concat, if_pos hpost]
  split
  · rename_i hmem
    have hcount := List.count_pos_iff.mpr hmem
    omega
  · rename_i hnew
    rw [List.count_eq_zero_of_not_mem hnew] at hconcat
    omega

/-- An observation that does not fall between two samples is one more instance. -/
theorem instancesTally_concat (hpost : observation.isPostFilter = true) :
    instancesTally (observations ++ [observation]) = instancesTally observations +
      if NetworkBuilder.isSuppressedDuplicate
        ((shapesOf observations).count observation.shape + 1) = true then 0 else 1 := by
  have hconcat := tally_concat (f := keptCount) rfl (shapesOf observations) observation.shape
  rw [keptCount_succ] at hconcat
  rw [instancesTally, instancesTally, shapesOf_concat, if_pos hpost]
  omega

/-- An observation that falls between two samples is one more suppressed. -/
theorem suppressedTally_concat (hpost : observation.isPostFilter = true) :
    suppressedTally (observations ++ [observation]) = suppressedTally observations +
      if NetworkBuilder.isSuppressedDuplicate
        ((shapesOf observations).count observation.shape + 1) = true then 1 else 0 := by
  have hconcat := tally_concat (f := suppressedCount) rfl (shapesOf observations) observation.shape
  rw [suppressedCount_succ] at hconcat
  rw [suppressedTally, suppressedTally, shapesOf_concat, if_pos hpost]
  omega

end Tallies

/-! ## The group of a shape -/

/-- A group without its id, which depends on the order in which groups are created. -/
def NetworkGroup.anonymous {φ : Type} (group : NetworkGroup φ) : NetworkGroup φ :=
  { group with id := ⟨0⟩ }

/-- The counters of a summary that are not about bodies. -/
def NetworkSummary.withoutBodies (summary : NetworkSummary) : NetworkSummary :=
  { summary with
    retainedBodies := 0
    bodiesOmittedByBodyCap := 0
    bodiesTruncated := 0
    bodiesCanonicalized := 0 }

namespace NetworkBuilder

variable {φ : Type} [DecidableEq φ]

/-- Whether the next call of `admit` finds the group or the instance table full when it looks at
its size. A new shape looks at both, a known one at the instances unless it is suppressed. -/
def FindsCap (hashShape : NetworkObservationShape → φ) (b : NetworkBuilder φ)
    (observation : NetworkObservation) : Prop :=
  observation.isPostFilter = true ∧
    match b.fingerprintToGroupId.get (hashShape observation.shape) with
    | none => GROUPS_CAP ≤ b.groupsById.size ∨ INSTANCES_CAP ≤ b.instancesById.size
    | some _ =>
        isSuppressedDuplicate (((b.shapeMetadata.get (hashShape observation.shape)).map
          (·.totalPostFilterObservations + 1)).getD 1) = false ∧
        INSTANCES_CAP ≤ b.instancesById.size

/-- No call of `admit` finds a cap reached. -/
def Uncapped (hashShape : NetworkObservationShape → φ) (observations : List NetworkObservation) :
    Prop :=
  ∀ before observation after, observations = before ++ observation :: after →
    ¬FindsCap hashShape (admitAll hashShape before) observation

/-- The group of a shape that was observed `n` times, before `finalize` completes it. -/
def sampledGroup (hashShape : NetworkObservationShape → φ) (shape : NetworkObservationShape)
    (n : ℕ) : NetworkGroup φ where
  id := ⟨0⟩
  method := shape.method
  url := shape.url
  status := shape.status
  resourceType := shape.resourceType
  failureText := shape.failureText
  wasAborted := shape.wasAborted
  occurrenceCount := n
  retainedInstanceCount := 0
  suppressedInstanceCount := suppressedCount n
  evictedInstanceCount := 0
  firstOffsetMs := none
  lastOffsetMs := none
  fingerprint := hashShape shape

omit [DecidableEq φ] in
/-- A suppressed observation of a shape. -/
theorem countSuppressed_sampledGroup (hashShape : NetworkObservationShape → φ)
    (shape : NetworkObservationShape) {n : ℕ} (h : isSuppressedDuplicate (n + 1) = true) :
    (sampledGroup hashShape shape n).countSuppressed = sampledGroup hashShape shape (n + 1) := by
  simp [NetworkGroup.countSuppressed, sampledGroup, suppressedCount_succ, h]

omit [DecidableEq φ] in
/-- A committed observation of a shape. -/
theorem countCommitted_sampledGroup (hashShape : NetworkObservationShape → φ)
    (shape : NetworkObservationShape) {n : ℕ} (h : ¬isSuppressedDuplicate (n + 1) = true) :
    (sampledGroup hashShape shape n).countCommitted = sampledGroup hashShape shape (n + 1) := by
  simp [NetworkGroup.countCommitted, sampledGroup, suppressedCount_succ, h]

/-- The summary of some observations, before `finalize` completes it. -/
def sampledSummary (observations : List NetworkObservation) : NetworkSummary where
  observedInstances := observations.length
  retainedInstances := 0
  retainedGroups := 0
  retainedBodies := 0
  instancesDroppedByFilter := observations.countP fun observation ↦ !observation.isPostFilter
  instancesDroppedByGroupCap := 0
  instancesDroppedByInstanceCap := 0
  instancesSuppressedAsDuplicate := suppressedTally observations
  instancesEvictedAfterAdmission := 0
  bodiesOmittedByBodyCap := 0
  bodiesTruncated := 0
  bodiesCanonicalized := 0

/-- The group of a shape, without its id, and what is kept beside it. -/
def recordOf (hashShape : NetworkObservationShape → φ) (b : NetworkBuilder φ)
    (shape : NetworkObservationShape) : Option (NetworkGroup φ × Option ShapeMetadata) :=
  ((b.fingerprintToGroupId.get (hashShape shape)).bind b.groupsById.get).map fun group ↦
    (group.anonymous, b.shapeMetadata.get (hashShape shape))

/-- The closed form of a builder after some observations none of which found a cap reached. -/
structure Sampled (hashShape : NetworkObservationShape → φ)
    (observations : List NetworkObservation) (b : NetworkBuilder φ) : Prop where
  records : ∀ shape, recordOf hashShape b shape =
    if shape ∈ shapesOf observations then
      some (sampledGroup hashShape shape ((shapesOf observations).count shape),
        some (.ofOffsets (offsetsOf shape observations)))
    else none
  groups_size : b.groupsById.size = groupsTally observations
  instances_size : b.instancesById.size = instancesTally observations
  summary : b.summary.withoutBodies = sampledSummary observations

section

variable {hashShape : NetworkObservationShape → φ} {b r : NetworkBuilder φ}
  {observation : NetworkObservation} {observations : List NetworkObservation} {pending : ℕ}

/-- The record of a shape that has a group. -/
theorem recordOf_of_get {shape : NetworkObservationShape} {g : GroupId} {group : NetworkGroup φ}
    (hfp : b.fingerprintToGroupId.get (hashShape shape) = some g)
    (hg : b.groupsById.get g = some group) :
    recordOf hashShape b shape = some (group.anonymous, b.shapeMetadata.get (hashShape shape)) := by
  simp [recordOf, hfp, hg]

/-- A shape has a record exactly if its fingerprint has a group. -/
theorem recordOf_eq_none_iff (h : b.Linked hashShape pending) (shape : NetworkObservationShape) :
    recordOf hashShape b shape = none ↔ b.fingerprintToGroupId.get (hashShape shape) = none := by
  cases hfp : b.fingerprintToGroupId.get (hashShape shape) with
  | none => simp [recordOf, hfp]
  | some g =>
      obtain ⟨group, hg, -⟩ := h.groups.fingerprint_iff.mp hfp
      simp [recordOf_of_get hfp hg]

/-- Different shapes have different groups. -/
theorem shape_of_same_group (h : b.Linked hashShape pending) (hinj : Function.Injective hashShape)
    {shape shape' : NetworkObservationShape} {g : GroupId}
    (hg : b.fingerprintToGroupId.get (hashShape shape) = some g)
    (hg' : b.fingerprintToGroupId.get (hashShape shape') = some g) : shape = shape' := by
  obtain ⟨group, hgroup, hfp⟩ := h.groups.fingerprint_iff.mp hg
  obtain ⟨group', hgroup', hfp'⟩ := h.groups.fingerprint_iff.mp hg'
  obtain rfl : group = group' := Option.some.inj (hgroup.symm.trans hgroup')
  exact hinj (hfp.symm.trans hfp')

/-- Updating one group and the metadata of its shape updates the record of that shape. -/
theorem recordOf_modify (h : b.Linked hashShape pending) (hinj : Function.Injective hashShape)
    {own : NetworkObservationShape} {g : GroupId}
    (hg : b.fingerprintToGroupId.get (hashShape own) = some g)
    {f : NetworkGroup φ → NetworkGroup φ} {u : ShapeMetadata → ShapeMetadata}
    (hf : ∀ group : NetworkGroup φ, (f group).anonymous = f group.anonymous)
    (hfingerprints : r.fingerprintToGroupId = b.fingerprintToGroupId)
    (hgroups : r.groupsById = b.groupsById.modify g f)
    (hmetadata : r.shapeMetadata = b.shapeMetadata.modify (hashShape own) u)
    (shape : NetworkObservationShape) :
    recordOf hashShape r shape =
      if shape = own then
        (recordOf hashShape b shape).map fun record ↦ (f record.1, record.2.map u)
      else recordOf hashShape b shape := by
  obtain ⟨group, hgroup, -⟩ := h.groups.fingerprint_iff.mp hg
  by_cases heq : shape = own
  · subst heq
    have hupdated : r.groupsById.get g = some (f group) := by
      rw [hgroups, OrderedMap.get_modify, if_pos rfl, hgroup]
      rfl
    rw [if_pos rfl, recordOf_of_get hg hgroup, recordOf_of_get (hfingerprints ▸ hg) hupdated, hf,
      hmetadata, OrderedMap.get_modify, if_pos rfl]
    rfl
  · rw [if_neg heq, recordOf, recordOf, hfingerprints, hmetadata, OrderedMap.get_modify,
      if_neg (hinj.ne heq)]
    cases hg' : b.fingerprintToGroupId.get (hashShape shape) with
    | none => rfl
    | some g' =>
        -- another shape has another group
        have hne : g' ≠ g := fun hsame ↦ heq (shape_of_same_group h hinj hg' (hsame ▸ hg))
        rw [Option.bind_some, Option.bind_some, hgroups, OrderedMap.get_modify, if_neg hne]

/-- Committing a new shape adds its record. -/
theorem recordOf_new (h : b.Linked hashShape pending) (hinj : Function.Injective hashShape)
    {own : NetworkObservationShape} {offset : Option ℚ}
    (hfingerprints : r.fingerprintToGroupId =
      (b.commitGroup (hashShape own) own offset).fingerprintToGroupId)
    (hgroups : r.groupsById = (b.commitGroup (hashShape own) own offset).groupsById.modify
      ⟨b.nextGroupCounter⟩ NetworkGroup.countCommitted)
    (hmetadata : r.shapeMetadata = (b.commitGroup (hashShape own) own offset).shapeMetadata)
    (shape : NetworkObservationShape) :
    recordOf hashShape r shape =
      if shape = own then
        some (sampledGroup hashShape own 1, some (.ofOffsets [offset]))
      else recordOf hashShape b shape := by
  -- the fingerprint of the shape is entered, and its bounds
  have hfp : ∀ fingerprint, r.fingerprintToGroupId.get fingerprint =
      if fingerprint = hashShape own then some ⟨b.nextGroupCounter⟩
      else b.fingerprintToGroupId.get fingerprint := by
    intro fingerprint
    rw [hfingerprints]
    exact OrderedMap.get_set _ _ _ _
  have hbounds : ∀ fingerprint, r.shapeMetadata.get fingerprint =
      if fingerprint = hashShape own then some (.ofOffsets [offset])
      else b.shapeMetadata.get fingerprint := by
    intro fingerprint
    rw [hmetadata]
    refine (OrderedMap.get_set _ _ _ _).trans ?_
    cases offset <;> rfl
  by_cases heq : shape = own
  · subst heq
    have hcreated : r.groupsById.get ⟨b.nextGroupCounter⟩ =
        some { sampledGroup hashShape shape 1 with id := ⟨b.nextGroupCounter⟩ } := by
      rw [hgroups, OrderedMap.get_modify, if_pos rfl]
      show ((b.groupsById.set _ _).get ⟨b.nextGroupCounter⟩).map _ = _
      rw [OrderedMap.get_set, if_pos rfl]
      rfl
    rw [if_pos rfl, recordOf_of_get ((hfp _).trans (if_pos rfl)) hcreated, hbounds, if_pos rfl]
    rfl
  · rw [if_neg heq, recordOf, recordOf, hfp, hbounds, if_neg (hinj.ne heq), if_neg (hinj.ne heq)]
    cases hg' : b.fingerprintToGroupId.get (hashShape shape) with
    | none => rfl
    | some g' =>
        obtain ⟨group', hgroup', -⟩ := h.groups.fingerprint_iff.mp hg'
        -- the group of another shape is older
        have hne : g' ≠ ⟨b.nextGroupCounter⟩ := by
          intro hsame
          rw [hsame, h.groups.group_free] at hgroup'
          exact absurd hgroup' (by simp)
        have hkept : r.groupsById.get g' = b.groupsById.get g' := by
          rw [hgroups, OrderedMap.get_modify, if_neg hne]
          refine (OrderedMap.get_set _ _ _ _).trans ?_
          rw [if_neg hne]
        rw [Option.bind_some, Option.bind_some, hkept]

/-! ## One call of `admit` -/

/-- What a call for a known shape does that finds no cap reached. -/
theorem admit_known (hpost : observation.isPostFilter = true) {g : GroupId}
    (hg : b.fingerprintToGroupId.get (hashShape observation.shape) = some g)
    {metadata : ShapeMetadata}
    (hmetadata : b.shapeMetadata.get (hashShape observation.shape) = some metadata)
    (hcap : ¬FindsCap hashShape b observation) :
    b.admitObservation hashShape observation =
      if isSuppressedDuplicate (metadata.totalPostFilterObservations + 1) = true then
        (b.noted hashShape observation).suppressDuplicate g
      else (b.noted hashShape observation).commit (hashShape observation.shape) (some g)
        observation := by
  have hlow : ¬isLowSignalStaticAsset observation.shape.toPriorityShape = true := by
    simpa [NetworkObservation.isPostFilter] using hpost
  have hg' : b.observe.fingerprintToGroupId.get (hashShape observation.shape) = some g := hg
  have hk : (((b.observe.noteObservation (hashShape observation.shape)
      observation.instance_.offsetMs).shapeMetadata.get (hashShape observation.shape)).map
        (·.totalPostFilterObservations)).getD 1 = metadata.totalPostFilterObservations + 1 := by
    show (((b.shapeMetadata.modify _ _).get (hashShape observation.shape)).map _).getD 1 = _
    rw [OrderedMap.get_modify_self hmetadata]
    cases observation.instance_.offsetMs <;> rfl
  simp only [FindsCap, hpost, hg, hmetadata, Option.map_some, Option.getD_some, true_and,
    not_and] at hcap
  simp only [admitObservation, if_neg hlow, admitPostFilter, hg', hk]
  split
  · rfl
  · rename_i hkept
    have hroom : ¬(b.observe.noteObservation (hashShape observation.shape)
        observation.instance_.offsetMs).instancesById.size ≥ INSTANCES_CAP :=
      hcap (by simpa using hkept)
    rw [admitBelowInstanceCap, if_neg hroom]
    rfl

/-- What a call for a new shape does that finds no cap reached. -/
theorem admit_new (hpost : observation.isPostFilter = true)
    (hnew : b.fingerprintToGroupId.get (hashShape observation.shape) = none)
    (hcap : ¬FindsCap hashShape b observation) :
    b.admitObservation hashShape observation =
      b.observe.commit (hashShape observation.shape) none observation := by
  have hlow : ¬isLowSignalStaticAsset observation.shape.toPriorityShape = true := by
    simpa [NetworkObservation.isPostFilter] using hpost
  have hnew' : b.observe.fingerprintToGroupId.get (hashShape observation.shape) = none := hnew
  simp only [FindsCap, hpost, hnew, true_and, not_or] at hcap
  have hgroups : ¬b.observe.groupsById.size ≥ GROUPS_CAP := hcap.1
  have hinstances : ¬b.observe.instancesById.size ≥ INSTANCES_CAP := hcap.2
  simp only [admitObservation, if_neg hlow, admitPostFilter, hnew', if_neg hgroups,
    admitBelowInstanceCap, if_neg hinstances]

/-- The shapes with a group are the observed ones. -/
theorem Sampled.new_iff (hs : Sampled hashShape observations b) (h : b.Linked hashShape pending)
    (shape : NetworkObservationShape) :
    b.fingerprintToGroupId.get (hashShape shape) = none ↔ shape ∉ shapesOf observations := by
  rw [← recordOf_eq_none_iff h, hs.records]
  split
  · rename_i hmem
    simp [hmem]
  · rename_i hnew
    simp [hnew]

/-- The bounds of an observed shape are those of all its observations. -/
theorem Sampled.metadata (hs : Sampled hashShape observations b)
    {shape : NetworkObservationShape} (hmem : shape ∈ shapesOf observations) :
    b.shapeMetadata.get (hashShape shape) = some (.ofOffsets (offsetsOf shape observations)) := by
  have hrecord := hs.records shape
  rw [if_pos hmem, recordOf, Option.map_eq_some_iff] at hrecord
  obtain ⟨group, -, heq⟩ := hrecord
  exact (Prod.mk.inj heq).2

/-- The closed form after an observation that passes the filter. -/
theorem Sampled.extend (hs : Sampled hashShape observations b)
    (hpost : observation.isPostFilter = true)
    (hrecords : ∀ shape, recordOf hashShape r shape =
      if shape = observation.shape then
        some (sampledGroup hashShape observation.shape
            ((shapesOf observations).count observation.shape + 1),
          some (.ofOffsets (offsetsOf observation.shape observations ++
            [observation.instance_.offsetMs])))
      else recordOf hashShape b shape)
    (hgroups : r.groupsById.size = b.groupsById.size +
      if observation.shape ∈ shapesOf observations then 0 else 1)
    (hinstances : r.instancesById.size = b.instancesById.size +
      if isSuppressedDuplicate ((shapesOf observations).count observation.shape + 1) = true
      then 0 else 1)
    (hsummary : r.summary.withoutBodies = { b.summary.withoutBodies with
      observedInstances := b.summary.withoutBodies.observedInstances + 1
      instancesSuppressedAsDuplicate := b.summary.withoutBodies.instancesSuppressedAsDuplicate +
        if isSuppressedDuplicate ((shapesOf observations).count observation.shape + 1) = true
        then 1 else 0 }) :
    Sampled hashShape (observations ++ [observation]) r where
  records shape := by
    rw [hrecords, shapesOf_concat, if_pos hpost, offsetsOf_concat, List.count_append,
      List.count_singleton]
    by_cases heq : shape = observation.shape
    · subst heq
      simp [hpost]
    · have hne : ¬(observation.shape == shape) = true := by simpa using Ne.symm heq
      -- other shapes are observed as often as before
      have hmem : shape ∈ shapesOf observations ++ [observation.shape] ↔
          shape ∈ shapesOf observations := by
        simp [heq]
      have hother : ¬(observation.isPostFilter = true ∧ observation.shape = shape) :=
        fun hmatch ↦ heq hmatch.2.symm
      rw [if_neg heq, hs.records, if_neg hne, if_neg hother, Nat.add_zero]
      simp only [hmem]
  groups_size := by rw [hgroups, hs.groups_size, groupsTally_concat hpost]
  instances_size := by rw [hinstances, hs.instances_size, instancesTally_concat hpost]
  summary := by
    rw [hsummary, hs.summary]
    simp [sampledSummary, suppressedTally_concat hpost, hpost]

/-- A filtered observation changes only counters. -/
theorem Sampled.filtered (hs : Sampled hashShape observations b)
    (hfilter : observation.isPostFilter = false) :
    Sampled hashShape (observations ++ [observation])
      (b.admitObservation hashShape observation) := by
  have hlow : isLowSignalStaticAsset observation.shape.toPriorityShape = true := by
    simpa [NetworkObservation.isPostFilter] using hfilter
  have hshapes : shapesOf (observations ++ [observation]) = shapesOf observations := by
    rw [shapesOf_concat, if_neg (by simp [hfilter])]
  obtain ⟨hgroups, hinstances, hsuppressed⟩ := tallies_of_filtered observations hfilter
  rw [admitObservation, if_pos hlow]
  refine ⟨fun shape ↦ ?_, hs.groups_size.trans hgroups.symm,
    hs.instances_size.trans hinstances.symm, ?_⟩
  · have hother : ¬(observation.isPostFilter = true ∧ observation.shape = shape) := by
      simp [hfilter]
    rw [hshapes, offsetsOf_concat, if_neg hother]
    exact hs.records shape
  · have hbefore := hs.summary
    simp only [NetworkSummary.withoutBodies, sampledSummary, NetworkSummary.mk.injEq] at hbefore
    simp only [observe, dropByFilter, NetworkSummary.withoutBodies, sampledSummary, hsuppressed,
      NetworkSummary.mk.injEq, List.length_append, List.countP_append]
    simpa [hfilter] using hbefore

/-- The records after one more observation of a known shape has been noted and counted. -/
theorem Sampled.records_known (hs : Sampled hashShape observations b)
    (h : b.Linked hashShape pending) (hinj : Function.Injective hashShape) {g : GroupId}
    (hg : b.fingerprintToGroupId.get (hashShape observation.shape) = some g)
    (hmem : observation.shape ∈ shapesOf observations)
    {f : NetworkGroup φ → NetworkGroup φ}
    (hanonymous : ∀ group : NetworkGroup φ, (f group).anonymous = f group.anonymous)
    (hf : f (sampledGroup hashShape observation.shape
        ((shapesOf observations).count observation.shape)) =
      sampledGroup hashShape observation.shape
        ((shapesOf observations).count observation.shape + 1))
    (hfingerprints : r.fingerprintToGroupId = b.fingerprintToGroupId)
    (hgroups : r.groupsById = b.groupsById.modify g f)
    (hmetadata : r.shapeMetadata = b.shapeMetadata.modify (hashShape observation.shape)
      (ShapeMetadata.observe observation.instance_.offsetMs)) (shape : NetworkObservationShape) :
    recordOf hashShape r shape =
      if shape = observation.shape then
        some (sampledGroup hashShape observation.shape
            ((shapesOf observations).count observation.shape + 1),
          some (.ofOffsets (offsetsOf observation.shape observations ++
            [observation.instance_.offsetMs])))
      else recordOf hashShape b shape := by
  rw [recordOf_modify h hinj hg hanonymous hfingerprints hgroups hmetadata]
  split
  · rename_i heq
    rw [heq, hs.records, if_pos hmem, Option.map_some, Option.map_some, hf,
      ShapeMetadata.observe_ofOffsets]
  · rfl

/-- One call of `admit` for a known shape that finds no cap reached keeps the closed form. -/
theorem Sampled.step_known (hs : Sampled hashShape observations b)
    (h : b.Invariant hashShape 0) (hinj : Function.Injective hashShape)
    (hpost : observation.isPostFilter = true)
    (hmem : observation.shape ∈ shapesOf observations)
    (hcap : ¬FindsCap hashShape b observation) :
    Sampled hashShape (observations ++ [observation])
      (b.admitObservation hashShape observation) := by
  obtain ⟨g, hg⟩ : ∃ g, b.fingerprintToGroupId.get (hashShape observation.shape) = some g := by
    rw [← Option.ne_none_iff_exists']
    exact fun hnew ↦ (hs.new_iff h.toLinked _).mp hnew hmem
  have hcall := admit_known hpost hg (hs.metadata hmem) hcap
  -- the count that decides about the sample is that of the observations of the shape
  have htotal : (ShapeMetadata.ofOffsets
      (offsetsOf observation.shape observations)).totalPostFilterObservations =
        (shapesOf observations).count observation.shape := length_offsetsOf _ _
  rw [htotal] at hcall
  rw [hcall]
  by_cases hk : isSuppressedDuplicate
      ((shapesOf observations).count observation.shape + 1) = true
  · rw [if_pos hk]
    refine hs.extend hpost ?_ ?_ ?_ ?_
    · exact hs.records_known h.toLinked hinj hg hmem
        (f := NetworkGroup.countSuppressed) (fun _ ↦ rfl)
        (countSuppressed_sampledGroup hashShape _ hk) rfl rfl rfl
    · rw [if_pos hmem]
      exact OrderedMap.size_modify _ _ _
    · rw [if_pos hk]
      rfl
    · rw [if_pos hk]
      rfl
  · rw [if_neg hk]
    have hentered := (b.noted hashShape observation).commit_entered
      (hashShape observation.shape) (some g) observation
    refine hs.extend hpost ?_ ?_ ?_ ?_
    · exact hs.records_known h.toLinked hinj hg hmem
        (f := NetworkGroup.countCommitted) (fun _ ↦ rfl)
        (countCommitted_sampledGroup hashShape _ hk) hentered.fingerprints hentered.groups
        hentered.metadata
    · rw [if_pos hmem, hentered.groups]
      exact OrderedMap.size_modify _ _ _
    · rw [if_neg hk]
      exact hentered.size h.groups.instance_free
    · obtain ⟨omitted, truncated, hsummary⟩ := hentered.summary
      rw [if_neg hk, hsummary]
      rfl

/-- One call of `admit` for a new shape that finds no cap reached keeps the closed form. -/
theorem Sampled.step_new (hs : Sampled hashShape observations b)
    (h : b.Invariant hashShape 0) (hinj : Function.Injective hashShape)
    (hpost : observation.isPostFilter = true)
    (hmem : observation.shape ∉ shapesOf observations)
    (hcap : ¬FindsCap hashShape b observation) :
    Sampled hashShape (observations ++ [observation])
      (b.admitObservation hashShape observation) := by
  have hcount := List.count_eq_zero_of_not_mem hmem
  -- a first observation is never suppressed
  have hk :
      ¬isSuppressedDuplicate ((shapesOf observations).count observation.shape + 1) = true := by
    rw [hcount]
    decide
  rw [admit_new hpost ((hs.new_iff h.toLinked _).mpr hmem) hcap]
  have hentered := b.observe.commit_entered (hashShape observation.shape) none observation
  refine hs.extend hpost (fun shape ↦ ?_) ?_ ?_ ?_
  · have hoffsets : offsetsOf observation.shape observations = [] := by
      rw [← List.length_eq_zero_iff, length_offsetsOf, hcount]
    rw [hcount, hoffsets]
    exact recordOf_new h.toLinked hinj hentered.fingerprints hentered.groups hentered.metadata shape
  · rw [if_neg hmem, hentered.groups, OrderedMap.size_modify]
    exact OrderedMap.size_set_of_get_none h.groups.group_free _
  · rw [if_neg hk]
    exact hentered.size h.groups.instance_free
  · obtain ⟨omitted, truncated, hsummary⟩ := hentered.summary
    rw [if_neg hk, hsummary]
    rfl

/-- A call of `admit` that finds no cap reached keeps the closed form. -/
theorem Sampled.step (hs : Sampled hashShape observations b) (h : b.Invariant hashShape 0)
    (hinj : Function.Injective hashShape) (hcap : ¬FindsCap hashShape b observation) :
    Sampled hashShape (observations ++ [observation])
      (b.admitObservation hashShape observation) := by
  cases hpost : observation.isPostFilter with
  | false => exact hs.filtered hpost
  | true =>
      by_cases hmem : observation.shape ∈ shapesOf observations
      · exact hs.step_known h hinj hpost hmem hcap
      · exact hs.step_new h hinj hpost hmem hcap

/-! ## Runs -/

/-- A run one call longer. -/
theorem uncapped_concat : Uncapped hashShape (observations ++ [observation]) ↔
    Uncapped hashShape observations ∧
      ¬FindsCap hashShape (admitAll hashShape observations) observation := by
  constructor
  · intro h
    refine ⟨fun before current after heq ↦ h before current (after ++ [observation]) ?_,
      h observations observation [] rfl⟩
    rw [heq]
    simp
  · rintro ⟨hbefore, hlast⟩ before current after heq
    rcases Text.concat_eq_append_cons.mp heq with ⟨rfl, rfl, -⟩ | ⟨after', -, hsplit⟩
    · exact hlast
    · exact hbefore before current after' hsplit

/-- No run of calls that find no cap reached leaves the closed form. -/
theorem sampled_of_uncapped (hinj : Function.Injective hashShape)
    (h : Uncapped hashShape observations) :
    Sampled hashShape observations (admitAll hashShape observations) := by
  induction observations using List.reverseRecOn with
  | nil => exact ⟨fun _ ↦ rfl, rfl, rfl, rfl⟩
  | append_singleton observations observation ih =>
      -- one more call of `admit`
      obtain ⟨hbefore, hcap⟩ := uncapped_concat.mp h
      rw [admitAll_concat]
      exact (ih hbefore).step (admitAll_invariant hinj observations) hinj hcap

/-- A call finds a cap reached only if it would exceed it. -/
theorem Sampled.full_of_findsCap (hs : Sampled hashShape observations b)
    (h : b.Linked hashShape pending) (hcap : FindsCap hashShape b observation) :
    (observation.shape ∉ shapesOf observations ∧ GROUPS_CAP ≤ b.groupsById.size) ∨
      (isSuppressedDuplicate ((shapesOf observations).count observation.shape + 1) = false ∧
        INSTANCES_CAP ≤ b.instancesById.size) := by
  obtain ⟨-, hfull⟩ := hcap
  cases hfp : b.fingerprintToGroupId.get (hashShape observation.shape) with
  | none =>
      have hnew := (hs.new_iff h observation.shape).mp hfp
      rw [hfp] at hfull
      rcases hfull with hgroups | hinstances
      · exact .inl ⟨hnew, hgroups⟩
      · refine .inr ⟨?_, hinstances⟩
        rw [List.count_eq_zero_of_not_mem hnew]
        decide
  | some g =>
      have hmem : observation.shape ∈ shapesOf observations := by
        by_contra hnew
        rw [(hs.new_iff h observation.shape).mpr hnew] at hfp
        exact absurd hfp (by simp)
      rw [hfp, hs.metadata hmem, Option.map_some, Option.getD_some] at hfull
      rw [← length_offsetsOf]
      exact .inr hfull

/-- Whether the groups and the instances of some observations fit the caps. -/
def Fits (observations : List NetworkObservation) : Prop :=
  groupsTally observations ≤ GROUPS_CAP ∧ instancesTally observations ≤ INSTANCES_CAP

/-- What fits, fits with the last observation left out. -/
theorem Fits.of_concat (h : Fits (observations ++ [observation])) : Fits observations := by
  have hmono : Monotone (min 1) := fun _ _ hle ↦ min_le_min_left 1 hle
  have hgroups := tally_le_tally_append (f := min 1) rfl hmono (shapesOf observations)
    (shapesOf [observation])
  have hinstances := tally_le_tally_append (f := keptCount) rfl keptCount_mono
    (shapesOf observations) (shapesOf [observation])
  rw [← shapesOf_append] at hgroups hinstances
  exact ⟨hgroups.trans h.1, hinstances.trans h.2⟩

/-- No call of `admit` finds a cap reached exactly if all groups and instances fit. This does not
depend on the order. -/
theorem uncapped_iff_fits (hinj : Function.Injective hashShape) :
    Uncapped hashShape observations ↔ Fits observations := by
  constructor
  · intro h
    -- the sizes are the tallies, and the invariant keeps the sizes within the caps
    have hs := sampled_of_uncapped hinj h
    have hinv := admitAll_invariant hinj observations
    exact ⟨hs.groups_size ▸ hinv.groups_cap, hs.instances_size ▸ hinv.instances_cap⟩
  · intro h
    induction observations using List.reverseRecOn with
    | nil => exact fun before current after heq ↦ absurd heq (by simp)
    | append_singleton observations observation ih =>
        have hbefore := ih h.of_concat
        have hs := sampled_of_uncapped hinj hbefore
        have hinv := admitAll_invariant hinj observations
        refine uncapped_concat.mpr ⟨hbefore, fun hfull ↦ ?_⟩
        -- a cap that is found reached would be exceeded by this observation
        obtain ⟨hgroups, hinstances⟩ := h
        rw [groupsTally_concat hfull.1, ← hs.groups_size] at hgroups
        rw [instancesTally_concat hfull.1, ← hs.instances_size] at hinstances
        rcases hs.full_of_findsCap (admitAll_invariant hinj observations).toLinked hfull with
          ⟨hnew, hcap⟩ | ⟨hk, hcap⟩
        · rw [if_neg hnew] at hgroups
          omega
        · rw [if_neg (by simp [hk])] at hinstances
          omega

/-! ## Reports -/

omit [DecidableEq φ] in
/-- The group of an observed shape in a report. -/
def reportedGroup (hashShape : NetworkObservationShape → φ)
    (observations : List NetworkObservation) (shape : NetworkObservationShape) : NetworkGroup φ :=
  { sampledGroup hashShape shape ((shapesOf observations).count shape) with
    retainedInstanceCount := keptCount ((shapesOf observations).count shape)
    firstOffsetMs := ((offsetsOf shape observations).filterMap id).min?
    lastOffsetMs := ((offsetsOf shape observations).filterMap id).max? }

/-- The summary of some observations in a report. -/
def reportedSummary (observations : List NetworkObservation) : NetworkSummary :=
  { sampledSummary observations with
    retainedInstances := instancesTally observations
    retainedGroups := groupsTally observations }

omit [DecidableEq φ] in
/-- The group of a shape does not depend on the order of the observations. -/
theorem reportedGroup_perm (hashShape : NetworkObservationShape → φ)
    {permuted : List NetworkObservation} (hperm : observations.Perm permuted)
    (shape : NetworkObservationShape) :
    reportedGroup hashShape permuted shape = reportedGroup hashShape observations shape := by
  have hoffsets : ((offsetsOf shape observations).filterMap id).Perm
      ((offsetsOf shape permuted).filterMap id) :=
    ((hperm.filter _).map _).filterMap _
  rw [reportedGroup, reportedGroup, (shapesOf_perm hperm).count_eq, min?_perm hoffsets,
    max?_perm hoffsets]

/-- The summary does not depend on the order of the observations. -/
theorem reportedSummary_perm {permuted : List NetworkObservation}
    (hperm : observations.Perm permuted) :
    reportedSummary permuted = reportedSummary observations := by
  simp only [reportedSummary, sampledSummary, groupsTally, instancesTally, suppressedTally,
    tally_perm _ (shapesOf_perm hperm), hperm.length_eq, hperm.countP_eq]

/-- Whether all groups and instances fit does not depend on the order of the observations. -/
theorem Fits.perm {permuted : List NetworkObservation} (h : Fits observations)
    (hperm : observations.Perm permuted) : Fits permuted := by
  rwa [Fits, groupsTally, instancesTally, tally_perm _ (shapesOf_perm hperm),
    tally_perm _ (shapesOf_perm hperm)] at h

/-- No more observations than either cap fit. -/
theorem fits_of_length (h : observations.length ≤ GROUPS_CAP) : Fits observations := by
  have hshapes : (shapesOf observations).length ≤ observations.length := by
    rw [shapesOf, List.length_map]
    exact List.length_filter_le _ _
  have hgroups := tally_le_length (f := min 1) (fun n ↦ min_le_right 1 n) (shapesOf observations)
  have hinstances := tally_le_length (f := keptCount) keptCount_le (shapesOf observations)
  have hcaps : GROUPS_CAP ≤ INSTANCES_CAP := by decide
  exact ⟨hgroups.trans (hshapes.trans h), hinstances.trans (hshapes.trans (h.trans hcaps))⟩

/-- The group of a retained shape is determined by the record of the shape. -/
theorem Sampled.group_of_get (hs : Sampled hashShape observations b)
    (h : b.Linked hashShape pending) {g : GroupId} {group : NetworkGroup φ}
    (hg : b.groupsById.get g = some group) :
    group.shape ∈ shapesOf observations ∧
      group.anonymous = sampledGroup hashShape group.shape
        ((shapesOf observations).count group.shape) ∧
      b.shapeMetadata.get group.fingerprint =
        some (.ofOffsets (offsetsOf group.shape observations)) := by
  have hfp := h.groups.fingerprint_iff.mpr ⟨group, hg, rfl⟩
  have hshape := h.groups.group_shape hg
  rw [← hshape] at hfp ⊢
  have hrecord := hs.records group.shape
  rw [recordOf_of_get hfp hg] at hrecord
  split at hrecord
  · rename_i hmem
    obtain ⟨hgroup, hmetadata⟩ := Prod.mk.inj (Option.some.inj hrecord)
    exact ⟨hmem, hgroup, hmetadata⟩
  · exact absurd hrecord (by simp)

/-- What a report says of the groups after some observations none of which found a cap reached. -/
structure Tallied (hashShape : NetworkObservationShape → φ)
    (observations : List NetworkObservation) (report : NetworkReport φ) : Prop where
  groups : ∀ {g group}, report.groups.get g = some group →
    group.shape ∈ shapesOf observations ∧
      group.anonymous = reportedGroup hashShape observations group.shape
  observed : ∀ {shape}, shape ∈ shapesOf observations →
    ∃ g group, report.groups.get g = some group ∧ group.shape = shape
  unique : ∀ {g g' group group'}, report.groups.get g = some group →
    report.groups.get g' = some group' → group.shape = group'.shape → g = g'
  summary : report.summary.withoutBodies = reportedSummary observations

/-- What `finalize` makes of the group of a shape. -/
theorem Sampled.reported_group (hs : Sampled hashShape observations b)
    (h : b.Linked hashShape pending) {report : NetworkReport φ} (hreported : Reported b report)
    {g : GroupId} {group : NetworkGroup φ} (hg : report.groups.get g = some group)
    (hbalance : group.occurrenceCount = group.retainedInstanceCount +
      group.suppressedInstanceCount + group.evictedInstanceCount) :
    group.shape ∈ shapesOf observations ∧
      group.anonymous = reportedGroup hashShape observations group.shape := by
  rw [hreported.groups, Option.map_eq_some_iff] at hg
  obtain ⟨original, horiginal, rfl⟩ := hg
  obtain ⟨hmem, hanonymous, hmetadata⟩ := hs.group_of_get h horiginal
  have hoccurrence : original.occurrenceCount = (shapesOf observations).count original.shape :=
    congrArg NetworkGroup.occurrenceCount hanonymous
  have hsuppressed : original.suppressedInstanceCount =
      suppressedCount ((shapesOf observations).count original.shape) :=
    congrArg NetworkGroup.suppressedInstanceCount hanonymous
  have hevicted : original.evictedInstanceCount = 0 :=
    congrArg NetworkGroup.evictedInstanceCount hanonymous
  have hfirst : original.firstOffsetMs = none := congrArg NetworkGroup.firstOffsetMs hanonymous
  have hlast : original.lastOffsetMs = none := congrArg NetworkGroup.lastOffsetMs hanonymous
  -- what is neither suppressed nor evicted is retained
  have hretained : (report.instances.countP fun inst ↦ inst.groupId == g) =
      keptCount ((shapesOf observations).count original.shape) := by
    have hle := keptCount_le ((shapesOf observations).count original.shape)
    simp only [hoccurrence, hsuppressed, hevicted, suppressedCount] at hbalance
    omega
  refine ⟨hmem, ?_⟩
  rw [hretained, hmetadata, hfirst, hlast, Option.or_none, Option.or_none]
  exact congrArg (fun group : NetworkGroup φ ↦ { group with
    retainedInstanceCount := keptCount ((shapesOf observations).count original.shape)
    firstOffsetMs := ((offsetsOf original.shape observations).filterMap id).min?
    lastOffsetMs := ((offsetsOf original.shape observations).filterMap id).max? }) hanonymous

/-- Every observed shape has a group. -/
theorem Sampled.exists_group (hs : Sampled hashShape observations b)
    (h : b.Linked hashShape pending) {shape : NetworkObservationShape}
    (hmem : shape ∈ shapesOf observations) :
    ∃ g group, b.groupsById.get g = some group ∧ group.shape = shape := by
  obtain ⟨g, hg⟩ : ∃ g, b.fingerprintToGroupId.get (hashShape shape) = some g := by
    rw [← Option.ne_none_iff_exists']
    exact fun hnew ↦ (hs.new_iff h _).mp hnew hmem
  obtain ⟨group, hgroup, -⟩ := h.groups.fingerprint_iff.mp hg
  have hrecord := hs.records shape
  rw [recordOf_of_get hg hgroup, if_pos hmem] at hrecord
  exact ⟨g, group, hgroup,
    congrArg NetworkGroup.shape (Prod.mk.inj (Option.some.inj hrecord)).1⟩

/-- Reports after observations none of which found a cap reached have the closed form. -/
theorem Sampled.tallied (hs : Sampled hashShape observations b) (h : b.Invariant hashShape 0)
    {report : NetworkReport φ} (hreported : Reported b report)
    (hcounted : ∀ {g group}, report.groups.get g = some group →
      group.occurrenceCount = group.retainedInstanceCount + group.suppressedInstanceCount +
        group.evictedInstanceCount ∧ 1 ≤ group.retainedInstanceCount) :
    Tallied hashShape observations report where
  groups hg := hs.reported_group h.toLinked hreported hg (hcounted hg).1
  observed {shape} hmem := by
    obtain ⟨g, original, horiginal, hshape⟩ := hs.exists_group h.toLinked hmem
    have hgroup := hreported.groups g
    rw [horiginal, Option.map_some] at hgroup
    exact ⟨g, _, hgroup, hshape⟩
  unique {g g' group group'} hg hg' hsame := by
    rw [hreported.groups, Option.map_eq_some_iff] at hg hg'
    obtain ⟨original, horiginal, rfl⟩ := hg
    obtain ⟨original', horiginal', rfl⟩ := hg'
    replace hsame : original.shape = original'.shape := hsame
    have hfp : original.fingerprint = original'.fingerprint := by
      rw [← h.groups.group_shape horiginal, ← h.groups.group_shape horiginal', hsame]
    have hnamed := h.groups.fingerprint_iff.mpr ⟨original, horiginal, rfl⟩
    rw [hfp, h.groups.fingerprint_iff.mpr ⟨original', horiginal', rfl⟩] at hnamed
    exact (Option.some.inj hnamed).symm
  summary := by
    have hsize : report.groups.size = b.groupsById.size :=
      OrderedMap.size_congr fun g ↦ by rw [hreported.groups, Option.isSome_map]
    rw [hreported.summary, hreported.length, hsize, hs.groups_size, hs.instances_size]
    exact congrArg (fun summary : NetworkSummary ↦ { summary with
      retainedInstances := instancesTally observations
      retainedGroups := groupsTally observations }) hs.summary

omit [DecidableEq φ] in
/-- The groups of a report are those of the observed shapes. -/
theorem Tallied.mem_groups {report : NetworkReport φ} (h : Tallied hashShape observations report)
    {record : NetworkGroup φ} :
    record ∈ report.groups.values.map NetworkGroup.anonymous ↔
      ∃ shape ∈ shapesOf observations, reportedGroup hashShape observations shape = record := by
  rw [List.mem_map]
  constructor
  · rintro ⟨group, hgroup, rfl⟩
    obtain ⟨g, hg⟩ := OrderedMap.mem_values.mp hgroup
    obtain ⟨hmem, heq⟩ := h.groups hg
    exact ⟨group.shape, hmem, heq.symm⟩
  · rintro ⟨shape, hmem, rfl⟩
    obtain ⟨g, group, hg, rfl⟩ := h.observed hmem
    exact ⟨group, OrderedMap.mem_values.mpr ⟨g, hg⟩, (h.groups hg).2⟩

omit [DecidableEq φ] in
/-- The groups of a report differ in more than their ids. -/
theorem Tallied.nodup_groups {report : NetworkReport φ}
    (h : Tallied hashShape observations report) :
    (report.groups.values.map NetworkGroup.anonymous).Nodup := by
  rw [OrderedMap.values, List.map_map]
  refine List.Nodup.map_on (fun entry hentry other hother heq ↦ ?_)
    (List.Nodup.of_map _ report.groups.nodup)
  have hg := OrderedMap.mem_entries.mp hentry
  have hg' := OrderedMap.mem_entries.mp hother
  have hsame : entry.2.anonymous = other.2.anonymous := heq
  have hshape : entry.2.shape = other.2.shape := by
    show entry.2.anonymous.shape = other.2.anonymous.shape
    rw [hsame]
  have hkey := h.unique hg hg' hshape
  rw [hkey, hg', Option.some.injEq] at hg
  exact Prod.ext hkey hg.symm

omit [DecidableEq φ] in
/-- Reports of the same observations in different orders have the same groups, up to their ids and
their order. -/
theorem Tallied.groups_perm {permuted : List NetworkObservation} {report report' : NetworkReport φ}
    (h : Tallied hashShape observations report) (h' : Tallied hashShape permuted report')
    (hperm : observations.Perm permuted) :
    (report'.groups.values.map NetworkGroup.anonymous).Perm
      (report.groups.values.map NetworkGroup.anonymous) := by
  refine (List.perm_ext_iff_of_nodup h'.nodup_groups h.nodup_groups).mpr fun record ↦ ?_
  rw [h'.mem_groups, h.mem_groups]
  simp only [reportedGroup_perm hashShape hperm, (shapesOf_perm hperm).mem_iff]

/-- The report of observations that fit the caps. -/
theorem finalize_tallied (hinj : Function.Injective hashShape) (h : Fits observations) :
    ∃ report, (admitAll hashShape observations).finalize = .ok report ∧
      Tallied hashShape observations report := by
  have hinv := admitAll_invariant hinj observations
  obtain ⟨report, hfinalize, hreported, -, hcounted⟩ := finalize_spec hinv
  have hs := sampled_of_uncapped hinj ((uncapped_iff_fits hinj).mpr h)
  exact ⟨report, hfinalize, hs.tallied hinv hreported hcounted⟩

end

/-- If no call of `admit` finds a cap reached, every shape that passes the filter and is observed
`n ≥ 1` times has exactly one group in the report, which counts `n` occurrences, retains the first
three and every tenth after them, suppresses the others and has none evicted. Every other order of
the observations gives the same groups, but for their ids and their order, so the same counts and
offset bounds; and the same counters of the summary that are not about bodies. -/
theorem sampling_order_independent (sha1 : List JsonScalar → φ)
    (hinj : Function.Injective (hashShape sha1)) (observations : List NetworkObservation)
    (huncapped : Uncapped (hashShape sha1) observations) :
    ∃ report, (admitAll (hashShape sha1) observations).finalize = .ok report ∧
      (∀ shape n, isLowSignalStaticAsset shape.toPriorityShape = false →
        n = (observations.countP fun observation ↦ observation.shape == shape) → 1 ≤ n →
        ∃ g group, report.groups.get g = some group ∧ group.shape = shape ∧
          (∀ g' group', report.groups.get g' = some group' → group'.shape = shape → g' = g) ∧
          group.occurrenceCount = n ∧
          group.retainedInstanceCount = min n 3 + (n - 3) / 10 ∧
          group.retainedInstanceCount + group.suppressedInstanceCount = n ∧
          group.evictedInstanceCount = 0) ∧
      ∀ permuted, observations.Perm permuted →
        ∃ report', (admitAll (hashShape sha1) permuted).finalize = .ok report' ∧
          (report'.groups.values.map NetworkGroup.anonymous).Perm
            (report.groups.values.map NetworkGroup.anonymous) ∧
          report'.summary.withoutBodies = report.summary.withoutBodies := by
  have hfits := (uncapped_iff_fits hinj).mp huncapped
  obtain ⟨report, hfinalize, htallied⟩ := finalize_tallied hinj hfits
  refine ⟨report, hfinalize, fun shape n hpost hn hpos ↦ ?_, fun permuted hperm ↦ ?_⟩
  · have hcount := (count_shapesOf hpost observations).trans hn.symm
    have hmem : shape ∈ shapesOf observations := List.count_pos_iff.mp (by omega)
    obtain ⟨g, group, hg, rfl⟩ := htallied.observed hmem
    have hgroup := (htallied.groups hg).2
    rw [reportedGroup, hcount] at hgroup
    have hretained : group.retainedInstanceCount = keptCount n :=
      congrArg NetworkGroup.retainedInstanceCount hgroup
    have hsuppressed : group.suppressedInstanceCount = suppressedCount n :=
      congrArg NetworkGroup.suppressedInstanceCount hgroup
    have hle := keptCount_le n
    refine ⟨g, group, hg, rfl, fun g' group' hg' hsame ↦ htallied.unique hg' hg hsame,
      congrArg NetworkGroup.occurrenceCount hgroup, hretained, ?_,
      congrArg NetworkGroup.evictedInstanceCount hgroup⟩
    rw [hretained, hsuppressed, suppressedCount]
    omega
  · obtain ⟨report', hfinalize', htallied'⟩ := finalize_tallied hinj (hfits.perm hperm)
    refine ⟨report', hfinalize', htallied.groups_perm htallied' hperm, ?_⟩
    rw [htallied'.summary, htallied.summary, reportedSummary_perm hperm]

/-- The same request observed four times, the last time without an offset. -/
theorem sampling_order_independent_repeated :
    ∃ report, (admitAll (hashShape id) [sampleObservation, sampleObservation, sampleObservation,
        { sampleObservation with instance_ :=
          { sampleObservation.instance_ with offsetMs := none } }]).finalize = .ok report ∧
      ∃ g group, report.groups.get g = some group ∧ group.shape = sampleObservation.shape ∧
        group.occurrenceCount = 4 ∧ group.retainedInstanceCount = 3 := by
  have hinj := hashShape_injective (φ := List JsonScalar) Function.injective_id
  obtain ⟨report, hfinalize, hgroups, -⟩ := sampling_order_independent id hinj
    [sampleObservation, sampleObservation, sampleObservation,
      { sampleObservation with instance_ :=
        { sampleObservation.instance_ with offsetMs := none } }]
    ((uncapped_iff_fits hinj).mpr (fits_of_length (by decide)))
  obtain ⟨g, group, hg, hshape, -, hoccurrence, hretained, -⟩ :=
    hgroups sampleObservation.shape 4 (by decide +kernel) (by decide +kernel) (by decide)
  exact ⟨report, hfinalize, g, group, hg, hshape, hoccurrence, hretained⟩

end NetworkBuilder

end CoreUtils.Reporter
