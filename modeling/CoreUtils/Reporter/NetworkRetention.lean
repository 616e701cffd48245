import CoreUtils.Reporter.NetworkAdmission

/-!
# What a call of `admit` displaces

What a single call does in any reachable state. A dropped observation leaves every retained record
alone (`admit_drops_atomically`), and an eviction takes away exactly one entry of least rank,
strictly below the incoming tier (`Outcome.displacement`).
-/

namespace CoreUtils.Reporter

/-- How many observations were dropped rather than retained or evicted later. -/
def NetworkSummary.dropped (summary : NetworkSummary) : ℕ :=
  summary.instancesDroppedByFilter + summary.instancesDroppedByGroupCap +
    summary.instancesDroppedByInstanceCap + summary.instancesSuppressedAsDuplicate

namespace NetworkBuilder

variable {φ : Type} [DecidableEq φ] {b r : NetworkBuilder φ} {observation : NetworkObservation}

omit [DecidableEq φ] in
/-- The call that led from `b` to `r` dropped its observation. -/
def Drops (b r : NetworkBuilder φ) : Prop := b.summary.dropped < r.summary.dropped

omit [DecidableEq φ] in
instance (b r : NetworkBuilder φ) : Decidable (Drops b r) := inferInstanceAs (Decidable (_ < _))

/-- From `b` to `r`, nothing but the counters of one shape, its offset metadata and the summary
has changed. -/
structure Unaffected (fingerprint : φ) (b r : NetworkBuilder φ) : Prop where
  group_ids : r.groupsById.keys = b.groupsById.keys
  instances : r.instancesById = b.instancesById
  bodies : r.bodiesById = b.bodiesById
  body_hashes : r.bodyHashToBodyId = b.bodyHashToBodyId
  body_refs : r.bodyRefCounts = b.bodyRefCounts
  redirects : r.instanceRedirectToUrl = b.instanceRedirectToUrl
  sequences : r.instanceSequenceById = b.instanceSequenceById
  fingerprints : r.fingerprintToGroupId = b.fingerprintToGroupId
  index : r.groupInstanceIndex = b.groupInstanceIndex
  next_ids : r.nextGroupCounter = b.nextGroupCounter ∧
    r.nextInstanceCounter = b.nextInstanceCounter ∧ r.nextBodyCounter = b.nextBodyCounter
  groups : ∀ {g group}, b.groupsById.get g = some group → ∃ occurrences suppressed,
    r.groupsById.get g = some { group with
      occurrenceCount := occurrences, suppressedInstanceCount := suppressed }
  other_groups : ∀ {g}, b.fingerprintToGroupId.get fingerprint ≠ some g →
    r.groupsById.get g = b.groupsById.get g
  metadata_keys : r.shapeMetadata.keys = b.shapeMetadata.keys
  other_metadata : ∀ {other}, other ≠ fingerprint →
    r.shapeMetadata.get other = b.shapeMetadata.get other
  evicted : r.summary.instancesEvictedAfterAdmission = b.summary.instancesEvictedAfterAdmission

/-- From `b` to `r`, an instance was added to a group that carries the given shape. -/
structure Retained (g : GroupId) (shape : NetworkObservationShape) (fingerprint : φ)
    (b r : NetworkBuilder φ) : Prop where
  fresh : b.instancesById.get ⟨b.nextInstanceCounter⟩ = none
  group : ∃ group, r.groupsById.get g = some group ∧ group.id = g ∧ group.shape = shape
  fingerprint : r.fingerprintToGroupId.get fingerprint = some g
  instance_ : ∃ inst, r.instancesById.get ⟨b.nextInstanceCounter⟩ = some inst ∧ inst.groupId = g
  index : ∃ ids, r.groupInstanceIndex.get g = some ids ∧
    ids.get ⟨b.nextInstanceCounter⟩ = some ()

/-! ## Drops -/

section

variable {hashShape : NetworkObservationShape → φ}

/-- A displacement creates nothing and moves no counter but that of the evictions. -/
theorem Displaced.frame {incoming : PriorityShape} {existing : Option GroupId}
    {c : NetworkBuilder φ} {pending : ℕ} (h : b.Invariant hashShape pending)
    (hdisplaced : Displaced incoming existing b c) :
    c.nextGroupCounter = b.nextGroupCounter ∧ c.nextInstanceCounter = b.nextInstanceCounter ∧
      ∃ evicted, c.summary = { b.summary with instancesEvictedAfterAdmission := evicted } := by
  cases hdisplaced with
  | nothing => exact ⟨rfl, rfl, _, rfl⟩
  | group _ hg _ _ _ =>
      obtain ⟨-, hevicted, -⟩ := removeGroup_spec h hg
      exact ⟨hevicted.nextGroup, hevicted.nextInstance, _, hevicted.summary⟩
  | instance_ hi _ _ _ =>
      obtain ⟨-, hevicted, -⟩ := removeInstance_spec h hi
      exact ⟨hevicted.nextGroup, hevicted.nextInstance, _, hevicted.summary⟩

/-- Changing the metadata of one shape, counters of its group and the summary. -/
theorem unaffected_of_counters {fingerprint : φ} {g : GroupId}
    {f : NetworkGroup φ → NetworkGroup φ} {k : ShapeMetadata → ShapeMetadata}
    (hr : r = { b with
      groupsById := b.groupsById.modify g f
      shapeMetadata := b.shapeMetadata.modify fingerprint k
      summary := r.summary })
    (hg : f = id ∨ b.fingerprintToGroupId.get fingerprint = some g)
    (hf : ∀ group, ∃ occurrences suppressed, f group = { group with
      occurrenceCount := occurrences, suppressedInstanceCount := suppressed })
    (hevicted : r.summary.instancesEvictedAfterAdmission =
      b.summary.instancesEvictedAfterAdmission) :
    Unaffected fingerprint b r where
  group_ids := by rw [hr]; exact OrderedMap.keys_modify _ _ _
  instances := by rw [hr]
  bodies := by rw [hr]
  body_hashes := by rw [hr]
  body_refs := by rw [hr]
  redirects := by rw [hr]
  sequences := by rw [hr]
  fingerprints := by rw [hr]
  index := by rw [hr]
  next_ids := by rw [hr]; exact ⟨rfl, rfl, rfl⟩
  groups {g' group} hgroup := by
    rw [hr]
    by_cases heq : g' = g
    · subst heq
      obtain ⟨occurrences, suppressed, hcounters⟩ := hf group
      exact ⟨occurrences, suppressed, by simp [hgroup, hcounters]⟩
    · exact ⟨_, _, by simpa [heq] using hgroup⟩
  other_groups {g'} hne := by
    rw [hr]
    rcases hg with rfl | hg
    · simp
    · have heq : g' ≠ g := fun heq ↦ hne (heq ▸ hg)
      simp [heq]
  metadata_keys := by rw [hr]; exact OrderedMap.keys_modify _ _ _
  other_metadata hne := by rw [hr]; simp [hne]
  evicted := hevicted

/-- A commitment retains the observation in its group. -/
theorem retained_of_commit {c : NetworkBuilder φ} {g : GroupId} {shape : NetworkObservationShape}
    (hinv : r.Invariant hashShape 0) (hcommitted : Committed g shape c r)
    (hfresh : b.instancesById.get ⟨b.nextInstanceCounter⟩ = none)
    (hnext : c.nextInstanceCounter = b.nextInstanceCounter)
    (hfp : r.fingerprintToGroupId.get (hashShape shape) = some g) :
    Retained g shape (hashShape shape) b r := by
  obtain ⟨group, hg, hshape⟩ := hcommitted.group
  obtain ⟨inst, hinst, hgroup⟩ := hcommitted.new_instance
  obtain ⟨ids, hids⟩ := hinv.groups.index_of_group hg
  rw [hnext] at hinst
  exact ⟨hfresh, ⟨group, hg, hinv.groups.group_id hg, hshape⟩, hfp, ⟨inst, hinst, hgroup⟩,
    ids, hids, (hinv.groups.index_mem hids _).mpr ⟨inst, hinst, hgroup⟩⟩

/-- Every way a call can end either leaves the retained records alone and counts a drop, or
retains the observation, in the group of its shape if there was one, and counts no drop. -/
theorem Outcome.unaffected_or_retained (houtcome : Outcome hashShape b observation r)
    (h : b.Invariant hashShape 0) (hinj : Function.Injective hashShape) :
    (Drops b r ∧ Unaffected (hashShape observation.shape) b r) ∨
      (¬Drops b r ∧ ∃ g, (∀ g', b.fingerprintToGroupId.get (hashShape observation.shape) =
        some g' → g' = g) ∧ Retained g observation.shape (hashShape observation.shape) b r) := by
  have hinv := houtcome.invariant h hinj
  have hsame : ∀ group : NetworkGroup φ, ∃ occurrences suppressed, id group = { group with
      occurrenceCount := occurrences, suppressedInstanceCount := suppressed } :=
    fun group ↦ ⟨group.occurrenceCount, group.suppressedInstanceCount, rfl⟩
  cases houtcome with
  | filtered =>
      refine .inl ⟨?_, ?_⟩
      · simp only [Drops, NetworkSummary.dropped, dropByFilter, observe]
        omega
      · refine unaffected_of_counters (g := ⟨0⟩) (k := id) ?_ (.inl rfl) hsame rfl
        simp [dropByFilter, observe]
  | suppressed hg =>
      refine .inl ⟨?_, unaffected_of_counters rfl (.inr hg) (fun group ↦ ⟨_, _, rfl⟩) rfl⟩
      simp only [Drops, NetworkSummary.dropped, suppressDuplicate, noted, noteObservation, observe]
      omega
  | groupCap =>
      refine .inl ⟨?_, ?_⟩
      · simp only [Drops, NetworkSummary.dropped, dropByGroupCap, observe]
        omega
      · refine unaffected_of_counters (g := ⟨0⟩) (k := id) ?_ (.inl rfl) hsame rfl
        simp [dropByGroupCap, observe]
  | instanceCap =>
      refine .inl ⟨?_, ?_⟩
      · simp only [Drops, NetworkSummary.dropped, dropByInstanceCap, noted, noteObservation,
          observe]
        omega
      · refine unaffected_of_counters (g := ⟨0⟩)
          (k := ShapeMetadata.observe observation.instance_.offsetMs) ?_ (.inl rfl) hsame rfl
        simp [dropByInstanceCap, noted, noteObservation, observe]
  | kept hdisplaced hc hexisting hgroups hinstances =>
      obtain ⟨-, hnext, evicted, hsummary⟩ := hdisplaced.frame (noted_invariant h observation)
      obtain ⟨-, hcommitted, hfp⟩ := commit_spec hc hinj hgroups hinstances
      refine .inr ⟨?_, _, fun g' hg' ↦ ?_,
        retained_of_commit hinv hcommitted h.groups.instance_free hnext hfp⟩
      · obtain ⟨omitted, truncated, hcommittedSummary⟩ := hcommitted.summary
        rw [Drops, hcommittedSummary, hsummary]
        exact Nat.lt_irrefl _
      · rw [hexisting, hg', Option.getD_some]

end

/-- In every reachable state, a dropped observation changes no retained record and evicts nothing,
and a kept one enters the group of its shape, which is the one found before the call if there was
one. -/
theorem admit_drops_atomically (sha1 : List JsonScalar → φ)
    (hinj : Function.Injective (hashShape sha1)) (observations : List NetworkObservation)
    (observation : NetworkObservation) :
    let b := admitAll (hashShape sha1) observations
    let r := b.admitObservation (hashShape sha1) observation
    let fingerprint := hashShape sha1 observation.shape
    (Drops b r → Unaffected fingerprint b r) ∧
      (¬Drops b r → ∃ g, (∀ g', b.fingerprintToGroupId.get fingerprint = some g' → g' = g) ∧
        Retained g observation.shape fingerprint b r) := by
  intro b r fingerprint
  have hinv := admitAll_invariant hinj observations
  rcases (admit_outcome hinv hinj observation).unaffected_or_retained hinv hinj with
    ⟨hdrops, hunaffected⟩ | ⟨hdrops, hretained⟩
  · exact ⟨fun _ ↦ hunaffected, fun hkept ↦ absurd hdrops hkept⟩
  · exact ⟨fun h ↦ absurd h hdrops, fun _ ↦ hretained⟩

/-- The third of four equal observations enters the group of the first. The fourth falls between two
samples, and is dropped. -/
theorem admit_drops_atomically_repeated :
    let fingerprint := hashShape id sampleObservation.shape
    let b := admitAll (hashShape id) [sampleObservation, sampleObservation]
    let r := b.admitObservation (hashShape id) sampleObservation
    let last := r.admitObservation (hashShape id) sampleObservation
    (Drops r last ∧ Unaffected fingerprint r last) ∧
      ¬Drops b r ∧ ∃ g, b.fingerprintToGroupId.get fingerprint = some g ∧
        Retained g sampleObservation.shape fingerprint b r := by
  intro fingerprint b r last
  have hinj := hashShape_injective (φ := List JsonScalar) Function.injective_id
  have hdropped : Drops r last := by decide +kernel
  have hkept : ¬Drops b r := by decide +kernel
  obtain ⟨g, hg, hretained⟩ := (admit_drops_atomically id hinj
    [sampleObservation, sampleObservation] sampleObservation).2 hkept
  have hexisting : b.fingerprintToGroupId.get fingerprint = some ⟨0⟩ := by decide +kernel
  exact ⟨⟨hdropped, (admit_drops_atomically id hinj
    [sampleObservation, sampleObservation, sampleObservation] sampleObservation).1 hdropped⟩,
    hkept, g, hg _ hexisting ▸ hexisting, hretained⟩

/-! ## Evictions -/

/-- From `b` to `r`, a group and its instances were evicted for an incoming tier. The group ranks
strictly below it and has the least key among the retained groups. -/
structure GroupVictim (incoming : ℕ) (g : GroupId) (group : NetworkGroup φ)
    (b r : NetworkBuilder φ) : Prop where
  retained : b.groupsById.get g = some group
  below : priorityScore group.toPriorityShape < incoming
  least : ∀ {g' group'}, b.groupsById.get g' = some group' → b.groupKey group ≤ b.groupKey group'
  removed : r.groupsById.get g = none
  groups : ∀ {g' group'}, g' ≠ g → b.groupsById.get g' = some group' →
    r.groupsById.get g' = some group'
  instances : ∀ {i inst}, b.instancesById.get i = some inst →
    r.instancesById.get i = if inst.groupId = g then none else some inst

/-- From `b` to `r`, one instance was evicted for an incoming tier. It ranks strictly below it and
has the least key among the retained instances. -/
structure InstanceVictim (incoming : ℕ) (i : InstanceId) (inst : NetworkInstance)
    (b r : NetworkBuilder φ) : Prop where
  retained : b.instancesById.get i = some inst
  below : b.instanceScore inst < incoming
  least : ∀ {i' inst'}, b.instancesById.get i' = some inst' →
    b.instanceKey i inst ≤ b.instanceKey i' inst'
  groups : ∀ {g group}, g ≠ inst.groupId → b.groupsById.get g = some group →
    (r.groupsById.get g).isSome
  instances : ∀ {j other}, b.instancesById.get j = some other →
    r.instancesById.get j = if j = i then none else some other
  evicted : r.summary.instancesEvictedAfterAdmission =
    b.summary.instancesEvictedAfterAdmission + 1

/-- From `b` to `r`, nothing retained was evicted. -/
structure NothingEvicted (b r : NetworkBuilder φ) : Prop where
  groups : ∀ {g group}, b.groupsById.get g = some group → (r.groupsById.get g).isSome
  instances : ∀ {i inst}, b.instancesById.get i = some inst → r.instancesById.get i = some inst
  evicted : r.summary.instancesEvictedAfterAdmission = b.summary.instancesEvictedAfterAdmission

/-- A drop evicts nothing. -/
theorem Unaffected.nothingEvicted {fingerprint : φ} (h : Unaffected fingerprint b r) :
    NothingEvicted b r where
  groups hg := by
    obtain ⟨_, _, hget⟩ := h.groups hg
    rw [hget]
    rfl
  instances hi := by rw [h.instances]; exact hi
  evicted := h.evicted

section

variable {hashShape : NetworkObservationShape → φ}

/-- What survives the displacement survives the commitment that follows it. -/
theorem survives_commit {c : NetworkBuilder φ} {g : GroupId} {shape : NetworkObservationShape}
    (h : b.Invariant hashShape 0) (hcommitted : Committed g shape c r)
    (hnext : c.nextInstanceCounter = b.nextInstanceCounter) :
    (∀ {i inst}, b.instancesById.get i = some inst →
      r.instancesById.get i = c.instancesById.get i) ∧
    ∀ {g' group'}, c.groupsById.get g' = some group' → (r.groupsById.get g').isSome := by
  refine ⟨fun {i inst} hi ↦ hcommitted.instances ?_, fun {g' group'} hg' ↦ ?_⟩
  · rintro rfl
    rw [hnext, h.groups.instance_free] at hi
    exact absurd hi (by simp)
  · by_cases heq : g' = g
    · obtain ⟨group, hg, -⟩ := hcommitted.group
      rw [heq, hg]
      rfl
    · rw [hcommitted.groups heq, hg']
      rfl

/-- Every way a call can end evicts nothing, one group, or one instance. -/
theorem Outcome.displacement (houtcome : Outcome hashShape b observation r)
    (h : b.Invariant hashShape 0) (hinj : Function.Injective hashShape) :
    let incoming := priorityScore observation.shape.toPriorityShape
    NothingEvicted b r ∨ (∃ g group, GroupVictim incoming g group b r) ∨
      ∃ i inst, InstanceVictim incoming i inst b r := by
  intro incoming
  rcases houtcome.unaffected_or_retained h hinj with ⟨-, hunaffected⟩ | ⟨hkept, -⟩
  · exact .inl hunaffected.nothingEvicted
  have hnoted := noted_invariant h observation
  cases houtcome with
  | filtered | suppressed | groupCap | instanceCap =>
      refine absurd ?_ hkept
      -- each of these counts the observation in a drop bucket
      simp only [Drops, NetworkSummary.dropped, dropByFilter, dropByGroupCap, dropByInstanceCap,
        suppressDuplicate, noted, noteObservation, observe]
      omega
  | kept hdisplaced hc hexisting hgroups hinstances =>
      obtain ⟨hnextGroup, hnext, -⟩ := hdisplaced.frame hnoted
      obtain ⟨-, hcommitted, -⟩ := commit_spec hc hinj hgroups hinstances
      obtain ⟨hsurvives, hsurvivesGroup⟩ := survives_commit h hcommitted hnext
      obtain ⟨omitted, truncated, hsummary⟩ := hcommitted.summary
      cases hdisplaced with
      | nothing =>
          exact .inl ⟨fun hg ↦ hsurvivesGroup hg, fun hi ↦ (hsurvives hi).trans hi,
            by rw [hsummary]; rfl⟩
      | @group hnew g group hg _ hscore hleast =>
          obtain ⟨hinv, hevicted, hremoved, -⟩ := removeGroup_spec hnoted hg
          have heq := noted_of_new h hnew
          have hfresh : ∀ {g' group'}, b.groupsById.get g' = some group' →
              g' ≠ ⟨b.nextGroupCounter⟩ := by
            rintro g' group' hg' rfl
            rw [h.groups.group_free] at hg'
            exact absurd hg' (by simp)
          -- the shape has no group, so it is committed to a new one
          have hcommittedTo : (((b.noted hashShape observation).removeGroup g true
              ).fingerprintToGroupId.get (hashShape observation.shape)).getD
                ⟨((b.noted hashShape observation).removeGroup g true).nextGroupCounter⟩ =
              ⟨b.nextGroupCounter⟩ := by
            rw [hexisting, hnew, hnextGroup]
            rfl
          rw [hcommittedTo] at hcommitted
          refine .inr (.inl ⟨g, group, hg, hscore, fun hg' ↦ ?_, ?_, fun hne hg' ↦ ?_,
            fun {i inst} hi ↦ ?_⟩)
          · rw [heq] at hleast
            exact hleast hg'
          · rw [hcommitted.groups (hfresh hg), hremoved]
          · rw [hcommitted.groups (hfresh hg'), hevicted.groups hne]
            exact hg'
          · rw [hsurvives hi, hevicted.instances]
            -- the instances of the evicted group go, and no others
            have hmem := mem_victimsOf hnoted.toLinked hg (i := i)
            by_cases hgroup : inst.groupId = g
            · rw [if_pos (hmem.mpr ⟨inst, hi, hgroup⟩), if_pos hgroup]
            · rw [if_neg hgroup, if_neg]
              · exact hi
              · intro hvictim
                obtain ⟨other, hother, hothers⟩ := hmem.mp hvictim
                have : inst = other := Option.some.inj (hi.symm.trans hother)
                exact hgroup (this ▸ hothers)
      | @instance_ i inst hi _ hscore hleast =>
          obtain ⟨-, hevicted, -⟩ := removeInstance_spec hnoted hi
          refine .inr (.inr ⟨i, inst, hi, hscore, hleast,
            fun hne hg ↦ hsurvivesGroup ((hevicted.groups hne).trans hg), fun {j other} hj ↦ ?_,
            ?_⟩)
          · rw [hsurvives hj, hevicted.instances]
            simp only [List.mem_singleton]
            rw [← hj]
            rfl
          · rw [hsummary, hevicted.summary]
            rfl

/-- A rise of one of the two cap counters tells which outcome it was. -/
theorem Outcome.cap_reason (houtcome : Outcome hashShape b observation r)
    (h : b.Invariant hashShape 0) (hinj : Function.Injective hashShape) :
    (b.summary.instancesDroppedByGroupCap < r.summary.instancesDroppedByGroupCap →
      ∀ g group, b.groupsById.get g = some group →
        priorityScore observation.shape.toPriorityShape ≤ priorityScore group.toPriorityShape) ∧
    (b.summary.instancesDroppedByInstanceCap < r.summary.instancesDroppedByInstanceCap →
      ∀ i inst, b.instancesById.get i = some inst →
        priorityScore observation.shape.toPriorityShape ≤ b.instanceScore inst) := by
  cases houtcome with
  | filtered =>
      exact ⟨fun hlt ↦ absurd hlt (Nat.lt_irrefl _), fun hlt ↦ absurd hlt (Nat.lt_irrefl _)⟩
  | suppressed =>
      exact ⟨fun hlt ↦ absurd hlt (Nat.lt_irrefl _), fun hlt ↦ absurd hlt (Nat.lt_irrefl _)⟩
  | groupCap _ hleast =>
      exact ⟨fun _ _ _ hg ↦ hleast hg, fun hlt ↦ absurd hlt (Nat.lt_irrefl _)⟩
  | instanceCap hleast =>
      exact ⟨fun hlt ↦ absurd hlt (Nat.lt_irrefl _), fun _ _ _ hi ↦ hleast hi⟩
  | kept hdisplaced hc _ hgroups hinstances =>
      obtain ⟨-, -, evicted, hsummary⟩ := hdisplaced.frame (noted_invariant h observation)
      obtain ⟨-, hcommitted, -⟩ := commit_spec hc hinj hgroups hinstances
      obtain ⟨omitted, truncated, hcommittedSummary⟩ := hcommitted.summary
      rw [hcommittedSummary, hsummary]
      exact ⟨fun hlt ↦ absurd hlt (Nat.lt_irrefl _), fun hlt ↦ absurd hlt (Nat.lt_irrefl _)⟩

end

end NetworkBuilder

end CoreUtils.Reporter
