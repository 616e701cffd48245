import CoreUtils.Reporter.NetworkBodies
import CoreUtils.Reporter.NetworkGroups

/-!
# The invariant of the network builder

`Linked` collects the agreements between the tables together with the balance of the summary;
`pending` counts the observation that `admit` is working on. `Invariant` adds what holds between
evictions: no group is empty and no cap is exceeded. `Evicted` says what an eviction takes away,
and `removeGroup_spec` and `removeInstance_spec` show that the two evictions keep the invariant.
-/

namespace CoreUtils.Reporter

/-- The sequence numbers and redirect notes belong to the retained instances, and no redirect is
linked before the report is made. -/
structure SequencesLinked (instances : OrderedMap InstanceId NetworkInstance)
    (sequences : OrderedMap InstanceId ℕ) (redirects : OrderedMap InstanceId String)
    (sequenceCounter nextInstance : ℕ) : Prop where
  counter : sequenceCounter = nextInstance
  sequence : ∀ i, sequences.get i = (instances.get i).map fun _ ↦ i.counter + 1
  redirect : ∀ {i url}, redirects.get i = some url → (instances.get i).isSome
  unlinked : ∀ {i inst}, instances.get i = some inst →
    inst.redirectFromId = none ∧ inst.redirectToId = none

/-- The observations that ended without being retained. -/
def NetworkSummary.terminal (summary : NetworkSummary) : ℕ :=
  summary.instancesDroppedByFilter + summary.instancesDroppedByGroupCap +
    summary.instancesDroppedByInstanceCap + summary.instancesSuppressedAsDuplicate +
    summary.instancesEvictedAfterAdmission

namespace NetworkBuilder

variable {φ : Type} [DecidableEq φ]

/-- The tables agree with each other, and the summary accounts for all observations but
`pending`. -/
structure Linked (hashShape : NetworkObservationShape → φ) (b : NetworkBuilder φ)
    (pending : ℕ) : Prop where
  groups : b.GroupsLinked hashShape
  counted : GroupsCounted b.groupsById b.groupInstanceIndex
  bodies : b.BodiesLinked fun _ ↦ 0
  sequences : SequencesLinked b.instancesById b.instanceSequenceById b.instanceRedirectToUrl
    b.sequenceCounter b.nextInstanceCounter
  balanced : b.summary.observedInstances = b.instancesById.size + b.summary.terminal + pending

/-- No retained group is empty. -/
def GroupsNonempty (index : OrderedMap GroupId (OrderedSet InstanceId)) : Prop :=
  ∀ {g ids}, index.get g = some ids → 0 < ids.size

/-- What holds of a builder whenever no eviction is under way. -/
structure Invariant (hashShape : NetworkObservationShape → φ) (b : NetworkBuilder φ)
    (pending : ℕ) : Prop extends Linked hashShape b pending where
  nonempty : GroupsNonempty b.groupInstanceIndex
  groups_cap : b.groupsById.size ≤ GROUPS_CAP
  instances_cap : b.instancesById.size ≤ INSTANCES_CAP
  bodies_cap : b.bodiesById.size ≤ BODIES_CAP

omit [DecidableEq φ] in
/-- What has gone from a builder after evicting some instances of a group: the victims, possibly
the group itself, and nothing else. -/
structure Evicted [DecidableEq φ] (g : GroupId) (victims : List InstanceId)
    (b r : NetworkBuilder φ) : Prop where
  instances : ∀ i, r.instancesById.get i = if i ∈ victims then none else b.instancesById.get i
  redirects : ∀ i, r.instanceRedirectToUrl.get i =
    if i ∈ victims then none else b.instanceRedirectToUrl.get i
  groups : ∀ {g'}, g' ≠ g → r.groupsById.get g' = b.groupsById.get g'
  fingerprints : ∀ {fingerprint g'}, r.fingerprintToGroupId.get fingerprint = some g' →
    b.fingerprintToGroupId.get fingerprint = some g'
  metadata : ∀ {fingerprint}, b.fingerprintToGroupId.get fingerprint ≠ some g →
    r.shapeMetadata.get fingerprint = b.shapeMetadata.get fingerprint
  groups_size : r.groupsById.size ≤ b.groupsById.size
  bodies_size : r.bodiesById.size ≤ b.bodiesById.size
  nextGroup : r.nextGroupCounter = b.nextGroupCounter
  nextInstance : r.nextInstanceCounter = b.nextInstanceCounter
  summary : r.summary = { b.summary with
    instancesEvictedAfterAdmission := b.summary.instancesEvictedAfterAdmission + victims.length }

/-! ## Releasing instances -/

variable {hashShape : NetworkObservationShape → φ} {b : NetworkBuilder φ} {pending : ℕ}

omit [DecidableEq φ] in
/-- Releasing an instance leaves the indexes by fingerprint and the counters alone. -/
theorem releaseInstance_frame (b : NetworkBuilder φ) (i : InstanceId) (inst : NetworkInstance) :
    ∃ bodies hashes counts, b.releaseInstance i inst true =
        { (b.countEviction inst.groupId).forgetInstance i inst.groupId with
          bodiesById := bodies, bodyHashToBodyId := hashes, bodyRefCounts := counts } ∧
      bodies.size ≤ b.bodiesById.size := by
  simp only [releaseInstance, if_true]
  obtain ⟨bodies₁, hashes₁, counts₁, heq₁, hsize₁⟩ := decrementBodyRef_frame
    ((b.countEviction inst.groupId).forgetInstance i inst.groupId) inst.requestBodyRef
  rw [heq₁]
  obtain ⟨bodies₂, hashes₂, counts₂, heq₂, hsize₂⟩ := decrementBodyRef_frame
    { (b.countEviction inst.groupId).forgetInstance i inst.groupId with
      bodiesById := bodies₁, bodyHashToBodyId := hashes₁, bodyRefCounts := counts₁ }
    inst.responseBodyRef
  exact ⟨bodies₂, hashes₂, counts₂, heq₂, hsize₂.trans hsize₁⟩

omit [DecidableEq φ] in
/-- Releasing an instance gives back exactly the references it held. -/
theorem releaseInstance_bodies {i : InstanceId} {inst : NetworkInstance}
    (h : b.BodiesLinked fun _ ↦ 0) (hi : b.instancesById.get i = some inst) :
    (b.releaseInstance i inst true).BodiesLinked fun _ ↦ 0 := by
  have howed : ((b.countEviction inst.groupId).forgetInstance i inst.groupId).BodiesLinked
      fun id ↦ refersTo inst.requestBodyRef id + (refersTo inst.responseBodyRef id + 0) := by
    refine h.of_instances fun id ↦ ?_
    have htotal := OrderedMap.total_delete hi fun _ inst ↦ inst.references id
    simp only [NetworkInstance.references] at htotal
    show (b.instancesById.delete i).total _ + _ = b.instancesById.total _ + 0
    simp only [NetworkInstance.references]
    omega
  exact decrementBodyRef_linked (decrementBodyRef_linked howed)

/-- Releasing an instance keeps the tables linked and takes away that instance only. -/
theorem releaseInstance_spec {i : InstanceId} {inst : NetworkInstance}
    (h : b.Linked hashShape pending) (hi : b.instancesById.get i = some inst) :
    (b.releaseInstance i inst true).Linked hashShape pending ∧
      Evicted inst.groupId [i] b (b.releaseInstance i inst true) ∧
      (b.releaseInstance i inst true).fingerprintToGroupId = b.fingerprintToGroupId ∧
      (b.releaseInstance i inst true).groupInstanceIndex =
        b.groupInstanceIndex.modify inst.groupId (fun ids ↦ ids.delete i) ∧
      (b.releaseInstance i inst true).groupsById =
        b.groupsById.modify inst.groupId NetworkGroup.countEvicted ∧
      (b.releaseInstance i inst true).shapeMetadata = b.shapeMetadata := by
  have hbodies := releaseInstance_bodies h.bodies hi
  obtain ⟨bodies, hashes, counts, heq, hsize⟩ := b.releaseInstance_frame i inst
  -- from here on only the tables of bodies are left abstract
  rw [heq] at hbodies ⊢
  have hmem : ∀ {group : NetworkGroup φ} {ids : OrderedSet InstanceId},
      b.groupsById.get inst.groupId = some group →
      b.groupInstanceIndex.get inst.groupId = some ids → (ids.delete i).size + 1 = ids.size :=
    fun _ hids ↦ OrderedMap.size_delete ((h.groups.index_mem hids i).mpr ⟨inst, hi, rfl⟩)
  refine ⟨⟨?_, ?_, hbodies, ?_, ?_⟩, ⟨?_, ?_, ?_, id, ?_, ?_, hsize, rfl, rfl, rfl⟩,
    rfl, rfl, rfl, rfl⟩
  · exact (h.groups.modify_group inst.groupId countEvicted_keepsIdentity).forget_instance hi
  · refine h.counted.modify_entry inst.groupId fun hgroup hids hcount ↦ ?_
    -- the group counts one eviction more and its index one instance less
    have := hmem hgroup hids
    simp only [NetworkGroup.countEvicted, hcount]
    omega
  · refine ⟨h.sequences.counter, fun j ↦ ?_, fun {j url} hj ↦ ?_,
      fun hj ↦ h.sequences.unlinked (OrderedMap.get_of_get_delete hj)⟩
    · by_cases heq : j = i
      · simp [forgetInstance, heq]
      · simpa [forgetInstance, countEviction, heq] using h.sequences.sequence j
    · by_cases heq : j = i
      · simp [forgetInstance, heq] at hj
      · have := h.sequences.redirect (i := j)
          (by simpa [forgetInstance, countEviction, heq] using hj)
        simpa [forgetInstance, countEviction, heq] using this
  · -- the instance moves from the table to the terminal bucket of evictions
    have hinstances := OrderedMap.size_delete hi
    have hbalanced := h.balanced
    simp only [NetworkSummary.terminal] at hbalanced
    show b.summary.observedInstances = (b.instancesById.delete i).size +
      NetworkSummary.terminal _ + pending
    simp only [NetworkSummary.terminal, forgetInstance, countEviction]
    omega
  · intro j
    by_cases heq : j = i <;> simp [forgetInstance, countEviction, heq]
  · intro j
    by_cases heq : j = i <;> simp [forgetInstance, countEviction, heq]
  · intro g' hne
    simp [forgetInstance, countEviction, hne]
  · intros; rfl
  · exact (OrderedMap.size_modify _ _ _).le

/-- Two evictions from the same group, one after the other. -/
theorem Evicted.trans {g : GroupId} {first rest : List InstanceId} {b c r : NetworkBuilder φ}
    (h₁ : Evicted g first b c) (h₂ : Evicted g rest c r)
    (hfp : c.fingerprintToGroupId = b.fingerprintToGroupId) : Evicted g (first ++ rest) b r where
  instances i := by
    rw [h₂.instances, h₁.instances]
    by_cases hr : i ∈ rest <;> by_cases hf : i ∈ first <;> simp [hr, hf]
  redirects i := by
    rw [h₂.redirects, h₁.redirects]
    by_cases hr : i ∈ rest <;> by_cases hf : i ∈ first <;> simp [hr, hf]
  groups hne := (h₂.groups hne).trans (h₁.groups hne)
  fingerprints hget := h₁.fingerprints (h₂.fingerprints hget)
  metadata {fingerprint} hne := (h₂.metadata (hfp ▸ hne)).trans (h₁.metadata hne)
  groups_size := h₂.groups_size.trans h₁.groups_size
  bodies_size := h₂.bodies_size.trans h₁.bodies_size
  nextGroup := h₂.nextGroup.trans h₁.nextGroup
  nextInstance := h₂.nextInstance.trans h₁.nextInstance
  summary := by
    rw [h₂.summary, h₁.summary]
    simp only [List.length_append, NetworkSummary.mk.injEq, true_and, and_true]
    omega

/-- Releasing nothing. -/
theorem Evicted.refl (g : GroupId) (b : NetworkBuilder φ) : Evicted g [] b b where
  instances := by simp
  redirects := by simp
  groups _ := rfl
  fingerprints := id
  metadata _ := rfl
  groups_size := le_rfl
  bodies_size := le_rfl
  nextGroup := rfl
  nextInstance := rfl
  summary := rfl

/-- Removing instances of one group one after the other, the group itself being left in place. -/
theorem removeInstances_spec {g : GroupId} {group : NetworkGroup φ} {ids : List InstanceId}
    (h : b.Linked hashShape pending) (hg : b.groupsById.get g = some group) (hnodup : ids.Nodup)
    (hids : ∀ i ∈ ids, ∃ inst, b.instancesById.get i = some inst ∧ inst.groupId = g) :
    let r := ids.foldl (fun current i ↦ current.removeInstance i true true) b
    r.Linked hashShape pending ∧ Evicted g ids b r ∧
      r.fingerprintToGroupId = b.fingerprintToGroupId ∧ r.shapeMetadata = b.shapeMetadata ∧
      (∀ g', g' ≠ g → r.groupInstanceIndex.get g' = b.groupInstanceIndex.get g') ∧
      ∃ left, r.groupsById.get g = some left ∧ left.fingerprint = group.fingerprint := by
  induction ids generalizing b group with
  | nil =>
      exact ⟨h, Evicted.refl g b, rfl, rfl, fun _ _ ↦ rfl, group, hg, rfl⟩
  | cons i rest ih =>
      obtain ⟨inst, hi, rfl⟩ := hids i (by simp)
      obtain ⟨hlinked, hevicted, hfp, hindex, hgroups, hmetadata⟩ := releaseInstance_spec h hi
      have hstep : b.removeInstance i true true = b.releaseInstance i inst true := by
        simp [removeInstance, hi]
      rw [List.nodup_cons] at hnodup
      simp only [List.foldl_cons, hstep]
      have hg' : (b.releaseInstance i inst true).groupsById.get inst.groupId =
          some group.countEvicted := by
        simp [hgroups, hg]
      obtain ⟨hlinked', hevicted', hfp', hmetadata', hindex', left, hleft, hleftfp⟩ :=
        ih hlinked hg' hnodup.2 (by
          intro j hj
          obtain ⟨other, hother, hgroup⟩ := hids j (List.mem_cons_of_mem _ hj)
          refine ⟨other, ?_, hgroup⟩
          have hne : j ≠ i := fun heq ↦ hnodup.1 (heq ▸ hj)
          simpa [hevicted.instances, hne] using hother)
      refine ⟨hlinked', hevicted.trans hevicted' hfp, hfp'.trans hfp, hmetadata'.trans hmetadata,
        fun g' hne ↦ ?_, left, hleft, hleftfp⟩
      rw [hindex' g' hne, hindex]
      simp [hne]

/-- Forgetting an emptied group keeps the tables linked. -/
theorem forgetGroup_linked {g : GroupId} {group : NetworkGroup φ} (h : b.Linked hashShape pending)
    (hg : b.groupsById.get g = some group)
    (hempty : ∀ i inst, b.instancesById.get i = some inst → inst.groupId ≠ g) :
    ((b.forgetGroup g group.fingerprint).forgetIndex g).Linked hashShape pending :=
  ⟨h.groups.forget_group hg hempty, h.counted.forget_group g, h.bodies, h.sequences, h.balanced⟩

/-- The metadata of other groups survives when a group is forgotten. -/
theorem forgetGroup_metadata {g : GroupId} {group : NetworkGroup φ}
    (h : b.Linked hashShape pending) (hg : b.groupsById.get g = some group) {fingerprint : φ}
    (hne : b.fingerprintToGroupId.get fingerprint ≠ some g) :
    (b.shapeMetadata.delete group.fingerprint).get fingerprint =
      b.shapeMetadata.get fingerprint := by
  rw [OrderedMap.get_delete, if_neg]
  rintro rfl
  exact hne (h.groups.fingerprint_iff.mpr ⟨group, hg, rfl⟩)

/-- The indexes that are left when a group is forgotten are those of the other groups. -/
theorem index_of_forgetIndex {g g' : GroupId} {fingerprint : φ} {ids : OrderedMap InstanceId Unit}
    (h : ((b.forgetGroup g fingerprint).forgetIndex g).groupInstanceIndex.get g' = some ids) :
    g' ≠ g ∧ b.groupInstanceIndex.get g' = some ids := by
  by_cases heq : g' = g
  · simp [forgetGroup, forgetIndex, heq] at h
  · exact ⟨heq, by simpa [forgetGroup, forgetIndex, heq] using h⟩

/-- Evicting all instances of a group and then the group itself still touches no other group. -/
theorem Evicted.forget {g : GroupId} {group : NetworkGroup φ} {victims : List InstanceId}
    {b r : NetworkBuilder φ} (h : Evicted g victims b r) (hlinked : r.Linked hashShape pending)
    (hg : r.groupsById.get g = some group)
    (hfp : r.fingerprintToGroupId = b.fingerprintToGroupId) :
    Evicted g victims b ((r.forgetGroup g group.fingerprint).forgetIndex g) :=
  { h with
    groups := by
      intro g' hne
      rw [← h.groups hne]
      simp [forgetGroup, forgetIndex, hne]
    fingerprints := fun hget ↦ h.fingerprints (OrderedMap.get_of_get_delete hget)
    metadata := by
      intro fingerprint hne
      rw [← h.metadata hne]
      -- the fingerprint of the forgotten group is the only entry that goes
      exact forgetGroup_metadata hlinked hg (hfp ▸ hne)
    groups_size := (OrderedMap.size_delete_le _ _).trans h.groups_size }

/-! ## The two evictions -/

/-- The instances that a group loses with it: those of its index, in index order. -/
def victimsOf (b : NetworkBuilder φ) (g : GroupId) : List InstanceId :=
  ((b.groupInstanceIndex.get g).map OrderedMap.keys).getD []

/-- The victims of a group are its retained instances. -/
theorem mem_victimsOf {g : GroupId} {group : NetworkGroup φ} (h : b.Linked hashShape pending)
    (hg : b.groupsById.get g = some group) {i : InstanceId} :
    i ∈ b.victimsOf g ↔ ∃ inst, b.instancesById.get i = some inst ∧ inst.groupId = g := by
  obtain ⟨ids, hids⟩ := h.groups.index_of_group hg
  rw [← h.groups.index_mem hids i, victimsOf, hids, Option.map_some, Option.getD_some,
    OrderedMap.mem_keys]
  constructor
  · rintro ⟨⟨⟩, hi⟩
    exact hi
  · exact fun hi ↦ ⟨(), hi⟩

/-- Evicting a group removes the group and all its instances, and keeps the invariant. -/
theorem removeGroup_spec {g : GroupId} {group : NetworkGroup φ}
    (h : b.Invariant hashShape pending) (hg : b.groupsById.get g = some group) :
    (b.removeGroup g true).Invariant hashShape pending ∧
      Evicted g (b.victimsOf g) b (b.removeGroup g true) ∧
      (b.removeGroup g true).groupsById.get g = none ∧
      (b.removeGroup g true).groupsById.size < b.groupsById.size ∧
      (b.removeGroup g true).instancesById.size < b.instancesById.size := by
  obtain ⟨ids, hids⟩ := h.groups.index_of_group hg
  have hvictims : b.victimsOf g = ids.keys := by simp [victimsOf, hids]
  have hmem : ∀ i ∈ b.victimsOf g, ∃ inst, b.instancesById.get i = some inst ∧ inst.groupId = g :=
    fun i hi ↦ (mem_victimsOf h.toLinked hg).mp hi
  obtain ⟨hlinked, hevicted, hfp, hmetadata, hindex, left, hleft, hleftfp⟩ :=
    removeInstances_spec h.toLinked hg (hvictims ▸ ids.nodup) hmem
  -- the group after all its instances are removed, and before it is forgotten
  set r := (b.victimsOf g).foldl (fun current i ↦ current.removeInstance i true true) b with hr
  have hremove : b.removeGroup g true = (r.forgetGroup g left.fingerprint).forgetIndex g := by
    rw [hleftfp]
    simp only [removeGroup, hg]
    rfl
  have hempty : ∀ i inst, r.instancesById.get i = some inst → inst.groupId ≠ g := by
    intro i inst hi hgroup
    rw [hevicted.instances] at hi
    by_cases hv : i ∈ b.victimsOf g
    · simp [hv] at hi
    · rw [if_neg hv] at hi
      exact hv ((mem_victimsOf h.toLinked hg).mpr ⟨inst, hi, hgroup⟩)
  have hsome : ∃ i inst, b.instancesById.get i = some inst ∧ i ∈ b.victimsOf g := by
    obtain ⟨i, ⟨⟩, hi⟩ := OrderedMap.exists_get_of_size_pos (h.nonempty hids)
    obtain ⟨inst, hinst, hgroup⟩ := (h.groups.index_mem hids i).mp hi
    exact ⟨i, inst, hinst, (mem_victimsOf h.toLinked hg).mpr ⟨inst, hinst, hgroup⟩⟩
  have hgroups := OrderedMap.size_delete hleft
  have hgroupsLe := hevicted.groups_size
  have hbalanced := hlinked.balanced
  have hbalancedBefore := h.balanced
  have hpos : 0 < (b.victimsOf g).length := by
    obtain ⟨i, -, -, hi⟩ := hsome
    exact List.length_pos_of_mem hi
  -- the balance of the summary turns the number of evictions into sizes
  have hinstances : r.instancesById.size < b.instancesById.size := by
    rw [hevicted.summary] at hbalanced
    simp only [NetworkSummary.terminal] at hbalanced hbalancedBefore
    omega
  rw [hremove]
  refine ⟨⟨forgetGroup_linked hlinked hleft hempty, ?_, ?_, hinstances.le.trans h.instances_cap,
    hevicted.bodies_size.trans h.bodies_cap⟩, hevicted.forget hlinked hleft hfp, ?_, ?_, hinstances⟩
  · intro g' ids' hids'
    obtain ⟨hne, hget⟩ := index_of_forgetIndex hids'
    exact h.nonempty (g := g') (hindex g' hne ▸ hget)
  · show (r.groupsById.delete g).size ≤ GROUPS_CAP
    have := h.groups_cap
    omega
  · simp [forgetGroup, forgetIndex]
  · show (r.groupsById.delete g).size < b.groupsById.size
    omega

/-- Evicting an instance removes it, and its group when it was the last one there. -/
theorem removeInstance_spec {i : InstanceId} {inst : NetworkInstance}
    (h : b.Invariant hashShape pending) (hi : b.instancesById.get i = some inst) :
    (b.removeInstance i true false).Invariant hashShape pending ∧
      Evicted inst.groupId [i] b (b.removeInstance i true false) ∧
      (b.removeInstance i true false).instancesById.size < b.instancesById.size := by
  obtain ⟨hlinked, hevicted, hfp, hindex, hgroups, hmetadata⟩ := releaseInstance_spec h.toLinked hi
  obtain ⟨group, hg⟩ := h.groups.group_of_instance hi
  obtain ⟨ids, hids⟩ := h.groups.index_of_group hg
  set r := b.releaseInstance i inst true with hr
  have hids' : r.groupInstanceIndex.get inst.groupId = some (ids.delete i) := by
    simp [hindex, hids]
  have hg' : r.groupsById.get inst.groupId = some group.countEvicted := by simp [hgroups, hg]
  have hinstances : r.instancesById.size < b.instancesById.size := by
    have hbalanced := hlinked.balanced
    have hbalancedBefore := h.balanced
    rw [hevicted.summary] at hbalanced
    simp only [NetworkSummary.terminal, List.length_singleton] at hbalanced hbalancedBefore
    omega
  -- the indexes of the other groups have not changed
  have hothers : ∀ {g' ids'}, g' ≠ inst.groupId → r.groupInstanceIndex.get g' = some ids' →
      0 < ids'.size := by
    intro g' ids' hne hget
    refine h.nonempty (g := g') ?_
    rw [hindex] at hget
    simpa [hne] using hget
  by_cases hlast : (ids.delete i).size = 0
  · -- the last instance of its group: the group goes too
    have hremove : b.removeInstance i true false =
        (r.forgetGroup inst.groupId group.fingerprint).forgetIndex inst.groupId := by
      simp only [removeInstance, hi, ← hr, hids', hg']
      simp [hlast, NetworkGroup.countEvicted]
    have hempty : ∀ j other, r.instancesById.get j = some other → other.groupId ≠ inst.groupId := by
      intro j other hj hgroup
      have hmem := (hlinked.groups.index_mem hids' j).mpr ⟨other, hj, hgroup⟩
      have := OrderedMap.size_pos hmem
      omega
    have hforget := forgetGroup_linked hlinked hg' hempty
    rw [hremove]
    have hforgotten := hevicted.forget hlinked hg' hfp
    refine ⟨⟨hforget, ?_, hforgotten.groups_size.trans h.groups_cap,
      hinstances.le.trans h.instances_cap, hevicted.bodies_size.trans h.bodies_cap⟩, hforgotten,
      hinstances⟩
    intro g' ids' hget
    obtain ⟨hne, hleft⟩ := index_of_forgetIndex hget
    exact hothers hne hleft
  · -- other instances are left: the group stays, with a smaller index
    have hremove : b.removeInstance i true false = r := by
      simp only [removeInstance, hi, ← hr, hids']
      simp [hlast]
    rw [hremove]
    refine ⟨⟨hlinked, ?_, hevicted.groups_size.trans h.groups_cap,
      hinstances.le.trans h.instances_cap, hevicted.bodies_size.trans h.bodies_cap⟩, hevicted,
      hinstances⟩
    intro g' ids' hget
    by_cases heq : g' = inst.groupId
    · subst heq
      rw [hids', Option.some.injEq] at hget
      subst hget
      exact Nat.pos_of_ne_zero hlast
    · exact hothers heq hget

end NetworkBuilder

end CoreUtils.Reporter
