import CoreUtils.Reporter.NetworkBuilder

/-!
# Groups, instances and their indexes

`GroupsLinked` says that the three indexes over groups and instances agree with the two tables:
fingerprints name groups one to one, the metadata is kept for exactly the retained fingerprints,
and the index of a group holds its retained instances. `GroupsCounted` says that the counters of a
group account for every observation of its shape. The lemmas below are stated for tables, one for
each change that an operation of the builder makes.
-/

namespace CoreUtils.Reporter

/-- The shape that a group was created for. -/
def NetworkGroup.shape {φ : Type} (group : NetworkGroup φ) : NetworkObservationShape :=
  ⟨group.method, group.url, group.status, group.resourceType, group.failureText,
    group.wasAborted⟩

variable {φ : Type}

/-- The tables of groups and instances agree with the indexes over them. -/
structure GroupsLinked [DecidableEq φ] (hashShape : NetworkObservationShape → φ)
    (instances : OrderedMap InstanceId NetworkInstance)
    (groups : OrderedMap GroupId (NetworkGroup φ)) (fingerprints : OrderedMap φ GroupId)
    (metadata : OrderedMap φ ShapeMetadata)
    (index : OrderedMap GroupId (OrderedSet InstanceId)) (nextGroup nextInstance : ℕ) : Prop where
  group_id : ∀ {g group}, groups.get g = some group → group.id = g
  group_fresh : ∀ {g group}, groups.get g = some group → g.counter < nextGroup
  group_shape : ∀ {g group}, groups.get g = some group → hashShape group.shape = group.fingerprint
  fingerprint_iff : ∀ {fingerprint g}, fingerprints.get fingerprint = some g ↔
    ∃ group, groups.get g = some group ∧ group.fingerprint = fingerprint
  metadata_keys : ∀ fingerprint,
    (metadata.get fingerprint).isSome = (fingerprints.get fingerprint).isSome
  index_keys : ∀ g, (index.get g).isSome = (groups.get g).isSome
  index_mem : ∀ {g ids}, index.get g = some ids → ∀ i, ids.get i = some () ↔
    ∃ inst, instances.get i = some inst ∧ inst.groupId = g
  instance_group : ∀ {i inst}, instances.get i = some inst → (groups.get inst.groupId).isSome
  instance_id : ∀ {i inst}, instances.get i = some inst → inst.id = i
  instance_fresh : ∀ {i inst}, instances.get i = some inst → i.counter < nextInstance

/-- The counters of a group account for the retained, suppressed and evicted observations. -/
def GroupsCounted (groups : OrderedMap GroupId (NetworkGroup φ))
    (index : OrderedMap GroupId (OrderedSet InstanceId)) : Prop :=
  ∀ g group ids, groups.get g = some group → index.get g = some ids →
    group.occurrenceCount = ids.size + group.suppressedInstanceCount + group.evictedInstanceCount

/-- An update of a group that touches neither its identity nor its shape. -/
def KeepsIdentity (f : NetworkGroup φ → NetworkGroup φ) : Prop :=
  ∀ group, (f group).id = group.id ∧ (f group).shape = group.shape ∧
    (f group).fingerprint = group.fingerprint

/-- `GroupsLinked` at the tables of a builder. -/
abbrev NetworkBuilder.GroupsLinked [DecidableEq φ] (b : NetworkBuilder φ)
    (hashShape : NetworkObservationShape → φ) : Prop :=
  Reporter.GroupsLinked hashShape b.instancesById b.groupsById b.fingerprintToGroupId
    b.shapeMetadata b.groupInstanceIndex b.nextGroupCounter b.nextInstanceCounter

/-- Each counter update of a group keeps its identity. -/
theorem countEvicted_keepsIdentity :
    KeepsIdentity fun group : NetworkGroup φ ↦ group.countEvicted :=
  fun _ ↦ ⟨rfl, rfl, rfl⟩

@[inherit_doc countEvicted_keepsIdentity]
theorem countSuppressed_keepsIdentity :
    KeepsIdentity fun group : NetworkGroup φ ↦ group.countSuppressed :=
  fun _ ↦ ⟨rfl, rfl, rfl⟩

@[inherit_doc countEvicted_keepsIdentity]
theorem countCommitted_keepsIdentity :
    KeepsIdentity fun group : NetworkGroup φ ↦ group.countCommitted :=
  fun _ ↦ ⟨rfl, rfl, rfl⟩

variable [DecidableEq φ]

namespace GroupsLinked

variable {hashShape : NetworkObservationShape → φ}
  {instances : OrderedMap InstanceId NetworkInstance}
  {groups : OrderedMap GroupId (NetworkGroup φ)} {fingerprints : OrderedMap φ GroupId}
  {metadata : OrderedMap φ ShapeMetadata} {index : OrderedMap GroupId (OrderedSet InstanceId)}
  {nextGroup nextInstance : ℕ}
  (h : GroupsLinked hashShape instances groups fingerprints metadata index nextGroup nextInstance)

include h

/-- The group of a retained instance. -/
theorem group_of_instance {i : InstanceId} {inst : NetworkInstance}
    (hi : instances.get i = some inst) : ∃ group, groups.get inst.groupId = some group :=
  Option.isSome_iff_exists.mp (h.instance_group hi)

/-- The index entry of a retained group. -/
theorem index_of_group {g : GroupId} {group : NetworkGroup φ} (hg : groups.get g = some group) :
    ∃ ids, index.get g = some ids :=
  Option.isSome_iff_exists.mp (by rw [h.index_keys, hg]; rfl)

/-- The group of an index entry. -/
theorem group_of_index {g : GroupId} {ids : OrderedSet InstanceId} (hg : index.get g = some ids) :
    ∃ group, groups.get g = some group :=
  Option.isSome_iff_exists.mp (by rw [← h.index_keys, hg]; rfl)

/-- Identifiers of groups not yet created are free. -/
theorem group_free : groups.get ⟨nextGroup⟩ = none := by
  cases hget : groups.get ⟨nextGroup⟩ with
  | none => rfl
  | some found => exact absurd (h.group_fresh hget) (Nat.lt_irrefl nextGroup)

/-- Identifiers of instances not yet created are free. -/
theorem instance_free : instances.get ⟨nextInstance⟩ = none := by
  cases hget : instances.get ⟨nextInstance⟩ with
  | none => rfl
  | some found => exact absurd (h.instance_fresh hget) (Nat.lt_irrefl nextInstance)

/-- Changing a group without changing its identity. -/
theorem modify_group (g : GroupId) {f : NetworkGroup φ → NetworkGroup φ} (hf : KeepsIdentity f) :
    GroupsLinked hashShape instances (groups.modify g f) fingerprints metadata index nextGroup
      nextInstance := by
  have hget : ∀ {g' group'}, (groups.modify g f).get g' = some group' →
      ∃ before, groups.get g' = some before ∧ group'.id = before.id ∧
        group'.shape = before.shape ∧ group'.fingerprint = before.fingerprint := by
    intro g' group' hgroup
    by_cases heq : g' = g
    · subst heq
      simp only [OrderedMap.get_modify, if_true, Option.map_eq_some_iff] at hgroup
      obtain ⟨before, hbefore, rfl⟩ := hgroup
      exact ⟨before, hbefore, hf before⟩
    · exact ⟨group', by simpa [heq] using hgroup, rfl, rfl, rfl⟩
  have hsome : ∀ g', ((groups.modify g f).get g').isSome = (groups.get g').isSome := by
    intro g'
    by_cases heq : g' = g <;> simp [heq]
  exact
    { h with
      group_id := fun {g' group'} hgroup ↦ by
        obtain ⟨before, hbefore, hid, -⟩ := hget hgroup
        exact hid.trans (h.group_id hbefore)
      group_fresh := fun {g' group'} hgroup ↦ by
        obtain ⟨before, hbefore, -⟩ := hget hgroup
        exact h.group_fresh hbefore
      group_shape := fun {g' group'} hgroup ↦ by
        obtain ⟨before, hbefore, -, hshape, hfp⟩ := hget hgroup
        rw [hshape, hfp]
        exact h.group_shape hbefore
      fingerprint_iff := fun {fingerprint g'} ↦ by
        rw [h.fingerprint_iff]
        by_cases heq : g' = g
        · subst heq; simp [(hf _).2.2]
        · simp [heq]
      index_keys := fun g' ↦ by rw [hsome]; exact h.index_keys g'
      instance_group := fun {i inst} hi ↦ by rw [hsome]; exact h.instance_group hi }

/-- Changing the metadata of a shape. -/
theorem modify_metadata (fingerprint : φ) (f : ShapeMetadata → ShapeMetadata) :
    GroupsLinked hashShape instances groups fingerprints (metadata.modify fingerprint f) index
      nextGroup nextInstance :=
  { h with
    metadata_keys := fun other ↦ by
      rw [← h.metadata_keys]
      by_cases heq : other = fingerprint <;> simp [heq] }

/-- Changing the payload references of an instance. -/
theorem modify_instance (i : InstanceId) {f : NetworkInstance → NetworkInstance}
    (hid : ∀ inst, (f inst).id = inst.id) (hgroup : ∀ inst, (f inst).groupId = inst.groupId) :
    GroupsLinked hashShape (instances.modify i f) groups fingerprints metadata index nextGroup
      nextInstance := by
  have hget : ∀ {j inst}, (instances.modify i f).get j = some inst →
      ∃ before, instances.get j = some before ∧ inst.id = before.id ∧
        inst.groupId = before.groupId := by
    intro j inst hj
    by_cases heq : j = i
    · subst heq
      simp only [OrderedMap.get_modify, if_true, Option.map_eq_some_iff] at hj
      obtain ⟨before, hbefore, rfl⟩ := hj
      exact ⟨before, hbefore, hid before, hgroup before⟩
    · exact ⟨inst, by simpa [heq] using hj, rfl, rfl⟩
  exact
    { h with
      index_mem := fun {g ids} hids j ↦ by
        rw [h.index_mem hids]
        by_cases heq : j = i
        · subst heq; simp [hgroup]
        · simp [heq]
      instance_group := fun {j inst} hj ↦ by
        obtain ⟨before, hbefore, -, heq⟩ := hget hj
        exact heq ▸ h.instance_group hbefore
      instance_id := fun {j inst} hj ↦ by
        obtain ⟨before, hbefore, heq, -⟩ := hget hj
        exact heq.trans (h.instance_id hbefore)
      instance_fresh := fun {j inst} hj ↦ by
        obtain ⟨before, hbefore, -, -⟩ := hget hj
        exact h.instance_fresh hbefore }

/-- Forgetting an instance together with its entry in the index. -/
theorem forget_instance {i : InstanceId} {inst : NetworkInstance}
    (hi : instances.get i = some inst) :
    GroupsLinked hashShape (instances.delete i) groups fingerprints metadata
      (index.modify inst.groupId fun ids ↦ ids.delete i) nextGroup nextInstance := by
  have hstill : ∀ {j other}, (instances.delete i).get j = some other →
      instances.get j = some other := by
    intro j other hj
    by_cases heq : j = i
    · simp [heq] at hj
    · simpa [heq] using hj
  exact
    { h with
      index_keys := fun g ↦ by
        rw [← h.index_keys]
        by_cases heq : g = inst.groupId <;> simp [heq]
      index_mem := fun {g ids} hids j ↦ by
        by_cases heq : g = inst.groupId
        · subst heq
          simp only [OrderedMap.get_modify, if_true, Option.map_eq_some_iff] at hids
          obtain ⟨before, hbefore, rfl⟩ := hids
          by_cases hj : j = i
          · simp [hj]
          · simpa [hj] using h.index_mem hbefore j
        · rw [h.index_mem (by simpa [heq] using hids)]
          by_cases hj : j = i
          · subst hj; simp [hi, Ne.symm heq]
          · simp [hj]
      instance_group := fun {j other} hj ↦ h.instance_group (hstill hj)
      instance_id := fun {j other} hj ↦ h.instance_id (hstill hj)
      instance_fresh := fun {j other} hj ↦ h.instance_fresh (hstill hj) }

/-- Forgetting a group that no instance belongs to. -/
theorem forget_group {g : GroupId} {group : NetworkGroup φ} (hg : groups.get g = some group)
    (hempty : ∀ i inst, instances.get i = some inst → inst.groupId ≠ g) :
    GroupsLinked hashShape instances (groups.delete g) (fingerprints.delete group.fingerprint)
      (metadata.delete group.fingerprint) (index.delete g) nextGroup nextInstance := by
  -- what is left of the table
  have hstill : ∀ {g' group'}, (groups.delete g).get g' = some group' →
      g' ≠ g ∧ groups.get g' = some group' := by
    intro g' group' hgroup
    by_cases heq : g' = g
    · simp [heq] at hgroup
    · exact ⟨heq, by simpa [heq] using hgroup⟩
  constructor
  case group_id => intro g' group' hgroup; exact h.group_id (hstill hgroup).2
  case group_fresh => intro g' group' hgroup; exact h.group_fresh (hstill hgroup).2
  case group_shape => intro g' group' hgroup; exact h.group_shape (hstill hgroup).2
  case fingerprint_iff =>
    intro fingerprint g'
    rw [OrderedMap.get_delete]
    -- the deleted fingerprint named the deleted group and no other
    have hnamed : fingerprints.get group.fingerprint = some g :=
      h.fingerprint_iff.mpr ⟨group, hg, rfl⟩
    constructor
    · intro hget
      split at hget
      · exact absurd hget (by simp)
      · rename_i hne
        obtain ⟨found, hfound, hfp⟩ := h.fingerprint_iff.mp hget
        refine ⟨found, ?_, hfp⟩
        rw [OrderedMap.get_delete, if_neg]
        · exact hfound
        · rintro rfl
          rw [hg, Option.some.injEq] at hfound
          exact hne (hfp ▸ hfound ▸ rfl)
    · rintro ⟨found, hfound, hfp⟩
      obtain ⟨hne, hfound⟩ := hstill hfound
      have hget := h.fingerprint_iff.mpr ⟨found, hfound, hfp⟩
      rw [if_neg]
      · exact hget
      · rintro rfl
        exact hne (Option.some.inj (hget.symm.trans hnamed))
  case metadata_keys =>
    intro fingerprint
    by_cases heq : fingerprint = group.fingerprint
    · simp [heq]
    · simpa [heq] using h.metadata_keys fingerprint
  case index_keys =>
    intro g'
    by_cases heq : g' = g
    · simp [heq]
    · simpa [heq] using h.index_keys g'
  case index_mem =>
    intro g' ids hids
    by_cases heq : g' = g
    · simp [heq] at hids
    · exact h.index_mem (by simpa [heq] using hids)
  case instance_group =>
    intro i inst hi
    simpa [hempty i inst hi] using h.instance_group hi
  case instance_id => exact h.instance_id
  case instance_fresh => exact h.instance_fresh

/-- Creating the group of a fingerprint that has none. -/
theorem add_group {group : NetworkGroup φ} {entry : ShapeMetadata} (hid : group.id = ⟨nextGroup⟩)
    (hshape : hashShape group.shape = group.fingerprint)
    (hnew : fingerprints.get group.fingerprint = none) :
    GroupsLinked hashShape instances (groups.set ⟨nextGroup⟩ group)
      (fingerprints.set group.fingerprint ⟨nextGroup⟩) (metadata.set group.fingerprint entry)
      (index.set ⟨nextGroup⟩ .empty) (nextGroup + 1) nextInstance := by
  have hfree := h.group_free
  -- the id is fresh, so an entry of the new table is the new group or an old one
  have hget : ∀ {g group'}, (groups.set ⟨nextGroup⟩ group).get g = some group' →
      (g = ⟨nextGroup⟩ ∧ group' = group) ∨ (g ≠ ⟨nextGroup⟩ ∧ groups.get g = some group') := by
    intro g group' hgroup
    by_cases heq : g = ⟨nextGroup⟩
    · simp only [heq, OrderedMap.get_set, if_true, Option.some.injEq] at hgroup
      exact .inl ⟨heq, hgroup.symm⟩
    · exact .inr ⟨heq, by simpa [heq] using hgroup⟩
  constructor
  case group_id =>
    intro g group' hgroup
    rcases hget hgroup with ⟨rfl, rfl⟩ | ⟨-, hgroup⟩
    · exact hid
    · exact h.group_id hgroup
  case group_fresh =>
    intro g group' hgroup
    rcases hget hgroup with ⟨rfl, rfl⟩ | ⟨-, hgroup⟩
    · exact Nat.lt_succ_self nextGroup
    · exact Nat.lt_succ_of_lt (h.group_fresh hgroup)
  case group_shape =>
    intro g group' hgroup
    rcases hget hgroup with ⟨rfl, rfl⟩ | ⟨-, hgroup⟩
    · exact hshape
    · exact h.group_shape hgroup
  case fingerprint_iff =>
    intro fingerprint g
    rw [OrderedMap.get_set]
    by_cases hg : g = ⟨nextGroup⟩
    · subst hg
      by_cases hf : fingerprint = group.fingerprint
      · simp [hf]
      · -- no other fingerprint can name a group that did not exist
        have hne : fingerprints.get fingerprint ≠ some ⟨nextGroup⟩ := by
          intro hnamed
          obtain ⟨found, hfound, -⟩ := h.fingerprint_iff.mp hnamed
          rw [hfree] at hfound
          exact absurd hfound (by simp)
        simp [hf, hne, Ne.symm hf]
    · by_cases hf : fingerprint = group.fingerprint
      · -- the fingerprint had no group before, so no old group has it
        subst hf
        have hnone : ¬∃ found, groups.get g = some found ∧
            found.fingerprint = group.fingerprint := by
          rw [← h.fingerprint_iff, hnew]; simp
        simpa [hg, Ne.symm hg] using hnone
      · simp [hf, hg, h.fingerprint_iff]
  case metadata_keys =>
    intro fingerprint
    by_cases hf : fingerprint = group.fingerprint
    · simp [hf]
    · simpa [hf] using h.metadata_keys fingerprint
  case index_keys =>
    intro g
    by_cases hg : g = ⟨nextGroup⟩
    · simp [hg]
    · simpa [hg] using h.index_keys g
  case index_mem =>
    intro g ids hids i
    by_cases hg : g = ⟨nextGroup⟩
    · subst hg
      simp only [OrderedMap.get_set, if_true, Option.some.injEq] at hids
      subst hids
      -- the index of the new group is empty, and no instance can point to it yet
      simp only [OrderedMap.get_empty, reduceCtorEq, false_iff, not_exists, not_and]
      intro inst hi hgroup
      have := h.instance_group hi
      rw [hgroup, hfree] at this
      exact absurd this (by simp)
    · exact h.index_mem (by simpa [hg] using hids) i
  case instance_group =>
    intro i inst hi
    have := h.instance_group hi
    by_cases hg : inst.groupId = ⟨nextGroup⟩
    · simp [hg]
    · simpa [hg] using this
  case instance_id => exact h.instance_id
  case instance_fresh => exact h.instance_fresh

/-- Entering a new instance in the table and in the index of a retained group. -/
theorem add_instance {inst : NetworkInstance} {ids : OrderedSet InstanceId}
    (hid : inst.id = ⟨nextInstance⟩) (hids : index.get inst.groupId = some ids) :
    GroupsLinked hashShape (instances.set ⟨nextInstance⟩ inst) groups fingerprints metadata
      (index.set inst.groupId (OrderedSet.add ids ⟨nextInstance⟩)) nextGroup
      (nextInstance + 1) := by
  have hfree := h.instance_free
  obtain ⟨group, hg⟩ := h.group_of_index hids
  have hinst : ∀ {j other}, (instances.set ⟨nextInstance⟩ inst).get j = some other →
      (j = ⟨nextInstance⟩ ∧ other = inst) ∨ instances.get j = some other := by
    intro j other hj
    by_cases heq : j = ⟨nextInstance⟩
    · simp only [heq, OrderedMap.get_set, if_true, Option.some.injEq] at hj
      exact .inl ⟨heq, hj.symm⟩
    · exact .inr (by simpa [heq] using hj)
  exact
    { h with
      index_keys := fun g ↦ by
        rw [← h.index_keys]
        by_cases heq : g = inst.groupId
        · simp [heq, hids]
        · simp [heq]
      index_mem := fun {g ids'} hids' j ↦ by
        by_cases heq : g = inst.groupId
        · subst heq
          simp only [OrderedMap.get_set, if_true, Option.some.injEq] at hids'
          subst hids'
          by_cases hj : j = ⟨nextInstance⟩
          · simp [hj]
          · simpa [hj] using h.index_mem hids j
        · rw [h.index_mem (by simpa [heq] using hids')]
          by_cases hj : j = ⟨nextInstance⟩
          · -- the new instance is in its own group only
            subst hj; simp [hfree, Ne.symm heq]
          · simp [hj]
      instance_group := fun {j other} hj ↦ by
        rcases hinst hj with ⟨-, rfl⟩ | hj
        · simp [hg]
        · exact h.instance_group hj
      instance_id := fun {j other} hj ↦ by
        rcases hinst hj with ⟨rfl, rfl⟩ | hj
        · exact hid
        · exact h.instance_id hj
      instance_fresh := fun {j other} hj ↦ by
        rcases hinst hj with ⟨rfl, rfl⟩ | hj
        · exact Nat.lt_succ_self nextInstance
        · exact Nat.lt_succ_of_lt (h.instance_fresh hj) }

/-- The index of a retained group does not yet hold the next identifier. -/
theorem next_not_indexed {g : GroupId} {ids : OrderedSet InstanceId}
    (hids : index.get g = some ids) : ids.get ⟨nextInstance⟩ = none := by
  cases hget : ids.get ⟨nextInstance⟩ with
  | none => rfl
  | some u =>
      obtain ⟨found, hfound, -⟩ := (h.index_mem hids _).mp hget
      rw [h.instance_free] at hfound
      exact absurd hfound (by simp)

end GroupsLinked

namespace GroupsCounted

variable {groups : OrderedMap GroupId (NetworkGroup φ)}
  {index : OrderedMap GroupId (OrderedSet InstanceId)} (h : GroupsCounted groups index)

include h

omit [DecidableEq φ] in
/-- Changing one group and its index entry so that the counters still account for it. -/
theorem modify_entry (g : GroupId) {f : NetworkGroup φ → NetworkGroup φ}
    {k : OrderedSet InstanceId → OrderedSet InstanceId}
    (hcount : ∀ {group ids}, groups.get g = some group → index.get g = some ids →
      group.occurrenceCount =
        ids.size + group.suppressedInstanceCount + group.evictedInstanceCount →
      (f group).occurrenceCount =
        (k ids).size + (f group).suppressedInstanceCount + (f group).evictedInstanceCount) :
    GroupsCounted (groups.modify g f) (index.modify g k) := by
  intro g' group ids hgroup hids
  by_cases heq : g' = g
  · subst heq
    simp only [OrderedMap.get_modify, if_true, Option.map_eq_some_iff] at hgroup hids
    obtain ⟨before, hbefore, rfl⟩ := hgroup
    obtain ⟨beforeIds, hbeforeIds, rfl⟩ := hids
    exact hcount hbefore hbeforeIds (h _ _ _ hbefore hbeforeIds)
  · exact h _ _ _ (by simpa [heq] using hgroup) (by simpa [heq] using hids)

omit [DecidableEq φ] in
/-- Forgetting a group. -/
theorem forget_group (g : GroupId) : GroupsCounted (groups.delete g) (index.delete g) := by
  intro g' group ids hgroup hids
  by_cases heq : g' = g
  · simp [heq] at hgroup
  · exact h _ _ _ (by simpa [heq] using hgroup) (by simpa [heq] using hids)

omit [DecidableEq φ] in
/-- Storing a group and its index entry whose counters agree. -/
theorem set_entry (g : GroupId) {group : NetworkGroup φ} {ids : OrderedSet InstanceId}
    (hcount : group.occurrenceCount =
      ids.size + group.suppressedInstanceCount + group.evictedInstanceCount) :
    GroupsCounted (groups.set g group) (index.set g ids) := by
  intro g' group' ids' hgroup hids
  by_cases heq : g' = g
  · simp only [heq, OrderedMap.get_set, if_true, Option.some.injEq] at hgroup hids
    rw [← hgroup, ← hids]
    exact hcount
  · exact h _ _ _ (by simpa [heq] using hgroup) (by simpa [heq] using hids)

end GroupsCounted

end CoreUtils.Reporter
