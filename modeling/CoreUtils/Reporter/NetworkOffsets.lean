import CoreUtils.Reporter.NetworkFinalize
import CoreUtils.Reporter.NetworkRetention

/-!
# The offset bounds of groups

The builder keeps the offset bounds of a group beside it, under its fingerprint, and copies them
into the report. `Tracks` says what one call of `admit` does to the groups and to these bounds, and
`offset_bounds` that in every report they are the least and the greatest offset among the
observations of the shape since the group was created.
-/

namespace CoreUtils.Reporter

/-! ## Bounds -/

section Bounds

variable {α : Type*} [LinearOrder α]

/-- The minimum of a list with one more element. -/
theorem min?_concat (values : List α) (value : α) :
    (values ++ [value]).min? = some (values.min?.elim value (min · value)) := by
  cases values with
  | nil => rfl
  | cons first rest =>
      rw [List.cons_append, List.min?_cons', List.min?_cons', List.foldl_append]
      rfl

/-- The maximum of a list with one more element. -/
theorem max?_concat (values : List α) (value : α) :
    (values ++ [value]).max? = some (values.max?.elim value (max · value)) := by
  cases values with
  | nil => rfl
  | cons first rest =>
      rw [List.cons_append, List.max?_cons', List.max?_cons', List.foldl_append]
      rfl

/-- The minimum does not depend on the order. -/
theorem min?_perm {values values' : List α} (h : values.Perm values') :
    values.min? = values'.min? := by
  refine Option.ext fun least ↦ ?_
  simp only [List.min?_eq_some_iff, h.mem_iff]

/-- The maximum does not depend on the order. -/
theorem max?_perm {values values' : List α} (h : values.Perm values') :
    values.max? = values'.max? := by
  refine Option.ext fun greatest ↦ ?_
  simp only [List.max?_eq_some_iff, h.mem_iff]

end Bounds

/-- The metadata of a shape that was observed with some offsets. -/
def ShapeMetadata.ofOffsets (offsets : List (Option ℚ)) : ShapeMetadata :=
  ⟨(offsets.filterMap id).min?, (offsets.filterMap id).max?, offsets.length⟩

/-- One more observation. -/
theorem ShapeMetadata.observe_ofOffsets (offsets : List (Option ℚ)) (offset : Option ℚ) :
    (ShapeMetadata.ofOffsets offsets).observe offset = .ofOffsets (offsets ++ [offset]) := by
  cases offset with
  | none => simp [ShapeMetadata.observe, ShapeMetadata.ofOffsets]
  | some value =>
      simp [ShapeMetadata.observe, ShapeMetadata.ofOffsets, min?_concat, max?_concat]

/-- Whether an observation passes the filter. -/
def NetworkObservation.isPostFilter (observation : NetworkObservation) : Bool :=
  !isLowSignalStaticAsset observation.shape.toPriorityShape

/-- The offsets of the observations of a shape that pass the filter, a missing one included. -/
def offsetsOf (shape : NetworkObservationShape) (observations : List NetworkObservation) :
    List (Option ℚ) :=
  (observations.filter fun observation ↦
    observation.isPostFilter && observation.shape == shape).map (·.instance_.offsetMs)

/-- The offsets of one more observation. -/
theorem offsetsOf_concat (shape : NetworkObservationShape)
    (observations : List NetworkObservation) (observation : NetworkObservation) :
    offsetsOf shape (observations ++ [observation]) =
      if observation.isPostFilter = true ∧ observation.shape = shape then
        offsetsOf shape observations ++ [observation.instance_.offsetMs]
      else offsetsOf shape observations := by
  unfold offsetsOf
  split
  · rename_i hmatch
    simp [hmatch.1, hmatch.2]
  · rename_i hmatch
    rw [List.filter_append, List.filter_cons_of_neg (by simpa using hmatch)]
    simp

/-- A group without its counters. -/
def NetworkGroup.identity {φ : Type} (group : NetworkGroup φ) : NetworkGroup φ :=
  { group with
    occurrenceCount := 0
    retainedInstanceCount := 0
    suppressedInstanceCount := 0
    evictedInstanceCount := 0 }

/-- What the identity of a group determines. -/
theorem NetworkGroup.eq_of_identity {φ : Type} {group group' : NetworkGroup φ}
    (h : group'.identity = group.identity) :
    group'.shape = group.shape ∧ group'.fingerprint = group.fingerprint ∧
      group'.firstOffsetMs = group.firstOffsetMs ∧ group'.lastOffsetMs = group.lastOffsetMs := by
  show group'.identity.shape = group.identity.shape ∧
    group'.identity.fingerprint = group.identity.fingerprint ∧
      group'.identity.firstOffsetMs = group.identity.firstOffsetMs ∧
        group'.identity.lastOffsetMs = group.identity.lastOffsetMs
  rw [h]
  exact ⟨rfl, rfl, rfl, rfl⟩

namespace NetworkBuilder

variable {φ : Type} [DecidableEq φ]

section

variable {hashShape : NetworkObservationShape → φ} {b c r : NetworkBuilder φ}
  {observation : NetworkObservation} {pending : ℕ}

/-! ## Evictions -/

/-- From `b` to `c`, groups and instances may have gone; a group that has stayed has kept its
identity and its bounds. -/
structure Shrinks (b c : NetworkBuilder φ) : Prop where
  groups : ∀ {g group'}, c.groupsById.get g = some group' →
    ∃ group, b.groupsById.get g = some group ∧ group'.identity = group.identity ∧
      c.shapeMetadata.get group.fingerprint = b.shapeMetadata.get group.fingerprint
  instances : ∀ {i inst}, c.instancesById.get i = some inst → b.instancesById.get i = some inst

/-- An eviction shrinks the builder, if it keeps the bounds of the group it takes from. -/
theorem Evicted.shrinks {g : GroupId} {victims : List InstanceId} (h : b.Linked hashShape pending)
    (hevicted : Evicted g victims b c)
    (hvictim : ∀ group', c.groupsById.get g = some group' → ∃ group,
      b.groupsById.get g = some group ∧ group'.identity = group.identity ∧
        c.shapeMetadata.get group.fingerprint = b.shapeMetadata.get group.fingerprint) :
    Shrinks b c where
  groups {g' group'} hg' := by
    by_cases heq : g' = g
    · subst heq
      exact hvictim group' hg'
    · have hbefore := (hevicted.groups heq).symm.trans hg'
      refine ⟨group', hbefore, rfl, hevicted.metadata fun hsame ↦ heq ?_⟩
      have hnamed := h.groups.fingerprint_iff.mpr ⟨group', hbefore, rfl⟩
      exact Option.some.inj (hnamed.symm.trans hsame)
  instances {i inst} hi := by
    rw [hevicted.instances] at hi
    split at hi
    · exact absurd hi (by simp)
    · exact hi

/-- A group that has lost an instance has kept its identity and its bounds. -/
theorem group_of_removeInstance {i : InstanceId} {inst : NetworkInstance}
    (h : b.Linked hashShape pending) (hi : b.instancesById.get i = some inst)
    {group' : NetworkGroup φ}
    (hg : (b.removeInstance i true false).groupsById.get inst.groupId = some group') :
    ∃ group, b.groupsById.get inst.groupId = some group ∧ group'.identity = group.identity ∧
      (b.removeInstance i true false).shapeMetadata.get group.fingerprint =
        b.shapeMetadata.get group.fingerprint := by
  obtain ⟨-, -, -, -, hgroups, hmetadata⟩ := releaseInstance_spec h hi
  obtain ⟨group, hgroup⟩ := h.groups.group_of_instance hi
  have hreleased : (b.releaseInstance i inst true).groupsById.get inst.groupId =
      some group.countEvicted := by
    simp [hgroups, hgroup]
  unfold removeInstance at hg ⊢
  simp only [hi] at hg ⊢
  split at hg
  · -- the group has gone with its last instance
    simp [hreleased, forgetGroup, forgetIndex] at hg
  · rename_i hkept
    rw [if_neg hkept, hmetadata]
    rw [hreleased, Option.some.injEq] at hg
    subst hg
    exact ⟨group, hgroup, rfl, rfl⟩

/-- A displacement shrinks the builder. -/
theorem Displaced.shrinks {incoming : PriorityShape} {existing : Option GroupId}
    (h : b.Invariant hashShape pending) (hdisplaced : Displaced incoming existing b c) :
    Shrinks b c := by
  cases hdisplaced with
  | nothing => exact ⟨fun hg ↦ ⟨_, hg, rfl, rfl⟩, id⟩
  | group _ hg =>
      obtain ⟨-, hevicted, hremoved, -⟩ := removeGroup_spec h hg
      refine hevicted.shrinks h.toLinked fun group' hg' ↦ ?_
      rw [hremoved] at hg'
      exact absurd hg' (by simp)
  | instance_ hi =>
      obtain ⟨-, hevicted, -⟩ := removeInstance_spec h hi
      exact hevicted.shrinks h.toLinked fun group' hg' ↦ group_of_removeInstance h.toLinked hi hg'

/-! ## One call of `admit` -/

/-- What a call of `admit` that leads from `b` to `r` does to groups, bounds and instances. A group
is an old one, whose bounds are widened if the observation is of its shape; or it is created for the
observation. An instance is an old one or that of the observation. -/
structure Tracks (observation : NetworkObservation) (b r : NetworkBuilder φ) : Prop where
  groups : ∀ {g group'}, r.groupsById.get g = some group' →
    (∃ group, b.groupsById.get g = some group ∧ group'.identity = group.identity ∧
      r.shapeMetadata.get group.fingerprint =
        if observation.isPostFilter = true ∧ observation.shape = group.shape then
          (b.shapeMetadata.get group.fingerprint).map
            (ShapeMetadata.observe observation.instance_.offsetMs)
        else b.shapeMetadata.get group.fingerprint) ∨
    (b.groupsById.get g = none ∧ observation.isPostFilter = true ∧
      group'.shape = observation.shape ∧ group'.firstOffsetMs = none ∧
      group'.lastOffsetMs = none ∧
      r.shapeMetadata.get group'.fingerprint =
        some (.ofOffsets [observation.instance_.offsetMs]))
  instances : ∀ {i inst}, r.instancesById.get i = some inst →
    b.instancesById.get i = some inst ∨
      observation.isPostFilter = true ∧ inst.offsetMs = observation.instance_.offsetMs ∧
        ∃ group', r.groupsById.get inst.groupId = some group' ∧ group'.shape = observation.shape

/-- The fingerprint of a group is that of an observation of its shape, and of no other. -/
theorem fingerprint_eq_iff (h : b.Linked hashShape pending) (hinj : Function.Injective hashShape)
    {g : GroupId} {group : NetworkGroup φ} (hg : b.groupsById.get g = some group)
    (shape : NetworkObservationShape) :
    group.fingerprint = hashShape shape ↔ shape = group.shape := by
  rw [← h.groups.group_shape hg]
  exact ⟨fun heq ↦ (hinj heq).symm, fun heq ↦ by rw [heq]⟩

/-- The bounds of a group after an observation that passes the filter has been noted. -/
theorem noted_metadata (h : b.Linked hashShape pending) (hinj : Function.Injective hashShape)
    (hpost : observation.isPostFilter = true) {g : GroupId} {group : NetworkGroup φ}
    (hg : b.groupsById.get g = some group) :
    (b.noted hashShape observation).shapeMetadata.get group.fingerprint =
      if observation.isPostFilter = true ∧ observation.shape = group.shape then
        (b.shapeMetadata.get group.fingerprint).map
          (ShapeMetadata.observe observation.instance_.offsetMs)
      else b.shapeMetadata.get group.fingerprint := by
  show (b.shapeMetadata.modify _ _).get group.fingerprint = _
  rw [OrderedMap.get_modify]
  have hiff := fingerprint_eq_iff h hinj hg observation.shape
  by_cases hshape : observation.shape = group.shape
  · rw [if_pos (hiff.mpr hshape), if_pos ⟨hpost, hshape⟩]
  · rw [if_neg (mt hiff.mp hshape), if_neg fun hmatch ↦ hshape hmatch.2]

/-- A builder that keeps its groups but for counters, and notes the observation, tracks it. -/
theorem tracks_of_noted (h : b.Linked hashShape pending) (hinj : Function.Injective hashShape)
    (hpost : observation.isPostFilter = true)
    (hgroups : ∀ {g group'}, r.groupsById.get g = some group' →
      ∃ group, b.groupsById.get g = some group ∧ group'.identity = group.identity)
    (hmetadata : r.shapeMetadata = (b.noted hashShape observation).shapeMetadata)
    (hinstances : r.instancesById = b.instancesById) : Tracks observation b r where
  groups hg' := by
    obtain ⟨group, hg, hidentity⟩ := hgroups hg'
    exact .inl ⟨group, hg, hidentity, by rw [hmetadata, noted_metadata h hinj hpost hg]⟩
  instances hi := .inl (hinstances ▸ hi)

/-- A builder that keeps everything tracks an observation of no retained shape, or one that does
not pass the filter. -/
theorem tracks_of_unchanged (hgroups : r.groupsById = b.groupsById)
    (hmetadata : r.shapeMetadata = b.shapeMetadata) (hinstances : r.instancesById = b.instancesById)
    (hother : ∀ {g group}, b.groupsById.get g = some group →
      ¬(observation.isPostFilter = true ∧ observation.shape = group.shape)) :
    Tracks observation b r where
  groups {g group'} hg' := by
    rw [hgroups] at hg'
    exact .inl ⟨group', hg', rfl, by rw [if_neg (hother hg'), hmetadata]⟩
  instances hi := .inl (hinstances ▸ hi)

/-- A commitment to an existing group tracks the observation. -/
theorem Entered.tracks_of_existing (h : b.Invariant hashShape 0)
    (hinj : Function.Injective hashShape) (hpost : observation.isPostFilter = true)
    (hshrinks : Shrinks (b.noted hashShape observation) c) (hc : c.Invariant hashShape 1)
    {existing : GroupId}
    (hfp : c.fingerprintToGroupId.get (hashShape observation.shape) = some existing)
    (hentered : Entered existing observation c r) : Tracks observation b r := by
  obtain ⟨own, hown, hownFp⟩ := hc.groups.fingerprint_iff.mp hfp
  have hget : ∀ g, r.groupsById.get g = if g = existing then
      (c.groupsById.get g).map NetworkGroup.countCommitted else c.groupsById.get g := by
    intro g
    rw [hentered.groups, OrderedMap.get_modify]
  refine ⟨fun {g group'} hg' ↦ .inl ?_, fun {i inst} hi ↦ ?_⟩
  · -- counting the commitment does not change the identity of a group
    obtain ⟨committed, hcommitted, hidentity⟩ : ∃ committed,
        c.groupsById.get g = some committed ∧ group'.identity = committed.identity := by
      rw [hget] at hg'
      split at hg'
      · obtain ⟨committed, hcommitted, rfl⟩ := Option.map_eq_some_iff.mp hg'
        exact ⟨committed, hcommitted, rfl⟩
      · exact ⟨group', hg', rfl⟩
    obtain ⟨group, hg, hsame, hbounds⟩ := hshrinks.groups hcommitted
    exact ⟨group, hg, hidentity.trans hsame, by
      rw [hentered.metadata, hbounds, noted_metadata h.toLinked hinj hpost hg]⟩
  · rcases hentered.instances hi with hold | ⟨hgroup, hoffset⟩
    · exact .inl (hshrinks.instances hold)
    · have hshape := (fingerprint_eq_iff hc.toLinked hinj hown observation.shape).mp hownFp
      refine .inr ⟨hpost, hoffset, own.countCommitted, ?_, hshape.symm⟩
      rw [hgroup, hget, if_pos rfl, hown]
      rfl

/-- A commitment to a new group tracks the observation. -/
theorem Entered.tracks_of_new (h : b.Invariant hashShape 0) (hinj : Function.Injective hashShape)
    (hpost : observation.isPostFilter = true)
    (hshrinks : Shrinks (b.noted hashShape observation) c) (hc : c.Invariant hashShape 1)
    (hfp : c.fingerprintToGroupId.get (hashShape observation.shape) = none)
    (hnext : c.nextGroupCounter = b.nextGroupCounter)
    (hentered : Entered ⟨c.nextGroupCounter⟩ observation (c.commitGroup
      (hashShape observation.shape) observation.shape observation.instance_.offsetMs) r) :
    Tracks observation b r := by
  -- apart from the created group, groups are those that the eviction has left
  have hother : ∀ {g}, g ≠ ⟨c.nextGroupCounter⟩ → r.groupsById.get g = c.groupsById.get g := by
    intro g hne
    rw [hentered.groups, OrderedMap.get_modify, if_neg hne]
    show (c.groupsById.set _ _).get g = _
    rw [OrderedMap.get_set, if_neg hne]
  obtain ⟨created, hcreated, hshape, hcreatedFp, hfirst, hlast⟩ : ∃ created,
      r.groupsById.get ⟨c.nextGroupCounter⟩ = some created ∧ created.shape = observation.shape ∧
        created.fingerprint = hashShape observation.shape ∧ created.firstOffsetMs = none ∧
          created.lastOffsetMs = none := by
    rw [hentered.groups, OrderedMap.get_modify, if_pos rfl]
    show ∃ created, ((c.groupsById.set _ _).get ⟨c.nextGroupCounter⟩).map _ = some created ∧ _
    rw [OrderedMap.get_set, if_pos rfl]
    exact ⟨_, rfl, rfl, rfl, rfl, rfl⟩
  have hbounds : ∀ fingerprint, r.shapeMetadata.get fingerprint =
      if fingerprint = hashShape observation.shape then
        some (.ofOffsets [observation.instance_.offsetMs])
      else c.shapeMetadata.get fingerprint := by
    intro fingerprint
    rw [hentered.metadata]
    show (c.shapeMetadata.set _ _).get fingerprint = _
    rw [OrderedMap.get_set]
    cases observation.instance_.offsetMs <;> rfl
  refine ⟨fun {g group'} hg' ↦ ?_, fun {i inst} hi ↦ ?_⟩
  · by_cases hnew : g = ⟨c.nextGroupCounter⟩
    · subst hnew
      obtain rfl : created = group' := Option.some.inj (hcreated.symm.trans hg')
      refine .inr ⟨?_, hpost, hshape, hfirst, hlast, by rw [hbounds, if_pos hcreatedFp]⟩
      rw [hnext]
      exact h.groups.group_free
    · rw [hother hnew] at hg'
      obtain ⟨group, hg, hidentity, hkept⟩ := hshrinks.groups hg'
      -- a group of the shape would have been found
      have hne : group.fingerprint ≠ hashShape observation.shape := by
        intro heq
        rw [← (NetworkGroup.eq_of_identity hidentity).2.1] at heq
        rw [hc.groups.fingerprint_iff.mpr ⟨group', hg', heq⟩] at hfp
        exact absurd hfp (by simp)
      refine .inl ⟨group, hg, hidentity, ?_⟩
      rw [hbounds, if_neg hne, hkept, noted_metadata h.toLinked hinj hpost hg]
  · rcases hentered.instances hi with hold | ⟨hgroup, hoffset⟩
    · exact .inl (hshrinks.instances hold)
    · exact .inr ⟨hpost, hoffset, created, hgroup ▸ hcreated, hshape⟩

/-- Every call of `admit` tracks its observation. -/
theorem admit_tracks (h : b.Invariant hashShape 0) (hinj : Function.Injective hashShape)
    (observation : NetworkObservation) :
    Tracks observation b (b.admitObservation hashShape observation) := by
  by_cases hfilter : isLowSignalStaticAsset observation.shape.toPriorityShape = true
  · rw [admitObservation, if_pos hfilter]
    refine tracks_of_unchanged rfl rfl rfl fun _ hmatch ↦ ?_
    rw [NetworkObservation.isPostFilter, hfilter] at hmatch
    exact absurd hmatch.1 (by decide)
  have hpost : observation.isPostFilter = true := by
    simpa [NetworkObservation.isPostFilter] using hfilter
  have houtcome := admit_outcome h hinj observation
  generalize b.admitObservation hashShape observation = r at houtcome
  cases houtcome with
  | filtered hlow => exact absurd hlow hfilter
  | @suppressed g hg =>
      refine tracks_of_noted h.toLinked hinj hpost (fun {g' group'} hg' ↦ ?_) rfl rfl
      have hget : (b.groupsById.modify g NetworkGroup.countSuppressed).get g' = some group' := hg'
      rw [OrderedMap.get_modify] at hget
      split at hget
      · obtain ⟨group, hgroup, rfl⟩ := Option.map_eq_some_iff.mp hget
        exact ⟨group, hgroup, rfl⟩
      · exact ⟨group', hget, rfl⟩
  | groupCap hnew =>
      -- the shape is dropped because it has no group
      refine tracks_of_unchanged rfl rfl rfl fun {g group} hg hmatch ↦ ?_
      have hfp := (fingerprint_eq_iff h.toLinked hinj hg observation.shape).mpr hmatch.2
      rw [h.groups.fingerprint_iff.mpr ⟨group, hg, hfp⟩] at hnew
      exact absurd hnew (by simp)
  | instanceCap =>
      exact tracks_of_noted h.toLinked hinj hpost (fun {g' group'} hg' ↦ ⟨group', hg', rfl⟩) rfl rfl
  | @kept c hdisplaced hc hexisting =>
      have hnoted := noted_invariant h observation
      have hshrinks := hdisplaced.shrinks hnoted
      obtain ⟨hnext, -⟩ := hdisplaced.frame hnoted
      have hentered := c.commit_entered (hashShape observation.shape)
        (c.fingerprintToGroupId.get (hashShape observation.shape)) observation
      cases hfp : c.fingerprintToGroupId.get (hashShape observation.shape) with
      | some existing =>
          rw [hfp] at hentered
          exact hentered.tracks_of_existing h hinj hpost hshrinks hc hfp
      | none =>
          rw [hfp] at hentered
          exact hentered.tracks_of_new h hinj hpost hshrinks hc hfp hnext

/-! ## Runs -/

/-- The observations since a group was created: it was missing before the first of them, and has
been there since. -/
def SinceCreation (hashShape : NetworkObservationShape → φ)
    (observations : List NetworkObservation) (g : GroupId) (since : List NetworkObservation) :
    Prop :=
  ∃ before created after, observations = before ++ created :: after ∧ since = created :: after ∧
    (admitAll hashShape before).groupsById.get g = none ∧
    ∀ later, later <+: after →
      ((admitAll hashShape (before ++ created :: later)).groupsById.get g).isSome = true

/-- What is known of a retained group after some observations: its record has no bounds yet, those
kept beside it are of the observations of its shape since it was created, and its instances are
among these. -/
structure Bounded (hashShape : NetworkObservationShape → φ)
    (observations : List NetworkObservation) (g : GroupId) (group : NetworkGroup φ)
    (since : List NetworkObservation) : Prop where
  created : SinceCreation hashShape observations g since
  unset : group.firstOffsetMs = none ∧ group.lastOffsetMs = none
  metadata : (admitAll hashShape observations).shapeMetadata.get group.fingerprint =
    some (.ofOffsets (offsetsOf group.shape since))
  instances : ∀ {i inst}, (admitAll hashShape observations).instancesById.get i = some inst →
    inst.groupId = g → inst.offsetMs ∈ offsetsOf group.shape since

/-- A group that is still there after one more call was created when it was. -/
theorem SinceCreation.concat {observations since : List NetworkObservation} {g : GroupId}
    (h : SinceCreation hashShape observations g since) (observation : NetworkObservation)
    (hstill :
      ((admitAll hashShape (observations ++ [observation])).groupsById.get g).isSome = true) :
    SinceCreation hashShape (observations ++ [observation]) g (since ++ [observation]) := by
  obtain ⟨before, created, after, rfl, rfl, hmissing, hthere⟩ := h
  refine ⟨before, created, after ++ [observation], by simp, rfl, hmissing, fun later hprefix ↦ ?_⟩
  rcases List.prefix_concat_iff.mp hprefix with rfl | hshorter
  · simpa using hstill
  · exact hthere later hshorter

/-- A group that is there after a call but was not before it was created by the call. -/
theorem sinceCreation_new {observations : List NetworkObservation} {g : GroupId}
    {observation : NetworkObservation}
    (hmissing : (admitAll hashShape observations).groupsById.get g = none)
    (hthere :
      ((admitAll hashShape (observations ++ [observation])).groupsById.get g).isSome = true) :
    SinceCreation hashShape (observations ++ [observation]) g [observation] := by
  refine ⟨observations, observation, [], rfl, rfl, hmissing, fun later hprefix ↦ ?_⟩
  rw [List.prefix_nil.mp hprefix]
  exact hthere

/-- One more call keeps the bounds of a group that it found. -/
theorem Bounded.concat {observations since : List NetworkObservation} {g : GroupId}
    {group group' : NetworkGroup φ} (h : Bounded hashShape observations g group since)
    (htracks : Tracks observation (admitAll hashShape observations)
      (admitAll hashShape (observations ++ [observation])))
    (hg : (admitAll hashShape (observations ++ [observation])).groupsById.get g = some group')
    (hidentity : group'.identity = group.identity)
    (hmetadata : (admitAll hashShape (observations ++ [observation])).shapeMetadata.get
      group.fingerprint =
        if observation.isPostFilter = true ∧ observation.shape = group.shape then
          ((admitAll hashShape observations).shapeMetadata.get group.fingerprint).map
            (ShapeMetadata.observe observation.instance_.offsetMs)
        else (admitAll hashShape observations).shapeMetadata.get group.fingerprint) :
    Bounded hashShape (observations ++ [observation]) g group' (since ++ [observation]) := by
  obtain ⟨hshape, hfp, hfirst, hlast⟩ := NetworkGroup.eq_of_identity hidentity
  refine ⟨h.created.concat observation (by rw [hg]; rfl),
    ⟨hfirst.trans h.unset.1, hlast.trans h.unset.2⟩, ?_, fun {i inst} hi hinst ↦ ?_⟩
  · rw [hfp, hmetadata, hshape, offsetsOf_concat, h.metadata]
    split
    · rw [Option.map_some, ShapeMetadata.observe_ofOffsets]
    · rfl
  · rw [hshape, offsetsOf_concat]
    rcases htracks.instances hi with hold | ⟨hpost, hoffset, own, hown, hownShape⟩
    · have hmem := h.instances hold hinst
      split
      · exact List.mem_append_left _ hmem
      · exact hmem
    · rw [hinst, hg, Option.some.injEq] at hown
      subst hown
      rw [if_pos ⟨hpost, hownShape.symm.trans hshape⟩, hoffset]
      exact List.mem_append_right _ (List.mem_singleton_self _)

/-- In every run, the bounds kept beside a group are those of the observations of its shape since
it was created. -/
theorem admitAll_bounded (hinj : Function.Injective hashShape)
    (observations : List NetworkObservation) {g : GroupId} {group : NetworkGroup φ}
    (hg : (admitAll hashShape observations).groupsById.get g = some group) :
    ∃ since, Bounded hashShape observations g group since := by
  induction observations using List.reverseRecOn generalizing g group with
  | nil => simp [admitAll, initial] at hg
  | append_singleton observations observation ih =>
      have hinv := admitAll_invariant hinj observations
      have htracks := admit_tracks hinv hinj observation
      rw [← admitAll_concat] at htracks
      -- the group was there before the last call, or was created by it
      rcases htracks.groups hg with ⟨before, hbefore, hidentity, hmetadata⟩ |
        ⟨hmissing, hpost, hshape, hfirst, hlast, hmetadata⟩
      · obtain ⟨since, hbounded⟩ := ih hbefore
        exact ⟨_, hbounded.concat htracks hg hidentity hmetadata⟩
      · have hoffsets : offsetsOf group.shape [observation] =
            [observation.instance_.offsetMs] := by
          simp [offsetsOf, hpost, hshape]
        refine ⟨[observation], sinceCreation_new hmissing (by rw [hg]; rfl), ⟨hfirst, hlast⟩, ?_,
          fun {i inst} hi hinst ↦ ?_⟩
        · rw [hoffsets, hmetadata]
        · rw [hoffsets]
          rcases htracks.instances hi with hold | ⟨-, hoffset, -⟩
          · -- an old instance would need an old group
            have hold' := hinv.groups.instance_group hold
            rw [hinst, hmissing] at hold'
            exact absurd hold' (by simp)
          · rw [hoffset]
            exact List.mem_singleton_self _

/-- What a report says about the bounds of a group. -/
theorem bounds_of_reported {observations : List NetworkObservation} {report : NetworkReport φ}
    (hreported : Reported (admitAll hashShape observations) report)
    (hinj : Function.Injective hashShape) {g : GroupId} {group : NetworkGroup φ}
    (hg : report.groups.get g = some group) :
    ∃ original since, (admitAll hashShape observations).groupsById.get g = some original ∧
      Bounded hashShape observations g original since ∧ group.shape = original.shape ∧
      group.firstOffsetMs = ((offsetsOf group.shape since).filterMap id).min? ∧
      group.lastOffsetMs = ((offsetsOf group.shape since).filterMap id).max? := by
  rw [hreported.groups, Option.map_eq_some_iff] at hg
  obtain ⟨original, horiginal, rfl⟩ := hg
  obtain ⟨since, hbounded⟩ := admitAll_bounded hinj observations horiginal
  refine ⟨original, since, horiginal, hbounded, rfl, ?_, ?_⟩
  · show ((_ : Option ShapeMetadata).bind (·.firstOffsetMs)).or original.firstOffsetMs = _
    rw [hbounded.metadata, hbounded.unset.1, Option.or_none]
    rfl
  · show ((_ : Option ShapeMetadata).bind (·.lastOffsetMs)).or original.lastOffsetMs = _
    rw [hbounded.metadata, hbounded.unset.2, Option.or_none]
    rfl

/-- A bound is missing exactly if no offset is known. -/
theorem filterMap_id_eq_nil {offsets : List (Option ℚ)} :
    offsets.filterMap id = [] ↔ ∀ offset ∈ offsets, offset = none := by
  simp [List.filterMap_eq_nil_iff]

end

/-- In every report the bounds of a group are the least and the greatest offset of the observations
of its shape that passed the filter since it was created, and they are missing if none of these has
an offset; so the offsets of its retained instances lie between them. -/
theorem offset_bounds (sha1 : List JsonScalar → φ) (hinj : Function.Injective (hashShape sha1))
    (observations : List NetworkObservation) :
    ∃ report, (admitAll (hashShape sha1) observations).finalize = .ok report ∧
      (∀ g group, report.groups.get g = some group →
        ∃ since, SinceCreation (hashShape sha1) observations g since ∧
          group.firstOffsetMs = ((offsetsOf group.shape since).filterMap id).min? ∧
          group.lastOffsetMs = ((offsetsOf group.shape since).filterMap id).max? ∧
          (group.firstOffsetMs = none ↔ ∀ offset ∈ offsetsOf group.shape since, offset = none) ∧
          (group.lastOffsetMs = none ↔ ∀ offset ∈ offsetsOf group.shape since, offset = none)) ∧
      ∀ inst ∈ report.instances, ∀ offset, inst.offsetMs = some offset →
        ∃ group first last, report.groups.get inst.groupId = some group ∧
          group.firstOffsetMs = some first ∧ group.lastOffsetMs = some last ∧
          first ≤ offset ∧ offset ≤ last := by
  have hinv := admitAll_invariant hinj observations
  obtain ⟨report, hfinalize, hreported, -⟩ := finalize_spec hinv
  refine ⟨report, hfinalize, fun g group hg ↦ ?_, fun inst hinst offset hoffset ↦ ?_⟩
  · obtain ⟨original, since, -, hbounded, hshape, hfirst, hlast⟩ :=
      bounds_of_reported hreported hinj hg
    refine ⟨since, hbounded.created, hfirst, hlast, ?_, ?_⟩
    · rw [hfirst, List.min?_eq_none_iff, filterMap_id_eq_nil]
    · rw [hlast, List.max?_eq_none_iff, filterMap_id_eq_nil]
  · obtain ⟨original, horiginal, hannotated⟩ := hreported.records hinst
    have hgroupId : inst.groupId = original.groupId := by rw [hannotated]
    have hsame : inst.offsetMs = original.offsetMs := by rw [hannotated]
    obtain ⟨group, hgroup⟩ := hinv.groups.group_of_instance horiginal
    have hreport : ∃ reportGroup, report.groups.get inst.groupId = some reportGroup := by
      rw [hreported.groups, hgroupId, hgroup]
      exact ⟨_, rfl⟩
    obtain ⟨reportGroup, hreportGroup⟩ := hreport
    obtain ⟨recorded, since, hrecorded, hbounded, hshape, hfirst, hlast⟩ :=
      bounds_of_reported hreported hinj hreportGroup
    -- the offset of a retained instance is among those since the group was created
    have hmem : offset ∈ (offsetsOf reportGroup.shape since).filterMap id := by
      rw [hshape]
      have hamong := hbounded.instances horiginal hgroupId.symm
      rw [← hsame, hoffset] at hamong
      exact List.mem_filterMap.mpr ⟨some offset, hamong, rfl⟩
    obtain ⟨first, hmin⟩ := Option.isSome_iff_exists.mp (List.isSome_min?_of_mem hmem)
    obtain ⟨last, hmax⟩ := Option.isSome_iff_exists.mp (List.isSome_max?_of_mem hmem)
    exact ⟨reportGroup, first, last, hreportGroup, hfirst.trans hmin, hlast.trans hmax,
      (List.min?_eq_some_iff.mp hmin).2 offset hmem, (List.max?_eq_some_iff.mp hmax).2 offset hmem⟩

/-- A trace that is merged later, with an earlier offset. -/
theorem offset_bounds_merged :
    ∃ report, (admitAll (hashShape id) [sampleObservation, { sampleObservation with
        instance_ := { sampleObservation.instance_ with offsetMs := some 5 } }]).finalize =
          .ok report ∧
      ∀ inst ∈ report.instances, ∀ offset, inst.offsetMs = some offset →
        ∃ group first last, report.groups.get inst.groupId = some group ∧
          group.firstOffsetMs = some first ∧ group.lastOffsetMs = some last ∧
          first ≤ offset ∧ offset ≤ last := by
  obtain ⟨report, hfinalize, -, hinstances⟩ :=
    offset_bounds id (hashShape_injective Function.injective_id) [sampleObservation,
      { sampleObservation with
        instance_ := { sampleObservation.instance_ with offsetMs := some 5 } }]
  exact ⟨report, hfinalize, hinstances⟩

end NetworkBuilder

end CoreUtils.Reporter
