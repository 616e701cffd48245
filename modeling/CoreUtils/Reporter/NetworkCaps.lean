import CoreUtils.Reporter.NetworkSampling

/-!
# What a full report evicts

In any reachable state, an observation displaces only what ranks below it
(`admit_evicts_by_priority`). At the cap of the groups it does displace something, if it has a new
shape that ranks above all groups (`not_nothingEvicted_of_full`).
-/

namespace CoreUtils.Reporter.NetworkBuilder

variable {φ : Type} [DecidableEq φ] {b : NetworkBuilder φ} {observation : NetworkObservation}

section

variable {hashShape : NetworkObservationShape → φ}

/-- A builder with groups has instances, each of the tier of its group. -/
theorem exists_instance_of_group (h : b.Invariant hashShape 0) {g : GroupId}
    {group : NetworkGroup φ} (hg : b.groupsById.get g = some group) :
    ∃ i inst, b.instancesById.get i = some inst ∧
      b.instanceScore inst = priorityScore group.toPriorityShape := by
  obtain ⟨ids, hids⟩ := h.groups.index_of_group hg
  obtain ⟨i, value, hi⟩ := OrderedMap.exists_get_of_size_pos (h.nonempty hids)
  obtain ⟨inst, hinst, hgroup⟩ := (h.groups.index_mem hids i).mp hi
  exact ⟨i, inst, hinst, by rw [instanceScore, hgroup, hg, Option.elim_some]⟩

/-- At the cap of the groups, a new shape that ranks above all of them evicts something. -/
theorem not_nothingEvicted_of_full (h : b.Invariant hashShape 0)
    (hinj : Function.Injective hashShape)
    (hpost : isLowSignalStaticAsset observation.shape.toPriorityShape = false)
    (hnew : b.fingerprintToGroupId.get (hashShape observation.shape) = none)
    (hfull : GROUPS_CAP ≤ b.groupsById.size)
    (hbelow : ∀ g group, b.groupsById.get g = some group →
      priorityScore group.toPriorityShape < priorityScore observation.shape.toPriorityShape) :
    ¬NothingEvicted b (b.admitObservation hashShape observation) := by
  obtain ⟨g, group, hg⟩ := OrderedMap.exists_get_of_size_pos
    (lt_of_lt_of_le (show 0 < GROUPS_CAP by decide) hfull)
  intro hnothing
  have houtcome := admit_outcome h hinj observation
  generalize b.admitObservation hashShape observation = r at hnothing houtcome
  cases houtcome with
  | filtered hfilter => simp [hpost] at hfilter
  | suppressed hknown => simp [hnew] at hknown
  | groupCap _ hleast => exact absurd (hleast hg) (not_le.mpr (hbelow g group hg))
  | instanceCap hleast =>
      obtain ⟨i, inst, hinst, hscore⟩ := exists_instance_of_group h hg
      exact absurd (hscore ▸ hleast hinst) (not_le.mpr (hbelow g group hg))
  | kept hdisplaced hc hexisting hgroups hinstances =>
      obtain ⟨hnextGroup, hnext, -⟩ := hdisplaced.frame (noted_invariant h observation)
      obtain ⟨-, hcommitted, -⟩ := commit_spec hc hinj hgroups hinstances
      have hroom := hgroups (hexisting.trans hnew)
      cases hdisplaced with
      | nothing => exact absurd hfull (not_le.mpr hroom)
      | @group _ g _ hvictim =>
          obtain ⟨-, -, hremoved, -⟩ := removeGroup_spec (noted_invariant h observation) hvictim
          -- the group that is created is none of the former ones
          have hfresh : g ≠ ⟨b.nextGroupCounter⟩ := by
            rintro rfl
            exact absurd (hvictim.symm.trans h.groups.group_free) (by simp)
          have hcreated : (((b.noted hashShape observation).removeGroup g true
              ).fingerprintToGroupId.get (hashShape observation.shape)).getD
                ⟨((b.noted hashShape observation).removeGroup g true).nextGroupCounter⟩ =
              ⟨b.nextGroupCounter⟩ := by
            rw [hexisting, hnew, hnextGroup]
            rfl
          rw [hcreated] at hcommitted
          have hkept := hnothing.groups hvictim
          rw [hcommitted.groups hfresh, hremoved] at hkept
          exact absurd hkept (by simp)
      | instance_ hvictim =>
          obtain ⟨-, hevicted, -⟩ := removeInstance_spec (noted_invariant h observation) hvictim
          have hgone := (survives_commit h hcommitted hnext).1 hvictim
          rw [hnothing.instances hvictim, hevicted.instances] at hgone
          simp at hgone

end

/-- In every reachable state, a cap rejects an observation only below entries of at least its tier,
and an eviction takes the least entry, strictly below its tier; so no retained entry of an equal
or higher tier is displaced. -/
theorem admit_evicts_by_priority (sha1 : List JsonScalar → φ)
    (hinj : Function.Injective (hashShape sha1)) (observations : List NetworkObservation)
    (observation : NetworkObservation) :
    let b := admitAll (hashShape sha1) observations
    let r := b.admitObservation (hashShape sha1) observation
    let incoming := priorityScore observation.shape.toPriorityShape
    (b.summary.instancesDroppedByGroupCap < r.summary.instancesDroppedByGroupCap →
      ∀ g group, b.groupsById.get g = some group →
        incoming ≤ priorityScore group.toPriorityShape) ∧
    (b.summary.instancesDroppedByInstanceCap < r.summary.instancesDroppedByInstanceCap →
      ∀ i inst, b.instancesById.get i = some inst → ∃ group,
        b.groupsById.get inst.groupId = some group ∧
          incoming ≤ priorityScore group.toPriorityShape) ∧
    (NothingEvicted b r ∨ (∃ g group, GroupVictim incoming g group b r) ∨
      ∃ i inst, InstanceVictim incoming i inst b r) ∧
    (∀ i inst, b.instancesById.get i = some inst → r.instancesById.get i = none →
      ∃ group, b.groupsById.get inst.groupId = some group ∧
        priorityScore group.toPriorityShape < incoming) ∧
    ∀ g group, b.groupsById.get g = some group → r.groupsById.get g = none →
      priorityScore group.toPriorityShape < incoming := by
  intro b r incoming
  have hinv := admitAll_invariant hinj observations
  have houtcome := admit_outcome hinv hinj observation
  have hdisplacement := houtcome.displacement hinv hinj
  have hscore : ∀ {i inst}, b.instancesById.get i = some inst → ∃ group,
      b.groupsById.get inst.groupId = some group ∧
        b.instanceScore inst = priorityScore group.toPriorityShape := by
    intro i inst hi
    obtain ⟨group, hg⟩ := hinv.groups.group_of_instance hi
    exact ⟨group, hg, by rw [instanceScore, hg, Option.elim_some]⟩
  refine ⟨(houtcome.cap_reason hinv hinj).1, fun hlt i inst hi ↦ ?_, hdisplacement,
    fun i inst hi hgone ↦ ?_, fun g group hg hgone ↦ ?_⟩
  · obtain ⟨group, hg, heq⟩ := hscore hi
    exact ⟨group, hg, heq ▸ (houtcome.cap_reason hinv hinj).2 hlt i inst hi⟩
  · obtain ⟨group, hg, heq⟩ := hscore hi
    refine ⟨group, hg, ?_⟩
    rcases hdisplacement with hnothing | ⟨g, victim, hvictim⟩ | ⟨j, victim, hvictim⟩
    · exact absurd (hgone.symm.trans (hnothing.instances hi)) (by simp)
    · -- it went with its group
      have hgroup : inst.groupId = g := by
        by_contra hne
        have := hvictim.instances hi
        rw [if_neg hne] at this
        exact absurd (hgone.symm.trans this) (by simp)
      have : group = victim := Option.some.inj (hg.symm.trans (hgroup ▸ hvictim.retained))
      exact this ▸ hvictim.below
    · -- it was the evicted instance itself
      have hij : i = j := by
        by_contra hne
        have := hvictim.instances hi
        rw [if_neg hne] at this
        exact absurd (hgone.symm.trans this) (by simp)
      have : inst = victim := Option.some.inj (hi.symm.trans (hij ▸ hvictim.retained))
      rw [← heq, this]
      exact hvictim.below
  · rcases hdisplacement with hnothing | ⟨g', victim, hvictim⟩ | ⟨j, victim, hvictim⟩
    · have := hnothing.groups hg
      rw [hgone] at this
      exact absurd this (by simp)
    · have heq : g = g' := by
        by_contra hne
        exact absurd (hgone.symm.trans (hvictim.groups hne hg)) (by simp)
      have : group = victim := Option.some.inj (hg.symm.trans (heq ▸ hvictim.retained))
      exact this ▸ hvictim.below
    · -- it went with its last instance, which ranks like the group
      have heq : g = victim.groupId := by
        by_contra hne
        have := hvictim.groups hne hg
        rw [hgone] at this
        exact absurd this (by simp)
      have hbelow := hvictim.below
      rwa [instanceScore, ← heq, hg, Option.elim_some] at hbelow

/-- An observation of a request with a status of its own, and of a tier that depends on nothing
else. -/
def statusObservation (status : ℕ) : NetworkObservation where
  shape := ⟨"GET", "https://example.com/a", status, none, none, none⟩
  instance_ := ⟨none, none, none, none, none, none, none, none⟩
  requestBody := none
  responseBody := none

/-- Requests with as many different statuses, none of them an error, as there may be groups. -/
def fullObservations : List NetworkObservation :=
  (List.range GROUPS_CAP).map statusObservation

/-- The shapes of these requests. -/
theorem shapesOf_fullObservations : shapesOf fullObservations =
    (List.range GROUPS_CAP).map fun status ↦ (statusObservation status).shape := by
  rw [shapesOf, fullObservations, List.filter_map, List.map_map]
  exact congrArg (List.map _) (List.filter_eq_self.mpr fun _ _ ↦ rfl)

/-- Requests with these shapes fill the groups, none of which is known for an error or ranks like
one. -/
theorem full_admitAll {observations : List NetworkObservation}
    (hlength : observations.length ≤ GROUPS_CAP) (hshapes : shapesOf observations =
      (List.range GROUPS_CAP).map fun status ↦ (statusObservation status).shape) :
    let b := admitAll (hashShape id) observations
    b.groupsById.size = GROUPS_CAP ∧
      (∀ status, GROUPS_CAP ≤ status →
        b.fingerprintToGroupId.get (hashShape id (statusObservation status).shape) = none) ∧
      ∀ g group, b.groupsById.get g = some group → priorityScore group.toPriorityShape = 3 := by
  intro b
  have hinj := hashShape_injective (φ := List JsonScalar) Function.injective_id
  have hs := sampled_of_uncapped hinj ((uncapped_iff_fits hinj).mpr (fits_of_length hlength))
  have hlinked := (admitAll_invariant hinj observations).toLinked
  have hstatus : Function.Injective fun status ↦ (statusObservation status).shape :=
    fun status other h ↦ Nat.cast_injective (NetworkObservationShape.mk.inj h).2.2.1
  refine ⟨?_, fun status hnew ↦ ?_, fun g group hg ↦ ?_⟩
  · have hnodup : (shapesOf observations).Nodup := by
      rw [hshapes]
      exact List.nodup_range.map hstatus
    rw [hs.groups_size, groupsTally, tally_of_nodup rfl hnodup, hshapes]
    simp
  · rw [hs.new_iff hlinked, hshapes, List.mem_map_of_injective hstatus, List.mem_range]
    exact not_lt.mpr hnew
  · obtain ⟨hmem, -⟩ := hs.group_of_get hlinked hg
    rw [hshapes] at hmem
    obtain ⟨status, hlisted, hshape⟩ := List.mem_map.mp hmem
    have hpriority : group.toPriorityShape = ⟨status, none, none, none⟩ :=
      congrArg NetworkObservationShape.toPriorityShape hshape.symm
    have hlow : status < 400 :=
      (List.mem_range.mp hlisted).trans_le (show GROUPS_CAP ≤ 400 by decide)
    have hnonnegative : (status : ℚ) ≠ -1 :=
      ((neg_lt_zero.mpr one_pos).trans_le (Nat.cast_nonneg status)).ne'
    rw [hpriority]
    have hbelow : ¬400 ≤ status ∧ ¬500 ≤ status := by omega
    simp [priorityScore, isAbortFailureText, hnonnegative, hbelow]

/-- Once the groups are full, a server error evicts the group or the instance of least rank. -/
theorem admit_evicts_by_priority_full :
    let b := admitAll (hashShape id) fullObservations
    let r := b.admitObservation (hashShape id) (statusObservation 500)
    (∃ g group, GroupVictim 10 g group b r) ∨ ∃ i inst, InstanceVictim 10 i inst b r := by
  have hinj := hashShape_injective (φ := List JsonScalar) Function.injective_id
  have hlength : fullObservations.length ≤ GROUPS_CAP := by simp [fullObservations]
  have hshapes := shapesOf_fullObservations
  -- the run is not evaluated
  generalize fullObservations = observations at hlength hshapes ⊢
  intro b r
  obtain ⟨hsize, hnew, htier⟩ := full_admitAll hlength hshapes
  have hscore : priorityScore (statusObservation 500).shape.toPriorityShape = 10 := by decide
  have hevicts : ¬NothingEvicted b r := by
    refine not_nothingEvicted_of_full (admitAll_invariant hinj _) hinj rfl (hnew 500 (by decide))
      hsize.ge fun g group hg ↦ ?_
    rw [htier g group hg, hscore]
    decide
  have hvictim := (admit_evicts_by_priority id hinj observations
    (statusObservation 500)).2.2.1.resolve_left hevicts
  rwa [hscore] at hvictim

end CoreUtils.Reporter.NetworkBuilder
