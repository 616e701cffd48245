import CoreUtils.Reporter.NetworkCommit
import CoreUtils.Reporter.NetworkEviction

/-!
# One call of `admit`, and whole runs

`Outcome` lists what a call of `admit` can do: four ways to drop the observation, or a commitment
after at most one eviction. `admit_outcome` shows that the list is complete and records what each
way tells about the builder. From it follow that `admit` keeps the invariant (`admit_invariant`)
and that every run does (`admitAll_invariant`).
-/

namespace CoreUtils.Reporter.NetworkBuilder

variable {φ : Type} [DecidableEq φ] {hashShape : NetworkObservationShape → φ}
  {b : NetworkBuilder φ} {observation : NetworkObservation}

/-- The builder after counting an observation and noting it in the metadata of its shape. -/
def noted (hashShape : NetworkObservationShape → φ) (b : NetworkBuilder φ)
    (observation : NetworkObservation) : NetworkBuilder φ :=
  b.observe.noteObservation (hashShape observation.shape) observation.instance_.offsetMs

/-- What the eviction before a commitment has done: nothing, or removed the entry of least key,
which ranks below the incoming tier. Only a shape without a group evicts a group. -/
inductive Displaced (incoming : PriorityShape) (existing : Option GroupId) (b : NetworkBuilder φ) :
    NetworkBuilder φ → Prop
  | nothing : Displaced incoming existing b b
  | group (hnew : existing = none) {g : GroupId} {group : NetworkGroup φ}
      (hg : b.groupsById.get g = some group)
      (hfull : GROUPS_CAP ≤ b.groupsById.size)
      (hscore : priorityScore group.toPriorityShape < priorityScore incoming)
      (hleast : ∀ {g' group'}, b.groupsById.get g' = some group' →
        b.groupKey group ≤ b.groupKey group') :
      Displaced incoming existing b (b.removeGroup g true)
  | instance_ {i : InstanceId} {inst : NetworkInstance} (hi : b.instancesById.get i = some inst)
      (hfull : INSTANCES_CAP ≤ b.instancesById.size)
      (hscore : b.instanceScore inst < priorityScore incoming)
      (hleast : ∀ {i' inst'}, b.instancesById.get i' = some inst' →
        b.instanceKey i inst ≤ b.instanceKey i' inst') :
      Displaced incoming existing b (b.removeInstance i true false)

/-- The ways a call of `admit` can end. -/
inductive Outcome (hashShape : NetworkObservationShape → φ) (b : NetworkBuilder φ)
    (observation : NetworkObservation) : NetworkBuilder φ → Prop
  | filtered (hfilter : isLowSignalStaticAsset observation.shape.toPriorityShape = true) :
      Outcome hashShape b observation b.observe.dropByFilter
  | suppressed {g : GroupId}
      (hg : b.fingerprintToGroupId.get (hashShape observation.shape) = some g) :
      Outcome hashShape b observation ((b.noted hashShape observation).suppressDuplicate g)
  | groupCap (hnew : b.fingerprintToGroupId.get (hashShape observation.shape) = none)
      (hleast : ∀ {g group}, b.groupsById.get g = some group →
        priorityScore observation.shape.toPriorityShape ≤ priorityScore group.toPriorityShape) :
      Outcome hashShape b observation b.observe.dropByGroupCap
  | instanceCap (hleast : ∀ {i inst}, b.instancesById.get i = some inst →
      priorityScore observation.shape.toPriorityShape ≤ b.instanceScore inst) :
      Outcome hashShape b observation (b.noted hashShape observation).dropByInstanceCap
  | kept {c : NetworkBuilder φ}
      (hdisplaced : Displaced observation.shape.toPriorityShape
        (b.fingerprintToGroupId.get (hashShape observation.shape))
        (b.noted hashShape observation) c)
      (hc : c.Invariant hashShape 1)
      (hexisting : c.fingerprintToGroupId.get (hashShape observation.shape) =
        b.fingerprintToGroupId.get (hashShape observation.shape))
      (hgroups : c.fingerprintToGroupId.get (hashShape observation.shape) = none →
        c.groupsById.size < GROUPS_CAP)
      (hinstances : c.instancesById.size < INSTANCES_CAP) :
      Outcome hashShape b observation (c.commit (hashShape observation.shape)
        (c.fingerprintToGroupId.get (hashShape observation.shape)) observation)

/-! ## Completeness of the outcomes -/

/-- Noting an observation leaves it pending. -/
theorem noted_invariant (h : b.Invariant hashShape 0) (observation : NetworkObservation) :
    (b.noted hashShape observation).Invariant hashShape 1 := by
  have hbalanced := h.balanced
  refine ⟨⟨h.groups.modify_metadata _ _, h.counted, h.bodies, h.sequences, ?_⟩, h.nonempty,
    h.groups_cap, h.instances_cap, h.bodies_cap⟩
  simp only [noted, noteObservation, observe, NetworkSummary.terminal] at hbalanced ⊢
  omega

/-- A new shape has no metadata to note the observation in. -/
theorem noted_of_new (h : b.Invariant hashShape 0)
    (hnew : b.fingerprintToGroupId.get (hashShape observation.shape) = none) :
    b.noted hashShape observation = b.observe := by
  have hnone : b.shapeMetadata.get (hashShape observation.shape) = none := by
    have := h.groups.metadata_keys (hashShape observation.shape)
    rw [hnew] at this
    simpa using this
  simp [noted, noteObservation, observe, OrderedMap.modify_of_get_none hnone]

/-- The group of a shape ranks like the shape. -/
theorem score_of_existing {pending : ℕ} (h : b.Linked hashShape pending)
    (hinj : Function.Injective hashShape) {shape : NetworkObservationShape} {g : GroupId}
    (hg : b.fingerprintToGroupId.get (hashShape shape) = some g) :
    ∃ group, b.groupsById.get g = some group ∧ group.shape = shape ∧
      priorityScore group.toPriorityShape = priorityScore shape.toPriorityShape := by
  obtain ⟨group, hgroup, hfp⟩ := h.groups.fingerprint_iff.mp hg
  have hshape : group.shape = shape := hinj ((h.groups.group_shape hgroup).trans hfp)
  exact ⟨group, hgroup, hshape, by rw [← hshape]; rfl⟩

/-- An eviction for a shape never removes the group of that shape. -/
theorem fingerprint_of_evicted {pending : ℕ} {r : NetworkBuilder φ} {g : GroupId}
    {victims : List InstanceId} (h : b.Linked hashShape pending) (hr : r.Linked hashShape pending)
    (hevicted : Evicted g victims b r) {shape : NetworkObservationShape}
    (hother : b.fingerprintToGroupId.get (hashShape shape) ≠ some g) :
    r.fingerprintToGroupId.get (hashShape shape) =
      b.fingerprintToGroupId.get (hashShape shape) := by
  cases hexisting : b.fingerprintToGroupId.get (hashShape shape) with
  | none =>
      cases hafter : r.fingerprintToGroupId.get (hashShape shape) with
      | none => rfl
      | some g' =>
          have := hevicted.fingerprints hafter
          rw [hexisting] at this
          exact absurd this (by simp)
  | some g' =>
      obtain ⟨group, hg', hfp⟩ := h.groups.fingerprint_iff.mp hexisting
      have hne : g' ≠ g := fun heq ↦ hother (heq ▸ hexisting)
      exact hr.groups.fingerprint_iff.mpr ⟨group, (hevicted.groups hne).trans hg', hfp⟩

/-- From the instance cap on, when the instance cap may be exceeded. -/
theorem admitBelowInstanceCap_outcome (h : b.Invariant hashShape 0)
    (hinj : Function.Injective hashShape) (observation : NetworkObservation)
    (hgroups : b.fingerprintToGroupId.get (hashShape observation.shape) = none →
      b.groupsById.size < GROUPS_CAP) :
    Outcome hashShape b observation
      ((b.noted hashShape observation).admitBelowInstanceCap (hashShape observation.shape)
        (b.fingerprintToGroupId.get (hashShape observation.shape)) observation) := by
  have hnoted := noted_invariant h observation
  set c := b.noted hashShape observation with hc
  have hgroupOf : ∀ {i inst}, c.instancesById.get i = some inst →
      (c.groupsById.get inst.groupId).isSome := fun hi ↦ hnoted.groups.instance_group hi
  simp only [admitBelowInstanceCap]
  split
  · rename_i hfull
    cases hevict : c.evictLowestPriorityInstance observation.shape.toPriorityShape with
    | none =>
        exact .instanceCap fun {i inst} hi ↦ le_score_of_evictInstance_none hevict hgroupOf hi
    | some r =>
        obtain ⟨i, inst, hi, rfl, hscore, hleast⟩ := victim_of_evictInstance hevict hgroupOf
        obtain ⟨hinv, hevicted, hsize⟩ := removeInstance_spec hnoted hi
        have hother : c.fingerprintToGroupId.get (hashShape observation.shape) ≠
            some inst.groupId := by
          intro hg
          obtain ⟨group, hgroup, -, heq⟩ := score_of_existing hnoted.toLinked hinj hg
          rw [instanceScore, hgroup, Option.elim_some, heq] at hscore
          exact absurd hscore (Nat.lt_irrefl _)
        have hexisting := fingerprint_of_evicted hnoted.toLinked hinv.toLinked hevicted hother
        have hcap := hnoted.instances_cap
        have hkept := Outcome.kept (.instance_ hi hfull hscore hleast) hinv hexisting
          (fun hnew ↦ hevicted.groups_size.trans_lt (hgroups (hexisting ▸ hnew)))
          (hsize.trans_le hcap)
        rwa [hexisting] at hkept
  · rename_i hroom
    exact .kept .nothing hnoted rfl hgroups (Nat.lt_of_not_le hroom)

/-- Every call of `admit` ends in one of the listed ways. -/
theorem admit_outcome (h : b.Invariant hashShape 0) (hinj : Function.Injective hashShape)
    (observation : NetworkObservation) :
    Outcome hashShape b observation (b.admitObservation hashShape observation) := by
  unfold admitObservation
  split
  · rename_i hfilter
    exact .filtered hfilter
  · cases hexisting : b.observe.fingerprintToGroupId.get (hashShape observation.shape) with
    | some g =>
        simp only [admitPostFilter, hexisting]
        split
        · exact .suppressed hexisting
        · have houtcome := admitBelowInstanceCap_outcome h hinj observation
            (fun hnew ↦ absurd (hexisting.symm.trans hnew) (by simp))
          have hget : b.fingerprintToGroupId.get (hashShape observation.shape) = some g := hexisting
          rwa [hget] at houtcome
    | none =>
        have hget : b.fingerprintToGroupId.get (hashShape observation.shape) = none := hexisting
        have hnoted := noted_invariant h observation
        have heq := noted_of_new h hget
        rw [heq] at hnoted
        simp only [admitPostFilter, hexisting]
        split
        · rename_i hfull
          cases hevict : b.observe.evictLowestPriorityGroup observation.shape.toPriorityShape with
          | none => exact .groupCap hget fun hg ↦ le_score_of_evictGroup_none hevict hg
          | some r =>
              obtain ⟨g, group, hg, rfl, hscore, hleast⟩ := victim_of_evictGroup hevict
              obtain ⟨hinv, hevicted, -, hgroupsSize, hsize⟩ := removeGroup_spec hnoted hg
              have hother : b.observe.fingerprintToGroupId.get (hashShape observation.shape) ≠
                  some g := by
                rw [hexisting]; simp
              have hafter := fingerprint_of_evicted hnoted.toLinked hinv.toLinked hevicted hother
              have hroom : (b.observe.removeGroup g true).instancesById.size < INSTANCES_CAP :=
                hsize.trans_le hnoted.instances_cap
              have hcommit : (b.observe.removeGroup g true).admitBelowInstanceCap
                  (hashShape observation.shape) none observation =
                  (b.observe.removeGroup g true).commit (hashShape observation.shape)
                    ((b.observe.removeGroup g true).fingerprintToGroupId.get
                      (hashShape observation.shape)) observation := by
                rw [admitBelowInstanceCap, if_neg (by omega), hafter, hexisting]
              show Outcome hashShape b observation
                ((b.observe.removeGroup g true).admitBelowInstanceCap _ none observation)
              rw [hcommit]
              refine .kept ?_ hinv hafter (fun _ ↦ hgroupsSize.trans_le hnoted.groups_cap) hroom
              rw [heq]
              exact .group hget hg hfull hscore hleast
        · rename_i hroom
          have houtcome := admitBelowInstanceCap_outcome h hinj observation
            (fun _ ↦ Nat.lt_of_not_le hroom)
          rwa [hget, heq] at houtcome

/-! ## The invariant is kept -/

/-- Counting the pending observation in a terminal bucket settles it. -/
theorem Invariant.settle {pending : ℕ} (h : b.Invariant hashShape (pending + 1))
    {summary : NetworkSummary} (hobserved : summary.observedInstances = b.summary.observedInstances)
    (hterminal : summary.terminal = b.summary.terminal + 1) :
    Invariant hashShape { b with summary := summary } pending := by
  have hbalanced := h.balanced
  refine ⟨⟨h.groups, h.counted, h.bodies, h.sequences, ?_⟩, h.nonempty, h.groups_cap,
    h.instances_cap, h.bodies_cap⟩
  show summary.observedInstances = b.instancesById.size + summary.terminal + pending
  omega

/-- Counting a suppressed duplicate settles the pending observation. -/
theorem suppressDuplicate_invariant {pending : ℕ} (h : b.Invariant hashShape (pending + 1))
    (g : GroupId) : (b.suppressDuplicate g).Invariant hashShape pending := by
  have hbalanced := h.balanced
  refine ⟨⟨h.groups.modify_group g countSuppressed_keepsIdentity, ?_, h.bodies, h.sequences, ?_⟩,
    h.nonempty, ?_, h.instances_cap, h.bodies_cap⟩
  · have hcounted := h.counted.modify_entry g (f := NetworkGroup.countSuppressed) (k := id)
      fun {group ids} _ _ hcount ↦ by
        simp only [NetworkGroup.countSuppressed, id, hcount]
        omega
    rwa [OrderedMap.modify_id] at hcounted
  · simp only [suppressDuplicate, NetworkSummary.terminal] at hbalanced ⊢
    omega
  · simpa [suppressDuplicate] using h.groups_cap

/-- Every way a call of `admit` can end keeps the invariant. -/
theorem Outcome.invariant {r : NetworkBuilder φ} (houtcome : Outcome hashShape b observation r)
    (h : b.Invariant hashShape 0) (hinj : Function.Injective hashShape) :
    r.Invariant hashShape 0 := by
  have hnoted := noted_invariant h observation
  have hobserved : b.observe.Invariant hashShape 1 := by
    have hbalanced := h.balanced
    refine ⟨⟨h.groups, h.counted, h.bodies, h.sequences, ?_⟩, h.nonempty, h.groups_cap,
      h.instances_cap, h.bodies_cap⟩
    simp only [observe, NetworkSummary.terminal] at hbalanced ⊢
    omega
  cases houtcome with
  | filtered =>
      refine hobserved.settle rfl ?_
      simp only [NetworkSummary.terminal]
      omega
  | suppressed => exact suppressDuplicate_invariant hnoted _
  | groupCap =>
      refine hobserved.settle rfl ?_
      simp only [NetworkSummary.terminal]
      omega
  | instanceCap =>
      refine hnoted.settle rfl ?_
      simp only [NetworkSummary.terminal]
      omega
  | kept _ hc _ hgroups hinstances => exact (commit_spec hc hinj hgroups hinstances).1

/-- One call of `admit` keeps the invariant. -/
theorem admit_invariant (h : b.Invariant hashShape 0) (hinj : Function.Injective hashShape)
    (observation : NetworkObservation) :
    (b.admitObservation hashShape observation).Invariant hashShape 0 :=
  (admit_outcome h hinj observation).invariant h hinj

/-- The empty builder satisfies the invariant. -/
theorem initial_invariant (hashShape : NetworkObservationShape → φ) :
    (initial : NetworkBuilder φ).Invariant hashShape 0 := by
  refine ⟨⟨?_, ?_, ?_, ?_, rfl⟩, ?_, Nat.zero_le _, Nat.zero_le _, Nat.zero_le _⟩
  · constructor <;> simp [initial]
  · intro g group ids hg
    simp [initial] at hg
  · constructor <;> simp [initial, references]
  · constructor <;> simp [initial]
  · intro g ids hget
    simp [initial] at hget

/-- Every run of `admit` calls keeps the invariant. -/
theorem admitAll_invariant (hinj : Function.Injective hashShape)
    (observations : List NetworkObservation) :
    (admitAll hashShape observations).Invariant hashShape 0 := by
  refine List.foldlRecOn (motive := fun b : NetworkBuilder φ ↦ b.Invariant hashShape 0)
    observations _ (initial_invariant hashShape) fun b h observation _ ↦ ?_
  exact admit_invariant h hinj observation

/-- An observation of a failed request. -/
def sampleObservation : NetworkObservation where
  shape := ⟨"GET", "https://example.com/a", 500, some "xhr", none, none⟩
  instance_ := ⟨some 10, none, none, none, none, none, none, none⟩
  requestBody := none
  responseBody := some ⟨[111, 111, 112, 115], none, false, "f"⟩

end CoreUtils.Reporter.NetworkBuilder
