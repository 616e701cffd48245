import CoreUtils.Reporter.NetworkFinalize

/-!
# Accounting and referential integrity of the report

The guarantees of a whole run: after any sequence of `admit` calls `finalize` returns, its accounts
balance (`finalize_accounts`), and neither the builder nor the report holds a dangling reference or
a body that nothing refers to (`admitAll_integrity`).
-/

namespace CoreUtils.Reporter.NetworkBuilder

variable {φ : Type} [DecidableEq φ]

/-- After any sequence of `admit` calls `finalize` passes its checks, the accounts of the report
balance, and no cap was exceeded on the way. -/
theorem finalize_accounts (sha1 : List JsonScalar → φ)
    (hinj : Function.Injective (hashShape sha1)) (observations : List NetworkObservation) :
    (∃ report, (admitAll (hashShape sha1) observations).finalize = .ok report ∧
      report.summary.observedInstances =
        report.summary.retainedInstances + report.summary.instancesDroppedByFilter +
          report.summary.instancesDroppedByGroupCap + report.summary.instancesDroppedByInstanceCap +
          report.summary.instancesSuppressedAsDuplicate +
          report.summary.instancesEvictedAfterAdmission ∧
      report.summary.retainedInstances = report.instances.length ∧
      ∀ g group, report.groups.get g = some group →
        group.occurrenceCount = group.retainedInstanceCount + group.suppressedInstanceCount +
          group.evictedInstanceCount ∧ 1 ≤ group.retainedInstanceCount) ∧
    ∀ earlier, earlier <+: observations →
      let b := admitAll (hashShape sha1) earlier
      b.groupsById.size ≤ 200 ∧ b.instancesById.size ≤ 500 ∧ b.bodiesById.size ≤ 100 := by
  refine ⟨?_, fun earlier _ ↦ ?_⟩
  · obtain ⟨report, hreport, hreported, htotal, hgroups⟩ :=
      finalize_spec (admitAll_invariant hinj observations)
    refine ⟨report, hreport, htotal.symm, ?_, fun g group hg ↦ hgroups hg⟩
    rw [hreported.summary]
  · have hinv := admitAll_invariant hinj earlier
    exact ⟨hinv.groups_cap, hinv.instances_cap, hinv.bodies_cap⟩

/-- The accounts of a run of two equal observations. -/
theorem finalize_accounts_twice :
    (∃ report, (admitAll (hashShape id) [sampleObservation, sampleObservation]).finalize =
        .ok report ∧
      report.summary.observedInstances =
        report.summary.retainedInstances + report.summary.instancesDroppedByFilter +
          report.summary.instancesDroppedByGroupCap + report.summary.instancesDroppedByInstanceCap +
          report.summary.instancesSuppressedAsDuplicate +
          report.summary.instancesEvictedAfterAdmission) := by
  obtain ⟨⟨report, hreport, hbalance, -⟩, -⟩ := finalize_accounts id
    (hashShape_injective Function.injective_id) [sampleObservation, sampleObservation]
  exact ⟨report, hreport, hbalance⟩

/-! ## References -/

/-- Every reference between the tables of a builder resolves, and every index is exact. -/
structure ReferentialIntegrity (b : NetworkBuilder φ) : Prop where
  body_refs : ∀ id, (b.bodyRefCounts.get id).getD 0 = references b.instancesById id
  body_refs_pos : ∀ {id n}, b.bodyRefCounts.get id = some n → 1 ≤ n
  body_keys : ∀ id, (b.bodiesById.get id).isSome ↔ (b.bodyRefCounts.get id).isSome
  body_hash_values : ∀ id, (∃ hash, b.bodyHashToBodyId.get hash = some id) ↔
    (b.bodiesById.get id).isSome
  body_hashes : ∀ {hash id}, b.bodyHashToBodyId.get hash = some id ↔
    ∃ body, b.bodiesById.get id = some body ∧ body.fingerprint = hash
  instance_groups : ∀ {i inst}, b.instancesById.get i = some inst →
    (b.groupsById.get inst.groupId).isSome
  index_keys : ∀ g, (b.groupInstanceIndex.get g).isSome ↔ (b.groupsById.get g).isSome
  index : ∀ {g ids}, b.groupInstanceIndex.get g = some ids → 0 < ids.size ∧
    ∀ i, ids.get i = some () ↔ ∃ inst, b.instancesById.get i = some inst ∧ inst.groupId = g
  fingerprints : ∀ {fingerprint g}, b.fingerprintToGroupId.get fingerprint = some g ↔
    ∃ group, b.groupsById.get g = some group ∧ group.fingerprint = fingerprint
  metadata_keys : ∀ fingerprint, (b.shapeMetadata.get fingerprint).isSome ↔
    ∃ g group, b.groupsById.get g = some group ∧ group.fingerprint = fingerprint

/-- Every reference in a report resolves, nothing in it is unreferenced, and the counts and
indexes of the builder describe it exactly. -/
structure ReportIntegrity (b : NetworkBuilder φ) (report : NetworkReport φ) : Prop where
  body_refs : ∀ id, (b.bodyRefCounts.get id).getD 0 =
    (report.instances.map fun inst ↦ inst.references id).sum
  bodies : ∀ id, (report.bodies.get id).isSome ↔ ∃ inst ∈ report.instances,
    inst.requestBodyRef = some id ∨ inst.responseBodyRef = some id
  body_hashes : ∀ {hash id}, b.bodyHashToBodyId.get hash = some id ↔
    ∃ body, report.bodies.get id = some body ∧ body.fingerprint = hash
  groups : ∀ g, (report.groups.get g).isSome ↔ ∃ inst ∈ report.instances, inst.groupId = g
  index : ∀ {g ids}, b.groupInstanceIndex.get g = some ids → ∀ i, ids.get i = some () ↔
    ∃ inst ∈ report.instances, inst.id = i ∧ inst.groupId = g
  fingerprints : ∀ {fingerprint g}, b.fingerprintToGroupId.get fingerprint = some g ↔
    ∃ group, report.groups.get g = some group ∧ group.fingerprint = fingerprint
  metadata_keys : ∀ fingerprint, (b.shapeMetadata.get fingerprint).isSome ↔
    ∃ g group, report.groups.get g = some group ∧ group.fingerprint = fingerprint
  redirects : ∀ {inst}, inst ∈ report.instances → ∀ {j},
    inst.redirectFromId = some j ∨ inst.redirectToId = some j →
      ∃ other ∈ report.instances, other.id = j

section

variable {hashShape : NetworkObservationShape → φ} {b : NetworkBuilder φ}

/-- The invariant contains referential integrity. -/
theorem integrity_of_invariant (h : b.Invariant hashShape 0) : ReferentialIntegrity b where
  body_refs := h.bodies.ref_count
  body_refs_pos := h.bodies.ref_pos
  body_keys id := by rw [h.bodies.body_keys]
  body_hash_values id := by
    rw [Option.isSome_iff_exists]
    constructor
    · rintro ⟨hash, hhash⟩
      obtain ⟨body, hbody, -⟩ := h.bodies.hash_iff.mp hhash
      exact ⟨body, hbody⟩
    · rintro ⟨body, hbody⟩
      exact ⟨body.fingerprint, h.bodies.hash_iff.mpr ⟨body, hbody, rfl⟩⟩
  body_hashes := h.bodies.hash_iff
  instance_groups := h.groups.instance_group
  index_keys g := by rw [h.groups.index_keys]
  index hids := ⟨h.nonempty hids, h.groups.index_mem hids⟩
  fingerprints := h.groups.fingerprint_iff
  metadata_keys fingerprint := by
    rw [h.groups.metadata_keys, Option.isSome_iff_exists]
    simp only [h.groups.fingerprint_iff]

/-- A sum of references is positive exactly when something refers. -/
theorem references_sum_pos (instances : List NetworkInstance) (id : BodyId) :
    0 < (instances.map fun inst ↦ inst.references id).sum ↔ ∃ inst ∈ instances,
      inst.requestBodyRef = some id ∨ inst.responseBodyRef = some id := by
  induction instances with
  | nil => simp
  | cons inst rest ih =>
      have hinst : 0 < inst.references id ↔
          inst.requestBodyRef = some id ∨ inst.responseBodyRef = some id := by
        simp only [NetworkInstance.references, refersTo]
        split_ifs <;> simp_all
      rw [List.map_cons, List.sum_cons, List.exists_mem_cons_iff, ← ih, ← hinst]
      omega

/-- A report of a builder whose references resolve has the same property. -/
theorem reportIntegrity_of_reported {report : NetworkReport φ} (h : b.Invariant hashShape 0)
    (hreported : Reported b report) : ReportIntegrity b report := by
  have hintegrity := integrity_of_invariant h
  have hrefs : ∀ id, (b.bodyRefCounts.get id).getD 0 =
      (report.instances.map fun inst ↦ inst.references id).sum :=
    fun id ↦ (hintegrity.body_refs id).trans (hreported.references id).symm
  -- a report has the instances of the builder, in the groups they had
  have hmember : ∀ g i, (∃ inst, b.instancesById.get i = some inst ∧ inst.groupId = g) ↔
      ∃ inst ∈ report.instances, inst.id = i ∧ inst.groupId = g := by
    intro g i
    constructor
    · rintro ⟨original, horiginal, hg⟩
      obtain ⟨inst, hinst, hid⟩ := hreported.retained horiginal
      obtain ⟨other, hother, heq⟩ := hreported.records hinst
      have : other = original := Option.some.inj (hother.symm.trans (hid ▸ horiginal))
      refine ⟨inst, hinst, hid, ?_⟩
      rw [heq, this]
      exact hg
    · rintro ⟨inst, hinst, rfl, hg⟩
      obtain ⟨original, horiginal, heq⟩ := hreported.records hinst
      refine ⟨original, horiginal, ?_⟩
      rw [heq] at hg
      exact hg
  have hfingerprints : ∀ {fingerprint g}, (∃ group, b.groupsById.get g = some group ∧
      group.fingerprint = fingerprint) ↔ ∃ group, report.groups.get g = some group ∧
        group.fingerprint = fingerprint := by
    intro fingerprint g
    rw [hreported.groups]
    constructor
    · rintro ⟨group, hg, hfp⟩
      exact ⟨_, Option.map_eq_some_iff.mpr ⟨group, hg, rfl⟩, hfp⟩
    · rintro ⟨group, hg, hfp⟩
      obtain ⟨original, horiginal, rfl⟩ := Option.map_eq_some_iff.mp hg
      exact ⟨original, horiginal, hfp⟩
  constructor
  case body_refs => exact hrefs
  case bodies =>
    intro id
    rw [← references_sum_pos, ← hrefs, hreported.bodies, hintegrity.body_keys]
    cases hcount : b.bodyRefCounts.get id with
    | none => simp
    | some n =>
        have hpos := hintegrity.body_refs_pos hcount
        simp only [Option.isSome_some, Option.getD_some, true_iff]
        omega
  case body_hashes => rw [hreported.bodies]; exact hintegrity.body_hashes
  case groups =>
    intro g
    rw [hreported.groups, Option.isSome_map, ← hintegrity.index_keys]
    constructor
    · -- a group without instances would not be indexed
      intro hindex
      obtain ⟨ids, hids⟩ := Option.isSome_iff_exists.mp hindex
      obtain ⟨hpos, hmem⟩ := hintegrity.index hids
      obtain ⟨i, ⟨⟩, hi⟩ := OrderedMap.exists_get_of_size_pos hpos
      obtain ⟨inst, hinst, -, hg⟩ := (hmember g i).mp ((hmem i).mp hi)
      exact ⟨inst, hinst, hg⟩
    · rintro ⟨inst, hinst, hg⟩
      obtain ⟨original, horiginal, hgroup⟩ := (hmember g inst.id).mpr ⟨inst, hinst, rfl, hg⟩
      rw [hintegrity.index_keys, ← hgroup]
      exact hintegrity.instance_groups horiginal
  case index =>
    intro g ids hids i
    rw [(hintegrity.index hids).2 i, hmember]
  case fingerprints => intro fingerprint g; rw [hintegrity.fingerprints, hfingerprints]
  case metadata_keys =>
    intro fingerprint
    rw [hintegrity.metadata_keys]
    exact exists_congr fun g ↦ hfingerprints
  case redirects => exact hreported.resolved

end

/-- In every reachable state, and in the report made from it, references are counted exactly and
none of them dangles. -/
theorem admitAll_integrity (sha1 : List JsonScalar → φ)
    (hinj : Function.Injective (hashShape sha1)) (observations : List NetworkObservation) :
    let b := admitAll (hashShape sha1) observations
    ReferentialIntegrity b ∧ ∃ report, b.finalize = .ok report ∧ ReportIntegrity b report := by
  have hinv := admitAll_invariant hinj observations
  obtain ⟨report, hreport, hreported, -⟩ := finalize_spec hinv
  exact ⟨integrity_of_invariant hinv, report, hreport, reportIntegrity_of_reported hinv hreported⟩

/-- The references of a run of two equal observations that share a body. -/
theorem admitAll_integrity_twice :
    ReferentialIntegrity (admitAll (hashShape id) [sampleObservation, sampleObservation]) :=
  (admitAll_integrity id (hashShape_injective Function.injective_id)
    [sampleObservation, sampleObservation]).1

end CoreUtils.Reporter.NetworkBuilder
