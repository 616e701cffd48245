import CoreUtils.Reporter.NetworkAdmission

/-!
# The report

The second half of `NetworkBuilder`: `finalize` sorts the retained instances, links redirects,
copies the counters into the records, checks the accounting and returns the report. `finalize_spec`
shows that on a builder that satisfies the invariant the checks pass, and says what the report
holds.
-/

namespace CoreUtils.Reporter

/-- The finalized accounting and records of an attempt. -/
structure NetworkReport (φ : Type) where
  summary : NetworkSummary
  instances : List NetworkInstance
  groups : OrderedMap GroupId (NetworkGroup φ)
  bodies : OrderedMap BodyId NetworkBody

namespace NetworkBuilder

variable {φ : Type}

/-- The order of `sortInstances`: offsets, a missing one last, then sequence numbers. -/
def precedes (sequences : OrderedMap InstanceId ℕ) (a b : InstanceId × NetworkInstance) : Prop :=
  if offsetOrInfinity a.2.offsetMs ≠ offsetOrInfinity b.2.offsetMs then
    offsetOrInfinity a.2.offsetMs < offsetOrInfinity b.2.offsetMs
  else (sequences.get a.1).getD 0 ≤ (sequences.get b.1).getD 0

instance (sequences : OrderedMap InstanceId ℕ) : DecidableRel (precedes sequences) :=
  fun _ _ ↦ inferInstanceAs (Decidable (ite _ _ _))

/-- Put the retained instances in temporal order. -/
def sortInstances (b : NetworkBuilder φ) : NetworkBuilder φ :=
  { b with instancesById := b.instancesById.sortBy (precedes b.instanceSequenceById) }

/-- Whether an instance can be the target of a redirect to a URL. -/
def isRedirectTarget (instances : OrderedMap InstanceId NetworkInstance) (redirectToUrl : String)
    (candidate : InstanceId) : Bool :=
  (instances.get candidate).any fun inst ↦
    inst.url == redirectToUrl && inst.redirectFromId.isNone

/-- Link an instance to the first later instance at the URL it redirects to, if there is one. The
records carry the key they are stored under as their `id`. -/
def annotateRedirect (redirects : OrderedMap InstanceId String) (instance_ : InstanceId)
    (later : List InstanceId) (instances : OrderedMap InstanceId NetworkInstance) :
    OrderedMap InstanceId NetworkInstance :=
  match redirects.get instance_ with
  | none => instances
  | some redirectToUrl =>
      if redirectToUrl = "" then instances
      else
        match later.find? (isRedirectTarget instances redirectToUrl) with
        | none => instances
        | some target =>
            (instances.modify instance_ fun inst ↦
              { inst with redirectToId := some target }).modify target fun inst ↦
                { inst with redirectFromId := some instance_ }

/-- Walk the instances in order and link their redirects. -/
def annotateRedirectsFrom (redirects : OrderedMap InstanceId String) :
    List InstanceId → OrderedMap InstanceId NetworkInstance →
      OrderedMap InstanceId NetworkInstance
  | [], instances => instances
  | instance_ :: later, instances =>
      annotateRedirectsFrom redirects later (annotateRedirect redirects instance_ later instances)

/-- Link the redirects among the retained instances. -/
def annotateRedirects (b : NetworkBuilder φ) : NetworkBuilder φ :=
  { b with instancesById :=
      annotateRedirectsFrom b.instanceRedirectToUrl b.instancesById.keys b.instancesById }

/-- How many of some instances each group has. -/
def groupRetainedCounts (instances : List NetworkInstance) : OrderedMap GroupId ℕ :=
  instances.foldl
    (fun counts inst ↦ counts.set inst.groupId ((counts.get inst.groupId).getD 0 + 1)) .empty

variable [DecidableEq φ]

/-- Copy the counts and the offset bounds into the groups, and the sizes into the summary. -/
def summarize (b : NetworkBuilder φ) : NetworkBuilder φ :=
  let counts := groupRetainedCounts b.instancesById.values
  { b with
    summary := { b.summary with
      retainedInstances := b.instancesById.size
      retainedGroups := b.groupsById.size
      retainedBodies := b.bodiesById.size }
    groupsById := b.groupsById.mapValues fun group ↦
      let metadata := b.shapeMetadata.get group.fingerprint
      { group with
        retainedInstanceCount := (counts.get group.id).getD 0
        firstOffsetMs := (metadata.bind (·.firstOffsetMs)).or group.firstOffsetMs
        lastOffsetMs := (metadata.bind (·.lastOffsetMs)).or group.lastOffsetMs } }

/-- The sum of the terminal buckets of a finalized summary. -/
def totalAccounted (summary : NetworkSummary) : ℕ :=
  summary.retainedInstances + summary.instancesDroppedByFilter +
    summary.instancesDroppedByGroupCap + summary.instancesDroppedByInstanceCap +
    summary.instancesSuppressedAsDuplicate + summary.instancesEvictedAfterAdmission

/-- The accounting check of one group. -/
def assertGroup (group : NetworkGroup φ) : Except String Unit :=
  let expected :=
    group.retainedInstanceCount + group.suppressedInstanceCount + group.evictedInstanceCount
  if expected ≠ group.occurrenceCount then
    throw (s!"NetworkBuilder invariant: group {group.id} occurrenceCount " ++
      s!"{group.occurrenceCount} !== retained+suppressed+evicted {expected}")
  else pure ()

/-- The accounting checks: the summary first, then the groups in order. -/
def assertInvariants (b : NetworkBuilder φ) : Except String Unit := do
  let observedInstances := b.summary.observedInstances
  let total := totalAccounted b.summary
  if total ≠ observedInstances then
    throw (s!"NetworkBuilder invariant: observedInstances {observedInstances} " ++
      s!"!== sum of terminal buckets {total}")
  b.groupsById.values.forM assertGroup

/-- The report of what has been admitted, with sorted instances and annotated redirects. It fails if
one of the builder's own invariants does not hold. -/
def finalize (b : NetworkBuilder φ) : Except String (NetworkReport φ) := do
  let finalized := b.sortInstances.annotateRedirects.summarize
  finalized.assertInvariants
  return {
    summary := finalized.summary
    instances := finalized.instancesById.values
    groups := finalized.groupsById
    bodies := finalized.bodiesById }

/-! ## Redirects -/

/-- Annotating changes nothing but the redirect fields, which name retained instances. -/
structure Annotated (before after : OrderedMap InstanceId NetworkInstance) : Prop where
  keys : after.keys = before.keys
  records : ∀ {i inst}, after.get i = some inst → ∃ original, before.get i = some original ∧
    inst = { original with
      redirectFromId := inst.redirectFromId, redirectToId := inst.redirectToId }
  resolved : ∀ {i inst j}, after.get i = some inst →
    inst.redirectFromId = some j ∨ inst.redirectToId = some j → (before.get j).isSome

section

variable {before after : OrderedMap InstanceId NetworkInstance}

/-- Writing a redirect field that names a retained instance. -/
theorem Annotated.modify (h : Annotated before after) (i : InstanceId) {target : InstanceId}
    (htarget : (before.get target).isSome) {f : NetworkInstance → NetworkInstance}
    (hf : ∀ inst, f inst = { inst with redirectToId := some target } ∨
      f inst = { inst with redirectFromId := some target }) :
    Annotated before (after.modify i f) where
  keys := by rw [OrderedMap.keys_modify, h.keys]
  records {j inst} hj := by
    rw [OrderedMap.get_modify] at hj
    split at hj
    · obtain ⟨stored, hstored, rfl⟩ := Option.map_eq_some_iff.mp hj
      obtain ⟨original, horiginal, heq⟩ := h.records hstored
      refine ⟨original, horiginal, ?_⟩
      rcases hf stored with hto | hfrom
      · rw [hto, heq]
      · rw [hfrom, heq]
    · exact h.records hj
  resolved {j inst k} hj hk := by
    rw [OrderedMap.get_modify] at hj
    split at hj
    · obtain ⟨stored, hstored, rfl⟩ := Option.map_eq_some_iff.mp hj
      rcases hf stored with hto | hfrom
      · rw [hto] at hk
        rcases hk with hk | hk
        · exact h.resolved hstored (.inl hk)
        · exact Option.some.inj hk ▸ htarget
      · rw [hfrom] at hk
        rcases hk with hk | hk
        · exact Option.some.inj hk ▸ htarget
        · exact h.resolved hstored (.inr hk)
    · exact h.resolved hj hk

/-- One step of the walk. -/
theorem annotateRedirect_annotated (h : Annotated before after)
    (redirects : OrderedMap InstanceId String) {i : InstanceId} {later : List InstanceId}
    (hi : (before.get i).isSome) (hlater : ∀ j ∈ later, (before.get j).isSome) :
    Annotated before (annotateRedirect redirects i later after) := by
  unfold annotateRedirect
  split
  · exact h
  · split
    · exact h
    · split
      · exact h
      · rename_i target hfound
        have htarget := hlater target (List.mem_of_find?_eq_some hfound)
        exact (h.modify i htarget fun _ ↦ .inl rfl).modify target hi fun _ ↦ .inr rfl

/-- The whole walk. -/
theorem annotateRedirectsFrom_annotated (redirects : OrderedMap InstanceId String)
    {ids : List InstanceId} (hids : ∀ i ∈ ids, (before.get i).isSome)
    (h : Annotated before after) :
    Annotated before (annotateRedirectsFrom redirects ids after) := by
  induction ids generalizing after with
  | nil => exact h
  | cons i later ih =>
      have hlater : ∀ j ∈ later, (before.get j).isSome :=
        fun j hj ↦ hids j (List.mem_cons_of_mem _ hj)
      exact ih hlater (annotateRedirect_annotated h redirects (hids i (by simp)) hlater)

/-- What annotating does to a sum over the instances that does not look at redirects. -/
theorem Annotated.total (h : Annotated before after) {weight : NetworkInstance → ℕ}
    (hweight : ∀ inst fromId toId,
      weight { inst with redirectFromId := fromId, redirectToId := toId } = weight inst) :
    (after.total fun _ inst ↦ weight inst) = before.total fun _ inst ↦ weight inst := by
  refine OrderedMap.total_congr h.keys fun {i inst} hi ↦ ?_
  obtain ⟨original, horiginal, heq⟩ := h.records hi
  exact ⟨original, horiginal, by rw [heq]; exact hweight _ _ _⟩

end

/-! ## Counts -/

/-- The tally of `groupRetainedCounts`. -/
theorem getD_groupRetainedCounts (instances : List NetworkInstance) (g : GroupId) :
    ((groupRetainedCounts instances).get g).getD 0 =
      instances.countP fun inst ↦ inst.groupId == g := by
  suffices ∀ counts : OrderedMap GroupId ℕ,
      ((instances.foldl (fun counts inst ↦
        counts.set inst.groupId ((counts.get inst.groupId).getD 0 + 1)) counts).get g).getD 0 =
      (counts.get g).getD 0 + instances.countP fun inst ↦ inst.groupId == g by
    have htally := this .empty
    rwa [OrderedMap.get_empty, Option.getD_none, Nat.zero_add] at htally
  induction instances with
  | nil => intro counts; rfl
  | cons inst rest ih =>
      intro counts
      rw [List.foldl_cons, ih, OrderedMap.get_set, List.countP_cons]
      by_cases hg : g = inst.groupId
      · subst hg
        simp only [if_true, Option.getD_some, BEq.rfl]
        omega
      · have hne : (inst.groupId == g) = false := by simpa using Ne.symm hg
        simp [hg, hne]

/-- A check of every group passes when each passes. -/
theorem forM_eq_ok {α : Type} {check : α → Except String Unit} {values : List α}
    (h : ∀ value ∈ values, check value = .ok ()) : values.forM check = .ok () := by
  induction values with
  | nil => rfl
  | cons value rest ih =>
      show (check value >>= fun _ ↦ rest.forM check) = .ok ()
      rw [h value (by simp)]
      exact ih fun other hother ↦ h other (List.mem_cons_of_mem _ hother)

/-! ## What the report holds -/

/-- How a report describes the builder it was made from. -/
structure Reported (b : NetworkBuilder φ) (report : NetworkReport φ) : Prop where
  summary : report.summary = { b.summary with
    retainedInstances := report.instances.length
    retainedGroups := report.groups.size
    retainedBodies := report.bodies.size }
  length : report.instances.length = b.instancesById.size
  records : ∀ {inst}, inst ∈ report.instances → ∃ original,
    b.instancesById.get inst.id = some original ∧ inst = { original with
      redirectFromId := inst.redirectFromId, redirectToId := inst.redirectToId }
  retained : ∀ {i original}, b.instancesById.get i = some original →
    ∃ inst ∈ report.instances, inst.id = i
  resolved : ∀ {inst}, inst ∈ report.instances → ∀ {j},
    inst.redirectFromId = some j ∨ inst.redirectToId = some j →
      ∃ other ∈ report.instances, other.id = j
  references : ∀ id, (report.instances.map fun inst ↦ inst.references id).sum =
    references b.instancesById id
  members : ∀ {g ids}, b.groupInstanceIndex.get g = some ids →
    (report.instances.countP fun inst ↦ inst.groupId == g) = ids.size
  bodies : report.bodies = b.bodiesById
  groups : ∀ g, report.groups.get g = (b.groupsById.get g).map fun group ↦ { group with
    retainedInstanceCount := report.instances.countP fun inst ↦ inst.groupId == g
    firstOffsetMs :=
      ((b.shapeMetadata.get group.fingerprint).bind (·.firstOffsetMs)).or group.firstOffsetMs
    lastOffsetMs :=
      ((b.shapeMetadata.get group.fingerprint).bind (·.lastOffsetMs)).or group.lastOffsetMs }

section

variable {b : NetworkBuilder φ} {hashShape : NetworkObservationShape → φ}

/-- The report that `finalize` returns when the checks pass. -/
def reportOf (b : NetworkBuilder φ) : NetworkReport φ :=
  let finalized := b.sortInstances.annotateRedirects.summarize
  ⟨finalized.summary, finalized.instancesById.values, finalized.groupsById, finalized.bodiesById⟩

omit [DecidableEq φ] in
/-- Sorting and annotating annotate the sorted instances. -/
theorem annotated_of_linked {sequenceCounter nextInstance : ℕ}
    (h : SequencesLinked b.instancesById b.instanceSequenceById b.instanceRedirectToUrl
      sequenceCounter nextInstance) :
    Annotated b.sortInstances.instancesById b.sortInstances.annotateRedirects.instancesById := by
  refine annotateRedirectsFrom_annotated _ (fun i hi ↦ ?_) ⟨rfl, fun {i inst} hi ↦ ?_, ?_⟩
  · obtain ⟨inst, hinst⟩ := OrderedMap.mem_keys.mp hi
    rw [hinst]
    rfl
  · exact ⟨inst, hi, rfl⟩
  · intro i inst j hi hj
    have hget : b.instancesById.get i = some inst := by simpa [sortInstances] using hi
    obtain ⟨hfrom, hto⟩ := h.unlinked hget
    rw [hfrom, hto] at hj
    exact absurd hj (by simp)

/-- The report describes a builder whose tables are linked. -/
theorem reportOf_spec {pending : ℕ} (h : b.Linked hashShape pending) :
    Reported b (reportOf b) := by
  have hannotated := annotated_of_linked h.sequences
  set after := b.sortInstances.annotateRedirects.instancesById with hafter
  have hsorted : ∀ i, b.sortInstances.instancesById.get i = b.instancesById.get i :=
    fun i ↦ by simp [sortInstances]
  have hkeys : after.size = b.instancesById.size := by
    have hlength := congrArg List.length hannotated.keys
    simp only [OrderedMap.keys, List.length_map] at hlength
    exact hlength.trans (by simp [sortInstances, OrderedMap.sortBy, OrderedMap.size])
  have hvalues : (reportOf b).instances = after.values := rfl
  have hlength : (reportOf b).instances.length = b.instancesById.size := by
    rw [← hkeys, hvalues, OrderedMap.values, List.length_map, OrderedMap.size]
  -- annotating keeps the key of a record and the id in it together
  have hid : ∀ {i inst}, after.get i = some inst → inst.id = i := by
    intro i inst hi
    obtain ⟨original, horiginal, heq⟩ := hannotated.records hi
    have horiginalId := h.groups.instance_id ((hsorted i).symm.trans horiginal)
    exact (congrArg NetworkInstance.id heq).trans horiginalId
  have hretained : ∀ {i original}, b.instancesById.get i = some original →
      ∃ inst ∈ (reportOf b).instances, inst.id = i := by
    intro i original hi
    have hkey : i ∈ after.keys := by
      rw [hannotated.keys]
      exact OrderedMap.mem_keys.mpr ⟨original, (hsorted i).trans hi⟩
    obtain ⟨inst, hinst⟩ := OrderedMap.mem_keys.mp hkey
    exact ⟨inst, OrderedMap.mem_values.mpr ⟨i, hinst⟩, hid hinst⟩
  -- neither sorting nor annotating changes whose instances there are
  have hcount : ∀ g, (reportOf b).instances.countP (fun inst ↦ inst.groupId == g) =
      b.instancesById.values.countP fun inst ↦ inst.groupId == g := by
    intro g
    rw [hvalues, OrderedMap.countP_values, OrderedMap.countP_values,
      hannotated.total (fun _ _ _ ↦ rfl)]
    simp [sortInstances]
  constructor
  case summary =>
    have hgroups : (reportOf b).groups.size = b.groupsById.size := OrderedMap.size_mapValues _ _
    rw [hlength, ← hkeys, hgroups]
    rfl
  case length => exact hlength
  case records =>
    intro inst hinst
    obtain ⟨i, hi⟩ := OrderedMap.mem_values.mp hinst
    obtain ⟨original, horiginal, heq⟩ := hannotated.records hi
    refine ⟨original, ?_, heq⟩
    rw [hid hi, ← hsorted]
    exact horiginal
  case retained => exact hretained
  case resolved =>
    intro inst hinst j hj
    obtain ⟨i, hi⟩ := OrderedMap.mem_values.mp hinst
    obtain ⟨original, horiginal⟩ := Option.isSome_iff_exists.mp (hannotated.resolved hi hj)
    exact hretained ((hsorted j).symm.trans horiginal)
  case references =>
    intro id
    rw [hvalues, ← OrderedMap.total_values, hannotated.total (fun _ _ _ ↦ rfl)]
    simp [sortInstances, references]
  case members =>
    intro g ids hids
    rw [hcount, ← OrderedMap.size_eq_countP fun i ↦ ?_]
    rw [h.groups.index_mem hids i]
    simp
  case bodies => rfl
  case groups =>
    intro g
    -- the tally of `groupRetainedCounts` is read at the id in the record, which is the key
    show (b.groupsById.mapValues _).get g = _
    rw [OrderedMap.get_mapValues]
    cases hg : b.groupsById.get g with
    | none => rfl
    | some group =>
        rw [Option.map_some, Option.map_some, h.groups.group_id hg, getD_groupRetainedCounts]
        rfl

/-- On a builder that satisfies the invariant, `finalize` passes its checks. -/
theorem finalize_spec (h : b.Invariant hashShape 0) :
    ∃ report, b.finalize = .ok report ∧ Reported b report ∧
      totalAccounted report.summary = report.summary.observedInstances ∧
      ∀ {g group}, report.groups.get g = some group →
        group.occurrenceCount = group.retainedInstanceCount + group.suppressedInstanceCount +
          group.evictedInstanceCount ∧ 1 ≤ group.retainedInstanceCount := by
  have hreported := reportOf_spec h.toLinked
  have htotal : totalAccounted (reportOf b).summary = (reportOf b).summary.observedInstances := by
    have hbalanced := h.balanced
    rw [hreported.summary]
    simp only [totalAccounted, hreported.length, NetworkSummary.terminal] at hbalanced ⊢
    omega
  have hgroups : ∀ {g group}, (reportOf b).groups.get g = some group →
      group.occurrenceCount = group.retainedInstanceCount + group.suppressedInstanceCount +
        group.evictedInstanceCount ∧ 1 ≤ group.retainedInstanceCount := by
    intro g group hg
    rw [hreported.groups, Option.map_eq_some_iff] at hg
    obtain ⟨original, horiginal, rfl⟩ := hg
    obtain ⟨ids, hids⟩ := h.groups.index_of_group horiginal
    have hcounted := h.counted _ _ _ horiginal hids
    have hpos := h.nonempty hids
    simp only [hreported.members hids]
    omega
  refine ⟨reportOf b, ?_, hreported, htotal, hgroups⟩
  have hchecks : b.sortInstances.annotateRedirects.summarize.groupsById.values.forM assertGroup =
      .ok () := by
    refine forM_eq_ok fun group hgroup ↦ ?_
    obtain ⟨g, hg⟩ := OrderedMap.mem_values.mp hgroup
    rw [assertGroup, if_neg (by have := (hgroups hg).1; omega)]
    rfl
  have hassert : b.sortInstances.annotateRedirects.summarize.assertInvariants = .ok () := by
    have hpass : ¬totalAccounted b.sortInstances.annotateRedirects.summarize.summary ≠
        b.sortInstances.annotateRedirects.summarize.summary.observedInstances := not_not.mpr htotal
    simp only [assertInvariants, if_neg hpass]
    exact hchecks
  simp only [finalize, hassert]
  rfl

end

end NetworkBuilder

end CoreUtils.Reporter
