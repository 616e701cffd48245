import CoreUtils.Library.Selection
import CoreUtils.Reporter.NetworkInvariant
import Mathlib.Data.Prod.Lex

/-!
# Which entry an eviction selects

The two scans keep a running minimum in several variables. `scanGroups_eq` and
`scanInstances_eq` show that each computes the first entry that minimizes one lexicographic key:
the tier and the first-seen offset for groups, the tier, the own offset and the admission order
for instances, where a missing offset counts as infinite.
-/

namespace CoreUtils.Reporter.NetworkBuilder

variable {φ : Type} [DecidableEq φ]

/-- What groups are ranked by: tier, then first-seen offset. -/
def GroupKey : Type := ℕ ×ₗ WithTop ℚ

instance : LinearOrder GroupKey := inferInstanceAs (LinearOrder (ℕ ×ₗ WithTop ℚ))

/-- The live first-seen offset of a group. -/
def firstSeen (b : NetworkBuilder φ) (group : NetworkGroup φ) : WithTop ℚ :=
  offsetOrInfinity ((b.shapeMetadata.get group.fingerprint).bind (·.firstOffsetMs))

/-- The order in which groups are evicted. -/
def groupKey (b : NetworkBuilder φ) (group : NetworkGroup φ) : GroupKey :=
  toLex (priorityScore group.toPriorityShape, b.firstSeen group)

/-- A group goes before another when its tier is lower, or when the tiers are equal and it was
first seen earlier. -/
theorem groupKey_lt_iff (b : NetworkBuilder φ) (group other : NetworkGroup φ) :
    b.groupKey group < b.groupKey other ↔
      priorityScore group.toPriorityShape < priorityScore other.toPriorityShape ∨
        priorityScore group.toPriorityShape = priorityScore other.toPriorityShape ∧
          b.firstSeen group < b.firstSeen other :=
  Prod.Lex.toLex_lt_toLex

/-- What instances are ranked by: tier, then own offset, then admission order. -/
def InstanceKey : Type := ℕ ×ₗ WithTop ℚ ×ₗ WithTop ℕ

instance : LinearOrder InstanceKey := inferInstanceAs (LinearOrder (ℕ ×ₗ WithTop ℚ ×ₗ WithTop ℕ))

/-- The tier of an instance, which is that of its group. -/
def instanceScore (b : NetworkBuilder φ) (inst : NetworkInstance) : ℕ :=
  (b.groupsById.get inst.groupId).elim 0 fun group ↦ priorityScore group.toPriorityShape

/-- The admission order of an instance. -/
def admissionOrder (b : NetworkBuilder φ) (i : InstanceId) : WithTop ℕ :=
  sequenceOrInfinity (b.instanceSequenceById.get i)

/-- The order in which instances are evicted. -/
def instanceKey (b : NetworkBuilder φ) (i : InstanceId) (inst : NetworkInstance) : InstanceKey :=
  toLex (b.instanceScore inst, toLex (offsetOrInfinity inst.offsetMs, b.admissionOrder i))

omit [DecidableEq φ] in
/-- An instance goes before another when its tier is lower, or at equal tiers its offset is
smaller, or at equal offsets it was admitted earlier. -/
theorem instanceKey_lt_iff (b : NetworkBuilder φ) (i j : InstanceId)
    (inst other : NetworkInstance) :
    b.instanceKey i inst < b.instanceKey j other ↔
      b.instanceScore inst < b.instanceScore other ∨
        b.instanceScore inst = b.instanceScore other ∧
            offsetOrInfinity inst.offsetMs < offsetOrInfinity other.offsetMs ∨
          b.instanceScore inst = b.instanceScore other ∧
            offsetOrInfinity inst.offsetMs = offsetOrInfinity other.offsetMs ∧
              b.admissionOrder i < b.admissionOrder j := by
  refine Prod.Lex.toLex_lt_toLex.trans ?_
  rw [Prod.Lex.toLex_lt_toLex]
  tauto

/-- The variables of the group scan when the minimum so far is this entry. -/
def groupScanAt (b : NetworkBuilder φ) : Option (GroupId × NetworkGroup φ) → GroupScan
  | none => ⟨⊤, none, ⊤⟩
  | some entry => ⟨priorityScore entry.2.toPriorityShape, some entry.1, b.firstSeen entry.2⟩

/-- The variables of the instance scan when the minimum so far is this entry. -/
def instanceScanAt (b : NetworkBuilder φ) : Option (InstanceId × NetworkInstance) → InstanceScan
  | none => ⟨⊤, none, ⊤, ⊤⟩
  | some entry =>
      ⟨b.instanceScore entry.2, some entry.1, offsetOrInfinity entry.2.offsetMs,
        b.admissionOrder entry.1⟩

/-- The group scan finds the first entry with the least key. -/
theorem scanGroups_eq (b : NetworkBuilder φ) (entries : List (GroupId × NetworkGroup φ)) :
    entries.foldl b.scanGroup ⟨⊤, none, ⊤⟩ =
      b.groupScanAt (firstMin (fun entry ↦ b.groupKey entry.2) entries) := by
  refine foldl_eq_firstMin b.groupScanAt fun entry _ best ↦ ?_
  cases best with
  | none => simp [scanGroup, groupScanAt, better, firstSeen]
  | some best =>
      simp only [scanGroup, groupScanAt, better, groupKey_lt_iff, Nat.cast_lt, Nat.cast_inj,
        firstSeen]
      split_ifs <;> rfl

omit [DecidableEq φ] in
/-- The instance scan finds the first entry with the least key, when every instance has a group. -/
theorem scanInstances_eq (b : NetworkBuilder φ) (entries : List (InstanceId × NetworkInstance))
    (hgroups : ∀ entry ∈ entries, (b.groupsById.get entry.2.groupId).isSome) :
    entries.foldl b.scanInstance ⟨⊤, none, ⊤, ⊤⟩ =
      b.instanceScanAt (firstMin (fun entry ↦ b.instanceKey entry.1 entry.2) entries) := by
  refine foldl_eq_firstMin b.instanceScanAt fun entry hentry best ↦ ?_
  obtain ⟨group, hgroup⟩ := Option.isSome_iff_exists.mp (hgroups entry hentry)
  have hscore : b.instanceScore entry.2 = priorityScore group.toPriorityShape := by
    simp [instanceScore, hgroup]
  cases best with
  | none => simp [scanInstance, hgroup, instanceScanAt, better, hscore, admissionOrder]
  | some best =>
      simp only [scanInstance, hgroup, instanceScanAt, better, instanceKey_lt_iff, Nat.cast_lt,
        Nat.cast_inj, hscore, admissionOrder]
      split_ifs <;> simp [hscore]

/-! ## What an eviction attempt decides -/

variable {b : NetworkBuilder φ} {incoming : PriorityShape}

/-- A refused group eviction leaves only groups of at least the incoming tier. -/
theorem le_score_of_evictGroup_none (h : b.evictLowestPriorityGroup incoming = none)
    {g : GroupId} {group : NetworkGroup φ} (hg : b.groupsById.get g = some group) :
    priorityScore incoming ≤ priorityScore group.toPriorityShape := by
  have hmem := OrderedMap.mem_of_get hg
  simp only [evictLowestPriorityGroup, scanGroups_eq] at h
  cases hbest : firstMin (fun entry ↦ b.groupKey entry.2) b.groupsById.entries with
  | none => exact absurd hbest (firstMin_ne_none hmem)
  | some best =>
      have hkey := (firstMin_le hbest hmem).not_gt
      rw [groupKey_lt_iff] at hkey
      simp only [hbest, groupScanAt, ge_iff_le, Nat.cast_le, ite_eq_left_iff, reduceCtorEq,
        imp_false, not_not] at h hkey
      omega

/-- A group eviction removes the group with the least key, which ranks below the incoming tier. -/
theorem victim_of_evictGroup {r : NetworkBuilder φ}
    (h : b.evictLowestPriorityGroup incoming = some r) :
    ∃ g group, b.groupsById.get g = some group ∧ r = b.removeGroup g true ∧
      priorityScore group.toPriorityShape < priorityScore incoming ∧
      ∀ {g' group'}, b.groupsById.get g' = some group' → b.groupKey group ≤ b.groupKey group' := by
  simp only [evictLowestPriorityGroup, scanGroups_eq] at h
  cases hbest : firstMin (fun entry ↦ b.groupKey entry.2) b.groupsById.entries with
  | none => simp [hbest, groupScanAt] at h
  | some best =>
      simp only [hbest, groupScanAt, ge_iff_le, Nat.cast_le] at h
      split_ifs at h with hscore
      refine ⟨best.1, best.2, ?_, (Option.some.inj h).symm, Nat.lt_of_not_le hscore, ?_⟩
      · exact OrderedMap.mem_entries.mp (mem_of_firstMin hbest)
      · intro g' group' hg'
        have hle := firstMin_le hbest (OrderedMap.mem_of_get hg')
        exact hle

/-- A refused instance eviction leaves only instances of at least the incoming tier. -/
theorem le_score_of_evictInstance_none (h : b.evictLowestPriorityInstance incoming = none)
    (hgroups : ∀ {i inst}, b.instancesById.get i = some inst →
      (b.groupsById.get inst.groupId).isSome)
    {i : InstanceId} {inst : NetworkInstance} (hi : b.instancesById.get i = some inst) :
    priorityScore incoming ≤ b.instanceScore inst := by
  have hmem := OrderedMap.mem_of_get hi
  simp only [evictLowestPriorityInstance] at h
  rw [scanInstances_eq b _ fun entry hentry ↦ hgroups (OrderedMap.mem_entries.mp hentry)] at h
  cases hbest : firstMin (fun entry ↦ b.instanceKey entry.1 entry.2) b.instancesById.entries with
  | none => exact absurd hbest (firstMin_ne_none hmem)
  | some best =>
      have hkey := (firstMin_le hbest hmem).not_gt
      rw [instanceKey_lt_iff] at hkey
      simp only [hbest, instanceScanAt, ge_iff_le, Nat.cast_le, ite_eq_left_iff, reduceCtorEq,
        imp_false, not_not] at h hkey
      omega

/-- An instance eviction removes the instance with the least key, which ranks below the incoming
tier. -/
theorem victim_of_evictInstance {r : NetworkBuilder φ}
    (h : b.evictLowestPriorityInstance incoming = some r)
    (hgroups : ∀ {i inst}, b.instancesById.get i = some inst →
      (b.groupsById.get inst.groupId).isSome) :
    ∃ i inst, b.instancesById.get i = some inst ∧ r = b.removeInstance i true false ∧
      b.instanceScore inst < priorityScore incoming ∧
      ∀ {i' inst'}, b.instancesById.get i' = some inst' →
        b.instanceKey i inst ≤ b.instanceKey i' inst' := by
  simp only [evictLowestPriorityInstance] at h
  rw [scanInstances_eq b _ fun entry hentry ↦ hgroups (OrderedMap.mem_entries.mp hentry)] at h
  cases hbest : firstMin (fun entry ↦ b.instanceKey entry.1 entry.2) b.instancesById.entries with
  | none => simp [hbest, instanceScanAt] at h
  | some best =>
      simp only [hbest, instanceScanAt, ge_iff_le, Nat.cast_le] at h
      split_ifs at h with hscore
      refine ⟨best.1, best.2, ?_, (Option.some.inj h).symm, Nat.lt_of_not_le hscore, ?_⟩
      · exact OrderedMap.mem_entries.mp (mem_of_firstMin hbest)
      · intro i' inst' hi'
        have hle := firstMin_le hbest (OrderedMap.mem_of_get hi')
        exact hle

end CoreUtils.Reporter.NetworkBuilder
