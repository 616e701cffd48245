import CoreUtils.Reporter.NetworkBuilder
import Mathlib.Data.List.Induction

/-!
# Every observation is counted

`admit` counts each observation once, whatever becomes of it: no eviction and no commitment touches
the count, so that after a run it is the number of the observations.
-/

namespace CoreUtils.Reporter.NetworkBuilder

variable {φ : Type} [DecidableEq φ] (b : NetworkBuilder φ)

omit [DecidableEq φ] in
/-- Dropping a reference to a body counts no observation. -/
theorem observed_decrementBodyRef (reference : Option BodyId) :
    (b.decrementBodyRef reference).summary = b.summary := by
  cases reference with
  | none => rfl
  | some bodyId =>
      simp only [decrementBodyRef]
      split <;> rfl

/-- Removing an instance counts no observation. -/
theorem observed_removeInstance (i : InstanceId) (countAsEviction skipEmptyGroupCleanup : Bool) :
    (b.removeInstance i countAsEviction skipEmptyGroupCleanup).summary.observedInstances =
      b.summary.observedInstances := by
  unfold removeInstance
  cases b.instancesById.get i with
  | none => rfl
  | some inst =>
      have hreleased : (b.releaseInstance i inst countAsEviction).summary.observedInstances =
          b.summary.observedInstances := by
        simp only [releaseInstance, observed_decrementBodyRef]
        cases countAsEviction <;> rfl
      simp only
      split
      · split <;> exact hreleased
      · exact hreleased

/-- Removing a group counts no observation. -/
theorem observed_removeGroup (g : GroupId) (countCascadedEvictions : Bool) :
    (b.removeGroup g countCascadedEvictions).summary.observedInstances =
      b.summary.observedInstances := by
  unfold removeGroup
  cases b.groupsById.get g with
  | none => rfl
  | some group =>
      exact List.foldlRecOn
        (motive := fun c : NetworkBuilder φ ↦
          c.summary.observedInstances = b.summary.observedInstances) _ _ rfl
        fun c hc i _ ↦ (observed_removeInstance c i countCascadedEvictions true).trans hc

omit [DecidableEq φ] in
/-- Attaching a body counts no observation. -/
theorem observed_commitBody (i : InstanceId) (setRef : BodyId → NetworkInstance → NetworkInstance)
    (body : Option NetworkObservationBody) :
    (b.commitBody i setRef body).summary.observedInstances = b.summary.observedInstances := by
  cases body with
  | none => rfl
  | some body =>
      simp only [commitBody, resolveOrAdmitBody]
      cases b.bodyHashToBodyId.get body.fingerprint with
      | some existing => rfl
      | none =>
          simp only
          by_cases hcap : b.bodiesById.size ≥ BODIES_CAP
          · rw [if_pos hcap]
          · rw [if_neg hcap]

/-- Committing an observation counts none. -/
theorem observed_commit (fingerprint : φ) (existingGroupId : Option GroupId)
    (observation : NetworkObservation) :
    (b.commit fingerprint existingGroupId observation).summary.observedInstances =
      b.summary.observedInstances := by
  simp only [commit, commitBodies]
  split
  · cases existingGroupId <;> rfl
  · rw [observed_commitBody, observed_commitBody]
    cases existingGroupId <;> rfl

/-- Evicting a group counts no observation. -/
theorem observed_evictLowestPriorityGroup {incoming : PriorityShape} {evicted : NetworkBuilder φ}
    (h : b.evictLowestPriorityGroup incoming = some evicted) :
    evicted.summary.observedInstances = b.summary.observedInstances := by
  simp only [evictLowestPriorityGroup] at h
  split at h
  · exact absurd h (by simp)
  · split at h
    · exact absurd h (by simp)
    · rw [← Option.some.inj h, observed_removeGroup]

/-- Evicting an instance counts no observation. -/
theorem observed_evictLowestPriorityInstance {incoming : PriorityShape}
    {evicted : NetworkBuilder φ} (h : b.evictLowestPriorityInstance incoming = some evicted) :
    evicted.summary.observedInstances = b.summary.observedInstances := by
  simp only [evictLowestPriorityInstance] at h
  split at h
  · exact absurd h (by simp)
  · split at h
    · exact absurd h (by simp)
    · rw [← Option.some.inj h, observed_removeInstance]

/-- Below the instance cap no observation is counted. -/
theorem observed_admitBelowInstanceCap (fingerprint : φ) (existingGroupId : Option GroupId)
    (observation : NetworkObservation) :
    (b.admitBelowInstanceCap fingerprint existingGroupId observation).summary.observedInstances =
      b.summary.observedInstances := by
  unfold admitBelowInstanceCap
  split
  · split
    next => rfl
    next evicted hevicted =>
      rw [observed_commit, observed_evictLowestPriorityInstance b hevicted]
  · exact observed_commit b fingerprint existingGroupId observation

/-- One call of `admit` counts one observation. -/
theorem observed_admitObservation (hashShape : NetworkObservationShape → φ)
    (observation : NetworkObservation) :
    (b.admitObservation hashShape observation).summary.observedInstances =
      b.summary.observedInstances + 1 := by
  unfold admitObservation
  split
  · rfl
  · simp only [admitPostFilter]
    split
    · split
      · rfl
      · rw [observed_admitBelowInstanceCap]
        rfl
    · split
      · split
        next => rfl
        next evicted hevicted =>
          rw [observed_admitBelowInstanceCap, observed_evictLowestPriorityGroup _ hevicted]
          rfl
      · rw [observed_admitBelowInstanceCap]
        rfl

/-- A run counts every observation it was given. -/
theorem observed_admitAll (hashShape : NetworkObservationShape → φ)
    (observations : List NetworkObservation) :
    (admitAll hashShape observations).summary.observedInstances = observations.length := by
  induction observations using List.reverseRecOn with
  | nil => rfl
  | append_singleton observations observation ih =>
      rw [admitAll_concat, observed_admitObservation, ih, List.length_append,
        List.length_singleton]

end CoreUtils.Reporter.NetworkBuilder
