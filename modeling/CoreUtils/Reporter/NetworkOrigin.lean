import CoreUtils.Reporter.NetworkBuilder
import Mathlib.Data.List.Induction

/-!
# Where retained instances come from

Every retained instance was made of one observation, and carries its fields, its place in the order
of admission and the URL it redirects to. This holds for any function from shapes to fingerprints.
`Originated` is what every operation of the builder keeps, and `originated_admitAll` says it of the
builder after any observations.
-/

namespace CoreUtils.Reporter

variable {φ : Type}

/-- The record of an instance as its observation gives it; the group and the bodies are those that
the builder has chosen. -/
def NetworkObservation.record (observation : NetworkObservation) (id : InstanceId)
    (groupId : GroupId) (requestBodyRef responseBodyRef : Option BodyId) : NetworkInstance where
  id := id
  groupId := groupId
  method := observation.shape.method
  url := observation.shape.url
  status := observation.shape.status
  offsetMs := observation.instance_.offsetMs
  durationMs := observation.instance_.durationMs
  timings := observation.instance_.timings
  traceId := observation.instance_.traceId
  spanId := observation.instance_.spanId
  requestId := observation.instance_.requestId
  correlationId := observation.instance_.correlationId
  requestBodyRef := requestBodyRef
  responseBodyRef := responseBodyRef
  redirectFromId := none
  redirectToId := none

namespace NetworkBuilder

/-- Every retained instance was created by an observation, below the next counter. -/
structure Originated (created : InstanceId → NetworkObservation → Prop) (next : ℕ)
    (b : NetworkBuilder φ) : Prop where
  nextInstance : b.nextInstanceCounter = next
  counter : b.sequenceCounter = next
  fresh : ∀ {i inst}, b.instancesById.get i = some inst → i.counter < next
  origin : ∀ {i inst}, b.instancesById.get i = some inst → ∃ observation,
    created i observation ∧
      inst = observation.record i inst.groupId inst.requestBodyRef inst.responseBodyRef ∧
      b.instanceSequenceById.get i = some (i.counter + 1) ∧
      b.instanceRedirectToUrl.get i = observation.instance_.redirectToUrl
  gone : ∀ {i}, b.instancesById.get i = none → b.instanceRedirectToUrl.get i = none

variable {created : InstanceId → NetworkObservation → Prop} {next : ℕ} {b : NetworkBuilder φ}

/-- Builders that agree on the instances and what is noted about them. -/
theorem Originated.congr (h : Originated created next b) {r : NetworkBuilder φ}
    (hnext : r.nextInstanceCounter = b.nextInstanceCounter)
    (hcounter : r.sequenceCounter = b.sequenceCounter)
    (hinstances : r.instancesById = b.instancesById)
    (hsequences : r.instanceSequenceById = b.instanceSequenceById)
    (hredirects : r.instanceRedirectToUrl = b.instanceRedirectToUrl) :
    Originated created next r where
  nextInstance := hnext.trans h.nextInstance
  counter := hcounter.trans h.counter
  fresh := by
    rw [hinstances]
    exact h.fresh
  origin := by
    rw [hinstances, hsequences, hredirects]
    exact h.origin
  gone := by
    rw [hinstances, hredirects]
    exact h.gone

/-! ## Removing -/

/-- Dropping a reference to a body. -/
theorem Originated.decrementBodyRef (h : Originated created next b) (ref : Option BodyId) :
    Originated created next (b.decrementBodyRef ref) := by
  cases ref with
  | none => exact h
  | some bodyId =>
      unfold NetworkBuilder.decrementBodyRef
      simp only
      split
      · exact h.congr rfl rfl rfl rfl rfl
      · exact h.congr rfl rfl rfl rfl rfl

/-- Forgetting an instance. -/
theorem Originated.forgetInstance (h : Originated created next b) (id : InstanceId)
    (groupId : GroupId) : Originated created next (b.forgetInstance id groupId) where
  nextInstance := h.nextInstance
  counter := h.counter
  fresh hi := h.fresh (OrderedMap.get_of_get_delete hi)
  origin {i inst} hi := by
    have hne : i ≠ id := by
      rintro rfl
      simp [NetworkBuilder.forgetInstance] at hi
    obtain ⟨observation, hcreated, hinst, hsequence, hredirect⟩ :=
      h.origin (OrderedMap.get_of_get_delete hi)
    refine ⟨observation, hcreated, hinst, ?_, ?_⟩
    · simp [NetworkBuilder.forgetInstance, hne, hsequence]
    · simp [NetworkBuilder.forgetInstance, hne, hredirect]
  gone {i} hi := by
    by_cases hsame : i = id
    · simp [NetworkBuilder.forgetInstance, hsame]
    · have hgone : b.instancesById.get i = none := by
        simpa [NetworkBuilder.forgetInstance, hsame] using hi
      simp [NetworkBuilder.forgetInstance, hsame, h.gone hgone]

/-- Releasing an instance. -/
theorem Originated.releaseInstance (h : Originated created next b) (id : InstanceId)
    (inst : NetworkInstance) (countAsEviction : Bool) :
    Originated created next (b.releaseInstance id inst countAsEviction) := by
  unfold NetworkBuilder.releaseInstance
  have hcounted : Originated created next
      (if countAsEviction then b.countEviction inst.groupId else b) := by
    split
    · exact h.congr rfl rfl rfl rfl rfl
    · exact h
  exact ((hcounted.forgetInstance id inst.groupId).decrementBodyRef _).decrementBodyRef _

variable [DecidableEq φ]

/-- Removing an instance. -/
theorem Originated.removeInstance (h : Originated created next b) (id : InstanceId)
    (countAsEviction skipEmptyGroupCleanup : Bool) :
    Originated created next (b.removeInstance id countAsEviction skipEmptyGroupCleanup) := by
  unfold NetworkBuilder.removeInstance
  split
  · exact h
  · rename_i inst hinst
    have hreleased := h.releaseInstance id inst countAsEviction
    simp only
    split
    · split
      · exact hreleased.congr rfl rfl rfl rfl rfl
      · exact hreleased.congr rfl rfl rfl rfl rfl
    · exact hreleased

/-- Removing a group. -/
theorem Originated.removeGroup (h : Originated created next b) (g : GroupId)
    (countCascadedEvictions : Bool) :
    Originated created next (b.removeGroup g countCascadedEvictions) := by
  unfold NetworkBuilder.removeGroup
  split
  · exact h
  · have hemptied := List.foldlRecOn
      (motive := fun current : NetworkBuilder φ ↦ Originated created next current)
      (((b.groupInstanceIndex.get g).map OrderedMap.keys).getD [])
      (fun current id ↦ current.removeInstance id countCascadedEvictions true) h
      fun current hcurrent id _ ↦ hcurrent.removeInstance id countCascadedEvictions true
    exact hemptied.congr rfl rfl rfl rfl rfl

/-- Evicting a group. -/
theorem Originated.evictGroup (h : Originated created next b) {incoming : PriorityShape}
    {r : NetworkBuilder φ} (hr : b.evictLowestPriorityGroup incoming = some r) :
    Originated created next r := by
  unfold evictLowestPriorityGroup at hr
  simp only at hr
  split at hr
  · contradiction
  · split at hr
    · contradiction
    · obtain rfl := Option.some.inj hr
      exact h.removeGroup _ true

/-- Evicting an instance. -/
theorem Originated.evictInstance (h : Originated created next b) {incoming : PriorityShape}
    {r : NetworkBuilder φ} (hr : b.evictLowestPriorityInstance incoming = some r) :
    Originated created next r := by
  unfold evictLowestPriorityInstance at hr
  simp only at hr
  split at hr
  · contradiction
  · split at hr
    · contradiction
    · obtain rfl := Option.some.inj hr
      exact h.removeInstance _ true false

/-! ## Committing -/

/-- What is created once an observation is committed. -/
def CreatedWith (created : InstanceId → NetworkObservation → Prop) (next : ℕ)
    (observation : NetworkObservation) (i : InstanceId) (other : NetworkObservation) : Prop :=
  created i other ∨ (i.counter = next ∧ other = observation)

omit [DecidableEq φ] in
/-- Committing an instance. -/
theorem Originated.commitInstance (h : Originated created next b) (g : GroupId)
    (observation : NetworkObservation) :
    Originated (CreatedWith created next observation) (next + 1)
      (b.commitInstance g observation.shape observation.instance_) := by
  have hnext : b.nextInstanceCounter = next := h.nextInstance
  have hfresh : b.instancesById.get ⟨next⟩ = none := by
    cases hget : b.instancesById.get ⟨next⟩ with
    | none => rfl
    | some inst => exact absurd (h.fresh hget) (Nat.lt_irrefl next)
  have hredirects : ∀ i : InstanceId, i.counter ≠ next →
      (b.commitInstance g observation.shape observation.instance_).instanceRedirectToUrl.get i =
        b.instanceRedirectToUrl.get i := by
    intro i hne
    have hid : i ≠ ⟨b.nextInstanceCounter⟩ := by
      rintro rfl
      exact hne hnext
    unfold NetworkBuilder.commitInstance
    cases observation.instance_.redirectToUrl with
    | none => rfl
    | some url => simp [hid]
  have hnew : (b.commitInstance g observation.shape
      observation.instance_).instanceRedirectToUrl.get ⟨next⟩ =
        observation.instance_.redirectToUrl := by
    unfold NetworkBuilder.commitInstance
    cases observation.instance_.redirectToUrl with
    | none => exact h.gone hfresh
    | some url => simp [hnext]
  refine ⟨by rw [← hnext]; rfl, by rw [← h.counter]; rfl, ?_, ?_, ?_⟩
  · intro i inst hi
    simp only [NetworkBuilder.commitInstance, OrderedMap.get_set, hnext] at hi
    split at hi
    · rename_i hid
      rw [hid]
      exact Nat.lt_succ_self next
    · exact Nat.lt_succ_of_lt (h.fresh hi)
  · intro i inst hi
    simp only [NetworkBuilder.commitInstance, OrderedMap.get_set, hnext] at hi
    split at hi
    · rename_i hid
      obtain rfl := Option.some.inj hi
      refine ⟨observation, .inr ⟨by rw [hid], rfl⟩, by rw [hid]; rfl, ?_, ?_⟩
      · simp [NetworkBuilder.commitInstance, hnext, hid, h.counter]
      · rw [hid]
        exact hnew
    · rename_i hid
      obtain ⟨other, hcreated, hinst, hsequence, hredirect⟩ := h.origin hi
      have hne : i.counter ≠ next := Nat.ne_of_lt (h.fresh hi)
      refine ⟨other, .inl hcreated, hinst, ?_, (hredirects i hne).trans hredirect⟩
      simp [NetworkBuilder.commitInstance, hnext, hid, hsequence]
  · intro i hi
    simp only [NetworkBuilder.commitInstance, OrderedMap.get_set, hnext] at hi
    split at hi
    · contradiction
    · rename_i hid
      have hne : i.counter ≠ next := by
        intro hcounter
        exact hid (by cases i; simp_all)
      rw [hredirects i hne]
      exact h.gone hi

omit [DecidableEq φ] in
/-- Referring to a body. -/
theorem Originated.commitBody (h : Originated created next b) (id : InstanceId)
    {setRef : BodyId → NetworkInstance → NetworkInstance}
    (hsetRef : ∀ bodyId inst, ∃ requestBodyRef responseBodyRef, setRef bodyId inst =
      { inst with requestBodyRef := requestBodyRef, responseBodyRef := responseBodyRef })
    (body : Option NetworkObservationBody) :
    Originated created next (b.commitBody id setRef body) := by
  cases body with
  | none => exact h
  | some body =>
      have hresolved : Originated created next (b.resolveOrAdmitBody body).1 := by
        unfold resolveOrAdmitBody
        split
        · exact h.congr rfl rfl rfl rfl rfl
        · split
          · exact h.congr rfl rfl rfl rfl rfl
          · exact h.congr rfl rfl rfl rfl rfl
      unfold NetworkBuilder.commitBody
      simp only
      split
      · rename_i resolved hpair
        rw [hpair] at hresolved
        exact hresolved
      · rename_i resolved bodyId hpair
        rw [hpair] at hresolved
        have hget : ∀ {i inst}, (resolved.instancesById.modify id (setRef bodyId)).get i =
            some inst → ∃ stored requestBodyRef responseBodyRef,
              resolved.instancesById.get i = some stored ∧ inst = { stored with
                requestBodyRef := requestBodyRef, responseBodyRef := responseBodyRef } := by
          intro i inst hi
          rw [OrderedMap.get_modify] at hi
          split at hi
          · obtain ⟨stored, hstored, rfl⟩ := Option.map_eq_some_iff.mp hi
            obtain ⟨requestBodyRef, responseBodyRef, hset⟩ := hsetRef bodyId stored
            exact ⟨stored, requestBodyRef, responseBodyRef, hstored, hset⟩
          · exact ⟨inst, inst.requestBodyRef, inst.responseBodyRef, hi, rfl⟩
        refine ⟨hresolved.nextInstance, hresolved.counter, ?_, ?_, ?_⟩
        · intro i inst hi
          obtain ⟨stored, -, -, hstored, -⟩ := hget hi
          exact hresolved.fresh hstored
        · intro i inst hi
          obtain ⟨stored, requestBodyRef, responseBodyRef, hstored, rfl⟩ := hget hi
          obtain ⟨observation, hcreated, hinst, hsequence, hredirect⟩ := hresolved.origin hstored
          exact ⟨observation, hcreated, by rw [hinst]; rfl, hsequence, hredirect⟩
        · intro i hi
          refine hresolved.gone ?_
          have hi' : (resolved.instancesById.modify id (setRef bodyId)).get i = none := hi
          rw [OrderedMap.get_modify] at hi'
          split at hi'
          · exact Option.map_eq_none_iff.mp hi'
          · exact hi'

/-- Committing an observation. -/
theorem Originated.commit (h : Originated created next b) (fingerprint : φ)
    (existingGroupId : Option GroupId) (observation : NetworkObservation) :
    Originated (CreatedWith created next observation) (next + 1)
      (b.commit fingerprint existingGroupId observation) := by
  have hbodies : ∀ committed : NetworkBuilder φ,
      Originated (CreatedWith created next observation) (next + 1) committed →
      Originated (CreatedWith created next observation) (next + 1)
        (committed.commitBodies ⟨b.nextInstanceCounter⟩ observation) := by
    intro committed hcommitted
    unfold commitBodies
    split
    · exact hcommitted
    · exact (hcommitted.commitBody _ (fun bodyId inst ↦ ⟨_, _, rfl⟩) _).commitBody _
        (fun bodyId inst ↦ ⟨_, _, rfl⟩) _
  cases existingGroupId with
  | some groupId => exact hbodies _ (h.commitInstance groupId observation)
  | none =>
      have hgrouped : Originated created next (b.commitGroup fingerprint observation.shape
          observation.instance_.offsetMs) := h.congr rfl rfl rfl rfl rfl
      exact hbodies _ (hgrouped.commitInstance ⟨b.nextGroupCounter⟩ observation)

/-! ## Admitting -/

/-- What an observation does: it may be retained as the next instance, or not at all. -/
def Admitted (created : InstanceId → NetworkObservation → Prop) (next : ℕ)
    (observation : NetworkObservation) (r : NetworkBuilder φ) : Prop :=
  Originated created next r ∨ Originated (CreatedWith created next observation) (next + 1) r

/-- The instance cap. -/
theorem Originated.admitBelowInstanceCap (h : Originated created next b) (fingerprint : φ)
    (existingGroupId : Option GroupId) (observation : NetworkObservation) :
    Admitted created next observation
      (b.admitBelowInstanceCap fingerprint existingGroupId observation) := by
  unfold NetworkBuilder.admitBelowInstanceCap
  split
  · split
    · exact .inl (h.congr rfl rfl rfl rfl rfl)
    · rename_i evicted hevicted
      exact .inr ((h.evictInstance hevicted).commit fingerprint existingGroupId observation)
  · exact .inr (h.commit fingerprint existingGroupId observation)

/-- The method `admit`. -/
theorem Originated.admitObservation (h : Originated created next b)
    (hashShape : NetworkObservationShape → φ) (observation : NetworkObservation) :
    Admitted created next observation (b.admitObservation hashShape observation) := by
  have hobserved : Originated created next b.observe := h.congr rfl rfl rfl rfl rfl
  unfold NetworkBuilder.admitObservation
  split
  · exact .inl (hobserved.congr rfl rfl rfl rfl rfl)
  · unfold admitPostFilter
    simp only
    split
    · have hnoted : Originated created next (b.observe.noteObservation
          (hashShape observation.shape) observation.instance_.offsetMs) :=
        hobserved.congr rfl rfl rfl rfl rfl
      split
      · exact .inl (hnoted.congr rfl rfl rfl rfl rfl)
      · exact hnoted.admitBelowInstanceCap _ _ observation
    · split
      · split
        · exact .inl (hobserved.congr rfl rfl rfl rfl rfl)
        · rename_i evicted hevicted
          exact (hobserved.evictGroup hevicted).admitBelowInstanceCap _ _ observation
      · exact hobserved.admitBelowInstanceCap _ _ observation

/-- An instance was created by an observation: when that one was admitted, the counter went on from
the number of the instance. -/
def CreatedBy (hashShape : NetworkObservationShape → φ) (observations : List NetworkObservation)
    (i : InstanceId) (observation : NetworkObservation) : Prop :=
  ∃ before after, observations = before ++ observation :: after ∧
    (admitAll hashShape before).nextInstanceCounter = i.counter ∧
    (admitAll hashShape (before ++ [observation])).nextInstanceCounter = i.counter + 1

/-- Every retained instance was created by one of the observations. -/
theorem originated_admitAll (hashShape : NetworkObservationShape → φ)
    (observations : List NetworkObservation) :
    Originated (CreatedBy hashShape observations)
      (admitAll hashShape observations).nextInstanceCounter (admitAll hashShape observations) := by
  induction observations using List.reverseRecOn with
  | nil =>
      exact ⟨rfl, rfl, fun hi ↦ absurd hi (by simp [admitAll, initial]),
        fun hi ↦ absurd hi (by simp [admitAll, initial]), fun _ ↦ rfl⟩
  | append_singleton observations observation ih =>
      have hmono : ∀ {i other}, CreatedBy hashShape observations i other →
          CreatedBy hashShape (observations ++ [observation]) i other := by
        rintro i other ⟨before, after, rfl, hbefore, hafter⟩
        exact ⟨before, after ++ [observation], by simp, hbefore, hafter⟩
      have hweaken : ∀ {created : InstanceId → NetworkObservation → Prop} {next : ℕ}
          {r : NetworkBuilder φ}, Originated created next r → r.nextInstanceCounter = next →
          (∀ {i other}, created i other →
            CreatedBy hashShape (observations ++ [observation]) i other) →
          Originated (CreatedBy hashShape (observations ++ [observation]))
            r.nextInstanceCounter r := by
        rintro created next r h rfl hcreated
        exact ⟨rfl, h.counter, h.fresh, fun hi ↦ (h.origin hi).imp fun other horigin ↦
          ⟨hcreated horigin.1, horigin.2⟩, h.gone⟩
      rw [admitAll_concat]
      rcases ih.admitObservation hashShape observation with h | h
      · exact hweaken h h.nextInstance hmono
      · refine hweaken h h.nextInstance fun {i other} hcreated ↦ ?_
        rcases hcreated with hcreated | ⟨hcounter, rfl⟩
        · exact hmono hcreated
        · refine ⟨observations, [], rfl, hcounter.symm, ?_⟩
          rw [admitAll_concat, h.nextInstance, hcounter]

end NetworkBuilder

end CoreUtils.Reporter
