import CoreUtils.Reporter.NetworkBuilder

/-!
# Reference counts of shared bodies

`BodiesLinked` ties the three body tables to the instances that refer to them. Between the moment
an instance is forgotten and the moment its references are given back, and again between the
moment a body is resolved and the moment the instance points at it, the counts exceed the
references; `owed` is that excess, so that every operation of the builder keeps the relation.
-/

namespace CoreUtils.Reporter

/-- How often an optional reference names a body: zero or one. -/
def refersTo (ref : Option BodyId) (id : BodyId) : ℕ := if ref = some id then 1 else 0

@[simp] theorem refersTo_none (id : BodyId) : refersTo none id = 0 := rfl

/-- How many of the two reference fields of an instance name a body. -/
def NetworkInstance.references (inst : NetworkInstance) (id : BodyId) : ℕ :=
  refersTo inst.requestBodyRef id + refersTo inst.responseBodyRef id

/-- How many reference fields of the retained instances name a body. -/
def references (instances : OrderedMap InstanceId NetworkInstance) (id : BodyId) : ℕ :=
  instances.total fun _ inst ↦ inst.references id

/-- The body tables describe the same bodies, and the counts are the references plus `owed`. -/
structure BodiesLinked (instances : OrderedMap InstanceId NetworkInstance)
    (bodies : OrderedMap BodyId NetworkBody) (hashes : OrderedMap String BodyId)
    (counts : OrderedMap BodyId ℕ) (nextBody : ℕ) (owed : BodyId → ℕ) : Prop where
  body_id : ∀ {id body}, bodies.get id = some body → body.id = id
  body_fresh : ∀ {id body}, bodies.get id = some body → id.counter < nextBody
  ref_count : ∀ id, (counts.get id).getD 0 = references instances id + owed id
  ref_pos : ∀ {id n}, counts.get id = some n → 0 < n
  body_keys : ∀ id, (bodies.get id).isSome = (counts.get id).isSome
  hash_iff : ∀ {hash id}, hashes.get hash = some id ↔
    ∃ body, bodies.get id = some body ∧ body.fingerprint = hash

/-- `BodiesLinked` at the tables of a builder. -/
abbrev NetworkBuilder.BodiesLinked {φ : Type} (b : NetworkBuilder φ) (owed : BodyId → ℕ) : Prop :=
  Reporter.BodiesLinked b.instancesById b.bodiesById b.bodyHashToBodyId b.bodyRefCounts
    b.nextBodyCounter owed

namespace BodiesLinked

variable {instances : OrderedMap InstanceId NetworkInstance}
  {bodies : OrderedMap BodyId NetworkBody} {hashes : OrderedMap String BodyId}
  {counts : OrderedMap BodyId ℕ} {nextBody : ℕ} {owed owed' : BodyId → ℕ}

/-- Only the values of `owed` matter. -/
theorem congr_owed (h : BodiesLinked instances bodies hashes counts nextBody owed)
    (heq : ∀ id, owed id = owed' id) :
    BodiesLinked instances bodies hashes counts nextBody owed' :=
  funext heq ▸ h

/-- Changing the instances moves references between the retained ones and `owed`. -/
theorem of_instances {instances' : OrderedMap InstanceId NetworkInstance}
    (h : BodiesLinked instances bodies hashes counts nextBody owed)
    (hrefs : ∀ id, references instances' id + owed' id = references instances id + owed id) :
    BodiesLinked instances' bodies hashes counts nextBody owed' :=
  { h with ref_count := fun id ↦ (h.ref_count id).trans (hrefs id).symm }

/-- A body with a count is retained. -/
theorem body_of_count (h : BodiesLinked instances bodies hashes counts nextBody owed)
    {id : BodyId} {n : ℕ} (hcount : counts.get id = some n) : ∃ body, bodies.get id = some body :=
  Option.isSome_iff_exists.mp (by rw [h.body_keys, hcount]; rfl)

/-- A body that is referred to, or still owed, has a count. -/
theorem count_of_owed (h : BodiesLinked instances bodies hashes counts nextBody owed)
    {id : BodyId} (hpos : 0 < references instances id + owed id) :
    counts.get id = some (references instances id + owed id) := by
  have hcount := h.ref_count id
  cases hget : counts.get id with
  | none => rw [hget, Option.getD_none] at hcount; omega
  | some n => rw [hget, Option.getD_some] at hcount; rw [hcount]

/-- A body without a count is referred to by nobody. -/
theorem unreferenced_of_absent (h : BodiesLinked instances bodies hashes counts nextBody owed)
    {id : BodyId} (hnone : bodies.get id = none) : references instances id + owed id = 0 := by
  have hcount : counts.get id = none := by
    have hkeys := h.body_keys id
    rw [hnone] at hkeys
    simpa using hkeys.symm
  rw [← h.ref_count id, hcount, Option.getD_none]

/-- The last reference takes the body with it. -/
theorem drop_body (h : BodiesLinked instances bodies hashes counts nextBody owed)
    {id : BodyId} {body : NetworkBody} (hbody : bodies.get id = some body)
    (hnone : references instances id + owed' id = 0)
    (howed : ∀ other, other ≠ id → owed' other = owed other) :
    BodiesLinked instances (bodies.delete id) (hashes.delete body.fingerprint)
      (counts.delete id) nextBody owed' where
  body_id {other found} hfound := by
    by_cases ho : other = id
    · simp [ho] at hfound
    · exact h.body_id (by simpa [ho] using hfound)
  body_fresh {other found} hfound := by
    by_cases ho : other = id
    · simp [ho] at hfound
    · exact h.body_fresh (by simpa [ho] using hfound)
  ref_count other := by
    by_cases ho : other = id
    · subst ho; simpa using hnone.symm
    · simpa [ho, howed other ho] using h.ref_count other
  ref_pos {other n} hn := by
    by_cases ho : other = id
    · simp [ho] at hn
    · exact h.ref_pos (by simpa [ho] using hn)
  body_keys other := by
    by_cases ho : other = id
    · simp [ho]
    · simpa [ho] using h.body_keys other
  hash_iff {hash other} := by
    rw [OrderedMap.get_delete]
    by_cases hh : hash = body.fingerprint
    · -- the fingerprint named `id` only, which is gone
      have hid : hashes.get body.fingerprint = some id := h.hash_iff.mpr ⟨body, hbody, rfl⟩
      simp only [hh, if_true, reduceCtorEq, false_iff, not_exists, not_and]
      intro found hfound hfp
      by_cases ho : other = id
      · simp [ho] at hfound
      · have hother : hashes.get body.fingerprint = some other :=
          h.hash_iff.mpr ⟨found, by simpa [ho] using hfound, hfp⟩
        exact ho (Option.some.inj (hother.symm.trans hid))
    · rw [if_neg hh, h.hash_iff]
      by_cases ho : other = id
      · subst ho
        simp only [OrderedMap.get_delete, if_true, reduceCtorEq, false_and, exists_false, iff_false,
          not_exists, not_and, hbody, Option.some.injEq]
        rintro _ rfl hfp
        exact hh hfp.symm
      · simp [ho]

/-- Setting a count to the references it stands for. -/
theorem set_count (h : BodiesLinked instances bodies hashes counts nextBody owed)
    {id : BodyId} {body : NetworkBody} (hbody : bodies.get id = some body) {n : ℕ} (hn : 0 < n)
    (hcount : n = references instances id + owed' id)
    (howed : ∀ other, other ≠ id → owed' other = owed other) :
    BodiesLinked instances bodies hashes (counts.set id n) nextBody owed' :=
  { h with
    ref_count := fun other ↦ by
      by_cases ho : other = id
      · subst ho; simpa using hcount
      · simpa [ho, howed other ho] using h.ref_count other
    ref_pos := fun {other m} hm ↦ by
      by_cases ho : other = id
      · subst ho
        simp only [OrderedMap.get_set, if_true, Option.some.injEq] at hm
        omega
      · exact h.ref_pos (by simpa [ho] using hm)
    body_keys := fun other ↦ by
      by_cases ho : other = id
      · subst ho; simp [hbody]
      · simpa [ho] using h.body_keys other }

/-- A new body under a fresh identifier and a new fingerprint, with one reference owed. -/
theorem add_body (h : BodiesLinked instances bodies hashes counts nextBody owed)
    {body : NetworkBody} (hid : body.id = ⟨nextBody⟩) (hnew : hashes.get body.fingerprint = none)
    (hone : owed' ⟨nextBody⟩ = 1) (howed : ∀ other, other ≠ ⟨nextBody⟩ → owed' other = owed other) :
    BodiesLinked instances (bodies.set ⟨nextBody⟩ body) (hashes.set body.fingerprint ⟨nextBody⟩)
      (counts.set ⟨nextBody⟩ 1) (nextBody + 1) owed' := by
  have hfree : bodies.get ⟨nextBody⟩ = none := by
    cases hget : bodies.get ⟨nextBody⟩ with
    | none => rfl
    | some found => exact absurd (h.body_fresh hget) (Nat.lt_irrefl nextBody)
  have hrefs := h.unreferenced_of_absent hfree
  constructor
  case body_id =>
    intro other found hfound
    by_cases ho : other = ⟨nextBody⟩
    · subst ho
      simp only [OrderedMap.get_set, if_true, Option.some.injEq] at hfound
      exact hfound ▸ hid
    · exact h.body_id (by simpa [ho] using hfound)
  case body_fresh =>
    intro other found hfound
    by_cases ho : other = ⟨nextBody⟩
    · subst ho; exact Nat.lt_succ_self nextBody
    · exact Nat.lt_succ_of_lt (h.body_fresh (by simpa [ho] using hfound))
  case ref_count =>
    intro other
    by_cases ho : other = ⟨nextBody⟩
    · subst ho; simp only [OrderedMap.get_set, if_true, Option.getD_some, hone]; omega
    · simpa [ho, howed other ho] using h.ref_count other
  case ref_pos =>
    intro other n hn
    by_cases ho : other = ⟨nextBody⟩
    · simp only [ho, OrderedMap.get_set, if_true, Option.some.injEq] at hn; omega
    · exact h.ref_pos (by simpa [ho] using hn)
  case body_keys =>
    intro other
    by_cases ho : other = ⟨nextBody⟩
    · simp [ho]
    · simpa [ho] using h.body_keys other
  case hash_iff =>
    intro hash other
    rw [OrderedMap.get_set]
    by_cases ho : other = ⟨nextBody⟩
    · subst ho
      by_cases hh : hash = body.fingerprint
      · simp [hh]
      · -- the id is fresh, so no old hash names it
        have hne : hashes.get hash ≠ some ⟨nextBody⟩ := by
          intro hget
          obtain ⟨found, hfound, _⟩ := h.hash_iff.mp hget
          rw [hfree] at hfound
          exact absurd hfound (by simp)
        simp [hh, hne, Ne.symm hh]
    · by_cases hh : hash = body.fingerprint
      · subst hh
        -- the hash was new, so no old body has it
        have hne : ¬∃ found, bodies.get other = some found ∧
            found.fingerprint = body.fingerprint := by
          rw [← h.hash_iff, hnew]; simp
        simpa [ho, Ne.symm ho] using hne
      · simp [hh, ho, h.hash_iff]

end BodiesLinked

namespace NetworkBuilder

variable {φ : Type}

/-- Giving back a reference changes the body tables only, and adds no body. -/
theorem decrementBodyRef_frame (b : NetworkBuilder φ) (ref : Option BodyId) :
    ∃ bodies hashes counts, b.decrementBodyRef ref =
        { b with bodiesById := bodies, bodyHashToBodyId := hashes, bodyRefCounts := counts } ∧
      bodies.size ≤ b.bodiesById.size := by
  cases ref with
  | none => exact ⟨_, _, _, rfl, le_rfl⟩
  | some id =>
      simp only [decrementBodyRef]
      split
      · exact ⟨_, _, _, rfl, OrderedMap.size_delete_le _ _⟩
      · exact ⟨_, _, _, rfl, le_rfl⟩

/-- Giving back a reference that is owed. -/
theorem decrementBodyRef_linked {b : NetworkBuilder φ} {ref : Option BodyId} {owed : BodyId → ℕ}
    (h : b.BodiesLinked fun id ↦ refersTo ref id + owed id) :
    (b.decrementBodyRef ref).BodiesLinked owed := by
  cases ref with
  | none => exact h.congr_owed fun id ↦ by simp [refersTo]
  | some id =>
      have hself : refersTo (some id) id = 1 := by simp [refersTo]
      have hothers : ∀ other, other ≠ id → owed other = refersTo (some id) other + owed other := by
        intro other ho
        simp [refersTo, Ne.symm ho]
      have hcount : b.bodyRefCounts.get id = some _ := h.count_of_owed (by omega)
      obtain ⟨body, hbody⟩ := h.body_of_count hcount
      simp only [decrementBodyRef, hcount, Option.getD_some, hbody]
      split
      · exact h.drop_body hbody (by omega) hothers
      · exact h.set_count hbody (by omega) (by omega) hothers

/-- What resolving a payload does: it changes the body tables and the body counters only, keeps
within the cap, and owes one reference to the body it returns. -/
theorem resolveOrAdmitBody_spec {b : NetworkBuilder φ} (h : b.BodiesLinked fun _ ↦ 0)
    (hcap : b.bodiesById.size ≤ BODIES_CAP) (body : NetworkObservationBody) :
    ∃ bodies hashes counts next omitted truncated,
      (b.resolveOrAdmitBody body).1 =
        { b with
          bodiesById := bodies, bodyHashToBodyId := hashes, bodyRefCounts := counts
          nextBodyCounter := next
          summary := { b.summary with
            bodiesOmittedByBodyCap := omitted, bodiesTruncated := truncated } } ∧
      bodies.size ≤ BODIES_CAP ∧
      (b.resolveOrAdmitBody body).1.BodiesLinked
        (refersTo (b.resolveOrAdmitBody body).2) := by
  unfold resolveOrAdmitBody
  cases hhash : b.bodyHashToBodyId.get body.fingerprint with
  | some existing =>
      obtain ⟨found, hfound, _⟩ := h.hash_iff.mp hhash
      refine ⟨_, _, _, _, _, _, rfl, hcap, ?_⟩
      refine h.set_count hfound (Nat.succ_pos _) ?_ ?_
      · simp [h.ref_count existing, refersTo]
      · intro other ho
        simp [refersTo, Ne.symm ho]
  | none =>
      simp only
      split
      · exact ⟨_, _, _, _, _, _, rfl, hcap, h.congr_owed fun id ↦ by simp [refersTo]⟩
      · rename_i hroom
        have hfree : b.bodiesById.get ⟨b.nextBodyCounter⟩ = none := by
          cases hget : b.bodiesById.get ⟨b.nextBodyCounter⟩ with
          | none => rfl
          | some found => exact absurd (h.body_fresh hget) (Nat.lt_irrefl _)
        refine ⟨_, _, _, _, _, _, rfl, ?_, ?_⟩
        · rw [OrderedMap.size_set_of_get_none hfree]
          omega
        · refine h.add_body rfl hhash (by simp [refersTo]) ?_
          intro other ho
          simp [refersTo, Ne.symm ho]

end NetworkBuilder

end CoreUtils.Reporter
