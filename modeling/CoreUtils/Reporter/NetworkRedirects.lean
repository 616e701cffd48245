import CoreUtils.Reporter.NetworkFinalize
import CoreUtils.Reporter.NetworkOrigin
import Mathlib.Data.List.Chain
import Mathlib.Data.List.Find

/-!
# Redirect chains

How `annotateRedirects` links the instances of a report. `Walked` is the invariant of the walk: the
links so far are inverse to each other, and each instance that was passed has the first later
instance that no earlier one had claimed. `finalize_redirects` states the links of the report, for
any function from shapes to fingerprints.
-/

namespace CoreUtils.Reporter.NetworkBuilder

variable {φ : Type}

/-! ## The walk -/

/-- The URL that an instance redirects to. An empty one counts as none. -/
def wantedUrl (redirects : OrderedMap InstanceId String) (i : InstanceId) : Option String :=
  (redirects.get i).filter (· ≠ "")

/-- The target of the link from an instance. -/
def linkTo (instances : OrderedMap InstanceId NetworkInstance) (i : InstanceId) :
    Option InstanceId :=
  (instances.get i).bind (·.redirectToId)

/-- The source of the link to an instance. -/
def linkFrom (instances : OrderedMap InstanceId NetworkInstance) (i : InstanceId) :
    Option InstanceId :=
  (instances.get i).bind (·.redirectFromId)

/-- Whether an instance has a URL, and none of some other instances links to it. -/
def isUnclaimed (original after : OrderedMap InstanceId NetworkInstance) (before : List InstanceId)
    (url : String) (candidate : InstanceId) : Bool :=
  (original.get candidate).any (·.url == url) &&
    before.all fun i ↦ linkTo after i != some candidate

/-- The links when the walk has passed some instances and the others are to come. -/
structure Walked (redirects : OrderedMap InstanceId String)
    (original : OrderedMap InstanceId NetworkInstance) (passed rest : List InstanceId)
    (after : OrderedMap InstanceId NetworkInstance) : Prop where
  annotated : Annotated original after
  inverse : ∀ i j, linkTo after i = some j ↔ linkFrom after j = some i
  pending : ∀ i, i ∉ passed → linkTo after i = none
  greedy : ∀ before i later, passed = before ++ i :: later →
    linkTo after i = (wantedUrl redirects i).bind fun url ↦
      (later ++ rest).find? (isUnclaimed original after before url)

variable {redirects : OrderedMap InstanceId String}
  {original after : OrderedMap InstanceId NetworkInstance} {passed rest later : List InstanceId}
  {i : InstanceId}

/-- Annotating does not change which instances there are, nor their URLs. -/
theorem Annotated.any_url (h : Annotated original after) (j : InstanceId) (url : String) :
    (after.get j).any (·.url == url) = (original.get j).any (·.url == url) := by
  cases hafter : after.get j with
  | some inst =>
      obtain ⟨stored, hstored, hinst⟩ := h.records hafter
      rw [hstored, Option.any_some, Option.any_some, hinst]
  | none =>
      cases horiginal : original.get j with
      | none => rfl
      | some stored =>
          have hkey : j ∈ after.keys := by
            rw [h.keys]
            exact OrderedMap.mem_keys.mpr ⟨stored, horiginal⟩
          obtain ⟨inst, hinst⟩ := OrderedMap.mem_keys.mp hkey
          rw [hafter] at hinst
          contradiction

/-- The test of the walk is that for being unclaimed. -/
theorem Walked.isRedirectTarget_eq (h : Walked redirects original passed rest after)
    (url : String) (j : InstanceId) :
    isRedirectTarget after url j = isUnclaimed original after passed url j := by
  have hfrom : (∀ i ∈ passed, linkTo after i ≠ some j) ↔ linkFrom after j = none := by
    constructor
    · intro hunclaimed
      refine Option.eq_none_iff_forall_ne_some.mpr fun i hi ↦ ?_
      have hto := (h.inverse i j).mpr hi
      by_cases hpassed : i ∈ passed
      · exact hunclaimed i hpassed hto
      · rw [h.pending i hpassed] at hto
        contradiction
    · intro hnone i _ hto
      rw [(h.inverse i j).mp hto] at hnone
      contradiction
  have hall : passed.all (fun i ↦ linkTo after i != some j) = (linkFrom after j).isNone := by
    rw [Bool.eq_iff_iff, List.all_eq_true, Option.isNone_iff_eq_none, ← hfrom]
    simp
  unfold isUnclaimed isRedirectTarget
  rw [← h.annotated.any_url, hall]
  unfold linkFrom
  cases after.get j <;> rfl

/-- Linking two instances changes the links from the one and to the other. -/
theorem link_modify {target : InstanceId} (hne : i ≠ target) {source sink : NetworkInstance}
    (hsource : after.get i = some source) (hsink : after.get target = some sink) :
    let linked := (after.modify i fun inst ↦ { inst with redirectToId := some target }).modify
      target fun inst ↦ { inst with redirectFromId := some i }
    (∀ j, linkTo linked j = if j = i then some target else linkTo after j) ∧
      ∀ j, linkFrom linked j = if j = target then some i else linkFrom after j := by
  intro linked
  constructor
  · intro j
    by_cases hj : j = i
    · subst hj
      simp [linked, linkTo, hne, hsource]
    · by_cases hj' : j = target
      · subst hj'
        simp [linked, linkTo, hj, hsink]
      · simp [linked, linkTo, hj, hj']
  · intro j
    by_cases hj : j = target
    · subst hj
      simp [linked, linkFrom, hne.symm, hsink]
    · by_cases hj' : j = i
      · subst hj'
        simp [linked, linkFrom, hne, hsource]
      · simp [linked, linkFrom, hj, hj']

/-- A step that links nothing. -/
theorem Walked.skip (h : Walked redirects original passed (i :: later) after)
    (hnone : ((wantedUrl redirects i).bind fun url ↦
      later.find? (isUnclaimed original after passed url)) = none) (hi : i ∉ passed) :
    Walked redirects original (passed ++ [i]) later after where
  annotated := h.annotated
  inverse := h.inverse
  pending j hj := h.pending j fun hmem ↦ hj (List.mem_append_left [i] hmem)
  greedy before j others hsplit := by
    rcases Text.concat_eq_append_cons.mp hsplit with ⟨rfl, rfl, rfl⟩ | ⟨others, rfl, rfl⟩
    · rw [h.pending j hi, List.nil_append, hnone]
    · rw [h.greedy before j others rfl, List.append_assoc]
      rfl

/-- A step that links an instance to a target. -/
theorem Walked.link (h : Walked redirects original passed (i :: later) after)
    (hnodup : (passed ++ i :: later).Nodup) {url : String} {target : InstanceId}
    (hurl : wantedUrl redirects i = some url)
    (hfound : later.find? (isUnclaimed original after passed url) = some target)
    (hpresent : ∀ j ∈ i :: later, (original.get j).isSome) :
    Walked redirects original (passed ++ [i]) later
      ((after.modify i fun inst ↦ { inst with redirectToId := some target }).modify target
        fun inst ↦ { inst with redirectFromId := some i }) := by
  have hmem := List.mem_of_find?_eq_some hfound
  obtain ⟨-, hcons, hdisjoint⟩ := List.nodup_append.mp hnodup
  have hi : i ∉ passed := fun hpassed ↦ hdisjoint i hpassed i List.mem_cons_self rfl
  have hne : i ≠ target := by
    rintro rfl
    exact (List.nodup_cons.mp hcons).1 hmem
  have hpresent' : ∀ j ∈ i :: later, ∃ inst, after.get j = some inst := by
    intro j hj
    refine OrderedMap.mem_keys.mp ?_
    rw [h.annotated.keys]
    exact OrderedMap.mem_keys.mpr (Option.isSome_iff_exists.mp (hpresent j hj))
  obtain ⟨source, hsource⟩ := hpresent' i List.mem_cons_self
  obtain ⟨sink, hsink⟩ := hpresent' target (List.mem_cons_of_mem i hmem)
  obtain ⟨hto, hfrom⟩ := link_modify hne hsource hsink
  -- nobody has claimed the target
  have hunclaimed : linkFrom after target = none := by
    have htest := List.find?_some hfound
    rw [← h.isRedirectTarget_eq] at htest
    simp only [isRedirectTarget, hsink, Option.any_some, Bool.and_eq_true,
      Option.isNone_iff_eq_none] at htest
    simp [linkFrom, hsink, htest.2]
  have hbefore : ∀ before, (∀ j ∈ before, j ∈ passed) → ∀ url',
      isUnclaimed original ((after.modify i fun inst ↦ { inst with redirectToId := some target
        }).modify target fun inst ↦ { inst with redirectFromId := some i }) before url' =
        isUnclaimed original after before url' := by
    intro before hbefore url'
    funext candidate
    unfold isUnclaimed
    refine congrArg _ ?_
    rw [Bool.eq_iff_iff, List.all_eq_true, List.all_eq_true]
    refine forall₂_congr fun j hj ↦ ?_
    have hj' : j ≠ i := fun hsame ↦ hi (hsame ▸ hbefore j hj)
    rw [hto, if_neg hj']
  constructor
  case annotated =>
    refine (h.annotated.modify i ?_ fun _ ↦ .inl rfl).modify target ?_ fun _ ↦ .inr rfl
    · exact hpresent target (List.mem_cons_of_mem i hmem)
    · exact hpresent i List.mem_cons_self
  case inverse =>
    intro j k
    rw [hto, hfrom]
    by_cases hj : j = i
    · subst hj
      by_cases hk : k = target
      · simp [hk]
      · have hnone : linkFrom after k ≠ some j := by
          rw [Ne, ← h.inverse, h.pending j hi]
          simp
        simp [hk, Ne.symm hk, hnone]
    · by_cases hk : k = target
      · subst hk
        have hnone : linkTo after j ≠ some k := by
          rw [Ne, h.inverse, hunclaimed]
          simp
        simp [hj, Ne.symm hj, hnone]
      · simp [hj, hk, h.inverse]
  case pending =>
    intro j hj
    simp only [List.mem_append, List.mem_singleton, not_or] at hj
    rw [hto, if_neg hj.2]
    exact h.pending j hj.1
  case greedy =>
    intro before j others hsplit
    rcases Text.concat_eq_append_cons.mp hsplit with ⟨rfl, rfl, rfl⟩ | ⟨others, rfl, rfl⟩
    · rw [hto, if_pos rfl, hurl, Option.bind_some, hbefore before fun _ h ↦ h, List.nil_append,
        hfound]
    · have hj : j ≠ i := by
        rintro rfl
        exact hi (by simp)
      rw [hto, if_neg hj, h.greedy before j others rfl, List.append_assoc]
      refine congrArg _ (funext fun url' ↦ ?_)
      rw [hbefore before fun k hk ↦ List.mem_append_left _ hk]
      rfl

/-- One step of the walk. -/
theorem Walked.step (h : Walked redirects original passed (i :: later) after)
    (hnodup : (passed ++ i :: later).Nodup)
    (hpresent : ∀ j ∈ i :: later, (original.get j).isSome) :
    Walked redirects original (passed ++ [i]) later (annotateRedirect redirects i later after) := by
  have hi : i ∉ passed := fun hpassed ↦
    (List.nodup_append.mp hnodup).2.2 i hpassed i List.mem_cons_self rfl
  unfold annotateRedirect
  split
  · rename_i hredirect
    exact h.skip (by simp [wantedUrl, hredirect]) hi
  · rename_i url hredirect
    split
    · rename_i hempty
      exact h.skip (by simp [wantedUrl, hredirect, hempty]) hi
    · rename_i hurl
      have hwanted : wantedUrl redirects i = some url := by
        simp [wantedUrl, hredirect, Option.filter_some, hurl]
      have hsame : isRedirectTarget after url = isUnclaimed original after passed url :=
        funext fun j ↦ h.isRedirectTarget_eq url j
      rw [hsame]
      split
      · rename_i hfound
        exact h.skip (by rw [hwanted, Option.bind_some, hfound]) hi
      · rename_i target hfound
        exact h.link hnodup hwanted hfound hpresent

/-- The whole walk. -/
theorem Walked.run (h : Walked redirects original passed rest after)
    (hnodup : (passed ++ rest).Nodup) (hpresent : ∀ j ∈ rest, (original.get j).isSome) :
    Walked redirects original (passed ++ rest) [] (annotateRedirectsFrom redirects rest after) := by
  induction rest generalizing passed after with
  | nil =>
      rw [List.append_nil]
      exact h
  | cons i later ih =>
      have hconcat : passed ++ i :: later = passed ++ [i] ++ later := by simp
      rw [hconcat] at hnodup ⊢
      refine ih (h.step (by rw [hconcat]; exact hnodup) hpresent) hnodup fun j hj ↦ ?_
      exact hpresent j (List.mem_cons_of_mem i hj)

/-! ## The report -/

/-- Whether an instance comes before another one: by the offset, a missing one last, and then by the
order of admission, in which instances are numbered. -/
def Earlier (a b : NetworkInstance) : Prop :=
  offsetOrInfinity a.offsetMs < offsetOrInfinity b.offsetMs ∨
    offsetOrInfinity a.offsetMs = offsetOrInfinity b.offsetMs ∧ a.id.counter < b.id.counter

/-- The links among the instances of a report, given the URLs that they redirect to. -/
structure RedirectsLinked (redirects : OrderedMap InstanceId String)
    (instances : List NetworkInstance) : Prop where
  ids : (instances.map (·.id)).Nodup
  ordered : instances.Pairwise Earlier
  inverse : ∀ a ∈ instances, ∀ b ∈ instances,
    a.redirectToId = some b.id ↔ b.redirectFromId = some a.id
  resolved : ∀ a ∈ instances, ∀ j, a.redirectToId = some j ∨ a.redirectFromId = some j →
    ∃ b ∈ instances, b.id = j
  injective : ∀ a ∈ instances, ∀ b ∈ instances, ∀ j,
    (a.redirectToId = some j ∧ b.redirectToId = some j) ∨
      (a.redirectFromId = some j ∧ b.redirectFromId = some j) → a = b
  forward : ∀ a ∈ instances, ∀ b ∈ instances, a.redirectToId = some b.id →
    Earlier a b ∧ redirects.get a.id = some b.url
  greedy : ∀ before a later, instances = before ++ a :: later →
    a.redirectToId = (wantedUrl redirects a.id).bind fun url ↦
      (later.find? fun b ↦
        b.url == url && before.all fun c ↦ c.redirectToId != some b.id).map (·.id)
  finite : ∀ chain : List NetworkInstance, (∀ a ∈ chain, a ∈ instances) →
    (chain.IsChain fun a b ↦ a.redirectToId = some b.id) → chain.length ≤ instances.length

/-- Coming before is transitive. -/
theorem Earlier.trans {a b c : NetworkInstance} (h : Earlier a b) (h' : Earlier b c) :
    Earlier a c := by
  unfold Earlier at *
  rcases h with h | ⟨h, hcounter⟩
  · rcases h' with h' | ⟨h', -⟩
    · exact .inl (h.trans h')
    · exact .inl (h' ▸ h)
  · rcases h' with h' | ⟨h', hcounter'⟩
    · exact .inl (h ▸ h')
    · exact .inr ⟨h.trans h', hcounter.trans hcounter'⟩

/-- Nothing comes before itself. -/
theorem not_earlier_self (a : NetworkInstance) : ¬Earlier a a := by
  rintro (h | ⟨-, h⟩)
  · exact lt_irrefl _ h
  · exact Nat.lt_irrefl _ h

/-- A chain in an order is not longer than the list that its elements are from. -/
theorem length_le_of_chain {instances chain : List NetworkInstance}
    (hmem : ∀ a ∈ chain, a ∈ instances) (hchain : chain.IsChain Earlier) :
    chain.length ≤ instances.length := by
  have htrans : IsTrans NetworkInstance Earlier := ⟨fun _ _ _ ↦ Earlier.trans⟩
  have hpairwise : chain.Pairwise Earlier := List.isChain_iff_pairwise.mp hchain
  have hnodup : chain.Nodup := hpairwise.imp fun {a b} (h : Earlier a b) (hsame : a = b) ↦
    not_earlier_self b (hsame ▸ h)
  exact (List.subperm_of_subset hnodup hmem).length_le

variable {b : NetworkBuilder φ} {created : InstanceId → NetworkObservation → Prop} {next : ℕ}

/-- The walk over the instances of a builder. -/
theorem Originated.walked (h : Originated created next b) :
    Walked b.instanceRedirectToUrl b.sortInstances.instancesById b.sortInstances.instancesById.keys
      [] b.sortInstances.annotateRedirects.instancesById := by
  have hunlinked : ∀ i, linkTo b.sortInstances.instancesById i = none ∧
      linkFrom b.sortInstances.instancesById i = none := by
    intro i
    unfold linkTo linkFrom sortInstances
    simp only [OrderedMap.get_sortBy]
    cases hi : b.instancesById.get i with
    | none => exact ⟨rfl, rfl⟩
    | some inst =>
        obtain ⟨observation, -, hinst, -⟩ := h.origin hi
        rw [hinst]
        exact ⟨rfl, rfl⟩
  have hstart : Walked b.instanceRedirectToUrl b.sortInstances.instancesById []
      b.sortInstances.instancesById.keys b.sortInstances.instancesById := by
    refine ⟨⟨rfl, fun {i inst} hi ↦ ⟨inst, hi, rfl⟩, ?_⟩, ?_, fun i _ ↦ (hunlinked i).1, ?_⟩
    · intro i inst j hi hj
      have hto := (hunlinked i).1
      have hfrom := (hunlinked i).2
      simp only [linkTo, linkFrom, hi, Option.bind_some] at hto hfrom
      rw [hto, hfrom] at hj
      exact absurd hj (by simp)
    · intro i j
      rw [(hunlinked i).1, (hunlinked j).2]
      simp
    · intro before i later hsplit
      exact absurd hsplit (by simp)
  refine hstart.run ?_ fun j hj ↦ ?_
  · rw [List.nil_append]
    exact b.sortInstances.instancesById.nodup
  · obtain ⟨inst, hinst⟩ := OrderedMap.mem_keys.mp hj
    rw [hinst]
    rfl

/-- The order of the report is total. -/
theorem precedes_total (sequences : OrderedMap InstanceId ℕ)
    (x y : InstanceId × NetworkInstance) : precedes sequences x y ∨ precedes sequences y x := by
  unfold precedes
  by_cases h : offsetOrInfinity x.2.offsetMs = offsetOrInfinity y.2.offsetMs
  · rw [if_neg (not_not.mpr h), if_neg (not_not.mpr h.symm)]
    exact Nat.le_total _ _
  · rw [if_pos h, if_pos (Ne.symm h)]
    exact lt_or_gt_of_ne h

/-- The order of the report is transitive. -/
theorem precedes_trans (sequences : OrderedMap InstanceId ℕ)
    {x y z : InstanceId × NetworkInstance} (h : precedes sequences x y)
    (h' : precedes sequences y z) : precedes sequences x z := by
  unfold precedes at *
  split at h
  · split at h'
    · rw [if_pos (h.trans h').ne]
      exact h.trans h'
    · rename_i hsame
      rw [← not_not.mp hsame, if_pos h.ne]
      exact h
  · rename_i hsame
    rw [not_not.mp hsame]
    split at h'
    · rw [if_pos h'.ne]
      exact h'
    · rename_i hsame'
      rw [if_neg hsame']
      exact h.trans h'

/-- The instances of the report, under their identifiers. -/
theorem Originated.entry (h : Originated created next b) {i : InstanceId} {inst : NetworkInstance}
    (hi : b.sortInstances.annotateRedirects.instancesById.get i = some inst) :
    inst.id = i ∧ b.instanceSequenceById.get i = some (i.counter + 1) ∧ ∃ original,
      b.instancesById.get i = some original ∧ original.offsetMs = inst.offsetMs := by
  obtain ⟨original, horiginal, hinst⟩ := h.walked.annotated.records hi
  have hstored : b.instancesById.get i = some original := by
    simpa [sortInstances] using horiginal
  obtain ⟨observation, -, hrecord, hsequence, -⟩ := h.origin hstored
  refine ⟨?_, hsequence, original, hstored, by rw [hinst]⟩
  rw [hinst, hrecord]
  rfl

/-- The instances of the report are in order. -/
theorem Originated.pairwise_earlier (h : Originated created next b) :
    b.sortInstances.annotateRedirects.instancesById.values.Pairwise Earlier := by
  have htotal : Std.Total (precedes b.instanceSequenceById) := ⟨precedes_total _⟩
  have htrans : IsTrans _ (precedes b.instanceSequenceById) := ⟨fun _ _ _ ↦ precedes_trans _⟩
  have hsorted : b.sortInstances.instancesById.entries.Pairwise (precedes b.instanceSequenceById) :=
    List.pairwise_insertionSort _ _
  have hdistinct := List.pairwise_map.mp b.sortInstances.instancesById.nodup
  -- in terms of identifiers, the annotated instances are in the same order as the sorted ones
  have hkeys : b.sortInstances.annotateRedirects.instancesById.keys.Pairwise fun i j ↦
      ∀ x y, b.sortInstances.annotateRedirects.instancesById.get i = some x →
        b.sortInstances.annotateRedirects.instancesById.get j = some y → Earlier x y := by
    rw [h.walked.annotated.keys]
    refine List.pairwise_map.mpr ((hsorted.and hdistinct).imp_of_mem ?_)
    rintro ⟨i, x⟩ ⟨j, y⟩ hx hy ⟨hprecedes, hne⟩ x' y' hx' hy'
    obtain ⟨hxid, hxseq, original, hxstored, hxoffset⟩ := h.entry hx'
    obtain ⟨hyid, hyseq, original', hystored, hyoffset⟩ := h.entry hy'
    have hxget : b.instancesById.get i = some x := by
      simpa [sortInstances] using OrderedMap.mem_entries.mp hx
    have hyget : b.instancesById.get j = some y := by
      simpa [sortInstances] using OrderedMap.mem_entries.mp hy
    obtain rfl := Option.some.inj (hxstored.symm.trans hxget)
    obtain rfl := Option.some.inj (hystored.symm.trans hyget)
    simp only [precedes, hxoffset, hyoffset, hxseq, hyseq, Option.getD_some] at hprecedes
    unfold Earlier
    split at hprecedes
    · exact .inl hprecedes
    · rename_i hsame
      refine .inr ⟨not_not.mp hsame, ?_⟩
      have hcounter : i.counter ≠ j.counter := by
        intro hcounter
        exact hne (by cases i; cases j; simp_all)
      have hle : i.counter + 1 ≤ j.counter + 1 := hprecedes
      rw [hxid, hyid]
      show i.counter < j.counter
      omega
  refine List.pairwise_map.mpr ((List.pairwise_map.mp hkeys).imp_of_mem ?_)
  rintro ⟨i, x⟩ ⟨j, y⟩ hx hy hearlier
  exact hearlier x y (OrderedMap.mem_entries.mp hx) (OrderedMap.mem_entries.mp hy)

/-! ## The links of the report -/

section

variable {final : OrderedMap InstanceId NetworkInstance} {keys : List InstanceId}
  {a c : NetworkInstance} (hid : ∀ {i inst}, final.get i = some inst → inst.id = i)
include hid

/-- The links of an instance are its fields. -/
theorem links_of_mem_values (ha : a ∈ final.values) :
    linkTo final a.id = a.redirectToId ∧ linkFrom final a.id = a.redirectFromId := by
  rw [linkTo, linkFrom, OrderedMap.get_of_mem_values hid ha]
  exact ⟨rfl, rfl⟩

/-- The two links of a pair are inverse to each other. -/
theorem Walked.inverse_values (h : Walked redirects original keys [] final)
    (ha : a ∈ final.values) (hc : c ∈ final.values) :
    a.redirectToId = some c.id ↔ c.redirectFromId = some a.id := by
  rw [← (links_of_mem_values hid ha).1, ← (links_of_mem_values hid hc).2]
  exact h.inverse a.id c.id

/-- A link leads to an instance. -/
theorem Walked.resolved_values (h : Walked redirects original keys [] final)
    (ha : a ∈ final.values) {j : InstanceId}
    (hj : a.redirectToId = some j ∨ a.redirectFromId = some j) :
    ∃ c ∈ final.values, c.id = j := by
  have hpresent := h.annotated.resolved (OrderedMap.get_of_mem_values hid ha) hj.symm
  have hkey : j ∈ final.values.map (·.id) := by
    rw [OrderedMap.map_values hid, h.annotated.keys]
    exact OrderedMap.mem_keys.mpr (Option.isSome_iff_exists.mp hpresent)
  exact List.mem_map.mp hkey

/-- What a redirecting instance is linked to: the first later one with the URL that nothing before
it has claimed. -/
theorem Walked.greedy_values (h : Walked redirects original original.keys [] final)
    {before later : List NetworkInstance} (hsplit : final.values = before ++ a :: later) :
    a.redirectToId = (wantedUrl redirects a.id).bind fun url ↦
      (later.find? fun c ↦
        c.url == url && before.all fun d ↦ d.redirectToId != some c.id).map (·.id) := by
  have hmem : ∀ c, c ∈ before ∨ c = a ∨ c ∈ later → c ∈ final.values := by
    intro c hc
    rw [hsplit]
    simpa using hc
  have hkeys : original.keys = before.map (·.id) ++ a.id :: later.map (·.id) := by
    rw [← h.annotated.keys, ← OrderedMap.map_values hid, hsplit, List.map_append, List.map_cons]
  have hlink := (links_of_mem_values hid (hmem a (.inr (.inl rfl)))).1
  rw [← hlink, h.greedy _ _ _ hkeys, List.append_nil]
  refine congrArg _ (funext fun url ↦ ?_)
  rw [List.find?_map]
  refine congrArg _ (List.find?_congr fun c hc ↦ ?_)
  have hget := OrderedMap.get_of_mem_values hid (hmem c (.inr (.inr hc)))
  simp only [Function.comp_apply, isUnclaimed, ← h.annotated.any_url, hget, Option.any_some,
    List.all_map]
  refine congrArg _ ?_
  rw [Bool.eq_iff_iff, List.all_eq_true, List.all_eq_true]
  refine forall₂_congr fun d hd ↦ ?_
  rw [Function.comp_apply, (links_of_mem_values hid (hmem d (.inl hd))).1]

/-- A link leads to a later instance with the URL that was redirected to. -/
theorem Walked.forward_values (h : Walked redirects original original.keys [] final)
    (hordered : final.values.Pairwise Earlier) (ha : a ∈ final.values) (hc : c ∈ final.values)
    (hlink : a.redirectToId = some c.id) :
    Earlier a c ∧ redirects.get a.id = some c.url := by
  obtain ⟨before, later, hsplit⟩ := List.append_of_mem ha
  rw [h.greedy_values hid hsplit] at hlink
  obtain ⟨url, hurl, hfound⟩ := Option.bind_eq_some_iff.mp hlink
  obtain ⟨target, htarget, htargetId⟩ := Option.map_eq_some_iff.mp hfound
  have hlater := List.mem_of_find?_eq_some htarget
  have hmem : target ∈ final.values := by
    rw [hsplit]
    simp [hlater]
  obtain rfl := OrderedMap.eq_of_mem_values hid hmem hc htargetId
  have htest := List.find?_some htarget
  rw [Bool.and_eq_true, beq_iff_eq] at htest
  rw [hsplit] at hordered
  have hearlier := List.rel_of_pairwise_cons (List.pairwise_append.mp hordered).2.1 hlater
  exact ⟨hearlier, by rw [htest.1]; exact (Option.filter_eq_some_iff.mp hurl).1⟩

/-- Two instances with the same link are the same. -/
theorem Walked.injective_values (h : Walked redirects original keys [] final)
    (ha : a ∈ final.values) (hc : c ∈ final.values) {j : InstanceId}
    (hj : (a.redirectToId = some j ∧ c.redirectToId = some j) ∨
      (a.redirectFromId = some j ∧ c.redirectFromId = some j)) : a = c := by
  rcases hj with ⟨hja, hjc⟩ | ⟨hja, hjc⟩
  · obtain ⟨d, hd, rfl⟩ := h.resolved_values hid ha (.inl hja)
    have hda := (h.inverse_values hid ha hd).mp hja
    rw [(h.inverse_values hid hc hd).mp hjc] at hda
    exact (OrderedMap.eq_of_mem_values hid hc ha (Option.some.inj hda)).symm
  · obtain ⟨d, hd, rfl⟩ := h.resolved_values hid ha (.inr hja)
    have hda := (h.inverse_values hid hd ha).mpr hja
    rw [(h.inverse_values hid hd hc).mpr hjc] at hda
    exact (OrderedMap.eq_of_mem_values hid hc ha (Option.some.inj hda)).symm

end

/-- The instances of the report are linked. -/
theorem Originated.redirectsLinked (h : Originated created next b) :
    RedirectsLinked b.instanceRedirectToUrl
      b.sortInstances.annotateRedirects.instancesById.values := by
  have hwalked := h.walked
  have hordered := h.pairwise_earlier
  set final := b.sortInstances.annotateRedirects.instancesById
  have hid : ∀ {i inst}, final.get i = some inst → inst.id = i := fun hi ↦ (h.entry hi).1
  constructor
  case ids =>
    rw [OrderedMap.map_values hid]
    exact final.nodup
  case ordered => exact hordered
  case inverse => exact fun a ha c hc ↦ hwalked.inverse_values hid ha hc
  case resolved => exact fun a ha j ↦ hwalked.resolved_values hid ha
  case injective => exact fun a ha c hc j ↦ hwalked.injective_values hid ha hc
  case forward => exact fun a ha c hc ↦ hwalked.forward_values hid hordered ha hc
  case greedy => exact fun before a later ↦ hwalked.greedy_values hid
  case finite =>
    intro chain hchain hlinks
    refine length_le_of_chain hchain (hlinks.imp_of_mem_imp fun a c ha hc hlink ↦ ?_)
    exact (hwalked.forward_values hid hordered (hchain a ha) (hchain c hc) hlink).1

variable [DecidableEq φ]

/-- A report that is returned is the one that the builder describes. -/
theorem eq_reportOf {report : NetworkReport φ} (h : b.finalize = .ok report) :
    report = reportOf b := by
  unfold finalize at h
  cases hassert : b.sortInstances.annotateRedirects.summarize.assertInvariants with
  | error message => simp [hassert] at h
  | ok value =>
      simp only [hassert] at h
      exact (Except.ok.inj h).symm

/-- The redirect links of a report after any observations, and the observations that its instances
were made of. -/
theorem finalize_redirects (hashShape : NetworkObservationShape → φ)
    (observations : List NetworkObservation) {report : NetworkReport φ}
    (h : (admitAll hashShape observations).finalize = .ok report) :
    RedirectsLinked (admitAll hashShape observations).instanceRedirectToUrl report.instances ∧
      ∀ a ∈ report.instances, ∃ observation, CreatedBy hashShape observations a.id observation ∧
        a.url = observation.shape.url ∧ a.offsetMs = observation.instance_.offsetMs ∧
        (admitAll hashShape observations).instanceRedirectToUrl.get a.id =
          observation.instance_.redirectToUrl := by
  have horiginated := originated_admitAll hashShape observations
  obtain rfl := eq_reportOf h
  refine ⟨horiginated.redirectsLinked, fun a ha ↦ ?_⟩
  obtain ⟨i, hi⟩ := OrderedMap.mem_values.mp ha
  obtain ⟨original, horiginal, hinst⟩ := horiginated.walked.annotated.records hi
  have hstored : (admitAll hashShape observations).instancesById.get i = some original := by
    simpa [sortInstances] using horiginal
  obtain ⟨observation, hcreated, hrecord, -, hredirect⟩ := horiginated.origin hstored
  have hid := (horiginated.entry hi).1
  refine ⟨observation, by rw [hid]; exact hcreated, ?_, ?_, by rw [hid]; exact hredirect⟩
  · rw [hinst, hrecord]
    rfl
  · rw [hinst, hrecord]
    rfl

/-- A request that redirects, and the one that it leads to. -/
def redirectedObservations : List NetworkObservation :=
  [⟨⟨"GET", "https://example.com/old", 302, some "document", none, none⟩,
      ⟨some 10, none, none, none, none, none, none, some "https://example.com/new"⟩, none, none⟩,
    ⟨⟨"GET", "https://example.com/new", 200, some "document", none, none⟩,
      ⟨some 20, none, none, none, none, none, none, none⟩, none, none⟩]

/-- The report of the two requests, where the first one is linked to the second one. -/
theorem finalize_redirects_two : ∃ report,
    (admitAll id redirectedObservations).finalize = .ok report ∧
      RedirectsLinked (admitAll id redirectedObservations).instanceRedirectToUrl report.instances ∧
      report.instances.map (·.redirectToId) = [some ⟨1⟩, none] := by
  obtain ⟨report, hreport, -⟩ :=
    finalize_spec (admitAll_invariant Function.injective_id redirectedObservations)
  refine ⟨report, hreport, (finalize_redirects id redirectedObservations hreport).1, ?_⟩
  rw [eq_reportOf hreport]
  decide +kernel

end CoreUtils.Reporter.NetworkBuilder
