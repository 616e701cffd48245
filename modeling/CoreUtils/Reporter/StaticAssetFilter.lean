import CoreUtils.Reporter.NetworkOrigin
import Mathlib.Tactic.NormNum

/-!
# The static-asset filter and the lowest tier

`isLowSignalStaticAsset` and `priorityScore` are written independently of each other.
`isLowSignalStaticAsset_iff` and `priorityScore_eq_one_iff` bring both to the same four fields:
the filter drops whatever has the lowest tier, and besides it the static assets that were never
answered, which carry the status -1 and rank as aborted.
-/

namespace CoreUtils.Reporter

/-- A static asset that reports neither a failure text nor an abort. -/
structure PriorityShape.IsQuietStaticAsset (shape : PriorityShape) : Prop where
  resourceType : ∃ resourceType ∈ LOW_SIGNAL_RESOURCE_TYPES, shape.resourceType = some resourceType
  failureText : shape.failureText = none
  wasAborted : shape.wasAborted ≠ some true

/-- A static asset without a response: the status is -1, and nothing else reports the failure. -/
structure PriorityShape.IsUnansweredStaticAsset (shape : PriorityShape) : Prop
    extends shape.IsQuietStaticAsset where
  status : shape.status = -1

variable {shape : PriorityShape}

/-- What the filter drops. -/
theorem isLowSignalStaticAsset_iff :
    isLowSignalStaticAsset shape = true ↔ shape.IsQuietStaticAsset ∧ shape.status < 400 := by
  constructor
  · intro hlow
    simp only [isLowSignalStaticAsset, Bool.and_eq_true, Option.any_eq_true, decide_eq_true_eq,
      Option.isNone_iff_eq_none, bne_iff_ne] at hlow
    obtain ⟨⟨⟨⟨resourceType, htype, hmem⟩, hstatus⟩, hfailure⟩, habort⟩ := hlow
    exact ⟨⟨⟨resourceType, hmem, htype⟩, hfailure, habort⟩, hstatus⟩
  · rintro ⟨⟨⟨resourceType, hmem, htype⟩, hfailure, habort⟩, hstatus⟩
    simp [isLowSignalStaticAsset, htype, hmem, hfailure, habort, hstatus]

/-- A static asset is no API call. -/
theorem ne_api_of_mem_lowSignal {resourceType : String}
    (hmem : resourceType ∈ LOW_SIGNAL_RESOURCE_TYPES) :
    resourceType ≠ "xhr" ∧ resourceType ≠ "fetch" := by
  constructor
  · rintro rfl
    simp [LOW_SIGNAL_RESOURCE_TYPES] at hmem
  · rintro rfl
    simp [LOW_SIGNAL_RESOURCE_TYPES] at hmem

/-- The tier of a quiet static asset below the statuses of failures depends on its status only. -/
theorem priorityScore_of_quiet (h : shape.IsQuietStaticAsset) (hstatus : shape.status < 400) :
    priorityScore shape = if shape.status = -1 then 4 else 1 := by
  obtain ⟨⟨resourceType, hmem, htype⟩, hfailure, habort⟩ := h
  have hserver : ¬shape.status ≥ 500 := not_le.mpr (hstatus.trans (by norm_num))
  obtain ⟨hxhr, hfetch⟩ := ne_api_of_mem_lowSignal hmem
  simp [priorityScore, hserver, hfailure, not_le.mpr hstatus, htype, hxhr, hfetch,
    isAbortFailureText, habort, hmem]

/-- What has the lowest tier. -/
theorem priorityScore_eq_one_iff :
    priorityScore shape = 1 ↔
      shape.IsQuietStaticAsset ∧ shape.status < 400 ∧ shape.status ≠ -1 := by
  constructor
  · intro hscore
    unfold priorityScore at hscore
    split at hscore
    · contradiction
    split at hscore
    · contradiction
    rename_i hfailed
    split at hscore
    · contradiction
    rename_i hclient
    split at hscore
    · contradiction
    split at hscore
    · contradiction
    rename_i haborted
    obtain ⟨htext, hstatus, habort⟩ : isAbortFailureText shape.failureText ≠ true ∧
        shape.status ≠ -1 ∧ shape.wasAborted ≠ some true := by
      simpa only [not_or] using haborted
    -- a failure text of either kind has been ranked by now
    have hfailure : shape.failureText = none := by
      simpa [htext] using hfailed
    split at hscore
    · contradiction
    rename_i resourceType htype
    have hmem : resourceType ∈ LOW_SIGNAL_RESOURCE_TYPES := by
      by_contra hother
      simp [hother] at hscore
    exact ⟨⟨⟨resourceType, hmem, htype⟩, hfailure, habort⟩, not_le.mp hclient, hstatus⟩
  · rintro ⟨hquiet, hstatus, hanswered⟩
    rw [priorityScore_of_quiet hquiet hstatus, if_neg hanswered]

/-- The filter drops the lowest tier and the unanswered static assets. -/
theorem isLowSignalStaticAsset_iff_priorityScore :
    isLowSignalStaticAsset shape = true ↔
      priorityScore shape = 1 ∨ shape.IsUnansweredStaticAsset := by
  rw [isLowSignalStaticAsset_iff, priorityScore_eq_one_iff]
  constructor
  · rintro ⟨hquiet, hstatus⟩
    by_cases hanswered : shape.status = -1
    · exact .inr ⟨hquiet, hanswered⟩
    · exact .inl ⟨hquiet, hstatus, hanswered⟩
  · rintro (⟨hquiet, hstatus, -⟩ | hunanswered)
    · exact ⟨hquiet, hstatus⟩
    · exact ⟨hunanswered.toIsQuietStaticAsset, by rw [hunanswered.status]; norm_num⟩

/-- An unanswered static asset ranks as aborted. -/
theorem priorityScore_of_unanswered (h : shape.IsUnansweredStaticAsset) :
    priorityScore shape = 4 := by
  have hstatus : shape.status < 400 := by
    rw [h.status]
    norm_num
  rw [priorityScore_of_quiet h.toIsQuietStaticAsset hstatus, if_pos h.status]

/-! ## Runs -/

namespace NetworkBuilder

variable {φ : Type} [DecidableEq φ]

/-- An observation of the lowest tier is counted as dropped by the filter, and changes nothing
else. -/
theorem admitObservation_of_lowest (hashShape : NetworkObservationShape → φ)
    (b : NetworkBuilder φ) {observation : NetworkObservation}
    (h : priorityScore observation.shape.toPriorityShape = 1) :
    b.admitObservation hashShape observation = b.observe.dropByFilter :=
  if_pos (isLowSignalStaticAsset_iff_priorityScore.mpr (.inl h))

/-- What an instance was created for has passed the filter. -/
theorem CreatedBy.isPostFilter {hashShape : NetworkObservationShape → φ}
    {observations : List NetworkObservation} {i : InstanceId} {observation : NetworkObservation}
    (h : CreatedBy hashShape observations i observation) :
    isLowSignalStaticAsset observation.shape.toPriorityShape = false := by
  obtain ⟨before, after, -, hbefore, hafter⟩ := h
  by_contra hlow
  rw [Bool.not_eq_false] at hlow
  rw [admitAll_concat, admitObservation, if_pos hlow] at hafter
  have hkept : (admitAll hashShape before).nextInstanceCounter = i.counter + 1 := hafter
  omega

/-- The filter agrees with the tiers on every shape but those of unanswered static assets. Whatever
state the builder is in, an observation of the lowest tier is dropped by the filter, and no run
creates an instance for one. -/
theorem filter_agrees_iff :
    (∀ shape, (isLowSignalStaticAsset shape = true ↔ priorityScore shape = 1) ↔
      ¬shape.IsUnansweredStaticAsset) ∧
    ∀ (hashShape : NetworkObservationShape → φ),
      (∀ (b : NetworkBuilder φ) (observation : NetworkObservation),
        priorityScore observation.shape.toPriorityShape = 1 →
          b.admitObservation hashShape observation = b.observe.dropByFilter) ∧
      ∀ (observations : List NetworkObservation) (i : InstanceId)
        (observation : NetworkObservation), CreatedBy hashShape observations i observation →
          priorityScore observation.shape.toPriorityShape ≠ 1 := by
  refine ⟨fun shape ↦ ?_, fun hashShape ↦ ⟨fun b observation ↦ ?_, ?_⟩⟩
  · constructor
    · intro hagrees hunanswered
      have hlow := isLowSignalStaticAsset_iff_priorityScore.mpr (.inr hunanswered)
      have hscore := hagrees.mp hlow
      rw [priorityScore_of_unanswered hunanswered] at hscore
      contradiction
    · intro hanswered
      rw [isLowSignalStaticAsset_iff_priorityScore, or_iff_left hanswered]
  · exact b.admitObservation_of_lowest hashShape
  · intro observations i observation hcreated hlowest
    have hlow := isLowSignalStaticAsset_iff_priorityScore.mpr (.inl hlowest)
    rw [hcreated.isPostFilter] at hlow
    contradiction

/-- A script that was never answered is dropped, and ranks as aborted. -/
theorem filter_disagrees :
    ¬∀ shape, isLowSignalStaticAsset shape = true ↔ priorityScore shape = 1 := by
  intro hagrees
  have hscore := (hagrees ⟨-1, some "script", none, none⟩).mp (by decide)
  exact absurd hscore (by decide)

/-- An observation of a document. -/
def documentObservation : NetworkObservation where
  shape := ⟨"GET", "https://example.com/", 200, some "document", none, none⟩
  instance_ := ⟨some 10, none, none, none, none, none, none, none⟩
  requestBody := none
  responseBody := none

/-- A loaded script has the lowest tier and is dropped; a document is retained. -/
theorem filter_agrees_on_script_and_document :
    (isLowSignalStaticAsset ⟨200, some "script", none, none⟩ = true ↔
      priorityScore ⟨200, some "script", none, none⟩ = 1) ∧
    priorityScore documentObservation.shape.toPriorityShape ≠ 1 := by
  have hcreated : CreatedBy (fun _ ↦ ()) [documentObservation] ⟨0⟩ documentObservation :=
    ⟨[], [], rfl, rfl, rfl⟩
  obtain ⟨hagrees, hadmitted⟩ := @filter_agrees_iff Unit _
  exact ⟨(hagrees _).mpr fun h ↦ absurd h.status (by decide),
    (hadmitted _).2 _ _ _ hcreated⟩

end NetworkBuilder

end CoreUtils.Reporter
