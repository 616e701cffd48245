import CoreUtils.Library.HexText
import CoreUtils.Library.LowerCase
import CoreUtils.Library.Text

/-!
# Reading a traceparent

`parseTraceparent` of `traceparent.ts`. Its pattern has four fields of fixed widths, which
`execTraceparentPattern` cuts out of the text. `parse_traceparent_eq_some_iff` says which headers
are accepted.
-/

namespace CoreUtils.Reporter.Trace

open Text HexText LowerCase

/-- Text as its characters. -/
abbrev Text := List Char

/-- The trace id that stands for none. -/
def INVALID_TRACE_ID : Text := "00000000000000000000000000000000".toList

/-- The span id that stands for none. -/
def INVALID_SPAN_ID : Text := "0000000000000000".toList

/-- The groups of `TRACEPARENT_PATTERN`. -/
structure TraceparentGroups where
  version : Text
  traceId : Text
  spanId : Text
  flags : Text
  deriving DecidableEq

/-- What `parseTraceparent` returns. -/
structure TraceparentIds where
  traceId : Text
  spanId : Text
  deriving DecidableEq

/-- Lower-case hexadecimal digits, of a number. -/
def IsHex (width : ℕ) (text : Text) : Prop := text.length = width ∧ text.all isHexDigit = true

/-- Whether a text is such digits can be checked. -/
instance (width : ℕ) (text : Text) : Decidable (IsHex width text) :=
  inferInstanceAs (Decidable (_ ∧ _))

/-- An identifier: digits that are not all zero. -/
def IsIdentifier (width : ℕ) (text : Text) : Prop :=
  IsHex width text ∧ text ≠ List.replicate width '0'

/-- The text of the groups. -/
def TraceparentGroups.text (groups : TraceparentGroups) : Text :=
  groups.version ++ '-' :: (groups.traceId ++ '-' :: (groups.spanId ++ '-' :: groups.flags))

/-- The widths and the digits of the groups. -/
def TraceparentGroups.Matches (groups : TraceparentGroups) : Prop :=
  IsHex 2 groups.version ∧ IsHex 32 groups.traceId ∧ IsHex 16 groups.spanId ∧ IsHex 2 groups.flags

/-- Whether groups match can be checked. -/
instance (groups : TraceparentGroups) : Decidable groups.Matches :=
  inferInstanceAs (Decidable (_ ∧ _ ∧ _ ∧ _))

/-- The parts of a text of the pattern, `TRACEPARENT_PATTERN.exec`. -/
def execTraceparentPattern (text : Text) : Option TraceparentGroups :=
  let groups : TraceparentGroups :=
    { version := text.take 2
      traceId := (text.drop 3).take 32
      spanId := (text.drop 36).take 16
      flags := text.drop 53 }
  if groups.text = text ∧ groups.Matches then some groups else none

/-- The ids of a header. There are none if it has not the pattern, its version is `ff` or one of its
ids stands for none. -/
def parseTraceparent (toLowerCase : Text → Text) (header : Option Text) :
    Option TraceparentIds := do
  let text ← header.filter (· ≠ [])
  let groups ← execTraceparentPattern (toLowerCase (trim isWhiteSpace text))
  if groups.version = "ff".toList ∨ groups.traceId = INVALID_TRACE_ID ∨
      groups.spanId = INVALID_SPAN_ID then
    none
  else return { traceId := groups.traceId, spanId := groups.spanId }

/-- A header that holds a valid traceparent with some identifiers. -/
def IsTraceparent (toLowerCase : Text → Text) (header traceId spanId : Text) : Prop :=
  IsIdentifier 32 traceId ∧ IsIdentifier 16 spanId ∧
    ∃ version flags, IsHex 2 version ∧ version ≠ "ff".toList ∧ IsHex 2 flags ∧
      toLowerCase (trim isWhiteSpace header) =
        TraceparentGroups.text ⟨version, traceId, spanId, flags⟩

/-- A text matches the pattern with the groups that it is made of. -/
theorem exec_traceparent_pattern_eq_some_iff {text : Text} {groups : TraceparentGroups} :
    execTraceparentPattern text = some groups ↔ groups.text = text ∧ groups.Matches := by
  unfold execTraceparentPattern
  constructor
  · intro h
    simp only at h
    split at h
    · rename_i hmatches
      obtain rfl := Option.some.inj h
      exact hmatches
    · contradiction
  · rintro ⟨rfl, hmatches⟩
    obtain ⟨version, traceId, spanId, flags⟩ := groups
    have hmatches' := hmatches
    obtain ⟨⟨hversion, -⟩, ⟨htrace, -⟩, ⟨hspan, -⟩, -⟩ := hmatches'
    simp only at hversion htrace hspan
    -- each group ends where the next one is cut off
    have hversion' : ∀ count, 2 ≤ count → version.drop count = [] :=
      fun count hcount ↦ List.drop_eq_nil_of_le (by omega)
    have htrace' : ∀ count, 32 ≤ count → traceId.drop count = [] :=
      fun count hcount ↦ List.drop_eq_nil_of_le (by omega)
    have hspan' : ∀ count, 16 ≤ count → spanId.drop count = [] :=
      fun count hcount ↦ List.drop_eq_nil_of_le (by omega)
    have hcut : (⟨(TraceparentGroups.text ⟨version, traceId, spanId, flags⟩).take 2,
        ((TraceparentGroups.text ⟨version, traceId, spanId, flags⟩).drop 3).take 32,
        ((TraceparentGroups.text ⟨version, traceId, spanId, flags⟩).drop 36).take 16,
        (TraceparentGroups.text ⟨version, traceId, spanId, flags⟩).drop 53⟩ :
          TraceparentGroups) = ⟨version, traceId, spanId, flags⟩ := by
      simp [TraceparentGroups.text, List.drop_append, hversion, htrace, hspan,
        hversion', htrace', hspan']
    simp only [hcut]
    rw [if_pos]
    exact ⟨trivial, hmatches⟩

/-- The text of zeros, as the code writes it. -/
theorem invalid_ids_eq : INVALID_TRACE_ID = List.replicate 32 '0' ∧
    INVALID_SPAN_ID = List.replicate 16 '0' := by decide

/-- Which headers are accepted, and what is read of them. -/
theorem parse_traceparent_eq_some_iff {toLowerCase : Text → Text}
    (hlower : ∀ text, Lowered text (toLowerCase text)) {header : Option Text}
    {traceId spanId : Text} :
    parseTraceparent toLowerCase header = some ⟨traceId, spanId⟩ ↔
      ∃ text, header = some text ∧ IsTraceparent toLowerCase text traceId spanId := by
  unfold parseTraceparent IsTraceparent IsIdentifier
  rw [invalid_ids_eq.1, invalid_ids_eq.2]
  constructor
  · intro h
    obtain ⟨text, htext, h⟩ := Option.bind_eq_some_iff.mp h
    obtain ⟨groups, hexec, h⟩ := Option.bind_eq_some_iff.mp h
    obtain ⟨hgroups, hversion, htrace, hspan, hflags⟩ :=
      exec_traceparent_pattern_eq_some_iff.mp hexec
    split at h
    · contradiction
    · rename_i hvalid
      obtain ⟨rfl, rfl⟩ := TraceparentIds.mk.inj (Option.some.inj h)
      simp only [not_or] at hvalid
      exact ⟨text, (Option.filter_eq_some_iff.mp htext).1, ⟨htrace, hvalid.2.1⟩,
        ⟨hspan, hvalid.2.2⟩, groups.version, groups.flags, hversion, hvalid.1, hflags,
        hgroups.symm⟩
  · rintro ⟨text, rfl, ⟨htrace, htrace'⟩, ⟨hspan, hspan'⟩, version, flags, hversion, hversion',
      hflags, htext⟩
    have hne : text ≠ [] := by
      rintro rfl
      have hempty := hlower (trim isWhiteSpace [])
      have hnil : trim isWhiteSpace ([] : Text) = [] := rfl
      rw [htext, hnil] at hempty
      have hform : TraceparentGroups.text ⟨version, traceId, spanId, flags⟩ = [] :=
        hempty.eq_self (by simp)
      simp [TraceparentGroups.text] at hform
    have hexec := exec_traceparent_pattern_eq_some_iff.mpr
      ⟨htext.symm, (⟨hversion, htrace, hspan, hflags⟩ :
        TraceparentGroups.Matches ⟨version, traceId, spanId, flags⟩)⟩
    have hfilter : (some text).filter (fun text ↦ decide (text ≠ [])) = some text :=
      Option.filter_eq_some_iff.mpr ⟨rfl, decide_eq_true hne⟩
    rw [hfilter]
    show (execTraceparentPattern (toLowerCase (trim isWhiteSpace text))).bind _ = _
    rw [hexec, Option.bind_some, if_neg]
    · rfl
    · simp only [not_or]
      exact ⟨hversion', htrace', hspan'⟩

/-- Nothing is read of other headers. -/
theorem parse_traceparent_eq_none_iff {toLowerCase : Text → Text}
    (hlower : ∀ text, Lowered text (toLowerCase text)) {header : Option Text} :
    parseTraceparent toLowerCase header = none ↔
      ∀ text traceId spanId, header = some text →
        ¬IsTraceparent toLowerCase text traceId spanId := by
  constructor
  · intro h text traceId spanId htext hvalid
    have hsome := (parse_traceparent_eq_some_iff hlower).mpr ⟨text, htext, hvalid⟩
    rw [h] at hsome
    contradiction
  · intro h
    refine Option.eq_none_iff_forall_ne_some.mpr fun ids hids ↦ ?_
    obtain ⟨text, htext, hvalid⟩ := (parse_traceparent_eq_some_iff hlower).mp hids
    exact h text ids.traceId ids.spanId htext hvalid

end CoreUtils.Reporter.Trace
