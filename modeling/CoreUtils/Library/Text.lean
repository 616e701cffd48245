import Mathlib.Data.List.DropRight
import Mathlib.Tactic.Common

/-!
# Text as a list of characters

The string operations of ECMAScript that programs here use, over lists of characters: the white
space class shared by `trim` and by `\s`, and trimming at either end with respect to a class.
Trimming is stated for an arbitrary alphabet, so that it serves code points and code units alike.
-/

namespace CoreUtils.Text

/-- The code points that `String.prototype.trim` removes and `\s` matches: white space together
with line terminators. -/
def isWhiteSpaceCode (code : ℕ) : Bool :=
  (9 ≤ code && code ≤ 13) || code == 0x20 || code == 0xA0 || code == 0x1680 ||
    (0x2000 ≤ code && code ≤ 0x200A) || code == 0x2028 || code == 0x2029 || code == 0x202F ||
    code == 0x205F || code == 0x3000 || code == 0xFEFF

/-- White space as a class of characters. -/
def isWhiteSpace (c : Char) : Bool := isWhiteSpaceCode c.toNat

section Trimming

variable {α : Type*} (blank : α → Bool)

/-- Remove the leading characters of a class. -/
def trimStart (s : List α) : List α := s.dropWhile blank

/-- Remove the trailing characters of a class. -/
def trimEnd (s : List α) : List α := s.rdropWhile blank

/-- Remove the characters of a class at both ends. -/
def trim (s : List α) : List α := trimEnd blank (trimStart blank s)

variable {blank}

/-- Text that ends in a character outside the class is not shortened. -/
theorem trimEnd_concat {c : α} (hc : blank c = false) (s : List α) :
    trimEnd blank (s ++ [c]) = s ++ [c] := by
  simp [trimEnd, hc]

/-- A text is its trimmed part followed by characters of the class. -/
theorem exists_trimEnd_append (blank : α → Bool) (s : List α) :
    ∃ blanks, s = trimEnd blank s ++ blanks ∧ ∀ c ∈ blanks, blank c = true :=
  ⟨s.rtakeWhile blank, (List.rdropWhile_append_rtakeWhile ..).symm,
    fun _ hc ↦ List.mem_rtakeWhile_imp hc⟩

/-- A text is characters of the class followed by its trimmed part. -/
theorem exists_append_trimStart (blank : α → Bool) (s : List α) :
    ∃ blanks, s = blanks ++ trimStart blank s ∧ ∀ c ∈ blanks, blank c = true :=
  ⟨s.takeWhile blank, List.takeWhile_append_dropWhile.symm, fun _ hc ↦ List.mem_takeWhile_imp hc⟩

/-- Characters of the class at the end do not matter. -/
theorem trimEnd_append_blanks {blanks : List α} (h : ∀ c ∈ blanks, blank c = true) (s : List α) :
    trimEnd blank (s ++ blanks) = trimEnd blank s := by
  rw [trimEnd, trimEnd, List.rdropWhile, List.reverse_append, List.dropWhile_append_of_pos
    (fun c hc ↦ h c (List.mem_reverse.mp hc)), List.rdropWhile]

/-- Trimming stops at the last text that is not of the class. -/
theorem trimEnd_append {t : List α} (h : trimEnd blank t ≠ []) (s : List α) :
    trimEnd blank (s ++ t) = s ++ trimEnd blank t := by
  obtain ⟨blanks, hsplit, hblanks⟩ := exists_trimEnd_append blank t
  have hlast := List.rdropWhile_last_not blank t h
  conv_lhs => rw [hsplit, ← List.append_assoc, trimEnd_append_blanks hblanks]
  refine List.rdropWhile_eq_self_iff.mpr fun hne ↦ ?_
  rwa [List.getLast_append_of_ne_nil hne h]

/-- Text that is not shortened is not shortened after other text. -/
theorem trimEnd_append_eq {t : List α} (h : trimEnd blank t = t) (hne : t ≠ []) (s : List α) :
    trimEnd blank (s ++ t) = s ++ t := by
  rw [trimEnd_append (h.symm ▸ hne), h]

/-- A first character outside the class is kept. -/
theorem head_trimEnd {c : α} (hc : blank c = false) {s : List α} :
    (trimEnd blank s).head? = some c ↔ s.head? = some c := by
  obtain ⟨blanks, hsplit, hblanks⟩ := exists_trimEnd_append blank s
  have houtside : blanks.head? ≠ some c := fun hmem ↦ by
    simp [hblanks c (List.mem_of_head? hmem)] at hc
  conv_rhs => rw [hsplit, List.head?_append]
  cases (trimEnd blank s).head? with
  | none => simpa using houtside
  | some d => simp

/-- Text without characters of the class is left alone at its end. -/
theorem trimEnd_eq_self {s : List α} (h : ∀ c ∈ s, blank c = false) : trimEnd blank s = s := by
  rcases s.eq_nil_or_concat with rfl | ⟨front, last, rfl⟩
  · rfl
  · rw [List.concat_eq_append] at h ⊢
    exact trimEnd_concat (h last (by simp)) front

/-- Text without characters of the class is left alone by `trim`. -/
theorem trim_eq_self {s : List α} (h : ∀ c ∈ s, blank c = false) : trim blank s = s := by
  have hstart : trimStart blank s = s := by
    cases s with
    | nil => rfl
    | cons c rest => simp [trimStart, h c (by simp)]
  rw [trim, hstart, trimEnd_eq_self h]

/-- A character of the class at the end is removed from text without such characters. -/
theorem trim_concat_blank {s : List α} (h : ∀ c ∈ s, blank c = false) (hne : s ≠ []) {c : α}
    (hc : blank c = true) : trim blank (s ++ [c]) = s := by
  have hstart : trimStart blank (s ++ [c]) = s ++ [c] := by
    cases s with
    | nil => exact absurd rfl hne
    | cons first rest => simp [trimStart, h first (by simp)]
  rw [trim, hstart, trimEnd, List.rdropWhile_concat_pos _ _ _ hc]
  exact trimEnd_eq_self h

end Trimming

/-! ## Two characters in a row -/

section Pairs

variable {α : Type*} {a b : α} {s t : List α}

/-- Two characters stand in a row at the beginning of a text or later. -/
theorem pair_infix_cons {c : α} :
    [a, b] <:+: c :: s ↔ (c = a ∧ s.head? = some b) ∨ [a, b] <:+: s := by
  rw [List.infix_cons_iff, List.cons_prefix_cons]
  refine or_congr_left (and_congr eq_comm ?_)
  cases s with
  | nil => simp
  | cons d rest => simp [eq_comm]

/-- Two characters stand in a row in one of two texts or where they meet. -/
theorem pair_infix_append :
    [a, b] <:+: s ++ t ↔
      [a, b] <:+: s ∨ [a, b] <:+: t ∨ (s.getLast? = some a ∧ t.head? = some b) := by
  induction s with
  | nil => simp
  | cons c rest ih =>
      rw [List.cons_append, pair_infix_cons, pair_infix_cons, ih]
      cases rest with
      | nil => simp only [List.nil_append, List.head?_nil, List.getLast?_singleton]; grind
      | cons d rest =>
          simp only [List.cons_append, List.head?_cons, List.getLast?_cons_cons]
          grind

/-- A text without the first character has no such two characters in a row. -/
theorem not_pair_infix_of_not_mem (h : a ∉ s) : ¬[a, b] <:+: s :=
  fun hwithin ↦ h (hwithin.subset (by simp))

variable {blank : α → Bool}

/-- Trimming the end does not touch two characters of which the second is outside the class. -/
theorem pair_infix_trimEnd (hb : blank b = false) :
    [a, b] <:+: trimEnd blank s ↔ [a, b] <:+: s := by
  obtain ⟨blanks, hsplit, hblanks⟩ := exists_trimEnd_append blank s
  have houtside : b ∉ blanks := fun hmem ↦ by simp [hblanks b hmem] at hb
  conv_rhs => rw [hsplit, pair_infix_append]
  refine ⟨.inl, fun h ↦ ?_⟩
  rcases h with h | h | ⟨-, h⟩
  · exact h
  · exact absurd (h.subset (by simp)) houtside
  · exact absurd (List.mem_of_head? h) houtside

/-- Trimming the start does not touch two characters of which the first is outside the class. -/
theorem pair_infix_trimStart (ha : blank a = false) :
    [a, b] <:+: trimStart blank s ↔ [a, b] <:+: s := by
  obtain ⟨blanks, hsplit, hblanks⟩ := exists_append_trimStart blank s
  have houtside : a ∉ blanks := fun hmem ↦ by simp [hblanks a hmem] at ha
  conv_rhs => rw [hsplit, pair_infix_append]
  refine ⟨fun h ↦ .inr (.inl h), fun h ↦ ?_⟩
  rcases h with h | h | ⟨h, -⟩
  · exact absurd h (not_pair_infix_of_not_mem houtside)
  · exact h
  · exact absurd (List.mem_of_getLast? h) houtside

end Pairs

/-- The first occurrence of a separator determines what stands before and after it. -/
theorem separator_unique {α : Type*} {separator : α} {front front' back back' : List α}
    (hfront : separator ∉ front) (hfront' : separator ∉ front')
    (h : front ++ separator :: back = front' ++ separator :: back') :
    front = front' ∧ back = back' := by
  induction front generalizing front' with
  | nil =>
      cases front' with
      | nil => exact ⟨rfl, (List.cons.inj h).2⟩
      | cons c rest' => exact absurd ((List.cons.inj h).1 ▸ List.mem_cons_self) hfront'
  | cons c rest ih =>
      cases front' with
      | nil => exact absurd ((List.cons.inj h).1 ▸ List.mem_cons_self) hfront
      | cons c' rest' =>
          obtain ⟨rfl, htail⟩ := List.cons.inj h
          obtain ⟨rfl, hback⟩ := ih (fun hmem ↦ hfront (List.mem_cons_of_mem _ hmem))
            (fun hmem ↦ hfront' (List.mem_cons_of_mem _ hmem)) htail
          exact ⟨rfl, hback⟩

/-! ## Lists with a separator -/

section Items

variable {α : Type*} {sep : α} {text item : List α}

/-- An item of a text: what stands between two separators that follow each other, or between a
separator and an end of the text. -/
def IsItem (sep : α) (text item : List α) : Prop :=
  sep ∉ item ∧ ∃ front back, text = front ++ item ++ back ∧
    (front = [] ∨ front.getLast? = some sep) ∧ (back = [] ∨ back.head? = some sep)

/-- Splitting at a separator gives the items of a text. -/
theorem mem_splitOn_iff [DecidableEq α] : item ∈ text.splitOn sep ↔ IsItem sep text item := by
  constructor
  · intro h
    induction hlength : text.length using Nat.strong_induction_on generalizing text with
    | _ length ih =>
        by_cases hsep : sep ∈ text
        · obtain ⟨first, rest, rfl, hfirst⟩ := List.eq_append_cons_of_mem hsep
          rw [List.splitOn_append_cons_self, List.splitOn_eq_singleton hfirst,
            List.singleton_append] at h
          rcases List.mem_cons.mp h with rfl | hrest
          · exact ⟨hfirst, [], sep :: rest, by simp, .inl rfl, .inr rfl⟩
          · have hlt : rest.length < length := by
              rw [← hlength, List.length_append, List.length_cons]
              omega
            obtain ⟨hitem, front, back, rfl, hfront, hback⟩ := ih _ hlt hrest rfl
            refine ⟨hitem, first ++ sep :: front, back, by simp, .inr ?_, hback⟩
            rcases hfront with rfl | hlast
            · exact List.getLast?_concat
            · have hne : front ≠ [] := by
                rintro rfl
                simp at hlast
              have hparts : first ++ sep :: front = (first ++ [sep]) ++ front := by simp
              rw [hparts, List.getLast?_append_of_ne_nil _ hne, hlast]
        · rw [List.splitOn_eq_singleton hsep, List.mem_singleton] at h
          subst h
          exact ⟨hsep, [], [], by simp, .inl rfl, .inl rfl⟩
  · rintro ⟨hitem, front, back, rfl, hfront, hback⟩
    have hend : item ∈ (item ++ back).splitOn sep := by
      rcases hback with rfl | hhead
      · rw [List.append_nil, List.splitOn_eq_singleton hitem]
        exact List.mem_singleton_self item
      · obtain ⟨rest, rfl⟩ := List.head?_eq_some_iff.mp hhead
        rw [List.splitOn_append_cons_self, List.splitOn_eq_singleton hitem]
        exact List.mem_cons_self
    rcases hfront with rfl | hlast
    · exact hend
    · obtain ⟨before, rfl⟩ := List.getLast?_eq_some_iff.mp hlast
      have hparts : before ++ [sep] ++ item ++ back = before ++ sep :: (item ++ back) := by simp
      rw [hparts, List.splitOn_append_cons_self]
      exact List.mem_append_right _ hend

end Items

/-! ## The last of a list -/

/-- A list with one more element at its end is split at that element or before it. -/
theorem concat_eq_append_cons {α : Type*} {init before after : List α} {last a : α} :
    init ++ [last] = before ++ a :: after ↔
      (before = init ∧ a = last ∧ after = []) ∨
        ∃ later, after = later ++ [last] ∧ init = before ++ a :: later := by
  constructor
  · intro h
    rcases after.eq_nil_or_concat with rfl | ⟨later, d, rfl⟩
    · obtain ⟨hinit, hlast⟩ := List.append_inj' h rfl
      exact .inl ⟨hinit.symm, (List.head_eq_of_cons_eq hlast).symm, rfl⟩
    · rw [List.concat_eq_append, ← List.cons_append, ← List.append_assoc] at h
      obtain ⟨hinit, hlast⟩ := List.append_inj' h rfl
      rw [List.head_eq_of_cons_eq hlast, List.concat_eq_append]
      exact .inr ⟨later, rfl, hinit⟩
  · rintro (⟨rfl, rfl, rfl⟩ | ⟨later, rfl, rfl⟩)
    · rfl
    · rw [List.append_assoc, List.cons_append]

end CoreUtils.Text
