import CoreUtils.Embedex.Lines

/-!
# Escaping the end of a comment

In a comment block every `*/` of a source is written as `*\/`. Escaping puts a backslash between the
two characters and changes nothing else (`escape_append`), so that lines and tags of an escaped text
are those of the text itself: `splitLines_escape` and `segments_escape`.
-/

namespace CoreUtils.Embedex

/-- What ends a comment block. -/
def commentEnd : Text := "*/".toList

/-- What is written instead of it. -/
def escapedCommentEnd : Text := "*\\/".toList

/-- Put a backslash between a star and a slash. -/
def escape : Text → Text
  | [] => []
  | c :: s => if c = '*' ∧ s.head? = some '/' then c :: '\\' :: escape s else c :: escape s

/-- Replacing all comment ends puts in the backslashes. -/
theorem replaceAll_commentEnd (s : Text) :
    replaceAll commentEnd escapedCommentEnd s = escape s := by
  rw [replaceAll_of_plain (by decide)]
  induction hlength : s.length using Nat.strong_induction_on generalizing s with
  | _ length ih =>
      cases s with
      | nil => rfl
      | cons c s =>
          have hrest : ∀ rest : Text, rest.length < length →
              replaceLiteral commentEnd escapedCommentEnd 0 rest = escape rest :=
            fun rest hshorter ↦ ih rest.length hshorter rest rfl
          by_cases hend : c = '*' ∧ s.head? = some '/'
          · obtain ⟨rfl, hslash⟩ := hend
            obtain ⟨rest, rfl⟩ : ∃ rest, s = '/' :: rest :=
              ⟨s.tail, List.eq_cons_of_mem_head? hslash⟩
            have hreplaced := replaceLiteral_append (show commentEnd ≠ [] by decide)
              escapedCommentEnd rest
            rw [hrest rest (by simp only [List.length_cons] at hlength; omega)] at hreplaced
            exact hreplaced
          · have hstarts : ¬commentEnd <+: c :: s := by
              rintro ⟨rest, hsplit⟩
              obtain ⟨rfl, rfl⟩ := List.cons.inj (show '*' :: '/' :: rest = c :: s from hsplit)
              exact hend ⟨rfl, rfl⟩
            rw [replaceLiteral_cons hstarts, hrest s (by simp [← hlength]), escape, if_neg hend]

/-! ## Escaping piece by piece -/

variable {s t : Text} {c : Char}

/-- Escaping keeps the first character. -/
@[simp]
theorem head_escape (s : Text) : (escape s).head? = s.head? := by
  cases s with
  | nil => rfl
  | cons c s => rw [escape]; split <;> rfl

/-- A character that does not begin a comment end is kept. -/
theorem escape_cons (h : c ≠ '*' ∨ s.head? ≠ some '/') : escape (c :: s) = c :: escape s :=
  if_neg fun hend ↦ h.elim (· hend.1) (· hend.2)

/-- A star and a slash are parted. -/
theorem escape_cons_slash (h : c = '*' ∧ s.head? = some '/') :
    escape (c :: s) = c :: '\\' :: escape s :=
  if_pos h

/-- Escaping two texts puts in a backslash where a comment end runs across. -/
theorem escape_append_append (s t : Text) :
    escape (s ++ t) = escape s ++
      if s.getLast? = some '*' ∧ t.head? = some '/' then '\\' :: escape t else escape t := by
  induction s with
  | nil => simp [escape]
  | cons c s ih =>
      cases s with
      | nil =>
          simp only [List.singleton_append, escape, List.getLast?_singleton, Option.some.injEq,
            List.head?_nil, reduceCtorEq, and_false, if_false]
          split <;> rfl
      | cons d s =>
          rw [List.cons_append]
          by_cases hend : c = '*' ∧ (d :: s).head? = some '/'
          · have hend' : c = '*' ∧ (d :: s ++ t).head? = some '/' := hend
            rw [escape_cons_slash hend', escape_cons_slash hend, ih]
            rfl
          · have hend' : c ≠ '*' ∨ (d :: s ++ t).head? ≠ some '/' := not_and_or.mp hend
            rw [escape_cons hend', escape_cons (not_and_or.mp hend), ih]
            rfl

/-- Texts are escaped separately where no comment end runs across. -/
theorem escape_append (h : s.getLast? ≠ some '*' ∨ t.head? ≠ some '/') :
    escape (s ++ t) = escape s ++ escape t := by
  rw [escape_append_append, if_neg fun hend ↦ h.elim (· hend.1) (· hend.2)]

/-- Escaping a text puts in a backslash before its last character at most. -/
@[simp]
theorem getLast_escape (s : Text) : (escape s).getLast? = s.getLast? := by
  rcases s.eq_nil_or_concat with rfl | ⟨front, last, rfl⟩
  · rfl
  · rw [List.concat_eq_append, escape_append_append]
    split <;> simp [escape]

/-- The characters of a text are among those of the escaped text. -/
theorem mem_escape_of_mem (h : c ∈ s) : c ∈ escape s := by
  induction s with
  | nil => simp at h
  | cons d s ih =>
      rw [escape]
      rcases List.mem_cons.mp h with rfl | hrest
      · split <;> exact List.mem_cons_self
      · split
        · exact List.mem_cons_of_mem _ (List.mem_cons_of_mem _ (ih hrest))
        · exact List.mem_cons_of_mem _ (ih hrest)

/-- Escaping brings in nothing but backslashes. -/
theorem mem_of_mem_escape (h : c ∈ escape s) (hc : c ≠ '\\') : c ∈ s := by
  induction s with
  | nil => simp [escape] at h
  | cons d s ih =>
      rw [escape] at h
      split at h
      · simp only [List.mem_cons] at h ⊢
        rcases h with rfl | rfl | hrest
        · exact .inl rfl
        · exact absurd rfl hc
        · exact .inr (ih hrest)
      · simp only [List.mem_cons] at h ⊢
        exact h.imp_right ih

/-- A text without stars is left alone. -/
theorem escape_of_not_mem (h : '*' ∉ s) : escape s = s := by
  induction s with
  | nil => rfl
  | cons c s ih =>
      rw [List.mem_cons, not_or] at h
      rw [escape_cons (.inl (Ne.symm h.1)), ih h.2]

/-- An escaped text contains no comment end. -/
theorem escape_no_commentEnd (s : Text) : ¬commentEnd <:+: escape s := by
  show ¬['*', '/'] <:+: escape s
  induction s with
  | nil => simp [escape]
  | cons c s ih =>
      rw [escape]
      split
      · rw [Text.pair_infix_cons, Text.pair_infix_cons, not_or, not_or]
        exact ⟨by simp, by simp, ih⟩
      · rename_i hend
        rw [Text.pair_infix_cons, head_escape, not_or]
        exact ⟨hend, ih⟩

/-! ## Reading an escaped text backwards -/

/-- Where an escaped text has a character that escaping does not touch, so has the text. -/
theorem escape_eq_append_cons {before after : Text} (h : escape s = before ++ c :: after)
    (hbackslash : c ≠ '\\') (hslash : c ≠ '/') :
    ∃ u v, s = u ++ c :: v ∧ escape u = before ∧ escape (c :: v) = c :: after := by
  induction s generalizing before with
  | nil => simp [escape] at h
  | cons d s ih =>
      cases before with
      | nil =>
          have hhead : some d = some c := by simpa [h] using (head_escape (d :: s)).symm
          obtain rfl := Option.some.inj hhead
          exact ⟨[], s, rfl, rfl, h⟩
      | cons e before =>
          have hhead : some d = some e := by simpa [h] using (head_escape (d :: s)).symm
          obtain rfl := Option.some.inj hhead
          rw [escape] at h
          split at h
          · rename_i hend
            have htail := (List.cons.inj h).2
            cases before with
            | nil => exact absurd (List.cons.inj htail).1.symm hbackslash
            | cons e before =>
                obtain ⟨rfl, hrest⟩ := List.cons.inj htail
                obtain ⟨u, v, rfl, rfl, hv⟩ := ih hrest
                refine ⟨d :: u, v, rfl, ?_, hv⟩
                cases u with
                | nil => exact absurd (Option.some.inj hend.2) hslash
                | cons e u => exact if_pos hend
          · rename_i hend
            obtain ⟨u, v, rfl, rfl, hv⟩ := ih (List.cons.inj h).2
            refine ⟨d :: u, v, rfl, escape_cons ?_, hv⟩
            cases u with
            | nil => exact .inr (by simp)
            | cons e u => exact not_and_or.mp hend

/-- Where an escaped text begins with a word without stars, so does the text. -/
theorem escape_eq_append (word : Text) {after : Text} (h : escape s = word ++ after)
    (hword : '*' ∉ word) :
    ∃ rest, s = word ++ rest ∧ escape rest = after := by
  induction word generalizing s with
  | nil => exact ⟨s, rfl, h⟩
  | cons c word ih =>
      cases s with
      | nil => simp [escape] at h
      | cons d s =>
          have hhead : some d = some c := by simpa [h] using (head_escape (d :: s)).symm
          obtain rfl := Option.some.inj hhead
          rw [List.mem_cons, not_or] at hword
          rw [escape_cons (.inl (Ne.symm hword.1))] at h
          obtain ⟨rest, rfl, hrest⟩ := ih (List.cons.inj h).2 hword.2
          exact ⟨rest, rfl, hrest⟩

/-! ## Lines of an escaped text -/

/-- The lines of an escaped text are the escaped lines. -/
theorem splitLines_escape (s : Text) : splitLines (escape s) = (splitLines s).map escape := by
  fun_induction splitLines s with
  | case1 => rfl
  | case2 s ih =>
      rw [escape_cons (.inl (by decide)), escape_cons (.inl (by decide)), splitLines, ih]
      rfl
  | case3 s ih =>
      rw [escape_cons (.inl (by decide)), splitLines, ih]
      rfl
  | case4 c s hreturn hnewline ih =>
      have hreturn' : c ≠ '\r' ∨ (escape s).head? ≠ some '\n' := by
        rw [head_escape, ← not_and_or]
        exact fun hbreak ↦ hreturn s.tail hbreak.1 (List.eq_cons_of_mem_head? hbreak.2)
      obtain ⟨first, lines, hlines⟩ := List.exists_cons_of_ne_nil (splitLines_ne_nil s)
      have hhead : first.head? = some '/' ↔ s.head? = some '/' :=
        head_first_line (by decide) (by decide) hlines
      rw [hlines] at ih ⊢
      by_cases hend : c = '*' ∧ s.head? = some '/'
      · have hfirst := escape_cons_slash ⟨hend.1, hhead.mpr hend.2⟩
        rw [escape_cons_slash hend, splitLines_cons hnewline (.inl (by simp [hend.1])),
          splitLines_cons (by decide) (.inl (by decide)), ih]
        simp [consLine, hfirst]
      · have hfirst : escape (c :: first) = c :: escape first :=
          escape_cons (by rw [Ne, Ne, hhead, ← not_and_or]; exact hend)
        rw [escape_cons (not_and_or.mp hend), splitLines_cons hnewline hreturn', ih]
        simp [consLine, hfirst]

/-- Joining escaped lines gives the escaped text. -/
theorem joinLines_escape (lines : List Text) :
    joinLines (lines.map escape) = escape (joinLines lines) := by
  induction lines with
  | nil => rfl
  | cons line lines ih =>
      cases lines with
      | nil => simp [joinLines]
      | cons line' lines =>
          rw [joinLines_cons_cons, escape_append (.inr (by simp)),
            escape_cons (.inl (by decide)), ← ih, List.map_cons, List.map_cons,
            joinLines_cons_cons]

variable {blank : Char → Bool}

/-- Trimming the start of an escaped text. -/
theorem trimStart_escape (hstar : blank '*' = false) (s : Text) :
    Text.trimStart blank (escape s) = escape (Text.trimStart blank s) := by
  induction s with
  | nil => rfl
  | cons c s ih =>
      by_cases hc : blank c = true
      · have hne : c ≠ '*' := fun h ↦ by simp [h, hstar] at hc
        rw [escape_cons (.inl hne), Text.trimStart, List.dropWhile_cons_of_pos hc, Text.trimStart,
          List.dropWhile_cons_of_pos hc]
        exact ih
      · have hkept : Text.trimStart blank (c :: s) = c :: s := List.dropWhile_cons_of_neg hc
        rw [hkept, escape]
        split <;> exact List.dropWhile_cons_of_neg hc

/-- Trimming the end of an escaped text. -/
theorem trimEnd_escape (hstar : blank '*' = false) (hslash : blank '/' = false) (s : Text) :
    Text.trimEnd blank (escape s) = escape (Text.trimEnd blank s) := by
  obtain ⟨blanks, hsplit, hblanks⟩ := Text.exists_trimEnd_append blank s
  have hnoStar : '*' ∉ blanks := fun hmem ↦ by simp [hblanks _ hmem] at hstar
  have hnoSlash : blanks.head? ≠ some '/' := fun hmem ↦ by
    simp [hblanks _ (List.mem_of_head? hmem)] at hslash
  conv_lhs => rw [hsplit, escape_append (.inr hnoSlash), escape_of_not_mem hnoStar,
    Text.trimEnd_append_blanks hblanks]
  refine List.rdropWhile_eq_self_iff.mpr fun hne hlast ↦ ?_
  have hsame := getLast_escape (Text.trimEnd blank s)
  rw [List.getLast?_eq_some_getLast hne] at hsame
  have hne' : Text.trimEnd blank s ≠ [] := fun hnil ↦ by simp [hnil] at hsame
  rw [List.getLast?_eq_some_getLast hne', Option.some.injEq] at hsame
  exact List.rdropWhile_last_not blank s hne' (hsame ▸ hlast)

/-- Trimming an escaped text. -/
theorem trim_escape (hstar : blank '*' = false) (hslash : blank '/' = false) (s : Text) :
    Text.trim blank (escape s) = escape (Text.trim blank s) := by
  rw [Text.trim, Text.trim, trimStart_escape hstar, trimEnd_escape hstar hslash]

/-- Escaping keeps blank lines and makes none. -/
theorem isBlank_escape (line : Text) : isBlank (escape line) = isBlank line := by
  have hnil : ∀ s : Text, escape s = [] ↔ s = [] := fun s ↦ by
    rw [← List.head?_eq_none_iff, head_escape, List.head?_eq_none_iff]
  rw [isBlank, isBlank, trim_escape (by decide) (by decide), Bool.eq_iff_iff, beq_iff_eq,
    beq_iff_eq, hnil]

/-- The contents of a tag in an escaped text. -/
theorem nestedContent_escape (content : Text) :
    nestedContent (escape content) = escape (nestedContent content) := by
  have hblank : isBlank ∘ escape = isBlank := funext isBlank_escape
  rw [nestedContent, nestedContent, splitLines_escape, List.dropWhile_map, hblank, List.rdropWhile,
    ← List.map_reverse, List.dropWhile_map, hblank, ← List.map_reverse, joinLines_escape]
  rfl

end CoreUtils.Embedex
