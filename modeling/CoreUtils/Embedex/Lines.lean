import CoreUtils.Embedex.Replacement

/-!
# The lines of a text

`split(/\r?\n/)` and `join("\n")`. Whatever does not reach across a line break can be looked for
line by line: `exists_line_pair` for two characters in a row, `exists_line_head` for the first
character of a line.
-/

namespace CoreUtils.Embedex

attribute [elab_as_elim] splitLines.induct_unfolding splitLines.fun_cases_unfolding

/-- A text has a line. -/
theorem splitLines_ne_nil (s : Text) : splitLines s ≠ [] := by
  fun_induction splitLines s with
  | case1 | case2 | case3 => simp
  | case4 c s _ _ ih =>
      obtain ⟨line, lines, hlines⟩ := List.exists_cons_of_ne_nil ih
      simp [hlines, consLine]

variable {s : Text} {a b c : Char}

/-- A character that is not part of a line break continues the first line. -/
theorem splitLines_cons (hnewline : c ≠ '\n') (hreturn : c ≠ '\r' ∨ s.head? ≠ some '\n') :
    splitLines (c :: s) = consLine c (splitLines s) := by
  rw [splitLines]
  · rintro rest rfl rfl
    simp at hreturn
  · exact hnewline

/-- The first line begins as the text does. -/
theorem head_first_line (hnewline : a ≠ '\n') (hreturn : a ≠ '\r') {first : Text}
    {lines : List Text} (hlines : splitLines s = first :: lines) :
    first.head? = some a ↔ s.head? = some a := by
  fun_cases splitLines s with
  | case1 | case2 | case3 =>
      obtain rfl := (List.cons.inj hlines).1
      simp [hnewline.symm, hreturn.symm]
  | case4 c s hreturn' hnewline' =>
      obtain ⟨first', lines', hrest⟩ := List.exists_cons_of_ne_nil (splitLines_ne_nil s)
      rw [splitLines, hrest, consLine] at hlines
      · obtain rfl := (List.cons.inj hlines).1
        rfl
      · exact hreturn'
      · exact hnewline'

/-- The first line is a beginning of the text. -/
theorem first_line_prefix {first : Text} {lines : List Text}
    (hlines : splitLines s = first :: lines) :
    first <+: s := by
  fun_induction splitLines s generalizing first lines with
  | case1 | case2 | case3 =>
      obtain rfl := (List.cons.inj hlines).1
      exact List.nil_prefix
  | case4 c s _ _ ih =>
      obtain ⟨first', lines', hrest⟩ := List.exists_cons_of_ne_nil (splitLines_ne_nil s)
      rw [hrest, consLine] at hlines
      obtain rfl := (List.cons.inj hlines).1
      exact List.cons_prefix_cons.mpr ⟨rfl, ih hrest⟩

/-- A line is a part of the text. -/
theorem infix_of_mem_splitLines {line : Text} (h : line ∈ splitLines s) : line <:+: s := by
  fun_induction splitLines s with
  | case1 => rw [List.mem_singleton.mp h]
  | case2 s ih =>
      rcases List.mem_cons.mp h with rfl | hrest
      · exact List.nil_infix
      · exact (ih hrest).trans ⟨['\r', '\n'], [], by simp⟩
  | case3 s ih =>
      rcases List.mem_cons.mp h with rfl | hrest
      · exact List.nil_infix
      · exact (ih hrest).trans (List.suffix_cons _ _).isInfix
  | case4 c s _ _ ih =>
      obtain ⟨first, lines, hlines⟩ := List.exists_cons_of_ne_nil (splitLines_ne_nil s)
      rw [hlines] at h ih
      rcases List.mem_cons.mp h with rfl | hrest
      · exact (List.cons_prefix_cons.mpr ⟨rfl, first_line_prefix hlines⟩).isInfix
      · exact (ih (List.mem_cons_of_mem _ hrest)).trans (List.suffix_cons _ _).isInfix

/-- Two characters in a row are in a row in some line. -/
theorem exists_line_pair (hnewline : a ≠ '\n' ∧ b ≠ '\n') (hreturn : a ≠ '\r' ∧ b ≠ '\r') :
    (∃ line ∈ splitLines s, [a, b] <:+: line) ↔ [a, b] <:+: s := by
  fun_induction splitLines s with
  | case1 => simp
  | case2 s ih =>
      rw [Text.pair_infix_cons, Text.pair_infix_cons, ← ih]
      simp [hnewline.1.symm, hreturn.1.symm]
  | case3 s ih =>
      rw [Text.pair_infix_cons, ← ih]
      simp [hnewline.1.symm]
  | case4 c s _ _ ih =>
      obtain ⟨first, lines, hlines⟩ := List.exists_cons_of_ne_nil (splitLines_ne_nil s)
      have hhead : first.head? = some b ↔ s.head? = some b :=
        head_first_line hnewline.2 hreturn.2 hlines
      rw [hlines] at ih ⊢
      rw [Text.pair_infix_cons, ← ih, ← hhead]
      simp only [consLine, List.exists_mem_cons_iff, Text.pair_infix_cons]
      tauto

/-- A line after the first begins with a character where the character comes after a newline. -/
theorem exists_later_line_head (hnewline : a ≠ '\n') (hreturn : a ≠ '\r') :
    (∃ line ∈ (splitLines s).tail, line.head? = some a) ↔ ['\n', a] <:+: s := by
  have hall : ∀ s : Text, ((∃ line ∈ (splitLines s).tail, line.head? = some a) ↔
      ['\n', a] <:+: s) → ((∃ line ∈ splitLines s, line.head? = some a) ↔
        s.head? = some a ∨ ['\n', a] <:+: s) := by
    intro s hlater
    obtain ⟨first, lines, hlines⟩ := List.exists_cons_of_ne_nil (splitLines_ne_nil s)
    rw [← hlater, ← head_first_line hnewline hreturn hlines, hlines, List.tail_cons,
      List.exists_mem_cons_iff]
  fun_induction splitLines s with
  | case1 => simp
  | case2 s ih =>
      rw [List.tail_cons, hall s ih, Text.pair_infix_cons, Text.pair_infix_cons]
      simp
  | case3 s ih =>
      rw [List.tail_cons, hall s ih, Text.pair_infix_cons]
      simp
  | case4 c s _ hnewline' ih =>
      obtain ⟨first, lines, hlines⟩ := List.exists_cons_of_ne_nil (splitLines_ne_nil s)
      rw [hlines, List.tail_cons] at ih
      rw [hlines, consLine, List.tail_cons, Text.pair_infix_cons]
      refine ih.trans ?_
      simp [show c ≠ '\n' from hnewline']

/-- A line begins with a character if the text does, or if the character comes after a newline. -/
theorem exists_line_head (hnewline : a ≠ '\n') (hreturn : a ≠ '\r') :
    (∃ line ∈ splitLines s, line.head? = some a) ↔ s.head? = some a ∨ ['\n', a] <:+: s := by
  obtain ⟨first, lines, hlines⟩ := List.exists_cons_of_ne_nil (splitLines_ne_nil s)
  rw [← exists_later_line_head hnewline hreturn, ← head_first_line hnewline hreturn hlines, hlines,
    List.tail_cons, List.exists_mem_cons_iff]

/-- Lines are joined one after another. -/
theorem joinLines_cons_cons (line line' : Text) (lines : List Text) :
    joinLines (line :: line' :: lines) = line ++ '\n' :: joinLines (line' :: lines) := by
  simp [joinLines, List.intercalate_cons_cons]

/-- Two characters in a row, neither of them a newline, are in a row in one of the joined lines. -/
theorem pair_infix_joinLines (hnewline : a ≠ '\n' ∧ b ≠ '\n') (lines : List Text) :
    [a, b] <:+: joinLines lines ↔ ∃ line ∈ lines, [a, b] <:+: line := by
  induction lines with
  | nil => simp [joinLines]
  | cons line lines ih =>
      cases lines with
      | nil => simp [joinLines]
      | cons line' lines =>
          rw [joinLines_cons_cons, Text.pair_infix_append, Text.pair_infix_cons, ih,
            List.exists_mem_cons_iff (a := line)]
          simp [hnewline.1.symm, hnewline.2.symm]

end CoreUtils.Embedex
