import CoreUtils.Embedex.CommentSafety

/-!
# Code fences

A source that is not Markdown is put between two lines of three backticks, or of four if it has
three in a row. The lines in between close the fence exactly when a line of the source consists of
four or more backticks (`fencedLines_not_closing_iff`).
-/

namespace CoreUtils.Embedex

/-- A line that closes a code fence of a size: after the prefix nothing but at least as many
backticks. -/
def IsClosingFence (blockPrefix : Text) (size : ℕ) (line : Text) : Prop :=
  ∃ count, size ≤ count ∧ line = blockPrefix ++ List.replicate count backtick

/-- The lines of a block between its code fences. -/
def fencedLines (content sourcePath blockPrefix : Text) : List Text :=
  (splitLines (processContent content blockPrefix (codeFenceIdOf (extensionOf sourcePath)))).map
    fun line ↦ Text.trimEnd Text.isWhiteSpace (blockPrefix ++ line)

variable {content sourcePath blockPrefix line : Text}

/-- What is left of a line after trimming is backticks exactly when this is so with the prefix in
front of it. -/
theorem trimEnd_eq_backticks {count : ℕ} (hcount : 0 < count) :
    Text.trimEnd Text.isWhiteSpace (blockPrefix ++ line) =
        blockPrefix ++ List.replicate count backtick ↔
      Text.trimEnd Text.isWhiteSpace line = List.replicate count backtick := by
  by_cases hblank : Text.trimEnd Text.isWhiteSpace line = []
  · have hline : ∀ c ∈ line, Text.isWhiteSpace c = true := List.rdropWhile_eq_nil_iff.mp hblank
    rw [Text.trimEnd_append_blanks hline, hblank]
    constructor
    · intro hsame
      have hle := (List.rdropWhile_prefix Text.isWhiteSpace blockPrefix).length_le
      rw [show List.rdropWhile Text.isWhiteSpace blockPrefix = _ from hsame, List.length_append,
        List.length_replicate] at hle
      omega
    · intro hempty
      have hlength := congrArg List.length hempty
      rw [List.length_replicate, List.length_nil] at hlength
      omega
  · rw [Text.trimEnd_append hblank]
    exact ⟨List.append_cancel_left, fun h ↦ by rw [h]⟩

/-- Escaping keeps lines of backticks and makes none. -/
theorem escape_eq_backticks {s : Text} {count : ℕ} :
    escape s = List.replicate count backtick ↔ s = List.replicate count backtick := by
  have hstar : '*' ∉ List.replicate count backtick :=
    fun hmem ↦ absurd (List.eq_of_mem_replicate hmem) (by decide)
  constructor
  · intro h
    rw [← List.append_nil (List.replicate count backtick)] at h
    obtain ⟨rest, rfl, hrest⟩ := escape_eq_append _ h hstar
    have hnil : rest = [] := by
      by_contra hne
      exact escape_ne_nil.mpr hne hrest
    simp [hnil]
  · rintro rfl
    exact escape_of_not_mem hstar

/-- The lines between code fences come from the lines of the source. -/
theorem exists_fencedLines_backticks (hfence : ¬IsMarkdown sourcePath) {count : ℕ}
    (hcount : 0 < count) :
    blockPrefix ++ List.replicate count backtick ∈ fencedLines content sourcePath blockPrefix ↔
      ∃ line ∈ splitLines (Text.trimEnd Text.isWhiteSpace content),
        Text.trimEnd Text.isWhiteSpace line = List.replicate count backtick := by
  obtain ⟨hstar, hslash⟩ := isWhiteSpace_star_slash
  rw [fencedLines, List.mem_map]
  simp only [trimEnd_eq_backticks hcount]
  by_cases hcomment : isInCommentBlock blockPrefix = true
  · rw [processContent_eq hcomment, if_neg hfence, splitLines_escape]
    simp only [List.mem_map, exists_exists_and_eq_and, trimEnd_escape hstar hslash,
      escape_eq_backticks]
  · have hplain : processContent content blockPrefix (codeFenceIdOf (extensionOf sourcePath)) =
        Text.trimEnd Text.isWhiteSpace content := by
      simp only [processContent, hcomment]
      exact if_neg hfence
    rw [hplain]

/-- A line of the source with three or more backticks shows that it has three in a row. -/
theorem codeFence_within {count : ℕ} (hcount : 3 ≤ count)
    (hline : line ∈ splitLines (Text.trimEnd Text.isWhiteSpace content))
    (htrim : Text.trimEnd Text.isWhiteSpace line = List.replicate count backtick) :
    codeFence <:+: content := by
  have hbackticks : codeFence <+: List.replicate count backtick := by
    obtain ⟨extra, rfl⟩ := Nat.exists_eq_add_of_le hcount
    rw [List.replicate_add]
    exact List.prefix_append _ _
  have hinLine : List.replicate count backtick <+: line := htrim ▸ List.rdropWhile_prefix _ _
  have hinContent : Text.trimEnd Text.isWhiteSpace content <+: content := List.rdropWhile_prefix _ _
  exact (hbackticks.trans hinLine).isInfix.trans
    ((infix_of_mem_splitLines hline).trans hinContent.isInfix)

/-- The size of a code fence. -/
theorem length_backticksOf (content : Text) :
    (backticksOf content).length = if codeFence <:+: content then 4 else 3 := by
  unfold backticksOf
  split <;> rfl

/-- The line that opens a code fence is not trimmed. -/
theorem trimEnd_openingFence (content extension blockPrefix : Text) :
    Text.trimEnd Text.isWhiteSpace
        (blockPrefix ++ (backticksOf content ++ (codeFenceIdOf extension).getD [])) =
      blockPrefix ++ (backticksOf content ++ (codeFenceIdOf extension).getD []) := by
  have htable : ∀ entry ∈ codeFenceIdByFileExtension,
      Text.trimEnd Text.isWhiteSpace entry.2.toList = entry.2.toList := by decide +kernel
  have hid : Text.trimEnd Text.isWhiteSpace ((codeFenceIdOf extension).getD []) =
      (codeFenceIdOf extension).getD [] := by
    rcases codeFenceIdOf_cases extension with hnil | ⟨entry, hentry, hid⟩
    · rw [hnil]
      rfl
    · rw [hid]
      rcases List.mem_append.mp hentry with hown | hinherited
      · exact htable entry hown
      · rcases getLast?_inheritedProperties hinherited with hlast | hlast
        all_goals
          obtain ⟨front, hfront⟩ := List.getLast?_eq_some_iff.mp hlast
          rw [hfront]
          exact Text.trimEnd_concat (by decide) front
  have hbackticks : Text.trimEnd Text.isWhiteSpace (backticksOf content) = backticksOf content ∧
      backticksOf content ≠ [] := by
    unfold backticksOf
    split <;> decide
  by_cases hempty : (codeFenceIdOf extension).getD [] = []
  · rw [hempty, List.append_nil]
    exact Text.trimEnd_append_eq hbackticks.1 hbackticks.2 _
  · rw [← List.append_assoc]
    exact Text.trimEnd_append_eq hid hempty _

/-- The block of a source that is not Markdown has the lines of the source between two code fences
of one size. None of these lines closes the fence exactly when no line of the source consists of
four or more backticks. -/
theorem fencedLines_not_closing_iff (content sourcePath blockPrefix : Text)
    (hfence : ¬IsMarkdown sourcePath) :
    (∃ before after : List Text,
      createReplacement content sourcePath blockPrefix = joinLines (before ++
        (blockPrefix ++ (backticksOf content ++
          (codeFenceIdOf (extensionOf sourcePath)).getD [])) ::
        fencedLines content sourcePath blockPrefix ++
        (blockPrefix ++ backticksOf content) :: after)) ∧
    ((∀ line ∈ fencedLines content sourcePath blockPrefix,
        ¬IsClosingFence blockPrefix (backticksOf content).length line) ↔
      ∀ line ∈ splitLines (Text.trimEnd Text.isWhiteSpace content), ∀ count, 4 ≤ count →
        Text.trimEnd Text.isWhiteSpace line ≠ List.replicate count backtick) := by
  constructor
  · let trimmed := fun line ↦ Text.trimEnd Text.isWhiteSpace (blockPrefix ++ line)
    refine ⟨[trimmed (openTag ++ (sourcePath ++ openTagEnd)), trimmed []],
      [trimmed [], trimmed closeTag], ?_⟩
    have hopening := trimEnd_openingFence content (extensionOf sourcePath) blockPrefix
    have hclosing := trimEnd_openingFence content [] blockPrefix
    rw [show (codeFenceIdOf []).getD [] = [] by decide, List.append_nil] at hclosing
    rw [createReplacement, blockLines_eq]
    simp only [if_neg hfence, List.map_cons, List.map_append, List.map_nil, List.cons_append,
      List.nil_append, List.append_assoc, hopening, hclosing]
    rfl
  · have hsize := length_backticksOf content
    constructor
    · intro hopen line hline count hcount htrim
      have hinfix := codeFence_within (by omega) hline htrim
      rw [if_pos hinfix] at hsize
      refine hopen _ ((exists_fencedLines_backticks hfence (by omega)).mpr ⟨line, hline, htrim⟩) ?_
      exact ⟨count, by omega, rfl⟩
    · rintro hlines fenced hfenced ⟨count, hcount, rfl⟩
      have hthree : 3 ≤ count := by
        split at hsize <;> omega
      obtain ⟨line, hline, htrim⟩ :=
        (exists_fencedLines_backticks hfence (by omega)).mp hfenced
      rw [if_pos (codeFence_within hthree hline htrim)] at hsize
      exact hlines line hline count (by omega) htrim

/-- A source with a line of four backticks: that line closes the fence. -/
theorem fencedLines_closing :
    ¬IsMarkdown "a.ts".toList ∧
      ∃ line ∈ fencedLines (List.replicate 4 backtick) "a.ts".toList " ".toList,
        IsClosingFence " ".toList (backticksOf (List.replicate 4 backtick)).length line := by
  refine ⟨by decide, " ".toList ++ List.replicate 4 backtick, ?_, 4, ?_, rfl⟩
  · decide +kernel
  · decide +kernel

/-- A source with a fence of three backticks inside of a fence of four. -/
theorem fencedLines_open :
    ¬IsMarkdown "a.ts".toList ∧
      ∀ line ∈ fencedLines codeFence "a.ts".toList [],
        ¬IsClosingFence [] (backticksOf codeFence).length line := by
  have hfence : ¬IsMarkdown "a.ts".toList := by decide
  refine ⟨hfence, (fencedLines_not_closing_iff codeFence _ [] hfence).2.mpr ?_⟩
  intro line hline count hcount htrim
  have hlines : ∀ line ∈ splitLines (Text.trimEnd Text.isWhiteSpace codeFence),
      (Text.trimEnd Text.isWhiteSpace line).length = 3 := by decide
  have hlength := hlines line hline
  rw [htrim, List.length_replicate] at hlength
  omega

end CoreUtils.Embedex
