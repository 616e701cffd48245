import CoreUtils.Embedex.EscapedTags

/-!
# Blocks in a comment

A block in a comment is escaped before nested tags are taken out, the text is trimmed and the prefix
is put in front of every line. Two of these steps can bring a star and a slash together again: a
nested tag whose contents end in a star right before a slash, and a prefix that ends in a star
before a line that begins with a slash. There are no others (`createReplacement_no_commentEnd_iff`).
-/

namespace CoreUtils.Embedex

/-- Whether a source is Markdown, which is embedded without a code fence. -/
def IsMarkdown (sourcePath : Text) : Prop := codeFenceIdOf (extensionOf sourcePath) = some []

/-- The kind of a source can be computed. -/
instance (sourcePath : Text) : Decidable (IsMarkdown sourcePath) :=
  inferInstanceAs (Decidable (_ = _))

/-- The text of a source, with the contents of nested tags in their place if it is Markdown. -/
def unwrapped (content sourcePath : Text) : Text :=
  if IsMarkdown sourcePath then
    Text.trim Text.isWhiteSpace (stripNestedTags (Text.trimEnd Text.isWhiteSpace content))
  else content

/-- No tag has contents that end in a star while a slash follows the tag. -/
def NoTagSpills (segs : List Segment) : Prop :=
  ∀ parts : TagParts, [.tag parts, .char '/'] <:+: segs →
    (nestedContent parts.content).getLast? ≠ some '*'

/-- The condition for a block to keep a comment open: under a prefix that ends in a star no line of
the source begins with a slash, and no nested tag of a Markdown source spills over. -/
structure KeepsCommentOpen (content sourcePath blockPrefix : Text) : Prop where
  lines : blockPrefix.getLast? = some '*' →
    ∀ line ∈ splitLines (unwrapped content sourcePath), line.head? ≠ some '/'
  tags : IsMarkdown sourcePath →
    NoTagSpills (segments (Text.trimEnd Text.isWhiteSpace content))

/-! ## Nested tags -/

/-- A segment after nested tags have been replaced by their contents. -/
def unwrap : Segment → Text
  | .char c => [c]
  | .tag parts => nestedContent parts.content

/-- Nested tags are replaced segment by segment. -/
theorem stripNestedTags_eq (content : Text) :
    stripNestedTags content = (segments content).flatMap unwrap := by
  refine congrArg (segments content).flatMap (funext fun seg ↦ ?_)
  cases seg <;> rfl

variable {lineStart : Bool} {segs : List Segment}

/-- A tag follows nothing but a line break, so that after other characters the text begins as it
does without nested tags. -/
theorem head_unwrap (h : Scanned false segs) (c : Char) :
    (segs.flatMap unwrap).head? = some c ↔ ∃ rest, segs = .char c :: rest := by
  cases segs with
  | nil => simp
  | cons seg rest =>
      cases seg with
      | char d => simp [unwrap, eq_comm]
      | tag parts => exact absurd h.1 (by decide)

/-- After other characters the escaped segments begin as the segments do. -/
theorem head_textOf (h : Scanned false segs) (c : Char) :
    (textOf segs).head? = some c ↔ ∃ rest, segs = .char c :: rest := by
  cases segs with
  | nil => simp [textOf]
  | cons seg rest =>
      cases seg with
      | char d => simp [Segment.text, eq_comm]
      | tag parts => exact absurd h.1 (by decide)

/-- Where no nested tag spills over, replacing nested tags commutes with escaping. -/
theorem unwrap_escapeSegments (h : Scanned lineStart segs)
    (hclosed : NoTagSpills segs) :
    (escapeSegments segs).flatMap unwrap = escape (segs.flatMap unwrap) := by
  induction segs generalizing lineStart with
  | nil => rfl
  | cons seg rest ih =>
      have hlater : NoTagSpills rest := fun parts hwithin ↦
        hclosed parts (hwithin.trans (List.suffix_cons seg rest).isInfix)
      cases seg with
      | char c =>
          have hhead : c = '*' ∧ (textOf rest).head? = some '/' ↔
              c = '*' ∧ (rest.flatMap unwrap).head? = some '/' := by
            refine and_congr_right ?_
            rintro rfl
            rw [head_textOf h.2, head_unwrap h.2]
          show (escapeSegments (.char c :: rest)).flatMap unwrap =
            escape (c :: rest.flatMap unwrap)
          rw [escapeSegments]
          by_cases hend : c = '*' ∧ (textOf rest).head? = some '/'
          · rw [if_pos hend, escape_cons_slash (hhead.mp hend), ← ih h.2 hlater]
            rfl
          · rw [if_neg hend, escape_cons (not_and_or.mp (hhead.not.mp hend)), ← ih h.2 hlater]
            rfl
      | tag parts =>
          have hjoint : (nestedContent parts.content).getLast? ≠ some '*' ∨
              (rest.flatMap unwrap).head? ≠ some '/' := by
            by_cases hslash : (rest.flatMap unwrap).head? = some '/'
            · obtain ⟨rest', rfl⟩ := (head_unwrap h.2.2 _).mp hslash
              exact .inl (hclosed parts ⟨[], rest', rfl⟩)
            · exact .inr hslash
          show nestedContent (escape parts.content) ++ (escapeSegments rest).flatMap unwrap =
            escape (nestedContent parts.content ++ rest.flatMap unwrap)
          rw [nestedContent_escape, ih h.2.2 hlater, escape_append hjoint]

/-- A nested tag that spills over brings a star and a slash together. -/
theorem commentEnd_unwrap_escapeSegments {parts : TagParts}
    (hwithin : [.tag parts, .char '/'] <:+: segs)
    (hstar : (nestedContent parts.content).getLast? = some '*') :
    ['*', '/'] <:+: (escapeSegments segs).flatMap unwrap := by
  obtain ⟨before, after, rfl⟩ := hwithin
  have hspill : ∃ text, (escapeSegments (.tag parts :: .char '/' :: after)).flatMap unwrap =
      escape (nestedContent parts.content) ++ '/' :: text := by
    refine ⟨(escapeSegments after).flatMap unwrap, ?_⟩
    rw [escapeSegments, escapeSegments, if_neg (by simp)]
    show nestedContent (escape parts.content) ++ '/' :: (escapeSegments after).flatMap unwrap = _
    rw [nestedContent_escape]
  have hend : ∃ text, ((escapeSegments (before ++ (.tag parts :: .char '/' :: after))).flatMap
      unwrap) = text ++ (escapeSegments (.tag parts :: .char '/' :: after)).flatMap unwrap := by
    induction before with
    | nil => exact ⟨[], rfl⟩
    | cons seg before ih =>
        obtain ⟨text, htext⟩ := ih
        cases seg with
        | char c =>
            rw [List.cons_append, escapeSegments]
            split
            · exact ⟨c :: '\\' :: text, by simp [unwrap, htext]⟩
            · exact ⟨c :: text, by simp [unwrap, htext]⟩
        | tag other =>
            exact ⟨unwrap (.tag other.escape) ++ text, by
              simp [escapeSegments, htext]⟩
  obtain ⟨text, htext⟩ := hend
  obtain ⟨text', htext'⟩ := hspill
  rw [List.append_assoc, List.cons_append, List.cons_append, List.nil_append, htext, htext',
    Text.pair_infix_append, Text.pair_infix_append]
  exact .inr (.inl (.inr (.inr ⟨by rw [getLast_escape, hstar], rfl⟩)))

/-- Without a tag that spills over, taking nested tags out commutes with escaping. -/
theorem stripNestedTags_escape {text : Text}
    (hclosed : NoTagSpills (segments text)) :
    stripNestedTags (escape text) = escape (stripNestedTags text) := by
  rw [stripNestedTags_eq, stripNestedTags_eq, segments_escape,
    unwrap_escapeSegments (scanned_segments text) hclosed]

/-! ## The text of a block -/

/-- White space contains neither stars nor slashes. -/
theorem isWhiteSpace_star_slash :
    Text.isWhiteSpace '*' = false ∧ Text.isWhiteSpace '/' = false := by decide

variable {content sourcePath blockPrefix : Text}

/-- What is put into a block in a comment. -/
theorem processContent_eq (hcomment : isInCommentBlock blockPrefix = true) :
    processContent content blockPrefix (codeFenceIdOf (extensionOf sourcePath)) =
      if IsMarkdown sourcePath then
        Text.trim Text.isWhiteSpace
          (stripNestedTags (escape (Text.trimEnd Text.isWhiteSpace content)))
      else escape (Text.trimEnd Text.isWhiteSpace content) := by
  have hescape : replaceAll "*/".toList "*\\/".toList (Text.trimEnd Text.isWhiteSpace content) =
      escape (Text.trimEnd Text.isWhiteSpace content) := replaceAll_commentEnd _
  simp only [processContent, hcomment, if_true, hescape]
  rfl

/-- The text of a block in a comment is the escaped text of the source, unless a nested tag spills
over. -/
theorem processContent_of_closed (hcomment : isInCommentBlock blockPrefix = true)
    (htags : IsMarkdown sourcePath →
      NoTagSpills (segments (Text.trimEnd Text.isWhiteSpace content))) :
    processContent content blockPrefix (codeFenceIdOf (extensionOf sourcePath)) =
      escape (if IsMarkdown sourcePath then unwrapped content sourcePath
        else Text.trimEnd Text.isWhiteSpace content) := by
  obtain ⟨hstar, hslash⟩ := isWhiteSpace_star_slash
  rw [processContent_eq hcomment]
  by_cases hmarkdown : IsMarkdown sourcePath
  · rw [if_pos hmarkdown, if_pos hmarkdown, stripNestedTags_escape (htags hmarkdown),
      trim_escape hstar hslash, unwrapped, if_pos hmarkdown]
  · rw [if_neg hmarkdown, if_neg hmarkdown]

/-- The text of a block in a comment contains a comment end exactly if a nested tag spills over. -/
theorem commentEnd_processContent (hcomment : isInCommentBlock blockPrefix = true) :
    ['*', '/'] <:+: processContent content blockPrefix (codeFenceIdOf (extensionOf sourcePath)) ↔
      ¬(IsMarkdown sourcePath →
        NoTagSpills (segments (Text.trimEnd Text.isWhiteSpace content))) := by
  obtain ⟨hstar, hslash⟩ := isWhiteSpace_star_slash
  constructor
  · intro hwithin htags
    rw [processContent_of_closed hcomment htags] at hwithin
    exact escape_no_commentEnd _ hwithin
  · intro hspill
    unfold NoTagSpills at hspill
    push Not at hspill
    obtain ⟨hmarkdown, parts, hwithin, hlast⟩ := hspill
    rw [processContent_eq hcomment, if_pos hmarkdown, Text.trim, Text.pair_infix_trimEnd hslash,
      Text.pair_infix_trimStart hstar, stripNestedTags_eq, segments_escape]
    exact commentEnd_unwrap_escapeSegments hwithin hlast

/-- Trimming the end keeps the first characters of lines. -/
theorem exists_line_head_trimEnd {a : Char} (hnewline : a ≠ '\n') (hreturn : a ≠ '\r')
    (hblank : Text.isWhiteSpace a = false) (s : Text) :
    (∃ line ∈ splitLines (Text.trimEnd Text.isWhiteSpace s), line.head? = some a) ↔
      ∃ line ∈ splitLines s, line.head? = some a := by
  rw [exists_line_head hnewline hreturn, exists_line_head hnewline hreturn,
    Text.pair_infix_trimEnd hblank, Text.head_trimEnd hblank]

/-- Unless a nested tag spills over, the lines of a block begin with slashes where the lines of the
source do. -/
theorem exists_slash_processContent (hcomment : isInCommentBlock blockPrefix = true)
    (htags : IsMarkdown sourcePath →
      NoTagSpills (segments (Text.trimEnd Text.isWhiteSpace content))) :
    (∃ line ∈ splitLines
        (processContent content blockPrefix (codeFenceIdOf (extensionOf sourcePath))),
      line.head? = some '/') ↔
      ∃ line ∈ splitLines (unwrapped content sourcePath), line.head? = some '/' := by
  have hslash := isWhiteSpace_star_slash.2
  rw [processContent_of_closed hcomment htags, splitLines_escape]
  simp only [List.mem_map, exists_exists_and_eq_and, head_escape]
  by_cases hmarkdown : IsMarkdown sourcePath
  · rw [if_pos hmarkdown]
  · rw [if_neg hmarkdown, exists_line_head_trimEnd (by decide) (by decide) hslash, unwrapped,
      if_neg hmarkdown]

/-- The identifier of a code fence is from the table, is inherited, or is empty. -/
theorem codeFenceIdOf_cases (extension : Text) :
    (codeFenceIdOf extension).getD [] = [] ∨
      ∃ entry ∈ codeFenceIdByFileExtension ++ inheritedProperties,
        (codeFenceIdOf extension).getD [] = entry.2.toList := by
  unfold codeFenceIdOf
  cases hfind : (codeFenceIdByFileExtension ++ inheritedProperties).find? fun entry ↦
      entry.1.toList == extension with
  | none => exact .inl rfl
  | some entry => exact .inr ⟨entry, List.mem_of_find?_eq_some hfind, rfl⟩

/-- The identifier of a code fence has no character but those of inherited properties. -/
theorem not_mem_codeFenceIdOf {c : Char} (h : isInheritedChar c = false) (extension : Text) :
    c ∉ (codeFenceIdOf extension).getD [] := by
  have htable : ∀ entry ∈ codeFenceIdByFileExtension,
      entry.2.toList.all isInheritedChar = true := by decide +kernel
  rcases codeFenceIdOf_cases extension with hnil | ⟨entry, hentry, hid⟩
  · simp [hnil]
  · intro hmem
    have hall : entry.2.toList.all isInheritedChar = true := by
      rcases List.mem_append.mp hentry with hown | hinherited
      · exact htable entry hown
      · exact all_isInheritedChar hinherited
    rw [hid] at hmem
    have hc := List.all_eq_true.mp hall c hmem
    rw [h] at hc
    contradiction

/-! ## The lines of a block -/

/-- A line that ends a comment, or does so with a star in front of it. -/
def EndsComment (blockPrefix line : Text) : Prop :=
  ['*', '/'] <:+: line ∨ (blockPrefix.getLast? = some '*' ∧ line.head? = some '/')

/-- A line without stars that does not begin with a slash ends no comment. -/
theorem not_endsComment {line : Text} (hstar : '*' ∉ line) (hslash : line.head? ≠ some '/') :
    ¬EndsComment blockPrefix line := by
  rintro (hwithin | ⟨-, hhead⟩)
  · exact Text.not_pair_infix_of_not_mem hstar hwithin
  · exact hslash hhead

/-- A block ends a comment if a line of it does. -/
theorem commentEnd_createReplacement (hbefore : ¬commentEnd <:+: blockPrefix) :
    commentEnd <:+: createReplacement content sourcePath blockPrefix ↔
      ∃ line ∈ blockLines content sourcePath blockPrefix, EndsComment blockPrefix line := by
  show ['*', '/'] <:+: joinLines _ ↔ _
  have hnoPrefix : ¬['*', '/'] <:+: blockPrefix := hbefore
  simp only [pair_infix_joinLines (a := '*') (b := '/') (by decide), List.mem_map,
    exists_exists_and_eq_and, Text.pair_infix_trimEnd isWhiteSpace_star_slash.2,
    Text.pair_infix_append, hnoPrefix, false_or, EndsComment]

/-- The backticks of the code fence around a source. -/
def backticksOf (content : Text) : Text :=
  if codeFence <:+: content then backtick :: codeFence else codeFence

/-- The lines of a block: the tag, and between blank lines the text of the source, in a code fence
unless it is Markdown. -/
theorem blockLines_eq (content sourcePath blockPrefix : Text) :
    blockLines content sourcePath blockPrefix =
      let codeFenceId := codeFenceIdOf (extensionOf sourcePath)
      let contentLines := splitLines (processContent content blockPrefix codeFenceId)
      (openTag ++ (sourcePath ++ openTagEnd)) :: [] ::
        (if IsMarkdown sourcePath then contentLines
          else (backticksOf content ++ codeFenceId.getD []) :: contentLines ++
            [backticksOf content]) ++ [[], closeTag] := rfl

/-- The line of the opening tag ends no comment. -/
theorem openTag_line_endsComment (hpath : ¬commentEnd <:+: sourcePath) (blockPrefix : Text) :
    ¬EndsComment blockPrefix (openTag ++ (sourcePath ++ openTagEnd)) := by
  have hnoPath : ¬['*', '/'] <:+: sourcePath := hpath
  have hopen : ¬['*', '/'] <:+: openTag := Text.not_pair_infix_of_not_mem (by decide)
  have hend : ¬['*', '/'] <:+: openTagEnd := Text.not_pair_infix_of_not_mem (by decide)
  have hlast : openTag.getLast? ≠ some '*' := by decide
  have hhead : openTagEnd.head? ≠ some '/' := by decide
  have hfirst : openTag.head? = some '<' := by decide
  unfold EndsComment
  rw [Text.pair_infix_append, Text.pair_infix_append,
    List.head?_append (l := openTag), hfirst]
  simp only [hnoPath, hopen, hend, hlast, hhead, false_or, false_and, and_false, or_false,
    Option.some_or, Option.some.injEq]
  exact fun hslash ↦ absurd hslash.2 (by decide)

/-- The lines of a code fence end no comment. -/
theorem backticksOf_endsComment (content blockPrefix codeFenceId : Text)
    (hstar : '*' ∉ codeFenceId) :
    ¬EndsComment blockPrefix (backticksOf content ++ codeFenceId) := by
  have hnone : '*' ∉ codeFence ∧ '*' ∉ backtick :: codeFence := by decide
  have hhead : codeFence.head? = some backtick ∧ (backtick :: codeFence).head? = some backtick := by
    decide
  have hne : some backtick ≠ some '/' := by decide
  unfold backticksOf
  split
  · refine not_endsComment ?_ ?_
    · rw [List.mem_append, not_or]
      exact ⟨hnone.2, hstar⟩
    · rw [List.head?_append, hhead.2]
      exact hne
  · refine not_endsComment ?_ ?_
    · rw [List.mem_append, not_or]
      exact ⟨hnone.1, hstar⟩
    · rw [List.head?_append, hhead.1]
      exact hne

/-- Only the lines of the source can end a comment. -/
theorem exists_blockLines_endsComment (hpath : ¬commentEnd <:+: sourcePath) :
    (∃ line ∈ blockLines content sourcePath blockPrefix, EndsComment blockPrefix line) ↔
      ∃ line ∈ splitLines
        (processContent content blockPrefix (codeFenceIdOf (extensionOf sourcePath))),
        EndsComment blockPrefix line := by
  have hopen := openTag_line_endsComment hpath blockPrefix
  have hblank : ¬EndsComment blockPrefix [] := not_endsComment (by simp) (by simp)
  have hclose : ¬EndsComment blockPrefix closeTag := not_endsComment (by decide) (by decide)
  have hfence := backticksOf_endsComment content blockPrefix _
    (not_mem_codeFenceIdOf (by decide) (extensionOf sourcePath))
  have hfenceEnd := backticksOf_endsComment content blockPrefix [] (by simp)
  rw [List.append_nil] at hfenceEnd
  rw [blockLines_eq]
  constructor
  · rintro ⟨line, hline, hends⟩
    refine ⟨line, ?_, hends⟩
    by_contra hother
    split at hline
    all_goals
      simp only [List.cons_append, List.mem_cons, List.mem_append, List.not_mem_nil, or_false,
        hother, false_or] at hline
      grind
  · rintro ⟨line, hline, hends⟩
    refine ⟨line, ?_, hends⟩
    split <;> simp [hline]

/-- A block in a comment keeps the comment open exactly when no line of the source begins with a
slash under a prefix that ends in a star, and no nested tag of a Markdown source spills over. -/
theorem createReplacement_no_commentEnd_iff (content sourcePath blockPrefix : Text)
    (hcomment : isInCommentBlock blockPrefix = true) (hbefore : ¬commentEnd <:+: blockPrefix)
    (hpath : ¬commentEnd <:+: sourcePath) :
    ¬commentEnd <:+: createReplacement content sourcePath blockPrefix ↔
      KeepsCommentOpen content sourcePath blockPrefix := by
  have hends : commentEnd <:+: createReplacement content sourcePath blockPrefix ↔
      ['*', '/'] <:+: processContent content blockPrefix (codeFenceIdOf (extensionOf sourcePath)) ∨
        (blockPrefix.getLast? = some '*' ∧ ∃ line ∈ splitLines
          (processContent content blockPrefix (codeFenceIdOf (extensionOf sourcePath))),
          line.head? = some '/') := by
    rw [commentEnd_createReplacement hbefore, exists_blockLines_endsComment hpath,
      ← exists_line_pair (a := '*') (b := '/') (by decide) (by decide)]
    simp only [EndsComment]
    grind
  rw [hends, commentEnd_processContent hcomment]
  constructor
  · intro hopen
    rw [not_or, not_not] at hopen
    obtain ⟨htags, hlines⟩ := hopen
    rw [exists_slash_processContent hcomment htags] at hlines
    refine ⟨fun hstar line hline hslash ↦ hlines ⟨hstar, line, hline, hslash⟩, htags⟩
  · rintro ⟨hlines, htags⟩
    rw [exists_slash_processContent hcomment htags]
    rintro (hspill | ⟨hstar, line, hline, hslash⟩)
    · exact hspill htags
    · exact hlines hstar line hline hslash

/-- Two blocks that end the comment around them: a line comment directly after the star of the
prefix, and a nested tag of a Markdown source that ends in a star before a slash. -/
theorem createReplacement_commentEnd :
    (isInCommentBlock " *".toList = true ∧ ¬commentEnd <:+: " *".toList ∧
      ¬commentEnd <:+: "a.ts".toList ∧
      commentEnd <:+: createReplacement "// a".toList "a.ts".toList " *".toList) ∧
    (isInCommentBlock " * ".toList = true ∧ ¬commentEnd <:+: " * ".toList ∧
      ¬commentEnd <:+: "a.md".toList ∧
      commentEnd <:+: createReplacement "<embedex source=\"b\">b*</embedex>/".toList
        "a.md".toList " * ".toList) := by
  decide +kernel

/-- A source whose comments are escaped, under the usual prefix. -/
theorem createReplacement_commentBlock :
    isInCommentBlock " * ".toList = true ∧ ¬commentEnd <:+: " * ".toList ∧
      ¬commentEnd <:+: "a.ts".toList ∧
      ¬commentEnd <:+: createReplacement "/** a */".toList "a.ts".toList " * ".toList := by
  refine ⟨by decide, by decide, by decide, ?_⟩
  refine (createReplacement_no_commentEnd_iff _ _ _ (by decide) (by decide) (by decide)).mpr ?_
  exact ⟨fun hstar ↦ absurd hstar (by decide), fun hmarkdown ↦ absurd hmarkdown (by decide)⟩

end CoreUtils.Embedex
