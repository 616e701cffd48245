import CoreUtils.Embedex.CommentSafety
import CoreUtils.Embedex.InPlace

/-!
# Scanning a text that has been written

The block of a tag is a tag with the same prefix and path. If nothing closes it before its end, it
is the match at its place in the updated text (`matchTag_blockTag`), whatever follows it there. The
characters outside of tags are no part of a match afterwards either, so that the segments of the
updated text are those of the text with the blocks in the place of the tags (`Scanned.rescan`).
-/

namespace CoreUtils.Embedex

/-! ## The block as a tag -/

variable {content sourcePath blockPrefix : Text}

/-- The lines of a block between its opening tag and its closing tag. -/
def innerLines (content sourcePath blockPrefix : Text) : List Text :=
  let codeFenceId := codeFenceIdOf (extensionOf sourcePath)
  let contentLines := splitLines (processContent content blockPrefix codeFenceId)
  [] ::
    (if IsMarkdown sourcePath then contentLines
      else (backticksOf content ++ codeFenceId.getD []) :: contentLines ++
        [backticksOf content]) ++ [[]]

/-- The tag that a block is. -/
def blockTag (content sourcePath blockPrefix : Text) : TagParts where
  blockPrefix := blockPrefix
  source := sourcePath
  newline := ['\n']
  content := joinLines
    ((innerLines content sourcePath blockPrefix).map (fun line ↦
      Text.trimEnd Text.isWhiteSpace (blockPrefix ++ line)) ++ [blockPrefix])

/-- No closing tag comes before the end of a block. -/
def ClosesAtEnd (content sourcePath blockPrefix : Text) : Prop :=
  ¬closeTag <:+: (blockTag content sourcePath blockPrefix).content

/-- Whether a block is closed at its end can be checked. -/
instance decidableClosesAtEnd (content sourcePath blockPrefix : Text) :
    Decidable (ClosesAtEnd content sourcePath blockPrefix) :=
  inferInstanceAs (Decidable ¬_)

/-- Lines are joined one after another. -/
theorem joinLines_cons (line : Text) {lines : List Text} (h : lines ≠ []) :
    joinLines (line :: lines) = line ++ '\n' :: joinLines lines := by
  obtain ⟨line', rest, rfl⟩ := List.exists_cons_of_ne_nil h
  exact joinLines_cons_cons line line' rest

/-- The last line can be joined in two parts. -/
theorem joinLines_concat_append (lines : List Text) (front back : Text) :
    joinLines (lines ++ [front ++ back]) = joinLines (lines ++ [front]) ++ back := by
  induction lines with
  | nil => simp [joinLines]
  | cons line lines ih =>
      rw [List.cons_append, List.cons_append, joinLines_cons _ (by simp),
        joinLines_cons _ (by simp), ih]
      simp

/-- The first and the last line of a block are its tags. -/
theorem blockLines_split (content sourcePath blockPrefix : Text) :
    blockLines content sourcePath blockPrefix =
      (openTag ++ (sourcePath ++ openTagEnd)) ::
        (innerLines content sourcePath blockPrefix ++ [closeTag]) := by
  rw [blockLines_eq]
  simp [innerLines]

/-- The block is the text of its tag. -/
theorem fullMatch_blockTag (content sourcePath blockPrefix : Text) :
    (blockTag content sourcePath blockPrefix).fullMatch =
      createReplacement content sourcePath blockPrefix := by
  have hopening : Text.trimEnd Text.isWhiteSpace
      (blockPrefix ++ (openTag ++ (sourcePath ++ openTagEnd))) =
        blockPrefix ++ (openTag ++ (sourcePath ++ openTagEnd)) := by
    have hend : openTagEnd = ['"'] ++ ['>'] := by decide
    rw [hend, ← List.append_assoc, ← List.append_assoc, ← List.append_assoc]
    exact Text.trimEnd_concat (by decide) _
  have hclosing : Text.trimEnd Text.isWhiteSpace (blockPrefix ++ closeTag) =
      blockPrefix ++ closeTag :=
    Text.trimEnd_append_eq (by decide) (by decide) _
  rw [createReplacement, blockLines_split, List.map_cons, List.map_append, hopening,
    List.map_singleton, hclosing, joinLines_cons _ (by simp), joinLines_concat_append]
  simp [TagParts.fullMatch, blockTag]

/-! ## The match at a block -/

variable {s after rest : Text} {parts : TagParts}

/-- The match is determined by the last opening tag that is closed, with the shortest path, and by
the first closing tag. -/
theorem matchTag_of_opens (hopens : Opens s parts.blockPrefix parts.source after)
    (hafter : after = parts.newline ++ (parts.content ++ (closeTag ++ rest)))
    (hnewline : parts.newline = lineBreakOf after)
    (hclosest : ∀ x y, after = x ++ (closeTag ++ y) →
      (parts.newline ++ parts.content).length ≤ x.length)
    (hlongest : ∀ p q after', Opens s p q after' → p.length ≤ parts.blockPrefix.length)
    (hshortest : ∀ q after', Opens s parts.blockPrefix q after' →
      parts.source.length ≤ q.length) : matchTag s = some parts := by
  cases hmatch : matchTag s with
  | none => exact absurd hopens (matchTag_eq_none.mp hmatch _ _ _)
  | some found =>
      obtain ⟨after', rest', hopens', hsplit', hafter', hclosest', hlongest', hshortest'⟩ :=
        matchTag_spec hmatch
      have hnewline' := matchTag_newline (hsplit' ▸ hmatch)
      rw [← hafter'] at hnewline'
      -- one prefix, one path, and so one text after the opening tag
      have hlength := le_antisymm (hlongest _ _ _ hopens') (hlongest' _ _ _ hopens)
      have hsame := hopens'.split.symm.trans hopens.split
      obtain ⟨hbegin, htail⟩ := List.append_inj hsame hlength
      have hopens'' := hopens'
      rw [hbegin] at hopens''
      have hsource := le_antisymm (hshortest' _ _ (hbegin.symm ▸ hopens)) (hshortest _ _ hopens'')
      obtain ⟨hpath, htail⟩ := List.append_inj (List.append_cancel_left htail) hsource
      obtain rfl := List.append_cancel_left htail
      -- the line break is the same, and the contents reach to the first closing tag
      have hbreak := hnewline'.trans hnewline.symm
      have hcontents : (found.newline ++ found.content).length =
          (parts.newline ++ parts.content).length :=
        le_antisymm (hclosest' (parts.newline ++ parts.content) rest (by simp [hafter]))
          (hclosest (found.newline ++ found.content) rest' (by simp [hafter']))
      have hboth := hafter'.symm.trans hafter
      rw [hbreak] at hboth hcontents
      obtain ⟨hcontent, -⟩ := List.append_inj (List.append_cancel_left hboth)
        (by simpa using hcontents)
      show some (TagParts.mk found.blockPrefix found.source found.newline found.content) = _
      rw [hbegin, hpath, hbreak, hcontent]

/-- The characters of an opening tag stay on its line. -/
theorem Opens.line (h : Opens s blockPrefix sourcePath after) :
    ∃ line, s = line ++ after ∧ line = blockPrefix ++ (openTag ++ (sourcePath ++ openTagEnd)) ∧
      ∀ c ∈ line, isLineChar c = true := by
  have htag : ∀ c ∈ openTag ++ openTagEnd, isLineChar c = true :=
    List.all_eq_true.mp (show (openTag ++ openTagEnd).all isLineChar = true from rfl)
  refine ⟨_, by simp [h.split], rfl, fun c hc ↦ ?_⟩
  simp only [List.mem_append] at hc htag
  rcases hc with hc | hc | hc | hc
  · exact h.prefix_line c hc
  · exact htag c (.inl hc)
  · exact h.source_line c hc
  · exact htag c (.inr hc)

/-- An opening tag in front of a line break opens as well with something else that is closed in the
place of the break. -/
theorem Opens.replace_rest {line rest' : Text} (h : Opens (line ++ '\n' :: rest) blockPrefix
    sourcePath after) (hclosed : closeTag <:+: rest') :
    ∃ after', Opens (line ++ rest') blockPrefix sourcePath after' := by
  obtain ⟨opening, hsplit, hopening, hchars⟩ := h.line
  obtain ⟨tail, rfl⟩ : opening <+: line := by
    rcases List.append_eq_append_iff.mp hsplit with ⟨more, rfl, hrest⟩ | ⟨tail, rfl, -⟩
    · cases more with
      | nil => simp
      | cons c more =>
          obtain ⟨rfl, -⟩ := List.cons.inj hrest
          exact absurd (hchars '\n' (by simp)) (by decide)
    · exact ⟨tail, rfl⟩
  refine ⟨tail ++ rest', by simp [hopening], h.prefix_line, h.source_ne, h.source_line, ?_⟩
  exact hclosed.trans (List.suffix_append _ _).isInfix

/-- The first closing tag after some text is the one that follows it, if it contains none. -/
theorem length_le_of_no_closeTag {front x y : Text} (h : ¬closeTag <:+: front)
    (hsplit : front ++ (closeTag ++ rest) = x ++ (closeTag ++ y)) : front.length ≤ x.length := by
  by_contra hshorter
  rcases List.append_eq_append_iff.mp hsplit with ⟨u, hx, -⟩ | ⟨u, hfront, hclose⟩
  · simp [hx] at hshorter
  · rcases List.append_eq_append_iff.mp hclose with ⟨v, rfl, -⟩ | ⟨v, hword, hrest⟩
    · exact h ⟨x, v, by simp [hfront]⟩
    · -- a closing tag does not begin inside of a closing tag
      cases v with
      | nil => exact h ⟨x, [], by simp [hfront, hword]⟩
      | cons c v =>
          obtain ⟨rfl, -⟩ := List.cons.inj (show '<' :: _ = c :: _ from hrest)
          cases u with
          | nil => simp [hfront] at hshorter
          | cons d u =>
              have hclean : '<' ∉ closeTag.tail := by decide
              refine absurd ?_ hclean
              rw [hword]
              simp

/-- The block of a tag is a match wherever it stands, if it is closed at its end. -/
theorem matchTag_blockTag {rest₀ : Text} (hmatch : matchTag (parts.fullMatch ++ rest₀) = some parts)
    (hcloses : ClosesAtEnd content parts.source parts.blockPrefix) (rest : Text) :
    matchTag ((blockTag content parts.source parts.blockPrefix).fullMatch ++ rest) =
      some (blockTag content parts.source parts.blockPrefix) := by
  obtain ⟨after₀, rest', hopens, -, -, -, hlongest, hshortest⟩ := matchTag_spec hmatch
  obtain ⟨line, hsplit, hline, -⟩ := hopens.line
  set block := blockTag content parts.source parts.blockPrefix with hblock
  have htext : block.fullMatch ++ rest =
      line ++ '\n' :: (block.content ++ (closeTag ++ rest)) := by
    simp [TagParts.fullMatch, hblock, blockTag, hline]
  -- other opening tags of the line would have opened in front of the tag's own contents, too
  have hother : ∀ {p q after'}, Opens (block.fullMatch ++ rest) p q after' →
      ∃ after'', Opens (parts.fullMatch ++ rest₀) p q after'' := by
    intro p q after' h
    rw [htext] at h
    rw [hsplit]
    exact h.replace_rest hopens.closed
  have hblockOpens : Opens (block.fullMatch ++ rest) block.blockPrefix block.source
      ('\n' :: (block.content ++ (closeTag ++ rest))) := by
    refine ⟨?_, hopens.prefix_line, hopens.source_ne, hopens.source_line, ?_⟩
    · rw [htext, hline]
      simp only [List.append_assoc]
      rfl
    · exact ⟨'\n' :: block.content, rest, by simp⟩
  have hafter : '\n' :: (block.content ++ (closeTag ++ rest)) =
      block.newline ++ (block.content ++ (closeTag ++ rest)) := rfl
  refine matchTag_of_opens hblockOpens hafter rfl ?_ ?_ ?_
  · intro x y h
    refine length_le_of_no_closeTag ?_
      (show ('\n' :: block.content) ++ (closeTag ++ rest) = x ++ (closeTag ++ y) from h)
    show ¬closeTag <:+: '\n' :: block.content
    rw [List.infix_cons_iff, not_or]
    refine ⟨?_, hcloses⟩
    rintro ⟨t, ht⟩
    exact absurd (List.cons.inj (show '<' :: _ = '\n' :: _ from ht)).1 (by decide)
  · intro p q after' h
    obtain ⟨after'', h'⟩ := hother h
    exact hlongest _ _ _ h'
  · intro q after' h
    obtain ⟨after'', h'⟩ := hother h
    exact hshortest _ _ h'

/-! ## Line breaks -/

/-- Turning CRLF into LF drops the returns that a newline follows. -/
theorem normalizeNewlines_cons (c : Char) (s : Text) :
    normalizeNewlines (c :: s) =
      if c = '\r' ∧ s.head? = some '\n' then normalizeNewlines s else c :: normalizeNewlines s := by
  simp only [normalizeNewlines, replaceAll_of_plain (show isPlain ['\n'] = true by decide)]
  split
  · rename_i hbreak
    obtain ⟨rfl, hnewline⟩ := hbreak
    obtain ⟨rest, rfl⟩ : ∃ rest, s = '\n' :: rest := ⟨s.tail, List.eq_cons_of_mem_head? hnewline⟩
    rw [replaceLiteral_cons (s := rest) (by simp)]
    exact replaceLiteral_append (List.cons_ne_nil '\r' ['\n']) ['\n'] rest
  · rename_i hbreak
    refine replaceLiteral_cons ?_
    rintro ⟨rest, hsplit⟩
    obtain ⟨rfl, rfl⟩ := List.cons.inj (show '\r' :: '\n' :: rest = c :: s from hsplit)
    exact hbreak ⟨rfl, rfl⟩

/-- Texts between which no CRLF stands are normalized separately; the first one is kept if it has
none. -/
theorem normalizeNewlines_append {s t : Text} (hs : ¬['\r', '\n'] <:+: s)
    (hbetween : s.getLast? ≠ some '\r' ∨ t.head? ≠ some '\n') :
    normalizeNewlines (s ++ t) = s ++ normalizeNewlines t := by
  have hboth : ¬(s.getLast? = some '\r' ∧ t.head? = some '\n') :=
    fun h ↦ hbetween.elim (· h.1) (· h.2)
  clear hbetween
  induction s with
  | nil => rfl
  | cons c s ih =>
      rw [Text.pair_infix_cons, not_or] at hs
      rw [List.cons_append, normalizeNewlines_cons, if_neg, ih hs.2]
      · rfl
      · cases s with
        | nil => simp
        | cons d s => exact fun h ↦ hboth (by simpa using h)
      · cases s with
        | nil => exact fun h ↦ hboth (by simpa using h)
        | cons d s => exact hs.1

/-- Joined lines have no CRLF when no line has a newline or ends with a return. -/
theorem no_crlf_joinLines {lines : List Text}
    (h : ∀ line ∈ lines, '\n' ∉ line ∧ line.getLast? ≠ some '\r') :
    ¬['\r', '\n'] <:+: joinLines lines := by
  have hline : ∀ line ∈ lines, ¬['\r', '\n'] <:+: line :=
    fun line hmem hwithin ↦ (h line hmem).1 (hwithin.subset (by simp))
  induction lines with
  | nil => simp [joinLines]
  | cons line lines ih =>
      cases lines with
      | nil => simpa [joinLines] using hline
      | cons line' lines =>
          have hrest := ih (fun other hother ↦ h other (List.mem_cons_of_mem _ hother))
            fun other hother ↦ hline other (List.mem_cons_of_mem _ hother)
          rw [joinLines_cons_cons, Text.pair_infix_append, Text.pair_infix_cons]
          simp [hline line List.mem_cons_self, hrest, (h line List.mem_cons_self).2]

/-- A line has no newline. -/
theorem newline_not_mem_splitLines {s line : Text} (h : line ∈ splitLines s) : '\n' ∉ line := by
  fun_induction splitLines s generalizing line with
  | case1 => simp [List.mem_singleton.mp h]
  | case2 s ih | case3 s ih =>
      rcases List.mem_cons.mp h with rfl | hrest
      · simp
      · exact ih hrest
  | case4 c s _ hnewline ih =>
      obtain ⟨first, lines, hlines⟩ := List.exists_cons_of_ne_nil (splitLines_ne_nil s)
      rw [hlines] at h ih
      rcases List.mem_cons.mp h with rfl | hrest
      · rw [List.mem_cons, not_or]
        exact ⟨fun hsame ↦ hnewline hsame.symm, ih List.mem_cons_self⟩
      · exact ih (List.mem_cons_of_mem _ hrest)

/-- A line of a block has no newline. -/
theorem newline_not_mem_blockLines {line : Text} (hpath : ∀ c ∈ sourcePath, isLineChar c = true)
    (h : line ∈ blockLines content sourcePath blockPrefix) : '\n' ∉ line := by
  have hnewline : isLineChar '\n' = false := by decide
  have hbackticks : '\n' ∉ backticksOf content := by
    unfold backticksOf
    split <;> decide
  have hid : '\n' ∉ (codeFenceIdOf (extensionOf sourcePath)).getD [] :=
    not_mem_codeFenceIdOf (by decide) _
  have hcontent : ∀ line ∈ splitLines
      (processContent content blockPrefix (codeFenceIdOf (extensionOf sourcePath))),
      '\n' ∉ line := fun line hline ↦ newline_not_mem_splitLines hline
  have htags : '\n' ∉ openTag ∧ '\n' ∉ openTagEnd ∧ '\n' ∉ closeTag := by decide
  have hsource : '\n' ∉ sourcePath := fun hmem ↦ by simp [hpath _ hmem] at hnewline
  rw [blockLines_eq] at h
  split at h
  all_goals
    simp only [List.cons_append, List.mem_cons, List.mem_append, List.not_mem_nil, or_false] at h
    grind

/-- A block has no CRLF. -/
theorem no_crlf_createReplacement (hbegin : ∀ c ∈ blockPrefix, isLineChar c = true)
    (hpath : ∀ c ∈ sourcePath, isLineChar c = true) :
    ¬['\r', '\n'] <:+: createReplacement content sourcePath blockPrefix := by
  have hblank : Text.isWhiteSpace '\r' = true := by decide
  have hnewline : isLineChar '\n' = false := by decide
  refine no_crlf_joinLines fun trimmed htrimmed ↦ ?_
  obtain ⟨line, hline, rfl⟩ := List.mem_map.mp htrimmed
  obtain ⟨blanks, hsplit, -⟩ := Text.exists_trimEnd_append Text.isWhiteSpace (blockPrefix ++ line)
  constructor
  · intro hmem
    have hboth : '\n' ∈ blockPrefix ++ line := by
      rw [hsplit]
      exact List.mem_append_left _ hmem
    rcases List.mem_append.mp hboth with hbefore | hwithin
    · simp [hbegin _ hbefore] at hnewline
    · exact newline_not_mem_blockLines hpath hline hwithin
  · intro hlast
    have hne : Text.trimEnd Text.isWhiteSpace (blockPrefix ++ line) ≠ [] :=
      fun hnil ↦ by simp [hnil] at hlast
    rw [List.getLast?_eq_some_getLast hne, Option.some.injEq] at hlast
    have hnot := List.rdropWhile_last_not Text.isWhiteSpace (blockPrefix ++ line) hne
    exact hnot (hlast.symm ▸ hblank)

/-! ## Segments -/

/-- The segments of a text after all tags have been replaced and CRLF has been turned into LF. -/
def rescan (retag : TagParts → TagParts) : List Segment → List Segment
  | [] => []
  | .char c :: rest =>
      if c = '\r' ∧ rest.head? = some (.char '\n') then rescan retag rest
      else .char c :: rescan retag rest
  | .tag parts :: rest => .tag (retag parts) :: rescan retag rest

variable {retag : TagParts → TagParts} {segs : List Segment} {lineStart : Bool}

/-- A line of a rescanned text that is not interrupted by a tag is a line of the text. -/
theorem line_of_rescan {line after : Text} (hline : ∀ c ∈ line, isLineChar c = true)
    (h : Scanned false segs) (htext : textOf (rescan retag segs) = line ++ after) :
    ∃ rest lineStart, Scanned lineStart rest ∧ textOf segs = line ++ textOf rest ∧
      textOf (rescan retag rest) = after := by
  induction line generalizing segs with
  | nil => exact ⟨segs, false, h, rfl, htext⟩
  | cons d line ih =>
      cases segs with
      | nil => simp [rescan, textOf] at htext
      | cons seg rest =>
          cases seg with
          | tag parts => exact absurd h.1 (by simp)
          | char c =>
              have hd := hline d List.mem_cons_self
              rw [rescan] at htext
              split at htext
              · -- what is left of a CRLF is no character of a line
                rename_i hbreak
                obtain ⟨rest', rfl⟩ : ∃ rest', rest = .char '\n' :: rest' :=
                  ⟨rest.tail, List.eq_cons_of_mem_head? hbreak.2⟩
                rw [rescan, if_neg (by simp)] at htext
                obtain ⟨rfl, -⟩ := List.cons.inj (show '\n' :: _ = d :: _ from htext)
                exact absurd hd (by decide)
              · obtain ⟨rfl, htail⟩ := List.cons.inj (show c :: _ = d :: _ from htext)
                have hafter : isLineTerminator c = false := by simpa [isLineChar] using hd
                obtain ⟨rest', lineStart, hscanned, hrest, hback⟩ :=
                  ih (fun c hc ↦ hline c (List.mem_cons_of_mem _ hc)) (hafter ▸ h.2) htail
                exact ⟨rest', lineStart, hscanned, by simp [Segment.text, hrest], hback⟩

/-- A closing tag in a rescanned text comes from the text. -/
theorem closeTag_of_rescan (h : Scanned lineStart segs)
    (hclosed : closeTag <:+: textOf (rescan retag segs)) : closeTag <:+: textOf segs := by
  have hword : closeTag = '<' :: closeTag.tail := by decide
  have hchars : ∀ c ∈ closeTag.tail, isLineChar c = true :=
    List.all_eq_true.mp (show closeTag.tail.all isLineChar = true from rfl)
  induction segs generalizing lineStart with
  | nil => exact hclosed
  | cons seg rest ih =>
      rw [textOf_cons]
      cases seg with
      | tag parts =>
          refine ⟨parts.blockPrefix ++ (openTag ++ (parts.source ++ (openTagEnd ++
            (parts.newline ++ parts.content)))), textOf rest, ?_⟩
          simp [Segment.text, TagParts.fullMatch]
      | char c =>
          have hlater : closeTag <:+: textOf rest → closeTag <:+: [c] ++ textOf rest :=
            fun hrest ↦ hrest.trans (List.suffix_append _ _).isInfix
          rw [rescan] at hclosed
          split at hclosed
          · exact hlater (ih h.2 hclosed)
          · rcases List.infix_cons_iff.mp (show closeTag <:+: c :: _ from hclosed) with
              ⟨after, hstarts⟩ | hrest
            · rw [hword, List.cons_append] at hstarts
              obtain ⟨rfl, htail⟩ := List.cons.inj hstarts
              obtain ⟨rest', -, -, htext, -⟩ :=
                line_of_rescan hchars (show Scanned false rest from h.2) htail.symm
              refine ⟨[], textOf rest', ?_⟩
              rw [htext, hword]
              rfl
            · exact hlater (ih h.2 hrest)

/-- Where no tag is matched, none is after the rescan. -/
theorem matchTag_rescan_eq_none {c : Char} (h : Scanned (isLineTerminator c) segs)
    (hnone : matchTag (c :: textOf segs) = none) :
    matchTag (c :: textOf (rescan retag segs)) = none := by
  rw [matchTag_eq_none] at hnone ⊢
  intro p q after hopens
  obtain ⟨opening, hsplit, hopening, hchars⟩ := hopens.line
  have hopen : openTag ≠ [] := by decide
  cases opening with
  | nil => simp [hopen] at hopening
  | cons d opening =>
      obtain ⟨rfl, htail⟩ := List.cons.inj (show c :: _ = d :: _ from hsplit)
      have hafter : isLineTerminator c = false := by
        simpa [isLineChar] using hchars c List.mem_cons_self
      obtain ⟨rest, lineStart, hscanned, htext, rfl⟩ := line_of_rescan
        (fun d hd ↦ hchars d (List.mem_cons_of_mem _ hd)) (hafter ▸ h) htail
      refine hnone p q (textOf rest) ⟨?_, hopens.prefix_line, hopens.source_ne,
        hopens.source_line, closeTag_of_rescan hscanned hopens.closed⟩
      rw [htext, ← List.cons_append, hopening]
      simp

/-- The rescanned segments are what the scan makes sure of, if the tags that have been put in are
matches whatever follows them. -/
theorem Scanned.rescan (h : Scanned lineStart segs)
    (hretag : ∀ parts, .tag parts ∈ segs → ∀ rest,
      matchTag ((retag parts).fullMatch ++ rest) = some (retag parts)) :
    Scanned lineStart (rescan retag segs) := by
  induction segs generalizing lineStart with
  | nil => trivial
  | cons seg rest ih =>
      have hrest : ∀ parts, .tag parts ∈ rest → ∀ rest',
          matchTag ((retag parts).fullMatch ++ rest') = some (retag parts) :=
        fun parts hparts ↦ hretag parts (List.mem_cons_of_mem _ hparts)
      cases seg with
      | tag parts => exact ⟨h.1, hretag parts List.mem_cons_self _, ih h.2.2 hrest⟩
      | char c =>
          have hscanned := ih h.2 hrest
          rw [Embedex.rescan]
          split
          · -- the newline is at the start of an empty line now as before
            rename_i hbreak
            obtain ⟨rfl, hnewline⟩ := hbreak
            obtain ⟨rest', rfl⟩ : ∃ rest', rest = .char '\n' :: rest' :=
              ⟨rest.tail, List.eq_cons_of_mem_head? hnewline⟩
            rw [Embedex.rescan, if_neg (by simp)] at hscanned ⊢
            exact ⟨fun _ ↦ hscanned.1 rfl, hscanned.2⟩
          · exact ⟨fun hstart ↦ matchTag_rescan_eq_none h.2 (h.1 hstart), hscanned⟩

/-- The rescanned segments make up the text that is written, with CRLF turned into LF. -/
theorem textOf_rescan (hcrlf : ∀ parts, .tag parts ∈ segs →
      ¬['\r', '\n'] <:+: (retag parts).fullMatch)
    (hbegin : ∀ parts, .tag parts ∈ segs → ∀ c ∈ (retag parts).blockPrefix,
      isLineChar c = true) :
    textOf (rescan retag segs) =
      normalizeNewlines (segs.flatMap (replacedText fun parts ↦ (retag parts).fullMatch)) := by
  induction segs with
  | nil => rfl
  | cons seg rest ih =>
      have hih := ih (fun parts hparts ↦ hcrlf parts (List.mem_cons_of_mem _ hparts))
        fun parts hparts ↦ hbegin parts (List.mem_cons_of_mem _ hparts)
      rw [List.flatMap_cons]
      cases seg with
      | tag parts =>
          obtain ⟨c, u, hfull⟩ := fullMatch_eq (retag parts)
          have hlast : (retag parts).fullMatch.getLast? ≠ some '\r' := by
            rw [hfull, ← List.cons_append, List.getLast?_concat]
            decide
          rw [replacedText, normalizeNewlines_append (hcrlf parts List.mem_cons_self) (.inl hlast),
            ← hih]
          rfl
      | char c =>
          rw [replacedText, List.singleton_append, normalizeNewlines_cons, rescan, ← hih]
          -- a newline comes next in the text only as a character outside of tags
          have hhead : (rest.flatMap (replacedText fun parts ↦ (retag parts).fullMatch)).head? =
              some '\n' ↔ rest.head? = some (.char '\n') := by
            cases rest with
            | nil => simp
            | cons next rest =>
                cases next with
                | char d => simp [replacedText]
                | tag parts =>
                    have hstart : (retag parts).fullMatch.head? ≠ some '\n' := by
                      intro hnewline
                      have hchars := hbegin parts (by simp)
                      have hopen : openTag.head? = some '<' := by decide
                      rw [TagParts.fullMatch, List.head?_append] at hnewline
                      cases hbefore : (retag parts).blockPrefix with
                      | nil =>
                          rw [hbefore] at hnewline
                          simp [List.head?_append, hopen] at hnewline
                      | cons d front =>
                          rw [hbefore] at hnewline hchars
                          have hd : d = '\n' := by simpa using hnewline
                          exact absurd (hchars '\n' (by simp [hd])) (by decide)
                    rw [List.flatMap_cons, replacedText, List.head?_append,
                      Option.or_of_isSome]
                    · simp [hstart]
                    · rw [List.isSome_head?]
                      exact fullMatch_ne _
          simp only [hhead]
          split <;> rfl

end CoreUtils.Embedex
