import CoreUtils.Embedex.CommentEscape

/-!
# The tags of an escaped text

A tag has no star of its own, so that escaping neither opens nor closes one. The matches in an
escaped text are therefore the escaped matches (`segments_escape`).
-/

namespace CoreUtils.Embedex

variable {s blockPrefix source after rest : Text} {parts : TagParts}

/-! ## Opening tags -/

/-- A word that begins with an angle bracket or a quotation mark, has no star and is not followed by
one is kept, and what is around it is escaped separately. -/
theorem escape_word (word : Text) (hstar : '*' ∉ word)
    (hhead : ∃ c, word.head? = some c ∧ c ≠ '/') (u v : Text) :
    escape (u ++ (word ++ v)) = escape u ++ (word ++ escape v) := by
  obtain ⟨c, hc, hslash⟩ := hhead
  have hhead : (word ++ v).head? ≠ some '/' := by
    rw [List.head?_append, hc]
    simpa using hslash
  have hlast : word.getLast? ≠ some '*' := fun hlast ↦ hstar (List.mem_of_getLast? hlast)
  rw [escape_append (.inr hhead), escape_append (.inl hlast), escape_of_not_mem hstar]

/-- Escaping what is before and after a closing tag. -/
theorem escape_closeTag (u v : Text) :
    escape (u ++ (closeTag ++ v)) = escape u ++ (closeTag ++ escape v) :=
  escape_word closeTag (by decide) ⟨'<', by decide, by decide⟩ u v

/-- Escaping the pieces of an opening tag. -/
theorem escape_openTag (blockPrefix source after : Text) :
    escape (blockPrefix ++ (openTag ++ (source ++ (openTagEnd ++ after)))) =
      escape blockPrefix ++ (openTag ++ (escape source ++ (openTagEnd ++ escape after))) := by
  rw [escape_word openTag (by decide) ⟨'<', by decide, by decide⟩,
    escape_word openTagEnd (by decide) ⟨'"', by decide, by decide⟩]

/-- A closing tag of an escaped text is one of the text. -/
theorem closeTag_infix_escape : closeTag <:+: escape s ↔ closeTag <:+: s := by
  constructor
  · rintro ⟨x, y, hsplit⟩
    rw [List.append_assoc] at hsplit
    obtain ⟨u, v, rfl, -, hv⟩ :=
      escape_eq_append_cons (c := '<') hsplit.symm (by decide) (by decide)
    obtain ⟨y', hy', -⟩ := escape_eq_append closeTag hv (by decide)
    exact ⟨u, y', by rw [hy', List.append_assoc]⟩
  · rintro ⟨u, v, rfl⟩
    exact ⟨escape u, escape v, by rw [List.append_assoc, List.append_assoc, escape_closeTag]⟩

/-- A text of a single line stays one. -/
theorem isLineChar_escape :
    (∀ c ∈ escape s, isLineChar c = true) ↔ ∀ c ∈ s, isLineChar c = true := by
  constructor
  · exact fun h c hc ↦ h c (mem_escape_of_mem hc)
  · intro h c hc
    by_cases hbackslash : c = '\\'
    · rw [hbackslash]
      decide
    · exact h c (mem_of_mem_escape hc hbackslash)

/-- Only the empty text is escaped to the empty text. -/
theorem escape_ne_nil : escape s ≠ [] ↔ s ≠ [] := by
  rw [Ne, Ne, ← List.head?_eq_none_iff, head_escape, List.head?_eq_none_iff]

/-- The opening tags of a text open in the escaped text. -/
theorem Opens.escape (h : Opens s blockPrefix source after) :
    Opens (escape s) (escape blockPrefix) (escape source) (escape after) where
  split := by rw [h.split, escape_openTag]
  prefix_line := isLineChar_escape.mpr h.prefix_line
  source_ne := escape_ne_nil.mpr h.source_ne
  source_line := isLineChar_escape.mpr h.source_line
  closed := closeTag_infix_escape.mpr h.closed

/-- The opening tags of an escaped text come from the text. -/
theorem Opens.of_escape {s p q r : Text} (h : Opens (Embedex.escape s) p q r) :
    ∃ blockPrefix source after, Opens s blockPrefix source after ∧
      Embedex.escape blockPrefix = p ∧ Embedex.escape source = q ∧ Embedex.escape after = r := by
  obtain ⟨hsplit, hp, hq, hqLine, hclosed⟩ := h
  obtain ⟨blockPrefix, tag, rfl, rfl, htag⟩ :=
    escape_eq_append_cons (c := '<') hsplit (by decide) (by decide)
  obtain ⟨inside, hinside, hrest⟩ := escape_eq_append openTag htag (by decide)
  obtain ⟨source, ending, rfl, rfl, hending⟩ :=
    escape_eq_append_cons (c := '"') hrest (by decide) (by decide)
  obtain ⟨after, hafter, rfl⟩ := escape_eq_append openTagEnd hending (by decide)
  refine ⟨blockPrefix, source, after, ⟨?_, isLineChar_escape.mp hp, escape_ne_nil.mp hq,
    isLineChar_escape.mp hqLine, closeTag_infix_escape.mp hclosed⟩, rfl, rfl, rfl⟩
  rw [hinside, hafter]

/-! ## Matches -/

/-- Escape the pieces of a match. -/
def TagParts.escape (parts : TagParts) : TagParts where
  blockPrefix := Embedex.escape parts.blockPrefix
  source := Embedex.escape parts.source
  newline := parts.newline
  content := Embedex.escape parts.content

/-- Escaping the text of a match escapes its pieces. -/
theorem escape_fullMatch (hnewline : ∀ c ∈ parts.newline, c = '\r' ∨ c = '\n') (rest : Text) :
    escape (parts.fullMatch ++ rest) = parts.escape.fullMatch ++ escape rest := by
  have hkept : ∀ c ∈ parts.newline, c ≠ '*' ∧ c ≠ '/' := by
    intro c hc
    rcases hnewline c hc with rfl | rfl <;> decide
  have hlast : parts.newline.getLast? ≠ some '*' := fun hlast ↦
    (hkept '*' (List.mem_of_getLast? hlast)).1 rfl
  simp only [TagParts.fullMatch, TagParts.escape, List.append_assoc]
  rw [escape_openTag, escape_append (.inl hlast), escape_closeTag,
    escape_of_not_mem fun hstar ↦ (hkept _ hstar).1 rfl]

/-- Escaping keeps the line break at the beginning. -/
theorem lineBreakOf_escape (s : Text) : lineBreakOf (escape s) = lineBreakOf s := by
  fun_cases lineBreakOf s with
  | case1 s =>
      rw [escape_cons (.inl (by decide)), escape_cons (.inl (by decide))]
      rfl
  | case2 s =>
      rw [escape_cons (.inl (by decide))]
      rfl
  | case3 s hreturn hnewline =>
      rw [lineBreakOf]
      · intro rest hsplit
        obtain ⟨rest', hrest', -⟩ := escape_eq_append ['\r', '\n'] hsplit (by decide)
        exact hreturn rest' hrest'
      · intro rest hsplit
        obtain ⟨rest', hrest', -⟩ := escape_eq_append ['\n'] hsplit (by decide)
        exact hnewline rest' hrest'

/-- Escaping shortens no beginning. -/
theorem length_escape_le (h : source <+: after) :
    (escape source).length ≤ (escape after).length := by
  obtain ⟨t, rfl⟩ := h
  rw [escape_append_append, List.length_append]
  exact Nat.le_add_right _ _

/-- A beginning that is as long as the whole when it is escaped is the whole. -/
theorem eq_of_length_escape (h : source <+: after)
    (hlength : (escape after).length ≤ (escape source).length) : source = after := by
  obtain ⟨t, rfl⟩ := h
  rw [escape_append_append, List.length_append] at hlength
  have hrest : t = [] := by
    by_contra hne
    have hpos := List.length_pos_of_ne_nil (escape_ne_nil.mpr hne)
    split at hlength
    · simp only [List.length_cons] at hlength
      omega
    · omega
  rw [hrest, List.append_nil]

/-- Where no tag opens, none opens in the escaped text. -/
theorem matchTag_escape_eq_none (h : matchTag s = none) : matchTag (escape s) = none := by
  rw [matchTag_eq_none] at h ⊢
  intro p q r hopens
  obtain ⟨blockPrefix, source, after, hopens', -⟩ := hopens.of_escape
  exact h _ _ _ hopens'

/-- The content up to the first closing tag of an escaped text is the escaped content. -/
theorem content_escape {newline content content' rest' : Text}
    (hnewline : ∀ c ∈ newline, c = '\r' ∨ c = '\n')
    (hsplit : escape (newline ++ (content ++ (closeTag ++ rest))) =
      newline ++ (content' ++ (closeTag ++ rest')))
    (hclosest : ∀ x y, newline ++ (content ++ (closeTag ++ rest)) = x ++ (closeTag ++ y) →
      (newline ++ content).length ≤ x.length)
    (hclosest' : ∀ x y, escape (newline ++ (content ++ (closeTag ++ rest))) = x ++ (closeTag ++ y) →
      (newline ++ content').length ≤ x.length) : content' = escape content := by
  have hescape : ∀ t : Text, escape (newline ++ t) = newline ++ escape t := by
    intro t
    have hstar : '*' ∉ newline := fun hmem ↦ by rcases hnewline _ hmem with h | h <;> simp at h
    have hlast : newline.getLast? ≠ some '*' := fun hlast ↦ hstar (List.mem_of_getLast? hlast)
    rw [escape_append (.inl hlast), escape_of_not_mem hstar]
  have hsplit' : escape (newline ++ (content ++ (closeTag ++ rest))) =
      (newline ++ escape content) ++ (closeTag ++ escape rest) := by
    rw [hescape, escape_closeTag, List.append_assoc]
  have hle := hclosest' _ _ hsplit'
  have hge : (newline ++ escape content).length ≤ (newline ++ content').length := by
    obtain ⟨u, v, hu, hu', hv⟩ := escape_eq_append_cons (c := '<')
      (show _ = (newline ++ content') ++ '<' :: _ by
        rw [hsplit, List.append_assoc]; rfl) (by decide) (by decide)
    obtain ⟨v', hv', -⟩ := escape_eq_append closeTag hv (by decide)
    have hbefore : newline ++ content <+: u := by
      refine List.prefix_of_prefix_length_le ⟨closeTag ++ rest, List.append_assoc ..⟩
        ⟨_, hu.symm⟩ ?_
      exact hclosest u v' (hu.trans (by rw [hv']))
    have hlength := length_escape_le hbefore
    rwa [hescape, hu'] at hlength
  rw [hsplit, ← List.append_assoc] at hsplit'
  exact List.append_cancel_left (List.append_inj hsplit' (by omega)).1

/-- The match at the start of an escaped text is the escaped match. -/
theorem matchTag_escape (h : matchTag (parts.fullMatch ++ rest) = some parts) :
    matchTag (escape (parts.fullMatch ++ rest)) = some parts.escape := by
  obtain ⟨after, rest', hopens, hsplit, hafter, hclosest, hlongest, hshortest⟩ := matchTag_spec h
  obtain rfl := List.append_cancel_left hsplit
  have hnewline := matchTag_newline h
  rw [← hafter] at hnewline
  cases hmatch : matchTag (escape (parts.fullMatch ++ rest)) with
  | none => exact absurd hopens.escape (matchTag_eq_none.mp hmatch _ _ _)
  | some found =>
      obtain ⟨after', rest', hopens', hsplit', hafter', hclosest', hlongest', hshortest'⟩ :=
        matchTag_spec hmatch
      have hnewline' := matchTag_newline (hsplit' ▸ hmatch)
      rw [← hafter'] at hnewline'
      obtain ⟨p, q, r, hfound, hp, hq, rfl⟩ := hopens'.of_escape
      -- the longest prefix is the longest of the text
      have hpPrefix : p <+: parts.blockPrefix := by
        refine List.prefix_of_prefix_length_le ⟨_, hfound.split.symm⟩ ⟨_, hopens.split.symm⟩ ?_
        exact hlongest _ _ _ hfound
      obtain rfl := eq_of_length_escape hpPrefix (hp ▸ hlongest' _ _ _ hopens.escape)
      -- the shortest path is the shortest of the text
      have hsame := hopens.split.symm.trans hfound.split
      have hrest := List.append_cancel_left (List.append_cancel_left hsame)
      have hqPrefix : parts.source <+: q := by
        refine List.prefix_of_prefix_length_le ⟨_, rfl⟩ ⟨_, hrest.symm⟩ ?_
        exact hshortest _ _ hfound
      have hshorter : (escape q).length ≤ (escape parts.source).length := by
        rw [hq]
        exact hshortest' _ _ (hp ▸ hopens.escape)
      obtain rfl := eq_of_length_escape hqPrefix hshorter
      obtain rfl := List.append_cancel_left (List.append_cancel_left hrest)
      -- the first closing tag is the first of the text
      rw [lineBreakOf_escape, ← hnewline] at hnewline'
      have hcontent : found.content = escape parts.content := by
        rw [hafter] at hclosest hafter' hclosest'
        rw [hnewline'] at hafter' hclosest'
        exact content_escape (hnewline ▸ fun c hc ↦ mem_lineBreakOf hc) hafter' hclosest hclosest'
      show some (TagParts.mk found.blockPrefix found.source found.newline found.content) = _
      rw [← hp, ← hq, hnewline', hcontent]
      rfl

/-! ## Segments -/

/-- Escape segments: a star and a slash that follow each other outside of tags are parted. -/
def escapeSegments : List Segment → List Segment
  | [] => []
  | .char c :: rest =>
      if c = '*' ∧ (textOf rest).head? = some '/' then
        .char c :: .char '\\' :: escapeSegments rest
      else .char c :: escapeSegments rest
  | .tag parts :: rest => .tag parts.escape :: escapeSegments rest

variable {lineStart : Bool} {segs : List Segment}

/-- The line break of a tag of a scan. -/
theorem newline_of_scanned (h : Scanned lineStart (.tag parts :: segs)) :
    ∀ c ∈ parts.newline, c = '\r' ∨ c = '\n' := by
  rw [matchTag_newline h.2.1]
  exact fun c hc ↦ mem_lineBreakOf hc

/-- Escaped segments make up the escaped text. -/
theorem textOf_escapeSegments (h : Scanned lineStart segs) :
    textOf (escapeSegments segs) = escape (textOf segs) := by
  induction segs generalizing lineStart with
  | nil => rfl
  | cons seg rest ih =>
      cases seg with
      | char c =>
          rw [escapeSegments, textOf_cons, Segment.text, List.singleton_append]
          split
          · rename_i hend
            rw [escape_cons_slash hend, ← ih h.2]
            rfl
          · rename_i hend
            rw [escape_cons (not_and_or.mp hend), ← ih h.2]
            rfl
      | tag parts =>
          rw [escapeSegments, textOf_cons, textOf_cons, Segment.text, Segment.text,
            escape_fullMatch (newline_of_scanned h), ih h.2.2]

/-- Escaped segments are what the scan makes sure of. -/
theorem Scanned.escape (h : Scanned lineStart segs) : Scanned lineStart (escapeSegments segs) := by
  induction segs generalizing lineStart with
  | nil => trivial
  | cons seg rest ih =>
      cases seg with
      | char c =>
          have hnone : lineStart = true → matchTag (Embedex.escape (c :: textOf rest)) = none :=
            fun hstart ↦ matchTag_escape_eq_none (h.1 hstart)
          have hrest := ih h.2
          have htext := textOf_escapeSegments h.2
          rw [escapeSegments]
          split
          · rename_i hend
            refine ⟨fun hstart ↦ ?_, ⟨fun hstart ↦ ?_, ?_⟩⟩
            · have := hnone hstart
              rw [escape_cons_slash hend, ← htext] at this
              exact this
            · rw [hend.1] at hstart
              exact absurd hstart (by decide)
            · rw [hend.1] at hrest
              exact hrest
          · rename_i hend
            refine ⟨fun hstart ↦ ?_, hrest⟩
            have := hnone hstart
            rw [escape_cons (not_and_or.mp hend), ← htext] at this
            exact this
      | tag parts =>
          obtain ⟨hstart, hmatch, hrest⟩ := h
          refine ⟨hstart, ?_, ih hrest⟩
          rw [textOf_escapeSegments hrest,
            ← escape_fullMatch (newline_of_scanned ⟨hstart, hmatch, hrest⟩)]
          exact matchTag_escape hmatch

/-- The segments of an escaped text are the escaped segments of the text. -/
theorem segments_escape (content : Text) :
    segments (escape content) = escapeSegments (segments content) := by
  have hscanned := scanned_segments content
  have htext := textOf_escapeSegments hscanned
  rw [textOf_segments] at htext
  rw [segments, ← htext, hscanned.escape.segmentsFrom_eq]

end CoreUtils.Embedex
