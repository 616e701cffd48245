import CoreUtils.Embedex.Types
import CoreUtils.Library.Backtracking

/-!
# The tags of a destination

The regular expression for a tag, and the scan that finds its matches. `matchTag_spec` and
`matchTag_eq_none` say in terms of the text which match the backtracking finds: the last opening
tag of the line that can still be closed, with the shortest path, up to the first closing tag.
-/

namespace CoreUtils.Embedex

open Pattern

/-- The characters that `.` does not match, and after which `^` matches. -/
def isLineTerminator (c : Char) : Bool :=
  c == '\n' || c == '\r' || c.toNat == 0x2028 || c.toNat == 0x2029

/-- A character that `.` matches. -/
def isLineChar (c : Char) : Bool := !isLineTerminator c

/-- The opening tag up to the path. -/
def openTag : Text := "<embedex source=\"".toList

/-- The opening tag after the path. -/
def openTagEnd : Text := "\">".toList

/-- The closing tag. -/
def closeTag : Text := "</embedex>".toList

/-- An optional line break, taken if it is there. -/
def optionalNewline : Pattern Char Text
  | '\r' :: '\n' :: s => [(['\r', '\n'], s), ([], '\r' :: '\n' :: s)]
  | '\n' :: s => [(['\n'], s), ([], '\n' :: s)]
  | s => [([], s)]

/-- What the regular expression captures, and the line break it skips. -/
structure TagParts where
  blockPrefix : Text
  source : Text
  newline : Text
  content : Text
  deriving DecidableEq

/-- The text of a match. -/
def TagParts.fullMatch (parts : TagParts) : Text :=
  parts.blockPrefix ++ (openTag ++ (parts.source ++ (openTagEnd ++
    (parts.newline ++ (parts.content ++ closeTag)))))

/-- The regular expression of a tag, which is matched at the start of a line. The expression for
nested tags differs only in what it captures. -/
def regex : Pattern Char TagParts :=
  (greedy isLineChar).andThen fun blockPrefix ↦
  (literal openTag).andThen fun _ ↦
  (lazyPlus isLineChar).andThen fun source ↦
  (literal openTagEnd).andThen fun _ ↦
  optionalNewline.andThen fun newline ↦
  (Pattern.lazy fun _ ↦ true).andThen fun content ↦
  (literal closeTag).andThen fun _ ↦
  succeed ⟨blockPrefix, source, newline, content⟩

/-- The match at the start of a text. -/
def matchTag (s : Text) : Option TagParts := (regex.firstMatch s).map Prod.fst

/-! ## The match at the start of a text -/

/-- A tag opens here with this prefix and source, and is closed somewhere. -/
structure Opens (s blockPrefix source after : Text) : Prop where
  split : s = blockPrefix ++ (openTag ++ (source ++ (openTagEnd ++ after)))
  prefix_line : ∀ c ∈ blockPrefix, isLineChar c = true
  source_ne : source ≠ []
  source_line : ∀ c ∈ source, isLineChar c = true
  closed : closeTag <:+: after

/-- The line break that the regular expression skips. -/
theorem firstMatch_optionalNewline {γ : Type} {next : Text → Pattern Char γ} {s : Text}
    {result : γ × Text} (h : (optionalNewline.andThen next).firstMatch s = some result) :
    ∃ newline rest, s = newline ++ rest ∧ (∀ c ∈ newline, c = '\r' ∨ c = '\n') ∧
      (next newline).firstMatch rest = some result := by
  rw [firstMatch_andThen] at h
  obtain ⟨⟨newline, rest⟩, hway, hnext⟩ := List.exists_of_findSome?_eq_some h
  refine ⟨newline, rest, ?_, ?_, hnext⟩
  all_goals
    unfold optionalNewline at hway
    split at hway
    all_goals simp only [List.mem_cons, List.not_mem_nil, or_false, Prod.mk.injEq] at hway
    all_goals grind

/-- Skipping no line break is one of the ways. -/
theorem firstMatch_optionalNewline_eq_none {γ : Type} {next : Text → Pattern Char γ} {s : Text} :
    (optionalNewline.andThen next).firstMatch s = none →
      (next []).firstMatch s = none := by
  rw [firstMatch_andThen, List.findSome?_eq_none_iff]
  intro h
  refine h ([], s) ?_
  unfold optionalNewline
  split <;> simp

/-- The part of the regular expression after the opening tag. -/
def regexTail (blockPrefix source : Text) : Pattern Char TagParts :=
  optionalNewline.andThen fun newline ↦
  (Pattern.lazy fun _ ↦ true).andThen fun content ↦
  (literal closeTag).andThen fun _ ↦
  succeed ⟨blockPrefix, source, newline, content⟩

variable {s blockPrefix source after rest : Text} {parts : TagParts}

/-- A closing tag ends the match. -/
theorem firstMatch_close (parts : TagParts) (rest : Text) :
    ((literal closeTag).andThen fun _ ↦ succeed parts).firstMatch (closeTag ++ rest) =
      some (parts, rest) :=
  firstMatch_literal_andThen.mpr ⟨rest, rfl, rfl⟩

/-- What follows an opening tag matches up to the first closing tag. -/
theorem regexTail_spec (h : (regexTail blockPrefix source).firstMatch after = some (parts, rest)) :
    parts.blockPrefix = blockPrefix ∧ parts.source = source ∧
      after = parts.newline ++ (parts.content ++ (closeTag ++ rest)) ∧
      ∀ x y, after = x ++ (closeTag ++ y) →
        (parts.newline ++ parts.content).length ≤ x.length := by
  obtain ⟨newline, afterNewline, rfl, hnewline, htail⟩ := firstMatch_optionalNewline h
  obtain ⟨content, afterContent, rfl, -, hclose, hshortest⟩ := firstMatch_lazy_andThen htail
  obtain ⟨afterClose, rfl, hresult⟩ := firstMatch_literal_andThen.mp hclose
  obtain ⟨rfl, rfl⟩ := Prod.mk.inj (Option.some.inj hresult)
  refine ⟨rfl, rfl, rfl, fun x y hsplit ↦ ?_⟩
  rcases List.append_eq_append_iff.mp hsplit with ⟨u, rfl, hrest⟩ | ⟨u, hnew, hclosed⟩
  · by_contra hshorter
    have hnone := hshortest u (closeTag ++ y) hrest (by simp)
      (by simp only [List.length_append] at hshorter; omega)
    have hsome := firstMatch_close ⟨blockPrefix, source, newline, u⟩ y
    rw [hnone] at hsome
    contradiction
  · cases u with
    | nil =>
        by_contra hshorter
        have hnone := hshortest [] (closeTag ++ y) hclosed.symm (by simp) (by
          simp only [List.append_nil] at hnew
          subst hnew
          simp only [List.length_append] at hshorter
          simp only [List.length_nil]
          omega)
        have hsome := firstMatch_close ⟨blockPrefix, source, newline, []⟩ y
        rw [hnone] at hsome
        contradiction
    | cons d u =>
        -- a closing tag does not start inside a line break
        obtain ⟨rfl, -⟩ := List.cons.inj (show '<' :: _ = d :: _ from hclosed)
        have hd := hnewline '<' (by simp [hnew])
        exact absurd hd (by decide)

/-- What follows an opening tag matches if it has a closing tag. -/
theorem regexTail_eq_none :
    (regexTail blockPrefix source).firstMatch after = none ↔ ¬closeTag <:+: after := by
  constructor
  · rintro h ⟨x, y, hsplit⟩
    have hlazy := firstMatch_optionalNewline_eq_none h
    rw [firstMatch_lazy_andThen_eq_none] at hlazy
    have hnone := hlazy x (closeTag ++ y) (by rw [← hsplit, List.append_assoc]) (by simp)
    have hsome := firstMatch_close ⟨blockPrefix, source, [], x⟩ y
    rw [hnone] at hsome
    contradiction
  · intro h
    by_contra hsome
    obtain ⟨⟨parts, rest⟩, hmatch⟩ := Option.ne_none_iff_exists'.mp hsome
    obtain ⟨-, -, hsplit, -⟩ := regexTail_spec hmatch
    refine h ⟨parts.newline ++ parts.content, rest, ?_⟩
    simp [hsplit]

/-- The line break at the beginning of a text. -/
def lineBreakOf : Text → Text
  | '\r' :: '\n' :: _ => ['\r', '\n']
  | '\n' :: _ => ['\n']
  | _ => []

/-- The line break is tried first. -/
theorem optionalNewline_eq (s : Text) :
    ∃ ways rest, optionalNewline s = (lineBreakOf s, rest) :: ways ∧ s = lineBreakOf s ++ rest := by
  fun_cases optionalNewline s with
  | case1 s => exact ⟨_, s, rfl, rfl⟩
  | case2 s => exact ⟨_, s, rfl, rfl⟩
  | case3 s hreturn hnewline =>
      refine ⟨[], s, ?_, ?_⟩
      · rw [lineBreakOf]
        · exact hreturn
        · exact hnewline
      · rw [lineBreakOf]
        · rfl
        · exact hreturn
        · exact hnewline

/-- A line break has no characters but these. -/
theorem mem_lineBreakOf {c : Char} (h : c ∈ lineBreakOf s) : c = '\r' ∨ c = '\n' := by
  unfold lineBreakOf at h
  split at h <;> simp_all

/-- A closing tag does not begin inside a line break. -/
theorem closeTag_infix_of_lineBreak (h : closeTag <:+: lineBreakOf s ++ rest) :
    closeTag <:+: rest := by
  have hskip : ∀ {c : Char} {t : Text}, c ≠ '<' → closeTag <:+: c :: t → closeTag <:+: t := by
    intro c t hc hinfix
    refine (List.infix_cons_iff.mp hinfix).resolve_left fun hstarts ↦ ?_
    obtain ⟨u, hsplit⟩ := hstarts
    exact hc (List.cons.inj (show '<' :: _ = c :: t from hsplit)).1.symm
  unfold lineBreakOf at h
  split at h
  · exact hskip (by decide) (hskip (by decide) h)
  · exact hskip (by decide) h
  · exact h

/-- A match skips the line break after the opening tag. -/
theorem regexTail_newline
    (h : (regexTail blockPrefix source).firstMatch after = some (parts, rest)) :
    parts.newline = lineBreakOf after := by
  have hclosed : closeTag <:+: after := by
    by_contra hunclosed
    simp [regexTail_eq_none.mpr hunclosed] at h
  obtain ⟨ways, afterBreak, hways, hsplit⟩ := optionalNewline_eq after
  rw [hsplit] at hclosed
  rw [regexTail, firstMatch_andThen, hways, List.findSome?_cons] at h
  obtain ⟨x, y, hclose⟩ := closeTag_infix_of_lineBreak hclosed
  split at h
  · rename_i result hlazy
    obtain rfl := Option.some.inj h
    obtain ⟨content, afterContent, -, -, hclose', -⟩ := firstMatch_lazy_andThen hlazy
    obtain ⟨_, -, hresult⟩ := firstMatch_literal_andThen.mp hclose'
    obtain ⟨rfl, -⟩ := Prod.mk.inj (Option.some.inj hresult)
    rfl
  · rename_i hlazy
    rw [firstMatch_lazy_andThen_eq_none] at hlazy
    have hnone := hlazy x (closeTag ++ y) (by rw [← hclose, List.append_assoc]) (by simp)
    have hsome := firstMatch_close ⟨blockPrefix, source, lineBreakOf after, x⟩ y
    rw [hnone] at hsome
    contradiction

/-- The part of the regular expression after the prefix. -/
def regexOpening (blockPrefix : Text) : Pattern Char TagParts :=
  (literal openTag).andThen fun _ ↦
  (lazyPlus isLineChar).andThen fun source ↦
  (literal openTagEnd).andThen fun _ ↦
  regexTail blockPrefix source

/-- What follows a prefix matches if it opens a tag that is closed. -/
theorem regexOpening_eq_none :
    (regexOpening blockPrefix).firstMatch s = none ↔
      ∀ source after, source ≠ [] → (∀ c ∈ source, isLineChar c = true) →
        s = openTag ++ (source ++ (openTagEnd ++ after)) → ¬closeTag <:+: after := by
  rw [regexOpening, firstMatch_literal_andThen_eq_none]
  simp only [firstMatch_lazyPlus_andThen_eq_none, firstMatch_literal_andThen_eq_none,
    regexTail_eq_none]
  constructor
  · rintro h source after hnonempty hline rfl
    exact h _ rfl source _ hnonempty rfl hline _ rfl
  · rintro h rest rfl source rest' hnonempty rfl hline after rfl
    exact h source after hnonempty hline rfl

/-- There is no match where no tag opens. -/
theorem matchTag_eq_none :
    matchTag s = none ↔ ∀ blockPrefix source after, ¬Opens s blockPrefix source after := by
  have hregex : regex.firstMatch s =
    ((greedy isLineChar).andThen regexOpening).firstMatch s := rfl
  rw [matchTag, Option.map_eq_none_iff, hregex, firstMatch_greedy_andThen_eq_none]
  simp only [regexOpening_eq_none]
  constructor
  · rintro h blockPrefix source after ⟨rfl, hblockPrefix, hnonempty, hsource, hclosed⟩
    exact h blockPrefix _ rfl hblockPrefix source after hnonempty hsource rfl hclosed
  · rintro h blockPrefix rest rfl hblockPrefix source after hnonempty hsource rfl hclosed
    exact h blockPrefix source after ⟨rfl, hblockPrefix, hnonempty, hsource, hclosed⟩

/-- The match is that of the last opening tag of the line that is closed, with the shortest path,
up to the first closing tag. -/
theorem matchTag_spec (h : matchTag s = some parts) :
    ∃ after rest, Opens s parts.blockPrefix parts.source after ∧
      s = parts.fullMatch ++ rest ∧
      after = parts.newline ++ (parts.content ++ (closeTag ++ rest)) ∧
      (∀ x y, after = x ++ (closeTag ++ y) →
        (parts.newline ++ parts.content).length ≤ x.length) ∧
      (∀ p q after', Opens s p q after' → p.length ≤ parts.blockPrefix.length) ∧
      ∀ q after', Opens s parts.blockPrefix q after' → parts.source.length ≤ q.length := by
  have hregex : regex.firstMatch s =
    ((greedy isLineChar).andThen regexOpening).firstMatch s := rfl
  obtain ⟨⟨found, rest⟩, hfirst, rfl⟩ := Option.map_eq_some_iff.mp h
  rw [hregex] at hfirst
  obtain ⟨blockPrefix, afterPrefix, rfl, hblockPrefix, hopening, hlongest⟩ :=
    firstMatch_greedy_andThen hfirst
  obtain ⟨afterOpen, rfl, hsourceEnd⟩ := firstMatch_literal_andThen.mp hopening
  obtain ⟨source, afterSource, hnonempty, rfl, hsource, hend, hshortest⟩ :=
    firstMatch_lazyPlus_andThen hsourceEnd
  obtain ⟨after, rfl, htail⟩ := firstMatch_literal_andThen.mp hend
  obtain ⟨rfl, rfl, hafter, hclose⟩ := regexTail_spec htail
  have hclosed : closeTag <:+: after := ⟨found.newline ++ found.content, rest, by simp [hafter]⟩
  refine ⟨after, rest, ⟨rfl, hblockPrefix, hnonempty, hsource, hclosed⟩, ?_, hafter, hclose, ?_, ?_⟩
  · simp [TagParts.fullMatch, hafter]
  · rintro p q after' ⟨hsplit, hp, hq, hqLine, hclosed'⟩
    by_contra hlonger
    have hnone := hlongest p _ hsplit hp (Nat.lt_of_not_le hlonger)
    exact regexOpening_eq_none.mp hnone q after' hq hqLine rfl hclosed'
  · rintro q after' ⟨hsplit, -, hq, hqLine, hclosed'⟩
    by_contra hshorter
    have hsame := List.append_cancel_left (List.append_cancel_left hsplit)
    have hnone := hshortest q _ hq hsame hqLine (Nat.lt_of_not_le hshorter)
    rw [firstMatch_literal_andThen_eq_none] at hnone
    exact regexTail_eq_none.mp (hnone after' rfl) hclosed'

/-- A match skips the line break after the opening tag, however the match goes on. -/
theorem matchTag_newline (h : matchTag (parts.fullMatch ++ rest) = some parts) :
    parts.newline = lineBreakOf (parts.newline ++ (parts.content ++ (closeTag ++ rest))) := by
  have hregex : regex.firstMatch (parts.fullMatch ++ rest) =
    ((greedy isLineChar).andThen regexOpening).firstMatch (parts.fullMatch ++ rest) := rfl
  obtain ⟨⟨found, rest'⟩, hfirst, rfl⟩ := Option.map_eq_some_iff.mp h
  rw [hregex] at hfirst
  obtain ⟨blockPrefix, afterPrefix, hsplit, -, hopening, -⟩ := firstMatch_greedy_andThen hfirst
  obtain ⟨afterOpen, rfl, hsourceEnd⟩ := firstMatch_literal_andThen.mp hopening
  obtain ⟨source, afterSource, -, rfl, -, hend, -⟩ := firstMatch_lazyPlus_andThen hsourceEnd
  obtain ⟨after, rfl, htail⟩ := firstMatch_literal_andThen.mp hend
  obtain ⟨rfl, rfl, -, -⟩ := regexTail_spec htail
  have hafter : after = found.newline ++ (found.content ++ (closeTag ++ rest)) := by
    simpa [TagParts.fullMatch] using hsplit.symm
  rw [← hafter]
  exact regexTail_newline htail

/-- A character outside all matches, or a match. -/
inductive Segment where
  | char (c : Char)
  | tag (parts : TagParts)
  deriving DecidableEq

/-- The text of a segment. -/
def Segment.text : Segment → Text
  | .char c => [c]
  | .tag parts => parts.fullMatch

/-- The tag of a segment. -/
def Segment.tag? : Segment → Option TagParts
  | .char _ => none
  | .tag parts => some parts

/-- The segments of a text, after `skip` characters of the last match; `lineStart` tells whether
`^` matches here. -/
def segmentsFrom : ℕ → Bool → Text → List Segment
  | _, _, [] => []
  | skip + 1, _, c :: s => segmentsFrom skip (isLineTerminator c) s
  | 0, lineStart, c :: s =>
      match (if lineStart then matchTag (c :: s) else none) with
      | none => .char c :: segmentsFrom 0 (isLineTerminator c) s
      | some parts =>
          .tag parts :: segmentsFrom (parts.fullMatch.length - 1) (isLineTerminator c) s

/-- The segments of a text. -/
def segments (content : Text) : List Segment := segmentsFrom 0 true content

/-- The matches of the regular expression in a text. -/
def tagsOf (content : Text) : List TagParts := (segments content).filterMap Segment.tag?

/-- The text that segments make up. -/
def textOf (segs : List Segment) : Text := segs.flatMap Segment.text

/-! ## The scan -/

@[simp]
theorem textOf_cons (seg : Segment) (segs : List Segment) :
    textOf (seg :: segs) = seg.text ++ textOf segs := rfl

/-- A match ends in the last character of a closing tag. -/
theorem fullMatch_eq (parts : TagParts) : ∃ c u, parts.fullMatch = c :: (u ++ ['>']) := by
  have hclose : closeTag = '<' :: ("/embedex".toList ++ ['>']) := by decide
  have hends : ∃ u, parts.fullMatch = u ++ '<' :: ("/embedex".toList ++ ['>']) := by
    refine ⟨parts.blockPrefix ++ (openTag ++ (parts.source ++ (openTagEnd ++
      (parts.newline ++ parts.content)))), ?_⟩
    rw [TagParts.fullMatch, hclose]
    simp only [List.append_assoc]
  obtain ⟨u, hu⟩ := hends
  cases u with
  | nil => exact ⟨'<', "/embedex".toList, hu⟩
  | cons c u => exact ⟨c, u ++ '<' :: "/embedex".toList, by simp only [hu, List.cons_append,
      List.append_assoc]⟩

/-- What the scan makes sure of: no match starts at a character at the start of a line, and tags
are matches at the start of a line. -/
def Scanned : Bool → List Segment → Prop
  | _, [] => True
  | lineStart, .char c :: rest =>
      (lineStart = true → matchTag (c :: textOf rest) = none) ∧ Scanned (isLineTerminator c) rest
  | lineStart, .tag parts :: rest =>
      lineStart = true ∧ matchTag (parts.fullMatch ++ textOf rest) = some parts ∧
        Scanned false rest

/-- The scan skips the rest of a match. -/
theorem segmentsFrom_skip (lineStart : Bool) (u s : Text) (d : Char) :
    segmentsFrom (u ++ [d]).length lineStart ((u ++ [d]) ++ s) =
      segmentsFrom 0 (isLineTerminator d) s := by
  induction u generalizing lineStart with
  | nil => rfl
  | cons c u ih => exact ih _

/-- The segments of a text make up the text, and are what the scan makes sure of. -/
theorem segmentsFrom_spec (lineStart : Bool) (s : Text) :
    textOf (segmentsFrom 0 lineStart s) = s ∧ Scanned lineStart (segmentsFrom 0 lineStart s) := by
  induction hlength : s.length using Nat.strong_induction_on generalizing lineStart s with
  | _ length ih =>
      cases s with
      | nil => exact ⟨rfl, trivial⟩
      | cons c s =>
          rw [segmentsFrom]
          split
          · rename_i hnone
            obtain ⟨htext, hscanned⟩ :=
              ih s.length (by simp [← hlength]) (isLineTerminator c) s rfl
            refine ⟨by simp [Segment.text, htext], fun hstart ↦ ?_, hscanned⟩
            rw [htext]
            simpa [hstart] using hnone
          · rename_i parts hsome
            cases lineStart with
            | false => simp at hsome
            | true =>
                have hmatch : matchTag (c :: s) = some parts := by simpa using hsome
                obtain ⟨after, rest, -, hsplit, -⟩ := matchTag_spec hmatch
                obtain ⟨d, u, hfull⟩ := fullMatch_eq parts
                rw [hfull, List.cons_append] at hsplit
                obtain ⟨rfl, rfl⟩ := List.cons.inj hsplit
                have hlast : isLineTerminator '>' = false := by decide
                rw [hfull, List.length_cons, Nat.add_sub_cancel, segmentsFrom_skip, hlast]
                obtain ⟨htext, hscanned⟩ := ih rest.length
                  (by simp only [← hlength, List.length_cons, List.length_append]; omega)
                  false rest rfl
                refine ⟨by simp [Segment.text, htext, hfull], rfl, ?_, hscanned⟩
                rw [htext, hfull]
                exact hmatch

/-- The segments of a text make up the text. -/
theorem textOf_segments (content : Text) : textOf (segments content) = content :=
  (segmentsFrom_spec true content).1

/-- The segments of a text are what the scan makes sure of. -/
theorem scanned_segments (content : Text) : Scanned true (segments content) :=
  (segmentsFrom_spec true content).2

/-- Segments that are what the scan makes sure of are the segments of their text. -/
theorem Scanned.segmentsFrom_eq {lineStart : Bool} {segs : List Segment}
    (h : Scanned lineStart segs) : segmentsFrom 0 lineStart (textOf segs) = segs := by
  induction segs generalizing lineStart with
  | nil => rfl
  | cons seg rest ih =>
      cases seg with
      | char c =>
          have hnone : (if lineStart then matchTag (c :: textOf rest) else none) = none := by
            cases lineStart with
            | false => rfl
            | true => exact h.1 rfl
          rw [textOf_cons, Segment.text, List.singleton_append, segmentsFrom, hnone]
          exact congrArg _ (ih h.2)
      | tag parts =>
          obtain ⟨rfl, hmatch, hrest⟩ := h
          obtain ⟨c, u, hfull⟩ := fullMatch_eq parts
          have hlast : isLineTerminator '>' = false := by decide
          rw [textOf_cons, Segment.text]
          rw [hfull, List.cons_append] at hmatch ⊢
          rw [segmentsFrom, if_pos rfl, hmatch]
          simp only [hfull, List.length_cons, Nat.add_sub_cancel]
          rw [segmentsFrom_skip, hlast, ih hrest]

/-- A tag of a scan is the match of its text, whatever follows it there. -/
theorem Scanned.matchTag_of_mem {lineStart : Bool} {segs : List Segment}
    (h : Scanned lineStart segs) {parts : TagParts} (hparts : .tag parts ∈ segs) :
    ∃ rest, matchTag (parts.fullMatch ++ rest) = some parts := by
  induction segs generalizing lineStart with
  | nil => simp at hparts
  | cons seg rest ih =>
      cases seg with
      | char c =>
          have hrest : Segment.tag parts ∈ rest := by simpa using hparts
          exact ih h.2 hrest
      | tag other =>
          rcases List.mem_cons.mp hparts with hsame | hrest
          · obtain rfl := Segment.tag.inj hsame
            exact ⟨textOf rest, h.2.1⟩
          · exact ih h.2.2 hrest

/-- A match opens its tag whatever follows it. -/
theorem opens_fullMatch {rest : Text} (h : matchTag (parts.fullMatch ++ rest) = some parts)
    (other : Text) :
    Opens (parts.fullMatch ++ other) parts.blockPrefix parts.source
      (parts.newline ++ (parts.content ++ (closeTag ++ other))) := by
  obtain ⟨after, -, ⟨-, hblockPrefix, hnonempty, hsource, -⟩, -⟩ := matchTag_spec h
  refine ⟨by simp [TagParts.fullMatch], hblockPrefix, hnonempty, hsource, ?_⟩
  exact ⟨parts.newline ++ parts.content, other, by simp⟩

/-- Two matches with one text have one prefix and one source. -/
theorem matchTag_determined {parts' : TagParts} {rest rest' : Text}
    (h : matchTag (parts.fullMatch ++ rest) = some parts)
    (h' : matchTag (parts'.fullMatch ++ rest') = some parts')
    (hsame : parts.fullMatch = parts'.fullMatch) :
    parts.blockPrefix = parts'.blockPrefix ∧ parts.source = parts'.source := by
  obtain ⟨after, -, hopens, -, -, -, hlongest, hshortest⟩ := matchTag_spec h
  obtain ⟨after', -, hopens', -, -, -, hlongest', hshortest'⟩ := matchTag_spec h'
  have hcross := opens_fullMatch h rest'
  have hcross' := opens_fullMatch h' rest
  rw [hsame] at hcross
  rw [← hsame] at hcross'
  have hlength : parts.blockPrefix.length = parts'.blockPrefix.length :=
    le_antisymm (hlongest' _ _ _ hcross) (hlongest _ _ _ hcross')
  obtain ⟨hblockPrefix, -⟩ := List.append_inj (hcross'.split.symm.trans hopens.split) hlength.symm
  rw [hblockPrefix] at hcross'
  rw [← hblockPrefix] at hcross
  refine ⟨hblockPrefix.symm, ?_⟩
  have hsource : parts.source.length = parts'.source.length :=
    le_antisymm (hshortest _ _ hcross') (hshortest' _ _ hcross)
  have hsplit := hcross'.split.symm.trans hopens.split
  have hafter := List.append_cancel_left (List.append_cancel_left hsplit)
  exact (List.append_inj hafter hsource.symm).1.symm

end CoreUtils.Embedex
