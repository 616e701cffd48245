import CoreUtils.Library.Backtracking

/-!
# Replacing what a pattern matches

`String.prototype.replaceAll` with a pattern of a backtracking regular expression: from the left,
every match is replaced and the search goes on after it. A pattern may look at the character before
the match, as word boundaries do. `Replaced` says what happens without counting characters. What is
put in for a match is often a block whose ends belong to no word of interest, between a beginning
and an end of the match (`Fences`); then the words of the result are words of the text or of the
block (`Replaced.infix_of_fences`).
-/

namespace CoreUtils.Pattern

variable {α β γ : Type*}

/-! ## More patterns -/

/-- The repetition of a class of characters at least a number of times, as often as possible. -/
def greedyAtLeast (least : ℕ) (ok : α → Bool) : Pattern α (List α) := fun s ↦
  (greedy ok s).filter fun way ↦ least ≤ way.1.length

/-- A character of a class. -/
def one (ok : α → Bool) : Pattern α α
  | [] => []
  | c :: s => if ok c then [(c, s)] else []

/-- A character of a class, or nothing. -/
def atMostOne (ok : α → Bool) : Pattern α (List α)
  | [] => [([], [])]
  | c :: s => if ok c then [([c], s), ([], c :: s)] else [([], c :: s)]

/-- One pattern after another, without what the first captures. -/
def followedBy (pattern : Pattern α β) (next : Pattern α γ) : Pattern α γ :=
  pattern.andThen fun _ ↦ next

/-- One of several patterns; the earlier ones are tried first. -/
def oneOf (patterns : List (Pattern α β)) : Pattern α β := fun s ↦
  patterns.flatMap fun pattern ↦ pattern s

/-- The text that a pattern takes. -/
def taken (pattern : Pattern α β) : Pattern α (List α) := fun s ↦
  (pattern s).map fun way ↦ (s.take (s.length - way.2.length), way.2)

/-- A fixed word up to the case of its letters. -/
def caseless (word : List Char) : Pattern Char Unit := fun s ↦
  if (s.take word.length).map Char.toLower = word.map Char.toLower then
    [((), s.drop word.length)]
  else []

/-- A character of a word: an ASCII letter, a digit or an underscore. -/
def isWordChar (c : Char) : Bool := c.isAlphanum || c == '_'

/-- A character that ends a line. -/
def isLineTerminator (c : Char) : Bool :=
  c == '\n' || c == '\r' || c.toNat == 0x2028 || c.toNat == 0x2029

/-- A word boundary after a character that may be missing. -/
def boundary (previous : Option Char) : Pattern Char Unit := fun s ↦
  if previous.any isWordChar != s.head?.any isWordChar then [((), s)] else []

/-! ## Their ways -/

variable {s rest : List α}

/-- The ways through two patterns. -/
theorem mem_andThen {pattern : Pattern α β} {next : β → Pattern α γ} {way : γ × List α} :
    way ∈ pattern.andThen next s ↔ ∃ value rest, (value, rest) ∈ pattern s ∧
      way ∈ next value rest := by
  simp only [andThen, List.mem_flatMap, Prod.exists]

/-- The ways through a pattern and another. -/
theorem mem_followedBy {pattern : Pattern α β} {next : Pattern α γ} {way : γ × List α} :
    way ∈ pattern.followedBy next s ↔ ∃ value rest, (value, rest) ∈ pattern s ∧
      way ∈ next rest := mem_andThen

/-- The way of a character. -/
theorem mem_one {ok : α → Bool} {c : α} : (c, rest) ∈ one ok s ↔ s = c :: rest ∧ ok c = true := by
  cases s with
  | nil => simp [one]
  | cons d s =>
      rw [one]
      split
      · rename_i hd
        rw [List.mem_singleton, Prod.mk.injEq, List.cons.injEq]
        constructor
        · rintro ⟨rfl, rfl⟩
          exact ⟨⟨rfl, rfl⟩, hd⟩
        · rintro ⟨⟨rfl, rfl⟩, -⟩
          exact ⟨rfl, rfl⟩
      · rename_i hd
        refine iff_of_false List.not_mem_nil ?_
        rintro ⟨heq, hc⟩
        exact hd ((List.cons.inj heq).1 ▸ hc)

/-- The way to match nothing. -/
theorem mem_succeed {value : β} {way : β × List α} :
    way ∈ (succeed value : Pattern α β) s ↔ way = (value, s) := List.mem_singleton

/-- The ways of a word. -/
theorem mem_literal [BEq α] [LawfulBEq α] {word : List α} :
    ((), rest) ∈ literal word s ↔ s = word ++ rest := by
  unfold literal
  by_cases hword : word.isPrefixOf s
  · obtain ⟨after, rfl⟩ := List.isPrefixOf_iff_prefix.mp hword
    simp [hword, eq_comm]
  · rw [if_neg hword]
    refine iff_of_false (List.not_mem_nil) fun hsplit ↦ hword ?_
    exact List.isPrefixOf_iff_prefix.mpr ⟨rest, hsplit.symm⟩

/-- The ways of a word and what follows it. -/
theorem mem_literal_followedBy [BEq α] [LawfulBEq α] {word : List α} {next : Pattern α γ}
    {way : γ × List α} :
    way ∈ (literal word).followedBy next s ↔ ∃ rest, s = word ++ rest ∧ way ∈ next rest := by
  rw [mem_followedBy]
  exact ⟨fun ⟨_, rest, hword, hway⟩ ↦ ⟨rest, mem_literal.mp hword, hway⟩,
    fun ⟨rest, hword, hway⟩ ↦ ⟨(), rest, mem_literal.mpr hword, hway⟩⟩

/-- The ways of a repetition and what follows it. -/
theorem mem_greedy_followedBy {ok : α → Bool} {next : Pattern α γ} {way : γ × List α} :
    way ∈ (greedy ok).followedBy next s ↔
      ∃ matched rest, s = matched ++ rest ∧ (∀ c ∈ matched, ok c = true) ∧ way ∈ next rest := by
  simp only [mem_followedBy, mem_greedy, and_assoc]

/-- At least a number of characters, all of a class. -/
def IsRun (least : ℕ) (ok : α → Bool) (word : List α) : Prop :=
  (∀ c ∈ word, ok c = true) ∧ least ≤ word.length

/-- The ways of a repetition with a least number. -/
theorem mem_greedyAtLeast {least : ℕ} {ok : α → Bool} {matched : List α} :
    (matched, rest) ∈ greedyAtLeast least ok s ↔ s = matched ++ rest ∧ IsRun least ok matched := by
  rw [greedyAtLeast, List.mem_filter, mem_greedy, decide_eq_true_iff, and_assoc, IsRun]

/-- The ways of such a repetition and what follows it. -/
theorem mem_greedyAtLeast_followedBy {least : ℕ} {ok : α → Bool} {next : Pattern α γ}
    {way : γ × List α} :
    way ∈ (greedyAtLeast least ok).followedBy next s ↔
      ∃ matched rest, s = matched ++ rest ∧ IsRun least ok matched ∧ way ∈ next rest := by
  simp only [mem_followedBy, mem_greedyAtLeast, and_assoc]

/-- The ways of several patterns. -/
theorem mem_oneOf {patterns : List (Pattern α β)} {way : β × List α} :
    way ∈ oneOf patterns s ↔ ∃ pattern ∈ patterns, way ∈ pattern s := List.mem_flatMap

/-- The ways of a word up to case. -/
theorem mem_caseless {word s rest : List Char} (h : ((), rest) ∈ caseless word s) :
    ∃ matched, s = matched ++ rest ∧ matched.map Char.toLower = word.map Char.toLower := by
  unfold caseless at h
  split at h
  · rename_i hword
    obtain rfl : rest = s.drop word.length := congrArg Prod.snd (List.mem_singleton.mp h)
    exact ⟨s.take word.length, (List.take_append_drop _ _).symm, hword⟩
  · exact absurd h List.not_mem_nil

/-- The way of a word boundary. -/
theorem mem_boundary {previous : Option Char} {s rest : List Char} :
    ((), rest) ∈ boundary previous s ↔
      rest = s ∧ previous.any isWordChar ≠ s.head?.any isWordChar := by
  unfold boundary
  split
  · rename_i hboundary
    simp only [List.mem_singleton, Prod.mk.injEq, true_and]
    exact (and_iff_left (bne_iff_ne.mp hboundary)).symm
  · rename_i hnone
    refine iff_of_false List.not_mem_nil fun h ↦ hnone (bne_iff_ne.mpr h.2)

/-- Every way of a pattern takes a beginning of the text. -/
def Splits (pattern : Pattern α β) : Prop :=
  ∀ s way, way ∈ pattern s → ∃ matched, s = matched ++ way.2

theorem splits_literal [BEq α] [LawfulBEq α] (word : List α) : Splits (literal word) :=
  fun _ _ h ↦ ⟨word, mem_literal.mp h⟩

theorem splits_greedy (ok : α → Bool) : Splits (greedy ok) :=
  fun _ way h ↦ ⟨way.1, (mem_greedy.mp h).1⟩

theorem splits_greedyAtLeast (least : ℕ) (ok : α → Bool) : Splits (greedyAtLeast least ok) :=
  fun _ way h ↦ ⟨way.1, (mem_greedyAtLeast.mp h).1⟩

theorem splits_atMostOne (ok : α → Bool) : Splits (atMostOne ok) := by
  intro s way h
  cases s with
  | nil => exact ⟨[], congrArg Prod.snd (List.mem_singleton.mp h) ▸ rfl⟩
  | cons c s =>
      rw [atMostOne] at h
      split at h
      · rcases List.mem_cons.mp h with rfl | hnone
        · exact ⟨[c], rfl⟩
        · exact ⟨[], congrArg Prod.snd (List.mem_singleton.mp hnone) ▸ rfl⟩
      · exact ⟨[], congrArg Prod.snd (List.mem_singleton.mp h) ▸ rfl⟩

theorem Splits.andThen {pattern : Pattern α β} {next : β → Pattern α γ} (hfirst : Splits pattern)
    (hnext : ∀ value, Splits (next value)) : Splits (pattern.andThen next) := by
  intro s way hway
  obtain ⟨value, rest, hvalue, hmem⟩ := mem_andThen.mp hway
  obtain ⟨matched, rfl⟩ := hfirst s _ hvalue
  obtain ⟨more, rfl⟩ := hnext value rest _ hmem
  exact ⟨matched ++ more, (List.append_assoc _ _ _).symm⟩

theorem Splits.followedBy {pattern : Pattern α β} {next : Pattern α γ} (hfirst : Splits pattern)
    (hnext : Splits next) : Splits (pattern.followedBy next) := hfirst.andThen fun _ ↦ hnext

/-- What `taken` captures is what the pattern has taken. -/
theorem mem_taken {pattern : Pattern α β} (hsplits : Splits pattern) {matched : List α}
    (h : (matched, rest) ∈ taken pattern s) :
    s = matched ++ rest ∧ ∃ value, (value, rest) ∈ pattern s := by
  obtain ⟨⟨value, after⟩, hway, heq⟩ := List.mem_map.mp h
  obtain ⟨hmatched, rfl⟩ := Prod.mk.inj heq
  obtain ⟨front, rfl⟩ := hsplits s _ hway
  refine ⟨?_, value, hway⟩
  rw [← hmatched]
  simp

/-! ## Replacing -/

/-- Replace the leftmost matches of a pattern, after `skip` characters of the last one. The pattern
is given the character before, and captures what is put in. It never matches nothing. -/
def replaceMatches (rule : Option α → Pattern α (List α)) : ℕ → Option α → List α → List α
  | _, _, [] => []
  | skip + 1, _, c :: s => replaceMatches rule skip (some c) s
  | 0, previous, c :: s =>
      match (rule previous).firstMatch (c :: s) with
      | none => c :: replaceMatches rule 0 (some c) s
      | some (replacement, rest) =>
          replacement ++ replaceMatches rule (s.length - rest.length) (some c) s

/-- Replace all matches in a text. -/
def replaceEvery (rule : Option α → Pattern α (List α)) (s : List α) : List α :=
  replaceMatches rule 0 none s

/-- What replacing makes of a text after a character: a character at which nothing matches is kept,
and a match is replaced. -/
inductive Replaced (rule : Option α → Pattern α (List α)) :
    Option α → List α → List α → Prop where
  | nil (previous : Option α) : Replaced rule previous [] []
  | keep {previous : Option α} {c : α} {s out : List α}
      (hnone : (rule previous).firstMatch (c :: s) = none) (hrest : Replaced rule (some c) s out) :
      Replaced rule previous (c :: s) (c :: out)
  | found {previous : Option α} {matched rest replacement out : List α}
      (hway : (rule previous).firstMatch (matched ++ rest) = some (replacement, rest))
      (hmatched : matched ≠ []) (hrest : Replaced rule matched.getLast? rest out) :
      Replaced rule previous (matched ++ rest) (replacement ++ out)

/-- The rest of a match is skipped. -/
theorem replaceMatches_skip (rule : Option α → Pattern α (List α)) (c : α)
    (matched rest : List α) :
    replaceMatches rule matched.length (some c) (matched ++ rest) =
      replaceMatches rule 0 (c :: matched).getLast? rest := by
  induction matched generalizing c with
  | nil => rfl
  | cons d matched ih =>
      rw [List.length_cons, List.cons_append, replaceMatches, ih, List.getLast?_cons_cons]

/-- Replacing does what `Replaced` says, if the pattern never matches nothing. -/
theorem replaced_replaceMatches {rule : Option α → Pattern α (List α)}
    (hrule : ∀ previous s way, way ∈ rule previous s → ∃ matched ≠ [], s = matched ++ way.2)
    (previous : Option α) (s : List α) :
    Replaced rule previous s (replaceMatches rule 0 previous s) := by
  induction hlength : s.length using Nat.strongRecOn generalizing previous s with
  | ind length ih =>
      cases s with
      | nil => exact .nil previous
      | cons c s =>
          rw [replaceMatches]
          cases hfirst : (rule previous).firstMatch (c :: s) with
          | none => exact .keep hfirst (ih s.length (by simp [← hlength]) (some c) s rfl)
          | some way =>
              obtain ⟨replacement, rest⟩ := way
              obtain ⟨matched, hne, hsplit⟩ :=
                hrule previous (c :: s) _ (List.mem_of_mem_head? hfirst)
              cases matched with
              | nil => exact absurd rfl hne
              | cons d matched =>
                  obtain ⟨rfl, htail⟩ := List.cons.inj hsplit
                  have htext : s = matched ++ rest := htail
                  subst htext
                  have hskip : (matched ++ rest).length - rest.length = matched.length := by simp
                  simp only
                  rw [hskip, replaceMatches_skip]
                  have hshorter : rest.length < length := by
                    rw [← hlength, List.length_cons, List.length_append]
                    omega
                  show Replaced rule previous ((c :: matched) ++ rest) _
                  exact .found hfirst (List.cons_ne_nil _ _) (ih rest.length hshorter _ rest rfl)

/-! ## Words of the result -/

section Words

variable {rule : Option α → Pattern α (List α)} {previous : Option α} {out word block : List α}
  {ok : α → Bool}

/-- A block whose first and last characters are outside a class. -/
structure Fence (ok : α → Bool) (block : List α) : Prop where
  first : ∃ c, block.head? = some c ∧ ok c = false
  last : ∃ c, block.getLast? = some c ∧ ok c = false

/-- What is put in for a match is a beginning of it, up to a change of characters, a block, and an
end of the match. -/
def Fences (f : α → β) (rule : Option α → Pattern α (List α)) (block : List α) : Prop :=
  ∀ previous s way, way ∈ rule previous s → ∃ matched ≠ [], s = matched ++ way.2 ∧
    ∃ kept last, way.1 = kept ++ (block ++ last) ∧ kept.map f <+: matched.map f ∧ last <:+ matched

/-- What is kept without a change is kept up to one. -/
theorem Fences.map (h : Fences id rule block) (f : α → β) : Fences f rule block := by
  intro previous s way hway
  obtain ⟨matched, hne, hsplit, kept, last, hreplacement, hkept, hlast⟩ := h previous s way hway
  rw [List.map_id, List.map_id] at hkept
  exact ⟨matched, hne, hsplit, kept, last, hreplacement, hkept.map f, hlast⟩

/-- A pattern that only puts in a block keeps nothing. -/
theorem fences_of_replacement (f : α → β)
    (h : ∀ previous s way, way ∈ rule previous s →
      way.1 = block ∧ ∃ matched ≠ [], s = matched ++ way.2) : Fences f rule block :=
  fun previous s way hway ↦
    have ⟨hreplacement, matched, hne, hsplit⟩ := h previous s way hway
    ⟨matched, hne, hsplit, [], [], by simpa using hreplacement, List.nil_prefix, List.nil_suffix⟩

/-- A word of a class does not cross a character outside the class at the end of a text. -/
theorem infix_append_of_getLast {front back : List α} {c : α} (hlast : front.getLast? = some c)
    (hc : ok c = false) (hok : ∀ d ∈ word, ok d = true) (h : word <:+: front ++ back) :
    word <:+: front ∨ word <:+: back := by
  rcases List.infix_append_iff.mp h with hfront | hback | ⟨left, right, rfl, hleft, hright⟩
  · exact .inl hfront
  · exact .inr hback
  · rcases List.eq_nil_or_concat left with rfl | ⟨before, d, rfl⟩
    · exact .inr hright.isInfix
    · obtain ⟨front', rfl⟩ := hleft
      rw [List.concat_eq_append, ← List.append_assoc, List.getLast?_concat] at hlast
      have hd := hok d (by simp)
      rw [Option.some.inj hlast, hc] at hd
      exact absurd hd Bool.false_ne_true

/-- So it is at the beginning of a text. -/
theorem infix_append_of_head {front back : List α} {c : α} (hhead : back.head? = some c)
    (hc : ok c = false) (hok : ∀ d ∈ word, ok d = true) (h : word <:+: front ++ back) :
    word <:+: front ∨ word <:+: back := by
  rcases List.infix_append_iff.mp h with hfront | hback | ⟨left, right, rfl, hleft, hright⟩
  · exact .inl hfront
  · exact .inr hback
  · cases right with
    | nil =>
        rw [List.append_nil]
        exact .inl hleft.isInfix
    | cons d right =>
        obtain ⟨back', rfl⟩ := hright
        have hd := hok d (by simp)
        rw [Option.some.inj hhead, hc] at hd
        exact absurd hd Bool.false_ne_true

/-- A word of a class at the beginning of two texts is at the beginning of the first, if the second
begins outside the class. -/
theorem prefix_of_prefix_append {front back : List α} {c : α} (hhead : back.head? = some c)
    (hc : ok c = false) (hok : ∀ d ∈ word, ok d = true) (h : word <+: front ++ back) :
    word <+: front := by
  rcases List.prefix_or_prefix_of_prefix h (List.prefix_append front back) with
    hfront | ⟨right, rfl⟩
  · exact hfront
  · cases right with
    | nil => exact ⟨[], by simp⟩
    | cons d right =>
        obtain ⟨back', rfl⟩ := (List.prefix_append_right_inj front).mp h
        have hd := hok d (by simp)
        rw [Option.some.inj hhead, hc] at hd
        exact absurd hd Bool.false_ne_true

/-- A word at the beginning of the result is at the beginning of the text, up to the change. -/
theorem Replaced.prefix_of_fences {f : α → β} (h : Replaced rule previous s out)
    (hfences : Fences f rule block) (hblock : Fence ok block) (hok : ∀ d ∈ word, ok d = true)
    (hword : word <+: out) : ∃ word', word' <+: s ∧ word'.map f = word.map f := by
  induction h generalizing word with
  | nil previous => exact ⟨word, hword, rfl⟩
  | @keep previous c s out hnone hrest ih =>
      rcases List.prefix_cons_iff.mp hword with rfl | ⟨tail, rfl, htail⟩
      · exact ⟨[], List.nil_prefix, rfl⟩
      · obtain ⟨tail', htail', hmap⟩ :=
          ih (fun d hd ↦ hok d (List.mem_cons_of_mem _ hd)) htail
        exact ⟨c :: tail', (List.prefix_cons_inj c).mpr htail', congrArg (f c :: ·) hmap⟩
  | @found previous matched rest replacement out hway hmatched hrest ih =>
      obtain ⟨matched', -, hsplit, kept, last, rfl, hkept, -⟩ :=
        hfences _ _ _ (List.mem_of_mem_head? hway)
      obtain rfl := List.append_cancel_right hsplit
      obtain ⟨c, hhead, hc⟩ := hblock.first
      have hhead' : (block ++ (last ++ out)).head? = some c := by
        rw [List.head?_append, hhead]
        rfl
      rw [List.append_assoc, List.append_assoc] at hword
      have hbegin := (prefix_of_prefix_append hhead' hc hok hword).map f
      obtain ⟨word', hword', hmap⟩ := List.prefix_map_iff.mp (hbegin.trans hkept)
      exact ⟨word', hword'.trans (List.prefix_append _ _), hmap.symm⟩

/-- A word of the result is one of the block or of the text, up to the change. -/
theorem Replaced.infix_of_fences {f : α → β} (h : Replaced rule previous s out)
    (hfences : Fences f rule block) (hblock : Fence ok block) (hok : ∀ d ∈ word, ok d = true)
    (hword : word <:+: out) :
    word <:+: block ∨ ∃ word', word' <:+: s ∧ word'.map f = word.map f := by
  induction h generalizing word with
  | nil previous => exact .inr ⟨word, hword, rfl⟩
  | @keep previous c s out hnone hrest ih =>
      rcases List.infix_cons_iff.mp hword with hbegin | hlater
      · obtain ⟨word', hword', hmap⟩ :=
          (Replaced.keep hnone hrest).prefix_of_fences hfences hblock hok hbegin
        exact .inr ⟨word', hword'.isInfix, hmap⟩
      · exact (ih hok hlater).imp id fun ⟨word', hword', hmap⟩ ↦
          ⟨word', List.infix_cons hword', hmap⟩
  | @found previous matched rest replacement out hway hmatched hrest ih =>
      obtain ⟨matched', -, hsplit, kept, last, rfl, hkept, hend⟩ :=
        hfences _ _ _ (List.mem_of_mem_head? hway)
      obtain rfl := List.append_cancel_right hsplit
      obtain ⟨c, hhead, hc⟩ := hblock.first
      obtain ⟨d, hlast, hd⟩ := hblock.last
      have hhead' : (block ++ (last ++ out)).head? = some c := by
        rw [List.head?_append, hhead]
        rfl
      rw [List.append_assoc, List.append_assoc] at hword
      rcases infix_append_of_head hhead' hc hok hword with hbefore | hafter
      · obtain ⟨word', hword', hmap⟩ :=
          List.infix_map_iff.mp ((hbefore.map f).trans hkept.isInfix)
        exact .inr ⟨word', hword'.trans List.infix_append_left, hmap.symm⟩
      · rcases infix_append_of_getLast hlast hd hok hafter with hin | hlater
        · exact .inl hin
        rcases List.infix_append_iff.mp hlater with
          hin | hbehind | ⟨left, right, rfl, hleft, hright⟩
        · exact .inr ⟨word, (hin.trans hend.isInfix).trans List.infix_append_left, rfl⟩
        · exact (ih hok hbehind).imp id fun ⟨word', hword', hmap⟩ ↦
            ⟨word', hword'.trans List.infix_append_right, hmap⟩
        · -- the word begins in the kept end of the match and goes on behind it
          obtain ⟨right', ⟨after, rfl⟩, hmap⟩ := hrest.prefix_of_fences hfences hblock
            (fun d hd ↦ hok d (List.mem_append_right _ hd)) hright
          obtain ⟨before, rfl⟩ := hleft.trans hend
          refine .inr ⟨left ++ right', ⟨before, after, by simp⟩, ?_⟩
          rw [List.map_append, List.map_append, hmap]

/-- A word that is matched wherever it begins is no word of the result, if matches are replaced by
the block and the word is not in the block. -/
theorem Replaced.not_isInfix (h : Replaced rule previous s out) (hfences : Fences id rule block)
    (hreplacement : ∀ previous s way, way ∈ rule previous s → way.1 = block)
    (hblock : Fence ok block) (hok : ∀ d ∈ word, ok d = true) (hnot : ¬word <:+: block)
    (hmatch : ∀ previous s, (rule previous).firstMatch s = none → ¬word <+: s) :
    ¬word <:+: out := by
  have hne : word ≠ [] := fun hnil ↦ hnot (hnil ▸ List.nil_infix)
  induction h with
  | nil previous => exact fun hword ↦ hne (List.infix_nil.mp hword)
  | @keep previous c s out hnone hrest ih =>
      intro hword
      rcases List.infix_cons_iff.mp hword with hbegin | hlater
      · obtain ⟨word', hword', hmap⟩ :=
          (Replaced.keep hnone hrest).prefix_of_fences hfences hblock hok hbegin
        rw [List.map_id, List.map_id] at hmap
        exact hmatch previous _ hnone (hmap ▸ hword')
      · exact ih hlater
  | @found previous matched rest replacement out hway hmatched hrest ih =>
      intro hword
      obtain ⟨d, hlast, hd⟩ := hblock.last
      obtain rfl : replacement = block := hreplacement _ _ _ (List.mem_of_mem_head? hway)
      exact (infix_append_of_getLast hlast hd hok hword).elim hnot ih

/-- A pattern with a block does what `Replaced` says. -/
theorem Fences.replaced {f : α → β} (hfences : Fences f rule block) (s : List α) :
    Replaced rule none s (replaceEvery rule s) :=
  replaced_replaceMatches (fun previous s way hway ↦
    have ⟨matched, hne, hsplit, _⟩ := hfences previous s way hway
    ⟨matched, hne, hsplit⟩) none s

/-- A word of the result is one of the block or of the text. -/
theorem Fences.infix_replaceEvery (hfences : Fences id rule block) (hblock : Fence ok block)
    (hok : ∀ d ∈ word, ok d = true) (hword : word <:+: replaceEvery rule s) :
    word <:+: block ∨ word <:+: s := by
  refine ((hfences.replaced s).infix_of_fences hfences hblock hok hword).imp id ?_
  rintro ⟨word', hword', hmap⟩
  rw [List.map_id, List.map_id] at hmap
  exact hmap ▸ hword'

/-! ## Kinds of words -/

/-- A text contains a word of a kind. -/
def Contains (kind : List α → Prop) (s : List α) : Prop := ∃ word, kind word ∧ word <:+: s

/-- The words of a kind are of a class, and a mark is in each of them. -/
structure Marked (ok : α → Bool) (mark : α) (kind : List α → Prop) : Prop where
  all : ∀ word, kind word → ∀ c ∈ word, ok c = true
  mem : ∀ word, kind word → mark ∈ word

variable {kind : List α → Prop} {mark : α}

/-- A block without the mark contains no word of a kind. -/
theorem Marked.not_isInfix (hmarked : Marked ok mark kind) (hmark : mark ∉ block)
    (hkind : kind word) : ¬word <:+: block :=
  fun hword ↦ hmark (hword.subset (hmarked.mem word hkind))

/-- Replacing brings no word of a kind into a text. -/
theorem Fences.not_contains (hfences : Fences id rule block) (hblock : Fence ok block)
    (hmarked : Marked ok mark kind) (hmark : mark ∉ block) (h : ¬Contains kind s) :
    ¬Contains kind (replaceEvery rule s) := by
  rintro ⟨word, hkind, hword⟩
  rcases hfences.infix_replaceEvery hblock (hmarked.all word hkind) hword with hin | hin
  · exact hmarked.not_isInfix hmark hkind hin
  · exact h ⟨word, hkind, hin⟩

/-- A pattern that replaces the words of a kind by a block keeps nothing. -/
theorem fences_of_mem_iff (hmarked : Marked ok mark kind)
    (hrule : ∀ previous s way, way ∈ rule previous s ↔
      way.1 = block ∧ ∃ word, kind word ∧ s = word ++ way.2) (f : α → β) : Fences f rule block :=
  fences_of_replacement f fun previous s way hway ↦ by
    obtain ⟨hreplacement, matched, hkind, hsplit⟩ := (hrule previous s way).mp hway
    exact ⟨hreplacement, matched, List.ne_nil_of_mem (hmarked.mem matched hkind), hsplit⟩

/-- Replacing the words of a kind by a block leaves none of them. -/
theorem not_contains_of_mem_iff (hblock : Fence ok block) (hmarked : Marked ok mark kind)
    (hmark : mark ∉ block)
    (hrule : ∀ previous s way, way ∈ rule previous s ↔
      way.1 = block ∧ ∃ word, kind word ∧ s = word ++ way.2) (s : List α) :
    ¬Contains kind (replaceEvery rule s) := by
  have hfences : Fences id rule block := fences_of_mem_iff hmarked hrule id
  rintro ⟨word, hkind, hword⟩
  refine (hfences.replaced s).not_isInfix hfences
    (fun previous s way hway ↦ ((hrule previous s way).mp hway).1) hblock (hmarked.all word hkind)
    (hmarked.not_isInfix hmark hkind) (fun previous s hnone ↦ ?_) hword
  rintro ⟨rest, rfl⟩
  have hway : (block, rest) ∈ rule previous (word ++ rest) :=
    (hrule previous _ _).mpr ⟨rfl, word, hkind, rfl⟩
  rw [List.head?_eq_none_iff.mp hnone] at hway
  exact List.not_mem_nil hway

end Words

end CoreUtils.Pattern
