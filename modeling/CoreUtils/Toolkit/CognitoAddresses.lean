import CoreUtils.Toolkit.CognitoDiagnostics

/-!
# Email addresses in diagnostics of Cognito

What an address consists of is a matter of convention: the pattern of
`sanitizeCognitoDiagnosticText` knows ASCII letters, digits and a few signs, mail systems more. For
any alphabet, the addresses that the pattern does not cover are the ones that get through
(`sanitizeCognitoDiagnosticText_iff`), but for those that a long number is part of.
-/

namespace CoreUtils.Toolkit.Cognito

open Pattern

/-! ## Addresses -/

/-- The characters that the local part, the domain and the ending of an address may consist of. An
ending has no digits. Case does not matter, and brackets and spaces are in no address. -/
structure AddressAlphabet where
  isLocal : Char → Bool
  isDomain : Char → Bool
  isEnding : Char → Bool
  plain : ∀ c, (isLocal c || isDomain c || isEnding c) = true → c ≠ '[' ∧ c ≠ ']' ∧ c ≠ ' '
  caseless : ∀ c, isLocal c.toLower = isLocal c ∧ isDomain c.toLower = isDomain c ∧
    isEnding c.toLower = isEnding c
  letters : ∀ c, isEnding c = true → c.isDigit = false

/-- The least that is left of an address without characters at its ends, as a word: the last
character of the local part, the domain, and two letters of the ending. -/
def coreWord (c : Char) (domain : Text) (a b : Char) : Text :=
  c :: '@' :: (domain ++ ['.', a, b])

/-- The characters of such a core are among those of the pattern for email addresses. -/
def Covered (c : Char) (domain : Text) (a b : Char) : Prop :=
  isLocalChar c = true ∧ (∀ d ∈ domain, isDomainChar d = true) ∧ a.isAlpha = true ∧ b.isAlpha = true

/-- A text ends in a run of four or more digits. -/
def EndsInRun (text : Text) : Prop := ∃ digits, IsDigitRun digits ∧ digits <:+ text

namespace AddressAlphabet

variable (alphabet : AddressAlphabet)

/-- A local part, `@`, and a domain with a dot and an ending of two or more letters. -/
def IsAddress (word : Text) : Prop :=
  ∃ localPart domain ending, word = localPart ++ (['@'] ++ (domain ++ (['.'] ++ ending))) ∧
    IsRun 1 alphabet.isLocal localPart ∧ IsRun 1 alphabet.isDomain domain ∧
    IsRun 2 alphabet.isEnding ending

/-- The characters of a core are in the alphabet. -/
structure Core (c : Char) (domain : Text) (a b : Char) : Prop where
  localPart : alphabet.isLocal c = true
  domain : IsRun 1 alphabet.isDomain domain
  ending : alphabet.isEnding a = true ∧ alphabet.isEnding b = true

/-- The core of an address that the pattern does not cover. -/
def IsUncovered (word : Text) : Prop :=
  ∃ c domain a b, alphabet.Core c domain a b ∧ ¬Covered c domain a b ∧ word = coreWord c domain a b

/-- A text has the core of an address that the pattern does not cover, without a run of four or more
digits in the domain or right before the `@`. -/
def Spares (text : Text) : Prop :=
  ∃ front c domain a b after, text = front ++ (coreWord c domain a b ++ after) ∧
    alphabet.Core c domain a b ∧ ¬Covered c domain a b ∧ ¬EndsInRun (front ++ [c]) ∧
    ¬Contains IsDigitRun domain

/-- A character that may stand in an address. -/
def isChar (c : Char) : Bool :=
  alphabet.isLocal c || alphabet.isDomain c || alphabet.isEnding c || c == '@' || c == '.'

/-- A text shows no run of four or more digits, no address and no JWT. -/
def ShowsNothing (text : Text) : Prop :=
  ¬Contains IsDigitRun text ∧ ¬Contains alphabet.IsAddress text ∧ ¬Contains IsJwt text

end AddressAlphabet

variable {alphabet : AddressAlphabet} {previous : Option Char} {text s out : Text}

/-- An address has a core. -/
theorem exists_core (h : Contains alphabet.IsAddress text) :
    ∃ front c domain a b after, text = front ++ (coreWord c domain a b ++ after) ∧
      alphabet.Core c domain a b := by
  obtain ⟨_, ⟨localPart, domain, ending, rfl, hlocal, hdomain, hending⟩, before, after, rfl⟩ := h
  rcases List.eq_nil_or_concat localPart with rfl | ⟨front, c, rfl⟩
  · exact absurd hlocal.2 (by decide)
  · rcases ending with _ | ⟨a, _ | ⟨b, ending⟩⟩
    · exact absurd hending.2 (by decide)
    · exact absurd hending.2 (by simp)
    · exact ⟨before ++ front, c, domain, a, b, ending ++ after, by simp [coreWord],
        hlocal.1 c (by simp), hdomain, hending.1 a (by simp), hending.1 b (by simp)⟩

/-- A core is an address. -/
theorem isAddress_coreWord {c a b : Char} {domain : Text} (h : alphabet.Core c domain a b) :
    alphabet.IsAddress (coreWord c domain a b) := by
  refine ⟨[c], domain, [a, b], by simp [coreWord], ⟨?_, by simp⟩, h.domain, ⟨?_, by simp⟩⟩
  · simpa using h.localPart
  · simpa using h.ending

/-- A core in the characters of the pattern is an email address for it. -/
theorem isEmail_coreWord {c a b : Char} {domain : Text} (h : alphabet.Core c domain a b)
    (hcovered : Covered c domain a b) : IsEmail (coreWord c domain a b) := by
  obtain ⟨hlocal, hdomain, ha, hb⟩ := hcovered
  refine ⟨[c], domain, [a, b], by simp [coreWord], ⟨?_, by simp⟩, ⟨hdomain, h.domain.2⟩,
    ⟨?_, by simp⟩⟩
  · simpa using hlocal
  · simpa using ⟨ha, hb⟩

/-! ## Marks -/

/-- A character that is no character of a word and does not stand in the block. -/
def IsMark (d : Char) : Prop := isWordChar d = false ∧ d ∉ redactedNumber

/-- What a match of the last pattern is: the digits at the beginning. -/
theorem eq_of_mem_codePattern {way : Text × Text} (h : way ∈ codePattern previous s) :
    way = (redactedNumber, s.dropWhile Char.isDigit) := by
  obtain ⟨hreplacement, digits, hrun, rfl, -, hafter⟩ := mem_codePattern.mp h
  refine Prod.ext hreplacement ?_
  rw [List.dropWhile_append_of_pos hrun.1]
  generalize way.2 = rest at hafter
  cases rest with
  | nil => rfl
  | cons c rest =>
      refine (List.dropWhile_cons_of_neg fun hc ↦ ?_).symm
      exact absurd (hafter.symm.trans (isWordChar_of_isDigit hc)) Bool.false_ne_true

/-- So a way of the last pattern is its first. -/
theorem firstMatch_codePattern {way : Text × Text} :
    (codePattern previous).firstMatch s = some way ↔ way ∈ codePattern previous s := by
  refine ⟨List.mem_of_mem_head?, fun hway ↦ ?_⟩
  cases hfirst : (codePattern previous).firstMatch s with
  | none =>
      rw [List.head?_eq_none_iff.mp hfirst] at hway
      exact absurd hway List.not_mem_nil
  | some first =>
      rw [eq_of_mem_codePattern (List.mem_of_mem_head? hfirst), eq_of_mem_codePattern hway]

/-- What comes behind a mark does not matter for a match before it. -/
theorem mem_codePattern_append {d : Char} (hd : isWordChar d = false)
    {rest replacement tail : Text} :
    (replacement, tail ++ d :: rest) ∈ codePattern previous (s ++ d :: rest) ↔
      (replacement, tail) ∈ codePattern previous s := by
  have hhead : (tail ++ d :: rest).head?.any isWordChar = tail.head?.any isWordChar := by
    cases tail with
    | nil => simpa using hd
    | cons c tail => rfl
  simp only [mem_codePattern, hhead, ← List.append_assoc, List.append_cancel_right_eq]

/-- A match before a mark ends before it. -/
theorem exists_tail_of_mem_codePattern {d : Char} (hd : isWordChar d = false) {rest : Text}
    {way : Text × Text} (h : way ∈ codePattern previous (s ++ d :: rest)) :
    ∃ tail, way.2 = tail ++ d :: rest := by
  obtain ⟨-, digits, hrun, hsplit, -⟩ := mem_codePattern.mp h
  rcases List.append_eq_append_iff.mp hsplit with ⟨inner, rfl, hinner⟩ | ⟨tail, rfl, htail⟩
  · cases inner with
    | nil => exact ⟨[], hinner.symm⟩
    | cons c inner =>
        obtain ⟨rfl, -⟩ := List.cons.inj hinner
        have hdigit := isWordChar_of_isDigit (hrun.1 d (by simp))
        exact absurd (hd.symm.trans hdigit) Bool.false_ne_true
  · exact ⟨tail, htail⟩

/-- Nothing matches before a mark exactly when nothing matches without what is behind it. -/
theorem firstMatch_append_eq_none {d : Char} (hd : isWordChar d = false) {rest : Text} :
    (codePattern previous).firstMatch (s ++ d :: rest) = none ↔
      (codePattern previous).firstMatch s = none := by
  simp only [Option.eq_none_iff_forall_ne_some, ne_eq, firstMatch_codePattern]
  constructor
  · exact fun h way hway ↦ h (way.1, way.2 ++ d :: rest) ((mem_codePattern_append hd).mpr hway)
  · intro h way hway
    obtain ⟨tail, htail⟩ := exists_tail_of_mem_codePattern hd hway
    have hsame : way = (way.1, tail ++ d :: rest) := Prod.ext rfl htail
    rw [hsame] at hway
    exact h (way.1, tail) ((mem_codePattern_append hd).mp hway)

/-- The text before a mark in the result is made of the text before the mark, and the text behind it
of the text behind it. -/
theorem split_of_replaced {d : Char} (hd : IsMark d) {x tail : Text}
    (h : Replaced codePattern previous s (x ++ d :: tail)) :
    ∃ front rest, s = front ++ d :: rest ∧ Replaced codePattern previous front x ∧
      Replaced codePattern (some d) rest tail := by
  generalize hout : x ++ d :: tail = out at h
  induction h generalizing x with
  | nil previous => exact absurd hout (by simp)
  | @keep previous c s out hnone hrest ih =>
      cases x with
      | nil =>
          obtain ⟨rfl, rfl⟩ := List.cons.inj hout
          exact ⟨[], s, rfl, .nil previous, hrest⟩
      | cons e x =>
          obtain ⟨rfl, hlater⟩ := List.cons.inj hout
          obtain ⟨front, rest, rfl, hfront, hbehind⟩ := ih hlater
          exact ⟨e :: front, rest, rfl, .keep ((firstMatch_append_eq_none hd.1).mp hnone) hfront,
            hbehind⟩
  | @found previous matched rest replacement out hway hmatched hrest ih =>
      have hmem := firstMatch_codePattern.mp hway
      obtain rfl : replacement = redactedNumber := (mem_codePattern.mp hmem).1
      -- the mark is not in the block
      obtain ⟨x, rfl, hlater⟩ :
          ∃ later, x = redactedNumber ++ later ∧ later ++ d :: tail = out := by
        rcases List.append_eq_append_iff.mp hout with ⟨inner, hblock, hinner⟩ | ⟨later, rfl, hlater⟩
        · cases inner with
          | nil => exact ⟨[], by simpa using hblock.symm, by simpa using hinner⟩
          | cons e inner =>
              obtain ⟨rfl, -⟩ := List.cons.inj hinner
              exact absurd (by simp [hblock]) hd.2
        · exact ⟨later, rfl, hlater.symm⟩
      obtain ⟨front, behind, rfl, hfront, hbehind⟩ := ih hlater
      refine ⟨matched ++ front, behind, by simp, ?_, hbehind⟩
      rw [← List.append_assoc] at hmem
      exact .found (firstMatch_codePattern.mpr ((mem_codePattern_append hd.1).mp hmem)) hmatched
        hfront

/-- A text with a mark is replaced before the mark and behind it. -/
theorem exists_split_of_replaced {d : Char} (hd : isWordChar d = false) {front rest : Text}
    (h : Replaced codePattern previous (front ++ d :: rest) out) :
    ∃ x tail, out = x ++ d :: tail ∧ Replaced codePattern previous front x ∧
      Replaced codePattern (some d) rest tail := by
  generalize htext : front ++ d :: rest = text at h
  induction h generalizing front with
  | nil previous => exact absurd htext (by simp)
  | @keep previous c s out hnone hrest ih =>
      cases front with
      | nil =>
          obtain ⟨rfl, rfl⟩ := List.cons.inj htext
          exact ⟨[], out, rfl, .nil previous, hrest⟩
      | cons e front =>
          obtain ⟨rfl, rfl⟩ := List.cons.inj htext
          obtain ⟨x, tail, rfl, hfront, hbehind⟩ := ih rfl
          exact ⟨e :: x, tail, rfl, .keep ((firstMatch_append_eq_none hd).mp hnone) hfront, hbehind⟩
  | @found previous matched after replacement out hway hmatched hrest ih =>
      have hmem := firstMatch_codePattern.mp hway
      rw [← htext] at hmem
      obtain ⟨later, rfl⟩ := exists_tail_of_mem_codePattern hd hmem
      obtain rfl : front = matched ++ later := by
        refine (List.append_left_inj (d :: rest)).mp ?_
        rw [htext, List.append_assoc]
      obtain ⟨x, tail, rfl, hfront, hbehind⟩ := ih rfl
      refine ⟨replacement ++ x, tail, by simp, ?_, hbehind⟩
      exact .found (firstMatch_codePattern.mpr ((mem_codePattern_append hd).mp hmem)) hmatched
        hfront

/-! ## The ends of a text -/

/-- Behind a character of a word, a text of digits is kept whole. -/
theorem eq_of_replaced_digits {c : Char} (hc : isWordChar c = true)
    (hdigits : ∀ d ∈ s, d.isDigit = true) (h : Replaced codePattern (some c) s out) : out = s := by
  induction s generalizing c out with
  | nil =>
      generalize htext : ([] : Text) = text at h
      cases h with
      | nil => rfl
      | keep => exact absurd htext (by simp)
      | found _ hmatched => exact absurd (List.append_eq_nil_iff.mp htext.symm).1 hmatched
  | cons d s ih =>
      have hd := isWordChar_of_isDigit (hdigits d List.mem_cons_self)
      generalize htext : d :: s = text at h
      cases h with
      | nil => exact absurd htext (List.cons_ne_nil _ _)
      | keep _ hrest =>
          obtain ⟨rfl, rfl⟩ := List.cons.inj htext
          rw [ih hd (fun e he ↦ hdigits e (List.mem_cons_of_mem _ he)) hrest]
      | found hway =>
          obtain ⟨-, -, -, -, hbefore, -⟩ := mem_codePattern.mp (List.mem_of_mem_head? hway)
          rw [Option.any_some, hc] at hbefore
          exact absurd hbefore Bool.false_ne_true.symm

/-- Of a text something is left. -/
theorem eq_nil_of_replaced (h : Replaced codePattern previous s []) : s = [] := by
  generalize hout : ([] : Text) = out at h
  cases h with
  | nil => rfl
  | keep => exact absurd hout (by simp)
  | @found _ matched rest replacement _ hway =>
      have hblock : replacement = redactedNumber :=
        (mem_codePattern.mp (List.mem_of_mem_head? hway)).1
      rw [hblock] at hout
      exact absurd (List.append_eq_nil_iff.mp hout.symm).1 (by decide)

/-- Of nothing nothing is made. -/
theorem eq_nil_of_replaced_nil (h : Replaced codePattern previous [] out) : out = [] := by
  generalize htext : ([] : Text) = text at h
  cases h with
  | nil => rfl
  | keep => exact absurd htext (by simp)
  | found _ hmatched => exact absurd (List.append_eq_nil_iff.mp htext.symm).1 hmatched

/-- A longer text ends in a run, if its end does. -/
theorem EndsInRun.append (h : EndsInRun s) (front : Text) : EndsInRun (front ++ s) :=
  have ⟨digits, hrun, hend⟩ := h
  ⟨digits, hrun, hend.trans (List.suffix_append front s)⟩

/-- A run at the end of a text is one of its end, or the text is a run. -/
theorem endsInRun_cons {c : Char} (h : EndsInRun (c :: s)) :
    EndsInRun s ∨ IsDigitRun (c :: s) := by
  obtain ⟨digits, hrun, hend⟩ := h
  rcases List.suffix_cons_iff.mp hend with rfl | hend
  · exact .inr hrun
  · exact .inl ⟨digits, hrun, hend⟩

/-- A run at the end of a text does not reach beyond a character that is no digit. -/
theorem endsInRun_append {front : Text} (hne : s ≠ []) (hhead : s.head?.any isWordChar = false)
    (h : EndsInRun (front ++ s)) : EndsInRun s := by
  obtain ⟨digits, hrun, start, hend⟩ := h
  rcases List.append_eq_append_iff.mp hend with ⟨inner, rfl, rfl⟩ | ⟨inner, rfl, rfl⟩
  · obtain ⟨c, s, rfl⟩ := List.exists_cons_of_ne_nil hne
    have hc := isWordChar_of_isDigit (hrun.1 c (by simp))
    exact absurd (hhead.symm.trans hc) Bool.false_ne_true
  · exact ⟨digits, hrun, List.suffix_append _ _⟩

/-- The last character of the result, if it is not one of a block, is that of the text, and a run at
the end of the text has been kept. -/
theorem getLast_of_replaced {c : Char} (hc : c ≠ ']') (h : Replaced codePattern previous s out)
    (hlast : out.getLast? = some c) :
    s.getLast? = some c ∧ (EndsInRun s → EndsInRun out) := by
  induction h with
  | nil previous => exact absurd hlast (by simp)
  | @keep previous d s out hnone hrest ih =>
      cases out with
      | nil =>
          obtain rfl := eq_nil_of_replaced hrest
          exact ⟨hlast, id⟩
      | cons e out =>
          rw [List.getLast?_cons_cons] at hlast
          obtain ⟨hlast', hrun⟩ := ih hlast
          refine ⟨?_, fun hend ↦ ?_⟩
          · rw [← List.singleton_append, List.getLast?_append, hlast', Option.some_or]
          · rcases endsInRun_cons hend with hend | hdigits
            · exact (hrun hend).append [d]
            · have hd := isWordChar_of_isDigit (hdigits.1 d List.mem_cons_self)
              rw [eq_of_replaced_digits hd
                (fun f hf ↦ hdigits.1 f (List.mem_cons_of_mem _ hf)) hrest]
              exact hend
  | @found previous matched rest replacement out hway hmatched hrest ih =>
      obtain ⟨hreplacement, -, -, -, -, hnext⟩ := mem_codePattern.mp (List.mem_of_mem_head? hway)
      obtain rfl : replacement = redactedNumber := hreplacement
      cases out with
      | nil => exact absurd (Option.some.inj hlast).symm hc
      | cons e out =>
          have hlater : (e :: out).getLast? = some c := by
            rwa [List.getLast?_append_of_ne_nil _ (List.cons_ne_nil _ _)] at hlast
          obtain ⟨hlast', hrun⟩ := ih hlater
          have hne : rest ≠ [] := by
            rintro rfl
            exact absurd hlast' (by simp)
          refine ⟨?_, fun hend ↦ ?_⟩
          · rw [List.getLast?_append, hlast', Option.some_or]
          · exact (hrun (endsInRun_append hne hnext hend)).append redactedNumber

/-- The last character of a text is kept, if it is not that of a run. -/
theorem getLast_replaced {c : Char} (h : Replaced codePattern previous s out)
    (hlast : s.getLast? = some c) (hrun : ¬EndsInRun s) : out.getLast? = some c := by
  induction h with
  | nil previous => exact absurd hlast (by simp)
  | @keep previous d s out hnone hrest ih =>
      cases s with
      | nil =>
          rw [eq_nil_of_replaced_nil hrest]
          exact hlast
      | cons e s =>
          rw [List.getLast?_cons_cons] at hlast
          have hkept := ih hlast fun hend ↦ hrun (hend.append [d])
          rw [← List.singleton_append, List.getLast?_append, hkept, Option.some_or]
  | @found previous matched rest replacement out hway hmatched hrest ih =>
      obtain ⟨-, digits, hdigits, hsplit, -⟩ := mem_codePattern.mp (List.mem_of_mem_head? hway)
      obtain rfl := List.append_cancel_right hsplit
      cases rest with
      | nil => exact absurd ⟨matched, hdigits, by simp⟩ hrun
      | cons e rest =>
          have hlater : (e :: rest).getLast? = some c := by
            rwa [List.getLast?_append_of_ne_nil _ (List.cons_ne_nil _ _)] at hlast
          have hkept := ih hlater fun hend ↦ hrun (hend.append matched)
          rw [List.getLast?_append, hkept, Option.some_or]

/-- The beginning of a text is kept, if there is no run in it and it ends in no digit. -/
theorem prefix_replaced {word after : Text} (hruns : ¬Contains IsDigitRun word)
    (hlast : word.getLast?.any Char.isDigit = false)
    (h : Replaced codePattern previous (word ++ after) out) : word <+: out := by
  induction word generalizing previous out with
  | nil => exact List.nil_prefix
  | cons c word ih =>
      generalize htext : c :: word ++ after = text at h
      cases h with
      | nil => exact absurd htext (List.cons_ne_nil _ _)
      | @keep _ _ _ out hnone hrest =>
          obtain ⟨rfl, rfl⟩ := List.cons.inj htext
          refine (List.prefix_cons_inj c).mpr (ih ?_ ?_ hrest)
          · exact fun ⟨digits, hrun, hin⟩ ↦ hruns ⟨digits, hrun, List.infix_cons hin⟩
          · cases word with
            | nil => rfl
            | cons d word => rwa [List.getLast?_cons_cons] at hlast
      | @found _ matched rest _ _ hway hmatched hrest =>
          obtain ⟨-, digits, hrun, hsplit, -⟩ := mem_codePattern.mp (List.mem_of_mem_head? hway)
          obtain rfl := List.append_cancel_right hsplit
          -- the match would be in the word, or reach beyond its end
          rcases List.append_eq_append_iff.mp htext with ⟨inner, rfl, -⟩ | ⟨inner, hword, -⟩
          · obtain ⟨last, hend⟩ : ∃ last, (c :: word).getLast? = some last :=
              ⟨_, List.getLast?_cons⟩
            have hdigit := hrun.1 last (List.mem_append_left _ (List.mem_of_getLast? hend))
            rw [hend, Option.any_some, hdigit] at hlast
            exact absurd hlast Bool.false_ne_true.symm
          · exact absurd ⟨matched, hrun, [], inner, by simpa using hword.symm⟩ hruns

/-! ## Addresses in the result -/

/-- The sign in an address is a mark. -/
theorem isMark_at : IsMark '@' := ⟨rfl, by decide⟩

/-- A text around the sign of a core. -/
theorem append_coreWord (front after : Text) (c : Char) (domain : Text) (a b : Char) :
    front ++ (coreWord c domain a b ++ after) =
      (front ++ [c]) ++ '@' :: ((domain ++ ['.', a, b]) ++ after) := by
  simp [coreWord]

/-- A character of an address is no bracket and no space. -/
theorem AddressAlphabet.isChar_eq_false (alphabet : AddressAlphabet) {c : Char}
    (h : c = '[' ∨ c = ']' ∨ c = ' ') : alphabet.isChar c = false := by
  rw [← Bool.not_eq_true]
  intro hchar
  simp only [AddressAlphabet.isChar, Bool.or_assoc (_ || _ || _), Bool.or_eq_true (_ || _ || _),
    Bool.or_eq_true (_ == _), beq_iff_eq] at hchar
  rcases hchar with hchar | rfl | rfl
  · have hplain := alphabet.plain c hchar
    rcases h with rfl | rfl | rfl
    · exact hplain.1 rfl
    · exact hplain.2.1 rfl
    · exact hplain.2.2 rfl
  · exact absurd h (by decide)
  · exact absurd h (by decide)

/-- A block in brackets, perhaps behind a space, does not stand in an address. -/
theorem AddressAlphabet.fence (alphabet : AddressAlphabet) {block : Text}
    (hfirst : block.head? = some '[' ∨ block.head? = some ' ') (hlast : block.getLast? = some ']') :
    Fence alphabet.isChar block where
  first := by
    rcases hfirst with hfirst | hfirst
    · exact ⟨_, hfirst, alphabet.isChar_eq_false (.inl rfl)⟩
    · exact ⟨_, hfirst, alphabet.isChar_eq_false (.inr (.inr rfl))⟩
  last := ⟨_, hlast, alphabet.isChar_eq_false (.inr (.inl rfl))⟩

/-- The characters of a core may stand in an address. -/
theorem isChar_coreWord {c a b : Char} {domain : Text} (h : alphabet.Core c domain a b) :
    ∀ d ∈ coreWord c domain a b, alphabet.isChar d = true := by
  intro d hd
  simp only [coreWord, List.mem_cons, List.mem_append, List.not_mem_nil, or_false] at hd
  rcases hd with rfl | rfl | hd | rfl | rfl | rfl
  · simp [AddressAlphabet.isChar, h.localPart]
  · simp [AddressAlphabet.isChar]
  · simp [AddressAlphabet.isChar, h.domain.1 d hd]
  · simp [AddressAlphabet.isChar]
  · simp [AddressAlphabet.isChar, h.ending.1]
  · simp [AddressAlphabet.isChar, h.ending.2]

/-- The domain and the ending of a core have no run, if the domain has none. -/
theorem not_contains_run {domain : Text} {a b : Char} (h : ¬Contains IsDigitRun domain) :
    ¬Contains IsDigitRun (domain ++ ['.', a, b]) := by
  rintro ⟨digits, hrun, hin⟩
  rcases infix_append_of_head (c := '.') rfl rfl hrun.1 hin with hdomain | hending
  · exact h ⟨digits, hrun, hdomain⟩
  · exact absurd (hrun.2.trans hending.length_le) (by simp)

/-- An address in the result was spared. -/
theorem spares_of_contains (h : Replaced codePattern none s out)
    (hruns : ¬Contains IsDigitRun out) (hemails : ¬Contains IsEmail s)
    (haddress : Contains alphabet.IsAddress out) : alphabet.Spares s := by
  obtain ⟨x, c, domain, a, b, tail, rfl, hcore⟩ := exists_core haddress
  rw [append_coreWord] at h hruns
  obtain ⟨front, rest, rfl, hfront, hbehind⟩ := split_of_replaced isMark_at h
  -- the last character of the local part is none of a block, and what is behind the sign is kept
  obtain ⟨hlast, hkept⟩ := getLast_of_replaced (alphabet.plain c (by simp [hcore.localPart])).2.1
    hfront List.getLast?_concat
  obtain ⟨front, rfl⟩ := List.getLast?_eq_some_iff.mp hlast
  obtain ⟨word, ⟨after, rfl⟩, hmap⟩ := hbehind.prefix_of_fences fences_codePattern
    (alphabet.fence (.inl rfl) rfl)
    (fun d hd ↦ isChar_coreWord hcore d (List.mem_cons_of_mem _ (List.mem_cons_of_mem _ hd)))
    (List.prefix_append _ tail)
  rw [List.map_id, List.map_id] at hmap
  subst hmap
  refine ⟨front, c, domain, a, b, after, (append_coreWord ..).symm, hcore, fun hcovered ↦ ?_,
    fun hend ↦ ?_, fun ⟨digits, hrun, hin⟩ ↦ ?_⟩
  · exact hemails ⟨_, isEmail_coreWord hcore hcovered, front, after, by
      rw [List.append_assoc, append_coreWord]⟩
  · obtain ⟨digits, hrun, hsuffix⟩ := hkept hend
    exact hruns ⟨digits, hrun, hsuffix.isInfix.trans List.infix_append_left⟩
  · exact hruns ⟨digits, hrun, hin.trans ⟨x ++ [c, '@'], ['.', a, b] ++ tail, by simp⟩⟩

/-- What was spared is an address in the result. -/
theorem contains_of_spares (h : Replaced codePattern none s out) (hspares : alphabet.Spares s) :
    Contains alphabet.IsAddress out := by
  obtain ⟨front, c, domain, a, b, after, rfl, hcore, -, hend, hruns⟩ := hspares
  rw [append_coreWord] at h
  obtain ⟨x, tail, rfl, hfront, hbehind⟩ := exists_split_of_replaced isMark_at.1 h
  obtain ⟨x, rfl⟩ := List.getLast?_eq_some_iff.mp
    (getLast_replaced hfront List.getLast?_concat hend)
  have hletter : (domain ++ ['.', a, b]).getLast?.any Char.isDigit = false := by
    rw [List.getLast?_append_of_ne_nil _ (List.cons_ne_nil _ _)]
    exact alphabet.letters b hcore.ending.2
  obtain ⟨tail, rfl⟩ := prefix_replaced (not_contains_run hruns) hletter hbehind
  exact ⟨_, isAddress_coreWord hcore, x, tail, by rw [List.append_assoc, append_coreWord]⟩

/-! ## Where such addresses come from -/

/-- A class of characters for which case does not matter. -/
theorem class_of_toLower {ok : Char → Bool} (hcase : ∀ c, ok c.toLower = ok c) {c d : Char}
    (h : d.toLower = c.toLower) : ok d = ok c := by
  rw [← hcase d, h, hcase]

/-- Case does not matter for the classes of the pattern, and the signs have none. -/
theorem pattern_toLower (c : Char) :
    isLocalChar c.toLower = isLocalChar c ∧ isDomainChar c.toLower = isDomainChar c ∧
      c.toLower.isAlpha = c.isAlpha ∧ (c.toLower == '@') = (c == '@') ∧
      (c.toLower == '.') = (c == '.') :=
  LowerCase.forall_toLower (p := fun c d ↦ isLocalChar d = isLocalChar c ∧
    isDomainChar d = isDomainChar c ∧ d.isAlpha = c.isAlpha ∧ (d == '@') = (c == '@') ∧
    (d == '.') = (c == '.')) (fun _ ↦ ⟨rfl, rfl, rfl, rfl, rfl⟩) (by decide +kernel) c

/-- A sign in another case is the sign. -/
theorem eq_of_toLower {sign d : Char} (hsign : ∀ c : Char, (c.toLower == sign) = (c == sign))
    (h : d.toLower = sign.toLower) : d = sign := by
  have hsame : (d == sign) = (sign == sign) := by rw [← hsign d, h, hsign]
  rwa [BEq.rfl, beq_iff_eq] at hsame

/-- Case does not matter for a class of texts. -/
theorem forall_of_toLower {ok : Char → Bool} (hcase : ∀ c, ok c.toLower = ok c) {word word' : Text}
    (hmap : word'.map Char.toLower = word.map Char.toLower) (h : ∀ c ∈ word, ok c = true) :
    ∀ c ∈ word', ok c = true := by
  intro c hc
  have hmem : c.toLower ∈ word.map Char.toLower := hmap ▸ List.mem_map_of_mem hc
  obtain ⟨d, hd, heq⟩ := List.mem_map.mp hmem
  rw [class_of_toLower hcase heq.symm]
  exact h d hd

/-- Case does not matter for the core of an address that the pattern does not cover. -/
theorem AddressAlphabet.IsUncovered.of_toLower {word word' : Text} (h : alphabet.IsUncovered word)
    (hmap : word'.map Char.toLower = word.map Char.toLower) : alphabet.IsUncovered word' := by
  obtain ⟨c, domain, a, b, hcore, huncovered, rfl⟩ := h
  rw [coreWord, List.map_cons, List.map_cons, List.map_append] at hmap
  obtain ⟨c', word', rfl, hc, hmap⟩ := List.map_eq_cons_iff.mp hmap
  obtain ⟨sign, word', rfl, hsign, hmap⟩ := List.map_eq_cons_iff.mp hmap
  obtain ⟨domain', word', rfl, hdomain, hmap⟩ := List.map_eq_append_iff.mp hmap
  obtain ⟨dot, word', rfl, hdot, hmap⟩ := List.map_eq_cons_iff.mp hmap
  obtain ⟨a', word', rfl, ha, hmap⟩ := List.map_eq_cons_iff.mp hmap
  obtain ⟨b', word', rfl, hb, hmap⟩ := List.map_eq_cons_iff.mp hmap
  obtain rfl := List.map_eq_nil_iff.mp hmap
  obtain rfl := eq_of_toLower (fun c ↦ (pattern_toLower c).2.2.2.1) hsign
  obtain rfl := eq_of_toLower (fun c ↦ (pattern_toLower c).2.2.2.2) hdot
  have hlength : domain'.length = domain.length := by
    rw [← List.length_map Char.toLower, hdomain, List.length_map]
  refine ⟨c', domain', a', b', ⟨?_, ⟨?_, hlength ▸ hcore.domain.2⟩, ?_, ?_⟩, fun hcovered ↦ ?_, rfl⟩
  · rw [class_of_toLower (fun c ↦ (alphabet.caseless c).1) hc]
    exact hcore.localPart
  · exact forall_of_toLower (fun c ↦ (alphabet.caseless c).2.1) hdomain hcore.domain.1
  · rw [class_of_toLower (fun c ↦ (alphabet.caseless c).2.2) ha]
    exact hcore.ending.1
  · rw [class_of_toLower (fun c ↦ (alphabet.caseless c).2.2) hb]
    exact hcore.ending.2
  · obtain ⟨hlocal', hdomain', ha', hb'⟩ := hcovered
    have hdomainChars :=
      forall_of_toLower (fun c ↦ (pattern_toLower c).2.1) hdomain.symm hdomain'
    refine huncovered ⟨?_, hdomainChars, ?_, ?_⟩
    · rwa [class_of_toLower (fun c ↦ (pattern_toLower c).1) hc] at hlocal'
    · rwa [class_of_toLower (fun c ↦ (pattern_toLower c).2.2.1) ha] at ha'
    · rwa [class_of_toLower (fun c ↦ (pattern_toLower c).2.2.1) hb] at hb'

/-- Replacing brings no address into a text that the pattern does not cover. -/
theorem not_uncovered_replaceEvery {rule : Option Char → Pattern Char Text} {block : Text}
    (hfences : Fences Char.toLower rule block) (hblock : Fence alphabet.isChar block)
    (hmark : '@' ∉ block) (h : ¬Contains alphabet.IsUncovered text) :
    ¬Contains alphabet.IsUncovered (replaceEvery rule text) := by
  rintro ⟨word, huncovered, hword⟩
  obtain ⟨c, domain, a, b, hcore, -, hsplit⟩ := id huncovered
  have hok : ∀ d ∈ word, alphabet.isChar d = true := hsplit ▸ isChar_coreWord hcore
  rcases (hfences.replaced text).infix_of_fences hfences hblock hok hword with
    hin | ⟨word', hword', hmap⟩
  · exact hmark (hin.subset (by simp [hsplit, coreWord]))
  · exact h ⟨word', huncovered.of_toLower hmap, hword'⟩

/-- The first six replacements bring none into a text. -/
theorem not_uncovered_redactKnown (h : ¬Contains alphabet.IsUncovered text) :
    ¬Contains alphabet.IsUncovered (redactKnown text) := by
  have htokens := not_uncovered_replaceEvery fences_bearerPattern
    (alphabet.fence (.inr rfl) rfl) (by decide) h
  have hjwts := not_uncovered_replaceEvery (fences_jwtPattern.map Char.toLower)
    (alphabet.fence (.inl rfl) rfl) (by decide) htokens
  have hmembers := not_uncovered_replaceEvery (fences_memberPattern.map Char.toLower)
    (alphabet.fence (.inl rfl) rfl) (by decide) hjwts
  have hassignments := not_uncovered_replaceEvery (fences_assignmentPattern.map Char.toLower)
    (alphabet.fence (.inl rfl) rfl) (by decide) hmembers
  have hemails := not_uncovered_replaceEvery (fences_emailPattern.map Char.toLower)
    (alphabet.fence (.inl rfl) rfl) (by decide) hassignments
  exact not_uncovered_replaceEvery (fences_numberPattern.map Char.toLower)
    (alphabet.fence (.inl rfl) rfl) (by decide) hemails

/-! ## What gets through -/

/-- For every text and every alphabet of addresses: no run of four or more digits, no address and no
JWT gets through exactly when, in what the first six replacements leave, no run of four or more
digits is glued to a letter or an underscore and no address is left that the pattern does not cover,
but for those with such a run before the sign or in the domain. The six replacements bring neither
into a text. -/
theorem sanitizeCognitoDiagnosticText_iff (alphabet : AddressAlphabet) (text : Text) :
    (alphabet.ShowsNothing (sanitizeCognitoDiagnosticText text) ↔
        ¬Glued (redactKnown text) ∧ ¬alphabet.Spares (redactKnown text)) ∧
      (¬Glued text → ¬Glued (redactKnown text)) ∧
      (¬Contains alphabet.IsUncovered text → ¬alphabet.Spares (redactKnown text)) := by
  have hreplaced : Replaced codePattern none (redactKnown text)
      (sanitizeCognitoDiagnosticText text) := fences_codePattern.replaced (redactKnown text)
  have hdigits : Contains IsDigitRun (sanitizeCognitoDiagnosticText text) ↔
      Glued (redactKnown text) :=
    ⟨glued_of_contains hreplaced (fun hnone ↦ absurd hnone Bool.false_ne_true),
      contains_of_glued hreplaced⟩
  refine ⟨?_, not_glued_redactKnown, fun h ↦ ?_⟩
  · unfold AddressAlphabet.ShowsNothing
    rw [hdigits]
    constructor
    · rintro ⟨hglued, haddress, -⟩
      exact ⟨hglued, fun hspares ↦ haddress (contains_of_spares hreplaced hspares)⟩
    · rintro ⟨hglued, hspares⟩
      exact ⟨hglued, fun haddress ↦ hspares (spares_of_contains hreplaced (mt hdigits.mp hglued)
        (not_contains_isEmail text) haddress), not_contains_isJwt text⟩
  · rintro ⟨front, c, domain, a, b, after, hsplit, hcore, huncovered, -⟩
    exact not_uncovered_redactKnown h
      ⟨_, ⟨c, domain, a, b, hcore, huncovered, rfl⟩, front, after,
        by rw [hsplit, List.append_assoc]⟩

/-- A character beyond ASCII that is no white space. -/
def isInternational (c : Char) : Bool := 128 ≤ c.toNat && !Text.isWhiteSpace c

/-- The characters that mail systems take: of ASCII all but white space and `()<>[]:;@,\\` before
the sign and letters, digits, dots and hyphens behind it, and on both sides what is beyond ASCII.
A quotation mark ends a quoted local part. -/
def mailAlphabet : AddressAlphabet where
  isLocal c := isInternational c ||
    33 ≤ c.toNat && c.toNat ≤ 126 && !"()<>[]:;@,\\".toList.contains c
  isDomain c := isInternational c || isDomainChar c
  isEnding c := isInternational c || c.isAlpha
  plain := by
    intro c hc
    refine ⟨?_, ?_, ?_⟩
    · rintro rfl
      exact absurd hc (by decide)
    · rintro rfl
      exact absurd hc (by decide)
    · rintro rfl
      exact absurd hc (by decide)
  caseless := LowerCase.forall_toLower (p := fun c d ↦
    (isInternational d || 33 ≤ d.toNat && d.toNat ≤ 126 &&
        !"()<>[]:;@,\\".toList.contains d) =
      (isInternational c || 33 ≤ c.toNat && c.toNat ≤ 126 &&
        !"()<>[]:;@,\\".toList.contains c) ∧
    (isInternational d || isDomainChar d) = (isInternational c || isDomainChar c) ∧
    (isInternational d || d.isAlpha) = (isInternational c || c.isAlpha))
    (fun _ ↦ ⟨rfl, rfl, rfl⟩) (by decide +kernel)
  letters := by
    intro c hc
    by_contra hdigit
    rw [Bool.not_eq_false] at hdigit
    have hascii : c.toNat < 128 := by
      simp only [Char.isDigit, Bool.and_eq_true, decide_eq_true_eq] at hdigit
      have hle : c.val.toNat ≤ 57 := hdigit.2
      show c.val.toNat < 128
      omega
    have hall := LowerCase.forall_ascii (p := fun c ↦ (isInternational c || c.isAlpha) = true →
      c.isDigit = false) (by decide +kernel) hascii hc
    exact absurd (hall.symm.trans hdigit) Bool.false_ne_true

/-- A code behind an underscore gets through, and so do addresses with an exclamation mark and with
an umlaut. -/
theorem sanitizeCognitoDiagnosticText_underscore :
    ¬mailAlphabet.ShowsNothing (sanitizeCognitoDiagnosticText "otp_123456".toList) ∧
      ¬mailAlphabet.ShowsNothing (sanitizeCognitoDiagnosticText "user!@example.com".toList) ∧
      ¬mailAlphabet.ShowsNothing (sanitizeCognitoDiagnosticText "user@münchen.de".toList) := by
  have hcode : sanitizeCognitoDiagnosticText "otp_123456".toList = "otp_123456".toList := by
    decide +kernel
  have hmark : sanitizeCognitoDiagnosticText "user!@example.com".toList =
      "user!@example.com".toList := by decide +kernel
  have humlaut : sanitizeCognitoDiagnosticText "user@münchen.de".toList =
      "user@münchen.de".toList := by decide +kernel
  rw [hcode, hmark, humlaut]
  refine ⟨?_, ?_, ?_⟩
  · rintro ⟨hdigits, -⟩
    exact hdigits ⟨"123456".toList, ⟨List.all_eq_true.mp rfl, by decide⟩, "otp_".toList, [], rfl⟩
  · rintro ⟨-, haddress, -⟩
    exact haddress ⟨"user!@example.com".toList,
      ⟨"user!".toList, "example".toList, "com".toList, rfl,
      ⟨List.all_eq_true.mp rfl, by decide⟩, ⟨List.all_eq_true.mp rfl, by decide⟩,
      List.all_eq_true.mp rfl, by decide⟩, List.infix_refl _⟩
  · rintro ⟨-, haddress, -⟩
    exact haddress ⟨"user@münchen.de".toList,
      ⟨"user".toList, "münchen".toList, "de".toList, rfl,
      ⟨List.all_eq_true.mp rfl, by decide⟩, ⟨List.all_eq_true.mp rfl, by decide⟩,
      List.all_eq_true.mp rfl, by decide⟩, List.infix_refl _⟩

end CoreUtils.Toolkit.Cognito
