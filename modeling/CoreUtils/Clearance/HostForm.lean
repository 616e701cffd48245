import CoreUtils.Clearance.HostRule
import CoreUtils.Library.IpText

/-!
# What a host is normalized to

`normalizeHost_eq_some_iff` says when `normalizeHost` accepts a host and what it returns, and
`brackets_of_normalizeHost` where square brackets may stand in it, unless the host is cut. Both are
about the text that is left of a host after trimming, lower-casing and dropping a dot, `hostCore`.
-/

namespace CoreUtils.Clearance

open Ip LowerCase

/-- The lower case of a text is one of its lower-case forms. -/
def Runtime.LowersCase (runtime : Runtime) : Prop :=
  ∀ text, Lowered text (runtime.toLowerCase text)

/-- A text that starts and ends with square brackets. -/
def IsBracketed (text : Host) : Prop := text.head? = some '[' ∧ text.getLast? = some ']'

/-- The text that decides on a host. -/
def hostCore (runtime : Runtime) (host : Host) : Host :=
  dropTrailingDot (runtime.toLowerCase (Text.trim Text.isWhiteSpace host))

/-- The characters that a host may not have, brackets and IP literals apart. -/
def IsForbidden (c : Char) : Prop :=
  Text.isWhiteSpace c = true ∨ c = '%' ∨ c = '/' ∨ c = ':' ∨ c = '@'

/-- Whether a character is forbidden can be checked. -/
instance (c : Char) : Decidable (IsForbidden c) :=
  inferInstanceAs (Decidable (_ ∨ _ ∨ _ ∨ _ ∨ _))

/-- The characters at which a URL goes on after its host: the translation of names cuts its text
there. -/
def CutsHost (c : Char) : Prop := c = '?' ∨ c = '#' ∨ c = '\\'

/-- Whether a host is cut at a character can be checked. -/
instance (c : Char) : Decidable (CutsHost c) := inferInstanceAs (Decidable (_ ∨ _ ∨ _))

/-- What the text of a host is normalized to. -/
inductive Normalizes (runtime : Runtime) : Host → Host → Prop where
  /-- An IP literal without a zone is kept. -/
  | literal {address : Host} : (isIP address).isSome = true → '%' ∉ address →
      Normalizes runtime address address
  /-- Brackets around an IP literal are dropped. -/
  | bracketed {address : Host} : (isIP address).isSome = true → '%' ∉ address →
      Normalizes runtime ('[' :: address ++ [']']) address
  /-- A name is normalized to its ASCII form, which has no `*`. -/
  | name {core : Host} : core ≠ [] → isIP core = none → ¬IsBracketed core →
      (∀ c ∈ core, ¬IsForbidden c) → runtime.domainToASCII core ≠ [] →
      '*' ∉ runtime.domainToASCII core → Normalizes runtime core (runtime.domainToASCII core)

/-! ## Brackets -/

/-- A bracketed text is its inner text between the brackets. -/
theorem isBracketed_iff {text : Host} :
    IsBracketed text ↔ ∃ inner, text = '[' :: inner ++ [']'] := by
  constructor
  · rintro ⟨hhead, hlast⟩
    obtain ⟨rest, rfl⟩ := List.head?_eq_some_iff.mp hhead
    rcases rest.eq_nil_or_concat with rfl | ⟨inner, last, rfl⟩
    · exact absurd hlast (by decide)
    · rw [List.concat_eq_append, ← List.cons_append, List.getLast?_concat] at hlast
      obtain rfl : last = ']' := Option.some.inj hlast
      exact ⟨inner, by simp⟩
  · rintro ⟨inner, rfl⟩
    exact ⟨rfl, List.getLast?_concat⟩

/-- The check of the source for brackets. -/
theorem isBracketed_check (text : Host) :
    (text.head? == some '[' && text.getLast? == some ']') = true ↔ IsBracketed text := by
  simp [IsBracketed]

/-- The characters of an address without a zone are allowed in a host, colons apart. -/
theorem not_forbidden_of_isIPv6Char {c : Char} (h : IsIPv6Char c) :
    c.toNat < 128 ∧ c ≠ 'i' ∧ c ≠ 'k' ∧ c ≠ '/' ∧ c ≠ '[' ∧ c ≠ ']' ∧ c ≠ '*' ∧
      Text.isWhiteSpace c = false := by
  have hascii : c.toNat < 128 := by
    rcases h with hdigit | rfl | rfl
    · unfold hexDigit at hdigit
      simp only [Char.le_def, UInt32.le_iff_toNat_le] at hdigit
      have hcode : c.val.toNat = c.toNat := rfl
      have hnine : '9'.val.toNat = 57 := rfl
      have hf : 'f'.val.toNat = 102 := rfl
      have hF : 'F'.val.toNat = 70 := rfl
      split at hdigit
      · omega
      · split at hdigit
        · omega
        · split at hdigit
          · omega
          · simp at hdigit
    · decide
    · decide
  -- the other checks are decided over the ASCII characters
  have hall : ∀ n < 128, ((hexDigit (Char.ofNat n)).isSome = true ∨ Char.ofNat n = ':' ∨
      Char.ofNat n = '.') → Char.ofNat n ≠ 'i' ∧ Char.ofNat n ≠ 'k' ∧ Char.ofNat n ≠ '/' ∧
      Char.ofNat n ≠ '[' ∧ Char.ofNat n ≠ ']' ∧ Char.ofNat n ≠ '*' ∧
      Text.isWhiteSpace (Char.ofNat n) = false := by decide +kernel
  exact ⟨hascii, forall_ascii (p := fun c ↦ ((hexDigit c).isSome = true ∨ c = ':' ∨ c = '.') →
    c ≠ 'i' ∧ c ≠ 'k' ∧ c ≠ '/' ∧ c ≠ '[' ∧ c ≠ ']' ∧ c ≠ '*' ∧ Text.isWhiteSpace c = false)
    hall hascii h⟩

/-! ## Normal forms -/

variable {runtime : Runtime} {host core normal : Host}

/-- The characters that `normalizeHost` refuses before it looks for an IP literal. -/
def IsRefused (text : Host) : Prop :=
  text = [] ∨ '%' ∈ text ∨ '/' ∈ text ∨ text.any Text.isWhiteSpace

/-- Whether a text is refused can be checked. -/
instance (text : Host) : Decidable (IsRefused text) := inferInstanceAs (Decidable (_ ∨ _ ∨ _ ∨ _))

/-- An IP literal without a zone is not refused. -/
theorem not_refused_of_isIP {address : Host} (h : (isIP address).isSome = true)
    (hzone : '%' ∉ address) : ¬IsRefused address := by
  have hchars := char_of_isIP h hzone
  rintro (rfl | hpercent | hslash | hblank)
  · exact absurd h (by decide)
  · exact hzone hpercent
  · exact (not_forbidden_of_isIPv6Char (hchars _ hslash)).2.2.2.1 rfl
  · obtain ⟨c, hc, hwhite⟩ := List.any_eq_true.mp hblank
    rw [(not_forbidden_of_isIPv6Char (hchars c hc)).2.2.2.2.2.2.2] at hwhite
    exact absurd hwhite (by decide)

/-- The two checks of a name are for the forbidden characters. -/
theorem not_refused_and_iff {core : Host} :
    ¬IsRefused core ∧ ¬(':' ∈ core ∨ '@' ∈ core) ↔ core ≠ [] ∧ ∀ c ∈ core, ¬IsForbidden c := by
  constructor
  · rintro ⟨hrefused, hmarks⟩
    refine ⟨fun hnil ↦ hrefused (.inl hnil), fun c hc hforbidden ↦ ?_⟩
    rcases hforbidden with hblank | rfl | rfl | rfl | rfl
    · exact hrefused (.inr (.inr (.inr (List.any_eq_true.mpr ⟨c, hc, hblank⟩))))
    · exact hrefused (.inr (.inl hc))
    · exact hrefused (.inr (.inr (.inl hc)))
    · exact hmarks (.inl hc)
    · exact hmarks (.inr hc)
  · intro ⟨hne, hchars⟩
    constructor
    · rintro (hnil | hpercent | hslash | hblank)
      · exact hne hnil
      · exact hchars _ hpercent (.inr (.inl rfl))
      · exact hchars _ hslash (.inr (.inr (.inl rfl)))
      · obtain ⟨c, hc, hwhite⟩ := List.any_eq_true.mp hblank
        exact hchars c hc (.inl hwhite)
    · rintro (hcolon | hat)
      · exact hchars _ hcolon (.inr (.inr (.inr (.inl rfl))))
      · exact hchars _ hat (.inr (.inr (.inr (.inr rfl))))

/-- `normalizeHost`, for the text that is left of a host. -/
def normalizeCore (runtime : Runtime) (core : Host) : Option Host :=
  let isBracketed := core.head? == some '[' && core.getLast? == some ']'
  let unbracketed := if isBracketed then core.tail.dropLast else core
  if IsRefused unbracketed then none
  else if (isIP unbracketed).isSome then some unbracketed
  else if isBracketed then none
  else if ':' ∈ unbracketed ∨ '@' ∈ unbracketed then none
  else
    let ascii := runtime.domainToASCII unbracketed
    if ascii = [] ∨ '*' ∈ ascii then none else some ascii

/-- `normalizeHost` looks at nothing but the text that is left of a host. -/
theorem normalizeHost_eq (runtime : Runtime) (host : Host) :
    normalizeHost runtime host = normalizeCore runtime (hostCore runtime host) :=
  rfl

/-- Between brackets only an IP literal is accepted. -/
theorem normalizeCore_bracketed (inner : Host) :
    normalizeCore runtime ('[' :: inner ++ [']']) = some normal ↔
      inner = normal ∧ (isIP normal).isSome = true ∧ '%' ∉ normal := by
  have hcheck := (isBracketed_check _).mpr (isBracketed_iff.mpr ⟨inner, rfl⟩)
  have hinner : ('[' :: inner ++ [']']).tail.dropLast = inner := by simp
  simp only [normalizeCore, hcheck, if_true, hinner]
  constructor
  · intro h
    split at h
    · simp at h
    · rename_i hrefused
      split at h
      · rename_i hip
        obtain rfl := Option.some.inj h
        exact ⟨rfl, hip, fun hzone ↦ hrefused (.inr (.inl hzone))⟩
      · simp at h
  · rintro ⟨rfl, hip, hzone⟩
    rw [if_neg (not_refused_of_isIP hip hzone), if_pos hip]

/-- Without brackets an IP literal and a name are accepted. -/
theorem normalizeCore_plain (hplain : ¬IsBracketed core) :
    normalizeCore runtime core = some normal ↔
      core = normal ∧ (isIP normal).isSome = true ∧ '%' ∉ normal ∨
      (core ≠ [] ∧ ∀ c ∈ core, ¬IsForbidden c) ∧ isIP core = none ∧
        runtime.domainToASCII core = normal ∧ normal ≠ [] ∧ '*' ∉ normal := by
  have hcheck : (core.head? == some '[' && core.getLast? == some ']') = false := by
    rw [← Bool.not_eq_true, isBracketed_check]
    exact hplain
  simp only [normalizeCore, hcheck, Bool.false_eq_true, if_false]
  rw [← not_refused_and_iff]
  by_cases hrefused : IsRefused core
  · rw [if_pos hrefused]
    constructor
    · simp
    · rintro (⟨rfl, hip, hzone⟩ | ⟨⟨hpassed, -⟩, -⟩)
      · exact absurd hrefused (not_refused_of_isIP hip hzone)
      · exact absurd hrefused hpassed
  rw [if_neg hrefused]
  cases hip : isIP core with
  | some family =>
      rw [Option.isSome_some, if_pos rfl]
      constructor
      · intro h
        obtain rfl := Option.some.inj h
        exact .inl ⟨rfl, by rw [hip]; rfl, fun hzone ↦ hrefused (.inr (.inl hzone))⟩
      · rintro (⟨rfl, -⟩ | ⟨-, hnone, -⟩)
        · rfl
        · exact absurd hnone (by simp)
  | none =>
      rw [Option.isSome_none, if_neg (by decide)]
      constructor
      · intro h
        split at h
        · simp at h
        · rename_i hmarks
          split at h
          · simp at h
          · rename_i hascii
            obtain rfl := Option.some.inj h
            exact .inr ⟨⟨hrefused, hmarks⟩, rfl, rfl, fun hnil ↦ hascii (.inl hnil),
              fun hstar ↦ hascii (.inr hstar)⟩
      · rintro (⟨rfl, hsome, -⟩ | ⟨⟨-, hmarks⟩, -, rfl, hne, hstar⟩)
        · rw [hip] at hsome
          exact absurd hsome (by decide)
        · rw [if_neg hmarks, if_neg (not_or.mpr ⟨hne, hstar⟩)]

/-- When a host is accepted, and what is returned. -/
theorem normalizeHost_eq_some_iff :
    normalizeHost runtime host = some normal ↔
      Normalizes runtime (hostCore runtime host) normal := by
  rw [normalizeHost_eq]
  generalize hostCore runtime host = core
  by_cases hbracketed : IsBracketed core
  · obtain ⟨inner, hcore⟩ := isBracketed_iff.mp hbracketed
    constructor
    · intro h
      rw [hcore] at h ⊢
      obtain ⟨rfl, hip, hzone⟩ := (normalizeCore_bracketed inner).mp h
      exact .bracketed hip hzone
    · intro h
      cases h with
      | literal hip hzone =>
          -- a bracketed text is no IP literal, as no literal has a bracket
          have hmem : '[' ∈ normal := by simp [hcore]
          exact absurd rfl (not_forbidden_of_isIPv6Char (char_of_isIP hip hzone _ hmem)).2.2.2.2.1
      | bracketed hip hzone => exact (normalizeCore_bracketed normal).mpr ⟨rfl, hip, hzone⟩
      | name _ _ hplain => exact absurd hbracketed hplain
  · rw [normalizeCore_plain hbracketed]
    constructor
    · rintro (⟨rfl, hip, hzone⟩ | ⟨⟨hne, hchars⟩, hip, rfl, hascii, hstar⟩)
      · exact .literal hip hzone
      · exact .name hne hip hbracketed hchars hascii hstar
    · intro h
      cases h with
      | literal hip hzone => exact .inl ⟨rfl, hip, hzone⟩
      | bracketed hip hzone => exact absurd (isBracketed_iff.mpr ⟨_, rfl⟩) hbracketed
      | name hne hip _ hchars hascii hstar =>
          exact .inr ⟨⟨hne, hchars⟩, hip, rfl, hascii, hstar⟩

/-! ## Square brackets in a host -/

/-- Square brackets appear only around an IP literal. -/
def BracketsAroundLiteral (text : List Char) : Prop :=
  ('[' ∉ text ∧ ']' ∉ text) ∨
    ∃ before address after, text = before ++ '[' :: address ++ ']' :: after ∧
      (isIP address).isSome = true ∧ ('[' ∉ before ∧ ']' ∉ before) ∧ '[' ∉ after ∧ ']' ∉ after

/-- A dot at the end is all that is dropped. -/
theorem dropTrailingDot_eq (text : Host) :
    text = dropTrailingDot text ∨ text = dropTrailingDot text ++ ['.'] := by
  unfold dropTrailingDot
  split
  · rename_i hdot
    obtain ⟨front, rfl⟩ := List.getLast?_eq_some_iff.mp hdot
    right
    simp
  · exact .inl rfl

/-- What is left of a host is a lower-case form of a part of it, but for a dot, and what stands
around that part is white space. -/
theorem exists_lowered_hostCore (hlower : runtime.LowersCase) (host : Host) :
    ∃ front trimmed back dots, host = front ++ trimmed ++ back ∧
      Lowered trimmed (hostCore runtime host ++ dots) ∧ (dots = [] ∨ dots = ['.']) ∧
      (∀ c ∈ front, Text.isWhiteSpace c = true) ∧ ∀ c ∈ back, Text.isWhiteSpace c = true := by
  obtain ⟨front, hfront, hfrontBlank⟩ :=
    Text.exists_append_trimStart Text.isWhiteSpace host
  obtain ⟨back, hback, hbackBlank⟩ :=
    Text.exists_trimEnd_append Text.isWhiteSpace (Text.trimStart Text.isWhiteSpace host)
  have hparts : host = front ++ Text.trim Text.isWhiteSpace host ++ back := by
    rw [List.append_assoc, Text.trim, ← hback, ← hfront]
  have hlowered := hlower (Text.trim Text.isWhiteSpace host)
  rcases dropTrailingDot_eq (runtime.toLowerCase (Text.trim Text.isWhiteSpace host)) with
    hsame | hdot
  · refine ⟨front, _, back, [], hparts, ?_, .inl rfl, hfrontBlank, hbackBlank⟩
    rw [List.append_nil, hostCore, ← hsame]
    exact hlowered
  · refine ⟨front, _, back, ['.'], hparts, ?_, .inr rfl, hfrontBlank, hbackBlank⟩
    rw [hostCore, ← hdot]
    exact hlowered

/-- A mark that is neither a dot nor white space stands in a host if it stands in what is left of
it. -/
theorem mem_hostCore_iff (hlower : runtime.LowersCase) {c : Char} (hmark : IsMark c)
    (hdot : c ≠ '.') (hblank : Text.isWhiteSpace c = false) :
    c ∈ hostCore runtime host ↔ c ∈ host := by
  obtain ⟨front, trimmed, back, dots, hparts, hlowered, hdots, hfront, hback⟩ :=
    exists_lowered_hostCore hlower host
  have hdropped : c ∉ dots := by
    rcases hdots with rfl | rfl
    · exact List.not_mem_nil
    · simpa using hdot
  have hplain : ¬Text.isWhiteSpace c = true := by simp [hblank]
  have hcore : c ∈ hostCore runtime host ↔ c ∈ trimmed := by
    rw [← hlowered.mem_iff hmark, List.mem_append, or_iff_left hdropped]
  rw [hcore, hparts, List.mem_append, List.mem_append,
    or_iff_left fun hmem ↦ hplain (hback c hmem), or_iff_right fun hmem ↦ hplain (hfront c hmem)]

/-- What is left of a bracketed host is bracketed. -/
theorem IsBracketed.hostCore (hlower : runtime.LowersCase) (h : IsBracketed host) :
    IsBracketed (hostCore runtime host) := by
  obtain ⟨inner, hhost⟩ := isBracketed_iff.mp h
  obtain ⟨front, trimmed, back, dots, hparts, hlowered, hdots, hfront, hback⟩ :=
    exists_lowered_hostCore hlower host
  have hfrontNil : front = [] := by
    cases front with
    | nil => rfl
    | cons c front =>
        rw [hhost] at hparts
        obtain ⟨rfl, -⟩ := List.cons.inj hparts
        exact absurd (hfront _ List.mem_cons_self) (by decide)
  have hbackNil : back = [] := by
    rcases back.eq_nil_or_concat with rfl | ⟨back, c, rfl⟩
    · rfl
    · rw [hhost, List.concat_eq_append, ← List.append_assoc] at hparts
      obtain ⟨-, hlast⟩ := List.append_inj' hparts rfl
      obtain rfl := List.singleton_inj.mp hlast
      exact absurd (hback ']' (by simp)) (by decide)
  rw [hfrontNil, hbackNil, List.nil_append, List.append_nil] at hparts
  generalize Clearance.hostCore runtime host = core at hlowered
  rw [← hparts, hhost, ← List.singleton_append, List.append_assoc] at hlowered
  obtain ⟨opening, rest, hrest, hopening, hlowered⟩ := hlowered.append_left
  obtain ⟨middle, closing, rfl, -, hclosing⟩ := hlowered.append_left
  rw [hopening.singleton (by decide), hclosing.singleton (by decide)] at hrest
  -- the last character is a bracket, so that no dot has been dropped
  rcases hdots with rfl | rfl
  · rw [List.append_nil] at hrest
    exact isBracketed_iff.mpr ⟨middle, hrest⟩
  · rw [← List.append_assoc] at hrest
    obtain ⟨-, hlast⟩ := List.append_inj' hrest rfl
    exact absurd (List.singleton_inj.mp hlast) (by decide)

/-- What is accepted as an IP literal has square brackets only around it. -/
theorem brackets_of_normalizes (hlower : runtime.LowersCase)
    (h : Normalizes runtime (hostCore runtime host) normal) :
    BracketsAroundLiteral host ∨
      ¬IsBracketed (hostCore runtime host) ∧ (∀ c ∈ hostCore runtime host, ¬IsForbidden c) ∧
        runtime.domainToASCII (hostCore runtime host) ≠ [] := by
  obtain ⟨front, trimmed, back, dots, hparts, hlowered, hdots, hfront, hback⟩ :=
    exists_lowered_hostCore hlower host
  have hmem : ∀ c, c = '[' ∨ c = ']' → c ∈ host → c ∈ hostCore runtime host := by
    rintro c (rfl | rfl) hmem
    · exact (mem_hostCore_iff hlower (by decide) (by decide) (by decide)).mpr hmem
    · exact (mem_hostCore_iff hlower (by decide) (by decide) (by decide)).mpr hmem
  generalize hostCore runtime host = core at h hlowered hmem
  cases h with
  | literal hip hzone =>
      have hchars := fun c hc ↦ not_forbidden_of_isIPv6Char (char_of_isIP hip hzone c hc)
      exact .inl (.inl ⟨fun hopen ↦ (hchars _ (hmem _ (.inl rfl) hopen)).2.2.2.2.1 rfl,
        fun hclose ↦ (hchars _ (hmem _ (.inr rfl) hclose)).2.2.2.2.2.1 rfl⟩)
  | name _ _ hplain hchars hascii _ => exact .inr ⟨hplain, hchars, hascii⟩
  | bracketed hip hzone =>
      refine .inl (.inr ?_)
      have hchars := fun c hc ↦ not_forbidden_of_isIPv6Char (char_of_isIP hip hzone c hc)
      -- lower-casing moves no bracket, so the host is split where its lower-case form is
      have hopened : Lowered trimmed ([] ++ '[' :: (normal ++ ']' :: dots)) := by
        simpa using hlowered
      obtain ⟨before, inner, rfl, hbefore, hinner⟩ := hopened.split (by decide)
      obtain rfl := hbefore.eq_nil
      obtain ⟨address, after, rfl, haddress, hafter⟩ := hinner.split (by decide)
      -- between the brackets only ASCII is left, where lower-casing is known
      have hlowerCase := haddress.eq_map fun c hc ↦
        ⟨(hchars c hc).1, (hchars c hc).2.1, (hchars c hc).2.2.1⟩
      have hdot : ∀ c, IsMark c → c ≠ '.' → c ∉ after := by
        intro c hc hne hmem
        have hmemDots := (hafter.mem_iff hc).mpr hmem
        rcases hdots with rfl | rfl
        · simp at hmemDots
        · exact hne (List.mem_singleton.mp hmemDots)
      refine ⟨front, address, after ++ back, by simpa using hparts, ?_, ?_, ?_⟩
      · rw [← isIP_map_toLower, ← hlowerCase]
        exact hip
      · exact ⟨fun hmem ↦ absurd (hfront _ hmem) (by decide),
          fun hmem ↦ absurd (hfront _ hmem) (by decide)⟩
      · simp only [List.mem_append, not_or]
        exact ⟨⟨hdot _ (by decide) (by decide), fun hmem ↦ absurd (hback _ hmem) (by decide)⟩,
          hdot _ (by decide) (by decide), fun hmem ↦ absurd (hback _ hmem) (by decide)⟩

/-- The characters of the ASCII form of a name: no upper-case letters, no square brackets and no
forbidden characters. -/
def IsNameChar (c : Char) : Prop :=
  c.toNat < 128 ∧ c.isUpper = false ∧ ¬IsForbidden c ∧ c ≠ '[' ∧ c ≠ ']'

/-- Whether a character may stand in a name can be checked. -/
instance (c : Char) : Decidable (IsNameChar c) :=
  inferInstanceAs (Decidable (_ ∧ _ ∧ _ ∧ _ ∧ _))

/-- A text of such characters. -/
def IsName (text : List Char) : Prop := ∀ c ∈ text, IsNameChar c

/-- Whether a text is a name can be checked. -/
instance (text : List Char) : Decidable (IsName text) := List.decidableBAll _ text

/-- Nothing is left of the empty text. -/
theorem hostCore_nil (hlower : runtime.LowersCase) : hostCore runtime [] = [] := by
  have hlowered : Lowered [] (runtime.toLowerCase []) := hlower []
  have htext : runtime.toLowerCase [] = [] := by
    generalize runtime.toLowerCase [] = text at hlowered
    cases hlowered
    rfl
  show dropTrailingDot (runtime.toLowerCase []) = []
  rw [htext]
  rfl

/-- A runtime that knows the case of ASCII letters, and whose names are the ASCII names in lower
case without a number at the end. -/
def plainRuntime : Runtime where
  toLowerCase text := text.map Char.toLower
  domainToASCII text :=
    let name := text.takeWhile fun c ↦ ¬CutsHost c
    if IsName name ∧
        ((parseIPv4 name).isSome = true ∨ isIP name = none ∧ ¬IsLabel (lastLabel name)) then name
    else []

/-- The runtime lower-cases. -/
theorem plainRuntime_lowersCase : plainRuntime.LowersCase := fun text ↦ lowered_map text

/-- A name of the runtime is the text before the first character that cuts it, and a text that is
not cut is taken whole. -/
theorem plainRuntime_domainToASCII (text : Host) :
    plainRuntime.domainToASCII text = [] ∨
      plainRuntime.domainToASCII text = text.takeWhile (fun c ↦ ¬CutsHost c) ∧
        IsName (plainRuntime.domainToASCII text) ∧
        ((parseIPv4 (plainRuntime.domainToASCII text)).isSome = true ∨
          isIP (plainRuntime.domainToASCII text) = none ∧
            ¬IsLabel (lastLabel (plainRuntime.domainToASCII text))) := by
  by_cases hname : IsName (text.takeWhile fun c ↦ ¬CutsHost c) ∧
      ((parseIPv4 (text.takeWhile fun c ↦ ¬CutsHost c)).isSome = true ∨
        isIP (text.takeWhile fun c ↦ ¬CutsHost c) = none ∧
          ¬IsLabel (lastLabel (text.takeWhile fun c ↦ ¬CutsHost c)))
  · have htext : plainRuntime.domainToASCII text = text.takeWhile (fun c ↦ ¬CutsHost c) :=
      if_pos hname
    rw [htext]
    exact .inr ⟨rfl, hname⟩
  · exact .inl (if_neg hname)

end CoreUtils.Clearance
