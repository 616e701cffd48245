import CoreUtils.Clearance.RuleForm

/-!
# Normalizing host rules twice

The rules of the proxy are normalized when its settings are read and once more when it is created.
Normalizing drops at most two dots at the end of a rule, before the name is translated, so that a
normal form may end in a dot, which the second pass drops. `normalizeRules_idempotent_iff` says that
this is all that can change.
-/

namespace CoreUtils.Clearance

open Ip LowerCase

/-- What the translation of names is documented to do: it changes nothing in its own results; what
it makes of a text without forbidden characters is ASCII text in lower case without such characters;
and if it changes nothing in a name, then in that name without dots at its end it finds nothing to
change, or a number at the end. -/
structure Runtime.NormalizesNames (runtime : Runtime) : Prop where
  idempotent : ∀ text, runtime.domainToASCII text ≠ [] →
    runtime.domainToASCII (runtime.domainToASCII text) = runtime.domainToASCII text
  chars : ∀ text, ¬IsBracketed text → (∀ c ∈ text, ¬IsForbidden c) →
    IsName (runtime.domainToASCII text)
  dropDots : ∀ text dots, runtime.domainToASCII (text ++ dots) = text ++ dots →
    (∀ c ∈ dots, c = '.') → runtime.domainToASCII text = [] ∨
      (parseIPv4 (runtime.domainToASCII text)).isSome = true ∨ runtime.domainToASCII text = text

/-- The name that a rule is about: what is left of the rule, without the wildcard and once more
without a dot. -/
def ruleName (runtime : Runtime) (rule : Host) : Host :=
  let trimmed := hostCore runtime rule
  hostCore runtime (if ['*', '.'].isPrefixOf trimmed then trimmed.drop 2 else trimmed)

/-- A name, no IP literal, whose ASCII form ends in a dot. -/
def DottedName (runtime : Runtime) (name : Host) : Prop :=
  name ≠ [] ∧ isIP name = none ∧ ¬IsBracketed name ∧ (∀ c ∈ name, ¬IsForbidden c) ∧
    (runtime.domainToASCII name).getLast? = some '.' ∧ '*' ∉ runtime.domainToASCII name

/-- Whether a text is bracketed can be checked. -/
instance (text : Host) : Decidable (IsBracketed text) := inferInstanceAs (Decidable (_ ∧ _))

/-- Whether a name has a dot at its end can be checked. -/
instance (runtime : Runtime) (name : Host) : Decidable (DottedName runtime name) :=
  haveI := List.decidableBAll (fun c ↦ ¬IsForbidden c) name
  inferInstanceAs (Decidable (_ ∧ _ ∧ _ ∧ _ ∧ _ ∧ _))

variable {runtime : Runtime} {host rule normal core name : Host}

/-! ## Normal forms of hosts -/

/-- A character that trimming and lower-casing leave alone. -/
def IsPlain (c : Char) : Prop :=
  c.toNat < 128 ∧ c.isUpper = false ∧ Text.isWhiteSpace c = false

/-- The normal form of a host: an IP literal, or a name that is its own ASCII form. -/
structure NormalForm (runtime : Runtime) (normal : Host) : Prop where
  ne_nil : normal ≠ []
  star : '*' ∉ normal
  plain : ∀ c ∈ normal, IsPlain c
  kept : (isIP normal).isSome = true ∧ '%' ∉ normal ∨
    IsName normal ∧ runtime.domainToASCII normal = normal

/-- The characters of a name are left alone. -/
theorem IsNameChar.isPlain {c : Char} (h : IsNameChar c) : IsPlain c :=
  ⟨h.1, h.2.1, by simpa using fun hblank ↦ h.2.2.1 (.inl hblank)⟩

/-- All that is left of plain text is the text without a dot at its end. -/
theorem hostCore_of_plain (hlower : runtime.LowersCase) {text : Host}
    (h : ∀ c ∈ text, IsPlain c) : hostCore runtime text = dropTrailingDot text := by
  have htrim : Text.trim Text.isWhiteSpace text = text :=
    Text.trim_eq_self fun c hc ↦ (h c hc).2.2
  have hlowered : runtime.toLowerCase text = text :=
    (hlower text).eq_self fun c hc ↦ ⟨(h c hc).1, (h c hc).2.1⟩
  rw [hostCore, htrim, hlowered]

/-- Text without a dot at its end is left alone. -/
theorem dropTrailingDot_of_undotted {text : Host} (h : text.getLast? ≠ some '.') :
    dropTrailingDot text = text :=
  if_neg h

/-- What a host is normalized to is a normal form. -/
theorem Normalizes.normalForm (hlower : runtime.LowersCase) (hnames : runtime.NormalizesNames)
    (h : Normalizes runtime (hostCore runtime host) normal) : NormalForm runtime normal := by
  have hstar := h.star_not_mem
  obtain ⟨front, trimmed, back, dots, -, hlowered, -⟩ := exists_lowered_hostCore hlower host
  have hupper : ∀ c ∈ hostCore runtime host, c.toNat < 128 → c.isUpper = false := fun c hc ↦
    hlowered.not_upper (List.mem_append_left _ hc)
  generalize hostCore runtime host = core at h hupper
  have haddress : ∀ address : Host, (isIP address).isSome = true → '%' ∉ address →
      (∀ c ∈ address, c ∈ core) → '*' ∉ address → NormalForm runtime address := by
    intro address hip hzone hsub hstar
    refine ⟨?_, hstar, fun c hc ↦ ?_, .inl ⟨hip, hzone⟩⟩
    · rintro rfl
      exact absurd hip (by decide)
    · have hchar := not_forbidden_of_isIPv6Char (char_of_isIP hip hzone c hc)
      exact ⟨hchar.1, hupper c (hsub c hc) hchar.1, hchar.2.2.2.2.2.2.2⟩
  cases h with
  | literal hip hzone => exact haddress _ hip hzone (fun _ hc ↦ hc) hstar
  | bracketed hip hzone => exact haddress _ hip hzone (fun c hc ↦ by simp [hc]) hstar
  | name _ _ hplain hallowed hascii _ =>
      have hchars := hnames.chars core hplain hallowed
      exact ⟨hascii, hstar, fun c hc ↦ (hchars c hc).isPlain,
        .inr ⟨hchars, hnames.idempotent core hascii⟩⟩

/-- An IP literal to which nothing is attached does not end in a dot, and neither is it a name. -/
theorem NormalForm.kept_of_dotted (h : NormalForm runtime normal)
    (hdot : normal.getLast? = some '.') :
    IsName normal ∧ runtime.domainToASCII normal = normal :=
  h.kept.resolve_left fun hip ↦ getLast_of_isIP hip.1 hip.2 hdot

/-- A normal form without a dot at its end is its own normal form. -/
theorem NormalForm.normalizes (hlower : runtime.LowersCase) (h : NormalForm runtime normal)
    (hdot : normal.getLast? ≠ some '.') :
    Normalizes runtime (hostCore runtime normal) normal := by
  rw [hostCore_of_plain hlower h.plain, dropTrailingDot_of_undotted hdot]
  rcases h.kept with ⟨hip, hzone⟩ | ⟨hchars, hsame⟩
  · exact .literal hip hzone
  · by_cases hip : (isIP normal).isSome = true
    · exact .literal hip fun hzone ↦ (hchars _ hzone).2.2.1 (.inr (.inl rfl))
    · have hname : Normalizes runtime normal (runtime.domainToASCII normal) := by
        refine .name h.ne_nil (by simpa using hip) ?_ (fun c hc ↦ (hchars c hc).2.2.1) ?_ ?_
        · rintro ⟨hhead, -⟩
          exact (hchars _ (List.mem_of_head? hhead)).2.2.2.1 rfl
        · rw [hsame]
          exact h.ne_nil
        · rw [hsame]
          exact h.star
      rwa [hsame] at hname

/-- What a normal form without some of the dots at its end is normalized to is shorter, if it still
ends in a dot. -/
theorem NormalForm.length_lt (hlower : runtime.LowersCase) (hnames : runtime.NormalizesNames)
    {shorter : Host} (h : NormalForm runtime (core ++ ['.']))
    (hnormalizes : Normalizes runtime (hostCore runtime core) shorter)
    (hdot : shorter.getLast? = some '.') : shorter.length < (core ++ ['.']).length := by
  obtain ⟨hchars, hsame⟩ := h.kept_of_dotted List.getLast?_concat
  have hcore : hostCore runtime core = dropTrailingDot core :=
    hostCore_of_plain hlower fun c hc ↦ h.plain c (List.mem_append_left _ hc)
  obtain ⟨dots, hne, hdots, hparts⟩ : ∃ dots, dots ≠ [] ∧ (∀ c ∈ dots, c = '.') ∧
      core ++ ['.'] = dropTrailingDot core ++ dots := by
    rcases dropTrailingDot_eq core with heq | heq
    · exact ⟨['.'], by simp, by simp, by rw [← heq]⟩
    · refine ⟨['.', '.'], by simp, by simp, ?_⟩
      conv_lhs => rw [heq]
      simp
  rw [hcore] at hnormalizes
  generalize dropTrailingDot core = text at hnormalizes hparts
  cases hnormalizes with
  | literal hip hzone => exact absurd hdot (getLast_of_isIP hip hzone)
  | bracketed hip hzone => exact absurd hdot (getLast_of_isIP hip hzone)
  | name _ _ _ _ hascii _ =>
      rcases hnames.dropDots text dots (by rw [← hparts, hsame]) hdots with hnil | hipv4 | hkept
      · exact absurd hnil hascii
      · have hlabel := lastLabel_of_parseIPv4 hipv4
        obtain ⟨front, hfront⟩ := List.getLast?_eq_some_iff.mp hdot
        rw [hfront, lastLabel_append] at hlabel
        exact absurd rfl hlabel.1
      · have hpos := List.length_pos_iff.mpr hne
        rw [hkept, hparts, List.length_append]
        omega

/-! ## Normal forms of rules -/

/-- The normal form of a rule: a normal form of a host, after a wildcard or not. -/
inductive RuleForm (runtime : Runtime) : Host → Prop where
  | wildcard {suffix : Host} : NormalForm runtime suffix → isIP suffix = none →
      RuleForm runtime ('*' :: '.' :: suffix)
  | host {normal : Host} : NormalForm runtime normal → RuleForm runtime normal

/-- What a rule is normalized to is a normal form. -/
theorem NormalizesRule.ruleForm (hlower : runtime.LowersCase) (hnames : runtime.NormalizesNames)
    (h : NormalizesRule runtime core normal) : RuleForm runtime normal := by
  cases h with
  | wildcard hsuffix hip => exact .wildcard (hsuffix.normalForm hlower hnames) hip
  | host _ _ hnormal => exact .host (hnormal.normalForm hlower hnames)

/-- The last character of a wildcard rule. -/
theorem getLast_wildcard {suffix : Host} (h : suffix ≠ []) :
    ('*' :: '.' :: suffix).getLast? = suffix.getLast? := by
  have hparts : '*' :: '.' :: suffix = ['*', '.'] ++ suffix := rfl
  rw [hparts, List.getLast?_append_of_ne_nil _ h]

/-- A rule in normal form is plain text. -/
theorem RuleForm.plain (h : RuleForm runtime rule) : ∀ c ∈ rule, IsPlain c := by
  cases h with
  | wildcard hsuffix _ =>
      intro c hc
      rcases List.mem_cons.mp hc with rfl | hc
      · exact by unfold IsPlain; decide
      · rcases List.mem_cons.mp hc with rfl | hc
        · exact by unfold IsPlain; decide
        · exact hsuffix.plain c hc
  | host hnormal => exact hnormal.plain

/-- A normal form has no wildcard. -/
theorem NormalForm.not_wildcard (h : NormalForm runtime normal) : ¬['*', '.'] <+: normal := by
  rintro ⟨rest, rfl⟩
  exact h.star (by simp)

/-- A rule in normal form without a dot at its end is its own normal form. -/
theorem RuleForm.normalizeRule_eq (hlower : runtime.LowersCase) (h : RuleForm runtime rule)
    (hdot : rule.getLast? ≠ some '.') : normalizeRule runtime rule = some rule := by
  rw [normalizeRule_eq_some_iff, hostCore_of_plain hlower h.plain,
    dropTrailingDot_of_undotted hdot]
  cases h with
  | wildcard hsuffix hip =>
      rw [getLast_wildcard hsuffix.ne_nil] at hdot
      exact .wildcard (hsuffix.normalizes hlower hdot) hip
  | host hnormal =>
      exact .host hnormal.ne_nil hnormal.not_wildcard (hnormal.normalizes hlower hdot)

/-- A rule in normal form that is normalized to one with a dot at its end is longer than that. -/
theorem RuleForm.length_lt (hlower : runtime.LowersCase) (hnames : runtime.NormalizesNames)
    (h : RuleForm runtime rule) (hdot : rule.getLast? = some '.')
    (hrule : normalizeRule runtime rule = some normal) (hnormal : normal.getLast? = some '.') :
    normal.length < rule.length := by
  have hnormalizes := normalizeRule_eq_some_iff.mp hrule
  obtain ⟨front, rfl⟩ := List.getLast?_eq_some_iff.mp hdot
  have hcore : hostCore runtime (front ++ ['.']) = front := by
    rw [hostCore_of_plain hlower h.plain, dropTrailingDot, if_pos hdot, List.dropLast_concat]
  rw [hcore] at hnormalizes
  generalize hform : front ++ ['.'] = form at h
  cases h with
  | @wildcard suffix hsuffix hip =>
      obtain ⟨inner, rfl⟩ : ∃ inner, suffix = inner ++ ['.'] := by
        rw [hform, getLast_wildcard hsuffix.ne_nil] at hdot
        exact List.getLast?_eq_some_iff.mp hdot
      obtain rfl : front = '*' :: '.' :: inner :=
        List.append_cancel_right (hform.trans (by simp))
      cases hnormalizes with
      | wildcard hshorter _ =>
          have hne := (hshorter.normalForm hlower hnames).ne_nil
          rw [getLast_wildcard hne] at hnormal
          have hlength := hsuffix.length_lt hlower hnames hshorter hnormal
          simpa using hlength
      | host _ hplain _ => exact absurd ⟨inner, rfl⟩ hplain
  | host hhost =>
      subst hform
      cases hnormalizes with
      | wildcard => exact absurd ⟨_, rfl⟩ hhost.not_wildcard
      | host _ _ hshorter => exact hhost.length_lt hlower hnames hshorter hnormal

/-! ## The names of rules -/

/-- A host is normalized to a name with a dot at its end if it is a dotted name. -/
theorem exists_dotted_normalizes_iff :
    (∃ normal, Normalizes runtime name normal ∧ normal.getLast? = some '.') ↔
      DottedName runtime name := by
  constructor
  · rintro ⟨normal, hnormal, hdot⟩
    cases hnormal with
    | literal hip hzone => exact absurd hdot (getLast_of_isIP hip hzone)
    | bracketed hip hzone => exact absurd hdot (getLast_of_isIP hip hzone)
    | name hne hip hplain hchars _ hstar => exact ⟨hne, hip, hplain, hchars, hdot, hstar⟩
  · rintro ⟨hne, hip, hplain, hchars, hdot, hstar⟩
    have hascii : runtime.domainToASCII name ≠ [] := by
      intro hnil
      rw [hnil] at hdot
      simp at hdot
    exact ⟨_, .name hne hip hplain hchars hascii hstar, hdot⟩

/-- A rule is normalized to one with a dot at its end if its name is a dotted name. -/
theorem exists_dotted_normalizeRule_iff (hlower : runtime.LowersCase)
    (hnames : runtime.NormalizesNames) (rule : Host) :
    (∃ normal, normalizeRule runtime rule = some normal ∧ normal.getLast? = some '.') ↔
      DottedName runtime (ruleName runtime rule) := by
  rw [← exists_dotted_normalizes_iff]
  simp only [normalizeRule_eq_some_iff, ruleName]
  generalize hostCore runtime rule = trimmed
  constructor
  · rintro ⟨normal, hnormal, hdot⟩
    cases hnormal with
    | wildcard hsuffix _ =>
        rw [getLast_wildcard (hsuffix.normalForm hlower hnames).ne_nil] at hdot
        exact ⟨_, by simpa using hsuffix, hdot⟩
    | host _ hplain hhost =>
        rw [if_neg fun hprefix ↦ hplain (List.isPrefixOf_iff_prefix.mp hprefix)]
        exact ⟨normal, hhost, hdot⟩
  · rintro ⟨normal, hnormal, hdot⟩
    have hform := hnormal.normalForm hlower hnames
    split at hnormal
    · rename_i hprefix
      obtain ⟨rest, rfl⟩ := List.isPrefixOf_iff_prefix.mp hprefix
      have hip : isIP normal = none := by
        by_contra hsome
        have hchars := (hform.kept_of_dotted hdot).1
        exact getLast_of_isIP (Option.isSome_iff_ne_none.mpr hsome)
          (fun hzone ↦ (hchars _ hzone).2.2.1 (.inr (.inl rfl))) hdot
      exact ⟨_, .wildcard hnormal hip, by rw [getLast_wildcard hform.ne_nil, hdot]⟩
    · rename_i hprefix
      refine ⟨normal, .host ?_ (fun hwild ↦ hprefix (List.isPrefixOf_iff_prefix.mpr hwild)) hnormal,
        hdot⟩
      rintro rfl
      rw [hostCore_nil hlower] at hnormal
      obtain ⟨hne, -⟩ := exists_dotted_normalizes_iff.mp ⟨normal, hnormal, hdot⟩
      exact hne rfl

/-! ## Normalizing twice -/

/-- The normal forms of a list of rules. -/
theorem mem_normalizeRules {rules : List Host} :
    normal ∈ normalizeRules runtime rules ↔
      ∃ rule ∈ rules, normalizeRule runtime rule = some normal := by
  rw [normalizeRules, OrderedSet.mem_keys_ofList, List.mem_filterMap]

/-- The rules that are normalized are in normal form. -/
theorem ruleForm_of_mem (hlower : runtime.LowersCase) (hnames : runtime.NormalizesNames)
    {rules : List Host} (h : normal ∈ normalizeRules runtime rules) : RuleForm runtime normal := by
  obtain ⟨rule, -, hrule⟩ := mem_normalizeRules.mp h
  exact (normalizeRule_eq_some_iff.mp hrule).ruleForm hlower hnames

/-- Rules in normal form without dots at their ends are left alone. -/
theorem normalizeRules_of_undotted (hlower : runtime.LowersCase)
    (hnames : runtime.NormalizesNames) {rules : List Host}
    (h : ∀ normal ∈ normalizeRules runtime rules, normal.getLast? ≠ some '.') :
    normalizeRules runtime (normalizeRules runtime rules) = normalizeRules runtime rules := by
  have hkept : (normalizeRules runtime rules).filterMap (normalizeRule runtime) =
      normalizeRules runtime rules := by
    have hall : ∀ normal ∈ normalizeRules runtime rules,
        normalizeRule runtime normal = some normal := fun normal hmem ↦
      (ruleForm_of_mem hlower hnames hmem).normalizeRule_eq hlower (h normal hmem)
    exact (List.filterMap_congr hall).trans List.filterMap_some
  conv_lhs => rw [normalizeRules, hkept]
  exact OrderedSet.keys_ofList (OrderedSet.ofList _).nodup

/-- Normalizing rules twice changes nothing if and only if no rule is about a name whose ASCII form
ends in a dot. -/
theorem normalizeRules_idempotent_iff (runtime : Runtime) (hlower : runtime.LowersCase)
    (hnames : runtime.NormalizesNames) (rules : List Host) :
    normalizeRules runtime (normalizeRules runtime rules) = normalizeRules runtime rules ↔
      ∀ rule ∈ rules, ¬DottedName runtime (ruleName runtime rule) := by
  constructor
  · intro hsame rule hrule hdotted
    obtain ⟨normal, hnormal, hdot⟩ :=
      (exists_dotted_normalizeRule_iff hlower hnames rule).mpr hdotted
    -- every rule with a dot at its end comes from a longer one, and there are finitely many
    have hlonger : ∀ length, ∃ normal ∈ normalizeRules runtime rules,
        normal.getLast? = some '.' ∧ length ≤ normal.length := by
      intro length
      induction length with
      | zero => exact ⟨normal, mem_normalizeRules.mpr ⟨rule, hrule, hnormal⟩, hdot, Nat.zero_le _⟩
      | succ length ih =>
          obtain ⟨shorter, hmem, hshorter, hlength⟩ := ih
          rw [← hsame] at hmem
          obtain ⟨longer, hlongerMem, hlonger⟩ := mem_normalizeRules.mp hmem
          have hform := ruleForm_of_mem hlower hnames hlongerMem
          by_cases hlongerDot : longer.getLast? = some '.'
          · have hlt := hform.length_lt hlower hnames hlongerDot hlonger hshorter
            exact ⟨longer, hlongerMem, hlongerDot, by omega⟩
          · have heq := Option.some.inj
              ((hform.normalizeRule_eq hlower hlongerDot).symm.trans hlonger)
            rw [heq] at hlongerDot
            exact absurd hshorter hlongerDot
    obtain ⟨longest, hmem, -, hlength⟩ :=
      hlonger ((normalizeRules runtime rules).flatten.length + 1)
    have hle := (List.sublist_flatten_of_mem hmem).length_le
    omega
  · intro hundotted
    refine normalizeRules_of_undotted hlower hnames fun normal hmem hdot ↦ ?_
    obtain ⟨rule, hrule, hnormal⟩ := mem_normalizeRules.mp hmem
    exact hundotted rule hrule
      ((exists_dotted_normalizeRule_iff hlower hnames rule).mp ⟨normal, hnormal, hdot⟩)

/-- The translation of names of the runtime is one. -/
theorem plainRuntime_normalizesNames : plainRuntime.NormalizesNames := by
  constructor
  · intro text hne
    obtain ⟨hsame, hname, hkind⟩ := (plainRuntime_domainToASCII text).resolve_left hne
    -- what is left of a cut text is not cut again
    have hkept : (plainRuntime.domainToASCII text).takeWhile (fun c ↦ ¬CutsHost c) =
        plainRuntime.domainToASCII text := by
      rw [hsame, List.takeWhile_idem]
    generalize plainRuntime.domainToASCII text = name at hname hkind hkept
    show (if _ then _ else _) = name
    rw [hkept, if_pos ⟨hname, hkind⟩]
  · intro text _ _ c hc
    rcases plainRuntime_domainToASCII text with hnil | ⟨-, hname, -⟩
    · simp [hnil] at hc
    · exact hname c hc
  · intro text dots hwhole _
    refine (plainRuntime_domainToASCII text).imp_right fun ⟨hsame, _⟩ ↦ .inr ?_
    rcases plainRuntime_domainToASCII (text ++ dots) with hnil | ⟨hcut, -⟩
    · obtain ⟨rfl, -⟩ := List.append_eq_nil_iff.mp (hwhole.symm.trans hnil)
      exact hsame
    · have hkept := List.takeWhile_eq_self_iff.mp (hcut.symm.trans hwhole)
      rw [hsame, List.takeWhile_eq_self_iff]
      exact fun c hc ↦ hkept c (List.mem_append_left _ hc)

/-- Two dots at the end of a rule are dropped at once. -/
theorem normalizeRules_idempotent_example :
    normalizeRules plainRuntime (normalizeRules plainRuntime
        ["Example.COM..".toList, "*.example.com".toList, "10.0.0.1".toList]) =
      normalizeRules plainRuntime
        ["Example.COM..".toList, "*.example.com".toList, "10.0.0.1".toList] :=
  (normalizeRules_idempotent_iff plainRuntime plainRuntime_lowersCase plainRuntime_normalizesNames
    _).mpr (by decide +kernel)

/-- Of three dots one is left, and dropped the second time. -/
theorem normalizeRules_not_idempotent :
    plainRuntime.NormalizesNames ∧
      normalizeRules plainRuntime ["example.com...".toList] = ["example.com.".toList] ∧
      normalizeRules plainRuntime (normalizeRules plainRuntime ["example.com...".toList]) =
        ["example.com".toList] :=
  ⟨plainRuntime_normalizesNames, by decide +kernel, by decide +kernel⟩

end CoreUtils.Clearance
