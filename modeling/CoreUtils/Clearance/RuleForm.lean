import CoreUtils.Clearance.Allowlist
import CoreUtils.Clearance.HostForm

/-!
# What host rules are normalized to

`normalizeRule_eq_some_iff` says when `normalizeRule` accepts a rule and what it returns. A wildcard
rule admits exactly the longer names with its suffix, and no IP literal
(`wildcard_admits_no_address`).
-/

namespace CoreUtils.Clearance

open Ip LowerCase

/-- The normal forms of some rules, without duplicates. -/
def normalizeRules (runtime : Runtime) (rules : List Host) : List Host :=
  OrderedMap.keys (OrderedSet.ofList (rules.filterMap (normalizeRule runtime)))

/-- What the text of a rule is normalized to. -/
inductive NormalizesRule (runtime : Runtime) : Host → Host → Prop where
  /-- The name after `*.` is normalized; it is no IP literal. -/
  | wildcard {rest suffix : Host} : Normalizes runtime (hostCore runtime rest) suffix →
      isIP suffix = none → NormalizesRule runtime ('*' :: '.' :: rest) ('*' :: '.' :: suffix)
  /-- A rule without a wildcard is normalized as a host. -/
  | host {core normal : Host} : core ≠ [] → ¬['*', '.'] <+: core →
      Normalizes runtime (hostCore runtime core) normal → NormalizesRule runtime core normal

variable {runtime : Runtime} {rule normal suffix core : Host}

/-- When a rule is accepted, and what is returned. -/
theorem normalizeRule_eq_some_iff :
    normalizeRule runtime rule = some normal ↔
      NormalizesRule runtime (hostCore runtime rule) normal := by
  unfold normalizeRule hostCore
  generalize dropTrailingDot (runtime.toLowerCase (Text.trim Text.isWhiteSpace rule)) = trimmed
  constructor
  · intro h
    simp only at h
    split at h
    · simp at h
    · rename_i hlength
      split at h
      · rename_i hwildcard
        obtain ⟨rest, rfl⟩ := List.isPrefixOf_iff_prefix.mp hwildcard
        split at h
        · simp at h
        · rename_i suffix hsuffix
          split at h
          · simp at h
          · rename_i hip
            obtain rfl := Option.some.inj h
            exact .wildcard (normalizeHost_eq_some_iff.mp hsuffix) (by simpa using hip)
      · rename_i hplain
        refine .host (fun hnil ↦ hlength (by rw [hnil]; rfl)) (fun hprefix ↦ hplain ?_)
          (normalizeHost_eq_some_iff.mp h)
        exact List.isPrefixOf_iff_prefix.mpr hprefix
  · intro h
    cases h with
    | @wildcard rest suffix hsuffix hip =>
        have hrest : normalizeHost runtime (('*' :: '.' :: rest).drop 2) = some suffix :=
          normalizeHost_eq_some_iff.mpr hsuffix
        have hwildcard : ['*', '.'].isPrefixOf ('*' :: '.' :: rest) = true :=
          List.isPrefixOf_iff_prefix.mpr ⟨rest, rfl⟩
        simp only [hwildcard, hrest, hip]
        rfl
    | host hne hplain hnormal =>
        have hlength : ¬trimmed.length = 0 := fun hzero ↦ hne (List.length_eq_zero_iff.mp hzero)
        have hwildcard : ¬['*', '.'].isPrefixOf trimmed = true := fun hprefix ↦
          hplain (List.isPrefixOf_iff_prefix.mp hprefix)
        simp only [if_neg hlength, if_neg hwildcard]
        exact normalizeHost_eq_some_iff.mpr hnormal

/-- The normal forms of one rule. -/
theorem normalizeRules_singleton (runtime : Runtime) (rule : Host) :
    normalizeRules runtime [rule] = (normalizeRule runtime rule).toList := by
  have hnodup : (normalizeRule runtime rule).toList.Nodup := by
    cases normalizeRule runtime rule <;> simp
  have hlist : [rule].filterMap (normalizeRule runtime) = (normalizeRule runtime rule).toList := by
    cases hrule : normalizeRule runtime rule <;> simp [hrule]
  rw [normalizeRules, hlist]
  exact OrderedSet.keys_ofList hnodup

/-! ## Wildcards -/

/-- A normal form has no `*`. -/
theorem Normalizes.star_not_mem (h : Normalizes runtime core normal) : '*' ∉ normal := by
  have haddress : ∀ address : Host, (isIP address).isSome = true → '%' ∉ address →
      '*' ∉ address := fun address hip hzone hmem ↦
    (not_forbidden_of_isIPv6Char (char_of_isIP hip hzone _ hmem)).2.2.2.2.2.2.1 rfl
  cases h with
  | literal hip hzone => exact haddress _ hip hzone
  | bracketed hip hzone => exact haddress _ hip hzone
  | name _ _ _ _ _ hstar => exact hstar

/-- Only a wildcard rule is normalized to one. -/
theorem NormalizesRule.name_of_suffix (h : NormalizesRule runtime core ('*' :: '.' :: suffix)) :
    isIP suffix = none ∧ suffix ≠ [] ∧ ∃ text, suffix = runtime.domainToASCII text := by
  generalize hnormal : '*' :: '.' :: suffix = normal at h
  cases h with
  | wildcard hsuffix hip =>
      obtain rfl : suffix = _ := by simpa using hnormal
      refine ⟨hip, ?_⟩
      generalize hostCore runtime _ = core at hsuffix
      cases hsuffix with
      | literal haddress _ => simp [hip] at haddress
      | bracketed haddress _ => simp [hip] at haddress
      | name _ _ _ _ hascii _ => exact ⟨hascii, _, rfl⟩
  | host _ _ hhost =>
      subst hnormal
      exact absurd List.mem_cons_self hhost.star_not_mem

/-- A wildcard rule admits the longer names with its suffix. -/
theorem hostAllowed_wildcard (hostname suffix : Host) :
    hostAllowed hostname ['*' :: '.' :: suffix] = true ↔
      ∃ front, front ≠ [] ∧ hostname = front ++ '.' :: suffix := by
  have hcheck : hostAllowed hostname ['*' :: '.' :: suffix] = true ↔
      '.' :: suffix <:+ hostname ∧ ('.' :: suffix).length < hostname.length := by
    simp [hostAllowed]
  rw [hcheck]
  constructor
  · rintro ⟨⟨front, rfl⟩, hlength⟩
    refine ⟨front, ?_, rfl⟩
    rintro rfl
    simp at hlength
  · rintro ⟨front, hne, rfl⟩
    have hpos := List.length_pos_iff.mpr hne
    refine ⟨⟨front, rfl⟩, ?_⟩
    rw [List.length_append]
    omega

/-- A rule without a wildcard admits the host it names. -/
theorem hostAllowed_host {hostname rule : Host} (hrule : ¬['*', '.'] <+: rule)
    (h : hostAllowed hostname [rule] = true) : hostname = rule := by
  simpa [hostAllowed, hrule] using h

/-- The ASCII form of a name is empty, a dotted IPv4 address, or a name that has no number after
the last dot. -/
def Runtime.ResolvesNumbers (runtime : Runtime) : Prop :=
  ∀ text, runtime.domainToASCII text = [] ∨
    (parseIPv4 (runtime.domainToASCII text)).isSome = true ∨
    isIP (runtime.domainToASCII text) = none ∧ ¬IsLabel (lastLabel (runtime.domainToASCII text))

/-- An IP literal to which a host is normalized has no zone. -/
theorem Normalizes.zone_not_mem (hnumbers : runtime.ResolvesNumbers)
    (h : Normalizes runtime core normal) (hip : (isIP normal).isSome = true) : '%' ∉ normal := by
  cases h with
  | literal _ hzone => exact hzone
  | bracketed _ hzone => exact hzone
  | @name core _ _ _ _ hascii _ =>
      rcases hnumbers core with hnil | hipv4 | ⟨hnone, -⟩
      · exact absurd hnil hascii
      · intro hmem
        rcases char_of_parseIPv4 hipv4 _ hmem with hdigit | hdot
        · exact absurd hdigit (by decide)
        · exact absurd hdot (by decide)
      · simp [hnone] at hip

/-- No wildcard rule admits an IP literal: a rule that does is the literal. A wildcard rule admits
exactly the names that are at least one character, a dot and its suffix, and not the suffix. -/
theorem wildcard_admits_no_address (runtime : Runtime) (hnumbers : runtime.ResolvesNumbers)
    (rule host : Host) :
    (∀ normal, normalizeHost runtime host = some normal →
      hostAllowed normal (normalizeRules runtime [rule]) = true → (isIP normal).isSome = true →
      normalizeRule runtime rule = some normal ∧ ¬['*', '.'] <+: normal) ∧
    ∀ suffix, normalizeRules runtime [rule] = ['*' :: '.' :: suffix] →
      (∀ normal, normalizeHost runtime host = some normal →
        (hostAllowed normal (normalizeRules runtime [rule]) = true ↔
          ∃ front, front ≠ [] ∧ normal = front ++ '.' :: suffix)) ∧
      hostAllowed suffix (normalizeRules runtime [rule]) = false := by
  constructor
  · intro normal hhost hallowed hip
    have hnormal := normalizeHost_eq_some_iff.mp hhost
    have hplain : ¬['*', '.'] <+: normal := by
      rintro ⟨rest, rfl⟩
      exact hnormal.star_not_mem (by simp)
    refine ⟨?_, hplain⟩
    rw [normalizeRules_singleton] at hallowed
    cases hrule : normalizeRule runtime rule with
    | none => simp [hrule, hostAllowed] at hallowed
    | some normalizedRule =>
        rw [hrule, Option.toList_some] at hallowed
        by_cases hwildcard : ['*', '.'] <+: normalizedRule
        · -- the suffix would end in a number, and so be an address itself
          obtain ⟨suffix, rfl⟩ := hwildcard
          replace hrule : normalizeRule runtime rule = some ('*' :: '.' :: suffix) := hrule
          obtain ⟨hnone, hne, text, hsuffix⟩ := (normalizeRule_eq_some_iff.mp hrule).name_of_suffix
          obtain ⟨front, -, rfl⟩ := (hostAllowed_wildcard _ _).mp hallowed
          have hlabel := lastLabel_of_isIP hip (hnormal.zone_not_mem hnumbers hip) (by simp)
          rw [lastLabel_append] at hlabel
          rcases hnumbers text with hnil | hipv4 | ⟨-, hname⟩
          · exact absurd (hsuffix.trans hnil) hne
          · rw [← hsuffix] at hipv4
            exact absurd (isIP_of_parseIPv4 hipv4) (by simp [hnone])
          · rw [← hsuffix] at hname
            exact absurd hlabel hname
        · rw [hostAllowed_host hwildcard hallowed]
  · intro suffix hrules
    rw [hrules]
    refine ⟨fun normal _ ↦ hostAllowed_wildcard normal suffix, ?_⟩
    rw [← Bool.not_eq_true, hostAllowed_wildcard]
    rintro ⟨front, hne, hself⟩
    have hlength := congrArg List.length hself
    rw [List.length_append, List.length_cons] at hlength
    omega

/-- The runtime has no numbers at the end of names. -/
theorem plainRuntime_resolvesNumbers : plainRuntime.ResolvesNumbers := by
  intro text
  exact (plainRuntime_domainToASCII text).imp_right fun h ↦ h.2.2

/-- A rule for an address, and a wildcard rule. -/
theorem wildcard_admits_no_address_example :
    (normalizeRule plainRuntime "[::FFFF:10.0.0.1]".toList = some "::ffff:10.0.0.1".toList ∧
      ¬['*', '.'] <+: "::ffff:10.0.0.1".toList) ∧
    hostAllowed "example.com".toList (normalizeRules plainRuntime ["*.Example.COM.".toList]) =
      false :=
  ⟨(wildcard_admits_no_address plainRuntime plainRuntime_resolvesNumbers
      "[::FFFF:10.0.0.1]".toList "::ffff:10.0.0.1".toList).1 "::ffff:10.0.0.1".toList
      (by decide +kernel) (by decide +kernel) (by decide +kernel),
    ((wildcard_admits_no_address plainRuntime plainRuntime_resolvesNumbers
      "*.Example.COM.".toList []).2 "example.com".toList (by decide +kernel)).2⟩

end CoreUtils.Clearance
