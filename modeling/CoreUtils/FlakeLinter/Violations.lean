import CoreUtils.FlakeLinter.Findings
import Mathlib.Data.Prod.Lex

/-!
# Which findings become violations

What allows a finding, the order of the violations, and the linter as a whole: `violations_iff`
says what it reports about a file.
-/

namespace CoreUtils.FlakeLinter

open Fuel (EndsWith)
open RoseTree (Position Visited preorder)

/-! ## Comments that allow -/

/-- A text of one or more blanks. -/
def Blanks (text : List Char) : Prop := text ≠ [] ∧ ∀ c ∈ text, Text.isWhiteSpace c = true

/-- A comment that allows a rule: the marker, the rule and a reason that is not empty. -/
def AllowsRule (ruleId : PlaywrightFlakeRuleId) (comment : String) : Prop :=
  ∃ before first second third after : List Char, ∃ c, comment.toList =
      before ++ ("flake-lint-allow".toList ++ (first ++ (ruleId.text.toList ++
        (second ++ ("--".toList ++ (third ++ c :: after)))))) ∧
    Blanks first ∧ Blanks second ∧ Blanks third ∧ Text.isWhiteSpace c = false

/-- All blanks at the beginning are dropped. -/
theorem dropSpaces_eq_some_iff {text rest : List Char} :
    dropSpaces text = some rest ↔ ∃ blanks, Blanks blanks ∧ text = blanks ++ rest ∧
      ∀ c ∈ rest.head?, Text.isWhiteSpace c = false := by
  constructor
  · intro h
    rw [dropSpaces] at h
    split at h
    next hhead =>
      obtain rfl := Option.some.inj h
      refine ⟨text.takeWhile Text.isWhiteSpace, ⟨?_, fun c hc ↦ List.mem_takeWhile_imp hc⟩,
        List.takeWhile_append_dropWhile.symm, fun c hc ↦ ?_⟩
      · cases text with
        | nil => simp at hhead
        | cons c text =>
            have hc : Text.isWhiteSpace c = true := by simpa using hhead
            simp [hc]
      · have hne : text.dropWhile Text.isWhiteSpace ≠ [] := by
          intro hnil
          simp [hnil] at hc
        have hfirst := List.head_dropWhile_not Text.isWhiteSpace hne
        rw [List.head?_eq_some_head hne, Option.mem_some_iff] at hc
        rw [← hc]
        exact hfirst
    next => contradiction
  · rintro ⟨blanks, ⟨hne, hblanks⟩, rfl, hrest⟩
    obtain ⟨c, blanks, rfl⟩ := List.exists_cons_of_ne_nil hne
    have hc := hblanks c List.mem_cons_self
    rw [dropSpaces, if_pos (by simpa using hc), List.dropWhile_append_of_pos hblanks]
    cases rest with
    | nil => rfl
    | cons d rest =>
        rw [List.dropWhile_cons_of_neg]
        simpa using hrest d rfl

/-- A prefix is dropped. -/
theorem dropPrefix?_eq_some_iff' {text word rest : List Char} :
    text.dropPrefix? word = some rest ↔ text = word ++ rest := by
  rw [List.dropPrefix?_eq_some_iff]
  simp

/-- A rule id does not begin with a blank. -/
theorem head_text (ruleId : PlaywrightFlakeRuleId) (rest : List Char) :
    ∀ c ∈ (ruleId.text.toList ++ rest).head?, Text.isWhiteSpace c = false := by
  cases ruleId with
  | _ =>
      intro c hc
      obtain rfl := Option.some.inj hc
      decide

/-- What the pattern leaves of a text as the reason. -/
theorem allowlistReason_eq_some_iff {ruleId : PlaywrightFlakeRuleId} {text reason : List Char} :
    allowlistReason ruleId text = some reason ↔ ∃ first second third : List Char,
      text = "flake-lint-allow".toList ++ (first ++ (ruleId.text.toList ++
        (second ++ ("--".toList ++ (third ++ reason))))) ∧
      Blanks first ∧ Blanks second ∧ Blanks third ∧
      ∀ c ∈ reason.head?, Text.isWhiteSpace c = false := by
  simp only [allowlistReason, Option.bind_eq_bind, Option.bind_eq_some_iff,
    dropPrefix?_eq_some_iff', dropSpaces_eq_some_iff]
  constructor
  · rintro ⟨_, rfl, _, ⟨first, hfirst, rfl, -⟩, _, rfl, _, ⟨second, hsecond, rfl, -⟩, _, rfl,
      third, hthird, rfl, hreason⟩
    exact ⟨first, second, third, rfl, hfirst, hsecond, hthird, hreason⟩
  · rintro ⟨first, second, third, rfl, hfirst, hsecond, hthird, hreason⟩
    exact ⟨_, rfl, _, ⟨first, hfirst, rfl, head_text ruleId _⟩, _, rfl, _,
      ⟨second, hsecond, rfl, by simp; decide⟩, _, rfl, third, hthird, rfl, hreason⟩

/-- The pattern finds the comments that allow a rule. -/
theorem isAllowlistComment_iff {ruleId : PlaywrightFlakeRuleId} {comment : String} :
    isAllowlistComment ruleId comment = true ↔ AllowsRule ruleId comment := by
  rw [isAllowlistComment, List.any_eq_true]
  constructor
  · rintro ⟨text, htext, hstarts⟩
    obtain ⟨before, hcomment⟩ := (List.mem_tails _ _).mp htext
    rw [startsAllowlistComment, Option.any_eq_true] at hstarts
    obtain ⟨reason, hreason, hne⟩ := hstarts
    obtain ⟨first, second, third, rfl, hfirst, hsecond, hthird, hhead⟩ :=
      allowlistReason_eq_some_iff.mp hreason
    cases reason with
    | nil => simp at hne
    | cons c after =>
        exact ⟨before, first, second, third, after, c, hcomment.symm, hfirst, hsecond, hthird,
          hhead c rfl⟩
  · rintro ⟨before, first, second, third, after, c, hcomment, hfirst, hsecond, hthird, hc⟩
    refine ⟨_, (List.mem_tails _ _).mpr ⟨before, hcomment.symm⟩, ?_⟩
    have hhead : ∀ d ∈ (c :: after).head?, Text.isWhiteSpace d = false := by
      intro d hd
      obtain rfl := Option.some.inj hd
      exact hc
    have hreason : allowlistReason ruleId _ = some (c :: after) := allowlistReason_eq_some_iff.mpr
      ⟨first, second, third, rfl, hfirst, hsecond, hthird, hhead⟩
    rw [startsAllowlistComment, hreason]
    rfl

/-- A comment before a node at or above a position allows a rule, and the node is in the same
statement. -/
def AllowedInline (root : Source) (ruleId : PlaywrightFlakeRuleId) (p : Position) : Prop :=
  ∃ q node comment, q ≠ [] ∧ q <:+ p ∧ root.subtree q = some node ∧
    comment ∈ node.label.leadingComments ∧ AllowsRule ruleId comment ∧
    ∀ r below, q <:+ r → r ≠ q → r <:+ p → root.subtree r = some below →
      below.label.isStatement = false

/-- What allows a finding is before the node itself, or before a node above it if the node is no
statement. -/
theorem allowedInline_cons {root : Source} {ruleId : PlaywrightFlakeRuleId} {i : ℕ}
    {parent : Position} : AllowedInline root ruleId (i :: parent) ↔
      (∃ node comment, root.subtree (i :: parent) = some node ∧
        comment ∈ node.label.leadingComments ∧ AllowsRule ruleId comment) ∨
      (∀ node, root.subtree (i :: parent) = some node → node.label.isStatement = false) ∧
        AllowedInline root ruleId parent := by
  have hne : ∀ q, q <:+ parent → i :: parent ≠ q := by
    rintro q hq rfl
    exact absurd hq.length_le (by simp)
  constructor
  · rintro ⟨q, node, comment, hq, hsuffix, hnode, hcomment, hallows, hbelow⟩
    rcases List.suffix_cons_iff.mp hsuffix with rfl | hparent
    · exact .inl ⟨node, comment, hnode, hcomment, hallows⟩
    · refine .inr ⟨fun below hsub ↦ hbelow _ below hsuffix (hne q hparent) List.suffix_rfl hsub,
        q, node, comment, hq, hparent, hnode, hcomment, hallows, fun r below hqr hrq hr hsub ↦ ?_⟩
      exact hbelow r below hqr hrq (hr.trans (List.suffix_cons i parent)) hsub
  · rintro (⟨node, comment, hnode, hcomment, hallows⟩ | ⟨hstatement, hparent⟩)
    · refine ⟨i :: parent, node, comment, List.cons_ne_nil i parent, List.suffix_rfl, hnode,
        hcomment, hallows, fun r below hqr hrq hr _ ↦ ?_⟩
      exact absurd (hr.eq_of_length_le hqr.length_le) hrq
    · obtain ⟨q, node, comment, hq, hsuffix, hnode, hcomment, hallows, hbelow⟩ := hparent
      refine ⟨q, node, comment, hq, hsuffix.trans (List.suffix_cons i parent), hnode, hcomment,
        hallows, fun r below hqr hrq hr hsub ↦ ?_⟩
      rcases List.suffix_cons_iff.mp hr with rfl | hr
      · exact hstatement below hsub
      · exact hbelow r below hqr hrq hr hsub

/-- The climb finds the comments that allow a finding. -/
theorem hasInlineAllowlistComment_iff {root : Source} {ruleId : PlaywrightFlakeRuleId}
    {p : Position} :
    hasInlineAllowlistComment root ruleId p = true ↔ AllowedInline root ruleId p := by
  induction p with
  | nil =>
      refine iff_of_false (by simp [hasInlineAllowlistComment, RoseTree.climb]) ?_
      rintro ⟨q, -, -, hq, hsuffix, -⟩
      exact hq (List.suffix_nil.mp hsuffix)
  | cons i parent ih =>
      rw [allowedInline_cons, ← ih, hasInlineAllowlistComment, hasInlineAllowlistComment,
        RoseTree.climb]
      cases root.subtree (i :: parent) with
      | none => simp
      | some node =>
          have hcomments : node.label.leadingComments.any (isAllowlistComment ruleId) = true ↔
              ∃ comment ∈ node.label.leadingComments, AllowsRule ruleId comment := by
            simp only [List.any_eq_true, isAllowlistComment_iff]
          cases hany : node.label.leadingComments.any (isAllowlistComment ruleId) with
          | true =>
              obtain ⟨comment, hcomment, hallows⟩ := hcomments.mp hany
              rw [Option.bind_some, if_neg (List.cons_ne_nil i parent), hany]
              exact iff_of_true (by simp) (.inl ⟨node, comment, rfl, hcomment, hallows⟩)
          | false =>
              have hnone : ¬∃ other comment, some node = some other ∧
                  comment ∈ other.label.leadingComments ∧ AllowsRule ruleId comment := by
                rintro ⟨other, comment, hother, hcomment, hallows⟩
                obtain rfl := Option.some.inj hother
                exact absurd (hcomments.mpr ⟨comment, hcomment, hallows⟩) (by simp [hany])
              rw [or_iff_right hnone, Option.bind_some, if_neg (List.cons_ne_nil i parent), hany]
              cases hstatement : node.label.isStatement with
              | true => simp [hstatement]
              | false => simp [hstatement]

/-! ## The order of violations -/

/-- What violations are compared by. -/
def sortKey (violation : PlaywrightFlakePatternViolation) : List ℕ ×ₗ ℕ ×ₗ ℕ ×ₗ List ℕ :=
  toLex (Utf16.units violation.filePath.toList,
    toLex (violation.line, toLex (violation.column, Utf16.units violation.ruleId.text.toList)))

/-- Texts are compared by their units. -/
theorem compareStrings_lt_iff {first second : String} : compareStrings first second < 0 ↔
    Utf16.units first.toList < Utf16.units second.toList := by
  rw [compareStrings]
  split
  next h => simp [h]
  next h => split <;> simp [*]

/-- Texts that compare as equal are equal. -/
theorem compareStrings_eq_zero_iff {first second : String} : compareStrings first second = 0 ↔
    Utf16.units first.toList = Utf16.units second.toList := by
  rw [Utf16.units_injective.eq_iff, String.toList_inj, compareStrings]
  split
  next h => simp [h]
  next h => split <;> simp [h]

/-- A comparison that goes on with another one. -/
theorem thenCompare_le_iff {first second : ℤ} :
    thenCompare first second ≤ 0 ↔ first < 0 ∨ first = 0 ∧ second ≤ 0 := by
  rw [thenCompare]
  split
  next h => simp [h, le_iff_lt_or_eq]
  next h => simp [not_not.mp h]

/-- Violations are compared by their keys. -/
theorem compareViolations_le_iff {first second : PlaywrightFlakePatternViolation} :
    compareViolations first second ≤ 0 ↔ sortKey first ≤ sortKey second := by
  have hstrings : ∀ s t : String, compareStrings s t ≤ 0 ↔
      Utf16.units s.toList ≤ Utf16.units t.toList := by
    intro s t
    rw [le_iff_lt_or_eq, le_iff_lt_or_eq, compareStrings_lt_iff, compareStrings_eq_zero_iff]
  have hnumbers : ∀ m n : ℕ, ((m : ℤ) - n < 0 ↔ m < n) ∧ ((m : ℤ) - n = 0 ↔ m = n) := by
    intro m n
    omega
  simp only [compareViolations, sortKey, thenCompare_le_iff, Prod.Lex.toLex_le_toLex, hstrings,
    hnumbers, compareStrings_lt_iff, compareStrings_eq_zero_iff]

instance : Std.Total fun first second : PlaywrightFlakePatternViolation ↦
    compareViolations first second ≤ 0 where
  total first second := by
    simp only [compareViolations_le_iff]
    exact le_total _ _

instance : IsTrans PlaywrightFlakePatternViolation fun first second ↦
    compareViolations first second ≤ 0 where
  trans first second third := by
    simp only [compareViolations_le_iff]
    exact le_trans

/-! ## What a rule finds -/

/-- The readiness mechanisms of a configuration. -/
def mechanismsOf (config : PlaywrightFlakeLinterConfig) : List SharedReadinessMechanism :=
  config.sharedReadinessMechanisms.getD []

/-- A rule finds something at a call. The rule about readiness finds a mechanism, which is given by
its index in the configuration. -/
inductive Finds (platform : Platform) (config : PlaywrightFlakeLinterConfig) (filePath : String)
    (root : Source) (p : Position) (node : Source) : PlaywrightFlakeRuleId → Option ℕ → Prop
  | fixedSleep
      (hfile : platform.test (config.specFilePattern.getD defaultSpecFilePattern) false filePath =
        true)
      (hcall : isFixedSleepCall node = true) :
      Finds platform config filePath root p node .fixedSleep none
  | responseWait {argument predicate : Source} {callName responseName : String}
      (hname : getCallName node = some callName)
      (hwaits : callName ∈ config.responseWaitCallNames.getD defaultResponseWaitCallNames)
      (hargument : childOf node .arguments = some argument)
      (hstands : StandsFor root p argument predicate)
      (hresponse : firstParameterName predicate = some responseName)
      (hpredicate : Undiscriminating predicate responseName
        (config.specificRequestMatcherNames.getD defaultSpecificRequestMatcherNames)) :
      Finds platform config filePath root p node .responseWait none
  | sharedReadiness {mechanism : SharedReadinessMechanism} {index : ℕ}
      (hmechanism : (mechanismsOf config)[index]? = some mechanism)
      (hfile : platform.test mechanism.filePathPattern false filePath = true)
      (hcall : (getCallName node).getD "" ∈ mechanism.directCallNames) :
      Finds platform config filePath root p node .sharedReadiness (some index)
  | retryClassification (hretry : UndiscriminatingRetry platform config root p node) :
      Finds platform config filePath root p node .retryClassification none
  | testDataIdentity (hidentity : LowEntropyIdentity platform config root p node) :
      Finds platform config filePath root p node .testDataIdentity none

/-- The wait of a call for a response. -/
theorem isUndiscriminatingResponseWait_ends (config : PlaywrightFlakeLinterConfig) (root : Source)
    (p : Position) (node : Source) :
    ∃ result, EndsWith (isUndiscriminatingResponseWait · root p node config) result ∧
      ∀ platform filePath,
        (result = true ↔ Finds platform config filePath root p node .responseWait none) := by
  obtain ⟨result, ⟨bound, hrun⟩, hresult⟩ := hasUndiscriminatingResponsePredicate_ends root p node
    (config.specificRequestMatcherNames.getD defaultSpecificRequestMatcherNames)
  cases hcall : isConfiguredCall node
      (config.responseWaitCallNames.getD defaultResponseWaitCallNames) with
  | false =>
      refine ⟨false, ⟨0, fun fuel _ ↦ by simp [isUndiscriminatingResponseWait, hcall]⟩,
        fun platform filePath ↦ iff_of_false (by simp) fun h ↦ ?_⟩
      cases h with
      | responseWait hname hwaits =>
          rw [isConfiguredCall, hname] at hcall
          simp [hwaits] at hcall
  | true =>
      refine ⟨result, ⟨bound, fun fuel hfuel ↦ ?_⟩, fun platform filePath ↦ hresult.trans ?_⟩
      · show isUndiscriminatingResponseWait fuel root p node config = some result
        rw [isUndiscriminatingResponseWait, if_pos hcall]
        exact hrun fuel hfuel
      · constructor
        · rintro ⟨argument, predicate, responseName, hargument, hstands, hresponse, hpredicate⟩
          rw [isConfiguredCall, Option.any_eq_true] at hcall
          obtain ⟨callName, hname, hwaits⟩ := hcall
          exact .responseWait hname (by simpa using hwaits) hargument hstands hresponse hpredicate
        · intro h
          cases h with
          | responseWait _ _ hargument hstands hresponse hpredicate =>
              exact ⟨_, _, _, hargument, hstands, hresponse, hpredicate⟩

/-- The message of a finding. -/
def findingMessage (config : PlaywrightFlakeLinterConfig) (ruleId : PlaywrightFlakeRuleId) :
    Option ℕ → String
  | none => ruleMessage ruleId
  | some index => (mechanismsOf config)[index]?.elim "" getSharedReadinessMessage

/-- A finding as the code passes it on. -/
def withMessage (config : PlaywrightFlakeLinterConfig)
    (found : PlaywrightFlakeRuleId × Option ℕ) : PlaywrightFlakeRuleId × String :=
  (found.1, findingMessage config found.1 found.2)

/-- What a rule with a fixed message finds. -/
def foundBy (found : Bool) (ruleId : PlaywrightFlakeRuleId) :
    List (PlaywrightFlakeRuleId × Option ℕ) :=
  if found then [(ruleId, none)] else []

/-- A rule reports what it finds. -/
theorem map_foundBy (config : PlaywrightFlakeLinterConfig) (found : Bool)
    (ruleId : PlaywrightFlakeRuleId) :
    (foundBy found ruleId).map (withMessage config) = report found ruleId := by
  cases found <;> rfl

/-- A rule finds at most one thing. -/
theorem mem_foundBy {found : Bool} {ruleId other : PlaywrightFlakeRuleId} {index : Option ℕ} :
    (other, index) ∈ foundBy found ruleId ↔ other = ruleId ∧ index = none ∧ found = true := by
  cases found <;> simp [foundBy]

/-- The mechanisms that are found at a call, by their indices. -/
def foundMechanisms (platform : Platform) (config : PlaywrightFlakeLinterConfig)
    (filePath : String) (node : Source) : List (PlaywrightFlakeRuleId × Option ℕ) :=
  ((mechanismsOf config).zipIdx.filter fun entry ↦
    entry.1.directCallNames.contains ((getCallName node).getD "") &&
      platform.test entry.1.filePathPattern false filePath).map fun entry ↦
    (.sharedReadiness, some entry.2)

/-- The mechanisms at a call are reported one by one. -/
theorem map_foundMechanisms (platform : Platform) (config : PlaywrightFlakeLinterConfig)
    (filePath : String) (node : Source) :
    (foundMechanisms platform config filePath node).map (withMessage config) =
      (mechanismsAt platform config filePath node).map fun mechanism ↦
        (.sharedReadiness, getSharedReadinessMessage mechanism) := by
  have hlisted : mechanismsAt platform config filePath node =
      ((mechanismsOf config).zipIdx.filter fun entry ↦
        entry.1.directCallNames.contains ((getCallName node).getD "") &&
          platform.test entry.1.filePathPattern false filePath).map Prod.fst := by
    rw [mechanismsAt, List.filter_filter, ← mechanismsOf]
    conv_lhs => rw [← List.zipIdx_map_fst 0 (mechanismsOf config), List.filter_map]
    rfl
  rw [hlisted, foundMechanisms, List.map_map, List.map_map]
  refine List.map_congr_left fun entry hentry ↦ ?_
  have hindex := List.mem_zipIdx_iff_getElem?.mp (List.mem_filter.mp hentry).1
  simp [withMessage, findingMessage, hindex]

/-- The mechanisms that are found. -/
theorem mem_foundMechanisms {platform : Platform} {config : PlaywrightFlakeLinterConfig}
    {filePath : String} {node : Source} {ruleId : PlaywrightFlakeRuleId} {index : Option ℕ} :
    (ruleId, index) ∈ foundMechanisms platform config filePath node ↔
      ruleId = .sharedReadiness ∧ ∃ i mechanism, index = some i ∧
        (mechanismsOf config)[i]? = some mechanism ∧
        platform.test mechanism.filePathPattern false filePath = true ∧
        (getCallName node).getD "" ∈ mechanism.directCallNames := by
  simp only [foundMechanisms, List.mem_map, List.mem_filter, Prod.exists,
    List.mem_zipIdx_iff_getElem?, Bool.and_eq_true, List.contains_iff_mem, Prod.mk.injEq]
  constructor
  · rintro ⟨mechanism, i, ⟨hmechanism, hcall, hfile⟩, rfl, rfl⟩
    exact ⟨rfl, i, mechanism, rfl, hmechanism, hfile, hcall⟩
  · rintro ⟨rfl, i, mechanism, rfl, hmechanism, hfile, hcall⟩
    exact ⟨mechanism, i, ⟨hmechanism, hcall, hfile⟩, rfl, rfl⟩

/-- No mechanism is found twice. -/
theorem nodup_foundMechanisms (platform : Platform) (config : PlaywrightFlakeLinterConfig)
    (filePath : String) (node : Source) :
    (foundMechanisms platform config filePath node).Nodup := by
  have hindices : ((mechanismsOf config).zipIdx.map Prod.snd).Nodup := by
    rw [List.zipIdx_map_snd]
    exact List.nodup_range'
  refine List.Nodup.map_on ?_ ((List.Nodup.of_map _ hindices).filter _)
  intro entry hentry other hother hsame
  refine List.inj_on_of_nodup_map hindices (List.mem_of_mem_filter hentry)
    (List.mem_of_mem_filter hother) ?_
  exact Option.some.inj (Prod.mk.inj hsame).2

/-- The rules end at every call, with what they find, each once. -/
theorem findingsAt_ends (platform : Platform) (config : PlaywrightFlakeLinterConfig)
    (filePath : String) (root : Source) (p : Position) (node : Source) :
    ∃ found : List (PlaywrightFlakeRuleId × Option ℕ),
      EndsWith (findingsAt platform · config filePath root p node)
        (found.map (withMessage config)) ∧
      found.Nodup ∧
      ∀ ruleId index, (ruleId, index) ∈ found ↔
        Finds platform config filePath root p node ruleId index := by
  obtain ⟨isWait, hwaitRun, hwait⟩ := isUndiscriminatingResponseWait_ends config root p node
  obtain ⟨isRetry, hretryRun, hretry⟩ :=
    isUndiscriminatingRetryCall_ends platform config root p node
  let isSpecFile :=
    platform.test (config.specFilePattern.getD defaultSpecFilePattern) false filePath
  refine ⟨foundBy (isSpecFile && isFixedSleepCall node) .fixedSleep ++
    (foundBy isWait .responseWait ++ (foundMechanisms platform config filePath node ++
      (foundBy isRetry .retryClassification ++ foundBy
        (isLowEntropyTestDataIdentityCall platform root p node config) .testDataIdentity))),
    ?_, ?_, fun ruleId index ↦ ?_⟩
  · simp only [List.map_append, map_foundBy, map_foundMechanisms]
    exact hwaitRun.bind (hretryRun.bind (EndsWith.const _))
  · have hrules : ∀ found ruleId, (foundBy found ruleId).Nodup := by
      intro found ruleId
      cases found <;> simp [foundBy]
    -- different parts of the list are about different rules
    simp only [List.nodup_append', List.Disjoint, List.mem_append, Prod.forall, mem_foundBy,
      mem_foundMechanisms, hrules, nodup_foundMechanisms, true_and]
    grind
  simp only [List.mem_append, mem_foundBy, mem_foundMechanisms, Bool.and_eq_true,
    hwait platform filePath, hretry, isLowEntropyTestDataIdentityCall_iff]
  constructor
  · rintro (⟨rfl, rfl, hfile, hcall⟩ | ⟨rfl, rfl, h⟩ |
      ⟨rfl, i, mechanism, rfl, hmechanism, hfile, hcall⟩ | ⟨rfl, rfl, h⟩ | ⟨rfl, rfl, h⟩)
    · exact .fixedSleep hfile hcall
    · exact h
    · exact .sharedReadiness hmechanism hfile hcall
    · exact .retryClassification h
    · exact .testDataIdentity h
  · intro h
    cases h with
    | fixedSleep hfile hcall => exact .inl ⟨rfl, rfl, hfile, hcall⟩
    | responseWait hname hwaits hargument hstands hresponse hpredicate =>
        exact .inr (.inl ⟨rfl, rfl,
          .responseWait hname hwaits hargument hstands hresponse hpredicate⟩)
    | sharedReadiness hmechanism hfile hcall =>
        exact .inr (.inr (.inl ⟨rfl, _, _, rfl, hmechanism, hfile, hcall⟩))
    | retryClassification h => exact .inr (.inr (.inr (.inl ⟨rfl, rfl, h⟩)))
    | testDataIdentity h => exact .inr (.inr (.inr (.inr ⟨rfl, rfl, h⟩)))

/-! ## The linter as a whole -/

/-- The violation that reports a finding at a node. -/
def violationAt (filePath : String) (node : Source) (finding : PlaywrightFlakeRuleId × String) :
    PlaywrightFlakePatternViolation :=
  ⟨node.label.character + 1, filePath, node.label.line + 1, finding.2, finding.1⟩

/-- Whether the findings of a rule at a position are allowed. -/
def isAllowed (platform : Platform) (config : PlaywrightFlakeLinterConfig) (filePath : String)
    (root : Source) (p : Position) (ruleId : PlaywrightFlakeRuleId) : Bool :=
  hasInlineAllowlistComment root ruleId p || isAllowlistedByConfig platform config filePath ruleId

/-- What is reported of some findings. -/
def violationsAt (platform : Platform) (config : PlaywrightFlakeLinterConfig) (filePath : String)
    (root : Source) (p : Position) (node : Source)
    (findings : List (PlaywrightFlakeRuleId × String)) : List PlaywrightFlakePatternViolation :=
  (findings.filter fun finding ↦ !isAllowed platform config filePath root p finding.1).map
    (violationAt filePath node)

/-- Findings are added one by one. -/
theorem foldl_addViolation (platform : Platform) (config : PlaywrightFlakeLinterConfig)
    (filePath : String) (root : Source) (p : Position) (node : Source)
    (findings : List (PlaywrightFlakeRuleId × String))
    (violations : List PlaywrightFlakePatternViolation) :
    findings.foldl (addViolation platform config filePath root p node) violations =
      violations ++ violationsAt platform config filePath root p node findings := by
  induction findings generalizing violations with
  | nil => simp [violationsAt]
  | cons finding rest ih =>
      rw [List.foldl_cons, ih, addViolation, violationsAt, violationsAt, List.filter_cons,
        isAllowed]
      cases hasInlineAllowlistComment root finding.1 p ||
          isAllowlistedByConfig platform config filePath finding.1 with
      | true => simp
      | false => simp [violationAt]

/-- What the rules find at a node, if it is a call. -/
def nodeFindings (platform : Platform) (config : PlaywrightFlakeLinterConfig) (filePath : String)
    (root : Source) (fuel : ℕ) (entry : Position × Source) :
    Option (List (PlaywrightFlakeRuleId × String)) :=
  if entry.2.label.kind = .callExpression then
    findingsAt platform fuel config filePath root entry.1 entry.2
  else some []

/-- The visit of a node appends what is reported of its findings. -/
theorem visitCall_some (platform : Platform) (config : PlaywrightFlakeLinterConfig)
    (filePath : String) (root : Source) (fuel : ℕ)
    (violations : List PlaywrightFlakePatternViolation) (entry : Position × Source) :
    visitCall platform fuel config filePath root entry.1 entry.2 (some violations) =
      ((nodeFindings platform config filePath root fuel entry).map
        (violationsAt platform config filePath root entry.1 entry.2)).map (violations ++ ·) := by
  rw [visitCall, nodeFindings, Option.bind_eq_bind, Option.bind_some]
  split
  next =>
    cases findingsAt platform fuel config filePath root entry.1 entry.2 with
    | none => rfl
    | some findings => simp [foldl_addViolation]
  next => simp [violationsAt]

/-- The findings at the nodes of a file, each once. They do not depend on the allowlist. -/
theorem exists_found (platform : Platform) (config : PlaywrightFlakeLinterConfig)
    (filePath : String) (root : Source) :
    ∃ found : Position × Source → List (PlaywrightFlakeRuleId × Option ℕ),
      (∀ entry, EndsWith (fun fuel ↦ nodeFindings platform config filePath root fuel entry)
        ((found entry).map (withMessage config))) ∧
      (∀ entry, (found entry).Nodup) ∧
      ∀ entry ruleId index, (ruleId, index) ∈ found entry ↔
        entry.2.label.kind = .callExpression ∧
          Finds platform config filePath root entry.1 entry.2 ruleId index := by
  choose found hrun hnodup hfinds using
    fun entry : Position × Source ↦
      findingsAt_ends platform config filePath root entry.1 entry.2
  refine ⟨fun entry ↦ if entry.2.label.kind = .callExpression then found entry else [],
    fun entry ↦ ?_, fun entry ↦ ?_, fun entry ruleId index ↦ ?_⟩
  · by_cases hcall : entry.2.label.kind = .callExpression
    · simp only [nodeFindings, if_pos hcall]
      exact hrun entry
    · simp only [nodeFindings, if_neg hcall]
      exact EndsWith.const []
  · by_cases hcall : entry.2.label.kind = .callExpression
    · simp only [if_pos hcall, hnodup entry]
    · simp only [if_neg hcall, List.nodup_nil]
  · by_cases hcall : entry.2.label.kind = .callExpression
    · show (ruleId, index) ∈ ite _ _ _ ↔ _
      rw [if_pos hcall, hfinds entry, and_iff_right hcall]
    · simp [hcall]

/-- The violations of a file, in the order of its nodes. -/
def reported (platform : Platform) (config : PlaywrightFlakeLinterConfig) (filePath : String)
    (root : Source) (findings : Position × Source → List (PlaywrightFlakeRuleId × String)) :
    List PlaywrightFlakePatternViolation :=
  (preorder isSourceSyntax [] root).flatMap fun entry ↦
    violationsAt platform config filePath root entry.1 entry.2 (findings entry)

/-- With a valid configuration the linter ends with what is reported, in order. -/
theorem findPlaywrightFlakePatternViolations_ends {platform : Platform}
    {config : PlaywrightFlakeLinterConfig} {filePath source : String} {root : Source}
    (hvalid : validateConfig platform config = .ok ())
    (hroot : platform.createSourceFile (normalizeFilePath platform filePath) source
      ((normalizeFilePath platform filePath).endsWith "x") = root)
    {findings : Position × Source → List (PlaywrightFlakeRuleId × String)}
    (hrun : ∀ entry, EndsWith (fun fuel ↦ nodeFindings platform config
      (normalizeFilePath platform filePath) root fuel entry) (findings entry)) :
    EndsWith (findPlaywrightFlakePatternViolations platform · config filePath source)
      (.ok (sortViolations (reported platform config (normalizeFilePath platform filePath) root
        findings))) := by
  obtain ⟨bound, hvisit⟩ := @EndsWith.foldl_append _ _ _ _
    (fun fuel violations entry ↦ visitCall platform fuel config
      (normalizeFilePath platform filePath) root entry.1 entry.2 violations)
    (visitCall_some platform config (normalizeFilePath platform filePath) root)
    (preorder isSourceSyntax [] root)
    (fun entry _ ↦ (hrun entry).map (violationsAt platform config
      (normalizeFilePath platform filePath) root entry.1 entry.2)) []
  refine ⟨bound, fun fuel hfuel ↦ ?_⟩
  simp only at hvisit
  simp only [findPlaywrightFlakePatternViolations, hvalid, hroot, RoseTree.walk_eq,
    hvisit fuel hfuel, List.nil_append]
  rfl

/-- A finding at a node. -/
structure Finding where
  position : Position
  node : Source
  ruleId : PlaywrightFlakeRuleId
  mechanism : Option ℕ

/-- The violation that reports a finding. -/
def Finding.violation (config : PlaywrightFlakeLinterConfig) (filePath : String)
    (finding : Finding) : PlaywrightFlakePatternViolation :=
  violationAt filePath finding.node (withMessage config (finding.ruleId, finding.mechanism))

/-- A finding at a call of a file that nothing allows. -/
structure Violates (platform : Platform) (config : PlaywrightFlakeLinterConfig)
    (filePath : String) (root : Source) (finding : Finding) : Prop where
  visited : Visited isSourceSyntax [] root finding.position finding.node
  call : finding.node.label.kind = .callExpression
  found : Finds platform config filePath root finding.position finding.node finding.ruleId
    finding.mechanism
  inline : ¬AllowedInline root finding.ruleId finding.position
  listed : isAllowlistedByConfig platform config filePath finding.ruleId = false

/-- The findings of a file that nothing allows, in the order of its nodes. -/
def findingsOf (platform : Platform) (config : PlaywrightFlakeLinterConfig) (filePath : String)
    (root : Source) (found : Position × Source → List (PlaywrightFlakeRuleId × Option ℕ)) :
    List Finding :=
  (preorder isSourceSyntax [] root).flatMap fun entry ↦
    ((found entry).filter fun finding ↦
      !isAllowed platform config filePath root entry.1 finding.1).map fun finding ↦
        ⟨entry.1, entry.2, finding.1, finding.2⟩

section

variable {platform : Platform} {config : PlaywrightFlakeLinterConfig} {filePath : String}
  {root : Source} {found : Position × Source → List (PlaywrightFlakeRuleId × Option ℕ)}

/-- Each of these findings is reported. -/
theorem map_violation_findingsOf :
    (findingsOf platform config filePath root found).map (Finding.violation config filePath) =
      reported platform config filePath root fun entry ↦
        (found entry).map (withMessage config) := by
  rw [findingsOf, reported, List.map_flatMap]
  refine congrArg (List.flatMap · _) (funext fun entry ↦ ?_)
  rw [violationsAt, List.filter_map, List.map_map, List.map_map]
  rfl

/-- None of them is listed twice. -/
theorem nodup_findingsOf (hnodup : ∀ entry, (found entry).Nodup) :
    (findingsOf platform config filePath root found).Nodup := by
  refine List.nodup_flatMap.mpr ⟨fun entry _ ↦ ?_, ?_⟩
  · refine ((hnodup entry).filter _).map fun first second h ↦ ?_
    obtain ⟨-, -, hrule, hmechanism⟩ := Finding.mk.inj h
    exact Prod.ext hrule hmechanism
  · refine (RoseTree.preorder_pairwise isSourceSyntax [] root).imp fun {entry other} hbefore ↦ ?_
    intro finding hfinding hother
    obtain ⟨_, -, rfl⟩ := List.mem_map.mp hfinding
    obtain ⟨_, -, h⟩ := List.mem_map.mp hother
    rw [(Finding.mk.inj h).1] at hbefore
    exact RoseTree.not_before_self _ hbefore

/-- They are the findings that nothing allows. -/
theorem mem_findingsOf (hfinds : ∀ entry ruleId index, (ruleId, index) ∈ found entry ↔
      entry.2.label.kind = .callExpression ∧
        Finds platform config filePath root entry.1 entry.2 ruleId index) {finding : Finding} :
    finding ∈ findingsOf platform config filePath root found ↔
      Violates platform config filePath root finding := by
  rw [findingsOf, List.mem_flatMap]
  constructor
  · rintro ⟨⟨p, node⟩, hentry, hfinding⟩
    obtain ⟨⟨ruleId, index⟩, hfound, rfl⟩ := List.mem_map.mp hfinding
    obtain ⟨hfound, hallowed⟩ := List.mem_filter.mp hfound
    obtain ⟨hcall, hfound⟩ := (hfinds _ _ _).mp hfound
    rw [isAllowed, Bool.not_eq_true', Bool.or_eq_false_iff] at hallowed
    refine ⟨RoseTree.mem_preorder.mp hentry, hcall, hfound, ?_, hallowed.2⟩
    rw [← hasInlineAllowlistComment_iff, hallowed.1]
    exact Bool.false_ne_true
  · rintro ⟨hvisited, hcall, hfound, hinline, hconfig⟩
    refine ⟨(finding.position, finding.node), RoseTree.mem_preorder.mpr hvisited,
      List.mem_map.mpr ⟨(finding.ruleId, finding.mechanism),
        List.mem_filter.mpr ⟨(hfinds _ _ _).mpr ⟨hcall, hfound⟩, ?_⟩, rfl⟩⟩
    rw [← hasInlineAllowlistComment_iff, Bool.not_eq_true] at hinline
    rw [isAllowed, hinline, hconfig]
    rfl

end

/-- For every configuration and every file the linter refuses the configuration, or ends with the
findings that neither a comment nor the configuration allows, each once and in order. -/
theorem violations_iff (platform : Platform) (config : PlaywrightFlakeLinterConfig)
    (filePath source : String) :
    (∃ message, validateConfig platform config = .error message ∧
      ∀ fuel, findPlaywrightFlakePatternViolations platform fuel config filePath source =
        some (.error message)) ∨
    ∃ (violations : List PlaywrightFlakePatternViolation) (findings : List Finding),
      EndsWith (findPlaywrightFlakePatternViolations platform · config filePath source)
        (.ok violations) ∧
      violations.Pairwise (fun first second ↦ compareViolations first second ≤ 0) ∧
      violations.Perm
        (findings.map (Finding.violation config (normalizeFilePath platform filePath))) ∧
      findings.Nodup ∧
      ∀ finding, finding ∈ findings ↔
        Violates platform config (normalizeFilePath platform filePath)
          (platform.createSourceFile (normalizeFilePath platform filePath) source
            ((normalizeFilePath platform filePath).endsWith "x")) finding := by
  cases hvalid : validateConfig platform config with
  | error message =>
      exact .inl ⟨message, rfl, fun fuel ↦ by rw [findPlaywrightFlakePatternViolations, hvalid]⟩
  | ok valid =>
      obtain ⟨found, hrun, hnodup, hfinds⟩ := exists_found platform config
        (normalizeFilePath platform filePath) (platform.createSourceFile
          (normalizeFilePath platform filePath) source
            ((normalizeFilePath platform filePath).endsWith "x"))
      refine .inr ⟨_, findingsOf platform config _ _ found,
        findPlaywrightFlakePatternViolations_ends hvalid rfl hrun,
        List.pairwise_insertionSort _ _, ?_, nodup_findingsOf hnodup,
        fun finding ↦ mem_findingsOf hfinds⟩
      rw [map_violation_findingsOf]
      exact List.perm_insertionSort _ _

end CoreUtils.FlakeLinter
