import CoreUtils.Library.QuotedText
import CoreUtils.Library.Selection
import CoreUtils.Reporter.ClientLifecycleSanitization
import CoreUtils.Reporter.NetworkFinalize
import Mathlib.Algebra.Order.Ring.Abs

/-!
# Joining lifecycles with instances

`joinClientLifecycles` of `clientLifecycle.ts` attaches the lifecycles that the browser reported to
the instances of the network report. An instance is referred to by its place in the report, and
`Served` says which places the records are given, one record after the other.
-/

namespace CoreUtils.Reporter.Lifecycle

variable {φ ρ : Type}

/-- What the join asks a URL for. -/
structure ParsedUrl where
  origin : Text
  pathname : Text

/-- What the join uses of the platform. `parseUrl` is `new URL` and says nothing where that
throws. -/
structure JoinPlatform where
  toUpperCase : Text → Text
  parseUrl : Text → Option ParsedUrl

/-- `ClientLifecycle`. The join reads three of its fields and carries the others along. -/
structure ClientLifecycle (ρ : Type) where
  method : Text
  origin : Text
  pathTemplate : Text
  details : ρ

/-- A lifecycle, and when its request started. -/
structure ParsedClientLifecycle (ρ : Type) where
  lifecycle : ClientLifecycle ρ
  requestOffsetMs : Option ℚ

/-- A reference to an instance of the report, by its place there. -/
structure InstanceReference where
  position : ℕ
  instance_ : NetworkInstance

/-- A request of the report that a lifecycle may belong to. -/
structure JoinCandidate where
  reference : InstanceReference
  pathnameSegments : List Text

/-- An instance with the lifecycle that was attached to it. -/
structure JoinedInstance (ρ : Type) where
  instance_ : NetworkInstance
  clientLifecycle : Option (ClientLifecycle ρ)

/-! ## Candidates -/

/-- `buildJoinKey`: the JSON text of the two. -/
def buildJoinKey (method origin : Text) : Text :=
  Json.stringify (fun _ ↦ []) (.array [.string method, .string origin])

/-- One iteration of `buildJoinCandidateIndex`. -/
def addJoinCandidate (platform : JoinPlatform) (index : OrderedMap Text (List JoinCandidate))
    (reference : InstanceReference) : OrderedMap Text (List JoinCandidate) :=
  match platform.parseUrl reference.instance_.url.toList with
  | none => index
  | some instanceUrl =>
      let joinKey := buildJoinKey (platform.toUpperCase reference.instance_.method.toList)
        instanceUrl.origin
      let candidate : JoinCandidate := ⟨reference, instanceUrl.pathname.splitOn '/'⟩
      match index.get joinKey with
      | some candidates => index.set joinKey (candidates ++ [candidate])
      | none => index.set joinKey [candidate]

/-- The instances of a report with their places. -/
def referencesTo (instances : List NetworkInstance) : List InstanceReference :=
  instances.zipIdx.map fun entry ↦ ⟨entry.2, entry.1⟩

/-- The requests of the report by method and origin, in their order. Those whose URL is not parsed
are left out. -/
def buildJoinCandidateIndex (platform : JoinPlatform) (instances : List NetworkInstance) :
    OrderedMap Text (List JoinCandidate) :=
  (referencesTo instances).foldl (addJoinCandidate platform) .empty

/-- Whether a segment of a template stands for any segment. -/
def isParameter (templateSegment : Text) : Bool :=
  ":".toList.isPrefixOf templateSegment ||
    (['{'].isPrefixOf templateSegment && ['}'].isSuffixOf templateSegment)

/-- Whether a segment of a path is as the template wants it. -/
def matchesSegment (templateSegment pathSegment : Text) : Bool :=
  if isParameter templateSegment then pathSegment ≠ [] else templateSegment = pathSegment

/-- A path has as many segments as a template, and each of them matches. -/
def matchesPathTemplate (pathTemplateSegments pathnameSegments : List Text) : Bool :=
  if pathTemplateSegments.length ≠ pathnameSegments.length then false
  else (pathTemplateSegments.zip pathnameSegments).all fun entry ↦ matchesSegment entry.1 entry.2

/-! ## Choosing -/

/-- One iteration of the loop of `pickClosestInstance`. -/
def closer (requestOffsetMs : ℚ) (closest : Option InstanceReference)
    (candidate : InstanceReference) : Option InstanceReference :=
  match candidate.instance_.offsetMs with
  | none => closest.or (some candidate)
  | some candidateOffsetMs =>
      match closest.bind (·.instance_.offsetMs) with
      | none => some candidate
      | some closestOffsetMs =>
          let closestDistance := |closestOffsetMs - requestOffsetMs|
          let candidateDistance := |candidateOffsetMs - requestOffsetMs|
          if candidateDistance < closestDistance then some candidate else closest

/-- The first of the requests that are closest in time, or the first at all if the time is not
known. -/
def pickClosestInstance (candidates : List InstanceReference) (requestOffsetMs : Option ℚ) :
    Option InstanceReference :=
  match requestOffsetMs with
  | none => candidates.head?
  | some requestOffsetMs => candidates.foldl (closer requestOffsetMs) none

/-! ## The join -/

/-- The instances with what is attached to them so far, and the ids of those that were matched. -/
structure JoinState (ρ : Type) where
  instances : List (JoinedInstance ρ)
  matchedInstanceIds : OrderedSet InstanceId

/-- The candidates of a record. -/
def candidatesFor (index : OrderedMap Text (List JoinCandidate)) (state : JoinState ρ)
    (record : ParsedClientLifecycle ρ) : List InstanceReference :=
  let lifecycle := record.lifecycle
  let joinKey := buildJoinKey lifecycle.method lifecycle.origin
  let pathTemplateSegments := lifecycle.pathTemplate.splitOn '/'
  (((index.get joinKey).getD []).filter fun candidate ↦
    !state.matchedInstanceIds.has candidate.reference.instance_.id &&
      matchesPathTemplate pathTemplateSegments candidate.pathnameSegments).map (·.reference)

/-- One iteration of `joinClientLifecycles`. -/
def joinRecord (index : OrderedMap Text (List JoinCandidate)) (state : JoinState ρ)
    (record : ParsedClientLifecycle ρ) : JoinState ρ :=
  match pickClosestInstance (candidatesFor index state record) record.requestOffsetMs with
  | none => state
  | some matching =>
      { instances := state.instances.modify matching.position fun joined ↦
          { joined with clientLifecycle := some record.lifecycle }
        matchedInstanceIds := state.matchedInstanceIds.add matching.instance_.id }

/-- `joinClientLifecycles`: the instances of the report after it. -/
def joinClientLifecycles (platform : JoinPlatform) (network : NetworkReport φ)
    (records : List (ParsedClientLifecycle ρ)) : List (JoinedInstance ρ) :=
  let index := buildJoinCandidateIndex platform network.instances
  let start : JoinState ρ := ⟨network.instances.map fun inst ↦ ⟨inst, none⟩, .empty⟩
  (records.foldl (joinRecord index) start).instances

/-! ## Agreement -/

/-- A segment of a template stands for a segment of a path: a parameter for any that is not empty,
another segment for itself. -/
inductive SegmentAgrees : Text → Text → Prop where
  | colon {name pathSegment : Text} (hne : pathSegment ≠ []) :
      SegmentAgrees (':' :: name) pathSegment
  | braces {name pathSegment : Text} (hne : pathSegment ≠ []) :
      SegmentAgrees ('{' :: name ++ ['}']) pathSegment
  | literal {segment : Text} (hparameter : isParameter segment = false) :
      SegmentAgrees segment segment

/-- A lifecycle and an instance agree on the upper-case method, the origin, and the path segment by
segment. -/
def Agrees (platform : JoinPlatform) (lifecycle : ClientLifecycle ρ) (inst : NetworkInstance) :
    Prop :=
  ∃ url, platform.parseUrl inst.url.toList = some url ∧
    platform.toUpperCase inst.method.toList = lifecycle.method ∧ url.origin = lifecycle.origin ∧
    List.Forall₂ SegmentAgrees (lifecycle.pathTemplate.splitOn '/') (url.pathname.splitOn '/')

/-- Which segments are parameters. -/
theorem isParameter_iff {segment : Text} : isParameter segment = true ↔
    (∃ name, segment = ':' :: name) ∨ ∃ name, segment = '{' :: name ++ ['}'] := by
  have hcolon : ":".toList.isPrefixOf segment = true ↔ ∃ name, segment = ':' :: name := by
    rw [List.isPrefixOf_iff_prefix]
    exact ⟨fun ⟨name, h⟩ ↦ ⟨name, h.symm⟩, fun ⟨name, h⟩ ↦ ⟨name, h.symm⟩⟩
  have hbraces : ['{'].isPrefixOf segment = true ∧ ['}'].isSuffixOf segment = true ↔
      ∃ name, segment = '{' :: name ++ ['}'] := by
    rw [List.isPrefixOf_iff_prefix, List.isSuffixOf_iff_suffix]
    constructor
    · rintro ⟨⟨rest, rfl⟩, before, hbefore⟩
      -- the brace at the end is not the one at the front
      rcases List.eq_nil_or_concat rest with rfl | ⟨name, last, rfl⟩
      · exact absurd hbefore (by simp [List.append_eq_singleton_iff])
      · rw [List.concat_eq_append, ← List.append_assoc] at hbefore ⊢
        obtain ⟨-, hlast⟩ := List.append_inj' hbefore rfl
        rw [← hlast]
        exact ⟨name, rfl⟩
    · rintro ⟨name, rfl⟩
      exact ⟨⟨name ++ ['}'], rfl⟩, '{' :: name, rfl⟩
  rw [isParameter, Bool.or_eq_true, Bool.and_eq_true, hcolon, hbraces]

/-- The test of a segment. -/
theorem matchesSegment_iff {templateSegment pathSegment : Text} :
    matchesSegment templateSegment pathSegment = true ↔
      SegmentAgrees templateSegment pathSegment := by
  unfold matchesSegment
  split
  · rename_i hparameter
    rw [decide_eq_true_iff]
    constructor
    · intro hne
      rcases isParameter_iff.mp hparameter with ⟨name, rfl⟩ | ⟨name, rfl⟩
      · exact .colon hne
      · exact .braces hne
    · intro h
      cases h with
      | colon hne => exact hne
      | braces hne => exact hne
      | literal hliteral => simp [hparameter] at hliteral
  · rename_i hparameter
    rw [decide_eq_true_iff]
    constructor
    · rintro rfl
      exact .literal (by simpa using hparameter)
    · intro h
      cases h with
      | colon => exact absurd (isParameter_iff.mpr (.inl ⟨_, rfl⟩)) hparameter
      | braces => exact absurd (isParameter_iff.mpr (.inr ⟨_, rfl⟩)) hparameter
      | literal => rfl

/-- The test of a path. -/
theorem matchesPathTemplate_iff {pathTemplateSegments pathnameSegments : List Text} :
    matchesPathTemplate pathTemplateSegments pathnameSegments = true ↔
      List.Forall₂ SegmentAgrees pathTemplateSegments pathnameSegments := by
  rw [List.forall₂_iff_zip, matchesPathTemplate]
  split
  · rename_i hne
    exact ⟨fun h ↦ absurd h (by simp), fun h ↦ absurd h.1 hne⟩
  · rename_i heq
    simp only [List.all_eq_true, matchesSegment_iff, Prod.forall]
    exact ⟨fun h ↦ ⟨not_not.mp heq, fun {_ _} hmem ↦ h _ _ hmem⟩, fun h _ _ hmem ↦ h.2 _ _ hmem⟩

/-- Keys are told apart. -/
theorem buildJoinKey_inj {method origin method' origin' : Text} :
    buildJoinKey method origin = buildJoinKey method' origin' ↔
      method = method' ∧ origin = origin' := by
  constructor
  · intro h
    have hkey : ∀ method origin : Text, buildJoinKey method origin =
        '[' :: (Json.quote method ++ ',' :: (Json.quote origin ++ [']'])) := by
      intro method origin
      rw [buildJoinKey, Json.stringify_array]
      simp [Json.stringify]
    rw [hkey, hkey] at h
    obtain ⟨hmethod, hrest⟩ := Json.quote_append_inj (List.cons.inj h).2
    exact ⟨hmethod, (Json.quote_append_inj (List.cons.inj hrest).2).1⟩
  · rintro ⟨rfl, rfl⟩
    rfl

/-! ## The candidates of a record -/

variable {platform : JoinPlatform} {instances : List NetworkInstance}

/-- References lead to their instances. -/
theorem mem_referencesTo {reference : InstanceReference} :
    reference ∈ referencesTo instances ↔
      instances[reference.position]? = some reference.instance_ := by
  rw [referencesTo, List.mem_map]
  constructor
  · rintro ⟨⟨inst, position⟩, hmem, rfl⟩
    exact List.mk_mem_zipIdx_iff_getElem?.mp hmem
  · intro h
    exact ⟨(reference.instance_, reference.position), List.mk_mem_zipIdx_iff_getElem?.mpr h, rfl⟩

/-- References are in the order of the places. -/
theorem referencesTo_sorted (instances : List NetworkInstance) :
    (referencesTo instances).Pairwise fun a b ↦ a.position < b.position := by
  have hpositions : (referencesTo instances).map (·.position) = List.range instances.length := by
    rw [referencesTo, List.map_map, List.range_eq_range']
    exact List.zipIdx_map_snd 0 instances
  have hsorted := List.pairwise_lt_range (n := instances.length)
  rw [← hpositions, List.pairwise_map] at hsorted
  exact hsorted

/-- The candidate that an instance is under a key. -/
def candidateUnder (platform : JoinPlatform) (joinKey : Text) (reference : InstanceReference) :
    Option JoinCandidate :=
  (platform.parseUrl reference.instance_.url.toList).bind fun instanceUrl ↦
    if buildJoinKey (platform.toUpperCase reference.instance_.method.toList) instanceUrl.origin =
      joinKey then some ⟨reference, instanceUrl.pathname.splitOn '/'⟩ else none

/-- The index holds the candidates under each key in order. -/
theorem get_foldl_addJoinCandidate (references : List InstanceReference)
    (index : OrderedMap Text (List JoinCandidate)) (joinKey : Text) :
    ((references.foldl (addJoinCandidate platform) index).get joinKey).getD [] =
      (index.get joinKey).getD [] ++ references.filterMap (candidateUnder platform joinKey) := by
  induction references generalizing index with
  | nil => simp
  | cons reference rest ih =>
      have hadd : ((addJoinCandidate platform index reference).get joinKey).getD [] =
          (index.get joinKey).getD [] ++ (candidateUnder platform joinKey reference).toList := by
        unfold addJoinCandidate candidateUnder
        cases platform.parseUrl reference.instance_.url.toList with
        | none => simp
        | some instanceUrl =>
            simp only [Option.bind_some]
            by_cases hkey : buildJoinKey
                (platform.toUpperCase reference.instance_.method.toList) instanceUrl.origin =
                  joinKey
            · rw [hkey, if_pos rfl]
              cases index.get joinKey with
              | none => simp
              | some candidates => simp
            · rw [if_neg hkey]
              cases index.get (buildJoinKey
                  (platform.toUpperCase reference.instance_.method.toList) instanceUrl.origin) with
              | none => simp [Ne.symm hkey]
              | some candidates => simp [Ne.symm hkey]
      rw [List.foldl_cons, ih, hadd, List.append_assoc, List.filterMap_cons]
      cases candidateUnder platform joinKey reference with
      | none => rfl
      | some candidate => rfl

/-- The candidates under a key. -/
theorem get_buildJoinCandidateIndex (joinKey : Text) :
    ((buildJoinCandidateIndex platform instances).get joinKey).getD [] =
      (referencesTo instances).filterMap (candidateUnder platform joinKey) :=
  get_foldl_addJoinCandidate _ _ _

/-- What a candidate under a key is. -/
theorem candidateUnder_eq_some_iff {joinKey : Text} {reference : InstanceReference}
    {candidate : JoinCandidate} :
    candidateUnder platform joinKey reference = some candidate ↔
      ∃ url, platform.parseUrl reference.instance_.url.toList = some url ∧
        buildJoinKey (platform.toUpperCase reference.instance_.method.toList) url.origin =
          joinKey ∧ candidate = ⟨reference, url.pathname.splitOn '/'⟩ := by
  rw [candidateUnder, Option.bind_eq_some_iff]
  refine exists_congr fun url ↦ and_congr_right fun _ ↦ ?_
  rw [Option.ite_none_right_eq_some, Option.some.injEq, eq_comm (a := candidate)]

/-- The candidates of a record are the instances that agree with it and are not matched yet. -/
theorem mem_candidatesFor {state : JoinState ρ} {record : ParsedClientLifecycle ρ}
    {reference : InstanceReference} :
    reference ∈ candidatesFor (buildJoinCandidateIndex platform instances) state record ↔
      instances[reference.position]? = some reference.instance_ ∧
        Agrees platform record.lifecycle reference.instance_ ∧
        state.matchedInstanceIds.has reference.instance_.id = false := by
  rw [candidatesFor, List.mem_map]
  simp only [get_buildJoinCandidateIndex, List.mem_filter, List.mem_filterMap, mem_referencesTo,
    candidateUnder_eq_some_iff, Bool.and_eq_true, Bool.not_eq_true', matchesPathTemplate_iff,
    buildJoinKey_inj]
  constructor
  · rintro ⟨candidate, ⟨⟨other, hother, url, hurl, ⟨hmethod, horigin⟩, rfl⟩, hmatched, hpath⟩, rfl⟩
    exact ⟨hother, ⟨url, hurl, hmethod, horigin, hpath⟩, hmatched⟩
  · rintro ⟨hreference, ⟨url, hurl, hmethod, horigin, hpath⟩, hmatched⟩
    exact ⟨⟨reference, url.pathname.splitOn '/'⟩,
      ⟨⟨reference, hreference, url, hurl, ⟨hmethod, horigin⟩, rfl⟩, hmatched, hpath⟩, rfl⟩

/-- The candidates of a record are in the order of the places. -/
theorem candidatesFor_sorted (state : JoinState ρ) (record : ParsedClientLifecycle ρ) :
    (candidatesFor (buildJoinCandidateIndex platform instances) state record).Pairwise
      fun a b ↦ a.position < b.position := by
  rw [candidatesFor, List.pairwise_map]
  refine List.Pairwise.filter _ ?_
  rw [get_buildJoinCandidateIndex, List.pairwise_filterMap]
  refine (referencesTo_sorted instances).imp fun {a b} hlt candidate hcandidate other hother ↦ ?_
  obtain ⟨_, -, -, rfl⟩ := candidateUnder_eq_some_iff.mp hcandidate
  obtain ⟨_, -, -, rfl⟩ := candidateUnder_eq_some_iff.mp hother
  exact hlt

/-! ## The chosen candidate -/

/-- The candidate at one place is chosen rather than that at another, given their offsets. Without
an offset of the record it is the first one; a candidate without an offset gives way to one that has
one; the nearer one is chosen, and the first one of those that are equally near. -/
inductive Preferred : Option ℚ → ℕ × Option ℚ → ℕ × Option ℚ → Prop where
  | first {p q : ℕ} {offsetMs otherOffsetMs : Option ℚ} (hle : p ≤ q) :
      Preferred none (p, offsetMs) (q, otherOffsetMs)
  | nearer {p q : ℕ} {requestOffsetMs offsetMs otherOffsetMs : ℚ}
      (hlt : |offsetMs - requestOffsetMs| < |otherOffsetMs - requestOffsetMs|) :
      Preferred (some requestOffsetMs) (p, some offsetMs) (q, some otherOffsetMs)
  | tie {p q : ℕ} {requestOffsetMs offsetMs otherOffsetMs : ℚ}
      (heq : |offsetMs - requestOffsetMs| = |otherOffsetMs - requestOffsetMs|) (hle : p ≤ q) :
      Preferred (some requestOffsetMs) (p, some offsetMs) (q, some otherOffsetMs)
  | known {p q : ℕ} {requestOffsetMs offsetMs : ℚ} :
      Preferred (some requestOffsetMs) (p, some offsetMs) (q, none)
  | unknown {p q : ℕ} {requestOffsetMs : ℚ} (hle : p ≤ q) :
      Preferred (some requestOffsetMs) (p, none) (q, none)

/-- How far a candidate is from the record. -/
def distance (requestOffsetMs : ℚ) (reference : InstanceReference) : WithTop ℚ :=
  reference.instance_.offsetMs.elim ⊤ fun offsetMs ↦ (|offsetMs - requestOffsetMs| : ℚ)

/-- The loop finds the first of the nearest candidates. -/
theorem foldl_closer (requestOffsetMs : ℚ) (candidates : List InstanceReference) :
    candidates.foldl (closer requestOffsetMs) none =
      firstMin (distance requestOffsetMs) candidates := by
  refine foldl_eq_firstMin id fun candidate _ closest ↦ ?_
  simp only [id]
  cases hoffset : candidate.instance_.offsetMs with
  | none =>
      have hfar : distance requestOffsetMs candidate = ⊤ := by rw [distance, hoffset]; rfl
      cases closest with
      | none => simp [closer, better, hoffset]
      | some best => simp [closer, better, hoffset, hfar]
  | some offsetMs =>
      have hnear : distance requestOffsetMs candidate =
          ((|offsetMs - requestOffsetMs| : ℚ) : WithTop ℚ) := by rw [distance, hoffset]; rfl
      cases closest with
      | none => simp [closer, better, hoffset]
      | some best =>
          cases hbest : best.instance_.offsetMs with
          | none =>
              have hfar : distance requestOffsetMs best = ⊤ := by rw [distance, hbest]; rfl
              simp [closer, better, hoffset, hbest, hfar, hnear]
          | some bestOffsetMs =>
              have hbestNear : distance requestOffsetMs best =
                  ((|bestOffsetMs - requestOffsetMs| : ℚ) : WithTop ℚ) := by
                rw [distance, hbest]
                rfl
              simp [closer, better, hoffset, hbest, hbestNear, hnear]

/-- What a reference is compared by. -/
def InstanceReference.offer (reference : InstanceReference) : ℕ × Option ℚ :=
  (reference.position, reference.instance_.offsetMs)

/-- Without candidates none is chosen. -/
theorem pickClosestInstance_eq_none {candidates : List InstanceReference}
    {requestOffsetMs : Option ℚ} (h : pickClosestInstance candidates requestOffsetMs = none) :
    candidates = [] := by
  cases requestOffsetMs with
  | none => exact List.head?_eq_none_iff.mp h
  | some requestOffsetMs =>
      rw [pickClosestInstance, foldl_closer] at h
      exact List.argmin_eq_none.mp h

/-- The chosen candidate is preferred to every other. -/
theorem pickClosestInstance_eq_some {candidates : List InstanceReference}
    (hsorted : candidates.Pairwise fun a b ↦ a.position < b.position)
    {requestOffsetMs : Option ℚ} {chosen : InstanceReference}
    (h : pickClosestInstance candidates requestOffsetMs = some chosen) :
    chosen ∈ candidates ∧ ∀ other ∈ candidates,
      Preferred requestOffsetMs chosen.offer other.offer := by
  cases requestOffsetMs with
  | none =>
      obtain ⟨rest, rfl⟩ := List.head?_eq_some_iff.mp h
      refine ⟨List.mem_cons_self, fun other hother ↦ .first ?_⟩
      rcases List.mem_cons.mp hother with rfl | hrest
      · exact le_rfl
      · exact (List.rel_of_pairwise_cons hsorted hrest).le
  | some requestOffsetMs =>
      rw [pickClosestInstance, foldl_closer] at h
      obtain ⟨before, after, rfl, hbefore, hafter⟩ := firstMin_split h
      -- a nearer candidate is preferred wherever it is, an equally near one if it comes first
      have hprefer : ∀ other, distance requestOffsetMs chosen ≤ distance requestOffsetMs other →
          (distance requestOffsetMs chosen = distance requestOffsetMs other →
            chosen.position ≤ other.position) →
          Preferred (some requestOffsetMs) chosen.offer other.offer := by
        intro other hle htie
        unfold distance at hle htie
        unfold InstanceReference.offer
        cases hchosen : chosen.instance_.offsetMs with
        | none =>
            cases hother : other.instance_.offsetMs with
            | none =>
                rw [hchosen, hother] at htie
                exact .unknown (htie rfl)
            | some otherOffsetMs =>
                rw [hchosen, hother] at hle
                exact absurd (top_le_iff.mp hle) (WithTop.coe_ne_top)
        | some offsetMs =>
            cases hother : other.instance_.offsetMs with
            | none => exact .known
            | some otherOffsetMs =>
                rw [hchosen, hother] at hle htie
                rcases (WithTop.coe_le_coe.mp hle).lt_or_eq with hlt | heq
                · exact .nearer hlt
                · exact .tie heq (htie (congrArg _ heq))
      have hbetween := List.pairwise_append.mp hsorted
      refine ⟨by simp, fun other hother ↦ ?_⟩
      rcases List.mem_append.mp hother with hother | hother
      · have hlt := hbefore other hother
        exact hprefer other hlt.le fun heq ↦ absurd heq hlt.ne
      · rcases List.mem_cons.mp hother with rfl | hother
        · exact hprefer other le_rfl fun _ ↦ le_rfl
        · exact hprefer other (hafter other hother) fun _ ↦
            (List.rel_of_pairwise_cons hbetween.2.1 hother).le

/-! ## Serving the records in order -/

/-- An instance is there for a record: it agrees with it, and no instance with its identifier was
given to an earlier record. -/
structure Available (platform : JoinPlatform) (instances : List NetworkInstance)
    (served : List (Option ℕ)) (lifecycle : ClientLifecycle ρ) (position : ℕ)
    (inst : NetworkInstance) : Prop where
  there : instances[position]? = some inst
  agrees : Agrees platform lifecycle inst
  unmatched : ∀ {p other}, some p ∈ served → instances[p]? = some other → other.id ≠ inst.id

/-- What a record is given: nothing if no instance is there for it, else an instance that is
preferred to every other one. -/
inductive Serves (platform : JoinPlatform) (instances : List NetworkInstance)
    (served : List (Option ℕ)) (record : ParsedClientLifecycle ρ) : Option ℕ → Prop where
  | nothing (hnone : ∀ position inst,
      ¬Available platform instances served record.lifecycle position inst) :
      Serves platform instances served record none
  | instance_ {position : ℕ} {inst : NetworkInstance}
      (havailable : Available platform instances served record.lifecycle position inst)
      (hpreferred : ∀ other otherInst,
        Available platform instances served record.lifecycle other otherInst →
        Preferred record.requestOffsetMs (position, inst.offsetMs) (other, otherInst.offsetMs)) :
      Serves platform instances served record (some position)

/-- The places that the records are given, one record after the other. -/
inductive Served (platform : JoinPlatform) (instances : List NetworkInstance) :
    List (ParsedClientLifecycle ρ) → List (Option ℕ) → Prop where
  | nil : Served platform instances [] []
  | concat {records : List (ParsedClientLifecycle ρ)} {served : List (Option ℕ)}
      {record : ParsedClientLifecycle ρ} {target : Option ℕ}
      (hearlier : Served platform instances records served)
      (hserves : Serves platform instances served record target) :
      Served platform instances (records ++ [record]) (served ++ [target])

/-- The lifecycle of the record that was given a place. -/
def lifecycleAt (records : List (ParsedClientLifecycle ρ)) (served : List (Option ℕ))
    (position : ℕ) : Option (ClientLifecycle ρ) :=
  ((served.zip records).lookup (some position)).map (·.lifecycle)

/-- The lifecycles after one more record. -/
theorem lifecycleAt_concat {records : List (ParsedClientLifecycle ρ)} {served : List (Option ℕ)}
    (hlength : served.length = records.length) (record : ParsedClientLifecycle ρ)
    (target : Option ℕ) (position : ℕ) :
    lifecycleAt (records ++ [record]) (served ++ [target]) position =
      (lifecycleAt records served position).or
        (if target = some position then some record.lifecycle else none) := by
  have hzip : (served ++ [target]).zip (records ++ [record]) =
      served.zip records ++ [(target, record)] := by
    rw [List.zip_append hlength]
    rfl
  rw [lifecycleAt, hzip, List.lookup_append, Option.map_or, lifecycleAt]
  by_cases htarget : target = some position
  · simp [htarget]
  · have hbeq : (some position == target) = false := by simpa using Ne.symm htarget
    simp [List.lookup_cons, htarget, hbeq]

/-- A place that was given to no record has no lifecycle. -/
theorem lifecycleAt_of_not_mem {records : List (ParsedClientLifecycle ρ)}
    {served : List (Option ℕ)} {position : ℕ} (h : some position ∉ served) :
    lifecycleAt records served position = none := by
  rw [lifecycleAt, Option.map_eq_none_iff, List.lookup_eq_none_iff]
  intro entry hentry
  have hne : some position ≠ entry.1 := by
    intro heq
    exact h (heq ▸ (List.of_mem_zip hentry).1)
  simpa using hne

/-- Every record is given at most one place. -/
theorem Served.length_eq {records : List (ParsedClientLifecycle ρ)} {served : List (Option ℕ)}
    (h : Served platform instances records served) : served.length = records.length := by
  induction h with
  | nil => rfl
  | concat _ _ ih => simp [ih]

/-- A place that was given has its instance. -/
theorem Served.there {records : List (ParsedClientLifecycle ρ)} {served : List (Option ℕ)}
    (h : Served platform instances records served) {position : ℕ} (hmem : some position ∈ served) :
    ∃ inst, instances[position]? = some inst := by
  induction h with
  | nil => exact absurd hmem (by simp)
  | concat _ hserves ih =>
      rcases List.mem_append.mp hmem with hmem | hmem
      · exact ih hmem
      · obtain rfl := List.mem_singleton.mp hmem
        cases hserves with
        | instance_ havailable _ => exact ⟨_, havailable.there⟩

/-- No place is given twice. -/
theorem Served.nodup {records : List (ParsedClientLifecycle ρ)} {served : List (Option ℕ)}
    (h : Served platform instances records served) : (served.filterMap id).Nodup := by
  induction h with
  | nil => exact List.nodup_nil
  | @concat records served record target hearlier hserves ih =>
      rw [List.filterMap_append]
      cases hserves with
      | nothing => simpa using ih
      | @instance_ position inst havailable _ =>
          refine List.nodup_append.mpr ⟨ih, List.nodup_singleton _, fun p hp q hq hpq ↦ ?_⟩
          obtain rfl := List.mem_singleton.mp hq
          have hmem : some p ∈ served := by simpa using hp
          exact havailable.unmatched hmem (hpq ▸ havailable.there) rfl

/-- What the state says of the records so far. -/
structure Joined (platform : JoinPlatform) (instances : List NetworkInstance)
    (records : List (ParsedClientLifecycle ρ)) (served : List (Option ℕ)) (state : JoinState ρ) :
    Prop where
  run : Served platform instances records served
  matched : ∀ id, state.matchedInstanceIds.has id = true ↔
    ∃ position inst, some position ∈ served ∧ instances[position]? = some inst ∧ inst.id = id
  attached : ∀ position : ℕ, state.instances[position]? = (instances[position]?).map fun inst ↦
    JoinedInstance.mk inst (lifecycleAt records served position)

/-- Before the first record nothing is matched. -/
theorem joined_start (platform : JoinPlatform) (instances : List NetworkInstance) :
    Joined platform instances [] [] (⟨instances.map fun inst ↦ ⟨inst, none⟩, .empty⟩ :
      JoinState ρ) where
  run := .nil
  matched id := by simp
  attached position := by
    rw [List.getElem?_map]
    rfl

/-- The candidates of a record are the instances that are there for it. -/
theorem Joined.mem_candidatesFor {records : List (ParsedClientLifecycle ρ)}
    {served : List (Option ℕ)} {state : JoinState ρ}
    (h : Joined platform instances records served state) {record : ParsedClientLifecycle ρ}
    {reference : InstanceReference} :
    reference ∈ candidatesFor (buildJoinCandidateIndex platform instances) state record ↔
      Available platform instances served record.lifecycle reference.position
        reference.instance_ := by
  rw [Lifecycle.mem_candidatesFor]
  constructor
  · rintro ⟨hthere, hagrees, hmatched⟩
    refine ⟨hthere, hagrees, fun {p other} hp hother hsame ↦ ?_⟩
    have hhas := (h.matched reference.instance_.id).mpr ⟨p, other, hp, hother, hsame⟩
    rw [hmatched] at hhas
    contradiction
  · rintro ⟨hthere, hagrees, hunmatched⟩
    refine ⟨hthere, hagrees, Bool.eq_false_iff.mpr fun hhas ↦ ?_⟩
    obtain ⟨p, other, hp, hother, hsame⟩ := (h.matched _).mp hhas
    exact hunmatched hp hother hsame

/-- Serving one more record. -/
theorem Joined.joinRecord {records : List (ParsedClientLifecycle ρ)} {served : List (Option ℕ)}
    {state : JoinState ρ} (h : Joined platform instances records served state)
    (record : ParsedClientLifecycle ρ) :
    ∃ target, Joined platform instances (records ++ [record]) (served ++ [target])
      (joinRecord (buildJoinCandidateIndex platform instances) state record) := by
  have hconcat := lifecycleAt_concat h.run.length_eq record
  unfold Lifecycle.joinRecord
  cases hpick : pickClosestInstance
      (candidatesFor (buildJoinCandidateIndex platform instances) state record)
      record.requestOffsetMs with
  | none =>
      have hempty := pickClosestInstance_eq_none hpick
      refine ⟨none, h.run.concat (.nothing fun position inst havailable ↦ ?_), fun id ↦ ?_,
        fun position ↦ ?_⟩
      · have hmem : (⟨position, inst⟩ : InstanceReference) ∈ candidatesFor
            (buildJoinCandidateIndex platform instances) state record :=
          h.mem_candidatesFor.mpr havailable
        rw [hempty] at hmem
        contradiction
      · rw [h.matched id]
        simp
      · rw [h.attached position]
        simp [hconcat]
  | some chosen =>
      obtain ⟨hmem, hpreferred⟩ :=
        pickClosestInstance_eq_some (candidatesFor_sorted state record) hpick
      have havailable := h.mem_candidatesFor.mp hmem
      refine ⟨some chosen.position, h.run.concat (.instance_ havailable fun other inst hother ↦
        hpreferred ⟨other, inst⟩ (h.mem_candidatesFor.mpr hother)), fun id ↦ ?_,
        fun position ↦ ?_⟩
      · rw [OrderedMap.has_eq, OrderedSet.get_add]
        constructor
        · intro hhas
          split at hhas
          · rename_i hid
            exact ⟨chosen.position, chosen.instance_, by simp, havailable.there, hid.symm⟩
          · obtain ⟨p, inst, hp, hrest⟩ := (h.matched id).mp hhas
            exact ⟨p, inst, List.mem_append_left _ hp, hrest⟩
        · rintro ⟨p, inst, hp, hinst, rfl⟩
          rcases List.mem_append.mp hp with hp | hp
          · have hhas := (h.matched inst.id).mpr ⟨p, inst, hp, hinst, rfl⟩
            rw [OrderedMap.has_eq] at hhas
            split
            · rfl
            · exact hhas
          · obtain rfl := Option.some.inj (List.mem_singleton.mp hp)
            obtain rfl := Option.some.inj (havailable.there.symm.trans hinst)
            rw [if_pos rfl]
            rfl
      · rw [List.getElem?_modify, h.attached position]
        by_cases hposition : chosen.position = position
        · -- nothing was attached there before
          have hfree : some chosen.position ∉ served := fun hmem' ↦
            havailable.unmatched hmem' havailable.there rfl
          rw [← hposition, havailable.there]
          simp [hconcat, lifecycleAt_of_not_mem hfree]
        · simp [hconcat, hposition]

/-- The join attaches the records to instances of the report: each record to at most one and to each
instance at most one, and in order, each record to the nearest of the instances that agree with it
and have not been matched. -/
theorem join_client_lifecycles_nearest (platform : JoinPlatform) (network : NetworkReport φ)
    (records : List (ParsedClientLifecycle ρ)) :
    ∃ served : List (Option ℕ), Served platform network.instances records served ∧
      served.length = records.length ∧ (served.filterMap id).Nodup ∧
      joinClientLifecycles platform network records =
        network.instances.mapIdx fun position inst ↦
          ⟨inst, lifecycleAt records served position⟩ := by
  have hrun : ∃ served, Joined platform network.instances records served
      (records.foldl (joinRecord (buildJoinCandidateIndex platform network.instances))
        ⟨network.instances.map fun inst ↦ ⟨inst, none⟩, .empty⟩) := by
    induction records using List.reverseRecOn with
    | nil => exact ⟨[], joined_start platform network.instances⟩
    | append_singleton records record ih =>
        obtain ⟨served, hjoined⟩ := ih
        obtain ⟨target, hnext⟩ := hjoined.joinRecord record
        rw [List.foldl_concat]
        exact ⟨_, hnext⟩
  obtain ⟨served, hjoined⟩ := hrun
  refine ⟨served, hjoined.run, hjoined.run.length_eq, hjoined.run.nodup, ?_⟩
  refine List.ext_getElem? fun position ↦ ?_
  rw [List.getElem?_mapIdx]
  exact hjoined.attached position

end CoreUtils.Reporter.Lifecycle
