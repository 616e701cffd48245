import Mathlib.Data.List.Basic
import Mathlib.Tactic.Common

/-!
# Backtracking patterns

A pattern of a backtracking regular expression maps a text to all the ways of matching a beginning
of it, in the order in which they are tried: what is captured, and the rest of the text. A match is
the first of them. A greedy repetition tries the longest way first and a lazy one the shortest;
`firstMatch_greedy` and `firstMatch_lazy` state this for whatever follows the repetition.
-/

namespace CoreUtils

variable {α β γ δ : Type*}

/-- The ways to match a beginning of a text, in the order in which they are tried. -/
abbrev Pattern (α β : Type*) := List α → List (β × List α)

namespace Pattern

/-- Match nothing and capture a value. -/
def succeed (value : β) : Pattern α β := fun s ↦ [(value, s)]

/-- One pattern after another. -/
def andThen (first : Pattern α β) (next : β → Pattern α γ) : Pattern α γ := fun s ↦
  (first s).flatMap fun way ↦ next way.1 way.2

/-- A fixed word. -/
def literal [BEq α] (word : List α) : Pattern α Unit := fun s ↦
  if word.isPrefixOf s then [((), s.drop word.length)] else []

/-- The repetition of a class of characters, as often as possible. -/
def greedy (ok : α → Bool) : Pattern α (List α)
  | [] => [([], [])]
  | c :: s =>
      if ok c then (greedy ok s).map (fun way ↦ (c :: way.1, way.2)) ++ [([], c :: s)]
      else [([], c :: s)]

/-- The repetition of a class of characters, as seldom as possible. -/
def lazy (ok : α → Bool) : Pattern α (List α)
  | [] => [([], [])]
  | c :: s =>
      ([], c :: s) :: if ok c then (lazy ok s).map (fun way ↦ (c :: way.1, way.2)) else []

/-- The repetition of a class of characters at least once, as seldom as possible. -/
def lazyPlus (ok : α → Bool) : Pattern α (List α)
  | [] => []
  | c :: s => if ok c then (lazy ok s).map (fun way ↦ (c :: way.1, way.2)) else []

/-- The first way of matching. -/
def firstMatch (pattern : Pattern α β) (s : List α) : Option (β × List α) := (pattern s).head?

/-! ## The first way -/

variable {pattern : Pattern α β} {s : List α}

/-- The first way through two patterns comes from the first way through one that has a way through
the other. -/
theorem firstMatch_andThen {next : β → Pattern α γ} :
    (pattern.andThen next).firstMatch s =
      (pattern s).findSome? fun way ↦ (next way.1).firstMatch way.2 :=
  List.head?_flatMap

/-- A word matches where it stands. -/
theorem firstMatch_literal_andThen [BEq α] [LawfulBEq α] {word : List α}
    {next : Unit → Pattern α γ} {result : γ × List α} :
    ((literal word).andThen next).firstMatch s = some result ↔
      ∃ rest, s = word ++ rest ∧ (next ()).firstMatch rest = some result := by
  rw [firstMatch_andThen, literal]
  by_cases hword : word.isPrefixOf s
  · obtain ⟨rest, rfl⟩ := List.isPrefixOf_iff_prefix.mp hword
    simp [hword]
  · simp only [hword, Bool.false_eq_true, if_false, List.findSome?_nil, false_iff, not_exists,
      reduceCtorEq]
    rintro rest ⟨rfl, -⟩
    exact hword (List.isPrefixOf_iff_prefix.mpr (List.prefix_append _ _))

/-- A word and what follows it match nowhere else. -/
theorem firstMatch_literal_andThen_eq_none [BEq α] [LawfulBEq α] {word : List α}
    {next : Unit → Pattern α γ} :
    ((literal word).andThen next).firstMatch s = none ↔
      ∀ rest, s = word ++ rest → (next ()).firstMatch rest = none := by
  simp only [Option.eq_none_iff_forall_ne_some, Ne, firstMatch_literal_andThen, not_exists, not_and]
  exact ⟨fun h rest hsplit result ↦ h result rest hsplit,
    fun h result rest hsplit ↦ h rest hsplit result⟩

/-! ## Repetitions -/

variable {ok : α → Bool} {taken rest : List α}

/-- The ways of a greedy repetition. -/
theorem mem_greedy :
    (taken, rest) ∈ greedy ok s ↔ s = taken ++ rest ∧ ∀ c ∈ taken, ok c = true := by
  induction s generalizing taken with
  | nil => cases taken <;> simp [greedy]
  | cons c s ih =>
      cases taken with
      | nil =>
          have hempty : (([], rest) : List α × List α) ∈ greedy ok (c :: s) ↔ rest = c :: s := by
            by_cases hc : ok c = true <;> simp [greedy, hc]
          simpa [hempty] using eq_comm
      | cons d taken =>
          by_cases hc : ok c = true
          · have hcons : (d :: taken, rest) ∈ greedy ok (c :: s) ↔
                c = d ∧ (taken, rest) ∈ greedy ok s := by
              simp [greedy, hc, and_comm]
            rw [hcons, ih]
            grind
          · simp only [greedy, hc]
            grind

/-- The ways of a lazy repetition. -/
theorem mem_lazy :
    (taken, rest) ∈ lazy ok s ↔ s = taken ++ rest ∧ ∀ c ∈ taken, ok c = true := by
  induction s generalizing taken with
  | nil => cases taken <;> simp [lazy]
  | cons c s ih =>
      cases taken with
      | nil =>
          have hempty : (([], rest) : List α × List α) ∈ lazy ok (c :: s) ↔ rest = c :: s := by
            by_cases hc : ok c = true <;> simp [lazy, hc]
          simpa [hempty] using eq_comm
      | cons d taken =>
          by_cases hc : ok c = true
          · have hcons : (d :: taken, rest) ∈ lazy ok (c :: s) ↔
                c = d ∧ (taken, rest) ∈ lazy ok s := by
              simp [lazy, hc, and_comm]
            rw [hcons, ih]
            grind
          · simp only [lazy, hc]
            grind

/-- The ways of a lazy repetition that takes something. -/
theorem mem_lazyPlus :
    (taken, rest) ∈ lazyPlus ok s ↔ taken ≠ [] ∧ s = taken ++ rest ∧ ∀ c ∈ taken, ok c = true := by
  cases s with
  | nil => cases taken <;> simp [lazyPlus]
  | cons c s =>
      have hlazy : (taken, rest) ∈ lazyPlus ok (c :: s) ↔
          taken ≠ [] ∧ (taken, rest) ∈ lazy ok (c :: s) := by
        by_cases hc : ok c = true
        · cases taken <;> simp [lazyPlus, lazy, hc]
        · cases taken <;> simp [lazyPlus, lazy, hc]
      rw [hlazy, mem_lazy]

/-- A greedy repetition tries longer ways first. -/
theorem greedy_pairwise : (greedy ok s).Pairwise fun a b ↦ b.1.length < a.1.length := by
  induction s with
  | nil => simp [greedy]
  | cons c s ih =>
      by_cases hc : ok c = true
      · simp only [greedy, hc, if_true, List.pairwise_append, List.pairwise_map]
        refine ⟨ih.imp fun h ↦ by simpa using h, by simp, ?_⟩
        rintro a ha b hb
        obtain ⟨way, -, rfl⟩ := List.mem_map.mp ha
        obtain rfl := List.mem_singleton.mp hb
        exact Nat.zero_lt_succ _
      · simp [greedy, hc]

/-- A lazy repetition tries shorter ways first. -/
theorem lazy_pairwise : (lazy ok s).Pairwise fun a b ↦ a.1.length < b.1.length := by
  induction s with
  | nil => simp [lazy]
  | cons c s ih =>
      by_cases hc : ok c = true
      · simp only [lazy, hc, if_true, List.pairwise_cons, List.pairwise_map]
        refine ⟨fun b hb ↦ ?_, ih.imp fun h ↦ by simpa using h⟩
        obtain ⟨way, -, rfl⟩ := List.mem_map.mp hb
        exact Nat.zero_lt_succ _
      · simp [lazy, hc]

/-- A lazy repetition that takes something tries shorter ways first. -/
theorem lazyPlus_pairwise : (lazyPlus ok s).Pairwise fun a b ↦ a.1.length < b.1.length := by
  cases s with
  | nil => simp [lazyPlus]
  | cons c s =>
      by_cases hc : ok c = true
      · simp only [lazyPlus, hc, if_true, List.pairwise_map]
        exact lazy_pairwise.imp fun h ↦ by simpa using h
      · simp [lazyPlus, hc]

/-- A search through a list that is sorted by a strict order finds a result of the least entry that
has one. -/
theorem least_of_findSome {r : δ → δ → Prop} {entries : List δ} (hsorted : entries.Pairwise r)
    (hirrefl : ∀ a, ¬r a a) (hasymm : ∀ a b, r a b → ¬r b a) {f : δ → Option γ} {result : γ}
    (h : entries.findSome? f = some result) :
    ∃ entry ∈ entries, f entry = some result ∧
      ∀ other ∈ entries, r other entry → f other = none := by
  obtain ⟨before, entry, after, rfl, hentry, hbefore⟩ := List.findSome?_eq_some_iff.mp h
  refine ⟨entry, by simp, hentry, fun other hother hless ↦ ?_⟩
  rw [List.mem_append, List.mem_cons] at hother
  rcases hother with hother | rfl | hother
  · exact hbefore other hother
  · exact absurd hless (hirrefl other)
  · rw [List.pairwise_append, List.pairwise_cons] at hsorted
    exact absurd hless (hasymm _ _ (hsorted.2.1.1 other hother))

/-- What follows a greedy repetition matches after the longest way after which it matches. -/
theorem firstMatch_greedy_andThen {next : List α → Pattern α γ} {result : γ × List α}
    (h : ((greedy ok).andThen next).firstMatch s = some result) :
    ∃ taken rest, s = taken ++ rest ∧ (∀ c ∈ taken, ok c = true) ∧
      (next taken).firstMatch rest = some result ∧
      ∀ taken' rest', s = taken' ++ rest' → (∀ c ∈ taken', ok c = true) →
        taken.length < taken'.length → (next taken').firstMatch rest' = none := by
  rw [firstMatch_andThen] at h
  obtain ⟨⟨taken, rest⟩, hway, hnext, hleast⟩ :=
    least_of_findSome greedy_pairwise (fun _ ↦ Nat.lt_irrefl _) (fun _ _ ↦ Nat.lt_asymm) h
  obtain ⟨hsplit, hok⟩ := mem_greedy.mp hway
  exact ⟨taken, rest, hsplit, hok, hnext, fun taken' rest' hsplit' hok' hlonger ↦
    hleast (taken', rest') (mem_greedy.mpr ⟨hsplit', hok'⟩) hlonger⟩

/-- A greedy repetition and what follows it do not match if what follows it never does. -/
theorem firstMatch_greedy_andThen_eq_none {next : List α → Pattern α γ} :
    ((greedy ok).andThen next).firstMatch s = none ↔
      ∀ taken rest, s = taken ++ rest → (∀ c ∈ taken, ok c = true) →
        (next taken).firstMatch rest = none := by
  rw [firstMatch_andThen, List.findSome?_eq_none_iff]
  exact ⟨fun h taken rest hsplit hok ↦ h (taken, rest) (mem_greedy.mpr ⟨hsplit, hok⟩),
    fun h way hway ↦ h way.1 way.2 (mem_greedy.mp hway).1 (mem_greedy.mp hway).2⟩

/-- What follows a lazy repetition matches after the shortest way after which it matches. -/
theorem firstMatch_lazy_andThen {next : List α → Pattern α γ} {result : γ × List α}
    (h : ((lazy ok).andThen next).firstMatch s = some result) :
    ∃ taken rest, s = taken ++ rest ∧ (∀ c ∈ taken, ok c = true) ∧
      (next taken).firstMatch rest = some result ∧
      ∀ taken' rest', s = taken' ++ rest' → (∀ c ∈ taken', ok c = true) →
        taken'.length < taken.length → (next taken').firstMatch rest' = none := by
  rw [firstMatch_andThen] at h
  obtain ⟨⟨taken, rest⟩, hway, hnext, hleast⟩ :=
    least_of_findSome lazy_pairwise (fun _ ↦ Nat.lt_irrefl _) (fun _ _ ↦ Nat.lt_asymm) h
  obtain ⟨hsplit, hok⟩ := mem_lazy.mp hway
  exact ⟨taken, rest, hsplit, hok, hnext, fun taken' rest' hsplit' hok' hshorter ↦
    hleast (taken', rest') (mem_lazy.mpr ⟨hsplit', hok'⟩) hshorter⟩

/-- A lazy repetition and what follows it do not match if what follows it never does. -/
theorem firstMatch_lazy_andThen_eq_none {next : List α → Pattern α γ} :
    ((lazy ok).andThen next).firstMatch s = none ↔
      ∀ taken rest, s = taken ++ rest → (∀ c ∈ taken, ok c = true) →
        (next taken).firstMatch rest = none := by
  rw [firstMatch_andThen, List.findSome?_eq_none_iff]
  exact ⟨fun h taken rest hsplit hok ↦ h (taken, rest) (mem_lazy.mpr ⟨hsplit, hok⟩),
    fun h way hway ↦ h way.1 way.2 (mem_lazy.mp hway).1 (mem_lazy.mp hway).2⟩

/-- What follows a lazy repetition that takes something matches after the shortest such way. -/
theorem firstMatch_lazyPlus_andThen {next : List α → Pattern α γ} {result : γ × List α}
    (h : ((lazyPlus ok).andThen next).firstMatch s = some result) :
    ∃ taken rest, taken ≠ [] ∧ s = taken ++ rest ∧ (∀ c ∈ taken, ok c = true) ∧
      (next taken).firstMatch rest = some result ∧
      ∀ taken' rest', taken' ≠ [] → s = taken' ++ rest' → (∀ c ∈ taken', ok c = true) →
        taken'.length < taken.length → (next taken').firstMatch rest' = none := by
  rw [firstMatch_andThen] at h
  obtain ⟨⟨taken, rest⟩, hway, hnext, hleast⟩ :=
    least_of_findSome lazyPlus_pairwise (fun _ ↦ Nat.lt_irrefl _) (fun _ _ ↦ Nat.lt_asymm) h
  obtain ⟨hnonempty, hsplit, hok⟩ := mem_lazyPlus.mp hway
  exact ⟨taken, rest, hnonempty, hsplit, hok, hnext,
    fun taken' rest' hnonempty' hsplit' hok' hshorter ↦
      hleast (taken', rest') (mem_lazyPlus.mpr ⟨hnonempty', hsplit', hok'⟩) hshorter⟩

/-- A lazy repetition that takes something and what follows it do not match if what follows it
never does. -/
theorem firstMatch_lazyPlus_andThen_eq_none {next : List α → Pattern α γ} :
    ((lazyPlus ok).andThen next).firstMatch s = none ↔
      ∀ taken rest, taken ≠ [] → s = taken ++ rest → (∀ c ∈ taken, ok c = true) →
        (next taken).firstMatch rest = none := by
  rw [firstMatch_andThen, List.findSome?_eq_none_iff]
  refine ⟨fun h taken rest hnonempty hsplit hok ↦
    h (taken, rest) (mem_lazyPlus.mpr ⟨hnonempty, hsplit, hok⟩), fun h way hway ↦ ?_⟩
  obtain ⟨hnonempty, hsplit, hok⟩ := mem_lazyPlus.mp hway
  exact h way.1 way.2 hnonempty hsplit hok

end Pattern

end CoreUtils
