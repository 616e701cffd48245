import Mathlib.Data.List.Infix
import Mathlib.Tactic.Common

/-!
# Replacing text by text

`String.prototype.replaceAll` with a string to search for and a string to put in its place. The
replacement is a template: `$$`, `$&` and `$` followed by a backtick or an apostrophe stand for
something else. A template without such patterns is inserted as it is (`replaceAll_of_plain`), and
then the replacement can be computed piece by piece.
-/

namespace CoreUtils

/-- The backtick of the pattern for the text before a match. -/
def backtick : Char := Char.ofNat 96

/-- The apostrophe of the pattern for the text after a match. -/
def apostrophe : Char := Char.ofNat 39

/-- Expand the patterns of a template: `$$`, the match, the text before it and the text after. -/
def getSubstitution (matched before after : List Char) : List Char → List Char
  | [] => []
  | [c] => [c]
  | c :: d :: rest =>
      if c = '$' then
        if d = '$' then '$' :: getSubstitution matched before after rest
        else if d = '&' then matched ++ getSubstitution matched before after rest
        else if d = backtick then before ++ getSubstitution matched before after rest
        else if d = apostrophe then after ++ getSubstitution matched before after rest
        else c :: getSubstitution matched before after (d :: rest)
      else c :: getSubstitution matched before after (d :: rest)

/-- Replace the leftmost occurrences that do not overlap, after `skip` characters of the last one;
`before` is the text up to here. -/
def replaceAllFrom (search template : List Char) : List Char → ℕ → List Char → List Char
  | _, _, [] => []
  | before, skip + 1, c :: s => replaceAllFrom search template (before ++ [c]) skip s
  | before, 0, c :: s =>
      if search.isPrefixOf (c :: s) then
        getSubstitution search before ((c :: s).drop search.length) template ++
          replaceAllFrom search template (before ++ [c]) (search.length - 1) s
      else c :: replaceAllFrom search template (before ++ [c]) 0 s

/-- `String.prototype.replaceAll` for a nonempty string. -/
def replaceAll (search template s : List Char) : List Char :=
  replaceAllFrom search template [] 0 s

/-! ## Plain templates -/

/-- The template contains none of the patterns that are expanded. -/
def isPlain : List Char → Bool
  | [] => true
  | [_] => true
  | c :: d :: rest =>
      !(c == '$' && (d == '$' || d == '&' || d == backtick || d == apostrophe)) &&
        isPlain (d :: rest)

/-- A plain template stands for itself. -/
theorem getSubstitution_of_plain {template : List Char} (h : isPlain template = true)
    (matched before after : List Char) :
    getSubstitution matched before after template = template := by
  induction template with
  | nil => rfl
  | cons c rest ih =>
      cases rest with
      | nil => rfl
      | cons d rest =>
          simp only [isPlain, Bool.and_eq_true] at h
          have hrest := ih h.2
          rw [getSubstitution, hrest]
          have hpair := h.1
          by_cases hc : c = '$' <;> simp_all

/-- Replace the leftmost occurrences that do not overlap by a fixed text. -/
def replaceLiteral (search block : List Char) : ℕ → List Char → List Char
  | _, [] => []
  | skip + 1, _ :: s => replaceLiteral search block skip s
  | 0, c :: s =>
      if search.isPrefixOf (c :: s) then
        block ++ replaceLiteral search block (search.length - 1) s
      else c :: replaceLiteral search block 0 s

/-- With a plain template, the text before and after an occurrence does not matter. -/
theorem replaceAll_of_plain {search template : List Char} (h : isPlain template = true)
    (s : List Char) : replaceAll search template s = replaceLiteral search template 0 s := by
  suffices ∀ before skip, replaceAllFrom search template before skip s =
      replaceLiteral search template skip s from this [] 0
  induction s with
  | nil => intro before skip; cases skip <;> rfl
  | cons c s ih =>
      intro before skip
      cases skip with
      | zero =>
          rw [replaceAllFrom, replaceLiteral, getSubstitution_of_plain h, ih, ih]
      | succ skip => exact ih _ _

variable {search block s : List Char}

/-- The rest of an occurrence is skipped. -/
theorem replaceLiteral_skip (u : List Char) :
    replaceLiteral search block u.length (u ++ s) = replaceLiteral search block 0 s := by
  induction u with
  | nil => rfl
  | cons c u ih => exact ih

/-- An occurrence is replaced. -/
theorem replaceLiteral_append (hsearch : search ≠ []) (block s : List Char) :
    replaceLiteral search block 0 (search ++ s) = block ++ replaceLiteral search block 0 s := by
  obtain ⟨c, u, rfl⟩ := List.exists_cons_of_ne_nil hsearch
  have hstarts : (c :: u).isPrefixOf (c :: (u ++ s)) = true :=
    List.isPrefixOf_iff_prefix.mpr ⟨s, rfl⟩
  rw [List.cons_append, replaceLiteral, if_pos hstarts, List.length_cons, Nat.add_sub_cancel,
    replaceLiteral_skip]

/-- A character at which no occurrence starts is kept. -/
theorem replaceLiteral_cons {c : Char} (h : ¬search <+: c :: s) :
    replaceLiteral search block 0 (c :: s) = c :: replaceLiteral search block 0 s := by
  rw [replaceLiteral, if_neg (by simpa using h)]

/-- Replacing a text by itself changes nothing. -/
theorem replaceLiteral_self (hsearch : search ≠ []) : replaceLiteral search search 0 s = s := by
  suffices ∀ skip, replaceLiteral search search skip s = s.drop skip from this 0
  induction s with
  | nil => intro skip; cases skip <;> rfl
  | cons c s ih =>
      intro skip
      cases skip with
      | succ skip => exact ih skip
      | zero =>
          rw [replaceLiteral]
          split
          · rename_i hstarts
            obtain ⟨rest, hrest⟩ := List.isPrefixOf_iff_prefix.mp hstarts
            obtain ⟨d, u, rfl⟩ := List.exists_cons_of_ne_nil hsearch
            obtain ⟨rfl, rfl⟩ := List.cons.inj hrest
            have hskip : replaceLiteral (d :: u) (d :: u) u.length (u ++ rest) = rest := by
              simpa using ih u.length
            simp [hskip]
          · rw [ih]
            rfl

end CoreUtils
