import Mathlib.Data.List.Lex
import Mathlib.Data.List.Sort

/-!
# The order of texts

Texts are compared by their UTF-16 code units, as ECMAScript does. Different texts have different
code units (`units_injective`), so that the order is linear and a sorted list is determined by what
it contains (`sort_eq_sort_iff`).
-/

namespace CoreUtils.Utf16

/-- The code units of a character. -/
def unitsOf (c : Char) : List ℕ :=
  if c.toNat < 0x10000 then [c.toNat]
  else [0xD800 + (c.toNat - 0x10000) / 0x400, 0xDC00 + (c.toNat - 0x10000) % 0x400]

/-- The code units of a text. -/
def units (text : List Char) : List ℕ := text.flatMap unitsOf

/-- Code points are those of Unicode without the surrogates. -/
theorem toNat_valid (c : Char) : c.toNat < 0xD800 ∨ 0xDFFF < c.toNat ∧ c.toNat < 0x110000 := by
  have hvalid := c.valid
  simp only [UInt32.isValidChar, Nat.isValidChar] at hvalid
  exact hvalid

/-- The first character of a text can be told from the code units. -/
theorem unitsOf_append_inj {c d : Char} {x y : List ℕ} (h : unitsOf c ++ x = unitsOf d ++ y) :
    c = d ∧ x = y := by
  have hc := toNat_valid c
  have hd := toNat_valid d
  have hcode : c.toNat = d.toNat ∧ x = y := by
    unfold unitsOf at h
    split at h <;> split at h <;> simp only [List.cons_append, List.nil_append,
      List.cons.injEq] at h
    · exact h
    · omega
    · omega
    · exact ⟨by omega, h.2.2⟩
  exact ⟨Char.toNat_inj.mp hcode.1, hcode.2⟩

/-- Different texts have different code units. -/
theorem units_injective : Function.Injective units := by
  intro s
  induction s with
  | nil =>
      intro t h
      cases t with
      | nil => rfl
      | cons d t =>
          have hne : unitsOf d ≠ [] := by
            unfold unitsOf
            split <;> simp
          simp [units, hne] at h
  | cons c s ih =>
      intro t h
      cases t with
      | nil =>
          have hne : unitsOf c ≠ [] := by
            unfold unitsOf
            split <;> simp
          simp [units, hne] at h
      | cons d t =>
          obtain ⟨rfl, hrest⟩ := unitsOf_append_inj h
          rw [ih hrest]

/-- One text is not after another. -/
def le (s t : List Char) : Prop := units s ≤ units t

instance : DecidableRel le := fun s t ↦ inferInstanceAs (Decidable (units s ≤ units t))

instance : Std.Total le := ⟨fun s t ↦ le_total (units s) (units t)⟩

instance : IsTrans (List Char) le := ⟨fun _ _ _ hst htu ↦ le_trans hst htu⟩

instance : Std.Antisymm le := ⟨fun _ _ hst hts ↦ units_injective (le_antisymm hst hts)⟩

/-- `Array.prototype.toSorted` of texts. -/
def sort (texts : List (List Char)) : List (List Char) := texts.insertionSort le

/-- Sorted lists are equal when they contain the same texts, each as often. -/
theorem sort_eq_sort_iff {texts others : List (List Char)} :
    sort texts = sort others ↔ texts.Perm others := by
  have hperm : ∀ texts, (sort texts).Perm texts := List.perm_insertionSort le
  have hsorted : ∀ texts, (sort texts).Pairwise le := List.pairwise_insertionSort le
  constructor
  · intro h
    exact (hperm texts).symm.trans (h ▸ hperm others)
  · intro h
    have hsame := (hperm texts).trans (h.trans (hperm others).symm)
    exact hsame.eq_of_pairwise' (hsorted texts) (hsorted others)

end CoreUtils.Utf16
