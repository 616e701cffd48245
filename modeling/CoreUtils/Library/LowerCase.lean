import Mathlib.Data.Char
import Mathlib.Data.List.Basic
import Mathlib.Tactic.Common

/-!
# Lower case

What may be relied on of `String.prototype.toLowerCase`. Every character has a form of its own: an
ASCII character its ASCII lower case, and any other character a text whose only ASCII characters are
`i` and `k`, of which U+0130 and U+212A have one. Which form a character takes may depend on the
characters around it, as that of sigma does.
-/

namespace CoreUtils.LowerCase

/-- A lower-case form of a character. -/
def Form (c : Char) (form : List Char) : Prop :=
  if c.toNat < 128 then form = [c.toLower]
  else form ≠ [] ∧ ∀ d ∈ form, d.toNat < 128 → d = 'i' ∨ d = 'k'

/-- A text and a lower-case form of it. -/
inductive Lowered : List Char → List Char → Prop where
  | nil : Lowered [] []
  | cons {c : Char} {form s t : List Char} :
      Form c form → Lowered s t → Lowered (c :: s) (form ++ t)

/-- An ASCII character that is no letter. -/
def IsMark (c : Char) : Prop := c.toNat < 128 ∧ c.isAlpha = false

/-- Whether a character is such a one can be checked. -/
instance (c : Char) : Decidable (IsMark c) := inferInstanceAs (Decidable (_ ∧ _))

/-! ## Characters -/

/-- What holds of every ASCII code holds of every ASCII character. -/
theorem forall_ascii {p : Char → Prop} (h : ∀ n < 128, p (Char.ofNat n)) {c : Char}
    (hc : c.toNat < 128) : p c := by
  have hcode := h c.toNat hc
  rwa [Char.ofNat_toNat] at hcode

/-- A character is its own lower case, or an ASCII letter. -/
theorem toLower_eq_or (c : Char) : c.toLower = c ∨ c.toNat < 128 := by
  by_cases hupper : c.val ≥ 'A'.val ∧ c.val ≤ 'Z'.val
  · right
    have hle : c.toNat ≤ 90 := UInt32.le_iff_toNat_le.mp hupper.2
    omega
  · left
    exact dif_neg hupper

/-- What holds of characters that stay the same, and of ASCII characters, holds of all. -/
theorem forall_toLower {p : Char → Char → Prop} (hsame : ∀ c, p c c)
    (hascii : ∀ n < 128, p (Char.ofNat n) (Char.ofNat n).toLower) (c : Char) : p c c.toLower := by
  rcases toLower_eq_or c with heq | hlt
  · rw [heq]
    exact hsame c
  · exact forall_ascii (p := fun c ↦ p c c.toLower) hascii hlt

/-- A character that is not upper-case is its own lower case. -/
theorem toLower_of_not_isUpper {c : Char} (h : c.isUpper = false) : c.toLower = c :=
  dif_neg (of_decide_eq_false h)

/-- ASCII letters become lower-case letters, and other ASCII characters do not become letters. -/
theorem ascii_toLower {c : Char} (hc : c.toNat < 128) :
    c.toLower.isUpper = false ∧ c.toLower.isLower = c.isAlpha :=
  forall_ascii (p := fun c ↦ c.toLower.isUpper = false ∧ c.toLower.isLower = c.isAlpha)
    (by decide +kernel) hc

/-- A mark has no case. -/
theorem IsMark.toLower_eq {c : Char} (h : IsMark c) : c.toLower = c :=
  toLower_of_not_isUpper (Bool.or_eq_false_iff.mp h.2).1

/-- Only the ASCII letters change. -/
theorem eq_of_toLower {c d : Char} (hc : c.toNat < 128) (hd : IsMark d) (h : c.toLower = d) :
    c = d := by
  have halpha := (ascii_toLower hc).2
  rw [h, (Bool.or_eq_false_iff.mp hd.2).2] at halpha
  rw [← h, toLower_of_not_isUpper (Bool.or_eq_false_iff.mp halpha.symm).1]

/-- A mark is the form of itself only. -/
theorem Form.eq_of_mem {c d : Char} {form : List Char} (h : Form c form) (hd : IsMark d)
    (hmem : d ∈ form) : c = d ∧ form = [d] := by
  unfold Form at h
  split at h
  · rename_i hascii
    rw [h, List.mem_singleton] at hmem
    have hsame := eq_of_toLower hascii hd hmem.symm
    exact ⟨hsame, by rw [h, ← hmem]⟩
  · rcases h.2 d hmem hd.1 with rfl | rfl
    · exact absurd hd (by decide)
    · exact absurd hd (by decide)

/-- No form is empty. -/
theorem Form.ne_nil {c : Char} {form : List Char} (h : Form c form) : form ≠ [] := by
  unfold Form at h
  split at h
  · rw [h]
    exact List.cons_ne_nil _ _
  · exact h.1

/-! ## Texts -/

variable {s t x y : List Char} {d : Char}

/-- Only the empty text has an empty form. -/
theorem Lowered.eq_nil (h : Lowered s []) : s = [] := by
  generalize ht : ([] : List Char) = t at h
  cases h with
  | nil => rfl
  | cons hform _ => exact absurd (List.append_eq_nil_iff.mp ht.symm).1 hform.ne_nil

/-- A mark in a form stands at the same place in the text. -/
theorem Lowered.split (hd : IsMark d) (h : Lowered s (x ++ d :: y)) :
    ∃ before after, s = before ++ d :: after ∧ Lowered before x ∧ Lowered after y := by
  generalize ht : x ++ d :: y = t at h
  induction h generalizing x with
  | nil => simp at ht
  | @cons c form s t hform hrest ih =>
      rcases List.append_eq_append_iff.mp ht with ⟨between, hbefore, hafter⟩ | ⟨between, hx, hrest'⟩
      · -- the mark belongs to the form of this character, or is the first after it
        cases between with
        | nil =>
            obtain ⟨before, after, rfl, hbefore', hafter'⟩ := ih (x := []) hafter
            obtain rfl := hbefore'.eq_nil
            have hx : x = form := by simpa using hbefore.symm
            refine ⟨[c], after, rfl, ?_, hafter'⟩
            simpa [hx] using Lowered.cons hform Lowered.nil
        | cons first between =>
            obtain ⟨rfl, hafter⟩ := List.cons.inj hafter
            obtain ⟨rfl, hsingle⟩ := hform.eq_of_mem hd (by rw [hbefore]; simp)
            have hparts : x = [] ∧ between = [] := by
              rw [hsingle] at hbefore
              cases x with
              | nil => exact ⟨rfl, by simpa using hbefore.symm⟩
              | cons other x => simp at hbefore
            obtain ⟨rfl, rfl⟩ := hparts
            have hy : y = t := by simpa using hafter
            exact ⟨[], s, rfl, Lowered.nil, hy ▸ hrest⟩
      · obtain ⟨before, after, rfl, hbefore, hafter⟩ := ih hrest'.symm
        exact ⟨c :: before, after, rfl, hx ▸ Lowered.cons hform hbefore, hafter⟩

/-- A form of a text after another is made of forms of both. -/
theorem Lowered.append_left {s' : List Char} (h : Lowered (s ++ s') t) :
    ∃ x y, t = x ++ y ∧ Lowered s x ∧ Lowered s' y := by
  induction s generalizing t with
  | nil => exact ⟨[], t, rfl, .nil, h⟩
  | cons c s ih =>
      rw [List.cons_append] at h
      cases h with
      | @cons _ form _ rest hform hrest =>
          obtain ⟨x, y, rfl, hx, hy⟩ := ih hrest
          exact ⟨form ++ x, y, (List.append_assoc _ _ _).symm, .cons hform hx, hy⟩

/-- A mark is its only form. -/
theorem Lowered.singleton (hd : IsMark d) (h : Lowered [d] t) : t = [d] := by
  cases h with
  | cons hform hrest =>
      cases hrest
      rw [Form, if_pos hd.1, hd.toLower_eq] at hform
      rw [hform, List.append_nil]

/-- A form has the marks of the text. -/
theorem Lowered.mem_iff (hd : IsMark d) (h : Lowered s t) : d ∈ t ↔ d ∈ s := by
  constructor
  · intro hmem
    obtain ⟨x, y, rfl⟩ := List.append_of_mem hmem
    obtain ⟨before, after, rfl, -, -⟩ := h.split hd
    simp
  · intro hmem
    induction h with
    | nil => exact hmem
    | @cons c form s t hform hrest ih =>
        rcases List.mem_cons.mp hmem with rfl | hmem
        · refine List.mem_append_left _ ?_
          rw [Form, if_pos hd.1, hd.toLower_eq] at hform
          rw [hform]
          exact List.mem_singleton_self _
        · exact List.mem_append_right _ (ih hmem)

/-- A form has no upper-case ASCII letters. -/
theorem Lowered.not_upper (h : Lowered s t) {c : Char} (hc : c ∈ t) (hascii : c.toNat < 128) :
    c.isUpper = false := by
  induction h with
  | nil => simp at hc
  | @cons d form s t hform hrest ih =>
      rcases List.mem_append.mp hc with hmem | hmem
      · unfold Form at hform
        split at hform
        · rename_i hd
          rw [hform, List.mem_singleton] at hmem
          rw [hmem]
          exact (ascii_toLower hd).1
        · rcases hform.2 c hmem hascii with rfl | rfl <;> rfl
      · exact ih hmem

/-- A form of ASCII characters other than `i` and `k` is the ASCII lower case of the text. -/
theorem Lowered.eq_map (h : Lowered s t)
    (ht : ∀ c ∈ t, c.toNat < 128 ∧ c ≠ 'i' ∧ c ≠ 'k') : t = s.map Char.toLower := by
  induction h with
  | nil => rfl
  | @cons c form s t hform hrest ih =>
      rw [List.map_cons, ih fun c hc ↦ ht c (List.mem_append_right _ hc)]
      by_cases hascii : c.toNat < 128
      · rw [Form, if_pos hascii] at hform
        rw [hform, List.singleton_append]
      · rw [Form, if_neg hascii] at hform
        obtain ⟨d, hd⟩ := List.exists_mem_of_ne_nil form hform.1
        obtain ⟨hlt, hi, hk⟩ := ht d (List.mem_append_left _ hd)
        exact absurd (hform.2 d hd hlt) (by simp [hi, hk])

/-- A text of ASCII characters that are no upper-case letters is its only form. -/
theorem Lowered.eq_self (h : Lowered s t)
    (hs : ∀ c ∈ s, c.toNat < 128 ∧ c.isUpper = false) : t = s := by
  induction h with
  | nil => rfl
  | @cons c form s t hform hrest ih =>
      obtain ⟨hascii, hupper⟩ := hs c List.mem_cons_self
      rw [Form, if_pos hascii, toLower_of_not_isUpper hupper] at hform
      rw [hform, ih fun c hc ↦ hs c (List.mem_cons_of_mem _ hc), List.singleton_append]

/-- The ASCII lower case of a text is a form of it. -/
theorem lowered_map (s : List Char) : Lowered s (s.map Char.toLower) := by
  induction s with
  | nil => exact Lowered.nil
  | cons c s ih =>
      have hform : Form c [c.toLower] := by
        unfold Form
        split
        · rfl
        · rename_i hascii
          have hsame : c.toLower = c := (toLower_eq_or c).resolve_right hascii
          refine ⟨List.cons_ne_nil _ _, fun d hd hlt ↦ ?_⟩
          rw [List.mem_singleton.mp hd, hsame] at hlt
          exact absurd hlt hascii
      exact Lowered.cons hform ih

end CoreUtils.LowerCase
