import Mathlib.Data.List.Basic
import Mathlib.Data.List.Induction
import Mathlib.Tactic.Common
import Mathlib.Tactic.Ring

/-!
# Lower-case hexadecimal text

Texts of hexadecimal digits and their values. `Spells` says that a text spells a number in some
width; it is spelled by the padded digits of the number (`spells_leftpad`) and by two digits for
each byte (`spells_ofBytes`).
-/

namespace CoreUtils.HexText

/-- The digits, by their values. -/
def digits : List Char := "0123456789abcdef".toList

/-- Whether a character is a digit. -/
def isHexDigit (c : Char) : Bool := digits.contains c

/-- The number that a text spells. -/
def value (text : List Char) : ℕ := text.foldl (fun value c ↦ 16 * value + digits.idxOf c) 0

/-- A text spells a number in a number of digits. -/
structure Spells (width n : ℕ) (text : List Char) : Prop where
  length : text.length = width
  digits : text.all isHexDigit = true
  value : value text = n

/-- The two digits of a byte. -/
def ofByte (byte : UInt8) : List Char :=
  [Nat.digitChar (byte.toNat / 16), Nat.digitChar (byte.toNat % 16)]

/-- Two digits for each byte. -/
def ofBytes (bytes : List UInt8) : List Char := bytes.flatMap ofByte

variable {s t text : List Char} {width n : ℕ}

/-- Every digit has its character. -/
theorem digitChar_spec : ∀ n < 16,
    isHexDigit (Nat.digitChar n) = true ∧ digits.idxOf (Nat.digitChar n) = n := by decide

/-- A digit is ASCII and no upper-case letter. -/
theorem isHexDigit_ascii {c : Char} (h : isHexDigit c = true) :
    32 < c.toNat ∧ c.toNat < 128 ∧ c.isUpper = false := by
  have hall : digits.all (fun c ↦ 32 < c.toNat && c.toNat < 128 && !c.isUpper) = true := by decide
  simpa [and_assoc] using List.all_eq_true.mp hall c (List.contains_iff_mem.mp h)

/-- The value of a text that goes on from a value. -/
theorem foldl_value (start : ℕ) (text : List Char) :
    text.foldl (fun value c ↦ 16 * value + digits.idxOf c) start =
      start * 16 ^ text.length + value text := by
  induction text generalizing start with
  | nil => simp [value]
  | cons c rest ih =>
      have hvalue : value (c :: rest) = digits.idxOf c * 16 ^ rest.length + value rest := by
        show rest.foldl _ (16 * 0 + digits.idxOf c) = _
        rw [ih, Nat.mul_zero, Nat.zero_add]
      rw [List.foldl_cons, ih, hvalue, List.length_cons, pow_succ]
      ring

/-- The value of two texts one after the other. -/
theorem value_append (s t : List Char) : value (s ++ t) = value s * 16 ^ t.length + value t := by
  show (s ++ t).foldl _ 0 = _
  rw [List.foldl_append]
  exact foldl_value (value s) t

/-- The value of a single digit. -/
theorem value_digitChar {n : ℕ} (h : n < 16) : value [Nat.digitChar n] = n := by
  show 16 * 0 + digits.idxOf (Nat.digitChar n) = n
  rw [(digitChar_spec n h).2, Nat.mul_zero, Nat.zero_add]

/-- Texts one after the other. -/
theorem Spells.append {width' n' : ℕ} (h : Spells width n s) (h' : Spells width' n' t) :
    Spells (width + width') (n * 16 ^ width' + n') (s ++ t) where
  length := by rw [List.length_append, h.length, h'.length]
  digits := by rw [List.all_append, h.digits, h'.digits, Bool.and_self]
  value := by rw [value_append, h.value, h'.value, h'.length]

/-- A single digit. -/
theorem spells_digitChar {n : ℕ} (h : n < 16) : Spells 1 n [Nat.digitChar n] where
  length := rfl
  digits := by
    rw [List.all_cons, List.all_nil, (digitChar_spec n h).1, Bool.and_self]
  value := value_digitChar h

/-- Zeros. -/
theorem spells_replicate (width : ℕ) : Spells width 0 (List.replicate width '0') := by
  induction width with
  | zero => exact ⟨rfl, rfl, rfl⟩
  | succ width ih =>
      have hzero : Spells 1 0 ['0'] := spells_digitChar (n := 0) (by omega)
      have hall := hzero.append ih
      rw [Nat.zero_mul, Nat.add_comm 1 width] at hall
      exact hall

/-- The digits of a number spell it. -/
theorem spells_toDigits (n : ℕ) : Spells (Nat.toDigits 16 n).length n (Nat.toDigits 16 n) := by
  induction n using Nat.strongRecOn with
  | ind n ih =>
      rcases Nat.lt_or_ge n 16 with hlt | hge
      · rw [Nat.toDigits_of_lt_base hlt]
        exact spells_digitChar hlt
      · have hhigh := ih (n / 16) (by omega)
        have hall := hhigh.append (spells_digitChar (n := n % 16) (by omega))
        have hvalue : n / 16 * 16 ^ 1 + n % 16 = n := by omega
        rw [Nat.toDigits_of_base_le (by omega) hge, List.length_append]
        rw [hvalue] at hall
        exact hall

/-- The digits of a number, padded with zeros to a width that has room for them. -/
theorem spells_leftpad (hwidth : 0 < width) (hn : n < 16 ^ width) :
    Spells width n ((Nat.toDigits 16 n).leftpad width '0') := by
  have hlength := (Nat.length_toDigits_le_iff (b := 16) (by omega) hwidth).mpr hn
  have hall := (spells_replicate (width - (Nat.toDigits 16 n).length)).append (spells_toDigits n)
  have hsum : width - (Nat.toDigits 16 n).length + (Nat.toDigits 16 n).length = width := by omega
  rw [hsum, Nat.zero_mul, Nat.zero_add] at hall
  exact hall

/-- The digits of a byte. -/
theorem spells_ofByte (byte : UInt8) : Spells 2 byte.toNat (ofByte byte) := by
  have hbyte := byte.toNat_lt
  have hhigh := spells_digitChar (n := byte.toNat / 16) (by omega)
  have hall := hhigh.append (spells_digitChar (n := byte.toNat % 16) (by omega))
  have hvalue : byte.toNat / 16 * 16 ^ 1 + byte.toNat % 16 = byte.toNat := by omega
  rw [hvalue] at hall
  exact hall

/-- The digits of bytes. -/
theorem spells_ofBytes (bytes : List UInt8) :
    Spells (2 * bytes.length)
      (bytes.foldl (fun value byte ↦ 256 * value + byte.toNat) 0) (ofBytes bytes) := by
  induction bytes using List.reverseRecOn with
  | nil => exact ⟨rfl, rfl, rfl⟩
  | append_singleton bytes byte ih =>
      have hall := ih.append (spells_ofByte byte)
      have hbytes : ofBytes (bytes ++ [byte]) = ofBytes bytes ++ ofByte byte := by
        simp [ofBytes]
      rw [hbytes, List.foldl_append, List.length_append]
      have hvalue : ∀ start, start * 16 ^ 2 + byte.toNat = 256 * start + byte.toNat := by
        intro start
        omega
      rw [hvalue] at hall
      exact hall

/-- The digits of a text that is not empty. -/
theorem value_concat (text : List Char) (c : Char) :
    value (text ++ [c]) = value text * 16 + digits.idxOf c := by
  rw [value_append, List.length_singleton, pow_one]
  show value text * 16 + (16 * 0 + digits.idxOf c) = value text * 16 + digits.idxOf c
  omega

/-- Two texts of a width that spell the same number are the same. -/
theorem Spells.unique (h : Spells width n s) (h' : Spells width n t) : s = t := by
  induction s using List.reverseRecOn generalizing width n t with
  | nil =>
      have hlength := h.length.trans h'.length.symm
      exact (List.length_eq_zero_iff.mp hlength.symm).symm
  | append_singleton front c ih =>
      rcases t.eq_nil_or_concat with rfl | ⟨front', c', rfl⟩
      · have hlength := h.length.trans h'.length.symm
        simp at hlength
      · rw [List.concat_eq_append] at h' ⊢
        have hfront := h.digits
        have hfront' := h'.digits
        rw [List.all_append, Bool.and_eq_true] at hfront hfront'
        have hc : c ∈ HexText.digits := by simpa [isHexDigit] using hfront.2
        have hc' : c' ∈ HexText.digits := by simpa [isHexDigit] using hfront'.2
        have hvalue := h.value.trans h'.value.symm
        rw [value_concat, value_concat] at hvalue
        have hidx : HexText.digits.idxOf c < 16 := List.idxOf_lt_length_iff.mpr hc
        have hidx' : HexText.digits.idxOf c' < 16 := List.idxOf_lt_length_iff.mpr hc'
        have hlength := h.length.trans h'.length.symm
        simp only [List.length_append, List.length_singleton] at hlength
        have hsame : front = front' :=
          ih ⟨rfl, hfront.1, rfl⟩ ⟨by omega, hfront'.1, by omega⟩
        have hlast : c = c' := (List.idxOf_inj hc).mp (by omega)
        rw [hsame, hlast]

/-- The text of zeros is the one that spells zero. -/
theorem Spells.eq_zeros_iff (h : Spells width n text) :
    text = List.replicate width '0' ↔ n = 0 := by
  constructor
  · intro heq
    have hvalue := h.value
    rw [heq, (spells_replicate width).value] at hvalue
    exact hvalue.symm
  · rintro rfl
    exact h.unique (spells_replicate width)

end CoreUtils.HexText
