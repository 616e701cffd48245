import CoreUtils.Library.HexText
import CoreUtils.Library.Json

/-!
# Quoted text

The texts that JSON writes in quotes can be read back, so that they delimit themselves: a quoted
text and what follows it can be told apart (`quote_append_inj`).
-/

namespace CoreUtils.Json

/-- The character that an escape begins with, and what follows it. -/
def readEscape : List Char → Option (Char × List Char)
  | 'n' :: rest => some ('\n', rest)
  | 'r' :: rest => some ('\r', rest)
  | 't' :: rest => some ('\t', rest)
  | 'b' :: rest => some ('\x08', rest)
  | 'f' :: rest => some ('\x0c', rest)
  | 'u' :: '0' :: '0' :: high :: low :: rest =>
      some (Char.ofNat (HexText.value [high, low]), rest)
  | c :: rest => some (c, rest)
  | [] => none

/-- The next character of a text in quotes, and what follows it: nothing at the closing quote. -/
def readChar : List Char → Option (Char × List Char)
  | '"' :: _ => none
  | '\\' :: rest => readEscape rest
  | c :: rest => some (c, rest)
  | [] => none

/-- An escaped character is read back. -/
theorem readChar_escapeChar (c : Char) (rest : List Char) :
    readChar (escapeChar c ++ rest) = some (c, rest) := by
  unfold escapeChar
  -- the characters that have an escape of their own
  iterate 7
    split
    · rename_i h
      rw [h]
      rfl
  split
  · rename_i hcontrol
    have hvalue : HexText.value [Nat.digitChar (c.toNat / 16), Nat.digitChar (c.toNat % 16)] =
        c.toNat := by
      have happend := HexText.value_append [Nat.digitChar (c.toNat / 16)]
        [Nat.digitChar (c.toNat % 16)]
      rw [HexText.value_digitChar (by omega), HexText.value_digitChar (by omega)] at happend
      exact happend.trans (by simp; omega)
    show some (Char.ofNat (HexText.value _), rest) = some (c, rest)
    rw [hvalue, Char.ofNat_toNat]
  · rename_i hquote hbackslash _ _ _ _ _ _
    show readChar (c :: rest) = some (c, rest)
    unfold readChar
    split
    · simp_all
    · simp_all
    · simp_all
    · contradiction

/-- Quoted texts with what follows them are told apart. -/
theorem quote_append_inj {s t x y : List Char} (h : quote s ++ x = quote t ++ y) :
    s = t ∧ x = y := by
  have hclosed : ∀ {s t : List Char}, s.flatMap escapeChar ++ '"' :: x =
      t.flatMap escapeChar ++ '"' :: y → s = t ∧ x = y := by
    intro s
    induction s with
    | nil =>
        intro t h
        cases t with
        | nil => exact ⟨rfl, (List.cons.inj h).2⟩
        | cons d t =>
            have hread := readChar_escapeChar d (t.flatMap escapeChar ++ '"' :: y)
            rw [← List.append_assoc, ← List.flatMap_cons, ← h] at hread
            contradiction
    | cons c s ih =>
        intro t h
        have hread := readChar_escapeChar c (s.flatMap escapeChar ++ '"' :: x)
        rw [← List.append_assoc, ← List.flatMap_cons, h] at hread
        cases t with
        | nil => contradiction
        | cons d t =>
            rw [List.flatMap_cons, List.append_assoc, readChar_escapeChar] at hread
            obtain ⟨rfl, hrest⟩ := Prod.mk.inj (Option.some.inj hread)
            obtain ⟨rfl, hxy⟩ := ih hrest.symm
            exact ⟨rfl, hxy⟩
  have htail : s.flatMap escapeChar ++ ['"'] ++ x = t.flatMap escapeChar ++ ['"'] ++ y :=
    (List.cons.inj h).2
  rw [List.append_assoc, List.append_assoc] at htail
  exact hclosed htail

end CoreUtils.Json
