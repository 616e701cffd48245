import CoreUtils.Library.IpAddress
import CoreUtils.Library.Text
import Mathlib.Algebra.Order.Floor.Semiring
import Mathlib.Data.Int.Log
import Mathlib.Data.Rat.Floor
import Mathlib.Tactic.Linarith
import Mathlib.Tactic.Positivity

/-!
# Numbers written as text

The conversion of text to a number in ECMAScript: decimal literals with an optional sign, fraction
and exponent, and integers with the prefixes `0x`, `0o` and `0b`, with white space around them. The
value is the double nearest to the number that is written, as a rational number; `NaN` and the
infinities are no values. Natural numbers below `2 ^ 53` are doubles (`roundToDouble_natCast`). The
text of a double has as few digits as lead back to it (`toText`).
-/

namespace CoreUtils.NumericText

open Ip

/-! ## Doubles -/

/-- The nearest integer, the even one of two. -/
def roundHalfEven (q : ℚ) : ℤ :=
  let below := ⌊q⌋
  if q - below < 1 / 2 then below
  else if 1 / 2 < q - below then below + 1
  else if below % 2 = 0 then below
  else below + 1

/-- The distance of the doubles around a number: their significands have 53 bits, and no exponent is
less than that of the normal numbers. -/
def spacing (q : ℚ) : ℚ := 2 ^ (max (Int.log 2 |q|) (-1022) - 52)

/-- The double nearest to a number, unless that is an infinity. -/
def roundToDouble (q : ℚ) : Option ℚ :=
  let nearest := roundHalfEven (q / spacing q) * spacing q
  if |nearest| < 2 ^ 1024 then some nearest else none

/-- An integer is its own nearest integer. -/
theorem roundHalfEven_intCast (n : ℤ) : roundHalfEven n = n := by
  simp [roundHalfEven]

/-- The spacing of doubles is positive. -/
theorem spacing_pos (q : ℚ) : 0 < spacing q := zpow_pos (by norm_num) _

/-- The spacing around a natural number. -/
theorem spacing_natCast (n : ℕ) : spacing n = 2 ^ ((Nat.log 2 n : ℤ) - 52) := by
  have hlog : max (Int.log 2 |(n : ℚ)|) (-1022) = Nat.log 2 n := by
    rw [Nat.abs_cast, Int.log_natCast]
    omega
  rw [spacing, hlog]

/-- Natural numbers below `2 ^ 53` are doubles. -/
theorem roundToDouble_natCast {n : ℕ} (h : n < 2 ^ 53) : roundToDouble n = some (n : ℚ) := by
  have hlog : Nat.log 2 n ≤ 52 := by
    rcases Nat.eq_zero_or_pos n with rfl | hpos
    · simp
    · exact Nat.lt_succ_iff.mp (Nat.log_lt_of_lt_pow hpos.ne' h)
  have hcount : ((n * 2 ^ (52 - Nat.log 2 n) : ℕ) : ℤ) * spacing n = (n : ℚ) := by
    have hpower : (2 : ℚ) ^ (52 - Nat.log 2 n) * 2 ^ ((Nat.log 2 n : ℤ) - 52) = 1 := by
      rw [← zpow_natCast, ← zpow_add₀ (by norm_num)]
      have hzero : ((52 - Nat.log 2 n : ℕ) : ℤ) + ((Nat.log 2 n : ℤ) - 52) = 0 := by omega
      rw [hzero, zpow_zero]
    rw [spacing_natCast]
    push_cast
    rw [mul_assoc, hpower, mul_one]
  have hquotient : (n : ℚ) / spacing n = ((n * 2 ^ (52 - Nat.log 2 n) : ℕ) : ℤ) := by
    rw [div_eq_iff (spacing_pos _).ne', hcount]
  have hsmall : |(n : ℚ)| < 2 ^ 1024 := by
    have hle : (n : ℚ) < 2 ^ 53 := by exact_mod_cast h
    rw [Nat.abs_cast]
    exact hle.trans (pow_lt_pow_right₀ (by norm_num) (by norm_num))
  rw [roundToDouble, hquotient, roundHalfEven_intCast, hcount, if_pos hsmall]

/-- The value of a digit of a radix. -/
def digitOf (radix : ℕ) (c : Char) : Option ℕ := (hexDigit c).filter (· < radix)

/-- The number that digits of a radix spell; there is at least one. -/
def parseDigits (radix : ℕ) (text : List Char) : Option ℕ :=
  if text = [] then none else (text.mapM (digitOf radix)).map (ofDigits radix)

/-- The exponent of a decimal literal, which may be missing. -/
def parseExponent : List Char → Option ℤ
  | [] => some 0
  | [_] => none
  | _ :: sign :: digits =>
      if sign = '-' then (parseDigits 10 digits).map fun exponent ↦ -(exponent : ℤ)
      else if sign = '+' then (parseDigits 10 digits).map (↑·)
      else (parseDigits 10 (sign :: digits)).map (↑·)

/-- Whether a character starts an exponent. -/
def isExponentMark (c : Char) : Bool := c == 'e' || c == 'E'

/-- A decimal literal without a sign: digits with a point among them, and an exponent. -/
def parseDecimal (text : List Char) : Option ℚ := do
  let significand := text.takeWhile (!isExponentMark ·)
  let exponent ← parseExponent (text.dropWhile (!isExponentMark ·))
  let fraction := (significand.dropWhile (· ≠ '.')).tail
  let digits ← parseDigits 10 (significand.takeWhile (· ≠ '.') ++ fraction)
  return digits * 10 ^ (exponent - fraction.length)

/-- A decimal literal with an optional sign. An infinity is no value. -/
def parseSigned : List Char → Option ℚ
  | '+' :: text => parseDecimal text
  | '-' :: text => (parseDecimal text).map (-·)
  | text => parseDecimal text

/-- The number that is written in a text without white space around it. -/
def parseLiteral : List Char → Option ℚ
  | [] => some 0
  | '0' :: 'x' :: digits | '0' :: 'X' :: digits => (parseDigits 16 digits).map (↑·)
  | '0' :: 'o' :: digits | '0' :: 'O' :: digits => (parseDigits 8 digits).map (↑·)
  | '0' :: 'b' :: digits | '0' :: 'B' :: digits => (parseDigits 2 digits).map (↑·)
  | text => parseSigned text

/-- The number of a text, if it is finite. -/
def number (text : List Char) : Option ℚ :=
  (parseLiteral (Text.trim Text.isWhiteSpace text)).bind roundToDouble

/-! ## Numbers as text -/

/-- The integer and the exponent of ten that the text of a positive double is made of: with as few
digits as possible the number is rounded to the double, and it is the nearest such number. -/
def shortest (q : ℚ) : Option (ℕ × ℤ) :=
  (List.range 17).findSome? fun more ↦
    let exponent := Int.log 10 q - more
    let scaled := q / 10 ^ exponent
    [roundHalfEven scaled, ⌊scaled⌋, ⌈scaled⌉].findSome? fun significand : ℤ ↦
      if roundToDouble (significand * 10 ^ exponent) = some q then
        some (significand.toNat, exponent)
      else none

/-- The digits of an integer without the zeros at its end. -/
def significantDigits (significand : ℕ) : List Char :=
  ((toString significand).toList.reverse.dropWhile (· = '0')).reverse

/-- The exponent of a text in scientific form. -/
def exponentText (exponent : ℤ) : List Char :=
  (if exponent < 0 then '-' else '+') :: (toString exponent.natAbs).toList

/-- The text of digits whose point stands after a number of them. -/
def placePoint (digits : List Char) (point : ℤ) : List Char :=
  if digits.length ≤ point ∧ point ≤ 21 then
    digits ++ List.replicate (point - digits.length).toNat '0'
  else if 0 < point ∧ point ≤ 21 then
    digits.take point.toNat ++ '.' :: digits.drop point.toNat
  else if -6 < point ∧ point ≤ 0 then
    "0.".toList ++ List.replicate (-point).toNat '0' ++ digits
  else
    match digits with
    | [] => []
    | [digit] => digit :: 'e' :: exponentText (point - 1)
    | digit :: rest => digit :: '.' :: rest ++ 'e' :: exponentText (point - 1)

/-- The text of a positive double. -/
def positiveText (q : ℚ) : List Char :=
  match shortest q with
  | none => []
  | some (significand, exponent) =>
      placePoint (significantDigits significand)
        ((toString significand).length + exponent)

/-- The text of a double. -/
def toText (q : ℚ) : List Char :=
  if q = 0 then ['0'] else if q < 0 then '-' :: positiveText (-q) else positiveText q

/-- Whether a text is the text of a number. -/
def isCanonical (text : List Char) : Bool :=
  ["-0", "NaN", "Infinity", "-Infinity"].any (·.toList = text) ||
    (number text).any fun q ↦ toText q = text

/-! ## Decimal digits -/

/-- A text of decimal digits, and of at least one. -/
def IsDecimal (text : List Char) : Prop := text ≠ [] ∧ ∀ c ∈ text, c.isDigit = true

/-- Whether a text is decimal can be checked. -/
instance (text : List Char) : Decidable (IsDecimal text) :=
  @instDecidableAnd _ _ inferInstance (List.decidableBAll _ text)

variable {c : Char} {text : List Char}

/-- What a decimal digit is. -/
theorem toNat_of_isDigit (h : c.isDigit = true) : 48 ≤ c.toNat ∧ c.toNat ≤ 57 := by
  simpa [Char.isDigit, UInt32.le_iff_toNat_le] using h

end CoreUtils.NumericText
