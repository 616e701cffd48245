import CoreUtils.Reporter.AttemptResult
import CoreUtils.Reporter.NetworkProcessing

/-!
# Texts of the report

How `textProcessing.ts` cuts a text to a number of UTF-16 code units. A cut inside a surrogate pair
leaves a lone half, which no `String` holds; the replacement character stands for it, which takes
one code unit as well.
-/

namespace CoreUtils.Reporter.Trace

/-- The text of a member, if it is a text. -/
def stringOf (value : Option Json) : Option String := (asString value).map String.ofList

/-- The character of a code unit outside of a surrogate pair. -/
def charOfUnit (unit : UInt16) : Char :=
  if Nat.isValidChar unit.toNat then Char.ofNat unit.toNat else Utf8.replacement

/-- Whether two code units are the halves of a surrogate pair. -/
def isSurrogatePair (high low : UInt16) : Bool :=
  0xD800 ≤ high.toNat && high.toNat < 0xDC00 && 0xDC00 ≤ low.toNat && low.toNat < 0xE000

/-- The text of code units. -/
def ofCodeUnits : CodeUnits → Text
  | [] => []
  | [unit] => [charOfUnit unit]
  | high :: low :: rest =>
      if isSurrogatePair high low then
        Char.ofNat (0x10000 + (high.toNat - 0xD800) * 0x400 + (low.toNat - 0xDC00)) ::
          ofCodeUnits rest
      else charOfUnit high :: ofCodeUnits (low :: rest)

/-- The `length` of a text: the number of its code units. -/
def lengthOf (text : String) : ℕ := (toCodeUnits text.toList).length

/-- `capText` of a text. -/
def capString (value : String) (limit : ℕ) : String :=
  if lengthOf value ≤ limit then value
  else
    let room := limit - TRUNCATION_MARKER.length
    String.ofList (ofCodeUnits ((toCodeUnits value.toList).take room) ++ "[truncated]".toList)

/-- The greatest length of a message of the console. -/
def CONSOLE_TEXT_CAP : ℕ := 2048

/-- A message of the console, cut at its greatest length. -/
def capConsoleMessageText (text : String) : String := capString text CONSOLE_TEXT_CAP

/-! ## Lengths -/

theorem to_code_units_append (s t : Text) : toCodeUnits (s ++ t) = toCodeUnits s ++ toCodeUnits t :=
  List.flatMap_append

theorem to_code_units_cons (c : Char) (t : Text) :
    toCodeUnits (c :: t) = codeUnitsOf c ++ toCodeUnits t := rfl

/-- The code of a character. -/
theorem to_nat_of_valid {code : ℕ} (h : code.isValidChar) : (Char.ofNat code).toNat = code := by
  rw [Char.ofNat, dif_pos h]
  rfl

/-- A character of the basic plane takes one code unit. -/
theorem length_char_of_unit (unit : UInt16) : (codeUnitsOf (charOfUnit unit)).length = 1 := by
  have hunit : unit.toNat < 0x10000 := unit.toNat_lt
  have hsmall : (charOfUnit unit).toNat < 0x10000 := by
    unfold charOfUnit
    split
    next hvalid =>
      rw [to_nat_of_valid hvalid]
      exact hunit
    next => decide
  rw [codeUnitsOf, if_pos hsmall, List.length_singleton]

/-- The character of a surrogate pair takes two code units. -/
theorem length_char_of_pair {high low : UInt16} (h : isSurrogatePair high low) :
    (codeUnitsOf (Char.ofNat
      (0x10000 + (high.toNat - 0xD800) * 0x400 + (low.toNat - 0xDC00)))).length = 2 := by
  simp only [isSurrogatePair, Bool.and_eq_true, decide_eq_true_eq] at h
  obtain ⟨⟨⟨hhigh, hhigh'⟩, hlow⟩, hlow'⟩ := h
  have hvalid : (0x10000 + (high.toNat - 0xD800) * 0x400 + (low.toNat - 0xDC00)).isValidChar := by
    refine Or.inr ⟨by omega, by omega⟩
  rw [codeUnitsOf, to_nat_of_valid hvalid, if_neg (by omega)]
  rfl

/-- The text of code units has as many code units. -/
theorem length_of_code_units (units : CodeUnits) :
    (toCodeUnits (ofCodeUnits units)).length = units.length := by
  fun_induction ofCodeUnits units with
  | case1 => rfl
  | case2 unit =>
      rw [to_code_units_cons, List.length_append, length_char_of_unit]
      rfl
  | case3 high low rest hpair ih =>
      rw [to_code_units_cons, List.length_append, length_char_of_pair hpair, ih, List.length_cons,
        List.length_cons]
      omega
  | case4 high low rest hpair ih =>
      rw [to_code_units_cons, List.length_append, length_char_of_unit, ih]
      simp only [List.length_cons]
      omega

/-- The marker at the end of a cut text. -/
theorem length_marker_text : (toCodeUnits "[truncated]".toList).length = 11 := by
  show (toCodeUnits _).length = _
  rw [show "[truncated]".toList = _ from String.toList_ofList]
  decide

/-- A capped text fits, if there is room for the marker. -/
theorem length_cap_string_le (value : String) {limit : ℕ} (h : 11 ≤ limit) :
    lengthOf (capString value limit) ≤ limit := by
  unfold capString
  split
  next hfits => exact hfits
  next hlong =>
    rw [lengthOf, String.toList_ofList, to_code_units_append, List.length_append,
      length_of_code_units, length_marker_text, List.length_take]
    have hmarker : TRUNCATION_MARKER.length = 11 := length_marker_text
    omega

end CoreUtils.Reporter.Trace
