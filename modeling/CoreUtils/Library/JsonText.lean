import CoreUtils.Library.NumericText
import CoreUtils.Library.QuotedText

/-!
# Reading JSON text

A reader for the texts that `JSON.stringify` writes, without white space. It reads every value that
can be written (`parse_stringify`), so that different values are written differently.
-/

namespace CoreUtils.Json

/-- The finite numbers. -/
def IsDouble (value : ℚ) : Prop := NumericText.roundToDouble value = some value

/-- A character that may follow a value. -/
def isDelimiter (c : Char) : Bool := c == ',' || c == ']' || c == '}'

/-- How finite numbers are written and read. -/
structure NumberFormat where
  text : ℚ → List Char
  read : List Char → Option ℚ
  read_text : ∀ value, IsDouble value → read (text value) = some value
  head_text : ∀ value, ∃ c rest, text value = c :: rest ∧ (c.isDigit = true ∨ c = '-')
  not_isDelimiter : ∀ value, ∀ c ∈ text value, isDelimiter c = false

/-- The values that can be written and read again. -/
inductive Serializable : Json → Prop where
  | null : Serializable .null
  | bool (value : Bool) : Serializable (.bool value)
  | number {value : ℚ} (h : IsDouble value) : Serializable (.number value)
  | string (value : List Char) : Serializable (.string value)
  | array {values : List Json} (h : ∀ value ∈ values, Serializable value) :
      Serializable (.array values)
  | object {members : List (List Char × Json)} (hkeys : (members.map Prod.fst).Nodup)
      (h : ∀ member ∈ members, Serializable member.2) : Serializable (.object members)

/-- A finite number. -/
abbrev Double := {value : ℚ // IsDouble value}

/-- An object can be written and read again when its members can. -/
theorem serializable_objectOf {members : List (List Char × Option Json)}
    (hkeys : (members.map Prod.fst).Nodup)
    (h : ∀ key value, (key, some value) ∈ members → Serializable value) :
    Serializable (objectOf members) :=
  .object (hkeys.sublist (map_fst_present_sublist members)) fun member hmember ↦
    h member.1 member.2 (mem_present.mp hmember)

/-! ## The reader -/

/-- The text up to a closing quote, and what follows it. -/
def readText : ℕ → List Char → Option (List Char × List Char)
  | 0, _ => none
  | count + 1, text =>
      match readChar text with
      | some (c, rest) => (readText count rest).map fun result ↦ (c :: result.1, result.2)
      | none => if text.head? = some '"' then some ([], text.tail) else none

/-- One or more items up to a closing character, with commas between them. -/
def readItems {α : Type} (read : List Char → Option (α × List Char)) (close : Char) :
    ℕ → List Char → Option (List α × List Char)
  | 0, _ => none
  | count + 1, text =>
      (read text).bind fun (item, rest) ↦
        if rest.head? = some ',' then
          (readItems read close count rest.tail).map fun result ↦ (item :: result.1, result.2)
        else if rest.head? = some close then some ([item], rest.tail)
        else none

/-- A list of items behind its opening character. -/
def readList {α : Type} (read : List Char → Option (α × List Char)) (close : Char)
    (text : List Char) : Option (List α × List Char) :=
  if text.head? = some close then some ([], text.tail) else readItems read close text.length text

/-- A member of an object. -/
def readMember (read : List Char → Option (Json × List Char)) (text : List Char) :
    Option ((List Char × Json) × List Char) :=
  if text.head? = some '"' then
    (readText text.length text.tail).bind fun (key, rest) ↦
      if rest.head? = some ':' then
        (read rest.tail).map fun result ↦ ((key, result.1), result.2)
      else none
  else none

/-- A word that stands for a value. -/
def readWord (word : String) (value : Json) (text : List Char) : Option (Json × List Char) :=
  if word.toList.isPrefixOf text then some (value, text.drop word.toList.length) else none

variable (format : NumberFormat)

/-- A number. -/
def readNumber (text : List Char) : Option (Json × List Char) :=
  (format.read (text.takeWhile (!isDelimiter ·))).map fun value ↦
    (.number value, text.dropWhile (!isDelimiter ·))

/-- A value and what follows it, with lists nested less than `depth` deep. -/
def readValue : ℕ → List Char → Option (Json × List Char)
  | 0, _ => none
  | depth + 1, text =>
      let rest := text.tail
      match text.head? with
      | some 'n' => readWord "null" .null text
      | some 't' => readWord "true" (.bool true) text
      | some 'f' => readWord "false" (.bool false) text
      | some '"' => (readText text.length rest).map fun result ↦ (.string result.1, result.2)
      | some '[' => (readList (readValue depth) ']' rest).map fun result ↦
          (.array result.1, result.2)
      | some '{' => (readList (readMember (readValue depth)) '}' rest).map fun result ↦
          (.object result.1, result.2)
      | _ => readNumber format text

/-- The value of a whole text. -/
def parse (text : List Char) : Option Json :=
  (readValue format text.length text).bind fun (value, rest) ↦
    if rest = [] then some value else none

/-! ## Texts and lists -/

/-- Escaping makes no text shorter. -/
theorem length_le_flatMap_escapeChar (s : List Char) :
    s.length ≤ (s.flatMap escapeChar).length := by
  have hescape : ∀ c, 1 ≤ (escapeChar c).length := by
    intro c
    unfold escapeChar
    split_ifs <;> simp
  induction s with
  | nil => simp
  | cons c s ih =>
      have hc := hescape c
      rw [List.flatMap_cons, List.length_append, List.length_cons]
      omega

/-- A text is read up to its closing quote. -/
theorem readText_quote (s rest : List Char) {count : ℕ} (h : s.length < count) :
    readText count (s.flatMap escapeChar ++ '"' :: rest) = some (s, rest) := by
  induction s generalizing count with
  | nil =>
      obtain ⟨count, rfl⟩ := Nat.exists_eq_add_one_of_ne_zero (Nat.ne_of_gt h)
      simp [readText, readChar]
  | cons c s ih =>
      obtain ⟨count, rfl⟩ := Nat.exists_eq_add_one_of_ne_zero (Nat.ne_of_gt (Nat.zero_lt_of_lt h))
      rw [List.flatMap_cons, List.append_assoc, readText, readChar_escapeChar]
      simp only [ih (Nat.lt_of_succ_lt_succ h), Option.map_some]

section Items

variable {α : Type} {read : List Char → Option (α × List Char)} {write : α → List Char}
  {close : Char} {items : List α}

/-- There are as many commas as items, but one. -/
theorem length_le_intercalate (texts : List (List Char)) :
    texts.length ≤ ([','].intercalate texts).length + 1 := by
  induction texts with
  | nil => simp
  | cons first rest ih =>
      cases rest with
      | nil => simp
      | cons second rest =>
          rw [List.intercalate_cons_cons, List.length_append, List.length_append]
          simp only [List.length_cons, List.length_nil] at ih ⊢
          omega

/-- Items are read up to the closing character when each item is read up to what follows it. -/
theorem readItems_intercalate (hclose : close ≠ ',') (hne : items ≠ [])
    (hread : ∀ item ∈ items, ∀ rest, (∀ c ∈ rest.head?, c = ',' ∨ c = close) →
      read (write item ++ rest) = some (item, rest))
    {count : ℕ} (hcount : items.length ≤ count) (rest : List Char) :
    readItems read close count ([','].intercalate (items.map write) ++ close :: rest) =
      some (items, rest) := by
  induction items generalizing count with
  | nil => exact absurd rfl hne
  | cons item tail ih =>
      obtain ⟨count, rfl⟩ := Nat.exists_eq_add_one_of_ne_zero
        (Nat.ne_of_gt (Nat.zero_lt_of_lt hcount))
      obtain ⟨hitem, htail⟩ := List.forall_mem_cons.mp hread
      cases tail with
      | nil =>
          rw [List.map_singleton, List.intercalate_singleton, readItems, hitem _ (by simp)]
          simp [hclose]
      | cons next tail =>
          have hrest := ih (List.cons_ne_nil next tail) htail (Nat.le_of_succ_le_succ hcount)
          rw [List.map_cons, List.map_cons, List.intercalate_cons_cons, ← List.map_cons,
            List.append_assoc, List.append_assoc, readItems, hitem _ (by simp)]
          simp only [Option.bind_some, List.singleton_append, List.head?_cons, if_true,
            List.tail_cons, hrest, Option.map_some]

/-- A list is read when no item begins with the closing character. -/
theorem readList_intercalate (hclose : close ≠ ',')
    (hhead : ∀ item ∈ items, ∃ c text, write item = c :: text ∧ c ≠ close)
    (hread : ∀ item ∈ items, ∀ rest, (∀ c ∈ rest.head?, c = ',' ∨ c = close) →
      read (write item ++ rest) = some (item, rest)) (rest : List Char) :
    readList read close ([','].intercalate (items.map write) ++ close :: rest) =
      some (items, rest) := by
  cases items with
  | nil => simp [readList]
  | cons item tail =>
      obtain ⟨c, text, hitem, hc⟩ := hhead item List.mem_cons_self
      have hfirst : ([','].intercalate ((item :: tail).map write) ++ close :: rest).head? ≠
          some close := by
        cases tail <;> simp [hitem, hc]
      rw [readList, if_neg hfirst]
      refine readItems_intercalate hclose (List.cons_ne_nil item tail) hread ?_ rest
      have hlength := length_le_intercalate ((item :: tail).map write)
      rw [List.length_map] at hlength
      simp only [List.length_append, List.length_cons] at hlength ⊢
      omega

end Items

/-! ## Values -/

/-- A value begins with a character that neither separates nor closes. -/
theorem head_stringify (json : Json) :
    ∃ c text, stringify format.text json = c :: text ∧ isDelimiter c = false := by
  cases json with
  | null => exact ⟨'n', _, rfl, by decide⟩
  | bool value => cases value <;> exact ⟨_, _, rfl, by decide⟩
  | infinite negative => exact ⟨'n', _, rfl, by decide⟩
  | number value =>
      obtain ⟨c, text, htext, -⟩ := format.head_text value
      exact ⟨c, text, htext, format.not_isDelimiter value c (htext ▸ List.mem_cons_self)⟩
  | string value => exact ⟨'"', _, rfl, by decide⟩
  | array values => exact ⟨'[', _, rfl, by decide⟩
  | object members => exact ⟨'{', _, rfl, by decide⟩

/-- A number is read up to a character that may follow it. -/
theorem readNumber_text {value : ℚ} (h : IsDouble value) {rest : List Char}
    (hrest : ∀ c ∈ rest.head?, isDelimiter c = true) :
    readNumber format (format.text value ++ rest) = some (.number value, rest) := by
  have hplain : ∀ c ∈ format.text value, (!isDelimiter c) = true := fun c hc ↦ by
    simp [format.not_isDelimiter value c hc]
  have hstop : rest.takeWhile (!isDelimiter ·) = [] ∧ rest.dropWhile (!isDelimiter ·) = rest := by
    cases rest with
    | nil => exact ⟨rfl, rfl⟩
    | cons c rest => simp [hrest c rfl]
  rw [readNumber, List.takeWhile_append_of_pos hplain, List.dropWhile_append_of_pos hplain,
    hstop.1, hstop.2, List.append_nil, format.read_text value h, Option.map_some]

/-- A value that begins like a number is a number. -/
theorem readValue_of_number {c : Char} (hc : c.isDigit = true ∨ c = '-') (depth : ℕ)
    (text : List Char) :
    readValue format (depth + 1) (c :: text) = readNumber format (c :: text) := by
  rw [readValue, List.head?_cons]
  split
  all_goals first
    | rfl
    | rename_i hword
      obtain rfl := Option.some.inj hword
      exact absurd hc (by decide)

/-- What stands between commas is not longer than the whole. -/
theorem length_le_of_mem_intercalate {texts : List (List Char)} {text : List Char}
    (h : text ∈ texts) : text.length ≤ ([','].intercalate texts).length := by
  induction texts with
  | nil => contradiction
  | cons first rest ih =>
      cases rest with
      | nil => simp [List.mem_singleton.mp h]
      | cons second rest =>
          rw [List.intercalate_cons_cons, List.length_append, List.length_append]
          rcases List.mem_cons.mp h with rfl | hrest
          · omega
          · have hle := ih hrest
            omega

/-- A member of an object is read when its value is. -/
theorem readMember_quote {read : List Char → Option (Json × List Char)} (key : List Char)
    {value : Json} {text rest : List Char} (h : read (text ++ rest) = some (value, rest)) :
    readMember read (quote key ++ ':' :: text ++ rest) = some ((key, value), rest) := by
  have hlength := length_le_flatMap_escapeChar key
  have hkey : readText (quote key ++ ':' :: text ++ rest).length
      (key.flatMap escapeChar ++ '"' :: (':' :: text ++ rest)) =
        some (key, ':' :: text ++ rest) := by
    refine readText_quote key _ ?_
    simp only [quote, List.cons_append, List.length_cons, List.length_append]
    omega
  have hsplit : (quote key ++ ':' :: text ++ rest).tail =
      key.flatMap escapeChar ++ '"' :: (':' :: text ++ rest) := by
    simp [quote]
  rw [readMember, hsplit, hkey]
  simp [quote, h]

/-- What is written is read, and what follows it is left. -/
theorem readValue_stringify {depth : ℕ} {json : Json} (h : Serializable json)
    (hdepth : (stringify format.text json).length ≤ depth) {rest : List Char}
    (hrest : ∀ c ∈ rest.head?, isDelimiter c = true) :
    readValue format depth (stringify format.text json ++ rest) = some (json, rest) := by
  induction depth generalizing json rest with
  | zero =>
      obtain ⟨c, text, htext, -⟩ := head_stringify format json
      simp [htext] at hdepth
  | succ depth ih =>
      cases h with
      | null => simp [stringify, readValue, readWord]
      | bool value => cases value <;> simp [stringify, readValue, readWord]
      | number hvalue =>
          rename_i value
          obtain ⟨c, text, htext, hc⟩ := format.head_text value
          have hread := readNumber_text format hvalue hrest
          rw [htext, List.cons_append] at hread
          rw [stringify, htext, List.cons_append, readValue_of_number format hc, hread]
      | string value =>
          have hsplit : stringify format.text (.string value) ++ rest =
              '"' :: (value.flatMap escapeChar ++ '"' :: rest) := by
            simp [stringify, quote]
          have hlength : value.length <
              ('"' :: (value.flatMap escapeChar ++ '"' :: rest)).length := by
            have hescaped := length_le_flatMap_escapeChar value
            simp only [List.length_cons, List.length_append]
            omega
          rw [hsplit, readValue, List.head?_cons, List.tail_cons]
          simp only [readText_quote value rest hlength, Option.map_some]
      | array hvalues =>
          rename_i values
          have hsplit : stringify format.text (.array values) ++ rest =
              '[' :: ([','].intercalate (values.map (stringify format.text)) ++ ']' :: rest) := by
            simp [stringify_array]
          have hread : ∀ value ∈ values, ∀ rest, (∀ c ∈ rest.head?, c = ',' ∨ c = ']') →
              readValue format depth (stringify format.text value ++ rest) =
                some (value, rest) := by
            intro value hvalue rest hrest
            refine ih (hvalues value hvalue) ?_ fun c hc ↦ ?_
            · have hle := length_le_of_mem_intercalate
                (List.mem_map_of_mem (f := stringify format.text) hvalue)
              rw [stringify_array, List.length_cons, List.length_append] at hdepth
              omega
            · rcases hrest c hc with rfl | rfl <;> decide
          have hhead : ∀ value ∈ values, ∃ c text, stringify format.text value = c :: text ∧
              c ≠ ']' := by
            intro value _
            obtain ⟨c, text, htext, hc⟩ := head_stringify format value
            exact ⟨c, text, htext, fun heq ↦ by simp [heq, isDelimiter] at hc⟩
          rw [hsplit, readValue, List.head?_cons, List.tail_cons]
          simp only [readList_intercalate (by decide) hhead hread rest, Option.map_some]
      | object hkeys hmembers =>
          rename_i members
          have hsplit : stringify format.text (.object members) ++ rest =
              '{' :: ([','].intercalate (members.map fun entry ↦
                quote entry.1 ++ ':' :: stringify format.text entry.2) ++ '}' :: rest) := by
            simp [stringify_object]
          have hread : ∀ entry ∈ members, ∀ rest, (∀ c ∈ rest.head?, c = ',' ∨ c = '}') →
              readMember (readValue format depth)
                  (quote entry.1 ++ ':' :: stringify format.text entry.2 ++ rest) =
                some (entry, rest) := by
            intro entry hentry rest hrest
            refine readMember_quote entry.1 (ih (hmembers entry hentry) ?_ fun c hc ↦ ?_)
            · have hle := length_le_of_mem_intercalate (List.mem_map_of_mem
                (f := fun entry ↦ quote entry.1 ++ ':' :: stringify format.text entry.2) hentry)
              rw [stringify_object, List.length_cons, List.length_append] at hdepth
              rw [List.length_append, List.length_cons] at hle
              omega
            · rcases hrest c hc with rfl | rfl <;> decide
          have hhead : ∀ entry ∈ members, ∃ c text,
              quote entry.1 ++ ':' :: stringify format.text entry.2 = c :: text ∧ c ≠ '}' :=
            fun entry _ ↦ ⟨'"', _, rfl, by decide⟩
          rw [hsplit, readValue, List.head?_cons, List.tail_cons]
          simp only [readList_intercalate (by decide) hhead hread rest, Option.map_some]

/-- Every value is read as it was written. -/
theorem parse_stringify {json : Json} (h : Serializable json) :
    parse format (stringify format.text json) = some json := by
  have hread : readValue format (stringify format.text json).length
      (stringify format.text json ++ []) = some (json, []) :=
    readValue_stringify format h le_rfl (by simp)
  rw [List.append_nil] at hread
  simp [parse, hread]

/-- Different values are written differently. -/
theorem stringify_inj {json json' : Json} (h : Serializable json) (h' : Serializable json')
    (heq : stringify format.text json = stringify format.text json') : json = json' := by
  have hparse := parse_stringify format h
  rw [heq, parse_stringify format h'] at hparse
  exact (Option.some.inj hparse).symm

/-! ## Fractions -/

/-- A number as a fraction of decimals; an integer has no denominator. -/
def fractionText (value : ℚ) : List Char :=
  (if value.num < 0 then ['-'] else []) ++ (Nat.toDigits 10 value.num.natAbs ++
    if value.den = 1 then [] else '/' :: Nat.toDigits 10 value.den)

/-- The number that a fraction is. -/
def readFraction (text : List Char) : Option ℚ :=
  let digits := text.dropWhile (· = '-')
  let numerator := Nat.ofDigitChars 10 (digits.takeWhile (· ≠ '/')) 0
  let denominator := (digits.dropWhile (· ≠ '/')).tail
  let size : ℚ := numerator / (if denominator = [] then 1 else Nat.ofDigitChars 10 denominator 0)
  some (if text.head? = some '-' then -size else size)

/-- The digits of a number. -/
theorem isDigit_of_mem_toDigits {n : ℕ} {c : Char} (h : c ∈ Nat.toDigits 10 n) :
    c.isDigit = true :=
  Nat.isDigit_of_mem_toDigits (by decide) (by decide) h

/-- A digit is not another character. -/
theorem ne_of_digit {c d : Char} (hc : c.isDigit = true) (hd : d.isDigit = false) : c ≠ d := by
  rintro rfl
  simp [hc] at hd

/-- A fraction begins with a digit or a sign. -/
theorem head_fractionText (value : ℚ) :
    ∃ c rest, fractionText value = c :: rest ∧ (c.isDigit = true ∨ c = '-') := by
  obtain ⟨c, rest, hdigits⟩ := List.exists_cons_of_ne_nil
    (Nat.toDigits_ne_nil (n := value.num.natAbs) (b := 10))
  have hc : c.isDigit = true := isDigit_of_mem_toDigits (hdigits ▸ List.mem_cons_self)
  unfold fractionText
  split
  · exact ⟨'-', _, rfl, .inr rfl⟩
  · rw [hdigits]
    exact ⟨c, _, rfl, .inl hc⟩

/-- A fraction consists of digits, a sign and a slash. -/
theorem not_isDelimiter_fractionText (value : ℚ) :
    ∀ c ∈ fractionText value, isDelimiter c = false := by
  have hdigits : ∀ n, ∀ c ∈ Nat.toDigits 10 n, isDelimiter c = false := by
    intro n c hc
    have hdigit := isDigit_of_mem_toDigits hc
    simp [isDelimiter, ne_of_digit hdigit]
  intro c hc
  rw [fractionText, List.mem_append, List.mem_append] at hc
  rcases hc with hsign | hnumerator | hdenominator
  · split at hsign
    · rw [List.mem_singleton.mp hsign]
      decide
    · contradiction
  · exact hdigits _ c hnumerator
  · split at hdenominator
    · contradiction
    · rcases List.mem_cons.mp hdenominator with rfl | hmem
      · decide
      · exact hdigits _ c hmem

/-- A fraction is read as it was written. -/
theorem readFraction_fractionText (value : ℚ) : readFraction (fractionText value) = some value := by
  obtain ⟨c, rest, hfirst⟩ := List.exists_cons_of_ne_nil
    (Nat.toDigits_ne_nil (n := value.num.natAbs) (b := 10))
  have hc : c ≠ '-' :=
    ne_of_digit (isDigit_of_mem_toDigits (hfirst ▸ List.mem_cons_self)) (by decide)
  have hplain : ∀ c ∈ Nat.toDigits 10 value.num.natAbs, decide (c ≠ '/') = true := fun c hc ↦
    decide_eq_true (ne_of_digit (isDigit_of_mem_toDigits hc) (by decide))
  generalize htail : (if value.den = 1 then [] else '/' :: Nat.toDigits 10 value.den) = tail
  have hnumerator : Nat.ofDigitChars 10 (Nat.toDigits 10 value.num.natAbs) 0 =
      value.num.natAbs := Nat.ofDigitChars_toDigits (by decide) (by decide)
  have hdenominator : Nat.ofDigitChars 10 (Nat.toDigits 10 value.den) 0 = value.den :=
    Nat.ofDigitChars_toDigits (by decide) (by decide)
  have hsize : ((Nat.ofDigitChars 10
      ((Nat.toDigits 10 value.num.natAbs ++ tail).takeWhile (· ≠ '/')) 0 : ℕ) : ℚ) /
      (if ((Nat.toDigits 10 value.num.natAbs ++ tail).dropWhile (· ≠ '/')).tail = [] then 1
        else Nat.ofDigitChars 10
          ((Nat.toDigits 10 value.num.natAbs ++ tail).dropWhile (· ≠ '/')).tail 0) =
      value.num.natAbs / value.den := by
    rw [List.takeWhile_append_of_pos hplain, List.dropWhile_append_of_pos hplain, ← htail]
    by_cases hinteger : value.den = 1
    · rw [if_pos hinteger, hinteger]
      simp [hnumerator]
    · rw [if_neg hinteger]
      simp [hnumerator, hdenominator]
  have hvalue : (value.num : ℚ) / value.den = value := Rat.num_div_den value
  unfold readFraction fractionText
  rw [htail]
  by_cases hnegative : value.num < 0
  · have habs : (value.num.natAbs : ℚ) = -value.num := by
      rw [← Int.cast_natCast, Int.ofNat_natAbs_of_nonpos hnegative.le, Int.cast_neg]
    have hdrop : ('-' :: (Nat.toDigits 10 value.num.natAbs ++ tail)).dropWhile (· = '-') =
        Nat.toDigits 10 value.num.natAbs ++ tail := by
      simp [hfirst, hc]
    rw [if_pos hnegative, List.singleton_append]
    simp only [hdrop, hsize, List.head?_cons, if_true]
    rw [habs, neg_div, hvalue, neg_neg]
  · have habs : (value.num.natAbs : ℚ) = value.num := by
      rw [← Int.cast_natCast, Int.natAbs_of_nonneg (not_lt.mp hnegative)]
    have hdrop : (Nat.toDigits 10 value.num.natAbs ++ tail).dropWhile (· = '-') =
        Nat.toDigits 10 value.num.natAbs ++ tail := by
      simp [hfirst, hc]
    have hhead : (Nat.toDigits 10 value.num.natAbs ++ tail).head? ≠ some '-' := by
      simp [hfirst, hc]
    rw [if_neg hnegative, List.nil_append]
    simp only [hdrop, hsize, hhead, if_false]
    rw [habs, hvalue]

/-- Numbers written as fractions. -/
def fractions : NumberFormat where
  text := fractionText
  read := readFraction
  read_text value _ := readFraction_fractionText value
  head_text := head_fractionText
  not_isDelimiter := not_isDelimiter_fractionText

end CoreUtils.Json
