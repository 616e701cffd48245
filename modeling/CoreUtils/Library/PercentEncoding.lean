import CoreUtils.Library.Utf8

/-!
# Percent encoding

`decodeURIComponent` of ECMAScript over lists of characters, and the percent encoding of RFC 3986
that it inverts (`decodeURIComponent_percentEncode`). An escape is a percent sign and two
hexadecimal digits; the escapes of one character are the bytes of its UTF-8 form, and any other
sequence of escapes makes decoding fail.
-/

namespace CoreUtils.PercentEncoding

open Utf8

/-! ## Escapes -/

/-- A hexadecimal digit, in upper case. -/
def hexDigit (value : ℕ) : Char :=
  if value < 10 then Char.ofNat (48 + value) else Char.ofNat (55 + value)

/-- The value of a hexadecimal digit in either case. -/
def hexValue (c : Char) : Option ℕ :=
  let code := c.toNat
  if 48 ≤ code ∧ code ≤ 57 then some (code - 48)
  else if 65 ≤ code ∧ code ≤ 70 then some (code - 55)
  else if 97 ≤ code ∧ code ≤ 102 then some (code - 87)
  else none

/-- Digits are read back. -/
theorem hexValue_hexDigit : ∀ value < 16, hexValue (hexDigit value) = some value := by decide

/-- The escape of a byte. -/
def escape (byte : ℕ) : List Char := ['%', hexDigit (byte / 16), hexDigit (byte % 16)]

/-- The byte of an escape at the front, and what follows it. -/
def escapedByte : List Char → Option (ℕ × List Char)
  | '%' :: high :: low :: rest =>
      match hexValue high, hexValue low with
      | some highValue, some lowValue => some (16 * highValue + lowValue, rest)
      | _, _ => none
  | _ => none

/-- An escape is read back. -/
theorem escapedByte_escape {byte : ℕ} (h : byte < 256) (rest : List Char) :
    escapedByte (escape byte ++ rest) = some (byte, rest) := by
  have hhigh := hexValue_hexDigit (byte / 16) (by omega)
  have hlow := hexValue_hexDigit (byte % 16) (by omega)
  simp only [escape, List.cons_append, List.nil_append, escapedByte, hhigh, hlow]
  rw [Nat.div_add_mod]

/-- A number of escapes in a row. -/
def escapedBytes : ℕ → List Char → Option (List ℕ × List Char)
  | 0, text => some ([], text)
  | count + 1, text => do
      let (byte, afterByte) ← escapedByte text
      let (bytes, rest) ← escapedBytes count afterByte
      return (byte :: bytes, rest)

/-- The escapes of bytes are read back. -/
theorem escapedBytes_flatMap {bytes : List ℕ} (h : ∀ byte ∈ bytes, byte < 256)
    (rest : List Char) :
    escapedBytes bytes.length (bytes.flatMap escape ++ rest) = some (bytes, rest) := by
  induction bytes with
  | nil => rfl
  | cons byte bytes ih =>
      have hbyte := h byte List.mem_cons_self
      have hbytes := ih fun other hother ↦ h other (List.mem_cons_of_mem _ hother)
      rw [List.length_cons, List.flatMap_cons, List.append_assoc, escapedBytes,
        escapedByte_escape hbyte]
      simp [hbytes]

/-- The character that escapes at the front spell, and what follows them. -/
def escapedChar (text : List Char) : Option (Char × List Char) := do
  let (first, _) ← escapedByte text
  let count ← sequenceLength first
  let (bytes, rest) ← escapedBytes count text
  let c ← charOfBytes bytes
  return (c, rest)

/-- The escapes of a character are read back. -/
theorem escapedChar_flatMap (c : Char) (rest : List Char) :
    escapedChar ((utf8Bytes c).flatMap escape ++ rest) = some (c, rest) := by
  obtain ⟨first, others, hbytes, hlength⟩ := sequenceLength_utf8Bytes c
  have hall := escapedBytes_flatMap (fun byte hbyte ↦ utf8Bytes_lt (c := c) hbyte) rest
  have hfirst : escapedByte ((utf8Bytes c).flatMap escape ++ rest) =
      some (first, others.flatMap escape ++ rest) := by
    rw [hbytes, List.flatMap_cons, List.append_assoc]
    exact escapedByte_escape (utf8Bytes_lt (hbytes ▸ List.mem_cons_self)) _
  simp [escapedChar, hfirst, hlength, hall, charOfBytes_utf8Bytes]

/-! ## Texts -/

/-- Decode with a bound on the number of characters. -/
def decodeUpTo : ℕ → List Char → Option (List Char)
  | _, [] => some []
  | 0, _ :: _ => none
  | bound + 1, c :: rest =>
      if c = '%' then do
        let (decoded, afterEscapes) ← escapedChar (c :: rest)
        let others ← decodeUpTo bound afterEscapes
        return decoded :: others
      else do
        let others ← decodeUpTo bound rest
        return c :: others

/-- `decodeURIComponent`; nothing stands for the `URIError` that it throws. -/
def decodeURIComponent (text : List Char) : Option (List Char) := decodeUpTo text.length text

/-- The characters that are not escaped. -/
def unreserved (c : Char) : Bool :=
  c.isAlphanum || c == '-' || c == '.' || c == '_' || c == '~'

/-- Percent-encode a character. -/
def percentEncodeChar (c : Char) : List Char :=
  if unreserved c then [c] else (utf8Bytes c).flatMap escape

/-- Percent-encode a text. -/
def percentEncode (text : List Char) : List Char := text.flatMap percentEncodeChar

/-- An encoded character is decoded in one step. -/
theorem decodeUpTo_percentEncodeChar (c : Char) (bound : ℕ) (rest : List Char) :
    decodeUpTo (bound + 1) (percentEncodeChar c ++ rest) =
      (decodeUpTo bound rest).map (c :: ·) := by
  unfold percentEncodeChar
  split
  · rename_i hunreserved
    have hne : c ≠ '%' := by
      rintro rfl
      exact absurd hunreserved (by decide)
    rw [List.singleton_append, decodeUpTo, if_neg hne]
    cases decodeUpTo bound rest <;> rfl
  · obtain ⟨first, others, hbytes, -⟩ := sequenceLength_utf8Bytes c
    have hescaped := escapedChar_flatMap c rest
    have hfront : (utf8Bytes c).flatMap escape ++ rest = '%' ::
        (hexDigit (first / 16) :: hexDigit (first % 16) :: (others.flatMap escape ++ rest)) := by
      simp [hbytes, escape]
    rw [hfront] at hescaped ⊢
    rw [decodeUpTo, if_pos rfl, hescaped]
    cases hrest : decodeUpTo bound rest <;> simp [hrest]

/-- An encoded text is decoded. -/
theorem decodeUpTo_percentEncode (text : List Char) {bound : ℕ} (h : text.length ≤ bound) :
    decodeUpTo bound (percentEncode text) = some text := by
  induction text generalizing bound with
  | nil => cases bound <;> rfl
  | cons c text ih =>
      obtain ⟨less, rfl⟩ : ∃ less, bound = less + 1 :=
        ⟨bound - 1, by rw [List.length_cons] at h; omega⟩
      have hrest := ih (Nat.le_of_succ_le_succ h)
      rw [percentEncode, List.flatMap_cons, decodeUpTo_percentEncodeChar]
      rw [percentEncode] at hrest
      rw [hrest]
      rfl

/-- An encoded character is not shorter. -/
theorem length_percentEncodeChar (c : Char) : 1 ≤ (percentEncodeChar c).length := by
  unfold percentEncodeChar
  split
  · exact le_rfl
  · obtain ⟨first, others, hbytes, -⟩ := sequenceLength_utf8Bytes c
    simp [hbytes, escape]

/-- An encoded text is not shorter. -/
theorem length_le_percentEncode (text : List Char) : text.length ≤ (percentEncode text).length := by
  induction text with
  | nil => exact Nat.zero_le _
  | cons c text ih =>
      have hchar := length_percentEncodeChar c
      rw [percentEncode, List.flatMap_cons, List.length_append, List.length_cons]
      rw [percentEncode] at ih
      omega

/-- Decoding undoes percent encoding. -/
theorem decodeURIComponent_percentEncode (text : List Char) :
    decodeURIComponent (percentEncode text) = some text :=
  decodeUpTo_percentEncode text (length_le_percentEncode text)

/-! ## Characters of encoded texts -/

/-- Digits are not escaped. -/
theorem unreserved_hexDigit : ∀ value < 16, unreserved (hexDigit value) = true := by decide

/-- An encoded text consists of percent signs and characters that are not escaped. -/
theorem mem_percentEncode {text : List Char} {c : Char} (h : c ∈ percentEncode text) :
    c = '%' ∨ unreserved c = true := by
  obtain ⟨source, -, hc⟩ := List.mem_flatMap.mp h
  unfold percentEncodeChar at hc
  split at hc
  · rename_i hunreserved
    exact .inr (List.mem_singleton.mp hc ▸ hunreserved)
  · obtain ⟨byte, hbyte, hescape⟩ := List.mem_flatMap.mp hc
    have hlt := utf8Bytes_lt hbyte
    simp only [escape, List.mem_cons, List.not_mem_nil, or_false] at hescape
    rcases hescape with rfl | rfl | rfl
    · exact .inl rfl
    · exact .inr (unreserved_hexDigit _ (by omega))
    · exact .inr (unreserved_hexDigit _ (by omega))

/-! ## What decoding uses up -/

/-- A text without percent signs is decoded as it is. -/
theorem decodeUpTo_of_not_mem {text : List Char} (h : '%' ∉ text) {bound : ℕ}
    (hbound : text.length ≤ bound) : decodeUpTo bound text = some text := by
  induction text generalizing bound with
  | nil => cases bound <;> rfl
  | cons c rest ih =>
      obtain ⟨less, rfl⟩ : ∃ less, bound = less + 1 :=
        ⟨bound - 1, by rw [List.length_cons] at hbound; omega⟩
      have hne : c ≠ '%' := by
        rintro rfl
        exact h List.mem_cons_self
      have hrest := ih (fun hmem ↦ h (List.mem_cons_of_mem _ hmem))
        (Nat.le_of_succ_le_succ hbound)
      simp [decodeUpTo, hne, hrest]

/-- The length of a text, with plus signs counted twice: a plus sign is what the escape of a plus
sign becomes, and what the next decoding turns into a blank. -/
def weight (text : List Char) : ℕ := text.length + text.count '+'

/-- A character adds one or two to the weight. -/
theorem weight_cons (c : Char) (text : List Char) :
    weight text + 1 ≤ weight (c :: text) ∧ weight (c :: text) ≤ weight text + 2 := by
  unfold weight
  rw [List.length_cons, List.count_cons]
  split <;> omega

/-- An escape is three characters. -/
theorem weight_escapedByte {text rest : List Char} {byte : ℕ}
    (h : escapedByte text = some (byte, rest)) : weight rest + 3 ≤ weight text := by
  unfold escapedByte at h
  split at h
  · rename_i high low after
    split at h
    · have hrest : after = rest := (Prod.mk.inj (Option.some.inj h)).2
      have hlow := (weight_cons low after).1
      have hhigh := (weight_cons high (low :: after)).1
      have hpercent := (weight_cons '%' (high :: low :: after)).1
      rw [← hrest]
      omega
    · simp at h
  · simp at h

/-- Escapes in a row are three characters each. -/
theorem weight_escapedBytes {count : ℕ} {text rest : List Char} {bytes : List ℕ}
    (h : escapedBytes count text = some (bytes, rest)) :
    weight rest + 3 * count ≤ weight text := by
  induction count generalizing text bytes with
  | zero =>
      have hrest : text = rest := (Prod.mk.inj (Option.some.inj h)).2
      rw [hrest]
      omega
  | succ count ih =>
      simp only [escapedBytes, Option.bind_eq_bind, Option.bind_eq_some_iff, Option.pure_def,
        Option.some.injEq, Prod.mk.injEq, Prod.exists] at h
      obtain ⟨byte, afterByte, hbyte, bytes', rest', hbytes, -, rfl⟩ := h
      have hfirst := weight_escapedByte hbyte
      have hothers := ih hbytes
      omega

/-- A character that is announced has at least one byte. -/
theorem sequenceLength_pos {first count : ℕ} (h : sequenceLength first = some count) :
    1 ≤ count := by
  unfold sequenceLength at h
  split at h
  · exact (Option.some.inj h).le
  · split at h
    · simp at h
    · split at h
      · exact (Option.some.inj h) ▸ by decide
      · split at h
        · exact (Option.some.inj h) ▸ by decide
        · split at h
          · exact (Option.some.inj h) ▸ by decide
          · simp at h

/-- The escapes of a character are at least three characters. -/
theorem weight_escapedChar {text rest : List Char} {c : Char}
    (h : escapedChar text = some (c, rest)) : weight rest + 3 ≤ weight text := by
  simp only [escapedChar, Option.bind_eq_bind, Option.bind_eq_some_iff, Option.pure_def,
    Option.some.injEq, Prod.mk.injEq, Prod.exists] at h
  obtain ⟨first, _, -, count, hcount, bytes, rest', hbytes, _, -, -, rfl⟩ := h
  have hpos := sequenceLength_pos hcount
  have hweight := weight_escapedBytes hbytes
  omega

/-- Decoding does not add to the weight, and each escape reduces it. -/
theorem weight_decodeUpTo {bound : ℕ} {text decoded : List Char}
    (h : decodeUpTo bound text = some decoded) :
    weight decoded ≤ weight text ∧ ('%' ∈ text → weight decoded < weight text) := by
  induction bound generalizing text decoded with
  | zero =>
      cases text with
      | nil =>
          obtain rfl : [] = decoded := Option.some.inj h
          exact ⟨le_rfl, by simp⟩
      | cons c rest => simp [decodeUpTo] at h
  | succ bound ih =>
      cases text with
      | nil =>
          obtain rfl : [] = decoded := Option.some.inj h
          exact ⟨le_rfl, by simp⟩
      | cons c rest =>
          by_cases hpercent : c = '%'
          · simp only [decodeUpTo, hpercent, if_true, Option.bind_eq_bind, Option.bind_eq_some_iff,
              Option.pure_def, Option.some.injEq, Prod.exists] at h
            obtain ⟨first, afterEscapes, hchar, others, hothers, rfl⟩ := h
            have hescaped := weight_escapedChar hchar
            have hrest := (ih hothers).1
            have hfirst := (weight_cons first others).2
            rw [hpercent]
            omega
          · simp only [decodeUpTo, hpercent, if_false, Option.bind_eq_bind,
              Option.bind_eq_some_iff, Option.pure_def, Option.some.injEq] at h
            obtain ⟨others, hothers, rfl⟩ := h
            obtain ⟨hle, hlt⟩ := ih hothers
            have hcount : ∀ text : List Char, weight (c :: text) = weight text + weight [c] := by
              intro text
              simp only [weight, List.length_cons, List.count_cons, List.length_nil,
                List.count_nil]
              omega
            rw [hcount others, hcount rest]
            refine ⟨by omega, fun hmem ↦ ?_⟩
            have := hlt ((List.mem_cons.mp hmem).resolve_left (Ne.symm hpercent))
            omega

end CoreUtils.PercentEncoding
