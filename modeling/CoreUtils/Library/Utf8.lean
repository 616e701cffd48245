import Mathlib.Data.List.Basic
import Mathlib.Tactic.Common
import Mathlib.Tactic.IntervalCases

/-!
# UTF-8

The UTF-8 form of characters, told apart by its first byte, and the decoder of the encoding
standard: bytes that are no character's form are replaced, one replacement character for each
longest part that starts some form. Text that was encoded is decoded (`decode_encode`).
-/

namespace CoreUtils.Utf8

/-! ## Forms of characters -/


/-- The UTF-8 form of a code point. -/
def utf8Form (code : ℕ) : List ℕ :=
  if code < 0x80 then [code]
  else if code < 0x800 then [0xC0 + code / 64, 0x80 + code % 64]
  else if code < 0x10000 then [0xE0 + code / 4096, 0x80 + code / 64 % 64, 0x80 + code % 64]
  else [0xF0 + code / 262144, 0x80 + code / 4096 % 64, 0x80 + code / 64 % 64, 0x80 + code % 64]

/-- The UTF-8 form of a character. -/
def utf8Bytes (c : Char) : List ℕ := utf8Form c.toNat

/-- The number of bytes that a first byte announces. -/
def sequenceLength (first : ℕ) : Option ℕ :=
  if first < 0x80 then some 1
  else if first < 0xC0 then none
  else if first < 0xE0 then some 2
  else if first < 0xF0 then some 3
  else if first < 0xF8 then some 4
  else none

/-- The code point that the payload bits of a sequence spell. -/
def codeOfBytes : List ℕ → ℕ
  | [b₀] => b₀
  | [b₀, b₁] => (b₀ - 0xC0) * 64 + (b₁ - 0x80)
  | [b₀, b₁, b₂] => (b₀ - 0xE0) * 4096 + (b₁ - 0x80) * 64 + (b₂ - 0x80)
  | [b₀, b₁, b₂, b₃] =>
      (b₀ - 0xF0) * 262144 + (b₁ - 0x80) * 4096 + (b₂ - 0x80) * 64 + (b₃ - 0x80)
  | _ => 0

/-- The character with a UTF-8 form. A sequence that is no character's form (a wrong continuation,
an overlong form, a surrogate) is told by encoding the result again. -/
def charOfBytes (bytes : List ℕ) : Option Char :=
  let c := Char.ofNat (codeOfBytes bytes)
  if utf8Bytes c = bytes then some c else none

/-- Code points are below the end of Unicode. -/
theorem toNat_lt (c : Char) : c.toNat < 0x110000 := by
  have hvalid := c.valid
  simp only [UInt32.isValidChar, Nat.isValidChar] at hvalid
  show c.val.toNat < 0x110000
  omega

/-- The payload bits of a UTF-8 form are its code point. -/
theorem codeOfBytes_utf8Form (code : ℕ) : codeOfBytes (utf8Form code) = code := by
  have htwo : ∀ b₀ b₁, codeOfBytes [b₀, b₁] = (b₀ - 0xC0) * 64 + (b₁ - 0x80) := fun _ _ ↦ rfl
  have hthree : ∀ b₀ b₁ b₂, codeOfBytes [b₀, b₁, b₂] =
      (b₀ - 0xE0) * 4096 + (b₁ - 0x80) * 64 + (b₂ - 0x80) := fun _ _ _ ↦ rfl
  have hfour : ∀ b₀ b₁ b₂ b₃, codeOfBytes [b₀, b₁, b₂, b₃] =
      (b₀ - 0xF0) * 262144 + (b₁ - 0x80) * 4096 + (b₂ - 0x80) * 64 + (b₃ - 0x80) :=
    fun _ _ _ _ ↦ rfl
  unfold utf8Form
  split
  · rfl
  · split
    · simp only [htwo]
      omega
    · split
      · simp only [hthree]
        omega
      · simp only [hfour]
        omega

/-- The UTF-8 form of a character is decoded. -/
theorem charOfBytes_utf8Bytes (c : Char) : charOfBytes (utf8Bytes c) = some c := by
  have hchar : Char.ofNat (codeOfBytes (utf8Bytes c)) = c := by
    rw [utf8Bytes, codeOfBytes_utf8Form, Char.ofNat_toNat]
  unfold charOfBytes
  rw [hchar, if_pos rfl]

/-- The bytes of a character are bytes. -/
theorem utf8Bytes_lt {c : Char} {b : ℕ} (h : b ∈ utf8Bytes c) : b < 256 := by
  have hlt := toNat_lt c
  rw [utf8Bytes] at h
  unfold utf8Form at h
  split at h
  · have : b = c.toNat := by simpa using h
    omega
  · split at h
    · simp only [List.mem_cons, List.not_mem_nil, or_false] at h
      omega
    · split at h
      · simp only [List.mem_cons, List.not_mem_nil, or_false] at h
        omega
      · simp only [List.mem_cons, List.not_mem_nil, or_false] at h
        omega

/-- The first byte of a character announces the length of its form. -/
theorem sequenceLength_utf8Bytes (c : Char) :
    ∃ first rest, utf8Bytes c = first :: rest ∧
      sequenceLength first = some (utf8Bytes c).length := by
  have hlt := toNat_lt c
  rw [utf8Bytes]
  unfold utf8Form
  split
  · refine ⟨_, _, rfl, ?_⟩
    rw [sequenceLength, if_pos (by omega)]
    rfl
  · split
    · refine ⟨_, _, rfl, ?_⟩
      rw [sequenceLength, if_neg (by omega), if_neg (by omega), if_pos (by omega)]
      rfl
    · split
      · refine ⟨_, _, rfl, ?_⟩
        rw [sequenceLength, if_neg (by omega), if_neg (by omega), if_neg (by omega),
          if_pos (by omega)]
        rfl
      · refine ⟨_, _, rfl, ?_⟩
        rw [sequenceLength, if_neg (by omega), if_neg (by omega), if_neg (by omega),
          if_neg (by omega), if_pos (by omega)]
        rfl

/-! ## Decoding texts -/

/-- The bounds of the bytes that may follow a first byte. -/
def continuationBounds (first : ℕ) : List (ℕ × ℕ) :=
  let byte := (0x80, 0xBF)
  if first < 0xC2 then []
  else if first < 0xE0 then [byte]
  else if first = 0xE0 then [(0xA0, 0xBF), byte]
  else if first = 0xED then [(0x80, 0x9F), byte]
  else if first < 0xF0 then [byte, byte]
  else if first = 0xF0 then [(0x90, 0xBF), byte, byte]
  else if first < 0xF4 then [byte, byte, byte]
  else if first = 0xF4 then [(0x80, 0x8F), byte, byte]
  else []

/-- The number of bytes in front that stay within given bounds. -/
def withinBounds : List (ℕ × ℕ) → List ℕ → ℕ
  | (lower, upper) :: bounds, byte :: bytes =>
      if lower ≤ byte ∧ byte ≤ upper then withinBounds bounds bytes + 1 else 0
  | _, _ => 0

/-- The character at the front, and what follows it. -/
def charAtFront (bytes : List ℕ) : Option (Char × List ℕ) := do
  let first ← bytes.head?
  let count ← sequenceLength first
  let c ← charOfBytes (bytes.take count)
  return (c, bytes.drop count)

/-- The replacement character. -/
def replacement : Char := Char.ofNat 0xFFFD

/-- Decode with a bound on the number of characters. -/
def decodeUpTo : ℕ → List ℕ → List Char
  | 0, _ => []
  | _, [] => []
  | bound + 1, first :: rest =>
      match charAtFront (first :: rest) with
      | some (c, afterChar) => c :: decodeUpTo bound afterChar
      | none => replacement :: decodeUpTo bound
          (rest.drop (withinBounds (continuationBounds first) rest))

/-- Decode bytes, with replacement characters for those that are malformed. -/
def decode (bytes : List ℕ) : List Char := decodeUpTo bytes.length bytes

/-- The bytes of a text. -/
def encode (text : List Char) : List ℕ := text.flatMap utf8Bytes

/-- The form of a character at the front is read. -/
theorem charAtFront_utf8Bytes (c : Char) (rest : List ℕ) :
    charAtFront (utf8Bytes c ++ rest) = some (c, rest) := by
  obtain ⟨first, others, hbytes, hlength⟩ := sequenceLength_utf8Bytes c
  have hhead : (utf8Bytes c ++ rest).head? = some first := by rw [hbytes]; rfl
  simp [charAtFront, hhead, hlength, charOfBytes_utf8Bytes]

/-- Encoded text is decoded within a bound. -/
theorem decodeUpTo_encode (text : List Char) {bound : ℕ} (h : text.length ≤ bound) :
    decodeUpTo bound (encode text) = text := by
  induction text generalizing bound with
  | nil => cases bound <;> rfl
  | cons c text ih =>
      obtain ⟨less, rfl⟩ : ∃ less, bound = less + 1 :=
        ⟨bound - 1, by rw [List.length_cons] at h; omega⟩
      obtain ⟨first, others, hbytes, -⟩ := sequenceLength_utf8Bytes c
      have hfront := charAtFront_utf8Bytes c (encode text)
      have hrest := ih (Nat.le_of_succ_le_succ h)
      have hcons : encode (c :: text) = first :: (others ++ encode text) := by
        rw [encode, List.flatMap_cons, hbytes, List.cons_append]
        rfl
      rw [hbytes, List.cons_append] at hfront
      simp only [hcons, decodeUpTo, hfront, hrest]

/-- An encoded text has a byte for each character. -/
theorem length_le_encode (text : List Char) : text.length ≤ (encode text).length := by
  induction text with
  | nil => exact Nat.zero_le _
  | cons c text ih =>
      obtain ⟨first, others, hbytes, -⟩ := sequenceLength_utf8Bytes c
      rw [encode, List.flatMap_cons, List.length_append, List.length_cons, hbytes,
        List.length_cons]
      rw [encode] at ih
      omega

/-- Decoding undoes encoding. -/
theorem decode_encode (text : List Char) : decode (encode text) = text :=
  decodeUpTo_encode text (length_le_encode text)

/-- Encoded text consists of bytes. -/
theorem encode_lt {text : List Char} {byte : ℕ} (h : byte ∈ encode text) : byte < 256 := by
  obtain ⟨c, -, hbyte⟩ := List.mem_flatMap.mp h
  exact utf8Bytes_lt hbyte

end CoreUtils.Utf8
