import Mathlib.Algebra.Ring.Nat
import Mathlib.Data.List.Basic
import Mathlib.Tactic.Common

/-!
# Layout of byte sequences

Pieces of a sequence at an offset (`At`) and little-endian numbers (`littleEndian`). A record is a
concatenation of pieces; `At.left` and `At.right` lead from the place of a record to the places of
its fields, and `readAt_eq` and `slice_eq` read what stands there.
-/

namespace CoreUtils.ByteLayout

section Pieces

variable {α : Type*}

/-- A piece stands at an offset of a sequence. -/
def At (whole : List α) (offset : ℕ) (piece : List α) : Prop :=
  ∃ front back, whole = front ++ (piece ++ back) ∧ front.length = offset

/-- The part of a sequence between two offsets. -/
def slice (whole : List α) (start stop : ℕ) : List α := (whole.drop start).take (stop - start)

variable {whole piece other : List α} {offset : ℕ}

/-- A piece stands where it was put. -/
theorem At.intro (front piece back : List α) : At (front ++ (piece ++ back)) front.length piece :=
  ⟨front, back, rfl, rfl⟩

/-- The first part of a piece stands where the piece stands. -/
theorem At.left (h : At whole offset (piece ++ other)) : At whole offset piece := by
  obtain ⟨front, back, hwhole, hfront⟩ := h
  exact ⟨front, other ++ back, by rw [hwhole, List.append_assoc], hfront⟩

/-- The second part of a piece stands after the first. -/
theorem At.right (h : At whole offset (piece ++ other)) :
    At whole (offset + piece.length) other := by
  obtain ⟨front, back, hwhole, hfront⟩ := h
  refine ⟨front ++ piece, back, ?_, ?_⟩
  · rw [hwhole, List.append_assoc, List.append_assoc]
  · rw [List.length_append, hfront]

/-- A piece ends before the sequence does. -/
theorem At.le (h : At whole offset piece) : offset + piece.length ≤ whole.length := by
  obtain ⟨front, back, rfl, rfl⟩ := h
  simp only [List.length_append]
  omega

/-- A field of a record stands after the fields before it. -/
theorem At.field {fields : List (List α)} (h : At whole offset fields.flatten) (index : ℕ)
    (hfield : fields[index]? = some piece) :
    At whole (offset + ((fields.take index).map List.length).sum) piece := by
  induction fields generalizing offset index with
  | nil => simp at hfield
  | cons first rest ih =>
      rw [List.flatten_cons] at h
      cases index with
      | zero =>
          obtain rfl : first = piece := by simpa using hfield
          exact h.left
      | succ index =>
          have hrest := ih h.right index (by simpa using hfield)
          rw [Nat.add_assoc] at hrest
          simpa using hrest

/-- The slice at the place of a piece is the piece. -/
theorem slice_eq (h : At whole offset piece) {stop : ℕ} (hstop : stop = offset + piece.length) :
    slice whole offset stop = piece := by
  obtain ⟨front, back, rfl, rfl⟩ := h
  rw [slice, hstop, Nat.add_sub_cancel_left, List.drop_left, List.take_left]

end Pieces

/-! ## Little-endian numbers -/

/-- A number in a width of bytes, the lowest byte first. -/
def littleEndian : ℕ → ℕ → List UInt8
  | 0, _ => []
  | width + 1, value => UInt8.ofNat value :: littleEndian width (value / 256)

/-- The number that bytes spell, the lowest byte first. -/
def numberOf : List UInt8 → ℕ
  | [] => 0
  | byte :: bytes => byte.toNat + 256 * numberOf bytes

@[simp] theorem length_littleEndian (width value : ℕ) :
    (littleEndian width value).length = width := by
  induction width generalizing value with
  | zero => rfl
  | succ width ih => rw [littleEndian, List.length_cons, ih]

/-- A number that fits its width is read back. -/
theorem numberOf_littleEndian {width value : ℕ} (h : value < 256 ^ width) :
    numberOf (littleEndian width value) = value := by
  induction width generalizing value with
  | zero =>
      have hzero : value = 0 := by simpa using h
      rw [hzero]
      rfl
  | succ width ih =>
      have hquotient : value / 256 < 256 ^ width := by
        rw [Nat.pow_succ] at h
        exact Nat.div_lt_of_lt_mul (by omega)
      have hbyte : (UInt8.ofNat value).toNat = value % 256 := UInt8.toNat_ofNat'
      rw [littleEndian, numberOf, ih hquotient, hbyte, Nat.mod_add_div]

/-- The number at an offset; nothing stands for a read beyond the end. -/
def readAt (bytes : List UInt8) (offset width : ℕ) : Option ℕ :=
  if offset + width ≤ bytes.length then some (numberOf (slice bytes offset (offset + width)))
  else none

/-- A number that was written at an offset is read there. -/
theorem readAt_eq {bytes : List UInt8} {offset width value : ℕ}
    (h : At bytes offset (littleEndian width value)) (hvalue : value < 256 ^ width) :
    readAt bytes offset width = some value := by
  have hle := h.le
  have hslice := slice_eq h rfl
  rw [length_littleEndian] at hle hslice
  rw [readAt, if_pos hle, hslice, numberOf_littleEndian hvalue]

end CoreUtils.ByteLayout
