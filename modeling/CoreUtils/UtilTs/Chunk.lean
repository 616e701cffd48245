import Mathlib.Algebra.Order.Group.Nat
import Mathlib.Data.List.Basic

/-!
# Splitting an array into chunks

`chunk` of `util-ts`: consecutive slices of one size, the last of which may be shorter. Together
they are the array again, in order.
-/

namespace CoreUtils.UtilTs

variable {α : Type*}

/-- `Array.prototype.slice` for bounds that are not negative. -/
def slice (array : List α) (start stop : ℕ) : List α :=
  (array.drop start).take (stop - start)

/-- Split an array into groups of a size. A size that is not positive is a `RangeError`. -/
def chunk (array : List α) (size : ℕ) : Except String (List (List α)) :=
  if size = 0 then .error "size must be a positive integer"
  else if array.length = 0 then .ok []
  else .ok ((List.range ((array.length + size - 1) / size)).map fun index ↦
    slice array (index * size) ((index + 1) * size))

/-- The first slices of a size are a beginning of the array. -/
theorem flatten_slices (array : List α) (size count : ℕ) :
    ((List.range count).map fun index ↦
      slice array (index * size) ((index + 1) * size)).flatten = array.take (count * size) := by
  induction count with
  | zero => simp
  | succ count ih =>
      have hwidth : (count + 1) * size - count * size = size := by
        rw [Nat.succ_mul, Nat.add_sub_cancel_left]
      rw [List.range_succ, List.map_append, List.flatten_append, ih, List.map_singleton,
        List.flatten_singleton, slice, hwidth, Nat.succ_mul, List.take_add]

/-- With a positive size the chunks of an array are the array in order, each within the size. -/
theorem chunk_spec (array : List α) {size : ℕ} (hsize : 0 < size) :
    ∃ groups, chunk array size = .ok groups ∧ groups.flatten = array ∧
      ∀ group ∈ groups, group.length ≤ size := by
  unfold chunk
  rw [if_neg (Nat.pos_iff_ne_zero.mp hsize)]
  split
  · rename_i hempty
    exact ⟨[], rfl, (List.length_eq_zero_iff.mp hempty).symm, by simp⟩
  · refine ⟨_, rfl, ?_, ?_⟩
    · have hcover : array.length ≤ (array.length + size - 1) / size * size := by
        have hdiv := Nat.div_add_mod (array.length + size - 1) size
        have hrest := Nat.mod_lt (array.length + size - 1) hsize
        rw [Nat.mul_comm] at hdiv
        omega
      rw [flatten_slices, List.take_of_length_le hcover]
    · intro group hgroup
      obtain ⟨index, -, rfl⟩ := List.mem_map.mp hgroup
      have hwidth : (index + 1) * size - index * size = size := by
        rw [Nat.succ_mul, Nat.add_sub_cancel_left]
      exact (List.length_take_le _ _).trans_eq hwidth

end CoreUtils.UtilTs
