import Mathlib.Data.List.DropRight
import Mathlib.Data.List.Basic
import Mathlib.Tactic.Common

/-!
# A bounded buffer with two priorities

A buffer takes elements until it is full. From then on an element of high priority takes the place
of the oldest element of low priority, while there is one, and all others are turned away.
`Retains` describes the buffer by the elements that were pushed, and `retains_foldl` shows that it
holds after any pushes.
-/

namespace CoreUtils.PriorityBuffer

variable {α : Type*}

/-- Add an element to a buffer. -/
def push (capacity : ℕ) (high : α → Bool) (buffer : List α) (element : α) : List α :=
  if buffer.length < capacity then buffer ++ [element]
  else if high element then
    match buffer.findIdx? fun other ↦ !high other with
    | none => buffer
    | some index => buffer.eraseIdx index ++ [element]
  else buffer

variable {capacity : ℕ} {high : α → Bool} {buffer inputs : List α} {element : α}

/-- How many elements of high priority there are. -/
def countHigh (high : α → Bool) (inputs : List α) : ℕ := (inputs.filter high).length

/-- What is left of some inputs: the first ones of high priority, and of those of low priority that
came while there was room the most recent ones. -/
structure Retains (capacity : ℕ) (high : α → Bool) (inputs buffer : List α) : Prop where
  length : buffer.length = min capacity inputs.length
  sublist : buffer.Sublist inputs
  highs : buffer.filter high = (inputs.filter high).take (min capacity (countHigh high inputs))
  lows : buffer.filter (fun other ↦ !high other) =
    ((inputs.take capacity).filter fun other ↦ !high other).rtake
      (capacity - min capacity (countHigh high inputs))

/-- An element is of one of the two priorities. -/
theorem length_filters (high : α → Bool) (elements : List α) :
    (elements.filter high).length + (elements.filter fun other ↦ !high other).length =
      elements.length := by
  induction elements with
  | nil => rfl
  | cons element rest ih =>
      cases helement : high element <;> simp [helement] <;> omega

/-- The end of a list that is no longer than what is taken. -/
theorem rtake_of_length_le {elements : List α} {count : ℕ} (h : elements.length ≤ count) :
    elements.rtake count = elements := by
  rw [List.rtake, Nat.sub_eq_zero_of_le h, List.drop_zero]

/-- A list with an element of low priority has a first one. -/
theorem exists_first_low (h : buffer.findIdx? (fun other ↦ !high other) ≠ none) :
    ∃ before low after, buffer = before ++ low :: after ∧ high low = false ∧
      (∀ other ∈ before, high other = true) ∧
      buffer.findIdx? (fun other ↦ !high other) = some before.length := by
  induction buffer with
  | nil => simp at h
  | cons first rest ih =>
      rw [List.findIdx?_cons] at h ⊢
      cases hfirst : high first with
      | false => exact ⟨[], first, rest, rfl, hfirst, by simp, by simp⟩
      | true =>
          have hrest : rest.findIdx? (fun other ↦ !high other) ≠ none := by
            intro hnone
            simp [hfirst, hnone] at h
          obtain ⟨before, low, after, rfl, hlow, hbefore, hindex⟩ := ih hrest
          refine ⟨first :: before, low, after, rfl, hlow, ?_, by simp [hindex]⟩
          intro other hother
          rcases List.mem_cons.mp hother with rfl | hmem
          · exact hfirst
          · exact hbefore other hmem

/-- While there is room, the buffer holds all inputs. -/
theorem Retains.eq_inputs (h : Retains capacity high inputs buffer)
    (hroom : inputs.length ≤ capacity) : buffer = inputs := by
  refine h.sublist.eq_of_length ?_
  rw [h.length, Nat.min_eq_right hroom]

/-- Inputs that fit are all retained. -/
theorem retains_self (hroom : inputs.length ≤ capacity) :
    Retains capacity high inputs inputs where
  length := (Nat.min_eq_right hroom).symm
  sublist := List.Sublist.refl inputs
  highs := by
    have hcount := List.length_filter_le high inputs
    rw [countHigh, Nat.min_eq_right (by omega), List.take_length]
  lows := by
    have hfilters := length_filters high inputs
    rw [List.take_of_length_le hroom, rtake_of_length_le]
    unfold countHigh
    omega

/-- A push into a full buffer that turns the element away. -/
theorem Retains.turnAway (h : Retains capacity high inputs buffer)
    (hfull : capacity ≤ inputs.length)
    (hhigh : high element = true → capacity ≤ countHigh high inputs) :
    Retains capacity high (inputs ++ [element]) buffer where
  length := by
    rw [h.length, List.length_append]
    omega
  sublist := h.sublist.trans (List.sublist_append_left inputs [element])
  highs := by
    rw [h.highs, countHigh, countHigh, List.filter_append, List.length_append]
    by_cases helement : high element = true
    · have hcount := hhigh helement
      unfold countHigh at hcount
      rw [Nat.min_eq_left hcount, Nat.min_eq_left (by omega), List.take_append_of_le_length hcount]
    · simp [helement]
  lows := by
    rw [h.lows, List.take_append_of_le_length hfull]
    refine congrArg _ (congrArg _ ?_)
    rw [countHigh, countHigh, List.filter_append, List.length_append]
    by_cases helement : high element = true
    · have hcount := hhigh helement
      unfold countHigh at hcount
      omega
    · simp [helement]

/-- A push into a full buffer that displaces the oldest element of low priority. -/
theorem Retains.displace {before after : List α} {low : α}
    (h : Retains capacity high inputs (before ++ low :: after))
    (hfull : capacity ≤ inputs.length) (hbefore : ∀ other ∈ before, high other = true)
    (hlow : high low = false) (helement : high element = true) :
    Retains capacity high (inputs ++ [element]) (before ++ after ++ [element]) := by
  have hlength := h.length
  have hfilters := length_filters high (before ++ low :: after)
  have hlowsBefore : before.filter (fun other ↦ !high other) = [] :=
    List.filter_eq_nil_iff.mpr fun other hother ↦ by simp [hbefore other hother]
  have hhighs := h.highs
  have hlows := h.lows
  have hkept : (before ++ low :: after).filter high = (before ++ after).filter high := by
    simp [List.filter_append, hlow]
  -- some place is held by an element of low priority, so no element of high priority is missing
  have hcount : countHigh high inputs < capacity := by
    by_contra hmany
    rw [hlows, hhighs, Nat.min_eq_left (Nat.le_of_not_lt hmany), Nat.sub_self, List.rtake_zero,
      List.length_nil, List.length_take] at hfilters
    have hsome : low ∈ (before ++ low :: after).filter fun other ↦ !high other :=
      List.mem_filter.mpr ⟨by simp, by simp [hlow]⟩
    rw [hlows, Nat.min_eq_left (Nat.le_of_not_lt hmany), Nat.sub_self, List.rtake_zero] at hsome
    exact absurd hsome List.not_mem_nil
  have hall : (before ++ after).filter high = inputs.filter high := by
    rw [← hkept, hhighs, Nat.min_eq_right hcount.le, countHigh, List.take_length]
  have hcount' : countHigh high (inputs ++ [element]) = countHigh high inputs + 1 := by
    simp [countHigh, List.filter_append, helement]
  constructor
  case length =>
    simp only [List.length_append, List.length_cons, List.length_nil] at hlength ⊢
    omega
  case sublist =>
    refine List.Sublist.append ?_ (List.Sublist.refl [element])
    refine List.Sublist.trans ?_ h.sublist
    exact (List.sublist_cons_self low after).append_left before
  case highs =>
    have hlast : (inputs ++ [element]).filter high = inputs.filter high ++ [element] := by
      simp [List.filter_append, helement]
    rw [List.filter_append, hall, hcount', Nat.min_eq_right hcount, hlast, countHigh,
      List.take_of_length_le (by simp)]
    simp [helement]
  case lows =>
    have hnew : (before ++ after ++ [element]).filter (fun other ↦ !high other) =
        ((before ++ low :: after).filter fun other ↦ !high other).tail := by
      simp [List.filter_append, hlowsBefore, hlow, helement]
    have hplaces : (((inputs.take capacity).filter fun other ↦ !high other).rtake
        (capacity - min capacity (countHigh high inputs))).length =
          capacity - countHigh high inputs := by
      rw [← hlows]
      rw [hkept, hall] at hfilters
      unfold countHigh
      omega
    rw [Nat.min_eq_right hcount.le] at hlows hplaces
    rw [hnew, hlows, hcount', List.take_append_of_le_length hfull, Nat.min_eq_right hcount]
    unfold List.rtake at hplaces ⊢
    rw [List.length_drop] at hplaces
    rw [List.tail_drop]
    refine congrArg (List.drop · _) ?_
    omega

/-- One push. -/
theorem Retains.push (h : Retains capacity high inputs buffer) (element : α) :
    Retains capacity high (inputs ++ [element])
      (PriorityBuffer.push capacity high buffer element) := by
  have hlength := h.length
  unfold PriorityBuffer.push
  split
  · have hall := h.eq_inputs (by omega)
    subst hall
    refine retains_self ?_
    rw [List.length_append, List.length_singleton]
    omega
  · have hfull : capacity ≤ inputs.length := by omega
    split
    · rename_i helement
      cases hindex : buffer.findIdx? fun other ↦ !high other with
      | none =>
          -- every place is held by an element of high priority
          refine h.turnAway hfull fun _ ↦ ?_
          have hnone := List.findIdx?_eq_none_iff.mp hindex
          have hall : buffer.filter high = buffer :=
            List.filter_eq_self.mpr fun other hother ↦ by simpa using hnone other hother
          have hhighs := congrArg List.length (hall.symm.trans h.highs)
          rw [List.length_take] at hhighs
          unfold countHigh at hhighs ⊢
          omega
      | some index =>
          obtain ⟨before, low, after, rfl, hlow, hbefore, hfirst⟩ :=
            exists_first_low (by rw [hindex]; simp)
          obtain rfl := Option.some.inj (hindex.symm.trans hfirst)
          have herase : (before ++ low :: after).eraseIdx before.length = before ++ after := by
            simp [List.eraseIdx_append_of_length_le]
          simp only [herase]
          exact h.displace hfull hbefore hlow helement
    · rename_i helement
      exact h.turnAway hfull fun hhigh ↦ absurd hhigh helement

/-- A buffer after any pushes. -/
theorem retains_foldl (capacity : ℕ) (high : α → Bool) (inputs : List α) :
    Retains capacity high inputs (inputs.foldl (push capacity high) []) := by
  induction inputs using List.reverseRecOn with
  | nil => exact retains_self (Nat.zero_le capacity)
  | append_singleton inputs element ih =>
      rw [List.foldl_append]
      exact ih.push element

end CoreUtils.PriorityBuffer
