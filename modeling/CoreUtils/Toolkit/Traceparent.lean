import CoreUtils.Library.HexText

/-!
# Creating a traceparent

`createTraceparent` of `traceparent.ts`, with a source of random bytes that may answer every call
differently and may throw. The loop of `createNonZeroHex` has a bound on its iterations; it has a
result for some bound exactly when the source once gives bytes that are not all zero
(`create_non_zero_hex_iff`).
-/

namespace CoreUtils.Toolkit.Traceparent

open HexText

/-- Text as its characters. -/
abbrev Text := List Char

/-- The bytes of a buffer. -/
abbrev Bytes := List UInt8

/-- The trace id that stands for none. -/
def INVALID_TRACE_ID : Text := "00000000000000000000000000000000".toList

/-- The parent id that stands for none. -/
def INVALID_PARENT_ID : Text := "0000000000000000".toList

/-- What is thrown: what the source throws, or a message. -/
inductive Thrown (E : Type*) where
  | source (error : E)
  | message (text : String)

variable {E : Type*}

/-- `randomBytesImplementation`: the answer to a call, by the number of the calls before it, for a
number of bytes. -/
abbrev RandomBytes (E : Type*) := ℕ → ℕ → Except E Bytes

/-- `createNonZeroHex` from a call on: the text and the number of calls afterwards. Nothing stands
for a loop that has not ended within the bound. -/
def createNonZeroHex (randomBytesImplementation : RandomBytes E) (byteCount : ℕ)
    (invalidValue : Text) : ℕ → ℕ → Option (Except (Thrown E) (Text × ℕ))
  | 0, _ => none
  | iterations + 1, call =>
      match randomBytesImplementation call byteCount with
      | .error error => some (.error (.source error))
      | .ok bytes =>
          let value := ofBytes bytes
          if value.length ≠ byteCount * 2 then
            some (.error (.message s!"Random byte source returned {value.length / 2} bytes"))
          else if value ≠ invalidValue then some (.ok (value, call + 1))
          else createNonZeroHex randomBytesImplementation byteCount invalidValue iterations
            (call + 1)

/-- `createTraceparent`, with a bound on the iterations of each loop. -/
def createTraceparent (randomBytesImplementation : RandomBytes E) (iterations : ℕ) :
    Option (Except (Thrown E) Text) :=
  match createNonZeroHex randomBytesImplementation 16 INVALID_TRACE_ID iterations 0 with
  | none => none
  | some (.error error) => some (.error error)
  | some (.ok (traceId, call)) =>
      match createNonZeroHex randomBytesImplementation 8 INVALID_PARENT_ID iterations call with
      | none => none
      | some (.error error) => some (.error error)
      | some (.ok (parentId, _)) =>
          some (.ok ("00-".toList ++ traceId ++ "-".toList ++ parentId ++ "-01".toList))

/-- The bytes that are drawn from a call on, with the number of calls afterwards: the first ones
that are not all zero. -/
inductive Drawn (randomBytesImplementation : RandomBytes E) (byteCount : ℕ) :
    ℕ → Bytes → ℕ → Prop where
  | accept {call : ℕ} {bytes : Bytes}
      (hbytes : randomBytesImplementation call byteCount = .ok bytes)
      (hlength : bytes.length = byteCount) (hnonzero : bytes ≠ List.replicate byteCount 0) :
      Drawn randomBytesImplementation byteCount call bytes (call + 1)
  | again {call last : ℕ} {bytes : Bytes}
      (hzero : randomBytesImplementation call byteCount = .ok (List.replicate byteCount 0))
      (hrest : Drawn randomBytesImplementation byteCount (call + 1) bytes last) :
      Drawn randomBytesImplementation byteCount call bytes last

variable {randomBytesImplementation : RandomBytes E} {byteCount iterations call last : ℕ}
  {bytes : Bytes}

/-- Two digits for each byte. -/
theorem length_ofBytes (bytes : Bytes) : (ofBytes bytes).length = bytes.length * 2 := by
  rw [(spells_ofBytes bytes).length, Nat.mul_comm]

/-- The digits of bytes are those of other bytes only if the bytes are the same. -/
theorem ofBytes_injective {bytes bytes' : Bytes} (h : ofBytes bytes = ofBytes bytes') :
    bytes = bytes' := by
  induction bytes generalizing bytes' with
  | nil =>
      have hlength := length_ofBytes bytes'
      rw [← h] at hlength
      exact (List.length_eq_zero_iff.mp (by simpa [ofBytes] using hlength)).symm
  | cons byte rest ih =>
      cases bytes' with
      | nil => simp [ofBytes, ofByte] at h
      | cons byte' rest' =>
          have hparts : ofByte byte = ofByte byte' ∧ ofBytes rest = ofBytes rest' :=
            List.append_inj h rfl
          have hvalue := (spells_ofByte byte).value
          rw [hparts.1, (spells_ofByte byte').value] at hvalue
          rw [UInt8.toNat_inj.mp hvalue, ih hparts.2]

/-- Zero bytes have the digits of zeros. -/
theorem ofBytes_replicate (byteCount : ℕ) :
    ofBytes (List.replicate byteCount 0) = List.replicate (byteCount * 2) '0' := by
  induction byteCount with
  | zero => rfl
  | succ byteCount ih =>
      have hzero : ofByte 0 = ['0', '0'] := rfl
      have hnext : (byteCount + 1) * 2 = byteCount * 2 + 1 + 1 := by omega
      rw [hnext, List.replicate_succ, List.replicate_succ, List.replicate_succ, ← ih]
      rfl

/-- The loop has a text for some bound exactly when bytes are drawn, and it is their text. -/
theorem create_non_zero_hex_iff {value : Text} :
    (∃ iterations, createNonZeroHex randomBytesImplementation byteCount
      (List.replicate (byteCount * 2) '0') iterations call = some (.ok (value, last))) ↔
      ∃ bytes, Drawn randomBytesImplementation byteCount call bytes last ∧
        value = ofBytes bytes := by
  constructor
  · rintro ⟨iterations, h⟩
    induction iterations generalizing call with
    | zero => contradiction
    | succ iterations ih =>
        rw [createNonZeroHex] at h
        cases hbytes : randomBytesImplementation call byteCount with
        | error error => simp [hbytes] at h
        | ok bytes =>
            simp only [hbytes] at h
            split at h
            · simp at h
            · rename_i hlength
              have hcount := length_ofBytes bytes
              split at h
              · rename_i hvalue
                obtain ⟨rfl, rfl⟩ := Prod.mk.inj (Except.ok.inj (Option.some.inj h))
                refine ⟨bytes, .accept hbytes (by omega) ?_, rfl⟩
                rintro rfl
                exact hvalue (ofBytes_replicate byteCount)
              · rename_i hzero
                obtain ⟨drawn, hdrawn, hvalue⟩ := ih h
                have hsame : bytes = List.replicate byteCount 0 := by
                  refine ofBytes_injective ?_
                  rw [ofBytes_replicate]
                  exact not_not.mp hzero
                exact ⟨drawn, .again (hsame ▸ hbytes) hdrawn, hvalue⟩
  · rintro ⟨bytes, hdrawn, rfl⟩
    induction hdrawn with
    | @accept call bytes hbytes hlength hnonzero =>
        refine ⟨1, ?_⟩
        have hcount := length_ofBytes bytes
        have hvalue : ofBytes bytes ≠ List.replicate (byteCount * 2) '0' := by
          rw [← ofBytes_replicate]
          exact fun h ↦ hnonzero (ofBytes_injective h)
        simp only [createNonZeroHex, hbytes]
        rw [if_neg (by omega), if_pos hvalue]
    | @again call last bytes hzero hrest ih =>
        obtain ⟨iterations, h⟩ := ih
        refine ⟨iterations + 1, ?_⟩
        have hcount := length_ofBytes (List.replicate byteCount 0)
        rw [List.length_replicate] at hcount
        simp only [createNonZeroHex, hzero]
        rw [if_neg (by omega), if_neg (by rw [ofBytes_replicate]; simp)]
        exact h

/-- A result does not change with the bound. -/
theorem createNonZeroHex_add {invalidValue : Text} {result : Except (Thrown E) (Text × ℕ)}
    (more : ℕ)
    (h : createNonZeroHex randomBytesImplementation byteCount invalidValue iterations call =
      some result) :
    createNonZeroHex randomBytesImplementation byteCount invalidValue (iterations + more) call =
      some result := by
  induction iterations generalizing call with
  | zero => contradiction
  | succ iterations ih =>
      rw [Nat.succ_add, createNonZeroHex]
      rw [createNonZeroHex] at h
      cases hbytes : randomBytesImplementation call byteCount with
      | error error =>
          rw [hbytes] at h
          exact h
      | ok bytes =>
          simp only [hbytes] at h ⊢
          split
          · rename_i hlength
            rw [if_pos hlength] at h
            exact h
          · rename_i hlength
            rw [if_neg hlength] at h
            split
            · rename_i hvalue
              rw [if_pos hvalue] at h
              exact h
            · rename_i hvalue
              rw [if_neg hvalue] at h
              exact ih h

/-- The text of a traceparent. -/
def traceparentOf (traceBytes parentBytes : Bytes) : Text :=
  "00-".toList ++ ofBytes traceBytes ++ "-".toList ++ ofBytes parentBytes ++ "-01".toList

/-- A traceparent is created, for some bound, exactly when the bytes of both of its identifiers are
drawn one after the other. -/
theorem create_traceparent_iff {text : Text} :
    (∃ iterations, createTraceparent randomBytesImplementation iterations = some (.ok text)) ↔
      ∃ traceBytes call parentBytes last,
        Drawn randomBytesImplementation 16 0 traceBytes call ∧
          Drawn randomBytesImplementation 8 call parentBytes last ∧
          text = traceparentOf traceBytes parentBytes := by
  have htraceZeros : INVALID_TRACE_ID = List.replicate (16 * 2) '0' := rfl
  have hparentZeros : INVALID_PARENT_ID = List.replicate (8 * 2) '0' := rfl
  unfold createTraceparent
  rw [htraceZeros, hparentZeros]
  constructor
  · rintro ⟨iterations, h⟩
    split at h
    · contradiction
    · simp at h
    · rename_i traceId call htrace
      split at h
      · contradiction
      · simp at h
      · rename_i parentId last hparent
        obtain rfl := Except.ok.inj (Option.some.inj h)
        obtain ⟨traceBytes, hdrawn, rfl⟩ := create_non_zero_hex_iff.mp ⟨iterations, htrace⟩
        obtain ⟨parentBytes, hdrawn', rfl⟩ := create_non_zero_hex_iff.mp ⟨iterations, hparent⟩
        exact ⟨traceBytes, call, parentBytes, last, hdrawn, hdrawn', rfl⟩
  · rintro ⟨traceBytes, call, parentBytes, last, hdrawn, hdrawn', rfl⟩
    obtain ⟨iterations, htrace⟩ := create_non_zero_hex_iff.mpr ⟨traceBytes, hdrawn, rfl⟩
    obtain ⟨iterations', hparent⟩ := create_non_zero_hex_iff.mpr ⟨parentBytes, hdrawn', rfl⟩
    have hparent' := createNonZeroHex_add iterations hparent
    rw [Nat.add_comm] at hparent'
    refine ⟨iterations + iterations', ?_⟩
    rw [createNonZeroHex_add iterations' htrace]
    simp only [hparent']
    rfl

/-- What is drawn has the right length and is not all zero. -/
theorem Drawn.spec (h : Drawn randomBytesImplementation byteCount call bytes last) :
    bytes.length = byteCount ∧ bytes ≠ List.replicate byteCount 0 := by
  induction h with
  | accept hbytes hlength hnonzero => exact ⟨hlength, hnonzero⟩
  | again hzero hrest ih => exact ih

end CoreUtils.Toolkit.Traceparent
