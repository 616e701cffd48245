import Mathlib.Data.Nat.Bitwise
import Mathlib.Tactic.Common

/-!
# IP addresses and subnets

The textual forms of IPv4 and IPv6 addresses as `net.isIP` accepts them, and subnets as the
addresses that agree with a base address in their leading bits. An address is the number its bits
spell; `Subnet.contains_iff` says that comparing shifted numbers compares those bits.
-/

namespace CoreUtils.Ip

/-- The two address families. -/
inductive Family where
  | ipv4
  | ipv6
  deriving DecidableEq

/-- The number of bits of an address. -/
def Family.width : Family → ℕ
  | .ipv4 => 32
  | .ipv6 => 128

/-! ## Text -/

/-- The value of a decimal digit. -/
def decimalDigit (c : Char) : Option ℕ :=
  if '0' ≤ c ∧ c ≤ '9' then some (c.toNat - '0'.toNat) else none

/-- The value of a hexadecimal digit of either case. -/
def hexDigit (c : Char) : Option ℕ :=
  if '0' ≤ c ∧ c ≤ '9' then some (c.toNat - '0'.toNat)
  else if 'a' ≤ c ∧ c ≤ 'f' then some (c.toNat - 'a'.toNat + 10)
  else if 'A' ≤ c ∧ c ≤ 'F' then some (c.toNat - 'A'.toNat + 10)
  else none

/-- The number a list of digits spells, most significant first. -/
def ofDigits (base : ℕ) (digits : List ℕ) : ℕ :=
  digits.foldl (fun value digit ↦ value * base + digit) 0

/-- A segment of an IPv4 address: a number up to 255 without leading zeros. -/
def parseOctet (text : List Char) : Option ℕ := do
  let digits ← text.mapM decimalDigit
  if digits = [] ∨ 3 < digits.length ∨ (digits.head? = some 0 ∧ 1 < digits.length) then none
  else
    let value := ofDigits 10 digits
    if value ≤ 255 then some value else none

/-- A dotted IPv4 address. -/
def parseIPv4 (text : List Char) : Option ℕ := do
  let octets ← (text.splitOn '.').mapM parseOctet
  if octets.length = 4 then some (ofDigits 256 octets) else none

/-- A group of an IPv6 address: one to four hexadecimal digits. -/
def parseGroup (text : List Char) : Option ℕ := do
  let digits ← text.mapM hexDigit
  if digits = [] ∨ 4 < digits.length then none else some (ofDigits 16 digits)

/-- The colon-separated groups of an IPv6 address, the last of which may be a dotted IPv4
address, which spells two groups. -/
def parseGroups : List (List Char) → Option (List ℕ)
  | [] => some []
  | [last] =>
      match parseIPv4 last with
      | some address => some [address / 65536, address % 65536]
      | none => (parseGroup last).map ([·])
  | group :: rest => do
      let value ← parseGroup group
      let values ← parseGroups rest
      some (value :: values)

/-- The text before and after the first `::`. -/
def splitElision : List Char → Option (List Char × List Char)
  | ':' :: ':' :: rest => some ([], rest)
  | c :: rest => (splitElision rest).map fun (front, back) ↦ (c :: front, back)
  | [] => none

/-- The groups on one side of an elision, where there may be none. -/
def parseSide (text : List Char) : Option (List ℕ) :=
  if text = [] then some [] else parseGroups (text.splitOn ':')

/-- The number eight groups spell. -/
def ofGroups (groups : List ℕ) : ℕ := ofDigits 65536 groups

/-- An IPv6 address: eight groups, or fewer around one `::`. The part before the elision has no
dotted form. -/
def parseIPv6Groups (text : List Char) : Option ℕ :=
  match splitElision text with
  | none => do
      let groups ← parseGroups (text.splitOn ':')
      if groups.length = 8 then some (ofGroups groups) else none
  | some (front, back) => do
      if '.' ∈ front then none
      let before ← parseSide front
      let after ← parseSide back
      if before.length + after.length ≤ 7 then
        some (ofGroups (before ++ List.replicate (8 - before.length - after.length) 0 ++ after))
      else none

/-- A character of a zone identifier. -/
def isZoneChar (c : Char) : Bool := c.isAlphanum || c == '-' || c == '.' || c == ':'

/-- An IPv6 address with an optional zone identifier, which is no part of the address. -/
def parseIPv6 (text : List Char) : Option ℕ :=
  let zone := text.dropWhile (· ≠ '%')
  if zone = [] then parseIPv6Groups text
  else if zone.length = 1 ∨ zone.tail.any (!isZoneChar ·) then none
  else parseIPv6Groups (text.takeWhile (· ≠ '%'))

/-- An address of a family. -/
def parse : Family → List Char → Option ℕ
  | .ipv4 => parseIPv4
  | .ipv6 => parseIPv6

/-- The family of an IP literal, `net.isIP`. -/
def isIP (text : List Char) : Option Family :=
  if (parseIPv4 text).isSome then some .ipv4
  else if (parseIPv6 text).isSome then some .ipv6
  else none

/-! ## Subnets -/

/-- The addresses of a family that share the first `bits` bits of a base address. -/
structure Subnet where
  base : ℕ
  bits : ℕ
  deriving DecidableEq

/-- Membership in a subnet: the leading bits agree. -/
def Subnet.Mem (family : Family) (subnet : Subnet) (address : ℕ) : Prop :=
  ∀ i, family.width - subnet.bits ≤ i → address.testBit i = subnet.base.testBit i

/-- The membership check. -/
def Subnet.contains (family : Family) (subnet : Subnet) (address : ℕ) : Bool :=
  address >>> (family.width - subnet.bits) == subnet.base >>> (family.width - subnet.bits)

/-- The check decides membership. -/
theorem Subnet.contains_iff {family : Family} {subnet : Subnet} {address : ℕ} :
    subnet.contains family address = true ↔ subnet.Mem family address := by
  rw [Subnet.contains, beq_iff_eq]
  constructor
  · intro h i hi
    have hbit := congrArg (Nat.testBit · (i - (family.width - subnet.bits))) h
    simpa [Nat.testBit_shiftRight, Nat.add_sub_cancel' hi] using hbit
  · intro h
    refine Nat.eq_of_testBit_eq fun i ↦ ?_
    rw [Nat.testBit_shiftRight, Nat.testBit_shiftRight]
    exact h _ (Nat.le_add_right _ _)

/-- A list of subnets of one family. -/
structure BlockList where
  family : Family
  subnets : List Subnet

/-- Some subnet of the list has the address. -/
def BlockList.Blocks (list : BlockList) (address : ℕ) : Prop :=
  ∃ subnet ∈ list.subnets, subnet.Mem list.family address

/-- Whether the list has an address that is given as a text. A text that is no address of the family
is not in the list. -/
def BlockList.check (list : BlockList) (text : List Char) : Bool :=
  (parse list.family text).any fun address ↦
    list.subnets.any fun subnet ↦ subnet.contains list.family address

/-- An address that passes the check is in no subnet of the list. -/
theorem BlockList.not_blocks_of_check {list : BlockList} {text : List Char} {address : ℕ}
    (h : list.check text = false) (haddress : parse list.family text = some address) :
    ¬list.Blocks address := by
  rintro ⟨subnet, hsubnet, hmem⟩
  rw [check, haddress, Option.any_some, List.any_eq_false] at h
  exact h subnet hsubnet (Subnet.contains_iff.mpr hmem)

/-- A literal is an address of its family. -/
theorem isSome_parse_of_isIP {text : List Char} {family : Family} (h : isIP text = some family) :
    (parse family text).isSome = true := by
  unfold isIP at h
  split at h
  · rename_i hipv4
    obtain rfl := Option.some.inj h
    exact hipv4
  · split at h
    · rename_i hipv6
      obtain rfl := Option.some.inj h
      exact hipv6
    · simp at h

end CoreUtils.Ip
