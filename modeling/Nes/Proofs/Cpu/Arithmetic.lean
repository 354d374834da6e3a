/-
  Arithmetic: what sums, differences and comparisons of bytes come to in numbers.

  The processor forms a sum in sixteen bits, takes the low byte, and works overflow out of the signs
  of three bytes; it subtracts by adding the complement.  Here the same is said about numbers:

  1. **Sums**: result and carry together ARE the sum (`addToA_sum`), and overflow says that the sum
     of the signed numbers does not fit (`addToA_overflow`).
  2. **Differences**: what adding the complement comes to (`addToA_complement_difference`, `_carry`,
     `_overflow`); the carry is the borrow upside down.
  3. **Comparisons**: carry says that the register is not the smaller one
     (`compareWith_carry`).

  `Status.TellsOf` and `Status.SameBut` are the two ways in which flags are talked about: what zero
  and negative say of a result, and that the other flags stay as they were.
-/
import Nes.Cpu.Action

namespace Nes

/-! ## Bytes as signed numbers -/

/-- The number from -128 to 127 that a byte stands for. -/
def signed (v : UInt8) : Int := v.toInt8.toInt

theorem testBit_seven (v : UInt8) : testBit v 7 = decide (128 ≤ v.toNat) := by
  have h : v.toBitVec.msb = decide (2 ^ 7 ≤ v.toBitVec.toNat) := BitVec.msb_eq_decide v.toBitVec
  exact h

/-- The upper half of the bytes are the negative numbers. -/
theorem signed_eq (v : UInt8) :
    signed v = if v.toNat < 128 then (v.toNat : Int) else (v.toNat : Int) - 256 := by
  have hv := v.toNat_lt
  show v.toBitVec.toInt = _
  rw [BitVec.toInt_eq_toNat_cond]
  show (if 2 * v.toNat < 256 then (v.toNat : Int) else (v.toNat : Int) - 256) = _
  split <;> split <;> omega

theorem toNat_complement (v : UInt8) : (~~~ v).toNat = 255 - v.toNat := UInt8.toNat_not v

theorem signed_complement (v : UInt8) : signed (~~~ v) = -1 - signed v := by
  have hv := v.toNat_lt
  rw [signed_eq, signed_eq, toNat_complement]
  split <;> split <;> omega

namespace Cpu

/-! ## Talking about flags -/

namespace Status

/-- The carry as a number, 0 or 1. -/
def carryNat (p : Status) : Nat := (p.get .carry).toNat

theorem carryNat_le (p : Status) : p.carryNat ≤ 1 := Bool.toNat_le (p.get .carry)

/-- As a number the carry is the same where the flag is. -/
theorem carryNat_inj {p q : Status} : p.carryNat = q.carryNat ↔ p.get .carry = q.get .carry := by
  rw [carryNat, carryNat]
  cases p.get .carry <;> cases q.get .carry <;> decide

/-- Zero and negative tell of the byte `v`. -/
def TellsOf (p : Status) (v : UInt8) : Prop :=
  (p.get .zero = true ↔ v = 0) ∧ (p.get .negative = true ↔ signed v < 0)

/-- Apart from the flags in `changed`, `q` is `p`. -/
def SameBut (p q : Status) (changed : List Flag) : Prop := ∀ f, f ∉ changed → q.get f = p.get f

theorem putNZ_tellsOf (p : Status) (v : UInt8) : (p.putNZ v).TellsOf v := by
  constructor
  · rw [get_putNZ]
    simp
  · have hv := v.toNat_lt
    rw [get_putNZ, if_pos rfl, testBit_seven, decide_eq_true_iff, signed_eq]
    split <;> omega

namespace SameBut

variable {p q : Status} {changed : List Flag}

theorem refl (p : Status) (changed : List Flag) : p.SameBut p changed := fun _ _ => rfl

/-- Putting a value into a flag that may change changes no other. -/
theorem put (h : p.SameBut q changed) {f : Flag} (hf : f ∈ changed) (on : Bool) :
    p.SameBut (q.put f on) changed := by
  intro g hg
  have hne : f ≠ g := by
    rintro rfl
    exact hg hf
  rw [get_put, if_neg hne]
  exact h g hg

theorem putNZ (h : p.SameBut q changed) (hzero : .zero ∈ changed) (hnegative : .negative ∈ changed)
    (v : UInt8) : p.SameBut (q.putNZ v) changed := (h.put hzero _).put hnegative _

end SameBut

theorem putNZ_sameBut (p : Status) (v : UInt8) : p.SameBut (p.putNZ v) [.zero, .negative] :=
  (SameBut.refl p _).putNZ (by decide) (by decide) v

end Status

namespace Registers

variable (r : Registers) (m : UInt8)

theorem toNat_carryIn : r.carryIn.toNat = r.status.carryNat := by
  rw [carryIn, Status.carryNat]
  cases r.status.get .carry <;> rfl

/-! ## Sums -/

/-- A, a byte and the carry added up in sixteen bits. -/
def sum : UInt16 := r.a.toUInt16 + m.toUInt16 + r.carryIn.toUInt16

/-- Whether the sum has another sign than both A and the byte. -/
def sumTurns : Bool := testBit ((r.a ^^^ lowByte (r.sum m)) &&& (m ^^^ lowByte (r.sum m))) 7

/-- What is put where when a byte is added to A. -/
theorem addToA_eq :
    r.addToA m =
      ((({ r with a := lowByte (r.sum m) } : Registers).putFlag .overflow (r.sumTurns m)).putFlag
        .carry (0xFF < r.sum m)).putNZ (lowByte (r.sum m)) := rfl

/-- Sixteen bits are enough for the sum. -/
theorem toNat_sum : (r.sum m).toNat = r.a.toNat + m.toNat + r.status.carryNat := by
  have ha := r.a.toNat_lt
  have hm := m.toNat_lt
  have hc := r.status.carryNat_le
  simp only [sum, UInt16.toNat_add, UInt8.toNat_toUInt16, toNat_carryIn]
  omega

theorem toNat_addToA :
    (r.addToA m).a.toNat = (r.a.toNat + m.toNat + r.status.carryNat) % 256 := by
  show (lowByte (r.sum m)).toNat = _
  rw [toNat_lowByte, toNat_sum]

theorem addToA_carry :
    (r.addToA m).status.get .carry = decide (255 < r.a.toNat + m.toNat + r.status.carryNat) := by
  have h : (r.addToA m).status.get .carry = decide (0xFF < r.sum m) := by
    simp [addToA_eq, putNZ, putFlag]
  rw [h, decide_eq_decide, UInt16.lt_iff_toNat_lt, toNat_sum]
  rfl

/-- **Result and carry together are the sum.** -/
theorem addToA_sum :
    (r.addToA m).a.toNat + 256 * (r.addToA m).status.carryNat =
      r.a.toNat + m.toNat + r.status.carryNat := by
  have ha := r.a.toNat_lt
  have hm := m.toNat_lt
  have hc := r.status.carryNat_le
  have hcarry : (r.addToA m).status.carryNat =
      (decide (255 < r.a.toNat + m.toNat + r.status.carryNat)).toNat := by
    rw [← addToA_carry]
    rfl
  rw [toNat_addToA, hcarry]
  by_cases hlarge : 255 < r.a.toNat + m.toNat + r.status.carryNat
  · rw [decide_eq_true hlarge]
    show _ + 256 * 1 = _
    omega
  · rw [decide_eq_false hlarge]
    show _ + 256 * 0 = _
    omega

/-- **Overflow says that the sum of the signed numbers is no signed byte.** -/
theorem addToA_overflow :
    (r.addToA m).status.get .overflow = true ↔
      signed r.a + signed m + r.status.carryNat < -128 ∨
        127 < signed r.a + signed m + r.status.carryNat := by
  have h : (r.addToA m).status.get .overflow =
      ((testBit r.a 7 ^^ testBit (r.addToA m).a 7) &&
        (testBit m 7 ^^ testBit (r.addToA m).a 7)) := by
    rw [← testBit_xor, ← testBit_xor, ← testBit_and]
    simp [addToA_eq, putNZ, putFlag, sumTurns]
  have ha := r.a.toNat_lt
  have hm := m.toNat_lt
  have hc := r.status.carryNat_le
  have hsum := toNat_addToA r m
  rw [h, testBit_seven, testBit_seven, testBit_seven, signed_eq, signed_eq]
  -- overflow is a matter of three signs: two that agree and a third that does not
  by_cases hna : 128 ≤ r.a.toNat <;> by_cases hnm : 128 ≤ m.toNat <;>
    by_cases hns : 128 ≤ (r.addToA m).a.toNat <;> simp [hna, hnm, hns] <;> omega

theorem addToA_sameBut :
    r.status.SameBut (r.addToA m).status [.carry, .zero, .overflow, .negative] := by
  have hoverflow := (Status.SameBut.refl r.status [.carry, .zero, .overflow, .negative]).put
    (f := .overflow) (by decide) (r.sumTurns m)
  have hcarry := hoverflow.put (f := .carry) (by decide) (0xFF < r.sum m)
  exact hcarry.putNZ (by decide) (by decide) (lowByte (r.sum m))

/-! ## Differences -/

/-- **Adding the complement subtracts**, and a missing carry subtracts one more. -/
theorem addToA_complement_difference :
    ((r.addToA (~~~ m)).a.toNat : Int) =
      ((r.a.toNat : Int) - m.toNat - (1 - r.status.carryNat)) % 256 := by
  have hm := m.toNat_lt
  rw [toNat_addToA, toNat_complement]
  omega

/-- The carry after a difference says that nothing had to be borrowed. -/
theorem addToA_complement_carry :
    (r.addToA (~~~ m)).status.get .carry = true ↔
      m.toNat + (1 - r.status.carryNat) ≤ r.a.toNat := by
  have hm := m.toNat_lt
  have hc := r.status.carryNat_le
  rw [addToA_carry, toNat_complement, decide_eq_true_iff]
  omega

theorem addToA_complement_overflow :
    (r.addToA (~~~ m)).status.get .overflow = true ↔
      signed r.a - signed m - (1 - r.status.carryNat) < -128 ∨
        127 < signed r.a - signed m - (1 - r.status.carryNat) := by
  rw [addToA_overflow, signed_complement]
  omega

/-! ## Comparisons -/

/-- The carry after a comparison says that the register is not the smaller one. -/
theorem compareWith_carry (register : UInt8) :
    (r.compareWith register m).status.get .carry = true ↔ m.toNat ≤ register.toNat := by
  have h : (r.compareWith register m).status.get .carry = decide (m ≤ register) := by
    simp [compareWith, putNZ, putFlag]
  rw [h, decide_eq_true_iff, UInt8.le_iff_toNat_le]

theorem compareWith_sameBut (register : UInt8) :
    r.status.SameBut (r.compareWith register m).status [.carry, .zero, .negative] := by
  have hcarry := (Status.SameBut.refl r.status [.carry, .zero, .negative]).put
    (f := .carry) (by decide) (m ≤ register)
  exact hcarry.putNZ (by decide) (by decide) (register - m)

/-! ## The decimal flag -/

section

variable (on : Bool)

theorem putFlag_comm {f g : Flag} (h : f ≠ g) (a b : Bool) :
    (r.putFlag f a).putFlag g b = (r.putFlag g b).putFlag f a := by
  have hstatus := r.status.put_comm h a b
  show ({ r with status := (r.status.put f a).put g b } : Registers) = _
  rw [hstatus]
  rfl

theorem putNZ_decimal (v : UInt8) :
    (r.putFlag .decimal on).putNZ v = (r.putNZ v).putFlag .decimal on := by
  have hzero : Flag.decimal ≠ .zero := by decide
  have hnegative : Flag.decimal ≠ .negative := by decide
  show ((r.putFlag .decimal on).putFlag .zero (v == 0)).putFlag .negative (testBit v 7) = _
  rw [putFlag_comm r hzero, putFlag_comm _ hnegative]
  rfl

/-- The decimal flag has no part in a sum. -/
theorem addToA_decimal :
    (r.putFlag .decimal on).addToA m = (r.addToA m).putFlag .decimal on := by
  have hcarryIn : (r.putFlag .decimal on).carryIn = r.carryIn := by simp [carryIn, putFlag]
  have hsum : (r.putFlag .decimal on).sum m = r.sum m := by
    rw [sum, hcarryIn]
    rfl
  have hturns : (r.putFlag .decimal on).sumTurns m = r.sumTurns m := by
    rw [sumTurns, hsum]
    rfl
  have hoverflow : Flag.decimal ≠ .overflow := by decide
  have hcarry : Flag.decimal ≠ .carry := by decide
  rw [addToA_eq, addToA_eq, hsum, hturns]
  show (((({ r with a := lowByte (r.sum m) } : Registers).putFlag .decimal on).putFlag .overflow
    (r.sumTurns m)).putFlag .carry (0xFF < r.sum m)).putNZ (lowByte (r.sum m)) = _
  rw [putFlag_comm _ hoverflow, putFlag_comm _ hcarry, putNZ_decimal]

theorem compareWith_decimal (register : UInt8) :
    (r.putFlag .decimal on).compareWith register m =
      (r.compareWith register m).putFlag .decimal on := by
  have hcarry : Flag.decimal ≠ .carry := by decide
  unfold compareWith
  rw [putFlag_comm r hcarry, putNZ_decimal]

end

end Registers

end Cpu

end Nes
