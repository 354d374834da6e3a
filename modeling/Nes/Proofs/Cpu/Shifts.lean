/-
  Shifts: what moving a byte by one bit comes to in numbers.

  Nine bits take part when a byte moves: the eight of the byte and one more, which comes in at one
  end (`Shift.carryIn`: 0 for a shift, the old carry for a rotation) while another falls out at the
  other end (`Shift.carryOut`).

  1. **To the left** a byte is doubled, and what comes in is added: byte and carry together ARE that
     number (`moved_left`).
  2. **To the right** the bit that comes in stands above the byte, and the nine bits are halved: byte
     and carry together are quotient and remainder (`moved_right`).

  So the nine bits after a move to the right are the nine bits before a move to the left, which is
  why the one undoes the other.
-/
import Nes.Proofs.Cpu.Arithmetic

namespace Nes

/-! ## Bits that are written -/

/-- Writing what a bit shows changes nothing. -/
theorem writeBit_self {b : UInt8} {i : Fin 8} {on : Bool} (h : testBit b i = on) :
    writeBit b i on = b := by
  apply ext_testBit
  intro j
  rw [testBit_writeBit]
  by_cases hij : i = j
  · subst hij
    rw [if_pos rfl, h]
  · rw [if_neg hij]

theorem toNat_shiftLeft_one (v : UInt8) : (v <<< 1).toNat = 2 * v.toNat % 256 := by
  rw [UInt8.toNat_shiftLeft]
  show v.toNat <<< 1 % 256 = _
  rw [Nat.shiftLeft_eq, Nat.mul_comm]

theorem toNat_shiftRight_one (v : UInt8) : (v >>> 1).toNat = v.toNat / 2 := by
  rw [UInt8.toNat_shiftRight]
  show v.toNat >>> 1 = _
  rw [Nat.shiftRight_eq_div_pow]

theorem testBit_zero (v : UInt8) : testBit v 0 = decide (v.toNat % 2 = 1) := by
  show v.toBitVec[0] = _
  rw [BitVec.getElem_eq_testBit_toNat, Nat.testBit_zero]
  rfl

/-- An even byte with a bit written at its lower end. -/
theorem toNat_writeBit_zero {b : UInt8} (heven : b.toNat % 2 = 0) (on : Bool) :
    (writeBit b 0 on).toNat = b.toNat + on.toNat := by
  cases on with
  | false =>
    have hclear : testBit b 0 = false := by
      rw [testBit_zero]
      simp [heven]
    rw [writeBit_self hclear]
    rfl
  | true =>
    have hor := Nat.two_pow_add_eq_or_of_lt (show 1 < 2 ^ 1 by decide) (b.toNat / 2)
    have hhalf : 2 ^ 1 * (b.toNat / 2) = b.toNat := by omega
    rw [hhalf] at hor
    show (b ||| bitMask 0).toNat = b.toNat + 1
    rw [UInt8.toNat_or, hor]
    rfl

/-- A byte below 128 with a bit written at its upper end. -/
theorem toNat_writeBit_seven {b : UInt8} (hsmall : b.toNat < 128) (on : Bool) :
    (writeBit b 7 on).toNat = b.toNat + 128 * on.toNat := by
  cases on with
  | false =>
    have hclear : testBit b 7 = false := by
      rw [testBit_seven]
      exact decide_eq_false (by omega)
    rw [writeBit_self hclear]
    rfl
  | true =>
    have hor := Nat.two_pow_add_eq_or_of_lt (show b.toNat < 2 ^ 7 from hsmall) 1
    show (b ||| bitMask 7).toNat = b.toNat + 128
    rw [UInt8.toNat_or, Nat.or_comm]
    show 2 ^ 7 * 1 ||| b.toNat = _
    omega

namespace Cpu.Shift

/-! ## The bit that comes in -/

/-- The bit that comes into the byte. -/
def carryIn (carry : Bool) : Shift → Bool
  | .shiftLeft | .shiftRight => false
  | .rotateLeft | .rotateRight => carry

/-- Whether the byte moves towards its upper end. -/
def isLeft : Shift → Bool
  | .shiftLeft | .rotateLeft => true
  | .shiftRight | .rotateRight => false

variable {way : Shift} (v : UInt8) (carry : Bool)

/-- To the left a byte moves, and the bit that comes in is its lowest. -/
theorem result_of_left (h : way.isLeft) :
    way.result v carry = writeBit (v <<< 1) 0 (way.carryIn carry) := by
  cases way with
  | shiftLeft =>
    have hlowest : testBit (v <<< 1) 0 = false := by
      rw [testBit_zero, toNat_shiftLeft_one]
      exact decide_eq_false (by omega)
    exact (writeBit_self hlowest).symm
  | rotateLeft => rfl
  | shiftRight | rotateRight => cases h

/-- To the right a byte moves, and the bit that comes in is its highest. -/
theorem result_of_right (h : way.isLeft = false) :
    way.result v carry = writeBit (v >>> 1) 7 (way.carryIn carry) := by
  cases way with
  | shiftRight =>
    have hv := v.toNat_lt
    have hhighest : testBit (v >>> 1) 7 = false := by
      rw [testBit_seven, toNat_shiftRight_one]
      exact decide_eq_false (by omega)
    exact (writeBit_self hhighest).symm
  | rotateRight => rfl
  | shiftLeft | rotateLeft => cases h

/-! ## Byte and carry in numbers -/

theorem toNat_result_of_left (h : way.isLeft) :
    (way.result v carry).toNat = 2 * v.toNat % 256 + (way.carryIn carry).toNat := by
  have heven : (v <<< 1).toNat % 2 = 0 := by
    rw [toNat_shiftLeft_one]
    omega
  rw [result_of_left v carry h, toNat_writeBit_zero heven, toNat_shiftLeft_one]

theorem toNat_result_of_right (h : way.isLeft = false) :
    (way.result v carry).toNat = v.toNat / 2 + 128 * (way.carryIn carry).toNat := by
  have hv := v.toNat_lt
  have hsmall : (v >>> 1).toNat < 128 := by
    rw [toNat_shiftRight_one]
    omega
  rw [result_of_right v carry h, toNat_writeBit_seven hsmall, toNat_shiftRight_one]

theorem toNat_carryOut_of_left (h : way.isLeft) : (way.carryOut v).toNat = v.toNat / 128 := by
  have hv := v.toNat_lt
  have hbit : way.carryOut v = decide (128 ≤ v.toNat) := by
    rw [← testBit_seven]
    cases way with
    | shiftLeft | rotateLeft => rfl
    | shiftRight | rotateRight => cases h
  rw [hbit]
  by_cases hlarge : 128 ≤ v.toNat
  · rw [decide_eq_true hlarge]
    show 1 = _
    omega
  · rw [decide_eq_false hlarge]
    show 0 = _
    omega

theorem toNat_carryOut_of_right (h : way.isLeft = false) :
    (way.carryOut v).toNat = v.toNat % 2 := by
  have hbit : way.carryOut v = decide (v.toNat % 2 = 1) := by
    rw [← testBit_zero]
    cases way with
    | shiftRight | rotateRight => rfl
    | shiftLeft | rotateLeft => cases h
  rw [hbit]
  rcases Nat.mod_two_eq_zero_or_one v.toNat with heven | hodd
  · rw [heven]
    rfl
  · rw [hodd]
    rfl

/-- **To the left**: byte and carry together are the double of the byte and what comes in. -/
theorem moved_left (h : way.isLeft) :
    (way.result v carry).toNat + 256 * (way.carryOut v).toNat =
      2 * v.toNat + (way.carryIn carry).toNat := by
  rw [toNat_result_of_left v carry h, toNat_carryOut_of_left v h]
  omega

/-- **To the right**: byte and carry together are the half of the byte with what comes in above
    it. -/
theorem moved_right (h : way.isLeft = false) :
    2 * (way.result v carry).toNat + (way.carryOut v).toNat =
      v.toNat + 256 * (way.carryIn carry).toNat := by
  rw [toNat_result_of_right v carry h, toNat_carryOut_of_right v h]
  omega

end Cpu.Shift

end Nes
