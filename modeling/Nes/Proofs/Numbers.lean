/-
  Numbers of many bytes: what a row of bytes stands for, the least significant byte first.

  `number` is the number that the bytes stand for as they are, `signedNumber` the one they stand for
  in two's complement: the upper half of the numbers of that length are the negative ones.  Both are
  told from the lowest byte and the number of the others (`number_cons`, `signedNumber_cons`), so
  what a computation does to the bytes one by one is followed by induction on them.  The complement
  of all bytes is the number from the other end (`number_complement`, `signedNumber_complement`).
-/
import Mathlib.Data.Nat.Digits.Lemmas
import Nes.Proofs.Cpu.Arithmetic

namespace Nes

/-- The number that some bytes stand for, the least significant one first. -/
def number (bytes : List UInt8) : Nat := Nat.ofDigits 256 (bytes.map UInt8.toNat)

/-- The number that some bytes stand for in two's complement. -/
def signedNumber (bytes : List UInt8) : Int :=
  if 2 * number bytes < 256 ^ bytes.length then (number bytes : Int)
  else (number bytes : Int) - 256 ^ bytes.length

/-- The number `s` is none that `n` bytes stand for in two's complement. -/
def Overflows (n : Nat) (s : Int) : Prop := 2 * s < -256 ^ n ∨ 256 ^ n ≤ 2 * s

/-! ## Byte by byte -/

@[simp] theorem number_nil : number [] = 0 := rfl

theorem number_cons (b : UInt8) (rest : List UInt8) :
    number (b :: rest) = b.toNat + 256 * number rest := by
  rw [number, List.map_cons, Nat.ofDigits_cons]
  rfl

/-- The highest byte counts by itself. -/
theorem number_concat (bytes : List UInt8) (b : UInt8) :
    number (bytes ++ [b]) = number bytes + 256 ^ bytes.length * b.toNat := by
  rw [number, List.map_append, Nat.ofDigits_append, List.length_map]
  rfl

theorem number_lt (bytes : List UInt8) : number bytes < 256 ^ bytes.length := by
  have hsmall : ∀ d ∈ bytes.map UInt8.toNat, d < 256 := by
    intro d hd
    obtain ⟨b, -, rfl⟩ := List.mem_map.mp hd
    exact b.toNat_lt
  have hlt := Nat.ofDigits_lt_base_pow_length (by decide) hsmall
  rwa [List.length_map] at hlt

/-- A power of 256 is even, unless it is 1. -/
theorem exists_pow_eq {n : Nat} (hpos : n ≠ 0) : ∃ half, 256 ^ n = 2 * half := by
  obtain ⟨m, rfl⟩ := Nat.exists_eq_succ_of_ne_zero hpos
  refine ⟨128 * 256 ^ m, ?_⟩
  rw [Nat.pow_succ]
  omega

theorem signedNumber_singleton (b : UInt8) : signedNumber [b] = signed b := by
  rw [signedNumber, number_cons, number_nil, signed_eq]
  show (if 2 * b.toNat < 256 then (b.toNat : Int) else (b.toNat : Int) - 256) = _
  by_cases hsmall : b.toNat < 128
  · rw [if_pos hsmall, if_pos (by omega)]
  · rw [if_neg hsmall, if_neg (by omega)]

/-- The sign of a number is that of its upper bytes. -/
theorem signedNumber_cons (b : UInt8) {rest : List UInt8} (hrest : rest ≠ []) :
    signedNumber (b :: rest) = b.toNat + 256 * signedNumber rest := by
  have hb := b.toNat_lt
  have hpow : 256 ^ (b :: rest).length = 256 * 256 ^ rest.length := by
    rw [List.length_cons, Nat.pow_succ, Nat.mul_comm]
  have hpowInt : (256 : Int) ^ (b :: rest).length = 256 * 256 ^ rest.length := by
    exact_mod_cast hpow
  have hlength : rest.length ≠ 0 := fun h => hrest (List.length_eq_zero_iff.mp h)
  obtain ⟨half, hhalf⟩ := exists_pow_eq hlength
  rw [signedNumber, signedNumber, number_cons, hpow, hpowInt, hhalf]
  by_cases hsmall : 2 * number rest < 2 * half
  · rw [if_pos hsmall, if_pos (by omega)]
    push_cast
    rfl
  · rw [if_neg hsmall, if_neg (by omega)]
    push_cast
    omega

/-- The lowest byte has no part in whether a number of several bytes overflows. -/
theorem overflows_succ_iff {n b : Nat} (hpos : n ≠ 0) (hb : b < 256) (s : Int) :
    Overflows (n + 1) (b + 256 * s) ↔ Overflows n s := by
  obtain ⟨half, hhalf⟩ := exists_pow_eq hpos
  have hpow : (256 : Int) ^ n = 2 * half := by exact_mod_cast hhalf
  rw [Overflows, Overflows, Int.pow_succ, hpow]
  omega

/-! ## Complements -/

theorem number_complement (bytes : List UInt8) :
    number (bytes.map (~~~ ·)) + number bytes + 1 = 256 ^ bytes.length := by
  induction bytes with
  | nil => rfl
  | cons b rest ih =>
    have hb := b.toNat_lt
    rw [List.map_cons, number_cons, number_cons, toNat_complement, List.length_cons, Nat.pow_succ]
    omega

theorem signedNumber_complement {bytes : List UInt8} (hbytes : bytes ≠ []) :
    signedNumber (bytes.map (~~~ ·)) = -1 - signedNumber bytes := by
  induction bytes with
  | nil => exact absurd rfl hbytes
  | cons b rest ih =>
    have hb := b.toNat_lt
    rcases rest with _ | ⟨next, rest⟩
    · rw [List.map_singleton, signedNumber_singleton, signedNumber_singleton, signed_complement]
    · rw [List.map_cons, signedNumber_cons _ (by simp), signedNumber_cons _ (by simp),
        ih (by simp), toNat_complement]
      omega

end Nes
