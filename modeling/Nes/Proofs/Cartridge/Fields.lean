/-
  Fields: what a header says, and the bits that say it.

  Of the sixteen bytes of a header six are read, and not every bit of these.  The number of the
  board is spread over two bytes: its lower half is the upper half of the first, its upper half that
  of the second.

  1. **Halves**: a half of a byte is its four bits (`upperHalf_eq_iff`, `lowerHalf_eq_of_bits`).
  2. **Writing**: the image that begins with a given header, with anything where nothing is read
     (`Header.image`).
  3. **Reading**: what is written is read again, but no bank of program RAM as one
     (`read_image`).
  4. **What matters**: two headers are the same if they agree on the bits that are read, and only
     then (`headerOf_eq_iff`).
  5. **The mark**: whatever stands in its place, the same is read (`read_mark`).
-/
import Nes.Proofs.Cartridge.Acceptance

namespace Nes

open Nes.Cartridge (byteAt getElem?_eq_data headerOf read_eq testBit_eq_testBit_toNat
  toNat_packNibbles_upper)

/-! ## Halves -/

/-- The upper half of a byte is its upper four bits. -/
theorem upperHalf_eq_iff (a b : UInt8) :
    a.toNat / 16 = b.toNat / 16 ↔
      ∀ i ∈ [4, 5, 6, 7], a.toNat.testBit i = b.toNat.testBit i := by
  have hbit : ∀ (c : UInt8) i, (c.toNat / 16).testBit i = c.toNat.testBit (i + 4) :=
    fun c i => Nat.testBit_div_two_pow (n := 4) c.toNat i
  -- a byte has no bits from the eighth on
  have hlast : ∀ (c : UInt8) i, 4 ≤ i → c.toNat.testBit (i + 4) = false := fun c i hi =>
    Nat.testBit_lt_two_pow
      (Nat.lt_of_lt_of_le c.toNat_lt (Nat.pow_le_pow_right (by decide) (by omega)))
  constructor
  · intro h i hi
    have hi : 4 ≤ i := by
      revert i
      decide
    have hsame := congrArg (Nat.testBit · (i - 4)) h
    simp only [hbit, Nat.sub_add_cancel hi] at hsame
    exact hsame
  · intro h
    refine Nat.eq_of_testBit_eq fun i => ?_
    rw [hbit, hbit]
    by_cases hi : i < 4
    · exact h (i + 4) (by simp only [List.mem_cons, List.not_mem_nil]; omega)
    · rw [hlast a i (by omega), hlast b i (by omega)]

/-- The lower half of a byte is its lower four bits. -/
theorem lowerHalf_eq_of_bits {a b : UInt8}
    (h : ∀ i ∈ [0, 1, 2, 3], a.toNat.testBit i = b.toNat.testBit i) :
    a.toNat % 16 = b.toNat % 16 := by
  have hbit : ∀ (c : UInt8) i, (c.toNat % 16).testBit i = (decide (i < 4) && c.toNat.testBit i) :=
    fun c i => Nat.testBit_mod_two_pow c.toNat 4 i
  refine Nat.eq_of_testBit_eq fun i => ?_
  rw [hbit, hbit]
  by_cases hi : i < 4
  · rw [h i (by simp only [List.mem_cons, List.not_mem_nil]; omega)]
  · simp [hi]

/-- What is packed from the upper halves of two bytes tells these. -/
theorem packNibbles_upper_eq_iff (upper lower upper' lower' : UInt8) :
    packNibbles (upper >>> 4) (lower >>> 4) = packNibbles (upper' >>> 4) (lower' >>> 4) ↔
      upper.toNat / 16 = upper'.toNat / 16 ∧ lower.toNat / 16 = lower'.toNat / 16 := by
  have hlower := lower.toNat_lt
  have hlower' := lower'.toNat_lt
  rw [← UInt8.toNat_inj, toNat_packNibbles_upper, toNat_packNibbles_upper]
  omega

/-- The byte with the given halves. -/
theorem toNat_or_shiftLeft_four {low high : UInt8} (hlow : low.toNat < 16)
    (hhigh : high.toNat < 16) : (low ||| high <<< 4).toNat = 16 * high.toNat + low.toNat := by
  have hshift : (high <<< 4).toNat = high.toNat <<< 4 := by
    rw [UInt8.toNat_shiftLeft]
    show high.toNat <<< 4 % 256 = _
    rw [Nat.shiftLeft_eq]
    omega
  rw [UInt8.toNat_or, hshift, Nat.or_comm, ← Nat.shiftLeft_add_eq_or_of_lt hlow,
    Nat.shiftLeft_eq, Nat.mul_comm]

namespace Header

/-! ## Writing -/

/-- Four flags in the lower half of a byte. -/
def flagHalf (a b c d : Bool) : UInt8 :=
  a.toUInt8 ||| b.toUInt8 <<< 1 ||| c.toUInt8 <<< 2 ||| d.toUInt8 <<< 3

/-- What stands where nothing is read. -/
structure Filling where
  /-- In place of the mark. -/
  mark : Vector UInt8 4
  /-- Bit 2 of the second byte of flags. -/
  spare2 : Bool
  /-- Bit 3 of the second byte of flags. -/
  spare3 : Bool
  /-- The bits above the television standard. -/
  standard : UInt8
  /-- The last bytes of the header. -/
  padding : Vector UInt8 6
  /-- What follows the header. -/
  tail : Array UInt8

variable (h : Header) (f : Filling)

/-- The first byte of flags, with the lower half of the number of the board. -/
def flags6 : UInt8 :=
  flagHalf (h.mirroring = .vertical) h.batteryBacked h.trainerPresent h.ignoreMirroring |||
    (h.boardNumber % 16) <<< 4

/-- The second byte of flags, with the upper half of the number of the board. -/
def flags7 : UInt8 :=
  flagHalf h.vsUnisystem h.playchoice10 f.spare2 f.spare3 ||| (h.boardNumber / 16) <<< 4

/-- The byte of the television standard. -/
def flags9 : UInt8 := Bool.toUInt8 (h.tvSystem = .pal) ||| f.standard <<< 1

/-- The image that begins with a header. -/
def image : ByteArray :=
  ⟨f.mark.toArray ++
    (#[h.prgRomBanks, h.chrRomBanks, h.flags6, h.flags7 f, h.prgRamBanks, h.flags9 f] ++
      (f.padding.toArray ++ f.tail))⟩

theorem size_image : size ≤ (h.image f).size := by
  simp [image, size, ByteArray.size]
  omega

/-- What stands behind the mark. -/
theorem byteAt_behind_mark (mark : Vector UInt8 4) (rest : Array UInt8) (k : Nat) :
    byteAt ⟨mark.toArray ++ rest⟩ (4 + k) = rest[k]?.getD 0 := by
  rw [byteAt, getElem?_eq_data, Array.getElem?_append_right (by simp), Vector.size_toArray,
    Nat.add_sub_cancel_left]

/-- The bytes of such an image that are read. -/
theorem byteAt_image :
    byteAt (h.image f) 4 = h.prgRomBanks ∧ byteAt (h.image f) 5 = h.chrRomBanks ∧
      byteAt (h.image f) 6 = h.flags6 ∧ byteAt (h.image f) 7 = h.flags7 f ∧
      byteAt (h.image f) 8 = h.prgRamBanks ∧ byteAt (h.image f) 9 = h.flags9 f := by
  have hbyte : ∀ k (hk : k < 6), byteAt (h.image f) (4 + k) =
      #[h.prgRomBanks, h.chrRomBanks, h.flags6, h.flags7 f, h.prgRamBanks, h.flags9 f][k] := by
    intro k hk
    rw [image, byteAt_behind_mark, Array.getElem?_append_left hk, Array.getElem?_eq_getElem hk,
      Option.getD_some]
  exact ⟨hbyte 0 (by decide), hbyte 1 (by decide), hbyte 2 (by decide), hbyte 3 (by decide),
    hbyte 4 (by decide), hbyte 5 (by decide)⟩

/-! ## Reading -/

/-- The four flags in a half of a byte are found again, whatever the other half is. -/
theorem testBit_flagHalf (a b c d : Bool) {high : UInt8} (hhigh : high.toNat < 16) (i : Fin 8)
    (hi : i.val < 4) :
    testBit (flagHalf a b c d ||| high <<< 4) i = [a, b, c, d][i.val] := by
  have hflags : ∀ (a b c d : Bool) (i : Fin 4),
      (flagHalf a b c d).toNat.testBit i = [a, b, c, d][i.val] := by decide
  have hlow : ∀ a b c d : Bool, (flagHalf a b c d).toNat < 16 := by decide
  have hbelow := Nat.testBit_two_pow_mul_add (i := 4) high.toNat (hlow a b c d) i.val
  rw [if_pos hi] at hbelow
  rw [testBit_eq_testBit_toNat, toNat_or_shiftLeft_four (hlow a b c d) hhigh]
  exact hbelow.trans (hflags a b c d ⟨i, hi⟩)

/-- Beside them stands what was put there. -/
theorem upperHalf_flagHalf (a b c d : Bool) {high : UInt8} (hhigh : high.toNat < 16) :
    (flagHalf a b c d ||| high <<< 4).toNat / 16 = high.toNat := by
  have hlow : ∀ a b c d : Bool, (flagHalf a b c d).toNat < 16 := by decide
  have hlow := hlow a b c d
  rw [toNat_or_shiftLeft_four hlow hhigh]
  omega

/-- The lowest bit of a byte is found again, whatever stands above it. -/
theorem testBit_or_shiftLeft_one (a : Bool) (above : UInt8) :
    testBit (a.toUInt8 ||| above <<< 1) 0 = a := by
  have habove : (above <<< 1).toNat.testBit 0 = false := by
    rw [UInt8.toNat_shiftLeft]
    show (above.toNat <<< 1 % 2 ^ 8).testBit 0 = false
    rw [Nat.testBit_mod_two_pow, Nat.testBit_shiftLeft]
    rfl
  have hlow : testBit a.toUInt8 0 = a := by
    cases a <;> decide
  rw [testBit_or, hlow, testBit_eq_testBit_toNat (above <<< 1), Fin.val_zero, habove, Bool.or_false]

/-- What is read of a header: no bank of program RAM means one. -/
def asRead : Header := { h with prgRamBanks := if h.prgRamBanks = 0 then 1 else h.prgRamBanks }

theorem max_one (banks : UInt8) : max banks 1 = if banks = 0 then 1 else banks := by
  have hmax : max banks 1 = if banks ≤ 1 then 1 else banks := rfl
  rw [hmax]
  by_cases hle : banks ≤ 1
  · rw [if_pos hle]
    have hbanks : banks.toNat ≤ 1 := UInt8.le_iff_toNat_le.mp hle
    split
    · rfl
    · rename_i hzero
      have hpos : ¬ banks.toNat = 0 := fun h => hzero (UInt8.toNat_inj.mp h)
      exact UInt8.toNat_inj.mp (Nat.le_antisymm (Nat.pos_of_ne_zero hpos) hbanks)
  · rw [if_neg hle, if_neg]
    rintro rfl
    exact hle (by decide)

theorem lowerHalf_lt (number : UInt8) : (number % 16).toNat < 16 := by
  rw [UInt8.toNat_mod]
  exact Nat.mod_lt _ (by decide)

theorem upperHalf_lt (number : UInt8) : (number / 16).toNat < 16 := by
  have hbyte := number.toNat_lt
  rw [UInt8.toNat_div]
  show number.toNat / 16 < 16
  omega

/-- The number of the board is put together again. -/
theorem packNibbles_flags : packNibbles (h.flags7 f >>> 4) (h.flags6 >>> 4) = h.boardNumber := by
  have hlow : (h.boardNumber % 16).toNat = h.boardNumber.toNat % 16 := UInt8.toNat_mod _ _
  have hhigh : (h.boardNumber / 16).toNat = h.boardNumber.toNat / 16 := UInt8.toNat_div _ _
  have hnumber := toNat_packNibbles_upper (h.flags7 f) h.flags6
  rw [flags6, flags7, upperHalf_flagHalf _ _ _ _ (lowerHalf_lt _),
    upperHalf_flagHalf _ _ _ _ (upperHalf_lt _), hlow, hhigh, Nat.div_add_mod] at hnumber
  exact UInt8.toNat_inj.mp hnumber

/-- **What is written is read again.** -/
theorem read_image : read (h.image f) = .ok h.asRead := by
  obtain ⟨h4, h5, h6, h7, h8, h9⟩ := h.byteAt_image f
  have hlow := lowerHalf_lt h.boardNumber
  have hhigh := upperHalf_lt h.boardNumber
  have hmirroring : (if testBit h.flags6 0 then Mirroring.vertical else .horizontal) =
      h.mirroring := by
    rw [flags6, testBit_flagHalf _ _ _ _ hlow 0 (by decide)]
    cases h.mirroring <;> rfl
  have htvSystem : (if testBit (h.flags9 f) 0 then TvSystem.pal else .ntsc) = h.tvSystem := by
    rw [flags9, testBit_or_shiftLeft_one]
    cases h.tvSystem <;> rfl
  have hsize : ¬ (h.image f).size < 16 := Nat.not_lt.mpr (h.size_image f)
  rw [read_eq, if_neg hsize, headerOf, h4, h5, h6, h7, h8, h9, ofFields, packNibbles_flags,
    max_one, hmirroring, htvSystem, flags6, flags7, testBit_flagHalf _ _ _ _ hlow 1 (by decide),
    testBit_flagHalf _ _ _ _ hlow 2 (by decide), testBit_flagHalf _ _ _ _ hlow 3 (by decide),
    testBit_flagHalf _ _ _ _ hhigh 0 (by decide), testBit_flagHalf _ _ _ _ hhigh 1 (by decide)]
  rfl

/-! ## What matters -/

/-- Two images agree on the bits that are read. -/
structure SameWhereRead (a b : ByteArray) : Prop where
  prgRom : byteAt a 4 = byteAt b 4
  chrRom : byteAt a 5 = byteAt b 5
  flags6 : byteAt a 6 = byteAt b 6
  flags7 : ∀ i ∈ [0, 1, 4, 5, 6, 7], (byteAt a 7).toNat.testBit i = (byteAt b 7).toNat.testBit i
  prgRam : max (byteAt a 8) 1 = max (byteAt b 8) 1
  flags9 : (byteAt a 9).toNat.testBit 0 = (byteAt b 9).toNat.testBit 0

/-- **The bits that are read make the header.** -/
theorem headerOf_eq_iff (a b : ByteArray) : headerOf a = headerOf b ↔ SameWhereRead a b := by
  have hmirroring : ∀ p q : Bool, ((if p then Mirroring.vertical else .horizontal) =
      if q then .vertical else .horizontal) ↔ p = q := by decide
  have htvSystem : ∀ p q : Bool, ((if p then TvSystem.pal else .ntsc) =
      if q then .pal else .ntsc) ↔ p = q := by decide
  simp only [headerOf, ofFields, Header.mk.injEq, hmirroring, htvSystem,
    packNibbles_upper_eq_iff, testBit_eq_testBit_toNat]
  constructor
  · rintro ⟨hprgRom, hchrRom, hprgRam, h0, h1, h2, h3, hvs, hplaychoice, ⟨hhigh, hlow⟩,
      hstandard⟩
    refine ⟨hprgRom, hchrRom, ?_, ?_, hprgRam, hstandard⟩
    · -- the four flags are the lower half
      have hflags : ∀ i ∈ [0, 1, 2, 3],
          (byteAt a 6).toNat.testBit i = (byteAt b 6).toNat.testBit i := by
        simp only [List.forall_mem_cons]
        exact ⟨h0, h1, h2, h3, fun _ hmem => absurd hmem List.not_mem_nil⟩
      have hlower := lowerHalf_eq_of_bits hflags
      apply UInt8.toNat_inj.mp
      omega
    · have hupper := (upperHalf_eq_iff _ _).mp hhigh
      simp only [List.forall_mem_cons] at hupper ⊢
      exact ⟨hvs, hplaychoice, hupper⟩
  · intro h
    have h7 := h.flags7
    simp only [List.forall_mem_cons] at h7
    obtain ⟨hvs, hplaychoice, hupper⟩ := h7
    have hhigh := (upperHalf_eq_iff (byteAt a 7) (byteAt b 7)).mpr
      (by simpa only [List.forall_mem_cons] using hupper)
    rw [h.flags6]
    exact ⟨h.prgRom, h.chrRom, h.prgRam, rfl, rfl, rfl, rfl, hvs, hplaychoice, ⟨hhigh, rfl⟩,
      h.flags9⟩

/-! ## The mark -/

theorem toList_loop (bytes : ByteArray) (i : Nat) (before : List UInt8) :
    ByteArray.toList.loop bytes i before = before.reverse ++ bytes.data.toList.drop i := by
  induction hleft : bytes.size - i generalizing i before with
  | zero =>
    have hend : ¬ i < bytes.size := by omega
    have hnone : bytes.data.toList.drop i = [] := List.drop_eq_nil_of_le (Nat.not_lt.mp hend)
    rw [ByteArray.toList.loop, if_neg hend, hnone, List.append_nil]
  | succ left ih =>
    have hmore : i < bytes.size := by omega
    have hsome : bytes.data.toList.drop i = bytes[i] :: bytes.data.toList.drop (i + 1) :=
      List.drop_eq_getElem_cons hmore
    have hget : bytes.get! i = bytes[i] := getElem!_pos bytes.data i hmore
    rw [ByteArray.toList.loop, if_pos hmore, ih (i + 1) _ (by omega), hget, hsome,
      List.reverse_cons, List.append_assoc]
    rfl

/-- A header without the mark is reported, and nothing else about it. -/
theorem remarks_eq (image : ByteArray) :
    remarks image =
      if 16 ≤ image.size ∧ image.data.toList.take 4 ≠ [0x4E, 0x45, 0x53, 0x1A] then
        [⟨.warn, .cartridge, "missing iNES magic, parsing header anyway"⟩]
      else [] := by
  have hfirst : (image.extract 0 4).toList = image.data.toList.take 4 := by
    rw [ByteArray.toList, toList_loop, ByteArray.data_extract, Array.toList_extract]
    rfl
  rw [remarks, hfirst]
  rfl

/-- Whatever stands in place of the mark, the same is read. -/
theorem read_mark (mark mark' : Vector UInt8 4) (rest : Array UInt8) :
    read ⟨mark.toArray ++ rest⟩ = read ⟨mark'.toArray ++ rest⟩ := by
  have hsize : ∀ mark : Vector UInt8 4,
      ByteArray.size ⟨mark.toArray ++ rest⟩ = 4 + rest.size := by
    intro mark
    show (mark.toArray ++ rest).size = _
    rw [Array.size_append, Vector.size_toArray]
  have hheader : ∀ mark : Vector UInt8 4, headerOf ⟨mark.toArray ++ rest⟩ =
      ofFields (rest[0]?.getD 0) (rest[1]?.getD 0) (rest[2]?.getD 0) (rest[3]?.getD 0)
        (rest[4]?.getD 0) (rest[5]?.getD 0) := by
    intro mark
    rw [headerOf, byteAt_behind_mark mark rest 0, byteAt_behind_mark mark rest 1,
      byteAt_behind_mark mark rest 2, byteAt_behind_mark mark rest 3,
      byteAt_behind_mark mark rest 4, byteAt_behind_mark mark rest 5]
  rw [read_eq, read_eq, hsize, hsize, hheader, hheader]

/-! ## Together -/

/-- **Reading a header undoes writing it, and looks at nothing else.**

    * What has been written is read again, whatever stands where nothing is read; no bank of program
      RAM is read as one.
    * Of any two images with room for a header one is read, and it is the same just if they agree
      on the first six of the bytes behind the mark, but for two bits of the fourth, for whether the
      fifth is 0 or 1 and for the upper bits of the sixth.
    * Other images are refused.
    * The mark decides on nothing but whether there is something to report. -/
theorem header_of_image :
    (∀ (h : Header) (f : Filling),
      read (h.image f) = .ok h.asRead) ∧
    (∀ a b : ByteArray, 16 ≤ a.size → 16 ≤ b.size →
      ∃ ha hb, read a = .ok ha ∧ read b = .ok hb ∧ (ha = hb ↔ SameWhereRead a b)) ∧
    (∀ a : ByteArray, a.size < 16 → read a = .error (.tooShort a.size)) ∧
    (∀ (mark mark' : Vector UInt8 4) (rest : Array UInt8),
      read ⟨mark.toArray ++ rest⟩ = read ⟨mark'.toArray ++ rest⟩) ∧
    (∀ a : ByteArray, remarks a =
      if 16 ≤ a.size ∧ a.data.toList.take 4 ≠ [0x4E, 0x45, 0x53, 0x1A] then
        [⟨.warn, .cartridge, "missing iNES magic, parsing header anyway"⟩]
      else []) := by
  refine ⟨read_image, ?_, ?_, read_mark, remarks_eq⟩
  · intro a b hsizeA hsizeB
    refine ⟨headerOf a, headerOf b, ?_, ?_, headerOf_eq_iff a b⟩
    · rw [read_eq, if_neg (Nat.not_lt.mpr hsizeA)]
    · rw [read_eq, if_neg (Nat.not_lt.mpr hsizeB)]
  · intro a hshort
    rw [read_eq, if_pos hshort]

/-- Board 65 in two images that differ wherever they may. -/
theorem header_of_image_board_65 :
    let a : ByteArray := ⟨#[0x4E, 0x45, 0x53, 0x1A, 2, 1, 0x1B, 0x42, 0, 1, 0, 0, 0, 0, 0, 0]⟩
    let b : ByteArray := ⟨#[1, 2, 3, 4, 2, 1, 0x1B, 0x4E, 1, 0xFF, 9, 9, 9, 9, 9, 9, 9]⟩
    read a = read b ∧ remarks a = [] ∧ (remarks b).length = 1 ∧
      read ⟨#[0x4E, 0x45, 0x53]⟩ = .error (.tooShort 3) := by
  intro a b
  obtain ⟨-, hsame, hshort, -, hremarks⟩ := header_of_image
  obtain ⟨ha, hb, hreadA, hreadB, hiff⟩ := hsame a b (by decide) (by decide)
  have heq : ha = hb := by
    apply hiff.mpr
    constructor <;> decide
  refine ⟨?_, ?_, ?_, hshort _ (by decide)⟩
  · rw [hreadA, hreadB, heq]
  · rw [hremarks a]
    decide
  · rw [hremarks b]
    decide

end Header
end Nes
