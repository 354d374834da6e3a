/-
  Bits of a byte and bytes of a word.

  A byte is a `UInt8`, an address or any other word a `UInt16`.  Bits are numbered by `Fin 8`, from
  the least significant one, so a bit outside the byte cannot be asked for.

  * A byte IS its eight bits: `ext_testBit` says that two bytes with the same bits are equal, and
    each operation on one bit comes with its reading at every bit (`testBit_setBit`,
    `testBit_clearBit`, `testBit_writeBit`).
  * A word IS its two bytes: `word lo hi` puts them together, `lowByte` and `highByte` take them
    apart, and the three are inverse to each other.  The high byte of an address is its page.
-/
namespace Nes

/-! ## The bits of a byte -/

/-- There is a bit 0, so numerals stand for bits. -/
instance neZero_bits : @NeZero Nat Zero.ofOfNat0 8 := ⟨by decide⟩

/-- The byte whose only set bit is `i`. -/
def bitMask (i : Fin 8) : UInt8 := 1 <<< UInt8.ofNat i.val

/-- Whether bit `i` of `b` is set. -/
def testBit (b : UInt8) (i : Fin 8) : Bool := b.toBitVec[i.val]

/-- The byte `b` with bit `i` set. -/
def setBit (b : UInt8) (i : Fin 8) : UInt8 := b ||| bitMask i

/-- The byte `b` with bit `i` clear. -/
def clearBit (b : UInt8) (i : Fin 8) : UInt8 := b &&& ~~~ bitMask i

/-- The byte `b` with `on` stored in bit `i`. -/
def writeBit (b : UInt8) (i : Fin 8) (on : Bool) : UInt8 :=
  if on then setBit b i else clearBit b i

/-- Two bytes with the same bits are equal. -/
theorem ext_testBit {a b : UInt8} (h : ∀ i, testBit a i = testBit b i) : a = b := by
  apply UInt8.toBitVec_inj.1
  apply BitVec.eq_of_getElem_eq
  intro i hi
  exact h ⟨i, hi⟩

@[simp] theorem testBit_bitMask (i j : Fin 8) : testBit (bitMask i) j = decide (i = j) := by
  revert i j; decide

theorem testBit_or (a b : UInt8) (i : Fin 8) :
    testBit (a ||| b) i = (testBit a i || testBit b i) := by simp [testBit]

theorem testBit_and (a b : UInt8) (i : Fin 8) :
    testBit (a &&& b) i = (testBit a i && testBit b i) := by simp [testBit]

theorem testBit_xor (a b : UInt8) (i : Fin 8) :
    testBit (a ^^^ b) i = (testBit a i ^^ testBit b i) := by simp [testBit]

theorem testBit_not (a : UInt8) (i : Fin 8) : testBit (~~~ a) i = !testBit a i := by
  simp [testBit]

/-- Setting a bit sets that bit and no other. -/
@[simp] theorem testBit_setBit (b : UInt8) (i j : Fin 8) :
    testBit (setBit b i) j = (testBit b j || decide (i = j)) := by
  simp [setBit, testBit_or]

/-- Clearing a bit clears that bit and no other. -/
@[simp] theorem testBit_clearBit (b : UInt8) (i j : Fin 8) :
    testBit (clearBit b i) j = (testBit b j && !decide (i = j)) := by
  simp [clearBit, testBit_and, testBit_not]

/-- Writing a bit stores the value there and keeps the seven others. -/
@[simp] theorem testBit_writeBit (b : UInt8) (i j : Fin 8) (on : Bool) :
    testBit (writeBit b i on) j = if i = j then on else testBit b j := by
  by_cases h : i = j <;> cases on <;> simp [writeBit, h]

/-! ## Nibbles -/

/-- The byte with the low half of `upper` above the low half of `lower`. -/
def packNibbles (upper lower : UInt8) : UInt8 := ((upper &&& 0x0F) <<< 4) ||| (lower &&& 0x0F)

/-! ## The bytes of a word -/

/-- The word with low byte `lo` and high byte `hi`: words lie in memory low byte first. -/
def word (lo hi : UInt8) : UInt16 := lo.toUInt16 + 256 * hi.toUInt16

/-- The low byte of a word. -/
def lowByte (w : UInt16) : UInt8 := w.toUInt8

/-- The high byte of a word; for an address, its page. -/
def highByte (w : UInt16) : UInt8 := (w / 256).toUInt8

@[simp] theorem toNat_word (lo hi : UInt8) : (word lo hi).toNat = lo.toNat + 256 * hi.toNat := by
  have := lo.toNat_lt
  have := hi.toNat_lt
  simp only [word, UInt16.toNat_add, UInt16.toNat_mul, UInt8.toNat_toUInt16, UInt16.reduceToNat]
  omega

@[simp] theorem toNat_lowByte (w : UInt16) : (lowByte w).toNat = w.toNat % 256 := by
  simp [lowByte]

@[simp] theorem toNat_highByte (w : UInt16) : (highByte w).toNat = w.toNat / 256 := by
  have := w.toNat_lt
  simp [highByte]
  omega

@[simp] theorem lowByte_word (lo hi : UInt8) : lowByte (word lo hi) = lo := by
  apply UInt8.toNat_inj.1
  have := lo.toNat_lt
  simp

@[simp] theorem highByte_word (lo hi : UInt8) : highByte (word lo hi) = hi := by
  apply UInt8.toNat_inj.1
  have := lo.toNat_lt
  simp
  omega

/-- A word is made of its two bytes. -/
@[simp] theorem word_lowByte_highByte (w : UInt16) : word (lowByte w) (highByte w) = w := by
  apply UInt16.toNat_inj.1
  simp
  omega

/-- The word that adds the signed byte `d` to an address, modulo 65536. -/
def signExtend (d : Int8) : UInt16 := d.toInt16.toUInt16

/-! ## Counting -/

/-- The two directions in which a register or a cell counts.  Counting wraps at the width. -/
inductive Direction where
  | up
  | down
  deriving DecidableEq

/-- The neighbour of `v` in a direction. -/
def Direction.step {α : Type} [Add α] [Sub α] [OfNat α 1] : Direction → α → α
  | .up, v => v + 1
  | .down, v => v - 1

end Nes
