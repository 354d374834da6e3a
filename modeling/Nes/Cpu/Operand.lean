/-
  Operands: what an instruction works on, once its addressing mode has been followed.

  `Mode.resolve` reads the bytes after the opcode, moves PC past them and forms the address.  Sums
  wrap where the wires end:

  * an index is added to a page-zero address within page zero;
  * a pointer in page zero has its second byte in page zero too, behind $FF at $00;
  * the pointer of an indirect jump has its second byte in the same page as its first;
  * an index is added to a whole address modulo 65536, and here it is noted whether the sum left the
    page of the base.
-/
import Nes.Bus.Traffic
import Nes.Cpu.Operation

namespace Nes.Cpu

/-- What an instruction works on. -/
inductive Operand where
  /-- The operation itself says what it works on. -/
  | implied
  | accumulator
  /-- A value that came with the instruction. -/
  | immediate (value : UInt8)
  /-- A cell. -/
  | address (addr : UInt16)
  /-- A signed distance from the next instruction. -/
  | relative (distance : Int8)
  deriving DecidableEq

/-- An operand, and the registers with PC behind the instruction. -/
structure Resolved where
  operand : Operand
  /-- Whether an index carried the address into another page. -/
  crossed : Bool
  registers : Registers

namespace Registers

/-- Moves PC forward. -/
def advance (r : Registers) (bytes : UInt16) : Registers := { r with pc := r.pc + bytes }

/-- Reads the byte at PC. -/
def operandByte (r : Registers) : Traffic UInt8 := Traffic.readByte r.pc

/-- Reads the word at PC. -/
def operandWord (r : Registers) : Traffic UInt16 := Traffic.readWord r.pc (r.pc + 1)

end Registers

/-- Reads the word to which the byte `pointer` points in page zero. -/
def readZeroPageWord (pointer : UInt8) : Traffic UInt16 :=
  Traffic.readWord pointer.toUInt16 (pointer + 1).toUInt16

/-- Where the second byte of an indirect jump's target lies: in the page of the first. -/
def nextInPage (addr : UInt16) : UInt16 := word (lowByte addr + 1) (highByte addr)

/-- The cell at `base` plus `index`. -/
def indexed (base : UInt16) (index : UInt8) (r : Registers) : Resolved :=
  let addr := base + index.toUInt16
  ⟨.address addr, highByte addr != highByte base, r⟩

/-- Finds the operand of an instruction; PC stands behind the opcode. -/
def Mode.resolve : Mode → Registers → Traffic Resolved
  | .implied, r => return ⟨.implied, false, r⟩
  | .accumulator, r => return ⟨.accumulator, false, r⟩
  | .immediate, r => do
    let value ← r.operandByte
    return ⟨.immediate value, false, r.advance 1⟩
  | .relative, r => do
    let distance ← r.operandByte
    return ⟨.relative distance.toInt8, false, r.advance 1⟩
  | .zeroPage, r => do
    let low ← r.operandByte
    return ⟨.address low.toUInt16, false, r.advance 1⟩
  | .zeroPageX, r => do
    let low ← r.operandByte
    return ⟨.address (low + r.x).toUInt16, false, r.advance 1⟩
  | .zeroPageY, r => do
    let low ← r.operandByte
    return ⟨.address (low + r.y).toUInt16, false, r.advance 1⟩
  | .absolute, r => do
    let addr ← r.operandWord
    return ⟨.address addr, false, r.advance 2⟩
  | .absoluteX, r => do
    let base ← r.operandWord
    return indexed base r.x (r.advance 2)
  | .absoluteY, r => do
    let base ← r.operandWord
    return indexed base r.y (r.advance 2)
  | .indirect, r => do
    let pointer ← r.operandWord
    let addr ← Traffic.readWord pointer (nextInPage pointer)
    return ⟨.address addr, false, r.advance 2⟩
  | .preIndexedIndirect, r => do
    let pointer ← r.operandByte
    let addr ← readZeroPageWord (pointer + r.x)
    return ⟨.address addr, false, r.advance 1⟩
  | .postIndexedIndirect, r => do
    let pointer ← r.operandByte
    let base ← readZeroPageWord pointer
    return indexed base r.y (r.advance 1)

/-- The page is left exactly when the sum of the low bytes overflows. -/
theorem indexed_crossed_iff (base : UInt16) (index : UInt8) (r : Registers) :
    (indexed base index r).crossed ↔ 256 ≤ (lowByte base).toNat + index.toNat := by
  have hb := base.toNat_lt
  have hi := index.toNat_lt
  simp only [indexed, bne_iff_ne, ne_eq, ← UInt8.toNat_inj, toNat_highByte, toNat_lowByte,
    UInt16.toNat_add, UInt8.toNat_toUInt16]
  omega

/-- The second byte of an indirect jump's target lies in the page of the first. -/
@[simp] theorem highByte_nextInPage (addr : UInt16) :
    highByte (nextInPage addr) = highByte addr := by simp [nextInPage]

end Nes.Cpu
