/-
  Finding operands: what an addressing mode comes to on memory that does not react to being read.

  `Mode.resolve` asks a bus for the bytes after the opcode and for those a pointer leads to.  On a
  passive bus all of that depends on the bytes shown alone, so here it is said without a bus: for
  `mem`, the bytes shown at each address, and the registers with PC at the opcode,

  * `Mode.find`         is the operand;
  * `Mode.crosses`      is whether an index carried the address out of the page of its base;
  * `Mode.pointerCells` are the cells of the pointer, for the three modes that have one.

  `perform_resolve` is the link: `Mode.resolve` reads the operand's bytes in a row, then the cells
  of the pointer, and finds that operand.  The kind of the operand is fixed by the mode on every bus
  (`always_resolve`).
-/
import Nes.Cpu.Action
import Nes.Proofs.Bus.Passive

namespace Nes.Cpu

open Nes.Traffic (Performed)

/-! ## Kinds of operands -/

/-- What an operand is, apart from which one. -/
inductive OperandKind where
  | implied
  | accumulator
  | immediate
  | address
  | relative
  deriving DecidableEq

/-- The kind of an operand. -/
def Operand.kind : Operand → OperandKind
  | .implied => .implied
  | .accumulator => .accumulator
  | .immediate _ => .immediate
  | .address _ => .address
  | .relative _ => .relative

/-- An operand of the kind of cells is a cell. -/
theorem Operand.eq_address_of_kind {operand : Operand} (h : operand.kind = .address) :
    ∃ addr, operand = .address addr := by
  cases operand with
  | address addr => exact ⟨addr, rfl⟩
  | implied | accumulator | immediate _ | relative _ => cases h

/-- The kind of operand that a mode finds. -/
def Mode.kind : Mode → OperandKind
  | .implied => .implied
  | .accumulator => .accumulator
  | .immediate => .immediate
  | .relative => .relative
  | .zeroPage | .zeroPageX | .zeroPageY | .absolute | .absoluteX | .absoluteY | .indirect
  | .preIndexedIndirect | .postIndexedIndirect => .address

/-- Whatever is read, a mode finds an operand of its kind, and changes nothing but PC. -/
theorem Mode.always_resolve (mode : Mode) (r : Registers) :
    (mode.resolve r).Always fun found =>
      found.operand.kind = mode.kind ∧ ∃ pc, found.registers = { r with pc := pc } := by
  cases mode with
  | implied | accumulator => exact ⟨rfl, r.pc, rfl⟩
  | immediate | relative | zeroPage | zeroPageX | zeroPageY => exact fun _ => ⟨rfl, _, rfl⟩
  | absolute | absoluteX | absoluteY => exact fun _ _ => ⟨rfl, _, rfl⟩
  | preIndexedIndirect | postIndexedIndirect => exact fun _ _ _ => ⟨rfl, _, rfl⟩
  | indirect => exact fun _ _ _ _ => ⟨rfl, _, rfl⟩

namespace Mode

/-! ## Without a bus -/

section

variable (mem : UInt16 → UInt8) (r : Registers)

/-- The first byte after the opcode at PC. -/
def lowAt : UInt8 := mem (r.pc + 1)

/-- The word after the opcode at PC. -/
def wordAt : UInt16 := word (mem (r.pc + 1)) (mem (r.pc + 2))

/-- The word that a pointer in page zero leads to; its second byte is in page zero too. -/
def zeroPageWord (pointer : UInt8) : UInt16 :=
  word (mem pointer.toUInt16) (mem (pointer + 1).toUInt16)

/-- The word that a pointer leads to whose second byte is in the page of the first. -/
def samePageWord (pointer : UInt16) : UInt16 :=
  word (mem pointer) (mem (word (lowByte pointer + 1) (highByte pointer)))

/-- The operand of the instruction at PC. -/
def find : Mode → Operand
  | .implied => .implied
  | .accumulator => .accumulator
  | .immediate => .immediate (lowAt mem r)
  | .relative => .relative (lowAt mem r).toInt8
  | .zeroPage => .address (lowAt mem r).toUInt16
  | .zeroPageX => .address (lowAt mem r + r.x).toUInt16
  | .zeroPageY => .address (lowAt mem r + r.y).toUInt16
  | .absolute => .address (wordAt mem r)
  | .absoluteX => .address (wordAt mem r + r.x.toUInt16)
  | .absoluteY => .address (wordAt mem r + r.y.toUInt16)
  | .indirect => .address (samePageWord mem (wordAt mem r))
  | .preIndexedIndirect => .address (zeroPageWord mem (lowAt mem r + r.x))
  | .postIndexedIndirect => .address (zeroPageWord mem (lowAt mem r) + r.y.toUInt16)

/-- Whether the low byte of an address and an index add up to more than a byte. -/
def overflows (base : UInt16) (index : UInt8) : Bool := 256 ≤ (lowByte base).toNat + index.toNat

/-- Whether an index carries the address out of the page of its base. -/
def crosses : Mode → Bool
  | .absoluteX => overflows (wordAt mem r) r.x
  | .absoluteY => overflows (wordAt mem r) r.y
  | .postIndexedIndirect => overflows (zeroPageWord mem (lowAt mem r)) r.y
  | _ => false

/-- The cells of the pointer through which the address is found. -/
def pointerCells : Mode → List UInt16
  | .preIndexedIndirect => [(lowAt mem r + r.x).toUInt16, (lowAt mem r + r.x + 1).toUInt16]
  | .postIndexedIndirect => [(lowAt mem r).toUInt16, (lowAt mem r + 1).toUInt16]
  | .indirect =>
    [wordAt mem r, word (lowByte (wordAt mem r) + 1) (highByte (wordAt mem r))]
  | _ => []

/-- Every cell that is read to find the operand, in order. -/
def operandCells (mode : Mode) : List UInt16 :=
  cellsFrom (r.pc + 1) mode.operandLength ++ mode.pointerCells mem r

theorem kind_find (mode : Mode) : (mode.find mem r).kind = mode.kind := by
  cases mode <;> rfl

end

/-! ## On a passive bus -/

variable {β : Type} [Bus β] [PassiveBus β]

section

variable (bus : β) (r : Registers) (spent : UInt8)

/-- The registers with PC behind the opcode. -/
def behindOpcode : Registers := { r with pc := r.pc + 1, stepCycles := spent }

theorem perform_operandByte :
    (behindOpcode r spent).operandByte.perform bus =
      .ofReads bus (cellsFrom (r.pc + 1) 1) (lowAt (Bus.peek bus) r) := by
  rw [cellsFrom_succ, cellsFrom_zero]
  exact Traffic.perform_readByte (r.pc + 1) bus

theorem perform_operandWord :
    (behindOpcode r spent).operandWord.perform bus =
      .ofReads bus (cellsFrom (r.pc + 1) 2) (wordAt (Bus.peek bus) r) := by
  rw [cellsFrom_succ, cellsFrom_succ, cellsFrom_zero, wordAt,
    show r.pc + 2 = r.pc + 1 + 1 from (UInt16.add_assoc r.pc 1 1).symm]
  exact Traffic.perform_readWord (r.pc + 1) (r.pc + 1 + 1) bus

theorem advance_behindOpcode (bytes : Nat) :
    (behindOpcode r spent).advance (UInt16.ofNat bytes) =
      { r with pc := r.pc + UInt16.ofNat (1 + bytes), stepCycles := spent } := by
  simp only [behindOpcode, Registers.advance, UInt16.ofNat_add, ← UInt16.add_assoc]
  rfl

theorem perform_readZeroPageWord (pointer : UInt8) :
    (readZeroPageWord pointer).perform bus =
      .ofReads bus [pointer.toUInt16, (pointer + 1).toUInt16]
        (zeroPageWord (Bus.peek bus) pointer) :=
  Traffic.perform_readWord pointer.toUInt16 (pointer + 1).toUInt16 bus

/-- An index carries an address into another page where the sum of the low bytes overflows. -/
theorem indexed_eq (base : UInt16) (index : UInt8) (r : Registers) :
    indexed base index r = ⟨.address (base + index.toUInt16), overflows base index, r⟩ := by
  have hcrossed : (indexed base index r).crossed = overflows base index := by
    rw [Bool.eq_iff_iff, indexed_crossed_iff, overflows, decide_eq_true_iff]
  rw [← hcrossed]
  rfl

/-- **A mode reads the bytes of its operand in a row, then the cells of its pointer**, and finds the
    operand that the bytes shown there name.  PC ends up behind the instruction. -/
theorem perform_resolve (mode : Mode) :
    (mode.resolve (behindOpcode r spent)).perform bus =
      .ofReads bus (mode.operandCells (Bus.peek bus) r)
        { operand := mode.find (Bus.peek bus) r
          crossed := mode.crosses (Bus.peek bus) r
          registers :=
            { r with
              pc := r.pc + UInt16.ofNat (1 + mode.operandLength)
              stepCycles := spent } } := by
  have hbyte := perform_operandByte bus r spent
  have hword := perform_operandWord bus r spent
  have hbehind : behindOpcode r spent = (behindOpcode r spent).advance (UInt16.ofNat 0) :=
    (advance_behindOpcode r spent 0).symm
  rw [← advance_behindOpcode r spent]
  cases mode with
  | implied => exact hbehind ▸ Traffic.perform_pure _ bus
  | accumulator => exact hbehind ▸ Traffic.perform_pure _ bus
  | immediate => exact Traffic.perform_map_ofReads hbyte _
  | relative => exact Traffic.perform_map_ofReads hbyte _
  | zeroPage => exact Traffic.perform_map_ofReads hbyte _
  | zeroPageX => exact Traffic.perform_map_ofReads hbyte _
  | zeroPageY => exact Traffic.perform_map_ofReads hbyte _
  | absolute => exact Traffic.perform_map_ofReads hword _
  | absoluteX =>
    have h := Traffic.perform_map_ofReads hword fun base =>
      indexed base r.x ((behindOpcode r spent).advance 2)
    rw [indexed_eq] at h
    exact h
  | absoluteY =>
    have h := Traffic.perform_map_ofReads hword fun base =>
      indexed base r.y ((behindOpcode r spent).advance 2)
    rw [indexed_eq] at h
    exact h
  | indirect =>
    have htarget := Traffic.perform_readWord (wordAt (Bus.peek bus) r)
      (nextInPage (wordAt (Bus.peek bus) r)) bus
    exact Traffic.perform_bind_ofReads hword (Traffic.perform_map_ofReads htarget _)
  | preIndexedIndirect =>
    have htarget := perform_readZeroPageWord bus (lowAt (Bus.peek bus) r + r.x)
    exact Traffic.perform_bind_ofReads hbyte (Traffic.perform_map_ofReads htarget _)
  | postIndexedIndirect =>
    have htarget := perform_readZeroPageWord bus (lowAt (Bus.peek bus) r)
    have h := Traffic.perform_map_ofReads htarget fun base =>
      indexed base r.y ((behindOpcode r spent).advance 1)
    rw [indexed_eq] at h
    exact Traffic.perform_bind_ofReads hbyte h

end

end Mode

end Nes.Cpu
