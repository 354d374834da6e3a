/-
  Instructions: the meaning of the 256 opcodes.

  An instruction is an operation together with an addressing mode.  The official ones are listed by
  operation; every other opcode means nothing.  Cost and length follow from the two parts:

  * an instruction takes the cycles of its operation and those of its mode, and one more where it
    only reads and its index carries the address into another page;
  * it is as long as its operand and the opcode.
-/
import Nes.Cpu.Operation
import Nes.Text.Field

namespace Nes.Cpu

/-- An operation and the way it finds its operand. -/
structure Instruction where
  operation : Operation
  mode : Mode
  deriving DecidableEq

namespace Instruction

/-! ## Cost and length -/

/-- The cycles of the operation, on top of those of the mode. -/
def ownCycles (i : Instruction) : UInt8 := i.operation.cycles i.mode

/-- The cycles of the instruction, apart from page crossings and taken branches. -/
def baseCycles (i : Instruction) : UInt8 := i.ownCycles + i.mode.cycles

/-- Whether a page crossing costs a cycle. -/
def pagePenalty (i : Instruction) : Bool := i.operation.onlyReads && i.mode.mayCross

/-- The length of the instruction in bytes, the opcode included. -/
def size (i : Instruction) : Nat := 1 + i.mode.operandLength

/-- Whether the instruction can be executed. -/
def isImplemented (i : Instruction) : Bool := i.operation != .softwareInterrupt

/-- What there is to know about an instruction, on one line. -/
def describe (i : Instruction) : String :=
  "Opcode \x7b mnemonic: \"" ++ i.operation.mnemonic ++ "\", mode: " ++ i.mode.name ++
    ", cycles: " ++ Text.decimal i.ownCycles.toNat ++
    ", page_penalty: " ++ Text.truth i.pagePenalty ++
    ", implemented: " ++ Text.truth i.isImplemented ++ " \x7d"

/-! ## The official opcodes -/

/-- The opcodes of one operation, each with its mode. -/
def encodings (operation : Operation) (codes : List (UInt8 × Mode)) :
    List (UInt8 × Instruction) :=
  codes.map fun (code, mode) => (code, ⟨operation, mode⟩)

/-- Loads, stores and moves between registers. -/
def moveTable : List (UInt8 × Instruction) :=
  encodings (.load .a)
    [(0xA9, .immediate), (0xA5, .zeroPage), (0xB5, .zeroPageX), (0xAD, .absolute),
     (0xBD, .absoluteX), (0xB9, .absoluteY), (0xA1, .preIndexedIndirect),
     (0xB1, .postIndexedIndirect)] ++
  encodings (.load .x)
    [(0xA2, .immediate), (0xA6, .zeroPage), (0xB6, .zeroPageY), (0xAE, .absolute),
     (0xBE, .absoluteY)] ++
  encodings (.load .y)
    [(0xA0, .immediate), (0xA4, .zeroPage), (0xB4, .zeroPageX), (0xAC, .absolute),
     (0xBC, .absoluteX)] ++
  encodings (.store .a)
    [(0x85, .zeroPage), (0x95, .zeroPageX), (0x8D, .absolute), (0x9D, .absoluteX),
     (0x99, .absoluteY), (0x81, .preIndexedIndirect), (0x91, .postIndexedIndirect)] ++
  encodings (.store .x) [(0x86, .zeroPage), (0x96, .zeroPageY), (0x8E, .absolute)] ++
  encodings (.store .y) [(0x84, .zeroPage), (0x94, .zeroPageX), (0x8C, .absolute)] ++
  encodings (.transfer .aToX) [(0xAA, .implied)] ++
  encodings (.transfer .aToY) [(0xA8, .implied)] ++
  encodings (.transfer .xToA) [(0x8A, .implied)] ++
  encodings (.transfer .yToA) [(0x98, .implied)] ++
  encodings (.transfer .spToX) [(0xBA, .implied)] ++
  encodings (.transfer .xToSp) [(0x9A, .implied)] ++
  encodings .pushA [(0x48, .implied)] ++
  encodings .pushStatus [(0x08, .implied)] ++
  encodings .pullA [(0x68, .implied)] ++
  encodings .pullStatus [(0x28, .implied)]

/-- Connectives, sums, differences and comparisons. -/
def arithmeticTable : List (UInt8 × Instruction) :=
  encodings (.logic .and)
    [(0x29, .immediate), (0x25, .zeroPage), (0x35, .zeroPageX), (0x2D, .absolute),
     (0x3D, .absoluteX), (0x39, .absoluteY), (0x21, .preIndexedIndirect),
     (0x31, .postIndexedIndirect)] ++
  encodings (.logic .or)
    [(0x09, .immediate), (0x05, .zeroPage), (0x15, .zeroPageX), (0x0D, .absolute),
     (0x1D, .absoluteX), (0x19, .absoluteY), (0x01, .preIndexedIndirect),
     (0x11, .postIndexedIndirect)] ++
  encodings (.logic .xor)
    [(0x49, .immediate), (0x45, .zeroPage), (0x55, .zeroPageX), (0x4D, .absolute),
     (0x5D, .absoluteX), (0x59, .absoluteY), (0x41, .preIndexedIndirect),
     (0x51, .postIndexedIndirect)] ++
  encodings .testBits [(0x24, .zeroPage), (0x2C, .absolute)] ++
  encodings .add
    [(0x69, .immediate), (0x65, .zeroPage), (0x75, .zeroPageX), (0x6D, .absolute),
     (0x7D, .absoluteX), (0x79, .absoluteY), (0x61, .preIndexedIndirect),
     (0x71, .postIndexedIndirect)] ++
  encodings .subtract
    [(0xE9, .immediate), (0xE5, .zeroPage), (0xF5, .zeroPageX), (0xED, .absolute),
     (0xFD, .absoluteX), (0xF9, .absoluteY), (0xE1, .preIndexedIndirect),
     (0xF1, .postIndexedIndirect)] ++
  encodings (.compare .a)
    [(0xC9, .immediate), (0xC5, .zeroPage), (0xD5, .zeroPageX), (0xCD, .absolute),
     (0xDD, .absoluteX), (0xD9, .absoluteY), (0xC1, .preIndexedIndirect),
     (0xD1, .postIndexedIndirect)] ++
  encodings (.compare .x) [(0xE0, .immediate), (0xE4, .zeroPage), (0xEC, .absolute)] ++
  encodings (.compare .y) [(0xC0, .immediate), (0xC4, .zeroPage), (0xCC, .absolute)]

/-- Operations that change a byte in its place, and counting registers. -/
def modifyTable : List (UInt8 × Instruction) :=
  encodings (.adjust .up)
    [(0xE6, .zeroPage), (0xF6, .zeroPageX), (0xEE, .absolute), (0xFE, .absoluteX)] ++
  encodings (.adjust .down)
    [(0xC6, .zeroPage), (0xD6, .zeroPageX), (0xCE, .absolute), (0xDE, .absoluteX)] ++
  encodings (.count .x .up) [(0xE8, .implied)] ++
  encodings (.count .y .up) [(0xC8, .implied)] ++
  encodings (.count .x .down) [(0xCA, .implied)] ++
  encodings (.count .y .down) [(0x88, .implied)] ++
  encodings (.shift .shiftLeft)
    [(0x0A, .accumulator), (0x06, .zeroPage), (0x16, .zeroPageX), (0x0E, .absolute),
     (0x1E, .absoluteX)] ++
  encodings (.shift .shiftRight)
    [(0x4A, .accumulator), (0x46, .zeroPage), (0x56, .zeroPageX), (0x4E, .absolute),
     (0x5E, .absoluteX)] ++
  encodings (.shift .rotateLeft)
    [(0x2A, .accumulator), (0x26, .zeroPage), (0x36, .zeroPageX), (0x2E, .absolute),
     (0x3E, .absoluteX)] ++
  encodings (.shift .rotateRight)
    [(0x6A, .accumulator), (0x66, .zeroPage), (0x76, .zeroPageX), (0x6E, .absolute),
     (0x7E, .absoluteX)]

/-- Jumps, subroutines, branches and flags. -/
def controlTable : List (UInt8 × Instruction) :=
  encodings .jump [(0x4C, .absolute), (0x6C, .indirect)] ++
  encodings .callSubroutine [(0x20, .absolute)] ++
  encodings .returnFromSubroutine [(0x60, .implied)] ++
  encodings .returnFromInterrupt [(0x40, .implied)] ++
  encodings .softwareInterrupt [(0x00, .implied)] ++
  encodings (.branch .negative false) [(0x10, .relative)] ++
  encodings (.branch .negative true) [(0x30, .relative)] ++
  encodings (.branch .overflow false) [(0x50, .relative)] ++
  encodings (.branch .overflow true) [(0x70, .relative)] ++
  encodings (.branch .carry false) [(0x90, .relative)] ++
  encodings (.branch .carry true) [(0xB0, .relative)] ++
  encodings (.branch .zero false) [(0xD0, .relative)] ++
  encodings (.branch .zero true) [(0xF0, .relative)] ++
  encodings (.switch .carry false) [(0x18, .implied)] ++
  encodings (.switch .carry true) [(0x38, .implied)] ++
  encodings (.switch .interruptDisable false) [(0x58, .implied)] ++
  encodings (.switch .interruptDisable true) [(0x78, .implied)] ++
  encodings (.switch .decimal false) [(0xD8, .implied)] ++
  encodings (.switch .decimal true) [(0xF8, .implied)] ++
  encodings .clearOverflow [(0xB8, .implied)] ++
  encodings .idle [(0xEA, .implied)]

/-- Every official opcode with its instruction. -/
def table : List (UInt8 × Instruction) :=
  moveTable ++ arithmeticTable ++ modifyTable ++ controlTable

/-- The instruction that an opcode stands for, if any. -/
def decode? (opcode : UInt8) : Option Instruction := table.lookup opcode

/-- Whether no number of a list occurs twice, or has its bit in `seen`.  This is one pass over the
    list, where comparing each two of its numbers would take long. -/
def allNew (seen : Nat) : List Nat → Bool
  | [] => true
  | n :: rest => !seen.testBit n && allNew (seen ||| 1 <<< n) rest

theorem nodup_of_allNew {seen : Nat} {numbers : List Nat} (h : allNew seen numbers) :
    numbers.Nodup ∧ ∀ n ∈ numbers, seen.testBit n = false := by
  induction numbers generalizing seen with
  | nil => exact ⟨List.nodup_nil, nofun⟩
  | cons first rest ih =>
    simp only [allNew, Bool.and_eq_true, Bool.not_eq_true'] at h
    obtain ⟨hnodup, hseen⟩ := ih h.2
    simp only [Nat.testBit_or, Nat.one_shiftLeft, Nat.testBit_two_pow, Bool.or_eq_false_iff,
      decide_eq_false_iff_not] at hseen
    refine ⟨List.nodup_cons.mpr ⟨fun hmem => (hseen first hmem).2 rfl, hnodup⟩, ?_⟩
    intro n hn
    rcases List.mem_cons.mp hn with rfl | hrest
    · exact h.1
    · exact (hseen n hrest).1

/-- No opcode is listed twice. -/
theorem nodup_opcodes : (table.map fun e => e.1.toNat).Nodup := by
  have hnew : allNew 0 (table.map fun e => e.1.toNat) := by decide +kernel
  exact (nodup_of_allNew hnew).1

/-- What is decoded stands in the table. -/
theorem mem_table_of_decode? {opcode : UInt8} {i : Instruction} (h : decode? opcode = some i) :
    (opcode, i) ∈ table := by
  simp only [decode?, List.lookup_eq_some_iff] at h
  obtain ⟨before, rest, hsplit, -⟩ := h
  simp [hsplit]

/-- In a list without a key listed twice, looking a key up finds what stands beside it. -/
theorem lookup_of_mem {entries : List (UInt8 × Instruction)} {opcode : UInt8} {i : Instruction}
    (hnodup : (entries.map fun e => e.1.toNat).Nodup) (hmem : (opcode, i) ∈ entries) :
    entries.lookup opcode = some i := by
  induction entries with
  | nil => simp at hmem
  | cons e rest ih =>
    obtain ⟨code, j⟩ := e
    simp only [List.map_cons, List.nodup_cons, List.mem_map, not_exists, not_and] at hnodup
    rcases List.mem_cons.1 hmem with heq | hrest
    · cases heq
      simp
    · have hne : opcode ≠ code := fun h => hnodup.1 (opcode, i) hrest (by rw [h])
      have hbeq : (opcode == code) = false := by simpa using hne
      simpa [List.lookup_cons, hbeq] using ih hnodup.2 hrest

/-- The table is what decoding knows. -/
theorem decode?_eq_some_iff {opcode : UInt8} {i : Instruction} :
    decode? opcode = some i ↔ (opcode, i) ∈ table :=
  ⟨mem_table_of_decode?, lookup_of_mem nodup_opcodes⟩

end Instruction

end Nes.Cpu
