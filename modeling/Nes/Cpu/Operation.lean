/-
  Operations: what an instruction does, apart from where its operand lies.

  The mnemonics fall into families (loads, shifts, branches, …), and the members of a family differ
  by a parameter: the register, the flag, the direction.  The parameters of a family are exactly its
  members, so every `Operation` has a mnemonic and no two share one (`mnemonic_inj`).
-/
import Nes.Cpu.Mode
import Nes.Cpu.Registers

namespace Nes.Cpu

/-- Moves from register to register. -/
inductive Transfer where
  | aToX
  | aToY
  | xToA
  | yToA
  | spToX
  | xToSp
  deriving DecidableEq

/-- The bitwise connectives. -/
inductive Logic where
  | and
  | or
  | xor
  deriving DecidableEq

/-- The ways to move a byte by one bit; a rotation lets the old carry in where a shift lets 0 in. -/
inductive Shift where
  | shiftLeft
  | shiftRight
  | rotateLeft
  | rotateRight
  deriving DecidableEq

/-- The registers that count. -/
inductive Index where
  | x
  | y
  deriving DecidableEq

/-- The flags that branches test. -/
inductive Condition where
  | negative
  | overflow
  | carry
  | zero
  deriving DecidableEq

/-- The flags that instructions of their own set and clear. -/
inductive Switch where
  | carry
  | interruptDisable
  | decimal
  deriving DecidableEq

/-- The flag that a branch tests. -/
def Condition.flag : Condition → Flag
  | .negative => .negative
  | .overflow => .overflow
  | .carry => .carry
  | .zero => .zero

/-- The flag that a switch stands for. -/
def Switch.flag : Switch → Flag
  | .carry => .carry
  | .interruptDisable => .interruptDisable
  | .decimal => .decimal

/-- An index register as a register. -/
def Index.register : Index → Register
  | .x => .x
  | .y => .y

/-- What an instruction does. -/
inductive Operation where
  /-- The operand goes into a register. -/
  | load (target : Register)
  /-- A register goes to the operand's place. -/
  | store (source : Register)
  | transfer (move : Transfer)
  | pushA
  | pushStatus
  | pullA
  | pullStatus
  /-- A is combined with the operand bit by bit. -/
  | logic (connective : Logic)
  /-- The flags tell of the operand, and of the bits it shares with A. -/
  | testBits
  | add
  | subtract
  | compare (register : Register)
  /-- The operand counts in its place. -/
  | adjust (direction : Direction)
  /-- An index register counts. -/
  | count (index : Index) (direction : Direction)
  /-- The operand is moved by one bit in its place. -/
  | shift (way : Shift)
  | jump
  | callSubroutine
  | returnFromSubroutine
  | returnFromInterrupt
  /-- The software interrupt; it has a name and a size but is not executed. -/
  | softwareInterrupt
  | branch (condition : Condition) (wanted : Bool)
  | switch (flag : Switch) (on : Bool)
  | clearOverflow
  | idle
  deriving DecidableEq

namespace Operation

/-- The three letters that stand for an operation. -/
def mnemonic : Operation → String
  | .load .a => "LDA"
  | .load .x => "LDX"
  | .load .y => "LDY"
  | .store .a => "STA"
  | .store .x => "STX"
  | .store .y => "STY"
  | .transfer .aToX => "TAX"
  | .transfer .aToY => "TAY"
  | .transfer .xToA => "TXA"
  | .transfer .yToA => "TYA"
  | .transfer .spToX => "TSX"
  | .transfer .xToSp => "TXS"
  | .pushA => "PHA"
  | .pushStatus => "PHP"
  | .pullA => "PLA"
  | .pullStatus => "PLP"
  | .logic .and => "AND"
  | .logic .or => "ORA"
  | .logic .xor => "EOR"
  | .testBits => "BIT"
  | .add => "ADC"
  | .subtract => "SBC"
  | .compare .a => "CMP"
  | .compare .x => "CPX"
  | .compare .y => "CPY"
  | .adjust .up => "INC"
  | .adjust .down => "DEC"
  | .count .x .up => "INX"
  | .count .y .up => "INY"
  | .count .x .down => "DEX"
  | .count .y .down => "DEY"
  | .shift .shiftLeft => "ASL"
  | .shift .shiftRight => "LSR"
  | .shift .rotateLeft => "ROL"
  | .shift .rotateRight => "ROR"
  | .jump => "JMP"
  | .callSubroutine => "JSR"
  | .returnFromSubroutine => "RTS"
  | .returnFromInterrupt => "RTI"
  | .softwareInterrupt => "BRK"
  | .branch .negative false => "BPL"
  | .branch .negative true => "BMI"
  | .branch .overflow false => "BVC"
  | .branch .overflow true => "BVS"
  | .branch .carry false => "BCC"
  | .branch .carry true => "BCS"
  | .branch .zero false => "BNE"
  | .branch .zero true => "BEQ"
  | .switch .carry false => "CLC"
  | .switch .carry true => "SEC"
  | .switch .interruptDisable false => "CLI"
  | .switch .interruptDisable true => "SEI"
  | .switch .decimal false => "CLD"
  | .switch .decimal true => "SED"
  | .clearOverflow => "CLV"
  | .idle => "NOP"

/-- Every operation. -/
def all : List Operation :=
  [.load .a, .load .x, .load .y, .store .a, .store .x, .store .y, .transfer .aToX,
    .transfer .aToY, .transfer .xToA, .transfer .yToA, .transfer .spToX, .transfer .xToSp, .pushA,
    .pushStatus, .pullA, .pullStatus, .logic .and, .logic .or, .logic .xor, .testBits, .add,
    .subtract, .compare .a, .compare .x, .compare .y, .adjust .up, .adjust .down, .count .x .up,
    .count .y .up, .count .x .down, .count .y .down, .shift .shiftLeft, .shift .shiftRight,
    .shift .rotateLeft, .shift .rotateRight, .jump, .callSubroutine, .returnFromSubroutine,
    .returnFromInterrupt, .softwareInterrupt, .branch .negative false, .branch .negative true,
    .branch .overflow false, .branch .overflow true, .branch .carry false, .branch .carry true,
    .branch .zero false, .branch .zero true, .switch .carry false, .switch .carry true,
    .switch .interruptDisable false, .switch .interruptDisable true, .switch .decimal false,
    .switch .decimal true, .clearOverflow, .idle]

theorem mem_all (o : Operation) : o ∈ all := by
  rcases o with ⟨_ | _⟩ | ⟨_ | _⟩ | ⟨_ | _⟩ | _ | _ | _ | _ | ⟨_ | _⟩ | _ | _ | _ | ⟨_ | _⟩ |
    ⟨_ | _⟩ | ⟨_ | _, _ | _⟩ | ⟨_ | _⟩ | _ | _ | _ | _ | _ | ⟨_ | _, _ | _⟩ | ⟨_ | _, _ | _⟩ |
    _ | _ <;> decide

/-- Among all operations the mnemonic finds its own. -/
theorem find?_mnemonic :
    ∀ o ∈ all, all.find? (fun p => p.mnemonic == o.mnemonic) = some o := by decide

/-- No two operations share a mnemonic. -/
theorem mnemonic_inj {o p : Operation} (h : o.mnemonic = p.mnemonic) : o = p := by
  have ho := find?_mnemonic o (mem_all o)
  rw [h, find?_mnemonic p (mem_all p)] at ho
  exact (Option.some.inj ho).symm

/-- Whether an operation with an operand in memory reads it and does not write it. -/
def onlyReads : Operation → Bool
  | .load _ | .logic _ | .testBits | .add | .subtract | .compare _ => true
  | _ => false

/-- The cycles of an operation on top of those that its addressing mode takes. -/
def cycles : Operation → Mode → UInt8
  | .store _, mode => if mode.mayCross then 3 else 2
  | .adjust _, mode | .shift _, mode =>
    if mode = .accumulator then 2 else if mode.mayCross then 5 else 4
  | .pushA, _ | .pushStatus, _ => 3
  | .pullA, _ | .pullStatus, _ => 4
  | .jump, _ => 1
  | .callSubroutine, _ => 4
  | .returnFromSubroutine, _ | .returnFromInterrupt, _ => 6
  | .softwareInterrupt, _ => 7
  | _, _ => 2

end Operation

end Nes.Cpu
