/-
  Disassembly: an instruction as an assembler would write it.

  The text is the mnemonic and, where there is one, the operand in the notation of its mode.  The
  target of a branch is written as the address it leads to, not as the distance.  A byte that is no
  official opcode is written as data, and an operand that is cut off reads as zeros.
-/
import Nes.Cpu.Instruction

namespace Nes.Cpu

open Nes.Text (hexByte hexWord)

/-- The address to which the branch at `pc` with distance byte `distance` leads. -/
def branchTarget (pc : UInt16) (distance : UInt8) : UInt16 :=
  pc + 2 + signExtend distance.toInt8

/-- The operand in the notation of its mode: `lo` and `hi` are the bytes after the opcode at `pc`. -/
def Mode.operandText (pc : UInt16) (lo hi : UInt8) : Mode → String
  | .implied => ""
  | .accumulator => "A"
  | .immediate => "#$" ++ hexByte lo
  | .zeroPage => "$" ++ hexByte lo
  | .zeroPageX => "$" ++ hexByte lo ++ ",X"
  | .zeroPageY => "$" ++ hexByte lo ++ ",Y"
  | .relative => "$" ++ hexWord (branchTarget pc lo)
  | .absolute => "$" ++ hexWord (word lo hi)
  | .absoluteX => "$" ++ hexWord (word lo hi) ++ ",X"
  | .absoluteY => "$" ++ hexWord (word lo hi) ++ ",Y"
  | .indirect => "($" ++ hexWord (word lo hi) ++ ")"
  | .preIndexedIndirect => "($" ++ hexByte lo ++ ",X)"
  | .postIndexedIndirect => "($" ++ hexByte lo ++ "),Y"

/-- An instruction at `pc` whose opcode is followed by `lo` and `hi`. -/
def Instruction.text (i : Instruction) (pc : UInt16) (lo hi : UInt8) : String :=
  if i.mode = .implied then i.operation.mnemonic
  else i.operation.mnemonic ++ " " ++ i.mode.operandText pc lo hi

/-- The instruction with which `bytes` begin, at `pc`. -/
def disassemble (pc : UInt16) : List UInt8 → String
  | [] => ""
  | opcode :: operand =>
    match Instruction.decode? opcode with
    | none => ".db $" ++ hexByte opcode
    | some i => i.text pc (operand.getD 0 0) (operand.getD 1 0)

end Nes.Cpu
