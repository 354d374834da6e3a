/-
  Addressing modes: where an instruction finds what it works on.

  A mode decides how many bytes follow the opcode and how many cycles it takes to form the address
  from them.  Which address that is, is the matter of `Nes.Cpu.Operand`.
-/

namespace Nes.Cpu

/-- The thirteen addressing modes. -/
inductive Mode where
  /-- The operation itself says what it works on. -/
  | implied
  | accumulator
  /-- The byte after the opcode is the value. -/
  | immediate
  /-- The byte after the opcode is an address in page zero. -/
  | zeroPage
  | zeroPageX
  | zeroPageY
  /-- The byte after the opcode is a signed distance. -/
  | relative
  /-- The word after the opcode is the address. -/
  | absolute
  | absoluteX
  | absoluteY
  /-- The word after the opcode is where the address is found. -/
  | indirect
  /-- The byte after the opcode plus X is where in page zero the address is found. -/
  | preIndexedIndirect
  /-- The byte after the opcode is where in page zero the address is found, to which Y is added. -/
  | postIndexedIndirect
  deriving DecidableEq

namespace Mode

/-- The name of a mode. -/
def name : Mode → String
  | .implied => "Implied"
  | .accumulator => "Accumulator"
  | .immediate => "Immediate"
  | .zeroPage => "ZeroPage"
  | .zeroPageX => "ZeroPageX"
  | .zeroPageY => "ZeroPageY"
  | .relative => "Relative"
  | .absolute => "Absolute"
  | .absoluteX => "AbsoluteX"
  | .absoluteY => "AbsoluteY"
  | .indirect => "Indirect"
  | .preIndexedIndirect => "PreIndexedIndirect"
  | .postIndexedIndirect => "PostIndexedIndirect"

/-- The cycles it takes to form the address, apart from a page crossing. -/
def cycles : Mode → UInt8
  | .implied | .accumulator | .immediate | .relative => 0
  | .zeroPage => 1
  | .zeroPageX | .zeroPageY | .absolute | .absoluteX | .absoluteY => 2
  | .postIndexedIndirect => 3
  | .indirect | .preIndexedIndirect => 4

/-- The bytes that follow the opcode. -/
def operandLength : Mode → Nat
  | .implied | .accumulator => 0
  | .immediate | .zeroPage | .zeroPageX | .zeroPageY | .relative
  | .preIndexedIndirect | .postIndexedIndirect => 1
  | .absolute | .absoluteX | .absoluteY | .indirect => 2

/-- Whether an index is added to a whole address, so that the sum may leave the page. -/
def mayCross : Mode → Bool
  | .absoluteX | .absoluteY | .postIndexedIndirect => true
  | _ => false

end Mode

end Nes.Cpu
