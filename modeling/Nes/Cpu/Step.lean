/-
  Steps: one instruction from its opcode to the tally of its cycles.

  A step reads the opcode at PC and looks it up before anything else happens, so a step that cannot
  be taken leaves the registers as they are.  Then, if the run is traced, the trace line is reported;
  then the operand is found, the operation acts on it, and the cycles are added to the total.

  Reset reads the start address from its vector and puts every register in its power-up state.
-/
import Nes.Cpu.Action
import Nes.Cpu.TraceLine

namespace Nes.Cpu

open Nes.Text (hexByte hexWord)

/-- Why a step could not be taken. -/
inductive StepError where
  /-- The opcode has a name, but the instruction is not executed. -/
  | unimplementedOpcode (opcode : UInt8) (operation : Operation) (pc : UInt16)
  /-- The opcode means nothing. -/
  | unknownOpcode (opcode : UInt8) (pc : UInt16)
  /-- The operation has no use for the operand that its mode finds. -/
  | unsuitableOperand (instruction : Instruction) (pc : UInt16)
  deriving DecidableEq

/-- The wording of each failure. -/
def StepError.message : StepError → String
  | .unimplementedOpcode opcode operation pc =>
    "unimplemented opcode $" ++ hexByte opcode ++ " (" ++ operation.mnemonic ++ ") at $" ++
      hexWord pc
  | .unknownOpcode opcode pc => "unknown opcode $" ++ hexByte opcode ++ " at $" ++ hexWord pc
  | .unsuitableOperand instruction pc =>
    instruction.operation.mnemonic ++ " has no use for an operand in mode " ++
      instruction.mode.name ++ " at $" ++ hexWord pc

/-- What a step came to: the cycles it took or why it failed, and the registers afterwards. -/
structure Stepped where
  outcome : Except StepError UInt8
  registers : Registers

/-- The record that carries a trace line. -/
def traceRecord (line : String) : Record := ⟨.trace, .trace, line⟩

/-- Executes an instruction whose opcode lies at PC. -/
def Instruction.execute (i : Instruction) (r : Registers) : Traffic Stepped := do
  let start := { r with pc := r.pc + 1, stepCycles := i.baseCycles }
  let ⟨operand, crossed, ready⟩ ← i.mode.resolve start
  let ready :=
    if crossed && i.pagePenalty then { ready with stepCycles := ready.stepCycles + 1 } else ready
  match i.operation.action? operand with
  | none => return ⟨.error (.unsuitableOperand i r.pc), ready⟩
  | some action =>
    let last ← action ready
    return ⟨.ok last.stepCycles, { last with cycles := last.cycles + last.stepCycles.toUInt64 }⟩

namespace Registers

/-- Reports the trace line, if the run is traced. -/
def trace (r : Registers) (tracing : Bool) : Traffic Unit :=
  if tracing then do
    let line ← r.traceLine
    Traffic.note (traceRecord line)
  else return ()

/-- Takes one step. -/
def step (r : Registers) (tracing : Bool) : Traffic Stepped := do
  let opcode ← Traffic.readByte r.pc
  match Instruction.decode? opcode with
  | none => return ⟨.error (.unknownOpcode opcode r.pc), r⟩
  | some i =>
    if i.isImplemented then
      r.trace tracing
      i.execute r
    else return ⟨.error (.unimplementedOpcode opcode i.operation r.pc), r⟩

/-- Where the start address is found. -/
def resetVector : UInt16 := 0xFFFC

/-- The cycles that a reset takes. -/
def resetCycles : UInt64 := 7

/-- The registers after a reset. -/
def reset : Traffic Registers := do
  let start ← Traffic.readWord resetVector (resetVector + 1)
  return { powerUp with pc := start, cycles := resetCycles }

end Registers

end Nes.Cpu
