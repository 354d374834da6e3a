/-
  Stepping: what one step comes to on memory that does not react to being read.

  A step reads the opcode.  If it stands for an implemented instruction, the step reads what the
  trace line needs (where the run is traced), the operand and what the operation reads, then makes
  the stores of the operation, and succeeds (`actsAs_step`); the registers afterwards are
  `Instruction.outcome`, a function of the registers before and the bytes shown before.  If it does
  not, nothing else happens (`perform_step_of_unknown`, `perform_step_of_unimplemented`).
-/
import Nes.Cpu.Machine
import Nes.Proofs.Cpu.Effect

namespace Nes.Cpu

open Nes.Traffic (ActsAs Performed)

/-! ## Instructions without a bus -/

namespace Instruction

variable (i : Instruction) (mem : UInt16 → UInt8) (r : Registers)

/-- The operand of the instruction at PC. -/
def operand : Operand := i.mode.find mem r

/-- The registers once the operand is found: PC stands behind the instruction, and a page crossing
    has been paid for. -/
def ready : Registers :=
  { r with
    pc := r.pc + UInt16.ofNat i.size
    stepCycles :=
      if i.mode.crosses mem r && i.pagePenalty then i.baseCycles + 1 else i.baseCycles }

/-- The registers when the operation is done, before the cycles are added up. -/
def last : Registers := i.operation.outcome mem (i.operand mem r) (i.ready mem r)

/-- The registers after the instruction. -/
def outcome : Registers :=
  { i.last mem r with cycles := (i.last mem r).cycles + (i.last mem r).stepCycles.toUInt64 }

/-- The cells that the instruction reads behind its opcode. -/
def reads : List UInt16 :=
  i.mode.operandCells mem r ++ i.operation.reads (i.operand mem r) r

/-- The stores that the instruction makes. -/
def stores : List (UInt16 × UInt8) := i.operation.stores mem (i.operand mem r) (i.ready mem r)

variable {β : Type} [Bus β] [PassiveBus β] (bus : β)

/-- **What an instruction does on a passive bus**, if its operation accepts what its mode finds. -/
theorem actsAs_execute (haccepts : i.operation.accepts i.mode.kind) :
    (i.execute r).ActsAs bus (i.reads (Bus.peek bus) r) (i.stores (Bus.peek bus) r)
      ⟨.ok (i.outcome (Bus.peek bus) r).stepCycles, i.outcome (Bus.peek bus) r⟩ := by
  have hfound := ActsAs.of_ofReads (Mode.perform_resolve bus r i.baseCycles i.mode)
  have hkind : (i.operand (Bus.peek bus) r).kind = i.mode.kind := Mode.kind_find _ r i.mode
  obtain ⟨action, haction⟩ := Operation.exists_action? haccepts hkind
  have hdone := (Operation.actsAs_action? haction bus (i.ready (Bus.peek bus) r)).map fun last =>
    Stepped.mk (.ok last.stepCycles)
      { last with cycles := last.cycles + last.stepCycles.toUInt64 }
  -- a page crossing is paid for before the operation acts
  have hready :
      (if i.mode.crosses (Bus.peek bus) r && i.pagePenalty then
        { r with
          pc := r.pc + UInt16.ofNat (1 + i.mode.operandLength)
          stepCycles := i.baseCycles + 1 }
      else
        { r with
          pc := r.pc + UInt16.ofNat (1 + i.mode.operandLength)
          stepCycles := i.baseCycles }) = i.ready (Bus.peek bus) r := by
    rw [ready]
    split <;> rfl
  refine ActsAs.bind_reads hfound ?_
  dsimp only
  rw [← operand, haction, hready]
  exact hdone

end Instruction

/-! ## Steps -/

namespace Registers

variable {β : Type} [Bus β] [PassiveBus β] (bus : β) (r : Registers) (tracing : Bool)

/-- The cells that the trace line of the instruction at PC is made from, if the run is traced. -/
def traceCells (mem : UInt16 → UInt8) : List UInt16 :=
  if tracing then r.pc :: cellsFrom r.pc (lengthAt (mem r.pc)) else []

/-- Making a trace line only reads. -/
theorem perform_traceLine :
    r.traceLine.perform bus =
      .ofReads bus (r.traceCells true (Bus.peek bus))
        (r.traceText ((cellsFrom r.pc (lengthAt (Bus.peek bus r.pc))).map (Bus.peek bus))) :=
  Traffic.perform_bind_ofReads (Traffic.perform_readByte r.pc bus)
    (Traffic.perform_map_ofReads (Traffic.perform_readBlock r.pc _ bus) r.traceText)

theorem actsAs_traceLine :
    r.traceLine.ActsAs bus (r.traceCells true (Bus.peek bus)) []
      (r.traceText ((cellsFrom r.pc (lengthAt (Bus.peek bus r.pc))).map (Bus.peek bus))) :=
  .of_ofReads (r.perform_traceLine bus)

theorem actsAs_trace :
    (r.trace tracing).ActsAs bus (r.traceCells tracing (Bus.peek bus)) [] () := by
  cases tracing with
  | false => exact ActsAs.pure () bus
  | true =>
    have htrace := (r.actsAs_traceLine bus).bind_reads
      (f := fun line => Traffic.note (traceRecord line)) (ActsAs.mk rfl rfl : ActsAs _ bus [] [] ())
    rwa [List.append_nil] at htrace

/-- **A step at an implemented instruction succeeds**, and does what the instruction does. -/
theorem actsAs_step {i : Instruction} (hdecode : Instruction.decode? (Bus.peek bus r.pc) = some i)
    (himplemented : i.isImplemented) :
    (r.step tracing).ActsAs bus
      (r.pc :: (r.traceCells tracing (Bus.peek bus) ++ i.reads (Bus.peek bus) r))
      (i.stores (Bus.peek bus) r)
      ⟨.ok (i.outcome (Bus.peek bus) r).stepCycles, i.outcome (Bus.peek bus) r⟩ := by
  have hopcode := ActsAs.of_ofReads (Traffic.perform_readByte r.pc bus)
  have hexecute := i.actsAs_execute r bus (Instruction.accepts_of_decode? hdecode himplemented)
  refine ActsAs.bind_reads hopcode ?_
  rw [hdecode]
  dsimp only
  rw [if_pos himplemented]
  exact ActsAs.bind_reads (r.actsAs_trace bus tracing) hexecute

/-- A step at a byte that is no opcode fails, and reads nothing but that byte. -/
theorem perform_step_of_unknown (h : Instruction.decode? (Bus.peek bus r.pc) = none) :
    (r.step tracing).perform bus =
      .ofReads bus [r.pc] ⟨.error (.unknownOpcode (Bus.peek bus r.pc) r.pc), r⟩ := by
  refine Traffic.perform_bind_ofReads (d := []) (Traffic.perform_readByte r.pc bus) ?_
  rw [h]
  rfl

/-- A step at an instruction that is not executed fails, and reads nothing but its opcode. -/
theorem perform_step_of_unimplemented {i : Instruction}
    (h : Instruction.decode? (Bus.peek bus r.pc) = some i) (hnot : i.isImplemented = false) :
    (r.step tracing).perform bus =
      .ofReads bus [r.pc]
        ⟨.error (.unimplementedOpcode (Bus.peek bus r.pc) i.operation r.pc), r⟩ := by
  refine Traffic.perform_bind_ofReads (d := []) (Traffic.perform_readByte r.pc bus) ?_
  rw [h]
  dsimp only
  rw [hnot]
  rfl

end Registers

end Nes.Cpu
