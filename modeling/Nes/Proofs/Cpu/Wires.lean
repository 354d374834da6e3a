/-
  Wires: which cells an instruction touches, in which order.

  1. **Wires**: an access without its value, `Wire`; the stack as cells, `stackCell`.
  2. **Specification**: `Operation.wires` says for each family of operations what it does on the
     wires once the operand is found, and `Instruction.wires` puts the opcode, the operand and the
     pointer before it.
  3. **Correctness**: `step_wires`: an untraced step does exactly that, no access more, and
     each read shows the byte that was there before the step.

  On memory nobody would notice one read too many; on a bus where registers react to being read, the
  list of accesses IS what an instruction does.
-/
import Nes.Proofs.Cpu.Stepping

namespace Nes

/-! ## Accesses without values -/

/-- Direction and address of an access. -/
inductive Wire where
  | read (addr : UInt16)
  | write (addr : UInt16)
  deriving DecidableEq

/-- Direction and address of the given access. -/
def Access.wire : Access → Wire
  | .read addr _ => .read addr
  | .write addr _ => .write addr

namespace Cpu

/-- The stack lies in page one, so SP is the low byte of a cell whose high byte is 1. -/
def stackCell (sp : UInt8) : UInt16 := 0x0100 ||| sp.toUInt16

theorem stackAddress_eq_stackCell (sp : UInt8) : stackAddress sp = stackCell sp := by
  apply UInt16.toNat_inj.mp
  have hlow : sp.toNat < 2 ^ 8 := sp.toNat_lt
  -- the two bytes have no bit in common, so adding them is putting them together
  have hsum : 2 ^ 8 + sp.toNat = 2 ^ 8 ||| sp.toNat := Nat.two_pow_add_eq_or_of_lt hlow 1
  show (word sp 0x01).toNat = (0x0100 ||| sp.toUInt16).toNat
  rw [toNat_word, UInt16.toNat_or, UInt8.toNat_toUInt16]
  show sp.toNat + 256 * 1 = 2 ^ 8 ||| sp.toNat
  omega

/-! ## What goes over the wires -/

/-- What an operation does on the wires once its operand is found. -/
def Operation.wires (operand : Operand) (sp : UInt8) : Operation → List Wire
  | .load _ | .logic _ | .testBits | .add | .subtract | .compare _ => operand.cells.map .read
  | .store _ => operand.cells.map .write
  | .adjust _ | .shift _ => operand.cells.flatMap fun addr => [.read addr, .write addr]
  | .pushA | .pushStatus => [.write (stackCell sp)]
  | .pullA | .pullStatus => [.read (stackCell (sp + 1))]
  | .callSubroutine => [.write (stackCell sp), .write (stackCell (sp - 1))]
  | .returnFromSubroutine => [.read (stackCell (sp + 1)), .read (stackCell (sp + 2))]
  | .returnFromInterrupt =>
    [.read (stackCell (sp + 1)), .read (stackCell (sp + 2)), .read (stackCell (sp + 3))]
  | .transfer _ | .count _ _ | .jump | .softwareInterrupt | .branch _ _ | .switch _ _
  | .clearOverflow | .idle => []

/-- What an instruction at PC does on the wires: the opcode, its operand, the pointer, and then the
    operation. -/
def Instruction.wires (i : Instruction) (mem : UInt16 → UInt8) (r : Registers) : List Wire :=
  [.read r.pc] ++
    (cellsFrom (r.pc + 1) i.mode.operandLength).map .read ++
    (i.mode.pointerCells mem r).map .read ++
    i.operation.wires (i.mode.find mem r) r.sp

/-! ## And nothing else does -/

/-- The reads and stores of an operation, without values. -/
theorem Operation.wires_eq (o : Operation) (operand : Operand) (mem : UInt16 → UInt8)
    {r ready : Registers} (hsp : ready.sp = r.sp) :
    (o.reads operand r).map Wire.read ++ (o.stores mem operand ready).map (fun s => .write s.1) =
      o.wires operand r.sp := by
  have hstored : ∀ v, (operand.storesOf v).map (fun s => Wire.write s.1) =
      operand.cells.map .write := by
    intro v
    rw [Operand.storesOf, List.map_map]
    rfl
  cases o with
  | load target => exact List.append_nil _
  | logic connective => exact List.append_nil _
  | testBits => exact List.append_nil _
  | add => exact List.append_nil _
  | subtract => exact List.append_nil _
  | compare register => exact List.append_nil _
  | store source => exact hstored (ready.get source)
  | adjust direction =>
    rw [reads, stores, hstored]
    cases operand <;> rfl
  | shift way =>
    rw [reads, stores, hstored]
    cases operand <;> rfl
  | pushA | pushStatus => simp [reads, stores, wires, hsp, stackAddress_eq_stackCell]
  | callSubroutine => simp [reads, stores, wires, hsp, stackAddress_eq_stackCell]
  | pullA | pullStatus => simp [reads, stores, wires, stackAddress_eq_stackCell]
  | returnFromSubroutine => simp [reads, stores, wires, stackAddress_eq_stackCell]
  | returnFromInterrupt => simp [reads, stores, wires, stackAddress_eq_stackCell]
  | transfer move => rfl
  | count index direction => rfl
  | jump => rfl
  | softwareInterrupt => rfl
  | branch condition wanted => rfl
  | switch flag on => rfl
  | clearOverflow => rfl
  | idle => rfl

/-- **The exact traffic of a step**: at an implemented opcode an untraced step succeeds, does on the
    wires what the instruction is said to do and nothing else, and every read shows the byte that
    was there before the step. -/
theorem step_wires {β : Type} [Bus β] [PassiveBus β] (bus : β) (r : Registers) {i : Instruction}
    (hdecode : Instruction.decode? (Bus.peek bus r.pc) = some i) (himplemented : i.isImplemented) :
    let done := (r.step false).perform bus
    (∃ cycles, done.answer.outcome = .ok cycles) ∧
      done.accesses.map Access.wire = i.wires (Bus.peek bus) r ∧
      ∀ addr value, Access.read addr value ∈ done.accesses → value = Bus.peek bus addr := by
  intro done
  have hstep := r.actsAs_step bus false hdecode himplemented
  refine ⟨⟨(i.outcome (Bus.peek bus) r).stepCycles, by rw [hstep.answer_eq]⟩, ?_, ?_⟩
  · have hready : (i.ready (Bus.peek bus) r).sp = r.sp := rfl
    have hoperation := i.operation.wires_eq (i.operand (Bus.peek bus) r) (Bus.peek bus) hready
    rw [hstep.accesses_eq, Instruction.wires, ← Instruction.operand, ← hoperation]
    simp [Instruction.reads, Instruction.stores, Mode.operandCells, Registers.traceCells,
      Function.comp_def, Access.wire]
  · intro addr value hmem
    rw [hstep.accesses_eq] at hmem
    -- a read is none of the stores
    rcases List.mem_append.mp hmem with hread | hstore
    · obtain ⟨cell, -, heq⟩ := List.mem_map.mp hread
      obtain ⟨rfl, rfl⟩ := Access.read.inj heq
      rfl
    · obtain ⟨s, -, heq⟩ := List.mem_map.mp hstore
      cases heq

/-- `ADC ($F0,X)` with X = $0F: the pointer lies in $00FF and, page zero being a ring, in $0000. -/
theorem step_wires_around_page_zero :
    let ram : Ram := .ofBytes ⟨#[0x61, 0xF0]⟩
    let r : Registers := { Registers.powerUp with x := 0x0F }
    ((r.step false).perform ram).accesses.map Access.wire =
      [.read 0x0000, .read 0x0001, .read 0x00FF, .read 0x0000, .read 0x6100] := by
  intro ram r
  have hopcode : ram.get 0 = 0x61 := Ram.get_ofBytes _ 0
  have hoperand : ram.get 1 = 0xF0 := Ram.get_ofBytes _ 1
  have hbehind : ram.get 0xFF = 0 := Ram.get_ofBytes _ 0xFF
  have hdecode : Instruction.decode? (Bus.peek ram r.pc) = some ⟨.add, .preIndexedIndirect⟩ := by
    rw [Bus.peek_ram, show ram.get r.pc = 0x61 from hopcode]
    decide
  obtain ⟨-, hwires, -⟩ := step_wires ram r hdecode rfl
  rw [hwires, Bus.peek_ram]
  -- only three cells matter
  generalize ram.get = mem at hopcode hoperand hbehind
  show [.read 0, .read 1, .read (mem 1 + 0x0F).toUInt16, .read (mem 1 + 0x0F + 1).toUInt16,
    Wire.read (word (mem (mem 1 + 0x0F).toUInt16) (mem (mem 1 + 0x0F + 1).toUInt16))] = _
  rw [hoperand]
  show [_, _, _, _, Wire.read (word (mem 0xFF) (mem 0))] = _
  rw [hbehind, hopcode]
  rfl

end Cpu

end Nes
