/-
  Cycles: what instructions and runs cost.

  1. **The list**: `Instruction.listedCycles?` is what an instruction is listed with, by the family
     of its operation and by its mode.  Beside the instruction the cost depends on three things, its
     `Occasion`: whether an index carries the address into another page, whether a branch is taken,
     and whether it leads to another page.  The occasion is told by the registers and by the bytes
     that are read behind the opcode.
  2. **The parts**: the code adds the cost up from that of the operation, that of the mode, and what
     comes on top (`Instruction.spent`).  For every implemented instruction and every occasion the
     sum IS what is listed, at least 2 and at most 7 (`listedCycles?_eq`).
  3. **Steps**: on any bus, whatever it answers, a step that succeeds takes the listed cycles
     (`alwaysFrom_step`).
  4. **Runs**: the total grows by what the steps return (`cycle_accounting`).

  The bus may react to being read, so a base address is never looked up a second time: it is made of
  the very bytes that the step has read.
-/
import Mathlib.Algebra.Ring.Nat
import Nes.Proofs.Bus.Heard
import Nes.Proofs.Cpu.Executing

namespace Nes.Cpu

open Nes.Traffic (AlwaysFrom)

/-! ## What is listed -/

/-- What the cost of an instruction depends on beside the instruction. -/
structure Occasion where
  /-- The low byte of the base address and the index add up to more than a byte. -/
  crossed : Bool
  /-- The flag that the branch tests has the value that it waits for. -/
  taken : Bool
  /-- The branch leads to another page than that of the instruction behind it. -/
  far : Bool

namespace Mode

/-- The cycles of an instruction that reads its operand. -/
def readingCycles? (crossed : Bool) : Mode → Option Nat
  | .immediate => some 2
  | .zeroPage => some 3
  | .zeroPageX | .zeroPageY | .absolute => some 4
  | .absoluteX | .absoluteY => some (if crossed then 5 else 4)
  | .preIndexedIndirect => some 6
  | .postIndexedIndirect => some (if crossed then 6 else 5)
  | .implied | .accumulator | .relative | .indirect => none

/-- The cycles of an instruction that stores a register. -/
def storingCycles? : Mode → Option Nat
  | .zeroPage => some 3
  | .zeroPageX | .zeroPageY | .absolute => some 4
  | .absoluteX | .absoluteY => some 5
  | .preIndexedIndirect | .postIndexedIndirect => some 6
  | .implied | .accumulator | .immediate | .relative | .indirect => none

/-- The cycles of an instruction that changes a byte in its place. -/
def changingCycles? : Mode → Option Nat
  | .accumulator => some 2
  | .zeroPage => some 5
  | .zeroPageX | .absolute => some 6
  | .absoluteX => some 7
  | _ => none

/-- The cycles of a jump. -/
def jumpingCycles? : Mode → Option Nat
  | .absolute => some 3
  | .indirect => some 5
  | _ => none

end Mode

/-- The cycles that an instruction is listed with, if it is one that is executed. -/
def Instruction.listedCycles? (i : Instruction) (o : Occasion) : Option Nat :=
  match i.operation, i.mode with
  | .load _, mode | .logic _, mode | .testBits, mode | .add, mode | .subtract, mode
  | .compare _, mode => mode.readingCycles? o.crossed
  | .store _, mode => mode.storingCycles?
  | .adjust _, mode | .shift _, mode => mode.changingCycles?
  | .jump, mode => mode.jumpingCycles?
  | .callSubroutine, .absolute => some 6
  | .returnFromSubroutine, .implied | .returnFromInterrupt, .implied => some 6
  | .pushA, .implied | .pushStatus, .implied => some 3
  | .pullA, .implied | .pullStatus, .implied => some 4
  | .transfer _, .implied | .count _ _, .implied | .switch _ _, .implied
  | .clearOverflow, .implied | .idle, .implied => some 2
  | .branch _ _, .relative => some (if o.taken then if o.far then 5 else 3 else 2)
  | _, _ => none

/-! ## The occasion -/

/-- The address to which a mode adds an index, from the bytes read behind the opcode: either they
    are the address, or the first is the pointer and the next two are what it points to. -/
def Mode.base : Mode → List UInt8 → UInt16
  | .absoluteX, lo :: hi :: _ | .absoluteY, lo :: hi :: _ => word lo hi
  | .postIndexedIndirect, _ :: lo :: hi :: _ => word lo hi
  | _, _ => 0

/-- The index that a mode adds to a whole address. -/
def Mode.index (r : Registers) : Mode → UInt8
  | .absoluteX => r.x
  | .absoluteY | .postIndexedIndirect => r.y
  | _ => 0

/-- Whether the low byte of the base and the index add up to more than a byte. -/
def Mode.carries (mode : Mode) (r : Registers) (bytes : List UInt8) : Bool :=
  256 ≤ (mode.base bytes).toNat % 256 + (mode.index r).toNat

/-- Whether an operation is a branch that is taken. -/
def Operation.branches (r : Registers) : Operation → Bool
  | .branch condition wanted => r.status.get condition.flag = wanted
  | _ => false

/-- The occasion of the instruction at PC, from the bytes read behind its opcode. -/
def Instruction.occasion (i : Instruction) (r : Registers) (bytes : List UInt8) : Occasion where
  crossed := i.mode.carries r bytes
  taken := i.operation.branches r
  far := highByte (branchTarget r.pc (bytes.headD 0)) != highByte (r.pc + 2)

/-! ## The parts of the cost -/

/-- What a branch costs on top. -/
def Operation.surcharge (o : Occasion) : Operation → UInt8
  | .branch _ _ => if o.taken then if o.far then 3 else 1 else 0
  | _ => 0

/-- The cycles of an instruction, added up from the cost of operation and mode, a page crossing, and
    a taken branch. -/
def Instruction.spent (i : Instruction) (o : Occasion) : UInt8 :=
  (if o.crossed && i.pagePenalty then i.baseCycles + 1 else i.baseCycles) +
    i.operation.surcharge o

/-- **The parts add up to what is listed**, which is never less than 2 and never more than 7. -/
theorem Instruction.listedCycles?_eq {opcode : UInt8} {i : Instruction}
    (hdecode : decode? opcode = some i) (himplemented : i.isImplemented) (o : Occasion) :
    i.listedCycles? o = some (i.spent o).toNat ∧
      2 ≤ (i.spent o).toNat ∧ (i.spent o).toNat ≤ 7 := by
  have hall : ∀ e ∈ table, e.2.isImplemented → ∀ crossed taken far,
      e.2.listedCycles? ⟨crossed, taken, far⟩ = some (e.2.spent ⟨crossed, taken, far⟩).toNat ∧
        2 ≤ (e.2.spent ⟨crossed, taken, far⟩).toNat ∧
        (e.2.spent ⟨crossed, taken, far⟩).toNat ≤ 7 := by
    decide +kernel
  exact hall (opcode, i) (mem_table_of_decode? hdecode) himplemented o.crossed o.taken o.far

/-! ## Finding the operand on any bus -/

/-- `q` has spent as many cycles as `r`. -/
def Registers.SameTally (r q : Registers) : Prop :=
  q.stepCycles = r.stepCycles ∧ q.cycles = r.cycles

namespace Mode

/-- The base is settled by the bytes that finding the operand reads, whatever is read after them. -/
theorem alwaysFrom_resolve (mode : Mode) (r : Registers) :
    (mode.resolve r).AlwaysFrom fun bytes found => ∀ more,
      found.crossed = mode.carries r (bytes ++ more) ∧ r.SameTally found.registers := by
  have hindexed : ∀ (base : UInt16) (index : UInt8) (r : Registers),
      (indexed base index r).crossed = decide (256 ≤ base.toNat % 256 + index.toNat) := by
    intro base index r
    rw [Bool.eq_iff_iff, indexed_crossed_iff, toNat_lowByte, decide_eq_true_iff]
  cases mode with
  | implied | accumulator => exact fun more => ⟨rfl, rfl, rfl⟩
  | immediate | relative | zeroPage | zeroPageX | zeroPageY =>
    exact fun value more => ⟨rfl, rfl, rfl⟩
  | absolute => exact fun lo hi more => ⟨rfl, rfl, rfl⟩
  | absoluteX => exact fun lo hi more => ⟨hindexed _ _ _, rfl, rfl⟩
  | absoluteY => exact fun lo hi more => ⟨hindexed _ _ _, rfl, rfl⟩
  | indirect => exact fun lo hi low high more => ⟨rfl, rfl, rfl⟩
  | preIndexedIndirect => exact fun pointer lo hi more => ⟨rfl, rfl, rfl⟩
  | postIndexedIndirect => exact fun pointer lo hi more => ⟨hindexed _ _ _, rfl, rfl⟩

end Mode

/-! ## What an operation does to the tally -/

/-- Only a branch has a say in what its instruction costs. -/
theorem Operation.sameTally_action? {o : Operation} {operand : Operand}
    {action : Registers → Traffic Registers} (h : o.action? operand = some action)
    (hnot : ∀ condition wanted, o ≠ .branch condition wanted) (r : Registers) :
    (action r).Always r.SameTally := by
  cases o with
  | load target => exact Operand.always_using? h fun v => by cases target <;> exact ⟨rfl, rfl⟩
  | logic _ | testBits | add | subtract | compare _ =>
    exact Operand.always_using? h fun v => ⟨rfl, rfl⟩
  | adjust _ | shift _ =>
    exact Operand.always_modify? h fun v => by cases operand <;> exact ⟨rfl, rfl⟩
  | store source =>
    obtain ⟨place, hplace, rfl⟩ := Option.map_eq_some_iff.mp h
    exact Operand.always_place? hplace (by cases operand <;> exact ⟨rfl, rfl⟩)
  | jump =>
    obtain ⟨target, -, rfl⟩ := Option.map_eq_some_iff.mp h
    exact ⟨rfl, rfl⟩
  | callSubroutine =>
    obtain ⟨target, -, rfl⟩ := Option.map_eq_some_iff.mp h
    exact ⟨rfl, rfl⟩
  | pullA | pullStatus => cases h; exact fun v => ⟨rfl, rfl⟩
  | returnFromSubroutine => cases h; exact fun lo hi => ⟨rfl, rfl⟩
  | returnFromInterrupt => cases h; exact fun v lo hi => ⟨rfl, rfl⟩
  | branch condition wanted => exact absurd rfl (hnot condition wanted)
  | softwareInterrupt => cases h
  | transfer move => cases h; cases move <;> exact ⟨rfl, rfl⟩
  | count index direction => cases h; cases index <;> exact ⟨rfl, rfl⟩
  | pushA | pushStatus | switch _ _ | clearOverflow | idle => cases h; exact ⟨rfl, rfl⟩

/-! ## Instructions on any bus -/

/-- A step from `r` has succeeded and taken the given cycles. -/
structure Stepped.Took (stepped : Stepped) (r : Registers) (cycles : UInt8) : Prop where
  outcome_eq : stepped.outcome = .ok cycles
  stepCycles_eq : stepped.registers.stepCycles = cycles
  cycles_eq : stepped.registers.cycles = r.cycles + cycles.toUInt64

/-- When the operation is done, what it has spent is returned and added to the total. -/
theorem Stepped.took_of_last {r last : Registers} {cycles : UInt8}
    (hspent : last.stepCycles = cycles) (htotal : last.cycles = r.cycles) :
    last.finish.Took r cycles := by
  subst hspent
  exact ⟨rfl, rfl, congrArg (· + last.stepCycles.toUInt64) htotal⟩

namespace Instruction

theorem alwaysFrom_execute_branch (condition : Condition) (wanted : Bool) (r : Registers) :
    let i : Instruction := ⟨.branch condition wanted, .relative⟩
    (i.execute r).AlwaysFrom fun bytes stepped =>
      stepped.Took r (i.spent (i.occasion r bytes)) := by
  intro i distance
  let ready : Registers := { r with pc := r.pc + 1 + 1, stepCycles := i.baseCycles }
  let last :=
    if r.status.get condition.flag = wanted then ready.takeBranch distance.toInt8 else ready
  -- PC stands behind the branch when the target is formed
  have hbehind : r.pc + 1 + 1 = r.pc + 2 := UInt16.add_assoc r.pc 1 1
  have hspent : last.stepCycles = i.spent (i.occasion r [distance]) := by
    have hoccasion : i.occasion r [distance] =
        { crossed := false
          taken := r.status.get condition.flag = wanted
          far := highByte (r.pc + 1 + 1 + signExtend distance.toInt8) !=
            highByte (r.pc + 1 + 1) } := by
      rw [hbehind]
      rfl
    rw [hoccasion]
    by_cases htaken : r.status.get condition.flag = wanted
    · simp only [last, if_pos htaken, Instruction.spent, Operation.surcharge, decide_eq_true htaken]
      rfl
    · simp only [last, if_neg htaken, Instruction.spent, Operation.surcharge,
        decide_eq_false htaken]
      exact (UInt8.add_zero _).symm
  have htotal : last.cycles = r.cycles := by
    dsimp only [last]
    split <;> rfl
  exact Stepped.took_of_last hspent htotal

/-- An instruction that is no branch takes its base cycles, and one more where an index carries. -/
theorem alwaysFrom_execute_of_not_branch {i : Instruction}
    (haccepts : i.operation.accepts i.mode.kind)
    (hnot : ∀ condition wanted, i.operation ≠ .branch condition wanted) (r : Registers) :
    (i.execute r).AlwaysFrom fun bytes stepped =>
      stepped.Took r (i.spent (i.occasion r bytes)) := by
  have hsurcharge : ∀ o, i.operation.surcharge o = 0 := by
    intro o
    unfold Operation.surcharge
    split
    · rename_i condition wanted hbranch
      exact absurd hbranch (hnot condition wanted)
    · rfl
  rw [execute, Traffic.alwaysFrom_bind]
  refine ((i.mode.alwaysFrom_resolve _).and (i.mode.always_resolve _).alwaysFrom).mono ?_
  rintro bytes ⟨operand, crossed, found⟩ ⟨hfound, hkind, -⟩
  obtain ⟨action, haction⟩ := Operation.exists_action? haccepts hkind
  dsimp only
  rw [haction]
  refine Traffic.alwaysFrom_bind.mpr
    ((Operation.sameTally_action? haction hnot _).alwaysFrom.mono ?_)
  rintro more last ⟨hstepCycles, hcycles⟩
  obtain ⟨hcrossed, hfoundStep, hfoundCycles⟩ := hfound (more ++ [])
  have hspent : last.stepCycles = i.spent (i.occasion r (bytes ++ (more ++ []))) := by
    have hcarries : crossed = (i.occasion r (bytes ++ (more ++ []))).crossed := hcrossed
    rw [spent, hsurcharge, UInt8.add_zero, hstepCycles, ← hcarries]
    split
    · exact congrArg (· + 1) hfoundStep
    · exact hfoundStep
  have htotal : last.cycles = r.cycles := by
    rw [hcycles]
    split
    · exact hfoundCycles
    · exact hfoundCycles
  exact Stepped.took_of_last hspent htotal

/-- **What an instruction takes on any bus.** -/
theorem alwaysFrom_execute {i : Instruction} (haccepts : i.operation.accepts i.mode.kind)
    (r : Registers) :
    (i.execute r).AlwaysFrom fun bytes stepped =>
      stepped.Took r (i.spent (i.occasion r bytes)) := by
  by_cases hbranch : ∃ condition wanted, i.operation = .branch condition wanted
  · obtain ⟨condition, wanted, hoperation⟩ := hbranch
    obtain ⟨operation, mode⟩ := i
    obtain rfl : operation = .branch condition wanted := hoperation
    -- the only mode that finds a distance
    obtain rfl : mode = .relative := by
      cases mode with
      | relative => rfl
      | _ => exact nomatch haccepts
    exact alwaysFrom_execute_branch condition wanted r
  · exact alwaysFrom_execute_of_not_branch haccepts (fun c w h => hbranch ⟨c, w, h⟩) r

end Instruction

/-! ## Steps on any bus -/

/-- The number of bytes that the trace line reads, if the step is traced; they are the first of
    `bytes`, those read behind the opcode. -/
def traceLength (tracing : Bool) (bytes : List UInt8) : Nat :=
  if tracing then 1 + lengthAt (bytes.headD 0) else 0

/-- The bytes behind those that the trace line has read. -/
def behindTrace (tracing : Bool) (bytes : List UInt8) : List UInt8 :=
  bytes.drop (traceLength tracing bytes)

namespace Registers

theorem alwaysFrom_trace (r : Registers) (tracing : Bool) :
    (r.trace tracing).AlwaysFrom fun bytes _ =>
      ∀ more, behindTrace tracing (bytes ++ more) = more := by
  cases tracing with
  | false => exact fun more => rfl
  | true =>
    have hline : r.traceLine.AlwaysFrom fun bytes _ =>
        ∀ more, behindTrace true (bytes ++ more) = more := by
      rw [traceLine, Traffic.alwaysFrom_bind]
      intro opcode
      refine Traffic.alwaysFrom_bind.mpr
        ((Traffic.alwaysFrom_readBlock r.pc (lengthAt opcode)).mono ?_)
      intro block _ hlength more
      show ((opcode :: (block ++ [])) ++ more).drop (1 + lengthAt opcode) = more
      simp [Nat.add_comm 1, ← hlength]
    refine Traffic.alwaysFrom_bind.mpr (hline.mono ?_)
    intro bytes line hbehind
    show ∀ more, behindTrace true (bytes ++ [] ++ more) = more
    rwa [List.append_nil]

/-- **A step on any bus** reads an opcode first, and succeeds exactly if that is implemented; then
    it takes what its instruction spends. -/
theorem alwaysFrom_step (r : Registers) (tracing : Bool) :
    (r.step tracing).AlwaysFrom fun bytes stepped =>
      ∃ opcode rest, bytes = opcode :: rest ∧
        ((opcode ∉ Instruction.implementedOpcodes ∧ ∃ failure, stepped.outcome = .error failure) ∨
          ∃ i, Instruction.decode? opcode = some i ∧ i.isImplemented ∧
            stepped.Took r (i.spent (i.occasion r (behindTrace tracing rest)))) := by
  rw [step, Traffic.alwaysFrom_bind]
  intro opcode
  dsimp only [Traffic.AlwaysFrom]
  by_cases hmem : opcode ∈ Instruction.implementedOpcodes
  · obtain ⟨i, hdecode, himplemented⟩ := Instruction.mem_implementedOpcodes.mp hmem
    have haccepts := Instruction.accepts_of_decode? hdecode himplemented
    rw [hdecode]
    dsimp only
    rw [if_pos himplemented]
    refine Traffic.alwaysFrom_bind.mpr ((r.alwaysFrom_trace tracing).mono ?_)
    intro before _ hbehind
    refine (Instruction.alwaysFrom_execute haccepts r).mono ?_
    intro bytes stepped htook
    refine ⟨opcode, before ++ bytes, rfl, .inr ⟨i, hdecode, himplemented, ?_⟩⟩
    rwa [hbehind]
  · rcases Instruction.not_mem_implementedOpcodes.mp hmem with rfl | hunofficial
    · rw [Instruction.decode?_brk]
      exact ⟨0x00, [], rfl, .inl ⟨hmem, _, rfl⟩⟩
    · rw [Instruction.decode?_of_unofficial hunofficial]
      exact ⟨opcode, [], rfl, .inl ⟨hmem, _, rfl⟩⟩

end Registers

/-! ## Runs -/

namespace Machine

variable {β : Type} [Bus β] (m : Machine β)

/-- A step fails where the byte at PC is no implemented opcode; else it takes what its instruction
    spends. -/
theorem step_took (tracing : Bool) :
    let done := m.step tracing
    let opcode := Bus.peek m.bus m.registers.pc
    (opcode ∉ Instruction.implementedOpcodes ∧ ∃ failure, done.answer.outcome = .error failure) ∨
      ∃ i bytes, opcode ∈ Instruction.implementedOpcodes ∧ heard done.accesses = opcode :: bytes ∧
        Instruction.decode? opcode = some i ∧ i.isImplemented ∧
        done.answer.Took m.registers
          (i.spent (i.occasion m.registers (behindTrace tracing bytes))) := by
  intro done opcode
  obtain ⟨first, bytes, hheard, hstep⟩ := (m.registers.alwaysFrom_step tracing).perform m.bus
  -- the first byte on the wires is the one at PC
  obtain rfl : opcode = first := (List.cons.inj hheard).1
  rcases hstep with hfails | ⟨i, hdecode, himplemented, htook⟩
  · exact .inl hfails
  · have hmem := Instruction.mem_implementedOpcodes.mpr ⟨i, hdecode, himplemented⟩
    exact .inr ⟨i, bytes, hmem, hheard, hdecode, himplemented, htook⟩

/-- A step that succeeds takes what its instruction is listed with, between 2 and 7 cycles. -/
theorem step_listed {tracing : Bool} {cycles : UInt8}
    (h : (m.step tracing).answer.outcome = .ok cycles) :
    (∃ i bytes, heard (m.step tracing).accesses = Bus.peek m.bus m.registers.pc :: bytes ∧
        Instruction.decode? (Bus.peek m.bus m.registers.pc) = some i ∧
        i.listedCycles? (i.occasion m.registers (behindTrace tracing bytes)) =
          some cycles.toNat) ∧
      2 ≤ cycles.toNat ∧ cycles.toNat ≤ 7 ∧ (m.step tracing).answer.Took m.registers cycles := by
  rcases m.step_took tracing with
    ⟨-, failure, hfails⟩ | ⟨i, bytes, -, hheard, hdecode, himpl, htook⟩
  · rw [hfails] at h
    exact nomatch h
  · obtain rfl : i.spent (i.occasion m.registers (behindTrace tracing bytes)) = cycles :=
      Except.ok.inj (htook.outcome_eq.symm.trans h)
    obtain ⟨hlisted, hmin, hmax⟩ := Instruction.listedCycles?_eq hdecode himpl
      (i.occasion m.registers (behindTrace tracing bytes))
    exact ⟨⟨i, bytes, hheard, hdecode, hlisted⟩, hmin, hmax, htook⟩

theorem step_ok_iff (tracing : Bool) :
    (∃ cycles, (m.step tracing).answer.outcome = .ok cycles) ↔
      Bus.peek m.bus m.registers.pc ∈ Instruction.implementedOpcodes := by
  rcases m.step_took tracing with ⟨hnot, failure, hfails⟩ | ⟨i, bytes, hmem, -, -, -, htook⟩
  · constructor
    · rintro ⟨cycles, h⟩
      rw [hfails] at h
      exact nomatch h
    · exact fun h => absurd h hnot
  · exact ⟨fun _ => hmem, fun _ => ⟨_, htook.outcome_eq⟩⟩

/-- As long as the total does not overflow, it grows by the sum of what the steps have returned. -/
theorem cycles_after {traced : List Bool} {costs : List UInt8}
    (h : (m.attempts traced).map (fun a => a.stepped.outcome) = costs.map .ok)
    (hbelow : m.registers.cycles.toNat + (costs.map UInt8.toNat).sum < 2 ^ 64) :
    (m.after traced).registers.cycles.toNat =
        m.registers.cycles.toNat + (costs.map UInt8.toNat).sum ∧
      2 * traced.length ≤ (costs.map UInt8.toNat).sum ∧
      (costs.map UInt8.toNat).sum ≤ 7 * traced.length := by
  induction traced generalizing m costs with
  | nil =>
    obtain rfl : costs = [] := List.map_eq_nil_iff.mp h.symm
    exact ⟨rfl, Nat.le_refl 0, Nat.le_refl 0⟩
  | cons tracing rest ih =>
    cases costs with
    | nil => exact nomatch h
    | cons cost costs =>
      obtain ⟨hfirst, hrest⟩ := List.cons.inj h
      obtain ⟨-, hmin, hmax, htook⟩ := m.step_listed hfirst
      rw [List.map_cons, List.sum_cons] at hbelow ⊢
      have htotal : (m.next tracing).registers.cycles.toNat =
          m.registers.cycles.toNat + cost.toNat := by
        show (m.step tracing).answer.registers.cycles.toNat = _
        rw [htook.cycles_eq, UInt64.toNat_add, UInt8.toNat_toUInt64]
        exact Nat.mod_eq_of_lt (by omega)
      obtain ⟨hafter, hlow, hhigh⟩ := ih (m.next tracing) hrest (by omega)
      refine ⟨?_, ?_, ?_⟩
      · show ((m.next tracing).after rest).registers.cycles.toNat = _
        omega
      · rw [List.length_cons]
        omega
      · rw [List.length_cons]
        omega

end Machine

/-- **Cycles are accounted for**, on any bus, traced or not.  A step succeeds exactly at an
    implemented opcode; then it returns the cycles that the instruction is listed with for the bytes
    that were read, and shows them as the cycles of the step.  A run of successful steps adds to the
    total exactly what its steps have returned, from 2 to 7 cycles each. -/
theorem cycle_accounting {β : Type} [Bus β] :
    (∀ (m : Machine β) (tracing : Bool),
      let done := m.step tracing
      let opcode := Bus.peek m.bus m.registers.pc
      ((∃ cycles, done.answer.outcome = .ok cycles) ↔
        opcode ∈ Instruction.implementedOpcodes) ∧
      ∀ cycles, done.answer.outcome = .ok cycles →
        (∃ i bytes, heard done.accesses = opcode :: bytes ∧
          Instruction.decode? opcode = some i ∧
          i.listedCycles? (i.occasion m.registers (behindTrace tracing bytes)) =
            some cycles.toNat) ∧
        done.answer.registers.stepCycles = cycles ∧ 2 ≤ cycles.toNat ∧ cycles.toNat ≤ 7) ∧
    ∀ (m : Machine β) (traced : List Bool) (costs : List UInt8),
      (m.attempts traced).map (fun a => a.stepped.outcome) = costs.map .ok →
      m.registers.cycles.toNat + (costs.map UInt8.toNat).sum < 2 ^ 64 →
      (m.after traced).registers.cycles.toNat =
          m.registers.cycles.toNat + (costs.map UInt8.toNat).sum ∧
        2 * traced.length ≤ (costs.map UInt8.toNat).sum ∧
        (costs.map UInt8.toNat).sum ≤ 7 * traced.length := by
  constructor
  · intro m tracing done opcode
    refine ⟨m.step_ok_iff tracing, fun cycles h => ?_⟩
    obtain ⟨hlisted, hmin, hmax, htook⟩ := m.step_listed h
    exact ⟨hlisted, htook.stepCycles_eq, hmin, hmax⟩
  · intro m traced costs h hbelow
    exact m.cycles_after h hbelow

/-- `LDA $02FF,X` with X = 1, and then a branch from page $C0 to page $C1: 5 cycles each. -/
theorem cycle_accounting_of_crossings :
    let script : Script := ⟨[0xBD, 0xFF, 0x02, 0x00, 0xF0, 0x7F]⟩
    let m : Machine Script := ⟨{ Registers.powerUp with x := 0x01, pc := 0xC0F0 }, script⟩
    (m.attempts [false, false]).map (fun a => a.stepped.outcome) = [.ok 5, .ok 5] ∧
      (m.step false).answer.registers.stepCycles = 5 ∧
      (m.after [false, false]).registers.cycles.toNat = 10 := by
  obtain ⟨hstep, hrun⟩ := @cycle_accounting Script _
  have hsteps : ((⟨{ Registers.powerUp with x := 0x01, pc := 0xC0F0 },
      ⟨[0xBD, 0xFF, 0x02, 0x00, 0xF0, 0x7F]⟩⟩ : Machine Script).attempts [false, false]).map
        (fun a => a.stepped.outcome) = [5, 5].map Except.ok := by rfl
  obtain ⟨hfirst, -⟩ := List.cons.inj hsteps
  obtain ⟨-, hspent, -⟩ := (hstep _ false).2 5 hfirst
  exact ⟨hsteps, hspent, (hrun _ [false, false] [5, 5] hsteps (by decide)).1⟩

end Nes.Cpu
