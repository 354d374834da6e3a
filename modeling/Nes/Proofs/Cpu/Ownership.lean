/-
  Ownership: which instructions may change which part of the processor and of memory.

  1. **Components**: the registers A, X, Y and SP and the eight flags, each a `Component`.  From one
     state to another only some of them differ: `Registers.Changes`.
  2. **By component**: `Component.ownedBy` lists for each component the instructions that may change
     it; all others leave it alone, whatever the bus.
  3. **By operation**: `Operation.touched` lists for each operation what it changes, and this is
     what is proved of the actions (`Operation.always_touches`).  The two lists are written down
     apart, and over the table of opcodes they agree (`Instruction.ownedBy_of_mem_touched`).
  4. **SP** does not just change, it is told by the operation (`Operation.spAfter`).
  5. **Memory**: the cells that an instruction writes are those of `Instruction.written`, at most
     two.  On flat memory no other cell changes, and on the memory map no address at which another
     cell is seen.
-/
import Nes.Proofs.Bus.Cells
import Nes.Proofs.Cpu.Executing
import Nes.Proofs.Cpu.Wires

namespace Nes.Cpu

open Nes.Traffic (storeAll)

/-! ## Components -/

/-- What instructions own, beside PC and the cycles, which change with every step. -/
inductive Component where
  | register (which : Register)
  | sp
  | flag (which : Flag)
  deriving DecidableEq

/-- From `r` to `q` the component has not changed. -/
def Component.Kept (r q : Registers) : Component → Prop
  | .register which => q.get which = r.get which
  | .sp => q.sp = r.sp
  | .flag which => q.status.get which = r.status.get which

/-- From `r` to `q` nothing has changed but, it may be, the components in `changed`. -/
def Registers.Changes (r q : Registers) (changed : List Component) : Prop :=
  ∀ c, c ∉ changed → c.Kept r q

namespace Registers.Changes

variable {r q : Registers} {changed : List Component}

/-- PC and the cycles are no components. -/
theorem of_counters (pc : UInt16) (spent : UInt8) (total : UInt64)
    (h : r.Changes q changed) :
    r.Changes { q with pc := pc, stepCycles := spent, cycles := total } changed := by
  intro c hc
  cases c with
  | register which => cases which <;> exact h _ hc
  | sp => exact h _ hc
  | flag which => exact h _ hc

/-- What changes no more than some components changes no more than those and others. -/
theorem mono {wider : List Component} (h : r.Changes q changed) (hsub : changed ⊆ wider) :
    r.Changes q wider :=
  fun c hc => h c fun hmem => hc (hsub hmem)

theorem refl (r : Registers) : r.Changes r [] := by
  intro c hc
  cases c <;> rfl

theorem put (h : r.Changes q changed) (which : Register) (v : UInt8) :
    r.Changes (q.put which v) (.register which :: changed) := by
  intro c hc
  obtain ⟨hne, hnot⟩ := List.ne_and_not_mem_of_not_mem_cons hc
  have hq := h c hnot
  cases c with
  | register other =>
    have hget : (q.put which v).get other = q.get other := by
      cases which <;> cases other <;> first | rfl | exact absurd rfl hne
    exact hget.trans hq
  | sp => cases which <;> exact hq
  | flag f => cases which <;> exact hq

theorem putSp (h : r.Changes q changed) (v : UInt8) :
    r.Changes { q with sp := v } (.sp :: changed) := by
  intro c hc
  obtain ⟨hne, hnot⟩ := List.ne_and_not_mem_of_not_mem_cons hc
  have hq := h c hnot
  cases c with
  | register which => cases which <;> exact hq
  | sp => exact absurd rfl hne
  | flag f => exact hq

/-- What a new status shows as the old one did, has not changed. -/
theorem putStatus (h : r.Changes q changed) {p : Status}
    (hp : ∀ f, .flag f ∉ changed → p.get f = q.status.get f) :
    r.Changes { q with status := p } changed := by
  intro c hc
  have hq := h c hc
  cases c with
  | register which => cases which <;> exact hq
  | sp => exact hq
  | flag f => exact (hp f hc).trans hq

theorem putFlag (h : r.Changes q changed) (f : Flag) (on : Bool) :
    r.Changes (q.putFlag f on) (.flag f :: changed) := by
  refine (h.mono (List.subset_cons_self _ _)).putStatus fun g hg => ?_
  have hne : f ≠ g := by
    rintro rfl
    exact hg List.mem_cons_self
  rw [Status.get_put, if_neg hne]

theorem putNZ (h : r.Changes q changed) (v : UInt8) :
    r.Changes (q.putNZ v) (.flag .negative :: .flag .zero :: changed) :=
  (h.putFlag .zero _).putFlag .negative _

end Registers.Changes

/-! ## By component -/

/-- The instructions that may change a component. -/
def Component.ownedBy (i : Instruction) : Component → Bool
  | .register .a =>
    match i.operation with
    | .load .a | .transfer .xToA | .transfer .yToA | .pullA | .logic _ | .add | .subtract => true
    | .shift _ => i.mode = .accumulator
    | _ => false
  | .register .x =>
    match i.operation with
    | .load .x | .transfer .aToX | .transfer .spToX | .count .x _ => true
    | _ => false
  | .register .y =>
    match i.operation with
    | .load .y | .transfer .aToY | .count .y _ => true
    | _ => false
  | .sp =>
    match i.operation with
    | .transfer .xToSp | .pushA | .pushStatus | .pullA | .pullStatus | .callSubroutine
    | .returnFromSubroutine | .returnFromInterrupt => true
    | _ => false
  | .flag .carry =>
    match i.operation with
    | .add | .subtract | .compare _ | .shift _ | .switch .carry _ | .pullStatus
    | .returnFromInterrupt => true
    | _ => false
  | .flag .overflow =>
    match i.operation with
    | .add | .subtract | .testBits | .clearOverflow | .pullStatus | .returnFromInterrupt => true
    | _ => false
  | .flag .decimal =>
    match i.operation with
    | .switch .decimal _ | .pullStatus | .returnFromInterrupt => true
    | _ => false
  | .flag .interruptDisable =>
    match i.operation with
    | .switch .interruptDisable _ | .pullStatus | .returnFromInterrupt => true
    | _ => false
  | .flag .negative | .flag .zero =>
    match i.operation with
    | .transfer .xToSp => false
    | .load _ | .transfer _ | .pullA | .logic _ | .testBits | .add | .subtract | .compare _
    | .adjust _ | .count _ _ | .shift _ | .pullStatus | .returnFromInterrupt => true
    | _ => false
  | .flag .breakCommand | .flag .unused =>
    match i.operation with
    | .returnFromInterrupt => true
    | _ => false

/-! ## By operation -/

/-- Every flag. -/
def everyFlag : List Component := Flag.all.map .flag

/-- The flags that a status pulled from the stack brings with it. -/
def pulledFlags : List Component :=
  [.flag .carry, .flag .zero, .flag .interruptDisable, .flag .decimal, .flag .overflow,
    .flag .negative]

/-- The register that an operation reaches as the place of its operand. -/
def OperandKind.place : OperandKind → List Component
  | .accumulator => [.register .a]
  | _ => []

/-- What an operation with an operand of the given kind changes. -/
def Operation.touched (kind : OperandKind) : Operation → List Component
  | .load target => [.register target, .flag .zero, .flag .negative]
  | .store _ => kind.place
  | .transfer .aToX | .transfer .spToX => [.register .x, .flag .zero, .flag .negative]
  | .transfer .aToY => [.register .y, .flag .zero, .flag .negative]
  | .transfer .xToA | .transfer .yToA => [.register .a, .flag .zero, .flag .negative]
  | .transfer .xToSp => [.sp]
  | .pushA | .pushStatus => [.sp]
  | .pullA => [.register .a, .sp, .flag .zero, .flag .negative]
  | .pullStatus => .sp :: pulledFlags
  | .logic _ => [.register .a, .flag .zero, .flag .negative]
  | .testBits => [.flag .zero, .flag .overflow, .flag .negative]
  | .add | .subtract =>
    [.register .a, .flag .carry, .flag .zero, .flag .overflow, .flag .negative]
  | .compare _ => [.flag .carry, .flag .zero, .flag .negative]
  | .adjust _ => .flag .zero :: .flag .negative :: kind.place
  | .count index _ => [.register index.register, .flag .zero, .flag .negative]
  | .shift _ => .flag .carry :: .flag .zero :: .flag .negative :: kind.place
  | .callSubroutine | .returnFromSubroutine => [.sp]
  | .returnFromInterrupt => .sp :: everyFlag
  | .switch flag _ => [.flag flag.flag]
  | .clearOverflow => [.flag .overflow]
  | .jump | .softwareInterrupt | .branch _ _ | .idle => []

/-- SP after an operation.  Bytes wrap. -/
def Operation.spAfter (r : Registers) : Operation → UInt8
  | .transfer .xToSp => r.x
  | .pushA | .pushStatus => r.sp - 1
  | .pullA | .pullStatus => r.sp + 1
  | .callSubroutine => r.sp - 2
  | .returnFromSubroutine => r.sp + 2
  | .returnFromInterrupt => r.sp + 3
  | _ => r.sp

/-- What an operation changes at most, and SP exactly. -/
structure Operation.Touches (o : Operation) (kind : OperandKind) (r q : Registers) : Prop where
  changes : r.Changes q (o.touched kind)
  sp_eq : q.sp = o.spAfter r

theorem mem_everyFlag (f : Flag) : .flag f ∈ everyFlag := by
  cases f <;> decide

theorem Operand.changes_keep {r q : Registers} {changed : List Component}
    (h : r.Changes q changed) (operand : Operand) (v : UInt8) :
    r.Changes (operand.keep v q) (operand.kind.place ++ changed) := by
  cases operand with
  | accumulator => exact h.put .a v
  | implied | immediate _ | address _ | relative _ => exact h

@[simp] theorem Operand.sp_keep (operand : Operand) (v : UInt8) (r : Registers) :
    (operand.keep v r).sp = r.sp := by
  cases operand <;> rfl

/-- **Whatever the bus answers, an operation changes no more than is listed.** -/
theorem Operation.always_touches {o : Operation} {operand : Operand}
    {action : Registers → Traffic Registers} (h : o.action? operand = some action)
    (r : Registers) : (action r).Always (o.Touches operand.kind r) := by
  have hself := Registers.Changes.refl r
  cases o with
  | load target =>
    refine Operand.always_using? h fun v => ⟨?_, ?_⟩
    · exact ((hself.put target v).putNZ v).mono (by simp [touched])
    · cases target <;> rfl
  | logic connective =>
    refine Operand.always_using? h fun v => ⟨?_, rfl⟩
    exact ((hself.put .a _).putNZ _).mono (by simp [touched])
  | testBits =>
    refine Operand.always_using? h fun v => ⟨?_, rfl⟩
    exact (((hself.putFlag .zero _).putFlag .negative _).putFlag .overflow _).mono
      (by simp [touched])
  | add | subtract =>
    refine Operand.always_using? h fun v => ⟨?_, rfl⟩
    exact ((((hself.putFlag .overflow _).putFlag .carry _).put .a _).putNZ _).mono
      (by simp [touched])
  | compare register =>
    refine Operand.always_using? h fun v => ⟨?_, rfl⟩
    exact ((hself.putFlag .carry _).putNZ _).mono (by simp [touched])
  | adjust direction =>
    refine Operand.always_modify? h fun v => ⟨?_, Operand.sp_keep _ _ _⟩
    exact ((Operand.changes_keep hself operand _).putNZ _).mono (by simp [touched])
  | shift way =>
    refine Operand.always_modify? h fun v => ⟨?_, Operand.sp_keep _ _ _⟩
    refine ((Operand.changes_keep (hself.putFlag .carry _) operand _).putNZ _).mono ?_
    intro c hc
    simp only [touched, List.mem_cons, List.mem_append, List.not_mem_nil, or_false] at hc ⊢
    grind
  | store source =>
    obtain ⟨place, hplace, rfl⟩ := Option.map_eq_some_iff.mp h
    refine Operand.always_place? hplace ⟨?_, Operand.sp_keep _ _ _⟩
    exact (Operand.changes_keep hself operand _).mono (by simp [touched])
  | transfer move =>
    cases h
    cases move with
    | xToSp => exact ⟨hself.putSp _, rfl⟩
    | aToX | spToX => exact ⟨((hself.put .x _).putNZ _).mono (by simp [touched]), rfl⟩
    | aToY => exact ⟨((hself.put .y _).putNZ _).mono (by simp [touched]), rfl⟩
    | xToA | yToA => exact ⟨((hself.put .a _).putNZ _).mono (by simp [touched]), rfl⟩
  | count index direction =>
    cases h
    refine ⟨?_, ?_⟩
    · exact ((hself.put index.register _).putNZ _).mono (by simp [touched])
    · cases index <;> rfl
  | pushA | pushStatus =>
    cases h
    exact ⟨hself.putSp _, rfl⟩
  | pullA =>
    cases h
    intro v
    refine ⟨?_, rfl⟩
    exact (((hself.putSp _).put .a v).putNZ v).mono (by simp [touched])
  | pullStatus =>
    cases h
    intro v
    have hsp : r.Changes { r with sp := r.sp + 1 } (.sp :: pulledFlags) :=
      (hself.putSp _).mono (by simp)
    refine ⟨hsp.putStatus fun f hf => ?_, rfl⟩
    -- the flags that are not pulled are the two that stay
    have hstays : f = .breakCommand ∨ f = .unused := by
      have hpulled : .flag f ∉ pulledFlags := fun hmem => hf (List.mem_cons_of_mem _ hmem)
      revert hpulled
      cases f <;> decide
    rw [Status.get_pull, if_pos hstays]
  | jump =>
    obtain ⟨target, -, rfl⟩ := Option.map_eq_some_iff.mp h
    exact ⟨hself.of_counters target r.stepCycles r.cycles, rfl⟩
  | callSubroutine =>
    obtain ⟨target, -, rfl⟩ := Option.map_eq_some_iff.mp h
    have hsp : r.sp - 1 - 1 = r.sp - 2 := by
      rw [UInt8.sub_eq_add_neg, UInt8.sub_eq_add_neg, UInt8.sub_eq_add_neg, UInt8.add_assoc]
      rfl
    exact ⟨(hself.putSp _).of_counters target r.stepCycles r.cycles, hsp⟩
  | returnFromSubroutine =>
    cases h
    intro lo hi
    exact ⟨(hself.putSp _).of_counters _ r.stepCycles r.cycles, UInt8.add_assoc r.sp 1 1⟩
  | returnFromInterrupt =>
    cases h
    intro v lo hi
    have hsp : r.sp + 1 + 1 + 1 = r.sp + 3 := by
      rw [UInt8.add_assoc, UInt8.add_assoc]
      rfl
    have hpulled : r.Changes { r with sp := r.sp + 1 + 1 + 1 } (.sp :: everyFlag) :=
      (hself.putSp _).mono (by simp)
    have hflags := hpulled.putStatus (p := .pullForced v) fun f hf =>
      absurd (List.mem_cons_of_mem _ (mem_everyFlag f)) hf
    exact ⟨hflags.of_counters (word lo hi) r.stepCycles r.cycles, hsp⟩
  | branch condition wanted =>
    obtain ⟨distance, -, rfl⟩ := Option.map_eq_some_iff.mp h
    show Touches _ _ r (if r.status.get condition.flag = wanted then r.takeBranch distance else r)
    split
    · exact ⟨hself.of_counters _ _ r.cycles, rfl⟩
    · exact ⟨hself, rfl⟩
  | switch flag on =>
    cases h
    exact ⟨hself.putFlag flag.flag on, rfl⟩
  | clearOverflow =>
    cases h
    exact ⟨hself.putFlag .overflow false, rfl⟩
  | idle =>
    cases h
    exact ⟨hself, rfl⟩
  | softwareInterrupt => cases h

/-- What an operation changes at most it changes at most behind the finding of its operand, too. -/
theorem Operation.Touches.of_counters {o : Operation} {kind : OperandKind} {r q : Registers}
    {pc : UInt16} {spent : UInt8} (h : o.Touches kind { r with pc := pc, stepCycles := spent } q) :
    o.Touches kind r q where
  changes := by
    intro c hc
    have hkept := h.changes c hc
    cases c with
    | register which => cases which <;> exact hkept
    | sp => exact hkept
    | flag f => exact hkept
  sp_eq := by
    have hsame : o.spAfter { r with pc := pc, stepCycles := spent } = o.spAfter r := by
      cases o with
      | transfer move => cases move <;> rfl
      | _ => rfl
    rw [h.sp_eq, hsame]

/-- Adding up the cycles is no change either. -/
theorem Operation.Touches.finish {o : Operation} {kind : OperandKind} {r q : Registers}
    (h : o.Touches kind r q) : o.Touches kind r q.finish.registers :=
  ⟨h.changes.of_counters q.pc q.stepCycles _, h.sp_eq⟩

/-- **What every step that executes an instruction changes at most.** -/
theorem Machine.Executes.touches {β : Type} [Bus β] {m : Machine β} {tracing : Bool}
    {i : Instruction} {before : List Access} {bus : β} (h : m.Executes tracing i before bus) :
    i.operation.Touches i.mode.kind m.registers (m.step tracing).answer.registers := by
  obtain ⟨last, hlast, hend⟩ := h.ends fun operand action pc spent hkind haction =>
    (Operation.always_touches haction _).mono fun last hlast => (hkind ▸ hlast).of_counters
  rw [hend]
  exact hlast.finish

/-! ## The two lists agree -/

/-- In every implemented instruction the operation changes only what the instruction owns. -/
theorem Instruction.ownedBy_of_mem_touched {opcode : UInt8} {i : Instruction}
    (hdecode : decode? opcode = some i) (himplemented : i.isImplemented) {c : Component}
    (hmem : c ∈ i.operation.touched i.mode.kind) : c.ownedBy i := by
  have hall : ∀ e ∈ table, e.2.isImplemented →
      ∀ c ∈ e.2.operation.touched e.2.mode.kind, c.ownedBy e.2 := by
    decide +kernel
  exact hall (opcode, i) (mem_table_of_decode? hdecode) himplemented c hmem

/-! ## Memory -/

/-- The cells that an operation writes, in order. -/
def Operation.written (operand : Operand) (sp : UInt8) : Operation → List UInt16
  | .store _ | .adjust _ | .shift _ => operand.cells
  | .pushA | .pushStatus => [stackCell sp]
  | .callSubroutine => [stackCell sp, stackCell (sp - 1)]
  | _ => []

/-- The cells that the instruction at PC writes, in order: what its operand is, or what lies next on
    the stack. -/
def Instruction.written (i : Instruction) (mem : UInt16 → UInt8) (r : Registers) : List UInt16 :=
  i.operation.written (i.mode.find mem r) r.sp

theorem Operation.addresses_stores (o : Operation) (operand : Operand) (mem : UInt16 → UInt8)
    (r : Registers) : (o.stores mem operand r).map Prod.fst = o.written operand r.sp := by
  have hstored : ∀ v, (operand.storesOf v).map Prod.fst = operand.cells := by
    intro v
    rw [Operand.storesOf, List.map_map]
    exact List.map_id _
  cases o with
  | store source => exact hstored _
  | adjust direction => exact hstored _
  | shift way => exact hstored _
  | pushA | pushStatus | callSubroutine =>
    simp only [stores, written, List.map_cons, List.map_nil, stackAddress_eq_stackCell]
  | _ => rfl

/-- What each store keeps, all of them keep. -/
theorem storeAll_keeps {β : Type} [Bus β] {P : β → Prop} {bus : β}
    {stores : List (UInt16 × UInt8)} (hbus : P bus)
    (hstore : ∀ s ∈ stores, ∀ bus, P bus → P (Bus.write bus s.1 s.2)) :
    P (storeAll bus stores) := by
  induction stores generalizing bus with
  | nil => exact hbus
  | cons s rest ih =>
    refine ih (hstore s List.mem_cons_self bus hbus) fun t ht => ?_
    exact hstore t (List.mem_cons_of_mem s ht)

section

variable {β : Type} [Bus β] [PassiveBus β] {m : Machine β} {tracing : Bool} {cycles : UInt8}
  {i : Instruction}

/-- **Memory after a step** keeps what each write to a cell of the instruction keeps. -/
theorem Machine.step_keeps {P : β → Prop}
    (hok : (m.step tracing).answer.outcome = .ok cycles)
    (hdecode : Instruction.decode? (Bus.peek m.bus m.registers.pc) = some i)
    (hbus : P m.bus)
    (hwrite : ∀ addr ∈ i.written (Bus.peek m.bus) m.registers, ∀ bus value,
      P bus → P (Bus.write bus addr value)) : P (m.step tracing).bus := by
  obtain ⟨j, before, bus, hexecutes⟩ := Machine.executes_of_ok hok
  obtain rfl : i = j := Option.some.inj (hdecode.symm.trans hexecutes.decode?_eq)
  have hstep := m.registers.actsAs_step m.bus tracing hdecode hexecutes.isImplemented
  have haddresses : (i.stores (Bus.peek m.bus) m.registers).map Prod.fst =
      i.written (Bus.peek m.bus) m.registers :=
    i.operation.addresses_stores _ _ (i.ready (Bus.peek m.bus) m.registers)
  rw [show (m.step tracing).bus = _ from hstep.bus_eq]
  refine storeAll_keeps hbus fun s hs bus => hwrite s.1 ?_ bus s.2
  rw [← haddresses]
  exact List.mem_map_of_mem hs

end

/-! ## The frame of a step -/

open MemoryMap (cellAt) in
/-- **A successful step changes only what its instruction owns**: on every bus, of the registers and
    flags; on flat memory, no cell but those written; on the memory map, no cell but those seen at
    the addresses written, of which there is none from $4018 on. -/
theorem step_changes_only_owned (tracing : Bool) :
    (∀ {β : Type} [Bus β] (m : Machine β) (cycles : UInt8),
      (m.step tracing).answer.outcome = .ok cycles →
      ∃ i, Instruction.decode? (Bus.peek m.bus m.registers.pc) = some i ∧ i.isImplemented ∧
        (∀ c : Component, ¬ c.Kept m.registers (m.step tracing).answer.registers → c.ownedBy i) ∧
        (m.step tracing).answer.registers.sp = i.operation.spAfter m.registers) ∧
    (∀ (m : Machine Ram) (cycles : UInt8) (i : Instruction),
      (m.step tracing).answer.outcome = .ok cycles →
      Instruction.decode? (m.bus.get m.registers.pc) = some i →
      ∀ addr, addr ∉ i.written m.bus.get m.registers →
        (m.step tracing).bus.get addr = m.bus.get addr) ∧
    ∀ (m : Machine MemoryMap) (cycles : UInt8) (i : Instruction),
      (m.step tracing).answer.outcome = .ok cycles →
      Instruction.decode? (m.bus.read m.registers.pc) = some i →
      (∀ addr, (m.step tracing).bus.read addr ≠ m.bus.read addr →
        ∃ target ∈ i.written m.bus.read m.registers, ∃ cell,
          cellAt target = some cell ∧ cellAt addr = some cell) ∧
      ((∀ target ∈ i.written m.bus.read m.registers, 0x4018 ≤ target.toNat) →
        (m.step tracing).bus = m.bus) := by
  refine ⟨?_, ?_, ?_⟩
  · intro β _ m cycles hok
    obtain ⟨i, before, bus, hexecutes⟩ := Machine.executes_of_ok hok
    refine ⟨i, hexecutes.decode?_eq, hexecutes.isImplemented, ?_, hexecutes.touches.sp_eq⟩
    intro c hchanged
    by_cases hmem : c ∈ i.operation.touched i.mode.kind
    · exact Instruction.ownedBy_of_mem_touched hexecutes.decode?_eq hexecutes.isImplemented hmem
    · exact absurd (hexecutes.touches.changes c hmem) hchanged
  · intro m cycles i hok hdecode addr hnot
    refine Machine.step_keeps (P := fun ram : Ram => ram.get addr = m.bus.get addr) hok hdecode rfl
      ?_
    intro target htarget ram value hram
    have hne : target ≠ addr := by
      rintro rfl
      exact hnot htarget
    rw [show Bus.write ram target value = ram.set target value from rfl, Ram.get_set, if_neg hne]
    exact hram
  · intro m cycles i hok hdecode
    refine ⟨?_, ?_⟩
    · intro addr hchanged
      refine Classical.byContradiction fun hnone => hchanged ?_
      refine Machine.step_keeps (P := fun map : MemoryMap => map.read addr = m.bus.read addr) hok
        hdecode rfl ?_
      intro target htarget map value hmap
      rw [show Bus.write map target value = map.write target value from rfl,
        MemoryMap.read_write, if_neg]
      · exact hmap
      · rw [MemoryMap.sameCell_iff]
        rintro ⟨cell, hcell⟩
        exact hnone ⟨target, htarget, cell, hcell⟩
    · intro hbehind
      refine Machine.step_keeps (P := fun map : MemoryMap => map = m.bus) hok hdecode rfl ?_
      intro target htarget map value hmap
      exact (MemoryMap.write_of_le map (hbehind target htarget) value).trans hmap

/-- `INC $10` on flat memory, and `STA $8003` from a cartridge, which aims at the program itself. -/
theorem step_changes_only_owned_count_store :
    let ram : Ram := .ofBytes ⟨#[0xE6, 0x10]⟩
    let header : Header := ⟨1, 1, 1, .horizontal, false, false, false, false, false, 0, .ntsc⟩
    let board : Nrom := ⟨⟨#[0x8D, 0x03, 0x80, 0xEA]⟩, .horizontal, by decide⟩
    let map : MemoryMap := .ofCartridge ⟨header, ⟨#[]⟩, board⟩
    let counted := (⟨.powerUp, ram⟩ : Machine Ram).step false
    let stored := (⟨{ Registers.powerUp with pc := 0x8000 }, map⟩ : Machine MemoryMap).step false
    (counted.answer.registers.sp = 0xFD ∧
      ∀ addr, addr ≠ 0x10 → counted.bus.get addr = ram.get addr) ∧ stored.bus = map := by
  intro ram header board map
  obtain ⟨hregisters, hram, hmap⟩ := step_changes_only_owned false
  constructor
  · have hopcode : ram.get 0 = 0xE6 := Ram.get_ofBytes _ 0
    have hoperand : ram.get 1 = 0x10 := Ram.get_ofBytes _ 1
    -- only the two cells matter
    generalize ram = ram at hopcode hoperand
    have hget : Instruction.decode? (ram.get Registers.powerUp.pc) =
        some ⟨.adjust .up, .zeroPage⟩ := by
      rw [show ram.get Registers.powerUp.pc = 0xE6 from hopcode]
      decide
    have hdecode : Instruction.decode? (Bus.peek ram Registers.powerUp.pc) =
        some ⟨.adjust .up, .zeroPage⟩ := by
      rw [Bus.peek_ram, hget]
    have hok := congrArg Stepped.outcome
      (Registers.powerUp.actsAs_step ram false hdecode rfl).answer_eq
    constructor
    · obtain ⟨i, hdecode', -, -, hsp⟩ := hregisters ⟨.powerUp, ram⟩ _ hok
      obtain rfl := Option.some.inj (hdecode.symm.trans hdecode')
      exact hsp
    · intro addr hne
      refine hram ⟨.powerUp, ram⟩ _ _ hok hget addr ?_
      show addr ∉ [(ram.get 1).toUInt16]
      rw [hoperand]
      exact fun hmem => hne (List.mem_singleton.mp hmem)
  · have hdecode : Instruction.decode? (Bus.peek map 0x8000) = some ⟨.store .a, .absolute⟩ := by
      decide
    let r : Registers := { Registers.powerUp with pc := 0x8000 }
    have hok := congrArg Stepped.outcome (r.actsAs_step map false hdecode rfl).answer_eq
    have hwritten : (⟨.store .a, .absolute⟩ : Instruction).written map.read r = [0x8003] := by
      decide
    refine (hmap ⟨r, map⟩ _ _ hok hdecode).2 fun target htarget => ?_
    rw [hwritten] at htarget
    rw [List.mem_singleton.mp htarget]
    decide

end Nes.Cpu
