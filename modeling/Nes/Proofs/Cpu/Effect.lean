/-
  Effects: what an operation comes to on memory that does not react to being read.

  `Operation.action?` says what an operation does by the traffic it causes.  On a passive bus that
  traffic is a number of reads followed by at most two stores, and the registers afterwards depend
  on the registers before and the bytes shown before alone.  Here the three are said without a bus,
  for `mem`, the bytes shown at each address:

  * `Operation.reads`   are the cells read, in order;
  * `Operation.stores`  are the stores made, in order;
  * `Operation.outcome` are the registers afterwards.

  `actsAs_action?` is the link.  An operation has an action exactly for operands of the kinds it
  accepts (`isSome_action?`), and every implemented instruction pairs an operation with a mode of
  such a kind (`accepts_of_decode?`).
-/
import Nes.Proofs.Cpu.Finding
import Nes.Cpu.Instruction

namespace Nes.Cpu

open Nes.Traffic (ActsAs)

/-! ## Operands as places -/

namespace Operand

/-- The cell that an operand is, if it is one. -/
def cells : Operand → List UInt16
  | .address addr => [addr]
  | _ => []

/-- The value of an operand; one without a value counts as 0. -/
def valueIn (mem : UInt16 → UInt8) (r : Registers) : Operand → UInt8
  | .accumulator => r.a
  | .immediate value => value
  | .address addr => mem addr
  | .implied | .relative _ => 0

/-- The registers after a byte has been put in the operand's place. -/
def keep (v : UInt8) (r : Registers) : Operand → Registers
  | .accumulator => { r with a := v }
  | _ => r

/-- The stores by which a byte is put in the operand's place. -/
def storesOf (operand : Operand) (v : UInt8) : List (UInt16 × UInt8) :=
  operand.cells.map fun c => (c, v)

variable {β : Type} [Bus β] [PassiveBus β] {operand : Operand} (bus : β) (r : Registers)

theorem actsAs_value? {value : Registers → Traffic UInt8} (h : operand.value? = some value) :
    (value r).ActsAs bus operand.cells [] (operand.valueIn (Bus.peek bus) r) := by
  cases operand with
  | accumulator => cases h; exact ActsAs.pure r.a bus
  | immediate v => cases h; exact ActsAs.pure v bus
  | address addr => cases h; exact ActsAs.of_ofReads (Traffic.perform_readByte addr bus)
  | implied => cases h
  | relative distance => cases h

omit [PassiveBus β] in
theorem actsAs_place? {place : UInt8 → Registers → Traffic Registers} (v : UInt8)
    (h : operand.place? = some place) :
    (place v r).ActsAs bus [] (operand.storesOf v) (operand.keep v r) := by
  cases operand with
  | accumulator => cases h; exact ActsAs.pure _ bus
  | address addr => cases h; exact (ActsAs.writeByte addr v bus).map fun _ => r
  | immediate v => cases h
  | implied => cases h
  | relative distance => cases h

theorem actsAs_using? {f : UInt8 → Registers → Registers} {action : Registers → Traffic Registers}
    (h : operand.using? f = some action) :
    (action r).ActsAs bus operand.cells [] (f (operand.valueIn (Bus.peek bus) r) r) := by
  obtain ⟨value, hvalue, rfl⟩ := Option.map_eq_some_iff.mp h
  exact (actsAs_value? bus r hvalue).map fun v => f v r

/-- What is changed in its place is read once and then stored once. -/
theorem actsAs_modify? {f : UInt8 → Registers → UInt8} {flags : UInt8 → Registers → Registers}
    {action : Registers → Traffic Registers} (h : operand.modify? f flags = some action) :
    let old := operand.valueIn (Bus.peek bus) r
    let new := f old r
    (action r).ActsAs bus operand.cells (operand.storesOf new)
      ((operand.keep new (flags old r)).putNZ new) := by
  intro old new
  unfold modify? at h
  split at h
  · rename_i value place hvalue hplace
    cases h
    have hplaced := (actsAs_place? bus (flags old r) new hplace).map fun r => r.putNZ new
    have hmodified := ActsAs.bind_reads (f := fun old => do
      let placed ← place (f old r) (flags old r)
      return placed.putNZ (f old r)) (actsAs_value? bus r hvalue) hplaced
    rwa [List.append_nil] at hmodified
  · cases h

end Operand

/-! ## The stack -/

namespace Registers

variable {β : Type} [Bus β] (bus : β) (r : Registers)

theorem actsAs_push (v : UInt8) :
    (r.push v).ActsAs bus [] [(stackAddress r.sp, v)] { r with sp := r.sp - 1 } :=
  (ActsAs.writeByte (stackAddress r.sp) v bus).map fun _ => ({ r with sp := r.sp - 1 } : Registers)

theorem actsAs_pushWord (v : UInt16) :
    (r.pushWord v).ActsAs bus []
      [(stackAddress r.sp, highByte v), (stackAddress (r.sp - 1), lowByte v)]
      { r with sp := r.sp - 2 } := by
  have hsp : r.sp - 1 - 1 = r.sp - 2 := by
    rw [UInt8.sub_eq_add_neg, UInt8.sub_eq_add_neg, UInt8.sub_eq_add_neg, UInt8.add_assoc]
    rfl
  rw [← hsp]
  exact (actsAs_push bus r (highByte v)).bind_stores fun bus =>
    actsAs_push bus { r with sp := r.sp - 1 } (lowByte v)

/-- The byte that lies `depth` cells above the one that SP names. -/
def onStack (mem : UInt16 → UInt8) (r : Registers) (depth : UInt8) : UInt8 :=
  mem (stackAddress (r.sp + depth))

variable [PassiveBus β]

theorem actsAs_pull :
    r.pull.ActsAs bus [stackAddress (r.sp + 1)] []
      (r.onStack (Bus.peek bus) 1, { r with sp := r.sp + 1 }) :=
  (ActsAs.of_ofReads (Traffic.perform_readByte (stackAddress (r.sp + 1)) bus)).map fun v =>
    (v, ({ r with sp := r.sp + 1 } : Registers))

theorem actsAs_pullWord :
    r.pullWord.ActsAs bus [stackAddress (r.sp + 1), stackAddress (r.sp + 2)] []
      (word (r.onStack (Bus.peek bus) 1) (r.onStack (Bus.peek bus) 2),
        { r with sp := r.sp + 2 }) := by
  have hsp : r.sp + 2 = r.sp + 1 + 1 := (UInt8.add_assoc r.sp 1 1).symm
  have hhigh := (actsAs_pull bus { r with sp := r.sp + 1 }).map fun pulled =>
    (word (r.onStack (Bus.peek bus) 1) pulled.1, pulled.2)
  rw [onStack, onStack, hsp]
  exact ActsAs.bind_reads (actsAs_pull bus r) hhigh

end Registers

/-! ## Every operation -/

namespace Operation

section

variable (mem : UInt16 → UInt8) (operand : Operand) (r : Registers)

/-- The cells that an operation reads. -/
def reads : Operation → List UInt16
  | .load _ | .logic _ | .testBits | .add | .subtract | .compare _ | .adjust _ | .shift _ =>
    operand.cells
  | .pullA | .pullStatus => [stackAddress (r.sp + 1)]
  | .returnFromSubroutine => [stackAddress (r.sp + 1), stackAddress (r.sp + 2)]
  | .returnFromInterrupt =>
    [stackAddress (r.sp + 1), stackAddress (r.sp + 2), stackAddress (r.sp + 3)]
  | _ => []

/-- The byte that an operation makes of the operand's value where it changes it in its place. -/
def changed (v : UInt8) : Operation → UInt8
  | .adjust direction => direction.step v
  | .shift way => way.result v (r.status.get .carry)
  | _ => v

/-- The stores that an operation makes. -/
def stores : Operation → List (UInt16 × UInt8)
  | .store source => operand.storesOf (r.get source)
  | .adjust direction => operand.storesOf (changed r (operand.valueIn mem r) (.adjust direction))
  | .shift way => operand.storesOf (changed r (operand.valueIn mem r) (.shift way))
  | .pushA => [(stackAddress r.sp, r.a)]
  | .pushStatus => [(stackAddress r.sp, r.status.pushed)]
  | .callSubroutine =>
    [(stackAddress r.sp, highByte (r.pc - 1)), (stackAddress (r.sp - 1), lowByte (r.pc - 1))]
  | _ => []

/-- The registers after an operation. -/
def outcome (operation : Operation) : Registers :=
  let v := operand.valueIn mem r
  match operation with
  | .load target => (r.put target v).putNZ v
  | .store source => operand.keep (r.get source) r
  | .transfer move => move.apply r
  | .pushA | .pushStatus => { r with sp := r.sp - 1 }
  | .pullA => { r with sp := r.sp + 1, a := r.onStack mem 1 }.putNZ (r.onStack mem 1)
  | .pullStatus => { r with sp := r.sp + 1, status := r.status.pull (r.onStack mem 1) }
  | .logic connective =>
    { r with a := connective.apply r.a v }.putNZ (connective.apply r.a v)
  | .testBits =>
    ((r.putFlag .zero (r.a &&& v == 0)).putFlag .negative (testBit v 7)).putFlag .overflow
      (testBit v 6)
  | .add => r.addToA v
  | .subtract => r.addToA (~~~ v)
  | .compare register => r.compareWith (r.get register) v
  | .adjust direction =>
    let new := changed r v (.adjust direction)
    (operand.keep new r).putNZ new
  | .count index direction =>
    let new := direction.step (r.get index.register)
    (r.put index.register new).putNZ new
  | .shift way =>
    let new := changed r v (.shift way)
    (operand.keep new (r.putFlag .carry (way.carryOut v))).putNZ new
  | .jump => { r with pc := operand.address?.getD r.pc }
  | .callSubroutine => { r with sp := r.sp - 2, pc := operand.address?.getD r.pc }
  | .returnFromSubroutine =>
    { r with sp := r.sp + 2, pc := word (r.onStack mem 1) (r.onStack mem 2) + 1 }
  | .returnFromInterrupt =>
    { r with
      sp := r.sp + 3
      status := .pullForced (r.onStack mem 1)
      pc := word (r.onStack mem 2) (r.onStack mem 3) }
  | .softwareInterrupt => r
  | .branch condition wanted =>
    if r.status.get condition.flag = wanted then r.takeBranch (operand.distance?.getD 0) else r
  | .switch flag on => r.putFlag flag.flag on
  | .clearOverflow => r.putFlag .overflow false
  | .idle => r

end

/-! ## Which operands suit -/

/-- The kinds of operands for which an operation has an action. -/
def accepts : Operation → OperandKind → Bool
  | .load _, kind | .logic _, kind | .testBits, kind | .add, kind | .subtract, kind
  | .compare _, kind => kind = .accumulator || kind = .immediate || kind = .address
  | .store _, kind | .adjust _, kind | .shift _, kind => kind = .accumulator || kind = .address
  | .jump, kind | .callSubroutine, kind => kind = .address
  | .branch _ _, kind => kind = .relative
  | .softwareInterrupt, _ => false
  | _, _ => true

/-- An operation has an action exactly for the operands whose kind it accepts. -/
theorem isSome_action? (o : Operation) (operand : Operand) :
    (o.action? operand).isSome = o.accepts operand.kind := by
  cases o <;> cases operand <;> rfl

/-- What is found of a kind that an operation accepts can be acted on. -/
theorem exists_action? {o : Operation} {operand : Operand} {kind : OperandKind}
    (haccepts : o.accepts kind) (hkind : operand.kind = kind) :
    ∃ action, o.action? operand = some action := by
  have hsome : (o.action? operand).isSome := by
    rw [isSome_action?, hkind]
    exact haccepts
  exact Option.isSome_iff_exists.mp hsome

/-- **What an operation does on a passive bus.** -/
theorem actsAs_action? {o : Operation} {operand : Operand} {action : Registers → Traffic Registers}
    (h : o.action? operand = some action) {β : Type} [Bus β] [PassiveBus β] (bus : β)
    (r : Registers) :
    (action r).ActsAs bus (o.reads operand r) (o.stores (Bus.peek bus) operand r)
      (o.outcome (Bus.peek bus) operand r) := by
  cases o with
  | load target => exact Operand.actsAs_using? bus r h
  | logic connective => exact Operand.actsAs_using? bus r h
  | testBits => exact Operand.actsAs_using? bus r h
  | add => exact Operand.actsAs_using? bus r h
  | subtract => exact Operand.actsAs_using? bus r h
  | compare register => exact Operand.actsAs_using? bus r h
  | adjust direction => exact Operand.actsAs_modify? bus r h
  | shift way => exact Operand.actsAs_modify? bus r h
  | store source =>
    obtain ⟨place, hplace, rfl⟩ := Option.map_eq_some_iff.mp h
    exact Operand.actsAs_place? bus r (r.get source) hplace
  | pushA => cases h; exact r.actsAs_push bus r.a
  | pushStatus => cases h; exact r.actsAs_push bus r.status.pushed
  | pullA => cases h; exact (r.actsAs_pull bus).map _
  | pullStatus => cases h; exact (r.actsAs_pull bus).map _
  | jump =>
    obtain ⟨target, htarget, rfl⟩ := Option.map_eq_some_iff.mp h
    rw [outcome, htarget]
    exact ActsAs.pure _ bus
  | callSubroutine =>
    obtain ⟨target, htarget, rfl⟩ := Option.map_eq_some_iff.mp h
    rw [outcome, htarget]
    exact (r.actsAs_pushWord bus (r.pc - 1)).map _
  | returnFromSubroutine => cases h; exact (r.actsAs_pullWord bus).map _
  | returnFromInterrupt =>
    cases h
    have htwo : r.sp + 1 + 1 = r.sp + 2 := UInt8.add_assoc r.sp 1 1
    have hthree : r.sp + 1 + 2 = r.sp + 3 := UInt8.add_assoc r.sp 1 2
    have hback := ({ r with sp := r.sp + 1 } : Registers).actsAs_pullWord bus
    simp only [Registers.onStack, htwo, hthree] at hback
    exact (r.actsAs_pull bus).bind_reads (hback.map _)
  | branch condition wanted =>
    obtain ⟨distance, hdistance, rfl⟩ := Option.map_eq_some_iff.mp h
    rw [outcome, hdistance]
    exact ActsAs.pure _ bus
  | softwareInterrupt => cases h
  | transfer move => cases h; exact ActsAs.pure _ bus
  | count index direction => cases h; exact ActsAs.pure _ bus
  | switch flag on => cases h; exact ActsAs.pure _ bus
  | clearOverflow => cases h; exact ActsAs.pure _ bus
  | idle => cases h; exact ActsAs.pure _ bus

end Operation

/-- Every implemented instruction finds an operand of a kind that its operation accepts. -/
theorem Instruction.accepts_of_decode? {opcode : UInt8} {i : Instruction}
    (h : decode? opcode = some i) (himplemented : i.isImplemented) :
    i.operation.accepts i.mode.kind := by
  have hall : ∀ e ∈ table, e.2.isImplemented → e.2.operation.accepts e.2.mode.kind := by
    decide +kernel
  exact hall (opcode, i) (mem_table_of_decode? h) himplemented

end Nes.Cpu
