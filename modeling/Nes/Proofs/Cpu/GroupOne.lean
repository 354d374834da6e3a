/-
  Group one: the opcodes of the form aaabbb01, read as bit fields.

  1. **Encoding**: the three upper bits number the operation and the three behind them the mode,
     `GroupOne.operation` and `GroupOne.mode`.  The table agrees with the fields everywhere but at
     $89, which would store into an immediate operand and is not official (`decode?_opcode`).
  2. **Specification**: `GroupOne.Does` says in numbers what each of the eight operations makes of A
     and the flags.
  3. **Correctness**: `step_groupOne`: in every state of a processor on flat memory a step at such
     an opcode does what the fields say and changes nothing else, and the decimal flag plays no
     part.
-/
import Nes.Proofs.Cpu.Arithmetic
import Nes.Proofs.Cpu.Stepping

namespace Nes.Cpu

namespace GroupOne

/-! ## The bit fields -/

/-- The byte aaabbb01. -/
def opcode (aaa bbb : Fin 8) : UInt8 := UInt8.ofNat (32 * aaa.val + 4 * bbb.val + 1)

/-- The operation that the upper field numbers. -/
def operation : Fin 8 → Operation
  | 0 => .logic .or
  | 1 => .logic .and
  | 2 => .logic .xor
  | 3 => .add
  | 4 => .store .a
  | 5 => .load .a
  | 6 => .compare .a
  | 7 => .subtract

/-- The mode that the lower field numbers. -/
def mode : Fin 8 → Mode
  | 0 => .preIndexedIndirect
  | 1 => .zeroPage
  | 2 => .immediate
  | 3 => .absolute
  | 4 => .postIndexedIndirect
  | 5 => .zeroPageX
  | 6 => .absoluteY
  | 7 => .absoluteX

/-- The table agrees with the fields. -/
theorem decode?_opcode : ∀ aaa bbb, opcode aaa bbb ≠ 0x89 →
    Instruction.decode? (opcode aaa bbb) = some ⟨operation aaa, mode bbb⟩ := by
  decide

theorem isImplemented : ∀ aaa bbb, (Instruction.mk (operation aaa) (mode bbb)).isImplemented := by
  decide

theorem kind_mode : ∀ bbb, (mode bbb).kind = if bbb = 2 then .immediate else .address := by decide

/-! ## What the operations do -/

/-- What operation `aaa` makes of A and the flags, when its operand is the byte `m`: they were `a`
    and `p`, and they are `a'` and `p'` afterwards. -/
def Does (m a : UInt8) (p : Status) (a' : UInt8) (p' : Status) : Fin 8 → Prop
  | 0 => a' = a ||| m ∧ p'.TellsOf a' ∧ p.SameBut p' [.zero, .negative]
  | 1 => a' = a &&& m ∧ p'.TellsOf a' ∧ p.SameBut p' [.zero, .negative]
  | 2 => a' = a ^^^ m ∧ p'.TellsOf a' ∧ p.SameBut p' [.zero, .negative]
  | 3 =>
    a'.toNat + 256 * p'.carryNat = a.toNat + m.toNat + p.carryNat ∧
      (p'.get .overflow = true ↔
        signed a + signed m + p.carryNat < -128 ∨ 127 < signed a + signed m + p.carryNat) ∧
      p'.TellsOf a' ∧ p.SameBut p' [.carry, .zero, .overflow, .negative]
  | 4 => a' = a ∧ p' = p
  | 5 => a' = m ∧ p'.TellsOf a' ∧ p.SameBut p' [.zero, .negative]
  | 6 =>
    a' = a ∧ (p'.get .carry = true ↔ m.toNat ≤ a.toNat) ∧
      p'.TellsOf (a - m) ∧ p.SameBut p' [.carry, .zero, .negative]
  | 7 =>
    (a'.toNat : Int) = ((a.toNat : Int) - m.toNat - (1 - p.carryNat)) % 256 ∧
      (p'.get .carry = true ↔ m.toNat + (1 - p.carryNat) ≤ a.toNat) ∧
      (p'.get .overflow = true ↔
        signed a - signed m - (1 - p.carryNat) < -128 ∨
          127 < signed a - signed m - (1 - p.carryNat)) ∧
      p'.TellsOf a' ∧ p.SameBut p' [.carry, .zero, .overflow, .negative]

section

variable (mem : UInt16 → UInt8) {operand : Operand} (r : Registers)

theorem does_outcome (aaa : Fin 8) (hkind : operand.kind ≠ .accumulator) :
    let q := (operation aaa).outcome mem operand r
    Does (operand.valueIn mem r) r.a r.status q.a q.status aaa := by
  match aaa with
  | 0 | 1 | 2 | 5 => exact ⟨rfl, Status.putNZ_tellsOf _ _, Status.putNZ_sameBut _ _⟩
  | 3 =>
    exact ⟨r.addToA_sum _, r.addToA_overflow _, Status.putNZ_tellsOf _ _, r.addToA_sameBut _⟩
  | 4 =>
    -- the only place for a store that is not a cell would be A itself
    cases operand with
    | accumulator => exact absurd rfl hkind
    | implied | immediate _ | address _ | relative _ => exact ⟨rfl, rfl⟩
  | 6 =>
    exact ⟨rfl, r.compareWith_carry _ r.a, Status.putNZ_tellsOf _ _, r.compareWith_sameBut _ r.a⟩
  | 7 =>
    exact ⟨r.addToA_complement_difference _, r.addToA_complement_carry _,
      r.addToA_complement_overflow _, Status.putNZ_tellsOf _ _, r.addToA_sameBut _⟩

/-- No operation of the group touches the other registers. -/
theorem frame_outcome (aaa : Fin 8) :
    let q := (operation aaa).outcome mem operand r
    q.x = r.x ∧ q.y = r.y ∧ q.sp = r.sp ∧ q.pc = r.pc := by
  match aaa with
  | 4 => cases operand <;> exact ⟨rfl, rfl, rfl, rfl⟩
  | 0 | 1 | 2 | 3 | 5 | 6 | 7 => exact ⟨rfl, rfl, rfl, rfl⟩

/-- Operation 4 is the only one that stores. -/
theorem stores_operation (aaa : Fin 8) :
    (operation aaa).stores mem operand r = if aaa = 4 then operand.storesOf r.a else [] := by
  match aaa with
  | 0 | 1 | 2 | 3 | 4 | 5 | 6 | 7 => rfl

/-- No operation of the group asks for the decimal flag. -/
theorem outcome_decimal (aaa : Fin 8) (on : Bool) :
    (operation aaa).outcome mem operand (r.putFlag .decimal on) =
      ((operation aaa).outcome mem operand r).putFlag .decimal on := by
  have hvalue : operand.valueIn mem (r.putFlag .decimal on) = operand.valueIn mem r := by
    cases operand <;> rfl
  have hassign : ∀ v, ({ r.putFlag .decimal on with a := v } : Registers).putNZ v =
      (({ r with a := v } : Registers).putNZ v).putFlag .decimal on := by
    intro v
    exact Registers.putNZ_decimal { r with a := v } on v
  match aaa with
  | 4 => cases operand <;> rfl
  | 0 | 1 | 2 | 5 =>
    simp only [operation, Operation.outcome, hvalue]
    exact hassign _
  | 3 | 7 =>
    simp only [operation, Operation.outcome, hvalue]
    exact r.addToA_decimal _ on
  | 6 =>
    simp only [operation, Operation.outcome, hvalue]
    exact r.compareWith_decimal _ on r.a

end

/-! ## Instructions of the group -/

/-- The instruction that the two fields name. -/
def instruction (aaa bbb : Fin 8) : Instruction := ⟨operation aaa, mode bbb⟩

section

variable (aaa bbb : Fin 8) (mem : UInt16 → UInt8) (r : Registers)

theorem does_instruction :
    let q := (instruction aaa bbb).outcome mem r
    Does (((mode bbb).find mem r).valueIn mem r) r.a r.status q.a q.status aaa := by
  have hkind : ((mode bbb).find mem r).kind ≠ .accumulator := by
    rw [Mode.kind_find, kind_mode]
    split <;> exact nofun
  exact does_outcome mem ((instruction aaa bbb).ready mem r) aaa hkind

theorem frame_instruction :
    let q := (instruction aaa bbb).outcome mem r
    q.x = r.x ∧ q.y = r.y ∧ q.sp = r.sp ∧
      q.pc = r.pc + UInt16.ofNat (1 + (mode bbb).operandLength) :=
  frame_outcome mem ((instruction aaa bbb).ready mem r) aaa

theorem stores_instruction :
    (instruction aaa bbb).stores mem r =
      if aaa = 4 then ((mode bbb).find mem r).storesOf r.a else [] :=
  stores_operation mem ((instruction aaa bbb).ready mem r) aaa

theorem instruction_decimal (on : Bool) :
    (instruction aaa bbb).outcome mem (r.putFlag .decimal on) =
      ((instruction aaa bbb).outcome mem r).putFlag .decimal on := by
  have hlast : (instruction aaa bbb).last mem (r.putFlag .decimal on) =
      ((instruction aaa bbb).last mem r).putFlag .decimal on :=
    outcome_decimal mem ((instruction aaa bbb).ready mem r) aaa on
  rw [Instruction.outcome, hlast]
  rfl

end

end GroupOne

section

open GroupOne

/-- **Group one follows its bit fields.**  In every state of a processor on flat memory a step at an
    opcode aaabbb01 other than $89 succeeds; it does operation `aaa` on the operand of mode `bbb`,
    and it changes neither the other registers nor any cell, but for the one cell in which operation
    4 stores A.  All of it is the same whatever the decimal flag shows. -/
theorem step_groupOne (ram : Ram) (r : Registers) (tracing : Bool) {aaa bbb : Fin 8}
    (hopcode : ram.get r.pc = opcode aaa bbb) (hofficial : ram.get r.pc ≠ 0x89) :
    let done := (r.step tracing).perform ram
    let operand := (mode bbb).find ram.get r
    let q := done.answer.registers
    (∃ cycles, done.answer.outcome = .ok cycles) ∧
      Does (operand.valueIn ram.get r) r.a r.status q.a q.status aaa ∧
      (q.x = r.x ∧ q.y = r.y ∧ q.sp = r.sp ∧
        q.pc = r.pc + UInt16.ofNat (1 + (mode bbb).operandLength)) ∧
      (aaa = 4 → ∃ addr, operand = .address addr ∧ done.bus = ram.set addr r.a) ∧
      (aaa ≠ 4 → done.bus = ram) ∧
      ∀ on,
        let other := ((r.putFlag .decimal on).step tracing).perform ram
        other.answer = ⟨done.answer.outcome, q.putFlag .decimal on⟩ ∧ other.bus = done.bus := by
  intro done operand q
  have hne : opcode aaa bbb ≠ 0x89 := hopcode ▸ hofficial
  have hdecode : Instruction.decode? (Bus.peek ram r.pc) = some (instruction aaa bbb) := by
    rw [Bus.peek_ram, hopcode]
    exact decode?_opcode aaa bbb hne
  have hstep := r.actsAs_step ram tracing hdecode (isImplemented aaa bbb)
  have hq : q = (instruction aaa bbb).outcome ram.get r :=
    congrArg Stepped.registers hstep.answer_eq
  have hbus : done.bus = Traffic.storeAll ram (if aaa = 4 then operand.storesOf r.a else []) := by
    rw [← stores_instruction]
    exact hstep.bus_eq
  refine ⟨⟨_, congrArg Stepped.outcome hstep.answer_eq⟩, ?_, ?_, ?_, ?_, ?_⟩
  · rw [hq]
    exact does_instruction aaa bbb ram.get r
  · rw [hq]
    exact frame_instruction aaa bbb ram.get r
  · -- the only mode whose operand is no cell is that of $89
    intro hstore
    have hbbb : bbb ≠ 2 := by
      rintro rfl
      subst hstore
      exact hne rfl
    have hkind : operand.kind = .address := by
      rw [Mode.kind_find, kind_mode, if_neg hbbb]
    obtain ⟨addr, hoperand⟩ := Operand.eq_address_of_kind hkind
    refine ⟨addr, hoperand, ?_⟩
    rw [hbus, if_pos hstore, hoperand]
    rfl
  · intro hother
    rw [hbus, if_neg hother]
    rfl
  · intro on other
    have hother := (r.putFlag .decimal on).actsAs_step ram tracing hdecode (isImplemented aaa bbb)
    have hstores : (instruction aaa bbb).stores ram.get (r.putFlag .decimal on) =
        (instruction aaa bbb).stores ram.get r := by
      rw [stores_instruction, stores_instruction]
      rfl
    constructor
    · have hanswer := hother.answer_eq
      rw [Bus.peek_ram, instruction_decimal, ← hq] at hanswer
      rw [hanswer, congrArg Stepped.outcome hstep.answer_eq, Bus.peek_ram, ← hq]
      rfl
    · rw [hother.bus_eq, hstep.bus_eq, Bus.peek_ram, hstores]

/-- `ADC #$50` with $50 in A: as signed numbers 80 and 80 do not add up to a byte. -/
theorem step_groupOne_overflow :
    let ram : Ram := .ofBytes ⟨#[0x69, 0x50]⟩
    let r : Registers := { Registers.powerUp with a := 0x50 }
    let q := ((r.step false).perform ram).answer.registers
    q.a.toNat + 256 * q.status.carryNat = 160 ∧ q.status.get .overflow = true := by
  intro ram r
  have hopcode : ram.get r.pc = opcode 3 2 := Ram.get_ofBytes _ 0
  have hoperand : ram.get 1 = 0x50 := Ram.get_ofBytes _ 1
  have hofficial : ram.get r.pc ≠ 0x89 := by
    rw [hopcode]
    decide
  have hm : ∀ mem : UInt16 → UInt8,
      Operand.valueIn mem r ((mode 2).find mem r) = mem 1 := fun _ => rfl
  obtain ⟨-, ⟨hsum, hoverflow, -⟩, -⟩ := step_groupOne ram r false hopcode hofficial
  rw [hm, hoperand] at hsum hoverflow
  have hplain : r.a.toNat + (0x50 : UInt8).toNat + r.status.carryNat = 160 := by decide
  exact ⟨hsum.trans hplain, hoverflow.mpr (by decide)⟩

end

end Nes.Cpu
