/-
  Encodings: the opcodes that change a byte in its place, and those of the index registers.

  1. **Changes**: shifts, rotations and counting have opcodes of the form aaabbb10, where `aaa`
     numbers the change (`Change.ofField?`) and `bbb` the place (`Change.mode?`).  `Change.Makes`
     says in numbers what comes of a byte and the flags; it does not ask where the byte lies, so
     that A and a cell are changed alike (`Change.Makes.unique`).
  2. **Index registers**: X and Y are loaded, stored and compared by opcodes that follow no common
     pattern (X is indexed by Y, and Y by X), so these are listed, and those of BIT with them.
  3. **Correctness**: `step_follows_encoding`: in every state of a processor on flat memory a step
     at each of these opcodes does what is said of it.  `Leaves` says the rest: PC stands behind the
     instruction, the cycles are added up, and nothing else has changed.
-/
import Nes.Proofs.Cpu.Shifts
import Nes.Proofs.Cpu.Stepping

namespace Nes.Cpu

/-! ## What a step leaves -/

/-- A step at an instruction of the given mode has succeeded; it leaves the registers `q`, with PC
    moved behind the instruction and the cycles added up, and the memory `ram`. -/
def Leaves (done : Traffic.Performed Stepped Ram) (mode : Mode) (q : Registers) (ram : Ram) :
    Prop :=
  ∃ spent, done.bus = ram ∧ done.answer =
    ⟨.ok spent,
      { q with
        pc := q.pc + UInt16.ofNat (1 + mode.operandLength)
        stepCycles := spent
        cycles := q.cycles + spent.toUInt64 }⟩

section

variable {ram : Ram} {r : Registers} {i : Instruction}

/-- A step leaves what its operation makes of the registers, and its stores. -/
theorem leaves_of_decode? (tracing : Bool) (hdecode : Instruction.decode? (ram.get r.pc) = some i)
    (himplemented : i.isImplemented) {q : Registers}
    (hlast : i.last ram.get r =
      { q with
        pc := q.pc + UInt16.ofNat i.size
        stepCycles := (i.ready ram.get r).stepCycles }) :
    Leaves ((r.step tracing).perform ram) i.mode q
      (Traffic.storeAll ram (i.stores ram.get r)) := by
  have hstep := r.actsAs_step ram tracing hdecode himplemented
  refine ⟨(i.ready ram.get r).stepCycles, hstep.bus_eq, ?_⟩
  have hanswer := hstep.answer_eq
  rw [Bus.peek_ram, Instruction.outcome, hlast] at hanswer
  exact hanswer

/-- Finding the operand leaves A as it is, so its value is what it was before the step. -/
theorem valueIn_ready (mem : UInt16 → UInt8) (operand : Operand) :
    operand.valueIn mem (i.ready mem r) = operand.valueIn mem r := by
  cases operand <;> rfl

end

/-! ## Changes -/

/-- The ways to change a byte in its place. -/
inductive Change where
  | shift (way : Shift)
  | count (direction : Direction)
  deriving DecidableEq

namespace Change

/-- The operation that makes a change. -/
def operation : Change → Operation
  | .shift way => .shift way
  | .count direction => .adjust direction

/-- The change that the upper field numbers. -/
def ofField? : Fin 8 → Option Change
  | 0 => some (.shift .shiftLeft)
  | 1 => some (.shift .rotateLeft)
  | 2 => some (.shift .shiftRight)
  | 3 => some (.shift .rotateRight)
  | 6 => some (.count .down)
  | 7 => some (.count .up)
  | 4 | 5 => none

/-- The mode that the lower field numbers; A is shifted, and does not count. -/
def mode? (change : Change) : Fin 8 → Option Mode
  | 1 => some .zeroPage
  | 2 =>
    match change with
    | .shift _ => some .accumulator
    | .count _ => none
  | 3 => some .absolute
  | 5 => some .zeroPageX
  | 7 => some .absoluteX
  | 0 | 4 | 6 => none

/-- The byte aaabbb10. -/
def opcode (aaa bbb : Fin 8) : UInt8 := UInt8.ofNat (32 * aaa.val + 4 * bbb.val + 2)

/-- The table agrees with the fields. -/
theorem decode?_opcode : ∀ aaa bbb, ∀ change ∈ ofField? aaa, ∀ mode ∈ change.mode? bbb,
    Instruction.decode? (opcode aaa bbb) = some ⟨change.operation, mode⟩ := by
  decide

theorem isImplemented (change : Change) (mode : Mode) :
    (Instruction.mk change.operation mode).isImplemented := by
  cases change <;> rfl

/-- What is changed is A or a cell. -/
theorem kind_of_mode? : ∀ bbb, ∀ change : Change, ∀ mode ∈ change.mode? bbb,
    mode.kind = if mode = .accumulator then .accumulator else .address := by
  intro bbb change
  cases change with
  | shift way => revert bbb; simp only [mode?]; decide
  | count direction => revert bbb; simp only [mode?]; decide

/-! ### In numbers -/

/-- The byte that comes of `v`, where the carry is `carry`.  Counting down adds 255 modulo 256. -/
def byteNat (v carry : Nat) : Change → Nat
  | .shift .shiftLeft => 2 * v % 256
  | .shift .rotateLeft => (2 * v + carry) % 256
  | .shift .shiftRight => v / 2
  | .shift .rotateRight => v / 2 + 128 * carry
  | .count .down => (v + 255) % 256
  | .count .up => (v + 1) % 256

/-- The carry that comes of `v`: the bit that is shifted out.  Counting leaves it as it is. -/
def carryNat (v carry : Nat) : Change → Nat
  | .shift .shiftLeft | .shift .rotateLeft => v / 128
  | .shift .shiftRight | .shift .rotateRight => v % 2
  | .count _ => carry

/-- The change makes `v'` of the byte `v`, and `p'` of the flags `p`. -/
structure Makes (change : Change) (v : UInt8) (p : Status) (v' : UInt8) (p' : Status) : Prop where
  toNat_eq : v'.toNat = change.byteNat v.toNat p.carryNat
  carryNat_eq : p'.carryNat = change.carryNat v.toNat p.carryNat
  tellsOf : p'.TellsOf v'
  sameBut : p.SameBut p' [.carry, .zero, .negative]

/-- The byte that the operation of a change stores. -/
def byte (v : UInt8) (p : Status) : Change → UInt8
  | .shift way => way.result v (p.get .carry)
  | .count direction => direction.step v

/-- The flags that the operation of a change leaves. -/
def flags (v : UInt8) (p : Status) : Change → Status
  | .shift way => (p.put .carry (way.carryOut v)).putNZ (way.result v (p.get .carry))
  | .count direction => p.putNZ (direction.step v)

variable (v : UInt8) (p : Status)

theorem toNat_byte (change : Change) :
    (change.byte v p).toNat = change.byteNat v.toNat p.carryNat := by
  have hv := v.toNat_lt
  have hc := p.carryNat_le
  rcases change with way | direction
  · cases way with
    | shiftLeft => exact Shift.toNat_result_of_left v (p.get .carry) rfl
    | rotateLeft =>
      have hresult : (Shift.result v (p.get .carry) .rotateLeft).toNat =
          2 * v.toNat % 256 + p.carryNat := Shift.toNat_result_of_left v (p.get .carry) rfl
      show _ = (2 * v.toNat + p.carryNat) % 256
      exact hresult.trans (by omega)
    | shiftRight => exact Shift.toNat_result_of_right v (p.get .carry) rfl
    | rotateRight => exact Shift.toNat_result_of_right v (p.get .carry) rfl
  · cases direction with
    | up =>
      show (v + 1).toNat = (v.toNat + 1) % 256
      rw [UInt8.toNat_add]
      rfl
    | down =>
      show (v - 1).toNat = (v.toNat + 255) % 256
      rw [UInt8.toNat_sub]
      show (2 ^ 8 - 1 + v.toNat) % 2 ^ 8 = _
      omega

theorem carryNat_flags (change : Change) :
    (change.flags v p).carryNat = change.carryNat v.toNat p.carryNat := by
  rcases change with way | direction
  · have hcarry : (Change.flags v p (.shift way)).get .carry = way.carryOut v := by simp [flags]
    rw [Status.carryNat, hcarry]
    cases way with
    | shiftLeft | rotateLeft => exact Shift.toNat_carryOut_of_left v rfl
    | shiftRight | rotateRight => exact Shift.toNat_carryOut_of_right v rfl
  · have hcarry : (Change.flags v p (.count direction)).get .carry = p.get .carry := by
      simp [flags]
    rw [Status.carryNat, hcarry]
    rfl

/-- **The operation of a change makes what the change makes.** -/
theorem makes (change : Change) : change.Makes v p (change.byte v p) (change.flags v p) where
  toNat_eq := change.toNat_byte v p
  carryNat_eq := change.carryNat_flags v p
  tellsOf := by
    cases change with
    | shift way => exact Status.putNZ_tellsOf _ _
    | count direction => exact Status.putNZ_tellsOf _ _
  sameBut := by
    have hsame := Status.SameBut.refl p [.carry, .zero, .negative]
    cases change with
    | shift way =>
      have hcarry := hsame.put (f := .carry) (by decide) (way.carryOut v)
      exact hcarry.putNZ (by decide) (by decide) _
    | count direction => exact hsame.putNZ (by decide) (by decide) _

/-- **What a change makes is told by the byte and the carry alone**, wherever the byte lies. -/
theorem Makes.unique {change : Change} {v v₁ v₂ : UInt8} {p q p' q' : Status}
    (hp : change.Makes v p v₁ p') (hq : change.Makes v q v₂ q')
    (hcarry : p.get .carry = q.get .carry) :
    v₁ = v₂ ∧ ∀ f ∈ [Flag.carry, .zero, .negative], p'.get f = q'.get f := by
  have hnat : p.carryNat = q.carryNat := Status.carryNat_inj.mpr hcarry
  have hbyte : v₁ = v₂ := by
    apply UInt8.toNat_inj.mp
    rw [hp.toNat_eq, hq.toNat_eq, hnat]
  subst hbyte
  have hsame : p'.carryNat = q'.carryNat := by rw [hp.carryNat_eq, hq.carryNat_eq, hnat]
  refine ⟨rfl, ?_⟩
  intro f hf
  simp only [List.mem_cons, List.not_mem_nil, or_false] at hf
  rcases hf with rfl | rfl | rfl
  · exact Status.carryNat_inj.mp hsame
  · exact Bool.eq_iff_iff.mpr (hp.tellsOf.1.trans hq.tellsOf.1.symm)
  · exact Bool.eq_iff_iff.mpr (hp.tellsOf.2.trans hq.tellsOf.2.symm)

/-! ### Steps that change a byte -/

variable {ram : Ram} {r : Registers} {aaa bbb : Fin 8} {change : Change} {mode : Mode}

/-- What the operation of a change leaves in the registers. -/
theorem last_eq (change : Change) (mode : Mode) (mem : UInt16 → UInt8) (r : Registers) :
    let i : Instruction := ⟨change.operation, mode⟩
    let operand := mode.find mem r
    let v := operand.valueIn mem r
    i.last mem r =
      { operand.keep (change.byte v r.status) r with
        status := change.flags v r.status
        pc := r.pc + UInt16.ofNat i.size
        stepCycles := (i.ready mem r).stepCycles } := by
  intro i operand v
  have hvalue : operand.valueIn mem (i.ready mem r) = v := valueIn_ready mem operand
  rw [Instruction.last, Instruction.operand]
  show Operation.outcome mem operand (i.ready mem r) change.operation = _
  cases change with
  | shift way =>
    simp only [operation, Operation.outcome, hvalue]
    cases operand <;> rfl
  | count direction =>
    simp only [operation, Operation.outcome, hvalue]
    cases operand <;> rfl

/-- What the operation of a change stores. -/
theorem stores_eq (change : Change) (mode : Mode) (mem : UInt16 → UInt8) (r : Registers) :
    let operand := mode.find mem r
    (Instruction.mk change.operation mode).stores mem r =
      operand.storesOf (change.byte (operand.valueIn mem r) r.status) := by
  intro operand
  have hvalue := valueIn_ready (r := r) (i := ⟨change.operation, mode⟩) mem operand
  cases change with
  | shift way =>
    show operand.storesOf (Operation.changed _ (operand.valueIn mem _) (.shift way)) = _
    rw [hvalue]
    rfl
  | count direction =>
    show operand.storesOf (Operation.changed _ (operand.valueIn mem _) (.adjust direction)) = _
    rw [hvalue]
    rfl

/-- **A step at an opcode aaabbb10** makes the change in A, or in the cell that the mode finds. -/
theorem step_makes (tracing : Bool) (hchange : ofField? aaa = some change)
    (hmode : change.mode? bbb = some mode) (hopcode : ram.get r.pc = opcode aaa bbb) :
    let done := (r.step tracing).perform ram
    let operand := mode.find ram.get r
    ∃ v' p', change.Makes (operand.valueIn ram.get r) r.status v' p' ∧
      (mode = .accumulator → Leaves done mode { r with a := v', status := p' } ram) ∧
      (mode ≠ .accumulator → ∃ addr, operand = .address addr ∧
        Leaves done mode { r with status := p' } (ram.set addr v')) := by
  intro done operand
  have hdecode : Instruction.decode? (ram.get r.pc) = some ⟨change.operation, mode⟩ := by
    rw [hopcode]
    exact decode?_opcode aaa bbb change hchange mode hmode
  have hkind : operand.kind = if mode = .accumulator then .accumulator else .address := by
    rw [Mode.kind_find]
    exact kind_of_mode? bbb change mode hmode
  have hleaves := leaves_of_decode? tracing hdecode (change.isImplemented mode)
    (q := { operand.keep (change.byte (operand.valueIn ram.get r) r.status) r with
      status := change.flags (operand.valueIn ram.get r) r.status })
    (by
      rw [last_eq]
      cases hoperand : mode.find ram.get r <;> simp only [operand, hoperand] <;> rfl)
  rw [stores_eq] at hleaves
  refine ⟨_, _, change.makes (operand.valueIn ram.get r) r.status, ?_, ?_⟩
  · intro hplace
    have hoperand : operand = .accumulator := by
      rw [if_pos hplace] at hkind
      cases hcase : operand with
      | accumulator => rfl
      | implied | immediate _ | address _ | relative _ => rw [hcase] at hkind; cases hkind
    have hfound : mode.find ram.get r = .accumulator := hoperand
    rw [hoperand, hfound] at hleaves
    rw [hoperand]
    exact hleaves
  · intro hplace
    rw [if_neg hplace] at hkind
    obtain ⟨addr, hoperand⟩ := Operand.eq_address_of_kind hkind
    have hfound : mode.find ram.get r = .address addr := hoperand
    rw [hoperand, hfound] at hleaves
    refine ⟨addr, hoperand, ?_⟩
    rw [hoperand]
    exact hleaves

end Change

/-! ## Index registers -/

namespace Index

/-- The opcodes that load an index register, each with its mode: X is indexed by Y, and Y by X. -/
def loadCodes : Index → List (UInt8 × Mode)
  | .x =>
    [(0xA2, .immediate), (0xA6, .zeroPage), (0xAE, .absolute), (0xB6, .zeroPageY),
      (0xBE, .absoluteY)]
  | .y =>
    [(0xA0, .immediate), (0xA4, .zeroPage), (0xAC, .absolute), (0xB4, .zeroPageX),
      (0xBC, .absoluteX)]

/-- The opcodes that store an index register. -/
def storeCodes : Index → List (UInt8 × Mode)
  | .x => [(0x86, .zeroPage), (0x8E, .absolute), (0x96, .zeroPageY)]
  | .y => [(0x84, .zeroPage), (0x8C, .absolute), (0x94, .zeroPageX)]

/-- The opcodes that compare an index register. -/
def compareCodes : Index → List (UInt8 × Mode)
  | .x => [(0xE0, .immediate), (0xE4, .zeroPage), (0xEC, .absolute)]
  | .y => [(0xC0, .immediate), (0xC4, .zeroPage), (0xCC, .absolute)]

theorem decode?_loadCodes : ∀ index : Index, ∀ e ∈ index.loadCodes,
    Instruction.decode? e.1 = some ⟨.load index.register, e.2⟩ := by
  intro index
  cases index <;> decide

theorem decode?_storeCodes : ∀ index : Index, ∀ e ∈ index.storeCodes,
    Instruction.decode? e.1 = some ⟨.store index.register, e.2⟩ := by
  intro index
  cases index <;> decide

theorem decode?_compareCodes : ∀ index : Index, ∀ e ∈ index.compareCodes,
    Instruction.decode? e.1 = some ⟨.compare index.register, e.2⟩ := by
  intro index
  cases index <;> decide

/-- An index register is stored in a cell. -/
theorem kind_of_storeCodes : ∀ index : Index, ∀ e ∈ index.storeCodes, e.2.kind = .address := by
  intro index
  cases index <;> decide

end Index

/-- The opcodes that tell of the bits of a cell. -/
def testBitsCodes : List (UInt8 × Mode) := [(0x24, .zeroPage), (0x2C, .absolute)]

theorem decode?_testBitsCodes : ∀ e ∈ testBitsCodes,
    Instruction.decode? e.1 = some ⟨.testBits, e.2⟩ := by
  decide

section

variable {ram : Ram} {r : Registers} {index : Index} {code : UInt8} {mode : Mode}

/-- **A load** puts the operand's value into the register, and zero and negative tell of it. -/
theorem step_loads (tracing : Bool) (hcode : (code, mode) ∈ index.loadCodes)
    (hopcode : ram.get r.pc = code) :
    let m := (mode.find ram.get r).valueIn ram.get r
    ∃ p', p'.TellsOf m ∧ r.status.SameBut p' [.zero, .negative] ∧
      Leaves ((r.step tracing).perform ram) mode
        { r.put index.register m with status := p' } ram := by
  intro m
  have hdecode : Instruction.decode? (ram.get r.pc) = some ⟨.load index.register, mode⟩ := by
    rw [hopcode]
    exact index.decode?_loadCodes _ hcode
  refine ⟨r.status.putNZ m, Status.putNZ_tellsOf _ _, Status.putNZ_sameBut _ _, ?_⟩
  refine leaves_of_decode? tracing hdecode rfl ?_
  show ((Instruction.ready _ ram.get r).put index.register (Operand.valueIn _ _ _)).putNZ _ = _
  rw [valueIn_ready, Instruction.operand]
  cases index <;> rfl

/-- **A store** puts the register into the cell and changes no flag. -/
theorem step_stores (tracing : Bool) (hcode : (code, mode) ∈ index.storeCodes)
    (hopcode : ram.get r.pc = code) :
    ∃ addr, mode.find ram.get r = .address addr ∧
      Leaves ((r.step tracing).perform ram) mode r (ram.set addr (r.get index.register)) := by
  have hdecode : Instruction.decode? (ram.get r.pc) = some ⟨.store index.register, mode⟩ := by
    rw [hopcode]
    exact index.decode?_storeCodes _ hcode
  have hkind : (mode.find ram.get r).kind = .address := by
    rw [Mode.kind_find]
    exact index.kind_of_storeCodes _ hcode
  obtain ⟨addr, hoperand⟩ := Operand.eq_address_of_kind hkind
  have hlast : Instruction.last ⟨.store index.register, mode⟩ ram.get r =
      Instruction.ready ⟨.store index.register, mode⟩ ram.get r := by
    show (mode.find ram.get r).keep _ _ = _
    rw [hoperand]
    rfl
  have hleaves := leaves_of_decode? (q := r) tracing hdecode rfl hlast
  have hstores : Instruction.stores ⟨.store index.register, mode⟩ ram.get r =
      [(addr, r.get index.register)] := by
    show (mode.find ram.get r).storesOf _ = _
    rw [hoperand]
    cases index <;> rfl
  rw [hstores] at hleaves
  exact ⟨addr, hoperand, hleaves⟩

/-- **A comparison** sets carry, zero and negative by the difference and nothing else. -/
theorem step_compares (tracing : Bool) (hcode : (code, mode) ∈ index.compareCodes)
    (hopcode : ram.get r.pc = code) :
    let m := (mode.find ram.get r).valueIn ram.get r
    let x := r.get index.register
    ∃ p', (p'.get .carry = true ↔ m.toNat ≤ x.toNat) ∧ (p'.get .zero = true ↔ x = m) ∧
      p'.get .negative = testBit (x - m) 7 ∧ r.status.SameBut p' [.carry, .zero, .negative] ∧
      Leaves ((r.step tracing).perform ram) mode { r with status := p' } ram := by
  intro m x
  have hdecode : Instruction.decode? (ram.get r.pc) = some ⟨.compare index.register, mode⟩ := by
    rw [hopcode]
    exact index.decode?_compareCodes _ hcode
  refine ⟨(r.compareWith x m).status, r.compareWith_carry m x, ?_, ?_,
    r.compareWith_sameBut m x, ?_⟩
  · have hzero : (r.compareWith x m).status.get .zero = (x - m == 0) := by
      simp [Registers.compareWith, Registers.putNZ]
    rw [hzero, beq_iff_eq]
    constructor
    · intro hdifference
      have hback := UInt8.sub_add_cancel x m
      rw [hdifference, UInt8.zero_add] at hback
      exact hback.symm
    · intro hequal
      rw [hequal]
      exact UInt8.sub_self m
  · simp [Registers.compareWith, Registers.putNZ]
  · refine leaves_of_decode? tracing hdecode rfl ?_
    show (Instruction.ready _ ram.get r).compareWith _ (Operand.valueIn _ _ _) = _
    rw [valueIn_ready, Instruction.operand]
    cases index <;> rfl

/-- **BIT** sets zero by the bits that A and the cell share, and negative and overflow by the two
    upper bits of the cell. -/
theorem step_testsBits (tracing : Bool) (hcode : (code, mode) ∈ testBitsCodes)
    (hopcode : ram.get r.pc = code) :
    let m := (mode.find ram.get r).valueIn ram.get r
    ∃ p', (p'.get .zero = true ↔ r.a &&& m = 0) ∧ p'.get .negative = testBit m 7 ∧
      p'.get .overflow = testBit m 6 ∧ r.status.SameBut p' [.zero, .overflow, .negative] ∧
      Leaves ((r.step tracing).perform ram) mode { r with status := p' } ram := by
  intro m
  have hdecode : Instruction.decode? (ram.get r.pc) = some ⟨.testBits, mode⟩ := by
    rw [hopcode]
    exact decode?_testBitsCodes _ hcode
  have hsame := Status.SameBut.refl r.status [.zero, .overflow, .negative]
  have hzero := hsame.put (f := .zero) (by decide) (r.a &&& m == 0)
  have hnegative := hzero.put (f := .negative) (by decide) (testBit m 7)
  refine ⟨_, ?_, ?_, ?_, hnegative.put (f := .overflow) (by decide) (testBit m 6), ?_⟩
  · simp
  · simp
  · simp
  · refine leaves_of_decode? tracing hdecode rfl ?_
    show ((Registers.putFlag _ .zero
      (_ &&& Operand.valueIn _ _ _ == 0)).putFlag _ _).putFlag _ _ = _
    rw [valueIn_ready, Instruction.operand]
    rfl

end

/-! ## All of them -/

/-- **The encodings are followed.**  In every state of a processor on flat memory a step

    * at an opcode aaabbb10 changes A or a cell as the fields say, in A just as in a cell,
    * at a listed opcode loads, stores or compares an index register, or tells of the bits of a
      cell,

    and, apart from PC and the cycles, changes nothing that is not named. -/
theorem step_follows_encoding (ram : Ram) (r : Registers) (tracing : Bool) :
    let done := (r.step tracing).perform ram
    let valueAt := fun mode : Mode => (mode.find ram.get r).valueIn ram.get r
    -- a byte is changed in its place
    (∀ aaa bbb change mode, Change.ofField? aaa = some change → change.mode? bbb = some mode →
      ram.get r.pc = Change.opcode aaa bbb →
      ∃ v' p', change.Makes (valueAt mode) r.status v' p' ∧
        (mode = .accumulator → Leaves done mode { r with a := v', status := p' } ram) ∧
        (mode ≠ .accumulator → ∃ addr, mode.find ram.get r = .address addr ∧
          Leaves done mode { r with status := p' } (ram.set addr v'))) ∧
    -- of the same byte and carry, the same comes in A and in a cell
    (∀ (ram' : Ram) (r' : Registers) aaa bbb way mode,
      Change.ofField? aaa = some (.shift way) → (Change.shift way).mode? bbb = some mode →
      mode ≠ .accumulator →
      ram.get r.pc = Change.opcode aaa 2 → ram'.get r'.pc = Change.opcode aaa bbb →
      (mode.find ram'.get r').valueIn ram'.get r' = r.a →
      r'.status.get .carry = r.status.get .carry →
      let done' := (r'.step tracing).perform ram'
      ∃ addr, mode.find ram'.get r' = .address addr ∧
        done'.bus.get addr = done.answer.registers.a ∧
        ∀ f ∈ [Flag.carry, .zero, .negative],
          done'.answer.registers.status.get f = done.answer.registers.status.get f) ∧
    -- an index register is loaded
    (∀ (index : Index) code mode, (code, mode) ∈ index.loadCodes → ram.get r.pc = code →
      ∃ p', p'.TellsOf (valueAt mode) ∧ r.status.SameBut p' [.zero, .negative] ∧
        Leaves done mode { r.put index.register (valueAt mode) with status := p' } ram) ∧
    -- stored
    (∀ (index : Index) code mode, (code, mode) ∈ index.storeCodes → ram.get r.pc = code →
      ∃ addr, mode.find ram.get r = .address addr ∧
        Leaves done mode r (ram.set addr (r.get index.register))) ∧
    -- compared
    (∀ (index : Index) code mode, (code, mode) ∈ index.compareCodes → ram.get r.pc = code →
      let m := valueAt mode
      let x := r.get index.register
      ∃ p', (p'.get .carry = true ↔ m.toNat ≤ x.toNat) ∧ (p'.get .zero = true ↔ x = m) ∧
        p'.get .negative = testBit (x - m) 7 ∧ r.status.SameBut p' [.carry, .zero, .negative] ∧
        Leaves done mode { r with status := p' } ram) ∧
    -- the bits of a cell are told of
    ∀ code mode, (code, mode) ∈ testBitsCodes → ram.get r.pc = code →
      let m := valueAt mode
      ∃ p', (p'.get .zero = true ↔ r.a &&& m = 0) ∧ p'.get .negative = testBit m 7 ∧
        p'.get .overflow = testBit m 6 ∧ r.status.SameBut p' [.zero, .overflow, .negative] ∧
        Leaves done mode { r with status := p' } ram := by
  intro done valueAt
  refine ⟨?_, ?_, ?_, ?_, ?_, ?_⟩
  · intro aaa bbb change mode hchange hmode hopcode
    exact Change.step_makes tracing hchange hmode hopcode
  · intro ram' r' aaa bbb way mode hchange hmode hplace hopcode hopcode' hvalue hcarry done'
    have hinner : (Change.shift way).mode? 2 = some .accumulator := rfl
    obtain ⟨v, p, hmakes, hinA, -⟩ := Change.step_makes tracing hchange hinner hopcode
    obtain ⟨v', p', hmakes', -, hinCell⟩ := Change.step_makes tracing hchange hmode hopcode'
    obtain ⟨spent, -, hanswer⟩ := hinA rfl
    obtain ⟨addr, hoperand, spent', hbus', hanswer'⟩ := hinCell hplace
    rw [hvalue] at hmakes'
    obtain ⟨hbyte, hflags⟩ := hmakes'.unique hmakes hcarry
    refine ⟨addr, hoperand, ?_, ?_⟩
    · show ((r'.step tracing).perform ram').bus.get addr = _
      rw [hbus', Ram.get_set, if_pos rfl, hbyte]
      exact (congrArg (fun stepped => stepped.registers.a) hanswer).symm
    · intro f hf
      have hleft := congrArg (fun stepped => stepped.registers.status.get f) hanswer'
      have hright := congrArg (fun stepped => stepped.registers.status.get f) hanswer
      exact hleft.trans ((hflags f hf).trans hright.symm)
  · intro index code mode hcode hopcode
    exact step_loads tracing hcode hopcode
  · intro index code mode hcode hopcode
    exact step_stores tracing hcode hopcode
  · intro index code mode hcode hopcode
    exact step_compares tracing hcode hopcode
  · intro code mode hcode hopcode
    exact step_testsBits tracing hcode hopcode

/-- `ROL $05` on $81 with the carry set: the cell shows $03, and the bit that went out is the carry
    again. -/
theorem step_follows_encoding_rotate :
    let ram : Ram := .ofBytes ⟨#[0x26, 0x05, 0x00, 0x00, 0x00, 0x81]⟩
    let r : Registers := { Registers.powerUp with status := ⟨0x25⟩ }
    let done := (r.step false).perform ram
    done.bus.get 0x05 = 0x03 ∧ done.answer.registers.status.get .carry = true := by
  intro ram r done
  have hopcode : ram.get r.pc = Change.opcode 1 1 := Ram.get_ofBytes _ 0
  have hoperand : ram.get 1 = 0x05 := Ram.get_ofBytes _ 1
  have hcell : ram.get 5 = 0x81 := Ram.get_ofBytes _ 5
  obtain ⟨hchanges, -⟩ := step_follows_encoding ram r false
  obtain ⟨v', p', hmakes, -, hinCell⟩ :=
    hchanges 1 1 (.shift .rotateLeft) .zeroPage rfl rfl hopcode
  obtain ⟨addr, haddr, spent, hbus, hanswer⟩ := hinCell (by decide)
  -- what the step does has been said, so it need not be computed
  have hdone : (r.step false).perform ram = done := rfl
  rw [hdone] at hbus hanswer
  clear_value done
  have hplace : Mode.find ram.get r .zeroPage = .address 5 := by
    show Operand.address (ram.get 1).toUInt16 = _
    rw [hoperand]
    rfl
  obtain rfl : addr = 5 := by
    rw [hplace] at haddr
    exact (Operand.address.inj haddr).symm
  have hvalue : Operand.valueIn ram.get r (Mode.find ram.get r .zeroPage) = 0x81 := by
    rw [hplace]
    exact hcell
  simp only [hvalue] at hmakes
  constructor
  · rw [hbus, Ram.get_set, if_pos rfl]
    apply UInt8.toNat_inj.mp
    rw [hmakes.toNat_eq]
    decide
  · have hcarry : p'.get .carry = r.status.get .carry := by
      apply Status.carryNat_inj.mp
      rw [hmakes.carryNat_eq]
      decide
    have hset : r.status.get .carry = true := by decide
    rw [hanswer]
    exact hcarry.trans hset

end Nes.Cpu
