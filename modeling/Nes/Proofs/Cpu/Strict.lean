/-
  Strict steps: a step that gives up where a machine with bounds on its numbers would.

  The model adds bytes modulo 256 and says of an operand that does not suit an operation that there
  is no action for it.  Here the same step is taken strictly: a sum that does not fit, and an
  operand for which there is no use, end it without an answer.

  1. **Giving up**: a strict computation is one of `OptionT Traffic`.  It never gives up just if it
     is an ordinary computation, lifted (`OptionT.lift`); such computations compose
     (`lift_bind_eq`).
  2. **Strict steps**: `Registers.stepStrictly` is a step with a bound for each sum: the cycles of
     operation and mode, of a page crossing, of a branch taken and of one to another page, the two
     sums in sixteen bits that add to A, the total of cycles, and the dots in the trace line.
  3. **No step gives up** (`stepStrictly_eq`): the modes find operands that suit the operations, a
     step takes few cycles, and there is room in the totals.
-/
import Nes.Proofs.Bus.Backing
import Nes.Proofs.Cartridge.Window
import Nes.Proofs.Cpu.Arithmetic
import Nes.Proofs.Cpu.Cycles
import Nes.Proofs.Cpu.Executing

namespace Nes

/-! ## Giving up -/

namespace Traffic

variable {α γ : Type}

/-- Goes on with `a` if `p` holds, and gives up otherwise. -/
def insist (p : Prop) [Decidable p] (a : α) : OptionT Traffic α := if p then pure a else failure

theorem insist_eq {p : Prop} [Decidable p] (h : p) (a : α) : insist p a = pure a := if_pos h

/-- **What never gives up composes**: if whatever a computation answers is gone on with without
    giving up, the whole does not give up. -/
theorem lift_bind_eq {P : α → Prop} {t : Traffic α} {f : α → Traffic γ}
    {g : α → OptionT Traffic γ} (h : t.Always P) (hfg : ∀ a, P a → g a = OptionT.lift (f a)) :
    (OptionT.lift t >>= g) = OptionT.lift (t >>= f) := by
  induction t with
  | done a => exact hfg a h
  | read addr next ih => exact congrArg (read addr) (funext fun value => ih value (h value))
  | write addr value next ih => exact congrArg (write addr value) (ih h)
  | report record next ih => exact congrArg (report record) (ih h)

end Traffic

namespace Cpu

open Nes.Traffic (insist insist_eq lift_bind_eq)

/-! ## Strict steps -/

/-- The sum of two bytes, if it is a byte. -/
def addStrictly (a b : UInt8) : OptionT Traffic UInt8 := insist (a.toNat + b.toNat < 256) (a + b)

namespace Registers

/-- Adds a byte and the carry to A, if both sums fit in sixteen bits. -/
def addToAStrictly (r : Registers) (value : UInt8) : OptionT Traffic Registers := do
  let sum ← insist (r.a.toNat + value.toNat < 65536) (r.a.toUInt16 + value.toUInt16)
  insist (sum.toNat + r.carryIn.toNat < 65536) (r.addToA value)

/-- Takes a branch, if the cycles of the step are a byte then. -/
def takeBranchStrictly (r : Registers) (distance : Int8) : OptionT Traffic Registers := do
  let target := r.pc + signExtend distance
  let spent ← addStrictly r.stepCycles 1
  let spent ← if highByte target != highByte r.pc then addStrictly spent 2 else pure spent
  return { r with pc := target, stepCycles := spent }

end Registers

/-- The value of an operand that has one. -/
def Operand.valueStrictly (operand : Operand) (r : Registers) : OptionT Traffic UInt8 :=
  match operand.value? with
  | none => failure
  | some value => OptionT.lift (value r)

/-- What an operation does with an operand that suits it. -/
def Operation.actStrictly (o : Operation) (operand : Operand) (r : Registers) :
    OptionT Traffic Registers :=
  match o with
  | .add => do
    let v ← operand.valueStrictly r
    r.addToAStrictly v
  | .subtract => do
    let v ← operand.valueStrictly r
    r.addToAStrictly (~~~ v)
  | .branch condition wanted =>
    match operand.distance? with
    | none => failure
    | some distance =>
      if r.status.get condition.flag = wanted then r.takeBranchStrictly distance else return r
  | o =>
    match o.action? operand with
    | none => failure
    | some action => OptionT.lift (action r)

/-- Executes an instruction whose opcode lies at PC. -/
def Instruction.executeStrictly (i : Instruction) (r : Registers) : OptionT Traffic Stepped := do
  let base ← addStrictly i.ownCycles i.mode.cycles
  let found ← OptionT.lift (i.mode.resolve { r with pc := r.pc + 1, stepCycles := base })
  let spent ←
    if found.crossed && i.pagePenalty then addStrictly found.registers.stepCycles 1
    else pure found.registers.stepCycles
  let last ← i.operation.actStrictly found.operand { found.registers with stepCycles := spent }
  let total ← insist (last.cycles.toNat + last.stepCycles.toNat < 2 ^ 64)
    (last.cycles + last.stepCycles.toUInt64)
  return ⟨.ok last.stepCycles, { last with cycles := total }⟩

namespace Registers

/-- Reports the trace line, if the run is traced and the dots drawn so far can be counted. -/
def traceStrictly (r : Registers) (tracing : Bool) : OptionT Traffic Unit :=
  if tracing then do
    let opcode ← OptionT.lift (Traffic.readByte r.pc)
    let bytes ← OptionT.lift (Traffic.readBlock r.pc (lengthAt opcode))
    let line ← insist (r.cycles.toNat * 3 < 2 ^ 64) (r.traceText bytes)
    OptionT.lift (Traffic.note (traceRecord line))
  else return ()

/-- Takes one step. -/
def stepStrictly (r : Registers) (tracing : Bool) : OptionT Traffic Stepped := do
  let opcode ← OptionT.lift (Traffic.readByte r.pc)
  match Instruction.decode? opcode with
  | none => return ⟨.error (.unknownOpcode opcode r.pc), r⟩
  | some i =>
    if i.isImplemented then
      r.traceStrictly tracing
      i.executeStrictly r
    else return ⟨.error (.unimplementedOpcode opcode i.operation r.pc), r⟩

end Registers

/-! ## No step gives up -/

theorem addStrictly_eq {a b : UInt8} (h : a.toNat + b.toNat < 256) :
    addStrictly a b = pure (a + b) := insist_eq h _

/-- Two sums of bytes fit in sixteen bits. -/
theorem Registers.addToAStrictly_eq (r : Registers) (value : UInt8) :
    r.addToAStrictly value = pure (r.addToA value) := by
  have ha := r.a.toNat_lt
  have hv := value.toNat_lt
  have hcarry := r.status.carryNat_le
  have hfirst : (r.a.toUInt16 + value.toUInt16).toNat = r.a.toNat + value.toNat := by
    rw [UInt16.toNat_add, UInt8.toNat_toUInt16, UInt8.toNat_toUInt16]
    omega
  rw [addToAStrictly, insist_eq (by omega), pure_bind, insist_eq]
  rw [hfirst, r.toNat_carryIn]
  omega

/-- Three cycles more is the most that a branch takes. -/
theorem Registers.takeBranchStrictly_eq (r : Registers) (distance : Int8)
    (h : r.stepCycles.toNat + 3 < 256) :
    r.takeBranchStrictly distance = pure (r.takeBranch distance) := by
  have hone : (r.stepCycles + 1).toNat = r.stepCycles.toNat + 1 := by
    rw [UInt8.toNat_add]
    show (r.stepCycles.toNat + 1) % 256 = _
    omega
  have htwo : r.stepCycles + 1 + 2 = r.stepCycles + 3 := UInt8.add_assoc r.stepCycles 1 2
  rw [takeBranchStrictly, addStrictly_eq (show r.stepCycles.toNat + 1 < 256 by omega), pure_bind,
    takeBranch]
  by_cases hfar : highByte (r.pc + signExtend distance) != highByte r.pc
  · rw [if_pos hfar, addStrictly_eq (by rw [hone]; exact h), pure_bind, htwo, if_pos hfar]
  · rw [if_neg hfar, pure_bind, if_neg hfar]

/-- An operand that suits an operation is dealt with. -/
theorem Operation.actStrictly_eq {o : Operation} {operand : Operand}
    {action : Registers → Traffic Registers} (h : o.action? operand = some action) (r : Registers)
    (hspent : r.stepCycles.toNat + 3 < 256) :
    o.actStrictly operand r = OptionT.lift (action r) := by
  -- what is added to A is first had as the value of the operand
  have hadd : ∀ change : UInt8 → UInt8,
      operand.using? (fun v r => r.addToA (change v)) = some action →
      (operand.valueStrictly r >>= fun v => r.addToAStrictly (change v)) =
        OptionT.lift (action r) := by
    intro change hchange
    obtain ⟨value, hvalue, rfl⟩ := Option.map_eq_some_iff.mp hchange
    rw [Operand.valueStrictly, hvalue]
    exact lift_bind_eq (Traffic.always_of_forall (fun _ => trivial) (value r)) fun v _ =>
      r.addToAStrictly_eq (change v)
  cases o with
  | add => exact hadd id h
  | subtract => exact hadd (fun v => ~~~ v) h
  | branch condition wanted =>
    obtain ⟨distance, hdistance, rfl⟩ := Option.map_eq_some_iff.mp h
    simp only [actStrictly, hdistance]
    split
    · exact r.takeBranchStrictly_eq distance hspent
    · rfl
  | _ => simp only [actStrictly, h]

/-- An operation takes few cycles. -/
theorem Operation.cycles_le (o : Operation) (mode : Mode) : (o.cycles mode).toNat ≤ 7 := by
  unfold cycles
  split <;> first | decide | (split <;> first | decide | (split <;> decide))

/-- Forming an address takes few cycles. -/
theorem Mode.cycles_le (mode : Mode) : mode.cycles.toNat ≤ 4 := by
  cases mode <;> decide

/-- No action changes the total of cycles. -/
theorem Operation.always_cycles {o : Operation} {operand : Operand}
    {action : Registers → Traffic Registers} (h : o.action? operand = some action) (r : Registers) :
    (action r).Always fun q => q.cycles = r.cycles := by
  by_cases hbranch : ∃ condition wanted, o = .branch condition wanted
  · obtain ⟨condition, wanted, rfl⟩ := hbranch
    obtain ⟨distance, -, rfl⟩ := Option.map_eq_some_iff.mp h
    show (if r.status.get condition.flag = wanted then r.takeBranch distance else r).cycles = _
    split <;> rfl
  · have hnot : ∀ condition wanted, o ≠ .branch condition wanted :=
      fun condition wanted heq => hbranch ⟨condition, wanted, heq⟩
    exact (Operation.sameTally_action? h hnot r).mono fun q hq => hq.2

theorem Instruction.executeStrictly_eq {i : Instruction} {r : Registers}
    (haccepts : i.operation.accepts i.mode.kind) (hroom : r.cycles.toNat + 255 < 2 ^ 64) :
    i.executeStrictly r = OptionT.lift (i.execute r) := by
  have hown : i.ownCycles.toNat ≤ 7 := i.operation.cycles_le i.mode
  have hmode := i.mode.cycles_le
  have hbase : i.baseCycles.toNat ≤ 11 := by
    rw [baseCycles, UInt8.toNat_add]
    omega
  rw [executeStrictly, addStrictly_eq (by omega), pure_bind]
  refine lift_bind_eq (i.mode.always_resolve { r with pc := r.pc + 1, stepCycles := i.baseCycles })
    ?_
  rintro ⟨operand, crossed, found⟩ ⟨hkind, pc, hfound⟩
  dsimp only at hkind hfound ⊢
  obtain ⟨action, haction⟩ := Operation.exists_action? haccepts hkind
  have hstarted : found.stepCycles = i.baseCycles := by rw [hfound]
  have htotal : found.cycles = r.cycles := by rw [hfound]
  have hunpaid : found.stepCycles.toNat ≤ 11 := by
    rw [hstarted]
    exact hbase
  have hpaid : (found.stepCycles + 1).toNat ≤ 12 := by
    rw [UInt8.toNat_add]
    show (found.stepCycles.toNat + 1) % 256 ≤ 12
    omega
  rw [haction]
  -- a page crossing is paid for before the operation acts
  have hact : ∀ ready : Registers, ready.stepCycles.toNat ≤ 12 → ready.cycles = r.cycles →
      (do
        let last ← i.operation.actStrictly operand ready
        let total ← insist (last.cycles.toNat + last.stepCycles.toNat < 2 ^ 64)
          (last.cycles + last.stepCycles.toUInt64)
        return (⟨.ok last.stepCycles, { last with cycles := total }⟩ : Stepped)) =
      OptionT.lift (do
        let last ← action ready
        return ⟨.ok last.stepCycles,
          { last with cycles := last.cycles + last.stepCycles.toUInt64 }⟩) := by
    intro ready hspent hcycles
    rw [Operation.actStrictly_eq haction ready (by omega)]
    refine lift_bind_eq (Operation.always_cycles haction ready) fun last hlast => ?_
    have hstep := last.stepCycles.toNat_lt
    rw [insist_eq (by rw [hlast, hcycles]; omega), pure_bind]
    rfl
  by_cases hcrossed : (crossed && i.pagePenalty) = true
  · have hsum : found.stepCycles.toNat + 1 < 256 := by omega
    rw [if_pos hcrossed, addStrictly_eq hsum, pure_bind]
    simp only [if_pos hcrossed]
    exact hact { found with stepCycles := found.stepCycles + 1 } hpaid htotal
  · rw [if_neg hcrossed, pure_bind]
    simp only [if_neg hcrossed]
    exact hact found (by omega) htotal

namespace Registers

variable {r : Registers}

theorem traceStrictly_eq (tracing : Bool) (h : r.cycles.toNat * 3 < 2 ^ 64) :
    r.traceStrictly tracing = OptionT.lift (r.trace tracing) := by
  cases tracing with
  | false => rfl
  | true =>
    have hanything : ∀ {α : Type} (t : Traffic α), t.Always fun _ => True := fun t =>
      Traffic.always_of_forall (fun _ => trivial) t
    show _ = OptionT.lift (r.traceLine >>= fun line => Traffic.note (traceRecord line))
    rw [traceLine, Traffic.bind_assoc']
    refine lift_bind_eq (hanything _) fun opcode _ => ?_
    rw [Traffic.bind_assoc']
    refine lift_bind_eq (hanything _) fun bytes _ => ?_
    rw [insist_eq h, pure_bind]
    rfl

/-- **A strict step is a step**, as long as three times the cycles can be counted. -/
theorem stepStrictly_eq (tracing : Bool) (h : r.cycles.toNat ≤ 2 ^ 64 / 3) :
    r.stepStrictly tracing = OptionT.lift (r.step tracing) := by
  refine lift_bind_eq (Traffic.always_of_forall (fun _ => trivial) _) fun opcode _ => ?_
  cases hdecode : Instruction.decode? opcode with
  | none => rfl
  | some i =>
    dsimp only
    by_cases himplemented : i.isImplemented
    · rw [if_pos himplemented, if_pos himplemented, traceStrictly_eq tracing (by omega)]
      refine lift_bind_eq (Traffic.always_of_forall (fun _ => trivial) _) fun _ _ => ?_
      exact Instruction.executeStrictly_eq
        (Instruction.accepts_of_decode? hdecode himplemented) (by omega)
    · rw [if_neg himplemented, if_neg himplemented]
      rfl

end Registers

/-- Every opcode that is executed stands for an instruction whose operation suits its mode. -/
theorem Instruction.suits_of_mem {opcode : UInt8} (h : opcode ∈ Instruction.implementedOpcodes) :
    ∃ i, decode? opcode = some i ∧ ∀ r, (i.mode.resolve r).Always fun found =>
      (i.operation.action? found.operand).isSome := by
  obtain ⟨i, hdecode, himplemented⟩ := mem_implementedOpcodes.mp h
  refine ⟨i, hdecode, fun r => (i.mode.always_resolve r).mono fun found hfound => ?_⟩
  rw [Operation.isSome_action?, hfound.1]
  exact accepts_of_decode? hdecode himplemented

/-- **No step gives up.**  The implemented instructions, 150 of them, have a use for whatever
    operand their mode finds, on any bus.  As long as three times the cycles can be counted, a
    strict step is a step, whatever the bus answers: no sum is too large, and no operand is
    unsuitable.  A loaded cartridge has a program, and where a flat array and that program back the
    memory of the console, no read, no write and no strict step misses either of them, and the
    memory stays backed. -/
theorem step_never_gives_up :
    (Instruction.implementedOpcodes.length = 150 ∧
      ∀ opcode ∈ Instruction.implementedOpcodes, ∃ i, Instruction.decode? opcode = some i ∧
        ∀ r, (i.mode.resolve r).Always fun found =>
          (i.operation.action? found.operand).isSome) ∧
    (∀ (r : Registers) (tracing : Bool), r.cycles.toNat ≤ 2 ^ 64 / 3 →
      (r.stepStrictly tracing).run = some <$> r.step tracing) ∧
    (∀ (image : ByteArray) (c : Cartridge), Cartridge.ofImage image = .ok c →
      16384 ≤ c.board.prg.size ∧ (Backing.ofProgram c.board.prg).Backs (.ofCartridge c)) ∧
    ∀ (b : Backing) (m : MemoryMap), b.Backs m →
      (∀ addr, b.readStrictly addr = some (m.read addr)) ∧
      (∀ addr value, ∃ b', b.writeStrictly addr value = some b' ∧ b'.Backs (m.write addr value)) ∧
      ∀ (r : Registers) (tracing : Bool), r.cycles.toNat ≤ 2 ^ 64 / 3 →
        ∃ b', (r.stepStrictly tracing).run.performStrictly b =
            some (some ((r.step tracing).perform m).answer, b') ∧
          b'.Backs ((r.step tracing).perform m).bus := by
  have hstrict : ∀ (r : Registers) (tracing : Bool), r.cycles.toNat ≤ 2 ^ 64 / 3 →
      (r.stepStrictly tracing).run = some <$> r.step tracing := by
    intro r tracing hcycles
    rw [Registers.stepStrictly_eq tracing hcycles, map_eq_pure_bind]
    rfl
  refine ⟨⟨Instruction.length_implementedOpcodes, fun _ => Instruction.suits_of_mem⟩, hstrict,
    ?_, ?_⟩
  · intro image c hc
    have hprg := (Cartridge.isPart_prg_of_ofImage hc).size_eq
    have hbanks := (Cartridge.wellFormed_of_ofImage hc).program
    have hne : (Cartridge.byteAt image 4).toNat ≠ 0 := fun hzero =>
      hbanks (UInt8.toNat_inj.mp hzero)
    refine ⟨?_, Backing.backs_ofCartridge c⟩
    rw [hprg, Cartridge.prgLength]
    omega
  · intro b m hbacks
    refine ⟨Backing.readStrictly_eq hbacks, Backing.exists_writeStrictly hbacks, ?_⟩
    intro r tracing hcycles
    obtain ⟨b', hb', hbacks'⟩ := (some <$> r.step tracing).exists_performStrictly hbacks
    rw [map_eq_pure_bind, Traffic.perform_bind] at hb' hbacks'
    refine ⟨b', ?_, hbacks'⟩
    rw [hstrict r tracing hcycles, map_eq_pure_bind]
    exact hb'

/-- With as many cycles as the bound allows, a traced step on a loaded cartridge does not give up;
    with one more it would. -/
theorem step_never_gives_up_at_bound :
    let r : Registers := { Registers.powerUp with pc := 0xC000, cycles := 6148914691236517205 }
    (∃ c, Cartridge.ofImage Cartridge.twoBankImage = .ok c ∧
      ∃ stepped b', (r.stepStrictly true).run.performStrictly (.ofProgram c.board.prg) =
        some (some stepped, b')) ∧
    (({ r with cycles := r.cycles + 1 }.stepStrictly true).run.perform
      (⟨[0xEA, 0xEA, 0xEA]⟩ : Script)).answer.isNone := by
  intro r
  obtain ⟨-, -, hloaded, hmemory⟩ := step_never_gives_up
  refine ⟨?_, ?_⟩
  · obtain ⟨c, hc, -⟩ := Cartridge.ofImage_of_wellFormed Cartridge.wellFormed_twoBankImage
    obtain ⟨-, hbacks⟩ := hloaded Cartridge.twoBankImage c hc
    obtain ⟨-, -, hsteps⟩ := hmemory _ _ hbacks
    obtain ⟨b', hb', -⟩ := hsteps r true (by decide)
    exact ⟨c, hc, _, b', hb'⟩
  · decide

end Cpu

end Nes
