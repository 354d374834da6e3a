/-
  Branches: where a branch goes, what it costs, and what the disassembler prints for it.

  Two parts of the program work out where a branch leads.  The processor adds the distance to PC
  when PC stands behind the branch already; the disassembler knows the address of the branch and
  adds the length of the branch and the distance.  Both mean the number PC + 2 + distance, with the
  distance as a signed number, modulo 65536.

  1. **Encodings**: the opcode of a branch is two bits for the flag that it tests, one for the value
     that it waits for, and 10000 (`decode?_branchOpcode`).
  2. **Targets**: the number of the target (`toNat_branchTarget`), and the text in which the
     disassembler prints it (`disassemble_branch`).
  3. **Steps**: a branch goes to its target or to the byte behind it, and does nothing else
     (`outcome_of_taken`, `outcome_of_not_taken`).
  4. **Both together**: what is printed is where the step goes (`step_goes_where_printed`).
-/
import Nes.Cpu.Disassembly
import Nes.Proofs.Cpu.Arithmetic
import Nes.Proofs.Cpu.Reaching

namespace Nes.Cpu

open Nes.Text (hexWord)

/-! ## Encodings -/

/-- The condition for which the two upper bits of a branch's opcode stand. -/
def Condition.ofField : Fin 4 → Condition
  | 0 => .negative
  | 1 => .overflow
  | 2 => .carry
  | 3 => .zero

/-- The opcode of the branch that is taken where the flag shows `wanted`. -/
def branchOpcode (field : Fin 4) (wanted : Bool) : UInt8 :=
  UInt8.ofNat (64 * field + 32 * wanted.toNat + 16)

/-- The operation that such a branch is. -/
def branchOperation (field : Fin 4) (wanted : Bool) : Operation :=
  .branch (.ofField field) wanted

theorem decode?_branchOpcode : ∀ (field : Fin 4) (wanted : Bool),
    Instruction.decode? (branchOpcode field wanted) =
      some ⟨branchOperation field wanted, .relative⟩ := by
  decide

/-! ## Targets -/

theorem toNat_signExtend (d : Int8) : ((signExtend d).toNat : Int) = d.toInt % 65536 := by
  have hsame : d.toInt16.toInt = d.toInt := Int8.toInt_toInt16 d
  have hcond := BitVec.toInt_eq_toNat_cond d.toInt16.toBitVec
  have hlt := d.toInt16.toBitVec.isLt
  show (d.toInt16.toBitVec.toNat : Int) = _
  rw [← hsame]
  show _ = d.toInt16.toBitVec.toInt % 65536
  rw [hcond]
  split <;> omega

/-- **The number of a branch's target.** -/
theorem toNat_branchTarget (pc : UInt16) (distance : UInt8) :
    ((branchTarget pc distance).toNat : Int) = (pc.toNat + 2 + signed distance) % 65536 := by
  have hdistance : ((signExtend distance.toInt8).toNat : Int) = signed distance % 65536 :=
    toNat_signExtend distance.toInt8
  have hsum : (branchTarget pc distance).toNat =
      ((pc.toNat + 2) % 65536 + (signExtend distance.toInt8).toNat) % 65536 := by
    rw [branchTarget, UInt16.toNat_add, UInt16.toNat_add]
    rfl
  rw [hsum]
  omega

/-- What is printed for an instruction depends on its bytes alone. -/
theorem disassemble_of_decode? {opcode : UInt8} {i : Instruction}
    (h : Instruction.decode? opcode = some i) (pc : UInt16) (operand : List UInt8) :
    disassemble pc (opcode :: operand) = i.text pc (operand.getD 0 0) (operand.getD 1 0) := by
  rw [disassemble, h]

/-- What is printed for a branch: its name, and the address of its target. -/
theorem disassemble_branch {opcode : UInt8} {condition : Condition} {wanted : Bool}
    (h : Instruction.decode? opcode = some ⟨.branch condition wanted, .relative⟩) (pc : UInt16)
    (distance : UInt8) (rest : List UInt8) :
    disassemble pc (opcode :: distance :: rest) =
      (Operation.branch condition wanted).mnemonic ++ " $" ++
        hexWord (branchTarget pc distance) := by
  rw [disassemble_of_decode? h, String.append_assoc]
  exact String.append_assoc

/-- What is printed for a jump or a call: its name, and the word behind the opcode. -/
theorem disassemble_absolute {opcode : UInt8} {operation : Operation}
    (h : Instruction.decode? opcode = some ⟨operation, .absolute⟩) (pc : UInt16)
    (lo hi : UInt8) (rest : List UInt8) :
    disassemble pc (opcode :: lo :: hi :: rest) =
      operation.mnemonic ++ " $" ++ hexWord (word lo hi) := by
  rw [disassemble_of_decode? h, String.append_assoc]
  exact String.append_assoc

/-! ## Steps -/

/-- The registers when an instruction has gone on to `pc` for `cost` cycles, and that is all. -/
def Registers.goOn (r : Registers) (pc : UInt16) (cost : UInt8) : Registers :=
  { r with pc := pc, stepCycles := cost, cycles := r.cycles + cost.toUInt64 }

/-- What a branch at `pc` costs that is taken to `target`: two cycles more where the target lies in
    another page than the byte behind the branch. -/
def takenCost (pc target : UInt16) : UInt8 := if highByte target = highByte (pc + 2) then 3 else 5

section

variable {condition : Condition} {wanted : Bool} (mem : UInt16 → UInt8) (r : Registers)

/-- **A branch whose flag shows what it waits for goes to its target.** -/
theorem outcome_of_taken (h : r.status.get condition.flag = wanted) :
    let target := branchTarget r.pc (mem (r.pc + 1))
    (Instruction.mk (.branch condition wanted) .relative).outcome mem r =
      r.goOn target (takenCost r.pc target) := by
  intro target
  let i : Instruction := ⟨.branch condition wanted, .relative⟩
  have hready : i.ready mem r = { r with pc := r.pc + 2, stepCycles := 2 } := rfl
  have hlast : i.last mem r =
      ({ r with pc := r.pc + 2, stepCycles := 2 } : Registers).takeBranch
        (mem (r.pc + 1)).toInt8 := by
    have htaken : (i.ready mem r).status.get condition.flag = wanted := h
    rw [Instruction.last, hready]
    exact if_pos htaken
  have hcost : (2 : UInt8) + (if highByte target != highByte (r.pc + 2) then 3 else 1) =
      takenCost r.pc target := by
    rw [takenCost]
    by_cases hpage : highByte target = highByte (r.pc + 2)
    · rw [if_pos hpage, hpage]
      simp
    · simp [hpage]
  rw [Registers.goOn, ← hcost, Instruction.outcome, hlast]
  rfl

/-- **Any other branch goes to the byte behind it.** -/
theorem outcome_of_not_taken (h : r.status.get condition.flag ≠ wanted) :
    (Instruction.mk (.branch condition wanted) .relative).outcome mem r = r.goOn (r.pc + 2) 2 := by
  let i : Instruction := ⟨.branch condition wanted, .relative⟩
  have hready : i.ready mem r = { r with pc := r.pc + 2, stepCycles := 2 } := rfl
  have hlast : i.last mem r = { r with pc := r.pc + 2, stepCycles := 2 } := by
    have hnot : (i.ready mem r).status.get condition.flag ≠ wanted := h
    rw [Instruction.last, ← hready]
    exact if_neg hnot
  rw [Instruction.outcome, hlast]
  rfl

end

/-- What a step comes to at a branch with the given target. -/
def Registers.branched (r : Registers) (taken : Prop) [Decidable taken] (target : UInt16) :
    Stepped :=
  if taken then ⟨.ok (takenCost r.pc target), r.goOn target (takenCost r.pc target)⟩
  else ⟨.ok 2, r.goOn (r.pc + 2) 2⟩

/-- A branch is taken where it costs more than two cycles. -/
theorem Registers.branched_outcome_iff (r : Registers) (taken : Prop) [Decidable taken]
    (target : UInt16) : (r.branched taken target).outcome = .ok 2 ↔ ¬ taken := by
  rw [branched]
  split
  · rename_i htaken
    refine iff_of_false ?_ (not_not_intro htaken)
    show (.ok (takenCost r.pc target) : Except StepError UInt8) ≠ .ok 2
    rw [takenCost]
    split <;> exact nofun
  · rename_i hnot
    exact iff_of_true rfl hnot

/-- **A step at a branch** on memory. -/
theorem step_branch {ram : Ram} {r : Registers} {condition : Condition} {wanted : Bool}
    (tracing : Bool)
    (h : Instruction.decode? (ram.get r.pc) = some ⟨.branch condition wanted, .relative⟩) :
    let done := (r.step tracing).perform ram
    done.answer = r.branched (r.status.get condition.flag = wanted)
      (branchTarget r.pc (ram.get (r.pc + 1))) ∧ done.bus = ram := by
  intro done
  have hstep := r.actsAs_step ram tracing h rfl
  refine ⟨hstep.answer_eq.trans ?_, hstep.bus_eq⟩
  by_cases htaken : r.status.get condition.flag = wanted
  · rw [outcome_of_taken _ r htaken, Registers.branched, if_pos htaken]
    rfl
  · rw [outcome_of_not_taken _ r htaken, Registers.branched, if_neg htaken]
    rfl

/-- **A step at an absolute jump or a call** goes to the word behind the opcode. -/
theorem step_goes_to_word {ram : Ram} {r : Registers} {operation : Operation} (tracing : Bool)
    (hgoes : operation = .jump ∨ operation = .callSubroutine)
    (h : Instruction.decode? (ram.get r.pc) = some ⟨operation, .absolute⟩) :
    let answer := ((r.step tracing).perform ram).answer
    (∃ cost, answer.outcome = .ok cost) ∧
      answer.registers.pc = word (ram.get (r.pc + 1)) (ram.get (r.pc + 2)) := by
  intro answer
  have himplemented : (Instruction.mk operation .absolute).isImplemented := by
    rcases hgoes with rfl | rfl <;> rfl
  have hanswer := (r.actsAs_step ram tracing h himplemented).answer_eq
  refine ⟨⟨_, congrArg Stepped.outcome hanswer⟩, ?_⟩
  refine (congrArg (·.registers.pc) hanswer).trans ?_
  rcases hgoes with rfl | rfl <;> rfl

/-! ## Both together -/

/-- **A step goes where the disassembler says.**  At a branch, with the flag that its opcode names
    and the value that it waits for, the step succeeds and changes nothing but PC and the cycles:
    where the flag shows that value it goes to the byte whose number is PC + 2 and the signed
    distance modulo 65536, for three cycles, or five if that is in another page than PC + 2; else it
    goes to PC + 2 for two.  Of the two branches on one flag exactly one is taken.  What is printed
    is the address of the target; and for an absolute jump or a call it is PC after the step. -/
theorem step_goes_where_printed (ram : Ram) (r : Registers) (tracing : Bool) :
    let done := (r.step tracing).perform ram
    let text := fun operand => disassemble r.pc (ram.get r.pc :: operand)
    (∀ field wanted, ram.get r.pc = branchOpcode field wanted →
      let shown := r.status.get (Condition.ofField field).flag
      let name := (branchOperation field wanted).mnemonic
      ∃ target : UInt16,
        (target.toNat : Int) = (r.pc.toNat + 2 + signed (ram.get (r.pc + 1))) % 65536 ∧
          (done.answer = r.branched (shown = wanted) target ∧ done.bus = ram) ∧
          ∀ rest, text (ram.get (r.pc + 1) :: rest) = name ++ " $" ++ hexWord target) ∧
    (∀ field wanted (ram' : Ram), ram.get r.pc = branchOpcode field wanted →
      ram'.get r.pc = branchOpcode field (!wanted) →
      (done.answer.outcome = .ok 2 ↔
        ((r.step tracing).perform ram').answer.outcome ≠ .ok 2)) ∧
    ∀ opcode operation,
      (opcode, operation) ∈ [(0x4C, Operation.jump), (0x20, .callSubroutine)] →
      ram.get r.pc = opcode →
      (∃ cost, done.answer.outcome = .ok cost) ∧
        ∀ rest, text (ram.get (r.pc + 1) :: ram.get (r.pc + 2) :: rest) =
          operation.mnemonic ++ " $" ++ hexWord done.answer.registers.pc := by
  intro done text
  -- what is known of any memory with a branch at PC
  have hdecode : ∀ {ram : Ram} {field wanted}, ram.get r.pc = branchOpcode field wanted →
      Instruction.decode? (ram.get r.pc) =
        some ⟨.branch (.ofField field) wanted, .relative⟩ := by
    intro ram field wanted hopcode
    rw [hopcode]
    exact decode?_branchOpcode field wanted
  refine ⟨?_, ?_, ?_⟩
  · intro field wanted hopcode shown name
    refine ⟨branchTarget r.pc (ram.get (r.pc + 1)), toNat_branchTarget _ _, ?_, ?_⟩
    · exact step_branch tracing (hdecode hopcode)
    · intro rest
      exact disassemble_branch (hdecode hopcode) r.pc _ rest
  · intro field wanted ram' hopcode hopcode'
    have hone := (step_branch tracing (hdecode hopcode)).1
    have hother := (step_branch tracing (hdecode hopcode')).1
    rw [hone, hother, Registers.branched_outcome_iff, ne_eq, Registers.branched_outcome_iff]
    cases r.status.get (Condition.ofField field).flag <;> cases wanted <;> decide
  · intro opcode operation hlisted hopcode
    have hgoes : (operation = .jump ∨ operation = .callSubroutine) ∧
        Instruction.decode? (ram.get r.pc) = some ⟨operation, .absolute⟩ := by
      rw [hopcode]
      rcases List.mem_cons.mp hlisted with h | h
      · cases h
        exact ⟨.inl rfl, by decide⟩
      · cases List.mem_singleton.mp h
        exact ⟨.inr rfl, by decide⟩
    obtain ⟨hok, hpc⟩ := step_goes_to_word tracing hgoes.1 hgoes.2
    refine ⟨hok, fun rest => ?_⟩
    rw [hpc]
    exact disassemble_absolute hgoes.2 r.pc _ _ rest

/-- A branch forward from $FFFD leads past the end of memory, to another page. -/
theorem step_goes_where_printed_past_end :
    let ram : Ram := (Ram.set (.ofBytes ⟨#[]⟩) 0xFFFD 0xD0).set 0xFFFE 0x10
    let r : Registers := { Registers.powerUp with pc := 0xFFFD }
    ((r.step false).perform ram).answer = ⟨.ok 5, r.goOn 0x000F 5⟩ ∧
      disassemble 0xFFFD [0xD0, 0x10] = "BNE $000F" := by
  intro ram r
  have hopcode : ram.get r.pc = 0xD0 := by
    rw [Ram.get_set, if_neg (by decide), Ram.get_set, if_pos rfl]
  have hdistance : ram.get (r.pc + 1) = 0x10 := by
    rw [Ram.get_set, if_pos (by decide)]
  obtain ⟨target, htarget, ⟨hstep, -⟩, htext⟩ :=
    (step_goes_where_printed ram r false).1 3 false hopcode
  have hnumber : target = 0x000F := by
    rw [hdistance] at htarget
    have hvalue : (target.toNat : Int) = 15 := htarget.trans (by decide)
    have hnat : target.toNat = (0x000F : UInt16).toNat := Int.ofNat_inj.mp hvalue
    exact UInt16.toNat_inj.mp hnat
  have htext := htext []
  rw [hopcode, hdistance, hnumber] at htext
  have hcost : takenCost r.pc 0x000F = 5 := by decide
  rw [hnumber, Registers.branched, if_pos (by decide), hcost] at hstep
  exact ⟨hstep, htext⟩

end Nes.Cpu
