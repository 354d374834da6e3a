/-
  Failing steps: when a step cannot be taken, and that nothing happens then.

  Of the 256 opcodes 150 stand for an implemented instruction; $00 is named but not executed, and
  105 are not official.  A step succeeds exactly at the first and fails at the others, each with an
  error of its own.  Look-up comes before every effect, so a failing step has read its opcode and
  done nothing else, and since it leaves the machine as it was it fails again and again.
-/
import Mathlib.Data.List.Perm.Subperm
import Nes.Proofs.Cpu.Attempts
import Nes.Proofs.Cpu.Stepping

namespace Nes.Cpu

open Nes.Traffic (Performed)

namespace Instruction

/-! ## The three sorts of opcodes -/

/-- The opcodes of the instructions that are executed. -/
def implementedOpcodes : List UInt8 := (table.filter fun e => e.2.isImplemented).map fun e => e.1

/-- The opcodes of no official instruction, a line for each upper half. -/
def unofficialOpcodes : List UInt8 :=
  [0x02, 0x03, 0x04, 0x07, 0x0B, 0x0C, 0x0F,
    0x12, 0x13, 0x14, 0x17, 0x1A, 0x1B, 0x1C, 0x1F,
    0x22, 0x23, 0x27, 0x2B, 0x2F,
    0x32, 0x33, 0x34, 0x37, 0x3A, 0x3B, 0x3C, 0x3F,
    0x42, 0x43, 0x44, 0x47, 0x4B, 0x4F,
    0x52, 0x53, 0x54, 0x57, 0x5A, 0x5B, 0x5C, 0x5F,
    0x62, 0x63, 0x64, 0x67, 0x6B, 0x6F,
    0x72, 0x73, 0x74, 0x77, 0x7A, 0x7B, 0x7C, 0x7F,
    0x80, 0x82, 0x83, 0x87, 0x89, 0x8B, 0x8F,
    0x92, 0x93, 0x97, 0x9B, 0x9C, 0x9E, 0x9F,
    0xA3, 0xA7, 0xAB, 0xAF,
    0xB2, 0xB3, 0xB7, 0xBB, 0xBF,
    0xC2, 0xC3, 0xC7, 0xCB, 0xCF,
    0xD2, 0xD3, 0xD4, 0xD7, 0xDA, 0xDB, 0xDC, 0xDF,
    0xE2, 0xE3, 0xE7, 0xEB, 0xEF,
    0xF2, 0xF3, 0xF4, 0xF7, 0xFA, 0xFB, 0xFC, 0xFF]

/-- The only instruction that has a name and is not executed. -/
def brk : Instruction := ⟨.softwareInterrupt, .implied⟩

/-- All 256 bytes, sorted into the three sorts of opcodes. -/
def sortedOpcodes : List UInt8 := implementedOpcodes ++ 0x00 :: unofficialOpcodes

theorem length_implementedOpcodes : implementedOpcodes.length = 150 := by decide +kernel

theorem length_unofficialOpcodes : unofficialOpcodes.length = 105 := by decide

/-- The three sorts together are every byte, once. -/
theorem sortedOpcodes_perm : (sortedOpcodes.map UInt8.toNat).Perm (List.range 256) := by
  -- no byte is among them twice, and they are as many as there are bytes
  have hnew : allNew 0 (sortedOpcodes.map UInt8.toNat) := by decide +kernel
  have hlength : (sortedOpcodes.map UInt8.toNat).length = 256 := by
    simp [sortedOpcodes, length_implementedOpcodes, length_unofficialOpcodes]
  have hsubset : sortedOpcodes.map UInt8.toNat ⊆ List.range 256 := by
    intro n hn
    obtain ⟨b, -, rfl⟩ := List.mem_map.mp hn
    exact List.mem_range.mpr b.toNat_lt
  exact (List.subperm_of_subset (nodup_of_allNew hnew).1 hsubset).perm_of_length_le
    (Nat.le_of_eq (by rw [hlength, List.length_range]))

theorem nodup_sortedOpcodes : sortedOpcodes.Nodup := by
  have h : (sortedOpcodes.map UInt8.toNat).Nodup :=
    sortedOpcodes_perm.nodup_iff.mpr List.nodup_range
  exact List.Pairwise.of_map UInt8.toNat (fun a b hne hab => hne (congrArg UInt8.toNat hab)) h

theorem mem_sortedOpcodes (b : UInt8) : b ∈ sortedOpcodes := by
  have h : b.toNat ∈ sortedOpcodes.map UInt8.toNat :=
    sortedOpcodes_perm.mem_iff.mpr (List.mem_range.mpr b.toNat_lt)
  obtain ⟨c, hc, hcb⟩ := List.mem_map.mp h
  rwa [UInt8.toNat_inj.mp hcb] at hc

theorem mem_implementedOpcodes {b : UInt8} :
    b ∈ implementedOpcodes ↔ ∃ i, decode? b = some i ∧ i.isImplemented := by
  simp only [implementedOpcodes, List.mem_map, List.mem_filter, decode?_eq_some_iff]
  constructor
  · rintro ⟨⟨c, i⟩, ⟨hmem, himplemented⟩, rfl⟩
    exact ⟨i, hmem, himplemented⟩
  · rintro ⟨i, hmem, himplemented⟩
    exact ⟨(b, i), ⟨hmem, himplemented⟩, rfl⟩

theorem ne_zero_of_unofficial {b : UInt8} (h : b ∈ unofficialOpcodes) : b ≠ 0x00 := by
  have hrest := (List.nodup_append.mp nodup_sortedOpcodes).2.1
  rintro rfl
  exact (List.nodup_cons.mp hrest).1 h

/-- The opcodes that are not implemented are $00 and the unofficial ones. -/
theorem not_mem_implementedOpcodes {b : UInt8} :
    b ∉ implementedOpcodes ↔ b = 0x00 ∨ b ∈ unofficialOpcodes := by
  have hdisjoint := (List.nodup_append.mp nodup_sortedOpcodes).2.2
  constructor
  · intro hb
    rcases List.mem_append.mp (mem_sortedOpcodes b) with h | h
    · exact absurd h hb
    · exact List.mem_cons.mp h
  · intro hb h
    exact hdisjoint b h b (List.mem_cons.mpr hb) rfl

theorem decode?_brk : decode? 0x00 = some brk := by decide

/-- An unofficial opcode stands for nothing. -/
theorem decode?_of_unofficial {b : UInt8} (h : b ∈ unofficialOpcodes) : decode? b = none := by
  cases hdecode : decode? b with
  | none => rfl
  | some i =>
    exfalso
    have hnot : b ∉ implementedOpcodes := not_mem_implementedOpcodes.mpr (.inr h)
    have hunimplemented : i.isImplemented = false := by
      cases himplemented : i.isImplemented with
      | false => rfl
      | true => exact absurd (mem_implementedOpcodes.mpr ⟨i, hdecode, himplemented⟩) hnot
    -- the only entry that is not implemented is that of $00, which is not unofficial
    have hbrk : ∀ e ∈ table, e.2.isImplemented = false → e.1 = 0x00 := by decide +kernel
    have hzero : b = 0x00 := hbrk (b, i) (mem_table_of_decode? hdecode) hunimplemented
    exact ne_zero_of_unofficial h hzero

end Instruction

/-! ## Steps that fail -/

section

variable {β : Type} [Bus β] [PassiveBus β] (bus : β) (r : Registers)

/-- What a step says that fails at an opcode: $00 is known by name, any other is unknown. -/
def failureAt (opcode : UInt8) (pc : UInt16) : StepError :=
  if opcode = 0x00 then .unimplementedOpcode 0x00 .softwareInterrupt pc
  else .unknownOpcode opcode pc

/-- **A step at an opcode that is not implemented reads that opcode and fails**, traced or not. -/
theorem perform_step_of_not_mem (tracing : Bool)
    (h : Bus.peek bus r.pc ∉ Instruction.implementedOpcodes) :
    (r.step tracing).perform bus =
      .ofReads bus [r.pc] ⟨.error (failureAt (Bus.peek bus r.pc) r.pc), r⟩ := by
  rcases Instruction.not_mem_implementedOpcodes.mp h with hzero | hunofficial
  · have hdecode : Instruction.decode? (Bus.peek bus r.pc) = some Instruction.brk := by
      rw [hzero, Instruction.decode?_brk]
    rw [Registers.perform_step_of_unimplemented bus r tracing hdecode rfl, failureAt,
      if_pos hzero, hzero]
    rfl
  · have hne := Instruction.ne_zero_of_unofficial hunofficial
    rw [Registers.perform_step_of_unknown bus r tracing
      (Instruction.decode?_of_unofficial hunofficial), failureAt, if_neg hne]

/-- A step at an implemented opcode succeeds. -/
theorem outcome_step_of_mem (tracing : Bool)
    (h : Bus.peek bus r.pc ∈ Instruction.implementedOpcodes) :
    ∃ cycles, ((r.step tracing).perform bus).answer.outcome = .ok cycles := by
  obtain ⟨i, hdecode, himplemented⟩ := Instruction.mem_implementedOpcodes.mp h
  have hstep := r.actsAs_step bus tracing hdecode himplemented
  exact ⟨(i.outcome (Bus.peek bus) r).stepCycles, by rw [hstep.answer_eq]⟩

/-- A step fails exactly where the opcode is not implemented. -/
theorem step_fails_iff (tracing : Bool) :
    (∃ failure, ((r.step tracing).perform bus).answer.outcome = .error failure) ↔
      Bus.peek bus r.pc ∉ Instruction.implementedOpcodes := by
  constructor
  · rintro ⟨failure, hfailure⟩ hmem
    obtain ⟨cycles, hok⟩ := outcome_step_of_mem bus r tracing hmem
    rw [hok] at hfailure
    exact nomatch hfailure
  · intro h
    exact ⟨failureAt (Bus.peek bus r.pc) r.pc, by rw [perform_step_of_not_mem bus r tracing h]; rfl⟩

/-- Where a zero is found there is nothing to execute. -/
theorem Machine.step_of_zero {m : Machine β} (tracing : Bool)
    (h : Bus.peek m.bus m.registers.pc = 0x00) :
    (m.step tracing).answer =
      ⟨.error (.unimplementedOpcode 0x00 .softwareInterrupt m.registers.pc), m.registers⟩ := by
  have hdecode : Instruction.decode? (Bus.peek m.bus m.registers.pc) = some Instruction.brk := by
    rw [h, Instruction.decode?_brk]
  have hstep := m.registers.perform_step_of_unimplemented m.bus tracing hdecode rfl
  rw [Machine.step, hstep, h]
  rfl

/-- A step that fails leaves the machine as it is. -/
theorem Machine.next_of_error {m : Machine β} {tracing : Bool} {failure : StepError}
    (h : (m.step tracing).answer.outcome = .error failure) : m.next tracing = m := by
  have hnot := (step_fails_iff m.bus m.registers tracing).mp ⟨failure, h⟩
  rw [next, Machine.step, perform_step_of_not_mem m.bus m.registers tracing hnot]
  rfl

/-- Reading alone reports no trace line. -/
theorem traceRecord_not_mem_ofReads {α : Type} (cells : List UInt16) (a : α) (line : String) :
    traceRecord line ∉ (Performed.ofReads bus cells a).records := by
  intro hmem
  obtain ⟨cell, -, hnote⟩ := List.mem_flatMap.mp hmem
  exact PassiveBus.readNote_source bus cell _ (Option.mem_toList.mp hnote) rfl

/-- **A failing step is atomic, told exactly by its opcode, and absorbing**, on flat memory, on the
    memory map and on every other passive bus. -/
theorem failing_step_atomic (tracing : Bool) :
    let m : Machine β := ⟨r, bus⟩
    let opcode := Bus.peek bus r.pc
    -- the 150 implemented opcodes, $00 and the 105 unofficial ones are all 256 bytes
    (Instruction.implementedOpcodes.length = 150 ∧ Instruction.unofficialOpcodes.length = 105 ∧
      Instruction.sortedOpcodes.Nodup ∧ ∀ b, b ∈ Instruction.sortedOpcodes) ∧
    -- a step fails exactly where the opcode is not implemented
    ((∃ failure, (m.step tracing).answer.outcome = .error failure) ↔
      opcode ∉ Instruction.implementedOpcodes) ∧
    (opcode = 0x00 → (m.step tracing).answer.outcome =
      .error (.unimplementedOpcode 0x00 .softwareInterrupt r.pc)) ∧
    Operation.softwareInterrupt.mnemonic = "BRK" ∧
    (opcode ∈ Instruction.unofficialOpcodes → (m.step tracing).answer.outcome =
      .error (.unknownOpcode opcode r.pc)) ∧
    -- where it fails, nothing but the read of the opcode has happened, then and ever after
    ∀ failure, (m.step tracing).answer.outcome = .error failure →
      (m.step tracing).answer.registers = r ∧
      (m.step tracing).bus = bus ∧
      (m.step tracing).accesses = [.read r.pc opcode] ∧
      (∀ line, traceRecord line ∉ (m.step tracing).records) ∧
      ∀ traced : List Bool,
        m.attempts traced =
          traced.map (fun _ => ⟨⟨.error failure, r⟩, [.read r.pc opcode]⟩) ∧
        m.after traced = m := by
  intro m opcode
  have hfails : opcode ∉ Instruction.implementedOpcodes → ∀ tracing, m.step tracing =
      .ofReads bus [r.pc] ⟨.error (failureAt opcode r.pc), r⟩ :=
    fun h tracing => perform_step_of_not_mem bus r tracing h
  refine ⟨⟨Instruction.length_implementedOpcodes, Instruction.length_unofficialOpcodes,
      Instruction.nodup_sortedOpcodes, Instruction.mem_sortedOpcodes⟩,
    step_fails_iff bus r tracing, ?_, rfl, ?_, ?_⟩
  · intro hzero
    rw [hfails (Instruction.not_mem_implementedOpcodes.mpr (.inl hzero)), failureAt, if_pos hzero]
    rfl
  · intro hunofficial
    have hne := Instruction.ne_zero_of_unofficial hunofficial
    rw [hfails (Instruction.not_mem_implementedOpcodes.mpr (.inr hunofficial)), failureAt,
      if_neg hne]
    rfl
  · intro failure hfailure
    have h := hfails ((step_fails_iff bus r tracing).mp ⟨failure, hfailure⟩)
    obtain rfl : failureAt opcode r.pc = failure := by
      rw [h tracing] at hfailure
      exact Except.error.inj hfailure
    refine ⟨by rw [h tracing]; rfl, by rw [h tracing]; rfl, by rw [h tracing]; rfl, ?_, ?_⟩
    · intro line
      rw [h tracing]
      exact traceRecord_not_mem_ofReads bus [r.pc] _ line
    · exact fun traced => Machine.attempts_of_failure h traced

/-- At $02 a traced step and then an untraced one come to the same. -/
theorem failing_step_at_two :
    let ram : Ram := .ofBytes ⟨#[0x02]⟩
    (⟨.powerUp, ram⟩ : Machine Ram).attempts [true, false] =
      [⟨⟨.error (.unknownOpcode 0x02 0), .powerUp⟩, [.read 0 0x02]⟩,
        ⟨⟨.error (.unknownOpcode 0x02 0), .powerUp⟩, [.read 0 0x02]⟩] := by
  intro ram
  have hopcode : Bus.peek ram Registers.powerUp.pc = 0x02 := by
    rw [Bus.peek_ram, Ram.get_ofBytes]
    rfl
  obtain ⟨-, -, -, -, hunknown, hfails⟩ := failing_step_atomic ram .powerUp true
  have hmem : Bus.peek ram Registers.powerUp.pc ∈ Instruction.unofficialOpcodes := by
    rw [hopcode]
    decide
  obtain ⟨-, -, -, -, hever⟩ := hfails _ (hunknown hmem)
  have hshown := (hever [true, false]).1
  rw [hopcode] at hshown
  exact hshown

end

end Nes.Cpu
