/-
  Reporting: which of the records that a processor leaves are trace lines.

  1. **Silence**: finding an operand, acting on it and resetting report nothing of their own
     (`Traffic.NeverReports`); on the console there are only the notes of the bus then, and these
     are no trace lines (`NeverReports.not_isTrace`).
  2. **Steps**: so a step that is traced and succeeds leaves one trace line, that of the state
     before it, and every other step leaves none (`isTrace_step_of_ok`, `isTrace_step_of_error`).
  3. **Runs**: by induction, a traced run leaves the trace lines of the states that it went through
     (`isTrace_run`).
-/
import Nes.Proofs.Cpu.Failing
import Nes.Proofs.Cpu.Reaching

namespace Nes

/-- Whether a record is a trace line. -/
def Record.isTrace (record : Record) : Bool := record.source = .trace

/-- What the console notes about a write is no trace line. -/
theorem MemoryMap.writeNote_isTrace {addr : UInt16} {value : UInt8} {note : Record}
    (h : MemoryMap.writeNote addr value = some note) : note.isTrace = false := by
  unfold writeNote at h
  split at h
  · cases h
    rfl
  · cases h
    rfl
  · cases h

/-! ## Silence -/

namespace Traffic

variable {α γ : Type}

/-- The computation reports nothing of its own, whatever it reads. -/
def NeverReports : Traffic α → Prop
  | .done _ => True
  | .read _ next => ∀ value, (next value).NeverReports
  | .write _ _ next => next.NeverReports
  | .report _ _ => False

theorem NeverReports.bind {t : Traffic α} {f : α → Traffic γ} (ht : t.NeverReports)
    (hf : ∀ a, (f a).NeverReports) : (t >>= f).NeverReports := by
  induction t with
  | done a => exact hf a
  | read addr next ih => exact fun value => ih value (ht value)
  | write addr value next ih => exact ih ht
  | report record next ih => exact ht.elim

/-- **What is silent leaves nothing but the notes of the console**: what holds of each of them holds
    of each record. -/
theorem NeverReports.of_notes {P : Record → Prop}
    (hread : ∀ addr note, MemoryMap.readNote addr = some note → P note)
    (hwrite : ∀ addr value note, MemoryMap.writeNote addr value = some note → P note)
    {t : Traffic α} (h : t.NeverReports) (map : MemoryMap) :
    ∀ record ∈ (t.perform map).records, P record := by
  induction t generalizing map with
  | done a => exact fun record hmem => nomatch hmem
  | read addr next ih =>
    intro record hmem
    rcases List.mem_append.mp hmem with hnote | hrest
    · exact hread addr record (Option.mem_toList.mp hnote)
    · exact ih (map.read addr) (h _) map record hrest
  | write addr value next ih =>
    intro record hmem
    rcases List.mem_append.mp hmem with hnote | hrest
    · exact hwrite addr value record (Option.mem_toList.mp hnote)
    · exact ih h (map.write addr value) record hrest
  | report record next ih => exact h.elim

/-- **What is silent leaves no trace line** on the console. -/
theorem NeverReports.not_isTrace {t : Traffic α} (h : t.NeverReports) (map : MemoryMap) :
    (t.perform map).records.filter Record.isTrace = [] := by
  have hread : ∀ addr note, MemoryMap.readNote addr = some note → ¬ note.isTrace = true :=
    fun addr note hnote htrace =>
      PassiveBus.readNote_source map addr note hnote (of_decide_eq_true htrace)
  have hwrite : ∀ addr value note, MemoryMap.writeNote addr value = some note →
      ¬ note.isTrace = true := by
    intro addr value note hnote
    rw [MemoryMap.writeNote_isTrace hnote]
    exact Bool.false_ne_true
  exact List.filter_eq_nil_iff.mpr (h.of_notes hread hwrite map)

theorem neverReports_readBlock (addr : UInt16) (count : Nat) :
    (readBlock addr count).NeverReports := by
  induction count generalizing addr with
  | zero => exact trivial
  | succ count ih =>
    rw [readBlock_succ]
    exact NeverReports.bind (fun _ => trivial) fun value => (ih (addr + 1)).bind fun _ => trivial

end Traffic

namespace Cpu

open Nes.Traffic (NeverReports)

namespace Operand

variable {operand : Operand} {action : Registers → Traffic Registers} (r : Registers)

theorem neverReports_using? {f : UInt8 → Registers → Registers}
    (h : operand.using? f = some action) : (action r).NeverReports := by
  obtain ⟨value, hvalue, rfl⟩ := Option.map_eq_some_iff.mp h
  cases operand with
  | accumulator | immediate _ => cases hvalue; exact trivial
  | address addr => cases hvalue; exact fun _ => trivial
  | implied | relative _ => cases hvalue

theorem neverReports_place? {place : UInt8 → Registers → Traffic Registers} (v : UInt8)
    (h : operand.place? = some place) : (place v r).NeverReports := by
  cases operand with
  | accumulator | address _ => cases h; exact trivial
  | implied | immediate _ | relative _ => cases h

theorem neverReports_modify? {f : UInt8 → Registers → UInt8} {flags : UInt8 → Registers → Registers}
    (h : operand.modify? f flags = some action) : (action r).NeverReports := by
  cases operand with
  | accumulator => cases h; exact trivial
  | address addr => cases h; exact fun _ => trivial
  | implied | immediate _ | relative _ => cases h

end Operand

/-- No operation reports anything. -/
theorem Operation.neverReports_action? {o : Operation} {operand : Operand}
    {action : Registers → Traffic Registers} (h : o.action? operand = some action)
    (r : Registers) : (action r).NeverReports := by
  cases o with
  | load _ | logic _ | testBits | add | subtract | compare _ =>
    exact Operand.neverReports_using? r h
  | adjust _ | shift _ => exact Operand.neverReports_modify? r h
  | store source =>
    obtain ⟨place, hplace, rfl⟩ := Option.map_eq_some_iff.mp h
    exact Operand.neverReports_place? r (r.get source) hplace
  | jump | callSubroutine | branch _ _ =>
    obtain ⟨found, -, rfl⟩ := Option.map_eq_some_iff.mp h
    exact trivial
  | pullA | pullStatus => cases h; exact fun _ => trivial
  | returnFromSubroutine => cases h; exact fun _ _ => trivial
  | returnFromInterrupt => cases h; exact fun _ _ _ => trivial
  | softwareInterrupt => cases h
  | transfer _ | pushA | pushStatus | count _ _ | switch _ _ | clearOverflow | idle =>
    cases h
    exact trivial

theorem Mode.neverReports_resolve (mode : Mode) (r : Registers) :
    (mode.resolve r).NeverReports := by
  cases mode with
  | implied | accumulator => exact trivial
  | immediate | relative | zeroPage | zeroPageX | zeroPageY => exact fun _ => trivial
  | absolute | absoluteX | absoluteY => exact fun _ _ => trivial
  | preIndexedIndirect | postIndexedIndirect => exact fun _ _ _ => trivial
  | indirect => exact fun _ _ _ _ => trivial

theorem Instruction.neverReports_execute (i : Instruction) (r : Registers) :
    (i.execute r).NeverReports := by
  refine (i.mode.neverReports_resolve _).bind ?_
  rintro ⟨operand, crossed, found⟩
  dsimp only
  cases haction : i.operation.action? operand with
  | none => exact trivial
  | some action => exact (Operation.neverReports_action? haction _).bind fun _ => trivial

theorem Registers.neverReports_traceLine (r : Registers) : r.traceLine.NeverReports :=
  NeverReports.bind (fun _ => trivial) fun opcode =>
    (Traffic.neverReports_readBlock r.pc (lengthAt opcode)).bind fun _ => trivial

theorem Registers.neverReports_reset : Registers.reset.NeverReports := fun _ _ => trivial

/-! ## Steps -/

namespace Machine

/-- The trace line of the instruction at PC. -/
def traceText {β : Type} [Bus β] (m : Machine β) : String :=
  (m.registers.traceLine.perform m.bus).answer

variable (m : Machine MemoryMap) (tracing : Bool)

/-- **A step that fails leaves no trace line.** -/
theorem isTrace_step_of_error {failure : StepError}
    (h : (m.step tracing).answer.outcome = .error failure) :
    (m.step tracing).records.filter Record.isTrace = [] := by
  have hnot := (step_fails_iff m.bus m.registers tracing).mp ⟨failure, h⟩
  have hread : (m.step tracing).records =
      ((Traffic.readByte m.registers.pc).perform m.bus).records := by
    rw [step, perform_step_of_not_mem m.bus m.registers tracing hnot, Traffic.perform_readByte]
    rfl
  have hsilent : (Traffic.readByte m.registers.pc).NeverReports := fun _ => trivial
  rw [hread]
  exact hsilent.not_isTrace m.bus

/-- What a step that succeeds leaves: what there is to report about its opcode, what the trace
    leaves, and what its instruction leaves. -/
theorem exists_records_step {cycles : UInt8} (h : (m.step tracing).answer.outcome = .ok cycles) :
    ∃ i : Instruction, Instruction.decode? (Bus.peek m.bus m.registers.pc) = some i ∧
      i.isImplemented ∧
      ∀ traced, (m.step traced).records =
        (Bus.readNote m.bus m.registers.pc).toList ++
          (((m.registers.trace traced).perform m.bus).records ++
            ((i.execute m.registers).perform m.bus).records) := by
  obtain ⟨r, map⟩ := m
  have hmem : Bus.peek map r.pc ∈ Instruction.implementedOpcodes := by
    refine Decidable.byContradiction fun hnot => ?_
    obtain ⟨failure, hfails⟩ := (step_fails_iff map r tracing).mpr hnot
    have hboth := h.symm.trans hfails
    exact nomatch hboth
  obtain ⟨i, hdecode, himplemented⟩ := Instruction.mem_implementedOpcodes.mp hmem
  refine ⟨i, hdecode, himplemented, fun traced => ?_⟩
  have hopcode := Traffic.perform_readByte r.pc map
  have hbus : ((r.trace traced).perform map).bus = map := (r.actsAs_trace map traced).bus_eq
  unfold step Registers.step
  rw [Traffic.perform_bind, hopcode]
  dsimp only [Traffic.Performed.ofReads]
  rw [hdecode]
  dsimp only
  rw [if_pos himplemented, Traffic.perform_bind, List.flatMap_singleton]
  dsimp only
  rw [hbus]

/-- **A step that succeeds leaves one trace line**, if it is traced. -/
theorem isTrace_step_of_ok {cycles : UInt8} (h : (m.step tracing).answer.outcome = .ok cycles) :
    (m.step tracing).records.filter Record.isTrace =
      if tracing then [traceRecord m.traceText] else [] := by
  obtain ⟨i, -, -, hrecords⟩ := m.exists_records_step tracing h
  have hsilent : (Bus.readNote m.bus m.registers.pc).toList.filter Record.isTrace = [] := by
    have hread : (Traffic.readByte m.registers.pc).NeverReports := fun _ => trivial
    have hnotes := hread.not_isTrace m.bus
    rwa [Traffic.perform_readByte, Traffic.Performed.ofReads, List.flatMap_singleton] at hnotes
  rw [hrecords, List.filter_append, List.filter_append, hsilent,
    (i.neverReports_execute m.registers).not_isTrace, List.append_nil, List.nil_append]
  cases tracing with
  | false => rfl
  | true =>
    show (((m.registers.traceLine >>= _).perform m.bus).records).filter Record.isTrace = _
    rw [Traffic.perform_bind, List.filter_append, m.registers.neverReports_traceLine.not_isTrace]
    rfl

/-! ## Runs -/

/-- **A run without a failure leaves the trace lines of the states that it goes through**, one each
    and in order, if it is traced. -/
theorem isTrace_run (count : Nat) (h : (run false count m).failure = none) :
    (run tracing count m).records.filter Record.isTrace =
      if tracing then
        (List.range count).map fun i => traceRecord (run false i m).machine.traceText
      else [] := by
  induction count generalizing m with
  | zero => cases tracing <;> rfl
  | succ count ih =>
    cases houtcome : (m.step false).answer.outcome with
    | error failure =>
      rw [run_of_error houtcome] at h
      cases h
    | ok cycles =>
      rw [run_of_ok houtcome] at h
      have htraced := (m.outcome_eq tracing false).trans houtcome
      rw [run_of_ok htraced, m.next_eq tracing false]
      have hbehind : ∀ i, (run false (i + 1) m).machine = (run false i (m.next false)).machine := by
        intro i
        rw [run_of_ok houtcome]
      dsimp only
      rw [List.filter_append, m.isTrace_step_of_ok tracing htraced, ih (m.next false) h,
        List.range_succ_eq_map]
      cases tracing with
      | false => rfl
      | true =>
        simp only [if_true, List.map_cons, List.map_map, Function.comp_def, hbehind]
        rfl

end Machine

end Cpu

end Nes
