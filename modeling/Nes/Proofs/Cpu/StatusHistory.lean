/-
  Status history: what the status register can show in the course of a run.

  A run begins with a reset, on any bus and with any program.  PLP and RTI load the register with
  bytes that may be anything; still not every value of the register can come up.

  1. **Executions**: `Machine.executions` lists what the successful steps of a run have executed,
     each with the registers before and after it and its accesses.
  2. **The latest decides**: what only executions of some sort change is, after the run, what the
     latest of this sort has left (`after_eq_latest`).
  3. **One execution**: RTI takes over the byte it pulls, with bit 5 forced on; PHP stores the
     register with bits 4 and 5 forced on; and but for BIT, PLP and RTI, what sets zero and negative
     sets them from one byte, which cannot be both zero and negative.
  4. **Every run**: the three together (`status_of_every_run`).
-/
import Nes.Proofs.Bus.Heard
import Nes.Proofs.Cpu.Arithmetic
import Nes.Proofs.Cpu.Attempts
import Nes.Proofs.Cpu.Ownership

namespace Nes.Cpu

/-! ## Executions -/

/-- An instruction that was executed in a step, and what the step did. -/
structure Execution where
  instruction : Instruction
  before : Registers
  after : Registers
  accesses : List Access

namespace Execution

/-- The byte that was read last but two.  RTI pulls the status there, before the two bytes of PC. -/
def pulled (e : Execution) : UInt8 := (heard e.accesses).reverse.getD 2 0

/-- The writes of the step. -/
def writes (e : Execution) : List Access := e.accesses.filter fun access => !access.isRead

/-- The latest execution of a sort, if there is one. -/
def latest (sort : Execution → Bool) (history : List Execution) : Option Execution :=
  history.reverse.find? sort

theorem latest_cons (sort : Execution → Bool) (e : Execution) (rest : List Execution) :
    latest sort (e :: rest) = (latest sort rest).or (if sort e then some e else none) := by
  rw [latest, List.reverse_cons, List.find?_append, List.find?_singleton]
  rfl

theorem mem_of_latest {sort : Execution → Bool} {history : List Execution} {e : Execution}
    (h : latest sort history = some e) : e ∈ history ∧ sort e :=
  ⟨List.mem_reverse.mp (List.mem_of_find?_eq_some h), List.find?_some h⟩

end Execution

namespace Machine

variable {β : Type} [Bus β]

/-- What a step executes, if it succeeds. -/
def execution? (m : Machine β) (tracing : Bool) : Option Execution :=
  match (m.step tracing).answer.outcome with
  | .error _ => none
  | .ok _ => (Instruction.decode? (Bus.peek m.bus m.registers.pc)).map fun i =>
    ⟨i, m.registers, (m.step tracing).answer.registers, (m.step tracing).accesses⟩

/-- What a number of steps execute, in order; each step is traced or not. -/
def executions (m : Machine β) : List Bool → List Execution
  | [] => []
  | tracing :: rest => (m.execution? tracing).toList ++ (m.next tracing).executions rest

variable {m : Machine β} {tracing : Bool} {e : Execution}

/-- What is executed in a step is what lies at PC. -/
theorem executes_of_execution? (h : m.execution? tracing = some e) :
    e.before = m.registers ∧ e.after = (m.next tracing).registers ∧
      e.accesses = (m.step tracing).accesses ∧
      ∃ before bus, m.Executes tracing e.instruction before bus := by
  rw [execution?] at h
  split at h
  · exact nomatch h
  · rename_i cycles houtcome
    obtain ⟨i, before, bus, hexecutes⟩ := executes_of_ok houtcome
    rw [hexecutes.decode?_eq, Option.map_some] at h
    obtain rfl := Option.some.inj h
    exact ⟨rfl, rfl, rfl, before, bus, hexecutes⟩

/-- A step that executes nothing leaves the registers as they are. -/
theorem next_of_execution?_eq_none (h : m.execution? tracing = none) :
    (m.next tracing).registers = m.registers := by
  rcases m.step_cases tracing with ⟨failure, hfails⟩ | ⟨i, before, bus, hexecutes⟩
  · rw [next, hfails]
  · obtain ⟨last, -, hend⟩ := hexecutes.ends (P := fun _ => True) fun _ action _ _ _ _ =>
      Traffic.always_of_forall (fun _ => trivial) (action _)
    rw [execution?, hend, hexecutes.decode?_eq] at h
    cases h

/-- What is listed has been executed in a step. -/
theorem exists_of_mem_executions {traced : List Bool} (h : e ∈ m.executions traced) :
    ∃ (m : Machine β) (tracing : Bool), m.execution? tracing = some e := by
  induction traced generalizing m with
  | nil => exact nomatch h
  | cons tracing rest ih =>
    rcases List.mem_append.mp h with hfirst | hrest
    · exact ⟨m, tracing, Option.mem_toList.mp hfirst⟩
    · exact ih hrest

/-! ## The latest decides -/

/-- **The latest execution of a sort decides** what no other execution changes. -/
theorem after_eq_latest {γ : Type} (sort : Execution → Bool) (shows : Registers → γ)
    (hkeeps : ∀ (m : Machine β) tracing e, m.execution? tracing = some e → sort e = false →
      shows e.after = shows e.before)
    (m : Machine β) (traced : List Bool) :
    shows (m.after traced).registers =
      ((Execution.latest sort (m.executions traced)).map fun e => shows e.after).getD
        (shows m.registers) := by
  induction traced generalizing m with
  | nil => rfl
  | cons tracing rest ih =>
    rw [after, executions, ih (m.next tracing)]
    cases hexecution : m.execution? tracing with
    | none =>
      rw [next_of_execution?_eq_none hexecution]
      rfl
    | some e =>
      obtain ⟨hbefore, hafter, -⟩ := executes_of_execution? hexecution
      show _ = ((Execution.latest sort (e :: (m.next tracing).executions rest)).map _).getD _
      rw [Execution.latest_cons]
      cases Execution.latest sort ((m.next tracing).executions rest) with
      | some later => rfl
      | none =>
        cases hsort : sort e with
        | true => exact congrArg shows hafter.symm
        | false =>
          rw [← hafter, ← hbefore]
          exact hkeeps m tracing e hexecution hsort

/-! ## One execution -/

/-- What an instruction does not own it does not change. -/
theorem kept_of_execution? (h : m.execution? tracing = some e) {c : Component}
    (hnot : c.ownedBy e.instruction = false) : c.Kept e.before e.after := by
  obtain ⟨hbefore, hafter, -, before, bus, hexecutes⟩ := executes_of_execution? h
  rw [hbefore, hafter]
  refine hexecutes.touches.changes c fun hmem => ?_
  have howned :=
    Instruction.ownedBy_of_mem_touched hexecutes.decode?_eq hexecutes.isImplemented hmem
  rw [hnot] at howned
  exact nomatch howned

end Machine

/-- What touches the status as a whole has no operand. -/
theorem Instruction.mode_eq_implied {opcode : UInt8} {i : Instruction}
    (h : decode? opcode = some i)
    (hoperation : i.operation = .returnFromInterrupt ∨ i.operation = .pushStatus) :
    i.mode = .implied := by
  have hall : ∀ e ∈ table, e.2.operation = .returnFromInterrupt ∨ e.2.operation = .pushStatus →
      e.2.mode = .implied := by
    decide +kernel
  exact hall (opcode, i) (mem_table_of_decode? h) hoperation

/-- A return from an interrupt pulls three bytes, of which the first becomes the status. -/
theorem execute_returnFromInterrupt (r : Registers) :
    ∃ last : UInt8 → UInt8 → UInt8 → Registers, (∀ v lo hi, (last v lo hi).status = .pullForced v) ∧
      (⟨.returnFromInterrupt, .implied⟩ : Instruction).execute r =
        .read (stackAddress (r.sp + 1)) fun v => .read (stackAddress (r.sp + 1 + 1)) fun lo =>
          .read (stackAddress (r.sp + 1 + 1 + 1)) fun hi => .done (last v lo hi).finish := by
  let i : Instruction := ⟨.returnFromInterrupt, .implied⟩
  let start : Registers := { r with pc := r.pc + 1, stepCycles := i.baseCycles }
  let last (v lo hi : UInt8) : Registers :=
    { start with sp := r.sp + 1 + 1 + 1, status := .pullForced v, pc := word lo hi }
  exact ⟨last, fun v lo hi => rfl, rfl⟩

theorem perform_returnFromInterrupt {β : Type} [Bus β] (r : Registers) (bus : β) :
    let done := ((⟨.returnFromInterrupt, .implied⟩ : Instruction).execute r).perform bus
    ∃ v lo hi,
      done.accesses = [.read (stackCell (r.sp + 1)) v, .read (stackCell (r.sp + 2)) lo,
        .read (stackCell (r.sp + 3)) hi] ∧
      done.answer.registers.status = .pullForced v := by
  intro done
  obtain ⟨last, hlast, hexecute⟩ := execute_returnFromInterrupt r
  have htwo : r.sp + 2 = r.sp + 1 + 1 := (UInt8.add_assoc r.sp 1 1).symm
  have hthree : r.sp + 3 = r.sp + 1 + 1 + 1 := by rw [← htwo]; exact (UInt8.add_assoc r.sp 2 1).symm
  simp only [done, hexecute, Traffic.perform, htwo, hthree, stackAddress_eq_stackCell]
  exact ⟨_, _, _, rfl, hlast _ _ _⟩

/-- One byte is pushed with the status, and nothing is read. -/
theorem perform_pushStatus {β : Type} [Bus β] (r : Registers) (bus : β) :
    (((⟨.pushStatus, .implied⟩ : Instruction).execute r).perform bus).accesses =
      [.write (stackCell r.sp) r.status.pushed] := by
  rw [← stackAddress_eq_stackCell]
  rfl

/-- Bits 4 and 5 belong to RTI alone. -/
theorem Component.not_ownedBy_of_ne {i : Instruction} {f : Flag}
    (hf : f = .breakCommand ∨ f = .unused) (hne : i.operation ≠ .returnFromInterrupt) :
    (Component.flag f).ownedBy i = false := by
  obtain ⟨o, mode⟩ := i
  rcases hf with rfl | rfl
  · cases o <;> first | rfl | exact absurd rfl hne
  · cases o <;> first | rfl | exact absurd rfl hne

/-- But for BIT, PLP and RTI, an instruction that owns zero and negative sets them from one byte. -/
theorem Operation.always_tells {i : Instruction} {operand : Operand}
    {action : Registers → Traffic Registers} (h : i.operation.action? operand = some action)
    (howned : (Component.flag .zero).ownedBy i)
    (hnot : i.operation ∉ [.testBits, .pullStatus, .returnFromInterrupt]) (r : Registers) :
    (action r).Always fun q => ∃ v, q.status.TellsOf v := by
  obtain ⟨o, mode⟩ := i
  cases o with
  | load target =>
    refine Operand.always_using? h fun v => ⟨v, ?_⟩
    exact Status.putNZ_tellsOf _ v
  | logic connective =>
    refine Operand.always_using? h fun v => ⟨connective.apply r.a v, ?_⟩
    exact Status.putNZ_tellsOf _ _
  | add =>
    refine Operand.always_using? h fun v => ⟨lowByte (r.sum v), ?_⟩
    exact Status.putNZ_tellsOf _ _
  | subtract =>
    refine Operand.always_using? h fun v => ⟨lowByte (r.sum (~~~ v)), ?_⟩
    exact Status.putNZ_tellsOf _ _
  | compare register =>
    refine Operand.always_using? h fun v => ⟨r.get register - v, ?_⟩
    exact Status.putNZ_tellsOf _ _
  | adjust direction =>
    refine Operand.always_modify? h fun v => ⟨direction.step v, ?_⟩
    exact Status.putNZ_tellsOf _ _
  | shift way =>
    refine Operand.always_modify? h fun v => ⟨way.result v (r.status.get .carry), ?_⟩
    exact Status.putNZ_tellsOf _ _
  | count index direction =>
    cases h
    exact ⟨_, Status.putNZ_tellsOf _ _⟩
  | pullA =>
    cases h
    exact fun v => ⟨v, Status.putNZ_tellsOf _ v⟩
  | transfer move =>
    cases h
    cases move with
    | xToSp => exact nomatch howned
    | aToX | spToX | aToY | xToA | yToA => exact ⟨_, Status.putNZ_tellsOf _ _⟩
  | testBits | pullStatus | returnFromInterrupt => exact absurd (by simp) hnot
  | store _ | pushA | pushStatus | jump | callSubroutine | returnFromSubroutine | softwareInterrupt
  | branch _ _ | switch _ _ | clearOverflow | idle => exact nomatch howned

/-- No byte is both zero and negative. -/
theorem Status.TellsOf.not_both {p : Status} {v : UInt8} (h : p.TellsOf v) :
    (p.get .zero && p.get .negative) = false := by
  obtain ⟨hzero, hnegative⟩ := h
  cases hz : p.get .zero with
  | false => rfl
  | true =>
    cases hn : p.get .negative with
    | false => rfl
    | true =>
      have hv : v = 0 := hzero.mp hz
      have hsigned : signed v < 0 := hnegative.mp hn
      rw [hv] at hsigned
      exact absurd hsigned (by decide)

namespace Machine

variable {β : Type} [Bus β] {m : Machine β} {tracing : Bool} {e : Execution}

/-- **A return from an interrupt** takes over the byte it pulls, which is the one read last but
    two. -/
theorem status_of_returnFromInterrupt (h : m.execution? tracing = some e)
    (hoperation : e.instruction.operation = .returnFromInterrupt) :
    e.after.status = .pullForced e.pulled ∧
      ∃ front lo hi, e.accesses = front ++
        [.read (stackCell (e.before.sp + 1)) e.pulled, .read (stackCell (e.before.sp + 2)) lo,
          .read (stackCell (e.before.sp + 3)) hi] := by
  obtain ⟨hbefore, hafter, haccesses, front, bus, hexecutes⟩ := executes_of_execution? h
  have hmode := Instruction.mode_eq_implied hexecutes.decode?_eq (.inl hoperation)
  have hinstruction : e.instruction = ⟨.returnFromInterrupt, .implied⟩ := by
    rw [← hoperation, ← hmode]
  obtain ⟨v, lo, hi, hreads, hstatus⟩ := perform_returnFromInterrupt m.registers bus
  rw [← hinstruction, ← hexecutes.answer_eq] at hstatus
  have hall : e.accesses = front ++ [.read (stackCell (m.registers.sp + 1)) v,
      .read (stackCell (m.registers.sp + 2)) lo, .read (stackCell (m.registers.sp + 3)) hi] := by
    rw [haccesses, hexecutes.accesses_eq, hinstruction, hreads]
  have hpulled : e.pulled = v := by
    rw [Execution.pulled, hall, heard, List.filterMap_append, List.reverse_append]
    rfl
  rw [hbefore, hpulled, hafter]
  exact ⟨hstatus, front, lo, hi, hall⟩

/-- **What is pushed of the status** is the register with bits 4 and 5 set. -/
theorem writes_of_pushStatus (h : m.execution? tracing = some e)
    (hoperation : e.instruction.operation = .pushStatus) :
    e.writes = [.write (stackCell e.before.sp) e.before.status.pushed] := by
  obtain ⟨hbefore, -, haccesses, front, bus, hexecutes⟩ := executes_of_execution? h
  have hmode := Instruction.mode_eq_implied hexecutes.decode?_eq (.inr hoperation)
  have hinstruction : e.instruction = ⟨.pushStatus, .implied⟩ := by
    rw [← hoperation, ← hmode]
  -- before the push there have only been reads
  have hfront : front.filter (fun access => !access.isRead) = [] := by
    refine List.filter_eq_nil_iff.mpr fun access hmem => ?_
    rw [hexecutes.isRead access hmem]
    decide
  rw [Execution.writes, haccesses, hexecutes.accesses_eq, hinstruction, perform_pushStatus,
    List.filter_append, hfront, hbefore]
  rfl

/-- **Zero and negative are both set** only by BIT, PLP and RTI. -/
theorem not_both_of_owned (h : m.execution? tracing = some e)
    (howned : (Component.flag .zero).ownedBy e.instruction)
    (hnot : e.instruction.operation ∉ [.testBits, .pullStatus, .returnFromInterrupt]) :
    (e.after.status.get .zero && e.after.status.get .negative) = false := by
  obtain ⟨-, hafter, -, before, bus, hexecutes⟩ := executes_of_execution? h
  obtain ⟨last, ⟨v, hlast⟩, hend⟩ := hexecutes.ends fun operand action pc spent _ haction =>
    Operation.always_tells haction howned hnot { m.registers with pc := pc, stepCycles := spent }
  have hstatus : e.after.status = last.status := by
    rw [hafter, next, hend]
    rfl
  rw [hstatus]
  exact hlast.not_both

end Machine

/-! ## Every run -/

/-- The executions of RTI. -/
def Execution.returns (e : Execution) : Bool := e.instruction.operation = .returnFromInterrupt

/-- The executions of an instruction that writes zero and negative. -/
def Execution.tells (e : Execution) : Bool := (Component.flag .zero).ownedBy e.instruction

namespace Machine

variable {β : Type} [Bus β] (m : Machine β) (traced : List Bool)

/-- **Bits 4 and 5** after a run are what the latest RTI has made of the byte that it pulled. -/
theorem get_eq_latest_returns {f : Flag} (hf : f = .breakCommand ∨ f = .unused) :
    (m.after traced).registers.status.get f =
      ((Execution.latest Execution.returns (m.executions traced)).map fun e =>
        (Status.pullForced e.pulled).get f).getD (m.registers.status.get f) := by
  have hkeeps : ∀ (m : Machine β) tracing e, m.execution? tracing = some e → e.returns = false →
      e.after.status.get f = e.before.status.get f := by
    intro m tracing e hexecution hnot
    exact kept_of_execution? hexecution (c := .flag f)
      (Component.not_ownedBy_of_ne hf (of_decide_eq_false hnot))
  rw [after_eq_latest Execution.returns (fun r => r.status.get f) hkeeps]
  cases hlatest : Execution.latest Execution.returns (m.executions traced) with
  | none => rfl
  | some e =>
    obtain ⟨hmem, hreturns⟩ := Execution.mem_of_latest hlatest
    obtain ⟨m, tracing, hexecution⟩ := exists_of_mem_executions hmem
    obtain ⟨hpulled, -⟩ := status_of_returnFromInterrupt hexecution (of_decide_eq_true hreturns)
    exact congrArg (Status.get · f) hpulled

/-- **Zero and negative**, if not both set before a run, are both set after it only where BIT, PLP
    or RTI was the latest instruction to write them. -/
theorem exists_latest_tells_of_both
    (hbefore : (m.registers.status.get .zero && m.registers.status.get .negative) = false)
    (hzero : (m.after traced).registers.status.get .zero = true)
    (hnegative : (m.after traced).registers.status.get .negative = true) :
    ∃ e, Execution.latest Execution.tells (m.executions traced) = some e ∧
      e.instruction.operation ∈ [.testBits, .pullStatus, .returnFromInterrupt] := by
  -- what does not own zero does not own negative either
  have hkeeps : ∀ (m : Machine β) tracing e, m.execution? tracing = some e → e.tells = false →
      (e.after.status.get .zero && e.after.status.get .negative) =
        (e.before.status.get .zero && e.before.status.get .negative) := by
    intro m tracing e hexecution hnot
    have hz : e.after.status.get .zero = e.before.status.get .zero :=
      kept_of_execution? hexecution (c := .flag .zero) hnot
    have hn : e.after.status.get .negative = e.before.status.get .negative :=
      kept_of_execution? hexecution (c := .flag .negative) hnot
    rw [hz, hn]
  have hboth := after_eq_latest Execution.tells
    (fun r => r.status.get .zero && r.status.get .negative) hkeeps m traced
  rw [hzero, hnegative, hbefore] at hboth
  cases hlatest : Execution.latest Execution.tells (m.executions traced) with
  | none =>
    rw [hlatest] at hboth
    exact absurd hboth (by decide)
  | some e =>
    obtain ⟨hmem, htells⟩ := Execution.mem_of_latest hlatest
    obtain ⟨m, tracing, hexecution⟩ := exists_of_mem_executions hmem
    refine ⟨e, rfl, Decidable.byContradiction fun hnot => ?_⟩
    rw [hlatest] at hboth
    exact absurd (hboth.trans (not_both_of_owned hexecution htells hnot)) (by decide)

end Machine

/-- **The status register in every run.**  After a reset and any number of steps, on any bus, bit 5
    is set; bit 4 is that of the byte that the latest RTI pulled, and 0 before there was one; zero
    and negative are both set only where BIT, PLP or RTI was the latest instruction to write them;
    and every PHP has stored, as its only write, the register with bits 4 and 5 set. -/
theorem status_of_every_run {β : Type} [Bus β] (bus : β) (traced : List Bool) :
    let start := Machine.afterReset bus
    let history := start.executions traced
    let status := (start.after traced).registers.status
    status.get .unused = true ∧
    status.get .breakCommand =
      ((Execution.latest Execution.returns history).map fun e => testBit e.pulled 4).getD false ∧
    (status.get .zero = true → status.get .negative = true →
      ∃ e, Execution.latest Execution.tells history = some e ∧
        e.instruction.operation ∈ [.testBits, .pullStatus, .returnFromInterrupt]) ∧
    (∀ e ∈ history, e.instruction.operation = .returnFromInterrupt →
      ∃ front lo hi, e.accesses = front ++
        [.read (stackCell (e.before.sp + 1)) e.pulled, .read (stackCell (e.before.sp + 2)) lo,
          .read (stackCell (e.before.sp + 3)) hi]) ∧
    ∀ e ∈ history, e.instruction.operation = .pushStatus →
      ∃ v, e.writes = [.write (stackCell e.before.sp) v] ∧
        testBit v 4 = true ∧ testBit v 5 = true ∧
        ∀ f : Flag, f ≠ .breakCommand → f ≠ .unused →
          testBit v f.bit = e.before.status.get f := by
  intro start history status
  have hstart : start.registers.status = .powerUp := rfl
  refine ⟨?_, ?_, ?_, ?_, ?_⟩
  · refine (start.get_eq_latest_returns traced (.inr rfl)).trans ?_
    rw [hstart]
    cases Execution.latest Execution.returns history with
    | none => rfl
    | some e => exact Status.get_pullForced e.pulled .unused
  · refine (start.get_eq_latest_returns traced (.inl rfl)).trans ?_
    rw [hstart]
    cases Execution.latest Execution.returns history with
    | none => rfl
    | some e => exact Status.get_pullForced e.pulled .breakCommand
  · exact start.exists_latest_tells_of_both traced (by rw [hstart]; decide)
  · intro e hmem hoperation
    obtain ⟨m, tracing, hexecution⟩ := Machine.exists_of_mem_executions hmem
    exact (Machine.status_of_returnFromInterrupt hexecution hoperation).2
  · intro e hmem hoperation
    obtain ⟨m, tracing, hexecution⟩ := Machine.exists_of_mem_executions hmem
    have hpushed := e.before.status.get_pushed
    refine ⟨e.before.status.pushed, Machine.writes_of_pushStatus hexecution hoperation, ?_, ?_, ?_⟩
    · exact (hpushed .breakCommand).trans (by simp)
    · exact (hpushed .unused).trans (by simp)
    · intro f hbreak hunused
      rw [hpushed f]
      simp [hbreak, hunused]

/-- RTI that pulls $92 and then PHP: zero and negative are both set, and so is bit 4. -/
theorem status_of_every_run_return_push :
    let bus : Script := ⟨[0x00, 0x80, 0x40, 0x92, 0x00, 0x90, 0x08]⟩
    let start := Machine.afterReset bus
    let history := start.executions [false, false]
    history.map (fun e => e.instruction.operation) = [.returnFromInterrupt, .pushStatus] ∧
      (start.after [false, false]).registers.status.byte = 0xB2 ∧
      ∃ e, Execution.latest Execution.tells history = some e ∧
        e.instruction.operation ∈ [.testBits, .pullStatus, .returnFromInterrupt] := by
  intro bus start history
  have hhistory : history.map (fun e => e.instruction.operation) =
      [.returnFromInterrupt, .pushStatus] := by decide
  have hbyte : (start.after [false, false]).registers.status.byte = 0xB2 := by decide
  obtain ⟨-, -, hboth, -, -⟩ := status_of_every_run bus [false, false]
  exact ⟨hhistory, hbyte, hboth (by decide) (by decide)⟩

end Nes.Cpu
