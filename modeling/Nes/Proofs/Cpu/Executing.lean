/-
  Executing: what a step is on a bus of any kind.

  A bus may react to being read, and answer the same read now with one byte and now with another.
  Whatever it does, there are only two sorts of steps.

  1. **Reading only**: what comes before an instruction, its opcode and the trace line, stores
     nothing (`Traffic.NeverWrites`).
  2. **The two sorts of steps**: a step fails and leaves the registers as they are, or it executes
     an instruction behind some reads (`Machine.step_cases`).  So what every execution of every
     instruction does, every successful step does.
  3. **Every execution**: finding the operand moves PC and settles what the step costs, and that is
     all.  So what an action makes of any registers that differ in these two only, the instruction
     makes of them (`Instruction.always_execute`, and of a step `Machine.Executes.ends`).
-/
import Nes.Proofs.Cpu.Failing

namespace Nes

/-- Whether an access is a read. -/
def Access.isRead : Access → Bool
  | .read _ _ => true
  | .write _ _ => false

namespace Traffic

variable {α γ : Type}

/-! ## Reading only -/

/-- A read first gets its byte and what the bus tells of it, and then what comes of that byte. -/
theorem perform_readByte_bind {β : Type} [Bus β] (addr : UInt16) (f : UInt8 → Traffic α)
    (bus : β) :
    (readByte addr >>= f).perform bus =
      let rest := (f (Bus.read bus addr).1).perform (Bus.read bus addr).2
      { rest with
        accesses := .read addr (Bus.read bus addr).1 :: rest.accesses
        records := (Bus.readNote bus addr).toList ++ rest.records } := rfl

/-- The computation stores nothing, whatever it reads. -/
def NeverWrites : Traffic α → Prop
  | .done _ => True
  | .read _ next => ∀ value, (next value).NeverWrites
  | .write _ _ _ => False
  | .report _ next => next.NeverWrites

theorem NeverWrites.bind {t : Traffic α} {f : α → Traffic γ} (ht : t.NeverWrites)
    (hf : ∀ a, (f a).NeverWrites) : (t >>= f).NeverWrites := by
  induction t with
  | done a => exact hf a
  | read addr next ih => exact fun value => ih value (ht value)
  | write addr value next ih => exact ht.elim
  | report record next ih => exact ih ht

/-- On each bus it makes reads only. -/
theorem NeverWrites.perform {β : Type} [Bus β] {t : Traffic α} (h : t.NeverWrites) (bus : β) :
    ∀ access ∈ (t.perform bus).accesses, access.isRead := by
  induction t generalizing bus with
  | done a => exact nofun
  | read addr next ih =>
    intro access hmem
    rcases List.mem_cons.mp hmem with rfl | hrest
    · rfl
    · exact ih (Bus.read bus addr).1 (h _) (Bus.read bus addr).2 access hrest
  | write addr value next ih => exact h.elim
  | report record next ih => exact ih h bus

theorem neverWrites_readBlock (addr : UInt16) (count : Nat) :
    (readBlock addr count).NeverWrites := by
  induction count generalizing addr with
  | zero => exact trivial
  | succ count ih =>
    rw [readBlock_succ]
    exact NeverWrites.bind (fun _ => trivial) fun value => (ih (addr + 1)).bind fun _ => trivial

/-! ## Every answer -/

theorem Always.mono {P Q : α → Prop} {t : Traffic α} (h : t.Always P) (hPQ : ∀ a, P a → Q a) :
    t.Always Q := by
  induction t with
  | done a => exact hPQ a h
  | read addr next ih => exact fun value => ih value (h value)
  | write addr value next ih => exact ih h
  | report record next ih => exact ih h

/-- What holds of everything holds of every answer. -/
theorem always_of_forall {P : α → Prop} (h : ∀ a, P a) (t : Traffic α) : t.Always P := by
  induction t with
  | done a => exact h a
  | read addr next ih => exact ih
  | write addr value next ih => exact ih
  | report record next ih => exact ih

end Traffic

namespace Cpu

theorem Registers.neverWrites_trace (r : Registers) (tracing : Bool) :
    (r.trace tracing).NeverWrites := by
  cases tracing with
  | false => exact trivial
  | true =>
    have hline : r.traceLine.NeverWrites :=
      Traffic.NeverWrites.bind (fun _ => trivial) fun opcode =>
        (Traffic.neverWrites_readBlock r.pc (lengthAt opcode)).bind fun _ => trivial
    exact hline.bind fun _ => trivial

/-! ## The two sorts of steps -/

namespace Machine

variable {β : Type} [Bus β]

/-- In the step of `m` the instruction `i` is executed, on `bus` and behind the accesses
    `before`. -/
structure Executes (m : Machine β) (tracing : Bool) (i : Instruction) (before : List Access)
    (bus : β) : Prop where
  decode?_eq : Instruction.decode? (Bus.peek m.bus m.registers.pc) = some i
  isImplemented : i.isImplemented
  isRead : ∀ access ∈ before, access.isRead
  answer_eq : (m.step tracing).answer = ((i.execute m.registers).perform bus).answer
  accesses_eq : (m.step tracing).accesses =
    before ++ ((i.execute m.registers).perform bus).accesses

/-- **A step on any bus** fails and leaves the registers as they are, or executes an instruction. -/
theorem step_cases (m : Machine β) (tracing : Bool) :
    (∃ failure, (m.step tracing).answer = ⟨.error failure, m.registers⟩) ∨
      ∃ i before bus, m.Executes tracing i before bus := by
  obtain ⟨r, bus⟩ := m
  cases hdecode : Instruction.decode? (Bus.read bus r.pc).1 with
  | none =>
    refine .inl ⟨.unknownOpcode (Bus.read bus r.pc).1 r.pc, ?_⟩
    unfold step Registers.step
    rw [Traffic.perform_readByte_bind, hdecode]
    rfl
  | some i =>
    cases himplemented : i.isImplemented with
    | false =>
      refine .inl ⟨.unimplementedOpcode (Bus.read bus r.pc).1 i.operation r.pc, ?_⟩
      unfold step Registers.step
      rw [Traffic.perform_readByte_bind, hdecode]
      dsimp only
      rw [himplemented]
      rfl
    | true =>
      have htrace := (r.neverWrites_trace tracing).perform (Bus.read bus r.pc).2
      refine .inr ⟨i, .read r.pc (Bus.read bus r.pc).1 ::
        ((r.trace tracing).perform (Bus.read bus r.pc).2).accesses,
        ((r.trace tracing).perform (Bus.read bus r.pc).2).bus, hdecode, himplemented, ?_, ?_, ?_⟩
      · intro access hmem
        rcases List.mem_cons.mp hmem with rfl | hrest
        · rfl
        · exact htrace access hrest
      · unfold step Registers.step
        rw [Traffic.perform_readByte_bind, hdecode]
        dsimp only
        rw [if_pos himplemented, Traffic.perform_bind]
      · unfold step Registers.step
        rw [Traffic.perform_readByte_bind, hdecode]
        dsimp only
        rw [if_pos himplemented, Traffic.perform_bind]
        rfl

/-- A step that succeeds executes an instruction. -/
theorem executes_of_ok {m : Machine β} {tracing : Bool} {cycles : UInt8}
    (h : (m.step tracing).answer.outcome = .ok cycles) :
    ∃ i before bus, m.Executes tracing i before bus := by
  rcases m.step_cases tracing with ⟨failure, hfails⟩ | hexecutes
  · rw [hfails] at h
    exact nomatch h
  · exact hexecutes

end Machine

/-! ## Every execution -/

namespace Operand

variable {operand : Operand} {r : Registers} {P : Registers → Prop}

/-- What holds whatever the value, holds after the value has been used. -/
theorem always_using? {f : UInt8 → Registers → Registers} {action : Registers → Traffic Registers}
    (h : operand.using? f = some action) (hf : ∀ v, P (f v r)) : (action r).Always P := by
  obtain ⟨value, hvalue, rfl⟩ := Option.map_eq_some_iff.mp h
  cases operand with
  | accumulator => cases hvalue; exact hf r.a
  | immediate v => cases hvalue; exact hf v
  | address addr => cases hvalue; exact fun v => hf v
  | implied | relative _ => cases hvalue

theorem always_place? {place : UInt8 → Registers → Traffic Registers} {v : UInt8}
    (h : operand.place? = some place) (hkeep : P (operand.keep v r)) : (place v r).Always P := by
  cases operand with
  | accumulator => cases h; exact hkeep
  | address addr => cases h; exact hkeep
  | implied | immediate _ | relative _ => cases h

/-- What holds whatever the old value, holds after the value has been changed in its place. -/
theorem always_modify? {f : UInt8 → Registers → UInt8} {flags : UInt8 → Registers → Registers}
    {action : Registers → Traffic Registers} (h : operand.modify? f flags = some action)
    (hkeep : ∀ v, P ((operand.keep (f v r) (flags v r)).putNZ (f v r))) :
    (action r).Always P := by
  cases operand with
  | accumulator => cases h; exact hkeep r.a
  | address addr => cases h; exact fun v => hkeep v
  | implied | immediate _ | relative _ => cases h

end Operand

/-- A page crossing is paid for in the cycles of the step alone. -/
theorem Registers.exists_paid {r found : Registers} {pc : UInt16} {spent : UInt8}
    (h : found = { r with pc := pc, stepCycles := spent }) (pays : Bool) :
    ∃ total, (if pays then { found with stepCycles := found.stepCycles + 1 } else found) =
      { r with pc := pc, stepCycles := total } := by
  subst h
  split
  · exact ⟨_, rfl⟩
  · exact ⟨_, rfl⟩

/-- When the operation is done, what the step has taken is returned and added to the total. -/
def Registers.finish (last : Registers) : Stepped :=
  ⟨.ok last.stepCycles, { last with cycles := last.cycles + last.stepCycles.toUInt64 }⟩

/-- **Every execution on any bus** ends where an action of the operation ends that has begun with
    the registers of the step, PC and the cycles of the step apart. -/
theorem Instruction.always_execute {i : Instruction} {P : Registers → Prop} {r : Registers}
    (haccepts : i.operation.accepts i.mode.kind)
    (h : ∀ operand action pc spent, operand.kind = i.mode.kind →
      i.operation.action? operand = some action →
      (action { r with pc := pc, stepCycles := spent }).Always P) :
    (i.execute r).Always fun stepped => ∃ last, P last ∧ stepped = last.finish := by
  rw [execute, Traffic.always_bind]
  refine (i.mode.always_resolve _).mono ?_
  rintro ⟨operand, crossed, found⟩ ⟨hkind, pc, hfound⟩
  obtain ⟨action, haction⟩ := Operation.exists_action? haccepts hkind
  dsimp only at hfound ⊢
  rw [haction]
  -- a page crossing is paid for before the operation acts
  obtain ⟨spent, hready⟩ := Registers.exists_paid hfound (crossed && i.pagePenalty)
  dsimp only
  rw [hready]
  refine Traffic.always_bind.mpr ((h operand action pc spent hkind haction).mono ?_)
  exact fun last hlast => ⟨last, hlast, rfl⟩

/-- Every step that executes an instruction succeeds, and ends where an action of its operation
    ends. -/
theorem Machine.Executes.ends {β : Type} [Bus β] {m : Machine β} {tracing : Bool} {i : Instruction}
    {before : List Access} {bus : β} (h : m.Executes tracing i before bus) {P : Registers → Prop}
    (hactions : ∀ operand action pc spent, operand.kind = i.mode.kind →
      i.operation.action? operand = some action →
      (action { m.registers with pc := pc, stepCycles := spent }).Always P) :
    ∃ last, P last ∧ (m.step tracing).answer = last.finish := by
  have haccepts := Instruction.accepts_of_decode? h.decode?_eq h.isImplemented
  obtain ⟨last, hlast, hfinish⟩ :=
    Traffic.always_perform (i.always_execute haccepts hactions) bus
  exact ⟨last, hlast, h.answer_eq.trans hfinish⟩

end Cpu

end Nes
