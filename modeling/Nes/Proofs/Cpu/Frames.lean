/-
  Frames: what an instruction takes back from the stack that others have put there.

  The frames do not agree with each other.  A subroutine returns to the byte behind the address that
  lies on the stack, an interrupt to that address itself.  The status is pushed with bits 4 and 5
  set; PLP leaves these two bits as they are, and RTI takes bit 4 from the stack and sets bit 5.

  1. **The status on the stack**: what PLP and RTI make of the copy that PHP pushed
     (`Status.get_pull_pushed`, `Status.get_pullForced_pushed`).
  2. **Frames**: bytes that are pushed lie on the stack with the last one first, and every cell
     besides theirs is as it was (`Machine.holds_pushAll`, `Machine.get_pushAll`).
  3. **Steps**: where RTS and RTI go, what PLP takes and what PHP leaves.
  4. **There and back**: a return through a frame built by hand, and the way from PHP to PLP or to
     RTI, whatever happens in between (`Machine.returns_through_frames`).
-/
import Nes.Proofs.Cpu.Attempts
import Nes.Proofs.Cpu.Reaching
import Nes.Proofs.Cpu.Stack

namespace Nes.Cpu

/-! ## The status on the stack -/

namespace Status

/-- Pulled into `p`, the copy of `q` that was pushed leaves bits 4 and 5 as they are in `p`. -/
theorem get_pull_pushed (p q : Status) (f : Flag) :
    (p.pull q.pushed).get f =
      if f = .breakCommand ∨ f = .unused then p.get f else q.get f := by
  rw [get_pull, get_pushed]
  split
  · rfl
  · rename_i hneither
    obtain ⟨hbreak, hunused⟩ := not_or.mp hneither
    rw [decide_eq_false hbreak, decide_eq_false hunused, Bool.or_false, Bool.or_false]

/-- Pulled by a return from an interrupt, the same copy has both bits set. -/
theorem get_pullForced_pushed (q : Status) (f : Flag) :
    (pullForced q.pushed).get f =
      if f = .breakCommand ∨ f = .unused then true else q.get f := by
  rw [get_pullForced, get_pushed]
  cases f <;> simp

end Status

/-! ## Frames -/

/-- The frame from which RTS returns to `target`, in the order in which it is pushed. -/
def returnFrame (target : UInt16) : List UInt8 := [highByte (target - 1), lowByte (target - 1)]

/-- The frame from which RTI returns to `target` with the status `p`. -/
def interruptFrame (target : UInt16) (p : UInt8) : List UInt8 :=
  [highByte target, lowByte target, p]

namespace Machine

variable (m : Machine Ram) (tracing : Bool)

/-- The machine when some bytes have been pushed. -/
def pushAll (frame : List UInt8) : Machine Ram := m.stackAll (frame.map .push)

/-- Counted from the cell below, every cell below that is one nearer. -/
theorem sub_one_sub_ofNat (sp : UInt8) (n : Nat) :
    sp - 1 - UInt8.ofNat n = sp - UInt8.ofNat (n + 1) := by
  rw [UInt8.ofNat_add]
  grind

/-- Pushing moves SP down, and changes no other register. -/
theorem pushAll_registers (frame : List UInt8) :
    (m.pushAll frame).registers =
      { m.registers with sp := m.registers.sp - UInt8.ofNat frame.length } := by
  induction frame generalizing m with
  | nil =>
    show m.registers = { m.registers with sp := m.registers.sp - 0 }
    rw [UInt8.sub_zero]
  | cons value rest ih =>
    have hrest := ih (m.stack (.push value))
    rw [stack_push] at hrest
    rw [List.length_cons, ← sub_one_sub_ofNat]
    exact hrest

/-- **Only the cells of the frame are written.** -/
theorem get_pushAll {frame : List UInt8} {addr : UInt16}
    (hnot : ∀ j < frame.length, addr ≠ stackCell (m.registers.sp - UInt8.ofNat j)) :
    (m.pushAll frame).bus.get addr = m.bus.get addr := by
  induction frame generalizing m with
  | nil => rfl
  | cons value rest ih =>
    have hfirst : stackAddress m.registers.sp ≠ addr := by
      have h := hnot 0 (Nat.zero_lt_succ _)
      rw [show m.registers.sp - UInt8.ofNat 0 = m.registers.sp from UInt8.sub_zero _,
        ← stackAddress_eq_stackCell] at h
      exact h.symm
    have hrest : ((m.stack (.push value)).pushAll rest).bus.get addr =
        (m.stack (.push value)).bus.get addr := by
      refine ih _ fun j hj => ?_
      rw [stack_push]
      show addr ≠ stackCell (m.registers.sp - 1 - UInt8.ofNat j)
      rw [sub_one_sub_ofNat]
      exact hnot (j + 1) (Nat.succ_lt_succ hj)
    refine hrest.trans ?_
    show (m.bus.set (stackAddress m.registers.sp) value).get addr = _
    rw [Ram.get_set, if_neg hfirst]

/-- The frame lies on the stack, what was pushed last first. -/
theorem holds_pushAll {frame : List UInt8} (hlength : frame.length ≤ 256) :
    (m.pushAll frame).Holds frame.reverse := by
  have hholds := (Holds.nil m).pushes stackPage_ram frame
  rw [List.append_nil, List.take_of_length_le] at hholds
  · exact hholds
  · rw [List.length_reverse]
    exact hlength

/-! ## Steps -/

section

variable {m : Machine Ram}

/-- What the step at an instruction without an operand comes to. -/
theorem step_implied {opcode : UInt8} (tracing : Bool) (operation : Operation)
    (hopcode : m.bus.get m.registers.pc = opcode)
    (hdecode : Instruction.decode? opcode = some ⟨operation, .implied⟩)
    (himplemented : (Instruction.mk operation .implied).isImplemented) :
    let i : Instruction := ⟨operation, .implied⟩
    (m.step tracing).answer = ⟨.ok (i.outcome m.bus.get m.registers).stepCycles,
      i.outcome m.bus.get m.registers⟩ ∧
    (m.step tracing).bus = Traffic.storeAll m.bus (i.stores m.bus.get m.registers) := by
  subst hopcode
  have hstep := m.registers.actsAs_step m.bus tracing hdecode himplemented
  exact ⟨hstep.answer_eq, hstep.bus_eq⟩

/-- **RTS** goes to the byte behind the address on the stack. -/
theorem step_returnFromSubroutine (hopcode : m.bus.get m.registers.pc = 0x60) :
    let r := m.registers
    (m.step tracing).answer = ⟨.ok 6,
      { r with
        pc := word (r.onStack m.bus.get 1) (r.onStack m.bus.get 2) + 1
        sp := r.sp + 2
        stepCycles := 6
        cycles := r.cycles + 6 }⟩ :=
  (step_implied tracing .returnFromSubroutine hopcode (by decide) rfl).1

/-- **RTI** goes to the address that lies below the status on the stack. -/
theorem step_returnFromInterrupt (hopcode : m.bus.get m.registers.pc = 0x40) :
    let r := m.registers
    (m.step tracing).answer = ⟨.ok 6,
      { r with
        pc := word (r.onStack m.bus.get 2) (r.onStack m.bus.get 3)
        sp := r.sp + 3
        status := .pullForced (r.onStack m.bus.get 1)
        stepCycles := 6
        cycles := r.cycles + 6 }⟩ :=
  (step_implied tracing .returnFromInterrupt hopcode (by decide) rfl).1

/-- **PLP** takes the status from the stack, bits 4 and 5 apart. -/
theorem step_pullStatus (hopcode : m.bus.get m.registers.pc = 0x28) :
    let r := m.registers
    (m.step tracing).answer = ⟨.ok 4,
      { r with
        pc := r.pc + 1
        sp := r.sp + 1
        status := r.status.pull (r.onStack m.bus.get 1)
        stepCycles := 4
        cycles := r.cycles + 4 }⟩ :=
  (step_implied tracing .pullStatus hopcode (by decide) rfl).1

/-- **PHP** puts the status in the cell that SP names, and moves SP down. -/
theorem next_pushStatus (hopcode : m.bus.get m.registers.pc = 0x08) :
    let r := m.registers
    m.next tracing = ⟨{ r with
      pc := r.pc + 1
      sp := r.sp - 1
      stepCycles := 3
      cycles := r.cycles + 3 }, m.bus.set (stackAddress r.sp) r.status.pushed⟩ := by
  intro r
  obtain ⟨hanswer, hbus⟩ := step_implied tracing .pushStatus hopcode (by decide) rfl
  rw [next, hanswer, hbus]
  rfl

end

/-! ## There and back -/

/-- An opcode apart from the frame is still there when the frame has been pushed. -/
theorem opcode_pushAll {m : Machine Ram} {frame : List UInt8} {opcode : UInt8}
    (hopcode : m.bus.get m.registers.pc = opcode)
    (hapart : ∀ j < frame.length, m.registers.pc ≠ stackCell (m.registers.sp - UInt8.ofNat j)) :
    (m.pushAll frame).bus.get (m.pushAll frame).registers.pc = opcode := by
  have hpc : (m.pushAll frame).registers.pc = m.registers.pc := by
    rw [pushAll_registers]
  rw [hpc, m.get_pushAll hapart, hopcode]

/-- **RTS finds back** through a frame built by hand. -/
theorem step_returnFrame {m : Machine Ram} (hopcode : m.bus.get m.registers.pc = 0x60)
    (target : UInt16)
    (hapart : ∀ j < 2, m.registers.pc ≠ stackCell (m.registers.sp - UInt8.ofNat j)) :
    let r := m.registers
    ((m.pushAll (returnFrame target)).step tracing).answer =
      ⟨.ok 6, { r with pc := target, stepCycles := 6, cycles := r.cycles + 6 }⟩ := by
  intro r
  let pushed := m.pushAll (returnFrame target)
  have hopcode' : pushed.bus.get pushed.registers.pc = 0x60 := opcode_pushAll hopcode hapart
  have hregisters : pushed.registers = { r with sp := r.sp - 2 } := m.pushAll_registers _
  have hholds : pushed.Holds (returnFrame target).reverse :=
    m.holds_pushAll (by show 2 ≤ 256; omega)
  have hlow : pushed.registers.onStack pushed.bus.get 1 = lowByte (target - 1) :=
    hholds.onStack_eq 0 (by show 0 < 2; omega)
  have hhigh : pushed.registers.onStack pushed.bus.get 2 = highByte (target - 1) :=
    hholds.onStack_eq 1 (by show 1 < 2; omega)
  have hstep := step_returnFromSubroutine tracing hopcode'
  have hback : r.sp - 2 + 2 = r.sp := UInt8.sub_add_cancel r.sp 2
  have hbehind : target - 1 + 1 = target := UInt16.sub_add_cancel target 1
  simp only [hlow, hhigh, word_lowByte_highByte, hbehind] at hstep
  simp only [hregisters, hback] at hstep
  exact hstep

/-- **RTI finds back** through a frame built by hand, and takes the status that lies on it. -/
theorem step_interruptFrame {m : Machine Ram} (hopcode : m.bus.get m.registers.pc = 0x40)
    (target : UInt16) (p : UInt8)
    (hapart : ∀ j < 3, m.registers.pc ≠ stackCell (m.registers.sp - UInt8.ofNat j)) :
    let r := m.registers
    ((m.pushAll (interruptFrame target p)).step tracing).answer =
      ⟨.ok 6,
        { r with
          pc := target
          status := .pullForced p
          stepCycles := 6
          cycles := r.cycles + 6 }⟩ := by
  intro r
  let pushed := m.pushAll (interruptFrame target p)
  have hopcode' : pushed.bus.get pushed.registers.pc = 0x40 := opcode_pushAll hopcode hapart
  have hregisters : pushed.registers = { r with sp := r.sp - 3 } := m.pushAll_registers _
  have hholds : pushed.Holds (interruptFrame target p).reverse :=
    m.holds_pushAll (by show 3 ≤ 256; omega)
  have hstatus : pushed.registers.onStack pushed.bus.get 1 = p :=
    hholds.onStack_eq 0 (by show 0 < 3; omega)
  have hlow : pushed.registers.onStack pushed.bus.get 2 = lowByte target :=
    hholds.onStack_eq 1 (by show 1 < 3; omega)
  have hhigh : pushed.registers.onStack pushed.bus.get 3 = highByte target :=
    hholds.onStack_eq 2 (by show 2 < 3; omega)
  have hstep := step_returnFromInterrupt tracing hopcode'
  have hback : r.sp - 3 + 3 = r.sp := UInt8.sub_add_cancel r.sp 3
  simp only [hstatus, hlow, hhigh, word_lowByte_highByte] at hstep
  simp only [hregisters, hback] at hstep
  exact hstep

/-- Where SP stands as it did behind a PHP, and the cell that was written is as it was, the status
    of that time lies on the stack. -/
theorem onStack_pushStatus {m m' : Machine Ram} (hopcode : m.bus.get m.registers.pc = 0x08)
    (hsp : m'.registers.sp = (m.next tracing).registers.sp)
    (hcell : m'.bus.get (stackCell m.registers.sp) =
      (m.next tracing).bus.get (stackCell m.registers.sp)) :
    m'.registers.sp + 1 = m.registers.sp ∧
      m'.registers.onStack m'.bus.get 1 = m.registers.status.pushed := by
  rw [next_pushStatus tracing hopcode] at hsp hcell
  have hup : m'.registers.sp + 1 = m.registers.sp := by
    rw [hsp]
    exact UInt8.sub_add_cancel m.registers.sp 1
  refine ⟨hup, ?_⟩
  rw [← stackAddress_eq_stackCell] at hcell
  rw [Registers.onStack, hup, hcell, Ram.get_set]
  exact if_pos rfl

/-- **The stack gives back what was put there**, from every state of a processor on memory.  An RTS
    apart from the frame returns through two bytes that were pushed to the byte behind the address
    that they are, and an RTI through three bytes to that address, with the status that was pushed,
    bit 5 set; nothing else has changed but the cycles.  After a PHP and any steps that leave SP and
    the cell of the status as they were, a PLP gives back the flags of the time of the PHP, but for
    bits 4 and 5, which it leaves as they are; an RTI gives back the same flags and sets these two
    bits. -/
theorem returns_through_frames (m : Machine Ram) (tracing : Bool) :
    let r := m.registers
    (∀ target, (∀ j < 2, r.pc ≠ stackCell (r.sp - UInt8.ofNat j)) → m.bus.get r.pc = 0x60 →
      ((m.pushAll (returnFrame target)).step tracing).answer =
        ⟨.ok 6, { r with pc := target, stepCycles := 6, cycles := r.cycles + 6 }⟩) ∧
    (∀ target p, (∀ j < 3, r.pc ≠ stackCell (r.sp - UInt8.ofNat j)) → m.bus.get r.pc = 0x40 →
      ((m.pushAll (interruptFrame target p)).step tracing).answer =
        ⟨.ok 6, { r with
          pc := target
          status := ⟨p ||| 0x20⟩
          stepCycles := 6
          cycles := r.cycles + 6 }⟩) ∧
    (m.bus.get r.pc = 0x08 → ∀ traced last,
      let pushed := m.next tracing
      let later := pushed.after traced
      let shown := later.registers.status
      let done := (later.step last).answer
      later.registers.sp = pushed.registers.sp →
      later.bus.get (stackCell r.sp) = pushed.bus.get (stackCell r.sp) →
      (later.bus.get later.registers.pc = 0x28 →
        done.outcome = .ok 4 ∧ done.registers.sp = r.sp ∧
          ∀ f, done.registers.status.get f =
            if f = .breakCommand ∨ f = .unused then shown.get f else r.status.get f) ∧
      (later.bus.get later.registers.pc = 0x40 →
        done.outcome = .ok 6 ∧
          ∀ f, done.registers.status.get f =
            if f = .breakCommand ∨ f = .unused then true else r.status.get f)) := by
  intro r
  refine ⟨?_, ?_, ?_⟩
  · intro target hapart hopcode
    exact step_returnFrame tracing hopcode target hapart
  · intro target p hapart hopcode
    exact step_interruptFrame tracing hopcode target p hapart
  · intro hopcode traced last pushed later shown done hsp hcell
    obtain ⟨hup, hstatus⟩ := onStack_pushStatus tracing hopcode hsp hcell
    constructor
    · intro hpull
      have hdone : done = _ := step_pullStatus last hpull
      have hflags : done.registers.status = shown.pull r.status.pushed := by
        rw [hdone, ← hstatus]
      have hsp' : done.registers.sp = r.sp := by
        rw [hdone, ← hup]
      refine ⟨congrArg Stepped.outcome hdone, hsp', fun f => ?_⟩
      rw [hflags, Status.get_pull_pushed]
    · intro hreturn
      have hdone : done = _ := step_returnFromInterrupt last hreturn
      have hflags : done.registers.status = .pullForced r.status.pushed := by
        rw [hdone, ← hstatus]
      refine ⟨congrArg Stepped.outcome hdone, fun f => ?_⟩
      rw [hflags, Status.get_pullForced_pushed]

/-- With SP at the bottom of its page the frame lies around page one; and right behind a PHP a PLP
    finds what was pushed. -/
theorem returns_through_frames_around_page_one :
    let m : Machine Ram := ⟨{ Registers.powerUp with sp := 0x00 }, .ofBytes ⟨#[0x60]⟩⟩
    let m' : Machine Ram := ⟨{ Registers.powerUp with sp := 0x00 }, .ofBytes ⟨#[0x08, 0x28]⟩⟩
    ((m.pushAll (returnFrame 0x1234)).step false).answer.registers.pc = 0x1234 ∧
      ((m'.next false).step false).answer.registers.sp = 0x00 ∧
      ((m'.next false).step false).answer.registers.status.get .interruptDisable = true := by
  intro m m'
  have hopcode : m.bus.get m.registers.pc = 0x60 := Ram.get_ofBytes _ _
  have hreturned := (returns_through_frames m false).1 0x1234 (by decide) hopcode
  have hopcode' : m'.bus.get m'.registers.pc = 0x08 := Ram.get_ofBytes _ _
  have hpull : (m'.next false).bus.get (m'.next false).registers.pc = 0x28 := by
    rw [next_pushStatus false hopcode']
    show (m'.bus.set (stackAddress 0x00) _).get 0x0001 = _
    rw [Ram.get_set, if_neg (by decide)]
    exact Ram.get_ofBytes _ _
  obtain ⟨-, hsp, hflags⟩ :=
    ((returns_through_frames m' false).2.2 hopcode' [] false rfl rfl).1 hpull
  have hshown : m'.registers.status.get .interruptDisable = true := by decide
  have hdisabled := hflags .interruptDisable
  rw [if_neg (by decide), hshown, after] at hdisabled
  rw [after] at hsp
  exact ⟨congrArg (·.registers.pc) hreturned, hsp, hdisabled⟩

end Machine

end Nes.Cpu
