/-
  Influence: which cells of memory have a say in a run.

  A run that writes a cell before it reads it does not learn what was there, and of a cell that it
  never touches it learns nothing either.  So two flat memories that agree on the cells whose FIRST
  access is a read cannot be told apart by the run, however much it writes over its own program.

  1. **What lies ahead**: `ReadFirst` picks these cells out of a list of accesses, and two memories
     are `Alike` for the accesses ahead if they agree on them.  An access made on both sides leaves
     them alike for the accesses behind it, and makes them agree on its own cell (`Alike.apply`).
  2. **Computations**: what a computation does on one of two memories that are alike for its
     accesses, it does on the other (`Alike.perform`).
  3. **Runs**: an induction on the steps carries this through the run (`Alike.run`).  The memory
     left is told by the accesses alone (`bus_run`), so in the end the two agree wherever the run
     has been (`run_of_agreement`).
-/
import Nes.Proofs.Cpu.Executing
import Nes.Proofs.Cpu.Reaching
import Nes.Proofs.Cpu.Transfer

namespace Nes

/-! ## What lies ahead -/

/-- The first of the accesses at an address is a read. -/
def ReadFirst (accesses : List Access) (addr : UInt16) : Prop :=
  (accesses.find? fun access => access.addr = addr).any Access.isRead

/-- The two memories agree on every cell that the accesses ahead read first. -/
def Alike (ahead : List Access) (ram ram' : Ram) : Prop :=
  ∀ addr, ReadFirst ahead addr → ram'.get addr = ram.get addr

theorem readFirst_cons (access : Access) (rest : List Access) (addr : UInt16) :
    ReadFirst (access :: rest) addr ↔
      if access.addr = addr then (access.isRead : Prop) else ReadFirst rest addr := by
  by_cases h : access.addr = addr <;> simp [ReadFirst, h]

/-- An access made on both sides keeps two cells equal. -/
theorem get_apply_congr {ram ram' : Ram} {addr : UInt16} (h : ram'.get addr = ram.get addr)
    (access : Access) :
    (Access.apply ram' access).get addr = (Access.apply ram access).get addr := by
  cases access with
  | read cell value => exact h
  | write cell value =>
    show (ram'.set cell value).get addr = (ram.set cell value).get addr
    rw [Ram.get_set, Ram.get_set, h]

/-- So do any number of accesses. -/
theorem get_foldl_apply_congr {ram ram' : Ram} {addr : UInt16} (h : ram'.get addr = ram.get addr)
    (accesses : List Access) :
    (accesses.foldl Access.apply ram').get addr = (accesses.foldl Access.apply ram).get addr := by
  induction accesses generalizing ram ram' with
  | nil => exact h
  | cons access rest ih => exact ih (get_apply_congr h access)

namespace Alike

variable {ram ram' : Ram} {rest ahead : List Access}

/-- **One access on both sides**: the memories are alike for what comes behind it, and agree on its
    cell. -/
theorem apply (access : Access) (h : Alike (access :: rest) ram ram') :
    Alike rest (Access.apply ram access) (Access.apply ram' access) ∧
      (Access.apply ram' access).get access.addr = (Access.apply ram access).get access.addr := by
  have hcell :
      (Access.apply ram' access).get access.addr = (Access.apply ram access).get access.addr := by
    cases access with
    | read cell value =>
      have hfirst : ReadFirst (.read cell value :: rest) cell := by
        rw [readFirst_cons]
        exact if_pos rfl ▸ rfl
      exact h cell hfirst
    | write cell value =>
      show (ram'.set cell value).get cell = (ram.set cell value).get cell
      rw [Ram.get_set, Ram.get_set, if_pos rfl, if_pos rfl]
  refine ⟨fun addr hfirst => ?_, hcell⟩
  by_cases hsame : access.addr = addr
  · exact hsame ▸ hcell
  · refine get_apply_congr (h addr ((readFirst_cons _ _ _).mpr ?_)) access
    rwa [if_neg hsame]

/-- When all accesses have been made on both sides, the memories agree on every cell accessed. -/
theorem get_foldl_apply {accesses : List Access} (h : Alike accesses ram ram') :
    ∀ access ∈ accesses,
      (accesses.foldl Access.apply ram').get access.addr =
        (accesses.foldl Access.apply ram).get access.addr := by
  induction accesses generalizing ram ram' with
  | nil => exact nofun
  | cons first rest ih =>
    obtain ⟨hrest, hfirst⟩ := apply first h
    intro access hmem
    rcases List.mem_cons.mp hmem with rfl | hlater
    · exact get_foldl_apply_congr hfirst rest
    · exact ih hrest access hlater

/-! ## Computations -/

/-- **A computation does the same on two memories that are alike for its accesses** and for those
    ahead of it, and leaves them alike for the latter. -/
theorem perform {α : Type} (t : Traffic α)
    (h : Alike ((t.perform ram).accesses ++ ahead) ram ram') :
    (t.perform ram').answer = (t.perform ram).answer ∧
      (t.perform ram').accesses = (t.perform ram).accesses ∧
      Alike ahead (t.perform ram).bus (t.perform ram').bus := by
  induction t generalizing ram ram' with
  | done a => exact ⟨rfl, rfl, h⟩
  | read addr next ih =>
    obtain ⟨hrest, hcell⟩ := apply (.read addr (ram.get addr)) h
    obtain ⟨hanswer, haccesses, hahead⟩ := ih (ram.get addr) hrest
    -- both memories answer with the same byte, so both sides go on in the same way
    have hvalue : ram'.get addr = ram.get addr := hcell
    have hstep : (Traffic.read addr next).perform ram' =
        { (next (ram.get addr)).perform ram' with
          accesses := .read addr (ram.get addr) :: ((next (ram.get addr)).perform ram').accesses
          records := [] ++ ((next (ram.get addr)).perform ram').records } := by
      rw [← hvalue]
      rfl
    rw [hstep]
    exact ⟨hanswer, congrArg (Access.read addr (ram.get addr) :: ·) haccesses, hahead⟩
  | write addr value next ih =>
    obtain ⟨hrest, -⟩ := apply (.write addr value) h
    obtain ⟨hanswer, haccesses, hahead⟩ := ih hrest
    exact ⟨hanswer, congrArg (Access.write addr value :: ·) haccesses, hahead⟩
  | report record next ih => exact ih h

end Alike

namespace Cpu.Machine

/-! ## Runs -/

/-- What each step of a run showed, that which failed included. -/
def trail {β : Type} [Bus β] (tracing : Bool) : Nat → Machine β → List Attempt
  | 0, _ => []
  | count + 1, m =>
    match (m.step tracing).answer.outcome with
    | .error _ => [m.attempt tracing]
    | .ok _ => m.attempt tracing :: trail tracing count (m.next tracing)

/-- The memory that a run leaves is the memory before it with the writes of the run made one after
    the other. -/
theorem bus_run {β : Type} [Bus β] [PassiveBus β] (tracing : Bool) (count : Nat) (m : Machine β) :
    (run tracing count m).machine.bus =
      (run tracing count m).accesses.foldl Access.apply m.bus := by
  induction count generalizing m with
  | zero => rfl
  | succ count ih =>
    have hstep : (m.next tracing).bus = (m.step tracing).accesses.foldl Access.apply m.bus :=
      Traffic.bus_perform (m.registers.step tracing) m.bus
    rw [run_succ]
    cases (m.step tracing).answer.outcome with
    | error failure => exact hstep
    | ok cycles =>
      dsimp only
      rw [ih, hstep, List.foldl_append]

section

variable {β : Type} [Bus β] {m : Machine β} {tracing : Bool}

theorem trail_of_error {failure : StepError}
    (h : (m.step tracing).answer.outcome = .error failure) (count : Nat) :
    trail tracing (count + 1) m = [m.attempt tracing] := by
  rw [trail, h]

theorem trail_of_ok {cycles : UInt8} (h : (m.step tracing).answer.outcome = .ok cycles)
    (count : Nat) :
    trail tracing (count + 1) m = m.attempt tracing :: trail tracing count (m.next tracing) := by
  rw [trail, h]

end

variable {r : Registers} {ram ram' : Ram}

/-- Two runs of the same length came to the same at each step, and made the same accesses. -/
structure SameRun (tracing : Bool) (count : Nat) (m m' : Machine Ram) : Prop where
  accesses_eq : (run tracing count m').accesses = (run tracing count m).accesses
  trail_eq : trail tracing count m' = trail tracing count m
  states_eq : (run tracing count m').states = (run tracing count m).states
  failure_eq : (run tracing count m').failure = (run tracing count m).failure
  registers_eq :
    (run tracing count m').machine.registers = (run tracing count m).machine.registers

/-- **One step**: on memory that is alike for its accesses it shows the same, and leaves the
    memories alike for what lies ahead. -/
theorem attempt_of_alike (tracing : Bool) {ahead : List Access}
    (h : Alike (((⟨r, ram⟩ : Machine Ram).step tracing).accesses ++ ahead) ram ram') :
    (⟨r, ram'⟩ : Machine Ram).attempt tracing = (⟨r, ram⟩ : Machine Ram).attempt tracing ∧
      ∃ q later later', (⟨r, ram⟩ : Machine Ram).next tracing = ⟨q, later⟩ ∧
        (⟨r, ram'⟩ : Machine Ram).next tracing = ⟨q, later'⟩ ∧ Alike ahead later later' := by
  obtain ⟨hanswer, haccesses, hahead⟩ := Alike.perform (r.step tracing) h
  constructor
  · show Attempt.mk ((r.step tracing).perform ram').answer
      ((r.step tracing).perform ram').accesses = _
    rw [hanswer, haccesses]
    rfl
  · refine ⟨_, _, _, rfl, ?_, hahead⟩
    show Machine.mk ((r.step tracing).perform ram').answer.registers _ = _
    rw [hanswer]
    rfl

/-- **A run on memory that is alike for its accesses is the same run.** -/
theorem sameRun_of_alike (tracing : Bool) (count : Nat)
    (h : Alike (run tracing count ⟨r, ram⟩).accesses ram ram') :
    SameRun tracing count ⟨r, ram⟩ ⟨r, ram'⟩ := by
  induction count generalizing r ram ram' with
  | zero => exact ⟨rfl, rfl, rfl, rfl, rfl⟩
  | succ count ih =>
    let m : Machine Ram := ⟨r, ram⟩
    let m' : Machine Ram := ⟨r, ram'⟩
    cases houtcome : (m.step tracing).answer.outcome with
    | error failure =>
      have hlast : Alike ((m.step tracing).accesses ++ []) ram ram' := by
        rw [run_of_error houtcome] at h
        rwa [List.append_nil]
      obtain ⟨hattempt, q, later, later', hnext, hnext', -⟩ := attempt_of_alike tracing hlast
      have houtcome' : (m'.step tracing).answer.outcome = .error failure :=
        (congrArg (fun a => a.stepped.outcome) hattempt).trans houtcome
      have haccesses : (m'.step tracing).accesses = (m.step tracing).accesses :=
        congrArg Attempt.accesses hattempt
      constructor
      · rw [run_of_error houtcome, run_of_error houtcome', haccesses]
      · rw [trail_of_error houtcome, trail_of_error houtcome', hattempt]
      · rw [run_of_error houtcome, run_of_error houtcome']
      · rw [run_of_error houtcome, run_of_error houtcome']
      · rw [run_of_error houtcome, run_of_error houtcome', hnext, hnext']
    | ok cycles =>
      have hall : Alike ((m.step tracing).accesses ++
          (run tracing count (m.next tracing)).accesses) ram ram' := by
        rwa [run_of_ok houtcome] at h
      obtain ⟨hattempt, q, later, later', hnext, hnext', hahead⟩ := attempt_of_alike tracing hall
      have houtcome' : (m'.step tracing).answer.outcome = .ok cycles :=
        (congrArg (fun a => a.stepped.outcome) hattempt).trans houtcome
      have haccesses : (m'.step tracing).accesses = (m.step tracing).accesses :=
        congrArg Attempt.accesses hattempt
      have hbehind : Alike (run tracing count ⟨q, later⟩).accesses later later' := by
        rwa [← hnext]
      obtain ⟨hrest, htrail, hstates, hfailure, hregisters⟩ := ih hbehind
      constructor
      · rw [run_of_ok houtcome, run_of_ok houtcome', haccesses, hnext, hnext', hrest]
      · rw [trail_of_ok houtcome, trail_of_ok houtcome', hattempt, hnext, hnext', htrail]
      · rw [run_of_ok houtcome, run_of_ok houtcome', hnext, hnext', hstates]
      · rw [run_of_ok houtcome, run_of_ok houtcome', hnext, hnext', hfailure]
      · rw [run_of_ok houtcome, run_of_ok houtcome', hnext, hnext', hregisters]

/-- **Memory that a run never reads has no influence on it.**  Let a second memory agree with the
    first on every cell whose first access in the run is a read.  Then the run on the second is the
    same: it makes the same accesses with the same values, comes to the same cycles or failure and
    the same registers at each step, and leaves the two memories equal on every cell accessed. -/
theorem run_of_agreement (tracing : Bool) (count : Nat) (r : Registers) (ram ram' : Ram)
    (hagree : ∀ addr, ReadFirst (run tracing count ⟨r, ram⟩).accesses addr →
      ram'.get addr = ram.get addr) :
    let first := run tracing count (⟨r, ram⟩ : Machine Ram)
    let second := run tracing count (⟨r, ram'⟩ : Machine Ram)
    second.accesses = first.accesses ∧
      trail tracing count (⟨r, ram'⟩ : Machine Ram) = trail tracing count ⟨r, ram⟩ ∧
      second.states = first.states ∧ second.failure = first.failure ∧
      second.machine.registers = first.machine.registers ∧
      ∀ access ∈ first.accesses,
        second.machine.bus.get access.addr = first.machine.bus.get access.addr := by
  intro first second
  have hsame := sameRun_of_alike tracing count hagree
  refine ⟨hsame.accesses_eq, hsame.trail_eq, hsame.states_eq, hsame.failure_eq,
    hsame.registers_eq, ?_⟩
  have hbus : first.machine.bus = first.accesses.foldl Access.apply ram :=
    bus_run tracing count ⟨r, ram⟩
  have hbus' : second.machine.bus = first.accesses.foldl Access.apply ram' :=
    (bus_run tracing count ⟨r, ram'⟩).trans (by rw [hsame.accesses_eq])
  rw [hbus, hbus']
  exact Alike.get_foldl_apply hagree

/-- The accesses of `STA $10` and then `LDA $10`, at the start of memory. -/
theorem accesses_store_load (ram : Ram) (r : Registers) (hpc : r.pc = 0) (h0 : ram.get 0 = 0x85)
    (h1 : ram.get 1 = 0x10) (h2 : ram.get 2 = 0xA5) (h3 : ram.get 3 = 0x10) :
    ∃ v, (run false 2 (⟨r, ram⟩ : Machine Ram)).accesses =
      [.read 0 0x85, .read 1 0x10, .write 0x0010 r.a, .read 2 0xA5, .read 3 0x10,
        .read 0x0010 v] := by
  let store : Instruction := ⟨.store .a, .zeroPage⟩
  let load : Instruction := ⟨.load .a, .zeroPage⟩
  have hstore : Instruction.decode? (ram.get r.pc) = some store := by
    rw [hpc, h0]
    decide
  let later : Ram := ram.set 0x0010 r.a
  let q : Registers := store.outcome ram.get r
  have hnext : (⟨r, ram⟩ : Machine Ram).next false = ⟨q, later⟩ := by
    rw [next_of_decode? false hstore rfl]
    show Machine.mk q (ram.set (ram.get (r.pc + 1)).toUInt16 r.a) = _
    rw [hpc, show ram.get (0 + 1) = 0x10 from h1]
    rfl
  have hq : q.pc = 2 := by
    show r.pc + 2 = 2
    rw [hpc]
    rfl
  have hkept : later.get 2 = 0xA5 ∧ later.get 3 = 0x10 := by
    rw [Ram.get_set, Ram.get_set, h2, h3]
    exact ⟨rfl, rfl⟩
  have hload : Instruction.decode? (later.get q.pc) = some load := by
    rw [hq, hkept.1]
    decide
  have hstep := r.actsAs_step ram false hstore rfl
  have hstep' := q.actsAs_step later false hload rfl
  have hok : ((⟨r, ram⟩ : Machine Ram).step false).answer.outcome =
      .ok (store.outcome ram.get r).stepCycles := congrArg Stepped.outcome hstep.answer_eq
  have hok' : ((⟨q, later⟩ : Machine Ram).step false).answer.outcome =
      .ok (load.outcome later.get q).stepCycles := congrArg Stepped.outcome hstep'.answer_eq
  have hfirst : ((⟨r, ram⟩ : Machine Ram).step false).accesses =
      [.read 0 0x85, .read 1 0x10, .write 0x0010 r.a] := by
    refine hstep.accesses_eq.trans ?_
    show [Access.read r.pc (ram.get r.pc), .read (r.pc + 1 + 0) (ram.get (r.pc + 1 + 0)),
      .write (ram.get (r.pc + 1)).toUInt16 r.a] = _
    rw [hpc]
    show [Access.read 0 (ram.get 0), .read 1 (ram.get 1), .write (ram.get 1).toUInt16 r.a] = _
    rw [h0, h1]
    rfl
  have hsecond : ((⟨q, later⟩ : Machine Ram).step false).accesses =
      [.read 2 0xA5, .read 3 0x10, .read 0x0010 (later.get 0x0010)] := by
    refine hstep'.accesses_eq.trans ?_
    show [Access.read q.pc (later.get q.pc), .read (q.pc + 1 + 0) (later.get (q.pc + 1 + 0)),
      .read (later.get (q.pc + 1)).toUInt16 (later.get (later.get (q.pc + 1)).toUInt16)] = _
    rw [hq]
    show [Access.read 2 (later.get 2), .read 3 (later.get 3),
      .read (later.get 3).toUInt16 (later.get (later.get 3).toUInt16)] = _
    rw [hkept.1, hkept.2]
    rfl
  refine ⟨later.get 0x0010, ?_⟩
  rw [run_of_ok hok, hnext, run_of_ok hok', hfirst, hsecond]
  rfl

/-- `STA $10` and then `LDA $10`: what was in $0010 before does not matter, and neither does a cell
    that is never touched. -/
theorem run_of_agreement_store_load :
    let ram : Ram := .ofBytes ⟨#[0x85, 0x10, 0xA5, 0x10]⟩
    let ram' : Ram := (ram.set 0x0010 0x99).set 0x0200 0x77
    let r : Registers := { Registers.powerUp with a := 0x42 }
    (run false 2 (⟨r, ram'⟩ : Machine Ram)).states = (run false 2 (⟨r, ram⟩ : Machine Ram)).states ∧
      (run false 2 (⟨r, ram'⟩ : Machine Ram)).machine.bus.get 0x0010 =
        (run false 2 (⟨r, ram⟩ : Machine Ram)).machine.bus.get 0x0010 := by
  intro ram ram' r
  obtain ⟨v, haccesses⟩ := accesses_store_load ram r rfl
    (Ram.get_ofBytes _ 0) (Ram.get_ofBytes _ 1) (Ram.get_ofBytes _ 2) (Ram.get_ofBytes _ 3)
  obtain ⟨-, -, hstates, -, -, hafter⟩ := run_of_agreement false 2 r ram ram' fun addr hfirst => by
    rw [haccesses] at hfirst
    show ((ram.set 0x0010 0x99).set 0x0200 0x77).get addr = ram.get addr
    -- the first access to $0010 is a write, and there is none to $0200
    have hne : (0x0200 : UInt16) ≠ addr := by
      rintro rfl
      exact nomatch hfirst
    have hne' : (0x0010 : UInt16) ≠ addr := by
      rintro rfl
      exact nomatch hfirst
    rw [Ram.get_set, Ram.get_set, if_neg hne, if_neg hne']
  exact ⟨hstates, hafter (.read 0x0010 v) (haccesses ▸ by simp)⟩

end Cpu.Machine

end Nes
