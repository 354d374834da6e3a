/-
  Reaching: from one machine to another in a number of successful steps.

  `Machine.run` stops at the first step that fails.  `Reaches` is the part of a run in which none
  does: steps are put together one by one, and stretches of steps end to end (`Reaches.trans`), so
  that a program is followed instruction by instruction and what is reached in the end is what the
  run shows (`Reaches.run_eq`).  Either every run from a machine goes on, or there is a number of
  steps after which one fails, and no run gets further (`FailsAfter.failure_eq_none_iff`).
-/
import Nes.Proofs.Cpu.Watching

namespace Nes.Cpu.Machine

variable {β : Type} [Bus β] {m m' m'' : Machine β} {tracing : Bool} {a b count : Nat}

/-! ## One step of a run -/

/-- A run whose first step fails is that step. -/
theorem run_of_error {failure : StepError}
    (h : (m.step tracing).answer.outcome = .error failure) (count : Nat) :
    run tracing (count + 1) m =
      ⟨m.next tracing, [], some failure, (m.step tracing).accesses, (m.step tracing).records⟩ := by
  rw [run_succ, h]

/-- A run whose first step succeeds is that step and the run behind it. -/
theorem run_of_ok {cycles : UInt8} (h : (m.step tracing).answer.outcome = .ok cycles)
    (count : Nat) :
    run tracing (count + 1) m =
      { run tracing count (m.next tracing) with
        states := (m.next tracing).registers :: (run tracing count (m.next tracing)).states
        accesses := (m.step tracing).accesses ++ (run tracing count (m.next tracing)).accesses
        records := (m.step tracing).records ++ (run tracing count (m.next tracing)).records } := by
  rw [run_succ, h]

/-! ## Any number of steps -/

/-- `count` successful steps lead from one machine to another. -/
inductive Reaches (tracing : Bool) : Nat → Machine β → Machine β → Prop
  | here (m : Machine β) : Reaches tracing 0 m m
  | step {count : Nat} {m m' : Machine β} {cycles : UInt8}
      (hok : (m.step tracing).answer.outcome = .ok cycles)
      (hrest : Reaches tracing count (m.next tracing) m') : Reaches tracing (count + 1) m m'

namespace Reaches

/-- Stretches of steps are put end to end. -/
theorem trans (h : Reaches tracing a m m') (h' : Reaches tracing b m' m'') :
    Reaches tracing (a + b) m m'' := by
  induction h with
  | here m => rwa [Nat.zero_add]
  | step hok hrest ih =>
    rw [Nat.succ_add]
    exact step hok (ih h')

/-- **What is reached is what the run shows**: it does not fail, takes all its steps, and ends
    there. -/
theorem run_eq (h : Reaches tracing count m m') :
    (run tracing count m).failure = none ∧ (run tracing count m).states.length = count ∧
      (run tracing count m).machine = m' := by
  induction h with
  | here m => exact ⟨rfl, rfl, rfl⟩
  | step hok hrest ih =>
    obtain ⟨hfailure, hlength, hmachine⟩ := ih
    rw [run_of_ok hok]
    exact ⟨hfailure, congrArg (· + 1) hlength, hmachine⟩

/-- The instruction at PC leads to its outcome, with its stores made. -/
theorem of_decode? [PassiveBus β] {r : Registers} {bus : β} {i : Instruction} (tracing : Bool)
    (hdecode : Instruction.decode? (Bus.peek bus r.pc) = some i)
    (himplemented : i.isImplemented) :
    Reaches tracing 1 ⟨r, bus⟩
      ⟨i.outcome (Bus.peek bus) r, Traffic.storeAll bus (i.stores (Bus.peek bus) r)⟩ := by
  have hstep := r.actsAs_step bus tracing hdecode himplemented
  have hnext : (⟨r, bus⟩ : Machine β).next tracing =
      ⟨i.outcome (Bus.peek bus) r, Traffic.storeAll bus (i.stores (Bus.peek bus) r)⟩ := by
    rw [next, Machine.step, hstep.answer_eq, hstep.bus_eq]
  exact step (congrArg Stepped.outcome hstep.answer_eq) (hnext ▸ here _)

/-- An idle instruction takes two cycles, and that is all. -/
theorem idle [PassiveBus β] {r : Registers} {bus : β} (tracing : Bool)
    (h : Bus.peek bus r.pc = 0xEA) :
    Reaches tracing 1 ⟨r, bus⟩
      ⟨{ r with pc := r.pc + 1, stepCycles := 2, cycles := r.cycles + 2 }, bus⟩ := by
  have hdecode : Instruction.decode? (Bus.peek bus r.pc) = some ⟨.idle, .implied⟩ := by
    rw [h]
    decide
  exact of_decode? tracing hdecode rfl

end Reaches

/-! ## The first step that fails -/

/-- So many steps succeed, and the next one fails. -/
structure FailsAfter (tracing : Bool) (count : Nat) (m : Machine β) (failure : StepError) :
    Prop where
  run_failure : (run tracing count m).failure = none
  step_fails : ((run tracing count m).machine.step tracing).answer.outcome = .error failure

/-- A step that succeeds puts off the failure. -/
theorem FailsAfter.succ_iff {cycles : UInt8} {failure : StepError}
    (h : (m.step tracing).answer.outcome = .ok cycles) :
    FailsAfter tracing (count + 1) m failure ↔
      FailsAfter tracing count (m.next tracing) failure := by
  have hrun := run_of_ok h count
  constructor
  · rintro ⟨hnone, hfails⟩
    rw [hrun] at hnone hfails
    exact ⟨hnone, hfails⟩
  · rintro ⟨hnone, hfails⟩
    refine ⟨?_, ?_⟩
    · rw [hrun]
      exact hnone
    · rw [hrun]
      exact hfails

/-- **No run gets past the first step that fails**, and every shorter one takes all its steps. -/
theorem FailsAfter.failure_eq_none_iff {k : Nat} {failure : StepError}
    (h : FailsAfter tracing k m failure) (count : Nat) :
    (run tracing count m).failure = none ↔ count ≤ k := by
  induction count generalizing m k with
  | zero => exact iff_of_true rfl k.zero_le
  | succ count ih =>
    cases houtcome : (m.step tracing).answer.outcome with
    | error other =>
      have hzero : k = 0 := by
        cases k with
        | zero => rfl
        | succ k =>
          have hnone := h.run_failure
          rw [run_of_error houtcome] at hnone
          cases hnone
      rw [run_of_error houtcome, hzero]
      exact iff_of_false nofun (Nat.not_succ_le_zero count)
    | ok cycles =>
      cases k with
      | zero =>
        have hboth := houtcome.symm.trans h.step_fails
        exact nomatch hboth
      | succ k =>
        rw [run_of_ok houtcome, Nat.succ_le_succ_iff]
        exact ih ((FailsAfter.succ_iff houtcome).mp h)

/-- A run that shows a failure shows the first. -/
theorem exists_failsAfter {failure : StepError} (h : (run tracing count m).failure = some failure) :
    ∃ k, FailsAfter tracing k m failure := by
  induction count generalizing m with
  | zero => cases h
  | succ count ih =>
    cases houtcome : (m.step tracing).answer.outcome with
    | error other =>
      rw [run_of_error houtcome] at h
      cases h
      exact ⟨0, rfl, houtcome⟩
    | ok cycles =>
      rw [run_of_ok houtcome] at h
      obtain ⟨k, hk⟩ := ih h
      exact ⟨k + 1, (FailsAfter.succ_iff houtcome).mpr hk⟩

/-- **Either every run goes on, or there is a first step that fails.** -/
theorem goesOn_or_failsAfter (tracing : Bool) (m : Machine β) :
    (∀ count, (run tracing count m).failure = none) ∨
      ∃ k failure, FailsAfter tracing k m failure := by
  by_cases hgoesOn : ∀ count, (run tracing count m).failure = none
  · exact .inl hgoesOn
  · obtain ⟨count, hcount⟩ := Classical.not_forall.mp hgoesOn
    obtain ⟨failure, hfailure⟩ := Option.ne_none_iff_exists'.mp hcount
    obtain ⟨k, hk⟩ := exists_failsAfter hfailure
    exact .inr ⟨k, failure, hk⟩

end Nes.Cpu.Machine
