/-
  Attempts: what a machine shows when it is told to step again and again.

  `Machine.run` stops at the first step that fails.  A caller need not: it may go on asking for
  steps, each with the trace switched on or off.  `Machine.attempts` lists what every one of them
  showed, and `Machine.after` is the machine they leave.  A step that fails without touching
  registers or bus is the end of the story (`attempts_of_failure`): the machine stays as it is and
  every further attempt shows the same.
-/
import Nes.Cpu.Machine
import Nes.Proofs.Bus.Passive

namespace Nes.Cpu

open Nes.Traffic (Performed)

/-- What one step showed: what it came to and what went over the bus. -/
structure Attempt where
  stepped : Stepped
  accesses : List Access

namespace Machine

variable {β : Type} [Bus β]

/-- The machine on a bus after a reset. -/
def afterReset (bus : β) : Machine β :=
  ⟨(Registers.reset.perform bus).answer, (Registers.reset.perform bus).bus⟩

/-- The machine after a step, whatever came of it. -/
def next (m : Machine β) (tracing : Bool) : Machine β :=
  ⟨(m.step tracing).answer.registers, (m.step tracing).bus⟩

/-- What a step shows. -/
def attempt (m : Machine β) (tracing : Bool) : Attempt :=
  ⟨(m.step tracing).answer, (m.step tracing).accesses⟩

/-- What each of a number of steps shows; each is traced or not. -/
def attempts (m : Machine β) : List Bool → List Attempt
  | [] => []
  | tracing :: rest => m.attempt tracing :: (m.next tracing).attempts rest

/-- The machine after a number of steps, whatever came of them. -/
def after (m : Machine β) : List Bool → Machine β
  | [] => m
  | tracing :: rest => (m.next tracing).after rest

/-- A step that fails after reading some cells and nothing else shows the same ever after. -/
theorem attempts_of_failure {m : Machine β} {failure : StepError} {cells : List UInt16}
    (h : ∀ tracing, m.step tracing = .ofReads m.bus cells ⟨.error failure, m.registers⟩)
    (traced : List Bool) :
    m.attempts traced =
        traced.map (fun _ =>
          ⟨⟨.error failure, m.registers⟩, cells.map fun c => .read c (Bus.peek m.bus c)⟩) ∧
      m.after traced = m := by
  have hnext : ∀ tracing, m.next tracing = m := by
    intro tracing
    rw [next, h tracing]
    rfl
  have hattempt : ∀ tracing, m.attempt tracing =
      ⟨⟨.error failure, m.registers⟩, cells.map fun c => .read c (Bus.peek m.bus c)⟩ := by
    intro tracing
    rw [attempt, h tracing]
    rfl
  induction traced with
  | nil => exact ⟨rfl, rfl⟩
  | cons tracing rest ih =>
    obtain ⟨hattempts, hafter⟩ := ih
    constructor
    · rw [attempts, hattempt, hnext, hattempts, List.map_cons]
    · rw [after, hnext, hafter]

end Machine

end Nes.Cpu
