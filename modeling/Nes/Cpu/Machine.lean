/-
  Machines: a processor on a bus, and runs of it.

  A `Machine` puts the registers beside the bus on which the traffic of the processor is performed.
  A run takes steps up to a given count and stops at the first that fails; it shows the registers
  after each successful step, why it stopped, and all that went over the bus and into the records.
-/
import Nes.Cpu.Step

namespace Nes.Cpu

/-- A processor on a bus. -/
structure Machine (β : Type) where
  registers : Registers
  bus : β

/-- What a run came to. -/
structure Run (β : Type) where
  /-- The machine at the end. -/
  machine : Machine β
  /-- The registers after each successful step, in order. -/
  states : List Registers
  /-- What stopped the run, if a step failed. -/
  failure : Option StepError
  /-- Every access, in order. -/
  accesses : List Access
  /-- Every record, in order. -/
  records : List Record

namespace Machine

variable {β : Type} [Bus β]

/-- A machine whose processor has just been powered up. -/
def powerUp (bus : β) : Machine β := ⟨.powerUp, bus⟩

/-- Takes one step. -/
def step (m : Machine β) (tracing : Bool) : Traffic.Performed Stepped β :=
  (m.registers.step tracing).perform m.bus

/-- Takes up to `count` steps. -/
def run (tracing : Bool) : Nat → Machine β → Run β
  | 0, m => ⟨m, [], none, [], []⟩
  | count + 1, m =>
    let ⟨⟨outcome, registers⟩, bus, accesses, records⟩ := m.step tracing
    match outcome with
    | .error failure => ⟨⟨registers, bus⟩, [], some failure, accesses, records⟩
    | .ok _ =>
      let rest := run tracing count ⟨registers, bus⟩
      { rest with
        states := registers :: rest.states
        accesses := accesses ++ rest.accesses
        records := records ++ rest.records }

end Machine

end Nes.Cpu
