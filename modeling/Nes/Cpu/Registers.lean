/-
  The registers of the processor, and the tally of cycles it keeps.

  Everything the processor itself holds is here; memory is not.  A and the index registers X and Y
  take part in most instructions, SP is the low byte of the next free stack cell, PC the address of
  the next instruction.
-/
import Nes.Cpu.Status

namespace Nes.Cpu

/-- What the processor holds. -/
structure Registers where
  a : UInt8
  x : UInt8
  y : UInt8
  sp : UInt8
  pc : UInt16
  status : Status
  /-- The cycles that the latest instruction took. -/
  stepCycles : UInt8
  /-- The cycles taken since power-up. -/
  cycles : UInt64
  deriving DecidableEq

/-- The registers that values are loaded into, stored from and compared with. -/
inductive Register where
  | a
  | x
  | y
  deriving DecidableEq

namespace Registers

/-- The registers after power-up. -/
def powerUp : Registers where
  a := 0
  x := 0
  y := 0
  sp := 0xFD
  pc := 0
  status := .powerUp
  stepCycles := 0
  cycles := 0

/-- The byte in a register. -/
def get (r : Registers) : Register → UInt8
  | .a => r.a
  | .x => r.x
  | .y => r.y

/-- Puts a byte into a register. -/
def put (r : Registers) : Register → UInt8 → Registers
  | .a, v => { r with a := v }
  | .x, v => { r with x := v }
  | .y, v => { r with y := v }

/-- Puts a value into a flag. -/
def putFlag (r : Registers) (f : Flag) (on : Bool) : Registers :=
  { r with status := r.status.put f on }

/-- Puts into zero and negative what the byte `v` says about them. -/
def putNZ (r : Registers) (v : UInt8) : Registers := { r with status := r.status.putNZ v }

/-- The carry as a number. -/
def carryIn (r : Registers) : UInt8 := (r.status.get .carry).toUInt8

end Registers

end Nes.Cpu
