/-
  The status register: eight flags in one byte.

  The byte is what the processor stores and pushes; the flags are what instructions ask about.  Each
  flag has a bit of its own, so the register behaves as eight independent booleans: a flag shows
  what was last put into it (`get_put`), puts to different flags commute (`put_comm`), and two
  registers with the same flags are equal (`ext_get`).

  Bit 5 stands for nothing and bit 4 exists only in copies that were pushed; both are stored all the
  same.  The decimal flag is storage only: this processor has no decimal mode.
-/
import Nes.Word

namespace Nes.Cpu

/-- The flags, the least significant bit first. -/
inductive Flag where
  | carry
  | zero
  | interruptDisable
  | decimal
  | breakCommand
  | unused
  | overflow
  | negative
  deriving DecidableEq

/-- The bit of a flag. -/
def Flag.bit : Flag → Fin 8
  | .carry => 0
  | .zero => 1
  | .interruptDisable => 2
  | .decimal => 3
  | .breakCommand => 4
  | .unused => 5
  | .overflow => 6
  | .negative => 7

/-- The flag of a bit. -/
def Flag.ofBit : Fin 8 → Flag
  | 0 => .carry
  | 1 => .zero
  | 2 => .interruptDisable
  | 3 => .decimal
  | 4 => .breakCommand
  | 5 => .unused
  | 6 => .overflow
  | 7 => .negative

/-- Every flag, in the order of their bits. -/
def Flag.all : List Flag :=
  [.carry, .zero, .interruptDisable, .decimal, .breakCommand, .unused, .overflow, .negative]

/-- The letter of a flag; the bit that stands for nothing has a dash. -/
def Flag.letter : Flag → Char
  | .carry => 'C'
  | .zero => 'Z'
  | .interruptDisable => 'I'
  | .decimal => 'D'
  | .breakCommand => 'B'
  | .unused => '-'
  | .overflow => 'V'
  | .negative => 'N'

@[simp] theorem Flag.bit_ofBit : ∀ i, (Flag.ofBit i).bit = i := by decide

theorem Flag.bit_inj {f g : Flag} : f.bit = g.bit ↔ f = g := by
  cases f <;> cases g <;> decide

/-- The status register. -/
structure Status where
  byte : UInt8
  deriving DecidableEq

namespace Status

/-- What a flag shows. -/
def get (p : Status) (f : Flag) : Bool := testBit p.byte f.bit

/-- Puts a value into a flag. -/
def put (p : Status) (f : Flag) (on : Bool) : Status := ⟨writeBit p.byte f.bit on⟩

/-- Puts into zero and negative what the byte `v` says about them. -/
def putNZ (p : Status) (v : UInt8) : Status := (p.put .zero (v == 0)).put .negative (testBit v 7)

/-- A flag shows what was last put into it. -/
@[simp] theorem get_put (p : Status) (f g : Flag) (on : Bool) :
    (p.put f on).get g = if f = g then on else p.get g := by
  simp [get, put, Flag.bit_inj]

/-- Two registers with the same flags are equal. -/
theorem ext_get {p q : Status} (h : ∀ f, p.get f = q.get f) : p = q := by
  obtain ⟨p⟩ := p
  obtain ⟨q⟩ := q
  congr
  refine ext_testBit fun i => ?_
  simpa [get] using h (Flag.ofBit i)

/-- Puts to different flags commute. -/
theorem put_comm (p : Status) {f g : Flag} (h : f ≠ g) (a b : Bool) :
    (p.put f a).put g b = (p.put g b).put f a := by
  refine ext_get fun k => ?_
  by_cases hf : f = k <;> by_cases hg : g = k <;> simp_all

@[simp] theorem get_putNZ (p : Status) (v : UInt8) (f : Flag) :
    (p.putNZ v).get f =
      if f = .negative then testBit v 7 else if f = .zero then v == 0 else p.get f := by
  cases f <;> simp [putNZ]

/-- Bits 4 and 5, which a pushed copy always has set. -/
def pushedBits : UInt8 := 0x30

/-- The copy of the register that is pushed. -/
def pushed (p : Status) : UInt8 := p.byte ||| pushedBits

/-- The register after the byte `v` has been pulled into it: bits 4 and 5 stay as they were. -/
def pull (p : Status) (v : UInt8) : Status :=
  ⟨(v &&& ~~~ pushedBits) ||| (p.byte &&& pushedBits)⟩

/-- The register after a return from an interrupt has pulled the byte `v`: bit 5 is forced on. -/
def pullForced (v : UInt8) : Status := ⟨setBit v Flag.unused.bit⟩

/-- The register after power-up: interrupts are disabled, and bit 5 is on. -/
def powerUp : Status := ⟨0x24⟩

/-- The letter of a flag, upper-case if the flag is on. -/
def describeFlag (p : Status) (f : Flag) : Char :=
  if p.get f then f.letter else f.letter.toLower

/-- The letters of all flags, the most significant bit first. -/
def describe (p : Status) : String := String.ofList (Flag.all.reverse.map p.describeFlag)

theorem get_pushed (p : Status) (f : Flag) :
    testBit p.pushed f.bit = (p.get f || f = .breakCommand || f = .unused) := by
  have h : testBit pushedBits f.bit = (f = .breakCommand || f = .unused) := by
    cases f <;> decide
  simp [pushed, testBit_or, h, get, Bool.or_assoc]

theorem get_pull (p : Status) (v : UInt8) (f : Flag) :
    (p.pull v).get f =
      if f = .breakCommand ∨ f = .unused then p.get f else testBit v f.bit := by
  have h : testBit pushedBits f.bit = (f = .breakCommand || f = .unused) := by
    cases f <;> decide
  simp only [pull, get, testBit_or, testBit_and, testBit_not, h]
  by_cases hb : f = .breakCommand <;> by_cases hu : f = .unused <;> simp [hb, hu]

theorem get_pullForced (v : UInt8) (f : Flag) :
    (pullForced v).get f = (f = .unused || testBit v f.bit) := by
  simp only [pullForced, get, testBit_setBit, Flag.bit_inj, Bool.or_comm, eq_comm]

end Status

end Nes.Cpu
