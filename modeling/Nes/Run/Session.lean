/-
  Sessions: the program from its arguments to its exit status.

  `Session.start` reads the settings, loads the cartridge and resets the machine; it ends at once
  where one of the first two fails.  A session that has started takes its turns one by one:
  `Session.turn` ends it when the step limit is reached or a step fails, and otherwise takes a step.
  A session need not end, so `Session.playFor` says what came of it within a given number of turns;
  more turns never change an outcome (`playFor_succ`).

  The exit status is 2 for settings that cannot be read, 1 for a cartridge that cannot be loaded or
  a step that cannot be taken, and 0 otherwise.
-/
import Nes.Cpu.Machine
import Nes.MemoryMap
import Nes.Run.Console
import Nes.Run.Loading
import Nes.Run.Settings

namespace Nes.Run

open Nes.Cpu (Machine Registers StepError)
open Nes.Text (decimal)

/-- What a program came to. -/
structure Outcome where
  status : UInt8
  lines : List Line
  deriving DecidableEq

/-- A run in progress. -/
structure Session where
  machine : Machine MemoryMap
  verbosity : Verbosity
  /-- How many steps may be taken in all, if that is limited. -/
  limit : Option Nat
  /-- How many have been taken. -/
  steps : Nat

/-- What the next turn of a session comes to: the lines it writes, and where it leaves the session. -/
inductive Turn where
  | ended (status : UInt8) (lines : List Line)
  | goesOn (lines : List Line) (next : Session)

/-- What the start of a program comes to. -/
inductive Start where
  | refused (outcome : Outcome)
  | ready (lines : List Line) (session : Session)

namespace Session

/-! ## Starting -/

/-- The machine of the console with a cartridge in its slot, after a reset.  A start address takes
    the place of the one that the cartridge names. -/
def machineOf (cartridge : Cartridge) (startPc : Option UInt16) :
    Traffic.Performed Registers MemoryMap :=
  let reset := Registers.reset.perform (MemoryMap.ofCartridge cartridge)
  match startPc with
  | none => reset
  | some pc =>
    { reset with answer := { reset.answer with pc := pc, cycles := Registers.resetCycles } }

/-- Starts the program. -/
def start (args : List String) (env : String → Option String)
    (files : String → Except FileError ByteArray) : Start :=
  match Settings.read args env with
  | .error cause => .refused ⟨2, [.err (cause.message ++ "\n\n" ++ usage)]⟩
  | .ok settings =>
    let loaded := load files settings.romPath
    let lines := transcript settings.verbosity loaded.records
    match loaded.outcome with
    | .error cause => .refused ⟨1, lines ++ [Line.fatal cause.message]⟩
    | .ok cartridge =>
      let reset := machineOf cartridge settings.startPc
      .ready (lines ++ transcript settings.verbosity reset.records)
        { machine := ⟨reset.answer, reset.bus⟩
          verbosity := settings.verbosity
          limit := settings.maxSteps.map UInt64.toNat
          steps := 0 }

/-! ## Turns -/

/-- The record that the step limit was reached. -/
def stopped (s : Session) : Record :=
  ⟨.info, .program,
    "stopped after " ++ decimal s.steps ++ " instructions, " ++
      decimal s.machine.registers.cycles.toNat ++ " cycles"⟩

/-- Whether another step may be taken. -/
def mayStep (s : Session) : Bool :=
  match s.limit with
  | none => true
  | some limit => s.steps < limit

/-- The lines that tell of a failed step: the failure, and the state that it left. -/
def failureLines (failure : StepError) (registers : Registers) : List Line :=
  [Line.fatal failure.message, Line.fatal registers.summary]

/-- Takes a turn. -/
def turn (s : Session) : Turn :=
  if s.mayStep then
    let ⟨machine, verbosity, limit, steps⟩ := s
    let ⟨⟨outcome, registers⟩, bus, _, records⟩ := machine.step verbosity.tracing
    let lines := transcript verbosity records
    match outcome with
    | .error failure => .ended 1 (lines ++ failureLines failure registers)
    | .ok _ => .goesOn lines ⟨⟨registers, bus⟩, verbosity, limit, steps + 1⟩
  else .ended 0 (transcript s.verbosity [s.stopped])

/-! ## Whole sessions -/

/-- Plays up to `turns` turns on top of the lines written before, the latest of which is first. -/
def playOn : Nat → List Line → Session → Option Outcome
  | 0, _, _ => none
  | turns + 1, written, s =>
    match s.turn with
    | .ended status lines => some ⟨status, (lines.reverseAux written).reverse⟩
    | .goesOn lines next => playOn turns (lines.reverseAux written) next

/-- What a session comes to within the given turns, if it ends in them. -/
def playFor (turns : Nat) (s : Session) : Option Outcome := playOn turns [] s

theorem playOn_succ {turns : Nat} {written : List Line} {s : Session} {outcome : Outcome}
    (h : playOn turns written s = some outcome) : playOn (turns + 1) written s = some outcome := by
  induction turns generalizing written s with
  | zero => simp [playOn] at h
  | succ turns ih =>
    rw [playOn] at h ⊢
    split at h
    · exact h
    · exact ih h

/-- An outcome stays the same however many more turns there might be. -/
theorem playFor_succ {turns : Nat} {s : Session} {outcome : Outcome}
    (h : playFor turns s = some outcome) : playFor (turns + 1) s = some outcome := playOn_succ h

end Session

/-- What the program comes to within the given turns, if it ends in them. -/
def outcomeWithin (turns : Nat) (args : List String) (env : String → Option String)
    (files : String → Except FileError ByteArray) : Option Outcome :=
  match Session.start args env files with
  | .refused outcome => some outcome
  | .ready lines session =>
    (session.playFor turns).map fun outcome => { outcome with lines := lines ++ outcome.lines }

end Nes.Run
