/-
  Settings: what to run, from where, how long, and how talkatively.

  The image is named by the only argument, the rest comes from the environment:

  * the verbosity is one of the level names, in either case (`info` if unset);
  * the start address is any number of dollar signs, then any number of `0x`, then a hexadecimal
    numeral of 16 bits;
  * the step limit is a decimal numeral of 64 bits.

  Of several faults the first in this order is reported.
-/
import Nes.Journal
import Nes.Text.Numeral
import Nes.Text.Quoted

namespace Nes.Run

open Nes.Text (NumeralError quoted readNumeral)

/-- How the program is to be run. -/
structure Settings where
  romPath : String
  verbosity : Verbosity
  startPc : Option UInt16
  maxSteps : Option UInt64
  deriving DecidableEq

/-- Why the settings cannot be read. -/
inductive SettingsError where
  | argumentCount
  | unknownLevel (text : String)
  | badStartPc (text : String) (cause : NumeralError)
  | badMaxSteps (text : String) (cause : NumeralError)
  deriving DecidableEq

/-- The environment variable of the verbosity. -/
def logVariable : String := "NES6502_LOG"

/-- The environment variable of the start address. -/
def startPcVariable : String := "NES6502_START_PC"

/-- The environment variable of the step limit. -/
def maxStepsVariable : String := "NES6502_MAX_STEPS"

/-- The wording of each fault. -/
def SettingsError.message : SettingsError → String
  | .argumentCount => "expected exactly one ROM path"
  | .unknownLevel text => logVariable ++ ": unknown level " ++ quoted text
  | .badStartPc text cause =>
    startPcVariable ++ ": not a hex address: " ++ quoted text ++ ": " ++ cause.message
  | .badMaxSteps text cause =>
    maxStepsVariable ++ ": not a count: " ++ quoted text ++ ": " ++ cause.message

/-- How the program is called. -/
def usage : String :=
  "usage: nes6502 <rom.nes>\n\n" ++
  "environment:\n" ++
  "  NES6502_LOG        error|warn|info|debug|trace|off (default info)\n" ++
  "  NES6502_START_PC   hex start address, overrides the reset vector\n" ++
  "  NES6502_MAX_STEPS  stop after this many instructions"

/-! ## The values of the variables -/

/-- The text without the dollar signs at its beginning. -/
def dropDollars (text : List Char) : List Char := text.dropWhile (· == '$')

/-- The text without any `0x` at its beginning. -/
def dropHexMarks : List Char → List Char
  | '0' :: 'x' :: rest => dropHexMarks rest
  | text => text

/-- Reads a verbosity. -/
def readVerbosity (text : String) : Except SettingsError Verbosity :=
  match Verbosity.ofName? text with
  | some verbosity => .ok verbosity
  | none => .error (.unknownLevel text)

/-- Reads a start address. -/
def readStartPc (text : String) : Except SettingsError UInt16 :=
  match readNumeral 16 0xFFFF (dropHexMarks (dropDollars text.toList)) with
  | .ok n => .ok (UInt16.ofNat n)
  | .error cause => .error (.badStartPc text cause)

/-- Reads a step limit. -/
def readMaxSteps (text : String) : Except SettingsError UInt64 :=
  match readNumeral 10 0xFFFFFFFFFFFFFFFF text.toList with
  | .ok n => .ok (UInt64.ofNat n)
  | .error cause => .error (.badMaxSteps text cause)

/-- Reads a variable that may be unset. -/
def readOptional {α : Type} (value : Option String) (reader : String → Except SettingsError α) :
    Except SettingsError (Option α) :=
  match value with
  | none => .ok none
  | some text => (reader text).map some

/-! ## All together -/

/-- Reads the settings from the arguments after the program's name and from the environment. -/
def Settings.read (args : List String) (env : String → Option String) :
    Except SettingsError Settings :=
  match args with
  | [romPath] => do
    let verbosity ← readOptional (env logVariable) readVerbosity
    let startPc ← readOptional (env startPcVariable) readStartPc
    let maxSteps ← readOptional (env maxStepsVariable) readMaxSteps
    return ⟨romPath, verbosity.getD (.upTo .info), startPc, maxSteps⟩
  | _ => .error .argumentCount

end Nes.Run
