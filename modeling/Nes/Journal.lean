/-
  Records: what the parts of the program report while they work, and which reports are kept.

  A `Record` is a value.  A part that has something to report hands the record on with its answer;
  nobody's answer depends on who listens.  How talkative a run is, is its `Verbosity`: a threshold
  that admits every level up to itself, and `off` admits none.  Only the highest of them traces
  (`Verbosity.tracing_iff`).
-/

namespace Nes

/-! ## Levels -/

/-- The weight of a record, from the gravest to the least. -/
inductive Level where
  | error
  | warn
  | info
  | debug
  | trace
  deriving DecidableEq

/-- The name of a level. -/
def Level.name : Level → String
  | .error => "ERROR"
  | .warn => "WARN"
  | .info => "INFO"
  | .debug => "DEBUG"
  | .trace => "TRACE"

/-- The position of a level, the gravest first. -/
def Level.rank : Level → Nat
  | .error => 1
  | .warn => 2
  | .info => 3
  | .debug => 4
  | .trace => 5

/-- The least grave level that is kept, or `off` for none at all. -/
inductive Verbosity where
  | off
  | upTo (level : Level)
  deriving DecidableEq

namespace Verbosity

/-- Every verbosity, the quietest first. -/
def all : List Verbosity :=
  [.off, .upTo .error, .upTo .warn, .upTo .info, .upTo .debug, .upTo .trace]

/-- The name of a verbosity. -/
def name : Verbosity → String
  | .off => "OFF"
  | .upTo level => level.name

/-- How many levels a verbosity keeps. -/
def rank : Verbosity → Nat
  | .off => 0
  | .upTo level => level.rank

/-- Whether a record of the given level is kept. -/
def admits (verbosity : Verbosity) (level : Level) : Bool := level.rank ≤ verbosity.rank

/-- Whether each instruction is traced before it is executed. -/
def tracing (verbosity : Verbosity) : Bool := verbosity.admits .trace

/-- Only the highest verbosity traces. -/
theorem tracing_iff {v : Verbosity} : v.tracing ↔ v = .upTo .trace := by
  rcases v with _ | _ | _ | _ | _ | _ <;> decide

/-- The verbosity of a given name, in either case. -/
def ofName? (text : String) : Option Verbosity :=
  all.find? fun v => text.toList.map Char.toUpper == v.name.toList

end Verbosity

/-! ## Records -/

/-- The part of the program that a record comes from. -/
inductive Source where
  | bus
  | cartridge
  | nrom
  | trace
  | program
  deriving DecidableEq

/-- The name under which a part reports. -/
def Source.name : Source → String
  | .bus => "nes6502::bus"
  | .cartridge => "nes6502::cartridge::cartridge"
  | .nrom => "nes6502::cartridge::mapper::mapper0"
  | .trace => "nes6502::trace"
  | .program => "nes6502"

/-- One report. -/
structure Record where
  level : Level
  source : Source
  message : String
  deriving DecidableEq

/-- A record on one line: level, source and message. -/
def Record.line (r : Record) : String :=
  r.level.name ++ " " ++ r.source.name ++ ": " ++ r.message

/-- The records that a verbosity keeps, in their order. -/
def Verbosity.keep (verbosity : Verbosity) (records : List Record) : List Record :=
  records.filter fun r => verbosity.admits r.level

end Nes
