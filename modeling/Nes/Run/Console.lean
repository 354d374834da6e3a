/-
  The console: what a run writes, and where.

  Trace lines go to standard output, bare, so that they can be compared line by line; every other
  record goes to standard error behind its painted level.  A failure that ends the run is written in
  any case, whatever the verbosity.
-/
import Nes.Journal
import Nes.Text.Field

namespace Nes.Run

/-- One text written to one of the two streams, with a line end behind it. -/
inductive Line where
  | out (text : String)
  | err (text : String)
  deriving DecidableEq

/-- Switches the painting of a terminal: `codes` are the attributes from here on. -/
def paint (codes : String) : String := "\x1b[" ++ codes ++ "m"

/-- The attributes of a level: graver levels are more conspicuous. -/
def colour : Level → String
  | .error => "1;31"
  | .warn => "33"
  | .info => "32"
  | .debug => "34"
  | .trace => "2"

/-- The painted name of a level, five characters wide. -/
def tag (level : Level) : String :=
  paint (colour level) ++ Text.padRight 5 level.name ++ paint "0"

/-- How a record is written. -/
def Line.ofRecord (r : Record) : Line :=
  if r.source = .trace then .out r.message
  else .err (tag r.level ++ " " ++ r.source.name ++ ": " ++ r.message)

/-- How a failure that ends the run is written. -/
def Line.fatal (message : String) : Line := .err (tag .error ++ " " ++ message)

/-- What is written of some records. -/
def transcript (verbosity : Verbosity) (records : List Record) : List Line :=
  (verbosity.keep records).map Line.ofRecord

end Nes.Run
