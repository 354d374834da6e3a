/-
  The command line: plays a session on the terminal.

  Everything is decided in `Nes.Run.Session`; here the arguments, the environment and the image come
  in, and the lines of each turn go out as soon as it has been taken.
-/
import Nes.Run.Session

namespace Nes.Run

/-- The reason for which the system refused to read a file. -/
def FileError.ofSystem : IO.Error → FileError
  | .noFileOrDirectory _ _ _ => .notFound
  | .inappropriateType _ 21 _ => .isDirectory
  | .inappropriateType _ 20 _ => .notADirectory
  | .inappropriateType _ code text => .other text code.toNat
  | .permissionDenied _ code text => .other text code.toNat
  | .invalidArgument _ code text => .other text code.toNat
  | e => .other e.toString 5

/-- Reads the file at a path. -/
def readFileAt (path : String) : IO (Except FileError ByteArray) := do
  try
    return .ok (← IO.FS.readBinFile path)
  catch e =>
    return .error (.ofSystem e)

/-- Writes lines to the streams they belong to. -/
def writeLines (lines : List Line) : IO Unit := do
  for line in lines do
    match line with
    | .out text => IO.println text
    | .err text => IO.eprintln text

/-- Takes turns until the session ends. -/
partial def playOut (s : Session) : IO UInt32 := do
  match s.turn with
  | .ended status lines =>
    writeLines lines
    return status.toUInt32
  | .goesOn lines next =>
    writeLines lines
    playOut next

end Nes.Run

open Nes.Run in
/-- Runs the image named by the only argument. -/
def main (args : List String) : IO UInt32 := do
  let verbosity ← IO.getEnv logVariable
  let startPc ← IO.getEnv startPcVariable
  let maxSteps ← IO.getEnv maxStepsVariable
  let env := fun name =>
    if name = logVariable then verbosity
    else if name = startPcVariable then startPc
    else if name = maxStepsVariable then maxSteps
    else none
  let image ← readFileAt (args.headD "")
  match Session.start args env fun _ => image with
  | .refused outcome =>
    writeLines outcome.lines
    return outcome.status.toUInt32
  | .ready lines session =>
    writeLines lines
    playOut session
