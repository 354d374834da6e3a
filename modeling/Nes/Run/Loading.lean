/-
  Loading: from the path of an image to a cartridge.

  A file that cannot be read and an image that holds no cartridge are told apart, and either message
  names the path.  What is reported on the way comes in order: the file, its header, its contents.
-/
import Nes.Cartridge.Image
import Nes.Run.Files

namespace Nes.Run

open Nes.Text (decimal)

/-- Why no cartridge could be loaded. -/
inductive LoadError where
  | unreadable (path : String) (cause : FileError)
  | invalid (path : String) (cause : ImageError)
  deriving DecidableEq

/-- The wording of each failure. -/
def LoadError.message : LoadError → String
  | .unreadable path cause => "unable to open " ++ path ++ ": " ++ cause.message
  | .invalid path cause => "invalid ROM image " ++ path ++ ": " ++ cause.message

/-- What came of loading, and what was reported on the way. -/
structure Loaded where
  outcome : Except LoadError Cartridge
  records : List Record

/-- The record that a file was read. -/
def fileRead (path : String) (size : Nat) : Record :=
  ⟨.info, .cartridge, "read " ++ path ++ " (" ++ decimal size ++ " bytes)"⟩

/-- Loads the cartridge whose image lies at a path; `files` says what reading a file gives. -/
def load (files : String → Except FileError ByteArray) (path : String) : Loaded :=
  match files path with
  | .error cause => ⟨.error (.unreadable path cause), []⟩
  | .ok image =>
    let outcome := Cartridge.ofImage image
    ⟨outcome.mapError (.invalid path),
      fileRead path image.size :: Cartridge.remarks image outcome⟩

end Nes.Run
