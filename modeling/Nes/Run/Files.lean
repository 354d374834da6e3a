/-
  Files: what comes of opening a path.

  Reading a file either gives its bytes or fails for a reason of the system's.  A `Directory` is a
  directory tree as a value; `Directory.openPath` follows a path in it as the system does, step by
  step: an empty step and `.` stay where they are, `..` leads back, and only a directory can be
  stepped into, so that a path through a plain file fails even where the next step would lead back.
  Outside the tree lies nothing but the directories on the way to it.

  The program itself looks up no path: it is handed what reading a path gives, and `Nes.Main` asks
  the system for that.  `Directory.contents` gives the answer for files that are known as a value, so
  that a session can be played without the system.
-/
import Nes.Text.Field

namespace Nes.Run

/-- Why a file cannot be read. -/
inductive FileError where
  | notFound
  | isDirectory
  | notADirectory
  | nameTooLong
  /-- The path holds a NUL, which no name can. -/
  | nulInPath
  /-- Any other reason, in the system's words. -/
  | other (text : String) (code : Nat)
  deriving DecidableEq

/-- The wording of a failure that the system numbers. -/
def osError (text : String) (code : Nat) : String :=
  text ++ " (os error " ++ Text.decimal code ++ ")"

/-- The wording of each failure. -/
def FileError.message : FileError → String
  | .notFound => osError "No such file or directory" 2
  | .isDirectory => osError "Is a directory" 21
  | .notADirectory => osError "Not a directory" 20
  | .nameTooLong => osError "File name too long" 36
  | .nulInPath => "file name contained an unexpected NUL byte"
  | .other text code => osError text code

/-! ## Directory trees -/

/-- What a path can lead to. -/
inductive Entry where
  | file (bytes : ByteArray)
  | directory

/-- A directory tree, given by its entries: the steps that lead to each, and what is there. -/
structure Directory where
  entries : List (List String × Entry)

namespace Directory

/-- What lies at the given steps from the root of the tree.  What only leads on is a directory. -/
def find? (d : Directory) (steps : List String) : Option Entry :=
  match d.entries.lookup steps with
  | some entry => some entry
  | none =>
    if steps.isEmpty || d.entries.any (fun e => steps.isPrefixOf e.1) then some .directory else none

/-- The longest name that the system takes, in bytes. -/
def maxNameSize : Nat := 255

/-- The longest path that the system takes, in bytes. -/
def maxPathSize : Nat := 4095

/-- What comes of looking up a name where nothing has that name. -/
def missing (name : String) : FileError :=
  if maxNameSize < name.utf8ByteSize then .nameTooLong else .notFound

/-- Follows the steps of a path that has left the tree. -/
def followOutside : List String → Except FileError Entry
  | [] => .ok .directory
  | "" :: rest | "." :: rest | ".." :: rest => followOutside rest
  | name :: _ => .error (missing name)

/-- Follows the steps of a path; `here` are the steps to the directory they start from. -/
def follow (d : Directory) (here : List String) : List String → Except FileError Entry
  | [] => .ok .directory
  | "" :: rest => d.follow here rest
  | "." :: rest => d.follow here rest
  | ".." :: rest => if here.isEmpty then followOutside rest else d.follow here.dropLast rest
  | name :: rest =>
    match d.find? (here ++ [name]), rest with
    | none, _ => .error (missing name)
    | some .directory, rest => d.follow (here ++ [name]) rest
    | some entry, [] => .ok entry
    | some _, _ :: _ => .error .notADirectory

/-- Opens a path from the root of the tree.  An absolute path starts outside.  A path that is no
    path at all is refused before any step is taken. -/
def openPath (d : Directory) (path : String) : Except FileError Entry :=
  if path.toList.contains '\x00' then .error .nulInPath
  else if maxPathSize < path.utf8ByteSize then .error .nameTooLong
  else
    match path.splitOn "/" with
    | [""] => .error .notFound
    | "" :: rest => followOutside rest
    | steps => d.follow [] steps

/-- The bytes of the file at a path. -/
def contents (d : Directory) (path : String) : Except FileError ByteArray :=
  match d.openPath path with
  | .ok (.file bytes) => .ok bytes
  | .ok .directory => .error .isDirectory
  | .error e => .error e

end Directory

end Nes.Run
