/-
  The bus: what a processor can reach.

  A bus answers reads and takes writes, one byte at a 16-bit address at a time.  Either may change
  the bus, since a device may react to being read.  Besides, a bus may have something to report
  about an access (an address where nothing answers, a write that goes nowhere); such a note is a
  function of the access alone and never part of the answer.
-/
import Nes.Text.Field
import Nes.Journal

namespace Nes

/-- Anything with 65536 addresses that can be read and written. -/
class Bus (β : Type) where
  /-- The byte at an address, and the bus after it has been read. -/
  read : β → UInt16 → UInt8 × β
  /-- The bus after a byte has been stored at an address. -/
  write : β → UInt16 → UInt8 → β
  /-- What there is to report about a read. -/
  readNote : β → UInt16 → Option Record := fun _ _ => none
  /-- What there is to report about a write. -/
  writeNote : β → UInt16 → UInt8 → Option Record := fun _ _ _ => none

/-- One access as seen on the wires. -/
inductive Access where
  | read (addr : UInt16) (value : UInt8)
  | write (addr : UInt16) (value : UInt8)
  deriving DecidableEq

/-- The address of an access. -/
def Access.addr : Access → UInt16
  | .read addr _ => addr
  | .write addr _ => addr

/-- An access in short: direction, address and value. -/
def Access.text : Access → String
  | .read addr value => "R" ++ Text.hexWord addr ++ "=" ++ Text.hexByte value
  | .write addr value => "W" ++ Text.hexWord addr ++ "=" ++ Text.hexByte value

end Nes
