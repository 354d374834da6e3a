/-
  Trace lines: the instruction at PC and the state before it runs, in fixed columns.

  Beside the processor stands the picture unit, which draws three dots in a cycle, 341 dots in a
  line and 262 lines in a picture; where it is follows from the cycles alone.  The tracer reads the
  bytes of the instruction over the bus, the opcode once more than the others.
-/
import Nes.Bus.Traffic
import Nes.Cpu.Disassembly

namespace Nes.Cpu

open Nes.Text (hexByte hexWord padLeft padRight decimal)

/-! ## The picture unit -/

/-- The dots in a line of the picture. -/
def dotsPerLine : UInt64 := 341

/-- The lines in a picture. -/
def linesPerPicture : UInt64 := 262

/-- The dots drawn in the given cycles. -/
def dots (cycles : UInt64) : UInt64 := cycles * 3

/-- The line that is drawn after the given cycles. -/
def scanline (cycles : UInt64) : UInt64 := dots cycles / dotsPerLine % linesPerPicture

/-- The dot in that line. -/
def dot (cycles : UInt64) : UInt64 := dots cycles % dotsPerLine

/-! ## The line -/

/-- The bytes of an instruction, apart by a blank. -/
def bytesText (bytes : List UInt8) : String := " ".intercalate (bytes.map hexByte)

/-- The line for the given registers, where `bytes` are those of the instruction at PC. -/
def Registers.traceText (r : Registers) (bytes : List UInt8) : String :=
  hexWord r.pc ++ "  " ++ padRight 8 (bytesText bytes) ++ "  " ++
    padRight 30 (disassemble r.pc bytes) ++
    "  A:" ++ hexByte r.a ++ " X:" ++ hexByte r.x ++ " Y:" ++ hexByte r.y ++
    " P:" ++ hexByte r.status.byte ++ " SP:" ++ hexByte r.sp ++
    " PPU:" ++ padLeft 3 (decimal (scanline r.cycles).toNat) ++
    "," ++ padLeft 3 (decimal (dot r.cycles).toNat) ++
    " CYC:" ++ decimal r.cycles.toNat

/-- The length of the instruction that begins with `opcode`; an unofficial one counts as one byte. -/
def lengthAt (opcode : UInt8) : Nat :=
  match Instruction.decode? opcode with
  | none => 1
  | some i => i.size

/-- The trace line of the instruction at PC. -/
def Registers.traceLine (r : Registers) : Traffic String := do
  let opcode ← Traffic.readByte r.pc
  let bytes ← Traffic.readBlock r.pc (lengthAt opcode)
  return r.traceText bytes

/-- The state of the processor in short, for the report of a failure. -/
def Registers.summary (r : Registers) : String :=
  "A:" ++ hexByte r.a ++ " X:" ++ hexByte r.x ++ " Y:" ++ hexByte r.y ++
    " P:" ++ hexByte r.status.byte ++ " [" ++ r.status.describe ++ "] SP:" ++ hexByte r.sp ++
    " CYC:" ++ decimal r.cycles.toNat

end Nes.Cpu
