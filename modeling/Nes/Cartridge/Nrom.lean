/-
  The plain board: program memory that never changes.

  The program is seen from $8000 on, again and again if it is shorter than the window; a single bank
  therefore shows in both halves.  Nothing answers below.  The board always holds some program, so
  the repetition has a length.
-/
import Nes.Cartridge.Header

namespace Nes

/-- A board with program memory and nothing to switch. -/
structure Nrom where
  prg : ByteArray
  mirroring : Mirroring
  prg_size_pos : 0 < prg.size

namespace Nrom

/-- Where the program is first seen. -/
def window : UInt16 := 0x8000

/-- The offset in the program that shows at an address in the window. -/
def offset (board : Nrom) (addr : UInt16) : Nat := (addr - window).toNat % board.prg.size

theorem offset_lt (board : Nrom) (addr : UInt16) : board.offset addr < board.prg.size :=
  Nat.mod_lt _ board.prg_size_pos

/-- The byte at an address; below the window it is 0. -/
def read (board : Nrom) (addr : UInt16) : UInt8 :=
  have := board.offset_lt addr
  if window ≤ addr then board.prg[board.offset addr] else 0

/-- In the window the board shows its program. -/
theorem read_of_window_le (board : Nrom) {addr : UInt16} (h : window ≤ addr) :
    board.read addr = board.prg.get (board.offset addr) (board.offset_lt addr) := by
  rw [read, if_pos h]
  rfl

/-- Below the window the board shows zeros. -/
theorem read_of_lt_window (board : Nrom) {addr : UInt16} (h : addr < window) :
    board.read addr = 0 := by
  rw [read, if_neg]
  exact UInt16.not_le.2 h

/-- What there is to report about a read: nothing answers below the window. -/
def readNote (addr : UInt16) : Option Record :=
  if window ≤ addr then none
  else some ⟨.error, .nrom, "NROM: no PRG mapped at $" ++ Text.hexWord addr⟩

end Nrom

end Nes
