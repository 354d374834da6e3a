/-
  The memory map: what the processor of the console finds at each address.

  ```text
  $0000-$1FFF  2048 cells of RAM, seen four times
  $2000-$3FFF  the 8 registers of the picture unit, seen 1024 times
  $4000-$4017  24 sound and input registers
  $4018-$401F  switched off: reads as 0
  $4020-$FFFF  the cartridge
  ```

  `Region.of` decodes an address into the one thing that answers there.  Only the first three
  regions store anything, 2080 cells in all; writes to the other two are reported and lost.
-/
import Nes.Bus
import Nes.Cartridge.Image

namespace Nes

/-! ## Decoding -/

/-- What answers at an address. -/
inductive Region where
  | ram (cell : Fin 2048)
  | picture (register : Fin 8)
  | io (register : Fin 24)
  | off
  | cartridge
  deriving DecidableEq

/-- What answers at the given address. -/
def Region.of (addr : UInt16) : Region :=
  let n := addr.toNat
  if n < 0x2000 then .ram ⟨n % 2048, Nat.mod_lt _ (by decide)⟩
  else if n < 0x4000 then .picture ⟨n % 8, Nat.mod_lt _ (by decide)⟩
  else if h : n < 0x4018 then .io ⟨n - 0x4000, by omega⟩
  else if n < 0x4020 then .off
  else .cartridge

/-! ## The cells -/

/-- The cells of the console, and the cartridge in its slot. -/
structure MemoryMap where
  ram : Vector UInt8 2048
  picture : Vector UInt8 8
  io : Vector UInt8 24
  cartridge : Cartridge

namespace MemoryMap

/-- The console with every cell at 0. -/
def ofCartridge (cartridge : Cartridge) : MemoryMap :=
  ⟨Vector.replicate 2048 0, Vector.replicate 8 0, Vector.replicate 24 0, cartridge⟩

/-- The given cells with a byte stored in one of them. -/
def store {n : Nat} (cells : Vector UInt8 n) (cell : Fin n) (value : UInt8) : Vector UInt8 n :=
  cells.set cell value cell.isLt

/-- A cell shows the byte last stored in that cell. -/
@[simp] theorem get_store {n : Nat} (cells : Vector UInt8 n) (a b : Fin n) (value : UInt8) :
    (store cells a value).get b = if a = b then value else cells.get b := by
  show (cells.set a.val value a.isLt)[b.val] = if a = b then value else cells[b.val]
  simp only [Vector.getElem_set, Fin.ext_iff]

/-- The byte at an address. -/
def read (m : MemoryMap) (addr : UInt16) : UInt8 :=
  match Region.of addr with
  | .ram cell => m.ram.get cell
  | .picture register => m.picture.get register
  | .io register => m.io.get register
  | .off => 0
  | .cartridge => m.cartridge.read addr

/-- Stores a byte at an address, where there is a cell. -/
def write (m : MemoryMap) (addr : UInt16) (value : UInt8) : MemoryMap :=
  match Region.of addr with
  | .ram cell => { m with ram := store m.ram cell value }
  | .picture register => { m with picture := store m.picture register value }
  | .io register => { m with io := store m.io register value }
  | .off | .cartridge => m

/-! ## Reports -/

/-- The record of a read where nothing answers. -/
def undefinedRead (addr : UInt16) : Record :=
  ⟨.debug, .bus, "read from undefined address $" ++ Text.hexWord addr⟩

/-- The record of a write where nothing listens. -/
def undefinedWrite (addr : UInt16) (value : UInt8) : Record :=
  ⟨.debug, .bus,
    "write $" ++ Text.hexByte value ++ " to undefined address $" ++ Text.hexWord addr ++ " ignored"⟩

/-- The record of a write to the cartridge. -/
def cartridgeWrite (addr : UInt16) (value : UInt8) : Record :=
  ⟨.debug, .bus,
    "write $" ++ Text.hexByte value ++ " to cartridge space $" ++ Text.hexWord addr ++ " ignored"⟩

/-- What there is to report about a read. -/
def readNote (addr : UInt16) : Option Record :=
  match Region.of addr with
  | .off => some (undefinedRead addr)
  | .cartridge => Cartridge.readNote addr
  | _ => none

/-- What there is to report about a write. -/
def writeNote (addr : UInt16) (value : UInt8) : Option Record :=
  match Region.of addr with
  | .off => some (undefinedWrite addr value)
  | .cartridge => some (cartridgeWrite addr value)
  | _ => none

instance : Bus MemoryMap where
  read m addr := (m.read addr, m)
  write := write
  readNote _ addr := readNote addr
  writeNote _ addr value := writeNote addr value

/-! ## Laws -/

/-- The cartridge stays in its slot. -/
@[simp] theorem cartridge_write (m : MemoryMap) (addr : UInt16) (value : UInt8) :
    (m.write addr value).cartridge = m.cartridge := by
  unfold write
  split <;> rfl

/-- After a write an address shows the new byte if the same cell answers there, and what it showed
    before otherwise. -/
theorem read_write (m : MemoryMap) (a b : UInt16) (value : UInt8) :
    (m.write a value).read b =
      if Region.of a = Region.of b ∧ Region.of a ≠ .off ∧ Region.of a ≠ .cartridge then value
      else m.read b := by
  unfold write
  generalize Region.of a = s
  cases s <;> cases h : Region.of b <;> simp [read, h]

end MemoryMap

end Nes
