/-
  Cartridge images: from the bytes of a file to a cartridge.

  Behind the header, and the trainer if there is one, lie the program and then the picture data, as
  long as the header says; what follows is of no concern.  Of several faults of an image the first
  in this order is reported: no room for the header, no program, another board than the plain one,
  too short for the program, too short for the picture data.
-/
import Nes.Cartridge.Nrom

namespace Nes

open Nes.Text (decimal)

/-- A cartridge: its header, its picture data and its board. -/
structure Cartridge where
  header : Header
  chr : ByteArray
  board : Nrom

namespace Cartridge

/-- Takes program and picture data out of an image with a known header. -/
def assemble (header : Header) (image : ByteArray) : Except ImageError Cartridge :=
  if hbanks : header.prgRomBanks = 0 then .error .noPrgRom
  else if header.boardNumber ≠ 0 then .error (.unsupportedBoard header.boardNumber)
  else if hprg : image.size < header.prgEnd then .error (.prgTruncated header.prgEnd image.size)
  else if image.size < header.chrEnd then .error (.chrTruncated header.chrEnd image.size)
  else
    have hpos : 0 < header.prgRomSize := by
      have : header.prgRomBanks.toNat ≠ 0 := fun h => hbanks (UInt8.toNat_inj.1 h)
      simp only [Header.prgRomSize, Header.prgBankSize]
      omega
    .ok
      { header := header
        chr := image.extract header.prgEnd header.chrEnd
        board :=
          { prg := image.extract header.prgStart header.prgEnd
            mirroring := header.mirroring
            prg_size_pos := by
              have : header.prgEnd = header.prgStart + header.prgRomSize := rfl
              rw [ByteArray.size_extract]
              omega } }

/-- Reads the cartridge in an image. -/
def ofImage (image : ByteArray) : Except ImageError Cartridge := do
  let header ← Header.read image
  assemble header image

/-- The record that tells what was read. -/
def banner (header : Header) : Record :=
  ⟨.info, .cartridge,
    "PRG ROM " ++ decimal (header.prgRomSize / 1024) ++
      "KB, CHR ROM " ++ decimal (header.chrRomSize / 1024) ++
      "KB, PRG RAM " ++ decimal (header.prgRamSize / 1024) ++
      "KB, mapper " ++ decimal header.boardNumber.toNat ++
      " (" ++ boardName header.boardNumber ++ "), " ++ header.mirroring.name ++
      ", " ++ header.tvSystem.name⟩

/-- What there is to report about an image from which `outcome` was read. -/
def remarks (image : ByteArray) (outcome : Except ImageError Cartridge) : List Record :=
  Header.remarks image ++
    match outcome with
    | .ok cartridge => [banner cartridge.header]
    | .error _ => []

/-- The byte that the cartridge shows at an address. -/
def read (c : Cartridge) (addr : UInt16) : UInt8 := c.board.read addr

/-- What there is to report about a read. -/
def readNote (addr : UInt16) : Option Record := Nrom.readNote addr

/-- How the board wires the picture memory. -/
def mirroring (c : Cartridge) : Mirroring := c.board.mirroring

/-- The header, and how much picture data there is, on one line. -/
def describe (c : Cartridge) : String :=
  "Cartridge \x7b header: " ++ c.header.describe ++
    ", chr_rom: " ++ decimal c.chr.size ++ " bytes, .. \x7d"

end Cartridge

end Nes
