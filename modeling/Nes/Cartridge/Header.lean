/-
  The header of a cartridge image: sixteen bytes that say what follows.

  The image begins with a mark, then come the numbers of 16 KiB program banks and 8 KiB picture
  banks, two bytes of flags that share the number of the board between them, the number of 8 KiB
  banks of program RAM, and the television standard.  Bits that mean nothing are not looked at, and
  neither is the mark: an image without it is read all the same, with a warning.
-/
import Nes.Journal
import Nes.Text.Field
import Nes.Word

namespace Nes

open Nes.Text (decimal truth)

/-- How the picture memory repeats. -/
inductive Mirroring where
  | horizontal
  | vertical
  deriving DecidableEq

/-- The television standards. -/
inductive TvSystem where
  | ntsc
  | pal
  deriving DecidableEq

/-- The name of an arrangement. -/
def Mirroring.name : Mirroring → String
  | .horizontal => "Horizontal"
  | .vertical => "Vertical"

/-- The name of a standard. -/
def TvSystem.name : TvSystem → String
  | .ntsc => "Ntsc"
  | .pal => "Pal"

/-- The name of the board with a given number. -/
def boardName : UInt8 → String
  | 0 => "NROM"
  | 1 => "MMC1"
  | 2 => "UxROM"
  | 3 => "CNROM"
  | 4 => "MMC3"
  | 5 => "MMC5"
  | 7 => "AxROM"
  | 9 => "MMC2"
  | 10 => "MMC4"
  | 66 => "GxROM"
  | 71 => "Camerica"
  | _ => "unknown"

/-- Why an image holds no cartridge. -/
inductive ImageError where
  /-- There is no room for the header. -/
  | tooShort (size : Nat)
  | noPrgRom
  /-- The board is not the plain one. -/
  | unsupportedBoard (number : UInt8)
  /-- The image ends within the program. -/
  | prgTruncated (needed size : Nat)
  /-- The image ends within the picture data. -/
  | chrTruncated (needed size : Nat)
  deriving DecidableEq

/-- The wording of each fault. -/
def ImageError.message : ImageError → String
  | .tooShort size => "image is " ++ decimal size ++ " bytes, shorter than the iNES header"
  | .noPrgRom => "header declares no PRG ROM"
  | .unsupportedBoard number =>
    "unsupported mapper " ++ decimal number.toNat ++ " (" ++ boardName number ++ ")"
  | .prgTruncated needed size =>
    "PRG ROM truncated: need " ++ decimal needed ++ " bytes, image has " ++ decimal size
  | .chrTruncated needed size =>
    "CHR ROM truncated: need " ++ decimal needed ++ " bytes, image has " ++ decimal size

/-- What the header says. -/
structure Header where
  prgRomBanks : UInt8
  chrRomBanks : UInt8
  /-- At least one: none in the image means one. -/
  prgRamBanks : UInt8
  mirroring : Mirroring
  batteryBacked : Bool
  trainerPresent : Bool
  ignoreMirroring : Bool
  vsUnisystem : Bool
  playchoice10 : Bool
  boardNumber : UInt8
  tvSystem : TvSystem
  deriving DecidableEq

namespace Header

/-! ## Sizes -/

/-- The length of the header. -/
def size : Nat := 16

/-- The length of the trainer that may follow it. -/
def trainerSize : Nat := 512

/-- The length of a program bank. -/
def prgBankSize : Nat := 16384

/-- The length of a bank of picture data. -/
def chrBankSize : Nat := 8192

/-- The length of a bank of program RAM. -/
def prgRamBankSize : Nat := 8192

/-- The length of the program. -/
def prgRomSize (h : Header) : Nat := h.prgRomBanks.toNat * prgBankSize

/-- The length of the picture data. -/
def chrRomSize (h : Header) : Nat := h.chrRomBanks.toNat * chrBankSize

/-- The length of the program RAM. -/
def prgRamSize (h : Header) : Nat := h.prgRamBanks.toNat * prgRamBankSize

/-- Where in the image the program begins. -/
def prgStart (h : Header) : Nat := size + if h.trainerPresent then trainerSize else 0

/-- Where in the image the program ends. -/
def prgEnd (h : Header) : Nat := h.prgStart + h.prgRomSize

/-- Where in the image the picture data ends. -/
def chrEnd (h : Header) : Nat := h.prgEnd + h.chrRomSize

/-! ## Reading -/

/-- The header that the six bytes from the fifth on stand for. -/
def ofFields (prgRom chrRom flags6 flags7 prgRam flags9 : UInt8) : Header where
  prgRomBanks := prgRom
  chrRomBanks := chrRom
  prgRamBanks := max prgRam 1
  mirroring := if testBit flags6 0 then .vertical else .horizontal
  batteryBacked := testBit flags6 1
  trainerPresent := testBit flags6 2
  ignoreMirroring := testBit flags6 3
  vsUnisystem := testBit flags7 0
  playchoice10 := testBit flags7 1
  boardNumber := packNibbles (flags7 >>> 4) (flags6 >>> 4)
  tvSystem := if testBit flags9 0 then .pal else .ntsc

/-- Reads the header of an image. -/
def read (image : ByteArray) : Except ImageError Header :=
  if h : image.size < size then .error (.tooShort image.size)
  else
    have : 16 ≤ image.size := Nat.not_lt.1 h
    .ok (ofFields image[4] image[5] image[6] image[7] image[8] image[9])

/-- The mark at the beginning of an image. -/
def mark : List UInt8 := [0x4E, 0x45, 0x53, 0x1A]

/-- What there is to report about the header of an image. -/
def remarks (image : ByteArray) : List Record :=
  if size ≤ image.size ∧ (image.extract 0 4).toList ≠ mark then
    [⟨.warn, .cartridge, "missing iNES magic, parsing header anyway"⟩]
  else []

/-- Everything the header says, on one line. -/
def describe (h : Header) : String :=
  "Header \x7b prg_rom_banks: " ++ decimal h.prgRomBanks.toNat ++
    ", chr_rom_banks: " ++ decimal h.chrRomBanks.toNat ++
    ", prg_ram_banks: " ++ decimal h.prgRamBanks.toNat ++
    ", mirroring: " ++ h.mirroring.name ++
    ", battery_backed: " ++ truth h.batteryBacked ++
    ", trainer_present: " ++ truth h.trainerPresent ++
    ", ignore_mirroring: " ++ truth h.ignoreMirroring ++
    ", vs_unisystem: " ++ truth h.vsUnisystem ++
    ", playchoice_10: " ++ truth h.playchoice10 ++
    ", mapper_number: " ++ decimal h.boardNumber.toNat ++
    ", tv_system: " ++ h.tvSystem.name ++ " \x7d"

end Header

end Nes
