import RasterIrq.Mirroring
import RasterIrq.Window

/-!
# Cartridges

What a cartridge holds before a board is made of it: the board's number, the wired mirroring and
the two memories. A blank cartridge stands in for an image when only the board matters.
-/

namespace RasterIrq

structure Cartridge where
  /-- The board number. -/
  mapper : UInt16
  /-- The variant of the board. -/
  submapper : UInt8
  /-- The mirroring that the board is wired for. -/
  mirroring : Mirroring
  prg : Array UInt8
  chr : Array UInt8
  /-- Whether the character memory is RAM. -/
  chrIsRam : Bool
  /-- Bytes of program RAM that the image asks for. -/
  prgRamSize : Nat

namespace Cartridge

/-- Banks that each hold their own number, modulo 256, in every cell. -/
def numberedBanks (banks size : Nat) : Array UInt8 :=
  (Array.range (banks * size)).map fun i => UInt8.ofNat (i / size)

/-- A cartridge with numbered banks, at least one of each kind, and no image behind it. -/
def blank (mapper : UInt16) (submapper : UInt8) (prgBanks chrBanks : Nat) : Cartridge where
  mapper := mapper
  submapper := submapper
  mirroring := .vertical
  prg := numberedBanks (max 1 prgBanks) Window.prgSize
  chr := numberedBanks (max 1 chrBanks) Window.chrSize
  chrIsRam := false
  prgRamSize := 8 * 1024

end Cartridge

end RasterIrq
