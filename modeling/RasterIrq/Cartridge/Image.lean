import RasterIrq.Cartridge
import RasterIrq.Family

/-!
# Cartridge images

An image is a 16-byte header, an optional trainer of 512 bytes, the program ROM and the character
ROM. The header comes in an old form (iNES) and in a newer one (NES 2.0), which has more bits for
the board number and the sizes. `Header.ofBytes` reads the header, `Cartridge.ofImage` cuts the
image into its parts. Of two faults the header's is reported first, then an unknown board, then the
first part that is cut short.
-/

namespace RasterIrq

/-- The parts that follow the header. -/
inductive ImagePart where
  | trainer
  | prgRom
  | chrRom
deriving DecidableEq, Repr

def ImagePart.name : ImagePart → String
  | trainer => "trainer"
  | prgRom => "PRG ROM"
  | chrRom => "CHR ROM"

/-- Why bytes are no usable image. -/
inductive ImageError where
  | tooSmall (size : Nat)
  | badMagic
  | exponentSize
  | truncated (part : ImagePart) (expected found : Nat)
  | unsupportedMapper (number : UInt16)
deriving DecidableEq, Repr

def ImageError.message : ImageError → String
  | tooSmall size =>
    "ROM is too small to contain an iNES header (" ++ toString size ++ " bytes)"
  | badMagic => "invalid iNES header magic, expected NES<EOF>"
  | exponentSize => "NES 2.0 exponent-multiplier ROM sizes are not supported"
  | truncated part expected found =>
    "ROM truncated: " ++ part.name ++ " needs " ++ toString expected ++ " bytes, "
      ++ toString found ++ " left"
  | unsupportedMapper number =>
    "mapper " ++ toString number.toNat ++ " has no scanline IRQ chip in this crate"

/-- What the first 16 bytes of an image say. -/
structure Header where
  mapper : UInt16
  submapper : UInt8
  mirroring : Mirroring
  hasTrainer : Bool
  prgRomSize : Nat
  /-- Zero for a board with character RAM. -/
  chrRomSize : Nat
  prgRamSize : Nat
deriving DecidableEq, Repr

namespace Header

def size : Nat := 16
def trainerSize : Nat := 512
def prgUnit : Nat := 16 * 1024
def chrUnit : Nat := 8 * 1024

/-- The four bytes that every image starts with. -/
def magic : List UInt8 := [0x4E, 0x45, 0x53, 0x1A]

/-- Bits 2 and 3 of byte 7 mark the newer form. -/
def isNes2 (flags7 : UInt8) : Bool :=
  flags7 &&& 0x0C == 0x08

/-- Bit 3 of byte 6 is four-screen wiring; else bit 0 tells vertical from horizontal. -/
def mirroringOf (flags6 : UInt8) : Mirroring :=
  if flags6 &&& 0x08 != 0 then .fourScreen
  else if flags6 &&& 0x01 != 0 then .vertical
  else .horizontal

/-- Reads the 16 bytes of a header whose magic was found. -/
def ofFields (byte : Nat → UInt8) : Except ImageError Header :=
  let flags6 := byte 6
  let flags7 := byte 7
  let lowNumber : UInt16 := (flags6.toUInt16 >>> 4) ||| (flags7.toUInt16 &&& 0xF0)
  if isNes2 flags7 then
    let prgHigh := (byte 9 &&& 0x0F).toNat
    let chrHigh := (byte 9 >>> 4).toNat
    if prgHigh = 0x0F ∨ chrHigh = 0x0F then
      .error .exponentSize
    else
      let ramShift := (byte 10 &&& 0x0F).toNat
      .ok {
        mapper := lowNumber ||| ((byte 8).toUInt16 &&& 0x0F) <<< 8
        submapper := byte 8 >>> 4
        mirroring := mirroringOf flags6
        hasTrainer := flags6 &&& 0x04 != 0
        prgRomSize := max 1 (prgHigh * 256 + (byte 4).toNat) * prgUnit
        chrRomSize := (chrHigh * 256 + (byte 5).toNat) * chrUnit
        prgRamSize := if ramShift = 0 then 0 else 64 <<< ramShift }
  else
    .ok {
      mapper := lowNumber
      submapper := 0
      mirroring := mirroringOf flags6
      hasTrainer := flags6 &&& 0x04 != 0
      prgRomSize := max 1 (byte 4).toNat * prgUnit
      chrRomSize := (byte 5).toNat * chrUnit
      prgRamSize := max 1 (byte 8).toNat * (8 * 1024) }

/-- Reads the header at the start of an image. -/
def ofBytes (bytes : Array UInt8) : Except ImageError Header :=
  if bytes.size < size then .error (.tooSmall bytes.size)
  else if (bytes.extract 0 4).toList ≠ magic then .error .badMagic
  else ofFields fun i => bytes.getD i 0

/-- Where the program ROM starts. -/
def prgStart (h : Header) : Nat :=
  size + if h.hasTrainer then trainerSize else 0

/-- Where the character ROM starts. -/
def chrStart (h : Header) : Nat :=
  h.prgStart + h.prgRomSize

end Header

namespace Cartridge

/-- The `length` bytes of a part that starts at `start`. -/
def part (bytes : Array UInt8) (name : ImagePart) (start length : Nat) :
    Except ImageError (Array UInt8) :=
  if bytes.size - start < length then .error (.truncated name length (bytes.size - start))
  else .ok (bytes.extract start (start + length))

/-- The cartridge in an image. A board without character ROM carries 8 KiB of character RAM. -/
def ofImage (bytes : Array UInt8) : Except ImageError Cartridge := do
  let header ← Header.ofBytes bytes
  if Family.isSupported header.mapper then
    if header.hasTrainer then
      let _ ← part bytes .trainer Header.size Header.trainerSize
    let prg ← part bytes .prgRom header.prgStart header.prgRomSize
    let chr ←
      if header.chrRomSize = 0 then .ok (Array.replicate Header.chrUnit 0)
      else part bytes .chrRom header.chrStart header.chrRomSize
    return {
      mapper := header.mapper
      submapper := header.submapper
      mirroring := header.mirroring
      prg := prg
      chr := chr
      chrIsRam := header.chrRomSize = 0
      prgRamSize := header.prgRamSize }
  else
    .error (.unsupportedMapper header.mapper)

end Cartridge

end RasterIrq
