import RasterIrq.Banked
import RasterIrq.Cartridge
import RasterIrq.Chip
import RasterIrq.Record.Encoding

/-!
# Boards

A board is a cartridge at work: its two switched memories and its program RAM, the register file
of its chip, and the interrupt side. Registers and interrupt side meet only in the writes that reach
the counter. A record holds registers and interrupt side, and no memory.
-/

namespace RasterIrq

structure Board where
  prg : Banked Window.prgSize
  chr : Banked Window.chrSize
  chrIsRam : Bool
  /-- Program RAM at $6000-$7FFF, for a chip that has it. The processor reaches these 8 KiB and no
  more, whatever size the cartridge asks for. -/
  ram : Vector UInt8 0x2000
  /-- The mirroring that the board is wired for. -/
  wired : Mirroring
  chip : Chip
  irq : LineIrq

/-- Why no board can be made of a cartridge. -/
inductive BoardError where
  | unsupportedMapper (number : UInt16)
  | prgSize (size : Nat)
  | chrSize (size : Nat)
deriving DecidableEq, Repr

def BoardError.message : BoardError → String
  | unsupportedMapper number =>
    "unsupported mapper " ++ toString number.toNat
      ++ ": no clocked-IRQ chip is implemented for it"
  | prgSize size =>
    "PRG ROM of " ++ toString size ++ " bytes is not a whole number of 8 KiB banks"
  | chrSize size =>
    "CHR memory of " ++ toString size ++ " bytes is not a whole number of 1 KiB banks"

namespace Board

/-- The board of a cartridge after power-on. Both memories must be whole banks, and the number must
be that of a known family; of several faults this order decides. -/
def ofCartridge (cart : Cartridge) : Except BoardError Board :=
  match Banked.ofCells? Window.prgSize cart.prg with
  | none => .error (.prgSize cart.prg.size)
  | some prg =>
    match Banked.ofCells? Window.chrSize cart.chr with
    | none => .error (.chrSize cart.chr.size)
    | some chr =>
      match Family.ofNumber? cart.mapper with
      | none => .error (.unsupportedMapper cart.mapper)
      | some family =>
        .ok {
          prg := prg
          chr := chr
          chrIsRam := cart.chrIsRam
          ram := Vector.replicate 0x2000 0
          wired := cart.mirroring
          chip := .powerOn family cart.submapper cart.mirroring
          irq := {} }

/-! ## The processor's side -/

/-- The program bank that answers at an address from $8000 on. -/
def prgBank (b : Board) (addr : UInt16) : Nat :=
  b.chip.prgBank b.prg.count (Window.prg addr)

/-- The cell of program RAM at an address from $6000 to $7FFF. -/
def ramCell (addr : UInt16) : Fin 0x2000 :=
  Fin.ofNat 0x2000 addr.toNat

/-- What the processor reads. Nothing answers with zero. -/
def read (b : Board) (addr : UInt16) : UInt8 :=
  if 0x8000 ≤ addr then b.prg.read (b.prgBank addr) addr.toNat
  else if 0x6000 ≤ addr ∧ b.chip.ramReadable then b.ram[ramCell addr]
  else 0

/-- What the processor writes goes to a register or to program RAM. -/
def write (b : Board) (addr : UInt16) (value : UInt8) : Board :=
  if 0x8000 ≤ addr then
    { b with
      chip := b.chip.write b.wired addr value
      irq := b.irq.obeyAll b.chip.wiring (b.chip.commands addr value) }
  else if 0x6000 ≤ addr ∧ b.chip.ramWritable then
    { b with ram := b.ram.set (ramCell addr) value }
  else b

/-! ## The picture unit's side -/

/-- The character bank that answers at an address. -/
def chrBank (b : Board) (addr : UInt16) : Nat :=
  b.chip.chrBank (Window.chr addr)

/-- What the picture unit reads from character memory. -/
def readChr (b : Board) (addr : UInt16) : UInt8 :=
  b.chr.read (b.chrBank addr) addr.toNat

/-- Writes reach character memory only if it is RAM. -/
def writeChr (b : Board) (addr : UInt16) (value : UInt8) : Board :=
  if b.chrIsRam then { b with chr := b.chr.write (b.chrBank addr) addr.toNat value } else b

/-- An address on the picture bus at a cycle. -/
def notify (b : Board) (addr : UInt16) (cycle : UInt64) : Board :=
  { b with irq := b.irq.notify b.chip.wiring addr cycle }

/-! ## Questions -/

/-- The bank that the region shows at an address. -/
def bankAt? (b : Board) (region : Region) (addr : UInt16) : Option Nat :=
  if Window.contains region addr then
    match region with
    | .prg => some (b.prgBank addr % b.prg.count)
    | .chr => some (b.chrBank addr % b.chr.count)
  else none

/-- The mirroring in force. -/
def mirroring (b : Board) : Mirroring :=
  b.chip.mirroring b.wired

/-- Whether the interrupt is asserted. -/
def pending (b : Board) : Bool :=
  b.irq.pending

/-- The interrupt counter's count. -/
def count (b : Board) : UInt16 :=
  b.irq.counter.count

def describe (b : Board) : String :=
  b.chip.describe b.irq

/-! ## Reset, saving and loading -/

/-- A soft reset drops the interrupt. A hard one is power-on, except that memories keep their
contents. -/
def reset (hard : Bool) (b : Board) : Board :=
  { b with
    chip := if hard then b.chip.hardReset b.wired else b.chip
    irq := b.irq.reset hard }

/-- What the board saves of itself. -/
def record (b : Board) : Record where
  chip := b.chip.name
  counter := b.irq.counter
  monitor := b.irq.monitor
  banks := b.chip.banks
  control := b.chip.control
  mirroring := b.chip.mirroringRegister

/-- The record as bytes. -/
def save (b : Board) : List UInt8 :=
  b.record.encode

/-- Takes back a record of the board's own layout. -/
def restore (record : Record) (b : Board) : Except RecordError Board := do
  record.check b.chip.layout
  return { b with
    chip := b.chip.restore record
    irq := ⟨record.counter, record.monitor⟩ }

/-- Takes back a record from bytes. A refused record leaves no trace. -/
def load (bytes : List UInt8) (b : Board) : Except RecordError Board := do
  b.restore (← Record.decode bytes)

end Board

end RasterIrq
