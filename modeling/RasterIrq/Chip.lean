import RasterIrq.Chip.Mmc3
import RasterIrq.Chip.Mapper222
import RasterIrq.Family
import RasterIrq.Record

/-!
# Board chips

The register file of a board is that of its family's chip. This module says for either chip what
its registers select, what a write does to them and to the interrupt counter, and what a record
holds of them. A chip never changes its family or its make.
-/

namespace RasterIrq

inductive Chip where
  | mmc3 (registers : Mmc3)
  | mapper222 (registers : Mapper222)
deriving DecidableEq

namespace Chip

def family : Chip → Family
  | mmc3 _ => .mmc3
  | mapper222 _ => .mapper222

def name (c : Chip) : String :=
  c.family.name

/-- A family's chip after power-on, on a board of this variant, wired for this mirroring. -/
def powerOn (family : Family) (submapper : UInt8) (wired : Mirroring) : Chip :=
  match family with
  | .mmc3 => mmc3 (.powerOn (.ofSubmapper submapper) wired)
  | .mapper222 => mapper222 (.powerOn wired)

/-- Back to the registers of power-on. -/
def hardReset (wired : Mirroring) : Chip → Chip
  | mmc3 r => mmc3 (.powerOn r.revision wired)
  | mapper222 _ => mapper222 (.powerOn wired)

/-! ## The interrupt side -/

def counterConfig : Chip → Counter.Config
  | mmc3 r => r.revision.counterConfig
  | mapper222 _ => Mapper222.counterConfig

/-- How the chip's interrupt side is wired. -/
def wiring (c : Chip) : LineIrq.Wiring where
  window := EdgeSpacing.standardWindow
  counter := c.counterConfig

/-- What a write at an address from $8000 on does to the counter. -/
def commands (c : Chip) (addr : UInt16) (value : UInt8) : List Counter.Command :=
  match c with
  | mmc3 _ => Mmc3.commands addr value
  | mapper222 _ => Mapper222.commands addr value

/-! ## The memory side -/

/-- What a write at an address from $8000 on does to the registers. -/
def write (wired : Mirroring) (addr : UInt16) (value : UInt8) : Chip → Chip
  | mmc3 r => mmc3 (r.write wired addr value)
  | mapper222 r => mapper222 (r.write addr value)

/-- The program bank in a window, on a board with `count` program banks. -/
def prgBank (c : Chip) (count : Nat) (window : Fin 4) : Nat :=
  match c with
  | mmc3 r => r.prgBank count window
  | mapper222 r => r.prgBank count window

/-- The character bank in a window. -/
def chrBank (c : Chip) (window : Fin 8) : Nat :=
  match c with
  | mmc3 r => r.chrBank window
  | mapper222 r => r.chrBank window

/-- Whether program RAM answers. -/
def ramReadable : Chip → Bool
  | mmc3 r => r.ramEnabled
  | mapper222 _ => false

/-- Whether program RAM takes writes. -/
def ramWritable : Chip → Bool
  | mmc3 r => r.ramEnabled && !r.ramProtected
  | mapper222 _ => false

/-- The mirroring register. -/
def mirroringRegister : Chip → Mirroring
  | mmc3 r => r.mirroring
  | mapper222 r => r.mirroring

/-- The mirroring in force. Four-screen wiring overrides the register of an MMC3. -/
def mirroring (wired : Mirroring) (c : Chip) : Mirroring :=
  match c with
  | mmc3 r => if wired = .fourScreen then .fourScreen else r.mirroring
  | mapper222 r => r.mirroring

/-! ## Saving -/

/-- The bank registers as a record holds them. -/
def banks : Chip → List UInt8
  | mmc3 r => r.banks.toList
  | mapper222 r => r.banks

/-- The control latches as a record holds them. -/
def control : Chip → List UInt8
  | mmc3 r => r.control
  | mapper222 _ => []

/-- The form of the records that a chip takes. -/
def layout : Chip → Record.Layout
  | mmc3 _ => ⟨Family.mmc3.name, 8, 3⟩
  | mapper222 _ => ⟨Family.mapper222.name, 10, 0⟩

/-- The registers of a record with the chip's layout. -/
def restore (record : Record) : Chip → Chip
  | mmc3 r => mmc3 (r.restore record.banks record.control record.mirroring)
  | mapper222 _ => mapper222 (.restore record.banks record.mirroring)

/-! ## Describing -/

def describe (c : Chip) (irq : LineIrq) : String :=
  match c with
  | mmc3 r => r.describe irq
  | mapper222 r => r.describe irq

end Chip

end RasterIrq
