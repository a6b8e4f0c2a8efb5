import RasterIrq.Mirroring
import RasterIrq.Window
import RasterIrq.LineIrq
import RasterIrq.Text.Hex

/-!
# The Mapper 222 register file

A port's number is the high digit of its address and the low two bits, of which only 0 and 2 name
one. Each of the two program registers and eight character registers holds the last value written
to its port; one more port sets the mirroring and one starts the interrupt counter. The board has
no program RAM.
-/

namespace RasterIrq

/-- The ports that a program can write. -/
inductive Mapper222.Port where
  | prg (register : Fin 2)
  | chr (register : Fin 8)
  | mirroring
  | irq
deriving DecidableEq, Repr

structure Mapper222 where
  prg : Vector UInt8 2
  chr : Vector UInt8 8
  mirroring : Mirroring
deriving DecidableEq

namespace Mapper222

/-- The counter runs up to 240 and stops there until it is started again. -/
def counterConfig : Counter.Config where
  direction := .up 240
  onTrigger := .halt
  reloadTiming := .immediate
  zeroReloadTriggers := false

/-- The port at an address from $8000 on, if there is one. -/
def port? (addr : UInt16) : Option Port :=
  match addr &&& 0xF003 with
  | 0x8000 => some (.prg 0)
  | 0x9000 => some .mirroring
  | 0xA000 => some (.prg 1)
  | 0xB000 => some (.chr 0)
  | 0xB002 => some (.chr 1)
  | 0xC000 => some (.chr 2)
  | 0xC002 => some (.chr 3)
  | 0xD000 => some (.chr 4)
  | 0xD002 => some (.chr 5)
  | 0xE000 => some (.chr 6)
  | 0xE002 => some (.chr 7)
  | 0xF000 => some .irq
  | _ => none

/-- The registers after power-on: every register holds its own number. -/
def powerOn (wired : Mirroring) : Mapper222 where
  prg := #v[0, 1]
  chr := #v[0, 1, 2, 3, 4, 5, 6, 7]
  mirroring := wired

/-! ## Writing ports -/

/-- The memory side of a port write. -/
def write (addr : UInt16) (value : UInt8) (r : Mapper222) : Mapper222 :=
  match port? addr with
  | some (.prg i) => { r with prg := r.prg.set i value }
  | some (.chr i) => { r with chr := r.chr.set i value }
  | some .mirroring => { r with mirroring := Mirroring.ofRegister value }
  | some .irq => r
  | none => r

/-- The interrupt side of a port write: a value starts the counter there, zero stops it, and both
drop the interrupt. -/
def commands (addr : UInt16) (value : UInt8) : List Counter.Command :=
  if port? addr = some .irq then
    [.setReload value.toUInt16, .setEnabled (value != 0), .acknowledge]
  else []

/-! ## Banks -/

/-- The program bank in a window, on a board with `count` program banks. The upper two windows are
fixed. -/
def prgBank (r : Mapper222) (count : Nat) (window : Fin 4) : Nat :=
  match window.val with
  | 0 => r.prg[0].toNat
  | 1 => r.prg[1].toNat
  | 2 => count - 2
  | _ => count - 1

/-- The character bank in a window. -/
def chrBank (r : Mapper222) (window : Fin 8) : Nat :=
  r.chr[window].toNat

/-! ## Saving -/

/-- The bank registers as a record holds them: first the program ones. -/
def banks (r : Mapper222) : List UInt8 :=
  r.prg.toList ++ r.chr.toList

/-- The registers as a record holds them. -/
def restore (banks : List UInt8) (mirroring : Mirroring) : Mapper222 where
  prg := Vector.ofFn fun i => banks.getD i 0
  chr := Vector.ofFn fun i => banks.getD (2 + i) 0
  mirroring := mirroring

/-! ## Describing -/

/-- One line that shows all registers and the interrupt side. -/
def describe (r : Mapper222) (irq : LineIrq) : String :=
  "Mapper 222 prg=" ++ Hex.bytes r.prg.toList ++ " chr=" ++ Hex.bytes r.chr.toList
    ++ " mirroring=" ++ r.mirroring.name
    ++ " irq_count=" ++ toString irq.counter.count.toNat
    ++ " en=" ++ toString irq.counter.enabled
    ++ " pending=" ++ toString irq.counter.pending
    ++ " a12_clocks=" ++ toString irq.monitor.cleanEdges.toNat

end Mapper222

end RasterIrq
