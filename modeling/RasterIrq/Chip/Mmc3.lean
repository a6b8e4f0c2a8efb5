import RasterIrq.Mirroring
import RasterIrq.Window
import RasterIrq.LineIrq
import RasterIrq.Text.Hex

/-!
# The MMC3 register file

Eight ports answer at $8000-$FFFF, two in each program window: an even and an odd address. Four
belong to the memory side (bank selection, bank data, mirroring, program RAM), four to the
interrupt side. A select byte says which of the eight bank registers the next bank data goes to,
which half of the program space is fixed, and which half of the character space has the large
banks. The chip was made in two revisions, which differ in one flag of the counter only.
-/

namespace RasterIrq

/-- The two makes of the chip. -/
inductive Mmc3.Revision where
  | sharp
  | nec
deriving DecidableEq, Repr

/-- The ports that a program can write. -/
inductive Mmc3.Port where
  | bankSelect
  | bankData
  | mirroring
  | ramProtect
  | irqLatch
  | irqReload
  | irqDisable
  | irqEnable
deriving DecidableEq, Repr

structure Mmc3 where
  revision : Mmc3.Revision
  select : UInt8
  /-- The bank registers R0 to R7. -/
  banks : Vector UInt8 8
  /-- The mirroring register, which a four-screen board does not listen to. -/
  mirroring : Mirroring
  ramEnabled : Bool
  ramProtected : Bool
deriving DecidableEq

namespace Mmc3

namespace Revision

/-- Variant 4 of the board carries the second make. -/
def ofSubmapper (submapper : UInt8) : Revision :=
  if submapper = 4 then nec else sharp

def name : Revision → String
  | sharp => "Sharp"
  | nec => "Nec"

/-- The counter runs down and waits at zero for the next edge. Only the first make asserts again
whenever it reloads zero. -/
def counterConfig (r : Revision) : Counter.Config where
  direction := .down
  onTrigger := .holdAtZero
  reloadTiming := .nextReload
  zeroReloadTriggers := r == sharp

end Revision

/-- The port at an address from $8000 on: its window and whether it is even. -/
def port (addr : UInt16) : Port :=
  match (Window.prg addr).val, addr &&& 1 == 0 with
  | 0, true => .bankSelect
  | 0, false => .bankData
  | 1, true => .mirroring
  | 1, false => .ramProtect
  | 2, true => .irqLatch
  | 2, false => .irqReload
  | _, true => .irqDisable
  | _, false => .irqEnable

/-- The registers after power-on, on a board wired for this mirroring. -/
def powerOn (revision : Revision) (wired : Mirroring) : Mmc3 where
  revision := revision
  select := 0
  banks := Vector.replicate 8 0
  mirroring := wired
  ramEnabled := true
  ramProtected := false

/-! ## Writing ports -/

/-- Bank data goes to the register that the low three bits of the select byte name. R0 and R1 hold
pairs of banks and drop their lowest bit. -/
def writeBank (value : UInt8) (r : Mmc3) : Mmc3 :=
  let target := r.select.toNat % 8
  let stored := if target ≤ 1 then value &&& 0xFE else value
  { r with banks := r.banks.set target stored (Nat.mod_lt _ (by decide)) }

/-- The memory side of a port write. -/
def write (wired : Mirroring) (addr : UInt16) (value : UInt8) (r : Mmc3) : Mmc3 :=
  match port addr with
  | .bankSelect => { r with select := value }
  | .bankData => r.writeBank value
  | .mirroring =>
    if wired = .fourScreen then r else { r with mirroring := Mirroring.ofRegister value }
  | .ramProtect =>
    { r with ramEnabled := value &&& 0x80 != 0, ramProtected := value &&& 0x40 != 0 }
  | .irqLatch | .irqReload | .irqDisable | .irqEnable => r

/-- The interrupt side of a port write. -/
def commands (addr : UInt16) (value : UInt8) : List Counter.Command :=
  match port addr with
  | .irqLatch => [.setReload value.toUInt16]
  | .irqReload => [.load 0, .forceReload]
  | .irqDisable => [.setEnabled false, .acknowledge]
  | .irqEnable => [.setEnabled true]
  | .bankSelect | .bankData | .mirroring | .ramProtect => []

/-! ## Banks -/

/-- The bank register with this number, of R0 to R7. -/
def register (r : Mmc3) (n : Nat) : UInt8 :=
  r.banks.getD n 0

theorem register_of_lt (r : Mmc3) {n : Nat} (h : n < 8) : r.register n = r.banks[n] := by
  simp [register, Vector.getD, h]

/-- Bit 6 of the select byte exchanges the first and the third program window. -/
def prgSwapped (r : Mmc3) : Bool :=
  r.select &&& 0x40 != 0

/-- The program bank in a window, on a board with `count` program banks. -/
def prgBank (r : Mmc3) (count : Nat) (window : Fin 4) : Nat :=
  match window.val with
  | 0 => if r.prgSwapped then count - 2 else (r.register 6).toNat
  | 1 => (r.register 7).toNat
  | 2 => if r.prgSwapped then (r.register 6).toNat else count - 2
  | _ => count - 1

/-- Bit 7 of the select byte exchanges the halves of the character space. -/
def chrSwapped (r : Mmc3) : Bool :=
  r.select &&& 0x80 != 0

/-- The four windows with the two large banks. -/
def chrPairs (r : Mmc3) : List UInt8 :=
  let even0 := r.register 0 &&& 0xFE
  let even1 := r.register 1 &&& 0xFE
  [even0, even0 ||| 1, even1, even1 ||| 1]

/-- The four windows with single banks. -/
def chrSingles (r : Mmc3) : List UInt8 :=
  [r.register 2, r.register 3, r.register 4, r.register 5]

/-- The character banks in the eight windows. -/
def chrBanks (r : Mmc3) : List UInt8 :=
  if r.chrSwapped then r.chrSingles ++ r.chrPairs else r.chrPairs ++ r.chrSingles

theorem length_chrBanks (r : Mmc3) : r.chrBanks.length = 8 := by
  unfold chrBanks
  split <;> rfl

/-- The character bank in a window. -/
def chrBank (r : Mmc3) (window : Fin 8) : Nat :=
  (r.chrBanks.get (window.cast r.length_chrBanks.symm)).toNat

/-! ## Saving -/

def bit (b : Bool) : UInt8 :=
  if b then 1 else 0

/-- The control latches as a record holds them. -/
def control (r : Mmc3) : List UInt8 :=
  [r.select, bit r.ramEnabled, bit r.ramProtected]

/-- The registers as a record holds them. Any latch value but zero counts as set. -/
def restore (banks control : List UInt8) (mirroring : Mirroring) (r : Mmc3) : Mmc3 where
  revision := r.revision
  select := control.getD 0 0
  banks := Vector.ofFn fun i => banks.getD i 0
  mirroring := mirroring
  ramEnabled := control.getD 1 0 != 0
  ramProtected := control.getD 2 0 != 0

/-! ## Describing -/

/-- One line that shows all registers and the interrupt side. -/
def describe (r : Mmc3) (irq : LineIrq) : String :=
  "MMC3 (" ++ r.revision.name ++ ") bank_select=$" ++ Hex.byte r.select
    ++ " prg=" ++ Hex.bytes [r.register 6, r.register 7]
    ++ " chr=" ++ Hex.bytes ((List.range 6).map r.register)
    ++ " irq_latch=$" ++ Hex.upper 2 irq.counter.reload.toNat
    ++ " irq_counter=$" ++ Hex.upper 2 irq.counter.count.toNat
    ++ " reload_pending=" ++ toString irq.counter.reloadPending
    ++ " en=" ++ toString irq.counter.enabled
    ++ " pending=" ++ toString irq.counter.pending
    ++ " a12_clocks=" ++ toString irq.monitor.cleanEdges.toNat

end Mmc3

end RasterIrq
