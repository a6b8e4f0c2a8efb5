import RasterIrq.Proofs.Board.Bare
import RasterIrq.Proofs.Board.History
import RasterIrq.Proofs.Chip.Ports
import Mathlib.Data.List.Induction
import Mathlib.Data.Nat.Bitwise

/-!
# Program RAM remembers

The 8 KiB of program RAM on an MMC3 board are a memory: at each address the processor reads what it
last wrote there. Two latches stand in front of the memory. One takes it off the bus, so that it
reads as zero and writes are lost; the other only keeps writes out. A port sets both, a hard reset
and a record that is taken set them too, and nothing else does. No reset and no record changes the
memory itself.

Histories have the last operation first. `Board.ramLatches` reads the latches off a history and
`Board.ramWritten` the last write that got through to an address.

Results:
1. `Board.ramCell_inj`: the addresses from $6000 to $7FFF name different cells.
2. `Board.Remembers.perform`: what one operation does to latches and memory.
3. `Board.programRam_run`: what is read after any run, with as much RAM as the cartridge asks for.
-/

namespace RasterIrq

/-! ## Latches -/

/-- The latches in front of program RAM. -/
structure Mmc3.RamLatches where
  enabled : Bool
  guarded : Bool
deriving DecidableEq, Repr

namespace Mmc3

namespace RamLatches

def powerOn : RamLatches := ⟨true, false⟩

/-- What a port write asks for: bit 7 enables, bit 6 guards. -/
def ofWrite (value : UInt8) : RamLatches := ⟨value.toNat.testBit 7, value.toNat.testBit 6⟩

/-- What a record asks for in its second and third control latch. -/
def ofRecord (record : Record) : RamLatches :=
  ⟨record.control.getD 1 0 != 0, record.control.getD 2 0 != 0⟩

/-- Whether writes get through. -/
def writable (l : RamLatches) : Bool := l.enabled && !l.guarded

end RamLatches

/-- Odd addresses from $A000 to $BFFF. -/
def isRamPort (addr : UInt16) : Bool :=
  decide (0xA000 ≤ addr ∧ addr ≤ 0xBFFF ∧ addr % 2 ≠ 0)

def ramLatches (r : Mmc3) : RamLatches := ⟨r.ramEnabled, r.ramProtected⟩

variable {addr : UInt16}

theorem isRamPort_eq (h : 0x8000 ≤ addr) : isRamPort addr = decide (port addr = .ramProtect) := by
  have hfrom : 0xA000 ≤ addr ↔ ¬ addr ≤ 0x9FFF := by
    simp only [UInt16.le_iff_toNat_le, UInt16.reduceToNat]
    omega
  simp only [isRamPort, port_eq h, hfrom]
  split_ifs <;> simp [*]

theorem not_isRamPort (h : ¬ 0x8000 ≤ addr) : isRamPort addr = false :=
  decide_eq_false fun hport => h (UInt16.le_trans (by decide) hport.1)

/-- A single bit of a value, as the register sees it and by its number. -/
theorem and_bit_bne_zero (value : UInt8) {bit : UInt8} {i : Nat} (hbit : bit.toNat = 2 ^ i) :
    (value &&& bit != 0) = value.toNat.testBit i := by
  have hand : (value &&& bit).toNat = (value.toNat.testBit i).toNat * 2 ^ i := by
    rw [UInt8.toNat_and, hbit, Nat.and_two_pow]
  cases hset : value.toNat.testBit i with
  | false =>
    rw [hset, Bool.toNat_false, Nat.zero_mul] at hand
    exact bne_eq_false_iff_eq.mpr (UInt8.toNat_inj.mp hand)
  | true =>
    rw [hset, Bool.toNat_true, Nat.one_mul] at hand
    refine bne_iff_ne.mpr fun hzero => ?_
    rw [hzero] at hand
    exact absurd hand.symm (Nat.two_pow_pos i).ne'

theorem ramLatches_write (wired : Mirroring) (addr : UInt16) (value : UInt8) (r : Mmc3) :
    (r.write wired addr value).ramLatches
      = if port addr = .ramProtect then .ofWrite value else r.ramLatches := by
  unfold write writeBank
  cases port addr with
  | mirroring => by_cases hwired : wired = .fourScreen <;> simp [hwired, ramLatches]
  | ramProtect =>
    exact congrArg₂ RamLatches.mk (and_bit_bne_zero value (i := 7) rfl)
      (and_bit_bne_zero value (i := 6) rfl)
  | _ => rfl

end Mmc3

namespace Chip

/-- The latches of a chip that has them. -/
def ramLatches? : Chip → Option Mmc3.RamLatches
  | mmc3 r => some r.ramLatches
  | mapper222 _ => none

variable {c : Chip} {l : Mmc3.RamLatches} (h : c.ramLatches? = some l)

include h

theorem ramReadable_eq : c.ramReadable = l.enabled := by
  cases c with
  | mmc3 r =>
    cases h
    rfl
  | mapper222 r => cases h

theorem ramWritable_eq : c.ramWritable = l.writable := by
  cases c with
  | mmc3 r =>
    cases h
    rfl
  | mapper222 r => cases h

theorem layout_of_ramLatches : c.layout = ⟨"MMC3", 8, 3⟩ := by
  cases c with
  | mmc3 r => rfl
  | mapper222 r => cases h

theorem ramLatches?_write (wired : Mirroring) {addr : UInt16} (value : UInt8)
    (hport : 0x8000 ≤ addr) :
    (c.write wired addr value).ramLatches?
      = some (if Mmc3.isRamPort addr then .ofWrite value else l) := by
  cases c with
  | mmc3 r =>
    cases h
    rw [write, ramLatches?, Mmc3.ramLatches_write, Mmc3.isRamPort_eq hport]
    simp only [decide_eq_true_eq]
  | mapper222 r => cases h

theorem ramLatches?_hardReset (wired : Mirroring) :
    (c.hardReset wired).ramLatches? = some .powerOn := by
  cases c with
  | mmc3 r => rfl
  | mapper222 r => cases h

theorem ramLatches?_restore (record : Record) :
    (c.restore record).ramLatches? = some (.ofRecord record) := by
  cases c with
  | mmc3 r => rfl
  | mapper222 r => cases h

end Chip

namespace Board

/-! ## Histories -/

/-- The latches after a history. -/
def ramLatches : List Operation → Mmc3.RamLatches
  | [] => .powerOn
  | op :: earlier =>
    match op with
    | .write addr value => if Mmc3.isRamPort addr then .ofWrite value else ramLatches earlier
    | .reset hard => if hard then .powerOn else ramLatches earlier
    | .load bytes =>
      match taken? ⟨"MMC3", 8, 3⟩ bytes with
      | some record => .ofRecord record
      | none => ramLatches earlier
    | .read _ | .readChr _ | .writeChr _ _ | .notify _ _ => ramLatches earlier

/-- What the last write to an address put there, of those that the latches let through. -/
def ramWritten (addr : UInt16) : List Operation → Option UInt8
  | [] => none
  | op :: earlier =>
    match op with
    | .write target value =>
      if target = addr ∧ (ramLatches earlier).writable then some value else ramWritten addr earlier
    | _ => ramWritten addr earlier

/-! ## Cells -/

/-- The addresses of program RAM name different cells. -/
theorem ramCell_inj {addr other : UInt16} (hfirst : 0x6000 ≤ addr) (hlast : addr < 0x8000)
    (hfirst' : 0x6000 ≤ other) (hlast' : other < 0x8000) :
    ramCell addr = ramCell other ↔ addr = other := by
  constructor
  · intro h
    have hcell : addr.toNat % 0x2000 = other.toNat % 0x2000 := congrArg Fin.val h
    simp only [UInt16.le_iff_toNat_le, UInt16.lt_iff_toNat_lt, UInt16.reduceToNat] at *
    exact UInt16.toNat_inj.mp (by omega)
  · exact congrArg ramCell

theorem read_programRam (b : Board) {addr : UInt16} (hfirst : 0x6000 ≤ addr)
    (hlast : addr < 0x8000) :
    b.read addr = if b.chip.ramReadable then b.ram.get (ramCell addr) else 0 := by
  rw [read, if_neg (UInt16.not_le.mpr hlast)]
  simp only [hfirst, true_and]
  rfl

/-- What a write leaves at an address of program RAM. -/
theorem ram_write (b : Board) (target : UInt16) (value : UInt8) {addr : UInt16}
    (hfirst : 0x6000 ≤ addr) (hlast : addr < 0x8000) :
    (b.write target value).ram.get (ramCell addr)
      = if target = addr ∧ b.chip.ramWritable then value else b.ram.get (ramCell addr) := by
  unfold write
  by_cases hport : 0x8000 ≤ target
  · have hne : target ≠ addr := by
      rintro rfl
      exact UInt16.not_le.mpr hlast hport
    rw [if_pos hport, if_neg fun h => hne h.1]
  · rw [if_neg hport]
    by_cases hram : 0x6000 ≤ target ∧ b.chip.ramWritable = true
    · have hcell := ramCell_inj hram.1 (UInt16.not_le.mp hport) hfirst hlast
      rw [if_pos hram]
      show (b.ram.set (ramCell target) value)[(ramCell addr).val] = _
      rw [Vector.getElem_set]
      simp only [Fin.val_inj, hcell, hram.2, and_true]
      rfl
    · rw [if_neg hram, if_neg]
      rintro ⟨rfl, hwritable⟩
      exact hram ⟨hfirst, hwritable⟩

/-! ## One operation -/

/-- The latches are what the history says, and so is every cell. -/
structure Remembers (past : List Operation) (b : Board) : Prop where
  latches : b.chip.ramLatches? = some (ramLatches past)
  cells : ∀ addr, 0x6000 ≤ addr → addr < 0x8000 →
    b.ram.get (ramCell addr) = (ramWritten addr past).getD 0

namespace Remembers

variable {past : List Operation} {b : Board}

theorem powerOn {cart : Cartridge} (h : ofCartridge cart = .ok b)
    (hfamily : b.chip.family = .mmc3) : Remembers [] b := by
  refine ⟨?_, fun addr _ _ => ?_⟩
  · obtain ⟨-, -, family, -, hchip⟩ := ofCartridge_eq_ok h
    rw [hchip] at hfamily ⊢
    cases family with
    | mmc3 => rfl
    | mapper222 => cases hfamily
  · rw [ram_ofCartridge h]
    exact Vector.getElem_replicate (ramCell addr).isLt

theorem latches_perform (h : Remembers past b) (op : Operation) :
    (b.perform op).chip.ramLatches? = some (ramLatches (op :: past)) := by
  cases op with
  | read addr => exact h.latches
  | write addr value =>
    rw [perform, chip_write_eq, ramLatches]
    split
    · next hport => exact Chip.ramLatches?_write h.latches b.wired value hport
    · next hport =>
      rw [Mmc3.not_isRamPort hport]
      exact h.latches
  | readChr addr => exact h.latches
  | writeChr addr value =>
    refine Eq.trans (congrArg Chip.ramLatches? ?_) h.latches
    rw [perform, writeChr]
    split <;> rfl
  | notify addr cycle => exact h.latches
  | reset hard =>
    cases hard with
    | false => exact h.latches
    | true => exact Chip.ramLatches?_hardReset h.latches b.wired
  | load bytes =>
    rw [perform_load, Chip.layout_of_ramLatches h.latches, ramLatches]
    cases taken? ⟨"MMC3", 8, 3⟩ bytes with
    | none => exact h.latches
    | some record => exact Chip.ramLatches?_restore h.latches record

theorem cells_perform (h : Remembers past b) (op : Operation) {addr : UInt16}
    (hfirst : 0x6000 ≤ addr) (hlast : addr < 0x8000) :
    (b.perform op).ram.get (ramCell addr) = (ramWritten addr (op :: past)).getD 0 := by
  have hcell := h.cells addr hfirst hlast
  cases op with
  | read addr => exact hcell
  | write target value =>
    rw [perform, ram_write b target value hfirst hlast, Chip.ramWritable_eq h.latches, hcell,
      ramWritten]
    split <;> rfl
  | readChr addr => exact hcell
  | writeChr target value =>
    refine Eq.trans (congrArg (Vector.get · (ramCell addr)) ?_) hcell
    rw [perform, writeChr]
    split <;> rfl
  | notify addr cycle => exact hcell
  | reset hard => exact hcell
  | load bytes =>
    refine Eq.trans (congrArg (Vector.get · (ramCell addr)) ?_) hcell
    rw [perform_load]
    split <;> rfl

/-- An operation goes into the history. -/
theorem perform (h : Remembers past b) (op : Operation) :
    Remembers (op :: past) (b.perform op) :=
  ⟨h.latches_perform op, fun _ hfirst hlast => h.cells_perform op hfirst hlast⟩

theorem run (h : Remembers [] b) (ops : List Operation) : Remembers ops.reverse (b.run ops) := by
  induction ops using List.reverseRecOn with
  | nil => exact h
  | append_singleton ops op ih =>
    rw [run_concat, List.reverse_concat]
    exact ih.perform op

theorem read_eq (h : Remembers past b) {addr : UInt16} (hfirst : 0x6000 ≤ addr)
    (hlast : addr < 0x8000) :
    b.read addr
      = if (ramLatches past).enabled then (ramWritten addr past).getD 0 else 0 := by
  rw [read_programRam b hfirst hlast, Chip.ramReadable_eq h.latches, h.cells addr hfirst hlast]

end Remembers

end Board

/-! ## As much RAM as the cartridge asks for -/

theorem Bare.size_ram_ofCartridge {cart : Cartridge} {m : Bare} (h : ofCartridge cart = .ok m)
    (hfamily : m.chip.family = .mmc3) : m.ram.size = max cart.prgRamSize 0x2000 := by
  unfold ofCartridge at h
  repeat' split at h
  all_goals cases h
  next family _ =>
    cases family with
    | mmc3 => exact Array.size_replicate
    | mapper222 => cases hfamily

namespace Board

/-- Program RAM of an MMC3 board after any run. The latches are bits 7 and 6 of the last write to
their port, unless a hard reset or a record came later. While they enable it, every address from
$6000 to $7FFF reads as the last write to it that they let through, and as zero if there was none;
else it reads as zero. So it is on the bare board too, with all the RAM that the cartridge asks for
or 8 KiB if that is less, where a cell is found by a remainder. -/
theorem programRam_run {cart : Cartridge} {start : Board} (hstart : ofCartridge cart = .ok start)
    (hfamily : start.chip.family = .mmc3) (ops : List Operation) :
    let past := ops.reverse
    let remembered addr :=
      if (ramLatches past).enabled then (ramWritten addr past).getD 0 else 0
    (start.run ops).chip.ramLatches? = some (ramLatches past) ∧
    (∀ addr, 0x6000 ≤ addr → addr ≤ 0x7FFF → (start.run ops).read addr = remembered addr) ∧
    ∃ bare after, Bare.ofCartridge cart = .ok bare ∧
      bare.ram.size = max cart.prgRamSize 0x2000 ∧ bare.run ops = .ok after ∧
      ∀ addr, 0x6000 ≤ addr → addr ≤ 0x7FFF → after.read addr = .ok (remembered addr) := by
  intro past remembered
  have hafter := (Remembers.powerOn hstart hfamily).run ops
  have hread : ∀ addr, 0x6000 ≤ addr → addr ≤ 0x7FFF →
      (start.run ops).read addr = remembered addr := fun addr hfirst hlast =>
    hafter.read_eq hfirst (UInt16.lt_of_le_of_lt hlast (by decide))
  refine ⟨hafter.latches, hread, ?_⟩
  have hmade := Bare.ofCartridge_eq cart
  rw [hstart] at hmade
  obtain ⟨bare, hbare, hrepresents⟩ := hmade
  obtain ⟨after, hrun, hrepresents'⟩ := hrepresents.run ops
  have hsize := Bare.size_ram_ofCartridge hbare (hrepresents.chip ▸ hfamily)
  refine ⟨bare, after, hbare, hsize, hrun, fun addr hfirst hlast => ?_⟩
  rw [hrepresents'.read, hread addr hfirst hlast]

/-- A cartridge that asks for 100 bytes. A write is kept out, a record is refused, the memory is
taken off the bus and comes back with a hard reset. -/
theorem programRam_run_small :
    let cart := { Cartridge.blank 4 0 1 1 with prgRamSize := 100 }
    ∃ start, ofCartridge cart = .ok start ∧ start.chip.family = .mmc3 ∧
      let kept := [Operation.write 0x6000 0x11, .write 0x7FFF 0x22, .write 0xA001 0xC0,
        .write 0x6000 0x33, .load []]
      (start.run kept).read 0x6000 = 0x11 ∧
      (start.run (kept ++ [.write 0xBFFF 0x40])).read 0x6000 = 0 ∧
      (start.run (kept ++ [.write 0xBFFF 0x40, .reset true])).read 0x7FFF = 0x22 := by
  intro cart
  obtain ⟨start, hstart, hchip⟩ := exists_ofCartridge_of_memories cart
    (show Family.ofNumber? 4 = some .mmc3 from rfl) 1 1 rfl rfl
  have hfamily : start.chip.family = .mmc3 := by rw [hchip]; rfl
  refine ⟨start, hstart, hfamily, ?_⟩
  intro kept
  refine ⟨?_, ?_, ?_⟩
  · exact ((programRam_run hstart hfamily kept).2.1 0x6000 (by decide) (by decide)).trans (by decide)
  · exact ((programRam_run hstart hfamily _).2.1 0x6000 (by decide) (by decide)).trans (by decide)
  · exact ((programRam_run hstart hfamily _).2.1 0x7FFF (by decide) (by decide)).trans (by decide)

end Board

end RasterIrq
