import RasterIrq.Proofs.Board.Banks
import RasterIrq.Proofs.Cartridge.Parts
import RasterIrq.Proofs.Chip.Indexing

/-!
# Bare boards

A `Board` has whole banks, program RAM of the one size that matters, and indices with proofs. A bare
board has three byte arrays of whatever size the cartridge gave them, and every difference,
remainder and index in it is a step that can fault. What makes such a step go well is spread out:
the checks at power-on, the remainders taken elsewhere, the address ranges tested in front.
`Bare.Represents` brings it together: a bare board that represents a board never faults, answers as
that board does, and goes on to represent it.

Results:
1. `Bare.Represents.perform`: an operation on a bare board does what it does on a board.
2. `Bare.Represents.run`: so does a run.
3. `Bare.never_faults`: from the bytes of an image to the end of any run, no step faults.
-/

namespace RasterIrq

structure Bare where
  prg : Array UInt8
  chr : Array UInt8
  chrIsRam : Bool
  /-- All program RAM: more than the processor reaches if the cartridge asks for it, or none. -/
  ram : Array UInt8
  wired : Mirroring
  chip : Chip
  irq : LineIrq

namespace Bare

/-! ## Power-on -/

/-- An MMC3 board has at least the 8 KiB that the processor reaches, the other board has none. -/
def ramSize (family : Family) (asked : Nat) : Nat :=
  match family with
  | .mmc3 => max asked 0x2000
  | .mapper222 => 0

def ofCartridge (cart : Cartridge) : Except BoardError Bare :=
  if cart.prg.size = 0 ∨ cart.prg.size % Window.prgSize ≠ 0 then .error (.prgSize cart.prg.size)
  else if cart.chr.size = 0 ∨ cart.chr.size % Window.chrSize ≠ 0 then
    .error (.chrSize cart.chr.size)
  else
    match Family.ofNumber? cart.mapper with
    | none => .error (.unsupportedMapper cart.mapper)
    | some family =>
      .ok {
        prg := cart.prg
        chr := cart.chr
        chrIsRam := cart.chrIsRam
        ram := Array.replicate (ramSize family cart.prgRamSize) 0
        wired := cart.mirroring
        chip := .powerOn family cart.submapper cart.mirroring
        irq := {} }

/-! ## Banks and cells -/

def bankCount (cells : Array UInt8) (size : Nat) : Nat :=
  max 1 (cells.size / size)

/-- Bank numbers wrap around at the number of banks, and cell numbers at the number of cells. -/
def cellIndex (cells : Array UInt8) (size bank offset : Nat) : Except Fault Nat := do
  let wrapped ← Fault.mod bank (bankCount cells size)
  Fault.mod (wrapped * size + offset) cells.size

def cellAt (cells : Array UInt8) (size bank offset : Nat) : Except Fault UInt8 := do
  let i ← cellIndex cells size bank offset
  Fault.item cells i

def prgBank (m : Bare) (addr : UInt16) : Except Fault Nat :=
  m.chip.prgBankInSteps (bankCount m.prg Window.prgSize) addr

def chrBank (m : Bare) (addr : UInt16) : Except Fault Nat :=
  m.chip.chrBankInSteps addr

def bankAt? (m : Bare) (region : Region) (addr : UInt16) : Except Fault (Option Nat) :=
  if Window.contains region addr then
    match region with
    | .prg => do
      let bank ← m.prgBank addr
      let shown ← Fault.mod bank (bankCount m.prg Window.prgSize)
      return some shown
    | .chr => do
      let bank ← m.chrBank addr
      let shown ← Fault.mod bank (bankCount m.chr Window.chrSize)
      return some shown
  else return none

/-! ## Program RAM -/

/-- Program RAM answers from $6000 on and repeats at its size. -/
def ramIndex (m : Bare) (addr : UInt16) : Except Fault Nat := do
  let offset ← Fault.sub addr.toNat 0x6000
  Fault.mod offset m.ram.size

def readRam (m : Bare) (addr : UInt16) : Except Fault UInt8 :=
  if m.ram.size = 0 then return 0
  else do
    let i ← m.ramIndex addr
    Fault.item m.ram i

def writeRam (m : Bare) (addr : UInt16) (value : UInt8) : Except Fault Bare :=
  if m.ram.size = 0 then return m
  else do
    let i ← m.ramIndex addr
    let ram ← Fault.put m.ram i value
    return { m with ram }

/-! ## Operations -/

def read (m : Bare) (addr : UInt16) : Except Fault UInt8 :=
  if 0x8000 ≤ addr then do
    let bank ← m.prgBank addr
    cellAt m.prg Window.prgSize bank (addr.toNat &&& 0x1FFF)
  else if 0x6000 ≤ addr ∧ m.chip.ramReadable then m.readRam addr
  else return 0

def write (m : Bare) (addr : UInt16) (value : UInt8) : Except Fault Bare :=
  if 0x8000 ≤ addr then do
    let chip ← m.chip.writeInSteps m.wired addr value
    return { m with
      chip := chip
      irq := m.irq.obeyAll m.chip.wiring (m.chip.commands addr value) }
  else if 0x6000 ≤ addr ∧ m.chip.ramWritable then m.writeRam addr value
  else return m

def readChr (m : Bare) (addr : UInt16) : Except Fault UInt8 := do
  let bank ← m.chrBank addr
  cellAt m.chr Window.chrSize bank (addr.toNat &&& 0x3FF)

/-- The bank is looked up before it is known whether the memory takes writes. -/
def writeChr (m : Bare) (addr : UInt16) (value : UInt8) : Except Fault Bare := do
  let bank ← m.chrBank addr
  if m.chrIsRam then
    let i ← cellIndex m.chr Window.chrSize bank (addr.toNat &&& 0x3FF)
    let chr ← Fault.put m.chr i value
    return { m with chr }
  else return m

def notify (m : Bare) (addr : UInt16) (cycle : UInt64) : Except Fault Bare := do
  let irq ← m.irq.notifyInSteps m.chip.wiring addr cycle
  return { m with irq }

def reset (hard : Bool) (m : Bare) : Bare :=
  { m with
    chip := if hard then m.chip.hardReset m.wired else m.chip
    irq := m.irq.reset hard }

def load (bytes : List UInt8) (m : Bare) : Except Stop Bare := do
  let record ← Record.decodeInSteps bytes
  let _ ← (record.check m.chip.layout).mapError Stop.refused
  let chip ← m.chip.restoreInSteps record
  return { m with chip := chip, irq := ⟨record.counter, record.monitor⟩ }

/-- An operation with all its steps. A read is carried out although its byte is not kept, and only a
refused record may stop a load. -/
def perform (m : Bare) : Board.Operation → Except Fault Bare
  | .read addr => do
    let _ ← m.read addr
    return m
  | .write addr value => m.write addr value
  | .readChr addr => do
    let _ ← m.readChr addr
    return m
  | .writeChr addr value => m.writeChr addr value
  | .notify addr cycle => m.notify addr cycle
  | .reset hard => return m.reset hard
  | .load bytes =>
    match m.load bytes with
    | .ok loaded => .ok loaded
    | .error (.refused _) => .ok m
    | .error .outOfRange => .error .outOfRange

def run (m : Bare) (ops : List Board.Operation) : Except Fault Bare :=
  ops.foldlM perform m

/-! ## Cells of whole banks -/

section Cells

variable {size : Nat} (cells : Banked size)

theorem bankCount_cells : bankCount cells.cells size = cells.count :=
  Nat.max_eq_right cells.count_pos

theorem cellIndex_cells (bank offset : Nat) :
    cellIndex cells.cells size bank (offset % size) = .ok (cells.index bank offset) := by
  rw [cellIndex, bankCount_cells, Fault.mod_eq_ok cells.count_pos, Fault.ok_bind,
    Fault.mod_eq_ok cells.cells_pos]
  exact congrArg Except.ok (Nat.mod_eq_of_lt (cells.index_lt bank offset))

theorem cellAt_cells (bank offset : Nat) :
    cellAt cells.cells size bank (offset % size) = .ok (cells.read bank offset) := by
  rw [cellAt, cellIndex_cells, Fault.ok_bind, Fault.item_eq_ok (cells.index_lt bank offset)]
  rfl

end Cells

/-! ## What a bare board represents -/

/-- The bare board has the board's memories, registers and interrupt side. Of program RAM the part
that the processor reaches counts, and only if the chip lets it. -/
structure Represents (m : Bare) (b : Board) : Prop where
  prg : m.prg = b.prg.cells
  chr : m.chr = b.chr.cells
  chrIsRam : m.chrIsRam = b.chrIsRam
  ram : b.chip.family = .mmc3 → ∀ i (h : i < 0x2000), m.ram[i]? = some b.ram[i]
  wired : m.wired = b.wired
  chip : m.chip = b.chip
  irq : m.irq = b.irq

/-- A bare board is made whenever a board is, and then represents it. -/
theorem ofCartridge_eq (cart : Cartridge) :
    match Board.ofCartridge cart with
    | .ok b => ∃ m, ofCartridge cart = .ok m ∧ Represents m b
    | .error e => ofCartridge cart = .error e := by
  unfold ofCartridge Board.ofCartridge Banked.ofCells?
  -- What one side takes is what the other does not refuse, size by size.
  by_cases hprg : 0 < cart.prg.size ∧ cart.prg.size % Window.prgSize = 0
  · rw [dif_pos hprg, if_neg (by omega)]
    by_cases hchr : 0 < cart.chr.size ∧ cart.chr.size % Window.chrSize = 0
    · rw [dif_pos hchr, if_neg (by omega)]
      cases Family.ofNumber? cart.mapper with
      | none => rfl
      | some family =>
        refine ⟨_, rfl, rfl, rfl, rfl, fun hfamily i hi => ?_, rfl, rfl, rfl⟩
        cases family with
        | mapper222 => cases hfamily
        | mmc3 =>
          have hsize : i < max cart.prgRamSize 0x2000 :=
            Nat.lt_of_lt_of_le hi (Nat.le_max_right cart.prgRamSize 0x2000)
          rw [Array.getElem?_replicate, ramSize, if_pos hsize, Vector.getElem_replicate]
    · rw [dif_neg hchr, if_pos (by omega)]
  · rw [dif_neg hprg, if_pos (by omega)]

namespace Represents

variable {m : Bare} {b : Board} (h : Represents m b)

include h

theorem prgBank (addr : UInt16) : m.prgBank addr = .ok (b.prgBank addr) := by
  rw [Bare.prgBank, h.chip, h.prg, bankCount_cells,
    Chip.prgBankInSteps_eq b.chip b.prg.count_pos]
  rfl

theorem chrBank (addr : UInt16) : m.chrBank addr = .ok (b.chrBank addr) := by
  rw [Bare.chrBank, h.chip, Chip.chrBankInSteps_eq]
  rfl

theorem bankAt? (region : Region) (addr : UInt16) :
    m.bankAt? region addr = .ok (b.bankAt? region addr) := by
  unfold Bare.bankAt? Board.bankAt?
  by_cases hcontains : Window.contains region addr = true
  · rw [if_pos hcontains, if_pos hcontains]
    cases region with
    | prg =>
      simp only [h.prgBank, h.prg, bankCount_cells, Fault.ok_bind, Fault.mod_eq_ok b.prg.count_pos]
      rfl
    | chr =>
      simp only [h.chrBank, h.chr, bankCount_cells, Fault.ok_bind, Fault.mod_eq_ok b.chr.count_pos]
      rfl
  · rw [if_neg hcontains, if_neg hcontains]
    rfl

/-! ### Program RAM -/

theorem ramSize_le (hfamily : b.chip.family = .mmc3) : 0x2000 ≤ m.ram.size := by
  obtain ⟨hlast, -⟩ := Array.getElem?_eq_some_iff.mp (h.ram hfamily 0x1FFF (by decide))
  exact hlast

/-- Between $6000 and $7FFF the difference is not negative, and its remainder is the number of the
cell. -/
theorem ramIndex {addr : UInt16} (hfamily : b.chip.family = .mmc3) (hfirst : 0x6000 ≤ addr)
    (hlast : ¬ 0x8000 ≤ addr) : m.ramIndex addr = .ok (Board.ramCell addr).val := by
  have hsize := h.ramSize_le hfamily
  have hfirst' : 0x6000 ≤ addr.toNat := UInt16.le_iff_toNat_le.mp hfirst
  have hlast' : addr.toNat < 0x8000 := UInt16.lt_iff_toNat_lt.mp (UInt16.not_le.mp hlast)
  rw [Bare.ramIndex, Fault.sub_eq_ok hfirst', Fault.ok_bind, Fault.mod_eq_ok (by omega)]
  have hcell : (addr.toNat - 0x6000) % m.ram.size = addr.toNat % 0x2000 := by
    rw [Nat.mod_eq_of_lt (by omega)]
    omega
  rw [hcell]
  rfl

theorem readRam {addr : UInt16} (hfamily : b.chip.family = .mmc3) (hfirst : 0x6000 ≤ addr)
    (hlast : ¬ 0x8000 ≤ addr) : m.readRam addr = .ok (b.ram.get (Board.ramCell addr)) := by
  have hsize := h.ramSize_le hfamily
  have hcell := h.ram hfamily (Board.ramCell addr).val (Board.ramCell addr).isLt
  rw [Bare.readRam, if_neg (by omega), h.ramIndex hfamily hfirst hlast, Fault.ok_bind,
    Fault.item_eq_ok_of_getElem? hcell]
  rfl

theorem writeRam {addr : UInt16} (value : UInt8) (hfamily : b.chip.family = .mmc3)
    (hfirst : 0x6000 ≤ addr) (hlast : ¬ 0x8000 ≤ addr) :
    ∃ m', m.writeRam addr value = .ok m' ∧
      Represents m'
        { b with ram := b.ram.set (Board.ramCell addr).val value (Board.ramCell addr).isLt } := by
  have hsize := h.ramSize_le hfamily
  have hlt : (Board.ramCell addr).val < m.ram.size :=
    Nat.lt_of_lt_of_le (Board.ramCell addr).isLt hsize
  refine ⟨{ m with ram := m.ram.set (Board.ramCell addr) value hlt }, ?_, ?_⟩
  · rw [Bare.writeRam, if_neg (by omega), h.ramIndex hfamily hfirst hlast, Fault.ok_bind,
      Fault.put_eq_ok hlt]
    rfl
  · refine { h with ram := fun hfamily i hi => ?_ }
    rw [Array.getElem?_set, Vector.getElem_set]
    split
    · rfl
    · exact h.ram hfamily i hi

/-! ### Operations -/

theorem read (addr : UInt16) : m.read addr = .ok (b.read addr) := by
  unfold Bare.read Board.read
  by_cases hrom : 0x8000 ≤ addr
  · rw [if_pos hrom, if_pos hrom, h.prgBank, Fault.ok_bind, h.prg, Window.and_prgMask,
      cellAt_cells]
  rw [if_neg hrom, if_neg hrom, h.chip]
  by_cases hram : 0x6000 ≤ addr ∧ b.chip.ramReadable = true
  · rw [if_pos hram, if_pos hram]
    exact h.readRam (Chip.family_of_ramReadable hram.2) hram.1 hrom
  · rw [if_neg hram, if_neg hram]
    rfl

theorem write (addr : UInt16) (value : UInt8) :
    ∃ m', m.write addr value = .ok m' ∧ Represents m' (b.write addr value) := by
  unfold Bare.write Board.write
  by_cases hport : 0x8000 ≤ addr
  · have hfamily := Chip.family_eq_of_make (Chip.make_write b.wired addr value b.chip)
    rw [if_pos hport, if_pos hport, h.wired, h.chip, h.irq, Chip.writeInSteps_eq]
    -- Program RAM is kept, and the chip still is one that lets the processor reach it or not.
    refine ⟨_, rfl, { h with ram := fun hmmc3 => ?_, wired := rfl, chip := rfl, irq := rfl }⟩
    exact h.ram (hfamily ▸ hmmc3)
  rw [if_neg hport, if_neg hport, h.chip]
  by_cases hram : 0x6000 ≤ addr ∧ b.chip.ramWritable = true
  · rw [if_pos hram, if_pos hram]
    exact h.writeRam value (Chip.family_of_ramWritable hram.2) hram.1 hport
  · rw [if_neg hram, if_neg hram]
    exact ⟨m, rfl, h⟩

theorem readChr (addr : UInt16) : m.readChr addr = .ok (b.readChr addr) := by
  rw [Bare.readChr, h.chrBank, Fault.ok_bind, h.chr, Window.and_chrMask, cellAt_cells]
  rfl

theorem writeChr (addr : UInt16) (value : UInt8) :
    ∃ m', m.writeChr addr value = .ok m' ∧ Represents m' (b.writeChr addr value) := by
  rw [Bare.writeChr, Board.writeChr, h.chrBank, Fault.ok_bind, h.chrIsRam]
  by_cases hram : b.chrIsRam = true
  · rw [if_pos hram, if_pos hram, h.chr, Window.and_chrMask, cellIndex_cells, Fault.ok_bind,
      Fault.put_eq_ok (b.chr.index_lt (b.chrBank addr) addr.toNat)]
    exact ⟨_, rfl, { h with chr := rfl, chrIsRam := rfl }⟩
  · rw [if_neg hram, if_neg hram]
    exact ⟨m, rfl, h⟩

theorem notify (addr : UInt16) (cycle : UInt64) :
    ∃ m', m.notify addr cycle = .ok m' ∧ Represents m' (b.notify addr cycle) := by
  rw [Bare.notify, LineIrq.notifyInSteps_eq, Fault.ok_bind, h.irq, h.chip]
  exact ⟨_, rfl, { h with chip := rfl, irq := rfl }⟩

theorem reset (hard : Bool) : Represents (m.reset hard) (b.reset hard) := by
  have hfamily := (Chip.family_eq_of_make (Board.SameBuild.reset hard b).make).symm
  refine { h with ram := fun hmmc3 => h.ram (hfamily ▸ hmmc3), chip := ?_, irq := ?_ }
  · show (if hard then m.chip.hardReset m.wired else m.chip) = _
    rw [h.chip, h.wired]
    rfl
  · show m.irq.reset hard = _
    rw [h.irq]
    rfl

/-- A load is refused for the reason that the board gives, or goes well. -/
theorem load (bytes : List UInt8) :
    match b.load bytes with
    | .ok loaded => ∃ m', m.load bytes = .ok m' ∧ Represents m' loaded
    | .error e => m.load bytes = .error (.refused e) := by
  rw [Board.load_eq, Bare.load, Record.decodeInSteps_eq]
  cases Record.decode bytes with
  | error e => rfl
  | ok record =>
    have hfamily := Chip.family_eq_of_make (Chip.make_restore record b.chip)
    dsimp only
    rw [h.chip]
    cases hcheck : record.check b.chip.layout with
    | error e =>
      rw [Board.restore_eq_error hcheck]
      show (Except.mapError Stop.refused (record.check b.chip.layout) >>= _) = _
      rw [hcheck]
      rfl
    | ok u =>
      rw [Board.restore_eq_ok hcheck]
      refine ⟨{ m with chip := b.chip.restore record, irq := ⟨record.counter, record.monitor⟩ },
        ?_, { h with ram := fun hmmc3 => h.ram (hfamily ▸ hmmc3), chip := rfl, irq := rfl }⟩
      show (Except.mapError Stop.refused (record.check b.chip.layout) >>= _) = _
      rw [hcheck, Chip.restoreInSteps_eq hcheck]
      rfl

/-- An operation on a bare board does what it does on the board that it represents. -/
theorem perform (op : Board.Operation) :
    ∃ m', m.perform op = .ok m' ∧ Represents m' (b.perform op) := by
  cases op with
  | read addr =>
    refine ⟨m, ?_, h⟩
    rw [Bare.perform, h.read]
    rfl
  | write addr value => exact h.write addr value
  | readChr addr =>
    refine ⟨m, ?_, h⟩
    rw [Bare.perform, h.readChr]
    rfl
  | writeChr addr value => exact h.writeChr addr value
  | notify addr cycle => exact h.notify addr cycle
  | reset hard => exact ⟨m.reset hard, rfl, h.reset hard⟩
  | load bytes =>
    have hload := h.load bytes
    rw [Bare.perform, Board.perform]
    cases hboard : b.load bytes with
    | ok loaded =>
      rw [hboard] at hload
      obtain ⟨m', hm', hrepresents⟩ := hload
      rw [hm']
      exact ⟨m', rfl, hrepresents⟩
    | error e =>
      rw [hboard] at hload
      rw [hload]
      exact ⟨m, rfl, h⟩

/-- A run on a bare board goes through, and does what it does on the board. -/
theorem run (ops : List Board.Operation) :
    ∃ m', m.run ops = .ok m' ∧ Represents m' (b.run ops) := by
  induction ops generalizing m b with
  | nil => exact ⟨m, rfl, h⟩
  | cons op ops ih =>
    obtain ⟨next, hnext, hrepresents⟩ := h.perform op
    obtain ⟨m', hm', hafter⟩ := ih hrepresents
    refine ⟨m', ?_, hafter⟩
    rw [Bare.run, List.foldlM_cons, hnext, Fault.ok_bind]
    exact hm'

end Represents

/-! ## From the image to the end of a run -/

theorem exists_ofCartridge_iff (cart : Cartridge) :
    (∃ m, ofCartridge cart = .ok m) ↔ ∃ b, Board.ofCartridge cart = .ok b := by
  have hmade := ofCartridge_eq cart
  cases hboard : Board.ofCartridge cart with
  | ok b =>
    rw [hboard] at hmade
    obtain ⟨m, hm, -⟩ := hmade
    exact ⟨fun _ => ⟨b, rfl⟩, fun _ => ⟨m, hm⟩⟩
  | error e =>
    rw [hboard] at hmade
    rw [hmade]
    constructor
    · rintro ⟨m, hm⟩
      cases hm
    · rintro ⟨b, hb⟩
      cases hb

/-- A bare board starts out representing the board of its cartridge. -/
theorem represents_ofCartridge {cart : Cartridge} {m : Bare} (h : ofCartridge cart = .ok m) :
    ∃ b, Board.ofCartridge cart = .ok b ∧ Represents m b := by
  obtain ⟨b, hb⟩ := (exists_ofCartridge_iff cart).mp ⟨m, h⟩
  have hmade := ofCartridge_eq cart
  rw [hb] at hmade
  obtain ⟨m', hm', hrepresents⟩ := hmade
  obtain rfl : m' = m := Except.ok.inj (hm'.symm.trans h)
  exact ⟨b, hb, hrepresents⟩

/-- No step faults. Every byte string is taken apart or refused, what it holds makes a bare board,
and so does every cartridge of whole banks with a known number, whatever program RAM it asks for.
From there every run goes through, whatever is written, loaded or put on the bus, and in the end
every address can be read and asked about. All answers are those of the board of the cartridge. -/
theorem never_faults :
    (∀ bytes, (Cartridge.ofImageInSteps bytes).run = .ok (Cartridge.ofImage bytes)) ∧
    (∀ bytes cart, Cartridge.ofImage bytes = .ok cart → ∃ m, ofCartridge cart = .ok m) ∧
    (∀ cart : Cartridge, (∃ m, ofCartridge cart = .ok m) ↔
      (0 < cart.prg.size ∧ cart.prg.size % 0x2000 = 0) ∧
      (0 < cart.chr.size ∧ cart.chr.size % 0x400 = 0) ∧
      (cart.mapper = 4 ∨ cart.mapper = 222)) ∧
    ∀ cart m, ofCartridge cart = .ok m →
      ∃ b, Board.ofCartridge cart = .ok b ∧
        ∀ ops, ∃ after, m.run ops = .ok after ∧
          (∀ addr, after.read addr = .ok ((b.run ops).read addr)) ∧
          (∀ addr, after.readChr addr = .ok ((b.run ops).readChr addr)) ∧
          (∀ region addr, after.bankAt? region addr = .ok ((b.run ops).bankAt? region addr)) ∧
          after.chip = (b.run ops).chip ∧ after.irq = (b.run ops).irq := by
  refine ⟨fun bytes => ?_, fun bytes cart h => ?_, fun cart => ?_, fun cart m h => ?_⟩
  · rw [Cartridge.ofImageInSteps_eq]
    rfl
  · exact (exists_ofCartridge_iff cart).mpr (Cartridge.exists_board_of_ofImage h)
  · rw [exists_ofCartridge_iff, Board.exists_ofCartridge_iff, Family.isSupported_iff]
    rfl
  · obtain ⟨b, hb, hrepresents⟩ := represents_ofCartridge h
    refine ⟨b, hb, fun ops => ?_⟩
    obtain ⟨after, hafter, hrun⟩ := hrepresents.run ops
    exact ⟨after, hafter, hrun.read, hrun.readChr, hrun.bankAt?, hrun.chip, hrun.irq⟩

/-- An image of 16 KiB program ROM and no more makes a board of two banks with character RAM, and a
blank cartridge one with a single bank. -/
theorem never_faults_smallest :
    (let header := #[0x4E, 0x45, 0x53, 0x1A, 1, 0, 0x40, 0, 0, 0, 0, 0, 0, 0, 0, 0]
      ∃ cart m, Cartridge.ofImage (header ++ Array.replicate 0x4000 0) = .ok cart ∧
        ofCartridge cart = .ok m ∧ ∀ ops, ∃ after, m.run ops = .ok after) ∧
    ∃ m, ofCartridge (Cartridge.blank 222 0 1 1) = .ok m ∧
      ∀ ops, ∃ after, m.run ops = .ok after := by
  obtain ⟨-, hmade, haccepted, hruns⟩ := never_faults
  have hgoes : ∀ cart m, ofCartridge cart = .ok m → ∀ ops, ∃ after, m.run ops = .ok after := by
    intro cart m hm ops
    obtain ⟨b, -, hrun⟩ := hruns cart m hm
    obtain ⟨after, hafter, -⟩ := hrun ops
    exact ⟨after, hafter⟩
  constructor
  · intro header
    have hlength : header.size = Header.size := rfl
    have hheader : Header.ofBytes (header ++ Array.replicate 0x4000 0)
        = .ok ⟨4, 0, .horizontal, false, 0x4000, 0, 0x2000⟩ := by
      rw [Header.ofBytes_append hlength, Header.ofBytes, if_neg (by decide), if_neg (by decide)]
      unfold Header.ofFields
      dsimp only
      rw [if_neg (by decide), Except.ok.injEq, Header.mk.injEq]
      decide
    have hsize : (header ++ Array.replicate 0x4000 0).size = 0x4010 := by
      rw [Array.size_append, Array.size_replicate, hlength, Header.size]
    obtain ⟨prg, chr, hcart⟩ := Cartridge.exists_ofImage hheader rfl (by rw [hsize]; decide)
    obtain ⟨m, hm⟩ := hmade _ _ hcart
    exact ⟨_, m, hcart, hm, hgoes _ m hm⟩
  · have hprg : (Cartridge.blank 222 0 1 1).prg.size = 0x2000 := by
      simp [Cartridge.blank, Cartridge.numberedBanks, Window.prgSize]
    have hchr : (Cartridge.blank 222 0 1 1).chr.size = 0x400 := by
      simp [Cartridge.blank, Cartridge.numberedBanks, Window.chrSize]
    obtain ⟨m, hm⟩ := (haccepted (Cartridge.blank 222 0 1 1)).mpr
      ⟨by rw [hprg]; decide, by rw [hchr]; decide, .inr rfl⟩
    exact ⟨m, hm, hgoes _ m hm⟩

end Bare

end RasterIrq
