import RasterIrq.Board

/-!
# Runs of a board

Whatever happens to a board happens through seven operations: the processor and the picture unit
read and write, an address comes by on the picture bus, the console is reset, a record is loaded.
A run is a list of them. A record that is refused leaves the board as it is.

No operation rebuilds the board. `Board.SameBuild` says what two boards have in common if one comes
from the other: the program ROM, the number of character banks, the wiring, and the chip's make.

Results:
1. `Board.SameBuild.perform`, `Board.SameBuild.run`: operations and runs keep the build.
2. `Board.perform_load`: a load changes registers and interrupt side, or nothing.
3. `Board.perform_cases`: all that the other operations can do to registers and interrupt side.
-/

namespace RasterIrq

/-! ## The make of a chip -/

/-- What a chip is made as: its family, and its revision if the family has several. -/
inductive Chip.Make where
  | mmc3 (revision : Mmc3.Revision)
  | mapper222
deriving DecidableEq, Repr

namespace Chip

def make : Chip → Make
  | mmc3 r => .mmc3 r.revision
  | mapper222 _ => .mapper222

theorem make_write (wired : Mirroring) (addr : UInt16) (value : UInt8) (c : Chip) :
    (c.write wired addr value).make = c.make := by
  cases c with
  | mmc3 r =>
    show Make.mmc3 (r.write wired addr value).revision = .mmc3 r.revision
    congr 1
    unfold Mmc3.write Mmc3.writeBank
    split <;> try rfl
    split <;> rfl
  | mapper222 r => rfl

theorem make_hardReset (wired : Mirroring) (c : Chip) : (c.hardReset wired).make = c.make := by
  cases c <;> rfl

theorem make_restore (record : Record) (c : Chip) : (c.restore record).make = c.make := by
  cases c <;> rfl

def Make.family : Make → Family
  | mmc3 _ => .mmc3
  | mapper222 => .mapper222

theorem family_eq (c : Chip) : c.family = c.make.family := by
  cases c <;> rfl

theorem family_eq_of_make {c d : Chip} (h : c.make = d.make) : c.family = d.family := by
  rw [family_eq, family_eq, h]

theorem layout_eq_of_family {c d : Chip} (h : c.family = d.family) : c.layout = d.layout := by
  cases c with
  | mmc3 r =>
    cases d with
    | mmc3 s => rfl
    | mapper222 s => cases h
  | mapper222 r =>
    cases d with
    | mmc3 s => cases h
    | mapper222 s => rfl

/-- The counter of a make. -/
def Make.counterConfig : Make → Counter.Config
  | mmc3 revision => revision.counterConfig
  | mapper222 => Mapper222.counterConfig

/-- What a list of writes does to the counter of a make. -/
def Make.commands (m : Make) (writes : List (UInt16 × UInt8)) : List Counter.Command :=
  writes.flatMap fun w =>
    if 0x8000 ≤ w.1 then
      match m with
      | mmc3 _ => Mmc3.commands w.1 w.2
      | mapper222 => Mapper222.commands w.1 w.2
    else []

theorem Make.commands_cons (m : Make) (w : UInt16 × UInt8) (rest : List (UInt16 × UInt8)) :
    m.commands (w :: rest) = m.commands [w] ++ m.commands rest := by
  rw [commands, List.flatMap_cons, commands, List.flatMap_singleton, commands]

theorem wiring_eq (c : Chip) :
    c.wiring = ⟨EdgeSpacing.standardWindow, c.make.counterConfig⟩ := by
  cases c <;> rfl

end Chip

/-! ## Boards of cartridges -/

theorem Banked.exists_numberedBanks {banks size : Nat} (hbanks : 0 < banks) (hsize : 0 < size) :
    ∃ m, ofCells? size (Cartridge.numberedBanks banks size) = some m := by
  have hcells : (Cartridge.numberedBanks banks size).size = banks * size := by
    rw [Cartridge.numberedBanks, Array.size_map, Array.size_range]
  have hwhole : 0 < (Cartridge.numberedBanks banks size).size ∧
      (Cartridge.numberedBanks banks size).size % size = 0 := by
    rw [hcells]
    exact ⟨Nat.mul_pos hbanks hsize, Nat.mul_mod_left banks size⟩
  exact ⟨_, dif_pos hwhole⟩

/-- A cartridge with the memories of a blank one and a known number makes a board. -/
theorem Board.exists_ofCartridge_of_memories (cart : Cartridge) {family : Family}
    (h : Family.ofNumber? cart.mapper = some family) (prgBanks chrBanks : Nat)
    (hprg : cart.prg = Cartridge.numberedBanks (max 1 prgBanks) Window.prgSize)
    (hchr : cart.chr = Cartridge.numberedBanks (max 1 chrBanks) Window.chrSize) :
    ∃ board, ofCartridge cart = .ok board ∧
      board.chip = .powerOn family cart.submapper cart.mirroring := by
  obtain ⟨prg, hprg'⟩ := Banked.exists_numberedBanks (Nat.le_max_left 1 prgBanks)
    (show 0 < Window.prgSize by decide)
  obtain ⟨chr, hchr'⟩ := Banked.exists_numberedBanks (Nat.le_max_left 1 chrBanks)
    (show 0 < Window.chrSize by decide)
  simp only [ofCartridge, hprg, hchr, hprg', hchr', h]
  exact ⟨_, rfl, rfl⟩

/-- A blank cartridge with a known number makes a board. -/
theorem Board.exists_ofCartridge_blank {mapper : UInt16} {family : Family}
    (h : Family.ofNumber? mapper = some family) (submapper : UInt8) (prgBanks chrBanks : Nat) :
    ∃ board, ofCartridge (Cartridge.blank mapper submapper prgBanks chrBanks) = .ok board ∧
      board.chip = .powerOn family submapper .vertical :=
  exists_ofCartridge_of_memories _ h prgBanks chrBanks rfl rfl

/-- What a board is at power-on. -/
theorem Board.ofCartridge_eq_ok {cart : Cartridge} {b : Board} (h : ofCartridge cart = .ok b) :
    b.wired = cart.mirroring ∧ b.irq = {} ∧
      ∃ family, Family.ofNumber? cart.mapper = some family ∧
        b.chip = .powerOn family cart.submapper cart.mirroring := by
  unfold ofCartridge at h
  repeat' split at h
  all_goals cases h
  next family hfamily => exact ⟨rfl, rfl, family, hfamily, rfl⟩

/-- The number of a cartridge decides the family of its board. -/
theorem Board.family_of_ofCartridge {cart : Cartridge} {board : Board}
    (h : ofCartridge cart = .ok board) : Family.ofNumber? cart.mapper = some board.chip.family := by
  obtain ⟨-, -, family, hfamily, hchip⟩ := ofCartridge_eq_ok h
  rw [hfamily, hchip]
  cases family <;> rfl

/-- A cartridge makes a board if both memories are whole banks and its number is known. -/
theorem Board.exists_ofCartridge_iff (cart : Cartridge) :
    (∃ b, ofCartridge cart = .ok b) ↔
      (0 < cart.prg.size ∧ cart.prg.size % Window.prgSize = 0) ∧
      (0 < cart.chr.size ∧ cart.chr.size % Window.chrSize = 0) ∧
      Family.isSupported cart.mapper = true := by
  unfold ofCartridge Banked.ofCells? Family.isSupported
  by_cases hprg : 0 < cart.prg.size ∧ cart.prg.size % Window.prgSize = 0
  · by_cases hchr : 0 < cart.chr.size ∧ cart.chr.size % Window.chrSize = 0
    · cases hfamily : Family.ofNumber? cart.mapper with
      | none => simp [hprg, hchr]
      | some family => simp [hprg, hchr]
    · simp [hprg, hchr]
  · simp [hprg]

namespace Board

/-! ## Operations -/

/-- What can happen to a board. -/
inductive Operation where
  /-- The processor reads. -/
  | read (addr : UInt16)
  /-- The processor writes. -/
  | write (addr : UInt16) (value : UInt8)
  /-- The picture unit reads. -/
  | readChr (addr : UInt16)
  /-- The picture unit writes. -/
  | writeChr (addr : UInt16) (value : UInt8)
  /-- An address stands on the picture bus at a cycle. -/
  | notify (addr : UInt16) (cycle : UInt64)
  | reset (hard : Bool)
  /-- A record is offered. -/
  | load (bytes : List UInt8)
deriving DecidableEq, Repr

/-- The board after an operation. Reading changes nothing, and so does a record that is refused. -/
def perform (b : Board) : Operation → Board
  | .read _ => b
  | .write addr value => b.write addr value
  | .readChr _ => b
  | .writeChr addr value => b.writeChr addr value
  | .notify addr cycle => b.notify addr cycle
  | .reset hard => b.reset hard
  | .load bytes =>
    match b.load bytes with
    | .ok loaded => loaded
    | .error _ => b

def run (b : Board) (ops : List Operation) : Board :=
  ops.foldl perform b

theorem run_concat (b : Board) (ops : List Operation) (op : Operation) :
    b.run (ops ++ [op]) = (b.run ops).perform op :=
  List.foldl_append

/-! ## Loading -/

theorem load_eq (bytes : List UInt8) (b : Board) :
    b.load bytes
      = match Record.decode bytes with
        | .ok record => b.restore record
        | .error e => .error e := by
  unfold load
  cases Record.decode bytes <;> rfl

/-- A record of the right layout is taken: registers and interrupt side become the record's. -/
theorem restore_eq_ok {record : Record} {b : Board} (h : record.check b.chip.layout = .ok ()) :
    b.restore record
      = .ok { b with chip := b.chip.restore record, irq := ⟨record.counter, record.monitor⟩ } := by
  rw [restore, h]
  rfl

theorem restore_eq_error {record : Record} {b : Board} {e : RecordError}
    (h : record.check b.chip.layout = .error e) : b.restore record = .error e := by
  rw [restore, h]
  rfl

/-- The record that the bytes hold, if it has this layout. -/
def taken? (layout : Record.Layout) (bytes : List UInt8) : Option Record :=
  match Record.decode bytes with
  | .error _ => none
  | .ok record =>
    match record.check layout with
    | .error _ => none
    | .ok _ => some record

/-- A record that is taken changes registers and interrupt side; all else changes nothing. -/
theorem perform_load (b : Board) (bytes : List UInt8) :
    b.perform (.load bytes)
      = match taken? b.chip.layout bytes with
        | some record =>
          { b with chip := b.chip.restore record, irq := ⟨record.counter, record.monitor⟩ }
        | none => b := by
  simp only [perform, load_eq, taken?]
  cases Record.decode bytes with
  | error e => rfl
  | ok record =>
    cases hcheck : record.check b.chip.layout with
    | error e => simp only [restore_eq_error hcheck, hcheck]
    | ok u => simp only [restore_eq_ok hcheck, hcheck]

/-! ## What no operation changes -/

/-- The boards differ in nothing but contents of RAM, registers and interrupt side. -/
structure SameBuild (a b : Board) : Prop where
  prg : a.prg = b.prg
  chrCount : a.chr.count = b.chr.count
  chrIsRam : a.chrIsRam = b.chrIsRam
  wired : a.wired = b.wired
  make : a.chip.make = b.chip.make

namespace SameBuild

theorem refl (b : Board) : SameBuild b b := ⟨rfl, rfl, rfl, rfl, rfl⟩

theorem symm {a b : Board} (h : SameBuild a b) : SameBuild b a :=
  ⟨h.prg.symm, h.chrCount.symm, h.chrIsRam.symm, h.wired.symm, h.make.symm⟩

theorem trans {a b c : Board} (h : SameBuild a b) (k : SameBuild b c) : SameBuild a c :=
  ⟨h.prg.trans k.prg, h.chrCount.trans k.chrCount, h.chrIsRam.trans k.chrIsRam,
    h.wired.trans k.wired, h.make.trans k.make⟩

theorem write (b : Board) (addr : UInt16) (value : UInt8) :
    SameBuild b (b.write addr value) := by
  unfold Board.write
  split
  · exact ⟨rfl, rfl, rfl, rfl, (Chip.make_write b.wired addr value b.chip).symm⟩
  split
  · exact ⟨rfl, rfl, rfl, rfl, rfl⟩
  · exact refl b

theorem writeChr (b : Board) (addr : UInt16) (value : UInt8) :
    SameBuild b (b.writeChr addr value) := by
  unfold Board.writeChr
  split
  · exact ⟨rfl, (Banked.count_write b.chr _ _ value).symm, rfl, rfl, rfl⟩
  · exact refl b

theorem reset (hard : Bool) (b : Board) : SameBuild b (b.reset hard) := by
  refine ⟨rfl, rfl, rfl, rfl, ?_⟩
  cases hard with
  | false => rfl
  | true => exact (Chip.make_hardReset b.wired b.chip).symm

theorem load (bytes : List UInt8) (b : Board) : SameBuild b (b.perform (.load bytes)) := by
  rw [perform_load]
  cases taken? b.chip.layout bytes with
  | none => exact refl b
  | some record => exact ⟨rfl, rfl, rfl, rfl, (Chip.make_restore record b.chip).symm⟩

theorem of_load {b loaded : Board} {bytes : List UInt8}
    (h : b.load bytes = .ok loaded) : SameBuild b loaded := by
  have hbuild := load bytes b
  rwa [Board.perform, h] at hbuild

/-- An operation keeps the build. -/
theorem perform (b : Board) (op : Operation) : SameBuild b (b.perform op) := by
  cases op with
  | read addr => exact refl b
  | write addr value => exact write b addr value
  | readChr addr => exact refl b
  | writeChr addr value => exact writeChr b addr value
  | notify addr cycle => exact ⟨rfl, rfl, rfl, rfl, rfl⟩
  | reset hard => exact reset hard b
  | load bytes => exact load bytes b

/-- A run keeps the build. -/
theorem run (b : Board) (ops : List Operation) : SameBuild b (b.run ops) := by
  induction ops generalizing b with
  | nil => exact refl b
  | cons op ops ih => exact (perform b op).trans (ih (b.perform op))

end SameBuild

/-! ## What an operation does to the parts -/

/-- A write is the commands that it gives the counter; other addresses give none. -/
theorem irq_write (b : Board) (addr : UInt16) (value : UInt8) :
    (b.write addr value).irq
      = b.irq.obeyAll b.chip.wiring (b.chip.make.commands [(addr, value)]) := by
  rw [Chip.Make.commands, List.flatMap_singleton, write]
  by_cases h : 0x8000 ≤ addr
  · rw [if_pos h, if_pos h]
    cases b.chip <;> rfl
  · rw [if_neg h, if_neg h]
    split <;> rfl

theorem irq_writeChr (b : Board) (addr : UInt16) (value : UInt8) :
    (b.writeChr addr value).irq = b.irq := by
  unfold writeChr
  split <;> rfl

/-- Registers and interrupt side change together, by a port write, an address on the picture bus or
a reset. -/
theorem perform_cases (b : Board) {op : Operation} (hop : ∀ bytes, op ≠ .load bytes) :
    ((b.perform op).chip = b.chip ∧ (b.perform op).irq = b.irq) ∨
    (∃ addr value, op = .write addr value ∧ 0x8000 ≤ addr ∧
      (b.perform op).chip = b.chip.write b.wired addr value ∧
      (b.perform op).irq = b.irq.obeyAll b.chip.wiring (b.chip.commands addr value)) ∨
    (∃ addr cycle, op = .notify addr cycle ∧
      (b.perform op).chip = b.chip ∧
      (b.perform op).irq = b.irq.notify b.chip.wiring addr cycle) ∨
    (∃ hard, op = .reset hard ∧
      (b.perform op).chip = (if hard then b.chip.hardReset b.wired else b.chip) ∧
      (b.perform op).irq = b.irq.reset hard) := by
  cases op with
  | read addr => exact .inl ⟨rfl, rfl⟩
  | write addr value =>
    simp only [perform, Board.write]
    split
    · next hport => exact .inr (.inl ⟨addr, value, rfl, hport, rfl, rfl⟩)
    split
    · exact .inl ⟨rfl, rfl⟩
    · exact .inl ⟨rfl, rfl⟩
  | readChr addr => exact .inl ⟨rfl, rfl⟩
  | writeChr addr value =>
    simp only [perform, Board.writeChr]
    split
    · exact .inl ⟨rfl, rfl⟩
    · exact .inl ⟨rfl, rfl⟩
  | notify addr cycle => exact .inr (.inr (.inl ⟨addr, cycle, rfl, rfl, rfl⟩))
  | reset hard => exact .inr (.inr (.inr ⟨hard, rfl, rfl, rfl⟩))
  | load bytes => exact absurd rfl (hop bytes)

end Board

end RasterIrq
