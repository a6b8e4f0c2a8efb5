import RasterIrq.Proofs.Board.Contents

/-!
# Character RAM remembers

Character RAM is one flat array of cells, and the eight windows of the picture unit only choose
which part of it is seen. An address names the cell that the board shows there: bank numbers wrap
around at the number of banks, so several windows may show one bank, and addresses repeat every
$2000. A write goes to the cell that its address names at that time. The registers may be changed
afterwards, by the processor, a reset or a record; the cell keeps what was written, and is read
again through whatever address comes to name it.

Results:
1. `Board.chrCellAt?_eq`: every address names a cell.
2. `Board.cell_perform`, `Board.cell_run`: what an operation and a run leave in a cell.
3. `Board.characterRam_run`: what is read after any run.
-/

namespace RasterIrq

/-- The windows repeat every $2000. -/
theorem Window.chr_mod (addr : UInt16) : chr (addr % 0x2000) = chr addr := by
  apply Fin.ext
  show (addr % 0x2000).toNat / 0x400 % 8 = addr.toNat / 0x400 % 8
  have hmod : (addr % 0x2000).toNat = addr.toNat % 0x2000 := UInt16.toNat_mod addr 0x2000
  omega

namespace Board

/-! ## Cells -/

/-- The cell of character memory that an address names: the bank that the board shows there, and the
offset into it. -/
def chrCellAt? (b : Board) (addr : UInt16) : Option Nat :=
  (b.bankAt? .chr (addr % 0x2000)).map fun bank => bank * 0x400 + addr.toNat % 0x400

/-- Every address names a cell. -/
theorem chrCellAt?_eq (b : Board) (addr : UInt16) : b.chrCellAt? addr = some (b.chrCell addr) := by
  have hlt : addr % 0x2000 < 0x2000 := UInt16.mod_lt addr (by decide)
  rw [chrCellAt?, (chr_shown hlt).1, Option.map_some, chrBank, Window.chr_mod]
  rfl

theorem chrCell_lt (b : Board) (addr : UInt16) : b.chrCell addr < b.chr.cells.size :=
  b.chr.index_lt (b.chrBank addr) addr.toNat

/-- A write to character RAM changes the cell that its address names, and no other. -/
theorem cell_writeChr {b : Board} (h : b.chrIsRam = true) (addr : UInt16) (value : UInt8)
    (cell : Nat) :
    (b.writeChr addr value).chr.cells[cell]?
      = if b.chrCellAt? addr = some cell then some value else b.chr.cells[cell]? := by
  rw [writeChr, if_pos h, chrCellAt?_eq]
  show (b.chr.cells.set (b.chrCell addr) value (b.chrCell_lt addr))[cell]? = _
  rw [Array.getElem?_set]
  simp only [Option.some.injEq]

/-- Two addresses of one cell see each other's writes. -/
theorem readChr_writeChr {b : Board} (h : b.chrIsRam = true) (addr other : UInt16)
    (value : UInt8) :
    (b.writeChr addr value).readChr other
      = if b.chrCellAt? other = b.chrCellAt? addr then value else b.readChr other := by
  rw [writeChr, if_pos h, chrCellAt?_eq, chrCellAt?_eq]
  simp only [Option.some.injEq]
  exact b.chr.read_write (b.chrBank addr) addr.toNat (b.chrBank other) other.toNat value

/-- So do two windows that show one bank. -/
theorem readChr_writeChr_of_bankAt? {b : Board} (h : b.chrIsRam = true) {addr other : UInt16}
    (haddr : addr < 0x2000) (hother : other < 0x2000)
    (hbank : b.bankAt? .chr other = b.bankAt? .chr addr)
    (hoffset : other.toNat % 0x400 = addr.toNat % 0x400) (value : UInt8) :
    (b.writeChr addr value).readChr other = value := by
  have hfirst : ∀ a : UInt16, a < 0x2000 → a % 0x2000 = a := fun a ha =>
    UInt16.toNat_inj.mp (by
      rw [UInt16.toNat_mod]
      exact Nat.mod_eq_of_lt (UInt16.lt_iff_toNat_lt.mp ha))
  rw [readChr_writeChr h, chrCellAt?, chrCellAt?, hfirst addr haddr, hfirst other hother, hbank,
    hoffset, if_pos rfl]

/-! ## Histories -/

/-- What an operation writes to a cell, if it does. -/
def chrWrite? (b : Board) (cell : Nat) : Operation → Option UInt8
  | .writeChr addr value => if b.chrCellAt? addr = some cell then some value else none
  | _ => none

/-- What the last write of a run to a cell put there. Each write goes to the cell that its address
names on the board of that time. -/
def chrWritten (b : Board) (cell : Nat) : List Operation → Option UInt8
  | [] => none
  | op :: later => ((b.perform op).chrWritten cell later).or (b.chrWrite? cell op)

/-- An operation leaves in a cell what it writes there, or what was there before. -/
theorem cell_perform {b : Board} (h : b.chrIsRam = true) (op : Operation) (cell : Nat) :
    (b.perform op).chr.cells[cell]? = (b.chrWrite? cell op).or b.chr.cells[cell]? := by
  by_cases hop : ∃ addr value, op = .writeChr addr value
  · obtain ⟨addr, value, rfl⟩ := hop
    rw [perform, cell_writeChr h, chrWrite?]
    split <;> rfl
  · have hkeeps := b.chr_perform_of_ne fun addr value heq => hop ⟨addr, value, heq⟩
    cases op with
    | writeChr addr value => exact absurd ⟨addr, value, rfl⟩ hop
    | _ => exact congrArg (fun m => m.cells[cell]?) hkeeps

/-- A run leaves in a cell what its last write to that cell put there. -/
theorem cell_run {b : Board} (h : b.chrIsRam = true) (ops : List Operation) (cell : Nat) :
    (b.run ops).chr.cells[cell]? = (b.chrWritten cell ops).or b.chr.cells[cell]? := by
  induction ops generalizing b with
  | nil => rfl
  | cons op later ih =>
    have hram : (b.perform op).chrIsRam = true := (SameBuild.perform b op).chrIsRam.symm.trans h
    have hlater := ih hram
    rw [cell_perform h, ← Option.or_assoc] at hlater
    exact hlater

/-- No run changes how many cells there are. -/
theorem size_chr_run {cart : Cartridge} {start : Board} (h : ofCartridge cart = .ok start)
    (ops : List Operation) : (start.run ops).chr.cells.size = cart.chr.size := by
  have hcount := (SameBuild.run start ops).chrCount
  rw [← Banked.count_mul, ← hcount, Banked.count_mul, (cells_ofCartridge h).2.1]

/-- Character RAM after any run. Every address names a cell, by the bank that the board shows there,
and reads as the last write of the run to that cell, wherever its address and its bank were then, or
as the cartridge's byte if there was none. The next write changes one cell: it is read again at
every address of that cell, so also through another window that shows the same bank, and nowhere
else. What is not such a write changes no cell. On the bare board, where a cell is found by
remainders, the cells are the same and the reads go through. -/
theorem characterRam_run {cart : Cartridge} {start : Board} (hstart : ofCartridge cart = .ok start)
    (hram : cart.chrIsRam = true) (ops : List Operation) :
    let b := start.run ops
    (∀ addr, ∃ cell, b.chrCellAt? addr = some cell ∧ cell < cart.chr.size ∧
      some (b.readChr addr) = (start.chrWritten cell ops).or cart.chr[cell]?) ∧
    (∀ addr value cell, (b.writeChr addr value).chr.cells[cell]?
      = if b.chrCellAt? addr = some cell then some value else b.chr.cells[cell]?) ∧
    (∀ addr other value, (b.writeChr addr value).readChr other
      = if b.chrCellAt? other = b.chrCellAt? addr then value else b.readChr other) ∧
    (∀ addr other value, addr < 0x2000 → other < 0x2000 →
      b.bankAt? .chr other = b.bankAt? .chr addr → other.toNat % 0x400 = addr.toNat % 0x400 →
      (b.writeChr addr value).readChr other = value) ∧
    (∀ op, (∀ addr value, op ≠ .writeChr addr value) →
      (b.perform op).chr.cells = b.chr.cells) ∧
    ∃ bare after, Bare.ofCartridge cart = .ok bare ∧ bare.run ops = .ok after ∧
      after.chr = b.chr.cells ∧ ∀ addr, after.readChr addr = .ok (b.readChr addr) := by
  intro b
  obtain ⟨-, hcells, hisRam⟩ := cells_ofCartridge hstart
  have hstartRam : start.chrIsRam = true := hisRam.trans hram
  have hbRam : b.chrIsRam = true := (SameBuild.run start ops).chrIsRam.symm.trans hstartRam
  refine ⟨fun addr => ⟨b.chrCell addr, b.chrCellAt?_eq addr, ?_, ?_⟩,
    fun addr value => cell_writeChr hbRam addr value,
    fun addr other value => readChr_writeChr hbRam addr other value,
    fun addr other value haddr hother hbank hoffset =>
      readChr_writeChr_of_bankAt? hbRam haddr hother hbank hoffset value,
    fun op hop => congrArg Banked.cells (chr_perform_of_ne b hop), ?_⟩
  · rw [← size_chr_run hstart ops]
    exact b.chrCell_lt addr
  · rw [← getElem?_chrCell, cell_run hstartRam, hcells]
  · have hmade := Bare.ofCartridge_eq cart
    rw [hstart] at hmade
    obtain ⟨bare, hbare, hrepresents⟩ := hmade
    obtain ⟨after, hrun, hrepresents'⟩ := hrepresents.run ops
    exact ⟨bare, after, hbare, hrun, hrepresents'.chr, hrepresents'.readChr⟩

/-- A cartridge with two banks of character RAM. What was written to the first one through the first
window is read through the fifth, after a hard reset and once the register there asks for bank 2,
which wraps around to bank 0. -/
theorem characterRam_run_two_banks :
    let cart := { Cartridge.blank 4 0 1 2 with chrIsRam := true }
    ∃ start, ofCartridge cart = .ok start ∧ cart.chrIsRam = true ∧
      (start.run
        [.writeChr 0x0005 0x42, .reset true, .write 0x8000 2, .write 0x8001 2]).readChr 0x1005
        = 0x42 := by
  intro cart
  obtain ⟨start, hstart, hchip⟩ := exists_ofCartridge_of_memories cart
    (show Family.ofNumber? 4 = some .mmc3 from rfl) 1 2 rfl rfl
  have hsize : cart.chr.size = 0x800 := by
    simp [cart, Cartridge.blank, Cartridge.numberedBanks, Window.chrSize]
  -- Both addresses name cell 5 when they are used, by the registers of that time.
  have hcell : ∀ past addr, (start.run past).chip.chrBank (Window.chr addr) % 2 = 0 →
      addr.toNat % 0x400 = 5 → (start.run past).chrCellAt? addr = some 5 := by
    intro past addr hbank hoffset
    have hcount : (start.run past).chr.count = 2 := by rw [(cells_run hstart past).2.1, hsize]; rfl
    rw [chrCellAt?_eq, chrCell, hcount, chrBank, hbank, hoffset]
  generalize hops : [Operation.writeChr 0x0005 0x42, .reset true, .write 0x8000 2, .write 0x8001 2]
    = ops
  have hwrite : start.chrCellAt? 0x0005 = some 5 := by
    refine hcell [] 0x0005 ?_ rfl
    show start.chip.chrBank _ % 2 = 0
    rw [hchip]
    decide
  have hread : (start.run ops).chrCellAt? 0x1005 = some 5 := by
    refine hcell ops 0x1005 ?_ rfl
    rw [chip_run_eq hstart (by simp [← hops, sinceReset]), hchip, (ofCartridge_eq_ok hstart).1,
      ← hops]
    show (Chip.writeAll .vertical [(0x8001, 2), (0x8000, 2)]
      (.powerOn .mmc3 0 .vertical)).chrBank _ % 2 = 0
    decide
  have hwritten : start.chrWritten 5 ops = some 0x42 := by
    rw [← hops, chrWritten, chrWrite?, if_pos hwrite]
    rfl
  obtain ⟨cell, hnamed, -, hvalue⟩ := (characterRam_run hstart rfl ops).1 0x1005
  rw [hread, Option.some.injEq] at hnamed
  rw [← hnamed, hwritten] at hvalue
  exact ⟨start, hstart, rfl, Option.some.inj hvalue⟩

end Board

end RasterIrq
