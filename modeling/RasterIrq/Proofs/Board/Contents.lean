import RasterIrq.Proofs.Board.ProgramRam
import RasterIrq.Proofs.Board.Resume

/-!
# What a record leaves out

A record holds registers and interrupt side, and no byte of any memory. So a board that takes it
shows its own memories through the banks of the board that saved it. Where the memory is ROM, both
boards of a cartridge hold the same bytes and read alike. Where it is RAM, a new board reads what
its RAM holds at power-on, whatever the other one wrote to its own.

Results:
1. `Board.Alike.read_eq`: alike boards read the same outside program RAM.
2. `Board.load_save_contents`: what a new board reads after it took the record of another one.
3. `Board.load_save_loses_contents`: both kinds of RAM lose what was written.
-/

namespace RasterIrq

namespace Board

/-! ## Reading through saved registers -/

/-- Outside program RAM the registers decide what alike boards read. -/
theorem Alike.read_eq {a b : Board} (h : Alike a b) {addr : UInt16}
    (haddr : ¬ (0x6000 ≤ addr ∧ addr ≤ 0x7FFF)) : a.read addr = b.read addr := by
  unfold read prgBank
  rw [h.prg, h.chip]
  by_cases hrom : 0x8000 ≤ addr
  · rw [if_pos hrom, if_pos hrom]
  · have hram : ¬ 0x6000 ≤ addr := by
      simp only [UInt16.le_iff_toNat_le, UInt16.reduceToNat] at haddr hrom ⊢
      omega
    rw [if_neg hrom, if_neg hrom, if_neg fun h => hram h.1, if_neg fun h => hram h.1]

/-- A program RAM that is all zero reads as zero, whether it is on the bus or not. -/
theorem read_of_blankRam {b : Board} (h : b.ram = Vector.replicate 0x2000 0) {addr : UInt16}
    (hfirst : 0x6000 ≤ addr) (hlast : addr ≤ 0x7FFF) : b.read addr = 0 := by
  rw [read_programRam b hfirst (UInt16.lt_of_le_of_lt hlast (by decide)), h]
  split
  · exact Vector.getElem_replicate (ramCell addr).isLt
  · rfl

/-- The cell of character memory that the picture unit reaches at an address. -/
def chrCell (b : Board) (addr : UInt16) : Nat :=
  b.chrBank addr % b.chr.count * 0x400 + addr.toNat % 0x400

theorem getElem?_chrCell (b : Board) (addr : UInt16) :
    b.chr.cells[b.chrCell addr]? = some (b.readChr addr) :=
  b.chr.getElem?_index (b.chrBank addr) addr.toNat

theorem Alike.chrCell_eq {a b : Board} (h : Alike a b) (addr : UInt16) :
    a.chrCell addr = b.chrCell addr := by
  unfold chrCell chrBank
  rw [h.chip, h.chrCount]

/-! ## A new board -/

/-- A new board takes the record of a board with any past, and then is alike to it over the memories
of power-on. -/
theorem exists_load_save {cart : Cartridge} {start : Board} (hstart : ofCartridge cart = .ok start)
    (past : List Operation) :
    ∃ b, start.load (start.run past).save = .ok b ∧ Alike b (start.run past) ∧
      b.ram = Vector.replicate 0x2000 0 ∧ b.chr.cells = cart.chr := by
  have hbuild := SameBuild.run start past
  obtain ⟨b, hb⟩ : ∃ b, b = { start with
      chip := (start.run past).chip, irq := (start.run past).irq } := ⟨_, rfl⟩
  refine ⟨b, hb ▸ load_save_of_make hbuild.make, ?_, ?_, ?_⟩
  · exact hb ▸ ⟨⟨hbuild.prg, hbuild.chrCount, hbuild.chrIsRam, hbuild.wired, rfl⟩, rfl, rfl⟩
  · rw [hb, ram_ofCartridge hstart]
  · rw [hb, (cells_ofCartridge hstart).2.1]

/-- A board with any past is saved, and a new board of its cartridge takes the record. Outside
program RAM the processor reads the same on both, and so does the picture unit if the character
memory is no RAM. In program RAM the new board reads zero, and in character RAM the bytes of the
cartridge, from the cells that the saved banks show. -/
theorem load_save_contents {cart : Cartridge} {start : Board} (hstart : ofCartridge cart = .ok start)
    (past : List Operation) :
    let a := start.run past
    ∃ b, start.load a.save = .ok b ∧
      (∀ addr, ¬ (0x6000 ≤ addr ∧ addr ≤ 0x7FFF) → b.read addr = a.read addr) ∧
      (∀ addr, 0x6000 ≤ addr → addr ≤ 0x7FFF → b.read addr = 0) ∧
      (cart.chrIsRam = false → ∀ addr, b.readChr addr = a.readChr addr) ∧
      (∀ addr, a.chr.cells[a.chrCell addr]? = some (a.readChr addr) ∧
        cart.chr[a.chrCell addr]? = some (b.readChr addr)) := by
  intro a
  obtain ⟨b, hload, halike, hram, hchr⟩ := exists_load_save hstart past
  have hshown : ∀ addr, cart.chr[a.chrCell addr]? = some (b.readChr addr) := by
    intro addr
    rw [← halike.chrCell_eq, ← hchr]
    exact b.getElem?_chrCell addr
  refine ⟨b, hload, fun addr => halike.read_eq, fun addr => read_of_blankRam hram,
    fun hrom addr => ?_, fun addr => ⟨a.getElem?_chrCell addr, hshown addr⟩⟩
  have hsame : a.chr.cells = cart.chr := (cells_run hstart past).2.2 hrom
  have hread := a.getElem?_chrCell addr
  rw [hsame, hshown] at hread
  exact Option.some.inj hread

/-- The processor switches a bank and writes to program RAM before the board is saved. -/
theorem load_save_contents_blank :
    ∃ start, ofCartridge (Cartridge.blank 4 0 4 8) = .ok start ∧
      let a := start.run [.write 0x8000 6, .write 0x8001 3, .write 0x6000 0x42]
      ∃ b, start.load a.save = .ok b ∧ b.read 0x8000 = a.read 0x8000 ∧ b.read 0x6000 = 0 ∧
        b.readChr 0x1C00 = a.readChr 0x1C00 := by
  obtain ⟨start, hstart, -⟩ := exists_ofCartridge_blank
    (show Family.ofNumber? 4 = some .mmc3 from rfl) 0 4 8
  obtain ⟨b, hload, hrom, hram, hchr, -⟩ := load_save_contents hstart
    [.write 0x8000 6, .write 0x8001 3, .write 0x6000 0x42]
  exact ⟨start, hstart, b, hload, hrom 0x8000 (by decide), hram 0x6000 (by decide) (by decide),
    hchr rfl 0x1C00⟩

/-! ## What is lost -/

/-- Not every byte is read again. What an MMC3 board has in program RAM reads as zero on the new
board, and what is written to character RAM reads as what the cartridge holds. -/
theorem load_save_loses_contents :
    (∃ start, ofCartridge (Cartridge.blank 4 0 1 8) = .ok start ∧
      let a := start.run [.write 0x6000 0x42]
      ∃ b, start.load a.save = .ok b ∧ a.read 0x6000 = 0x42 ∧ b.read 0x6000 = 0) ∧
    ∃ start, ofCartridge { Cartridge.blank 222 0 1 8 with chrIsRam := true } = .ok start ∧
      let a := start.run [.writeChr 0x0000 0x42]
      ∃ b, start.load a.save = .ok b ∧ a.readChr 0x0000 = 0x42 ∧ b.readChr 0x0000 = 0 := by
  constructor
  · obtain ⟨start, hstart, hchip⟩ := exists_ofCartridge_blank
      (show Family.ofNumber? 4 = some .mmc3 from rfl) 0 1 8
    have hfamily : start.chip.family = .mmc3 := by rw [hchip]; rfl
    obtain ⟨b, hload, -, hram, -⟩ := exists_load_save hstart [.write 0x6000 0x42]
    have hremembers := (Remembers.powerOn hstart hfamily).run [.write 0x6000 0x42]
    have hwritten := hremembers.read_eq (show 0x6000 ≤ (0x6000 : UInt16) by decide) (by decide)
    exact ⟨start, hstart, b, hload, hwritten.trans (by decide),
      read_of_blankRam hram (by decide) (by decide)⟩
  · obtain ⟨start, hstart, hchip⟩ := exists_ofCartridge_of_memories
      { Cartridge.blank 222 0 1 8 with chrIsRam := true }
      (show Family.ofNumber? 222 = some .mapper222 from rfl) 1 8 rfl rfl
    obtain ⟨b, hload, halike, -, hchr⟩ := exists_load_save hstart [.writeChr 0x0000 0x42]
    have hram : start.chrIsRam = true := (cells_ofCartridge hstart).2.2
    refine ⟨start, hstart, b, hload, ?_, ?_⟩
    · show (start.writeChr 0x0000 0x42).readChr 0x0000 = 0x42
      rw [writeChr, if_pos hram]
      exact (Banked.read_write _ _ _ _ _ _).trans (if_pos rfl)
    · have hbank : b.chrBank 0x0000 = 0 := by
        have hchip' : (start.writeChr 0x0000 0x42).chip = start.chip := by
          rw [writeChr, if_pos hram]
        unfold chrBank
        rw [halike.chip]
        show (start.writeChr 0x0000 0x42).chip.chrBank _ = 0
        rw [hchip', hchip]
        rfl
      have hcell : b.chrCell 0x0000 = 0 := by
        unfold chrCell
        rw [hbank, Nat.zero_mod, Nat.zero_mul]
        rfl
      have hread := b.getElem?_chrCell 0x0000
      rw [hcell, hchr] at hread
      have hcart : (Cartridge.numberedBanks 8 Window.chrSize)[0]? = some 0 := by
        simp [Cartridge.numberedBanks, Window.chrSize]
      exact Option.some.inj (hread.symm.trans hcart)

end Board

end RasterIrq
