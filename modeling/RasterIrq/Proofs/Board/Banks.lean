import RasterIrq.Proofs.Board.Run

/-!
# Banks asked for and banks read

A board says which bank a window shows, and it reads bytes through the same window. Both go by the
registers of the moment, so the byte read is the byte of the bank that was named, for every size of
memory and whatever the registers hold. Program ROM is the cartridge's for ever, and so is character
memory that is no RAM.

Results:
1. `Board.prg_shown`, `Board.chr_shown`: question and read name one cell.
2. `Board.cells_run`: what no run changes.
3. `Board.banks_run`: banks and bytes of a board with any past.
-/

namespace RasterIrq

namespace Banked

variable {size : Nat}

theorem ofCells?_eq_some {cells : Array UInt8} {m : Banked size}
    (h : ofCells? size cells = some m) : m.cells = cells := by
  unfold ofCells? at h
  split at h
  · cases h
    rfl
  · cases h

theorem getElem?_index (m : Banked size) (bank offset : Nat) :
    m.cells[bank % m.count * size + offset % size]? = some (m.read bank offset) :=
  Array.getElem?_eq_getElem (m.index_lt bank offset)

end Banked

namespace Board

/-- The memories of a board at power-on are the cartridge's. -/
theorem cells_ofCartridge {cart : Cartridge} {b : Board} (h : ofCartridge cart = .ok b) :
    b.prg.cells = cart.prg ∧ b.chr.cells = cart.chr ∧ b.chrIsRam = cart.chrIsRam := by
  unfold ofCartridge at h
  split at h
  · cases h
  next prg hprg =>
    split at h
    · cases h
    next chr hchr =>
      split at h
      · cases h
      · cases h
        exact ⟨Banked.ofCells?_eq_some hprg, Banked.ofCells?_eq_some hchr, rfl⟩

/-- Program RAM is all zero at power-on. -/
theorem ram_ofCartridge {cart : Cartridge} {b : Board} (h : ofCartridge cart = .ok b) :
    b.ram = Vector.replicate 0x2000 0 := by
  unfold ofCartridge at h
  repeat' split at h
  all_goals cases h
  rfl

/-! ## What no operation changes -/

/-- Only the picture unit's writes reach character memory. -/
theorem chr_perform_of_ne (b : Board) {op : Operation}
    (hop : ∀ addr value, op ≠ .writeChr addr value) : (b.perform op).chr = b.chr := by
  cases op with
  | read addr => rfl
  | write addr value =>
    show (b.write addr value).chr = b.chr
    unfold Board.write
    split
    · rfl
    split
    · rfl
    · rfl
  | readChr addr => rfl
  | writeChr addr value => exact absurd rfl (hop addr value)
  | notify addr cycle => rfl
  | reset hard => rfl
  | load bytes =>
    rw [perform_load]
    cases taken? b.chip.layout bytes <;> rfl

theorem chr_perform {b : Board} (h : b.chrIsRam = false) (op : Operation) :
    (b.perform op).chr = b.chr := by
  cases op with
  | writeChr addr value =>
    show (b.writeChr addr value).chr = b.chr
    rw [Board.writeChr, h, if_neg Bool.false_ne_true]
  | _ => exact chr_perform_of_ne b fun addr value heq => by cases heq

theorem chr_run {b : Board} (h : b.chrIsRam = false) (ops : List Operation) :
    (b.run ops).chr = b.chr := by
  induction ops generalizing b with
  | nil => rfl
  | cons op ops ih =>
    have hrom : (b.perform op).chrIsRam = false := (SameBuild.perform b op).chrIsRam.symm.trans h
    exact (ih hrom).trans (chr_perform h op)

/-- Program ROM stays the cartridge's, character memory keeps its size, and its bytes too if it is
no RAM. -/
theorem cells_run {cart : Cartridge} {start : Board} (h : ofCartridge cart = .ok start)
    (ops : List Operation) :
    (start.run ops).prg.cells = cart.prg ∧
    (start.run ops).chr.count = cart.chr.size / Window.chrSize ∧
    (cart.chrIsRam = false → (start.run ops).chr.cells = cart.chr) := by
  obtain ⟨hprg, hchr, hram⟩ := cells_ofCartridge h
  have hbuild := SameBuild.run start ops
  refine ⟨?_, ?_, fun hrom => ?_⟩
  · rw [← hbuild.prg, hprg]
  · rw [← hbuild.chrCount, Banked.count, hchr]
  · rw [chr_run (hram.trans hrom), hchr]

/-! ## Questions and reads -/

variable {b : Board} {addr : UInt16}

theorem prg_shown (h : 0x8000 ≤ addr) :
    b.bankAt? .prg addr = some (b.prgBank addr % b.prg.count) ∧
    b.prg.cells[b.prgBank addr % b.prg.count * 0x2000 + addr.toNat % 0x2000]?
      = some (b.read addr) := by
  refine ⟨if_pos (decide_eq_true h), ?_⟩
  rw [Board.read, if_pos h]
  exact b.prg.getElem?_index (b.prgBank addr) addr.toNat

theorem chr_shown (h : addr < 0x2000) :
    b.bankAt? .chr addr = some (b.chrBank addr % b.chr.count) ∧
    b.chr.cells[b.chrBank addr % b.chr.count * 0x400 + addr.toNat % 0x400]?
      = some (b.readChr addr) :=
  ⟨if_pos (decide_eq_true h), b.chr.getElem?_index (b.chrBank addr) addr.toNat⟩

theorem bankAt?_eq_none {region : Region} (h : Window.contains region addr = false) :
    b.bankAt? region addr = none :=
  if_neg (h ▸ Bool.false_ne_true)

theorem chip_write {port : UInt16} (h : 0x8000 ≤ port) (value : UInt8) :
    (b.write port value).chip = b.chip.write b.wired port value := by
  rw [Board.write, if_pos h]

/-- A board of the cartridge with any past. In each window it names a bank that exists, and what it
reads there is the byte of that bank; elsewhere it names none. The bank that it names right after a
port write is the one that the registers then select, and the read is of that bank. Program ROM is
the cartridge's, and so is character memory that is no RAM. -/
theorem banks_run {cart : Cartridge} {start : Board} (hstart : ofCartridge cart = .ok start)
    (ops : List Operation) :
    let b := start.run ops
    (∀ addr, 0x8000 ≤ addr → ∃ bank, b.bankAt? .prg addr = some bank ∧
      bank < cart.prg.size / 0x2000 ∧
      cart.prg[bank * 0x2000 + addr.toNat % 0x2000]? = some (b.read addr)) ∧
    (∀ addr, addr < 0x2000 → ∃ bank, b.bankAt? .chr addr = some bank ∧
      bank < cart.chr.size / 0x400 ∧
      b.chr.cells[bank * 0x400 + addr.toNat % 0x400]? = some (b.readChr addr)) ∧
    (∀ addr, addr < 0x8000 → b.bankAt? .prg addr = none) ∧
    (∀ addr, 0x2000 ≤ addr → b.bankAt? .chr addr = none) ∧
    (∀ port value, 0x8000 ≤ port →
      let written := b.write port value
      let chip := b.chip.write b.wired port value
      (∀ addr, 0x8000 ≤ addr →
        let banks := cart.prg.size / 0x2000
        let bank := chip.prgBank banks (Window.prg addr) % banks
        written.bankAt? .prg addr = some bank ∧
        cart.prg[bank * 0x2000 + addr.toNat % 0x2000]? = some (written.read addr)) ∧
      (∀ addr, addr < 0x2000 →
        let bank := chip.chrBank (Window.chr addr) % (cart.chr.size / 0x400)
        written.bankAt? .chr addr = some bank ∧
        written.chr.cells[bank * 0x400 + addr.toNat % 0x400]? = some (written.readChr addr))) ∧
    b.prg.cells = cart.prg ∧
    (cart.chrIsRam = false → b.chr.cells = cart.chr) := by
  intro b
  obtain ⟨hprg, hchrCount, hrom⟩ := cells_run hstart ops
  have hprgCount : b.prg.count = cart.prg.size / 0x2000 := by rw [Banked.count, hprg]; rfl
  refine ⟨fun addr h => ?_, fun addr h => ?_, fun addr h => ?_, fun addr h => ?_,
    fun port value hport => ⟨fun addr h => ?_, fun addr h => ?_⟩, hprg, hrom⟩
  · obtain ⟨hbank, hread⟩ := prg_shown (b := b) h
    rw [hprg] at hread
    exact ⟨_, hbank, hprgCount ▸ Nat.mod_lt _ b.prg.count_pos, hread⟩
  · obtain ⟨hbank, hread⟩ := chr_shown (b := b) h
    have hlt : b.chrBank addr % b.chr.count < cart.chr.size / Window.chrSize :=
      hchrCount ▸ Nat.mod_lt _ b.chr.count_pos
    exact ⟨_, hbank, hlt, hread⟩
  · exact bankAt?_eq_none (decide_eq_false (UInt16.not_le.mpr h))
  · exact bankAt?_eq_none (decide_eq_false (UInt16.not_lt.mpr h))
  · have hbuild := SameBuild.write b port value
    have hshown := prg_shown (b := b.write port value) h
    rw [prgBank, chip_write hport, ← hbuild.prg, hprgCount, hprg] at hshown
    exact hshown
  · have hbuild := SameBuild.write b port value
    have hshown := chr_shown (b := b.write port value) h
    rw [chrBank, chip_write hport, ← hbuild.chrCount, hchrCount] at hshown
    exact hshown

/-- With one program bank every register value, and the two fixed windows too, come to bank 0. -/
theorem banks_run_blank :
    ∃ start, ofCartridge (Cartridge.blank 4 0 1 8) = .ok start ∧
      ∀ addr, 0x8000 ≤ addr →
        (start.run [.write 0x8000 6, .write 0x8001 0xFF]).bankAt? .prg addr = some 0 := by
  obtain ⟨start, hstart, -⟩ := exists_ofCartridge_blank
    (show Family.ofNumber? 4 = some .mmc3 from rfl) 0 1 8
  refine ⟨start, hstart, fun addr h => ?_⟩
  obtain ⟨bank, hbank, hlt, -⟩ := (banks_run hstart _).1 addr h
  have hsize : (Cartridge.blank 4 0 1 8).prg.size = 0x2000 := by
    simp [Cartridge.blank, Cartridge.numberedBanks, Window.prgSize]
  rw [hsize] at hlt
  rw [hbank, Nat.lt_one_iff.mp hlt]

end Board

end RasterIrq
