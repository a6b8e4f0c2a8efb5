import RasterIrq.Proofs.Board.Banks
import RasterIrq.Proofs.Board.History
import RasterIrq.Proofs.Board.Resume
import RasterIrq.Proofs.Chip.Ports
import Mathlib.Tactic.SplitIfs

/-!
# The registers of a Mapper 222, from the writes

Every register of a Mapper 222 has a port of its own, so it holds what was written to that port
last. Ports are found by the address bits in $F003; addresses that come to no port, like all below
$8000, do nothing at all.

Results:
1. `Mapper222.Follows.writeAll`: the registers that some writes make.
2. `Board.mapper222Banks_run`: registers, banks and mirroring after a run, from what was written.
-/

namespace RasterIrq

namespace Mapper222

/-! ## What was written -/

/-- The value written last to an address that comes to `port`, if there is one. -/
def lastTo (port : UInt16) (writes : List (UInt16 × UInt8)) : Option UInt8 :=
  lastWrite (fun _ addr => decide (0x8000 ≤ addr ∧ addr &&& 0xF003 = port)) writes

/-- The ports of the bank registers and what these hold at power-on: first the program ones. -/
def bankPorts : List (UInt16 × UInt8) :=
  [(0x8000, 0), (0xA000, 1), (0xB000, 0), (0xB002, 1), (0xC000, 2), (0xC002, 3), (0xD000, 4),
    (0xD002, 5), (0xE000, 6), (0xE002, 7)]

/-- The bank registers, each with the value written to it last. -/
def banksWritten (writes : List (UInt16 × UInt8)) : List UInt8 :=
  bankPorts.map fun p => (lastTo p.1 writes).getD p.2

/-- The mirroring that the last write to its port asks for, or the wired one. -/
def mirroringWritten (wired : Mirroring) (writes : List (UInt16 × UInt8)) : Mirroring :=
  wired.asked (lastTo 0x9000 writes)

/-! ## One more write -/

theorem lastTo_cons (port addr : UInt16) (value : UInt8) (writes : List (UInt16 × UInt8)) :
    lastTo port ((addr, value) :: writes)
      = if 0x8000 ≤ addr ∧ addr &&& 0xF003 = port then some value else lastTo port writes := by
  rw [lastTo, lastWrite]
  simp only [decide_eq_true_eq]
  rfl

theorem lastTo_cons_getD {addr : UInt16} (hport : 0x8000 ≤ addr) (port : UInt16)
    (value initial : UInt8) (writes : List (UInt16 × UInt8)) :
    (lastTo port ((addr, value) :: writes)).getD initial
      = if addr &&& 0xF003 = port then value else (lastTo port writes).getD initial := by
  rw [lastTo_cons]
  simp only [hport, true_and]
  split <;> rfl

theorem lastTo_cons_of_not_port {addr : UInt16} (hport : ¬ 0x8000 ≤ addr) (port : UInt16)
    (value : UInt8) (writes : List (UInt16 × UInt8)) :
    lastTo port ((addr, value) :: writes) = lastTo port writes := by
  rw [lastTo_cons, if_neg fun h => hport h.1]

/-! ## Registers -/

/-- The registers are what was written to them. -/
structure Follows (wired : Mirroring) (writes : List (UInt16 × UInt8)) (r : Mapper222) : Prop where
  prg_eq : ∀ i, r.prg.get i
    = (lastTo (Port.prg i).address writes).getD ((powerOn wired).prg.get i)
  chr_eq : ∀ i, r.chr.get i
    = (lastTo (Port.chr i).address writes).getD ((powerOn wired).chr.get i)
  mirroring_eq : r.mirroring = mirroringWritten wired writes

namespace Follows

variable {wired : Mirroring} {writes : List (UInt16 × UInt8)} {r : Mapper222} {addr : UInt16}

theorem powerOn (wired : Mirroring) : Follows wired [] (.powerOn wired) :=
  ⟨fun _ => rfl, fun _ => rfl, rfl⟩

theorem write (h : Follows wired writes r) (hport : 0x8000 ≤ addr) (value : UInt8) :
    Follows wired ((addr, value) :: writes) (r.write addr value) := by
  refine ⟨fun i => ?_, fun i => ?_, ?_⟩
  · rw [prg_write, lastTo_cons_getD hport, h.prg_eq i]
  · rw [chr_write, lastTo_cons_getD hport, h.chr_eq i]
  · rw [mirroring_write, h.mirroring_eq, mirroringWritten, mirroringWritten, lastTo_cons,
      Mirroring.asked_ite]
    simp only [hport, true_and]
    rfl

theorem skip (h : Follows wired writes r) (hport : ¬ 0x8000 ≤ addr) (value : UInt8) :
    Follows wired ((addr, value) :: writes) r := by
  refine ⟨fun i => ?_, fun i => ?_, ?_⟩
  · rw [lastTo_cons_of_not_port hport, h.prg_eq i]
  · rw [lastTo_cons_of_not_port hport, h.chr_eq i]
  · rw [mirroringWritten, lastTo_cons_of_not_port hport]
    exact h.mirroring_eq

/-- The registers that some writes make. -/
theorem writeAll (wired : Mirroring) (writes : List (UInt16 × UInt8)) :
    ∃ r, (Chip.mapper222 (.powerOn wired)).writeAll wired writes = .mapper222 r ∧
      Follows wired writes r := by
  refine Chip.writeAll_induction
    (P := fun writes c => ∃ r, c = .mapper222 r ∧ Follows wired writes r)
    ⟨_, rfl, powerOn wired⟩ ?_ ?_ writes
  · rintro writes _ addr value ⟨r, rfl, h⟩ hport
    exact ⟨_, rfl, h.write hport value⟩
  · rintro writes _ addr value ⟨r, rfl, h⟩ hport
    exact ⟨r, rfl, h.skip hport value⟩

theorem banks_eq (h : Follows wired writes r) : r.banks = banksWritten writes := by
  have htoList : ∀ {n : Nat} (v : Vector UInt8 n), v.toList = List.ofFn fun i => v.get i := by
    intro n v
    refine List.ext_getElem (by simp) fun i hi _ => ?_
    simp [Vector.get]
  rw [banks, htoList, htoList]
  simp only [h.prg_eq, h.chr_eq]
  rfl

end Follows

/-- An address that comes to no port writes nothing. -/
theorem port?_eq_none {addr : UInt16}
    (h : addr &&& 0xF003 ∉ 0x9000 :: 0xF000 :: bankPorts.map Prod.fst) : port? addr = none := by
  have hmem : ∀ p : Port, p.address ∈ 0x9000 :: 0xF000 :: bankPorts.map Prod.fst := by
    intro p
    cases p with
    | prg i => revert i; decide
    | chr i => revert i; decide
    | mirroring => decide
    | irq => decide
  cases hport : port? addr with
  | none => rfl
  | some p => exact absurd (port?_eq_some_iff.mp hport ▸ hmem p) h

end Mapper222

/-! ## The board -/

namespace Board

theorem exists_follows_mapper222 {cart : Cartridge} {start : Board} {ops : List Operation}
    (hstart : ofCartridge cart = .ok start) (hfamily : start.chip.family = .mapper222)
    (hloads : ∀ bytes, .load bytes ∉ sinceReset ops) :
    ∃ r, (start.run ops).chip = .mapper222 r ∧ r.Follows cart.mirroring (written ops) := by
  obtain ⟨hwired, -, family, -, hchip⟩ := ofCartridge_eq_ok hstart
  rw [chip_run_eq hstart hloads, hwired, hchip]
  rw [hchip] at hfamily
  cases family with
  | mmc3 => cases hfamily
  | mapper222 => exact Mapper222.Follows.writeAll _ _

/-- A write to an address that comes to no port leaves a Mapper 222 board as it is. -/
theorem write_eq_self {b : Board} (hfamily : b.chip.family = .mapper222) {addr : UInt16}
    (haddr : addr < 0x8000 ∨
      addr &&& 0xF003 ∉ 0x9000 :: 0xF000 :: Mapper222.bankPorts.map Prod.fst)
    (value : UInt8) : b.write addr value = b := by
  obtain ⟨prg, chr, chrIsRam, ram, wired, chip, irq⟩ := b
  cases chip with
  | mmc3 r => cases hfamily
  | mapper222 r =>
    unfold Board.write
    by_cases hrom : 0x8000 ≤ addr
    · have hport := Mapper222.port?_eq_none (haddr.resolve_left (UInt16.not_lt.mpr hrom))
      rw [if_pos hrom]
      simp only [Chip.write, Mapper222.write, Chip.commands, Mapper222.commands, hport]
      rfl
    · rw [if_neg hrom]
      exact if_neg fun h => Bool.false_ne_true h.2

/-- A Mapper 222 board with any past, as long as no record was loaded since power-on or the last
hard reset. Its registers and its mirroring are what was written last to their ports, and its
windows show the banks of the registers; the two upper program windows are fixed. A write to an
address that comes to no port does nothing. -/
theorem mapper222Banks_run {cart : Cartridge} {start : Board} {ops : List Operation}
    (hstart : ofCartridge cart = .ok start) (hfamily : start.chip.family = .mapper222)
    (hloads : ∀ bytes, .load bytes ∉ sinceReset ops) :
    let b := start.run ops
    let banks := Mapper222.banksWritten (written ops)
    let count := cart.prg.size / 0x2000
    b.chip.banks = banks ∧
    (∀ addr, 0x8000 ≤ addr →
      b.bankAt? .prg addr
        = some
          ((if addr ≤ 0x9FFF then (banks.getD 0 0).toNat
            else if addr ≤ 0xBFFF then (banks.getD 1 0).toNat
            else if addr ≤ 0xDFFF then count - 2
            else count - 1) % count)) ∧
    (∀ addr, addr < 0x2000 →
      b.bankAt? .chr addr
        = some ((banks.getD (2 + addr.toNat / 0x400) 0).toNat % (cart.chr.size / 0x400))) ∧
    b.mirroring = Mapper222.mirroringWritten cart.mirroring (written ops) ∧
    (∀ addr value,
      addr < 0x8000 ∨ addr &&& 0xF003 ∉ 0x9000 :: 0xF000 :: Mapper222.bankPorts.map Prod.fst →
      b.write addr value = b) := by
  intro b banks count
  obtain ⟨r, hr, hfollows⟩ := exists_follows_mapper222 hstart hfamily hloads
  have hbanks : r.banks = banks := hfollows.banks_eq
  obtain ⟨hprg, hchrCount, -⟩ := cells_run hstart ops
  have hcount : b.prg.count = count := by rw [Banked.count, hprg]; rfl
  refine ⟨?_, fun addr h => ?_, fun addr h => ?_, ?_, fun addr value haddr => ?_⟩
  · rw [hr]
    exact hbanks
  · rw [(prg_shown h).1, prgBank, hr, hcount, ← hbanks]
    refine congrArg (fun bank => some (bank % count)) ?_
    rw [Chip.prgBank, Mapper222.prgBank, Window.val_prg h, r.getD_banks_prg (by decide),
      r.getD_banks_prg (by decide)]
    split_ifs <;> rfl
  · rw [(chr_shown h).1, chrBank, hr, hchrCount, ← hbanks]
    refine congrArg (fun bank => some (bank % _)) ?_
    rw [← Window.val_chr h, r.getD_banks_chr (Window.chr addr).isLt]
    rfl
  · rw [mirroring, hr]
    exact hfollows.mirroring_eq
  · refine write_eq_self ?_ haddr value
    rw [hr]
    rfl

/-- Odd addresses and mirrored ones, before and after a hard reset. -/
theorem mapper222Banks_run_blank :
    ∃ start, ofCartridge (Cartridge.blank 222 0 16 64) = .ok start ∧
      let ops := [Operation.load [], .write 0xA000 9, .reset true, .write 0x8FFC 0x13,
        .write 0x8001 7, .write 0xE0F2 5, .write 0xF000 240, .reset false, .write 0x9000 1]
      (∀ bytes, .load bytes ∉ sinceReset ops) ∧
        (start.run ops).chip.banks = [0x13, 1, 0, 1, 2, 3, 4, 5, 6, 5] ∧
        (start.run ops).bankAt? .prg 0x9000 = some 3 ∧
        (start.run ops).mirroring = .horizontal ∧
        (start.run ops).write 0xB001 7 = start.run ops := by
  obtain ⟨start, hstart, hchip⟩ := exists_ofCartridge_blank
    (show Family.ofNumber? 222 = some .mapper222 from rfl) 0 16 64
  refine ⟨start, hstart, ?_⟩
  intro ops
  have hfamily : start.chip.family = .mapper222 := by rw [hchip]; rfl
  have hloads : ∀ bytes, .load bytes ∉ sinceReset ops := by
    intro bytes
    simp [ops, sinceReset]
  obtain ⟨hbanks, hprg, -, hmirroring, hself⟩ := mapper222Banks_run hstart hfamily hloads
  have hsize : (Cartridge.blank 222 0 16 64).prg.size / 0x2000 = 16 := by
    simp [Cartridge.blank, Cartridge.numberedBanks, Window.prgSize]
  refine ⟨hloads, hbanks.trans (by decide), (hprg 0x9000 (by decide)).trans ?_,
    hmirroring.trans (by decide), hself 0xB001 7 (.inr (by decide))⟩
  rw [hsize]
  decide

end Board

end RasterIrq
