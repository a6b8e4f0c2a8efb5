import RasterIrq.Proofs.Board.Banks
import RasterIrq.Proofs.Board.History
import RasterIrq.Proofs.Chip.Ports
import Mathlib.Data.List.GetD
import Mathlib.Tactic.SplitIfs
import Mathlib.Tactic.IntervalCases

/-!
# The banks of an MMC3, from the writes

A program banks an MMC3 through two ports: a write to the even half of $8000-$9FFF selects a bank
register and two modes, one to the odd half puts a value into the register that is selected then.
The select byte and the eight registers are what the last writes of their kind say, and the windows
follow from these. The mirroring has one port of its own.

Results:
1. `Mmc3.Follows.writeAll`: the registers that some writes make.
2. `Board.mmc3Banks_run`: banks and mirroring after a run, from what was written.
-/

namespace RasterIrq

namespace Mmc3

/-! ## What was written -/

/-- Even addresses from $8000 to $9FFF. -/
def isSelectPort (addr : UInt16) : Bool :=
  decide (0x8000 ≤ addr ∧ addr ≤ 0x9FFF ∧ addr % 2 = 0)

/-- Odd addresses from $8000 to $9FFF. -/
def isDataPort (addr : UInt16) : Bool :=
  decide (0x8000 ≤ addr ∧ addr ≤ 0x9FFF ∧ addr % 2 ≠ 0)

/-- Even addresses from $A000 to $BFFF. -/
def isMirroringPort (addr : UInt16) : Bool :=
  decide (0xA000 ≤ addr ∧ addr ≤ 0xBFFF ∧ addr % 2 = 0)

/-- The select byte written last, or zero. -/
def selectWritten (writes : List (UInt16 × UInt8)) : UInt8 :=
  (lastWrite (fun _ addr => isSelectPort addr) writes).getD 0

/-- The value written last while the select byte named bank register `k`, or zero. R0 and R1 drop
the lowest bit. -/
def bankWritten (writes : List (UInt16 × UInt8)) (k : Nat) : UInt8 :=
  let value := (lastWrite (fun earlier addr =>
    isDataPort addr && (selectWritten earlier).toNat % 8 == k) writes).getD 0
  if k ≤ 1 then value &&& 0xFE else value

/-- The mirroring that the last write to its port asks for, or the wired one. -/
def mirroringWritten (wired : Mirroring) (writes : List (UInt16 × UInt8)) : Mirroring :=
  wired.asked (lastWrite (fun _ addr => isMirroringPort addr) writes)

/-- The ports that banks and mirroring depend on. -/
def isBankPort (addr : UInt16) : Bool :=
  isSelectPort addr || isDataPort addr || isMirroringPort addr

/-! ## Ports -/

variable {addr : UInt16}

theorem isSelectPort_eq (h : 0x8000 ≤ addr) :
    isSelectPort addr = decide (port addr = .bankSelect) := by
  rw [isSelectPort, port_eq h]
  split_ifs with hlow heven <;> simp [*]

theorem isDataPort_eq (h : 0x8000 ≤ addr) :
    isDataPort addr = decide (port addr = .bankData) := by
  rw [isDataPort, port_eq h]
  split_ifs with hlow heven <;> simp [*]

theorem isMirroringPort_eq (h : 0x8000 ≤ addr) :
    isMirroringPort addr = decide (port addr = .mirroring) := by
  have hfrom : 0xA000 ≤ addr ↔ ¬ addr ≤ 0x9FFF := by
    simp only [UInt16.le_iff_toNat_le, UInt16.reduceToNat]
    omega
  simp only [isMirroringPort, port_eq h, hfrom]
  split_ifs with hlow heven <;> simp [*]

/-- Below $8000 there are no ports. -/
theorem not_isBankPort (h : ¬ 0x8000 ≤ addr) :
    isSelectPort addr = false ∧ isDataPort addr = false ∧ isMirroringPort addr = false := by
  have hfrom : ¬ 0xA000 ≤ addr := fun hle => h (UInt16.le_trans (by decide) hle)
  exact ⟨decide_eq_false fun hport => h hport.1, decide_eq_false fun hport => h hport.1,
    decide_eq_false fun hport => hfrom hport.1⟩

/-! ## One more write -/

section

variable (wired : Mirroring) (value : UInt8) (writes : List (UInt16 × UInt8))

theorem selectWritten_cons :
    selectWritten ((addr, value) :: writes)
      = if isSelectPort addr then value else selectWritten writes := by
  by_cases hcounts : isSelectPort addr = true
  · rw [if_pos hcounts, selectWritten, lastWrite, if_pos hcounts]
    rfl
  · rw [if_neg hcounts, selectWritten, lastWrite, if_neg hcounts]
    rfl

theorem bankWritten_cons (k : Nat) :
    bankWritten ((addr, value) :: writes) k
      = if isDataPort addr && (selectWritten writes).toNat % 8 == k then
          if k ≤ 1 then value &&& 0xFE else value
        else bankWritten writes k := by
  by_cases hcounts : (isDataPort addr && (selectWritten writes).toNat % 8 == k) = true
  · rw [if_pos hcounts, bankWritten, lastWrite, if_pos hcounts]
    rfl
  · rw [if_neg hcounts, bankWritten, lastWrite, if_neg hcounts]
    rfl

theorem mirroringWritten_cons :
    mirroringWritten wired ((addr, value) :: writes)
      = if isMirroringPort addr then .ofRegister value else mirroringWritten wired writes :=
  Mirroring.asked_ite wired _ value _

end

/-! ## Registers -/

/-- The registers are what was written to them. -/
structure Follows (wired : Mirroring) (writes : List (UInt16 × UInt8)) (r : Mmc3) : Prop where
  select_eq : r.select = selectWritten writes
  register_eq : ∀ k, k < 8 → r.register k = bankWritten writes k
  /-- A four-screen board has no use for its mirroring register. -/
  mirroring_eq : wired ≠ .fourScreen → r.mirroring = mirroringWritten wired writes

variable {wired : Mirroring} {writes : List (UInt16 × UInt8)} {r : Mmc3}

namespace Follows

theorem powerOn (revision : Revision) : Follows wired [] (.powerOn revision wired) := by
  refine ⟨rfl, fun k hk => ?_, fun _ => rfl⟩
  rw [register_of_lt _ hk]
  show (Vector.replicate 8 0)[k] = if k ≤ 1 then 0 &&& 0xFE else 0
  rw [Vector.getElem_replicate]
  split <;> rfl

theorem write (h : Follows wired writes r) (hport : 0x8000 ≤ addr) (value : UInt8) :
    Follows wired ((addr, value) :: writes) (r.write wired addr value) := by
  refine ⟨?_, fun k hk => ?_, fun hwired => ?_⟩
  · rw [select_write, selectWritten_cons, isSelectPort_eq hport, h.select_eq]
    simp only [decide_eq_true_eq]
  · rw [register_write _ _ _ _ hk, bankWritten_cons, isDataPort_eq hport, h.select_eq,
      h.register_eq k hk]
    simp only [Bool.and_eq_true, decide_eq_true_eq, beq_iff_eq]
  · rw [mirroring_write, mirroringWritten_cons, isMirroringPort_eq hport, h.mirroring_eq hwired]
    simp only [ne_eq, hwired, not_false_eq_true, and_true, decide_eq_true_eq]

theorem skip (h : Follows wired writes r) (hport : ¬ 0x8000 ≤ addr) (value : UInt8) :
    Follows wired ((addr, value) :: writes) r := by
  obtain ⟨hselect, hdata, hmirroring⟩ := not_isBankPort hport
  refine ⟨?_, fun k hk => ?_, fun hwired => ?_⟩
  · rw [selectWritten_cons, hselect]
    exact h.select_eq
  · rw [bankWritten_cons, hdata]
    exact h.register_eq k hk
  · rw [mirroringWritten_cons, hmirroring]
    exact h.mirroring_eq hwired

/-- The registers that some writes make. -/
theorem writeAll (revision : Revision) (wired : Mirroring) (writes : List (UInt16 × UInt8)) :
    ∃ r, (Chip.mmc3 (.powerOn revision wired)).writeAll wired writes = .mmc3 r ∧
      Follows wired writes r := by
  refine Chip.writeAll_induction
    (P := fun writes c => ∃ r, c = .mmc3 r ∧ Follows wired writes r)
    ⟨_, rfl, powerOn revision⟩ ?_ ?_ writes
  · rintro writes _ addr value ⟨r, rfl, h⟩ hport
    exact ⟨_, rfl, h.write hport value⟩
  · rintro writes _ addr value ⟨r, rfl, h⟩ hport
    exact ⟨r, rfl, h.skip hport value⟩

/-! ## Windows -/

theorem prgBank_eq (h : Follows wired writes r) (count : Nat) (hport : 0x8000 ≤ addr) :
    r.prgBank count (Window.prg addr)
      = if addr ≤ 0x9FFF then
          if selectWritten writes &&& 0x40 = 0 then (bankWritten writes 6).toNat else count - 2
        else if addr ≤ 0xBFFF then (bankWritten writes 7).toNat
        else if addr ≤ 0xDFFF then
          if selectWritten writes &&& 0x40 = 0 then count - 2 else (bankWritten writes 6).toNat
        else count - 1 := by
  have hswapped : r.prgSwapped = true ↔ ¬ selectWritten writes &&& 0x40 = 0 := by
    rw [prgSwapped, h.select_eq, bne_iff_ne]
  rw [prgBank, Window.val_prg hport, h.register_eq 6 (by decide), h.register_eq 7 (by decide)]
  simp only [hswapped, ite_not]
  split_ifs <;> rfl

end Follows

/-- Exchanging the halves of the character space flips bit 2 of a window's number. -/
theorem window_xor (addr : UInt16) :
    (addr ^^^ 0x1000).toNat / 0x400 = addr.toNat / 0x400 ^^^ 4 := by
  rw [UInt16.toNat_xor]
  show (addr.toNat ^^^ 2 ^ 12) / 2 ^ 10 = addr.toNat / 2 ^ 10 ^^^ 2 ^ 12 / 2 ^ 10
  exact Nat.xor_div_two_pow

/-- The character banks in the eight windows while the halves are not exchanged. -/
def chrTable (bank : Nat → UInt8) : List UInt8 :=
  [bank 0, bank 0 ||| 1, bank 1, bank 1 ||| 1, bank 2, bank 3, bank 4, bank 5]

theorem chrBank_eq_getD (r : Mmc3) (window : Fin 8) :
    r.chrBank window = (r.chrBanks.getD window.val 0).toNat := by
  rw [List.getD_eq_getElem _ _ (by rw [length_chrBanks]; exact window.isLt)]
  rfl

theorem bankWritten_and_FE {k : Nat} (hk : k ≤ 1) (writes : List (UInt16 × UInt8)) :
    bankWritten writes k &&& 0xFE = bankWritten writes k := by
  rw [bankWritten, if_pos hk, UInt8.and_assoc, UInt8.and_self]

theorem Follows.chrBank_eq (h : Follows wired writes r) (haddr : addr < 0x2000) :
    r.chrBank (Window.chr addr)
      = ((chrTable (bankWritten writes)).getD
          ((if selectWritten writes &&& 0x80 = 0 then addr else addr ^^^ 0x1000).toNat / 0x400)
          0).toNat := by
  have hwindow := Window.val_chr haddr
  have hpairs : r.chrPairs = (chrTable (bankWritten writes)).take 4 := by
    rw [chrPairs, h.register_eq 0 (by decide), h.register_eq 1 (by decide),
      bankWritten_and_FE (by decide), bankWritten_and_FE (by decide)]
    rfl
  have hsingles : r.chrSingles = (chrTable (bankWritten writes)).drop 4 := by
    rw [chrSingles, h.register_eq 2 (by decide), h.register_eq 3 (by decide),
      h.register_eq 4 (by decide), h.register_eq 5 (by decide)]
    rfl
  have hswapped : r.chrSwapped = true ↔ ¬ selectWritten writes &&& 0x80 = 0 := by
    rw [chrSwapped, h.select_eq, bne_iff_ne]
  have hlt : addr.toNat / 0x400 < 8 := hwindow ▸ (Window.chr addr).isLt
  rw [chrBank_eq_getD, hwindow, chrBanks, hpairs, hsingles]
  simp only [hswapped, ite_not]
  split
  · rw [List.take_append_drop]
  · rw [window_xor]
    generalize addr.toNat / 0x400 = i at hlt
    interval_cases i <;> rfl

/-! ## What does not count -/

theorem Follows.filter (h : Follows wired writes r) :
    Follows wired (writes.filter fun w => isBankPort w.1) r := by
  have hselect : ∀ writes : List (UInt16 × UInt8),
      selectWritten (writes.filter fun w => isBankPort w.1) = selectWritten writes := by
    intro writes
    refine congrArg (Option.getD · 0) (lastWrite_filter (fun _ w hw => ?_) (fun _ => rfl) writes)
    rw [isBankPort, hw, Bool.true_or, Bool.true_or]
  refine ⟨?_, fun k hk => ?_, fun hwired => ?_⟩
  · rw [hselect, h.select_eq]
  · rw [h.register_eq k hk, bankWritten, bankWritten, lastWrite_filter]
    · intro earlier w hw
      rw [isBankPort, (Bool.and_eq_true_iff.mp hw).1, Bool.or_true, Bool.true_or]
    · intro earlier
      rw [hselect]
  · rw [h.mirroring_eq hwired, mirroringWritten, mirroringWritten, lastWrite_filter]
    · intro _ w hw
      rw [isBankPort, hw, Bool.or_true]
    · exact fun _ => rfl

/-- Registers that follow the same writes show the same banks. -/
theorem Follows.shown_eq {s : Mmc3} (hr : Follows wired writes r) (hs : Follows wired writes s) :
    r.prgBank = s.prgBank ∧ r.chrBank = s.chrBank ∧
      (wired ≠ .fourScreen → r.mirroring = s.mirroring) := by
  have hselect : r.select = s.select := hr.select_eq.trans hs.select_eq.symm
  have hbanks : r.banks = s.banks := by
    ext k hk
    rw [← r.register_of_lt hk, ← s.register_of_lt hk, hr.register_eq k hk, hs.register_eq k hk]
  refine ⟨?_, ?_, fun hwired => (hr.mirroring_eq hwired).trans (hs.mirroring_eq hwired).symm⟩
  · obtain ⟨_, _, _, _, _, _⟩ := r
    obtain ⟨_, _, _, _, _, _⟩ := s
    cases hselect
    cases hbanks
    rfl
  · obtain ⟨_, _, _, _, _, _⟩ := r
    obtain ⟨_, _, _, _, _, _⟩ := s
    cases hselect
    cases hbanks
    rfl

end Mmc3

/-! ## The board -/

namespace Board

theorem exists_follows_mmc3 {cart : Cartridge} {start : Board} {ops : List Operation}
    (hstart : ofCartridge cart = .ok start) (hfamily : start.chip.family = .mmc3)
    (hloads : ∀ bytes, .load bytes ∉ sinceReset ops) :
    ∃ r, (start.run ops).chip = .mmc3 r ∧ r.Follows cart.mirroring (written ops) := by
  obtain ⟨hwired, -, family, -, hchip⟩ := ofCartridge_eq_ok hstart
  rw [chip_run_eq hstart hloads, hwired, hchip]
  rw [hchip] at hfamily
  cases family with
  | mmc3 => exact Mmc3.Follows.writeAll _ _ _
  | mapper222 => cases hfamily

/-- An MMC3 board with any past, as long as no record was loaded since power-on or the last hard
reset. The select byte and the bank registers that were written decide which banks its windows show;
the last window is fixed, and so is the second-last bank (the first one, if there is no other). The
mirroring is as written too, except on a four-screen board. Runs that differ in other operations
show the same. -/
theorem mmc3Banks_run {cart : Cartridge} {start : Board} {ops : List Operation}
    (hstart : ofCartridge cart = .ok start) (hfamily : start.chip.family = .mmc3)
    (hloads : ∀ bytes, .load bytes ∉ sinceReset ops) :
    let b := start.run ops
    let select := Mmc3.selectWritten (written ops)
    let bank := Mmc3.bankWritten (written ops)
    let count := cart.prg.size / 0x2000
    (∀ addr, 0x8000 ≤ addr →
      b.bankAt? .prg addr
        = some
          ((if addr ≤ 0x9FFF then if select &&& 0x40 = 0 then (bank 6).toNat else count - 2
            else if addr ≤ 0xBFFF then (bank 7).toNat
            else if addr ≤ 0xDFFF then if select &&& 0x40 = 0 then count - 2 else (bank 6).toNat
            else count - 1) % count)) ∧
    (∀ addr, addr < 0x2000 →
      let seen := if select &&& 0x80 = 0 then addr else addr ^^^ 0x1000
      b.bankAt? .chr addr
        = some (((Mmc3.chrTable bank).getD (seen.toNat / 0x400) 0).toNat
            % (cart.chr.size / 0x400))) ∧
    b.mirroring
      = (if cart.mirroring = .fourScreen then .fourScreen
        else Mmc3.mirroringWritten cart.mirroring (written ops)) ∧
    (∀ other, (∀ bytes, .load bytes ∉ sinceReset other) →
      ((written other).filter fun w => Mmc3.isBankPort w.1)
        = ((written ops).filter fun w => Mmc3.isBankPort w.1) →
      (start.run other).bankAt? = b.bankAt? ∧ (start.run other).mirroring = b.mirroring) := by
  intro b select bank count
  obtain ⟨r, hchip, hfollows⟩ := exists_follows_mmc3 hstart hfamily hloads
  obtain ⟨hprg, hchrCount, -⟩ := cells_run hstart ops
  have hwired : ∀ ops, (start.run ops).wired = cart.mirroring := fun ops =>
    (SameBuild.run start ops).wired.symm.trans (ofCartridge_eq_ok hstart).1
  have hcount : b.prg.count = count := by rw [Banked.count, hprg]; rfl
  refine ⟨fun addr h => ?_, fun addr h => ?_, ?_, fun other hother hsame => ?_⟩
  · rw [(prg_shown h).1, prgBank, hchip, hcount]
    exact congrArg (fun bank => some (bank % count)) (hfollows.prgBank_eq count h)
  · rw [(chr_shown h).1, chrBank, hchip, hchrCount]
    exact congrArg (fun bank => some (bank % _)) (hfollows.chrBank_eq h)
  · rw [mirroring, hwired, hchip, Chip.mirroring]
    split
    · rfl
    · next hscreens => exact hfollows.mirroring_eq hscreens
  · obtain ⟨s, hchip', hfollows'⟩ := exists_follows_mmc3 hstart hfamily hother
    have hboth := hfollows'.filter
    rw [hsame] at hboth
    obtain ⟨hprgBanks, hchrBanks, hmirroring⟩ := hboth.shown_eq hfollows.filter
    have hbuild := (SameBuild.run start other).symm.trans (SameBuild.run start ops)
    refine ⟨?_, ?_⟩
    · funext region addr
      show (start.run other).bankAt? region addr = (start.run ops).bankAt? region addr
      unfold bankAt? prgBank chrBank
      rw [hchip', hchip, hbuild.prg, hbuild.chrCount]
      simp only [Chip.prgBank, Chip.chrBank, hprgBanks, hchrBanks]
    · show (start.run other).mirroring = (start.run ops).mirroring
      rw [mirroring, mirroring, hchip', hchip, hwired, hwired, Chip.mirroring, Chip.mirroring]
      split
      · rfl
      · next hscreens => exact hmirroring hscreens

/-- R6 and R1 are written through mirrored addresses after a load and a hard reset, and the halves
of the character space are exchanged. -/
theorem mmc3Banks_run_blank :
    ∃ start, ofCartridge (Cartridge.blank 4 0 16 64) = .ok start ∧
      let ops := [Operation.load [], .reset true, .write 0x9FFE 0x46, .write 0x8101 0x13,
        .notify 0x1000 100, .write 0x8000 0x81, .write 0x8001 9, .reset false, .write 0xA000 1]
      (∀ bytes, .load bytes ∉ sinceReset ops) ∧ (start.run ops).bankAt? .prg 0x8000 = some 3 ∧
        (start.run ops).bankAt? .chr 0x1C00 = some 9 ∧
        (start.run ops).mirroring = .horizontal := by
  obtain ⟨start, hstart, hchip⟩ := exists_ofCartridge_blank
    (show Family.ofNumber? 4 = some .mmc3 from rfl) 0 16 64
  refine ⟨start, hstart, ?_⟩
  intro ops
  have hfamily : start.chip.family = .mmc3 := by rw [hchip]; rfl
  have hloads : ∀ bytes, .load bytes ∉ sinceReset ops := by
    intro bytes
    simp [ops, sinceReset]
  obtain ⟨hprg, hchr, hmirroring, -⟩ := mmc3Banks_run hstart hfamily hloads
  have hprgSize : (Cartridge.blank 4 0 16 64).prg.size / 0x2000 = 16 := by
    simp [Cartridge.blank, Cartridge.numberedBanks, Window.prgSize]
  have hchrSize : (Cartridge.blank 4 0 16 64).chr.size / 0x400 = 64 := by
    simp [Cartridge.blank, Cartridge.numberedBanks, Window.chrSize]
  refine ⟨hloads, (hprg 0x8000 (by decide)).trans ?_, (hchr 0x1C00 (by decide)).trans ?_,
    hmirroring.trans ?_⟩
  · rw [hprgSize]
    decide
  · rw [hchrSize]
    decide
  · decide

end Board

end RasterIrq
