import RasterIrq.Chip
import Mathlib.Tactic.SplitIfs

/-!
# Ports and the registers behind them

Which port an address is, and what a write to it does to each register. A port of the MMC3 is one
half, even or odd, of a range of 8 KiB. A port of the Mapper 222 is what an address is equal to once
the bits that are not looked at are cleared.

Results:
1. `Mmc3.port_eq`, `Mapper222.port?_eq_some_iff`: ports by address.
2. `Mmc3.select_write`, `Mmc3.register_write`, `Mmc3.mirroring_write` and the same for the
   Mapper 222: one register after a write.
-/

namespace RasterIrq

namespace Window

/-- The program window of an address, by range. -/
theorem val_prg {addr : UInt16} (h : 0x8000 ≤ addr) :
    (Window.prg addr).val
      = if addr ≤ 0x9FFF then 0
        else if addr ≤ 0xBFFF then 1
        else if addr ≤ 0xDFFF then 2
        else 3 := by
  have hlt := addr.toNat_lt
  have hle := UInt16.le_iff_toNat_le.mp h
  simp only [UInt16.le_iff_toNat_le, UInt16.reduceToNat] at hle ⊢
  show addr.toNat / 0x2000 % 4 = _
  split_ifs <;> omega

theorem val_chr {addr : UInt16} (h : addr < 0x2000) :
    (Window.chr addr).val = addr.toNat / 0x400 := by
  have hlt := UInt16.lt_iff_toNat_lt.mp h
  simp only [UInt16.reduceToNat] at hlt
  show addr.toNat / 0x400 % 8 = _
  omega

end Window

/-! ## The MMC3 -/

namespace Mmc3

theorem port_eq {addr : UInt16} (h : 0x8000 ≤ addr) :
    port addr
      = if addr ≤ 0x9FFF then if addr % 2 = 0 then .bankSelect else .bankData
        else if addr ≤ 0xBFFF then if addr % 2 = 0 then .mirroring else .ramProtect
        else if addr ≤ 0xDFFF then if addr % 2 = 0 then .irqLatch else .irqReload
        else if addr % 2 = 0 then .irqDisable else .irqEnable := by
  have heven : addr &&& 1 = addr % 2 := by
    rw [← UInt16.toNat_inj, UInt16.toNat_and, UInt16.toNat_mod]
    exact Nat.and_one_is_mod addr.toNat
  rw [port, Window.val_prg h, heven]
  by_cases hparity : addr % 2 = 0
  · rw [beq_iff_eq.mpr hparity]
    split_ifs <;> rfl
  · rw [beq_eq_false_iff_ne.mpr hparity]
    split_ifs <;> rfl

/-! What a port write leaves in each register. -/

theorem select_write (wired : Mirroring) (addr : UInt16) (value : UInt8) (r : Mmc3) :
    (r.write wired addr value).select = if port addr = .bankSelect then value else r.select := by
  unfold write writeBank
  cases port addr with
  | mirroring => by_cases hwired : wired = .fourScreen <;> simp [hwired]
  | _ => rfl

theorem mirroring_write (wired : Mirroring) (addr : UInt16) (value : UInt8) (r : Mmc3) :
    (r.write wired addr value).mirroring
      = if port addr = .mirroring ∧ wired ≠ .fourScreen then .ofRegister value
        else r.mirroring := by
  unfold write writeBank
  cases port addr with
  | mirroring => by_cases hwired : wired = .fourScreen <;> simp [hwired]
  | _ => rfl

theorem register_writeBank (value : UInt8) (r : Mmc3) {k : Nat} (h : k < 8) :
    (r.writeBank value).register k
      = if r.select.toNat % 8 = k then if k ≤ 1 then value &&& 0xFE else value
        else r.register k := by
  rw [register_of_lt _ h, register_of_lt _ h, writeBank]
  dsimp only
  rw [Vector.getElem_set]
  split
  · next hk => rw [hk]
  · rfl

theorem register_write (wired : Mirroring) (addr : UInt16) (value : UInt8) (r : Mmc3) {k : Nat}
    (h : k < 8) :
    (r.write wired addr value).register k
      = if port addr = .bankData ∧ r.select.toNat % 8 = k then
          if k ≤ 1 then value &&& 0xFE else value
        else r.register k := by
  unfold write
  cases port addr with
  | bankData =>
    rw [register_writeBank value r h]
    simp only [true_and]
  | mirroring => by_cases hwired : wired = .fourScreen <;> simp [hwired, register]
  | _ => rfl

end Mmc3

/-! ## The Mapper 222 -/

namespace Mapper222

/-- The address of a port, with the bits cleared that are not looked at. -/
def Port.address : Port → UInt16
  | .prg i => [0x8000, 0xA000].getD i 0
  | .chr i => [0xB000, 0xB002, 0xC000, 0xC002, 0xD000, 0xD002, 0xE000, 0xE002].getD i 0
  | .mirroring => 0x9000
  | .irq => 0xF000

theorem port?_address (p : Port) : port? p.address = some p := by
  cases p with
  | prg i => revert i; decide
  | chr i => revert i; decide
  | mirroring => rfl
  | irq => rfl

theorem port?_masked (addr : UInt16) : port? (addr &&& 0xF003) = port? addr := by
  rw [port?, UInt16.and_assoc, UInt16.and_self]
  rfl

theorem port?_eq_some_iff {addr : UInt16} {p : Port} :
    port? addr = some p ↔ addr &&& 0xF003 = p.address := by
  constructor
  · intro h
    unfold port? at h
    split at h <;> cases h <;> assumption
  · intro h
    rw [← port?_masked, h, port?_address]

/-! What a port write leaves in each register. -/

variable (addr : UInt16) (value : UInt8) (r : Mapper222)

theorem prg_write (i : Fin 2) :
    (r.write addr value).prg.get i
      = if addr &&& 0xF003 = (Port.prg i).address then value else r.prg.get i := by
  simp only [← port?_eq_some_iff]
  unfold write
  cases port? addr with
  | none => rfl
  | some p =>
    cases p with
    | prg j =>
      show (r.prg.set j value)[i.val] = if some (Port.prg j) = some (Port.prg i) then value else _
      simp [Vector.getElem_set, Fin.val_inj, Vector.get]
    | _ => rfl

theorem chr_write (i : Fin 8) :
    (r.write addr value).chr.get i
      = if addr &&& 0xF003 = (Port.chr i).address then value else r.chr.get i := by
  simp only [← port?_eq_some_iff]
  unfold write
  cases port? addr with
  | none => rfl
  | some p =>
    cases p with
    | chr j =>
      show (r.chr.set j value)[i.val] = if some (Port.chr j) = some (Port.chr i) then value else _
      simp [Vector.getElem_set, Fin.val_inj, Vector.get]
    | _ => rfl

theorem mirroring_write :
    (r.write addr value).mirroring
      = if addr &&& 0xF003 = Port.mirroring.address then .ofRegister value else r.mirroring := by
  simp only [← port?_eq_some_iff]
  unfold write
  cases port? addr with
  | none => rfl
  | some p => cases p <;> rfl

end Mapper222

end RasterIrq
