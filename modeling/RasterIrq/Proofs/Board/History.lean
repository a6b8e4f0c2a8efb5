import RasterIrq.Proofs.Board.Run
import Mathlib.Data.List.Induction

/-!
# The writes behind the registers

The registers of a board go back to what the processor wrote to them, unless a record was loaded. A
hard reset takes them back to power-on, so what came before it does not count. `Board.written` reads
these writes off a run, and `Chip.writeAll` makes them on the registers of power-on.

Histories have the last event first. `lastWrite` finds in one the last write of a kind; what kind a
write is of may depend on the writes before it.

Results:
1. `Board.chip_run_eq`: the registers after a run are those that its writes make.
2. `lastWrite_filter`: writes of other kinds can be left out.
-/

namespace RasterIrq

/-! ## Histories of writes -/

/-- The value of the last write that counts, if one does. -/
def lastWrite (counts : List (UInt16 × UInt8) → UInt16 → Bool) :
    List (UInt16 × UInt8) → Option UInt8
  | [] => none
  | w :: earlier => if counts earlier w.1 then some w.2 else lastWrite counts earlier

/-- Writes that never count can be left out, if they do not decide which others count. -/
theorem lastWrite_filter {counts : List (UInt16 × UInt8) → UInt16 → Bool}
    {keep : UInt16 × UInt8 → Bool}
    (hkeep : ∀ earlier w, counts earlier w.1 = true → keep w = true)
    (hfilter : ∀ earlier, counts (earlier.filter keep) = counts earlier)
    (writes : List (UInt16 × UInt8)) :
    lastWrite counts (writes.filter keep) = lastWrite counts writes := by
  induction writes with
  | nil => rfl
  | cons w earlier ih =>
    by_cases hw : keep w = true
    · rw [List.filter_cons_of_pos hw, lastWrite, lastWrite, hfilter, ih]
    · have hnot : ¬ counts earlier w.1 = true := fun hcounts => hw (hkeep earlier w hcounts)
      rw [List.filter_cons_of_neg hw, ih, lastWrite, if_neg hnot]

namespace Mirroring

/-- The mirroring that a register value asks for, or the wired one if there is none. -/
def asked (wired : Mirroring) : Option UInt8 → Mirroring
  | none => wired
  | some value => if value % 2 = 0 then vertical else horizontal

theorem asked_ite (wired : Mirroring) (p : Prop) [Decidable p] (value : UInt8)
    (earlier : Option UInt8) :
    asked wired (if p then some value else earlier)
      = if p then ofRegister value else asked wired earlier := by
  have hbit : value &&& 1 = value % 2 := by
    rw [← UInt8.toNat_inj, UInt8.toNat_and, UInt8.toNat_mod]
    exact Nat.and_one_is_mod value.toNat
  split
  · rw [asked, ofRegister, hbit]
    simp only [beq_iff_eq]
  · rfl

end Mirroring

namespace Chip

/-- A hard reset takes a chip back to what its make is at power-on. -/
theorem hardReset_of_make {family : Family} {submapper : UInt8} {wired : Mirroring} {c : Chip}
    (h : (powerOn family submapper wired).make = c.make) :
    c.hardReset wired = powerOn family submapper wired := by
  cases family with
  | mmc3 =>
    cases c with
    | mmc3 r =>
      have hrevision : Mmc3.Revision.ofSubmapper submapper = r.revision := Make.mmc3.inj h
      rw [hardReset, powerOn, hrevision]
    | mapper222 r => cases h
  | mapper222 =>
    cases c with
    | mmc3 r => cases h
    | mapper222 r => rfl

/-- The registers after some writes, the last one first. Below $8000 there are no ports. -/
def writeAll (wired : Mirroring) (writes : List (UInt16 × UInt8)) (c : Chip) : Chip :=
  writes.foldr (fun w c => if 0x8000 ≤ w.1 then c.write wired w.1 w.2 else c) c

/-- What holds at first and is kept by a write, to a port or not, holds after all of them. -/
theorem writeAll_induction {P : List (UInt16 × UInt8) → Chip → Prop} {wired : Mirroring} {c : Chip}
    (hstart : P [] c)
    (hport : ∀ writes c addr value, P writes c → 0x8000 ≤ addr →
      P ((addr, value) :: writes) (c.write wired addr value))
    (hother : ∀ writes c addr value, P writes c → ¬ 0x8000 ≤ addr → P ((addr, value) :: writes) c)
    (writes : List (UInt16 × UInt8)) : P writes (c.writeAll wired writes) := by
  induction writes with
  | nil => exact hstart
  | cons w earlier ih =>
    show P _ (if 0x8000 ≤ w.1 then (c.writeAll wired earlier).write wired w.1 w.2
      else c.writeAll wired earlier)
    split
    · next h => exact hport _ _ _ _ ih h
    · next h => exact hother _ _ _ _ ih h

end Chip

namespace Board

/-! ## Histories of runs -/

/-- What happened since power-on or the last hard reset, the last operation first. -/
def sinceReset (ops : List Operation) : List Operation :=
  ops.foldl (fun past op => if op = .reset true then [] else op :: past) []

theorem sinceReset_concat (ops : List Operation) (op : Operation) :
    sinceReset (ops ++ [op]) = if op = .reset true then [] else op :: sinceReset ops := by
  rw [sinceReset, List.foldl_append]
  rfl

/-- The write that an operation is, if it is one. -/
def Operation.write? : Operation → Option (UInt16 × UInt8)
  | .write addr value => some (addr, value)
  | _ => none

/-- What the processor wrote since power-on or the last hard reset, the last write first. -/
def written (ops : List Operation) : List (UInt16 × UInt8) :=
  (sinceReset ops).filterMap Operation.write?

theorem written_concat (ops : List Operation) {op : Operation} (hreset : op ≠ .reset true) :
    written (ops ++ [op]) = op.write?.toList ++ written ops := by
  rw [written, sinceReset_concat, if_neg hreset, List.filterMap_cons]
  cases op.write? <;> rfl

/-! ## Registers -/

theorem chip_write_eq (b : Board) (addr : UInt16) (value : UInt8) :
    (b.write addr value).chip
      = if 0x8000 ≤ addr then b.chip.write b.wired addr value else b.chip := by
  unfold Board.write
  split
  · rfl
  split
  · rfl
  · rfl

/-- A hard reset takes the registers of a cartridge's board back to power-on. -/
theorem chip_hardReset {cart : Cartridge} {start b : Board} (hstart : ofCartridge cart = .ok start)
    (h : SameBuild start b) : (b.reset true).chip = start.chip := by
  obtain ⟨hwired, -, family, -, hchip⟩ := ofCartridge_eq_ok hstart
  have hmake := h.make
  rw [hchip] at hmake
  show b.chip.hardReset b.wired = start.chip
  rw [← h.wired, hwired, hchip]
  exact Chip.hardReset_of_make hmake

/-- The registers after a run are those that its writes make from the ones of power-on. -/
theorem chip_run_eq {cart : Cartridge} {start : Board} (hstart : ofCartridge cart = .ok start)
    {ops : List Operation} (hloads : ∀ bytes, .load bytes ∉ sinceReset ops) :
    (start.run ops).chip = start.chip.writeAll start.wired (written ops) := by
  induction ops using List.reverseRecOn with
  | nil => rfl
  | append_singleton ops op ih =>
    have hbuild := SameBuild.run start ops
    rw [run_concat, written, sinceReset_concat]
    rw [sinceReset_concat] at hloads
    by_cases hreset : op = .reset true
    · rw [if_pos hreset, hreset]
      exact chip_hardReset hstart hbuild
    · rw [if_neg hreset] at hloads ⊢
      have hbefore := ih fun bytes hbytes => hloads bytes (List.mem_cons_of_mem op hbytes)
      cases op with
      | read addr => exact hbefore
      | write addr value =>
        rw [perform, chip_write_eq, hbefore, ← hbuild.wired]
        rfl
      | readChr addr => exact hbefore
      | writeChr addr value =>
        refine Eq.trans ?_ hbefore
        rw [perform, writeChr]
        split <;> rfl
      | notify addr cycle => exact hbefore
      | reset hard =>
        cases hard with
        | true => exact absurd rfl hreset
        | false => exact hbefore
      | load bytes => exact absurd List.mem_cons_self (hloads bytes)

end Board

end RasterIrq
