import RasterIrq.Proofs.Board.Run
import RasterIrq.Proofs.Record.RoundTrip
import Mathlib.Data.List.GetD

/-!
# A saved board resumes

A record holds all that decides what a board does later, the memory contents apart. So a second
board of the same cartridge that loads the record is from then on *alike*: the same registers and
the same interrupt side, on the same build. What alike boards show is equal, and no operation tells
them apart.

Results:
1. `Chip.restore_saved`: a chip that takes back what a chip of its make saved is that chip.
2. `Board.load_save`: what a board saved is taken by every board of its family.
3. `Board.exists_load_save_of_family`: such a board saves it again byte for byte.
4. `Board.Alike.perform`, `Board.views_eq`: alike boards stay alike and look the same.
5. `Board.load_save_resumes`: a board that loads what another one saved goes on as that one does.
-/

namespace RasterIrq

/-! ## Registers -/

theorem Mmc3.bit_ne_zero (b : Bool) : (Mmc3.bit b != 0) = b := by
  cases b <;> decide

theorem ofFn_getD_toList {n : Nat} (v : Vector UInt8 n) :
    (Vector.ofFn fun i : Fin n => v.toList.getD i 0) = v := by
  ext i hi
  simp

theorem Mmc3.restore_saved {r s : Mmc3} (h : r.revision = s.revision) :
    r.restore s.banks.toList s.control s.mirroring = s := by
  have hbanks := ofFn_getD_toList s.banks
  cases s
  simp only [restore, control, List.getD_cons_zero, List.getD_cons_succ, bit_ne_zero, h, hbanks]

/-- Registers that a chip of any revision takes back are the saved ones, but for the revision. -/
theorem Mmc3.restore_saved_of_any (r s : Mmc3) :
    r.restore s.banks.toList s.control s.mirroring = { s with revision := r.revision } :=
  restore_saved (s := { s with revision := r.revision }) rfl

/-- The first two saved registers are the program ones. -/
theorem Mapper222.getD_banks_prg (s : Mapper222) {i : Nat} (hi : i < 2) :
    s.banks.getD i 0 = s.prg[i] := by
  have hlen : i < s.prg.toList.length := s.prg.length_toList.symm ▸ hi
  rw [banks, List.getD_append _ _ _ _ hlen, List.getD_eq_getElem _ _ hlen, Vector.getElem_toList]

/-- The other eight are the character ones. -/
theorem Mapper222.getD_banks_chr (s : Mapper222) {i : Nat} (hi : i < 8) :
    s.banks.getD (2 + i) 0 = s.chr[i] := by
  have hlen : i < s.chr.toList.length := s.chr.length_toList.symm ▸ hi
  have hprg : s.prg.toList.length = 2 := s.prg.length_toList
  rw [banks, List.getD_append_right _ _ _ _ (by omega), hprg, Nat.add_sub_cancel_left,
    List.getD_eq_getElem _ _ hlen, Vector.getElem_toList]

theorem Mapper222.restore_saved (s : Mapper222) : restore s.banks s.mirroring = s := by
  have hprg : (Vector.ofFn fun i : Fin 2 => s.banks.getD i 0) = s.prg := by
    ext i hi
    rw [Vector.getElem_ofFn, getD_banks_prg s hi]
  have hchr : (Vector.ofFn fun i : Fin 8 => s.banks.getD (2 + i) 0) = s.chr := by
    ext i hi
    rw [Vector.getElem_ofFn, getD_banks_chr s hi]
  rw [restore, hprg, hchr]

namespace Board

/-- A chip that takes back what a chip of its make saved is that chip. -/
theorem restore_record {c : Chip} {b : Board} (h : c.make = b.chip.make) :
    c.restore b.record = b.chip := by
  unfold record
  cases hb : b.chip with
  | mmc3 s =>
    rw [hb] at h
    cases c with
    | mmc3 r => exact congrArg Chip.mmc3 (Mmc3.restore_saved (Chip.Make.mmc3.inj h))
    | mapper222 r => cases h
  | mapper222 s =>
    rw [hb] at h
    cases c with
    | mmc3 r => cases h
    | mapper222 r => exact congrArg Chip.mapper222 (Mapper222.restore_saved s)

/-! ## Loading what was saved -/

theorem check_record (b : Board) : b.record.check b.chip.layout = .ok () := by
  rw [Record.check_eq_ok_iff]
  unfold record
  cases b.chip with
  | mmc3 r => exact ⟨rfl, r.banks.length_toList, rfl⟩
  | mapper222 r =>
    refine ⟨rfl, ?_, rfl⟩
    simp [Chip.banks, Mapper222.banks, Chip.layout]

theorem load_save_eq_restore (a b : Board) : b.load a.save = b.restore a.record := by
  rw [load_eq, save, Record.encode_eq_framed, Record.decode_framed, Record.ofPayload?_payload]

/-- What a board saved is taken by every board of its family. -/
theorem load_save {a b : Board} (h : a.chip.family = b.chip.family) :
    b.load a.save
      = .ok { b with chip := b.chip.restore a.record, irq := ⟨a.irq.counter, a.irq.monitor⟩ } := by
  have hcheck : a.record.check b.chip.layout = .ok () :=
    Chip.layout_eq_of_family h ▸ a.check_record
  rw [load_save_eq_restore, restore_eq_ok hcheck]
  rfl

/-- A board of the same make gets the very registers and the very interrupt side. -/
theorem load_save_of_make {a b : Board} (h : b.chip.make = a.chip.make) :
    b.load a.save = .ok { b with chip := a.chip, irq := a.irq } := by
  rw [load_save (Chip.family_eq_of_make h).symm, restore_record h]

/-- A board that takes back its own record is left as it is. -/
theorem load_save_self (b : Board) : b.load b.save = .ok b :=
  load_save_of_make rfl

/-- A record does not tell revisions apart. -/
theorem record_restored {a b : Board} (h : a.chip.family = b.chip.family) :
    ({ b with chip := b.chip.restore a.record, irq := a.irq } : Board).record = a.record := by
  cases ha : a.chip with
  | mmc3 s =>
    cases hb : b.chip with
    | mmc3 r =>
      have hchip : (Chip.mmc3 r).restore a.record = .mmc3 { s with revision := r.revision } := by
        rw [record, ha]
        exact congrArg Chip.mmc3 (Mmc3.restore_saved_of_any r s)
      rw [hchip, record, record, ha]
      rfl
    | mapper222 r =>
      rw [ha, hb] at h
      cases h
  | mapper222 s =>
    cases hb : b.chip with
    | mmc3 r =>
      rw [ha, hb] at h
      cases h
    | mapper222 r =>
      have hchip : (Chip.mapper222 r).restore a.record = .mapper222 s := by
        rw [record, ha]
        exact congrArg Chip.mapper222 (Mapper222.restore_saved s)
      rw [hchip, record, record, ha]

/-- What a board of the family saved is taken, and saved again byte for byte. -/
theorem exists_load_save_of_family {a b : Board} (h : a.chip.family = b.chip.family) :
    ∃ loaded, b.load a.save = .ok loaded ∧ loaded.save = a.save :=
  ⟨_, load_save h, congrArg Record.encode (record_restored h)⟩

/-! ## Alike boards -/

/-- Boards of one build with the same registers and the same interrupt side. Their memories may
differ in contents. -/
structure Alike (a b : Board) : Prop extends SameBuild a b where
  chip : a.chip = b.chip
  irq : a.irq = b.irq

namespace Alike

theorem write {a b : Board} (h : Alike a b) (addr : UInt16) (value : UInt8) :
    (a.write addr value).chip = (b.write addr value).chip
      ∧ (a.write addr value).irq = (b.write addr value).irq := by
  unfold Board.write
  by_cases hrom : 0x8000 ≤ addr
  · rw [if_pos hrom, if_pos hrom]
    show a.chip.write a.wired addr value = b.chip.write b.wired addr value
      ∧ a.irq.obeyAll a.chip.wiring (a.chip.commands addr value)
        = b.irq.obeyAll b.chip.wiring (b.chip.commands addr value)
    rw [h.chip, h.irq, h.wired]
    exact ⟨rfl, rfl⟩
  · rw [if_neg hrom, if_neg hrom]
    have hram : a.chip.ramWritable = b.chip.ramWritable := congrArg _ h.chip
    rw [hram]
    split
    · exact ⟨h.chip, h.irq⟩
    · exact ⟨h.chip, h.irq⟩

theorem writeChr {a b : Board} (h : Alike a b) (addr : UInt16) (value : UInt8) :
    (a.writeChr addr value).chip = (b.writeChr addr value).chip
      ∧ (a.writeChr addr value).irq = (b.writeChr addr value).irq := by
  unfold Board.writeChr
  rw [h.chrIsRam]
  split
  · exact ⟨h.chip, h.irq⟩
  · exact ⟨h.chip, h.irq⟩

theorem reset {a b : Board} (h : Alike a b) (hard : Bool) :
    (a.reset hard).chip = (b.reset hard).chip ∧ (a.reset hard).irq = (b.reset hard).irq := by
  unfold Board.reset
  rw [h.chip, h.irq, h.wired]
  exact ⟨rfl, rfl⟩

/-- Alike boards take and refuse the same records. -/
theorem load {a b : Board} (h : Alike a b) (bytes : List UInt8) :
    (a.perform (.load bytes)).chip = (b.perform (.load bytes)).chip
      ∧ (a.perform (.load bytes)).irq = (b.perform (.load bytes)).irq := by
  rw [perform_load, perform_load, h.chip]
  cases taken? b.chip.layout bytes with
  | none => exact ⟨h.chip, h.irq⟩
  | some record => exact ⟨rfl, rfl⟩

/-- No operation tells alike boards apart. -/
theorem perform {a b : Board} (h : Alike a b) (op : Operation) :
    Alike (a.perform op) (b.perform op) := by
  have hbuild : SameBuild (a.perform op) (b.perform op) :=
    (SameBuild.perform a op).symm.trans (h.toSameBuild.trans (SameBuild.perform b op))
  have hstate : (a.perform op).chip = (b.perform op).chip
      ∧ (a.perform op).irq = (b.perform op).irq := by
    cases op with
    | read addr => exact ⟨h.chip, h.irq⟩
    | write addr value => exact h.write addr value
    | readChr addr => exact ⟨h.chip, h.irq⟩
    | writeChr addr value => exact h.writeChr addr value
    | notify addr cycle =>
      simp only [Board.perform, Board.notify, h.chip, h.irq, and_self]
    | reset hard => exact h.reset hard
    | load bytes => exact h.load bytes
  exact ⟨hbuild, hstate.1, hstate.2⟩

end Alike

/-! ## What a board shows -/

/-- All that a board shows of itself without its memories being read. -/
structure View where
  pending : Bool
  count : UInt16
  bankAt : Region → UInt16 → Option Nat
  mirroring : Mirroring
  banks : List UInt8
  description : String
  saved : List UInt8

def view (b : Board) : View where
  pending := b.pending
  count := b.count
  bankAt := b.bankAt?
  mirroring := b.mirroring
  banks := b.chip.banks
  description := b.describe
  saved := b.save

/-- What a board shows now and after every operation of a run. -/
def views (b : Board) : List Operation → List View
  | [] => [b.view]
  | op :: ops => b.view :: views (b.perform op) ops

theorem view_eq {a b : Board} (h : Alike a b) : a.view = b.view := by
  have hbank : a.bankAt? = b.bankAt? := by
    funext region addr
    unfold bankAt? prgBank chrBank
    rw [h.chip, h.prg, h.chrCount]
  unfold view pending count mirroring describe save record
  rw [hbank, h.chip, h.irq, h.wired]

/-- Alike boards look the same all along a run. -/
theorem views_eq {a b : Board} (h : Alike a b) (ops : List Operation) :
    a.views ops = b.views ops := by
  induction ops generalizing a b with
  | nil => exact congrArg ([·]) (view_eq h)
  | cons op ops ih => exact congrArg₂ List.cons (view_eq h) (ih (h.perform op))

/-! ## Resuming -/

/-- A board of the same build that loads what a board saved is alike to it. -/
theorem alike_of_load_save {a b : Board} (h : SameBuild b a) :
    ∃ c, b.load a.save = .ok c ∧ Alike c a :=
  ⟨_, load_save_of_make h.make, ⟨h.prg, h.chrCount, h.chrIsRam, h.wired, rfl⟩, rfl, rfl⟩

/-- Two boards of one cartridge (`start` is its board after power-on) with any past: the second
takes what the first saved, saves the same bytes again, and looks the same as the first now and
after every operation to come. -/
theorem load_save_resumes (start : Board) (past past' : List Operation) :
    ∃ c, (start.run past').load (start.run past).save = .ok c
      ∧ c.save = (start.run past).save
      ∧ ∀ future, c.views future = (start.run past).views future := by
  have hbuild : SameBuild (start.run past') (start.run past) :=
    (SameBuild.run start past').symm.trans (SameBuild.run start past)
  obtain ⟨c, hload, halike⟩ := alike_of_load_save hbuild
  exact ⟨c, hload, congrArg View.saved (view_eq halike), views_eq halike⟩

end Board

end RasterIrq
