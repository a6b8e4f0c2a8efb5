import RasterIrq.Proofs.Board.Reached
import RasterIrq.Proofs.Chip.Ports

/-!
# The two sides of a board

A board has an interrupt side, the counter and the monitor, and a memory side, all the rest. Port
writes are for one side or the other, addresses on the picture bus are for the interrupt side, and
whatever else reads or writes is for the memory side. Only resets and loads are for both. Neither
side ever looks at the other: what it does is what it would do if the operations for the other side
did not happen.

Results:
1. `Chip.Make.commands_eq_nil`, `Chip.write_eq_self`: every port is for one side only.
2. `Board.irqSide_perform`, `Board.memorySide_perform`: an operation does to a side what that side
   decides.
3. `Board.irqSide_perform_of_not_forIrq`, `Board.memorySide_perform_of_not_forMemory`: what is for
   the other side leaves a side alone.
4. `Board.sides_independent`: both sides of either chip, over every run.
-/

namespace RasterIrq

/-- The addresses at which a write is for the interrupt side. -/
def Family.isIrqPort (addr : UInt16) : Family → Bool
  | mmc3 => decide (0xC000 ≤ addr)
  | mapper222 => decide (addr &&& 0xF003 = 0xF000)

/-! ## Port writes -/

namespace Chip

/-- A write for the memory side gives the counter no commands. -/
theorem Make.commands_eq_nil (m : Make) {addr : UInt16} (value : UInt8)
    (h : m.family.isIrqPort addr = false) : m.commands [(addr, value)] = [] := by
  rw [commands, List.flatMap_singleton]
  split
  · next hport =>
    cases m with
    | mmc3 revision =>
      have hlow : ¬ 0xC000 ≤ addr := of_decide_eq_false h
      have hlow' : addr ≤ 0xBFFF := by
        simp only [UInt16.le_iff_toNat_le, UInt16.reduceToNat] at hlow ⊢
        omega
      show Mmc3.commands addr value = []
      rw [Mmc3.commands, Mmc3.port_eq hport, if_pos hlow']
      split_ifs <;> rfl
    | mapper222 =>
      have hnot : ¬ Mapper222.port? addr = some .irq := fun hirq =>
        of_decide_eq_false h (Mapper222.port?_eq_some_iff.mp hirq)
      exact if_neg hnot
  · rfl

/-- A write for the interrupt side goes to a port that no register hears. -/
theorem write_eq_self (wired : Mirroring) {addr : UInt16} (value : UInt8) (c : Chip)
    (h : c.family.isIrqPort addr = true) : c.write wired addr value = c := by
  cases c with
  | mmc3 r =>
    have hhigh : 0xC000 ≤ addr := of_decide_eq_true h
    have hport : 0x8000 ≤ addr := UInt16.le_trans (by decide) hhigh
    have hnot : ¬ addr ≤ 0x9FFF ∧ ¬ addr ≤ 0xBFFF := by
      simp only [UInt16.le_iff_toNat_le, UInt16.reduceToNat] at hhigh ⊢
      omega
    show mmc3 (r.write wired addr value) = mmc3 r
    rw [Mmc3.write, Mmc3.port_eq hport, if_neg hnot.1, if_neg hnot.2]
    split_ifs <;> rfl
  | mapper222 r =>
    have hport : Mapper222.port? addr = some .irq :=
      Mapper222.port?_eq_some_iff.mpr (of_decide_eq_true h)
    show mapper222 (r.write addr value) = mapper222 r
    rw [Mapper222.write, hport]

end Chip

theorem Family.port_of_isIrqPort {family : Family} {addr : UInt16}
    (h : family.isIrqPort addr = true) : 0x8000 ≤ addr := by
  cases family with
  | mmc3 => exact UInt16.le_trans (by decide) (of_decide_eq_true h)
  | mapper222 =>
    have hmasked : addr &&& 0xF003 = 0xF000 := of_decide_eq_true h
    have hle : addr.toNat &&& 0xF003 ≤ addr.toNat := Nat.and_le_left
    rw [UInt16.le_iff_toNat_le]
    rw [← UInt16.toNat_inj, UInt16.toNat_and] at hmasked
    simp only [UInt16.reduceToNat] at hmasked ⊢
    omega

namespace Board

/-! ## What an operation is for -/

namespace Operation

/-- Whether an operation is for the interrupt side. -/
def forIrq (family : Family) : Operation → Bool
  | .write addr _ => family.isIrqPort addr
  | .notify _ _ | .reset _ | .load _ => true
  | .read _ | .readChr _ | .writeChr _ _ => false

/-- Whether an operation is for the memory side. -/
def forMemory (family : Family) : Operation → Bool
  | .write addr _ => !family.isIrqPort addr
  | .notify _ _ => false
  | .read _ | .readChr _ | .writeChr _ _ | .reset _ | .load _ => true

end Operation

/-- What is seen of a board after each operation of a run that is looked at. -/
def viewsAfter {α : Type} (looked : Operation → Bool) (view : Board → α) (b : Board) :
    List Operation → List α
  | [] => []
  | op :: ops =>
    let after := b.perform op
    if looked op then view after :: viewsAfter looked view after ops
    else viewsAfter looked view after ops

/-- If what is seen comes from a part of the board, operations do to that part what it decides, and
those that are not looked at do nothing to it, then these can be left out. -/
theorem viewsAfter_filter {α β : Type} {looked : Family → Operation → Bool} {view : Board → α}
    {part : Board → β}
    (hview : ∀ {a b}, part a = part b → view a = view b)
    (hboth : ∀ {a b} op, part a = part b → part (a.perform op) = part (b.perform op))
    (hother : ∀ {a op}, looked a.chip.family op = false → part (a.perform op) = part a)
    {family : Family} {a b : Board} (hfamily : a.chip.family = family) (h : part a = part b)
    (ops : List Operation) :
    a.viewsAfter (looked family) view ops
      = b.viewsAfter (looked family) view (ops.filter (looked family)) := by
  induction ops generalizing a b with
  | nil => rfl
  | cons op ops ih =>
    have hfamily' := (family_perform a op).trans hfamily
    cases hop : looked family op with
    | true =>
      have hstep := hboth op h
      rw [List.filter_cons_of_pos hop, viewsAfter, viewsAfter, hop]
      exact congrArg₂ List.cons (hview hstep) (ih hfamily' hstep)
    | false =>
      rw [List.filter_cons_of_neg (hop ▸ Bool.false_ne_true), viewsAfter, hop]
      exact ih hfamily' ((hother (hfamily ▸ hop)).trans h)

/-! ## The interrupt side -/

/-- The state of the interrupt side, with the make of the chip that it serves. -/
structure IrqSide where
  irq : LineIrq
  make : Chip.Make
deriving DecidableEq

def irqSide (b : Board) : IrqSide := ⟨b.irq, b.chip.make⟩

/-- What an operation does to the interrupt side depends on that side alone. -/
theorem irqSide_perform {a b : Board} (h : a.irqSide = b.irqSide) (op : Operation) :
    (a.perform op).irqSide = (b.perform op).irqSide := by
  have hirq : a.irq = b.irq := congrArg IrqSide.irq h
  have hmake : a.chip.make = b.chip.make := congrArg IrqSide.make h
  have hwiring : a.chip.wiring = b.chip.wiring := by rw [Chip.wiring_eq, Chip.wiring_eq, hmake]
  have hnext : (a.perform op).irq = (b.perform op).irq := by
    cases op with
    | read addr => exact hirq
    | write addr value =>
      show (a.write addr value).irq = (b.write addr value).irq
      rw [irq_write, irq_write, hirq, hwiring, hmake]
    | readChr addr => exact hirq
    | writeChr addr value =>
      show (a.writeChr addr value).irq = (b.writeChr addr value).irq
      rw [irq_writeChr, irq_writeChr, hirq]
    | notify addr cycle =>
      show a.irq.notify a.chip.wiring addr cycle = b.irq.notify b.chip.wiring addr cycle
      rw [hirq, hwiring]
    | reset hard => exact congrArg (LineIrq.reset hard) hirq
    | load bytes =>
      rw [perform_load, perform_load,
        Chip.layout_eq_of_family (Chip.family_eq_of_make hmake)]
      cases taken? b.chip.layout bytes with
      | none => exact hirq
      | some record => rfl
  rw [irqSide, irqSide, hnext, ← (SameBuild.perform a op).make, ← (SameBuild.perform b op).make,
    hmake]

/-- What is not for the interrupt side leaves it alone. -/
theorem irqSide_perform_of_not_forIrq {b : Board} {op : Operation}
    (h : op.forIrq b.chip.family = false) : (b.perform op).irqSide = b.irqSide := by
  have hirq : (b.perform op).irq = b.irq := by
    cases op with
    | read addr => rfl
    | write addr value =>
      show (b.write addr value).irq = b.irq
      rw [irq_write, Chip.Make.commands_eq_nil b.chip.make value (Chip.family_eq b.chip ▸ h)]
      rfl
    | readChr addr => rfl
    | writeChr addr value => exact irq_writeChr b addr value
    | notify addr cycle => cases h
    | reset hard => cases h
    | load bytes => cases h
  rw [irqSide, hirq, ← (SameBuild.perform b op).make, irqSide]

/-- What is seen of the interrupt side. -/
structure IrqView where
  pending : Bool
  count : UInt16
  counter : Counter
  monitor : Monitor
deriving DecidableEq

def irqView (b : Board) : IrqView where
  pending := b.pending
  count := b.count
  counter := b.irq.counter
  monitor := b.irq.monitor

theorem irqView_eq {a b : Board} (h : a.irqSide = b.irqSide) : a.irqView = b.irqView := by
  have hirq : a.irq = b.irq := congrArg IrqSide.irq h
  unfold irqView pending count
  rw [hirq]

/-! ## The memory side -/

/-- The board with nothing on its interrupt side. -/
def memorySide (b : Board) : Board := { b with irq := {} }

theorem memorySide_perform_memorySide (b : Board) (op : Operation) :
    (b.memorySide.perform op).memorySide = (b.perform op).memorySide := by
  have hchip : b.memorySide.chip = b.chip := rfl
  cases op with
  | read addr => rfl
  | write addr value =>
    simp only [perform, Board.write, hchip]
    split
    · rfl
    split
    · rfl
    · rfl
  | readChr addr => rfl
  | writeChr addr value =>
    have hisRam : b.memorySide.chrIsRam = b.chrIsRam := rfl
    simp only [perform, Board.writeChr, hisRam]
    split
    · rfl
    · rfl
  | notify addr cycle => rfl
  | reset hard => rfl
  | load bytes =>
    rw [perform_load, perform_load, hchip]
    cases taken? b.chip.layout bytes with
    | none => rfl
    | some record => rfl

/-- What an operation does to the memory side depends on that side alone. -/
theorem memorySide_perform {a b : Board} (h : a.memorySide = b.memorySide) (op : Operation) :
    (a.perform op).memorySide = (b.perform op).memorySide := by
  rw [← memorySide_perform_memorySide a, h, memorySide_perform_memorySide b]

/-- What is not for the memory side leaves it alone. -/
theorem memorySide_perform_of_not_forMemory {b : Board} {op : Operation}
    (h : op.forMemory b.chip.family = false) : (b.perform op).memorySide = b.memorySide := by
  cases op with
  | read addr => cases h
  | write addr value =>
    have hirq : b.chip.family.isIrqPort addr = true := (Bool.not_eq_false' _).mp h
    show (b.write addr value).memorySide = b.memorySide
    rw [Board.write, if_pos (Family.port_of_isIrqPort hirq), Chip.write_eq_self _ _ _ hirq]
    rfl
  | readChr addr => cases h
  | writeChr addr value => cases h
  | notify addr cycle => rfl
  | reset hard => cases h
  | load bytes => cases h

/-- What is seen of the memory side: banks, mirroring, bank registers, and every cell that can be
read. -/
structure MemoryView where
  bankAt : Region → UInt16 → Option Nat
  mirroring : Mirroring
  banks : List UInt8
  read : UInt16 → UInt8
  readChr : UInt16 → UInt8

def memoryView (b : Board) : MemoryView where
  bankAt := b.bankAt?
  mirroring := b.mirroring
  banks := b.chip.banks
  read := b.read
  readChr := b.readChr

theorem memoryView_eq {a b : Board} (h : a.memorySide = b.memorySide) :
    a.memoryView = b.memoryView := by
  have hside : ∀ c : Board, c.memoryView = c.memorySide.memoryView := fun _ => rfl
  rw [hside a, h, ← hside b]

/-! ## Both sides -/

/-- Over every run of either chip, what is seen of a side after the operations that are for it is
what is seen if the other operations do not happen. -/
theorem sides_independent (b : Board) (ops : List Operation) :
    b.viewsAfter (Operation.forIrq b.chip.family) irqView ops
        = b.viewsAfter (Operation.forIrq b.chip.family) irqView
          (ops.filter (Operation.forIrq b.chip.family)) ∧
      b.viewsAfter (Operation.forMemory b.chip.family) memoryView ops
        = b.viewsAfter (Operation.forMemory b.chip.family) memoryView
          (ops.filter (Operation.forMemory b.chip.family)) := by
  constructor
  · exact viewsAfter_filter irqView_eq (fun op h => irqSide_perform h op)
      irqSide_perform_of_not_forIrq rfl rfl ops
  · exact viewsAfter_filter memoryView_eq (fun op h => memorySide_perform h op)
      memorySide_perform_of_not_forMemory rfl rfl ops

end Board

end RasterIrq
