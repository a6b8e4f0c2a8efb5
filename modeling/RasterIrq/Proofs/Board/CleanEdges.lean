import RasterIrq.Proofs.Board.Sides
import Mathlib.Data.List.Induction
import Mathlib.Logic.Function.Iterate

/-!
# The clean edges of a board's run

Only an address on the picture bus can make a clean edge. `Board.edgeCount` counts the clean edges
of a run; the monitor counts the same, modulo 2^64, until a hard reset or a load sets its number.

The counter is clocked once for each clean edge. If a run has nothing else for the interrupt side,
that is all that happens to the counter.

Results:
1. `Board.cleanEdges_run`: the monitor counts the clean edges of a run.
2. `Board.counter_run_of_notifies`: the counter after a run that only clocks it.
-/

namespace RasterIrq.Board

/-- Whether an operation makes a clean edge. -/
def makesEdge (b : Board) : Operation → Bool
  | .notify addr cycle => b.irq.monitor.cleanEdge b.chip.wiring.window addr cycle
  | .read _ | .write _ _ | .readChr _ | .writeChr _ _ | .reset _ | .load _ => false

/-- How many clean edges a run makes. -/
def edgeCount (b : Board) : List Operation → Nat
  | [] => 0
  | op :: ops => (b.makesEdge op).toNat + (b.perform op).edgeCount ops

theorem edgeCount_concat (b : Board) (ops : List Operation) (op : Operation) :
    b.edgeCount (ops ++ [op]) = b.edgeCount ops + ((b.run ops).makesEdge op).toNat := by
  induction ops generalizing b with
  | nil => exact Nat.add_comm _ 0
  | cons first ops ih =>
    rw [List.cons_append, edgeCount, edgeCount, ih, Nat.add_assoc]
    rfl

/-! ## The monitor -/

theorem cleanEdges_perform (b : Board) {op : Operation} (hreset : op ≠ .reset true)
    (hload : ∀ bytes, op ≠ .load bytes) :
    (b.perform op).irq.monitor.cleanEdges
      = b.irq.monitor.cleanEdges + UInt64.ofNat (b.makesEdge op).toNat := by
  have hsame : b.irq.monitor.cleanEdges = b.irq.monitor.cleanEdges + UInt64.ofNat 0 :=
    (UInt64.add_zero _).symm
  cases op with
  | read addr => exact hsame
  | write addr value =>
    show (b.write addr value).irq.monitor.cleanEdges = _
    rw [irq_write]
    exact hsame
  | readChr addr => exact hsame
  | writeChr addr value =>
    show (b.writeChr addr value).irq.monitor.cleanEdges = _
    rw [irq_writeChr]
    exact hsame
  | notify addr cycle =>
    show (b.irq.monitor.observe b.chip.wiring.window addr cycle).cleanEdges = _
    rw [Monitor.observe, makesEdge]
    cases b.irq.monitor.cleanEdge b.chip.wiring.window addr cycle with
    | true => rfl
    | false => exact hsame
  | reset hard =>
    cases hard with
    | true => exact absurd rfl hreset
    | false => exact hsame
  | load bytes => exact absurd rfl (hload bytes)

/-- The monitor counts the clean edges of a run. -/
theorem cleanEdges_run (b : Board) {ops : List Operation} (hreset : .reset true ∉ ops)
    (hloads : ∀ bytes, .load bytes ∉ ops) :
    (b.run ops).irq.monitor.cleanEdges
      = b.irq.monitor.cleanEdges + UInt64.ofNat (b.edgeCount ops) := by
  induction ops generalizing b with
  | nil => exact (UInt64.add_zero _).symm
  | cons op ops ih =>
    obtain ⟨hop, hrest⟩ := List.ne_and_not_mem_of_not_mem_cons hreset
    have hload : ∀ bytes, op ≠ .load bytes := fun bytes h =>
      hloads bytes (h ▸ List.mem_cons_self)
    show ((b.perform op).run ops).irq.monitor.cleanEdges = _
    rw [ih _ hrest fun bytes h => hloads bytes (List.mem_cons_of_mem op h),
      cleanEdges_perform b hop.symm hload, edgeCount, UInt64.ofNat_add, UInt64.add_assoc]

/-! ## The counter -/

/-- An address clocks the counter if it makes a clean edge. -/
theorem counter_perform_notify (b : Board) (addr : UInt16) (cycle : UInt64) :
    (b.perform (.notify addr cycle)).irq.counter
      = (Counter.clock b.chip.wiring.counter)^[(b.makesEdge (.notify addr cycle)).toNat]
          b.irq.counter := by
  show (if _ then _ else _) = _
  rw [makesEdge]
  cases b.irq.monitor.cleanEdge b.chip.wiring.window addr cycle <;> rfl

theorem wiring_run (b : Board) (ops : List Operation) :
    (b.run ops).chip.wiring = b.chip.wiring := by
  rw [Chip.wiring_eq, Chip.wiring_eq, (SameBuild.run b ops).make]

/-- The counter is clocked once for each clean edge of a run that has nothing else for it. -/
theorem counter_run_of_notifies (b : Board) {ops : List Operation}
    (hops : ∀ op ∈ ops, op.forIrq b.chip.family = true → ∃ addr cycle, op = .notify addr cycle) :
    (b.run ops).irq.counter
      = (Counter.clock b.chip.wiring.counter)^[b.edgeCount ops] b.irq.counter := by
  induction ops using List.reverseRecOn with
  | nil => rfl
  | append_singleton ops op ih =>
    have hbefore := ih fun o ho => hops o (List.mem_append_left _ ho)
    have hop := hops op (List.mem_append_right _ List.mem_cons_self)
    rw [run_concat, edgeCount_concat]
    cases hforIrq : op.forIrq b.chip.family with
    | true =>
      obtain ⟨addr, cycle, rfl⟩ := hop hforIrq
      rw [counter_perform_notify, wiring_run, hbefore, Nat.add_comm, Function.iterate_add_apply]
    | false =>
      have hside := irqSide_perform_of_not_forIrq (b := b.run ops) ((family_run b ops).symm ▸ hforIrq)
      have hirq : ((b.run ops).perform op).irq = (b.run ops).irq := congrArg IrqSide.irq hside
      have hedge : (b.run ops).makesEdge op = false := by
        cases op with
        | notify addr cycle => cases hforIrq
        | _ => rfl
      rw [hirq, hedge]
      exact hbefore

end RasterIrq.Board
