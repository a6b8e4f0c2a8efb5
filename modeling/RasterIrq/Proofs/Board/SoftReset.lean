import RasterIrq.Proofs.Board.CleanEdges
import Mathlib.Data.List.ReduceOption

/-!
# Soft resets

A soft reset drops the interrupt output of a board and does nothing else. The output is for the
processor alone: no operation ever looks at it. So a run with soft resets put into it goes on as
without them, and differs in the output only, until something sets the output anew.

`Board.withPending` is a board with another output, and `Board.output?` says what an operation makes
of the output, if it makes anything of it.

Results:
1. `Counter.asserts_withPending`, `Counter.clock_withPending`: the counter does not look at the
   output.
2. `Board.perform_withPending`: what an operation does to a board with another output.
3. `Board.run_withSoftResets`: a run with soft resets put into it differs in the output only.
4. `Board.softResets_drop_output`: what is seen of such a run, and when the output differs.
-/

namespace RasterIrq

/-! ## The counter -/

namespace Counter

/-- The counter with another output. -/
def withPending (c : Counter) (pending : Bool) : Counter := { c with pending }

variable (cfg : Config) (c : Counter) (pending : Bool)

theorem asserts_withPending : (c.withPending pending).asserts cfg = c.asserts cfg := rfl

theorem clock_withPending :
    (c.withPending pending).clock cfg = (c.clock cfg).withPending (pending || c.asserts cfg) := by
  unfold clock
  rw [asserts_withPending]
  cases hdirection : cfg.direction with
  | down =>
    unfold advance
    rw [hdirection]
    rfl
  | up target =>
    have hup : (c.withPending pending).clockUp cfg target
        = (c.clockUp cfg target).withPending pending := by
      unfold clockUp
      rw [show (c.withPending pending).triggersUp target = c.triggersUp target from rfl]
      split
      · cases cfg.onTrigger <;> rfl
      · rfl
    unfold advance
    rw [hdirection]
    dsimp only
    rw [show (c.withPending pending).enabled = c.enabled from rfl, hup]
    split <;> rfl

/-- Only an acknowledgement sets the output. -/
theorem obey_withPending (command : Command) :
    (c.withPending pending).obey cfg command
      = (c.obey cfg command).withPending (if .acknowledge = command then false else pending) := by
  cases command with
  | setReload value =>
    show (c.withPending pending).setReload cfg value = (c.setReload cfg value).withPending pending
    unfold setReload
    cases cfg.reloadTiming <;> rfl
  | _ => rfl

theorem obeyAll_withPending (commands : List Command) :
    (c.withPending pending).obeyAll cfg commands
      = (c.obeyAll cfg commands).withPending
          (if .acknowledge ∈ commands then false else pending) := by
  induction commands generalizing c pending with
  | nil => rfl
  | cons command commands ih =>
    show ((c.withPending pending).obey cfg command).obeyAll cfg commands = _
    rw [obey_withPending, ih]
    by_cases hmem : .acknowledge ∈ commands
    · rw [if_pos hmem, if_pos (List.mem_cons_of_mem command hmem)]
      rfl
    · simp only [List.mem_cons, hmem, if_false, or_false]
      rfl

end Counter

/-! ## The interrupt side -/

namespace LineIrq

/-- The interrupt side with another output. -/
def withPending (u : LineIrq) (pending : Bool) : LineIrq :=
  { u with counter := u.counter.withPending pending }

theorem notify_withPending (w : Wiring) (u : LineIrq) (pending : Bool) (addr : UInt16)
    (cycle : UInt64) :
    (u.withPending pending).notify w addr cycle
      = (u.notify w addr cycle).withPending (pending || u.asserts w addr cycle) := by
  have hmonitor : (u.withPending pending).monitor = u.monitor := rfl
  have hcounter : (u.withPending pending).counter = u.counter.withPending pending := rfl
  unfold notify asserts
  rw [hmonitor, hcounter, Counter.clock_withPending]
  cases u.monitor.cleanEdge w.window addr cycle with
  | true => rfl
  | false => rw [Bool.false_and, Bool.or_false]; rfl

end LineIrq

/-! ## Ports -/

/-- The addresses at which a write acknowledges the interrupt. -/
def Family.isAckPort (addr : UInt16) : Family → Bool
  | mmc3 => decide (0xE000 ≤ addr ∧ addr % 2 = 0)
  | mapper222 => decide (addr &&& 0xF003 = 0xF000)

theorem Mmc3.acknowledge_mem_commands_iff {addr : UInt16} (h : 0x8000 ≤ addr) (value : UInt8) :
    .acknowledge ∈ commands addr value ↔ 0xE000 ≤ addr ∧ addr % 2 = 0 := by
  have hdisable : .acknowledge ∈ commands addr value ↔ port addr = .irqDisable := by
    unfold commands
    cases port addr <;> simp
  have hhigh : 0xE000 ≤ addr ↔ ¬ addr ≤ 0x9FFF ∧ ¬ addr ≤ 0xBFFF ∧ ¬ addr ≤ 0xDFFF := by
    simp only [UInt16.le_iff_toNat_le, UInt16.reduceToNat]
    omega
  rw [hdisable, port_eq h, hhigh]
  split_ifs <;> simp [*]

theorem Mapper222.acknowledge_mem_commands_iff (addr : UInt16) (value : UInt8) :
    .acknowledge ∈ commands addr value ↔ addr &&& 0xF003 = 0xF000 := by
  have hirq : port? addr = some .irq ↔ addr &&& 0xF003 = 0xF000 := port?_eq_some_iff
  rw [← hirq, commands]
  split
  · next hport => simp [hport]
  · next hport => simp [hport]

namespace Chip

theorem acknowledge_mem_commands_iff (c : Chip) {addr : UInt16} (h : 0x8000 ≤ addr)
    (value : UInt8) : .acknowledge ∈ c.commands addr value ↔ c.family.isAckPort addr = true := by
  cases c with
  | mmc3 r => exact (Mmc3.acknowledge_mem_commands_iff h value).trans decide_eq_true_iff.symm
  | mapper222 r =>
    exact (Mapper222.acknowledge_mem_commands_iff addr value).trans decide_eq_true_iff.symm

end Chip

theorem Family.port_of_isAckPort {family : Family} {addr : UInt16}
    (h : family.isAckPort addr = true) : 0x8000 ≤ addr := by
  cases family with
  | mmc3 =>
    have hport : 0xE000 ≤ addr ∧ addr % 2 = 0 := of_decide_eq_true h
    exact UInt16.le_trans (by decide) hport.1
  | mapper222 =>
    have hport : Family.mapper222.isIrqPort addr = true := h
    exact port_of_isIrqPort hport

namespace Board

/-! ## The board -/

/-- The board with another interrupt output. -/
def withPending (b : Board) (pending : Bool) : Board :=
  { b with irq := b.irq.withPending pending }

theorem withPending_self (b : Board) : b.withPending b.pending = b := rfl

/-- A soft reset drops the output, and that is all. -/
theorem perform_softReset (b : Board) (pending : Bool) :
    (b.withPending pending).perform (.reset false) = b.withPending false := rfl

/-- What an operation makes of the interrupt output, or nothing if it leaves the output as it is. An
edge that asserts raises it; an acknowledging write and a reset drop it; a record that is taken
brings its own. -/
def output? (b : Board) : Operation → Option Bool
  | .write addr _ => if b.chip.family.isAckPort addr then some false else none
  | .notify addr cycle => if b.irq.asserts b.chip.wiring addr cycle then some true else none
  | .reset _ => some false
  | .load bytes => (taken? b.chip.layout bytes).map fun record => record.counter.pending
  | .read _ | .readChr _ | .writeChr _ _ => none

theorem write_withPending (b : Board) (pending : Bool) (addr : UInt16) (value : UInt8) :
    (b.withPending pending).write addr value
      = (b.write addr value).withPending ((b.output? (.write addr value)).getD pending) := by
  have hchip : (b.withPending pending).chip = b.chip := rfl
  have houtput : b.output? (.write addr value)
      = if b.chip.family.isAckPort addr then some false else none := rfl
  rw [houtput, write, write, hchip]
  by_cases hport : 0x8000 ≤ addr
  · rw [if_pos hport, if_pos hport]
    have hobey := Counter.obeyAll_withPending b.chip.wiring.counter b.irq.counter pending
      (b.chip.commands addr value)
    simp only [b.chip.acknowledge_mem_commands_iff hport value] at hobey
    unfold withPending LineIrq.obeyAll LineIrq.withPending
    dsimp only
    rw [hobey]
    cases b.chip.family.isAckPort addr <;> rfl
  · have hack : b.chip.family.isAckPort addr = false :=
      Bool.eq_false_iff.mpr fun h => hport (Family.port_of_isAckPort h)
    rw [if_neg hport, if_neg hport, hack]
    split <;> rfl

/-- An operation does the same to a board with another output, but for the output. -/
theorem perform_withPending (b : Board) (pending : Bool) (op : Operation) :
    (b.withPending pending).perform op
      = (b.perform op).withPending ((b.output? op).getD pending) := by
  cases op with
  | read addr => rfl
  | write addr value => exact write_withPending b pending addr value
  | readChr addr => rfl
  | writeChr addr value =>
    have hisRam : (b.withPending pending).chrIsRam = b.chrIsRam := rfl
    simp only [perform, writeChr, hisRam]
    split <;> rfl
  | notify addr cycle =>
    have hnotify := LineIrq.notify_withPending b.chip.wiring b.irq pending addr cycle
    show { b with irq := (b.irq.withPending pending).notify b.chip.wiring addr cycle } = _
    rw [hnotify, output?]
    cases b.irq.asserts b.chip.wiring addr cycle with
    | true => rw [Bool.or_true]; rfl
    | false => rw [Bool.or_false]; rfl
  | reset hard => cases hard <;> rfl
  | load bytes =>
    have hchip : (b.withPending pending).chip = b.chip := rfl
    rw [perform_load, perform_load, output?, hchip]
    cases taken? b.chip.layout bytes with
    | none => rfl
    | some record => rfl

theorem pending_perform (b : Board) (op : Operation) :
    (b.perform op).pending = (b.output? op).getD b.pending :=
  congrArg pending (perform_withPending b b.pending op)

/-! ## Runs -/

/-- No operation of the run makes anything of the output. -/
def LeavesOutput (b : Board) : List Operation → Prop
  | [] => True
  | op :: ops => b.output? op = none ∧ (b.perform op).LeavesOutput ops

theorem leavesOutput_concat (b : Board) (ops : List Operation) (op : Operation) :
    b.LeavesOutput (ops ++ [op]) ↔ b.LeavesOutput ops ∧ (b.run ops).output? op = none := by
  induction ops generalizing b with
  | nil => exact and_comm
  | cons first ops ih =>
    rw [List.cons_append, LeavesOutput, LeavesOutput, ih, and_assoc]
    rfl

theorem pending_run_of_leavesOutput {b : Board} {ops : List Operation} (h : b.LeavesOutput ops) :
    (b.run ops).pending = b.pending := by
  induction ops generalizing b with
  | nil => rfl
  | cons op ops ih =>
    obtain ⟨hop, hrest⟩ := h
    show ((b.perform op).run ops).pending = b.pending
    rw [ih hrest, pending_perform, hop]
    rfl

/-! ## Soft resets put into a run

In a list of `Option Operation`, `none` stands for a soft reset that was put into the run. -/

/-- The run with the soft resets that were put into it. -/
def withSoftResets (ops : List (Option Operation)) : List Operation :=
  ops.map fun op => op.getD (.reset false)

/-- One of the soft resets found an interrupt pending, and no operation since then made anything of
the output. -/
def Dropped (b : Board) (ops : List (Option Operation)) : Prop :=
  ∃ early late, ops = early ++ none :: late ∧ (b.run early.reduceOption).pending = true ∧
    (b.run early.reduceOption).LeavesOutput late.reduceOption

/-- Up to the output, the run goes on as without the soft resets. -/
theorem run_withSoftResets (b : Board) (pending : Bool) (ops : List (Option Operation)) :
    ∃ pending', (b.withPending pending).run (withSoftResets ops)
      = (b.run ops.reduceOption).withPending pending' := by
  induction ops generalizing b pending with
  | nil => exact ⟨pending, rfl⟩
  | cons op ops ih =>
    cases op with
    | none =>
      obtain ⟨pending', hrun⟩ := ih b false
      rw [← perform_softReset b pending] at hrun
      exact ⟨pending', hrun⟩
    | some op =>
      obtain ⟨pending', hrun⟩ := ih (b.perform op) ((b.output? op).getD pending)
      rw [← perform_withPending] at hrun
      exact ⟨pending', hrun⟩

/-- An output that is low stays low while the operations leave it as it is. -/
theorem run_withSoftResets_of_leavesOutput {b : Board} {ops : List (Option Operation)}
    (h : b.LeavesOutput ops.reduceOption) :
    (b.withPending false).run (withSoftResets ops)
      = (b.run ops.reduceOption).withPending false := by
  induction ops generalizing b with
  | nil => rfl
  | cons op ops ih =>
    cases op with
    | none => exact ih h
    | some op =>
      obtain ⟨hop, hrest⟩ := h
      show ((b.withPending false).perform op).run (withSoftResets ops) = _
      rw [perform_withPending, hop]
      exact ih hrest

theorem run_reduceOption_append (b : Board) (early late : List (Option Operation)) :
    b.run (early ++ late).reduceOption = (b.run early.reduceOption).run late.reduceOption := by
  rw [List.reduceOption_append]
  exact List.foldl_append

theorem run_withSoftResets_append (b : Board) (early late : List (Option Operation)) :
    b.run (withSoftResets (early ++ late))
      = (b.run (withSoftResets early)).run (withSoftResets late) := by
  rw [withSoftResets, List.map_append]
  exact List.foldl_append

namespace Dropped

variable {b : Board} {ops : List (Option Operation)}

/-- Without the soft resets the output is high, with them it is low. -/
theorem outputs (h : b.Dropped ops) :
    (b.run ops.reduceOption).pending = true ∧ (b.run (withSoftResets ops)).pending = false := by
  obtain ⟨early, late, rfl, hhigh, hleaves⟩ := h
  obtain ⟨pending, hearly⟩ := run_withSoftResets b b.pending early
  rw [withPending_self] at hearly
  have hreset : (b.run (withSoftResets early)).run (withSoftResets (none :: late))
      = ((b.run early.reduceOption).withPending false).run (withSoftResets late) := by
    rw [hearly, ← perform_softReset _ pending]
    rfl
  constructor
  · rw [run_reduceOption_append, List.reduceOption_cons_of_none,
      pending_run_of_leavesOutput hleaves, hhigh]
  · rw [run_withSoftResets_append, hreset, run_withSoftResets_of_leavesOutput hleaves]
    rfl

theorem concat {op : Operation} (h : b.Dropped ops)
    (hop : (b.run ops.reduceOption).output? op = none) : b.Dropped (ops ++ [some op]) := by
  obtain ⟨early, late, rfl, hhigh, hleaves⟩ := h
  refine ⟨early, late ++ [some op], List.append_assoc _ _ _, hhigh, ?_⟩
  rw [run_reduceOption_append] at hop
  rw [List.reduceOption_append]
  exact (leavesOutput_concat _ _ _).mpr ⟨hleaves, hop⟩

end Dropped

/-- Unless one of them dropped the output, the soft resets make no difference. -/
theorem run_withSoftResets_eq_or_dropped (b : Board) (ops : List (Option Operation)) :
    b.run (withSoftResets ops) = b.run ops.reduceOption ∨ b.Dropped ops := by
  induction ops using List.reverseRecOn with
  | nil => exact .inl rfl
  | append_singleton ops op ih =>
    obtain ⟨pending, hrun⟩ := run_withSoftResets b b.pending ops
    rw [withPending_self] at hrun
    cases op with
    | none =>
      cases hplain : (b.run ops.reduceOption).pending with
      | true => exact .inr ⟨ops, [], rfl, hplain, trivial⟩
      | false =>
        left
        rw [run_withSoftResets_append, run_reduceOption_append, hrun]
        show ((b.run ops.reduceOption).withPending pending).perform (.reset false)
          = b.run ops.reduceOption
        rw [perform_softReset, ← hplain, withPending_self]
    | some op =>
      cases houtput : (b.run ops.reduceOption).output? op with
      | some output =>
        left
        rw [run_withSoftResets_append, run_reduceOption_append, hrun]
        show ((b.run ops.reduceOption).withPending pending).perform op
          = (b.run ops.reduceOption).perform op
        have hset : ((b.run ops.reduceOption).perform op).pending = output := by
          rw [pending_perform, houtput]
          rfl
        rw [perform_withPending, houtput, Option.getD_some, ← hset, withPending_self]
      | none =>
        refine ih.imp (fun heq => ?_) fun hdropped => hdropped.concat houtput
        rw [run_withSoftResets_append, run_reduceOption_append, heq]
        rfl

/-- Soft resets are put into a run of either chip. Whatever the run has come to, the counter but for
its output, the monitor, the registers and all memory are as without them, and the next address
makes a clean edge and asserts as without them. The output differs exactly if one of the soft resets
dropped it and since then no edge asserted, no write acknowledged, no reset came and no record was
taken. What a run begins with is a run, so this is so after each of its operations. -/
theorem softResets_drop_output (b : Board) (ops : List (Option Operation)) :
    let plain := b.run ops.reduceOption
    let disturbed := b.run (withSoftResets ops)
    disturbed = plain.withPending disturbed.pending ∧
    disturbed.memoryView = plain.memoryView ∧
    (∀ op, disturbed.makesEdge op = plain.makesEdge op) ∧
    (∀ addr cycle, disturbed.irq.asserts disturbed.chip.wiring addr cycle
      = plain.irq.asserts plain.chip.wiring addr cycle) ∧
    (disturbed.pending ≠ plain.pending ↔ b.Dropped ops) := by
  intro plain disturbed
  obtain ⟨pending, hrun⟩ := run_withSoftResets b b.pending ops
  have hdisturbed : disturbed = plain.withPending pending := hrun
  refine ⟨?_, ?_, fun op => ?_, fun addr cycle => ?_, fun hne => ?_, fun hdropped => ?_⟩
  · rw [hdisturbed]
    rfl
  · rw [hdisturbed]
    rfl
  · rw [hdisturbed]
    cases op <;> rfl
  · rw [hdisturbed]
    rfl
  · exact (run_withSoftResets_eq_or_dropped b ops).resolve_left fun heq =>
      hne (congrArg Board.pending heq)
  · obtain ⟨hhigh, hlow⟩ := hdropped.outputs
    rw [hhigh, hlow]
    exact Bool.false_ne_true

end Board

end RasterIrq
