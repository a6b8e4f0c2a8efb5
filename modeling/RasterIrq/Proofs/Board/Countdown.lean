import RasterIrq.Proofs.Board.CleanEdges
import RasterIrq.Proofs.Board.History
import RasterIrq.Proofs.Chip.Ports
import RasterIrq.Proofs.Counter.Firing

/-!
# The countdown of an MMC3

A count of an MMC3 goes down to zero by one step for each clean edge, and the edge after that
reloads. A program can force a reload before; all that it can do otherwise is for later. The latch
is what the next reload takes, and the enable flag decides whether the edge that gets to zero
asserts.

`Counter.CountingDown` says where a countdown stands after some clean edges. The clock and all ports
but one keep it.

Results:
1. `Counter.CountingDown.clock`, `Counter.CountingDown.commands`: one step of a countdown.
2. `Board.countingDown_run`: a countdown over a run.
3. `Board.countdown_run`: the count after each clean edge, the edge that asserts, and the reload.
-/

namespace RasterIrq

/-! ## Ports -/

namespace Mmc3

/-- Even addresses from $C000 to $DFFF. -/
def isLatchPort (addr : UInt16) : Bool :=
  decide (0xC000 ≤ addr ∧ addr ≤ 0xDFFF ∧ addr % 2 = 0)

/-- Odd addresses from $C000 to $DFFF. -/
def isReloadPort (addr : UInt16) : Bool :=
  decide (0xC000 ≤ addr ∧ addr ≤ 0xDFFF ∧ addr % 2 ≠ 0)

/-- The value that the next reload takes: the one written last, or the one from before. -/
def latchWritten (old : UInt16) (writes : List (UInt16 × UInt8)) : UInt16 :=
  ((lastWrite (fun _ addr => isLatchPort addr) writes).map UInt8.toUInt16).getD old

variable {addr : UInt16}

theorem from_C000_iff : 0xC000 ≤ addr ↔ ¬ addr ≤ 0x9FFF ∧ ¬ addr ≤ 0xBFFF := by
  simp only [UInt16.le_iff_toNat_le, UInt16.reduceToNat]
  omega

theorem isLatchPort_eq (h : 0x8000 ≤ addr) :
    isLatchPort addr = decide (port addr = .irqLatch) := by
  simp only [isLatchPort, port_eq h, from_C000_iff]
  split_ifs <;> simp [*]

theorem isReloadPort_eq (h : 0x8000 ≤ addr) :
    isReloadPort addr = decide (port addr = .irqReload) := by
  simp only [isReloadPort, port_eq h, from_C000_iff]
  split_ifs <;> simp [*]

theorem not_isLatchPort (h : ¬ 0x8000 ≤ addr) : isLatchPort addr = false :=
  decide_eq_false fun hport => h (UInt16.le_trans (by decide) hport.1)

theorem latchWritten_cons (old : UInt16) (addr : UInt16) (value : UInt8)
    (writes : List (UInt16 × UInt8)) :
    latchWritten old ((addr, value) :: writes)
      = if isLatchPort addr then value.toUInt16 else latchWritten old writes := by
  unfold latchWritten
  rw [lastWrite]
  split <;> rfl

end Mmc3

/-! ## The counter -/

namespace Counter

variable {cfg : Config} {c : Counter}

/-- A clock of a counter that has not run out. -/
theorem clock_of_count_ne_zero (hdown : cfg.direction = .down)
    (hpolicy : cfg.onTrigger = .holdAtZero) (hforced : c.reloadPending = false)
    (hcount : c.count ≠ 0) :
    c.asserts cfg = (c.enabled && c.count == 1) ∧ (c.clock cfg).count = c.count - 1 := by
  have hreloads : c.reloads = false := by
    rw [reloads, hforced, beq_false_of_ne hcount]
    rfl
  have hstep : c.stepDown = c.count - 1 := by
    rw [stepDown, hreloads]
    rfl
  have hlast : (c.count - 1 == 0) = (c.count == 1) := by
    rw [Bool.eq_iff_iff, beq_iff_eq, beq_iff_eq]
    constructor
    · intro h
      rw [← UInt16.sub_add_cancel c.count 1, h]
      rfl
    · intro h
      rw [h]
      rfl
  rw [asserts_down hdown, clock_down hdown, triggersDown, countDown_of_holdAtZero hpolicy, hstep,
    hreloads, hlast]
  exact ⟨by simp, rfl⟩

/-- A clock of a counter that has run out. -/
theorem count_clock_of_zero (hdown : cfg.direction = .down)
    (hpolicy : cfg.onTrigger = .holdAtZero) (hcount : c.count = 0) :
    (c.clock cfg).count = c.reload := by
  have hreloads : c.reloads = true := by rw [reloads, hcount]; rfl
  rw [clock_down hdown, countDown_of_holdAtZero hpolicy, stepDown, hreloads]
  rfl

/-- Where a countdown stands that began at `start` and has come by some clean edges. It says nothing
about the count once the edges have gone past zero. -/
structure CountingDown (start : Nat) (latch : UInt16) (edges : Nat) (c : Counter) : Prop where
  not_forced : c.reloadPending = false
  reload_eq : c.reload = latch
  toNat_count : edges ≤ start → c.count.toNat = start - edges

namespace CountingDown

variable {start edges : Nat} {latch : UInt16}

theorem count_ne_zero (h : CountingDown start latch edges c) (hlt : edges < start) :
    c.count ≠ 0 := by
  intro hzero
  have hcount := h.toNat_count (Nat.le_of_lt hlt)
  rw [hzero] at hcount
  exact absurd hcount.symm (Nat.sub_ne_zero_of_lt hlt)

theorem count_eq_zero (h : CountingDown start latch start c) : c.count = 0 :=
  UInt16.toNat_inj.mp ((h.toNat_count (Nat.le_refl start)).trans (Nat.sub_self start))

section

variable (hdown : cfg.direction = .down) (hpolicy : cfg.onTrigger = .holdAtZero)

include hdown hpolicy

theorem clock (h : CountingDown start latch edges c) :
    CountingDown start latch (edges + 1) (c.clock cfg) := by
  refine ⟨?_, (reload_advance cfg c).trans h.reload_eq, fun hlt => ?_⟩
  · rw [clock_down hdown]
  · have hne := h.count_ne_zero hlt
    have hpos : 1 ≤ c.count.toNat :=
      Nat.one_le_iff_ne_zero.mpr fun hzero => hne (UInt16.toNat_inj.mp hzero)
    rw [(clock_of_count_ne_zero hdown hpolicy h.not_forced hne).2, toNat_sub_one hpos,
      h.toNat_count (Nat.le_of_lt hlt), Nat.sub_sub]

/-- Only the clock that gets to zero asserts. -/
theorem asserts_eq (h : CountingDown start latch edges c) (hlt : edges < start) :
    c.asserts cfg = (c.enabled && decide (edges + 1 = start)) := by
  have hcount := h.toNat_count (Nat.le_of_lt hlt)
  have hlast : c.count = 1 ↔ edges + 1 = start := by
    rw [← UInt16.toNat_inj, hcount, UInt16.toNat_one]
    omega
  rw [(clock_of_count_ne_zero hdown hpolicy h.not_forced (h.count_ne_zero hlt)).1]
  exact congrArg (c.enabled && ·) (decide_eq_decide.mpr hlast)

theorem count_clock (h : CountingDown start latch start c) : (c.clock cfg).count = latch :=
  (count_clock_of_zero hdown hpolicy h.count_eq_zero).trans h.reload_eq

end

/-- Of the ports, one sets the latch and one forces a reload. -/
theorem commands (h : CountingDown start latch edges c) (htiming : cfg.reloadTiming = .nextReload)
    {addr : UInt16} (hport : 0x8000 ≤ addr) (hkeeps : Mmc3.isReloadPort addr = false)
    (value : UInt8) :
    CountingDown start (if Mmc3.isLatchPort addr then value.toUInt16 else latch) edges
      (c.obeyAll cfg (Mmc3.commands addr value)) := by
  rw [Mmc3.isReloadPort_eq hport] at hkeeps
  rw [Mmc3.isLatchPort_eq hport, Mmc3.commands]
  cases hp : Mmc3.port addr with
  | irqLatch =>
    have hlatch : c.obeyAll cfg [.setReload value.toUInt16] = { c with reload := value.toUInt16 } := by
      show c.setReload cfg value.toUInt16 = _
      rw [setReload, htiming]
    rw [hlatch]
    exact ⟨h.not_forced, rfl, h.toNat_count⟩
  | irqReload =>
    rw [hp] at hkeeps
    cases hkeeps
  | _ => exact ⟨h.not_forced, h.reload_eq, h.toNat_count⟩

end CountingDown

end Counter

/-! ## The board -/

namespace Board

/-- Whether an operation leaves the countdown of an MMC3 to the clean edges. -/
def Operation.keepsCountdown : Operation → Bool
  | .write addr _ => !Mmc3.isReloadPort addr
  | .reset hard => !hard
  | .load _ => false
  | .read _ | .readChr _ | .writeChr _ _ | .notify _ _ => true

theorem exists_revision_of_mmc3 {b : Board} (hfamily : b.chip.family = .mmc3) :
    ∃ revision, b.chip.make = .mmc3 revision ∧
      b.chip.wiring.counter = Mmc3.Revision.counterConfig revision := by
  cases hchip : b.chip with
  | mmc3 r => exact ⟨r.revision, rfl, rfl⟩
  | mapper222 r =>
    rw [hchip] at hfamily
    cases hfamily

/-- One operation of a countdown. -/
theorem countingDown_perform {b : Board} (hfamily : b.chip.family = .mmc3) {op : Operation}
    (hop : op.keepsCountdown = true) {start edges : Nat} {old : UInt16}
    {writes : List (UInt16 × UInt8)}
    (h : b.irq.counter.CountingDown start (Mmc3.latchWritten old writes) edges) :
    (b.perform op).irq.counter.CountingDown start
      (Mmc3.latchWritten old (op.write?.toList ++ writes)) (edges + (b.makesEdge op).toNat) := by
  obtain ⟨revision, hmake, hconfig⟩ := exists_revision_of_mmc3 hfamily
  cases op with
  | read addr => exact h
  | write addr value =>
    have hkeeps : Mmc3.isReloadPort addr = false := (Bool.not_eq_true' _).mp hop
    show (b.write addr value).irq.counter.CountingDown start
      (Mmc3.latchWritten old ((addr, value) :: writes)) edges
    rw [irq_write, hmake, Mmc3.latchWritten_cons, Chip.Make.commands, List.flatMap_singleton]
    by_cases hport : 0x8000 ≤ addr
    · rw [if_pos hport]
      exact h.commands (hconfig ▸ rfl) hport hkeeps value
    · rw [if_neg hport, Mmc3.not_isLatchPort hport]
      exact h
  | readChr addr => exact h
  | writeChr addr value =>
    show (b.writeChr addr value).irq.counter.CountingDown start _ edges
    rw [irq_writeChr]
    exact h
  | notify addr cycle =>
    rw [counter_perform_notify, hconfig]
    cases b.makesEdge (.notify addr cycle) with
    | true => exact h.clock rfl rfl
    | false => exact h
  | reset hard =>
    cases hard with
    | true => cases hop
    | false => exact ⟨h.not_forced, h.reload_eq, h.toNat_count⟩
  | load bytes => cases hop

theorem ne_reset_of_keepsCountdown {op : Operation} (h : op.keepsCountdown = true) :
    op ≠ .reset true := by
  rintro rfl
  cases h

/-- A countdown over a run. -/
theorem countingDown_run {b : Board} (hfamily : b.chip.family = .mmc3)
    (hforced : b.irq.counter.reloadPending = false) {ops : List Operation}
    (hops : ∀ op ∈ ops, op.keepsCountdown = true) :
    (b.run ops).irq.counter.CountingDown b.count.toNat
      (Mmc3.latchWritten b.irq.counter.reload (written ops)) (b.edgeCount ops) := by
  induction ops using List.reverseRecOn with
  | nil => exact ⟨hforced, rfl, fun _ => rfl⟩
  | append_singleton ops op ih =>
    have hop := hops op (List.mem_append_right _ List.mem_cons_self)
    rw [run_concat, edgeCount_concat, written_concat ops (ne_reset_of_keepsCountdown hop)]
    exact countingDown_perform ((family_run b ops).trans hfamily) hop
      (ih fun o ho => hops o (List.mem_append_left _ ho))

/-- A countdown of an MMC3 over any run that forces no reload. The clean edges are those that the
monitor counts. Every one of them takes one off the count, whatever is written to the latch. Until
the count gets to zero no edge asserts; the one that gets there does if the interrupt is enabled. The
edge after that reloads what was written to the latch last. What a run begins with is such a run too,
so this is about each of its clean edges. -/
theorem countdown_run {b : Board} {r : Mmc3} (hchip : b.chip = .mmc3 r)
    (hforced : b.irq.counter.reloadPending = false) {ops : List Operation}
    (hops : ∀ op ∈ ops, op.keepsCountdown = true) :
    let after := b.run ops
    let start := b.count.toNat
    let edges := b.edgeCount ops
    after.irq.monitor.cleanEdges = b.irq.monitor.cleanEdges + UInt64.ofNat edges ∧
    (edges ≤ start → after.count.toNat = start - edges) ∧
    ∀ addr cycle, after.makesEdge (.notify addr cycle) = true →
      let next := after.notify addr cycle
      let asserts := after.irq.asserts after.chip.wiring addr cycle
      (edges + 1 < start → asserts = false ∧ next.pending = after.pending) ∧
      (edges + 1 = start →
        asserts = after.irq.counter.enabled ∧
        next.pending = (after.pending || after.irq.counter.enabled)) ∧
      (edges = start →
        next.count = Mmc3.latchWritten b.irq.counter.reload (written ops)) := by
  intro after start edges
  have hfamily : b.chip.family = .mmc3 := by rw [hchip]; rfl
  obtain ⟨revision, -, hconfig⟩ := exists_revision_of_mmc3 ((family_run b ops).trans hfamily)
  have hdown : after.chip.wiring.counter.direction = .down := by rw [hconfig]; rfl
  have hpolicy : after.chip.wiring.counter.onTrigger = .holdAtZero := by rw [hconfig]; rfl
  have h := countingDown_run hfamily hforced hops
  refine ⟨cleanEdges_run b (fun hop => ne_reset_of_keepsCountdown (hops _ hop) rfl)
    (fun bytes hop => Bool.false_ne_true (hops _ hop)), h.toNat_count, fun addr cycle hedge => ?_⟩
  intro next asserts
  have hasserts : asserts = after.irq.counter.asserts after.chip.wiring.counter := by
    show (after.makesEdge (.notify addr cycle) && _) = _
    rw [hedge, Bool.true_and]
  have hpending : next.pending = (after.pending || asserts) := LineIrq.pending_notify _ _ _ _
  refine ⟨fun hlt => ?_, fun heq => ?_, fun hdone => ?_⟩
  · have hquiet : asserts = false := by
      rw [hasserts, h.asserts_eq hdown hpolicy (Nat.lt_of_succ_lt hlt),
        decide_eq_false (Nat.ne_of_lt hlt), Bool.and_false]
    rw [hpending, hquiet]
    exact ⟨rfl, Bool.or_false _⟩
  · have henabled : asserts = after.irq.counter.enabled := by
      rw [hasserts, h.asserts_eq hdown hpolicy (Nat.lt_of_succ_le (Nat.le_of_eq heq)),
        decide_eq_true heq, Bool.and_true]
    rw [hpending, henabled]
    exact ⟨rfl, rfl⟩
  · have hnext : next.irq.counter = after.irq.counter.clock after.chip.wiring.counter := by
      show (after.perform (.notify addr cycle)).irq.counter = _
      rw [counter_perform_notify, hedge]
      rfl
    rw [show b.edgeCount ops = b.count.toNat from hdone] at h
    rw [count, hnext]
    exact h.count_clock hdown hpolicy

/-- A count of 2 that is under way. The latch is written twice, the edge that gets to zero asserts
because the interrupt was enabled just before it, and the edge after that reloads the second of the
values. -/
theorem countdown_run_blank :
    ∃ start r, ofCartridge (Cartridge.blank 4 0 2 8) = .ok start ∧
      let b := start.run [.write 0xC000 2, .notify 0x1000 100]
      let ops := [Operation.write 0xC000 9, .notify 0 110, .notify 0x1000 200, .write 0xE001 0,
        .reset false, .notify 0 210, .write 0xDFFE 5]
      let more := ops ++ [.notify 0x1000 300, .notify 0 310]
      b.chip = .mmc3 r ∧ b.irq.counter.reloadPending = false ∧
      (∀ op ∈ more, op.keepsCountdown = true) ∧
      ((b.run ops).notify 0x1000 300).pending = true ∧
      ((b.run more).notify 0x1000 400).count = 5 := by
  obtain ⟨start, hstart, hchip⟩ := exists_ofCartridge_blank
    (show Family.ofNumber? 4 = some .mmc3 from rfl) 0 2 8
  refine ⟨start, .powerOn .sharp .vertical, hstart, ?_⟩
  intro b ops more
  have hmore : ∀ op ∈ more, op.keepsCountdown = true := by
    simp only [more, ops, List.cons_append, List.nil_append, List.forall_mem_cons]
    decide
  have hops : ∀ op ∈ ops, op.keepsCountdown = true := fun op hop =>
    hmore op (List.mem_append_left _ hop)
  obtain ⟨-, hirq, -⟩ := ofCartridge_eq_ok hstart
  obtain ⟨_, _, _, _, _, _, _⟩ := start
  cases hchip
  cases hirq
  have hmmc3 : b.chip = .mmc3 (.powerOn .sharp .vertical) := rfl
  have hforced : b.irq.counter.reloadPending = false := rfl
  obtain ⟨-, -, hedges⟩ := countdown_run hmmc3 hforced hops
  obtain ⟨-, -, hmoreEdges⟩ := countdown_run hmmc3 hforced hmore
  refine ⟨hmmc3, hforced, hmore, ?_, ?_⟩
  · exact ((hedges 0x1000 300 rfl).2.1 rfl).2
  · exact (hmoreEdges 0x1000 400 rfl).2.2 rfl

end Board

end RasterIrq
