import RasterIrq.Proofs.Board.Resume
import RasterIrq.Proofs.Counter.Firing

/-!
# The two makes of the MMC3

The makes differ in one flag of the counter: whether a clock that reloads zero, without being forced
to, asserts. Two boards that are alike but for the make, the *twins*, go through the same
operations. The flag decides about the interrupt alone, so all else stays equal, and of the
interrupts the second make can only miss some. It misses none as long as no clean edge comes while
an enabled counter stands at zero, reloads zero and is not forced to.

Results:
1. `Counter.asserts_sharp`: where the two makes of the counter differ.
2. `Board.Twins.perform`: operations keep twins.
3. `Board.twins_run`: twins from power-on on.
-/

namespace RasterIrq

/-! ## The counter -/

namespace Counter

/-- The next clock of an enabled counter reloads zero, and nothing forces it to. -/
def ReloadsZero (c : Counter) : Prop :=
  c.enabled = true ∧ c.count = 0 ∧ c.reload = 0 ∧ c.reloadPending = false

instance (c : Counter) : Decidable c.ReloadsZero :=
  inferInstanceAs (Decidable (_ ∧ _ ∧ _ ∧ _))

/-- The first make asserts when the second does, and when the counter reloads zero. -/
theorem asserts_sharp (c : Counter) :
    c.asserts Mmc3.Revision.sharp.counterConfig
      = (c.asserts Mmc3.Revision.nec.counterConfig || decide c.ReloadsZero) := by
  rw [asserts_down (show Mmc3.Revision.sharp.counterConfig.direction = .down from rfl),
    asserts_down (show Mmc3.Revision.nec.counterConfig.direction = .down from rfl)]
  have hsharp : c.triggersDown Mmc3.Revision.sharp.counterConfig = (c.stepDown == 0) := by
    rw [triggersDown, show Mmc3.Revision.sharp.counterConfig.zeroReloadTriggers = true from rfl,
      Bool.or_true, Bool.and_true]
  have hnec : c.triggersDown Mmc3.Revision.nec.counterConfig
      = (c.stepDown == 0 && (!c.reloads || c.reloadPending)) := by
    rw [triggersDown, show Mmc3.Revision.nec.counterConfig.zeroReloadTriggers = false from rfl,
      Bool.or_false]
  rw [hsharp, hnec, stepDown]
  -- The count is read by `reloads` only, the reload value if that holds.
  cases henabled : c.enabled with
  | false => simp [ReloadsZero, henabled]
  | true =>
    cases hforced : c.reloadPending with
    | true => simp [ReloadsZero, reloads, hforced]
    | false =>
      by_cases hzero : c.count = 0
      · simp [ReloadsZero, reloads, henabled, hforced, hzero, beq_eq_decide]
      · simp [ReloadsZero, reloads, hforced, hzero]

example : ({ enabled := true } : Counter).asserts Mmc3.Revision.sharp.counterConfig = true ∧
    ({ enabled := true } : Counter).asserts Mmc3.Revision.nec.counterConfig = false := by decide

/-- Counters of the two makes after the same past. The first has every interrupt that the second
has, and if the past was `calm` no more than those. -/
structure Twins (calm : Prop) (sharp nec : Counter) : Prop where
  count : sharp.count = nec.count
  reload : sharp.reload = nec.reload
  enabled : sharp.enabled = nec.enabled
  reloadPending : sharp.reloadPending = nec.reloadPending
  pending_of_nec : nec.pending = true → sharp.pending = true
  pending_of_calm : calm → sharp.pending = nec.pending

namespace Twins

variable {calm : Prop} {sharp nec : Counter}

theorem refl (calm : Prop) (c : Counter) : Twins calm c c :=
  ⟨rfl, rfl, rfl, rfl, id, fun _ => rfl⟩

theorem mono {calm' : Prop} (h : Twins calm sharp nec) (hcalm : calm' → calm) :
    Twins calm' sharp nec :=
  ⟨h.count, h.reload, h.enabled, h.reloadPending, h.pending_of_nec,
    fun hcalm' => h.pending_of_calm (hcalm hcalm')⟩

theorem commands (h : Twins calm sharp nec) (addr : UInt16) (value : UInt8) :
    Twins calm
      (sharp.obeyAll Mmc3.Revision.sharp.counterConfig (Mmc3.commands addr value))
      (nec.obeyAll Mmc3.Revision.nec.counterConfig (Mmc3.commands addr value)) := by
  unfold Mmc3.commands
  cases Mmc3.port addr with
  | irqLatch =>
    exact ⟨h.count, rfl, h.enabled, h.reloadPending, h.pending_of_nec, h.pending_of_calm⟩
  | irqReload => exact ⟨rfl, h.reload, h.enabled, rfl, h.pending_of_nec, h.pending_of_calm⟩
  | irqDisable => exact ⟨h.count, h.reload, rfl, h.reloadPending, id, fun _ => rfl⟩
  | irqEnable =>
    exact ⟨h.count, h.reload, rfl, h.reloadPending, h.pending_of_nec, h.pending_of_calm⟩
  | bankSelect => exact h
  | bankData => exact h
  | mirroring => exact h
  | ramProtect => exact h

theorem reset (h : Twins calm sharp nec) (hard : Bool) :
    Twins calm (sharp.reset hard) (nec.reset hard) := by
  cases hard with
  | true => exact refl calm {}
  | false => exact ⟨h.count, h.reload, h.enabled, h.reloadPending, id, fun _ => rfl⟩

/-- Whether a counter asserts does not depend on what is pending. -/
theorem asserts_eq (h : Twins calm sharp nec) (cfg : Config) :
    sharp.asserts cfg = nec.asserts cfg := by
  obtain ⟨count, reload, enabled, reloadPending, pending⟩ := sharp
  obtain ⟨count', reload', enabled', reloadPending', pending'⟩ := nec
  obtain ⟨rfl, rfl, rfl, rfl, -, -⟩ := h
  rfl

theorem countDown_eq (h : Twins calm sharp nec) :
    sharp.countDown Mmc3.Revision.sharp.counterConfig
      = nec.countDown Mmc3.Revision.nec.counterConfig := by
  obtain ⟨count, reload, enabled, reloadPending, pending⟩ := sharp
  obtain ⟨count', reload', enabled', reloadPending', pending'⟩ := nec
  obtain ⟨rfl, rfl, rfl, rfl, -, -⟩ := h
  rfl

/-- A clock keeps twins, and it is calm unless it reloads zero. -/
theorem clock (h : Twins calm sharp nec) :
    Twins (calm ∧ ¬ sharp.ReloadsZero)
      (sharp.clock Mmc3.Revision.sharp.counterConfig)
      (nec.clock Mmc3.Revision.nec.counterConfig) := by
  have hasserts : sharp.asserts Mmc3.Revision.sharp.counterConfig
      = (nec.asserts Mmc3.Revision.nec.counterConfig || decide sharp.ReloadsZero) := by
    rw [asserts_sharp, h.asserts_eq]
  refine ⟨h.countDown_eq, h.reload, h.enabled, rfl, ?_, ?_⟩
  · rw [pending_clock, pending_clock, hasserts]
    intro hpending
    rcases Bool.or_eq_true_iff.mp hpending with hbefore | hnow
    · rw [h.pending_of_nec hbefore, Bool.true_or]
    · rw [hnow, Bool.true_or, Bool.or_true]
  · rintro ⟨hcalm, hreloads⟩
    rw [pending_clock, pending_clock, hasserts, h.pending_of_calm hcalm,
      decide_eq_false hreloads, Bool.or_false]

end Twins

end Counter

/-! ## The registers -/

namespace Mmc3

/-- The same registers on a chip of this make. -/
def ofMake (revision : Revision) (r : Mmc3) : Mmc3 := { r with revision }

theorem write_ofMake (wired : Mirroring) (addr : UInt16) (value : UInt8) (revision : Revision)
    (r : Mmc3) :
    (r.ofMake revision).write wired addr value = (r.write wired addr value).ofMake revision := by
  unfold Mmc3.write
  cases port addr with
  | mirroring =>
    by_cases hwired : wired = .fourScreen
    · rw [if_pos hwired, if_pos hwired]
    · rw [if_neg hwired, if_neg hwired]
      rfl
  | _ => rfl

end Mmc3

/-! ## The board -/

namespace Board

/-- Boards that differ in the make of the chip and what follows from it. -/
structure Twins (calm : Prop) (sharp nec : Board) : Prop where
  prg : sharp.prg = nec.prg
  chr : sharp.chr = nec.chr
  chrIsRam : sharp.chrIsRam = nec.chrIsRam
  ram : sharp.ram = nec.ram
  wired : sharp.wired = nec.wired
  registers : ∃ r : Mmc3, sharp.chip = .mmc3 (r.ofMake .sharp) ∧ nec.chip = .mmc3 (r.ofMake .nec)
  counter : sharp.irq.counter.Twins calm nec.irq.counter
  monitor : sharp.irq.monitor = nec.irq.monitor

/-- A clean edge comes while the counter is about to reload zero. -/
def EdgeAtZero (b : Board) : Operation → Prop
  | .notify addr cycle =>
    b.irq.monitor.cleanEdge EdgeSpacing.standardWindow addr cycle = true ∧
      b.irq.counter.ReloadsZero
  | _ => False

namespace Twins

variable {calm : Prop} {sharp nec : Board}

theorem mono {calm' : Prop} (h : Twins calm sharp nec) (hcalm : calm' → calm) :
    Twins calm' sharp nec :=
  { h with counter := h.counter.mono hcalm }

theorem write (h : Twins calm sharp nec) (addr : UInt16) (value : UInt8) :
    Twins calm (sharp.write addr value) (nec.write addr value) := by
  obtain ⟨r, hsharp, hnec⟩ := h.registers
  have hwritable : sharp.chip.ramWritable = nec.chip.ramWritable := by rw [hsharp, hnec]; rfl
  unfold Board.write
  rw [hwritable]
  split
  · refine { h with registers := ?_, counter := ?_ }
    · refine ⟨r.write sharp.wired addr value, ?_, ?_⟩
      · rw [hsharp, Chip.write, Mmc3.write_ofMake]
      · rw [hnec, Chip.write, Mmc3.write_ofMake, h.wired]
    · rw [hsharp, hnec]
      exact h.counter.commands addr value
  split
  · exact { h with ram := congrArg (fun ram => ram.set (ramCell addr) value) h.ram }
  · exact h

theorem chrBank_eq (h : Twins calm sharp nec) (addr : UInt16) :
    sharp.chrBank addr = nec.chrBank addr := by
  obtain ⟨r, hsharp, hnec⟩ := h.registers
  rw [Board.chrBank, hsharp, Board.chrBank, hnec]
  rfl

theorem prgBank_eq (h : Twins calm sharp nec) (addr : UInt16) :
    sharp.prgBank addr = nec.prgBank addr := by
  obtain ⟨r, hsharp, hnec⟩ := h.registers
  rw [Board.prgBank, hsharp, Board.prgBank, hnec, h.prg]
  rfl

theorem writeChr (h : Twins calm sharp nec) (addr : UInt16) (value : UInt8) :
    Twins calm (sharp.writeChr addr value) (nec.writeChr addr value) := by
  have hchr : sharp.chr.write (nec.chrBank addr) addr.toNat value
      = nec.chr.write (nec.chrBank addr) addr.toNat value := by rw [h.chr]
  unfold Board.writeChr
  by_cases hram : nec.chrIsRam = true
  · rw [if_pos (h.chrIsRam.trans hram), if_pos hram, h.chrBank_eq]
    exact { h with chr := hchr }
  · rw [if_neg (h.chrIsRam ▸ hram), if_neg hram]
    exact h

theorem notify (h : Twins calm sharp nec) (addr : UInt16) (cycle : UInt64) :
    Twins (calm ∧ ¬ sharp.EdgeAtZero (.notify addr cycle)) (sharp.notify addr cycle)
      (nec.notify addr cycle) := by
  obtain ⟨r, hsharp, hnec⟩ := h.registers
  have hwiring : sharp.chip.wiring
      = ⟨EdgeSpacing.standardWindow, Mmc3.Revision.sharp.counterConfig⟩ := by rw [hsharp]; rfl
  have hwiring' : nec.chip.wiring
      = ⟨EdgeSpacing.standardWindow, Mmc3.Revision.nec.counterConfig⟩ := by rw [hnec]; rfl
  refine { h with counter := ?_, monitor := ?_ }
  · simp only [Board.notify, LineIrq.notify, hwiring, hwiring', ← h.monitor]
    by_cases hedge : sharp.irq.monitor.cleanEdge EdgeSpacing.standardWindow addr cycle = true
    · rw [if_pos hedge, if_pos hedge]
      exact h.counter.clock.mono fun hcalm => ⟨hcalm.1, fun hzero => hcalm.2 ⟨hedge, hzero⟩⟩
    · rw [if_neg hedge, if_neg hedge]
      exact h.counter.mono And.left
  · simp only [Board.notify, LineIrq.notify, hwiring, hwiring', h.monitor]

theorem reset (h : Twins calm sharp nec) (hard : Bool) :
    Twins calm (sharp.reset hard) (nec.reset hard) := by
  obtain ⟨r, hsharp, hnec⟩ := h.registers
  cases hard with
  | true =>
    refine { h with
      registers := ⟨.powerOn .sharp sharp.wired, ?_, ?_⟩
      counter := h.counter.reset true
      monitor := rfl }
    · show sharp.chip.hardReset sharp.wired = _
      rw [hsharp]
      rfl
    · show nec.chip.hardReset nec.wired = _
      rw [hnec, h.wired]
      rfl
  | false => exact { h with counter := h.counter.reset false }

/-- Twins take and refuse the same records. -/
theorem load (h : Twins calm sharp nec) (bytes : List UInt8) :
    Twins calm (sharp.perform (.load bytes)) (nec.perform (.load bytes)) := by
  obtain ⟨r, hsharp, hnec⟩ := h.registers
  have hlayout : sharp.chip.layout = nec.chip.layout := by rw [hsharp, hnec]; rfl
  rw [perform_load, perform_load, hlayout]
  cases taken? nec.chip.layout bytes with
  | none => exact h
  | some record =>
    refine { h with
      registers := ⟨r.restore record.banks record.control record.mirroring, ?_, ?_⟩
      counter := .refl calm record.counter
      monitor := rfl }
    · rw [hsharp]
      rfl
    · rw [hnec]
      rfl

/-- Operations keep twins, and keep them calm if no clean edge comes at zero. -/
theorem perform (h : Twins calm sharp nec) (op : Operation) :
    Twins (calm ∧ ¬ sharp.EdgeAtZero op) (sharp.perform op) (nec.perform op) := by
  cases op with
  | read addr => exact h.mono And.left
  | write addr value => exact (h.write addr value).mono And.left
  | readChr addr => exact h.mono And.left
  | writeChr addr value => exact (h.writeChr addr value).mono And.left
  | notify addr cycle => exact h.notify addr cycle
  | reset hard => exact (h.reset hard).mono And.left
  | load bytes => exact (h.load bytes).mono And.left

/-- Runs keep twins, and keep them calm if no clean edge of the run comes at zero. -/
theorem run (h : Twins calm sharp nec) (ops : List Operation) :
    Twins (calm ∧ ∀ past op later, ops = past ++ op :: later → ¬ (sharp.run past).EdgeAtZero op)
      (sharp.run ops) (nec.run ops) := by
  induction ops generalizing calm sharp nec with
  | nil => exact h.mono And.left
  | cons op ops ih =>
    refine (ih (h.perform op)).mono ?_
    rintro ⟨hcalm, hops⟩
    refine ⟨⟨hcalm, hops [] op ops rfl⟩, fun past op' later hsplit => ?_⟩
    exact hops (op :: past) op' later (congrArg (op :: ·) hsplit)

theorem read_eq (h : Twins calm sharp nec) : sharp.read = nec.read := by
  funext addr
  obtain ⟨r, hsharp, hnec⟩ := h.registers
  have hreadable : sharp.chip.ramReadable = nec.chip.ramReadable := by rw [hsharp, hnec]; rfl
  rw [Board.read, h.prgBank_eq, h.prg, hreadable, h.ram]
  rfl

theorem readChr_eq (h : Twins calm sharp nec) : sharp.readChr = nec.readChr := by
  funext addr
  rw [Board.readChr, h.chrBank_eq, h.chr]
  rfl

theorem bankAt?_eq (h : Twins calm sharp nec) : sharp.bankAt? = nec.bankAt? := by
  funext region addr
  unfold Board.bankAt?
  rw [h.chrBank_eq, h.chr, h.prgBank_eq, h.prg]

theorem mirroring_eq (h : Twins calm sharp nec) : sharp.mirroring = nec.mirroring := by
  obtain ⟨r, hsharp, hnec⟩ := h.registers
  rw [Board.mirroring, hsharp, Board.mirroring, hnec, h.wired]
  rfl

theorem banks_eq (h : Twins calm sharp nec) : sharp.chip.banks = nec.chip.banks := by
  obtain ⟨r, hsharp, hnec⟩ := h.registers
  rw [hsharp, hnec]
  rfl

end Twins

/-- Boards of two cartridges that differ in the make of the chip are twins. -/
theorem twins_of_ofCartridge {cart : Cartridge} {sharp nec : Board} (hmapper : cart.mapper = 4)
    (hvariant : cart.submapper ≠ 4) (hsharp : ofCartridge cart = .ok sharp)
    (hnec : ofCartridge { cart with submapper := 4 } = .ok nec) : Twins True sharp nec := by
  unfold ofCartridge at hsharp hnec
  have hfamily : Family.ofNumber? cart.mapper = some .mmc3 := by rw [hmapper]; rfl
  have hmake : Mmc3.Revision.ofSubmapper cart.submapper = .sharp := if_neg hvariant
  dsimp only at hnec
  rw [hfamily] at hsharp hnec
  split at hsharp
  · cases hsharp
  split at hsharp
  · cases hsharp
  next prg hprg _ chr hchr =>
    rw [hprg, hchr] at hnec
    cases hsharp
    cases hnec
    refine ⟨rfl, rfl, rfl, rfl, rfl, ⟨.powerOn .sharp cart.mirroring, ?_, rfl⟩, .refl True {}, rfl⟩
    rw [Chip.powerOn, hmake]
    rfl

/-- Two boards of cartridges that are equal but for the make go through the same operations. They
agree in everything but the interrupt, and the second make has no interrupt that the first has not.
If no clean edge comes while an enabled counter stands at zero, reloads zero and is not forced to,
they agree in the interrupt too, all along. -/
theorem twins_run {cart : Cartridge} {sharp nec : Board} (hmapper : cart.mapper = 4)
    (hvariant : cart.submapper ≠ 4) (hsharp : ofCartridge cart = .ok sharp)
    (hnec : ofCartridge { cart with submapper := 4 } = .ok nec) (ops : List Operation) :
    let a := sharp.run ops
    let b := nec.run ops
    a.chip.make = .mmc3 .sharp ∧ b.chip.make = .mmc3 .nec ∧
    a.irq.counter.count = b.irq.counter.count ∧ a.irq.counter.reload = b.irq.counter.reload ∧
    a.irq.counter.enabled = b.irq.counter.enabled ∧
    a.irq.counter.reloadPending = b.irq.counter.reloadPending ∧
    a.irq.monitor = b.irq.monitor ∧
    a.bankAt? = b.bankAt? ∧ a.chip.banks = b.chip.banks ∧ a.mirroring = b.mirroring ∧
    a.read = b.read ∧ a.readChr = b.readChr ∧
    (b.pending = true → a.pending = true) ∧
    ((∀ past addr cycle later, ops = past ++ .notify addr cycle :: later →
        (sharp.run past).irq.monitor.cleanEdge EdgeSpacing.standardWindow addr cycle = true →
        ¬ (sharp.run past).irq.counter.ReloadsZero) →
      ∀ past later, ops = past ++ later → (sharp.run past).pending = (nec.run past).pending) := by
  have hstart := twins_of_ofCartridge hmapper hvariant hsharp hnec
  intro a b
  have h : Twins _ a b := hstart.run ops
  obtain ⟨r, ha, hb⟩ := h.registers
  refine ⟨congrArg Chip.make ha, congrArg Chip.make hb, h.counter.count, h.counter.reload,
    h.counter.enabled, h.counter.reloadPending, h.monitor, h.bankAt?_eq, h.banks_eq,
    h.mirroring_eq, h.read_eq, h.readChr_eq, h.counter.pending_of_nec, ?_⟩
  intro hedges past later hops
  refine (hstart.run past).counter.pending_of_calm ⟨trivial, fun earlier op later' hpast => ?_⟩
  rw [hpast, List.append_assoc] at hops
  cases op with
  | notify addr cycle =>
    rintro ⟨hedge, hzero⟩
    exact hedges earlier addr cycle (later' ++ later) hops hedge hzero
  | _ => exact id

/-- With a latch of one the counter of both makes reloads one at the only clean edge of the run. -/
theorem twins_run_blank :
    ∃ sharp nec, ofCartridge (Cartridge.blank 4 0 2 8) = .ok sharp ∧
      ofCartridge { Cartridge.blank 4 0 2 8 with submapper := 4 } = .ok nec ∧
      let ops := [Operation.write 0xC000 1, .write 0xE001 0, .notify 0x1000 100]
      (sharp.run ops).irq.counter.count = (nec.run ops).irq.counter.count ∧
        (sharp.run ops).pending = (nec.run ops).pending := by
  obtain ⟨sharp, hsharp, hchip⟩ := exists_ofCartridge_blank
    (show Family.ofNumber? 4 = some .mmc3 from rfl) 0 2 8
  obtain ⟨nec, hnec, -⟩ := exists_ofCartridge_blank
    (show Family.ofNumber? 4 = some .mmc3 from rfl) 4 2 8
  refine ⟨sharp, nec, hsharp, hnec, ?_⟩
  intro ops
  have h := twins_run rfl (by decide) hsharp hnec ops
  obtain ⟨-, -, hcount, -, -, -, -, -, -, -, -, -, -, hpending⟩ := h
  refine ⟨hcount, hpending ?_ ops [] (List.append_nil ops).symm⟩
  intro past addr cycle later hops hedge
  -- The third operation is the only address on the bus.
  have hpast : past = [.write 0xC000 1, .write 0xE001 0] := by
    simp only [ops] at hops
    rcases past with _ | ⟨first, _ | ⟨second, _ | ⟨third, rest⟩⟩⟩
    · cases hops
    · cases hops
    · cases hops
      rfl
    · have hlength := congrArg List.length hops
      simp at hlength
  have hreload : (sharp.run past).irq.counter.reload = 1 := by
    simp only [hpast, run, List.foldl_cons, List.foldl_nil, perform, Board.write, hchip]
    rfl
  rintro ⟨-, -, hzero, -⟩
  exact absurd (hreload.symm.trans hzero) (by decide)

end Board

end RasterIrq
