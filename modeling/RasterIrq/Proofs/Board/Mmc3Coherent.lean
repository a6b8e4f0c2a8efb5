import RasterIrq.Proofs.Board.Reached
import RasterIrq.Proofs.Counter.Firing

/-!
# What holds of every MMC3 board

The parts of an MMC3 board depend on each other: a forced reload waits on a count of zero, an
interrupt that is pending was enabled, a watched line that is high has seen an edge, and the two
registers that name pairs of banks hold even numbers. `Board.Mmc3Coherent` puts these facts
together. They hold at power-on, and each port, the clock, the resets and loading keep them.

Results:
1. `Counter.Mmc3Coherent.commands`, `Counter.Mmc3Coherent.clock`: the counter's part.
2. `Board.Mmc3Coherent.perform`, `Board.Mmc3Coherent.load`: operations and loading.
3. `Board.mmc3Coherent_of_reached`: every MMC3 board that comes about.
-/

namespace RasterIrq

/-! ## The monitor -/

namespace Monitor

/-- A line that is high has risen, and its first rise is a clean edge. -/
structure Coherent (m : Monitor) : Prop where
  lastEdge_of_high : m.lineHigh = true → ∃ t, m.lastEdge = some t
  cleanEdges_of_none : m.lastEdge = none → m.cleanEdges = 0

namespace Coherent

theorem initial : Coherent {} := ⟨nofun, fun _ => rfl⟩

theorem observe {m : Monitor} (h : m.Coherent) (window : UInt64) (addr : UInt16) (cycle : UInt64) :
    (m.observe window addr cycle).Coherent := by
  unfold Monitor.observe
  cases hedge : m.cleanEdge window addr cycle with
  | true => exact ⟨fun _ => ⟨cycle, rfl⟩, nofun⟩
  | false =>
    show Coherent { m with lineHigh := Line.level addr }
    refine ⟨fun hhigh => ?_, h.cleanEdges_of_none⟩
    cases hlast : m.lastEdge with
    | some t => exact ⟨t, rfl⟩
    | none =>
      -- Without an edge behind it the line was low, so it rises now, and that would be an edge.
      have hlow : m.lineHigh = false := by
        cases hm : m.lineHigh with
        | false => rfl
        | true =>
          obtain ⟨t, ht⟩ := h.lastEdge_of_high hm
          rw [hlast] at ht
          cases ht
      rw [cleanEdge, Line.rises, hlow, hlast, show Line.level addr = true from hhigh] at hedge
      cases hedge

theorem reset {u : LineIrq} (h : u.monitor.Coherent) (hard : Bool) :
    (u.reset hard).monitor.Coherent := by
  cases hard with
  | true => exact initial
  | false => exact h

end Coherent

end Monitor

/-- What holds of the counter clocked and not clocked holds of it after an address. -/
theorem LineIrq.counter_notify {P : Counter → Prop} {w : Wiring} {u : LineIrq} {addr : UInt16}
    {cycle : UInt64} (hclock : P (u.counter.clock w.counter)) (hcounter : P u.counter) :
    P (u.notify w addr cycle).counter := by
  show P (if _ then _ else _)
  split
  · exact hclock
  · exact hcounter

/-! ## The counter -/

namespace Counter

theorem toUInt16_le (value : UInt8) : value.toUInt16 ≤ 255 := by
  rw [UInt16.le_iff_toNat_le, UInt8.toNat_toUInt16]
  exact Nat.le_of_lt_succ value.toNat_lt

structure Mmc3Coherent (c : Counter) : Prop where
  count_le : c.count ≤ 255
  reload_le : c.reload ≤ 255
  count_of_reloadPending : c.reloadPending = true → c.count = 0
  enabled_of_pending : c.pending = true → c.enabled = true

namespace Mmc3Coherent

theorem initial : Mmc3Coherent {} := ⟨by decide, by decide, nofun, nofun⟩

/-- A port that the program writes. Forcing a reload clears the count first, and disabling drops the
interrupt. -/
theorem commands {c : Counter} (h : c.Mmc3Coherent) (revision : Mmc3.Revision) (addr : UInt16)
    (value : UInt8) :
    (c.obeyAll revision.counterConfig (Mmc3.commands addr value)).Mmc3Coherent := by
  unfold Mmc3.commands
  cases Mmc3.port addr with
  | irqLatch =>
    exact ⟨h.count_le, toUInt16_le value, h.count_of_reloadPending, h.enabled_of_pending⟩
  | irqReload =>
    have hzero : (0 : UInt16) ≤ 255 := by decide
    exact ⟨hzero, h.reload_le, fun _ => rfl, h.enabled_of_pending⟩
  | irqDisable => exact ⟨h.count_le, h.reload_le, h.count_of_reloadPending, nofun⟩
  | irqEnable => exact ⟨h.count_le, h.reload_le, h.count_of_reloadPending, fun _ => rfl⟩
  | bankSelect => exact h
  | bankData => exact h
  | mirroring => exact h
  | ramProtect => exact h

theorem stepDown_le {c : Counter} (h : c.Mmc3Coherent) : c.stepDown ≤ 255 := by
  rw [stepDown]
  cases hreloads : c.reloads with
  | true => exact h.reload_le
  | false =>
    show c.count - 1 ≤ 255
    rw [UInt16.le_iff_toNat_le, toNat_sub_one (one_le_of_not_reloads hreloads)]
    exact Nat.le_trans (Nat.sub_le _ _) (UInt16.le_iff_toNat_le.mp h.count_le)

theorem clock {c : Counter} (h : c.Mmc3Coherent) (revision : Mmc3.Revision) :
    (c.clock revision.counterConfig).Mmc3Coherent := by
  have hcount : c.countDown revision.counterConfig = c.stepDown := countDown_of_holdAtZero rfl
  rw [clock_down (show revision.counterConfig.direction = .down from rfl), hcount]
  refine ⟨h.stepDown_le, h.reload_le, fun hforced => ?_, fun hpending => ?_⟩
  · exact absurd hforced Bool.false_ne_true
  · rcases Bool.or_eq_true_iff.mp hpending with hbefore | hasserts
    · exact h.enabled_of_pending hbefore
    · exact (Bool.and_eq_true_iff.mp hasserts).1

theorem reset {c : Counter} (h : c.Mmc3Coherent) (hard : Bool) : (c.reset hard).Mmc3Coherent := by
  cases hard with
  | true => exact initial
  | false => exact ⟨h.count_le, h.reload_le, h.count_of_reloadPending, nofun⟩

end Mmc3Coherent

end Counter

/-! ## The registers -/

namespace Mmc3

/-- R0 and R1 name pairs of banks. -/
def PairsEven (r : Mmc3) : Prop := r.register 0 % 2 = 0 ∧ r.register 1 % 2 = 0

theorem pairsEven_powerOn (revision : Revision) (wired : Mirroring) :
    (powerOn revision wired).PairsEven := by
  constructor <;> rfl

theorem even_and_FE (value : UInt8) : (value &&& 0xFE) % 2 = 0 := by
  have hall : ∀ n : Fin 256, (UInt8.ofNat n.val &&& 0xFE) % 2 = 0 := by decide +kernel
  have hvalue := hall ⟨value.toNat, value.toNat_lt⟩
  rwa [UInt8.ofNat_toNat] at hvalue

theorem PairsEven.write {r : Mmc3} (h : r.PairsEven) (wired : Mirroring) (addr : UInt16)
    (value : UInt8) : (r.write wired addr value).PairsEven := by
  have hbank : (r.writeBank value).PairsEven := by
    have hregister : ∀ n, n < 2 → (r.writeBank value).register n % 2 = 0 := by
      intro n hn
      have hbefore : r.register n % 2 = 0 := by
        rcases n with _ | _ | n
        · exact h.1
        · exact h.2
        · omega
      rw [register_of_lt _ (by omega)] at hbefore ⊢
      unfold writeBank
      dsimp only
      rw [Vector.getElem_set]
      split
      · next htarget =>
        rw [if_pos (by omega)]
        exact even_and_FE value
      · exact hbefore
    exact ⟨hregister 0 (by decide), hregister 1 (by decide)⟩
  unfold Mmc3.write
  split
  · exact h
  · exact hbank
  · split
    · exact h
    · exact h
  all_goals exact h

theorem PairsEven.restore {s : Mmc3} (h : s.PairsEven) (control : List UInt8)
    (mirroring : Mirroring) (r : Mmc3) :
    (r.restore s.banks.toList control mirroring).PairsEven := by
  have hbanks : (r.restore s.banks.toList control mirroring).banks = s.banks :=
    ofFn_getD_toList s.banks
  unfold PairsEven register
  rw [hbanks]
  exact h

end Mmc3

/-! ## The board -/

namespace Board

structure Mmc3Coherent (b : Board) : Prop where
  counter : b.irq.counter.Mmc3Coherent
  monitor : b.irq.monitor.Coherent
  registers : ∃ r, b.chip = .mmc3 r ∧ r.PairsEven

namespace Mmc3Coherent

theorem powerOn {cart : Cartridge} {b : Board} (h : ofCartridge cart = .ok b)
    (hfamily : b.chip.family = .mmc3) : b.Mmc3Coherent := by
  obtain ⟨-, hirq, family, -, hchip⟩ := ofCartridge_eq_ok h
  cases family with
  | mmc3 =>
    refine ⟨?_, ?_, ⟨_, hchip, Mmc3.pairsEven_powerOn _ _⟩⟩
    · rw [hirq]
      exact .initial
    · rw [hirq]
      exact .initial
  | mapper222 =>
    rw [hchip] at hfamily
    cases hfamily

theorem perform {b : Board} (h : b.Mmc3Coherent) {op : Operation}
    (hop : ∀ bytes, op ≠ .load bytes) : (b.perform op).Mmc3Coherent := by
  obtain ⟨r, hr, heven⟩ := h.registers
  rcases b.perform_cases hop with ⟨hchip, hirq⟩ | ⟨addr, value, -, -, hchip, hirq⟩ |
    ⟨addr, cycle, -, hchip, hirq⟩ | ⟨hard, -, hchip, hirq⟩
  · exact ⟨hirq ▸ h.counter, hirq ▸ h.monitor, hchip ▸ h.registers⟩
  · rw [hr] at hchip hirq
    exact ⟨hirq ▸ h.counter.commands r.revision addr value, hirq ▸ h.monitor,
      ⟨_, hchip, heven.write b.wired addr value⟩⟩
  · rw [hr] at hirq
    refine ⟨hirq ▸ ?_, hirq ▸ h.monitor.observe _ addr cycle, hchip ▸ h.registers⟩
    exact LineIrq.counter_notify (h.counter.clock r.revision) h.counter
  · refine ⟨hirq ▸ h.counter.reset hard, hirq ▸ h.monitor.reset hard, ?_⟩
    cases hard with
    | true =>
      rw [hr] at hchip
      exact ⟨_, hchip, Mmc3.pairsEven_powerOn _ _⟩
    | false => exact hchip ▸ h.registers

/-- What is loaded is coherent, so the board is. -/
theorem load {b saver : Board} (h : b.Mmc3Coherent) (hsaver : saver.Mmc3Coherent) :
    (b.perform (.load saver.save)).Mmc3Coherent := by
  obtain ⟨r, hr, -⟩ := h.registers
  obtain ⟨s, hs, heven⟩ := hsaver.registers
  have hfamily : saver.chip.family = b.chip.family := by rw [hr, hs]; rfl
  rw [Board.perform, load_save hfamily]
  refine ⟨hsaver.counter, hsaver.monitor, ?_⟩
  refine ⟨r.restore s.banks.toList s.control s.mirroring, ?_, heven.restore _ _ r⟩
  show b.chip.restore saver.record = _
  rw [hr, Board.record, hs]
  rfl

end Mmc3Coherent

/-- Four-screen wiring decides the mirroring of an MMC3 whatever is loaded. -/
theorem mirroring_run_of_fourScreen {b : Board} (hfamily : b.chip.family = .mmc3)
    (hwired : b.wired = .fourScreen) (ops : List Operation) :
    (b.run ops).mirroring = .fourScreen := by
  have hbuild := SameBuild.run b ops
  have hmmc3 : (b.run ops).chip.family = .mmc3 := (family_run b ops).trans hfamily
  rw [Board.mirroring, ← hbuild.wired, hwired]
  cases hchip : (b.run ops).chip with
  | mmc3 r =>
    rw [Chip.mirroring]
    exact if_pos rfl
  | mapper222 r =>
    rw [hchip] at hmmc3
    cases hmmc3

/-- Every MMC3 board that comes about is coherent, and on a four-screen cartridge the mirroring
stays what it is, even if records are loaded that no board saved. -/
theorem mmc3Coherent_of_reached {cart : Cartridge} {b : Board} (h : Reached cart b)
    (hfamily : b.chip.family = .mmc3) :
    b.Mmc3Coherent ∧
      (cart.mirroring = .fourScreen → ∀ ops, (b.run ops).mirroring = .fourScreen) := by
  constructor
  · induction h with
    | powerOn h => exact .powerOn h hfamily
    | perform _ op hop ih => exact (ih (family_perform _ op ▸ hfamily)).perform hop
    | load _ _ hsame ih ihsaver =>
      have hown := family_perform _ _ ▸ hfamily
      exact (ih hown).load (ihsaver (hsame.trans hown))
  · intro hcart
    obtain ⟨start, hstart, hbuild⟩ := h.sameBuild
    have hwired := (ofCartridge_eq_ok hstart).1
    exact mirroring_run_of_fourScreen hfamily (hbuild.wired ▸ hwired.trans hcart)

/-- A board of the second make that loads what one of the first make saved, with a reload forced and
its line high. -/
theorem mmc3Coherent_of_reached_blank :
    ∃ start other, ofCartridge (Cartridge.blank 4 4 2 8) = .ok start ∧
      ofCartridge (Cartridge.blank 4 0 16 128) = .ok other ∧
      let saver := other.run [.write 0xC000 7, .write 0xE001 0, .notify 0x1000 100, .write 0xC001 0]
      let b := start.perform (.load saver.save)
      Reached (Cartridge.blank 4 4 2 8) b ∧ b.chip.family = .mmc3 ∧ b.Mmc3Coherent := by
  obtain ⟨start, hstart, hchip⟩ := exists_ofCartridge_blank
    (show Family.ofNumber? 4 = some .mmc3 from rfl) 4 2 8
  obtain ⟨other, hother, hchip'⟩ := exists_ofCartridge_blank
    (show Family.ofNumber? 4 = some .mmc3 from rfl) 0 16 128
  refine ⟨start, other, hstart, hother, ?_⟩
  intro saver b
  have hsaver : Reached (Cartridge.blank 4 0 16 128) saver := by
    refine (Reached.powerOn hother).run ?_
    simp only [List.forall_mem_cons]
    exact ⟨nofun, nofun, nofun, nofun, nofun⟩
  have hfamily : start.chip.family = .mmc3 := by rw [hchip]; rfl
  have hsame : saver.chip.family = start.chip.family := by
    rw [hfamily, ← Chip.family_eq_of_make (SameBuild.run other _).make, hchip']
    rfl
  have hb : Reached (Cartridge.blank 4 4 2 8) b := .load (.powerOn hstart) hsaver hsame
  have hbfamily : b.chip.family = .mmc3 := (family_perform start _).trans hfamily
  exact ⟨hb, hbfamily, (mmc3Coherent_of_reached hb hbfamily).1⟩

end Board

end RasterIrq
