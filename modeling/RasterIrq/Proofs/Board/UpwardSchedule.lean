import RasterIrq.Proofs.Board.CleanEdges
import RasterIrq.Proofs.Counter.Upward

/-!
# When a board that counts up asserts

The counter of a Mapper 222 runs up to 240 and halts there. A program starts it through one port;
from then on every clean edge is a clock, and nothing on the memory side or on the picture bus does
anything else to it. So the schedule of an upward counter is that of the board, with clean edges for
clocks.

Results:
1. `Board.counter_write_start`: the counter that a program starts.
2. `Board.pending_run_start_iff`: the clean edge that makes its interrupt pending.
3. `upward_schedule`: every upward counter, and every Mapper 222 board.
-/

namespace RasterIrq

/-- The counter once a program started it at a value, or stopped it with zero. -/
def Counter.started (value : UInt8) (c : Counter) : Counter :=
  { c with
    count := value.toUInt16
    reload := value.toUInt16
    enabled := value != 0
    pending := false }

namespace Board

theorem counter_write_start {b : Board} {r : Mapper222} (hchip : b.chip = .mapper222 r)
    {addr : UInt16} (haddr : addr &&& 0xF003 = 0xF000) (value : UInt8) :
    (b.write addr value).irq.counter = b.irq.counter.started value := by
  have hirq : Family.isIrqPort addr .mapper222 = true := decide_eq_true haddr
  have hport : Mapper222.port? addr = some .irq := Mapper222.port?_eq_some_iff.mpr haddr
  rw [Board.write, if_pos (Family.port_of_isIrqPort hirq), hchip]
  show b.irq.counter.obeyAll _ (Mapper222.commands addr value) = _
  rw [Mapper222.commands, if_pos hport]
  rfl

theorem wayUp_240 (value : UInt8) :
    Counter.wayUp 240 value.toUInt16 = max 1 (240 - value.toNat) := by
  have hne : value.toUInt16 ≠ 0xFFFF := by
    intro h
    have hnat : value.toNat = 0xFFFF := congrArg UInt16.toNat h
    have hlt := value.toNat_lt
    omega
  exact Counter.wayUp_of_ne hne

/-- The interrupt of a started counter is pending from a certain clean edge on. -/
theorem pending_run_start_iff {b : Board} {r : Mapper222} (hchip : b.chip = .mapper222 r)
    {addr : UInt16} (haddr : addr &&& 0xF003 = 0xF000) (value : UInt8) {ops : List Operation}
    (hops : ∀ op ∈ ops, op.forIrq .mapper222 = true → ∃ addr cycle, op = .notify addr cycle) :
    ((b.write addr value).run ops).pending = true ↔
      value ≠ 0 ∧ max 1 (240 - value.toNat) ≤ (b.write addr value).edgeCount ops := by
  have hmake : (b.write addr value).chip.make = .mapper222 := by
    rw [← (SameBuild.write b addr value).make, hchip]
    rfl
  have hfamily : (b.write addr value).chip.family = .mapper222 := by
    rw [Chip.family_eq, hmake]
    rfl
  have hconfig : (b.write addr value).chip.wiring.counter = Mapper222.counterConfig := by
    rw [Chip.wiring_eq, hmake]
    rfl
  have hup : Mapper222.counterConfig.direction = .up 240 := rfl
  show ((b.write addr value).run ops).irq.counter.pending = true ↔ _
  rw [counter_run_of_notifies _ (hfamily.symm ▸ hops), hconfig, counter_write_start hchip haddr]
  generalize (b.write addr value).edgeCount ops = edges
  by_cases hzero : value = 0
  · have hsilent : Counter.Silent Mapper222.counterConfig (b.irq.counter.started value) :=
      Counter.silent_of_disabled (bne_eq_false_iff_eq.mpr hzero)
    rw [hsilent.pending_iterate rfl]
    exact iff_of_false Bool.false_ne_true fun h => h.1 hzero
  · have hfires := Counter.fires_wayUp (c := b.irq.counter.started value) hup
      (bne_iff_ne.mpr hzero)
    rw [hfires.pending_iterate_iff rfl, and_iff_right hzero, ← wayUp_240]
    rfl

end Board

/-- An upward counter that is clocked and left alone asserts first at the end of its way. If
asserting halts it, it stands still until it is enabled, whatever else happens to it; otherwise it
goes on asserting, as often as the way takes from what asserting leaves in it. A Mapper 222 board
that is started has its interrupt pending from the clean edge on that ends the way, unless it is
started with zero: reads and writes on the memory side and addresses that make no clean edge do not
matter. -/
theorem upward_schedule :
    (∀ (cfg : Counter.Config) (target : UInt16) (c : Counter),
      cfg.direction = .up target → c.enabled = true →
      let first := Counter.wayUp target c.count
      let fired := (Counter.clock cfg)^[first] c
      (∀ k, k < first → ((Counter.clock cfg)^[k] c).count = c.count + UInt16.ofNat k) ∧
      Counter.assertingClocks cfg first c = [first] ∧
      (cfg.onTrigger = .halt →
        fired.count = 0 ∧
        ∀ events, .obey (.setEnabled true) ∉ events →
          (fired.run cfg events).asserts cfg = false ∧
          (fired.run cfg events).clock cfg = fired.run cfg events) ∧
      (cfg.onTrigger = .holdAtZero → ∀ n k,
        k ∈ Counter.assertingClocks cfg n c ↔
          k ≤ n ∧ ∃ j, k = first + j * Counter.wayUp target 0) ∧
      (cfg.onTrigger = .reloadImmediately → ∀ n k,
        k ∈ Counter.assertingClocks cfg n c ↔
          k ≤ n ∧ ∃ j, k = first + j * Counter.wayUp target c.reload)) ∧
    (∀ (b : Board) (r : Mapper222) (addr : UInt16) (value : UInt8) (ops : List Board.Operation),
      b.chip = .mapper222 r → addr &&& 0xF003 = 0xF000 →
      (∀ op ∈ ops, op.forIrq .mapper222 = true → ∃ addr cycle, op = .notify addr cycle) →
      let started := b.write addr value
      (started.run ops).pending = true ↔
        value ≠ 0 ∧ max 1 (240 - value.toNat) ≤ started.edgeCount ops) := by
  refine ⟨?_, fun b r addr value ops hchip haddr hops => ?_⟩
  · intro cfg target c hup henabled first fired
    have hfires := Counter.fires_wayUp hup henabled
    have hfired : fired = { c.arrived cfg with pending := true } := hfires.iterate_eq
    refine ⟨fun k hk => ?_, hfires.assertingClocks_eq, fun hhalt => ?_, fun hhold n k => ?_,
      fun hreload n k => ?_⟩
    · rw [Counter.iterate_of_lt_wayUp hup henabled hk]
    · rw [Counter.arrived_of_halt hhalt] at hfired
      refine ⟨congrArg Counter.count hfired, fun events hevents => ?_⟩
      exact Counter.stands_run hup (congrArg Counter.enabled hfired) hevents
    · have hgoesOn : cfg.onTrigger ≠ .halt := by
        rw [hhold]
        decide
      have hleft : c.leftBehind cfg = 0 := by
        rw [Counter.leftBehind, hhold]
        rfl
      rw [← hleft]
      exact Counter.mem_assertingClocks_up hup henabled hgoesOn
    · have hgoesOn : cfg.onTrigger ≠ .halt := by
        rw [hreload]
        decide
      have hleft : c.leftBehind cfg = c.reload := if_pos hreload
      rw [← hleft]
      exact Counter.mem_assertingClocks_up hup henabled hgoesOn
  · exact Board.pending_run_start_iff hchip haddr value hops

/-- A counter goes over from 65535 to zero on its way to 3. A board that is started at 238 has its
interrupt pending after its second clean edge; a rise in between comes too early to be one. -/
theorem upward_schedule_blank :
    let cfg : Counter.Config := ⟨.up 3, .holdAtZero, .immediate, false⟩
    let c : Counter := ⟨0xFFFF, 7, true, false, false⟩
    (cfg.direction = .up 3 ∧ c.enabled = true ∧
      Counter.assertingClocks cfg 4 c = [4] ∧
      ∀ k, k ∈ Counter.assertingClocks cfg 10 c ↔ k ≤ 10 ∧ ∃ j, k = 4 + j * 3) ∧
    ∃ start r, Board.ofCartridge (Cartridge.blank 222 0 2 8) = .ok start ∧
      start.chip = .mapper222 r ∧
      let ops := [Board.Operation.notify 0x1000 100, .notify 0 102, .notify 0x1000 104,
        .write 0x8000 5, .notify 0 106, .readChr 0, .notify 0x1000 300]
      (∀ op ∈ ops, op.forIrq .mapper222 = true → ∃ addr cycle, op = .notify addr cycle) ∧
        ((start.write 0xFFFC 238).run ops).pending = true := by
  obtain ⟨hcounter, hboard⟩ := upward_schedule
  refine ⟨?_, ?_⟩
  · obtain ⟨-, hfirst, -, hhold, -⟩ :=
      hcounter ⟨.up 3, .holdAtZero, .immediate, false⟩ 3 ⟨0xFFFF, 7, true, false, false⟩ rfl rfl
    exact ⟨rfl, rfl, hfirst, hhold rfl 10⟩
  · obtain ⟨start, hstart, hchip⟩ := Board.exists_ofCartridge_blank
      (show Family.ofNumber? 222 = some .mapper222 from rfl) 0 2 8
    refine ⟨start, _, hstart, hchip, ?_⟩
    intro ops
    have hops : ∀ op ∈ ops, op.forIrq .mapper222 = true → ∃ addr cycle, op = .notify addr cycle := by
      intro op hop hforIrq
      simp only [ops, List.mem_cons, List.not_mem_nil, or_false] at hop
      rcases hop with rfl | rfl | rfl | rfl | rfl | rfl | rfl
      all_goals first
        | exact ⟨_, _, rfl⟩
        | cases hforIrq
    refine ⟨hops, (hboard start _ 0xFFFC 238 ops hchip rfl hops).mpr ⟨by decide, ?_⟩⟩
    have hedges : (start.write 0xFFFC 238).edgeCount ops = 2 := by
      obtain ⟨-, hirq, -⟩ := Board.ofCartridge_eq_ok hstart
      obtain ⟨_, _, _, _, _, _, _⟩ := start
      cases hchip
      cases hirq
      rfl
    rw [hedges]
    decide

end RasterIrq
