import RasterIrq.Proofs.Board.Mmc3Coherent

/-!
# What holds of every Mapper 222 board

One port does everything to the counter of a Mapper 222: a value sets the count and starts it, zero
stops it, and both drop the interrupt. The clock that asserts clears the count and stops the counter
again. So the counter runs exactly while its count is not zero, and it stands at zero while the
interrupt is pending. A count above 239 comes from the port or from a record and lasts until the
next clean edge, which asserts at once.

Results:
1. `Counter.Mapper222Coherent.commands`, `Counter.Mapper222Coherent.clock`: the counter's part.
2. `Board.Mapper222Coherent.perform`, `Board.Mapper222Coherent.load`: operations and loading.
3. `Board.mapper222Coherent_run`: every Mapper 222 board that comes about, and where a count above
   239 comes from.
-/

namespace RasterIrq

/-! ## The counter -/

namespace Counter

structure Mapper222Coherent (c : Counter) : Prop where
  enabled_iff : c.enabled = true ↔ c.count ≠ 0
  stopped_of_pending : c.pending = true → c.count = 0 ∧ c.enabled = false
  count_le : c.count ≤ 255
  reload_le : c.reload ≤ 255
  reloadPending_eq : c.reloadPending = false

namespace Mapper222Coherent

theorem initial : Mapper222Coherent {} :=
  ⟨⟨nofun, fun h => absurd rfl h⟩, nofun, by decide, by decide, rfl⟩

/-- A port that the program writes. -/
theorem commands {c : Counter} (h : c.Mapper222Coherent) (addr : UInt16) (value : UInt8) :
    (c.obeyAll Mapper222.counterConfig (Mapper222.commands addr value)).Mapper222Coherent := by
  unfold Mapper222.commands
  split
  · have hstarts : (value != 0) = true ↔ value.toUInt16 ≠ 0 := by
      rw [bne_iff_ne, ne_eq, ne_eq, ← UInt8.toNat_inj, ← UInt16.toNat_inj, UInt8.toNat_toUInt16]
      rfl
    exact ⟨hstarts, nofun, toUInt16_le value, toUInt16_le value, h.reloadPending_eq⟩
  · exact h

/-- A clock stops the counter at zero, or takes it one further below its target. -/
theorem clock_cases {c : Counter} (h : c.Mapper222Coherent) :
    c.enabled = false ∧ c.clock Mapper222.counterConfig = c ∨
    c.enabled = true ∧ 240 ≤ c.count + 1 ∧
      c.clock Mapper222.counterConfig
        = { c with count := 0, enabled := false, pending := true } ∨
    c.enabled = true ∧ c.count + 1 < 240 ∧ c.pending = false ∧
      c.clock Mapper222.counterConfig = { c with count := c.count + 1 } := by
  have hup : Mapper222.counterConfig.direction = .up 240 := rfl
  cases henabled : c.enabled with
  | false => exact .inl ⟨rfl, clock_of_disabled hup henabled⟩
  | true =>
    rcases UInt16.le_or_lt 240 (c.count + 1) with hreached | hbelow
    · exact .inr (.inl ⟨rfl, hreached, (clock_of_target_le hup henabled hreached).2⟩)
    · have hquiet : c.pending = false := by
        cases hpending : c.pending with
        | false => rfl
        | true => exact absurd henabled ((h.stopped_of_pending hpending).2 ▸ Bool.false_ne_true)
      refine .inr (.inr ⟨rfl, hbelow, hquiet, ?_⟩)
      rw [(clock_of_lt_target hup henabled hbelow).2, henabled]

/-- The next count of a counter that has not reached its target. -/
theorem toNat_next {c : Counter} (h : c.Mapper222Coherent) :
    (c.count + 1).toNat = c.count.toNat + 1 := by
  have hcount := UInt16.le_iff_toNat_le.mp h.count_le
  exact toNat_add_one (Nat.lt_of_le_of_lt (Nat.succ_le_succ hcount) (by decide))

theorem clock {c : Counter} (h : c.Mapper222Coherent) :
    (c.clock Mapper222.counterConfig).Mapper222Coherent := by
  rcases h.clock_cases with ⟨-, hclock⟩ | ⟨-, -, hclock⟩ | ⟨henabled, hbelow, hquiet, hclock⟩
  · rw [hclock]
    exact h
  · rw [hclock]
    have hzero : (0 : UInt16) ≤ 255 := by decide
    exact ⟨⟨nofun, fun hne => absurd rfl hne⟩, fun _ => ⟨rfl, rfl⟩, hzero, h.reload_le,
      h.reloadPending_eq⟩
  · have hnext := h.toNat_next
    have hlt := UInt16.lt_iff_toNat_lt.mp hbelow
    have hne : c.count + 1 ≠ 0 := by
      intro hzero
      rw [hzero] at hnext
      cases hnext
    rw [hclock]
    refine ⟨⟨fun _ => hne, fun _ => henabled⟩, ?_, ?_, h.reload_le, h.reloadPending_eq⟩
    · intro hpending
      exact absurd (hquiet.symm.trans hpending) Bool.false_ne_true
    · exact UInt16.le_of_lt (UInt16.lt_trans hbelow (by decide))

/-- A clock leaves no count that has reached the target. -/
theorem count_clock_lt {c : Counter} (h : c.Mapper222Coherent) :
    (c.clock Mapper222.counterConfig).count < 240 := by
  rcases h.clock_cases with ⟨hdisabled, hclock⟩ | ⟨-, -, hclock⟩ | ⟨-, hbelow, -, hclock⟩
  · have hzero : c.count = 0 := by
      by_contra hne
      exact absurd (h.enabled_iff.mpr hne) (hdisabled ▸ Bool.false_ne_true)
    rw [hclock, hzero]
    decide
  · rw [hclock]
    exact (by decide : (0 : UInt16) < 240)
  · rw [hclock]
    exact hbelow

theorem reset {c : Counter} (h : c.Mapper222Coherent) (hard : Bool) :
    (c.reset hard).Mapper222Coherent := by
  cases hard with
  | true => exact initial
  | false => exact ⟨h.enabled_iff, nofun, h.count_le, h.reload_le, h.reloadPending_eq⟩

end Mapper222Coherent

end Counter

/-! ## The board -/

namespace Board

structure Mapper222Coherent (b : Board) : Prop where
  counter : b.irq.counter.Mapper222Coherent
  monitor : b.irq.monitor.Coherent
  registers : ∃ r, b.chip = .mapper222 r

namespace Mapper222Coherent

theorem powerOn {cart : Cartridge} {b : Board} (h : ofCartridge cart = .ok b)
    (hfamily : b.chip.family = .mapper222) : b.Mapper222Coherent := by
  obtain ⟨-, hirq, family, -, hchip⟩ := ofCartridge_eq_ok h
  cases family with
  | mmc3 =>
    rw [hchip] at hfamily
    cases hfamily
  | mapper222 =>
    refine ⟨?_, ?_, ⟨_, hchip⟩⟩
    · rw [hirq]
      exact .initial
    · rw [hirq]
      exact .initial

theorem perform {b : Board} (h : b.Mapper222Coherent) {op : Operation}
    (hop : ∀ bytes, op ≠ .load bytes) : (b.perform op).Mapper222Coherent := by
  obtain ⟨r, hr⟩ := h.registers
  rcases b.perform_cases hop with ⟨hchip, hirq⟩ | ⟨addr, value, -, -, hchip, hirq⟩ |
    ⟨addr, cycle, -, hchip, hirq⟩ | ⟨hard, -, hchip, hirq⟩
  · exact ⟨hirq ▸ h.counter, hirq ▸ h.monitor, hchip ▸ h.registers⟩
  · rw [hr] at hchip hirq
    exact ⟨hirq ▸ h.counter.commands addr value, hirq ▸ h.monitor, ⟨_, hchip⟩⟩
  · rw [hr] at hirq
    refine ⟨hirq ▸ ?_, hirq ▸ h.monitor.observe _ addr cycle, hchip ▸ h.registers⟩
    exact LineIrq.counter_notify h.counter.clock h.counter
  · refine ⟨hirq ▸ h.counter.reset hard, hirq ▸ h.monitor.reset hard, ?_⟩
    cases hard with
    | true =>
      rw [hr] at hchip
      exact ⟨_, hchip⟩
    | false => exact hchip ▸ h.registers

/-- What is loaded is coherent, so the board is. -/
theorem load {b saver : Board} (h : b.Mapper222Coherent) (hsaver : saver.Mapper222Coherent) :
    (b.perform (.load saver.save)).Mapper222Coherent := by
  obtain ⟨r, hr⟩ := h.registers
  obtain ⟨s, hs⟩ := hsaver.registers
  have hfamily : saver.chip.family = b.chip.family := by rw [hr, hs]; rfl
  rw [Board.perform, load_save hfamily]
  refine ⟨hsaver.counter, hsaver.monitor, ?_⟩
  refine ⟨.restore saver.record.banks saver.record.mirroring, ?_⟩
  show b.chip.restore saver.record = _
  rw [hr]
  rfl

end Mapper222Coherent

theorem mapper222Coherent_of_reached {cart : Cartridge} {b : Board} (h : Reached cart b)
    (hfamily : b.chip.family = .mapper222) : b.Mapper222Coherent := by
  induction h with
  | powerOn h => exact .powerOn h hfamily
  | perform _ op hop ih => exact (ih (family_perform _ op ▸ hfamily)).perform hop
  | load _ _ hsame ih ihsaver =>
    have hown := family_perform _ _ ▸ hfamily
    exact (ih hown).load (ihsaver (hsame.trans hown))

/-! ## Counts above 239 -/

/-- A write to the counter's port, and a load, set the count of a Mapper 222. -/
def Operation.SetsCount : Operation → Prop
  | .write addr _ => Mapper222.port? addr = some .irq
  | .load _ => True
  | _ => False

theorem ne_load_of_not_setsCount {op : Operation} (h : ¬ op.SetsCount) (bytes : List UInt8) :
    op ≠ .load bytes := by
  rintro rfl
  exact h trivial

theorem count_notify_lt {b : Board} (h : b.Mapper222Coherent) {addr : UInt16} {cycle : UInt64}
    (hedge : b.irq.monitor.cleanEdge b.chip.wiring.window addr cycle = true) :
    (b.notify addr cycle).count < 240 := by
  obtain ⟨r, hr⟩ := h.registers
  rw [count, Board.notify, LineIrq.notify, hedge, hr]
  exact h.counter.count_clock_lt

/-- Nothing else takes the count to the target. -/
theorem count_perform_lt {b : Board} (h : b.Mapper222Coherent) {op : Operation}
    (hop : ¬ op.SetsCount) (hcount : b.count < 240) : (b.perform op).count < 240 := by
  obtain ⟨r, hr⟩ := h.registers
  rw [count]
  rcases b.perform_cases (ne_load_of_not_setsCount hop) with ⟨-, hirq⟩ |
    ⟨addr, value, rfl, -, -, hirq⟩ | ⟨addr, cycle, -, -, hirq⟩ | ⟨hard, -, -, hirq⟩
  · rw [hirq]
    exact hcount
  · have hcommands : b.chip.commands addr value = [] := by
      rw [hr]
      exact if_neg hop
    rw [hirq, hcommands]
    exact hcount
  · rw [hirq, hr]
    exact LineIrq.counter_notify (P := fun c => c.count < 240) h.counter.count_clock_lt hcount
  · rw [hirq]
    cases hard with
    | true => exact (by decide : (0 : UInt16) < 240)
    | false => exact hcount

theorem count_run_lt {b : Board} (h : b.Mapper222Coherent) {ops : List Operation}
    (hops : ∀ op ∈ ops, ¬ op.SetsCount) (hcount : b.count < 240) : (b.run ops).count < 240 := by
  induction ops generalizing b with
  | nil => exact hcount
  | cons op ops ih =>
    have hop := hops op List.mem_cons_self
    exact ih (h.perform (ne_load_of_not_setsCount hop))
      (fun op' hop' => hops op' (List.mem_cons_of_mem op hop')) (count_perform_lt h hop hcount)

/-- A Mapper 222 board with any past in which it loads what such boards saved. Its counter runs
exactly while the count is not zero, and is stopped at zero while the interrupt is pending; no
reload ever waits. A count above 239 has seen no clean edge: each one in the past has a write to the
counter's port or a load after it. -/
theorem mapper222Coherent_run {cart : Cartridge} {start : Board} {ops : List Operation}
    (hstart : ofCartridge cart = .ok start) (hfamily : start.chip.family = .mapper222)
    (hloads : LoadsSaved .mapper222 ops) :
    let counter := (start.run ops).irq.counter
    let monitor := (start.run ops).irq.monitor
    (counter.enabled = true ↔ counter.count ≠ 0) ∧
    (counter.pending = true → counter.count = 0 ∧ counter.enabled = false) ∧
    counter.count ≤ 255 ∧ counter.reload ≤ 255 ∧
    counter.reloadPending = false ∧
    (239 < counter.count → ∀ past addr cycle later, ops = past ++ .notify addr cycle :: later →
      (start.run past).irq.monitor.cleanEdge EdgeSpacing.standardWindow addr cycle = true →
      ∃ op ∈ later, op.SetsCount) ∧
    (monitor.lastEdge = none → monitor.lineHigh = false ∧ monitor.cleanEdges = 0) := by
  have hreached : ∀ past, past <+: ops → (start.run past).Mapper222Coherent := by
    rintro past ⟨later, rfl⟩
    have hpast : LoadsSaved start.chip.family past := by
      intro bytes hbytes
      rw [hfamily]
      exact hloads bytes (List.mem_append_left later hbytes)
    have hsame := Chip.family_eq_of_make (SameBuild.run start past).make
    exact mapper222Coherent_of_reached ((Reached.powerOn hstart).run_of_loadsSaved hpast)
      (hsame.symm.trans hfamily)
  intro counter monitor
  have h := hreached ops (List.prefix_refl ops)
  refine ⟨h.counter.enabled_iff, h.counter.stopped_of_pending, h.counter.count_le,
    h.counter.reload_le, h.counter.reloadPending_eq, ?_, ?_⟩
  · rintro hcount past addr cycle later rfl hedge
    by_contra hnone
    have hlater : ∀ op ∈ later, ¬ op.SetsCount := fun op hop hsets => hnone ⟨op, hop, hsets⟩
    have hpast := hreached past (List.prefix_append past _)
    have hnotified : ((start.run past).perform (.notify addr cycle)).Mapper222Coherent :=
      hpast.perform nofun
    have hlt := count_run_lt hnotified hlater (count_notify_lt hpast hedge)
    have hrun : start.run (past ++ .notify addr cycle :: later)
        = ((start.run past).perform (.notify addr cycle)).run later := List.foldl_append
    rw [← hrun] at hlt
    have hge : (240 : UInt16) ≤ (start.run (past ++ .notify addr cycle :: later)).count :=
      UInt16.le_iff_toNat_le.mpr (Nat.succ_le_of_lt (UInt16.lt_iff_toNat_lt.mp hcount))
    exact absurd hlt (UInt16.not_lt.mpr hge)
  · intro hnone
    refine ⟨?_, h.monitor.cleanEdges_of_none hnone⟩
    cases hhigh : monitor.lineHigh with
    | false => rfl
    | true =>
      obtain ⟨t, ht⟩ := h.monitor.lastEdge_of_high hhigh
      rw [hnone] at ht
      cases ht

/-- A board takes a clean edge and then loads a count of 250 that another board saved. -/
theorem mapper222Coherent_run_blank :
    ∃ start other, ofCartridge (Cartridge.blank 222 0 2 8) = .ok start ∧
      ofCartridge (Cartridge.blank 222 0 16 128) = .ok other ∧
      let saver := other.run [.write 0xF000 250]
      let ops := [Operation.notify 0x1000 100, .load saver.save]
      start.chip.family = .mapper222 ∧ LoadsSaved .mapper222 ops ∧
        (start.run ops).count = 250 ∧ (start.run ops).irq.counter.enabled = true := by
  obtain ⟨start, hstart, hchip⟩ := exists_ofCartridge_blank
    (show Family.ofNumber? 222 = some .mapper222 from rfl) 0 2 8
  obtain ⟨other, hother, hchip'⟩ := exists_ofCartridge_blank
    (show Family.ofNumber? 222 = some .mapper222 from rfl) 0 16 128
  refine ⟨start, other, hstart, hother, ?_⟩
  intro saver ops
  have hfamily : start.chip.family = .mapper222 := by rw [hchip]; rfl
  have hsame : saver.chip.family = .mapper222 := by
    rw [← Chip.family_eq_of_make (SameBuild.run other _).make, hchip']
    rfl
  have hsaver : Reached (Cartridge.blank 222 0 16 128) saver := by
    refine (Reached.powerOn hother).run ?_
    simp only [List.forall_mem_cons]
    exact ⟨nofun, nofun⟩
  have hloads : LoadsSaved .mapper222 ops := by
    intro bytes hbytes
    have hbytes : bytes = saver.save := by simpa [ops] using hbytes
    exact ⟨_, saver, hsaver, hsame, hbytes⟩
  have hcount : (start.run ops).count = 250 := by
    have hfrom : saver.chip.family = (start.notify 0x1000 100).chip.family :=
      hsame.trans hfamily.symm
    show (perform (start.notify 0x1000 100) (.load saver.save)).count = 250
    rw [perform, load_save hfrom]
    show (other.write 0xF000 250).count = 250
    rw [Board.write, hchip']
    rfl
  have hne : (start.run ops).count ≠ 0 := by
    rw [hcount]
    decide
  exact ⟨hfamily, hloads, hcount,
    (mapper222Coherent_run hstart hfamily hloads).1.mpr hne⟩

end Board

end RasterIrq
