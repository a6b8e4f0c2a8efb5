import RasterIrq.Trace
import RasterIrq.Proofs.Bus.Frames

/-!
# The interrupt schedule

A trace arms the counter of a bus that has just been switched on, and runs frames. The lines on
which the interrupt comes are then known for the whole run. They are numbered through all frames
from 1: line `l` of frame `f`, its pre-render line being line 0, is number `241 * f + l + 1`.

Results:
1. `Trace.armed_arm`: the bus that a trace starts from.
2. `Trace.risesAt_mmc3`, `Trace.risesAt_mapper222`: when the line of a served chip goes up.
3. `Trace.lines_runFrames_arm`: the lines that a run reports.
-/

namespace RasterIrq

/-! ## Switching on -/

/-- A bus that has just been switched on or reset, with the usual pattern tables. -/
inductive Bus.Starting : Bus → Prop where
  | fresh {cart : Cartridge} {board : Board} (h : Board.ofCartridge cart = .ok board) :
    Starting { board }
  | hardReset (b : Bus) (hbackground : b.background = 0x0000) (hsprites : b.sprites = 0x1000) :
    Starting (b.reset true)

/-- What all starting buses have in common. -/
structure Bus.Idle (b : Bus) : Prop where
  irq : b.board.irq = {}
  irqLow : b.irqHigh = false
  background : b.background = 0x0000
  sprites : b.sprites = 0x1000
  frame : b.frame = 0

theorem Bus.Starting.idle {b : Bus} (h : b.Starting) : b.Idle := by
  cases h with
  | fresh h => exact ⟨(Board.ofCartridge_eq_ok h).2.1, rfl, rfl, rfl, rfl⟩
  | hardReset b hbackground hsprites => exact ⟨rfl, rfl, hbackground, hsprites, rfl⟩

namespace Trace

open Counter

/-! ## Arming -/

/-- The counter of a make that has just been armed. -/
def armedCounter (m : Chip.Make) (latch : UInt8) : Counter :=
  match m with
  | .mmc3 _ => ⟨0, latch.toUInt16, true, true, false⟩
  | .mapper222 => ⟨latch.toUInt16, latch.toUInt16, latch != 0, false, false⟩

/-- What the handler does to the counter of a make. -/
def rearming (m : Chip.Make) (latch : UInt8) : List Command :=
  match m with
  | .mmc3 _ => [.setEnabled false, .acknowledge, .setEnabled true]
  | .mapper222 => [.setReload latch.toUInt16, .setEnabled (latch != 0), .acknowledge]

theorem obeyAll_armWrites (m : Chip.Make) (latch : UInt8) :
    obeyAll m.counterConfig {} (m.commands (armWrites m.family latch)) = armedCounter m latch := by
  cases m with
  | mmc3 revision =>
    have hlatch : Mmc3.port 0xC000 = .irqLatch := by decide
    have hreload : Mmc3.port 0xC001 = .irqReload := by decide
    have henable : Mmc3.port 0xE001 = .irqEnable := by decide
    have hcommands : (Chip.Make.mmc3 revision).commands (armWrites .mmc3 latch)
        = [.setReload latch.toUInt16, .load 0, .forceReload, .setEnabled true] := by
      simp [Chip.Make.commands, armWrites, Mmc3.commands, hlatch, hreload, henable]
    exact congrArg (obeyAll revision.counterConfig {}) hcommands
  | mapper222 =>
    have hport : Mapper222.port? 0xF000 = some .irq := by decide
    have hcommands : Chip.Make.mapper222.commands (armWrites .mapper222 latch)
        = [.setReload latch.toUInt16, .setEnabled (latch != 0), .acknowledge] := by
      simp [Chip.Make.commands, armWrites, Mapper222.commands, hport]
    exact congrArg (obeyAll Mapper222.counterConfig {}) hcommands

theorem commands_handlerWrites (m : Chip.Make) (latch : UInt8) :
    m.commands (handlerWrites m.family latch) = rearming m latch := by
  cases m with
  | mmc3 revision =>
    have hdisable : Mmc3.port 0xE000 = .irqDisable := by decide
    have henable : Mmc3.port 0xE001 = .irqEnable := by decide
    simp [Chip.Make.commands, Chip.Make.family, handlerWrites, Mmc3.commands, rearming, hdisable,
      henable]
  | mapper222 =>
    have hport : Mapper222.port? 0xF000 = some .irq := by decide
    simp [Chip.Make.commands, Chip.Make.family, handlerWrites, Mapper222.commands, rearming, hport]

/-- A bus as a trace starts it. -/
structure Armed (o : Options) (latch : UInt8) (b armed : Bus) : Prop where
  synced : armed.Synced 0
  watch_eq : armed.watch = ⟨armedCounter b.board.chip.make latch, false⟩
  setup_eq : armed.setup
    = { b.setup with
        handler := if o.acknowledge then handlerWrites b.board.chip.family latch else b.handler }

theorem armed_arm {o : Options} {latch : UInt8} (hlatch : o.latch = some latch) {b : Bus}
    (h : b.Idle) : Armed o latch b (arm o b) := by
  have hirq := b.irq_writeAll (armWrites b.board.chip.family latch)
  have hsetup := b.setup_writeAll (armWrites b.board.chip.family latch)
  have hhigh : (b.writeAll (armWrites b.board.chip.family latch)).irqHigh = b.irqHigh := by
    rw [Bus.writeAll_eq]
  rw [h.irq, Chip.wiring_eq, Chip.family_eq] at hirq
  rw [Chip.family_eq] at hsetup hhigh
  rw [arm, hlatch]
  dsimp only
  rw [Chip.family_eq]
  generalize b.writeAll (armWrites b.board.chip.make.family latch) = written at *
  have harmed : written.board.irq = ⟨armedCounter b.board.chip.make latch, {}⟩ :=
    hirq.trans (congrArg (LineIrq.mk · {}) (obeyAll_armWrites b.board.chip.make latch))
  have hbackground : written.background = 0x0000 :=
    (congrArg Bus.Setup.background hsetup).trans h.background
  have hsprites : written.sprites = 0x1000 := (congrArg Bus.Setup.sprites hsetup).trans h.sprites
  have hsynced : written.Synced 0 := by
    refine ⟨?_, ?_, ?_, ?_⟩
    · rw [hbackground]
      rfl
    · rw [hsprites]
      rfl
    · rw [harmed]
    · intro t ht
      rw [harmed] at ht
      cases ht
  have hwatch : written.watch = ⟨armedCounter b.board.chip.make latch, false⟩ := by
    rw [Bus.watch, harmed, hhigh, h.irqLow]
  cases hack : o.acknowledge with
  | false => exact ⟨hsynced, hwatch, by rw [hack]; exact hsetup⟩
  | true =>
    refine ⟨⟨hsynced.background_low, hsynced.sprites_high, hsynced.line_low, hsynced.lastEdge_le⟩,
      hwatch, ?_⟩
    rw [hack, Chip.family_eq, ← hsetup]
    rfl

/-! ## When the line goes up -/

/-- What the second make ignores is a reload of zero that nothing forced. -/
theorem fires_mmc3 {revision : Mmc3.Revision} {c : Counter} (henabled : c.enabled = true)
    (hreloads : c.reloads = true)
    (h : c.reload ≠ 0 ∨ c.reloadPending = true ∨ revision = .sharp) :
    Fires revision.counterConfig (c.reload.toNat + 1) c
      { c with count := 0, reloadPending := false, pending := true } := by
  have htriggers : c.reload ≠ 0 ∨ c.reloadPending = true
      ∨ revision.counterConfig.zeroReloadTriggers = true :=
    h.imp_right (Or.imp_right fun hsharp => by rw [hsharp]; rfl)
  exact fires_of_reloads rfl henabled hreloads htriggers

/-- An MMC3 that is served: every `latch + 1` lines. The second make fires once on a latch of zero.
-/
theorem risesAt_mmc3 (revision : Mmc3.Revision) (latch : UInt8) (n : Nat) :
    Watch.risesAt revision.counterConfig (rearming (.mmc3 revision) latch)
        ⟨armedCounter (.mmc3 revision) latch, false⟩ n = true
      ↔ if revision = .nec ∧ latch = 0 then n + 1 = 1 else latch.toNat + 1 ∣ n + 1 := by
  split
  · next h =>
    obtain ⟨rfl, rfl⟩ := h
    have hfires : Fires Mmc3.Revision.nec.counterConfig 1 (armedCounter (.mmc3 .nec) 0)
        ⟨0, 0, true, false, true⟩ :=
      fires_mmc3 (c := armedCounter (.mmc3 .nec) 0) rfl rfl (.inr (.inl rfl))
    obtain ⟨hrises, hserved⟩ := Watch.line_of_fires (rearming (.mmc3 .nec) 0) hfires rfl
    have hline : Watch.line Mmc3.Revision.nec.counterConfig (rearming (.mmc3 .nec) 0)
        ⟨armedCounter (.mmc3 .nec) 0, false⟩ = ⟨⟨0, 0, true, false, false⟩, false⟩ := hserved
    -- The forced reload asserts once. After that the count stays at zero, and this make ignores it.
    cases n with
    | zero => exact hrises 0 Nat.one_pos
    | succ n =>
      rw [Watch.risesAt_succ, hline,
        Watch.risesAt_of_silent _ (silent_of_zero rfl rfl rfl rfl rfl) rfl]
      exact iff_of_false Bool.false_ne_true (by omega)
  · next h =>
    refine Watch.risesAt_of_periodic _
      (fun c => c.pending = false ∧ c.enabled = true ∧ c.reloads = true ∧
        c.reload = latch.toUInt16) ?_ ⟨rfl, rfl, rfl, rfl⟩ n
    -- Firing leaves a count of zero, so the next clock reloads again without being forced to.
    rintro c ⟨hpending, henabled, hreloads, hreload⟩
    have hnat : c.reload.toNat = latch.toNat := by rw [hreload, UInt8.toNat_toUInt16]
    have hcause : c.reload ≠ 0 ∨ c.reloadPending = true ∨ revision = .sharp := by
      cases revision with
      | sharp => exact .inr (.inr rfl)
      | nec =>
        refine .inl fun hzero => h ⟨rfl, UInt8.toNat_inj.mp ?_⟩
        rw [← hnat, hzero]
        rfl
    have hfires := fires_mmc3 henabled hreloads hcause
    rw [hnat] at hfires
    exact ⟨hpending, _, hfires, rfl, rfl, rfl, hreload⟩

theorem fires_armed_mapper222 {latch : UInt8} (h : latch ≠ 0) :
    Fires Mapper222.counterConfig (max 1 (240 - latch.toNat)) (armedCounter .mapper222 latch)
      ⟨0, latch.toUInt16, false, false, true⟩ := by
  have hnat : (armedCounter .mapper222 latch).count.toNat = latch.toNat :=
    UInt8.toNat_toUInt16 latch
  have hlt := latch.toNat_lt
  have hfires := fires_up (show Mapper222.counterConfig.direction = .up 240 from rfl)
    (show (armedCounter .mapper222 latch).enabled = true from bne_iff_ne.mpr h) (by omega)
  rw [hnat] at hfires
  exact hfires

theorem risesAt_zero_mapper222 (service : List Command) (n : Nat) :
    Watch.risesAt Mapper222.counterConfig service ⟨armedCounter .mapper222 0, false⟩ n = false :=
  Watch.risesAt_of_silent service (silent_of_disabled rfl) rfl n

/-- A Mapper 222 that is served: at the lines it takes to 240, again and again. -/
theorem risesAt_mapper222 (latch : UInt8) (n : Nat) :
    Watch.risesAt Mapper222.counterConfig (rearming .mapper222 latch)
        ⟨armedCounter .mapper222 latch, false⟩ n = true
      ↔ latch ≠ 0 ∧ max 1 (240 - latch.toNat) ∣ n + 1 := by
  by_cases h : latch = 0
  · subst h
    rw [risesAt_zero_mapper222]
    exact iff_of_false Bool.false_ne_true fun h => h.1 rfl
  · rw [and_iff_right h]
    refine Watch.risesAt_of_periodic _ (fun c => c = armedCounter .mapper222 latch) ?_ rfl n
    rintro c rfl
    exact ⟨rfl, _, fires_armed_mapper222 h, rfl⟩

/-! ## Without a handler -/

theorem risesAt_unserved_mmc3 (revision : Mmc3.Revision) (latch : UInt8) (n : Nat) :
    Watch.risesAt revision.counterConfig [] ⟨armedCounter (.mmc3 revision) latch, false⟩ n = true
      ↔ n + 1 = latch.toNat + 1 := by
  have hfires := fires_mmc3 (c := armedCounter (.mmc3 revision) latch) rfl rfl
    (.inr (.inl rfl) : _ ∨ _ ∨ revision = .sharp)
  exact (UInt8.toNat_toUInt16 latch ▸ Watch.risesAt_of_unserved hfires rfl n :)

theorem risesAt_unserved_mapper222 (latch : UInt8) (n : Nat) :
    Watch.risesAt Mapper222.counterConfig [] ⟨armedCounter .mapper222 latch, false⟩ n = true
      ↔ latch ≠ 0 ∧ n + 1 = max 1 (240 - latch.toNat) := by
  by_cases h : latch = 0
  · subst h
    rw [risesAt_zero_mapper222]
    exact iff_of_false Bool.false_ne_true fun h => h.1 rfl
  · rw [and_iff_right h]
    exact Watch.risesAt_of_unserved (fires_armed_mapper222 h) rfl n

/-! ## The schedule -/

/-- The lines of the `f`-th frame whose numbers are due, counted from -1 within the frame. -/
def dueLines (due : Nat → Bool) (f : Nat) : List Int :=
  ((List.range' (241 * f + 1) 241).filter due).map fun c : Nat => (c : Int) - 241 * f - 2

theorem reported_eq {cfg : Config} {service : List Command} {w : Watch} {due : Nat → Bool}
    (h : ∀ n, w.risesAt cfg service n = due (n + 1)) :
    w.reported cfg service = dueLines due := by
  funext f
  rw [Watch.reported, dueLines, List.range'_eq_map_range, List.filter_map, List.map_map]
  have hpred : (due ∘ fun l => 241 * f + 1 + l)
      = fun l => w.risesAt cfg service (241 * f + l) := by
    funext l
    rw [h, Function.comp_apply]
    congr 1
    omega
  rw [hpred]
  refine List.map_congr_left fun l _ => ?_
  simp only [Function.comp_apply]
  omega

/-- A run from an armed bus, in terms of the watch. -/
theorem Armed.lines_runFrames {o : Options} {latch : UInt8} {b armed : Bus}
    (h : Armed o latch b armed) (hframe : b.frame = 0) {n : Nat}
    (hfits : n * Raster.cyclesPerFrame ≤ 2 ^ 64) :
    (armed.runFrames n).1
      = (List.range n).map
        (Watch.reported b.board.chip.make.counterConfig
          (b.board.chip.make.commands
            (if o.acknowledge then handlerWrites b.board.chip.family latch else b.handler))
          ⟨armedCounter b.board.chip.make latch, false⟩) := by
  have hstart : armed.frame = 0 := (congrArg Bus.Setup.frame h.setup_eq).trans hframe
  have hsynced : armed.Synced (armed.frame * Raster.cyclesPerFrame) := by
    rw [hstart, Nat.zero_mul]
    exact h.synced
  rw [hsynced.lines_runFrames (by rw [hstart, Nat.zero_add]; exact hfits), h.watch_eq, h.setup_eq]
  rfl

/-- No command line asks for so many frames that their cycles do not fit in a word. -/
theorem frames_fit (o : Options) : o.frames.toNat * Raster.cyclesPerFrame ≤ 2 ^ 64 := by
  have hlt := o.frames.toNat_lt
  show o.frames.toNat * 89342 ≤ 2 ^ 64
  omega

/-- The interrupts of a run of any length whose cycles fit in a word. A served MMC3 interrupts at
every multiple of `latch + 1`, and a served Mapper 222 at every multiple of the way from its start
to 240. There are two exceptions: the second make of the MMC3 with a latch of zero interrupts once,
and a Mapper 222 that is started at zero never does. Without a handler there is one interrupt, at
the first of these lines. -/
theorem lines_runFrames_arm {b : Bus} (hb : b.Starting) {o : Options} {latch : UInt8}
    (hlatch : o.latch = some latch) {n : Nat} (hfits : n * Raster.cyclesPerFrame ≤ 2 ^ 64) :
    let lines := ((arm o b).runFrames n).1
    let way := max 1 (240 - latch.toNat)
    (o.acknowledge = true →
      (∀ revision, b.board.chip.make = .mmc3 revision →
        lines = (List.range n).map (dueLines fun c =>
          decide (if revision = .nec ∧ latch = 0 then c = 1 else latch.toNat + 1 ∣ c))) ∧
      (b.board.chip.make = .mapper222 →
        lines = (List.range n).map (dueLines fun c => decide (latch ≠ 0 ∧ way ∣ c)))) ∧
    (o.acknowledge = false → b.handler = [] →
      (∀ revision, b.board.chip.make = .mmc3 revision →
        lines = (List.range n).map (dueLines fun c => decide (c = latch.toNat + 1))) ∧
      (b.board.chip.make = .mapper222 →
        lines = (List.range n).map (dueLines fun c => decide (latch ≠ 0 ∧ c = way)))) := by
  have hidle := hb.idle
  have hlines := (armed_arm hlatch hidle).lines_runFrames hidle.frame hfits
  refine ⟨fun hack => ?_, fun hack hhandler => ?_⟩
  · rw [hack, if_pos rfl, Chip.family_eq, commands_handlerWrites] at hlines
    refine ⟨fun revision hmake => ?_, fun hmake => ?_⟩
    all_goals
      rw [hmake] at hlines
      refine hlines.trans (congrArg (List.map · _) (reported_eq fun k => ?_))
      rw [Bool.eq_iff_iff, decide_eq_true_iff]
    · exact risesAt_mmc3 revision latch k
    · exact risesAt_mapper222 latch k
  · rw [hack, if_neg Bool.false_ne_true, hhandler] at hlines
    refine ⟨fun revision hmake => ?_, fun hmake => ?_⟩
    all_goals
      rw [hmake] at hlines
      refine hlines.trans (congrArg (List.map · _) (reported_eq fun k => ?_))
      rw [Bool.eq_iff_iff, decide_eq_true_iff]
    · exact risesAt_unserved_mmc3 revision latch k
    · exact risesAt_unserved_mapper222 latch k

/-- A blank MMC3 cartridge with a latch of 20 interrupts at every 21st line, whatever number of frames
a command line asks for. Two frames come out of step by 11 lines. -/
theorem lines_runFrames_arm_blank :
    ∃ board, Board.ofCartridge (Cartridge.blank 4 0 16 128) = .ok board ∧
      (∀ o : Options, o.latch = some 20 → o.acknowledge = true →
        ((arm o { board }).runFrames o.frames.toNat).1
          = (List.range o.frames.toNat).map (dueLines fun c => decide (21 ∣ c))) ∧
      ((arm { latch := some 20 } { board }).runFrames 2).1
        = [[19, 40, 61, 82, 103, 124, 145, 166, 187, 208, 229],
          [9, 30, 51, 72, 93, 114, 135, 156, 177, 198, 219]] := by
  obtain ⟨board, hboard, hchip⟩ := Board.exists_ofCartridge_blank
    (show Family.ofNumber? 4 = some .mmc3 from rfl) 0 16 128
  have hmake : board.chip.make = .mmc3 .sharp := by rw [hchip]; rfl
  have hlines : ∀ o : Options, o.latch = some 20 → o.acknowledge = true →
      ((arm o { board }).runFrames o.frames.toNat).1
        = (List.range o.frames.toNat).map (dueLines fun c => decide (21 ∣ c)) :=
    fun o hlatch hack =>
      ((lines_runFrames_arm (.fresh hboard) hlatch (frames_fit o)).1 hack).1 .sharp hmake
  exact ⟨board, hboard, hlines,
    (hlines { latch := some 20, frames := 2 } rfl rfl).trans (by decide)⟩

end Trace

end RasterIrq
