import RasterIrq.Proofs.Board.Resume
import RasterIrq.Proofs.Bus.Lines

/-!
# Resuming on a bus that starts again

A board that loads what another one saved may stand on a bus whose cycle count starts again at zero.
The cycle of the last clean edge then lies in a time that has not come yet. All the same the two
buses stay in step: they never differ in anything but that cycle, because both monitors are ready
for every line, and what a line does to a monitor that is ready for it does not depend on the time.

Results:
1. `LineIrq.timeless_notifyAll_line`: what a line does, but for the time.
2. `Bus.InStep.playLine`, `Bus.InStep.runFrame`: lines and frames keep buses in step.
3. `Bus.InStep.views_eq`: buses in step show the same.
4. `Bus.restart_resumes`: a bus that starts again with a saved board goes on as the old one does.
-/

namespace RasterIrq

/-! ## Without the time -/

/-- A monitor without the cycle of its last clean edge. -/
def Monitor.timeless (m : Monitor) : Monitor :=
  { m with lastEdge := none }

namespace LineIrq

def timeless (u : LineIrq) : LineIrq :=
  { u with monitor := u.monitor.timeless }

/-- What a line makes of the interrupt side, but for the time. -/
def afterLine (cfg : Counter.Config) (background sprites : Bool) (u : LineIrq) : LineIrq :=
  let edges := (Raster.risingDots u.monitor.lineHigh background sprites).length
  ⟨(Counter.clock cfg)^[edges] u.counter,
    ⟨background, none, u.monitor.cleanEdges + UInt64.ofNat edges⟩⟩

theorem timeless_notifyAll_line {u : LineIrq} {start : UInt64} {background sprites : UInt16}
    (h : u.monitor.Ready (Line.level background) (Line.level sprites) start.toNat)
    (hfits : start.toNat + 341 ≤ 2 ^ 64) (cfg : Counter.Config) :
    (u.notifyAll ⟨EdgeSpacing.standardWindow, cfg⟩ (Raster.line start background sprites)).timeless
      = u.timeless.afterLine cfg (Line.level background) (Line.level sprites) := by
  rw [notifyAll_eq, timeless, Monitor.timeless, (h.lineSeen hfits).lineHigh_eq,
    Monitor.cleanEdges_observeAll, h.edges_line hfits, List.length_map]
  rfl

end LineIrq

namespace Board

def timeless (b : Board) : Board :=
  { b with irq := b.irq.timeless }

theorem timeless_write (b : Board) (addr : UInt16) (value : UInt8) :
    (b.write addr value).timeless = b.timeless.write addr value := by
  by_cases hrom : 0x8000 ≤ addr
  · rw [write, if_pos hrom, write, if_pos hrom]
    rfl
  · rw [write, if_neg hrom, write, if_neg hrom]
    show (if 0x6000 ≤ addr ∧ b.chip.ramWritable then _ else b).timeless
      = if 0x6000 ≤ addr ∧ b.chip.ramWritable then _ else b.timeless
    split <;> rfl

theorem Alike.timeless {a b : Board} (h : Alike a b) : Alike a.timeless b.timeless :=
  ⟨⟨h.prg, h.chrCount, h.chrIsRam, h.wired, h.make⟩, h.chip, congrArg LineIrq.timeless h.irq⟩

end Board

namespace Bus

/-! ## Buses in step -/

/-- The buses differ at most in the time of the last clean edge, the contents of memories, the
number of their frame, and the rises noted so far. -/
structure InStep (a b : Bus) : Prop where
  board : Board.Alike a.board.timeless b.board.timeless
  irqHigh : a.irqHigh = b.irqHigh
  handler : a.handler = b.handler
  background : a.background = b.background
  sprites : a.sprites = b.sprites

namespace InStep

variable {a b : Bus}

theorem counter (h : InStep a b) : a.board.irq.counter = b.board.irq.counter :=
  (congrArg LineIrq.counter h.board.irq :)

theorem pending (h : InStep a b) : a.board.pending = b.board.pending :=
  congrArg Counter.pending h.counter

theorem rising (h : InStep a b) : a.rising = b.rising := by
  rw [Bus.rising, Bus.rising, h.pending, h.irqHigh]

theorem write (h : InStep a b) (addr : UInt16) (value : UInt8) :
    InStep (a.write addr value) (b.write addr value) := by
  unfold Bus.write
  cases reachesBoard addr with
  | false => exact h
  | true =>
    refine ⟨?_, h.irqHigh, h.handler, h.background, h.sprites⟩
    show Board.Alike (a.board.write addr value).timeless (b.board.write addr value).timeless
    rw [Board.timeless_write, Board.timeless_write]
    exact h.board.perform (.write addr value)

theorem writeAll (h : InStep a b) (writes : List (UInt16 × UInt8)) :
    InStep (a.writeAll writes) (b.writeAll writes) := by
  induction writes generalizing a b with
  | nil => exact h
  | cons w rest ih => exact ih (h.write w.1 w.2)

theorem runHandler (h : InStep a b) : InStep (a.writeAll a.handler) (b.writeAll b.handler) := by
  rw [h.handler]
  exact h.writeAll b.handler

theorem serve (h : InStep a b) (cycle cycle' : UInt64) :
    InStep (a.serve cycle) (b.serve cycle') := by
  have hnoted : InStep { a with rises := a.rises.push cycle }
      { b with rises := b.rises.push cycle' } :=
    ⟨h.board, h.irqHigh, h.handler, h.background, h.sprites⟩
  exact hnoted.runHandler

theorem poll (h : InStep a b) (cycle cycle' : UInt64) :
    InStep (a.poll cycle) (b.poll cycle') := by
  have hnoted : ∀ {c d : Bus}, InStep c d →
      InStep { c with irqHigh := c.board.pending } { d with irqHigh := d.board.pending } :=
    fun h => ⟨h.board, h.pending, h.handler, h.background, h.sprites⟩
  unfold Bus.poll
  rw [h.rising]
  cases b.rising with
  | false => exact hnoted h
  | true => exact hnoted (h.serve cycle cycle')

theorem withIrq (h : InStep a b) {u v : LineIrq} (huv : u.timeless = v.timeless) :
    InStep (a.withIrq u) (b.withIrq v) :=
  ⟨⟨⟨h.board.prg, h.board.chrCount, h.board.chrIsRam, h.board.wired, h.board.make⟩, h.board.chip,
    huv⟩, h.irqHigh, h.handler, h.background, h.sprites⟩

theorem withFrame (h : InStep a b) (n n' : Nat) :
    InStep { a with frame := n } { b with frame := n' } :=
  ⟨h.board, h.irqHigh, h.handler, h.background, h.sprites⟩

theorem reset (h : InStep a b) : InStep (a.reset false) (b.reset false) :=
  ⟨h.board.perform (.reset false), rfl, h.handler, h.background, h.sprites⟩

end InStep

/-! ## Lines and frames -/

theorem InStep.fetchLine {a b : Bus} (h : InStep a b) {start start' : UInt64}
    (ha : a.LineReady start.toNat) (hb : b.LineReady start'.toNat)
    (hfits : start.toNat + 341 ≤ 2 ^ 64) (hfits' : start'.toNat + 341 ≤ 2 ^ 64) :
    InStep (a.fetchLine start) (b.fetchLine start') := by
  have hirq : a.board.irq.timeless = b.board.irq.timeless := h.board.irq
  have hmake : a.board.chip.make = b.board.chip.make := h.board.make
  refine h.withIrq ?_
  rw [Chip.wiring_eq, Chip.wiring_eq, LineIrq.timeless_notifyAll_line ha hfits,
    LineIrq.timeless_notifyAll_line hb hfits', hirq, hmake, h.background, h.sprites]

theorem InStep.playLine {a b : Bus} (h : InStep a b) {start start' : UInt64}
    (ha : a.LineReady start.toNat) (hb : b.LineReady start'.toNat)
    (hfits : start.toNat + 341 ≤ 2 ^ 64) (hfits' : start'.toNat + 341 ≤ 2 ^ 64) :
    InStep (a.playLine start) (b.playLine start') := by
  rw [playLine_eq, playLine_eq]
  exact (h.fetchLine ha hb hfits hfits').poll _ _

theorem InStep.playLines {a b : Bus} (h : InStep a b) {start start' : UInt64}
    (ha : a.LineReady start.toNat) (hb : b.LineReady start'.toNat) (count : Nat)
    (hfits : start.toNat + count * Raster.dotsPerLine ≤ 2 ^ 64)
    (hfits' : start'.toNat + count * Raster.dotsPerLine ≤ 2 ^ 64) :
    InStep (a.playLines start count) (b.playLines start' count) := by
  have hdots : Raster.dotsPerLine = 341 := rfl
  induction count with
  | zero => exact h
  | succ count ih =>
    rw [Nat.succ_mul] at hfits hfits'
    have hstart := Raster.toNat_lineStart start count (by omega)
    have hstart' := Raster.toNat_lineStart start' count (by omega)
    exact (ih (by omega) (by omega)).playLine (ha.playLines count (by omega))
      (hb.playLines count (by omega)) (by omega) (by omega)

theorem InStep.risenLines_eq {a b : Bus} (h : InStep a b) {start start' : UInt64}
    (ha : a.LineReady start.toNat) (hb : b.LineReady start'.toNat) (count : Nat)
    (hfits : start.toNat + count * Raster.dotsPerLine ≤ 2 ^ 64)
    (hfits' : start'.toNat + count * Raster.dotsPerLine ≤ 2 ^ 64) :
    a.risenLines start count = b.risenLines start' count := by
  have hdots : Raster.dotsPerLine = 341 := rfl
  refine List.filter_congr fun n hn => ?_
  have hbefore : (n + 1) * Raster.dotsPerLine ≤ count * Raster.dotsPerLine :=
    Nat.mul_le_mul_right _ (List.mem_range.mp hn)
  rw [Nat.succ_mul] at hbefore
  have hstart := Raster.toNat_lineStart start n (by omega)
  have hstart' := Raster.toNat_lineStart start' n (by omega)
  have hplayed := h.playLines ha hb n (by omega) (by omega)
  exact (hplayed.fetchLine (ha.playLines n (by omega)) (hb.playLines n (by omega)) (by omega)
    (by omega)).rising

/-- A frame keeps buses in step, whichever their frames are. -/
theorem InStep.runFrame {a b : Bus} (h : InStep a b) (ha : a.picture.Ready) (hb : b.picture.Ready)
    (hfits : a.FrameFits) (hfits' : b.FrameFits) :
    a.runFrame.1 = b.runFrame.1 ∧ InStep (a.perform .runFrame) (b.perform .runFrame) := by
  have hready := ha.lineReady hfits
  have hready' := hb.lineReady hfits'
  have hrisen := h.risenLines_eq hready hready' 241 (fits_lines hfits) (fits_lines hfits')
  have hplayed := h.playLines hready hready' 241 (fits_lines hfits) (fits_lines hfits')
  refine ⟨?_, ?_⟩
  · rw [lines_runFrame_eq hfits, lines_runFrame_eq hfits', hrisen]
  · rw [perform_runFrame, perform_runFrame, playFrame_eq_playLines hfits,
      playFrame_eq_playLines hfits']
    exact hplayed.withFrame _ _

/-! ## Operations -/

theorem InStep.perform {a b : Bus} (h : InStep a b) (ha : a.picture.Ready) (hb : b.picture.Ready)
    {op : Operation} {ops : List Operation} (hfits : a.RunFits (op :: ops))
    (hfits' : b.RunFits (op :: ops)) : InStep (a.perform op) (b.perform op) := by
  cases op with
  | runFrame => exact (h.runFrame ha hb hfits.frameFits hfits'.frameFits).2
  | read addr => exact h
  | write addr value => exact h.write addr value
  | poll cycle => exact h.poll cycle cycle
  | setHandler writes => exact ⟨h.board, h.irqHigh, rfl, h.background, h.sprites⟩
  | softReset => exact h.reset

/-- The lines that an operation reports. -/
def reported (b : Bus) : Operation → List Int
  | .runFrame => b.runFrame.1
  | .read _ => []
  | .write _ _ => []
  | .poll _ => []
  | .setHandler _ => []
  | .softReset => []

theorem InStep.reported_eq {a b : Bus} (h : InStep a b) (ha : a.picture.Ready)
    (hb : b.picture.Ready) {op : Operation} {ops : List Operation} (hfits : a.RunFits (op :: ops))
    (hfits' : b.RunFits (op :: ops)) : a.reported op = b.reported op := by
  cases op with
  | runFrame => exact (h.runFrame ha hb hfits.frameFits hfits'.frameFits).1
  | _ => rfl

/-- What an operation reports, and what the board shows after it. -/
structure View where
  lines : List Int
  pending : Bool
  count : UInt16
  banks : List UInt8
  mirroring : Mirroring
  cleanEdges : UInt64
deriving DecidableEq, Repr

def view (lines : List Int) (b : Bus) : View where
  lines := lines
  pending := b.board.pending
  count := b.board.count
  banks := b.board.chip.banks
  mirroring := b.board.mirroring
  cleanEdges := b.board.irq.monitor.cleanEdges

/-- The views of a run, operation by operation. -/
def views (b : Bus) : List Operation → List View
  | [] => []
  | op :: ops => (b.perform op).view (b.reported op) :: (b.perform op).views ops

theorem InStep.view_eq {a b : Bus} (h : InStep a b) (lines : List Int) :
    a.view lines = b.view lines := by
  have hchip : a.board.chip = b.board.chip := h.board.chip
  have hwired : a.board.wired = b.board.wired := h.board.wired
  have hedges : a.board.irq.monitor.cleanEdges = b.board.irq.monitor.cleanEdges :=
    (congrArg (fun u : LineIrq => u.monitor.cleanEdges) h.board.irq :)
  unfold view Board.count Board.mirroring
  rw [h.pending, h.counter, hchip, hwired, hedges]

/-- Buses in step show the same all along a run. -/
theorem InStep.views_eq {a b : Bus} (h : InStep a b) (ha : a.picture.Ready)
    (hb : b.picture.Ready) {ops : List Operation} (hfits : a.RunFits ops) (hfits' : b.RunFits ops) :
    a.views ops = b.views ops := by
  induction ops generalizing a b with
  | nil => rfl
  | cons op ops ih =>
    have hafter := h.perform ha hb hfits hfits'
    rw [views, views, h.reported_eq ha hb hfits hfits', hafter.view_eq,
      ih hafter (ha.perform hfits) (hb.perform hfits') hfits.tail hfits'.tail]

/-! ## The build of the board -/

theorem sameBuild_write (b : Bus) (addr : UInt16) (value : UInt8) :
    Board.SameBuild b.board (b.write addr value).board := by
  unfold write
  split
  · exact Board.SameBuild.write b.board addr value
  · exact Board.SameBuild.refl b.board

theorem sameBuild_writeAll (b : Bus) (writes : List (UInt16 × UInt8)) :
    Board.SameBuild b.board (b.writeAll writes).board := by
  induction writes generalizing b with
  | nil => exact Board.SameBuild.refl b.board
  | cons w rest ih => exact (sameBuild_write b w.1 w.2).trans (ih (b.write w.1 w.2))

theorem sameBuild_poll (b : Bus) (cycle : UInt64) :
    Board.SameBuild b.board (b.poll cycle).board := by
  unfold poll
  cases b.rising with
  | false => exact Board.SameBuild.refl b.board
  | true => exact sameBuild_writeAll { b with rises := b.rises.push cycle } b.handler

theorem sameBuild_apply (b : Bus) (e : TimedEvent) :
    Board.SameBuild b.board (b.apply e).board := by
  unfold apply
  cases e.event with
  | write addr value => exact sameBuild_write b addr value
  | fetch addr => exact Board.SameBuild.perform b.board (.notify addr e.cycle)
  | poll => exact sameBuild_poll b e.cycle

theorem sameBuild_playAll (b : Bus) (events : List TimedEvent) :
    Board.SameBuild b.board (b.playAll events).board := by
  induction events generalizing b with
  | nil => exact Board.SameBuild.refl b.board
  | cons e rest ih => exact (sameBuild_apply b e).trans (ih (b.apply e))

theorem sameBuild_nextFrame {b played : Bus} (h : Board.SameBuild b.board played.board)
    (hplay : b.playFrame = { played with frame := b.frame + 1 }) :
    Board.SameBuild b.board b.playFrame.board := by
  rw [hplay]
  exact h

theorem sameBuild_run (b : Bus) (ops : List Operation) :
    Board.SameBuild b.board (b.run ops).board := by
  induction ops generalizing b with
  | nil => exact Board.SameBuild.refl b.board
  | cons op ops ih =>
    rw [run_cons]
    refine Board.SameBuild.trans ?_ (ih (b.perform op))
    cases op with
    | runFrame =>
      rw [perform_runFrame]
      exact sameBuild_nextFrame (sameBuild_playAll b _) rfl
    | read addr => exact Board.SameBuild.refl b.board
    | write addr value => exact sameBuild_write b addr value
    | poll cycle => exact sameBuild_poll b cycle
    | setHandler writes => exact Board.SameBuild.refl b.board
    | softReset => exact Board.SameBuild.reset false b.board

/-! ## Resuming -/

/-- A bus that starts again at cycle zero, with the tables and the handler of an old one, loads what
the board of the old one saved between two frames. If the interrupt line of the old bus was low at
its last poll, the two show the same after everything that happens from then on. -/
theorem restart_resumes {cart : Cartridge} {board : Board}
    (hboard : Board.ofCartridge cart = .ok board) (background sprites : UInt16)
    {past future : List Operation}
    (hfits : (framesOf past + framesOf future) * Raster.cyclesPerFrame ≤ 2 ^ 64)
    (hlow : ((({ board } : Bus).setTables background sprites).run past).irqHigh = false) :
    let new := ({ board } : Bus).setTables background sprites
    let old := new.run past
    ∃ loaded, board.load old.board.save = .ok loaded ∧
      { new with board := loaded, handler := old.handler }.views future = old.views future := by
  intro new old
  have hnew : new.picture = ⟨{}, 0, background &&& 0x1000, sprites &&& 0x1000⟩ :=
    picture_setTables hboard (show framesOf [] = 0 from rfl) background sprites
  have hruns : new.RunFits past := by
    rw [RunFits, frame_of_picture hnew, Nat.zero_add]
    exact Nat.le_trans (Nat.mul_le_mul_right _ (Nat.le_add_right _ _)) hfits
  have hdrawn : old.picture.Drawn := Picture.Drawn.run (hnew ▸ .of_new rfl rfl) hruns
  have hframe : old.frame = framesOf past := by
    rw [frame_run, frame_of_picture hnew, Nat.zero_add]
  obtain ⟨hbackground, hsprites⟩ := tables_run new past
  obtain ⟨loaded, hload, halike⟩ := Board.alike_of_load_save (sameBuild_run new past)
  refine ⟨loaded, hload, ?_⟩
  have hstep : InStep { new with board := loaded, handler := old.handler } old :=
    ⟨halike.timeless, hlow.symm, rfl, hbackground.symm, hsprites.symm⟩
  -- The new bus has the monitor of the old one, but stands in front of its first frame.
  have hpicture : ({ new with board := loaded, handler := old.handler } : Bus).picture
      = { old.picture with frame := 0 } := by
    rw [picture, picture, halike.irq, hbackground, hsprites]
    rfl
  refine hstep.views_eq ?_ hdrawn.ready ?_ ?_
  · rw [hpicture]
    exact hdrawn.ready_restarted
  · rw [RunFits, frame_of_picture hpicture, Nat.zero_add]
    exact Nat.le_trans (Nat.mul_le_mul_right _ (Nat.le_add_left _ _)) hfits
  · rw [RunFits, hframe]
    exact hfits

/-- A blank MMC3 cartridge, saved after a frame: the last clean edge lies at cycle 82101, in the
last line of the frame that the new bus draws first. -/
theorem restart_resumes_blank :
    let past : List Operation :=
      [.write 0xC000 20, .write 0xC001 0, .write 0xE001 0,
        .setHandler [(0xE000, 0), (0xE001, 0)], .runFrame, .softReset]
    let future : List Operation := [.runFrame, .write 0xC000 7, .runFrame]
    ∃ board, Board.ofCartridge (Cartridge.blank 4 0 16 128) = .ok board ∧
      (framesOf past + framesOf future) * Raster.cyclesPerFrame ≤ 2 ^ 64 ∧
      ((({ board } : Bus).setTables 0x0000 0x1000).run past).irqHigh = false ∧
      let new := ({ board } : Bus).setTables 0x0000 0x1000
      let old := new.run past
      ∃ loaded, board.load old.board.save = .ok loaded ∧
        { new with board := loaded, handler := old.handler }.views future = old.views future := by
  intro past future
  obtain ⟨board, hboard, -⟩ := Board.exists_ofCartridge_blank
    (show Family.ofNumber? 4 = some .mmc3 from rfl) 0 16 128
  have hfits : (framesOf past + framesOf future) * Raster.cyclesPerFrame ≤ 2 ^ 64 := by decide
  have hlow : ((({ board } : Bus).setTables 0x0000 0x1000).run past).irqHigh = false := rfl
  exact ⟨board, hboard, hfits, hlow, restart_resumes hboard 0x0000 0x1000 hfits hlow⟩

end Bus

end RasterIrq
