import RasterIrq.Proofs.Bus.Operations

/-!
# The clean edges of a run

`Bus.edges` lists the cycles of the clean edges that happen while a bus goes through some
operations. On a bus that gets its tables before its first frame the list does not depend on what
happens between the frames: all lines have their edges at the same dots, and the first line of all
may have one more.

Results:
1. `Bus.cleanEdges_run`: every clean edge of a run is counted.
2. `Bus.edges_run`: the clean edges of a run, frame by frame.
3. `Bus.edges_run_setTables`: the clean edges and their count, for every pair of tables.
-/

namespace RasterIrq

namespace Bus

/-- Whether an event makes a clean edge. -/
def cleanEdge (b : Bus) (e : TimedEvent) : Bool :=
  match e.event with
  | .fetch addr => b.board.irq.monitor.cleanEdge b.board.chip.wiring.window addr e.cycle
  | .write _ _ => false
  | .poll => false

/-- The cycles of the clean edges that some events make. -/
def edgesIn (b : Bus) : List TimedEvent → List UInt64
  | [] => []
  | e :: rest =>
    let later := (b.apply e).edgesIn rest
    if b.cleanEdge e then e.cycle :: later else later

/-- The cycles of the clean edges that an operation makes. Only a frame has fetches. -/
def edgesOf (b : Bus) : Operation → List UInt64
  | .runFrame => b.edgesIn (Raster.frame b.frameStart b.background b.sprites).events
  | .read _ => []
  | .write _ _ => []
  | .poll _ => []
  | .setHandler _ => []
  | .softReset => []

/-- The cycles of the clean edges of a run. -/
def edges (b : Bus) : List Operation → List UInt64
  | [] => []
  | op :: ops => b.edgesOf op ++ (b.perform op).edges ops

theorem edgesOf_of_ne (b : Bus) {op : Operation} (hop : op ≠ .runFrame) : b.edgesOf op = [] := by
  cases op with
  | runFrame => exact absurd rfl hop
  | _ => rfl

/-! ## Counting -/

theorem edgesIn_eq (b : Bus) (events : List TimedEvent) :
    b.edgesIn events
      = b.board.irq.monitor.edges EdgeSpacing.standardWindow
        (events.filterMap TimedEvent.fetch?) := by
  induction events generalizing b with
  | nil => rfl
  | cons e rest ih =>
    rw [edgesIn, ih, monitor_of_picture (picture_apply b e)]
    obtain ⟨cycle, event⟩ := e
    cases event with
    | write addr value => rfl
    | poll => rfl
    | fetch addr =>
      rw [cleanEdge, Chip.wiring_eq]
      rfl

theorem cleanEdges_perform (b : Bus) (op : Operation) :
    (b.perform op).board.irq.monitor.cleanEdges
      = b.board.irq.monitor.cleanEdges + UInt64.ofNat (b.edgesOf op).length := by
  by_cases hop : op = .runFrame
  · rw [hop, monitor_of_picture (picture_runFrame b), Monitor.cleanEdges_observeAll, edgesOf,
      edgesIn_eq]
  · rw [monitor_of_picture (picture_perform b hop), edgesOf_of_ne b hop]
    exact (UInt64.add_zero _).symm

/-- Every clean edge of a run is counted. -/
theorem cleanEdges_run (b : Bus) (ops : List Operation) :
    (b.run ops).board.irq.monitor.cleanEdges
      = b.board.irq.monitor.cleanEdges + UInt64.ofNat (b.edges ops).length := by
  induction ops generalizing b with
  | nil => exact (UInt64.add_zero _).symm
  | cons op ops ih =>
    rw [run_cons, ih, cleanEdges_perform, edges, List.length_append, UInt64.ofNat_add,
      UInt64.add_assoc]

end Bus

/-! ## Frames -/

namespace Raster

/-- The cycle at a dot of a line, counted from the first frame on. The pre-render line is line 0. -/
def cycleOf (frame line dot : Nat) : UInt64 :=
  UInt64.ofNat (frame * cyclesPerFrame + line * dotsPerLine + dot)

/-- These dots of all lines of a frame. -/
def frameDots (dots : List Nat) (frame : Nat) : List UInt64 :=
  (List.range (visibleLines + 1)).flatMap fun line => dots.map (cycleOf frame line)

/-- These dots of all lines of the first frames. -/
def everyLine (frames : Nat) (dots : List Nat) : List UInt64 :=
  (List.range frames).flatMap (frameDots dots)

theorem length_everyLine (frames : Nat) (dots : List Nat) :
    (everyLine frames dots).length = 241 * frames * dots.length := by
  have hlines : visibleLines + 1 = 241 := rfl
  simp only [everyLine, frameDots, List.length_flatMap, List.length_map, List.map_const',
    List.sum_replicate_nat, List.length_range, hlines]
  rw [← Nat.mul_assoc, Nat.mul_comm frames]

theorem everyLine_nil (frames : Nat) : everyLine frames [] = [] :=
  List.length_eq_zero_iff.mp ((length_everyLine frames []).trans (Nat.mul_zero _))

theorem atDots_frameStart (frame : Nat) (dots : List Nat) :
    atDots (UInt64.ofNat (frame * cyclesPerFrame)) dots 241 = frameDots dots frame := by
  have hcycle : ∀ line dot,
      lineStart (UInt64.ofNat (frame * cyclesPerFrame)) line + UInt64.ofNat dot
        = cycleOf frame line dot := by
    intro line dot
    rw [lineStart, cycleOf, UInt64.ofNat_add, UInt64.ofNat_add]
  rw [atDots, frameDots]
  simp only [hcycle]
  rfl

/-- The clean edges of a frame of a bus that has its tables from the first frame on. -/
def frameEdges (background sprites : Bool) (frame : Nat) : List UInt64 :=
  (if background && decide (frame = 0) then [cycleOf 0 0 5] else [])
    ++ frameDots (steadyDots background sprites) frame

theorem frameEdges_succ (background sprites : Bool) (frame : Nat) :
    frameEdges background sprites (frame + 1)
      = frameDots (steadyDots background sprites) (frame + 1) := by
  rw [frameEdges, decide_eq_false (Nat.succ_ne_zero frame), Bool.and_false,
    if_neg Bool.false_ne_true, List.nil_append]

theorem flatMap_frameEdges (background sprites : Bool) (frames : Nat) :
    (List.range frames).flatMap (frameEdges background sprites)
      = (if background && decide (0 < frames) then [cycleOf 0 0 5] else [])
        ++ everyLine frames (steadyDots background sprites) := by
  cases frames with
  | zero =>
    rw [decide_eq_false (Nat.lt_irrefl 0), Bool.and_false, if_neg Bool.false_ne_true]
    rfl
  | succ frames =>
    rw [everyLine, List.range_succ_eq_map, List.flatMap_cons, List.flatMap_cons, List.flatMap_map,
      List.flatMap_map, frameEdges, List.append_assoc, decide_eq_true (Nat.succ_pos frames)]
    simp only [Nat.succ_eq_add_one, frameEdges_succ, decide_true]

end Raster

namespace Bus

/-- The clean edges of the next frame. -/
theorem edgesOf_runFrame {b : Bus} (h : b.picture.Drawn) (hfits : b.FrameFits) :
    b.edgesOf .runFrame
      = Raster.frameEdges (Line.level b.background) (Line.level b.sprites) b.frame := by
  have hhigh : b.board.irq.monitor.lineHigh = (Line.level b.background && decide (0 < b.frame)) :=
    h.lineHigh_eq
  obtain ⟨-, hedges⟩ := (h.ready.lineReady hfits).linesSeen 240 (fits_lines hfits)
  rw [edgesOf, edgesIn_eq, Raster.fetch?_frame (fits_frameStart hfits)]
  refine hedges.trans (congrArg₂ (· ++ ·) ?_ (Raster.atDots_frameStart b.frame _))
  -- Between frames the line keeps the background's level, so it is low in the first frame only.
  have hlow : (Line.level b.background && !b.board.irq.monitor.lineHigh)
      = (Line.level b.background && decide (b.frame = 0)) := by
    rw [hhigh]
    cases Line.level b.background <;> simp [Nat.pos_iff_ne_zero]
  rw [hlow]
  refine ite_congr rfl (fun hfirst => ?_) fun _ => rfl
  have hframe : b.frame = 0 := of_decide_eq_true (Bool.and_eq_true_iff.mp hfirst).2
  rw [frameStart, hframe]
  rfl

/-- The clean edges of the next `n` frames. -/
def Picture.edges (p : Picture) (n : Nat) : List UInt64 :=
  (List.range n).flatMap fun f =>
    Raster.frameEdges (Line.level p.background) (Line.level p.sprites) (p.frame + f)

theorem Picture.edges_succ (p : Picture) (seen : Monitor) (n : Nat) :
    p.edges (n + 1)
      = Raster.frameEdges (Line.level p.background) (Line.level p.sprites) p.frame
        ++ { p with monitor := seen, frame := p.frame + 1 }.edges n := by
  rw [edges, edges, List.range_succ_eq_map, List.flatMap_cons, List.flatMap_map]
  simp only [Nat.add_zero, Nat.succ_eq_add_one, Nat.add_assoc, Nat.add_comm 1]

/-- The clean edges of a run. What happens between the frames does not matter. -/
theorem edges_run {b : Bus} (h : b.picture.Drawn) {ops : List Operation} (hfits : b.RunFits ops) :
    b.edges ops = b.picture.edges (framesOf ops) := by
  induction ops generalizing b with
  | nil => rfl
  | cons op ops ih =>
    rw [edges, ih (h.perform hfits) hfits.tail]
    by_cases hop : op = .runFrame
    · subst hop
      rw [edgesOf_runFrame h hfits.frameFits, framesOf_runFrame, picture_runFrame,
        Picture.edges_succ]
      rfl
    · rw [edgesOf_of_ne b hop, framesOf_of_ne hop, picture_perform b hop, List.nil_append]

/-! ## From the start -/

section

variable {start : Bus} {background sprites : UInt16} {ops : List Operation}
  (hnew : start.picture = ⟨{}, 0, background, sprites⟩)
  (hfits : framesOf ops * Raster.cyclesPerFrame ≤ 2 ^ 64)

include hnew hfits

theorem edges_of_new :
    start.edges ops
      = (if Line.level background && decide (0 < framesOf ops) then [Raster.cycleOf 0 0 5] else [])
        ++ Raster.everyLine (framesOf ops)
          (Raster.steadyDots (Line.level background) (Line.level sprites)) := by
  have hdrawn : start.picture.Drawn := by
    rw [hnew]
    exact .of_new rfl rfl
  have hframe : start.frame = 0 := frame_of_picture hnew
  have hruns : start.RunFits ops := by rwa [RunFits, hframe, Nat.zero_add]
  rw [edges_run hdrawn hruns, hnew, ← Raster.flatMap_frameEdges, Picture.edges]
  simp only [Nat.zero_add]

theorem length_edges_le : (start.edges ops).length ≤ 241 * framesOf ops + 1 := by
  have hone : ∀ background sprites, (Raster.steadyDots background sprites).length ≤ 1 := by decide
  have hlines := Nat.mul_le_mul_left (241 * framesOf ops)
    (hone (Line.level background) (Line.level sprites))
  rw [edges_of_new hnew hfits, List.length_append, Raster.length_everyLine, Nat.add_comm]
  refine Nat.add_le_add (Nat.le_trans hlines (Nat.le_of_eq (Nat.mul_one _))) ?_
  split <;> decide

/-- The count in what is saved does not wrap around. -/
theorem toNat_cleanEdges_of_new :
    (start.run ops).board.record.monitor.cleanEdges.toNat = (start.edges ops).length := by
  have hlength := length_edges_le hnew hfits
  have hframes : framesOf ops * 89342 ≤ 2 ^ 64 := hfits
  have hrun := cleanEdges_run start ops
  rw [monitor_of_picture hnew, UInt64.zero_add] at hrun
  show (start.run ops).board.irq.monitor.cleanEdges.toNat = _
  rw [hrun, UInt64.toNat_ofNat', Nat.mod_eq_of_lt (by omega)]

end

/-- The clean edges of a run of any length whose cycles fit in a word, and their count in what is
saved. Sprites in the upper table make one edge on every line. A background in the upper table makes
one at the end of every line and one more on the first line of all; with the sprites there as well,
that first one is the only one. -/
theorem edges_run_setTables {cart : Cartridge} {board : Board}
    (hboard : Board.ofCartridge cart = .ok board) {before : List Operation}
    (hbefore : framesOf before = 0) (background sprites : UInt16) {ops : List Operation}
    (hfits : framesOf ops * Raster.cyclesPerFrame ≤ 2 ^ 64) :
    let start := (({ board } : Bus).run before).setTables background sprites
    let n := framesOf ops
    let counted := (start.run ops).board.record.monitor.cleanEdges.toNat
    (Line.level background = false → Line.level sprites = true →
      start.edges ops = Raster.everyLine n [261] ∧ counted = 241 * n) ∧
    (Line.level background = true → Line.level sprites = false →
      start.edges ops
          = (if n = 0 then [] else Raster.cycleOf 0 0 5 :: Raster.everyLine n [325]) ∧
        counted = if n = 0 then 0 else 241 * n + 1) ∧
    (Line.level background = true → Line.level sprites = true →
      start.edges ops = (if n = 0 then [] else [Raster.cycleOf 0 0 5]) ∧
        counted = if n = 0 then 0 else 1) ∧
    (Line.level background = false → Line.level sprites = false →
      start.edges ops = [] ∧ counted = 0) := by
  have hnew := picture_setTables hboard hbefore background sprites
  generalize (({ board } : Bus).run before).setTables background sprites = start at hnew ⊢
  have hedges := edges_of_new hnew hfits
  have hcounted := toNat_cleanEdges_of_new hnew hfits
  rw [Line.level_table, Line.level_table] at hedges
  have hlines : ∀ dot, (Raster.everyLine (framesOf ops) [dot]).length = 241 * framesOf ops :=
    fun dot => (Raster.length_everyLine _ _).trans (Nat.mul_one _)
  refine ⟨fun hb hs => ?_, fun hb hs => ?_, fun hb hs => ?_, fun hb hs => ?_⟩
  all_goals rw [hb, hs] at hedges
  · have hsprites : start.edges ops = Raster.everyLine (framesOf ops) [261] := hedges
    exact ⟨hsprites, hcounted.trans (hsprites ▸ hlines 261)⟩
  · by_cases hnever : framesOf ops = 0
    · rw [hnever] at hedges ⊢
      exact ⟨hedges, hcounted.trans (hedges ▸ rfl)⟩
    · rw [decide_eq_true (Nat.pos_of_ne_zero hnever)] at hedges
      have hall : start.edges ops
          = Raster.cycleOf 0 0 5 :: Raster.everyLine (framesOf ops) [325] := hedges
      rw [if_neg hnever, if_neg hnever]
      exact ⟨hall, hcounted.trans (hall ▸ congrArg (· + 1) (hlines 325))⟩
  · by_cases hnever : framesOf ops = 0
    · rw [hnever] at hedges ⊢
      exact ⟨hedges, hcounted.trans (hedges ▸ rfl)⟩
    · rw [decide_eq_true (Nat.pos_of_ne_zero hnever)] at hedges
      have hfirst : start.edges ops = [Raster.cycleOf 0 0 5] :=
        hedges.trans (congrArg (_ :: ·) (Raster.everyLine_nil _))
      rw [if_neg hnever, if_neg hnever]
      exact ⟨hfirst, hcounted.trans (hfirst ▸ rfl)⟩
  · have hnone : start.edges ops = [] := hedges.trans (Raster.everyLine_nil _)
    exact ⟨hnone, hcounted.trans (hnone ▸ rfl)⟩

/-- Two frames of a blank MMC3 cartridge with the background in the upper table, and a write, a poll
and a reset around them: every line has an edge at its end, and the first one two. -/
theorem edges_run_setTables_blank :
    let between : List Operation :=
      [.write 0xC001 0, .runFrame, .poll 5, .softReset, .setHandler [(0xE000, 0)], .runFrame, .read 0]
    ∃ board, Board.ofCartridge (Cartridge.blank 4 0 16 128) = .ok board ∧
      framesOf [.write 0xC000 3, .poll 2] = 0 ∧
      framesOf between * Raster.cyclesPerFrame ≤ 2 ^ 64 ∧
      let start := (({ board } : Bus).run [.write 0xC000 3, .poll 2]).setTables 0x1000 0x0000
      start.edges between = Raster.cycleOf 0 0 5 :: Raster.everyLine 2 [325] ∧
        (start.run between).board.record.monitor.cleanEdges.toNat = 483 := by
  intro between
  obtain ⟨board, hboard, -⟩ := Board.exists_ofCartridge_blank
    (show Family.ofNumber? 4 = some .mmc3 from rfl) 0 16 128
  have hbefore : framesOf [.write 0xC000 3, .poll 2] = 0 := by decide
  have hframes : framesOf between = 2 := by decide
  have hfits : framesOf between * Raster.cyclesPerFrame ≤ 2 ^ 64 := by
    rw [hframes]
    decide
  refine ⟨board, hboard, hbefore, hfits, ?_⟩
  have hedges := (edges_run_setTables hboard hbefore 0x1000 0x0000 hfits).2.1 rfl rfl
  rw [hframes] at hedges
  exact hedges

end Bus

end RasterIrq
