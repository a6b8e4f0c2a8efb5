import RasterIrq.Proofs.Bus.Operations

/-!
# The lines of a frame, one by one

`Bus.playLines` plays the first lines of a frame, and `Bus.risenLines` lists those among them at
whose polls the interrupt line goes up. Both go line by line, and a line is its fetches and then a
poll.

Results:
1. `Bus.picture_playLine`, `Bus.LineReady.playLines`: the monitor stays ready from line to line.
2. `Bus.rises_playLines`: the rises that some lines note.
3. `Bus.playFrame_eq_playLines`, `Bus.lines_runFrame_eq`: a frame, and the lines that it reports.
-/

namespace RasterIrq.Bus

/-! ## A line -/

theorem picture_fetchLine (b : Bus) (start : UInt64) :
    (b.fetchLine start).picture
      = { b.picture with
          monitor := b.board.irq.monitor.observeAll EdgeSpacing.standardWindow
            (Raster.line start b.background b.sprites) } := by
  rw [fetchLine, Chip.wiring_eq, LineIrq.notifyAll_eq]
  rfl

theorem picture_playLine (b : Bus) (start : UInt64) :
    (b.playLine start).picture
      = { b.picture with
          monitor := b.board.irq.monitor.observeAll EdgeSpacing.standardWindow
            (Raster.line start b.background b.sprites) } := by
  rw [playLine_eq, picture_poll, picture_fetchLine]

theorem rises_playLine (b : Bus) (start : UInt64) :
    (b.playLine start).rises
      = if (b.fetchLine start).rising then b.rises.push (start + UInt64.ofNat Raster.pollDot)
        else b.rises := by
  rw [playLine_eq, rises_poll]
  rfl

/-! ## Several lines -/

/-- Plays the first lines of a frame that starts at this cycle. -/
def playLines (b : Bus) (start : UInt64) : Nat → Bus
  | 0 => b
  | count + 1 => (b.playLines start count).playLine (Raster.lineStart start count)

theorem tables_playLines (b : Bus) (start : UInt64) (count : Nat) :
    (b.playLines start count).background = b.background ∧
      (b.playLines start count).sprites = b.sprites := by
  induction count with
  | zero => exact ⟨rfl, rfl⟩
  | succ count ih =>
    rw [playLines, background_of_picture (picture_playLine _ _),
      sprites_of_picture (picture_playLine _ _)]
    exact ih

theorem playLines_eq (b : Bus) (start : UInt64) (count : Nat) :
    b.playLines start count
      = b.playAll (Raster.firstLines start b.background b.sprites count) := by
  induction count with
  | zero => rfl
  | succ count ih =>
    obtain ⟨hbackground, hsprites⟩ := tables_playLines b start count
    rw [playLines, playLine, hbackground, hsprites, ih, Raster.firstLines_succ, playAll_append]

theorem LineReady.playLine {b : Bus} {start : UInt64} (h : b.LineReady start.toNat)
    (hfits : start.toNat + 341 ≤ 2 ^ 64) : (b.playLine start).LineReady (start.toNat + 341) := by
  have hseen := h.lineSeen hfits
  have hpicture := picture_playLine b start
  rw [LineReady, monitor_of_picture hpicture, background_of_picture hpicture,
    sprites_of_picture hpicture]
  exact hseen.ready (Nat.le_refl _)

theorem LineReady.playLines {b : Bus} {start : UInt64} (h : b.LineReady start.toNat) (count : Nat)
    (hfits : start.toNat + count * Raster.dotsPerLine < 2 ^ 64) :
    (b.playLines start count).LineReady (Raster.lineStart start count).toNat := by
  have hdots : Raster.dotsPerLine = 341 := rfl
  rw [Raster.toNat_lineStart start count hfits]
  induction count with
  | zero => rwa [Nat.zero_mul]
  | succ count ih =>
    rw [Nat.succ_mul] at hfits ⊢
    have hstart := Raster.toNat_lineStart start count (by omega)
    have hbefore := ih (by omega)
    rw [← hstart] at hbefore
    have hafter := hbefore.playLine (by omega)
    rwa [hstart, Nat.add_assoc] at hafter

/-- The lines among the first ones of a frame at whose polls the interrupt line goes up. -/
def risenLines (b : Bus) (start : UInt64) (count : Nat) : List Nat :=
  (List.range count).filter fun n =>
    ((b.playLines start n).fetchLine (Raster.lineStart start n)).rising

theorem lt_of_mem_risenLines {b : Bus} {start : UInt64} {count n : Nat}
    (h : n ∈ b.risenLines start count) : n < count :=
  List.mem_range.mp (List.mem_filter.mp h).1

theorem rises_playLines (b : Bus) (start : UInt64) (count : Nat) :
    (b.playLines start count).rises.toList = b.rises.toList ++
      (b.risenLines start count).map fun n =>
        Raster.lineStart start n + UInt64.ofNat Raster.pollDot := by
  induction count with
  | zero => exact (List.append_nil _).symm
  | succ count ih =>
    rw [playLines, rises_playLine, risenLines, List.range_succ, List.filter_append, List.map_append,
      ← List.append_assoc]
    rw [risenLines] at ih
    rw [← ih]
    cases hrising : ((b.playLines start count).fetchLine (Raster.lineStart start count)).rising <;>
      simp [hrising]

/-! ## A frame -/

theorem playFrame_eq_playLines {b : Bus} (h : b.FrameFits) :
    b.playFrame = { b.playLines b.frameStart 241 with frame := b.frame + 1 } := by
  rw [playFrame_eq h, ← playLines_eq]

theorem lines_of_played {b played : Bus} {risen : List Nat} (hfits : b.FrameFits)
    (hplay : b.playFrame = { played with frame := b.frame + 1 }) (hlt : ∀ n ∈ risen, n < 241)
    (hrises : played.rises.toList = b.rises.toList ++
      risen.map fun n => Raster.lineStart b.frameStart n + UInt64.ofNat Raster.pollDot) :
    b.runFrame.1 = risen.map fun n : Nat => (n : Int) - 1 := by
  refine lines_of_rises hfits hlt ?_
  rw [hplay]
  exact hrises

theorem lines_runFrame_eq {b : Bus} (h : b.FrameFits) :
    b.runFrame.1 = (b.risenLines b.frameStart 241).map fun n : Nat => (n : Int) - 1 :=
  lines_of_played h (playFrame_eq_playLines h) (fun _ => lt_of_mem_risenLines)
    (rises_playLines b b.frameStart 241)

end RasterIrq.Bus
