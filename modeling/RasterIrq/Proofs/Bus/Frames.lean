import RasterIrq.Proofs.Bus.Replay

/-!
# Frames on a bus

A frame is 241 lines, and a run is frame after frame. On a bus whose sprites lie in the upper table
every line steps the watch once, so the lines that a run reports are read off the watch.

Results:
1. `Bus.Synced.linesPlayed`: some lines of a frame, one after the other.
2. `Bus.Synced.framePlayed`: a frame.
3. `Bus.Synced.lines_runFrames`: the lines reported by a run of any length.
-/

namespace RasterIrq

/-- The lines on which the `f`-th frame from here finds the interrupt line gone up. -/
def Watch.reported (cfg : Counter.Config) (service : List Counter.Command) (w : Watch) (f : Nat) :
    List Int :=
  ((List.range 241).filter fun l => w.risesAt cfg service (241 * f + l)).map
    fun l : Nat => (l : Int) - 1

theorem Watch.reported_succ (cfg : Counter.Config) (service : List Counter.Command) (w : Watch)
    (f : Nat) :
    w.reported cfg service (f + 1) = ((line cfg service)^[241] w).reported cfg service f := by
  have hline : ∀ l, 241 * (f + 1) + l = 241 + (241 * f + l) := fun l => by omega
  unfold reported
  simp only [hline, risesAt_add]

namespace Bus

/-- What the first lines of a frame leave of a bus. -/
structure LinesPlayed (b : Bus) (start : UInt64) (count : Nat) (after : Bus) : Prop where
  synced : after.Synced (start.toNat + count * Raster.dotsPerLine)
  setup_eq : after.setup = b.setup
  watch_eq : after.watch = (Watch.line b.setup.config b.setup.service)^[count] b.watch
  rises_eq : after.rises.toList
    = b.rises.toList ++
      ((List.range count).filter (b.watch.risesAt b.setup.config b.setup.service)).map fun n =>
        Raster.lineStart start n + UInt64.ofNat Raster.pollDot

theorem Synced.linesPlayed {b : Bus} {start : UInt64} (h : b.Synced start.toNat) (count : Nat)
    (hfits : start.toNat + count * Raster.dotsPerLine ≤ 2 ^ 64) :
    LinesPlayed b start count
      (b.playAll (Raster.firstLines start b.background b.sprites count)) := by
  have hdots : Raster.dotsPerLine = 341 := rfl
  -- The invariant is `LinesPlayed` itself: each line starts from what the lines before it left.
  induction count with
  | zero =>
    refine ⟨h.mono (Nat.le_add_right _ _), rfl, rfl, ?_⟩
    exact (List.append_nil _).symm
  | succ count ih =>
    rw [Nat.succ_mul] at hfits
    have hplayed := ih (by omega)
    rw [Raster.firstLines_succ, playAll_append]
    generalize b.playAll (Raster.firstLines start b.background b.sprites count) = sofar at hplayed ⊢
    have hstart := Raster.toNat_lineStart start count (by omega)
    have hsynced : sofar.Synced (Raster.lineStart start count).toNat := hstart ▸ hplayed.synced
    have hline := hsynced.linePlayed (by omega)
    have htables : sofar.playLine (Raster.lineStart start count)
        = sofar.playAll
          (Raster.lineEvents (Raster.lineStart start count) b.background b.sprites) := by
      have hbackground : sofar.background = b.background :=
        congrArg Setup.background hplayed.setup_eq
      have hsprites : sofar.sprites = b.sprites := congrArg Setup.sprites hplayed.setup_eq
      rw [playLine, hbackground, hsprites]
    rw [htables] at hline
    generalize sofar.playAll _ = after at hline ⊢
    have hrising : sofar.watch.rising sofar.setup.config
        = b.watch.risesAt b.setup.config b.setup.service count := by
      rw [hplayed.setup_eq, hplayed.watch_eq, Watch.risesAt]
    refine ⟨?_, hline.setup_eq.trans hplayed.setup_eq, ?_, ?_⟩
    · have hend := hline.synced
      rwa [hstart, Nat.add_assoc, ← hdots, ← Nat.succ_mul] at hend
    · rw [hline.watch_eq, hplayed.setup_eq, hplayed.watch_eq, Function.iterate_succ_apply']
    · rw [hline.rises_eq, hrising, List.range_succ, List.filter_append, List.map_append,
        ← List.append_assoc, ← hplayed.rises_eq]
      cases hrises : b.watch.risesAt b.setup.config b.setup.service count <;> simp [hrises]

/-! ## A frame -/

/-- The frame that a bus draws next fits in a word. -/
def FrameFits (b : Bus) : Prop :=
  (b.frame + 1) * Raster.cyclesPerFrame ≤ 2 ^ 64

theorem toNat_frameStart {b : Bus} (h : b.FrameFits) :
    b.frameStart.toNat = b.frame * Raster.cyclesPerFrame := by
  have hcycles : Raster.cyclesPerFrame = 89342 := rfl
  rw [FrameFits, Nat.succ_mul] at h
  rw [frameStart, UInt64.toNat_ofNat', Nat.mod_eq_of_lt (by omega)]

theorem fits_frameStart {b : Bus} (h : b.FrameFits) : Raster.Fits b.frameStart := by
  rw [Raster.Fits, toNat_frameStart h, ← Nat.succ_mul]
  exact h

/-- So do its lines. -/
theorem fits_lines {b : Bus} (h : b.FrameFits) :
    b.frameStart.toNat + 241 * Raster.dotsPerLine ≤ 2 ^ 64 :=
  Nat.le_trans (Nat.add_le_add_left (by decide) _) (fits_frameStart h)

/-- A line's poll lies on that line. -/
theorem lineAt_poll {start : UInt64} {n : Nat}
    (h : start.toNat + (n + 1) * Raster.dotsPerLine ≤ 2 ^ 64) :
    Raster.lineAt (Raster.lineStart start n + UInt64.ofNat Raster.pollDot) start
      = (n : Int) - 1 := by
  have hdots : Raster.dotsPerLine = 341 := rfl
  rw [Nat.succ_mul] at h
  have hstart := Raster.toNat_lineStart start n (by omega)
  have hpoll := Raster.toNat_poll (Raster.lineStart start n) (by omega)
  have hline : (start.toNat + n * 341 + 340 - start.toNat) / 341 = n := by omega
  rw [Raster.lineAt, hpoll, hstart, hdots, hline]

/-- What a frame leaves of a bus. The lines that are not drawn only take time. -/
structure FramePlayed (b after : Bus) : Prop where
  synced : after.Synced ((b.frame + 1) * Raster.cyclesPerFrame)
  setup_eq : after.setup = { b.setup with frame := b.frame + 1 }
  watch_eq : after.watch = (Watch.line b.setup.config b.setup.service)^[241] b.watch

theorem playFrame_eq {b : Bus} (h : b.FrameFits) :
    b.playFrame
      = { b.playAll (Raster.firstLines b.frameStart b.background b.sprites 241) with
          frame := b.frame + 1 } := by
  have hcount : Raster.visibleLines + 1 = 241 := rfl
  rw [playFrame, replay, Raster.events_frame (fits_frameStart h), hcount]
  rfl

theorem lines_runFrame (b : Bus) :
    b.runFrame.1
      = (b.playFrame.rises.toList.drop b.rises.size).map fun cycle =>
        Raster.lineAt cycle b.frameStart := rfl

/-- A frame reports the lines at whose polls the line goes up. -/
theorem lines_of_rises {b : Bus} {risen : List Nat} (hfits : b.FrameFits)
    (hlt : ∀ n ∈ risen, n < 241)
    (hrises : b.playFrame.rises.toList = b.rises.toList ++
      risen.map fun n => Raster.lineStart b.frameStart n + UInt64.ofNat Raster.pollDot) :
    b.runFrame.1 = risen.map fun n : Nat => (n : Int) - 1 := by
  have hcycles : Raster.cyclesPerFrame = 89342 := rfl
  have hdots : Raster.dotsPerLine = 341 := rfl
  have hroom : b.frameStart.toNat + Raster.cyclesPerFrame ≤ 2 ^ 64 := fits_frameStart hfits
  rw [lines_runFrame, hrises, List.drop_left' Array.length_toList, List.map_map]
  refine List.map_congr_left fun n hn => ?_
  have hbefore : (n + 1) * 341 ≤ 241 * 341 := Nat.mul_le_mul_right 341 (hlt n hn)
  rw [Function.comp_apply]
  exact lineAt_poll (by rw [hdots]; omega)

/-- The bus after the lines is kept a variable here, so that nothing has to play them. -/
theorem LinesPlayed.framePlayed {b after : Bus} (h : LinesPlayed b b.frameStart 241 after)
    (hplay : b.playFrame = { after with frame := b.frame + 1 }) (hfits : b.FrameFits) :
    b.runFrame.1 = b.watch.reported b.setup.config b.setup.service 0 ∧
      FramePlayed b b.runFrame.2 := by
  have hcycles : Raster.cyclesPerFrame = 89342 := rfl
  have hdots : Raster.dotsPerLine = 341 := rfl
  have hstart := toNat_frameStart hfits
  have hlast : b.frameStart.toNat + 241 * Raster.dotsPerLine
      ≤ (b.frame + 1) * Raster.cyclesPerFrame := by
    rw [hstart, Nat.succ_mul b.frame]
    omega
  have hend := h.synced.mono hlast
  have hrises : b.playFrame.rises = after.rises := by rw [hplay]
  refine ⟨?_, ?_⟩
  · have hnoted := h.rises_eq
    rw [← hrises] at hnoted
    rw [lines_of_rises hfits (fun n hn => List.mem_range.mp (List.mem_filter.mp hn).1) hnoted,
      Watch.reported]
    simp only [Nat.mul_zero, Nat.zero_add]
  · show FramePlayed b b.playFrame
    rw [hplay]
    refine ⟨?_, ?_, h.watch_eq⟩
    · exact ⟨hend.background_low, hend.sprites_high, hend.line_low, hend.lastEdge_le⟩
    · exact congrArg (fun s : Setup => { s with frame := b.frame + 1 }) h.setup_eq

/-- A frame reports the lines on which the watch goes up. -/
theorem Synced.framePlayed {b : Bus} (h : b.Synced (b.frame * Raster.cyclesPerFrame))
    (hfits : b.FrameFits) :
    b.runFrame.1 = b.watch.reported b.setup.config b.setup.service 0 ∧
      FramePlayed b b.runFrame.2 := by
  have hstart := toNat_frameStart hfits
  have hsynced : b.Synced b.frameStart.toNat := by rwa [hstart]
  exact (hsynced.linesPlayed 241 (fits_lines hfits)).framePlayed (playFrame_eq hfits) hfits

/-! ## Runs -/

/-- The lines that a run reports, frame by frame. -/
theorem Synced.lines_runFrames {b : Bus} (h : b.Synced (b.frame * Raster.cyclesPerFrame)) {n : Nat}
    (hfits : (b.frame + n) * Raster.cyclesPerFrame ≤ 2 ^ 64) :
    (b.runFrames n).1
      = (List.range n).map (b.watch.reported b.setup.config b.setup.service) := by
  induction n generalizing b with
  | zero => rfl
  | succ n ih =>
    have hfirst : b.FrameFits := Nat.le_trans (Nat.mul_le_mul_right _ (by omega)) hfits
    obtain ⟨hlines, hplayed⟩ := h.framePlayed hfirst
    have hframe : b.runFrame.2.frame = b.frame + 1 := congrArg Setup.frame hplayed.setup_eq
    have hindex : b.runFrame.2.frame + n = b.frame + (n + 1) := by
      rw [hframe]
      omega
    have hlater : (b.runFrame.2.frame + n) * Raster.cyclesPerFrame ≤ 2 ^ 64 :=
      Nat.le_trans (Nat.mul_le_mul_right _ (Nat.le_of_eq hindex)) hfits
    have hrest := ih (b := b.runFrame.2) (hframe ▸ hplayed.synced) hlater
    have hsucc : b.watch.reported b.setup.config b.setup.service ∘ Nat.succ
        = b.runFrame.2.watch.reported b.runFrame.2.setup.config b.runFrame.2.setup.service := by
      funext f
      rw [hplayed.setup_eq, hplayed.watch_eq]
      exact Watch.reported_succ b.setup.config b.setup.service b.watch f
    rw [List.range_succ_eq_map, List.map_cons, List.map_map, hsucc, ← hlines, ← hrest]
    rfl

end Bus

end RasterIrq
