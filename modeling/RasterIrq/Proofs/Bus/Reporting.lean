import RasterIrq.Proofs.Bus.Lines
import RasterIrq.Proofs.Raster.Order

/-!
# What a frame reports

A frame has one poll for each of its 241 lines, and the processor sees the interrupt line at polls
only. A poll that finds the line gone up notes its cycle, and no other event notes anything. So the
cycles that a frame adds to the rises are those of some of its polls, in their order, and each leads
back to the line of its poll. All of this holds for any bus: whatever the board's state, whatever
its handler writes and whatever the tables are.

Results:
1. `Raster.take_firstLines`: the events of a frame before a poll.
2. `Bus.mem_lines_runFrame_iff`: the lines that a frame reports.
3. `Bus.runFrame_reports`: the reported lines, the noted cycles and the number of frames.
-/

namespace RasterIrq

namespace Raster

/-! ## Before a poll -/

theorem prefix_firstLines (frameStart : UInt64) (background sprites : UInt16) {n count : Nat}
    (h : n ≤ count) :
    firstLines frameStart background sprites n
      <+: firstLines frameStart background sprites count := by
  induction count, h using Nat.le_induction with
  | base => exact List.prefix_refl _
  | succ count _ ih =>
    rw [firstLines_succ]
    exact ih.trans (List.prefix_append _ _)

/-- A line has 85 events and its poll is the last one. Before the poll of a line come the lines
before it and its own fetches. -/
theorem take_firstLines (frameStart : UInt64) (background sprites : UInt16) {n count : Nat}
    (h : n < count) :
    (firstLines frameStart background sprites count).take (85 * n + 84)
      = firstLines frameStart background sprites n
        ++ (line (lineStart frameStart n) background sprites).map Fetch.timed := by
  have hline : firstLines frameStart background sprites n
        ++ (line (lineStart frameStart n) background sprites).map Fetch.timed
      <+: firstLines frameStart background sprites (n + 1) := by
    rw [firstLines_succ, lineEvents, ← List.append_assoc]
    exact List.prefix_append _ _
  have hbefore := hline.trans (prefix_firstLines frameStart background sprites h)
  rw [List.prefix_iff_eq_take.mp hbefore, List.length_append, length_firstLines, List.length_map,
    length_line]

end Raster

/-- A pending interrupt stays pending, whatever comes by on the picture bus. -/
theorem LineIrq.pending_notifyAll {u : LineIrq} (h : u.pending = true) (w : Wiring)
    (fetches : List Fetch) : (u.notifyAll w fetches).pending = true := by
  induction fetches generalizing u with
  | nil => exact h
  | cons f rest ih =>
    refine ih ?_
    rw [pending_notify, h, Bool.true_or]

namespace Bus

/-- The frame that a bus draws next fits in a word if its last poll does, since frames start at
whole multiples of their length. -/
theorem frameFits_of_last {b : Bus} (h : b.frame * 89342 + 241 * 341 ≤ 2 ^ 64) : b.FrameFits := by
  have hcycles : Raster.cyclesPerFrame = 89342 := rfl
  rw [FrameFits, hcycles]
  omega

/-- The bus that the poll of a line finds. -/
theorem playAll_take_frame {b : Bus} (h : b.FrameFits) {l : Nat} (hl : l < 241) :
    b.playAll ((Raster.frame b.frameStart b.background b.sprites).events.take (85 * l + 84))
      = (b.playLines b.frameStart l).fetchLine (Raster.lineStart b.frameStart l) := by
  obtain ⟨hbackground, hsprites⟩ := tables_playLines b b.frameStart l
  rw [Raster.events_frame_of_lines (fits_lines h), Raster.take_firstLines _ _ _ hl, playAll_append,
    ← playLines_eq, playAll_fetches, fetchLine, hbackground, hsprites]

/-- A frame reports a line if the poll of that line finds the interrupt line gone up. -/
theorem mem_lines_runFrame_iff {b : Bus} (h : b.FrameFits) {l : Nat} (hl : l < 241) :
    (l : Int) - 1 ∈ b.runFrame.1 ↔
      (b.playAll ((Raster.frame b.frameStart b.background b.sprites).events.take
        (85 * l + 84))).rising = true := by
  rw [lines_runFrame_eq h, playAll_take_frame h hl, List.mem_map]
  constructor
  · rintro ⟨n, hn, heq⟩
    obtain rfl : n = l := by omega
    exact (List.mem_filter.mp hn).2
  · intro hrising
    exact ⟨l, List.mem_filter.mpr ⟨List.mem_range.mpr hl, hrising⟩, rfl⟩

theorem rises_of_played {b played : Bus} {noted : List UInt64}
    (hplay : b.playFrame = { played with frame := b.frame + 1 })
    (hrises : played.rises.toList = b.rises.toList ++ noted) :
    b.runFrame.2.rises.toList = b.rises.toList ++ noted := by
  show b.playFrame.rises.toList = _
  rw [hplay]
  exact hrises

/-- A frame notes the polls of the lines that it reports. -/
theorem rises_runFrame {b : Bus} (h : b.FrameFits) :
    b.runFrame.2.rises.toList = b.rises.toList ++
      (b.risenLines b.frameStart 241).map fun n =>
        Raster.lineStart b.frameStart n + UInt64.ofNat Raster.pollDot :=
  rises_of_played (playFrame_eq_playLines h) (rises_playLines b b.frameStart 241)

/-- The cycle of the poll of a line. -/
theorem toNat_pollCycle {b : Bus} (h : b.FrameFits) {n : Nat} (hn : n < 241) :
    (Raster.lineStart b.frameStart n + UInt64.ofNat Raster.pollDot).toNat
      = b.frame * 89342 + 341 * n + 340 := by
  have hdots : Raster.dotsPerLine = 341 := rfl
  have hframe : b.frameStart.toNat = b.frame * 89342 := toNat_frameStart h
  have hlines := fits_lines h
  have hstart := Raster.toNat_lineStart b.frameStart n (by rw [hdots] at hlines ⊢; omega)
  rw [hdots] at hlines hstart
  rw [Raster.toNat_poll _ (by omega), hstart, hframe, Nat.mul_comm n 341]

theorem pairwise_risenLines (b : Bus) (start : UInt64) (count : Nat) :
    (b.risenLines start count).Pairwise (· < ·) :=
  List.pairwise_lt_range.filter _

/-- What a frame reports and notes, if its last poll comes before the cycles run out. The reported
lines are those at whose polls the interrupt line is found gone up, from -1 to 239 and in order. The
cycles of these polls are added to the rises behind all that are there, and no others. -/
theorem runFrame_reports {b : Bus} (h : b.frame * 89342 + 241 * 341 ≤ 2 ^ 64) :
    let lines := b.runFrame.1
    let after := b.runFrame.2
    let events := (Raster.frame b.frameStart b.background b.sprites).events
    lines.Pairwise (· < ·) ∧
    (∀ s ∈ lines, -1 ≤ s ∧ s ≤ 239) ∧
    (∃ noted, after.rises.toList = b.rises.toList ++ noted ∧
      noted.map (fun cycle : UInt64 => (cycle.toNat : Int))
        = lines.map fun s => (b.frame : Int) * 89342 + 341 * (s + 1) + 340) ∧
    after.frame = b.frame + 1 ∧
    ∀ l : Nat, l < 241 →
      ((l : Int) - 1 ∈ lines ↔ (b.playAll (events.take (85 * l + 84))).rising = true) := by
  intro lines after events
  have hfits := frameFits_of_last h
  have hlines : lines = (b.risenLines b.frameStart 241).map fun n : Nat => (n : Int) - 1 :=
    lines_runFrame_eq hfits
  refine ⟨?_, fun s hs => ?_, ?_, rfl, fun l hl => mem_lines_runFrame_iff hfits hl⟩
  · rw [hlines, List.pairwise_map]
    exact (pairwise_risenLines b b.frameStart 241).imp fun hlt => by omega
  · rw [hlines] at hs
    obtain ⟨n, hn, rfl⟩ := List.mem_map.mp hs
    have hlt := lt_of_mem_risenLines hn
    omega
  · refine ⟨_, rises_runFrame hfits, ?_⟩
    rw [hlines, List.map_map, List.map_map]
    refine List.map_congr_left fun n hn => ?_
    show ((Raster.lineStart b.frameStart n + UInt64.ofNat Raster.pollDot).toNat : Int) = _
    rw [toNat_pollCycle hfits (lt_of_mem_risenLines hn), Function.comp_apply]
    omega

/-- A board with a pending interrupt on a bus that found the line low last and has drawn five
frames. The sixth one reports its pre-render line and notes the poll there behind the rise from
before. -/
theorem runFrame_reports_pending :
    ∃ board, Board.ofCartridge (Cartridge.blank 222 0 16 128) = .ok board ∧
      let pending : Board := { board with irq.counter.pending := true }
      let b : Bus := { board := pending, rises := #[7], frame := 5 }
      b.frame * 89342 + 241 * 341 ≤ 2 ^ 64 ∧ -1 ∈ b.runFrame.1 ∧
        ∃ noted, b.runFrame.2.rises.toList = 7 :: noted ∧
          447050 ∈ noted.map fun cycle => (cycle.toNat : Int) := by
  obtain ⟨board, hboard, -⟩ := Board.exists_ofCartridge_blank
    (show Family.ofNumber? 222 = some .mapper222 from rfl) 0 16 128
  refine ⟨board, hboard, ?_⟩
  intro pending b
  have hframe : b.frame = 5 := rfl
  have hlast : b.frame * 89342 + 241 * 341 ≤ 2 ^ 64 := by rw [hframe]; decide
  have hfits := frameFits_of_last hlast
  obtain ⟨-, -, ⟨noted, hrises, hcycles⟩, -, hreported⟩ := runFrame_reports hlast
  have hrising : (b.fetchLine (Raster.lineStart b.frameStart 0)).rising = true := by
    rw [rising, Bool.and_eq_true]
    exact ⟨LineIrq.pending_notifyAll rfl _ _, rfl⟩
  have hfirst : -1 ∈ b.runFrame.1 := by
    refine (hreported 0 (by decide)).mpr ?_
    rw [playAll_take_frame hfits (by decide)]
    exact hrising
  refine ⟨hlast, hfirst, noted, hrises, ?_⟩
  rw [hcycles, hframe]
  exact List.mem_map.mpr ⟨-1, hfirst, by decide⟩

end Bus

end RasterIrq
