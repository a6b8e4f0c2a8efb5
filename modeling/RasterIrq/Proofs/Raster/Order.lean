import RasterIrq.Proofs.Raster.Clocking
import RasterIrq.Proofs.Timeline.Stable

/-!
# Frames keep their order

A frame is made by adding one event after the other to a timeline, which looks for the place of
each. Nothing ever moves: every event is later than all events before it, so the events of a frame
are those of its lines as they are generated, fetches first and then the poll. Each line keeps to
its own 341 cycles and each frame to its own 262 lines, as long as the last poll comes before the
cycles run out.

Results:
1. `Raster.frame_eq_pushAll`: a frame adds the events of its lines, one line after the other.
2. `Raster.level_of_mem_line`: the dot of a fetch says which table its address lies in.
3. `Raster.frame_in_order`: the events of a frame, their cycles, their addresses and the next frame.
-/

namespace RasterIrq

namespace Raster

/-! ## What a frame adds -/

theorem pushLine_eq_pushAll (frameStart : UInt64) (background sprites : UInt16) (t : Timeline)
    (n : Nat) :
    pushLine frameStart background sprites t n
      = t.pushAll (lineEvents (lineStart frameStart n) background sprites) := by
  rw [pushLine, Timeline.pushFetches_eq, lineEvents, Timeline.pushAll, Timeline.pushAll,
    List.foldl_append]
  rfl

/-- Lines add their events one line after the other, wherever the timeline puts them. -/
theorem foldl_pushLine (frameStart : UInt64) (background sprites : UInt16) (count : Nat) :
    (List.range count).foldl (pushLine frameStart background sprites) {}
      = ({} : Timeline).pushAll (firstLines frameStart background sprites count) := by
  induction count with
  | zero => rfl
  | succ count ih =>
    rw [List.range_succ, List.foldl_append, ih, List.foldl_cons, List.foldl_nil,
      pushLine_eq_pushAll, firstLines_succ, Timeline.pushAll, Timeline.pushAll, Timeline.pushAll,
      List.foldl_append]

theorem frame_eq_pushAll (start : UInt64) (background sprites : UInt16) :
    frame start background sprites
      = ({} : Timeline).pushAll (firstLines start background sprites 241) :=
  foldl_pushLine start background sprites 241

/-! ## Tables -/

theorem mem_tiles_cycle {f : Fetch} {start : UInt64} {table : UInt16} {indices : List Nat}
    (hf : f ∈ tiles start table indices) (h : start.toNat + 8 * indices.length ≤ 2 ^ 64) :
    start.toNat ≤ f.cycle.toNat ∧ f.cycle.toNat < start.toNat + 8 * indices.length :=
  have hwithin := within_tiles start table indices h
  ⟨hwithin.first_le f.cycle (List.mem_map_of_mem hf),
    hwithin.lt_stop f.cycle (List.mem_map_of_mem hf)⟩

/-- The fetches at dots 257 to 320 lie in the sprites' table, all others in the background's. -/
theorem level_of_mem_line {f : Fetch} {start : UInt64} {background sprites : UInt16}
    (hf : f ∈ line start background sprites) (h : start.toNat + 340 < 2 ^ 64) :
    Line.level f.addr
      = if start.toNat + 257 ≤ f.cycle.toNat ∧ f.cycle.toNat < start.toNat + 321 then
          Line.level sprites
        else Line.level background := by
  have h1 : (start + 1).toNat = start.toNat + 1 := toNat_add (k := 1) (by omega)
  have h257 : (start + 257).toNat = start.toNat + 257 := toNat_add (k := 257) (by omega)
  have h321 : (start + 321).toNat = start.toNat + 321 := toNat_add (k := 321) (by omega)
  rw [line, List.append_assoc, List.mem_append, List.mem_append] at hf
  rcases hf with hfirst | hsprites | hnext
  · have hcycle := mem_tiles_cycle hfirst (by rw [h1, List.length_range]; omega)
    rw [h1, List.length_range] at hcycle
    rw [if_neg (by omega)]
    exact level_tiles (fun i hi => Nat.lt_trans (List.mem_range.mp hi) (by decide)) hfirst
  · have hcycle := mem_tiles_cycle hsprites (by rw [h257, List.length_replicate]; omega)
    rw [h257, List.length_replicate] at hcycle
    rw [if_pos (by omega)]
    refine level_tiles (fun i hi => ?_) hsprites
    rw [List.eq_of_mem_replicate hi]
    decide
  · have hcycle := mem_tiles_cycle hnext (by rw [h321, List.length_range]; omega)
    rw [h321, List.length_range] at hcycle
    rw [if_neg (by omega)]
    exact level_tiles (fun i hi => Nat.lt_trans (List.mem_range.mp hi) (by decide)) hnext

/-- A fetch among the events of a line is a fetch of the line. -/
theorem mem_line_of_mem_lineEvents {start cycle : UInt64} {background sprites addr : UInt16}
    (h : ⟨cycle, .fetch addr⟩ ∈ lineEvents start background sprites) :
    ⟨cycle, addr⟩ ∈ line start background sprites := by
  rcases List.mem_append.mp h with hfetch | hpoll
  · obtain ⟨f, hf, htimed⟩ := List.mem_map.mp hfetch
    cases htimed
    exact hf
  · cases List.mem_singleton.mp hpoll

/-- An event of a line: when it happens, and in which table its address lies if it is a fetch. -/
theorem cycle_of_mem_lineEvents {e : TimedEvent} {start : UInt64} {background sprites : UInt16}
    (he : e ∈ lineEvents start background sprites) (h : start.toNat + 341 ≤ 2 ^ 64) :
    start.toNat ≤ e.cycle.toNat ∧ e.cycle.toNat < start.toNat + 341 ∧
      ∀ addr, e.event = .fetch addr →
        let dot := e.cycle.toNat - start.toNat
        addr.toNat.testBit 12
          = if 257 ≤ dot ∧ dot < 321 then sprites.toNat.testBit 12
            else background.toNat.testBit 12 := by
  have hwithin := within_lineEvents start background sprites h
  have hfirst := hwithin.first_le e.cycle (List.mem_map_of_mem he)
  have hstop := hwithin.lt_stop e.cycle (List.mem_map_of_mem he)
  refine ⟨hfirst, hstop, fun addr hfetch => ?_⟩
  obtain ⟨cycle, event⟩ := e
  obtain rfl : event = .fetch addr := hfetch
  have hlevel := level_of_mem_line (mem_line_of_mem_lineEvents he) (by omega)
  have hdot : 257 ≤ cycle.toNat - start.toNat ∧ cycle.toNat - start.toNat < 321 ↔
      start.toNat + 257 ≤ cycle.toNat ∧ cycle.toNat < start.toNat + 321 := by
    omega
  simp only [Line.level_eq_testBit] at hlevel
  simp only [hdot]
  exact hlevel

/-! ## Frames -/

theorem length_lineEvents (start : UInt64) (background sprites : UInt16) :
    (lineEvents start background sprites).length = 85 := by
  rw [lineEvents, List.length_append, List.length_map, length_line]
  rfl

theorem length_firstLines (frameStart : UInt64) (background sprites : UInt16) (count : Nat) :
    (firstLines frameStart background sprites count).length = 85 * count := by
  induction count with
  | zero => rfl
  | succ count ih =>
    rw [firstLines_succ, List.length_append, ih, length_lineEvents, Nat.mul_succ]

/-- The lines that are not drawn have no events, so it is enough that the drawn ones fit. -/
theorem events_frame_of_lines {start : UInt64} (h : start.toNat + 241 * 341 ≤ 2 ^ 64)
    (background sprites : UInt16) :
    (frame start background sprites).events = firstLines start background sprites 241 :=
  events_firstLines start background sprites 241 h

/-- The 20485 events of a frame whose last poll comes before the cycles run out. They are those of
its lines as they are generated, whether the timeline looks for the place of an event from the end
or by halving. Their cycles go up, those of each line lie between its start and the next one's, and
each address has the level of the table that its dot belongs to. The next frame comes after all of
them. -/
theorem frame_in_order {start : UInt64} (h : start.toNat + 241 * 341 ≤ 2 ^ 64)
    (background sprites : UInt16) :
    let events := (frame start background sprites).events
    let generated := (List.range 241).flatMap fun l =>
      (line (lineStart start l) background sprites).map Fetch.timed
        ++ [⟨lineStart start l + 340, .poll⟩]
    events = generated ∧
    (Timeline.placeAll #[] generated).toList = events ∧
    events.length = 20485 ∧
    (events.Pairwise fun e later => e.cycle < later.cycle) ∧
    (∀ l < 241, ∀ e ∈ lineEvents (lineStart start l) background sprites,
      start.toNat + 341 * l ≤ e.cycle.toNat ∧ e.cycle.toNat < start.toNat + 341 * (l + 1) ∧
      ∀ addr, e.event = .fetch addr →
        let dot := e.cycle.toNat - (start.toNat + 341 * l)
        addr.toNat.testBit 12
          = if 257 ≤ dot ∧ dot < 321 then sprites.toNat.testBit 12
            else background.toNat.testBit 12) ∧
    (start.toNat + 262 * 341 + 241 * 341 ≤ 2 ^ 64 →
      ∀ background' sprites', ∀ e ∈ events,
        ∀ later ∈ (frame (start + 262 * 341) background' sprites').events,
          e.cycle < later.cycle) := by
  intro events generated
  have hevents : events = firstLines start background sprites 241 :=
    events_frame_of_lines h background sprites
  have hgenerated : generated = firstLines start background sprites 241 := rfl
  have hwithin := within_firstLines start background sprites 241 h
  refine ⟨hevents.trans hgenerated.symm, ?_, ?_, ?_, fun l hl e he => ?_,
    fun hnext background' sprites' e he later hlater => ?_⟩
  · rw [hgenerated, Timeline.toList_placeAll, ← frame_eq_pushAll]
  · rw [hevents, length_firstLines]
  · rw [hevents]
    exact List.pairwise_map.mp hwithin.ordered
  · have hstart := toNat_lineStart start l (by rw [dotsPerLine]; omega)
    have hcycle := cycle_of_mem_lineEvents he (by rw [hstart, dotsPerLine]; omega)
    rw [hstart, dotsPerLine, Nat.mul_comm l 341] at hcycle
    exact ⟨hcycle.1, by omega, hcycle.2.2⟩
  · have hstart : (start + 262 * 341).toNat = start.toNat + 89342 :=
      toNat_add (k := 89342) (by omega)
    have hfits : (start + 262 * 341).toNat + 241 * 341 ≤ 2 ^ 64 := by omega
    rw [hevents] at he
    rw [events_frame_of_lines hfits] at hlater
    have hlt := hwithin.lt_stop e.cycle (List.mem_map_of_mem he)
    have hle := (within_firstLines _ background' sprites' 241 hfits).first_le later.cycle
      (List.mem_map_of_mem hlater)
    rw [dotsPerLine] at hlt
    exact UInt64.lt_iff_toNat_lt.mpr (by omega)

/-- The latest frame that can be drawn, with tables of which only bit 12 counts: its last poll is at
the last cycle of all. -/
theorem frame_in_order_latest :
    let start : UInt64 := 0xFFFFFFFFFFFEBEFB
    let events := (frame start 0x0FFF 0xF000).events
    start.toNat + 241 * 341 = 2 ^ 64 ∧ events.length = 20485 ∧
      events.Pairwise fun e later => e.cycle < later.cycle := by
  intro start events
  have hlast : start.toNat + 241 * 341 = 2 ^ 64 := by decide
  obtain ⟨-, -, hlength, hordered, -, -⟩ :=
    frame_in_order (Nat.le_of_eq hlast) 0x0FFF 0xF000
  exact ⟨hlast, hlength, hordered⟩

end Raster

end RasterIrq
