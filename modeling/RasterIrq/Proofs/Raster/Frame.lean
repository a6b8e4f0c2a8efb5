import RasterIrq.Raster
import Mathlib.Algebra.Group.Nat.Defs

/-!
# The events of a frame

A timeline puts every event in its place by cycle. The raster adds its events in the order in which
they happen, so that nothing ever moves: the events of a frame are those of its lines, one line
after the other, each ended by its poll. All of this holds as long as the cycles of the frame fit in
a word; past that point they start again at zero.

Results:
1. `Timeline.events_push`, `Timeline.events_pushFetches`: late events are added at the end.
2. `Raster.within_line`: the fetches of a line are in order, and between the line's first dot and
   its poll.
3. `Raster.events_frame`: the events of a frame, line by line.
-/

namespace RasterIrq

/-- The cycles go up, from `first` on and below `stop`. -/
structure Within (first stop : Nat) (cycles : List UInt64) : Prop where
  ordered : cycles.Pairwise (· < ·)
  first_le : ∀ c ∈ cycles, first ≤ c.toNat
  lt_stop : ∀ c ∈ cycles, c.toNat < stop

namespace Within

theorem nil (first stop : Nat) : Within first stop [] := ⟨.nil, nofun, nofun⟩

theorem mono {first stop first' stop' : Nat} {cycles : List UInt64} (h : Within first stop cycles)
    (hfirst : first' ≤ first) (hstop : stop ≤ stop') : Within first' stop' cycles :=
  ⟨h.ordered, fun c hc => Nat.le_trans hfirst (h.first_le c hc),
    fun c hc => Nat.lt_of_lt_of_le (h.lt_stop c hc) hstop⟩

theorem append {first mid stop : Nat} {early late : List UInt64} (h : Within first mid early)
    (h' : Within mid stop late) (hfirst : first ≤ mid) (hstop : mid ≤ stop) :
    Within first stop (early ++ late) := by
  refine ⟨List.pairwise_append.mpr ⟨h.ordered, h'.ordered, ?_⟩, ?_, ?_⟩
  · intro c hc d hd
    exact UInt64.lt_iff_toNat_lt.mpr (Nat.lt_of_lt_of_le (h.lt_stop c hc) (h'.first_le d hd))
  · intro c hc
    rcases List.mem_append.mp hc with hc | hc
    · exact h.first_le c hc
    · exact Nat.le_trans hfirst (h'.first_le c hc)
  · intro c hc
    rcases List.mem_append.mp hc with hc | hc
    · exact Nat.lt_of_lt_of_le (h.lt_stop c hc) hstop
    · exact h'.lt_stop c hc

end Within

/-! ## Adding late events -/

namespace Timeline

variable {t : Timeline} {cycle : UInt64}

theorem insert_of_le {e : TimedEvent} {xs : List TimedEvent} (h : ∀ x ∈ xs, x.cycle ≤ e.cycle) :
    insert e xs = e :: xs := by
  cases xs with
  | nil => rfl
  | cons x xs =>
    have hx : ¬ e.cycle < x.cycle := UInt64.not_lt.mpr (h x List.mem_cons_self)
    rw [insert, if_neg hx]

theorem events_push (h : ∀ e ∈ t.events, e.cycle ≤ cycle) (event : BusEvent) :
    (t.push cycle event).events = t.events ++ [⟨cycle, event⟩] := by
  have hlatest : ∀ e ∈ t.latest, e.cycle ≤ cycle := fun e he => h e (List.mem_reverse.mpr he)
  show (insert ⟨cycle, event⟩ t.latest).reverse = _
  rw [insert_of_le hlatest, List.reverse_cons]
  rfl

end Timeline

/-- A fetch as an event. -/
def Fetch.timed (f : Fetch) : TimedEvent := ⟨f.cycle, .fetch f.addr⟩

theorem Timeline.events_pushFetches {t : Timeline} {fetches : List Fetch}
    (hlate : ∀ e ∈ t.events, ∀ f ∈ fetches, e.cycle ≤ f.cycle)
    (hordered : (fetches.map Fetch.cycle).Pairwise (· < ·)) :
    (t.pushFetches fetches).events = t.events ++ fetches.map Fetch.timed := by
  induction fetches generalizing t with
  | nil => simp [pushFetches]
  | cons f rest ih =>
    obtain ⟨hhead, htail⟩ := List.pairwise_cons.mp hordered
    have hpush := events_push (fun e he => hlate e he f List.mem_cons_self) (.fetch f.addr)
    show ((t.push f.cycle (.fetch f.addr)).pushFetches rest).events = _
    rw [ih ?_ htail, hpush, List.append_assoc]
    · rfl
    rw [hpush]
    intro e he g hg
    rcases List.mem_append.mp he with he | he
    · exact hlate e he g (List.mem_cons_of_mem f hg)
    · cases List.mem_singleton.mp he
      exact UInt64.le_of_lt (hhead g.cycle (List.mem_map_of_mem hg))

/-! ## The fetches of a line -/

namespace Raster

theorem toNat_add {start : UInt64} {k : Nat} (h : start.toNat + k < 2 ^ 64) :
    (start + UInt64.ofNat k).toNat = start.toNat + k := by
  rw [UInt64.toNat_add, UInt64.toNat_ofNat', Nat.add_mod_mod, Nat.mod_eq_of_lt h]

theorem toNat_poll (start : UInt64) (h : start.toNat + 341 ≤ 2 ^ 64) :
    (start + UInt64.ofNat pollDot).toNat = start.toNat + 340 :=
  toNat_add (k := 340) (by omega)

theorem within_tile (start : UInt64) (table : UInt16) (index : Nat)
    (h : start.toNat + 8 ≤ 2 ^ 64) :
    Within start.toNat (start.toNat + 8) ((tile start table index).map Fetch.cycle) := by
  have h4 : (start + 4).toNat = start.toNat + 4 := toNat_add (k := 4) (by omega)
  have h6 : (start + 6).toNat = start.toNat + 6 := toNat_add (k := 6) (by omega)
  refine ⟨?_, ?_, ?_⟩
  · simp [tile, UInt64.lt_iff_toNat_lt, h4, h6]
  all_goals simp [tile, h4, h6]

theorem within_tiles (start : UInt64) (table : UInt16) (indices : List Nat)
    (h : start.toNat + 8 * indices.length ≤ 2 ^ 64) :
    Within start.toNat (start.toNat + 8 * indices.length)
      ((tiles start table indices).map Fetch.cycle) := by
  induction indices generalizing start with
  | nil => exact .nil _ _
  | cons index rest ih =>
    rw [List.length_cons] at h ⊢
    rw [tiles, List.map_append]
    -- After the last tile there may be no next cycle left in a word, so the last tile is a case of
    -- its own.
    cases rest with
    | nil =>
      rw [tiles, List.map_nil, List.append_nil]
      exact (within_tile start table index (by omega)).mono (Nat.le_refl _) (by simp)
    | cons second rest =>
      rw [List.length_cons] at h ih ⊢
      have hnext : (start + 8).toNat = start.toNat + 8 := toNat_add (k := 8) (by omega)
      have hrest := ih (start + 8) (by omega)
      rw [hnext] at hrest
      exact ((within_tile start table index (by omega)).append hrest (by omega) (by omega)).mono
        (Nat.le_refl _) (by omega)

theorem within_line (start : UInt64) (background sprites : UInt16)
    (h : start.toNat + 340 < 2 ^ 64) :
    Within start.toNat (start.toNat + 340) ((line start background sprites).map Fetch.cycle) := by
  have h1 : (start + 1).toNat = start.toNat + 1 := toNat_add (k := 1) (by omega)
  have h257 : (start + 257).toNat = start.toNat + 257 := toNat_add (k := 257) (by omega)
  have h321 : (start + 321).toNat = start.toNat + 321 := toNat_add (k := 321) (by omega)
  have hfirst := within_tiles (start + 1) background (List.range 32)
    (by rw [h1, List.length_range]; omega)
  have hsprites := within_tiles (start + 257) sprites (List.replicate 8 emptySprite)
    (by rw [h257, List.length_replicate]; omega)
  have hnext := within_tiles (start + 321) background (List.range 2)
    (by rw [h321, List.length_range]; omega)
  rw [h1, List.length_range] at hfirst
  rw [h257, List.length_replicate] at hsprites
  rw [h321, List.length_range] at hnext
  rw [line, List.map_append, List.map_append]
  exact ((hfirst.append hsprites (by omega) (by omega)).append hnext (by omega) (by omega)).mono
    (by omega) (by omega)

/-! ## The events of a frame -/

/-- The events of a line that starts at this cycle. -/
def lineEvents (start : UInt64) (background sprites : UInt16) : List TimedEvent :=
  (line start background sprites).map Fetch.timed ++ [⟨start + UInt64.ofNat pollDot, .poll⟩]

theorem within_lineEvents (start : UInt64) (background sprites : UInt16)
    (h : start.toNat + 341 ≤ 2 ^ 64) :
    Within start.toNat (start.toNat + 341)
      ((lineEvents start background sprites).map TimedEvent.cycle) := by
  have hpoll := toNat_poll start h
  have hcycles : (lineEvents start background sprites).map TimedEvent.cycle
      = (line start background sprites).map Fetch.cycle ++ [start + UInt64.ofNat pollDot] := by
    simp [lineEvents, Fetch.timed, Function.comp_def]
  rw [hcycles]
  refine (within_line start background sprites (by omega)).append
    ⟨List.pairwise_singleton _ _, ?_, ?_⟩ (by omega) (by omega)
  all_goals simp [hpoll]

/-- A line adds its events at the end, if the timeline ends before the line starts. -/
theorem events_pushLine {frameStart : UInt64} {t : Timeline} {n : Nat}
    (hbefore : ∀ e ∈ t.events, e.cycle ≤ lineStart frameStart n)
    (h : (lineStart frameStart n).toNat + 341 ≤ 2 ^ 64) (background sprites : UInt16) :
    (pushLine frameStart background sprites t n).events
      = t.events ++ lineEvents (lineStart frameStart n) background sprites := by
  have hline := within_line (lineStart frameStart n) background sprites (by omega)
  have hpoll := toNat_poll (lineStart frameStart n) h
  have hfetches : (t.pushFetches (line (lineStart frameStart n) background sprites)).events
      = t.events ++ (line (lineStart frameStart n) background sprites).map Fetch.timed := by
    refine Timeline.events_pushFetches (fun e he f hf => ?_) hline.ordered
    exact UInt64.le_trans (hbefore e he)
      (UInt64.le_iff_toNat_le.mpr (hline.first_le f.cycle (List.mem_map_of_mem hf)))
  rw [pushLine, Timeline.events_push, hfetches, lineEvents, List.append_assoc]
  rw [hfetches]
  intro e he
  rw [UInt64.le_iff_toNat_le, hpoll]
  rcases List.mem_append.mp he with he | he
  · have hle := UInt64.le_iff_toNat_le.mp (hbefore e he)
    omega
  · obtain ⟨f, hf, rfl⟩ := List.mem_map.mp he
    exact Nat.le_of_lt (hline.lt_stop f.cycle (List.mem_map_of_mem hf))

theorem toNat_lineStart (frameStart : UInt64) (n : Nat)
    (h : frameStart.toNat + n * dotsPerLine < 2 ^ 64) :
    (lineStart frameStart n).toNat = frameStart.toNat + n * dotsPerLine :=
  toNat_add h

/-- The events of the first lines of a frame, one line after the other. -/
def firstLines (frameStart : UInt64) (background sprites : UInt16) (count : Nat) :
    List TimedEvent :=
  (List.range count).flatMap fun n => lineEvents (lineStart frameStart n) background sprites

section

variable (frameStart : UInt64) (background sprites : UInt16) (count : Nat)

theorem firstLines_succ :
    firstLines frameStart background sprites (count + 1)
      = firstLines frameStart background sprites count
        ++ lineEvents (lineStart frameStart count) background sprites := by
  rw [firstLines, List.range_succ, List.flatMap_append, List.flatMap_singleton, firstLines]

theorem within_firstLines (h : frameStart.toNat + count * dotsPerLine ≤ 2 ^ 64) :
    Within frameStart.toNat (frameStart.toNat + count * dotsPerLine)
      ((firstLines frameStart background sprites count).map TimedEvent.cycle) := by
  have hdots : dotsPerLine = 341 := rfl
  induction count with
  | zero => exact .nil _ _
  | succ count ih =>
    rw [Nat.succ_mul] at h ⊢
    have hstart := toNat_lineStart frameStart count (by omega)
    have hline := within_lineEvents (lineStart frameStart count) background sprites (by omega)
    rw [hstart] at hline
    rw [firstLines_succ, List.map_append]
    exact (ih (by omega)).append (hline.mono (Nat.le_refl _) (by omega)) (by omega) (by omega)

theorem events_firstLines (h : frameStart.toNat + count * dotsPerLine ≤ 2 ^ 64) :
    ((List.range count).foldl (pushLine frameStart background sprites) {}).events
      = firstLines frameStart background sprites count := by
  have hdots : dotsPerLine = 341 := rfl
  induction count with
  | zero => rfl
  | succ count ih =>
    rw [Nat.succ_mul] at h
    have hstart := toNat_lineStart frameStart count (by omega)
    have hbound := within_firstLines frameStart background sprites count (by omega)
    have hevents := ih (by omega)
    -- The timeline so far ends before the line starts, because its events are those of the lines
    -- before.
    rw [List.range_succ, List.foldl_append, firstLines_succ, ← hevents]
    refine events_pushLine (fun e he => ?_) (by omega) background sprites
    rw [hevents] at he
    rw [UInt64.le_iff_toNat_le, hstart]
    exact Nat.le_of_lt (hbound.lt_stop e.cycle (List.mem_map_of_mem he))

end

/-- Whether the cycles of a frame that starts at this cycle fit in a word. -/
def Fits (start : UInt64) : Prop := start.toNat + cyclesPerFrame ≤ 2 ^ 64

/-- The events of a frame are those of its lines, one line after the other. -/
theorem events_frame {start : UInt64} (h : Fits start) (background sprites : UInt16) :
    (frame start background sprites).events
      = firstLines start background sprites (visibleLines + 1) :=
  events_firstLines start background sprites (visibleLines + 1)
    (Nat.le_trans (Nat.add_le_add_left (by decide) _) h)

end Raster

end RasterIrq
