import RasterIrq.Proofs.Raster.Clocking
import RasterIrq.Proofs.Raster.Frame

/-!
# The clean edges of lines

The two tables decide where on a line the watched address line rises: at dots 5, 261 or 325, and at
dot 5 only if it was low before. These dots are farther apart than the spacing rule asks for, so on
a monitor that is ready for the line every rise is a clean edge.

Results:
1. `Monitor.edges_eq_rises`: if all rises are taken, they are the clean edges.
2. `Monitor.Ready.edges_line`, `Monitor.Ready.lineSeen`: the clean edges of a line, and what it
   leaves of the monitor.
3. `Monitor.LineSeen.ready`, `Monitor.LineSeen.ready_restarted`: a monitor that has seen a line is
   ready for later ones, and for a cycle count that starts again.
4. `Monitor.Ready.linesSeen`: the clean edges of the lines of a frame.
-/

namespace RasterIrq

/-! ## Rises that are far apart -/

namespace EdgeSpacing

/-- Edges at these cycles are all taken, one after the other. -/
def AllAccepted (window : UInt64) (last : Option UInt64) : List UInt64 → Prop
  | [] => True
  | now :: rest => accepts window last now = true ∧ AllAccepted window (some now) rest

end EdgeSpacing

/-- The cycles at which some fetches raise the line. -/
def Line.risesIn (wasHigh : Bool) : List Fetch → List UInt64
  | [] => []
  | f :: rest =>
    let later := risesIn (level f.addr) rest
    if rises wasHigh f.addr then f.cycle :: later else later

/-- If all rises are taken, they are the clean edges. -/
theorem Monitor.edges_eq_rises {window : UInt64} {m : Monitor} {fetches : List Fetch}
    (h : EdgeSpacing.AllAccepted window m.lastEdge (Line.risesIn m.lineHigh fetches)) :
    m.edges window fetches = Line.risesIn m.lineHigh fetches := by
  induction fetches generalizing m with
  | nil => rfl
  | cons f rest ih =>
    rw [Line.risesIn] at h ⊢
    cases hrises : Line.rises m.lineHigh f.addr with
    | false =>
      have hedge : m.cleanEdge window f.addr f.cycle = false := by
        rw [cleanEdge, hrises, Bool.false_and]
      rw [hrises] at h
      rw [edges, observe_of_not_cleanEdge hedge, hedge]
      exact ih h
    | true =>
      rw [hrises] at h
      have hedge : m.cleanEdge window f.addr f.cycle = true := by
        rw [cleanEdge, hrises, h.1, Bool.true_and]
      rw [edges, observe_of_cleanEdge hedge, hedge]
      exact congrArg (f.cycle :: ·) (ih h.2)

/-! ## A line -/

namespace Raster

/-- The dots of a line at which its tables raise the watched line, if that stands at the
background's level when the line starts. -/
def steadyDots (background sprites : Bool) : List Nat :=
  (if sprites && !background then [261] else []) ++ (if background && !sprites then [325] else [])

/-- The same for any level before. -/
def risingDots (wasHigh background sprites : Bool) : List Nat :=
  (if background && !wasHigh then [5] else []) ++ steadyDots background sprites

theorem risingDots_settled :
    ∀ background sprites, risingDots background background sprites = steadyDots background sprites := by
  decide

theorem risingDots_apart :
    ∀ wasHigh background sprites,
      (risingDots wasHigh background sprites).Pairwise (· + 16 ≤ ·) := by
  decide

theorem risingDots_le :
    ∀ wasHigh background sprites, ∀ dot ∈ risingDots wasHigh background sprites, dot ≤ 325 := by
  decide

/-- Tables of one level keep the line where it is. -/
theorem steadyDots_self : ∀ level, steadyDots level level = [] := by
  decide

theorem getLast?_risingDots :
    ∀ wasHigh background sprites, background ≠ sprites →
      (risingDots wasHigh background sprites).getLast?
        = some (if background then 325 else 261) := by
  decide

theorem risesIn_line (wasHigh : Bool) (start : UInt64) (background sprites : UInt16) :
    Line.risesIn wasHigh
        [⟨start + 5, background⟩, ⟨start + 261, sprites⟩, ⟨start + 325, background⟩]
      = (risingDots wasHigh (Line.level background) (Line.level sprites)).map
        fun dot => start + UInt64.ofNat dot := by
  rw [Line.risesIn, Line.risesIn, Line.risesIn, Line.risesIn, Line.rises, Line.rises, Line.rises,
    risingDots]
  cases Line.level background <;> cases Line.level sprites <;> cases wasHigh <;> rfl

end Raster

theorem EdgeSpacing.allAccepted_dots {start : UInt64} {last : Option UInt64} {dots : List Nat}
    (hapart : dots.Pairwise (· + 16 ≤ ·)) (hfits : ∀ dot ∈ dots, start.toNat + dot < 2 ^ 64)
    (hlast : ∀ dot ∈ dots, ∀ t, last = some t →
      t.toNat + 16 ≤ start.toNat + dot ∨ start.toNat + dot < t.toNat) :
    AllAccepted standardWindow last (dots.map fun dot => start + UInt64.ofNat dot) := by
  have hwindow : standardWindow.toNat = 16 := rfl
  induction dots generalizing last with
  | nil => trivial
  | cons dot rest ih =>
    obtain ⟨hnext, hrest⟩ := List.pairwise_cons.mp hapart
    have hdot := Raster.toNat_add (hfits dot List.mem_cons_self)
    refine ⟨accepts_iff.mpr fun t ht => ?_, ih hrest ?_ ?_⟩
    · rw [hdot, hwindow]
      exact hlast dot List.mem_cons_self t ht
    · exact fun later hlater => hfits later (List.mem_cons_of_mem dot hlater)
    · intro later hlater t ht
      cases ht
      have hspaced := hnext later hlater
      rw [hdot]
      omega

namespace Monitor

/-- Every rise on a line that starts at this cycle is a clean edge: the last clean edge is far
enough behind, or the cycle count was restarted since. -/
def Ready (background sprites : Bool) (start : Nat) (m : Monitor) : Prop :=
  ∀ dot ∈ Raster.risingDots m.lineHigh background sprites, ∀ t, m.lastEdge = some t →
    t.toNat + 16 ≤ start + dot ∨ start + dot < t.toNat

variable {m : Monitor} {start : UInt64} {background sprites : UInt16}

/-- The clean edges of a line. -/
theorem Ready.edges_line
    (h : m.Ready (Line.level background) (Line.level sprites) start.toNat)
    (hfits : start.toNat + 341 ≤ 2 ^ 64) :
    m.edges EdgeSpacing.standardWindow (Raster.line start background sprites)
      = (Raster.risingDots m.lineHigh (Line.level background) (Line.level sprites)).map
        fun dot => start + UInt64.ofNat dot := by
  have hrises := Raster.risesIn_line m.lineHigh start background sprites
  rw [(sameEdges_line start background sprites m).1, ← hrises]
  refine edges_eq_rises ?_
  rw [hrises]
  refine EdgeSpacing.allAccepted_dots (Raster.risingDots_apart _ _ _) (fun dot hdot => ?_) h
  have hbound := Raster.risingDots_le _ _ _ dot hdot
  omega

/-- What a line leaves of a monitor: the level of its last address, and a last clean edge that is
behind. If the line moves at all, that edge is one of its own. -/
structure LineSeen (background sprites : Bool) (start : Nat) (after : Monitor) : Prop where
  lineHigh_eq : after.lineHigh = background
  lastEdge_own : background ≠ sprites →
    ∃ t, after.lastEdge = some t ∧ start ≤ t.toNat ∧ t.toNat + 16 ≤ start + 341

theorem Ready.lineSeen (h : m.Ready (Line.level background) (Line.level sprites) start.toNat)
    (hfits : start.toNat + 341 ≤ 2 ^ 64) :
    LineSeen (Line.level background) (Line.level sprites) start.toNat
      (m.observeAll EdgeSpacing.standardWindow (Raster.line start background sprites)) := by
  refine ⟨?_, fun htables => ?_⟩
  · rw [(sameEdges_line start background sprites m).2]
    exact lineHigh_observe _ _ background (start + 325)
  · have hlast := Raster.getLast?_risingDots m.lineHigh _ _ htables
    generalize (if Line.level background then 325 else 261) = dot at hlast
    have hbound := Raster.risingDots_le _ _ _ dot (List.mem_of_getLast? hlast)
    refine ⟨start + UInt64.ofNat dot, ?_, ?_⟩
    · rw [lastEdge_observeAll, h.edges_line hfits, List.getLast?_map, hlast]
      rfl
    · rw [Raster.toNat_add (by omega)]
      omega

/-- A monitor that has seen a line is ready for another one if an edge of the line seen cannot be
too close to it. With both tables on one level there is no such edge, and none to come either. -/
theorem LineSeen.ready_of_own {background sprites : Bool} {start next : Nat}
    (h : LineSeen background sprites start m)
    (hown : ∀ t dot, start ≤ t → t + 16 ≤ start + 341 → dot ≤ 325 →
      t + 16 ≤ next + dot ∨ next + dot < t) :
    m.Ready background sprites next := by
  intro dot hdot t ht
  have hbound := Raster.risingDots_le _ _ _ dot hdot
  rw [h.lineHigh_eq, Raster.risingDots_settled] at hdot
  by_cases htables : background = sprites
  · rw [← htables, Raster.steadyDots_self] at hdot
    cases hdot
  · obtain ⟨own, heq, hstart, hbehind⟩ := h.lastEdge_own htables
    cases heq.symm.trans ht
    exact hown t.toNat dot hstart hbehind hbound

/-- After a line a monitor is ready for any later one. -/
theorem LineSeen.ready {background sprites : Bool} {start later : Nat}
    (h : LineSeen background sprites start m) (hlater : start + 341 ≤ later) :
    m.Ready background sprites later :=
  h.ready_of_own fun t dot _ hbehind _ => .inl (by omega)

/-- It is also ready for a line at cycle zero, unless the line that it has seen started there too:
to the spacing rule the cycle count was restarted. -/
theorem LineSeen.ready_restarted {background sprites : Bool} {start : Nat}
    (h : LineSeen background sprites start m) (hstart : 341 ≤ start) :
    m.Ready background sprites 0 :=
  h.ready_of_own fun t dot hown _ hdot => .inr (by omega)

end Monitor

/-! ## The lines of a frame -/

namespace Raster

/-- The fetches of the first lines of a frame. -/
def fetches (frameStart : UInt64) (background sprites : UInt16) (count : Nat) : List Fetch :=
  (List.range count).flatMap fun n => line (lineStart frameStart n) background sprites

theorem fetches_succ (frameStart : UInt64) (background sprites : UInt16) (count : Nat) :
    fetches frameStart background sprites (count + 1)
      = fetches frameStart background sprites count
        ++ line (lineStart frameStart count) background sprites := by
  rw [fetches, List.range_succ, List.flatMap_append, List.flatMap_singleton, fetches]

/-- These dots of the first lines of a frame. -/
def atDots (frameStart : UInt64) (dots : List Nat) (count : Nat) : List UInt64 :=
  (List.range count).flatMap fun n => dots.map fun dot => lineStart frameStart n + UInt64.ofNat dot

theorem atDots_succ (frameStart : UInt64) (dots : List Nat) (count : Nat) :
    atDots frameStart dots (count + 1)
      = atDots frameStart dots count
        ++ dots.map fun dot => lineStart frameStart count + UInt64.ofNat dot := by
  rw [atDots, List.range_succ, List.flatMap_append, List.flatMap_singleton, atDots]

end Raster

/-- What the first lines of a frame leave of a monitor that is ready for them, and their clean
edges: a line that is low at first may rise at dot 5 of the first line, and from then on every line
is like every other one. -/
theorem Monitor.Ready.linesSeen {m : Monitor} {start : UInt64} {background sprites : UInt16}
    (h : m.Ready (Line.level background) (Line.level sprites) start.toNat) (count : Nat)
    (hfits : start.toNat + (count + 1) * Raster.dotsPerLine ≤ 2 ^ 64) :
    LineSeen (Line.level background) (Line.level sprites)
        (start.toNat + count * Raster.dotsPerLine)
        (m.observeAll EdgeSpacing.standardWindow
          (Raster.fetches start background sprites (count + 1))) ∧
      m.edges EdgeSpacing.standardWindow (Raster.fetches start background sprites (count + 1))
        = (if Line.level background && !m.lineHigh then [start + 5] else [])
          ++ Raster.atDots start
            (Raster.steadyDots (Line.level background) (Line.level sprites)) (count + 1) := by
  have hdots : Raster.dotsPerLine = 341 := rfl
  induction count with
  | zero =>
    have hfirst : Raster.lineStart start 0 = start := by
      rw [Raster.lineStart, Nat.zero_mul]
      exact UInt64.add_zero start
    rw [Nat.zero_mul, Nat.add_zero, Raster.fetches_succ, Raster.atDots_succ, hfirst]
    refine ⟨h.lineSeen (by omega), ?_⟩
    show m.edges _ (Raster.line start background sprites) = _
    rw [h.edges_line (by omega), Raster.risingDots, List.map_append]
    cases Line.level background && !m.lineHigh <;> rfl
  | succ count ih =>
    rw [Nat.succ_mul] at hfits
    obtain ⟨hseen, hedges⟩ := ih (by omega)
    have hstart := Raster.toNat_lineStart start (count + 1) (by omega)
    have hnext : start.toNat + count * Raster.dotsPerLine + 341
        ≤ (Raster.lineStart start (count + 1)).toNat := by
      rw [hstart, Nat.succ_mul]
      omega
    have hready := hseen.ready hnext
    -- The level is the background's by now, so the rises of this line are the steady ones.
    rw [Raster.fetches_succ, Monitor.observeAll_append, Monitor.edges_append, hedges,
      Raster.atDots_succ _ _ (count + 1), List.append_assoc, hready.edges_line (by omega),
      hseen.lineHigh_eq, Raster.risingDots_settled]
    refine ⟨?_, rfl⟩
    rw [← hstart]
    exact hready.lineSeen (by omega)

end RasterIrq
