import RasterIrq.LineIrq
import RasterIrq.Raster
import Mathlib.Data.Nat.Bitwise
import Mathlib.Logic.Function.Iterate

/-!
# What a line does to the interrupt side

A line puts 84 addresses on the picture bus, but the interrupt side hears only when their bit 12
changes. All tiles of one table have the same bit 12, so a line comes down to three addresses: its
first tile, its first sprite and the first tile of the next line. Which of the three are clean edges
is all that matters: `Monitor.edges` lists them, and the counter is clocked once for each.

Results:
1. `LineIrq.notifyAll_eq`: the clean edges of some fetches say what the fetches do.
2. `Monitor.sameEdges_line`: a line is as good as its three addresses.
-/

namespace RasterIrq

/-! ## Levels -/

namespace Line

theorem level_eq_testBit (addr : UInt16) : level addr = addr.toNat.testBit 12 := by
  have hmasked : (addr &&& 0x1000).toNat = (addr.toNat.testBit 12).toNat * 2 ^ 12 :=
    (UInt16.toNat_and addr 0x1000).trans (Nat.and_two_pow addr.toNat 12)
  unfold level
  cases htest : addr.toNat.testBit 12 with
  | false =>
    rw [htest] at hmasked
    rw [UInt16.toNat_inj.mp (hmasked.trans rfl : _ = (0 : UInt16).toNat)]
    rfl
  | true =>
    rw [htest] at hmasked
    rw [UInt16.toNat_inj.mp (hmasked.trans rfl : _ = (0x1000 : UInt16).toNat)]
    rfl

theorem level_or_of_low (table : UInt16) {low : UInt16} (h : low.toNat < 2 ^ 12) :
    level (table ||| low) = level table := by
  rw [level_eq_testBit, level_eq_testBit, UInt16.toNat_or, Nat.testBit_or,
    Nat.testBit_lt_two_pow h, Bool.or_false]

/-- Masked down to a table, an address keeps its level. -/
theorem level_table (addr : UInt16) : level (addr &&& 0x1000) = level addr := by
  rw [level, UInt16.and_assoc, UInt16.and_self]
  rfl

end Line

/-- The addresses of a tile lie in its table. -/
theorem Raster.level_tile {f : Fetch} {start : UInt64} {table : UInt16} {index : Nat}
    (hindex : index < 256) (hf : f ∈ tile start table index) :
    Line.level f.addr = Line.level table := by
  have hlow : (UInt16.ofNat index <<< 4).toNat < 2 ^ 12 := by
    rw [UInt16.toNat_shiftLeft, UInt16.toNat_ofNat']
    simp [Nat.shiftLeft_eq]
    omega
  have hfirst := Line.level_or_of_low table hlow
  simp only [tile, List.mem_cons, List.not_mem_nil, or_false] at hf
  rcases hf with rfl | rfl
  · exact hfirst
  · exact (Line.level_or_of_low _ (by decide)).trans hfirst

theorem Raster.level_tiles {f : Fetch} {start : UInt64} {table : UInt16} {indices : List Nat}
    (hindices : ∀ i ∈ indices, i < 256) (hf : f ∈ tiles start table indices) :
    Line.level f.addr = Line.level table := by
  induction indices generalizing start with
  | nil => cases hf
  | cons index rest ih =>
    rcases List.mem_append.mp hf with hf | hf
    · exact level_tile (hindices index List.mem_cons_self) hf
    · exact ih (fun i hi => hindices i (List.mem_cons_of_mem index hi)) hf

/-! ## Clean edges -/

namespace Monitor

/-- The monitor after some fetches. -/
def observeAll (window : UInt64) (m : Monitor) (fetches : List Fetch) : Monitor :=
  fetches.foldl (fun m f => m.observe window f.addr f.cycle) m

/-- The cycles of the clean edges that some fetches make. -/
def edges (window : UInt64) (m : Monitor) : List Fetch → List UInt64
  | [] => []
  | f :: rest =>
    let later := (m.observe window f.addr f.cycle).edges window rest
    if m.cleanEdge window f.addr f.cycle then f.cycle :: later else later

variable {window : UInt64} {m : Monitor}

theorem observeAll_append (early late : List Fetch) :
    m.observeAll window (early ++ late) = (m.observeAll window early).observeAll window late :=
  List.foldl_append

theorem edges_append (early late : List Fetch) :
    m.edges window (early ++ late)
      = m.edges window early ++ (m.observeAll window early).edges window late := by
  induction early generalizing m with
  | nil => rfl
  | cons f rest ih =>
    rw [List.cons_append, edges, edges, ih]
    split <;> rfl

theorem observe_of_cleanEdge {addr : UInt16} {cycle : UInt64}
    (h : m.cleanEdge window addr cycle = true) :
    m.observe window addr cycle = ⟨Line.level addr, some cycle, m.cleanEdges + 1⟩ :=
  if_pos h

theorem observe_of_not_cleanEdge {addr : UInt16} {cycle : UInt64}
    (h : m.cleanEdge window addr cycle = false) :
    m.observe window addr cycle = { m with lineHigh := Line.level addr } :=
  if_neg (Bool.not_eq_true _ ▸ h)

/-- Every clean edge is counted. -/
theorem cleanEdges_observeAll (fetches : List Fetch) :
    (m.observeAll window fetches).cleanEdges
      = m.cleanEdges + UInt64.ofNat (m.edges window fetches).length := by
  induction fetches generalizing m with
  | nil => exact (UInt64.add_zero _).symm
  | cons f rest ih =>
    show ((m.observe window f.addr f.cycle).observeAll window rest).cleanEdges = _
    rw [ih, edges]
    cases hedge : m.cleanEdge window f.addr f.cycle with
    | false => rw [observe_of_not_cleanEdge hedge]; rfl
    | true =>
      rw [observe_of_cleanEdge hedge, if_pos rfl, List.length_cons, Nat.add_comm,
        UInt64.ofNat_add, UInt64.add_assoc]
      rfl

/-- The last clean edge is kept. -/
theorem lastEdge_observeAll (fetches : List Fetch) :
    (m.observeAll window fetches).lastEdge = (m.edges window fetches).getLast?.or m.lastEdge := by
  induction fetches generalizing m with
  | nil => rfl
  | cons f rest ih =>
    show ((m.observe window f.addr f.cycle).observeAll window rest).lastEdge = _
    rw [ih, edges]
    cases hedge : m.cleanEdge window f.addr f.cycle with
    | false => rw [observe_of_not_cleanEdge hedge]; rfl
    | true =>
      rw [observe_of_cleanEdge hedge, if_pos rfl, List.getLast?_cons]
      cases (Monitor.edges window _ rest).getLast? <;> rfl

end Monitor

namespace LineIrq

/-- Puts fetched addresses on the bus one after the other. -/
def notifyAll (w : Wiring) (u : LineIrq) (fetches : List Fetch) : LineIrq :=
  fetches.foldl (fun u f => u.notify w f.addr f.cycle) u

/-- The counter is clocked once for each clean edge. -/
theorem notifyAll_eq (w : Wiring) (u : LineIrq) (fetches : List Fetch) :
    u.notifyAll w fetches
      = ⟨(Counter.clock w.counter)^[(u.monitor.edges w.window fetches).length] u.counter,
        u.monitor.observeAll w.window fetches⟩ := by
  induction fetches generalizing u with
  | nil => rfl
  | cons f rest ih =>
    show (u.notify w f.addr f.cycle).notifyAll w rest = _
    rw [ih, Monitor.edges, notify]
    cases u.monitor.cleanEdge w.window f.addr f.cycle <;> rfl

end LineIrq

/-! ## Fetches of one level -/

namespace Monitor

/-- Fetches that no monitor tells apart. -/
def SameEdges (window : UInt64) (fetches fetches' : List Fetch) : Prop :=
  ∀ m : Monitor, m.edges window fetches = m.edges window fetches' ∧
    m.observeAll window fetches = m.observeAll window fetches'

variable {window : UInt64} {m : Monitor}

theorem SameEdges.append {early early' late late' : List Fetch}
    (h : SameEdges window early early') (h' : SameEdges window late late') :
    SameEdges window (early ++ late) (early' ++ late') := by
  intro m
  obtain ⟨hedges, hafter⟩ := h m
  obtain ⟨hedges', hafter'⟩ := h' (m.observeAll window early)
  rw [edges_append, edges_append, observeAll_append, observeAll_append, hedges, hedges', hafter',
    hafter]
  exact ⟨rfl, rfl⟩

theorem cleanEdge_of_level_eq {addr : UInt16} (h : Line.level addr = m.lineHigh)
    (cycle : UInt64) : m.cleanEdge window addr cycle = false := by
  rw [cleanEdge, Line.rises, h]
  cases m.lineHigh <;> rfl

/-- A level that stays what it is makes no edge. -/
theorem sees_of_level_eq {fetches : List Fetch}
    (h : ∀ f ∈ fetches, Line.level f.addr = m.lineHigh) :
    m.edges window fetches = [] ∧ m.observeAll window fetches = m := by
  induction fetches with
  | nil => exact ⟨rfl, rfl⟩
  | cons f rest ih =>
    have hlevel := h f List.mem_cons_self
    have hedge : m.cleanEdge window f.addr f.cycle = false :=
      cleanEdge_of_level_eq hlevel f.cycle
    have hobserve : m.observe window f.addr f.cycle = m := by
      rw [observe_of_not_cleanEdge hedge, hlevel]
    obtain ⟨hedges, hafter⟩ := ih fun g hg => h g (List.mem_cons_of_mem f hg)
    refine ⟨?_, ?_⟩
    · rw [edges, hobserve, hedge, hedges]
      rfl
    · show (m.observe window f.addr f.cycle).observeAll window rest = m
      rw [hobserve, hafter]

/-- Of tiles that lie side by side, the first address is the only one that counts, and of that only
its table. -/
theorem sameEdges_tiles {start : UInt64} {table : UInt16} {index : Nat} {rest : List Nat}
    (hindices : ∀ i ∈ index :: rest, i < 256) :
    SameEdges window (Raster.tiles start table (index :: rest)) [⟨start + 4, table⟩] := by
  intro m
  have hlevel : ∀ f ∈ Raster.tiles start table (index :: rest),
      Line.level f.addr = Line.level table := fun f hf => Raster.level_tiles hindices hf
  obtain ⟨first, others, htiles⟩ : ∃ first others,
      Raster.tiles start table (index :: rest) = ⟨start + 4, first⟩ :: others := ⟨_, _, rfl⟩
  rw [htiles] at hlevel ⊢
  have hfirst : Line.level first = Line.level table := hlevel _ List.mem_cons_self
  have hedge : m.cleanEdge window first (start + 4) = m.cleanEdge window table (start + 4) := by
    rw [cleanEdge, cleanEdge, Line.rises, Line.rises, hfirst]
  have hobserve : m.observe window first (start + 4) = m.observe window table (start + 4) := by
    rw [observe, observe, hedge, hfirst]
  obtain ⟨hedges, hafter⟩ : (m.observe window table (start + 4)).edges window others = [] ∧
      (m.observe window table (start + 4)).observeAll window others
        = m.observe window table (start + 4) := by
    refine sees_of_level_eq fun f hf => ?_
    rw [lineHigh_observe]
    exact hlevel f (List.mem_cons_of_mem _ hf)
  refine ⟨?_, ?_⟩
  · rw [edges, hobserve, hedges, hedge]
    rfl
  · show (m.observe window first (start + 4)).observeAll window others = _
    rw [hobserve, hafter]
    rfl

/-- A line is as good as three addresses. -/
theorem sameEdges_line (start : UInt64) (background sprites : UInt16) :
    SameEdges window (Raster.line start background sprites)
      [⟨start + 5, background⟩, ⟨start + 261, sprites⟩, ⟨start + 325, background⟩] := by
  have hcycle : ∀ {a b c : UInt64}, a + b = c → start + c = start + a + b := by
    intro a b c h
    rw [UInt64.add_assoc, h]
  rw [hcycle (show (1 : UInt64) + 4 = 5 from rfl), hcycle (show (257 : UInt64) + 4 = 261 from rfl),
    hcycle (show (321 : UInt64) + 4 = 325 from rfl)]
  have hbackground : SameEdges window (Raster.tiles (start + 1) background (List.range 32))
      [⟨start + 1 + 4, background⟩] := by
    rw [show List.range 32 = 0 :: (List.range 31).map (· + 1) from rfl]
    exact sameEdges_tiles (by simp; omega)
  have hsprites : SameEdges window
      (Raster.tiles (start + 257) sprites (List.replicate 8 Raster.emptySprite))
      [⟨start + 257 + 4, sprites⟩] := by
    rw [show List.replicate 8 Raster.emptySprite = 0xFF :: List.replicate 7 0xFF from rfl]
    exact sameEdges_tiles (by simp)
  have hnext : SameEdges window (Raster.tiles (start + 321) background (List.range 2))
      [⟨start + 321 + 4, background⟩] := by
    rw [show List.range 2 = [0, 1] from rfl]
    exact sameEdges_tiles (by simp)
  exact (hbackground.append hsprites).append hnext

end Monitor

end RasterIrq
