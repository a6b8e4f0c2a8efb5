import RasterIrq.Timeline

/-!
# The raster

The picture unit draws a frame of 262 lines of 341 dots, one cycle per dot. While it draws it
fetches tile patterns: two addresses per tile, every eight dots. A line has 32 background tiles at
dots 1-256, eight sprites at 257-320 and the first two background tiles of the next line at
321-336. Other fetches never reach the watched address line and are left out. The processor polls
the interrupt line at the last dot. A frame draws its pre-render line, which has number -1, and the
240 visible ones; nothing happens on the rest.
-/

namespace RasterIrq.Raster

def dotsPerLine : Nat := 341
def linesPerFrame : Nat := 262
def visibleLines : Nat := 240

/-- The dot at which the processor polls the interrupt line. -/
def pollDot : Nat := 340

def cyclesPerFrame : Nat := dotsPerLine * linesPerFrame

/-- The tile that a sprite slot without a sprite fetches. -/
def emptySprite : Nat := 0xFF

/-- The two fetches of a tile's pattern, at the fifth and the seventh dot of its eight. -/
def tile (start : UInt64) (table : UInt16) (index : Nat) : List Fetch :=
  let addr := table ||| UInt16.ofNat index <<< 4
  [⟨start + 4, addr⟩, ⟨start + 6, addr ||| 8⟩]

/-- The fetches of tiles that stand side by side, the first one at `start`. -/
def tiles (start : UInt64) (table : UInt16) : List Nat → List Fetch
  | [] => []
  | index :: rest => tile start table index ++ tiles (start + 8) table rest

/-- The fetches of a line that starts at this cycle. -/
def line (start : UInt64) (background sprites : UInt16) : List Fetch :=
  tiles (start + 1) background (List.range 32)
    ++ tiles (start + 257) sprites (List.replicate 8 emptySprite)
    ++ tiles (start + 321) background (List.range 2)

/-- The cycle at which a line of a frame starts; the pre-render line is line 0. -/
def lineStart (frameStart : UInt64) (n : Nat) : UInt64 :=
  frameStart + UInt64.ofNat (n * dotsPerLine)

/-- Adds a line's fetches and its poll. -/
def pushLine (frameStart : UInt64) (background sprites : UInt16) (t : Timeline) (n : Nat) :
    Timeline :=
  let start := lineStart frameStart n
  (t.pushFetches (line start background sprites)).push (start + UInt64.ofNat pollDot) .poll

/-- The events of a frame that starts at this cycle. -/
def frame (start : UInt64) (background sprites : UInt16) : Timeline :=
  (List.range (visibleLines + 1)).foldl (pushLine start background sprites) {}

/-- The number of the line that is drawn at a cycle of a frame. Cycles before the frame count as
its first one. -/
def lineAt (cycle frameStart : UInt64) : Int :=
  ((cycle.toNat - frameStart.toNat) / dotsPerLine : Nat) - 1

theorem length_tiles (start : UInt64) (table : UInt16) (indices : List Nat) :
    (tiles start table indices).length = 2 * indices.length := by
  induction indices generalizing start with
  | nil => rfl
  | cons index rest ih =>
    simp [tiles, tile, ih]
    omega

theorem length_line (start : UInt64) (background sprites : UInt16) :
    (line start background sprites).length = 84 := by
  simp [line, length_tiles]

end RasterIrq.Raster
