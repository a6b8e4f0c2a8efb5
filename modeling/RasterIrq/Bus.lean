import RasterIrq.Board
import RasterIrq.Raster

/-!
# The bus

The bus joins a board to the processor and the picture unit. The board answers the processor from
$4020 on; lower addresses belong to others. At every poll the bus notes the cycle if the interrupt
line went up since the last poll, and lets the processor run its interrupt handler, which is a
fixed list of writes. A frame is the raster's timeline played on the bus.
-/

namespace RasterIrq

structure Bus where
  board : Board
  /-- The level of the interrupt line at the last poll. -/
  irqHigh : Bool := false
  /-- The cycles at which polls found the line gone up, in order. -/
  rises : Array UInt64 := #[]
  /-- What the processor writes when the line goes up. -/
  handler : List (UInt16 × UInt8) := []
  /-- How many frames were drawn. -/
  frame : Nat := 0
  /-- The pattern table of the background. -/
  background : UInt16 := 0x0000
  /-- The pattern table of the sprites. -/
  sprites : UInt16 := 0x1000

namespace Bus

/-- Pattern tables start at $0000 or $1000. -/
def setTables (background sprites : UInt16) (b : Bus) : Bus :=
  { b with background := background &&& 0x1000, sprites := sprites &&& 0x1000 }

/-- Whether the board answers the processor at this address. -/
def reachesBoard (addr : UInt16) : Bool :=
  decide (0x4020 ≤ addr)

def read (b : Bus) (addr : UInt16) : UInt8 :=
  if reachesBoard addr then b.board.read addr else 0

def write (b : Bus) (addr : UInt16) (value : UInt8) : Bus :=
  if reachesBoard addr then { b with board := b.board.write addr value } else b

def writeAll (b : Bus) (writes : List (UInt16 × UInt8)) : Bus :=
  writes.foldl (fun b w => b.write w.1 w.2) b

/-- The picture unit puts an address on its bus. -/
def fetch (b : Bus) (addr : UInt16) (cycle : UInt64) : Bus :=
  { b with board := b.board.notify addr cycle }

/-- What the picture unit reads at an address. Only character memory answers. -/
def fetched (b : Bus) (addr : UInt16) : UInt8 :=
  if addr < 0x2000 then b.board.readChr addr else 0

/-- Whether a poll finds the interrupt line gone up. -/
def rising (b : Bus) : Bool :=
  b.board.pending && !b.irqHigh

/-- Notes a rise and lets the processor serve it. -/
def serve (b : Bus) (cycle : UInt64) : Bus :=
  { b with rises := b.rises.push cycle }.writeAll b.handler

/-- A poll. A rise is served before the level of the line is noted. -/
def poll (b : Bus) (cycle : UInt64) : Bus :=
  let served := if b.rising then b.serve cycle else b
  { served with irqHigh := served.board.pending }

def apply (b : Bus) (e : TimedEvent) : Bus :=
  match e.event with
  | .write addr value => b.write addr value
  | .fetch addr => b.fetch addr e.cycle
  | .poll => b.poll e.cycle

/-- Plays a timeline. -/
def replay (b : Bus) (t : Timeline) : Bus :=
  t.events.foldl apply b

/-- The cycle at which the next frame starts. -/
def frameStart (b : Bus) : UInt64 :=
  UInt64.ofNat (b.frame * Raster.cyclesPerFrame)

/-- Plays the next frame. -/
def playFrame (b : Bus) : Bus :=
  let played := b.replay (Raster.frame b.frameStart b.background b.sprites)
  { played with frame := b.frame + 1 }

/-- The lines of the next frame on which the interrupt line is found gone up, and the bus after
that frame. -/
def runFrame (b : Bus) : List Int × Bus :=
  let played := b.playFrame
  let fresh := played.rises.toList.drop b.rises.size
  (fresh.map fun cycle => Raster.lineAt cycle b.frameStart, played)

/-- The lines of the next `n` frames, frame by frame, and the bus after them. -/
def runFrames : Nat → Bus → List (List Int) × Bus
  | 0, b => ([], b)
  | n + 1, b =>
    let (lines, b) := b.runFrame
    let (rest, b) := runFrames n b
    (lines :: rest, b)

/-- A reset resets the board and forgets the interrupt line's level. A hard one starts again at the
first frame. -/
def reset (hard : Bool) (b : Bus) : Bus :=
  { b with
    board := b.board.reset hard
    irqHigh := false
    rises := if hard then #[] else b.rises
    frame := if hard then 0 else b.frame }

end Bus

end RasterIrq
