import RasterIrq.Line
import RasterIrq.EdgeSpacing

/-!
# The line monitor

A monitor watches every address on the picture bus. A *clean edge* is a rise of the line that the
spacing rule accepts; the monitor counts clean edges modulo 2^64 and keeps the level of the line
and the cycle of the last clean edge.
-/

namespace RasterIrq

structure Monitor where
  lineHigh : Bool := false
  /-- The cycle of the last clean edge, if there was one. -/
  lastEdge : Option UInt64 := none
  /-- How many clean edges there were, modulo 2^64. -/
  cleanEdges : UInt64 := 0
deriving DecidableEq, Repr

namespace Monitor

/-- Whether `addr` on the bus at `cycle` makes a clean edge. -/
def cleanEdge (window : UInt64) (m : Monitor) (addr : UInt16) (cycle : UInt64) : Bool :=
  Line.rises m.lineHigh addr && EdgeSpacing.accepts window m.lastEdge cycle

/-- The monitor after `addr` was on the bus at `cycle`. -/
def observe (window : UInt64) (m : Monitor) (addr : UInt16) (cycle : UInt64) : Monitor :=
  if m.cleanEdge window addr cycle then
    { lineHigh := Line.level addr, lastEdge := some cycle, cleanEdges := m.cleanEdges + 1 }
  else
    { m with lineHigh := Line.level addr }

@[simp] theorem lineHigh_observe (window : UInt64) (m : Monitor) (addr : UInt16) (cycle : UInt64) :
    (m.observe window addr cycle).lineHigh = Line.level addr := by
  unfold observe
  split <;> rfl

end Monitor

end RasterIrq
