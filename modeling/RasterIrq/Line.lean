/-!
# The watched address line

The picture unit's address bus carries one line that the interrupt hardware listens to: address
bit 12, which tells the upper pattern table from the lower one. This module says what level an
address puts on that line and when the line rises.
-/

namespace RasterIrq.Line

/-- An address holds the line high exactly when its bit 12 is set. -/
def level (addr : UInt16) : Bool :=
  addr &&& 0x1000 != 0

/-- The line rises when it was low and the new address holds it high. -/
def rises (wasHigh : Bool) (addr : UInt16) : Bool :=
  level addr && !wasHigh

example : level 0x1FFF = true ∧ level 0x2FFF = false ∧ level 0xF000 = true := by decide

end RasterIrq.Line
