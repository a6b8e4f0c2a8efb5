import RasterIrq.Monitor
import RasterIrq.Counter

/-!
# The line interrupt

A counter clocked by the clean edges of the watched address line. This is the whole interrupt side
of a board: its state is the counter and the monitor, its wiring the edge spacing and the counter's
configuration.
-/

namespace RasterIrq

structure LineIrq.Wiring where
  /-- The least number of cycles between two clean edges. -/
  window : UInt64
  counter : Counter.Config
deriving DecidableEq, Repr

structure LineIrq where
  counter : Counter := {}
  monitor : Monitor := {}
deriving DecidableEq, Repr

namespace LineIrq

/-- Whether `addr` on the bus at `cycle` makes the counter assert. -/
def asserts (w : Wiring) (u : LineIrq) (addr : UInt16) (cycle : UInt64) : Bool :=
  u.monitor.cleanEdge w.window addr cycle && u.counter.asserts w.counter

/-- An address on the bus: the monitor sees it, and a clean edge clocks the counter. -/
def notify (w : Wiring) (u : LineIrq) (addr : UInt16) (cycle : UInt64) : LineIrq where
  counter :=
    if u.monitor.cleanEdge w.window addr cycle then u.counter.clock w.counter else u.counter
  monitor := u.monitor.observe w.window addr cycle

/-- Register commands reach the counter only. -/
def obeyAll (w : Wiring) (u : LineIrq) (commands : List Counter.Command) : LineIrq :=
  { u with counter := u.counter.obeyAll w.counter commands }

/-- A soft reset leaves the line as it is, since the bus goes on; a hard one forgets it. -/
def reset (hard : Bool) (u : LineIrq) : LineIrq where
  counter := u.counter.reset hard
  monitor := if hard then {} else u.monitor

/-- Whether the interrupt is asserted. -/
def pending (u : LineIrq) : Bool :=
  u.counter.pending

@[simp] theorem monitor_obeyAll (w : Wiring) (u : LineIrq) (commands : List Counter.Command) :
    (u.obeyAll w commands).monitor = u.monitor := rfl

/-- The interrupt stays pending, and an asserting address makes it so. -/
theorem pending_notify (w : Wiring) (u : LineIrq) (addr : UInt16) (cycle : UInt64) :
    (u.notify w addr cycle).pending = (u.pending || u.asserts w addr cycle) := by
  rw [pending, notify, asserts]
  cases u.monitor.cleanEdge w.window addr cycle with
  | false => exact (Bool.or_false _).symm
  | true => rfl

end LineIrq

end RasterIrq
