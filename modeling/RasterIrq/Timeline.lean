/-!
# Timelines

A timeline is a list of bus events in the order in which they happen: by cycle, and events of one
cycle in the order in which they were added. It is kept last event first, so adding events in order
takes no search.
-/

namespace RasterIrq

/-- Something that happens on the bus. -/
inductive BusEvent where
  /-- The processor writes a value. -/
  | write (addr : UInt16) (value : UInt8)
  /-- The picture unit puts an address on its bus. -/
  | fetch (addr : UInt16)
  /-- The processor looks at the interrupt line. -/
  | poll
deriving DecidableEq, Repr

structure TimedEvent where
  cycle : UInt64
  event : BusEvent
deriving DecidableEq, Repr

/-- An address that the picture unit fetches, and when. -/
structure Fetch where
  cycle : UInt64
  addr : UInt16
deriving DecidableEq, Repr

structure Timeline where
  /-- The events, the last one first. -/
  latest : List TimedEvent := []
deriving DecidableEq, Repr

namespace Timeline

/-- Puts an event in front of the first event that is not later than it. -/
def insert (e : TimedEvent) : List TimedEvent → List TimedEvent
  | [] => [e]
  | x :: xs => if e.cycle < x.cycle then x :: insert e xs else e :: x :: xs

/-- Adds an event after all events up to its cycle. -/
def push (t : Timeline) (cycle : UInt64) (event : BusEvent) : Timeline where
  latest := insert ⟨cycle, event⟩ t.latest

def pushWrite (t : Timeline) (cycle : UInt64) (addr : UInt16) (value : UInt8) : Timeline :=
  t.push cycle (.write addr value)

/-- Adds fetches one after the other. -/
def pushFetches (t : Timeline) (fetches : List Fetch) : Timeline :=
  fetches.foldl (fun t f => t.push f.cycle (.fetch f.addr)) t

/-- The events in order. -/
def events (t : Timeline) : List TimedEvent :=
  t.latest.reverse

def length (t : Timeline) : Nat :=
  t.latest.length

def isEmpty (t : Timeline) : Bool :=
  t.latest.isEmpty

end Timeline

end RasterIrq
