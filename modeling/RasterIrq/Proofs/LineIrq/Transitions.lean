import RasterIrq.Proofs.Counter.Enabling
import RasterIrq.Proofs.Raster.Clocking

/-!
# Only transitions of the line count

Of all that is put on the picture bus the interrupt side hears only when the line rises or falls,
and of a fall not even the cycle. `LineIrq.Unnoticed` says what may take the place of an event while
the line is at some level: an address that leaves the line alone can be left out, any other address
of its level can stand for it, and unless the line rises it can come at any cycle.

Many events of a run may be varied at once. A variation of a run is a list of pairs, each an event
and what takes its place, if something does. A level that one event leaves behind is the level at
which the next one is looked at: hard resets forget it, and a rise that is no clean edge still
changes it.

Results:
1. `LineIrq.Unnoticed.perform_eq`, `LineIrq.Unnoticed.perform_eq_self`: one event.
2. `LineIrq.run_of_unnoticed`: whole runs end in the same state and assert at the same events.
-/

namespace RasterIrq.LineIrq

/-! ## Runs -/

/-- What can happen to a line interrupt. Its counter is open to commands and clocks. -/
inductive Event where
  | notify (addr : UInt16) (cycle : UInt64)
  | counter (event : Counter.Event)
  | reset (hard : Bool)
deriving DecidableEq, Repr

def perform (w : Wiring) (u : LineIrq) : Event → LineIrq
  | .notify addr cycle => u.notify w addr cycle
  | .counter event => { u with counter := u.counter.perform w.counter event }
  | .reset hard => u.reset hard

def run (w : Wiring) (u : LineIrq) (events : List Event) : LineIrq :=
  events.foldl (perform w) u

/-- Whether an event makes the counter assert. -/
def assertsOn (w : Wiring) (u : LineIrq) : Event → Bool
  | .notify addr cycle => u.asserts w addr cycle
  | .counter event => u.counter.assertsOn w.counter event
  | .reset _ => false

/-- For each event of a run, whether it makes the counter assert. -/
def assertions (w : Wiring) (u : LineIrq) : List Event → List Bool
  | [] => []
  | event :: events => u.assertsOn w event :: (u.perform w event).assertions w events

/-! ## Variations -/

/-- What may take the place of an event without being noticed, while the line is at this level. -/
inductive Unnoticed (high : Bool) : Event → Option Event → Prop
  | same (event : Event) : Unnoticed high event (some event)
  /-- An address that leaves the line at its level can be left out. -/
  | leftOut {addr : UInt16} {cycle : UInt64} (hlevel : Line.level addr = high) :
    Unnoticed high (.notify addr cycle) none
  /-- Another address of the same level will do, and at any cycle unless the line rises. -/
  | moved {addr addr' : UInt16} {cycle cycle' : UInt64}
    (hlevel : Line.level addr' = Line.level addr)
    (hcycle : Line.rises high addr = true → cycle' = cycle) :
    Unnoticed high (.notify addr cycle) (some (.notify addr' cycle'))

/-- Every variation of a run goes unnoticed where it comes. -/
def AllUnnoticed (w : Wiring) (u : LineIrq) : List (Event × Option Event) → Prop
  | [] => True
  | (event, instead) :: rest =>
    Unnoticed u.monitor.lineHigh event instead ∧ (u.perform w event).AllUnnoticed w rest

/-- The run as it is varied. -/
def varied (variation : List (Event × Option Event)) : List Event :=
  variation.filterMap Prod.snd

/-- Of the answers to the events of a run, those to events in whose place there is something. -/
def answersKept (variation : List (Event × Option Event)) (answers : List Bool) : List Bool :=
  (variation.zip answers).filterMap fun p => p.1.2.map fun _ => p.2

variable {w : Wiring} {u : LineIrq}

/-- Where the line does not rise there is no clean edge, at whatever cycle. -/
theorem cleanEdge_moved {addr addr' : UInt16} {cycle cycle' : UInt64}
    (hlevel : Line.level addr' = Line.level addr)
    (hcycle : Line.rises u.monitor.lineHigh addr = true → cycle' = cycle) :
    u.monitor.cleanEdge w.window addr' cycle' = u.monitor.cleanEdge w.window addr cycle := by
  have hrises : Line.rises u.monitor.lineHigh addr' = Line.rises u.monitor.lineHigh addr := by
    rw [Line.rises, Line.rises, hlevel]
  rw [Monitor.cleanEdge, Monitor.cleanEdge, hrises]
  cases h : Line.rises u.monitor.lineHigh addr with
  | false => rfl
  | true => rw [hcycle h]

theorem observe_moved {addr addr' : UInt16} {cycle cycle' : UInt64}
    (hlevel : Line.level addr' = Line.level addr)
    (hcycle : Line.rises u.monitor.lineHigh addr = true → cycle' = cycle) :
    u.monitor.observe w.window addr' cycle' = u.monitor.observe w.window addr cycle := by
  have hedge := cleanEdge_moved (w := w) hlevel hcycle
  cases h : u.monitor.cleanEdge w.window addr cycle with
  | false =>
    rw [Monitor.observe_of_not_cleanEdge h, Monitor.observe_of_not_cleanEdge (hedge.trans h),
      hlevel]
  | true =>
    have hrises : Line.rises u.monitor.lineHigh addr = true := (Bool.and_eq_true_iff.mp h).1
    rw [Monitor.observe_of_cleanEdge h, Monitor.observe_of_cleanEdge (hedge.trans h), hlevel,
      hcycle hrises]

namespace Unnoticed

theorem perform_eq {event event' : Event} (h : Unnoticed u.monitor.lineHigh event (some event')) :
    u.perform w event' = u.perform w event ∧ u.assertsOn w event' = u.assertsOn w event := by
  cases h with
  | same => exact ⟨rfl, rfl⟩
  | moved hlevel hcycle =>
    have hedge := cleanEdge_moved (w := w) hlevel hcycle
    refine ⟨?_, ?_⟩
    · show notify w u _ _ = notify w u _ _
      rw [notify, notify, hedge, observe_moved hlevel hcycle]
    · show asserts w u _ _ = asserts w u _ _
      rw [asserts, asserts, hedge]

theorem perform_eq_self {event : Event} (h : Unnoticed u.monitor.lineHigh event none) :
    u.perform w event = u ∧ u.assertsOn w event = false := by
  cases h with
  | @leftOut addr cycle hlevel =>
    have hedge : u.monitor.cleanEdge w.window addr cycle = false :=
      Monitor.cleanEdge_of_level_eq hlevel cycle
    have hobserve : u.monitor.observe w.window addr cycle = u.monitor := by
      rw [Monitor.observe_of_not_cleanEdge hedge, hlevel]
    refine ⟨?_, ?_⟩
    · show notify w u addr cycle = u
      rw [notify, hedge, hobserve]
      rfl
    · show asserts w u addr cycle = false
      rw [asserts, hedge, Bool.false_and]

end Unnoticed

section

variable {variation : List (Event × Option Event)}

theorem run_varied (h : u.AllUnnoticed w variation) :
    u.run w (varied variation) = u.run w (variation.map Prod.fst) := by
  induction variation generalizing u with
  | nil => rfl
  | cons first rest ih =>
    obtain ⟨event, instead⟩ := first
    obtain ⟨hfirst, hrest⟩ := h
    have hrun : (u.perform w event).run w (varied rest)
        = u.run w (((event, instead) :: rest).map Prod.fst) := ih hrest
    rw [← hrun]
    cases instead with
    | none => rw [hfirst.perform_eq_self.1]; rfl
    | some event' => rw [← hfirst.perform_eq.1]; rfl

theorem assertions_varied (h : u.AllUnnoticed w variation) :
    u.assertions w (varied variation)
      = answersKept variation (u.assertions w (variation.map Prod.fst)) := by
  induction variation generalizing u with
  | nil => rfl
  | cons first rest ih =>
    obtain ⟨event, instead⟩ := first
    obtain ⟨hfirst, hrest⟩ := h
    have hkept := ih hrest
    cases instead with
    | none =>
      rw [hfirst.perform_eq_self.1] at hkept
      rw [List.map_cons, assertions, hfirst.perform_eq_self.1]
      exact hkept
    | some event' =>
      obtain ⟨hperform, hasserts⟩ := hfirst.perform_eq (w := w)
      rw [← hperform] at hkept
      rw [List.map_cons, assertions, ← hperform, ← hasserts]
      exact congrArg (u.assertsOn w event' :: ·) hkept

theorem quiet_of_leftOut (h : u.AllUnnoticed w variation) :
    ∀ p ∈ variation.zip (u.assertions w (variation.map Prod.fst)), p.1.2 = none → p.2 = false := by
  induction variation generalizing u with
  | nil => nofun
  | cons first rest ih =>
    obtain ⟨event, instead⟩ := first
    obtain ⟨hfirst, hrest⟩ := h
    refine List.forall_mem_cons.mpr ⟨?_, ih hrest⟩
    rintro rfl
    exact hfirst.perform_eq_self.2

end

/-- A run in which any number of events are varied without being noticed. It ends in the same state
of counter and monitor, each event that is still there asserts if it did, and what is left out did
not assert. -/
theorem run_of_unnoticed (w : Wiring) (u : LineIrq) {variation : List (Event × Option Event)}
    (h : u.AllUnnoticed w variation) :
    let events := variation.map Prod.fst
    u.run w (varied variation) = u.run w events ∧
    u.assertions w (varied variation) = answersKept variation (u.assertions w events) ∧
    ∀ p ∈ variation.zip (u.assertions w events), p.1.2 = none → p.2 = false :=
  ⟨run_varied h, assertions_varied h, quiet_of_leftOut h⟩

/-- The second rise comes too early to be a clean edge, so it does not clock the counter. A soft
reset while the line is high makes the address after it no rise; a hard one makes it a rise. -/
theorem run_of_unnoticed_reset :
    let w : Wiring := ⟨16, ⟨.down, .holdAtZero, .nextReload, true⟩⟩
    let u : LineIrq := {}
    let variation : List (Event × Option Event) := [
      (.counter (.obey (.setEnabled true)), some (.counter (.obey (.setEnabled true)))),
      (.notify 0x1000 100, some (.notify 0x3FF8 100)),
      (.notify 0x1008 101, none),
      (.notify 0x0000 102, some (.notify 0x0FF0 7)),
      (.notify 0x1000 104, some (.notify 0x1000 104)),
      (.reset false, some (.reset false)),
      (.notify 0x1000 300, none),
      (.reset true, some (.reset true)),
      (.counter (.obey (.setEnabled true)), some (.counter (.obey (.setEnabled true)))),
      (.notify 0x1000 400, some (.notify 0x9000 400))]
    u.AllUnnoticed w variation ∧
    u.run w (varied variation) = u.run w (variation.map Prod.fst) ∧
    u.assertions w (varied variation) = [false, true, false, false, false, false, false, true] := by
  intro w u variation
  have h : u.AllUnnoticed w variation :=
    ⟨.same _, .moved rfl fun _ => rfl, .leftOut rfl, .moved rfl nofun, .same _, .same _,
      .leftOut rfl, .same _, .same _, .moved rfl fun _ => rfl, trivial⟩
  obtain ⟨hrun, hkept, -⟩ := run_of_unnoticed w u h
  refine ⟨h, hrun, ?_⟩
  rw [hkept]
  decide

end RasterIrq.LineIrq
