import RasterIrq.Bus
import RasterIrq.Proofs.Board.Run
import RasterIrq.Proofs.Bus.Watch
import RasterIrq.Proofs.Raster.LineEdges

/-!
# Playing events on a bus

What an event does to a bus, as far as interrupts go. Of the processor's writes only the commands to
the counter matter; they depend on the make of the chip, which never changes. A fetch concerns the
interrupt side alone, and a poll is the service of a `Watch`.

Results:
1. `Bus.irq_writeAll`, `Bus.playAll_fetches`, `Bus.irq_poll`: writes, fetches and polls.
2. `Bus.Synced.linePlayed`: on a bus that is ready for it, a line is a step of the watch.
-/

namespace RasterIrq

theorem LineIrq.obeyAll_append (w : Wiring) (u : LineIrq) (first second : List Counter.Command) :
    u.obeyAll w (first ++ second) = (u.obeyAll w first).obeyAll w second := by
  rw [obeyAll, Counter.obeyAll, List.foldl_append]
  rfl

namespace Bus

/-! ## Writes -/

/-- What a bus keeps while it plays a frame. -/
structure Setup where
  make : Chip.Make
  handler : List (UInt16 × UInt8)
  background : UInt16
  sprites : UInt16
  frame : Nat
deriving DecidableEq, Repr

def setup (b : Bus) : Setup where
  make := b.board.chip.make
  handler := b.handler
  background := b.background
  sprites := b.sprites
  frame := b.frame

def Setup.config (s : Setup) : Counter.Config :=
  s.make.counterConfig

/-- What the service of a rise does to the counter. -/
def Setup.service (s : Setup) : List Counter.Command :=
  s.make.commands s.handler

theorem reachesBoard_of_port {addr : UInt16} (h : 0x8000 ≤ addr) : reachesBoard addr = true :=
  decide_eq_true (UInt16.le_trans (by decide) h)

theorem irq_write (b : Bus) (addr : UInt16) (value : UInt8) :
    (b.write addr value).board.irq
      = b.board.irq.obeyAll b.board.chip.wiring (b.board.chip.make.commands [(addr, value)]) := by
  unfold write
  cases h : reachesBoard addr with
  | true => exact b.board.irq_write addr value
  | false =>
    have hport : ¬ 0x8000 ≤ addr := fun hle => by
      rw [reachesBoard_of_port hle] at h
      cases h
    rw [Chip.Make.commands, List.flatMap_singleton, if_neg hport]
    rfl

/-- The bus in front of the board after a write. -/
theorem write_eq (b : Bus) (addr : UInt16) (value : UInt8) :
    b.write addr value = { b with board := (b.write addr value).board } := by
  unfold write
  split <;> rfl

theorem setup_write (b : Bus) (addr : UInt16) (value : UInt8) :
    (b.write addr value).setup = b.setup := by
  have hmake : (b.write addr value).board.chip.make = b.board.chip.make := by
    unfold write
    split
    · exact (Board.SameBuild.write b.board addr value).make.symm
    · rfl
  rw [setup, hmake, write_eq]
  rfl

theorem writeAll_eq (b : Bus) (writes : List (UInt16 × UInt8)) :
    b.writeAll writes = { b with board := (b.writeAll writes).board } := by
  induction writes generalizing b with
  | nil => rfl
  | cons w rest ih =>
    show (b.write w.1 w.2).writeAll rest
      = { b with board := ((b.write w.1 w.2).writeAll rest).board }
    rw [ih, write_eq]

theorem setup_writeAll (b : Bus) (writes : List (UInt16 × UInt8)) :
    (b.writeAll writes).setup = b.setup := by
  induction writes generalizing b with
  | nil => rfl
  | cons w rest ih => exact (ih (b.write w.1 w.2)).trans (setup_write b w.1 w.2)

theorem irq_writeAll (b : Bus) (writes : List (UInt16 × UInt8)) :
    (b.writeAll writes).board.irq
      = b.board.irq.obeyAll b.board.chip.wiring (b.board.chip.make.commands writes) := by
  induction writes generalizing b with
  | nil => rfl
  | cons w rest ih =>
    have hmake : (b.write w.1 w.2).board.chip.make = b.board.chip.make :=
      congrArg Setup.make (setup_write b w.1 w.2)
    show ((b.write w.1 w.2).writeAll rest).board.irq = _
    rw [ih, irq_write, Chip.wiring_eq, Chip.wiring_eq, hmake]
    rw [← LineIrq.obeyAll_append, ← Chip.Make.commands_cons]

/-! ## Fetches -/

/-- Plays events in order. -/
def playAll (b : Bus) (events : List TimedEvent) : Bus :=
  events.foldl apply b

theorem playAll_append (b : Bus) (early late : List TimedEvent) :
    b.playAll (early ++ late) = (b.playAll early).playAll late :=
  List.foldl_append

def withIrq (irq : LineIrq) (b : Bus) : Bus :=
  { b with board := { b.board with irq } }

theorem playAll_fetches (b : Bus) (fetches : List Fetch) :
    b.playAll (fetches.map Fetch.timed)
      = b.withIrq (b.board.irq.notifyAll b.board.chip.wiring fetches) := by
  induction fetches generalizing b with
  | nil => rfl
  | cons f rest ih =>
    show (b.fetch f.addr f.cycle).playAll (rest.map Fetch.timed) = _
    rw [ih]
    rfl

/-! ## Polls -/

def watch (b : Bus) : Watch := ⟨b.board.irq.counter, b.irqHigh⟩

theorem setup_poll (b : Bus) (cycle : UInt64) : (b.poll cycle).setup = b.setup := by
  unfold poll
  cases b.rising with
  | false => rfl
  | true => exact setup_writeAll { b with rises := b.rises.push cycle } b.handler

theorem rises_poll (b : Bus) (cycle : UInt64) :
    (b.poll cycle).rises = if b.rising then b.rises.push cycle else b.rises := by
  unfold poll
  cases b.rising with
  | false => rfl
  | true =>
    show ({ b with rises := b.rises.push cycle }.writeAll b.handler).rises = _
    rw [writeAll_eq]
    rfl

/-- A poll leaves the monitor alone and gives the counter the commands of the handler, if the line
went up. -/
theorem irq_poll (b : Bus) (cycle : UInt64) :
    (b.poll cycle).board.irq
      = if b.rising then b.board.irq.obeyAll b.board.chip.wiring b.setup.service
        else b.board.irq := by
  unfold poll
  cases b.rising with
  | false => rfl
  | true => exact irq_writeAll { b with rises := b.rises.push cycle } b.handler

theorem monitor_poll (b : Bus) (cycle : UInt64) :
    (b.poll cycle).board.irq.monitor = b.board.irq.monitor := by
  rw [irq_poll]
  split <;> rfl

theorem watch_poll (b : Bus) (cycle : UInt64) :
    (b.poll cycle).watch
      = let served := if b.rising then b.board.irq.counter.obeyAll b.setup.config b.setup.service
          else b.board.irq.counter
        ⟨served, served.pending⟩ := by
  have hcounter : (b.poll cycle).board.irq.counter
      = if b.rising then b.board.irq.counter.obeyAll b.setup.config b.setup.service
        else b.board.irq.counter := by
    rw [irq_poll, Chip.wiring_eq]
    split <;> rfl
  rw [← hcounter]
  rfl

/-! ## Lines -/

/-- The bus is ready for a line that starts at this cycle or later: its sprites lie in the upper
table and its background does not, the watched line is low, and the last clean edge lies behind. -/
structure Synced (b : Bus) (start : Nat) : Prop where
  background_low : Line.level b.background = false
  sprites_high : Line.level b.sprites = true
  line_low : b.board.irq.monitor.lineHigh = false
  lastEdge_le : ∀ t, b.board.irq.monitor.lastEdge = some t → t.toNat ≤ start

theorem Synced.mono {b : Bus} {start later : Nat} (h : b.Synced start) (hle : start ≤ later) :
    b.Synced later :=
  ⟨h.background_low, h.sprites_high, h.line_low,
    fun t ht => Nat.le_trans (h.lastEdge_le t ht) hle⟩

/-- Plays a line that starts at this cycle. -/
def playLine (b : Bus) (start : UInt64) : Bus :=
  b.playAll (Raster.lineEvents start b.background b.sprites)

/-- The bus after the fetches of a line, before its poll. -/
def fetchLine (b : Bus) (start : UInt64) : Bus :=
  b.withIrq (b.board.irq.notifyAll b.board.chip.wiring (Raster.line start b.background b.sprites))

theorem playLine_eq (b : Bus) (start : UInt64) :
    b.playLine start = (b.fetchLine start).poll (start + UInt64.ofNat Raster.pollDot) := by
  rw [playLine, Raster.lineEvents, playAll_append, playAll_fetches]
  rfl

theorem Synced.ready {b : Bus} {start : Nat} (h : b.Synced start) :
    b.board.irq.monitor.Ready (Line.level b.background) (Line.level b.sprites) start := by
  rw [h.background_low, h.sprites_high]
  intro dot hdot t ht
  rw [h.line_low] at hdot
  cases List.mem_singleton.mp hdot
  have hle := h.lastEdge_le t ht
  omega

/-- A line is one clean edge. -/
theorem Synced.length_edges {b : Bus} {start : UInt64} (h : b.Synced start.toNat)
    (hfits : start.toNat + 341 ≤ 2 ^ 64) :
    (b.board.irq.monitor.edges EdgeSpacing.standardWindow
      (Raster.line start b.background b.sprites)).length = 1 := by
  rw [h.ready.edges_line hfits, List.length_map, h.background_low, h.sprites_high, h.line_low]
  rfl

/-- What a line leaves of a bus: the watch one line further, and a rise noted if there was one. -/
structure LinePlayed (b : Bus) (start : UInt64) (after : Bus) : Prop where
  synced : after.Synced (start.toNat + 341)
  setup_eq : after.setup = b.setup
  watch_eq : after.watch = b.watch.line b.setup.config b.setup.service
  rises_eq : after.rises
    = if b.watch.rising b.setup.config then b.rises.push (start + UInt64.ofNat Raster.pollDot)
      else b.rises

theorem Synced.linePlayed {b : Bus} {start : UInt64} (h : b.Synced start.toNat)
    (hfits : start.toNat + 341 ≤ 2 ^ 64) : LinePlayed b start (b.playLine start) := by
  have hseen := h.ready.lineSeen hfits
  rw [playLine_eq, fetchLine, Chip.wiring_eq, LineIrq.notifyAll_eq, h.length_edges hfits]
  generalize b.board.irq.monitor.observeAll _ _ = seen at hseen ⊢
  -- What is left is a poll of the bus whose counter was clocked once.
  generalize hfetched : b.withIrq _ = fetched
  have hrising : fetched.rising = b.watch.rising b.setup.config := by
    rw [← hfetched]
    rfl
  have hsetup : fetched.setup = b.setup := by
    rw [← hfetched]
    rfl
  have hkept := (setup_poll fetched (start + UInt64.ofNat Raster.pollDot)).trans hsetup
  have hmonitor : (fetched.poll (start + UInt64.ofNat Raster.pollDot)).board.irq.monitor
      = seen := by
    rw [monitor_poll, ← hfetched]
    rfl
  refine ⟨⟨?_, ?_, ?_, ?_⟩, hkept, ?_, ?_⟩
  · exact congrArg (fun s => Line.level s.background) hkept |>.trans h.background_low
  · exact congrArg (fun s => Line.level s.sprites) hkept |>.trans h.sprites_high
  · rw [hmonitor, hseen.lineHigh_eq, h.background_low]
  · intro t ht
    rw [hmonitor] at ht
    obtain ⟨own, hown, -, hbehind⟩ := hseen.lastEdge_own (by
      rw [h.background_low, h.sprites_high]
      exact Bool.false_ne_true)
    cases hown.symm.trans ht
    omega
  · rw [watch_poll, hrising, hsetup, ← hfetched]
    rfl
  · rw [rises_poll, hrising, ← hfetched]
    rfl

end Bus

end RasterIrq
