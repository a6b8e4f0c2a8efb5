import RasterIrq.Proofs.Bus.Frames

/-!
# Operations on a bus

Between two frames the processor reads and writes, polls the interrupt line, takes another interrupt
handler or is reset. None of this reaches the picture side of the bus: the frame number, the tables
and the monitor. They change in frames only, and there only as the fetches say.

Results:
1. `Bus.picture_perform`: what is not a frame leaves the picture side alone.
2. `Bus.picture_runFrame`: what a frame does to it.
3. `Bus.Picture.Drawn.run`: whatever happens, a bus is ready for its next frame.
-/

namespace RasterIrq

namespace Bus

/-- What can happen to a bus while its tables stay what they are and its cycle count goes on. -/
inductive Operation where
  /-- The picture unit draws the next frame. -/
  | runFrame
  /-- The processor reads. -/
  | read (addr : UInt16)
  /-- The processor writes. -/
  | write (addr : UInt16) (value : UInt8)
  /-- The processor looks at the interrupt line, which may have it run its handler. -/
  | poll (cycle : UInt64)
  /-- The processor gets another interrupt handler. -/
  | setHandler (writes : List (UInt16 × UInt8))
  | softReset
deriving DecidableEq, Repr

/-- The bus after an operation. Reading changes nothing. -/
def perform (b : Bus) : Operation → Bus
  | .runFrame => b.runFrame.2
  | .read _ => b
  | .write addr value => b.write addr value
  | .poll cycle => b.poll cycle
  | .setHandler writes => { b with handler := writes }
  | .softReset => b.reset false

def run (b : Bus) (ops : List Operation) : Bus :=
  ops.foldl perform b

theorem run_cons (b : Bus) (op : Operation) (ops : List Operation) :
    b.run (op :: ops) = (b.perform op).run ops := rfl

/-- How many frames a run draws. -/
def framesOf (ops : List Operation) : Nat :=
  ops.count .runFrame

theorem framesOf_runFrame (ops : List Operation) :
    framesOf (.runFrame :: ops) = framesOf ops + 1 :=
  List.count_cons_self

theorem framesOf_of_ne {op : Operation} (hop : op ≠ .runFrame) (ops : List Operation) :
    framesOf (op :: ops) = framesOf ops :=
  List.count_cons_of_ne hop

/-! ## The picture side -/

/-- What only frames change. -/
structure Picture where
  monitor : Monitor
  frame : Nat
  background : UInt16
  sprites : UInt16
deriving DecidableEq, Repr

def picture (b : Bus) : Picture where
  monitor := b.board.irq.monitor
  frame := b.frame
  background := b.background
  sprites := b.sprites

theorem monitor_of_picture {b : Bus} {p : Picture} (h : b.picture = p) :
    b.board.irq.monitor = p.monitor := by
  rw [← h, picture]

theorem frame_of_picture {b : Bus} {p : Picture} (h : b.picture = p) : b.frame = p.frame := by
  rw [← h, picture]

theorem background_of_picture {b : Bus} {p : Picture} (h : b.picture = p) :
    b.background = p.background := by
  rw [← h, picture]

theorem sprites_of_picture {b : Bus} {p : Picture} (h : b.picture = p) :
    b.sprites = p.sprites := by
  rw [← h, picture]

theorem picture_write (b : Bus) (addr : UInt16) (value : UInt8) :
    (b.write addr value).picture = b.picture := by
  have hmonitor : (b.write addr value).board.irq.monitor = b.board.irq.monitor := by
    rw [irq_write, LineIrq.monitor_obeyAll]
  rw [picture, hmonitor, write_eq]
  rfl

theorem picture_poll (b : Bus) (cycle : UInt64) : (b.poll cycle).picture = b.picture := by
  have hsetup := setup_poll b cycle
  have hframe : (b.poll cycle).frame = b.frame := congrArg Setup.frame hsetup
  have hbackground : (b.poll cycle).background = b.background := congrArg Setup.background hsetup
  have hsprites : (b.poll cycle).sprites = b.sprites := congrArg Setup.sprites hsetup
  rw [picture, monitor_poll, hframe, hbackground, hsprites]
  rfl

/-- What is not a frame leaves the picture side alone. -/
theorem picture_perform (b : Bus) {op : Operation} (hop : op ≠ .runFrame) :
    (b.perform op).picture = b.picture := by
  cases op with
  | runFrame => exact absurd rfl hop
  | read addr => rfl
  | write addr value => exact picture_write b addr value
  | poll cycle => exact picture_poll b cycle
  | setHandler writes => rfl
  | softReset => rfl

theorem picture_run (b : Bus) {ops : List Operation} (hops : framesOf ops = 0) :
    (b.run ops).picture = b.picture := by
  induction ops generalizing b with
  | nil => rfl
  | cons op ops ih =>
    have hop : op ≠ .runFrame := by
      rintro rfl
      rw [framesOf_runFrame] at hops
      cases hops
    rw [framesOf_of_ne hop] at hops
    rw [run_cons, ih (b.perform op) hops, picture_perform b hop]

end Bus

/-! ## Fetches among events -/

/-- The fetch that an event is, if it is one. -/
def TimedEvent.fetch? (e : TimedEvent) : Option Fetch :=
  match e.event with
  | .fetch addr => some ⟨e.cycle, addr⟩
  | .write _ _ => none
  | .poll => none

theorem Raster.fetch?_lineEvents (start : UInt64) (background sprites : UInt16) :
    (lineEvents start background sprites).filterMap TimedEvent.fetch?
      = line start background sprites := by
  rw [lineEvents, List.filterMap_append, List.filterMap_map]
  exact (List.append_nil _).trans (List.filterMap_some)

theorem Raster.fetch?_firstLines (frameStart : UInt64) (background sprites : UInt16)
    (count : Nat) :
    (firstLines frameStart background sprites count).filterMap TimedEvent.fetch?
      = fetches frameStart background sprites count := by
  induction count with
  | zero => rfl
  | succ count ih =>
    rw [firstLines_succ, List.filterMap_append, ih, fetch?_lineEvents, fetches_succ]

theorem Raster.fetch?_frame {start : UInt64} (h : Fits start) (background sprites : UInt16) :
    (frame start background sprites).events.filterMap TimedEvent.fetch?
      = fetches start background sprites 241 := by
  rw [events_frame h, fetch?_firstLines]
  rfl

namespace Bus

theorem picture_apply (b : Bus) (e : TimedEvent) :
    (b.apply e).picture
      = { b.picture with
          monitor := b.board.irq.monitor.observeAll EdgeSpacing.standardWindow e.fetch?.toList } := by
  obtain ⟨cycle, event⟩ := e
  cases event with
  | write addr value => exact picture_write b addr value
  | poll => exact picture_poll b cycle
  | fetch addr =>
    show (b.fetch addr cycle).picture = _
    rw [fetch, Board.notify, Chip.wiring_eq]
    rfl

theorem picture_playAll (b : Bus) (events : List TimedEvent) :
    (b.playAll events).picture
      = { b.picture with
          monitor := b.board.irq.monitor.observeAll EdgeSpacing.standardWindow
            (events.filterMap TimedEvent.fetch?) } := by
  induction events generalizing b with
  | nil => rfl
  | cons e rest ih =>
    show ((b.apply e).playAll rest).picture = _
    rw [ih, monitor_of_picture (picture_apply b e), picture_apply, ← Monitor.observeAll_append]
    cases hfetch : e.fetch? with
    | none => rw [List.filterMap_cons_none hfetch]; rfl
    | some f => rw [List.filterMap_cons_some hfetch]; rfl

/-! ## Frames -/

theorem perform_runFrame (b : Bus) : b.perform .runFrame = b.playFrame := rfl

theorem frame_runFrame (b : Bus) : (b.perform .runFrame).frame = b.frame + 1 := rfl

theorem final_runFrames (b : Bus) (n : Nat) :
    (b.runFrames n).2 = b.run (List.replicate n .runFrame) := by
  induction n generalizing b with
  | zero => rfl
  | succ n ih => rw [List.replicate_succ, run_cons, ← ih, runFrames, perform]

theorem length_lines_runFrames (b : Bus) (n : Nat) : (b.runFrames n).1.length = n := by
  induction n generalizing b with
  | zero => rfl
  | succ n ih =>
    rw [runFrames]
    exact congrArg (· + 1) (ih b.runFrame.2)

theorem frame_perform (b : Bus) (op : Operation) (ops : List Operation) :
    (b.perform op).frame + framesOf ops = b.frame + framesOf (op :: ops) := by
  by_cases hop : op = .runFrame
  · subst hop
    rw [frame_runFrame, framesOf_runFrame, Nat.add_right_comm, Nat.add_assoc]
  · rw [framesOf_of_ne hop, frame_of_picture (picture_perform b hop), picture]

theorem frame_run (b : Bus) (ops : List Operation) :
    (b.run ops).frame = b.frame + framesOf ops := by
  induction ops generalizing b with
  | nil => rfl
  | cons op ops ih => rw [run_cons, ih, frame_perform]

/-- The frames of a run fit in a word, after those that were drawn before. -/
def RunFits (b : Bus) (ops : List Operation) : Prop :=
  (b.frame + framesOf ops) * Raster.cyclesPerFrame ≤ 2 ^ 64

theorem RunFits.tail {b : Bus} {op : Operation} {ops : List Operation}
    (h : b.RunFits (op :: ops)) : (b.perform op).RunFits ops := by
  rw [RunFits, frame_perform]
  exact h

theorem RunFits.frameFits {b : Bus} {ops : List Operation} (h : b.RunFits (.runFrame :: ops)) :
    b.FrameFits := by
  rw [RunFits, framesOf_runFrame] at h
  exact Nat.le_trans (Nat.mul_le_mul_right _ (by omega)) h

/-- The bus after the lines is kept a variable here, so that nothing has to play them. -/
theorem picture_nextFrame {b played : Bus} {seen : Monitor}
    (h : played.picture = { b.picture with monitor := seen }) :
    ({ played with frame := b.frame + 1 } : Bus).picture
      = { b.picture with monitor := seen, frame := b.frame + 1 } :=
  congrArg (fun p : Picture => { p with frame := b.frame + 1 }) h

/-- What a frame does to the picture side. -/
theorem picture_runFrame (b : Bus) :
    (b.perform .runFrame).picture
      = { b.picture with
          monitor := b.board.irq.monitor.observeAll EdgeSpacing.standardWindow
            ((Raster.frame b.frameStart b.background b.sprites).events.filterMap
              TimedEvent.fetch?)
          frame := b.frame + 1 } :=
  picture_nextFrame (picture_playAll b _)

theorem tables_run (b : Bus) (ops : List Operation) :
    (b.run ops).background = b.background ∧ (b.run ops).sprites = b.sprites := by
  induction ops generalizing b with
  | nil => exact ⟨rfl, rfl⟩
  | cons op ops ih =>
    obtain ⟨hbackground, hsprites⟩ := ih (b.perform op)
    rw [run_cons, hbackground, hsprites]
    by_cases hop : op = .runFrame
    · rw [hop, background_of_picture (picture_runFrame b), sprites_of_picture (picture_runFrame b)]
      exact ⟨rfl, rfl⟩
    · rw [background_of_picture (picture_perform b hop),
        sprites_of_picture (picture_perform b hop)]
      exact ⟨rfl, rfl⟩

/-! ## Ready for the next frame -/

/-- The monitor is ready for the next frame. -/
def Picture.Ready (p : Picture) : Prop :=
  p.monitor.Ready (Line.level p.background) (Line.level p.sprites)
    (p.frame * Raster.cyclesPerFrame)

/-- The monitor is ready for a line that starts at this cycle. -/
def LineReady (b : Bus) (start : Nat) : Prop :=
  b.board.irq.monitor.Ready (Line.level b.background) (Line.level b.sprites) start

theorem Picture.Ready.lineReady {b : Bus} (h : b.picture.Ready) (hfits : b.FrameFits) :
    b.LineReady b.frameStart.toNat := by
  rw [toNat_frameStart hfits]
  exact h

/-- A frame leaves a monitor that has seen its last line. -/
theorem Picture.Ready.runFrame {b : Bus} (h : b.picture.Ready) (hfits : b.FrameFits) :
    ∃ seen, (b.perform .runFrame).picture
        = { b.picture with monitor := seen, frame := b.frame + 1 } ∧
      Monitor.LineSeen (Line.level b.background) (Line.level b.sprites)
        (b.frame * Raster.cyclesPerFrame + 240 * Raster.dotsPerLine) seen := by
  have hseen := ((h.lineReady hfits).linesSeen 240 (fits_lines hfits)).1
  rw [picture_runFrame, Raster.fetch?_frame (fits_frameStart hfits), ← toNat_frameStart hfits]
  generalize b.board.irq.monitor.observeAll _ _ = seen at hseen ⊢
  exact ⟨seen, rfl, hseen⟩

theorem Picture.ready_of_seen {p : Picture} {seen : Monitor}
    (h : seen.LineSeen (Line.level p.background) (Line.level p.sprites)
      (p.frame * Raster.cyclesPerFrame + 240 * Raster.dotsPerLine)) :
    { p with monitor := seen, frame := p.frame + 1 }.Ready := by
  have hcycles : Raster.cyclesPerFrame = 89342 := rfl
  have hdots : Raster.dotsPerLine = 341 := rfl
  refine h.ready ?_
  show _ ≤ (p.frame + 1) * Raster.cyclesPerFrame
  rw [Nat.succ_mul p.frame]
  omega

theorem Picture.Ready.perform {b : Bus} (h : b.picture.Ready) {op : Operation}
    {ops : List Operation} (hfits : b.RunFits (op :: ops)) : (b.perform op).picture.Ready := by
  by_cases hop : op = .runFrame
  · subst hop
    obtain ⟨seen, hpicture, hseen⟩ := h.runFrame hfits.frameFits
    rw [hpicture]
    exact ready_of_seen (p := b.picture) hseen
  · rw [picture_perform b hop]
    exact h

/-- The picture side of a bus whose tables were there before its first frame. Its monitor is also
ready for a frame at cycle zero, in case the count starts again. -/
structure Picture.Drawn (p : Picture) : Prop where
  ready : p.Ready
  ready_restarted : { p with frame := 0 }.Ready
  lineHigh_eq : p.monitor.lineHigh = (Line.level p.background && decide (0 < p.frame))

theorem Picture.Drawn.of_new {p : Picture} (hmonitor : p.monitor = {}) (hframe : p.frame = 0) :
    p.Drawn := by
  have hready : ∀ start, p.monitor.Ready (Line.level p.background) (Line.level p.sprites) start := by
    intro start dot hdot t ht
    rw [hmonitor] at ht
    cases ht
  refine ⟨hready _, hready _, ?_⟩
  rw [hmonitor, hframe, decide_eq_false (Nat.lt_irrefl 0), Bool.and_false]

theorem Picture.Drawn.perform {b : Bus} (h : b.picture.Drawn) {op : Operation}
    {ops : List Operation} (hfits : b.RunFits (op :: ops)) : (b.perform op).picture.Drawn := by
  by_cases hop : op = .runFrame
  · subst hop
    have hdots : Raster.dotsPerLine = 341 := rfl
    obtain ⟨seen, hpicture, hseen⟩ := h.ready.runFrame hfits.frameFits
    rw [hpicture]
    refine ⟨ready_of_seen (p := b.picture) hseen, ?_, ?_⟩
    -- The last line of a frame starts too late for its edge to lie on a line at cycle zero.
    · show seen.Ready _ _ (0 * Raster.cyclesPerFrame)
      rw [Nat.zero_mul]
      exact hseen.ready_restarted (by omega)
    · show seen.lineHigh = (Line.level b.background && decide (0 < b.frame + 1))
      rw [hseen.lineHigh_eq, decide_eq_true (Nat.succ_pos _), Bool.and_true]
  · rw [picture_perform b hop]
    exact h

/-- Whatever happens, a bus is ready for its next frame. -/
theorem Picture.Drawn.run {b : Bus} (h : b.picture.Drawn) {ops : List Operation}
    (hfits : b.RunFits ops) : (b.run ops).picture.Drawn := by
  induction ops generalizing b with
  | nil => exact h
  | cons op ops ih =>
    rw [run_cons]
    exact ih (h.perform hfits) hfits.tail

/-! ## The first frame -/

/-- A bus that has just been switched on, was not asked for a frame so far, and then gets its
tables. -/
theorem picture_setTables {cart : Cartridge} {board : Board}
    (hboard : Board.ofCartridge cart = .ok board) {before : List Operation}
    (hbefore : framesOf before = 0) (background sprites : UInt16) :
    ((({ board } : Bus).run before).setTables background sprites).picture
      = ⟨{}, 0, background &&& 0x1000, sprites &&& 0x1000⟩ := by
  have hirq : board.irq = {} := (Board.ofCartridge_eq_ok hboard).2.1
  have hpicture := picture_run { board } hbefore
  have hnew : ({ board } : Bus).picture = ⟨board.irq.monitor, 0, 0x0000, 0x1000⟩ := rfl
  rw [hnew, hirq] at hpicture
  generalize ({ board } : Bus).run before = b at hpicture ⊢
  exact congrArg (fun p : Picture =>
    { p with background := background &&& 0x1000, sprites := sprites &&& 0x1000 }) hpicture

end Bus

end RasterIrq
