import RasterIrq.Proofs.Board.History
import RasterIrq.Proofs.Bus.Restart
import RasterIrq.Proofs.Bus.Rises

/-!
# Hard resets

A hard reset takes a bus back to power-on, except that memories keep their contents. Pattern tables
and interrupt handler belong to the picture unit and the processor, so they stay too. From then on
the bus is *alike* to a new one of its cartridge that was given these tables and this handler:
nothing that can be done with the two tells them apart, as long as no memory is read.

What can be done are the calls of the bus and, past the bus, the operations of its board, such as
loading a record.

Results:
1. `Bus.Alike.act`, `Bus.Alike.acts`: alike buses stay alike.
2. `Bus.Alike.status_eq`, `Bus.Alike.answer_eq`: alike buses show and answer the same.
3. `Bus.sameBuild_acts`, `Bus.OnTables.acts`: what no action changes.
4. `Bus.alike_hardReset`: a bus after a hard reset is alike to a new one.
5. `Bus.hardReset_powersOn`: it goes on as the new one does.
-/

namespace RasterIrq

namespace Bus

/-! ## Actions -/

/-- All that can be done with a bus and, past it, with its board. -/
inductive Action where
  | call (c : Call)
  | board (op : Board.Operation)
deriving DecidableEq, Repr

def act (b : Bus) : Action → Bus
  | .call c => b.call c
  | .board op => { b with board := b.board.perform op }

def acts (b : Bus) (actions : List Action) : Bus :=
  actions.foldl act b

theorem acts_cons (b : Bus) (action : Action) (rest : List Action) :
    b.acts (action :: rest) = (b.act action).acts rest := rfl

/-- What an action answers, apart from the contents of memories. -/
inductive Answer where
  | nothing
  /-- The lines of a frame on which the interrupt came. -/
  | lines (lines : List Int)
  /-- The level that a poll finds. -/
  | level (high : Bool)
  | refused (e : RecordError)
deriving DecidableEq, Repr

def answer (b : Bus) : Action → Answer
  | .call .runFrame => .lines b.runFrame.1
  | .call (.poll _) => .level b.board.pending
  | .board (.load bytes) =>
    match b.board.load bytes with
    | .ok _ => .nothing
    | .error e => .refused e
  | _ => .nothing

/-- All that a bus shows of itself without its memories being read. -/
structure Status where
  rises : Array UInt64
  frame : Nat
  board : Board.View

def status (b : Bus) : Status where
  rises := b.rises
  frame := b.frame
  board := b.board.view

/-! ## Alike buses -/

/-- The buses differ at most in the contents of memories. -/
structure Alike (a b : Bus) : Prop extends InStep a b where
  picture : a.picture = b.picture
  rises : a.rises = b.rises

namespace Alike

variable {a b : Bus}

/-- Buses in step differ in nothing but the time of the last clean edge, and that is on the picture
side. -/
theorem alike_board (h : Alike a b) : Board.Alike a.board b.board := by
  have hmonitor : a.board.irq.monitor = b.board.irq.monitor := congrArg Picture.monitor h.picture
  have hirq : a.board.irq = b.board.irq := by
    calc a.board.irq
        = ⟨a.board.irq.counter, a.board.irq.monitor⟩ := rfl
      _ = b.board.irq := by rw [h.counter, hmonitor]
  exact ⟨⟨h.board.prg, h.board.chrCount, h.board.chrIsRam, h.board.wired, h.board.make⟩,
    h.board.chip, hirq⟩

/-- Boards may be replaced by alike ones. -/
theorem withBoard (h : Alike a b) {c d : Board} (hboard : Board.Alike c d) :
    Alike { a with board := c } { b with board := d } := by
  have hmonitor : c.irq.monitor = d.irq.monitor := congrArg LineIrq.monitor hboard.irq
  refine ⟨⟨hboard.timeless, h.irqHigh, h.handler, h.background, h.sprites⟩, ?_, h.rises⟩
  exact congrArg₂ (fun (m : Monitor) (p : Picture) => { p with monitor := m }) hmonitor h.picture

theorem frame (h : Alike a b) : a.frame = b.frame :=
  congrArg Picture.frame h.picture

theorem status_eq (h : Alike a b) : a.status = b.status := by
  rw [status, status, h.rises, h.frame, Board.view_eq h.alike_board]

/-! ### Events -/

theorem write (h : Alike a b) (addr : UInt16) (value : UInt8) :
    Alike (a.write addr value) (b.write addr value) := by
  refine ⟨h.toInStep.write addr value, ?_, ?_⟩
  · rw [picture_write, picture_write, h.picture]
  · rw [write_eq, write_eq b]
    exact h.rises

theorem poll (h : Alike a b) (cycle : UInt64) : Alike (a.poll cycle) (b.poll cycle) := by
  refine ⟨h.toInStep.poll cycle cycle, ?_, ?_⟩
  · rw [picture_poll, picture_poll, h.picture]
  · rw [rises_poll, rises_poll, h.rising, h.rises]

theorem fetch (h : Alike a b) (addr : UInt16) (cycle : UInt64) :
    Alike (a.fetch addr cycle) (b.fetch addr cycle) :=
  h.withBoard (h.alike_board.perform (.notify addr cycle))

theorem apply (h : Alike a b) (e : TimedEvent) : Alike (a.apply e) (b.apply e) := by
  obtain ⟨cycle, event⟩ := e
  cases event with
  | write addr value => exact h.write addr value
  | fetch addr => exact h.fetch addr cycle
  | poll => exact h.poll cycle

theorem playAll (h : Alike a b) (events : List TimedEvent) :
    Alike (a.playAll events) (b.playAll events) := by
  induction events generalizing a b with
  | nil => exact h
  | cons e rest ih => exact ih (h.apply e)

/-! ### Frames -/

theorem withFrame (h : Alike a b) (n : Nat) :
    Alike { a with frame := n } { b with frame := n } :=
  ⟨h.toInStep.withFrame n n, congrArg (fun p : Picture => { p with frame := n }) h.picture,
    h.rises⟩

theorem playFrame (h : Alike a b) : Alike a.playFrame b.playFrame := by
  unfold Bus.playFrame frameStart
  rw [h.frame, h.background, h.sprites]
  exact (h.playAll _).withFrame _

/-- A frame reports the same lines on alike buses. -/
theorem lines_eq (h : Alike a b) : a.runFrame.1 = b.runFrame.1 := by
  rw [lines_runFrame, lines_runFrame, h.playFrame.rises, h.rises, frameStart, frameStart, h.frame]

/-! ### Actions -/

theorem reset (h : Alike a b) (hard : Bool) : Alike (a.reset hard) (b.reset hard) := by
  have hboard := h.alike_board.perform (.reset hard)
  have hpicture := (h.withBoard hboard).picture
  cases hard with
  | false =>
    exact ⟨⟨hboard.timeless, rfl, h.handler, h.background, h.sprites⟩, hpicture, h.rises⟩
  | true =>
    exact ⟨⟨hboard.timeless, rfl, h.handler, h.background, h.sprites⟩,
      congrArg (fun p : Picture => { p with frame := 0 }) hpicture, rfl⟩

theorem setTables (h : Alike a b) (background sprites : UInt16) :
    Alike (a.setTables background sprites) (b.setTables background sprites) :=
  ⟨⟨h.board, h.irqHigh, h.handler, rfl, rfl⟩,
    congrArg (fun p : Picture =>
      { p with background := background &&& 0x1000, sprites := sprites &&& 0x1000 }) h.picture,
    h.rises⟩

theorem call (h : Alike a b) (c : Call) : Alike (a.call c) (b.call c) := by
  cases c with
  | read addr => exact h
  | write addr value => exact h.write addr value
  | fetch addr cycle => exact h.fetch addr cycle
  | poll cycle => exact h.poll cycle
  | apply e => exact h.apply e
  | replay t => exact h.playAll t.events
  | runFrame => exact h.playFrame
  | setHandler writes =>
    exact ⟨⟨h.board, h.irqHigh, rfl, h.background, h.sprites⟩, h.picture, h.rises⟩
  | setTables background sprites => exact h.setTables background sprites
  | reset hard => exact h.reset hard

/-- No action tells alike buses apart. -/
theorem act (h : Alike a b) (action : Action) : Alike (a.act action) (b.act action) := by
  cases action with
  | call c => exact h.call c
  | board op => exact h.withBoard (h.alike_board.perform op)

theorem acts (h : Alike a b) (actions : List Action) : Alike (a.acts actions) (b.acts actions) := by
  induction actions generalizing a b with
  | nil => exact h
  | cons action rest ih => exact ih (h.act action)

theorem answer_eq (h : Alike a b) (action : Action) : a.answer action = b.answer action := by
  cases action with
  | call c =>
    cases c with
    | runFrame => exact congrArg Answer.lines h.lines_eq
    | poll cycle => exact congrArg Answer.level h.pending
    | _ => rfl
  | board op =>
    cases op with
    | load bytes =>
      have hchip : a.board.chip = b.board.chip := h.alike_board.chip
      simp only [answer, Board.load_eq]
      cases Record.decode bytes with
      | error e => rfl
      | ok record =>
        simp only [Board.restore, hchip]
        cases record.check b.board.chip.layout <;> rfl
    | _ => rfl

end Alike

/-! ## What no action changes -/

/-- What holds at first and is kept by calls and by operations of the board holds after all. -/
theorem acts_induction {P : Bus → Prop} {b : Bus} (hstart : P b)
    (hcall : ∀ b c, P b → P (b.call c))
    (hboard : ∀ b op, P b → P { b with board := b.board.perform op }) (actions : List Action) :
    P (b.acts actions) := by
  induction actions generalizing b with
  | nil => exact hstart
  | cons action rest ih =>
    refine ih ?_
    cases action with
    | call c => exact hcall b c hstart
    | board op => exact hboard b op hstart

theorem sameBuild_call (b : Bus) (c : Call) : Board.SameBuild b.board (b.call c).board := by
  cases c with
  | read addr => exact Board.SameBuild.refl b.board
  | write addr value => exact sameBuild_write b addr value
  | fetch addr cycle => exact Board.SameBuild.perform b.board (.notify addr cycle)
  | poll cycle => exact sameBuild_poll b cycle
  | apply e => exact sameBuild_apply b e
  | replay t => exact sameBuild_playAll b t.events
  | runFrame => exact sameBuild_nextFrame (sameBuild_playAll b _) rfl
  | setHandler writes => exact Board.SameBuild.refl b.board
  | setTables background sprites => exact Board.SameBuild.refl b.board
  | reset hard => exact Board.SameBuild.reset hard b.board

theorem sameBuild_acts (b : Bus) (actions : List Action) :
    Board.SameBuild b.board (b.acts actions).board :=
  acts_induction (P := fun c => Board.SameBuild b.board c.board) (Board.SameBuild.refl b.board)
    (fun c _ h => h.trans (sameBuild_call c _)) (fun c op h => h.trans (.perform c.board op)) actions

/-- The tables of the bus start at $0000 or $1000. -/
structure OnTables (b : Bus) : Prop where
  background : b.background &&& 0x1000 = b.background
  sprites : b.sprites &&& 0x1000 = b.sprites

theorem OnTables.of_new (board : Board) : ({ board } : Bus).OnTables :=
  ⟨show (0x0000 : UInt16) &&& 0x1000 = 0x0000 by decide,
    show (0x1000 : UInt16) &&& 0x1000 = 0x1000 by decide⟩

theorem OnTables.of_picture {b c : Bus} (h : b.OnTables) {monitor : Monitor} {frame : Nat}
    (hpicture : c.picture = { b.picture with monitor, frame }) : c.OnTables := by
  have hbackground : c.background = b.background := background_of_picture hpicture
  have hsprites : c.sprites = b.sprites := sprites_of_picture hpicture
  refine ⟨?_, ?_⟩
  · rw [hbackground, h.background]
  · rw [hsprites, h.sprites]

theorem OnTables.call {b : Bus} (h : b.OnTables) (c : Call) : (b.call c).OnTables := by
  cases c with
  | read addr => exact h
  | write addr value => exact h.of_picture (picture_write b addr value)
  | fetch addr cycle => exact h.of_picture (picture_apply b ⟨cycle, .fetch addr⟩)
  | poll cycle => exact h.of_picture (picture_poll b cycle)
  | apply e => exact h.of_picture (picture_apply b e)
  | replay t => exact h.of_picture (picture_playAll b t.events)
  | runFrame => exact h.of_picture (picture_runFrame b)
  | setHandler writes => exact ⟨h.background, h.sprites⟩
  | setTables background sprites =>
    have hmask : ∀ table : UInt16, table &&& 0x1000 &&& 0x1000 = table &&& 0x1000 := fun table => by
      rw [UInt16.and_assoc, UInt16.and_self]
    exact ⟨hmask background, hmask sprites⟩
  | reset hard => exact ⟨h.background, h.sprites⟩

theorem OnTables.acts {b : Bus} (h : b.OnTables) (actions : List Action) :
    (b.acts actions).OnTables :=
  acts_induction h (fun _ c h => h.call c) (fun _ _ h => ⟨h.background, h.sprites⟩) actions

/-! ## Hard resets -/

/-- A board after a hard reset is alike to the one that its cartridge makes. -/
theorem alike_board_hardReset {cart : Cartridge} {start b : Board}
    (hstart : Board.ofCartridge cart = .ok start) (h : Board.SameBuild start b) :
    Board.Alike (b.reset true) start := by
  have hirq : start.irq = {} := (Board.ofCartridge_eq_ok hstart).2.1
  exact ⟨(h.trans (Board.SameBuild.reset true b)).symm, Board.chip_hardReset hstart h, hirq.symm⟩

/-- A bus after a hard reset is alike to a new one with its tables and its handler. -/
theorem alike_hardReset {cart : Cartridge} {board : Board}
    (hboard : Board.ofCartridge cart = .ok board) {old : Bus}
    (hbuild : Board.SameBuild board old.board) (htables : old.OnTables) :
    Alike (old.reset true) (({ board } : Bus).acts
      [.call (.setTables old.background old.sprites), .call (.setHandler old.handler)]) := by
  have hreset := alike_board_hardReset hboard hbuild
  refine ⟨⟨hreset.timeless, rfl, rfl, htables.background.symm, htables.sprites.symm⟩, ?_, rfl⟩
  have hmonitor : (old.board.reset true).irq.monitor = board.irq.monitor :=
    congrArg LineIrq.monitor hreset.irq
  show (⟨(old.board.reset true).irq.monitor, 0, old.background, old.sprites⟩ : Picture)
    = ⟨board.irq.monitor, 0, old.background &&& 0x1000, old.sprites &&& 0x1000⟩
  rw [hmonitor, htables.background, htables.sprites]

/-- A bus with any past, after a hard reset: its board saves what a new board of the cartridge
saves, no rise is noted, the next frame is the first one, and whatever happens from then on, it
shows and answers what a new bus with the same tables and the same handler does. -/
theorem hardReset_powersOn {cart : Cartridge} {board : Board}
    (hboard : Board.ofCartridge cart = .ok board) (past : List Action) :
    let old := ({ board } : Bus).acts past
    let new := ({ board } : Bus).acts
      [.call (.setTables old.background old.sprites), .call (.setHandler old.handler)]
    (old.reset true).board.save = board.save ∧
      (old.reset true).rises = #[] ∧
      (old.reset true).frame = 0 ∧
      ∀ future,
        ((old.reset true).acts future).status = (new.acts future).status ∧
          ∀ action,
            ((old.reset true).acts future).answer action = (new.acts future).answer action := by
  intro old new
  have hbuild : Board.SameBuild board old.board := sameBuild_acts { board } past
  have htables : old.OnTables := (OnTables.of_new board).acts past
  have halike : Alike (old.reset true) new := alike_hardReset hboard hbuild htables
  have hsave : (old.reset true).board.save = board.save :=
    congrArg Board.View.saved (Board.view_eq (alike_board_hardReset hboard hbuild))
  refine ⟨hsave, rfl, rfl, fun future => ?_⟩
  have hafter := halike.acts future
  exact ⟨hafter.status_eq, hafter.answer_eq⟩

/-- A blank MMC3 cartridge that took a record which no run of it saves: a count of more than a byte,
and a mirroring that it is not wired for. Its tables are swapped, and a poll notes a rise. -/
theorem hardReset_powersOn_loaded :
    ∃ board, Board.ofCartridge (Cartridge.blank 4 0 16 128) = .ok board ∧
      let chip := Chip.mmc3 ⟨.sharp, 0xC7, Vector.replicate 8 0x3F, .oneScreenUpper, true, true⟩
      let irq : LineIrq := ⟨⟨0x1234, 0xBEEF, true, true, true⟩, ⟨true, some 99, 5⟩⟩
      let old := ({ board } : Bus).acts [.board (.load { board with chip, irq }.save),
        .call (.setTables 0x1FFF 0x0123), .call (.setHandler [(0xE000, 0)]), .call (.poll 7)]
      let new := ({ board } : Bus).acts
        [.call (.setTables 0x1000 0x0000), .call (.setHandler [(0xE000, 0)])]
      old.board.count = 0x1234 ∧ old.board.mirroring = .oneScreenUpper ∧ old.rises = #[7] ∧
        (old.reset true).board.save = board.save ∧
        ∀ future, ((old.reset true).acts future).status = (new.acts future).status := by
  obtain ⟨board, hboard, hchip⟩ := Board.exists_ofCartridge_blank
    (show Family.ofNumber? 4 = some .mmc3 from rfl) 0 16 128
  refine ⟨board, hboard, ?_⟩
  intro chip irq old new
  have hmake : board.chip.make = chip.make := by rw [hchip]; rfl
  have hload : board.perform (.load { board with chip, irq }.save) = { board with chip, irq } := by
    rw [Board.perform, Board.load_save_of_make hmake]
  have hold : old = ({ board := { board with chip, irq } } : Bus).acts
      [.call (.setTables 0x1FFF 0x0123), .call (.setHandler [(0xE000, 0)]), .call (.poll 7)] := by
    have hact : ({ board } : Bus).act (.board (.load { board with chip, irq }.save))
        = { board := { board with chip, irq } } := by
      rw [act, hload]
    exact (acts_cons _ _ _).trans (by rw [hact])
  have hwired : board.wired = .vertical := (Board.ofCartridge_eq_ok hboard).1
  obtain ⟨hsave, -, -, hfuture⟩ := hardReset_powersOn hboard
    [.board (.load { board with chip, irq }.save), .call (.setTables 0x1FFF 0x0123),
      .call (.setHandler [(0xE000, 0)]), .call (.poll 7)]
  have hbackground : old.background = 0x1000 := by rw [hold]; rfl
  have hsprites : old.sprites = 0x0000 := by rw [hold]; rfl
  have hhandler : old.handler = [(0xE000, 0)] := by rw [hold]; rfl
  have hmirroring : old.board.mirroring
      = if board.wired = .fourScreen then .fourScreen else .oneScreenUpper := by rw [hold]; rfl
  refine ⟨by rw [hold]; rfl, ?_, by rw [hold]; rfl, hsave, fun future => ?_⟩
  · rw [hmirroring, hwired]
    rfl
  · have hstatus := (hfuture future).1
    rw [hbackground, hsprites, hhandler] at hstatus
    exact hstatus

end Bus

end RasterIrq
