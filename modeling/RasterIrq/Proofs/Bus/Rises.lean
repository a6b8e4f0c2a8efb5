import RasterIrq.Proofs.Bus.Replay

/-!
# Where rises come from

A bus notes a rise when a poll finds the line high that was low after the poll before. The interrupt
itself is asserted at other times, by clocks of the counter, and may be gone again before the next
poll. `Bus.log` records these things in the order in which they happen: asserting clocks, polls and
resets, each as the bus that it happens to shows it. A log has its last note first.

What a log says about a bus is the invariant `Bus.Explained`: a line that the next poll finds gone
up was asserted since the last rise, and one that was left high has been high since a rise.

Results:
1. `Bus.Explained.apply`, `Bus.Explained.call`: events and calls keep a bus explained by its log.
2. `Bus.Explained.calls`: so do runs.
3. `Bus.rises_explained`: on a new bus rises are neither invented nor duplicated nor missed.
-/

namespace RasterIrq

/-! ## Commands never assert -/

theorem Counter.pending_of_obeyAll {cfg : Config} {c : Counter} {commands : List Command}
    (h : (c.obeyAll cfg commands).pending = true) : c.pending = true := by
  induction commands generalizing c with
  | nil => exact h
  | cons command rest ih =>
    have hobey : (c.obey cfg command).pending = true := ih h
    cases command with
    | setReload value =>
      rw [obey, setReload] at hobey
      split at hobey <;> exact hobey
    | forceReload => exact hobey
    | load value => exact hobey
    | setEnabled enabled => exact hobey
    | acknowledge => cases hobey

namespace Bus

theorem pending_of_write {b : Bus} {addr : UInt16} {value : UInt8}
    (h : (b.write addr value).board.pending = true) : b.board.pending = true := by
  rw [Board.pending, irq_write] at h
  exact Counter.pending_of_obeyAll h

theorem irqHigh_of_not_rising {b : Bus} (h : b.rising = false) (hpending : b.board.pending = true) :
    b.irqHigh = true := by
  rw [rising, hpending, Bool.true_and] at h
  exact (Bool.not_eq_false' _).mp h

/-- A poll that finds no rise leaves the line as it is. -/
theorem irqHigh_poll {b : Bus} (h : b.rising = false) (cycle : UInt64) :
    (b.poll cycle).irqHigh = b.board.pending := by
  show (b.poll cycle).board.irq.pending = b.board.pending
  rw [irq_poll, h]
  rfl

/-! ## Logs -/

/-- What a poll finds and does. -/
structure Polled where
  cycle : UInt64
  /-- Whether it finds the line high. -/
  found : Bool
  /-- Whether it notes a rise. -/
  rose : Bool
  /-- Whether it leaves the line high. -/
  left : Bool
deriving DecidableEq, Repr

inductive Note where
  /-- A clock of the counter asserts the interrupt. -/
  | assertion
  | poll (p : Polled)
  | reset (hard : Bool)
deriving DecidableEq, Repr

/-- A poll of a bus. -/
def polled (b : Bus) (cycle : UInt64) : Polled where
  cycle := cycle
  found := b.board.pending
  rose := b.rising
  left := (b.poll cycle).irqHigh

/-- What there is to note about an event. -/
def notesOf (b : Bus) (e : TimedEvent) : List Note :=
  match e.event with
  | .write _ _ => []
  | .fetch addr =>
    if b.board.irq.asserts b.board.chip.wiring addr e.cycle then [.assertion] else []
  | .poll => [.poll (b.polled e.cycle)]

theorem notesOf_fetch (b : Bus) (addr : UInt16) (cycle : UInt64) :
    b.notesOf ⟨cycle, .fetch addr⟩
      = if b.board.irq.asserts b.board.chip.wiring addr cycle then [.assertion] else [] := rfl

/-- The log of events. -/
def logOf (b : Bus) : List TimedEvent → List Note
  | [] => []
  | e :: rest => (b.apply e).logOf rest ++ b.notesOf e

/-- All that can be asked of a bus. -/
inductive Call where
  /-- The processor reads. -/
  | read (addr : UInt16)
  /-- The processor writes. -/
  | write (addr : UInt16) (value : UInt8)
  /-- The picture unit puts an address on its bus. -/
  | fetch (addr : UInt16) (cycle : UInt64)
  /-- The processor looks at the interrupt line. -/
  | poll (cycle : UInt64)
  /-- An event happens. -/
  | apply (e : TimedEvent)
  /-- A timeline is played. -/
  | replay (t : Timeline)
  /-- The picture unit draws the next frame. -/
  | runFrame
  /-- The processor gets another interrupt handler. -/
  | setHandler (writes : List (UInt16 × UInt8))
  /-- The picture unit gets other pattern tables. -/
  | setTables (background sprites : UInt16)
  | reset (hard : Bool)
deriving DecidableEq, Repr

/-- The bus after a call. Reading changes nothing. -/
def call (b : Bus) : Call → Bus
  | .read _ => b
  | .write addr value => b.write addr value
  | .fetch addr cycle => b.fetch addr cycle
  | .poll cycle => b.poll cycle
  | .apply e => b.apply e
  | .replay t => b.replay t
  | .runFrame => b.runFrame.2
  | .setHandler writes => { b with handler := writes }
  | .setTables background sprites => b.setTables background sprites
  | .reset hard => b.reset hard

def calls (b : Bus) (cs : List Call) : Bus :=
  cs.foldl call b

/-- The log of a call. -/
def logOfCall (b : Bus) : Call → List Note
  | .read _ => []
  | .write addr value => b.notesOf ⟨0, .write addr value⟩
  | .fetch addr cycle => b.notesOf ⟨cycle, .fetch addr⟩
  | .poll cycle => b.notesOf ⟨cycle, .poll⟩
  | .apply e => b.notesOf e
  | .replay t => b.logOf t.events
  | .runFrame => b.logOf (Raster.frame b.frameStart b.background b.sprites).events
  | .setHandler _ => []
  | .setTables _ _ => []
  | .reset hard => [.reset hard]

/-- The log of calls. -/
def log (b : Bus) : List Call → List Note
  | [] => []
  | c :: cs => (b.call c).log cs ++ b.logOfCall c

/-! ## What logs say -/

/-- There was such a note, and since then only notes of the other kind. -/
inductive Since (what between : Note → Prop) : List Note → Prop where
  | now {n : Note} {past : List Note} (h : what n) : Since what between (n :: past)
  | later {n : Note} {past : List Note} (h : between n) (hpast : Since what between past) :
    Since what between (n :: past)

namespace Note

/-- Neither a rise nor a reset. -/
def Quiet : Note → Prop
  | assertion => True
  | poll p => p.rose = false
  | reset _ => False

/-- A poll that notes a rise and leaves the line high. -/
def RisesHigh : Note → Prop
  | assertion => False
  | poll p => p.rose = true ∧ p.left = true
  | reset _ => False

/-- Neither a poll that leaves the line low nor a reset. -/
def StaysHigh : Note → Prop
  | assertion => True
  | poll p => p.left = true
  | reset _ => False

/-- The cycle of the rise that is noted, if one is. -/
def rise? : Note → Option UInt64
  | assertion => none
  | poll p => if p.rose then some p.cycle else none
  | reset _ => none

end Note

/-- What was noted since the last hard reset. -/
def sinceHardReset (log : List Note) : List Note :=
  log.takeWhile fun n => decide (n ≠ .reset true)

theorem sinceHardReset_cons {n : Note} (h : n ≠ .reset true) (log : List Note) :
    sinceHardReset (n :: log) = n :: sinceHardReset log :=
  List.takeWhile_cons_of_pos (decide_eq_true h)

/-- The asserting clocks since the last hard reset. -/
def assertions (log : List Note) : Nat :=
  (sinceHardReset log).count .assertion

/-- The cycles of the rises since the last hard reset, the last one first. -/
def risesIn (log : List Note) : List UInt64 :=
  (sinceHardReset log).filterMap Note.rise?

section

variable {n : Note} (log : List Note)

theorem assertions_assertion : assertions (.assertion :: log) = assertions log + 1 := by
  rw [assertions, sinceHardReset_cons (by decide), List.count_cons_self, assertions]

theorem assertions_cons (hreset : n ≠ .reset true) (hn : n ≠ .assertion) :
    assertions (n :: log) = assertions log := by
  rw [assertions, sinceHardReset_cons hreset, List.count_cons_of_ne hn, assertions]

theorem risesIn_cons (hreset : n ≠ .reset true) :
    risesIn (n :: log) = n.rise?.toList ++ risesIn log := by
  rw [risesIn, sinceHardReset_cons hreset]
  cases hrise : n.rise? with
  | none => rw [List.filterMap_cons_none hrise]; rfl
  | some cycle => rw [List.filterMap_cons_some hrise]; rfl

end

/-- A poll that is explained by what was noted before: a rise by an assertion since the last rise,
and a high line by a rise, now or at a poll after which the line never was low. -/
structure Polled.Explained (p : Polled) (past : List Note) : Prop where
  of_rose : p.rose = true → Since (· = .assertion) Note.Quiet past
  of_found : p.found = true →
    p.rose = true ∨ p.left = true ∧ Since Note.RisesHigh Note.StaysHigh past

/-- A bus that is explained by its log. -/
structure Explained (log : List Note) (b : Bus) : Prop where
  rises_eq : b.rises.toList.reverse = risesIn log
  rises_le : b.rises.size ≤ assertions log
  /-- A rise that the next poll will note has an assertion of its own. -/
  rises_lt : b.rising = true → b.rises.size < assertions log
  asserted : b.rising = true → Since (· = .assertion) Note.Quiet log
  high : b.irqHigh = true → Since Note.RisesHigh Note.StaysHigh log
  polls : ∀ p past, .poll p :: past <:+ log → p.Explained past

namespace Explained

variable {log : List Note} {b after : Bus}

/-- Nothing is noted where the line does not go up. -/
theorem quiet (h : Explained log b) (hrises : after.rises = b.rises)
    (hhigh : after.irqHigh = b.irqHigh)
    (hpending : after.board.pending = true → b.board.pending = true) : Explained log after := by
  have hrising : after.rising = true → b.rising = true := by
    rw [Bus.rising, Bus.rising, hhigh, Bool.and_eq_true_iff, Bool.and_eq_true_iff]
    exact And.imp_left hpending
  exact {
    rises_eq := hrises ▸ h.rises_eq
    rises_le := hrises ▸ h.rises_le
    rises_lt := fun hup => hrises ▸ h.rises_lt (hrising hup)
    asserted := fun hup => h.asserted (hrising hup)
    high := fun hup => h.high (hhigh ▸ hup)
    polls := h.polls }

/-- An asserting clock explains the next rise. -/
theorem assertion (h : Explained log b) (hrises : after.rises = b.rises)
    (hhigh : after.irqHigh = b.irqHigh) : Explained (.assertion :: log) after := by
  have hlt : after.rises.size < assertions (.assertion :: log) := by
    rw [assertions_assertion, hrises]
    exact Nat.lt_succ_of_le h.rises_le
  exact {
    rises_eq := by
      rw [hrises, risesIn_cons _ (by decide)]
      exact h.rises_eq
    rises_le := Nat.le_of_lt hlt
    rises_lt := fun _ => hlt
    asserted := fun _ => .now rfl
    high := fun hup => .later trivial (h.high (hhigh ▸ hup))
    polls := fun p past hpast =>
      h.polls p past ((List.suffix_cons_iff.mp hpast).resolve_left (by rintro ⟨⟩)) }

theorem write (h : Explained log b) (addr : UInt16) (value : UInt8) :
    Explained log (b.write addr value) :=
  h.quiet (by rw [write_eq]) (by rw [write_eq]) pending_of_write

/-- A fetch asserts the interrupt or leaves the line as it is. -/
theorem fetch (h : Explained log b) (addr : UInt16) (cycle : UInt64) :
    Explained (b.notesOf ⟨cycle, .fetch addr⟩ ++ log) (b.fetch addr cycle) := by
  have hpending : (b.fetch addr cycle).board.pending
      = (b.board.pending || b.board.irq.asserts b.board.chip.wiring addr cycle) :=
    LineIrq.pending_notify _ _ _ _
  rw [notesOf_fetch]
  cases hasserts : b.board.irq.asserts b.board.chip.wiring addr cycle with
  | true => exact h.assertion rfl rfl
  | false =>
    rw [hasserts, Bool.or_false] at hpending
    exact h.quiet rfl rfl (hpending ▸ id)

theorem polled (h : Explained log b) (cycle : UInt64) : (b.polled cycle).Explained log := by
  refine ⟨h.asserted, fun hfound => ?_⟩
  cases hrising : b.rising with
  | true => exact .inl hrising
  | false =>
    have hhigh := irqHigh_of_not_rising hrising hfound
    exact .inr ⟨(irqHigh_poll hrising cycle).trans hfound, h.high hhigh⟩

/-- A poll is explained, and after it the line is not about to go up. -/
theorem poll (h : Explained log b) (cycle : UInt64) :
    Explained (.poll (b.polled cycle) :: log) (b.poll cycle) := by
  have hreset : Note.poll (b.polled cycle) ≠ .reset true := by rintro ⟨⟩
  have hlow : ¬ (b.poll cycle).rising = true := by
    rw [show (b.poll cycle).rising = false from Bool.and_not_self (b.poll cycle).board.pending]
    exact Bool.false_ne_true
  have hrise : Note.rise? (.poll (b.polled cycle)) = if b.rising then some cycle else none := rfl
  refine ⟨?_, ?_, fun hup => absurd hup hlow, fun hup => absurd hup hlow, fun hleft => ?_,
    fun p past hpast => ?_⟩
  · rw [rises_poll, risesIn_cons _ hreset, hrise, ← h.rises_eq]
    cases b.rising with
    | false => rfl
    | true =>
      rw [if_pos rfl, Array.toList_push, List.reverse_append]
      rfl
  · rw [assertions_cons _ hreset (by rintro ⟨⟩), rises_poll]
    cases hrising : b.rising with
    | false => exact h.rises_le
    | true =>
      rw [if_pos rfl, Array.size_push]
      exact h.rises_lt hrising
  -- A line that is left high without a rise was high before: the poll before left it so.
  · cases hrising : b.rising with
    | true => exact .now ⟨hrising, hleft⟩
    | false =>
      have hfound : b.board.pending = true := (irqHigh_poll hrising cycle).symm.trans hleft
      exact .later hleft (h.high (irqHigh_of_not_rising hrising hfound))
  · rcases List.suffix_cons_iff.mp hpast with heq | hbefore
    · cases heq
      exact h.polled cycle
    · exact h.polls p past hbefore

/-- A reset drops the interrupt, and a hard one forgets the rises. -/
theorem reset (h : Explained log b) (hard : Bool) :
    Explained (.reset hard :: log) (b.reset hard) := by
  have hlow : ¬ (b.reset hard).rising = true := by
    cases hard <;> exact Bool.false_ne_true
  have hhigh : ¬ (b.reset hard).irqHigh = true := Bool.false_ne_true
  refine ⟨?_, ?_, fun hup => absurd hup hlow, fun hup => absurd hup hlow,
    fun hup => absurd hup hhigh, fun p past hpast => ?_⟩
  · cases hard with
    | true => rfl
    | false =>
      rw [risesIn_cons _ (by decide)]
      exact h.rises_eq
  · cases hard with
    | true => exact Nat.zero_le _
    | false =>
      rw [assertions_cons _ (by decide) (by decide)]
      exact h.rises_le
  · exact h.polls p past ((List.suffix_cons_iff.mp hpast).resolve_left (by rintro ⟨⟩))

/-! ## Runs -/

/-- An event keeps a bus explained. -/
theorem apply (h : Explained log b) (e : TimedEvent) :
    Explained (b.notesOf e ++ log) (b.apply e) := by
  obtain ⟨cycle, event⟩ := e
  cases event with
  | write addr value => exact h.write addr value
  | fetch addr => exact h.fetch addr cycle
  | poll => exact h.poll cycle

theorem playAll (h : Explained log b) (events : List TimedEvent) :
    Explained (b.logOf events ++ log) (b.playAll events) := by
  induction events generalizing log b with
  | nil => exact h
  | cons e rest ih =>
    rw [logOf, List.append_assoc]
    exact ih (h.apply e)

theorem withFrame (h : Explained log b) (n : Nat) : Explained log { b with frame := n } :=
  h.quiet rfl rfl id

/-- A call keeps a bus explained. -/
theorem call (h : Explained log b) (c : Call) : Explained (b.logOfCall c ++ log) (b.call c) := by
  cases c with
  | read addr => exact h
  | write addr value => exact h.write addr value
  | fetch addr cycle => exact h.fetch addr cycle
  | poll cycle => exact h.poll cycle
  | apply e => exact h.apply e
  | replay t => exact h.playAll t.events
  | runFrame =>
    exact (h.playAll (Raster.frame b.frameStart b.background b.sprites).events).withFrame _
  | setHandler writes => exact h.quiet rfl rfl id
  | setTables background sprites => exact h.quiet rfl rfl id
  | reset hard => exact h.reset hard

theorem calls (h : Explained log b) (cs : List Call) :
    Explained (b.log cs ++ log) (b.calls cs) := by
  induction cs generalizing log b with
  | nil => exact h
  | cons c cs ih =>
    rw [Bus.log, List.append_assoc]
    exact ih (h.call c)

/-- Nothing was noted yet of a new bus. -/
theorem of_new {cart : Cartridge} {board : Board} (hboard : Board.ofCartridge cart = .ok board) :
    Explained [] { board } := by
  have hirq : board.irq = {} := (Board.ofCartridge_eq_ok hboard).2.1
  have hlow : ¬ ({ board } : Bus).rising = true := by
    rw [Bus.rising, Board.pending, hirq]
    exact Bool.false_ne_true
  exact ⟨rfl, Nat.le_refl 0, fun hup => absurd hup hlow, fun hup => absurd hup hlow,
    fun hup => absurd hup Bool.false_ne_true, fun _ _ hpast => by cases List.suffix_nil.mp hpast⟩

end Explained

/-- Over every run of a new bus: the rises that it holds are those of the polls since the last hard
reset, and they are not more than the clocks that asserted; before each of them a clock asserted,
since the rise before and the last reset; and a poll that finds the line high notes a rise, or the
line has been high at all polls since one that did, without a reset. -/
theorem rises_explained {cart : Cartridge} {board : Board}
    (hboard : Board.ofCartridge cart = .ok board) (cs : List Call) :
    let log := ({ board } : Bus).log cs
    let rises := (({ board } : Bus).calls cs).rises
    rises.toList.reverse = risesIn log ∧
      rises.size ≤ assertions log ∧
      (∀ p past, .poll p :: past <:+ log → p.rose = true →
        Since (· = .assertion) Note.Quiet past) ∧
      (∀ p past, .poll p :: past <:+ log → p.found = true →
        p.rose = true ∨ p.left = true ∧ Since Note.RisesHigh Note.StaysHigh past) := by
  have h := (Explained.of_new hboard).calls cs
  rw [List.append_nil] at h
  exact ⟨h.rises_eq, h.rises_le, fun p past hpast => (h.polls p past hpast).of_rose,
    fun p past hpast => (h.polls p past hpast).of_found⟩

/-- A blank MMC3 cartridge whose counter asserts at every clean edge: a clock asserts, a poll notes
the rise, and with no handler the next poll finds the line still high. -/
theorem rises_explained_blank :
    let cs : List Call :=
      [.write 0xC000 0, .write 0xC001 0, .write 0xE001 0, .fetch 0x1000 100, .poll 200, .poll 300]
    let served : Polled := ⟨200, true, true, true⟩
    let unserved : Polled := ⟨300, true, false, true⟩
    ∃ board, Board.ofCartridge (Cartridge.blank 4 0 16 128) = .ok board ∧
      ({ board } : Bus).log cs = [.poll unserved, .poll served, .assertion] ∧
      (({ board } : Bus).calls cs).rises.toList.reverse = [200] ∧
      Since (· = .assertion) Note.Quiet [.assertion] ∧
      Since Note.RisesHigh Note.StaysHigh [.poll served, .assertion] := by
  intro cs served unserved
  obtain ⟨board, hboard, hchip⟩ := Board.exists_ofCartridge_blank
    (show Family.ofNumber? 4 = some .mmc3 from rfl) 0 16 128
  have hlog : ({ board } : Bus).log cs = [.poll unserved, .poll served, .assertion] := by
    have hirq : board.irq = {} := (Board.ofCartridge_eq_ok hboard).2.1
    clear hboard
    obtain ⟨prg, chr, chrIsRam, ram, wired, chip, irq⟩ := board
    subst hchip hirq
    cases wired <;> rfl
  obtain ⟨hrises, -, hrose, hfound⟩ := rises_explained hboard cs
  rw [hlog] at hrises hrose hfound
  refine ⟨board, hboard, hlog, hrises, ?_, ?_⟩
  · exact hrose served _ (List.suffix_cons _ _) rfl
  · exact ((hfound unserved _ (List.suffix_refl _) rfl).resolve_left Bool.false_ne_true).2

end Bus

end RasterIrq
