import RasterIrq.Proofs.Counter.Firing

/-!
# Polling a counter

Where the interrupt line goes up depends on two things only: the counter, and the level that the
last poll noted. `Watch` is this pair. A line clocks the counter once and polls it once; a poll that
finds the line gone up lets the processor serve it, by a fixed list of commands.

Results:
1. `Watch.line_of_fires`: up to its first firing a counter is not served, and then it is.
2. `Watch.risesAt_of_periodic`: a counter that is served into firing after `p` clocks again makes
   the line go up at every `p`-th line.
3. `Watch.risesAt_of_unserved`: a counter that is never served makes it go up once.
-/

namespace RasterIrq

structure Watch where
  counter : Counter
  /-- The level of the interrupt line at the last poll. -/
  high : Bool
deriving DecidableEq, Repr

namespace Watch

open Counter

/-- Whether the poll of the next line finds the interrupt line gone up. -/
def rising (cfg : Config) (w : Watch) : Bool :=
  (w.counter.clock cfg).pending && !w.high

/-- What a line makes of the watch: a clock, and the service of a rise. -/
def line (cfg : Config) (service : List Command) (w : Watch) : Watch :=
  let clocked := w.counter.clock cfg
  let served := if w.rising cfg then clocked.obeyAll cfg service else clocked
  ⟨served, served.pending⟩

/-- Whether the line goes up at the poll that comes after `n` lines and another one. -/
def risesAt (cfg : Config) (service : List Command) (w : Watch) (n : Nat) : Bool :=
  ((line cfg service)^[n] w).rising cfg

variable {cfg : Config} (service : List Command) {c d : Counter} {p : Nat}

theorem risesAt_add (w : Watch) (m n : Nat) :
    w.risesAt cfg service (m + n) = ((line cfg service)^[m] w).risesAt cfg service n := by
  rw [risesAt, Nat.add_comm, Function.iterate_add_apply, risesAt]

theorem risesAt_succ (w : Watch) (n : Nat) :
    w.risesAt cfg service (n + 1) = (w.line cfg service).risesAt cfg service n := by
  rw [Nat.add_comm, risesAt_add, Function.iterate_one]

/-! ## Up to the first firing -/

theorem quiet_of_not_asserts (hpending : c.pending = false) (h : c.asserts cfg = false) :
    rising cfg ⟨c, false⟩ = false ∧ line cfg service ⟨c, false⟩ = ⟨c.clock cfg, false⟩ ∧
      (c.clock cfg).pending = false := by
  have hclock : (c.clock cfg).pending = false := by rw [pending_clock, hpending, h]; rfl
  have hrising : rising cfg ⟨c, false⟩ = false := by rw [rising, hclock]; rfl
  refine ⟨hrising, ?_, hclock⟩
  rw [line, hrising]
  exact congrArg (Watch.mk (c.clock cfg)) hclock

theorem served_of_asserts (h : c.asserts cfg = true) :
    rising cfg ⟨c, false⟩ = true ∧
      line cfg service ⟨c, false⟩
        = ⟨(c.clock cfg).obeyAll cfg service, ((c.clock cfg).obeyAll cfg service).pending⟩ := by
  have hclock : (c.clock cfg).pending = true := by rw [pending_clock, h, Bool.or_true]
  have hrising : rising cfg ⟨c, false⟩ = true := by rw [rising, hclock]; rfl
  refine ⟨hrising, ?_⟩
  rw [line, hrising]
  rfl

theorem line_of_fires (h : Fires cfg p c d) (hpending : c.pending = false) :
    (∀ n, n < p → (risesAt cfg service ⟨c, false⟩ n = true ↔ n + 1 = p)) ∧
      (line cfg service)^[p] ⟨c, false⟩
        = ⟨d.obeyAll cfg service, (d.obeyAll cfg service).pending⟩ := by
  induction h with
  | now h =>
    obtain ⟨hrising, hline⟩ := served_of_asserts service h
    refine ⟨fun n hn => ?_, hline⟩
    obtain rfl : n = 0 := by omega
    exact iff_of_true hrising rfl
  | later h rest ih =>
    obtain ⟨hrising, hline, hclock⟩ := quiet_of_not_asserts service hpending h
    obtain ⟨hrises, hserved⟩ := ih hclock
    have hpos := rest.pos
    refine ⟨fun n hn => ?_, ?_⟩
    · cases n with
      | zero =>
        refine iff_of_false ?_ (by omega)
        rw [risesAt, Function.iterate_zero, id, hrising]
        exact Bool.false_ne_true
      | succ n =>
        rw [risesAt_succ, hline, hrises n (by omega)]
        omega
    · rw [Function.iterate_succ_apply, hline, hserved]

theorem risesAt_of_silent (h : Silent cfg c) (hpending : c.pending = false) (n : Nat) :
    risesAt cfg service ⟨c, false⟩ n = false := by
  induction n generalizing c with
  | zero => exact (quiet_of_not_asserts service hpending (h 0)).1
  | succ n ih =>
    obtain ⟨-, hline, hclock⟩ := quiet_of_not_asserts service hpending (h 0)
    rw [risesAt_succ, hline]
    refine ih (fun m => ?_) hclock
    rw [← Function.iterate_succ_apply]
    exact h (m + 1)

/-! ## From then on -/

/-- While the interrupt stays pending the line stays high, and does not go up again. -/
theorem risesAt_of_held (hpending : c.pending = true) (n : Nat) :
    risesAt cfg service ⟨c, true⟩ n = false := by
  have hrising : ∀ c, rising cfg ⟨c, true⟩ = false := fun c => Bool.and_false _
  induction n generalizing c with
  | zero => exact hrising c
  | succ n ih =>
    have hclock : (c.clock cfg).pending = true := by rw [pending_clock, hpending, Bool.true_or]
    have hline : line cfg service ⟨c, true⟩ = ⟨c.clock cfg, true⟩ := by
      rw [line, hrising]
      exact congrArg (Watch.mk (c.clock cfg)) hclock
    rw [risesAt_succ, hline]
    exact ih hclock

theorem risesAt_of_unserved (h : Fires cfg p c d) (hpending : c.pending = false) (n : Nat) :
    risesAt cfg [] ⟨c, false⟩ n = true ↔ n + 1 = p := by
  obtain ⟨hrises, hserved⟩ := line_of_fires [] h hpending
  rcases Nat.lt_or_ge n p with hlt | hge
  · exact hrises n hlt
  · obtain ⟨m, rfl⟩ := Nat.exists_eq_add_of_le hge
    have hheld : (line cfg [])^[p] ⟨c, false⟩ = ⟨d, true⟩ :=
      hserved.trans (congrArg (Watch.mk d) h.pending)
    rw [risesAt_add, hheld, risesAt_of_held [] h.pending]
    exact iff_of_false Bool.false_ne_true (by omega)

/-- The counters in `armed` fire after `p` clocks, and their service arms them again. -/
theorem risesAt_of_periodic (armed : Counter → Prop)
    (harmed : ∀ c, armed c →
      c.pending = false ∧ ∃ d, Fires cfg p c d ∧ armed (d.obeyAll cfg service))
    (hc : armed c) (n : Nat) : risesAt cfg service ⟨c, false⟩ n = true ↔ p ∣ n + 1 := by
  obtain ⟨-, _, hfires, -⟩ := harmed c hc
  refine shows_iff_dvd (fun w => ∃ c, armed c ∧ w = ⟨c, false⟩) ?_ hfires.pos ⟨c, hc, rfl⟩ n
  -- Up to its first firing the counter is as good as unserved. After that it is armed again.
  rintro _ ⟨c, hc, rfl⟩
  obtain ⟨hpending, d, hfires, hagain⟩ := harmed c hc
  obtain ⟨hrises, hserved⟩ := line_of_fires service hfires hpending
  refine ⟨hrises, _, hagain, ?_⟩
  rw [hserved, (harmed _ hagain).1]

end Watch

end RasterIrq
