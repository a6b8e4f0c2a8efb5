import RasterIrq.Counter
import Mathlib.Algebra.Group.Nat.Defs
import Mathlib.Logic.Function.Iterate

/-!
# When a counter fires

`Counter.Fires cfg p c d` says that of the clocks from `c` on the `p`-th is the first that asserts,
and that it leaves `d`. A counter is `Counter.Silent` if no clock ever asserts.

Results:
1. `Counter.fires_of_reloads`: a downward counter that reloads `r` next fires at clock `r + 1`.
2. `Counter.silent_of_zero`: unless `r` is zero and the board ignores reloads of zero.
3. `Counter.fires_up`: an upward counter fires when it has gone the way to its target, at the first
   clock if it is there already.
4. `Counter.asserts_iterate_iff_dvd`: a counter that firing leaves as it was fires periodically.
-/

namespace RasterIrq

/-- What goes round in `p` steps, and shows something at the last state of a round only, shows it at
every `p`-th state. -/
theorem shows_iff_dvd {α : Type} {step : α → α} {shows : α → Bool} {p : Nat} (ready : α → Prop)
    (hround : ∀ a, ready a →
      (∀ n, n < p → (shows (step^[n] a) = true ↔ n + 1 = p)) ∧ ready (step^[p] a))
    (hpos : 0 < p) {a : α} (ha : ready a) (n : Nat) : shows (step^[n] a) = true ↔ p ∣ n + 1 := by
  -- After a round the state is ready again, and what is left of `n` is shorter by a round.
  induction n using Nat.strongRecOn generalizing a with
  | ind n ih =>
    obtain ⟨hshows, hagain⟩ := hround a ha
    rcases Nat.lt_or_ge n p with hlt | hge
    · rw [hshows n hlt]
      refine ⟨fun h => h ▸ Nat.dvd_refl p, fun h => ?_⟩
      exact Nat.le_antisymm hlt (Nat.le_of_dvd (Nat.succ_pos n) h)
    · obtain ⟨m, rfl⟩ := Nat.exists_eq_add_of_le hge
      rw [Nat.add_comm p m, Function.iterate_add_apply, ih m (by omega) hagain, Nat.add_right_comm,
        Nat.dvd_add_left (Nat.dvd_refl p)]

namespace Counter

inductive Fires (cfg : Config) : Nat → Counter → Counter → Prop where
  | now {c : Counter} (h : c.asserts cfg = true) : Fires cfg 1 c (c.clock cfg)
  | later {p : Nat} {c d : Counter} (h : c.asserts cfg = false)
    (rest : Fires cfg p (c.clock cfg) d) : Fires cfg (p + 1) c d

def Silent (cfg : Config) (c : Counter) : Prop :=
  ∀ n, ((clock cfg)^[n] c).asserts cfg = false

variable {cfg : Config} {c : Counter}

theorem Fires.pos {p : Nat} {d : Counter} (h : Fires cfg p c d) : 0 < p := by
  cases h with
  | now => exact Nat.one_pos
  | later => exact Nat.succ_pos _

theorem Fires.pending {p : Nat} {d : Counter} (h : Fires cfg p c d) : d.pending = true := by
  induction h with
  | now h => rw [pending_clock, h, Bool.or_true]
  | later _ _ ih => exact ih

theorem Fires.iterate_eq {p : Nat} {d : Counter} (h : Fires cfg p c d) : (clock cfg)^[p] c = d := by
  induction h with
  | now h => rfl
  | later h rest ih =>
    rw [Function.iterate_succ_apply]
    exact ih

theorem Fires.asserts_iterate_iff {p : Nat} {d : Counter} (h : Fires cfg p c d) {n : Nat}
    (hn : n < p) : ((clock cfg)^[n] c).asserts cfg = true ↔ n + 1 = p := by
  induction h generalizing n with
  | now h =>
    obtain rfl : n = 0 := by omega
    exact iff_of_true h rfl
  | later h rest ih =>
    have hpos := rest.pos
    cases n with
    | zero =>
      refine iff_of_false ?_ (by omega)
      rw [Function.iterate_zero, id, h]
      exact Bool.false_ne_true
    | succ n =>
      rw [Function.iterate_succ_apply, ih (Nat.lt_of_succ_lt_succ hn)]
      omega

/-- The counters in `armed` fire after `p` clocks and are armed again then. -/
theorem asserts_iterate_iff_dvd {p : Nat} (armed : Counter → Prop)
    (harmed : ∀ c, armed c → ∃ d, Fires cfg p c d ∧ armed d) (hc : armed c) (n : Nat) :
    ((clock cfg)^[n] c).asserts cfg = true ↔ p ∣ n + 1 := by
  obtain ⟨_, hfires, -⟩ := harmed c hc
  refine shows_iff_dvd armed (fun c hc => ?_) hfires.pos hc n
  obtain ⟨d, hfires, hagain⟩ := harmed c hc
  refine ⟨fun n hn => hfires.asserts_iterate_iff hn, ?_⟩
  rw [hfires.iterate_eq]
  exact hagain

/-- A counter that fires, and is then one that asserts at every `p`-th clock. -/
theorem Fires.asserts_iff_of_periodic {q p : Nat} {d : Counter} (h : Fires cfg q c d)
    (hperiodic : ∀ n, ((clock cfg)^[n] d).asserts cfg = true ↔ p ∣ n + 1) (n : Nat) :
    ((clock cfg)^[n] c).asserts cfg = true ↔ ∃ j, n + 1 = q + j * p := by
  rcases Nat.lt_or_ge n q with hlt | hge
  · rw [h.asserts_iterate_iff hlt]
    refine ⟨fun heq => ⟨0, by omega⟩, fun ⟨j, hj⟩ => ?_⟩
    have := Nat.zero_le (j * p)
    omega
  · obtain ⟨m, rfl⟩ := Nat.exists_eq_add_of_le' hge
    rw [Function.iterate_add_apply, h.iterate_eq, hperiodic]
    constructor
    · rintro ⟨j, hj⟩
      exact ⟨j, by rw [Nat.mul_comm j p]; omega⟩
    · rintro ⟨j, hj⟩
      exact ⟨j, by rw [Nat.mul_comm p j]; omega⟩

/-- A counter that a clock leaves as quiet as it was is silent. -/
theorem silent_of_invariant (quiet : Counter → Prop) (hc : quiet c)
    (hclock : ∀ c, quiet c → quiet (c.clock cfg))
    (hasserts : ∀ c, quiet c → c.asserts cfg = false) : Silent cfg c := by
  intro n
  induction n generalizing c with
  | zero => exact hasserts c hc
  | succ n ih =>
    rw [Function.iterate_succ_apply]
    exact ih (hclock c hc)

/-- A clock enables no counter. -/
theorem enabled_clock (h : c.enabled = false) : (c.clock cfg).enabled = false := by
  show (c.advance cfg).enabled = false
  unfold advance
  split
  · exact h
  · rw [h]
    exact h

theorem asserts_of_disabled (h : c.enabled = false) : c.asserts cfg = false := by
  rw [asserts, h]
  rfl

theorem silent_of_disabled (h : c.enabled = false) : Silent cfg c :=
  silent_of_invariant (fun c => c.enabled = false) h (fun _ => enabled_clock)
    fun _ => asserts_of_disabled

/-! ## Counting down -/

/-- The count that firing leaves in a downward counter. -/
def leftBehind (cfg : Config) (c : Counter) : UInt16 :=
  if cfg.onTrigger = .reloadImmediately then c.reload else 0

theorem countDown_of_step_ne_zero (h : c.stepDown ≠ 0) : c.countDown cfg = c.stepDown := by
  rw [countDown, beq_false_of_ne h]
  rfl

theorem countDown_of_holdAtZero (h : cfg.onTrigger = .holdAtZero) :
    c.countDown cfg = c.stepDown := by
  rw [countDown, h, show (TriggerPolicy.holdAtZero == .reloadImmediately) = false from rfl,
    Bool.and_false]
  rfl

theorem toNat_sub_one {n : UInt16} (h : 1 ≤ n.toNat) : (n - 1).toNat = n.toNat - 1 :=
  UInt16.toNat_sub_of_le n 1 (UInt16.le_iff_toNat_le.mpr h)

/-- A counter that does not reload stands above zero. -/
theorem one_le_of_not_reloads (h : c.reloads = false) : 1 ≤ c.count.toNat := by
  have hne : c.count ≠ 0 := by
    intro hzero
    rw [reloads, hzero] at h
    cases h
  exact Nat.one_le_iff_ne_zero.mpr fun hnat => hne (UInt16.toNat_inj.mp hnat)

section

variable (hdown : cfg.direction = .down)

include hdown

theorem asserts_down : c.asserts cfg = (c.enabled && c.triggersDown cfg) := by
  rw [asserts, hdown]

theorem clock_down :
    c.clock cfg
      = { c with
          count := c.countDown cfg
          reloadPending := false
          pending := c.pending || c.enabled && c.triggersDown cfg } := by
  rw [clock, asserts_down hdown, advance, hdown]

/-- A clock on the way down. -/
theorem clock_of_one_lt (hforced : c.reloadPending = false) (h : 1 < c.count.toNat) :
    c.asserts cfg = false ∧ c.clock cfg = { c with count := c.count - 1 } := by
  have hreloads : c.reloads = false := by
    rw [reloads, hforced, Bool.or_false, beq_eq_false_iff_ne]
    intro hzero
    rw [hzero] at h
    cases h
  have hstep : c.stepDown = c.count - 1 := by rw [stepDown, hreloads]; rfl
  have hne : c.stepDown ≠ 0 := by
    rw [hstep, ne_eq, ← UInt16.toNat_inj, toNat_sub_one (Nat.le_of_lt h)]
    exact Nat.sub_ne_zero_of_lt h
  have htriggers : c.triggersDown cfg = false := by rw [triggersDown, beq_false_of_ne hne]; rfl
  rw [asserts_down hdown, clock_down hdown, countDown_of_step_ne_zero hne, htriggers, hstep]
  simp [hforced]

/-- The last clock on the way down. -/
theorem clock_of_one (henabled : c.enabled = true) (hforced : c.reloadPending = false)
    (h : c.count = 1) :
    c.asserts cfg = true ∧
      c.clock cfg = { c with count := c.leftBehind cfg, pending := true } := by
  have hreloads : c.reloads = false := by rw [reloads, h, hforced]; rfl
  have hstep : c.stepDown = 0 := by rw [stepDown, hreloads, h]; rfl
  have htriggers : c.triggersDown cfg = true := by rw [triggersDown, hstep, hreloads]; rfl
  have hcount : c.countDown cfg = c.leftBehind cfg := by
    rw [countDown, hstep, hreloads, leftBehind]
    simp
  rw [asserts_down hdown, clock_down hdown, hcount, htriggers, henabled]
  simp [hforced]

/-- A reload. -/
theorem clock_of_reloads (hreloads : c.reloads = true) (h : c.reload ≠ 0) :
    c.asserts cfg = false ∧
      c.clock cfg = { c with count := c.reload, reloadPending := false } := by
  have hstep : c.stepDown = c.reload := by rw [stepDown, hreloads]; rfl
  have hne : c.stepDown ≠ 0 := hstep ▸ h
  have htriggers : c.triggersDown cfg = false := by rw [triggersDown, beq_false_of_ne hne]; rfl
  rw [asserts_down hdown, clock_down hdown, countDown_of_step_ne_zero hne, htriggers, hstep]
  simp

/-- A reload of zero. -/
theorem clock_of_reloads_zero (hreloads : c.reloads = true) (h : c.reload = 0) :
    c.asserts cfg = (c.enabled && (c.reloadPending || cfg.zeroReloadTriggers)) ∧
      c.clock cfg
        = { c with
            count := 0
            reloadPending := false
            pending := c.pending || c.enabled && (c.reloadPending || cfg.zeroReloadTriggers) } := by
  have hstep : c.stepDown = 0 := by rw [stepDown, hreloads, h]; rfl
  have htriggers : c.triggersDown cfg = (c.reloadPending || cfg.zeroReloadTriggers) := by
    rw [triggersDown, hstep, hreloads]
    rfl
  have hcount : c.countDown cfg = 0 := by
    rw [countDown, hstep, hreloads]
    rfl
  rw [asserts_down hdown, clock_down hdown, hcount, htriggers]
  exact ⟨rfl, rfl⟩

theorem fires_of_count (henabled : c.enabled = true) (hforced : c.reloadPending = false) {k : Nat}
    (hcount : c.count.toNat = k + 1) :
    Fires cfg (k + 1) c { c with count := c.leftBehind cfg, pending := true } := by
  induction k generalizing c with
  | zero =>
    obtain ⟨hasserts, hclock⟩ := clock_of_one hdown henabled hforced (UInt16.toNat_inj.mp hcount)
    rw [← hclock]
    exact .now hasserts
  | succ k ih =>
    obtain ⟨hasserts, hclock⟩ := clock_of_one_lt hdown hforced (by omega)
    refine .later hasserts ?_
    rw [hclock]
    refine ih (c := { c with count := c.count - 1 }) henabled hforced ?_
    rw [toNat_sub_one (by omega), hcount]
    rfl

/-- After a reload of `r` the next `r` clocks are quiet but for the last. A reload of zero fires by
itself, if it was forced or the board does not ignore it. -/
theorem fires_of_reloads (henabled : c.enabled = true) (hreloads : c.reloads = true)
    (h : c.reload ≠ 0 ∨ c.reloadPending = true ∨ cfg.zeroReloadTriggers = true) :
    Fires cfg (c.reload.toNat + 1) c
      { c with count := c.leftBehind cfg, reloadPending := false, pending := true } := by
  by_cases hzero : c.reload = 0
  · obtain ⟨hasserts, hclock⟩ := clock_of_reloads_zero hdown hreloads hzero
    have htriggers : (c.reloadPending || cfg.zeroReloadTriggers) = true :=
      Bool.or_eq_true_iff.mpr (h.resolve_left (not_not.mpr hzero))
    have hleft : c.leftBehind cfg = 0 := by rw [leftBehind, hzero, ite_self]
    rw [henabled, htriggers, Bool.and_self] at hasserts
    have hpending : (c.pending || c.enabled && (c.reloadPending || cfg.zeroReloadTriggers))
        = true := by
      rw [henabled, htriggers, Bool.and_self, Bool.or_true]
    rw [hpending] at hclock
    have hnat : c.reload.toNat = 0 := congrArg UInt16.toNat hzero
    rw [hnat, hleft, ← hclock]
    exact .now hasserts
  · obtain ⟨hasserts, hclock⟩ := clock_of_reloads hdown hreloads hzero
    have hne : c.reload.toNat ≠ 0 := fun h => hzero (UInt16.toNat_inj.mp h)
    obtain ⟨k, hk⟩ := Nat.exists_eq_succ_of_ne_zero hne
    refine .later hasserts ?_
    rw [hclock, hk]
    exact fires_of_count (c := { c with count := c.reload, reloadPending := false }) hdown henabled
      rfl hk

theorem silent_of_zero (hforced : c.reloadPending = false) (hcount : c.count = 0)
    (hreload : c.reload = 0) (hignores : cfg.zeroReloadTriggers = false) : Silent cfg c := by
  refine silent_of_invariant
    (fun c => c.reloadPending = false ∧ c.count = 0 ∧ c.reload = 0)
    ⟨hforced, hcount, hreload⟩ ?_ ?_
  all_goals
    rintro c ⟨hforced, hcount, hreload⟩
    have hreloads : c.reloads = true := by rw [reloads, hcount]; rfl
    obtain ⟨hasserts, hclock⟩ := clock_of_reloads_zero hdown hreloads hreload
  · rw [hclock]
    exact ⟨rfl, rfl, hreload⟩
  · rw [hasserts, hforced, hignores]
    simp

end

/-! ## Counting up -/

/-- What an upward clock makes of a counter that has reached its target. -/
def arrived (cfg : Config) (c : Counter) : Counter :=
  match cfg.onTrigger with
  | .holdAtZero => { c with count := 0 }
  | .reloadImmediately => { c with count := c.reload }
  | .halt => { c with count := 0, enabled := false }

/-- Arriving forgets the count. -/
theorem arrived_of_count (cfg : Config) (c : Counter) (n : UInt16) :
    ({ c with count := n } : Counter).arrived cfg = c.arrived cfg := by
  unfold arrived
  split <;> rfl

theorem toNat_add_one {n : UInt16} (h : n.toNat + 1 < 2 ^ 16) : (n + 1).toNat = n.toNat + 1 := by
  rw [UInt16.toNat_add]
  exact Nat.mod_eq_of_lt h

section

variable {target : UInt16} (hup : cfg.direction = .up target)

include hup

theorem asserts_up : c.asserts cfg = (c.enabled && c.triggersUp target) := by
  rw [asserts, hup]

theorem clock_up (henabled : c.enabled = true) :
    c.clock cfg = { c.clockUp cfg target with pending := c.pending || c.triggersUp target } := by
  rw [clock, asserts_up hup, advance, hup, henabled, Bool.true_and]
  simp only [if_true]

/-- A disabled counter stands still. -/
theorem clock_of_disabled (hdisabled : c.enabled = false) : c.clock cfg = c := by
  rw [clock, asserts_of_disabled hdisabled, advance, hup, hdisabled, Bool.or_false]
  rfl

theorem clock_of_target_le (henabled : c.enabled = true) (h : target ≤ c.count + 1) :
    c.asserts cfg = true ∧ c.clock cfg = { c.arrived cfg with pending := true } := by
  have htriggers : c.triggersUp target = true := decide_eq_true h
  refine ⟨?_, ?_⟩
  · rw [asserts_up hup, henabled, htriggers]
    rfl
  · rw [clock_up hup henabled, clockUp, if_pos htriggers, htriggers, Bool.or_true]
    rfl

theorem clock_of_lt_target (henabled : c.enabled = true) (h : c.count + 1 < target) :
    c.asserts cfg = false ∧ c.clock cfg = { c with count := c.count + 1 } := by
  have htriggers : c.triggersUp target = false := decide_eq_false (UInt16.not_le.mpr h)
  rw [asserts_up hup, clock_up hup henabled, clockUp, htriggers, Bool.and_false, Bool.or_false]
  exact ⟨rfl, rfl⟩

theorem fires_of_lt_target (henabled : c.enabled = true) {k : Nat}
    (h : target.toNat = c.count.toNat + (k + 1)) :
    Fires cfg (k + 1) c { c.arrived cfg with pending := true } := by
  have hbound := target.toNat_lt
  induction k generalizing c with
  | zero =>
    have hnext := toNat_add_one (n := c.count) (by omega)
    obtain ⟨hasserts, hclock⟩ := clock_of_target_le hup henabled
      (UInt16.le_iff_toNat_le.mpr (by omega))
    rw [← hclock]
    exact .now hasserts
  | succ k ih =>
    have hnext := toNat_add_one (n := c.count) (by omega)
    obtain ⟨hasserts, hclock⟩ := clock_of_lt_target hup henabled
      (UInt16.lt_iff_toNat_lt.mpr (by omega))
    have hrest : target.toNat = (c.count + 1).toNat + (k + 1) := by omega
    refine .later hasserts ?_
    rw [hclock, ← arrived_of_count cfg c (c.count + 1)]
    exact ih (c := { c with count := c.count + 1 }) henabled hrest

/-- An upward counter below its target fires when it has gone the rest of the way, and one at its
target with the next clock. -/
theorem fires_up (henabled : c.enabled = true) (h : c.count.toNat + 1 < 2 ^ 16) :
    Fires cfg (max 1 (target.toNat - c.count.toNat)) c { c.arrived cfg with pending := true } := by
  rcases Nat.lt_or_ge c.count.toNat target.toNat with hlt | hle
  · obtain ⟨k, hk⟩ := Nat.exists_eq_add_of_lt hlt
    have hway : max 1 (target.toNat - c.count.toNat) = k + 1 := by omega
    rw [hway]
    exact fires_of_lt_target hup henabled (by omega)
  · have hnext := toNat_add_one h
    have hway : max 1 (target.toNat - c.count.toNat) = 1 := by omega
    obtain ⟨hasserts, hclock⟩ := clock_of_target_le hup henabled
      (UInt16.le_iff_toNat_le.mpr (by omega))
    rw [hway, ← hclock]
    exact .now hasserts

end

end Counter

end RasterIrq
