import RasterIrq.Proofs.Counter.Period

/-!
# The schedule of an upward counter

A counter that runs up is clocked and left alone. It asserts for the first time when it has gone the
way to its target. A counter at its target or beyond asserts with the next clock, except at 65535:
there the next count is zero, and the whole way lies ahead.

Asserting puts a counter back to zero or to its reload value, from which it starts again, or halts
it. A halted counter is disabled and stands still until it is enabled again, whatever else happens.

Results:
1. `Counter.fires_wayUp`: an upward counter fires at the end of its way.
2. `Counter.iterate_of_lt_wayUp`: on the way it counts the clocks, modulo 2^16.
3. `Counter.mem_assertingClocks_up`: the clocks that assert if asserting does not halt the counter.
4. `Counter.stands_run`: a disabled counter stands still until it is enabled.
5. `Counter.pending_iterate_iff`: the interrupt is pending since the first clock that asserted.
-/

namespace RasterIrq.Counter

/-! ## Histories of a counter -/

/-- What can happen to a counter, short of another being put in its place. -/
inductive Event where
  | clock
  | obey (command : Command)
  | reset (hard : Bool)
deriving DecidableEq, Repr

def perform (cfg : Config) (c : Counter) : Event → Counter
  | .clock => c.clock cfg
  | .obey command => c.obey cfg command
  | .reset hard => c.reset hard

def run (cfg : Config) (c : Counter) (events : List Event) : Counter :=
  events.foldl (perform cfg) c

variable {cfg : Config} {c : Counter}

theorem enabled_perform {event : Event} (hevent : event ≠ .obey (.setEnabled true))
    (hdisabled : c.enabled = false) : (c.perform cfg event).enabled = false := by
  cases event with
  | clock => exact enabled_clock hdisabled
  | obey command =>
    cases command with
    | setReload value =>
      show (c.setReload cfg value).enabled = false
      unfold setReload
      split
      · exact hdisabled
      · exact hdisabled
    | forceReload => exact hdisabled
    | load value => exact hdisabled
    | setEnabled enabled =>
      cases enabled with
      | false => rfl
      | true => exact absurd rfl hevent
    | acknowledge => exact hdisabled
  | reset hard =>
    cases hard with
    | false => exact hdisabled
    | true => rfl

/-- Only one command enables a counter. -/
theorem enabled_run {events : List Event} (hevents : .obey (.setEnabled true) ∉ events)
    (hdisabled : c.enabled = false) : (c.run cfg events).enabled = false := by
  induction events generalizing c with
  | nil => exact hdisabled
  | cons event events ih =>
    obtain ⟨hne, hrest⟩ := List.ne_and_not_mem_of_not_mem_cons hevents
    exact ih hrest (enabled_perform hne.symm hdisabled)

/-! ## The first interrupt -/

/-- How many clocks it takes an upward counter to assert. -/
def wayUp (target count : UInt16) : Nat :=
  if count < target then target.toNat - count.toNat
  else if count = 0xFFFF ∧ target ≠ 0 then target.toNat + 1
  else 1

theorem wayUp_of_ne {target count : UInt16} (h : count ≠ 0xFFFF) :
    wayUp target count = max 1 (target.toNat - count.toNat) := by
  rw [wayUp, if_neg (fun hlast : count = 0xFFFF ∧ target ≠ 0 => h hlast.1)]
  simp only [UInt16.lt_iff_toNat_lt]
  split <;> omega

theorem wayUp_last (target : UInt16) : wayUp target 0xFFFF = target.toNat + 1 := by
  have hbeyond : ¬ 0xFFFF < target := by
    rw [UInt16.lt_iff_toNat_lt]
    exact Nat.not_lt.mpr (Nat.le_of_lt_succ target.toNat_lt)
  rw [wayUp, if_neg hbeyond]
  by_cases hzero : target = 0
  · rw [if_neg fun h => h.2 hzero, hzero]
    rfl
  · rw [if_pos ⟨rfl, hzero⟩]

section

variable {target : UInt16} (hup : cfg.direction = .up target) (henabled : c.enabled = true)

include hup henabled

/-- From 65535 the count goes over to zero, and from there it is the whole way. -/
theorem fires_of_last (hlast : c.count = 0xFFFF) :
    Fires cfg (target.toNat + 1) c { c.arrived cfg with pending := true } := by
  have hnext : c.count + 1 = 0 := by rw [hlast]; rfl
  by_cases hzero : target = 0
  · obtain ⟨hasserts, hclock⟩ := clock_of_target_le hup henabled (hzero ▸ UInt16.zero_le)
    rw [hzero, ← hclock]
    exact .now hasserts
  · have hpos : 0 < target.toNat := Nat.pos_of_ne_zero fun h => hzero (UInt16.toNat_inj.mp h)
    obtain ⟨hasserts, hclock⟩ := clock_of_lt_target hup henabled
      (hnext ▸ UInt16.lt_iff_toNat_lt.mpr hpos)
    have hrest := fires_up (c := { c with count := 0 }) hup henabled
      (show (0 : UInt16).toNat + 1 < 2 ^ 16 by decide)
    have hway : max 1 (target.toNat - (0 : UInt16).toNat) = target.toNat := Nat.max_eq_right hpos
    rw [hway, arrived_of_count] at hrest
    refine .later hasserts ?_
    rw [hclock, hnext]
    exact hrest

theorem fires_wayUp :
    Fires cfg (wayUp target c.count) c { c.arrived cfg with pending := true } := by
  by_cases hlast : c.count = 0xFFFF
  · rw [hlast, wayUp_last]
    exact fires_of_last hup henabled hlast
  · rw [wayUp_of_ne hlast]
    have hne : c.count.toNat ≠ 0xFFFF := fun h => hlast (UInt16.toNat_inj.mp h)
    have hbound := c.count.toNat_lt
    exact fires_up hup henabled (by omega)

/-- A clock that does not assert adds one, modulo 2^16. -/
theorem clock_of_quiet (hquiet : c.asserts cfg = false) :
    c.clock cfg = { c with count := c.count + 1 } := by
  rw [asserts_up hup, henabled, Bool.true_and] at hquiet
  exact (clock_of_lt_target hup henabled (UInt16.not_le.mp (of_decide_eq_false hquiet))).2

theorem iterate_of_lt_wayUp {k : Nat} (h : k < wayUp target c.count) :
    (clock cfg)^[k] c = { c with count := c.count + UInt16.ofNat k } := by
  induction k with
  | zero =>
    have hzero : c.count + UInt16.ofNat 0 = c.count := UInt16.add_zero _
    rw [hzero]
    rfl
  | succ k ih =>
    have hbefore := ih (Nat.lt_of_succ_lt h)
    have hquiet : ((clock cfg)^[k] c).asserts cfg = false := by
      rw [← Bool.not_eq_true, (fires_wayUp hup henabled).asserts_iterate_iff (Nat.lt_of_succ_lt h)]
      exact Nat.ne_of_lt h
    rw [Function.iterate_succ_apply']
    rw [hbefore] at hquiet ⊢
    rw [clock_of_quiet (c := { c with count := c.count + UInt16.ofNat k }) hup henabled hquiet,
      UInt16.add_assoc, UInt16.ofNat_add]
    rfl

end

/-! ## Afterwards -/

theorem arrived_of_halt (h : cfg.onTrigger = .halt) :
    c.arrived cfg = { c with count := 0, enabled := false } := by
  rw [arrived, h]

/-- A disabled upward counter stands still until it is enabled. -/
theorem stands_run {target : UInt16} (hup : cfg.direction = .up target)
    (hdisabled : c.enabled = false) {events : List Event}
    (hevents : .obey (.setEnabled true) ∉ events) :
    (c.run cfg events).asserts cfg = false ∧
      (c.run cfg events).clock cfg = c.run cfg events := by
  have hafter : (c.run cfg events).enabled = false := enabled_run hevents hdisabled
  exact ⟨asserts_of_disabled hafter, clock_of_disabled hup hafter⟩

theorem arrived_of_ne_halt (h : cfg.onTrigger ≠ .halt) :
    c.arrived cfg = { c with count := c.leftBehind cfg } := by
  unfold arrived leftBehind
  cases hpolicy : cfg.onTrigger with
  | holdAtZero => rfl
  | reloadImmediately => rfl
  | halt => exact absurd hpolicy h

section

variable {target : UInt16} (hup : cfg.direction = .up target) (henabled : c.enabled = true)
  (hpolicy : cfg.onTrigger ≠ .halt)

include hup henabled hpolicy

/-- A counter that starts where asserting leaves it goes the same way again and again. -/
theorem asserts_iterate_of_leftBehind (hcount : c.count = c.leftBehind cfg) (n : Nat) :
    ((clock cfg)^[n] c).asserts cfg = true ↔ wayUp target (c.leftBehind cfg) ∣ n + 1 := by
  refine asserts_iterate_iff_dvd
    (fun d => d.enabled = true ∧ d.reload = c.reload ∧ d.count = c.leftBehind cfg) ?_
    ⟨henabled, rfl, hcount⟩ n
  rintro d ⟨henabled, hreload, hcount⟩
  have hleft : d.leftBehind cfg = c.leftBehind cfg := by rw [leftBehind, leftBehind, hreload]
  have hfires := fires_wayUp hup henabled
  rw [arrived_of_ne_halt hpolicy, hcount, hleft] at hfires
  exact ⟨_, hfires, henabled, hreload, rfl⟩

theorem asserts_iterate_up (n : Nat) :
    ((clock cfg)^[n] c).asserts cfg = true ↔
      ∃ j, n + 1 = wayUp target c.count + j * wayUp target (c.leftBehind cfg) := by
  have hfires := fires_wayUp hup henabled
  rw [arrived_of_ne_halt hpolicy] at hfires
  exact hfires.asserts_iff_of_periodic (asserts_iterate_of_leftBehind
    (c := { c with count := c.leftBehind cfg, pending := true }) hup henabled hpolicy rfl) n

theorem mem_assertingClocks_up {n k : Nat} :
    k ∈ assertingClocks cfg n c ↔
      k ≤ n ∧ ∃ j, k = wayUp target c.count + j * wayUp target (c.leftBehind cfg) := by
  have hpos : 0 < wayUp target c.count := (fires_wayUp hup henabled).pos
  rw [mem_assertingClocks, asserts_iterate_up hup henabled hpolicy]
  constructor
  · rintro ⟨hk, hn, j, hj⟩
    exact ⟨hn, j, by omega⟩
  · rintro ⟨hn, j, hj⟩
    exact ⟨by omega, hn, j, by omega⟩

end

/-! ## The interrupt -/

theorem pending_iterate_iff (n : Nat) :
    ((clock cfg)^[n] c).pending = true ↔
      c.pending = true ∨ ∃ k, k < n ∧ ((clock cfg)^[k] c).asserts cfg = true := by
  induction n with
  | zero => simp
  | succ n ih =>
    rw [Function.iterate_succ_apply', pending_clock, Bool.or_eq_true, ih, or_assoc]
    refine or_congr_right ⟨?_, ?_⟩
    · rintro (⟨k, hk, hasserts⟩ | hasserts)
      · exact ⟨k, Nat.lt_succ_of_lt hk, hasserts⟩
      · exact ⟨n, Nat.lt_succ_self n, hasserts⟩
    · rintro ⟨k, hk, hasserts⟩
      rcases Nat.lt_succ_iff_lt_or_eq.mp hk with hlt | rfl
      · exact .inl ⟨k, hlt, hasserts⟩
      · exact .inr hasserts

/-- An interrupt that was not pending is so from the clock on at which the counter fires. -/
theorem Fires.pending_iterate_iff {p : Nat} {d : Counter} (h : Fires cfg p c d)
    (hquiet : c.pending = false) (n : Nat) : ((clock cfg)^[n] c).pending = true ↔ p ≤ n := by
  have hpos := h.pos
  rw [Counter.pending_iterate_iff, hquiet]
  constructor
  · rintro (hpending | ⟨k, hk, hasserts⟩)
    · cases hpending
    · by_contra hlt
      rw [h.asserts_iterate_iff (by omega)] at hasserts
      omega
  · intro hle
    exact .inr ⟨p - 1, by omega, (h.asserts_iterate_iff (by omega)).mpr (by omega)⟩

theorem Silent.pending_iterate (h : Silent cfg c) (hquiet : c.pending = false) (n : Nat) :
    ((clock cfg)^[n] c).pending = false := by
  rw [← Bool.not_eq_true, Counter.pending_iterate_iff, hquiet]
  rintro (hpending | ⟨k, -, hasserts⟩)
  · cases hpending
  · rw [h k] at hasserts
    cases hasserts

end RasterIrq.Counter
