import RasterIrq.Proofs.Counter.Firing

/-!
# The clocks that assert

A counter that runs down is forced to reload, and then clocked and left alone. Its first interrupt
comes when the reload value has run out, whatever the count was before. From then on the interrupts
come periodically. How long a period is depends on what the asserting clock leaves behind: a zero
takes one more clock to reload than the reload value itself.

Clocks are numbered from 1.

Results:
1. `Counter.asserts_iterate_of_reloads`: the period of a counter that is left at zero.
2. `Counter.asserts_iterate_of_full`: the period of a counter that is left at its reload value.
3. `Counter.mem_assertingClocks_forceReload`: the clocks that assert after a forced reload.
-/

namespace RasterIrq.Counter

/-- Whether clock `k` asserts. -/
def assertsAt (cfg : Config) (c : Counter) (k : Nat) : Bool :=
  ((clock cfg)^[k - 1] c).asserts cfg

/-- The numbers of the clocks that assert, among the next `n`. -/
def assertingClocks (cfg : Config) (n : Nat) (c : Counter) : List Nat :=
  (List.range' 1 n).filter (c.assertsAt cfg)

variable {cfg : Config} {c : Counter}

theorem mem_assertingClocks {n k : Nat} :
    k ∈ assertingClocks cfg n c ↔
      1 ≤ k ∧ k ≤ n ∧ ((clock cfg)^[k - 1] c).asserts cfg = true := by
  rw [assertingClocks, List.mem_filter, List.mem_range'_1, and_assoc, Nat.add_comm 1 n,
    Nat.lt_succ_iff, assertsAt]

/-- The clock at which a counter fires is the only one so far that asserts. -/
theorem Fires.assertingClocks_eq {p : Nat} {d : Counter} (h : Fires cfg p c d) :
    assertingClocks cfg p c = [p] := by
  obtain ⟨q, rfl⟩ := Nat.exists_eq_add_of_le' (show 1 ≤ p from h.pos)
  have hquiet : ∀ k ∈ List.range' 1 q, ¬ c.assertsAt cfg k = true := by
    intro k hk
    obtain ⟨hone, hlt⟩ := List.mem_range'_1.mp hk
    rw [assertsAt, h.asserts_iterate_iff (by omega)]
    omega
  have hlast : c.assertsAt cfg (1 + q) = true := by
    rw [assertsAt, h.asserts_iterate_iff (by omega)]
    omega
  rw [assertingClocks, List.range'_1_concat, List.filter_append,
    List.filter_eq_nil_iff.mpr hquiet, List.filter_cons_of_pos hlast, List.filter_nil]
  exact congrArg ([·]) (Nat.add_comm 1 q)

section

variable (hdown : cfg.direction = .down)

include hdown

/-- A counter that firing leaves at zero has to reload first, which takes a clock. -/
theorem asserts_iterate_of_reloads (henabled : c.enabled = true) (hreloads : c.reloads = true)
    (hleft : c.leftBehind cfg = 0) (h : c.reload ≠ 0 ∨ cfg.zeroReloadTriggers = true) (n : Nat) :
    ((clock cfg)^[n] c).asserts cfg = true ↔ c.reload.toNat + 1 ∣ n + 1 := by
  refine asserts_iterate_iff_dvd
    (fun d => d.enabled = true ∧ d.reloads = true ∧ d.reload = c.reload) ?_
    ⟨henabled, hreloads, rfl⟩ n
  rintro d ⟨henabled, hreloads, hreload⟩
  have hcause : d.reload ≠ 0 ∨ d.reloadPending = true ∨ cfg.zeroReloadTriggers = true := by
    rw [hreload]
    exact h.imp_right .inr
  have hzero : d.leftBehind cfg = 0 := by rwa [leftBehind, hreload]
  have hfires := fires_of_reloads hdown henabled hreloads hcause
  rw [hzero, congrArg UInt16.toNat hreload] at hfires
  exact ⟨_, hfires, henabled, rfl, hreload⟩

/-- A counter that firing leaves at its reload value goes down from there at once. -/
theorem asserts_iterate_of_full (henabled : c.enabled = true) (hforced : c.reloadPending = false)
    (hfull : c.count = c.reload) (hpolicy : cfg.onTrigger = .reloadImmediately)
    (h : c.reload ≠ 0) (n : Nat) :
    ((clock cfg)^[n] c).asserts cfg = true ↔ c.reload.toNat ∣ n + 1 := by
  obtain ⟨k, hk⟩ := Nat.exists_eq_succ_of_ne_zero fun hzero => h (UInt16.toNat_inj.mp hzero)
  refine asserts_iterate_iff_dvd
    (fun d => d.enabled = true ∧ d.reloadPending = false ∧ d.count = c.reload ∧
      d.reload = c.reload) ?_
    ⟨henabled, hforced, hfull, rfl⟩ n
  rintro d ⟨henabled, hforced, hcount, hreload⟩
  have hleft : d.leftBehind cfg = c.reload := by rw [leftBehind, if_pos hpolicy, hreload]
  have hfires := fires_of_count hdown henabled hforced (k := k) (by rw [hcount, hk])
  rw [hleft] at hfires
  rw [hk]
  exact ⟨_, hfires, henabled, hforced, rfl, hreload⟩

/-! ## After a forced reload -/

/-- A forced reload makes a counter fire when its reload value has run out. -/
theorem fires_forceReload (henabled : c.enabled = true) :
    Fires cfg (c.reload.toNat + 1) (c.obey cfg .forceReload)
      { c with count := c.leftBehind cfg, reloadPending := false, pending := true } :=
  fires_of_reloads (c := c.obey cfg .forceReload) hdown henabled (Bool.or_true _)
    (.inr (.inl rfl))

theorem asserts_forceReload_of_holdAtZero (henabled : c.enabled = true)
    (hpolicy : cfg.onTrigger = .holdAtZero) (h : c.reload ≠ 0) (n : Nat) :
    ((clock cfg)^[n] (c.obey cfg .forceReload)).asserts cfg = true ↔
      c.reload.toNat + 1 ∣ n + 1 := by
  refine asserts_iterate_of_reloads (c := c.obey cfg .forceReload) hdown henabled (Bool.or_true _)
    ?_ (.inl h) n
  rw [leftBehind, hpolicy]
  rfl

/-- The first period is longer by the clock that reloads. -/
theorem asserts_forceReload_of_reloadImmediately (henabled : c.enabled = true)
    (hpolicy : cfg.onTrigger = .reloadImmediately) (h : c.reload ≠ 0) (n : Nat) :
    ((clock cfg)^[n] (c.obey cfg .forceReload)).asserts cfg = true ↔
      0 < n ∧ c.reload.toNat ∣ n := by
  have hfires := fires_forceReload hdown henabled
  rw [leftBehind, if_pos hpolicy] at hfires
  have hperiodic : ∀ n, _ ↔ c.reload.toNat ∣ n + 1 := asserts_iterate_of_full
    (c := { c with count := c.reload, reloadPending := false, pending := true }) hdown henabled
    rfl rfl hpolicy h
  have hpos : 0 < c.reload.toNat := Nat.pos_of_ne_zero fun hzero => h (UInt16.toNat_inj.mp hzero)
  rw [hfires.asserts_iff_of_periodic hperiodic]
  constructor
  · rintro ⟨j, hj⟩
    obtain rfl : n = (j + 1) * c.reload.toNat := by rw [Nat.succ_mul]; omega
    exact ⟨Nat.mul_pos (Nat.succ_pos j) hpos, Nat.dvd_mul_left _ _⟩
  · rintro ⟨hn, m, rfl⟩
    obtain ⟨j, rfl⟩ := Nat.exists_eq_succ_of_ne_zero (Nat.ne_of_gt (Nat.pos_of_mul_pos_left hn))
    exact ⟨j, by rw [Nat.mul_succ, Nat.mul_comm j]; omega⟩

/-- A reload of zero asserts when it was forced, and then if the board does not ignore it. -/
theorem asserts_forceReload_of_zero (henabled : c.enabled = true) (h : c.reload = 0) (n : Nat) :
    ((clock cfg)^[n] (c.obey cfg .forceReload)).asserts cfg = true ↔
      cfg.zeroReloadTriggers = true ∨ n = 0 := by
  have hleft : c.leftBehind cfg = 0 := by rw [leftBehind, h, ite_self]
  cases htriggers : cfg.zeroReloadTriggers with
  | true =>
    have hperiod := asserts_iterate_of_reloads (c := c.obey cfg .forceReload) hdown henabled
      (Bool.or_true _) hleft (.inr htriggers) n
    have hone : (c.obey cfg .forceReload).reload.toNat + 1 = 1 := congrArg (·.toNat + 1) h
    rw [hperiod, hone]
    exact iff_of_true (Nat.one_dvd _) (.inl rfl)
  | false =>
    have hfires := fires_forceReload hdown henabled
    rw [hleft, congrArg UInt16.toNat h] at hfires
    cases n with
    | zero => exact iff_of_true ((hfires.asserts_iterate_iff Nat.one_pos).mpr rfl) (.inr rfl)
    | succ n =>
      have hsilent : Silent cfg { c with count := 0, reloadPending := false, pending := true } :=
        silent_of_zero hdown rfl rfl h htriggers
      have hfirst : (clock cfg)^[1] (c.obey cfg .forceReload) = _ := hfires.iterate_eq
      rw [Function.iterate_add_apply, hfirst, hsilent n]
      exact iff_of_false Bool.false_ne_true (by simp)

end

/-- The clocks that assert after a reload was forced on an enabled counter that runs down. With a
reload value of `r > 0` they are the multiples of `r + 1`, or, if the asserting clock reloads at
once, every `r`-th one from clock `r + 1` on. With a reload value of zero they are all, or the first
one only. In any case the first `r + 1` clocks have one that asserts, the last. -/
theorem mem_assertingClocks_forceReload {cfg : Config} {c : Counter}
    (hdown : cfg.direction = .down) (henabled : c.enabled = true) :
    let forced := c.obey cfg .forceReload
    let r := c.reload.toNat
    (1 ≤ r → cfg.onTrigger = .holdAtZero → ∀ n k,
      k ∈ assertingClocks cfg n forced ↔ 1 ≤ k ∧ k ≤ n ∧ r + 1 ∣ k) ∧
    (1 ≤ r → cfg.onTrigger = .reloadImmediately → ∀ n k,
      k ∈ assertingClocks cfg n forced ↔ k ≤ n ∧ ∃ j, 1 ≤ j ∧ k = j * r + 1) ∧
    (r = 0 → ∀ n k,
      k ∈ assertingClocks cfg n forced ↔
        1 ≤ k ∧ k ≤ n ∧ (cfg.zeroReloadTriggers = true ∨ k = 1)) ∧
    assertingClocks cfg (r + 1) forced = [r + 1] := by
  intro forced r
  have hne : 1 ≤ r → c.reload ≠ 0 := by
    rintro hpos hzero
    rw [show r = 0 from congrArg UInt16.toNat hzero] at hpos
    cases hpos
  refine ⟨fun hpos hpolicy n k => ?_, fun hpos hpolicy n k => ?_, fun hzero n k => ?_,
    (fires_forceReload hdown henabled).assertingClocks_eq⟩
  · rw [mem_assertingClocks]
    refine and_congr_right fun hk => and_congr_right fun _ => ?_
    rw [asserts_forceReload_of_holdAtZero hdown henabled hpolicy (hne hpos), Nat.sub_add_cancel hk]
  · rw [mem_assertingClocks, asserts_forceReload_of_reloadImmediately hdown henabled hpolicy
      (hne hpos)]
    constructor
    · rintro ⟨hk, hn, hlate, j, hj⟩
      refine ⟨hn, j, Nat.pos_of_ne_zero ?_, ?_⟩
      · rintro rfl
        omega
      · rw [Nat.mul_comm j, ← hj, Nat.sub_add_cancel hk]
    · rintro ⟨hn, j, hj, rfl⟩
      exact ⟨Nat.succ_pos _, hn, Nat.mul_pos hj hpos, Nat.dvd_mul_left r j⟩
  · rw [mem_assertingClocks]
    refine and_congr_right fun hk => and_congr_right fun _ => ?_
    rw [asserts_forceReload_of_zero hdown henabled (UInt16.toNat_inj.mp hzero)]
    refine or_congr_right ?_
    omega

/-- A reload value of 3 that is put back at once: the count of 77 is forgotten, and of the first
ten clocks the fourth, the seventh and the tenth assert. -/
theorem mem_assertingClocks_forceReload_three :
    let cfg : Config := ⟨.down, .reloadImmediately, .nextReload, false⟩
    let c : Counter := ⟨77, 3, true, false, true⟩
    cfg.direction = .down ∧ c.enabled = true ∧
    (∀ k, k ∈ assertingClocks cfg 10 (c.obey cfg .forceReload) ↔
      k ≤ 10 ∧ ∃ j, 1 ≤ j ∧ k = j * 3 + 1) ∧
    assertingClocks cfg 4 (c.obey cfg .forceReload) = [4] := by
  intro cfg c
  have hdown : cfg.direction = .down := rfl
  have henabled : c.enabled = true := rfl
  obtain ⟨-, hperiod, -, hfirst⟩ := mem_assertingClocks_forceReload hdown henabled
  exact ⟨hdown, henabled, hperiod (by decide) rfl 10, hfirst⟩

end RasterIrq.Counter
