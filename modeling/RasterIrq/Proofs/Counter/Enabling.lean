import RasterIrq.Proofs.Counter.Upward

/-!
# What the enable flag does

A counter that runs down counts whether it is enabled or not. The flag is a gate at the output: it
lets an interrupt out or keeps it in, and has no part in when the counter runs out. So two counters
of the same count, reload value and forced reload stay together, whatever happens to their flags.

A counter that runs up stands still while it is disabled, and this is how the halting policy stops
it. The policy has no hold on a counter that runs down: there is no flag that would stop it.

Results:
1. `Counter.Gated.perform`, `Counter.Gated.assertsOn_eq`: one event of a counter and of the same
   counter that is never disabled.
2. `Counter.enabled_gates_output`: whole histories of the two.
3. `Counter.stands_of_disabled`, `Counter.not_stands_of_down`: which counters stand still.
4. `Counter.halted_stands_iff`: what the halting policy does in either direction.
-/

namespace RasterIrq.Counter

variable {cfg : Config} {c : Counter}

/-! ## Histories step by step -/

/-- Whether an event is a clock that asserts. -/
def assertsOn (cfg : Config) (c : Counter) : Event → Bool
  | .clock => c.asserts cfg
  | .obey _ | .reset _ => false

/-- The counter before a history and after each of its events. -/
def states (cfg : Config) (c : Counter) : List Event → List Counter
  | [] => [c]
  | event :: events => c :: (c.perform cfg event).states cfg events

/-- For each event of a history, whether it is a clock that asserts. -/
def assertions (cfg : Config) (c : Counter) : List Event → List Bool
  | [] => []
  | event :: events => c.assertsOn cfg event :: (c.perform cfg event).assertions cfg events

/-! ## The gate of a counter that runs down -/

/-- All that decides when a counter that runs down runs out. -/
structure Course where
  count : UInt16
  reload : UInt16
  reloadPending : Bool
deriving DecidableEq, Repr

def course (c : Counter) : Course := ⟨c.count, c.reload, c.reloadPending⟩

/-- The same event on a counter that is never disabled. -/
def Event.enabling : Event → Event
  | .obey (.setEnabled _) => .obey (.setEnabled true)
  | event => event

/-- The second counter is on the course of the first one, and is enabled. -/
structure Gated (c free : Counter) : Prop where
  course_eq : c.course = free.course
  enabled : free.enabled = true

namespace Gated

variable {free : Counter}

/-- What the flag and the output are makes no difference to the clock. -/
theorem course_clock (h : Gated c free) (hdown : cfg.direction = .down) :
    (c.clock cfg).course = (free.clock cfg).course ∧
      c.triggersDown cfg = free.triggersDown cfg := by
  obtain ⟨count, reload, enabled, reloadPending, pending⟩ := c
  obtain ⟨count', reload', enabled', reloadPending', pending'⟩ := free
  obtain ⟨rfl, rfl, rfl⟩ : count = count' ∧ reload = reload' ∧ reloadPending = reloadPending' :=
    Course.mk.inj h.course_eq
  rw [clock_down hdown, clock_down hdown]
  exact ⟨rfl, rfl⟩

theorem setReload (h : Gated c free) (value : UInt16) :
    Gated (c.setReload cfg value) (free.setReload cfg value) := by
  obtain ⟨hcount, -, hforced⟩ := Course.mk.inj h.course_eq
  unfold Counter.setReload
  cases cfg.reloadTiming with
  | nextReload => exact ⟨congrArg₂ (Course.mk · value ·) hcount hforced, h.enabled⟩
  | immediate => exact ⟨congrArg (Course.mk value value) hforced, h.enabled⟩

theorem obey (h : Gated c free) (command : Command) :
    Gated (c.perform cfg (.obey command)) (free.perform cfg (Event.obey command).enabling) := by
  obtain ⟨hcount, hreload, hforced⟩ := Course.mk.inj h.course_eq
  cases command with
  | setReload value => exact h.setReload value
  | forceReload => exact ⟨congrArg₂ (Course.mk · · true) hcount hreload, h.enabled⟩
  | load value => exact ⟨congrArg₂ (Course.mk value) hreload hforced, h.enabled⟩
  | setEnabled enabled => exact ⟨h.course_eq, rfl⟩
  | acknowledge => exact ⟨h.course_eq, h.enabled⟩

theorem perform (h : Gated c free) (hdown : cfg.direction = .down) {event : Event}
    (hevent : event ≠ .reset true) :
    Gated (c.perform cfg event) (free.perform cfg event.enabling) := by
  cases event with
  | clock =>
    refine ⟨(h.course_clock hdown).1, ?_⟩
    show (free.clock cfg).enabled = true
    rw [clock_down hdown]
    exact h.enabled
  | obey command => exact h.obey command
  | reset hard =>
    cases hard with
    | false => exact ⟨h.course_eq, h.enabled⟩
    | true => exact absurd rfl hevent

/-- A clock asserts if it does without the gate, and the gate is open. -/
theorem assertsOn_eq (h : Gated c free) (hdown : cfg.direction = .down) (event : Event) :
    c.assertsOn cfg event = (c.enabled && free.assertsOn cfg event.enabling) := by
  cases event with
  | clock =>
    show c.asserts cfg = (c.enabled && free.asserts cfg)
    rw [asserts_down hdown, asserts_down hdown, h.enabled, Bool.true_and, (h.course_clock hdown).2]
  | obey command => cases command <;> exact (Bool.and_false _).symm
  | reset hard => exact (Bool.and_false _).symm

theorem states (h : Gated c free) (hdown : cfg.direction = .down) {events : List Event}
    (hevents : .reset true ∉ events) :
    (c.states cfg events).map course
        = (free.states cfg (events.map Event.enabling)).map course ∧
      ∀ d ∈ free.states cfg (events.map Event.enabling), d.enabled = true := by
  induction events generalizing c free with
  | nil => exact ⟨congrArg ([·]) h.course_eq, List.forall_mem_singleton.mpr h.enabled⟩
  | cons event events ih =>
    obtain ⟨hevent, hrest⟩ := List.ne_and_not_mem_of_not_mem_cons hevents
    obtain ⟨hcourse, henabled⟩ := ih (h.perform hdown hevent.symm) hrest
    exact ⟨congrArg₂ List.cons h.course_eq hcourse, List.forall_mem_cons.mpr ⟨h.enabled, henabled⟩⟩

theorem assertions_eq (h : Gated c free) (hdown : cfg.direction = .down) {events : List Event}
    (hevents : .reset true ∉ events) :
    c.assertions cfg events
      = List.zipWith (· && ·) ((c.states cfg events).map Counter.enabled)
          (free.assertions cfg (events.map Event.enabling)) := by
  induction events generalizing c free with
  | nil => rfl
  | cons event events ih =>
    obtain ⟨hevent, hrest⟩ := List.ne_and_not_mem_of_not_mem_cons hevents
    exact congrArg₂ List.cons (h.assertsOn_eq hdown event) (ih (h.perform hdown hevent.symm) hrest)

end Gated

/-- A counter that runs down, and the same counter enabled at first and never disabled. Whatever
commands, soft resets and clocks come, they have the same count, reload value and forced reload
throughout. A clock asserts on the first counter exactly if it does on the second and finds the
first one enabled. -/
theorem enabled_gates_output (hdown : cfg.direction = .down) (c : Counter) {events : List Event}
    (hevents : .reset true ∉ events) :
    let free := { c with enabled := true }
    let freely := events.map Event.enabling
    (∀ d ∈ free.states cfg freely, d.enabled = true) ∧
    (c.states cfg events).map course = (free.states cfg freely).map course ∧
    c.assertions cfg events
      = List.zipWith (· && ·) ((c.states cfg events).map Counter.enabled)
          (free.assertions cfg freely) := by
  intro free freely
  have h : Gated c free := ⟨rfl, rfl⟩
  obtain ⟨hcourse, henabled⟩ := h.states hdown hevents
  exact ⟨henabled, hcourse, h.assertions_eq hdown hevents⟩

/-- A counter that is disabled while it runs out of 2, and enabled before the next reload of zero.
Of the four clocks of the counter that is never disabled the last three assert, of its own only the
last one does. -/
theorem enabled_gates_output_two :
    let cfg : Config := ⟨.down, .holdAtZero, .nextReload, true⟩
    let c : Counter := ⟨2, 0, true, false, false⟩
    let events : List Event := [.clock, .obey (.setEnabled false), .clock, .clock,
      .obey (.setEnabled true), .reset false, .clock]
    cfg.direction = .down ∧ .reset true ∉ events ∧
    c.assertions cfg events = [false, false, false, false, false, false, true] ∧
    ((c.states cfg events).map course).map Course.count = [2, 1, 1, 0, 0, 0, 0, 0] := by
  intro cfg c events
  have hdown : cfg.direction = .down := rfl
  have hevents : .reset true ∉ events := by decide
  obtain ⟨-, hcourse, hassertions⟩ := enabled_gates_output hdown c hevents
  refine ⟨hdown, hevents, ?_, ?_⟩
  · rw [hassertions]
    decide
  · rw [hcourse]
    decide

/-! ## Standing still -/

/-- Nothing moves the counter on: until it is enabled no clock asserts or changes the count,
whatever else happens to it. -/
def Stands (cfg : Config) (c : Counter) : Prop :=
  ∀ events, .obey (.setEnabled true) ∉ events →
    (c.run cfg events).asserts cfg = false ∧
      ((c.run cfg events).clock cfg).count = (c.run cfg events).count

theorem stands_of_disabled {target : UInt16} (hup : cfg.direction = .up target)
    (hdisabled : c.enabled = false) : Stands cfg c := by
  intro events hevents
  obtain ⟨hasserts, hclock⟩ := stands_run hup hdisabled hevents
  exact ⟨hasserts, congrArg count hclock⟩

theorem reload_setReload (value : UInt16) : (c.setReload cfg value).reload = value := by
  unfold setReload
  split <;> rfl

/-- A reload changes the count of a counter that runs down, enabled or not. -/
theorem not_stands_of_down (hdown : cfg.direction = .down) (c : Counter) : ¬ Stands cfg c := by
  intro hstands
  obtain ⟨-, hstill⟩ := hstands [.obey (.setReload 1), .obey (.load 0)] (by decide)
  generalize hd : c.run cfg [.obey (.setReload 1), .obey (.load 0)] = d at hstill
  have hcount : d.count = 0 := by
    rw [← hd]
    rfl
  have hreload : d.reload = 1 := by
    rw [← hd]
    exact reload_setReload 1
  have hreloads : d.reloads = true := by
    rw [reloads, hcount]
    rfl
  have hne : d.reload ≠ 0 := by
    rw [hreload]
    decide
  rw [(clock_of_reloads hdown hreloads hne).2] at hstill
  exact hne (hstill.trans hcount)

/-! ## Halting -/

section

variable (hpolicy : cfg.onTrigger = .halt)

include hpolicy

theorem countDown_of_halt : c.countDown cfg = c.stepDown := by
  rw [countDown, hpolicy, show (TriggerPolicy.halt == .reloadImmediately) = false from rfl,
    Bool.and_false]
  rfl

/-- The clock that asserts disables a counter that runs up. -/
theorem clock_of_halt_up {target : UInt16} (hup : cfg.direction = .up target)
    (hasserts : c.asserts cfg = true) :
    c.clock cfg = { c with count := 0, enabled := false, pending := true } := by
  rw [asserts_up hup, Bool.and_eq_true] at hasserts
  obtain ⟨henabled, htriggers⟩ := hasserts
  obtain ⟨-, hclock⟩ := clock_of_target_le hup henabled (of_decide_eq_true htriggers)
  rw [hclock, arrived_of_halt hpolicy]

theorem count_clock_of_halt_down (hdown : cfg.direction = .down)
    (hasserts : c.asserts cfg = true) : (c.clock cfg).count = 0 := by
  rw [asserts_down hdown, triggersDown, Bool.and_eq_true, Bool.and_eq_true] at hasserts
  obtain ⟨-, hzero, -⟩ := hasserts
  rw [clock_down hdown, countDown_of_halt hpolicy]
  exact beq_iff_eq.mp hzero

/-- A counter that runs down holds at zero instead. -/
theorem perform_of_halt_down (hdown : cfg.direction = .down) (c : Counter) (event : Event) :
    c.perform cfg event = c.perform { cfg with onTrigger := .holdAtZero } event := by
  cases event with
  | clock =>
    have hholding : { cfg with onTrigger := TriggerPolicy.holdAtZero }.direction = .down := hdown
    show c.clock cfg = c.clock { cfg with onTrigger := .holdAtZero }
    rw [clock_down hdown, clock_down hholding, countDown_of_halt hpolicy,
      countDown_of_holdAtZero rfl]
    rfl
  | obey command => cases command <;> rfl
  | reset hard => rfl

theorem run_of_halt_down (hdown : cfg.direction = .down) (c : Counter) (events : List Event) :
    c.run cfg events = c.run { cfg with onTrigger := .holdAtZero } events := by
  induction events generalizing c with
  | nil => rfl
  | cons event events ih =>
    show (c.perform cfg event).run cfg events = _
    rw [ih, perform_of_halt_down hpolicy hdown]
    rfl

end

/-- Under the halting policy the clock that asserts clears the count. After that a counter that runs
up stands still until it is enabled, and one that runs down does not: it goes on as if its policy
were to hold at zero. -/
theorem halted_stands_iff (hpolicy : cfg.onTrigger = .halt) (hasserts : c.asserts cfg = true) :
    (c.clock cfg).count = 0 ∧
    (Stands cfg (c.clock cfg) ↔ cfg.direction ≠ .down) ∧
    (cfg.direction = .down →
      ∀ events, c.run cfg events = c.run { cfg with onTrigger := .holdAtZero } events) := by
  cases hdirection : cfg.direction with
  | down =>
    refine ⟨count_clock_of_halt_down hpolicy hdirection hasserts, ?_, fun _ events => ?_⟩
    · exact iff_of_false (not_stands_of_down hdirection _) fun hne => hne rfl
    · rw [← hdirection]
      exact run_of_halt_down hpolicy hdirection c events
  | up target =>
    have hclock := clock_of_halt_up hpolicy hdirection hasserts
    refine ⟨congrArg count hclock, iff_of_true ?_ nofun, nofun⟩
    exact stands_of_disabled hdirection (congrArg enabled hclock)

theorem halted_stands_iff_up_three :
    let cfg : Config := ⟨.up 3, .halt, .immediate, false⟩
    let c : Counter := ⟨2, 9, true, false, false⟩
    cfg.onTrigger = .halt ∧ c.asserts cfg = true ∧
    (c.clock cfg).count = 0 ∧ Stands cfg (c.clock cfg) := by
  intro cfg c
  have hpolicy : cfg.onTrigger = .halt := rfl
  have hasserts : c.asserts cfg = true := rfl
  obtain ⟨hcount, hstands, -⟩ := halted_stands_iff hpolicy hasserts
  exact ⟨hpolicy, hasserts, hcount, hstands.mpr nofun⟩

/-- The policy does not stop every counter. One that runs down from a reload value of 1 asserts at
its second clock, and again two clocks later. -/
theorem halting_goes_on_down :
    ¬ ∀ (cfg : Config) (c : Counter), cfg.onTrigger = .halt → c.asserts cfg = true →
        (c.clock cfg).count = 0 ∧ Stands cfg (c.clock cfg) := by
  intro hstops
  let cfg : Config := ⟨.down, .halt, .nextReload, false⟩
  let c : Counter := ({} : Counter).run cfg
    [.obey (.setReload 1), .obey (.setEnabled true), .clock]
  obtain ⟨-, hstands⟩ := hstops cfg c rfl (by decide)
  have hquiet : ((c.clock cfg).run cfg [.clock]).asserts cfg = false :=
    (hstands [.clock] (by decide)).1
  exact absurd hquiet (by decide)

end RasterIrq.Counter
