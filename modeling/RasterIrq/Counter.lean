/-!
# The interrupt counter

The counter is clocked once per clean edge and asserts the interrupt when it runs out. Boards wire
it differently, so four choices are a value of `Counter.Config`:

* it counts down to zero, or up to a target;
* what the asserting clock leaves in the counter;
* whether a new reload value waits for the next reload or goes into the counter at once;
* whether reloading the value zero asserts again.

`Counter.clock` is one clock, `Counter.asserts` says whether that clock asserts, and
`Counter.Command` lists what a program can do to the counter through the board's registers.
-/

namespace RasterIrq

/-- Which way the counter runs. -/
inductive Direction where
  | down
  | up (target : UInt16)
deriving DecidableEq, Repr

/-- What the asserting clock leaves behind: a zero that waits for the next clock, the reload value,
or a stopped counter. -/
inductive TriggerPolicy where
  | holdAtZero
  | reloadImmediately
  | halt
deriving DecidableEq, Repr

/-- When a new reload value reaches the counter. -/
inductive ReloadTiming where
  | nextReload
  | immediate
deriving DecidableEq, Repr

structure Counter.Config where
  direction : Direction
  onTrigger : TriggerPolicy
  reloadTiming : ReloadTiming
  /-- Whether reloading zero asserts although no reload was forced. -/
  zeroReloadTriggers : Bool
deriving DecidableEq, Repr

structure Counter where
  count : UInt16 := 0
  /-- The value that a reload puts into the counter. -/
  reload : UInt16 := 0
  enabled : Bool := false
  /-- A reload was forced and waits for the next clock. -/
  reloadPending : Bool := false
  /-- The interrupt is asserted and was not acknowledged yet. -/
  pending : Bool := false
deriving DecidableEq, Repr

/-- What a program can do to the counter. -/
inductive Counter.Command where
  | setReload (value : UInt16)
  | forceReload
  | load (value : UInt16)
  | setEnabled (enabled : Bool)
  | acknowledge
deriving DecidableEq, Repr

namespace Counter

/-! ## Commands -/

/-- A new reload value reaches the count at once only with immediate timing. -/
def setReload (cfg : Config) (value : UInt16) (c : Counter) : Counter :=
  match cfg.reloadTiming with
  | .nextReload => { c with reload := value }
  | .immediate => { c with reload := value, count := value }

def obey (cfg : Config) (c : Counter) : Command → Counter
  | .setReload value => c.setReload cfg value
  | .forceReload => { c with reloadPending := true }
  | .load value => { c with count := value }
  | .setEnabled enabled => { c with enabled }
  | .acknowledge => { c with pending := false }

/-- Obeys commands in order. -/
def obeyAll (cfg : Config) (c : Counter) (commands : List Command) : Counter :=
  commands.foldl (obey cfg) c

/-- A hard reset clears everything, a soft one drops the interrupt only. -/
def reset (hard : Bool) (c : Counter) : Counter :=
  if hard then {} else { c with pending := false }

/-! ## Clocking down -/

/-- A clock reloads when the count has run out or a reload was forced; else it decrements. -/
def reloads (c : Counter) : Bool :=
  c.count == 0 || c.reloadPending

/-- The count that a downward clock produces, before the trigger policy acts. -/
def stepDown (c : Counter) : UInt16 :=
  if c.reloads then c.reload else c.count - 1

/-- A downward clock that arrives at zero triggers, unless it got there by an unforced reload of
zero on a board that ignores those. -/
def triggersDown (cfg : Config) (c : Counter) : Bool :=
  c.stepDown == 0 && (!c.reloads || c.reloadPending || cfg.zeroReloadTriggers)

/-- The count after a downward clock. A decrement to zero leaves the reload value behind under
`reloadImmediately`. -/
def countDown (cfg : Config) (c : Counter) : UInt16 :=
  if c.stepDown == 0 && !c.reloads && cfg.onTrigger == .reloadImmediately then c.reload
  else c.stepDown

/-! ## Clocking up -/

/-- An upward clock triggers when the next count, modulo 2^16, has reached the target. -/
def triggersUp (target : UInt16) (c : Counter) : Bool :=
  decide (target ≤ c.count + 1)

/-- An enabled counter after an upward clock. -/
def clockUp (cfg : Config) (target : UInt16) (c : Counter) : Counter :=
  if c.triggersUp target then
    match cfg.onTrigger with
    | .holdAtZero => { c with count := 0 }
    | .reloadImmediately => { c with count := c.reload }
    | .halt => { c with count := 0, enabled := false }
  else
    { c with count := c.count + 1 }

/-! ## One clock -/

/-- Whether the next clock asserts the interrupt. -/
def asserts (cfg : Config) (c : Counter) : Bool :=
  c.enabled &&
    match cfg.direction with
    | .down => c.triggersDown cfg
    | .up target => c.triggersUp target

/-- One clock without its effect on the interrupt output. A counter that runs down counts whether
or not it is enabled; one that runs up stands still while it is disabled. -/
def advance (cfg : Config) (c : Counter) : Counter :=
  match cfg.direction with
  | .down => { c with count := c.countDown cfg, reloadPending := false }
  | .up target => if c.enabled then c.clockUp cfg target else c

/-- One clock: the counter advances, and an asserting clock raises the interrupt. -/
def clock (cfg : Config) (c : Counter) : Counter :=
  { c.advance cfg with pending := c.pending || c.asserts cfg }

theorem pending_clock (cfg : Config) (c : Counter) :
    (c.clock cfg).pending = (c.pending || c.asserts cfg) := rfl

theorem reload_advance (cfg : Config) (c : Counter) : (c.advance cfg).reload = c.reload := by
  unfold advance clockUp
  repeat' split
  all_goals rfl

/-- A counter that runs down from 1 and holds at zero: two clocks per interrupt. -/
example :
    let cfg : Config := ⟨.down, .holdAtZero, .nextReload, true⟩
    let c : Counter := ⟨1, 1, true, false, false⟩
    c.asserts cfg = true ∧ (c.clock cfg).asserts cfg = false
      ∧ ((c.clock cfg).clock cfg).asserts cfg = true := by decide

end Counter

end RasterIrq
