import RasterIrq.LineIrq
import RasterIrq.Proofs.Counter.Firing

/-!
# Steps that can fault

The definitions of this library are total: a difference of naturals stops at zero, a remainder by
zero is the number itself, and an index comes with a proof or a default. Where a procedure takes
such a step on trust, it may be wrong. Here the steps are taken without that help and fail with a
`Fault` when they have no right to go on. A procedure written with them that provably returns what
the total definition says never takes a wrong one.

Results:
1. `exists_of_bind_eq_ok`, `error_of_bind_eq_error` and their companions: what came out of steps
   that may fail in any way.
2. `Fault.sub_eq_ok` and its companions: when a step goes well.
3. `LineIrq.notifyInSteps_eq`: the interrupt side takes differences only where they are positive.
-/

namespace RasterIrq

/-! ## What came out -/

section Steps

variable {ε ε' α β : Type}

/-- What came out of two steps came out of the second one, from what came out of the first. -/
theorem exists_of_bind_eq_ok {x : Except ε α} {f : α → Except ε β} {r : β}
    (h : x >>= f = .ok r) : ∃ a, x = .ok a ∧ f a = .ok r := by
  cases x with
  | error e => cases h
  | ok a => exact ⟨a, rfl, h⟩

theorem exists_of_map_eq_ok {x : Except ε α} {f : α → β} {r : β} (h : x.map f = .ok r) :
    ∃ a, x = .ok a ∧ f a = r := by
  cases x with
  | error e => cases h
  | ok a => exact ⟨a, rfl, Except.ok.inj h⟩

theorem eq_ok_of_mapError_eq_ok {x : Except ε α} {f : ε → ε'} {r : α}
    (h : x.mapError f = .ok r) : x = .ok r := by
  cases x with
  | error e => cases h
  | ok a => exact congrArg Except.ok (Except.ok.inj h)

/-- If two steps failed, the first one did, or the second one with what came out of the first. -/
theorem error_of_bind_eq_error {x : Except ε α} {f : α → Except ε β} {e : ε}
    (h : x >>= f = .error e) : x = .error e ∨ ∃ a, x = .ok a ∧ f a = .error e := by
  cases x with
  | error e' => exact .inl (congrArg Except.error (Except.error.inj h))
  | ok a => exact .inr ⟨a, rfl, h⟩

theorem eq_error_of_map_eq_error {x : Except ε α} {f : α → β} {e : ε}
    (h : x.map f = .error e) : x = .error e := by
  cases x with
  | error e' => exact congrArg Except.error (Except.error.inj h)
  | ok a => cases h

theorem exists_of_mapError_eq_error {x : Except ε α} {f : ε → ε'} {e' : ε'}
    (h : x.mapError f = .error e') : ∃ e, f e = e' := by
  cases x with
  | error e => exact ⟨e, Except.error.inj h⟩
  | ok a => cases h

end Steps

/-! ## Checked steps -/

inductive Fault where
  /-- A part was asked for that is not there. -/
  | outOfRange
  /-- A larger number was taken from a smaller one. -/
  | belowZero
  | zeroDivisor
deriving DecidableEq, Repr

namespace Fault

def sub (a b : Nat) : Except Fault Nat :=
  if b ≤ a then .ok (a - b) else .error belowZero

def mod (a b : Nat) : Except Fault Nat :=
  if b = 0 then .error zeroDivisor else .ok (a % b)

def item {α : Type} (xs : Array α) (i : Nat) : Except Fault α :=
  if h : i < xs.size then .ok xs[i] else .error outOfRange

def put {α : Type} (xs : Array α) (i : Nat) (x : α) : Except Fault (Array α) :=
  if h : i < xs.size then .ok (xs.set i x h) else .error outOfRange

/-- The same for a register file, which keeps its length. -/
def assign {α : Type} {n : Nat} (xs : Vector α n) (i : Nat) (x : α) : Except Fault (Vector α n) :=
  if h : i < n then .ok (xs.set i x h) else .error outOfRange

/-- The items from `first` up to `stop`. -/
def slice {α : Type} (xs : Array α) (first stop : Nat) : Except Fault (Array α) :=
  if first ≤ stop ∧ stop ≤ xs.size then .ok (xs.extract first stop) else .error outOfRange

theorem sub_eq_ok {a b : Nat} (h : b ≤ a) : sub a b = .ok (a - b) := if_pos h

theorem mod_eq_ok {b : Nat} (h : 0 < b) (a : Nat) : mod a b = .ok (a % b) :=
  if_neg (Nat.ne_of_gt h)

variable {α : Type}

theorem item_eq_ok {xs : Array α} {i : Nat} (h : i < xs.size) : item xs i = .ok xs[i] := dif_pos h

theorem item_eq_ok_of_getElem? {xs : Array α} {i : Nat} {x : α} (h : xs[i]? = some x) :
    item xs i = .ok x := by
  obtain ⟨hi, rfl⟩ := Array.getElem?_eq_some_iff.mp h
  exact item_eq_ok hi

theorem put_eq_ok {xs : Array α} {i : Nat} (h : i < xs.size) (x : α) :
    put xs i x = .ok (xs.set i x h) := dif_pos h

theorem assign_eq_ok {n : Nat} {xs : Vector α n} {i : Nat} (h : i < n) (x : α) :
    assign xs i x = .ok (xs.set i x h) := dif_pos h

theorem slice_eq_ok {xs : Array α} {first stop : Nat} (h : first ≤ stop) (h' : stop ≤ xs.size) :
    slice xs first stop = .ok (xs.extract first stop) := if_pos ⟨h, h'⟩

theorem ok_bind {β : Type} (x : α) (f : α → Except Fault β) : (Except.ok x >>= f) = f x := rfl

/-- Several items in order. -/
theorem mapM_item {xs : Array UInt8} {is : List Nat} (h : ∀ i ∈ is, i < xs.size) :
    is.mapM (item xs) = .ok (is.map fun i => xs.getD i 0) := by
  induction is with
  | nil => rfl
  | cons i is ih =>
    have hi : item xs i = .ok (xs.getD i 0) := by
      rw [item_eq_ok (h i List.mem_cons_self), Array.getD, dif_pos (h i List.mem_cons_self)]
      rfl
    rw [List.mapM_cons, hi, ok_bind, ih fun j hj => h j (List.mem_cons_of_mem i hj), ok_bind]
    rfl

end Fault

/-! ## The interrupt side -/

namespace EdgeSpacing

/-- The distance to the last edge is taken only if the cycle count was not restarted. -/
def acceptsInSteps (window : UInt64) (last : Option UInt64) (now : UInt64) : Except Fault Bool :=
  match last with
  | none => return true
  | some t =>
    if now < t then return true
    else do
      let apart ← Fault.sub now.toNat t.toNat
      return decide (window.toNat ≤ apart)

theorem acceptsInSteps_eq (window : UInt64) (last : Option UInt64) (now : UInt64) :
    acceptsInSteps window last now = .ok (accepts window last now) := by
  cases last with
  | none => rfl
  | some t =>
    rw [acceptsInSteps, accepts]
    by_cases hrestart : now < t
    · rw [if_pos hrestart, decide_eq_true hrestart]
      rfl
    · have hle : t ≤ now := UInt64.not_lt.mp hrestart
      have hapart : (now - t).toNat = now.toNat - t.toNat := UInt64.toNat_sub_of_le now t hle
      rw [if_neg hrestart, decide_eq_false hrestart,
        Fault.sub_eq_ok (UInt64.le_iff_toNat_le.mp hle), Fault.ok_bind, ← hapart]
      rfl

end EdgeSpacing

/-- The spacing is asked for only when the line rises. -/
def Monitor.cleanEdgeInSteps (window : UInt64) (m : Monitor) (addr : UInt16) (cycle : UInt64) :
    Except Fault Bool :=
  if Line.rises m.lineHigh addr then EdgeSpacing.acceptsInSteps window m.lastEdge cycle
  else return false

theorem Monitor.cleanEdgeInSteps_eq (window : UInt64) (m : Monitor) (addr : UInt16)
    (cycle : UInt64) :
    m.cleanEdgeInSteps window addr cycle = .ok (m.cleanEdge window addr cycle) := by
  rw [cleanEdgeInSteps, EdgeSpacing.acceptsInSteps_eq, cleanEdge]
  cases Line.rises m.lineHigh addr <;> rfl

namespace Counter

def stepDownInSteps (c : Counter) : Except Fault UInt16 :=
  if c.reloads then return c.reload
  else do
    let next ← Fault.sub c.count.toNat 1
    return UInt16.ofNat next

theorem stepDownInSteps_eq (c : Counter) : c.stepDownInSteps = .ok c.stepDown := by
  rw [stepDownInSteps, stepDown]
  cases hreloads : c.reloads with
  | true => rfl
  | false =>
    have hpos := one_le_of_not_reloads hreloads
    have hnext : UInt16.ofNat (c.count.toNat - 1) = c.count - 1 := by
      rw [UInt16.ofNat_sub hpos, UInt16.ofNat_toNat]
      rfl
    rw [if_neg Bool.false_ne_true, if_neg Bool.false_ne_true, Fault.sub_eq_ok hpos, Fault.ok_bind,
      hnext]
    rfl

/-- A clock. Counting down takes a difference; counting up wraps around of itself. -/
def clockInSteps (cfg : Config) (c : Counter) : Except Fault Counter :=
  match cfg.direction with
  | .down => do
    let next ← c.stepDownInSteps
    let triggers := next == 0 && (!c.reloads || c.reloadPending || cfg.zeroReloadTriggers)
    let count :=
      if next == 0 && !c.reloads && cfg.onTrigger == .reloadImmediately then c.reload else next
    return { c with
      count := count
      reloadPending := false
      pending := c.pending || c.enabled && triggers }
  | .up _ => return c.clock cfg

theorem clockInSteps_eq (cfg : Config) (c : Counter) : c.clockInSteps cfg = .ok (c.clock cfg) := by
  rw [clockInSteps, clock, asserts, advance]
  cases cfg.direction with
  | up target => rfl
  | down =>
    rw [stepDownInSteps_eq]
    rfl

end Counter

namespace LineIrq

/-- An address on the bus: a clean edge clocks the counter. -/
def notifyInSteps (w : Wiring) (u : LineIrq) (addr : UInt16) (cycle : UInt64) :
    Except Fault LineIrq := do
  let edge ← u.monitor.cleanEdgeInSteps w.window addr cycle
  if edge then
    let counter ← u.counter.clockInSteps w.counter
    return ⟨counter, ⟨Line.level addr, some cycle, u.monitor.cleanEdges + 1⟩⟩
  else
    return { u with monitor := { u.monitor with lineHigh := Line.level addr } }

theorem notifyInSteps_eq (w : Wiring) (u : LineIrq) (addr : UInt16) (cycle : UInt64) :
    u.notifyInSteps w addr cycle = .ok (u.notify w addr cycle) := by
  rw [notifyInSteps, Monitor.cleanEdgeInSteps_eq, Fault.ok_bind, notify, Monitor.observe]
  cases u.monitor.cleanEdge w.window addr cycle with
  | true =>
    rw [Counter.clockInSteps_eq]
    rfl
  | false => rfl

end LineIrq

end RasterIrq
