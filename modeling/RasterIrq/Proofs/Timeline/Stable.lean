import RasterIrq.Bus
import RasterIrq.Proofs.Raster.Frame
import Mathlib.Data.List.Induction
import Mathlib.Tactic.ByContra

/-!
# Timelines are stable

Events come to a timeline in any order of time. The timeline sorts them by cycle and leaves events
of one cycle in the order in which they came. A list with these two properties is the only one, so
timelines to which the same events come are equal if the events of each cycle come in the same order.

An event goes behind every event up to its cycle. As long as the events are in order, that place is
found by halving.

Results:
1. `Timeline.exists_events_push`: where an event goes.
2. `Timeline.toList_placeAll`: searching for the place by halving builds the same events.
3. `Timeline.StableSort.pushAll`, `Timeline.eq_of_eventsOf_eq`: any events are sorted, in one way.
4. `Timeline.stableSort_calls`: what any calls make of a timeline.
-/

namespace RasterIrq.Timeline

/-! ## Definitions -/

/-- The cycles of the events do not go down. -/
def InOrder (events : List TimedEvent) : Prop :=
  events.Pairwise fun e later => e.cycle ≤ later.cycle

/-- The events of one cycle. -/
def eventsOf (cycle : UInt64) (events : List TimedEvent) : List TimedEvent :=
  events.filter fun e => e.cycle = cycle

/-- `events` are the pushed ones in order, and those of one cycle as they were pushed. -/
structure StableSort (pushed events : List TimedEvent) : Prop where
  perm : events.Perm pushed
  inOrder : InOrder events
  stable : ∀ cycle, eventsOf cycle events = eventsOf cycle pushed

def pushAll (t : Timeline) (events : List TimedEvent) : Timeline :=
  events.foldl (fun t e => t.push e.cycle e.event) t

/-- What adds events to a timeline. -/
inductive Call where
  | push (cycle : UInt64) (event : BusEvent)
  | pushWrite (cycle : UInt64) (addr : UInt16) (value : UInt8)
  | pushFetches (fetches : List Fetch)

def call (t : Timeline) : Call → Timeline
  | .push cycle event => t.push cycle event
  | .pushWrite cycle addr value => t.pushWrite cycle addr value
  | .pushFetches fetches => t.pushFetches fetches

def calls (t : Timeline) (cs : List Call) : Timeline :=
  cs.foldl call t

/-- The events that a call adds, in their order. -/
def Call.events : Call → List TimedEvent
  | .push cycle event => [⟨cycle, event⟩]
  | .pushWrite cycle addr value => [⟨cycle, .write addr value⟩]
  | .pushFetches fetches => fetches.map Fetch.timed

/-! ## Where an event goes -/

/-- It goes in front of later events only, and what it goes in front of is a part of the list. -/
theorem exists_insert (e : TimedEvent) (latest : List TimedEvent) :
    ∃ late early, latest = late ++ early ∧ insert e latest = late ++ e :: early ∧
      (∀ x ∈ late, e.cycle < x.cycle) ∧ ∀ x ∈ early.head?, x.cycle ≤ e.cycle := by
  induction latest with
  | nil => exact ⟨[], [], rfl, rfl, nofun, nofun⟩
  | cons y latest ih =>
    by_cases hlate : e.cycle < y.cycle
    · obtain ⟨late, early, rfl, hinsert, hlater, hearly⟩ := ih
      refine ⟨y :: late, early, rfl, ?_, List.forall_mem_cons.mpr ⟨hlate, hlater⟩, hearly⟩
      rw [insert, if_pos hlate, hinsert]
      rfl
    · refine ⟨[], y :: latest, rfl, ?_, nofun, ?_⟩
      · rw [insert, if_neg hlate]
        rfl
      · rintro x hx
        cases hx
        exact UInt64.not_lt.mp hlate

/-- An event goes behind all events up to its cycle, if they were in order, and in front of the
later ones. -/
theorem exists_events_push (t : Timeline) (e : TimedEvent) :
    ∃ early late, t.events = early ++ late ∧
      (t.push e.cycle e.event).events = early ++ e :: late ∧
      (∀ x ∈ late, e.cycle < x.cycle) ∧ (InOrder t.events → ∀ x ∈ early, x.cycle ≤ e.cycle) := by
  obtain ⟨late, early, hlatest, hinsert, hlate, hhead⟩ := exists_insert e t.latest
  have hevents : t.events = early.reverse ++ late.reverse := by
    rw [events, hlatest, List.reverse_append]
  refine ⟨early.reverse, late.reverse, hevents, ?_, ?_, ?_⟩
  · show (insert e t.latest).reverse = _
    rw [hinsert]
    simp
  · intro x hx
    exact hlate x (List.mem_reverse.mp hx)
  · intro horder
    rw [hevents, InOrder, List.pairwise_append] at horder
    cases early with
    | nil =>
      intro x hx
      exact absurd hx List.not_mem_nil
    | cons last rest =>
      have hlast : last.cycle ≤ e.cycle := hhead last rfl
      have hbefore := (List.pairwise_append.mp (List.reverse_cons ▸ horder.1)).2.2
      intro x hx
      rcases List.mem_cons.mp (List.mem_reverse.mp hx) with rfl | hx
      · exact hlast
      · exact UInt64.le_trans
          (hbefore x (List.mem_reverse.mpr hx) last List.mem_cons_self) hlast

/-! ## Searching by halving -/

/-- Halves the range `lo ≤ i < hi` in which the events go over from ones up to the cycle to later
ones, until nothing is left of it. -/
def findPlace (events : Array TimedEvent) (cycle : UInt64) (lo hi : Nat) (h : hi ≤ events.size) :
    Nat :=
  if hlt : lo < hi then
    if events[(lo + hi) / 2].cycle ≤ cycle then findPlace events cycle ((lo + hi) / 2 + 1) hi h
    else findPlace events cycle lo ((lo + hi) / 2) (by omega)
  else lo
termination_by hi - lo

/-- Whatever the order of the events, the place found is in range. -/
theorem findPlace_le {events : Array TimedEvent} {cycle : UInt64} {lo hi : Nat}
    (h : hi ≤ events.size) (hlo : lo ≤ hi) : findPlace events cycle lo hi h ≤ hi := by
  induction lo, hi, h using findPlace.induct events cycle with
  | case1 lo hi h hlt hle ih =>
    rw [findPlace, dif_pos hlt, if_pos hle]
    exact ih (by omega)
  | case2 lo hi h hlt hgt ih =>
    have hmid := ih (by omega)
    rw [findPlace, dif_pos hlt, if_neg hgt]
    omega
  | case3 lo hi h hge =>
    rw [findPlace, dif_neg hge]
    exact hlo

/-- Adds an event at the place that is found by halving. -/
def place (events : Array TimedEvent) (e : TimedEvent) : Array TimedEvent :=
  events.insertIdx (findPlace events e.cycle 0 events.size (Nat.le_refl _)) e
    (findPlace_le _ (Nat.zero_le _))

def placeAll (events : Array TimedEvent) (added : List TimedEvent) : Array TimedEvent :=
  added.foldl place events

/-- If the events go over from ones up to the cycle to later ones once, that place is found. -/
theorem findPlace_eq {events : Array TimedEvent} {cycle : UInt64} {n : Nat}
    (hearly : ∀ i (h : i < events.size), i < n → events[i].cycle ≤ cycle)
    (hlate : ∀ i (h : i < events.size), n ≤ i → cycle < events[i].cycle)
    {lo hi : Nat} (h : hi ≤ events.size) (hlo : lo ≤ n) (hhi : n ≤ hi) :
    findPlace events cycle lo hi h = n := by
  induction lo, hi, h using findPlace.induct events cycle with
  | case1 lo hi h hlt hle ih =>
    have hmid : (lo + hi) / 2 < n := by
      by_contra hge
      exact UInt64.not_lt.mpr hle (hlate _ (by omega) (by omega))
    rw [findPlace, dif_pos hlt, if_pos hle]
    exact ih hmid hhi
  | case2 lo hi h hlt hgt ih =>
    have hmid : n ≤ (lo + hi) / 2 := by
      by_contra hlow
      exact hgt (hearly _ (by omega) (by omega))
    rw [findPlace, dif_pos hlt, if_neg hgt]
    exact ih hlo hmid
  | case3 lo hi h hge =>
    rw [findPlace, dif_neg hge]
    omega

theorem insertIdx_length_append (early late : List TimedEvent) (e : TimedEvent) :
    (early ++ late).insertIdx early.length e = early ++ e :: late := by
  induction early with
  | nil => rfl
  | cons x early ih => exact congrArg (x :: ·) ih

/-- As long as the events are in order, halving finds the place of an event. -/
theorem toList_place {t : Timeline} (h : InOrder t.events) (e : TimedEvent) :
    (place t.events.toArray e).toList = (t.push e.cycle e.event).events := by
  obtain ⟨early, late, hevents, hpush, hlate, hearly⟩ := exists_events_push t e
  have hplace : findPlace t.events.toArray e.cycle 0 t.events.toArray.size (Nat.le_refl _)
      = early.length := by
    have hsize : t.events.toArray.size = early.length + late.length := by
      rw [List.size_toArray, hevents, List.length_append]
    refine findPlace_eq ?_ ?_ _ (Nat.zero_le _) (by omega)
    · intro i hi hlt
      have hmem : t.events.toArray[i] ∈ early := by
        simp [hevents, List.getElem_append_left hlt]
      exact hearly h _ hmem
    · intro i hi hge
      have hmem : t.events.toArray[i] ∈ late := by
        simp [hevents, List.getElem_append_right hge]
      exact hlate _ hmem
  rw [hpush, ← insertIdx_length_append, ← hevents, place, Array.toList_insertIdx, hplace]

/-! ## Sorting -/

theorem eventsOf_append (cycle : UInt64) (early late : List TimedEvent) :
    eventsOf cycle (early ++ late) = eventsOf cycle early ++ eventsOf cycle late :=
  List.filter_append ..

theorem eventsOf_eq_nil {cycle : UInt64} {events : List TimedEvent}
    (h : ∀ e ∈ events, e.cycle ≠ cycle) : eventsOf cycle events = [] :=
  List.filter_eq_nil_iff.mpr fun e he => by simpa using h e he

theorem eventsOf_cons_self (e : TimedEvent) (events : List TimedEvent) :
    eventsOf e.cycle (e :: events) = e :: eventsOf e.cycle events :=
  List.filter_cons_of_pos (decide_eq_true rfl)

theorem eventsOf_cons_of_ne {cycle : UInt64} {e : TimedEvent} (h : e.cycle ≠ cycle)
    (events : List TimedEvent) : eventsOf cycle (e :: events) = eventsOf cycle events :=
  List.filter_cons_of_neg (by simpa using h)

namespace StableSort

variable {pushed : List TimedEvent} {t : Timeline}

theorem nil : StableSort [] ({} : Timeline).events := ⟨.nil, .nil, fun _ => rfl⟩

/-- One more event keeps the order. -/
theorem push (h : StableSort pushed t.events) (e : TimedEvent) :
    StableSort (pushed ++ [e]) (t.push e.cycle e.event).events := by
  obtain ⟨early, late, hevents, hpush, hlate, hearly⟩ := exists_events_push t e
  have hfirst := hearly h.inOrder
  obtain ⟨hperm, horder, hstable⟩ := h
  rw [hevents] at hperm horder hstable
  obtain ⟨hearlyOrder, hlateOrder, hacross⟩ := List.pairwise_append.mp horder
  rw [hpush]
  refine ⟨?_, ?_, fun cycle => ?_⟩
  · have hlast : (pushed ++ [e]).Perm (e :: pushed) := List.perm_append_singleton e pushed
    exact List.perm_middle.trans ((hperm.cons e).trans hlast.symm)
  · refine List.pairwise_append.mpr ⟨hearlyOrder, List.pairwise_cons.mpr ⟨?_, hlateOrder⟩, ?_⟩
    · exact fun x hx => UInt64.le_of_lt (hlate x hx)
    · intro x hx y hy
      rcases List.mem_cons.mp hy with rfl | hy
      · exact hfirst x hx
      · exact hacross x hx y hy
  · have hbefore := hstable cycle
    rw [eventsOf_append] at hbefore
    rw [eventsOf_append, eventsOf_append cycle pushed, ← hbefore]
    by_cases hcycle : e.cycle = cycle
    · subst hcycle
      have hnone : eventsOf e.cycle late = [] :=
        eventsOf_eq_nil fun x hx => (UInt64.ne_of_lt (hlate x hx)).symm
      rw [eventsOf_cons_self, eventsOf_cons_self, hnone, List.append_nil]
      rfl
    · rw [eventsOf_cons_of_ne hcycle, eventsOf_cons_of_ne hcycle, eventsOf, eventsOf, eventsOf,
        List.filter_nil, List.append_nil]

/-- Any events are sorted. -/
theorem pushAll (h : StableSort pushed t.events) (events : List TimedEvent) :
    StableSort (pushed ++ events) (t.pushAll events).events := by
  induction events generalizing pushed t with
  | nil =>
    rw [List.append_nil]
    exact h
  | cons e events ih =>
    rw [← List.singleton_append, ← List.append_assoc]
    exact ih (h.push e)

end StableSort

/-- Searching by halving builds the same events. -/
theorem toList_placeAll (events : List TimedEvent) :
    (placeAll #[] events).toList = (({} : Timeline).pushAll events).events := by
  induction events using List.reverseRecOn with
  | nil => rfl
  | append_singleton events e ih =>
    have hsorted : StableSort ([] ++ events) (({} : Timeline).pushAll events).events :=
      StableSort.nil.pushAll events
    have hplaced : placeAll #[] events = (({} : Timeline).pushAll events).events.toArray := by
      rw [← ih, Array.toArray_toList]
    rw [placeAll, List.foldl_append, Timeline.pushAll, List.foldl_append]
    show (place (placeAll #[] events) e).toList = _
    rw [hplaced, toList_place hsorted.inOrder]
    rfl

/-! ## There is one way to sort -/

theorem InOrder.head_le {e : TimedEvent} {events : List TimedEvent} (h : InOrder (e :: events))
    {cycle : UInt64} (hne : eventsOf cycle (e :: events) ≠ []) : e.cycle ≤ cycle := by
  obtain ⟨x, hx⟩ := List.exists_mem_of_ne_nil _ hne
  obtain ⟨hmem, hcycle⟩ := List.mem_filter.mp hx
  obtain rfl : x.cycle = cycle := of_decide_eq_true hcycle
  rcases List.mem_cons.mp hmem with rfl | hmem
  · exact UInt64.le_refl _
  · exact (List.pairwise_cons.mp h).1 x hmem

/-- Events in order are known from those of each cycle. -/
theorem eq_of_eventsOf_eq {xs ys : List TimedEvent} (hxs : InOrder xs) (hys : InOrder ys)
    (h : ∀ cycle, eventsOf cycle xs = eventsOf cycle ys) : xs = ys := by
  induction xs generalizing ys with
  | nil =>
    cases ys with
    | nil => rfl
    | cons y ys =>
      have hy := h y.cycle
      rw [eventsOf_cons_self] at hy
      cases hy
  | cons x xs ih =>
    cases ys with
    | nil =>
      have hx := h x.cycle
      rw [eventsOf_cons_self] at hx
      cases hx
    | cons y ys =>
      -- Each head is the earliest event of its list, and the other list has one of its cycle.
      have hle : x.cycle ≤ y.cycle := by
        refine hxs.head_le ?_
        rw [h, eventsOf_cons_self]
        exact List.cons_ne_nil _ _
      have hge : y.cycle ≤ x.cycle := by
        refine hys.head_le ?_
        rw [← h, eventsOf_cons_self]
        exact List.cons_ne_nil _ _
      have hcycle : y.cycle = x.cycle := UInt64.le_antisymm hge hle
      have hsame := h x.cycle
      rw [eventsOf_cons_self, ← hcycle, eventsOf_cons_self] at hsame
      obtain ⟨rfl, hrest⟩ := List.cons.inj hsame
      refine congrArg (x :: ·) (ih (List.pairwise_cons.mp hxs).2 (List.pairwise_cons.mp hys).2 ?_)
      intro cycle
      by_cases hx : x.cycle = cycle
      · exact hx ▸ hrest
      · have hothers := h cycle
        rwa [eventsOf_cons_of_ne hx, eventsOf_cons_of_ne hx] at hothers

/-! ## Calls -/

theorem pushFetches_eq (t : Timeline) (fetches : List Fetch) :
    t.pushFetches fetches = t.pushAll (fetches.map Fetch.timed) := by
  rw [pushAll, List.foldl_map]
  rfl

theorem calls_eq (t : Timeline) (cs : List Call) :
    t.calls cs = t.pushAll (cs.flatMap Call.events) := by
  induction cs generalizing t with
  | nil => rfl
  | cons c cs ih =>
    have hcall : t.call c = t.pushAll c.events := by
      cases c with
      | push cycle event => rfl
      | pushWrite cycle addr value => rfl
      | pushFetches fetches => exact pushFetches_eq t fetches
    rw [List.flatMap_cons, pushAll, List.foldl_append]
    show (t.call c).calls cs = _
    rw [ih, hcall]
    rfl

/-- Whatever is pushed comes out sorted by cycle, and the events of one cycle as they were pushed.
If other calls push the same events, those of each cycle in the same order, the timeline has the
same events, and replaying it does the same to every bus. -/
theorem stableSort_calls (cs : List Call) :
    let pushed := cs.flatMap Call.events
    let t := ({} : Timeline).calls cs
    t.events.Perm pushed ∧
    (t.events.Pairwise fun e later => e.cycle ≤ later.cycle) ∧
    (∀ cycle, eventsOf cycle t.events = eventsOf cycle pushed) ∧
    ∀ cs' : List Call,
      (∀ cycle, eventsOf cycle (cs'.flatMap Call.events) = eventsOf cycle pushed) →
      (({} : Timeline).calls cs').events = t.events ∧
        ∀ b : Bus, b.replay (({} : Timeline).calls cs') = b.replay t := by
  intro pushed t
  have hsorted : ∀ cs : List Call,
      StableSort (cs.flatMap Call.events) (({} : Timeline).calls cs).events := by
    intro cs
    rw [calls_eq]
    exact StableSort.nil.pushAll (cs.flatMap Call.events)
  have h := hsorted cs
  refine ⟨h.perm, h.inOrder, h.stable, fun cs' hsame => ?_⟩
  have h' := hsorted cs'
  have hevents : (({} : Timeline).calls cs').events = t.events :=
    eq_of_eventsOf_eq h'.inOrder h.inOrder fun cycle =>
      (h'.stable cycle).trans ((hsame cycle).trans (h.stable cycle).symm)
  refine ⟨hevents, fun b => ?_⟩
  rw [Bus.replay, Bus.replay, hevents]

/-- A poll that is pushed too late, and after a write: it comes first, and the write stays in front
of the fetch of its cycle. -/
theorem stableSort_calls_late_poll :
    let cs := [Call.pushWrite 10 0xE001 0, .push 5 .poll, .pushFetches [⟨10, 0x1000⟩]]
    let cs' := [Call.push 5 .poll, .pushWrite 10 0xE001 0, .push 10 (.fetch 0x1000)]
    (∀ cycle, eventsOf cycle (cs'.flatMap Call.events) = eventsOf cycle (cs.flatMap Call.events)) ∧
    (({} : Timeline).calls cs).events
      = [⟨5, .poll⟩, ⟨10, .write 0xE001 0⟩, ⟨10, .fetch 0x1000⟩] ∧
    (({} : Timeline).calls cs').events = (({} : Timeline).calls cs).events ∧
    ∀ b : Bus, b.replay (({} : Timeline).calls cs') = b.replay (({} : Timeline).calls cs) := by
  intro cs cs'
  have hsame : ∀ cycle, eventsOf cycle (cs'.flatMap Call.events)
      = eventsOf cycle (cs.flatMap Call.events) := by
    intro cycle
    show eventsOf cycle [⟨5, .poll⟩, ⟨10, .write 0xE001 0⟩, ⟨10, .fetch 0x1000⟩]
      = eventsOf cycle [⟨10, .write 0xE001 0⟩, ⟨5, .poll⟩, ⟨10, .fetch 0x1000⟩]
    by_cases hpoll : (5 : UInt64) = cycle
    · subst hpoll
      rfl
    · simp [eventsOf, List.filter_cons, hpoll]
  exact ⟨hsame, by decide, (stableSort_calls cs).2.2.2 cs' hsame⟩

end RasterIrq.Timeline
