import RasterIrq.EdgeSpacing
import Mathlib.Data.List.Chain

/-!
# The edges that are taken

Edges are offered at cycles that never go back. The spacing rule takes the first of them, and then
each one that comes late enough after the last one taken. This choice is greedy: it never looks
ahead and never takes back an edge. All the same no other choice of edges that are as far apart has
more of them.

`Chain window last edges` says of edges at these cycles that each one is far enough from the one
before it, and the first one from `last`, if there is a last one.

Results:
1. `EdgeSpacing.chain_taken`: the edges taken are far apart.
2. `EdgeSpacing.InOrder.close_of_refused`: a refused edge is close behind the last one taken.
3. `EdgeSpacing.length_le_length_taken`: no choice has more edges.
4. `EdgeSpacing.taken_longest_apart`: all of this for edges offered from the start.
-/

namespace RasterIrq.EdgeSpacing

/-! ## Offering edges one after the other -/

/-- The last edge taken, once edges at these cycles have been offered. -/
def lastTaken (window : UInt64) (last : Option UInt64) (times : List UInt64) : Option UInt64 :=
  times.foldl (next window) last

/-- The edges taken of those that are offered at these cycles. -/
def taken (window : UInt64) (last : Option UInt64) : List UInt64 → List UInt64
  | [] => []
  | now :: rest =>
    let later := taken window (next window last now) rest
    if accepts window last now then now :: later else later

/-- The second edge comes at least `window` cycles after the first one. -/
def Apart (window earlier later : UInt64) : Prop :=
  earlier.toNat + window.toNat ≤ later.toNat

/-- No cycle is before one that comes earlier in the list, nor before the last edge taken. -/
def InOrder (last : Option UInt64) (times : List UInt64) : Prop :=
  (last.toList ++ times).Pairwise (· ≤ ·)

/-- Each edge is apart from the one before it, and the first one from the last edge taken. -/
def Chain (window : UInt64) (last : Option UInt64) (edges : List UInt64) : Prop :=
  (last.toList ++ edges).IsChain (Apart window)

variable {window now : UInt64} {last : Option UInt64} {times rest : List UInt64}

theorem Apart.trans {a b c : UInt64} (h : Apart window a b) (h' : Apart window b c) :
    Apart window a c :=
  Nat.le_trans h (Nat.le_trans (Nat.le_add_right _ _) (show b.toNat + window.toNat ≤ c.toNat from h'))

instance : Trans (Apart window) (Apart window) (Apart window) := ⟨Apart.trans⟩

theorem taken_of_accepts (h : accepts window last now = true) :
    taken window last (now :: rest) = now :: taken window (some now) rest := by
  rw [taken, next_of_accepts h, if_pos h]

theorem taken_of_not_accepts (h : accepts window last now = false) :
    taken window last (now :: rest) = taken window last rest := by
  rw [taken, next_of_not_accepts h, h]
  rfl

theorem taken_sublist (window : UInt64) (last : Option UInt64) (times : List UInt64) :
    (taken window last times).Sublist times := by
  induction times generalizing last with
  | nil => exact List.Sublist.slnil
  | cons now rest ih =>
    cases haccepts : accepts window last now with
    | false =>
      rw [taken_of_not_accepts haccepts]
      exact (ih last).cons now
    | true =>
      rw [taken_of_accepts haccepts]
      exact (ih (some now)).cons_cons now

/-- What the rule compares the next edge with is the last edge that it took. -/
theorem lastTaken_eq (window : UInt64) (last : Option UInt64) (times : List UInt64) :
    lastTaken window last times = (taken window last times).getLast?.or last := by
  induction times generalizing last with
  | nil => rfl
  | cons now rest ih =>
    show lastTaken window (next window last now) rest = _
    rw [ih]
    cases haccepts : accepts window last now with
    | false => rw [next_of_not_accepts haccepts, taken_of_not_accepts haccepts]
    | true =>
      rw [next_of_accepts haccepts, taken_of_accepts haccepts, List.getLast?_cons]
      cases (taken window (some now) rest).getLast? <;> rfl

/-! ## Edges in order -/

theorem InOrder.le (h : InOrder last (now :: rest)) {t : UInt64} (ht : last = some t) : t ≤ now := by
  subst ht
  exact List.rel_of_pairwise_cons h List.mem_cons_self

theorem InOrder.of_accepted (h : InOrder last (now :: rest)) : InOrder (some now) rest :=
  List.Pairwise.sublist (List.sublist_append_right _ _) h

theorem InOrder.of_refused (h : InOrder last (now :: rest)) : InOrder last rest :=
  List.Pairwise.sublist ((List.sublist_cons_self now rest).append_left _) h

theorem InOrder.lastTaken {before after : List UInt64} (h : InOrder last (before ++ after)) :
    InOrder (lastTaken window last before) after := by
  induction before generalizing last with
  | nil => exact h
  | cons now rest ih =>
    show InOrder (EdgeSpacing.lastTaken window (next window last now) rest) after
    cases haccepts : accepts window last now with
    | false =>
      rw [next_of_not_accepts haccepts]
      exact ih h.of_refused
    | true =>
      rw [next_of_accepts haccepts]
      exact ih h.of_accepted

theorem InOrder.head_le (h : InOrder last (now :: rest)) {t : UInt64} (ht : t ∈ now :: rest) :
    now ≤ t := by
  rcases List.mem_cons.mp ht with rfl | hlater
  · exact UInt64.le_refl _
  · exact List.rel_of_pairwise_cons h.of_accepted hlater

/-- While edges come in order, the cycle count is never restarted. -/
theorem InOrder.accepts_iff (h : InOrder last (now :: rest)) :
    accepts window last now = true ↔ ∀ t, last = some t → Apart window t now := by
  rw [EdgeSpacing.accepts_iff]
  refine forall₂_congr fun t ht => or_iff_left ?_
  exact Nat.not_lt.mpr (UInt64.le_iff_toNat_le.mp (h.le ht))

/-- A refused edge is close behind the last one taken. -/
theorem InOrder.close_of_refused (h : InOrder last (now :: rest))
    (hrefused : accepts window last now = false) :
    ∃ t, last = some t ∧ t ≤ now ∧ now.toNat < t.toNat + window.toNat := by
  cases last with
  | none => cases hrefused
  | some t =>
    refine ⟨t, rfl, h.le rfl, Nat.lt_of_not_le fun hapart => ?_⟩
    have haccepts : accepts window (some t) now = true :=
      h.accepts_iff.mpr fun _ ht => Option.some.inj ht ▸ hapart
    rw [haccepts] at hrefused
    cases hrefused

/-! ## Far apart -/

theorem chain_cons_iff {edges : List UInt64} :
    Chain window last (now :: edges) ↔
      (∀ t, last = some t → Apart window t now) ∧ Chain window (some now) edges := by
  cases last with
  | none => exact (and_iff_right nofun).symm
  | some t =>
    show List.IsChain _ (t :: now :: edges) ↔ _
    rw [List.isChain_cons_cons]
    simp [Chain]

/-- The edges taken are far apart. -/
theorem chain_taken (h : InOrder last times) : Chain window last (taken window last times) := by
  induction times generalizing last with
  | nil => cases last <;> simp [Chain, taken]
  | cons now rest ih =>
    cases haccepts : accepts window last now with
    | false =>
      rw [taken_of_not_accepts haccepts]
      exact ih h.of_refused
    | true =>
      rw [taken_of_accepts haccepts, chain_cons_iff]
      exact ⟨h.accepts_iff.mp haccepts, ih h.of_accepted⟩

/-! ## As many as possible -/

/-- What chooses from an edge on may choose as much if that edge comes earlier. -/
theorem Chain.of_le {first : UInt64} {edges : List UInt64} (h : Chain window (some first) edges)
    (hle : now ≤ first) : Chain window (some now) edges := by
  cases edges with
  | nil => exact List.isChain_singleton _
  | cons next edges =>
    obtain ⟨hnext, hrest⟩ := chain_cons_iff.mp h
    refine chain_cons_iff.mpr ⟨fun t ht => ?_, hrest⟩
    cases ht
    exact Nat.le_trans (Nat.add_le_add_right (UInt64.le_iff_toNat_le.mp hle) _) (hnext first rfl)

/-- No choice of edges that are far apart has more of them. -/
theorem length_le_length_taken {chosen : List UInt64} (h : InOrder last times)
    (hsub : chosen.Sublist times) (hchain : Chain window last chosen) :
    chosen.length ≤ (taken window last times).length := by
  induction times generalizing last chosen with
  | nil => exact hsub.length_le
  | cons now rest ih =>
    cases haccepts : accepts window last now with
    | false =>
      -- The refused edge is too close for any choice.
      rw [taken_of_not_accepts haccepts]
      refine ih h.of_refused ?_ hchain
      cases hsub with
      | cons _ hrest => exact hrest
      | cons_cons _ hrest =>
        rw [h.accepts_iff.mpr (chain_cons_iff.mp hchain).1] at haccepts
        cases haccepts
    | true =>
      -- The first edge of a choice gives way to this one, which is not later.
      rw [taken_of_accepts haccepts, List.length_cons]
      cases chosen with
      | nil => exact Nat.zero_le _
      | cons first others =>
        have hle : now ≤ first := h.head_le (hsub.subset List.mem_cons_self)
        have hothers := (chain_cons_iff.mp hchain).2.of_le hle
        exact Nat.succ_le_succ (ih h.of_accepted hsub.tail hothers)

/-- Of edges that are offered in order, the first one is taken, any two that are taken are at least
`window` cycles apart, each one that is refused comes less than `window` cycles after the last one
that was taken before it, and no choice of edges of which each is at least `window` cycles after the
one before it has more of them than are taken. -/
theorem taken_longest_apart (window : UInt64) {times : List UInt64}
    (htimes : times.Pairwise (· ≤ ·)) :
    let edges := taken window none times
    edges.Sublist times ∧
    edges.head? = times.head? ∧
    edges.Pairwise (fun a b => a.toNat + window.toNat ≤ b.toNat) ∧
    (∀ before now after, times = before ++ now :: after →
      accepts window (lastTaken window none before) now = false →
        ∃ t, (taken window none before).getLast? = some t ∧
          t ≤ now ∧ now.toNat < t.toNat + window.toNat) ∧
    ∀ chosen : List UInt64, chosen.Sublist times →
      chosen.IsChain (fun a b => a.toNat + window.toNat ≤ b.toNat) →
        chosen.length ≤ edges.length := by
  have hstart : InOrder none times := htimes
  refine ⟨taken_sublist window none times, ?_, ?_, ?_, ?_⟩
  · cases times with
    | nil => rfl
    | cons now rest => rw [taken_of_accepts (accepts_none window now)]; rfl
  · exact List.IsChain.pairwise (R := Apart window) (chain_taken hstart)
  · rintro before now after rfl hrefused
    rw [← (lastTaken_eq window none before).trans Option.or_none]
    exact hstart.lastTaken.close_of_refused hrefused
  · intro chosen hsub hchain
    exact length_le_length_taken hstart hsub hchain

/-- Edges that come too early, and one that comes just in time: of a choice that starts with the
second edge nothing is gained. -/
theorem taken_longest_apart_noisy :
    [0, 10, 16, 20, 31, 33].Pairwise (fun a b : UInt64 => a ≤ b) ∧
    taken 16 none [0, 10, 16, 20, 31, 33] = [0, 16, 33] ∧
    ([10, 31] : List UInt64).length ≤ 3 ∧
    ∃ t, (taken 16 none [0, 10, 16, 20]).getLast? = some t ∧
      t ≤ 31 ∧ (31 : UInt64).toNat < t.toNat + 16 := by
  have htimes : [0, 10, 16, 20, 31, 33].Pairwise (fun a b : UInt64 => a ≤ b) := by decide
  have htaken : taken 16 none [0, 10, 16, 20, 31, 33] = [0, 16, 33] := by decide
  obtain ⟨-, -, -, hrefused, hmost⟩ := taken_longest_apart 16 htimes
  rw [htaken] at hmost
  refine ⟨htimes, htaken, hmost [10, 31] (by decide) (by decide), ?_⟩
  exact hrefused [0, 10, 16, 20] 31 [33] rfl (by decide)

end RasterIrq.EdgeSpacing
