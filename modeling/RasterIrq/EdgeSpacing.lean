/-!
# Spacing of accepted edges

The line rises several times while one row of sprites is fetched. The hardware takes an edge only
if enough cycles have passed since the edge it took last; an edge that it refuses leaves that
reference alone. A cycle number below the reference means that the cycle count was restarted, so
the edge is taken and becomes the new reference.
-/

namespace RasterIrq.EdgeSpacing

/-- The spacing that the interrupt hardware asks for, in picture-unit cycles. -/
def standardWindow : UInt64 := 16

/-- An edge at `now` is taken if it is the first one, if the cycle count was restarted, or if it
comes at least `window` cycles after the last one taken. -/
def accepts (window : UInt64) (last : Option UInt64) (now : UInt64) : Bool :=
  match last with
  | none => true
  | some t => decide (now < t) || decide (window ≤ now - t)

/-- The last edge taken, once an edge at `now` has been offered. -/
def next (window : UInt64) (last : Option UInt64) (now : UInt64) : Option UInt64 :=
  if accepts window last now then some now else last

theorem accepts_none (window now : UInt64) : accepts window none now = true := rfl

/-- In numbers without wrap-around: the edge is far enough from the last one taken, or before it. -/
theorem accepts_iff {window now : UInt64} {last : Option UInt64} :
    accepts window last now = true ↔
      ∀ t, last = some t → t.toNat + window.toNat ≤ now.toNat ∨ now.toNat < t.toNat := by
  cases last with
  | none => exact iff_of_true rfl nofun
  | some t =>
    simp only [accepts, Bool.or_eq_true, decide_eq_true_eq, Option.some.injEq, forall_eq',
      UInt64.lt_iff_toNat_lt, UInt64.le_iff_toNat_le]
    rcases Nat.lt_or_ge now.toNat t.toNat with hrestarted | hle
    · exact iff_of_true (.inl hrestarted) (.inr hrestarted)
    · rw [UInt64.toNat_sub_of_le now t (UInt64.le_iff_toNat_le.mpr hle)]
      omega

theorem next_of_accepts {window now : UInt64} {last : Option UInt64}
    (h : accepts window last now = true) : next window last now = some now := by
  simp [next, h]

theorem next_of_not_accepts {window now : UInt64} {last : Option UInt64}
    (h : accepts window last now = false) : next window last now = last := by
  simp [next, h]

example : accepts 16 (some 100) 115 = false ∧ accepts 16 (some 100) 116 = true
    ∧ accepts 16 (some 100) 99 = true := by decide

end RasterIrq.EdgeSpacing
