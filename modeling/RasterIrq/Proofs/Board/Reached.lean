import RasterIrq.Proofs.Board.Resume

/-!
# Boards that come about

`Board.Reached cart b` says that a board of the cartridge comes to be `b` by operations from
power-on. Every operation may happen, but what is loaded was saved by a board that comes about in
the same way. That board may be of another cartridge, as long as its chip is of the same family.

Results:
1. `Board.Reached.sameBuild`: a board that comes about has the build that its cartridge gives it.
2. `Board.Reached.run_of_loadsSaved`: runs that load what such boards saved lead to such boards.
-/

namespace RasterIrq

namespace Board

inductive Reached : Cartridge → Board → Prop where
  | powerOn {cart : Cartridge} {b : Board} (h : ofCartridge cart = .ok b) : Reached cart b
  /-- Anything but a load happens. -/
  | perform {cart : Cartridge} {b : Board} (hb : Reached cart b) (op : Operation)
    (hop : ∀ bytes, op ≠ .load bytes) : Reached cart (b.perform op)
  | load {cart other : Cartridge} {b saver : Board} (hb : Reached cart b)
    (hsaver : Reached other saver) (hfamily : saver.chip.family = b.chip.family) :
    Reached cart (b.perform (.load saver.save))

theorem family_perform (b : Board) (op : Operation) :
    (b.perform op).chip.family = b.chip.family :=
  (Chip.family_eq_of_make (SameBuild.perform b op).make).symm

theorem family_run (b : Board) (ops : List Operation) :
    (b.run ops).chip.family = b.chip.family :=
  (Chip.family_eq_of_make (SameBuild.run b ops).make).symm

/-- A board that comes about has the build that its cartridge gives it. -/
theorem Reached.sameBuild {cart : Cartridge} {b : Board} (h : Reached cart b) :
    ∃ start, ofCartridge cart = .ok start ∧ SameBuild start b := by
  induction h with
  | powerOn h => exact ⟨_, h, SameBuild.refl _⟩
  | perform _ op _ ih =>
    obtain ⟨start, hstart, hbuild⟩ := ih
    exact ⟨start, hstart, hbuild.trans (SameBuild.perform _ op)⟩
  | load _ _ _ ih =>
    obtain ⟨start, hstart, hbuild⟩ := ih
    exact ⟨start, hstart, hbuild.trans (SameBuild.perform _ _)⟩

/-- What the run loads was saved by boards of the family that come about. -/
def LoadsSaved (family : Family) (ops : List Operation) : Prop :=
  ∀ bytes, .load bytes ∈ ops →
    ∃ other saver, Reached other saver ∧ saver.chip.family = family ∧ bytes = saver.save

theorem LoadsSaved.tail {family : Family} {op : Operation} {ops : List Operation}
    (h : LoadsSaved family (op :: ops)) : LoadsSaved family ops :=
  fun bytes hbytes => h bytes (List.mem_cons_of_mem op hbytes)

theorem LoadsSaved.perform {cart : Cartridge} {b : Board} {op : Operation} {ops : List Operation}
    (h : LoadsSaved b.chip.family (op :: ops)) (hb : Reached cart b) :
    Reached cart (b.perform op) := by
  by_cases hload : ∃ bytes, op = .load bytes
  · obtain ⟨bytes, rfl⟩ := hload
    obtain ⟨other, saver, hsaver, hfamily, rfl⟩ := h bytes List.mem_cons_self
    exact hb.load hsaver hfamily
  · exact hb.perform op (not_exists.mp hload)

theorem Reached.run_of_loadsSaved {cart : Cartridge} {b : Board} (h : Reached cart b)
    {ops : List Operation} (hops : LoadsSaved b.chip.family ops) : Reached cart (b.run ops) := by
  induction ops generalizing b with
  | nil => exact h
  | cons op ops ih =>
    refine ih (hops.perform h) ?_
    rw [family_perform]
    exact hops.tail

/-- A run without loads. -/
theorem Reached.run {cart : Cartridge} {b : Board} (h : Reached cart b) {ops : List Operation}
    (hops : ∀ op ∈ ops, ∀ bytes, op ≠ .load bytes) : Reached cart (b.run ops) :=
  h.run_of_loadsSaved fun bytes hbytes => absurd rfl (hops _ hbytes bytes)

end Board

end RasterIrq
