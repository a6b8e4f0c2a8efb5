/-!
# Address windows

The processor sees program memory at $8000-$FFFF through four windows of 8 KiB, the picture unit
sees character memory at $0000-$1FFF through eight windows of 1 KiB. A board's registers say which
bank each window shows.
-/

namespace RasterIrq

/-- The two memories that a board switches. -/
inductive Region where
  | prg
  | chr
deriving DecidableEq, Repr

namespace Window

/-- Bytes in a program bank and in a program window. -/
def prgSize : Nat := 0x2000

/-- Bytes in a character bank and in a character window. -/
def chrSize : Nat := 0x400

/-- The program window of an address at or above $8000. -/
def prg (addr : UInt16) : Fin 4 :=
  ⟨addr.toNat / prgSize % 4, Nat.mod_lt _ (by decide)⟩

/-- The character window of an address; the picture unit's memory repeats every $2000. -/
def chr (addr : UInt16) : Fin 8 :=
  ⟨addr.toNat / chrSize % 8, Nat.mod_lt _ (by decide)⟩

/-- Whether the region answers at this address. -/
def contains : Region → UInt16 → Bool
  | .prg, addr => decide (0x8000 ≤ addr)
  | .chr, addr => decide (addr < 0x2000)

example : prg 0x8000 = 0 ∧ prg 0x9FFF = 0 ∧ prg 0xA000 = 1 ∧ prg 0xFFFF = 3 := by decide
example : chr 0x0400 = 1 ∧ chr 0x1FFF = 7 ∧ chr 0x2000 = 0 := by decide

end Window

end RasterIrq
