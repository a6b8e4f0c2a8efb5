/-!
# Banked memory

A memory made of whole banks of one size, at least one of them. Bank numbers wrap around at the
number of banks and offsets at the bank size, so every pair of numbers names a cell that exists:
`index_lt` is the reason that reading and writing need no further check.
-/

namespace RasterIrq

structure Banked (size : Nat) where
  cells : Array UInt8
  cells_pos : 0 < cells.size
  whole : cells.size % size = 0

namespace Banked

variable {size : Nat}

/-- The memory holding these bytes, if they are a whole number of banks. -/
def ofCells? (size : Nat) (cells : Array UInt8) : Option (Banked size) :=
  if h : 0 < cells.size ∧ cells.size % size = 0 then some ⟨cells, h.1, h.2⟩ else none

/-- How many banks there are. -/
def count (m : Banked size) : Nat :=
  m.cells.size / size

theorem size_pos (m : Banked size) : 0 < size := by
  rcases Nat.eq_zero_or_pos size with h | h
  · subst h
    have hw := m.whole
    have hp := m.cells_pos
    rw [Nat.mod_zero] at hw
    omega
  · exact h

theorem count_mul (m : Banked size) : m.count * size = m.cells.size :=
  Nat.div_mul_cancel (Nat.dvd_of_mod_eq_zero m.whole)

theorem count_pos (m : Banked size) : 0 < m.count := by
  rcases Nat.eq_zero_or_pos m.count with h | h
  · have hc := m.count_mul
    have hp := m.cells_pos
    rw [h, Nat.zero_mul] at hc
    omega
  · exact h

/-- The number of the cell at an offset into a bank. -/
def index (m : Banked size) (bank offset : Nat) : Nat :=
  bank % m.count * size + offset % size

theorem index_lt (m : Banked size) (bank offset : Nat) : m.index bank offset < m.cells.size := by
  have hb : bank % m.count + 1 ≤ m.count := Nat.mod_lt _ m.count_pos
  have ho : offset % size < size := Nat.mod_lt _ m.size_pos
  have h := Nat.mul_le_mul_right size hb
  rw [Nat.succ_mul, m.count_mul] at h
  unfold index
  omega

def read (m : Banked size) (bank offset : Nat) : UInt8 :=
  have := m.index_lt bank offset
  m.cells[m.index bank offset]

def write (m : Banked size) (bank offset : Nat) (value : UInt8) : Banked size where
  cells := m.cells.set (m.index bank offset) value (m.index_lt bank offset)
  cells_pos := by
    rw [Array.size_set]
    exact m.cells_pos
  whole := by
    rw [Array.size_set]
    exact m.whole

@[simp] theorem count_write (m : Banked size) (bank offset : Nat) (value : UInt8) :
    (m.write bank offset value).count = m.count := by
  simp [count, write]

/-- A write changes the cell it names and no other. -/
theorem read_write (m : Banked size) (b o b' o' : Nat) (value : UInt8) :
    (m.write b o value).read b' o' =
      if m.index b' o' = m.index b o then value else m.read b' o' := by
  have hi : (m.write b o value).index b' o' = m.index b' o' := by
    simp [index]
  simp only [read, hi]
  simp only [write, Array.getElem_set, eq_comm]

end Banked

end RasterIrq
