/-!
# Nametable mirroring

How a board arranges the picture unit's nametables. Each arrangement has one written name.
-/

namespace RasterIrq

inductive Mirroring where
  | horizontal
  | vertical
  | oneScreenLower
  | oneScreenUpper
  | fourScreen
deriving DecidableEq, Repr

namespace Mirroring

/-- Every arrangement, in the order of declaration. -/
def all : List Mirroring :=
  [horizontal, vertical, oneScreenLower, oneScreenUpper, fourScreen]

def name : Mirroring → String
  | horizontal => "Horizontal"
  | vertical => "Vertical"
  | oneScreenLower => "OneScreenLower"
  | oneScreenUpper => "OneScreenUpper"
  | fourScreen => "FourScreen"

def ofName? (s : String) : Option Mirroring :=
  all.find? fun m => m.name == s

/-- Bit 0 of a board's mirroring register: set for horizontal, clear for vertical. -/
def ofRegister (value : UInt8) : Mirroring :=
  if value &&& 1 == 0 then vertical else horizontal

theorem ofName?_name (m : Mirroring) : ofName? m.name = some m := by
  cases m <;> decide

end Mirroring

end RasterIrq
