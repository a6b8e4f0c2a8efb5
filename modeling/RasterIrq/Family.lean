/-!
# Board families

A cartridge names its board by a number. Two families carry an interrupt counter clocked by the
picture unit's address line.
-/

namespace RasterIrq

inductive Family where
  | mmc3
  | mapper222
deriving DecidableEq, Repr

namespace Family

/-- The name that a family's boards give themselves, also in saved records. -/
def name : Family → String
  | mmc3 => "MMC3"
  | mapper222 => "Mapper 222"

def ofNumber? (number : UInt16) : Option Family :=
  if number = 4 then some mmc3
  else if number = 222 then some mapper222
  else none

/-- Whether boards with this number are known here. -/
def isSupported (number : UInt16) : Bool :=
  (ofNumber? number).isSome

theorem isSupported_iff (number : UInt16) :
    isSupported number = true ↔ number = 4 ∨ number = 222 := by
  unfold isSupported ofNumber?
  by_cases hmmc3 : number = 4
  · simp [hmmc3]
  · by_cases h222 : number = 222
    · simp [h222]
    · simp [hmmc3, h222]

/-- The family's name for a board number, or the word for a board that is not known here. -/
def nameOfNumber (number : UInt16) : String :=
  match ofNumber? number with
  | some family => family.name
  | none => "Unsupported"

end Family

end RasterIrq
