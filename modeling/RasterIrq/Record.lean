import RasterIrq.Counter
import RasterIrq.Monitor
import RasterIrq.Mirroring

/-!
# Saved records

A record is what a board saves of itself: the name of its family, the interrupt side, the bank
registers, the control latches and the mirroring register. It holds no memory contents. A board
takes a record back only if name and counts are its own; of several faults the name comes first,
then the bank registers, then the control latches.
-/

namespace RasterIrq

structure Record where
  /-- The family that saved the record. -/
  chip : String
  counter : Counter
  monitor : Monitor
  banks : List UInt8
  /-- Bank selection, RAM protection and similar latches. -/
  control : List UInt8
  mirroring : Mirroring
deriving DecidableEq, Repr

/-- Why bytes are no record, or a record is not for this board. -/
inductive RecordError where
  | badMagic
  | truncated (size : Nat)
  | unsupportedVersion (version : UInt8)
  | checksumMismatch
  | malformed
  | chipMismatch (expected found : String)
  | bankCount (expected found : Nat)
  | controlCount (expected found : Nat)
deriving DecidableEq, Repr

def RecordError.message : RecordError → String
  | badMagic => "save state does not start with the mapper state magic"
  | truncated size => "save state is truncated (" ++ toString size ++ " bytes)"
  | unsupportedVersion version =>
    "unsupported save state version: v" ++ toString version.toNat
  | checksumMismatch => "save state checksum mismatch"
  | malformed => "malformed save state payload"
  | chipMismatch expected found => "save state belongs to " ++ found ++ ", not " ++ expected
  | bankCount expected found =>
    "save state has " ++ toString found ++ " bank registers, expected " ++ toString expected
  | controlCount expected found =>
    "save state has " ++ toString found ++ " control registers, expected " ++ toString expected

/-- The form of the records that a family takes. -/
structure Record.Layout where
  chip : String
  banks : Nat
  control : Nat
deriving DecidableEq, Repr

/-- Whether the record has the layout; else the first fault. -/
def Record.check (r : Record) (layout : Layout) : Except RecordError Unit :=
  if r.chip ≠ layout.chip then .error (.chipMismatch layout.chip r.chip)
  else if r.banks.length ≠ layout.banks then .error (.bankCount layout.banks r.banks.length)
  else if r.control.length ≠ layout.control then
    .error (.controlCount layout.control r.control.length)
  else .ok ()

theorem Record.check_eq_ok_iff (r : Record) (layout : Layout) :
    r.check layout = .ok () ↔
      r.chip = layout.chip ∧ r.banks.length = layout.banks ∧ r.control.length = layout.control := by
  unfold check
  repeat' split
  all_goals simp_all

end RasterIrq
