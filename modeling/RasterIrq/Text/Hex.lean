/-!
# Hexadecimal text

Registers are shown with upper-case digits and at least two of them.
-/

namespace RasterIrq.Hex

/-- The upper-case digits of a number, with zeros in front up to the width. -/
def upper (width n : Nat) : String :=
  let digits := (Nat.toDigits 16 n).map Char.toUpper
  String.ofList (List.replicate (width - digits.length) '0' ++ digits)

def byte (b : UInt8) : String :=
  upper 2 b.toNat

/-- Bytes in brackets, separated by commas. -/
def bytes (bs : List UInt8) : String :=
  "[" ++ ",".intercalate (bs.map byte) ++ "]"

example : upper 2 10 = "0A" ∧ upper 2 0x1FF = "1FF" := by decide +kernel

end RasterIrq.Hex
