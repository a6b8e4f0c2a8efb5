/-!
# Numerals

Whole numbers on a command line: digits, with a plus sign in front or without, below a bound. The
first character that is no digit, or the first digit that leads past the bound, whichever comes
first, decides how a numeral is refused.
-/

namespace RasterIrq

/-- Why a text is no numeral. -/
inductive NumeralError where
  | empty
  | invalidDigit
  | tooLarge
deriving DecidableEq, Repr

def NumeralError.message : NumeralError → String
  | empty => "cannot parse integer from empty string"
  | invalidDigit => "invalid digit found in string"
  | tooLarge => "number too large to fit in target type"

namespace Numeral

/-- Reads digits behind the number that the digits before them spell. -/
def digits (bound : Nat) (n : Nat) : List Char → Except NumeralError Nat
  | [] => .ok n
  | c :: cs =>
    if c.isDigit then
      let n := 10 * n + (c.toNat - '0'.toNat)
      if n < bound then digits bound n cs else .error .tooLarge
    else .error .invalidDigit

/-- Reads a numeral below the bound. A sign needs digits behind it. -/
def read (bound : Nat) : List Char → Except NumeralError Nat
  | [] => .error .empty
  | ['+'] => .error .invalidDigit
  | '+' :: cs => digits bound 0 cs
  | cs => digits bound 0 cs

def word8 (s : String) : Except NumeralError UInt8 :=
  (read 256 s.toList).map UInt8.ofNat

def word16 (s : String) : Except NumeralError UInt16 :=
  (read 65536 s.toList).map UInt16.ofNat

def word32 (s : String) : Except NumeralError UInt32 :=
  (read 4294967296 s.toList).map UInt32.ofNat

end Numeral

end RasterIrq
