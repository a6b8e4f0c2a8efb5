/-!
# Number spellings

The grammar of JSON numbers as a test on a whole word, and the natural number that a word of digits
spells. A number is an optional minus sign, a whole part without leading zeros, an optional
fraction and an optional exponent.
-/

namespace RasterIrq.Json.Number

/-- A whole part is one digit, or several of which the first is not zero. -/
def isWhole : List Char → Bool
  | [] => false
  | [d] => d.isDigit
  | d :: ds => d.isDigit && d != '0' && ds.all Char.isDigit

/-- At least one digit and nothing else. -/
def isDigits (cs : List Char) : Bool :=
  !cs.isEmpty && cs.all Char.isDigit

/-- Nothing, or a mark, an optional sign and digits. -/
def isExponent : List Char → Bool
  | [] => true
  | mark :: cs =>
    (mark == 'e' || mark == 'E') &&
      match cs with
      | '+' :: ds => isDigits ds
      | '-' :: ds => isDigits ds
      | ds => isDigits ds

/-- Nothing, or a point and digits; then an exponent. -/
def isTail : List Char → Bool
  | '.' :: cs => isDigits (cs.takeWhile Char.isDigit) && isExponent (cs.dropWhile Char.isDigit)
  | cs => isExponent cs

/-- A number without its sign. -/
def isUnsigned (cs : List Char) : Bool :=
  isWhole (cs.takeWhile Char.isDigit) && isTail (cs.dropWhile Char.isDigit)

/-- Whether a word is a number. -/
def isNumber : List Char → Bool
  | '-' :: cs => isUnsigned cs
  | cs => isUnsigned cs

/-- The natural number that a spelling of digits alone stands for. A sign, a fraction or an
exponent makes it no natural number, whatever its value. -/
def natural? (cs : List Char) : Option Nat :=
  if isDigits cs then some (Nat.ofDigitChars 10 cs 0) else none

/-- The digits of a natural number. -/
def ofNat (n : Nat) : List Char :=
  Nat.toDigits 10 n

example : isNumber ['-', '0', '.', '5', 'e', '+', '1'] = true := by decide
example : isNumber ['0', '1'] = false ∧ isNumber ['1', '.'] = false ∧ isNumber ['-'] = false := by
  decide
example : natural? ['1', '0'] = some 10 ∧ natural? ['-', '0'] = none := by decide

end RasterIrq.Json.Number
