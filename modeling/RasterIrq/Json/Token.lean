import RasterIrq.Json
import RasterIrq.Json.Number

/-!
# JSON tokens

A text is blanks and tokens: six marks of punctuation, strings in quotes, and words. A word is a
maximal run of letters, digits, signs and points; it is a token if it spells a literal or a number.
`Token.scan` cuts a byte string into its tokens, `Token.spelling` writes one.
-/

namespace RasterIrq.Json

/-- The byte of an ASCII character. -/
def ascii (c : Char) : UInt8 :=
  c.toUInt8

/-! ## Strings -/

namespace Piece

/-- An escaped unit below 0x80 stands for the byte itself. -/
def ofUnit (u : UInt16) : Piece :=
  if u < 0x80 then byte u.toUInt8 else unit u

/-- What a backslash and one more byte stand for. -/
def ofShort? (b : UInt8) : Option UInt8 :=
  if b = ascii '"' ∨ b = ascii '\\' ∨ b = ascii '/' then some b
  else if b = ascii 'b' then some 0x08
  else if b = ascii 't' then some 0x09
  else if b = ascii 'n' then some 0x0A
  else if b = ascii 'f' then some 0x0C
  else if b = ascii 'r' then some 0x0D
  else none

/-- The value of a hexadecimal digit in either case. -/
def hexValue? (b : UInt8) : Option UInt16 :=
  if ascii '0' ≤ b ∧ b ≤ ascii '9' then some (b - ascii '0').toUInt16
  else if ascii 'a' ≤ b ∧ b ≤ ascii 'f' then some (b - ascii 'a' + 10).toUInt16
  else if ascii 'A' ≤ b ∧ b ≤ ascii 'F' then some (b - ascii 'A' + 10).toUInt16
  else none

/-- The unit that four hexadecimal digits spell. -/
def ofHex? (a b c d : UInt8) : Option UInt16 := do
  let a ← hexValue? a
  let b ← hexValue? b
  let c ← hexValue? c
  let d ← hexValue? d
  return ((a * 16 + b) * 16 + c) * 16 + d

/-- Reads a string's content up to the closing quote, behind the pieces already read (last first),
and returns it with the rest of the text. Control bytes must be escaped. -/
def scan (seen : List Piece) : List UInt8 → Option (List Piece × List UInt8)
  | [] => none
  | b :: s =>
    if b = ascii '"' then some (seen.reverse, s)
    else if b = ascii '\\' then
      match s with
      | [] => none
      | e :: s =>
        if e = ascii 'u' then
          match s with
          | h₁ :: h₂ :: h₃ :: h₄ :: s =>
            match ofHex? h₁ h₂ h₃ h₄ with
            | some u => scan (ofUnit u :: seen) s
            | none => none
          | _ => none
        else
          match ofShort? e with
          | some v => scan (byte v :: seen) s
          | none => none
    else if b < 0x20 then none
    else scan (byte b :: seen) s

/-- The lower-case hexadecimal digit of a value below 16. -/
def hexDigit (n : Nat) : UInt8 :=
  ascii (Nat.digitChar n)

/-- How a unit is escaped. -/
def escape (u : UInt16) : List UInt8 :=
  [ascii '\\', ascii 'u', hexDigit (u.toNat / 0x1000), hexDigit (u.toNat / 0x100 % 16),
    hexDigit (u.toNat / 16 % 16), hexDigit (u.toNat % 16)]

/-- How a piece is written: quotes, backslashes and control bytes are escaped, in the short form
where there is one. -/
def spelling : Piece → List UInt8
  | byte b =>
    if b = ascii '"' then [ascii '\\', ascii '"']
    else if b = ascii '\\' then [ascii '\\', ascii '\\']
    else if b = 0x08 then [ascii '\\', ascii 'b']
    else if b = 0x09 then [ascii '\\', ascii 't']
    else if b = 0x0A then [ascii '\\', ascii 'n']
    else if b = 0x0C then [ascii '\\', ascii 'f']
    else if b = 0x0D then [ascii '\\', ascii 'r']
    else if b < 0x20 then escape b.toUInt16
    else [b]
  | unit u => escape u

theorem scan_length {s rest : List UInt8} {seen content : List Piece}
    (h : scan seen s = some (content, rest)) : rest.length < s.length := by
  fun_induction scan seen s <;> simp_all <;> omega

end Piece

/-! ## Words -/

namespace Atom

/-- The token that a word spells. -/
def ofWord? (word : List Char) : Option Atom :=
  if word = ['n', 'u', 'l', 'l'] then some null
  else if word = ['t', 'r', 'u', 'e'] then some (bool true)
  else if word = ['f', 'a', 'l', 's', 'e'] then some (bool false)
  else if Number.isNumber word then some (number word)
  else none

def spelling : Atom → List UInt8
  | null => ['n', 'u', 'l', 'l'].map ascii
  | bool true => ['t', 'r', 'u', 'e'].map ascii
  | bool false => ['f', 'a', 'l', 's', 'e'].map ascii
  | number word => word.map ascii
  | string content => ascii '"' :: content.flatMap Piece.spelling ++ [ascii '"']

end Atom

/-! ## Tokens -/

inductive Token where
  | listOpen
  | listClose
  | objectOpen
  | objectClose
  | comma
  | colon
  | atom (value : Atom)
deriving DecidableEq, Repr

namespace Token

def isBlank (b : UInt8) : Bool :=
  b == 0x20 || b == 0x09 || b == 0x0A || b == 0x0D

def isWordByte (b : UInt8) : Bool :=
  decide (ascii '0' ≤ b ∧ b ≤ ascii '9') || decide (ascii 'a' ≤ b ∧ b ≤ ascii 'z')
    || decide (ascii 'A' ≤ b ∧ b ≤ ascii 'Z')
    || b == ascii '+' || b == ascii '-' || b == ascii '.'

/-- The token of a punctuation byte. -/
def ofMark? (b : UInt8) : Option Token :=
  if b = ascii '[' then some listOpen
  else if b = ascii ']' then some listClose
  else if b = ascii '\x7b' then some objectOpen
  else if b = ascii '\x7d' then some objectClose
  else if b = ascii ',' then some comma
  else if b = ascii ':' then some colon
  else none

def spelling : Token → List UInt8
  | listOpen => [ascii '[']
  | listClose => [ascii ']']
  | objectOpen => [ascii '\x7b']
  | objectClose => [ascii '\x7d']
  | comma => [ascii ',']
  | colon => [ascii ':']
  | atom a => a.spelling

/-- Scans a text behind the tokens already seen, last first. -/
def scanFrom (seen : List Token) (text : List UInt8) : Option (List Token) :=
  match text with
  | [] => some seen.reverse
  | b :: s =>
    if isBlank b then scanFrom seen s
    else match ofMark? b with
    | some t => scanFrom (t :: seen) s
    | none =>
      if b = ascii '"' then
        match _h : Piece.scan [] s with
        | some (content, rest) => scanFrom (atom (.string content) :: seen) rest
        | none => none
      else
        match Atom.ofWord? ((b :: s.takeWhile isWordByte).map Char.ofUInt8) with
        | some a => scanFrom (atom a :: seen) (s.dropWhile isWordByte)
        | none => none
termination_by text.length
decreasing_by
  · simp
  · simp
  · have := Piece.scan_length _h
    simp
    omega
  · have := (List.dropWhile_sublist isWordByte (l := s)).length_le
    simp
    omega

/-- The tokens of a text, if it has only tokens and blanks. -/
def scan (text : List UInt8) : Option (List Token) :=
  scanFrom [] text

end Token

end RasterIrq.Json
