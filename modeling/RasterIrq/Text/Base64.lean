/-!
# Base64

Three bytes are written as four characters of a 64-letter alphabet, the last group padded with
equals signs. Decoding takes exactly what encoding writes: padding is required, and the bits of the
last group that belong to no byte must be zero.
-/

namespace RasterIrq.Base64

/-- The character of a value below 64. -/
def digit (v : UInt8) : Char :=
  let n := v.toNat
  if n < 26 then Char.ofNat ('A'.toNat + n)
  else if n < 52 then Char.ofNat ('a'.toNat + (n - 26))
  else if n < 62 then Char.ofNat ('0'.toNat + (n - 52))
  else if n = 62 then '+'
  else '/'

/-- The value of a character of the alphabet. -/
def value? (c : Char) : Option UInt8 :=
  if 'A' ≤ c ∧ c ≤ 'Z' then some (UInt8.ofNat (c.toNat - 'A'.toNat))
  else if 'a' ≤ c ∧ c ≤ 'z' then some (UInt8.ofNat (c.toNat - 'a'.toNat + 26))
  else if '0' ≤ c ∧ c ≤ '9' then some (UInt8.ofNat (c.toNat - '0'.toNat + 52))
  else if c = '+' then some 62
  else if c = '/' then some 63
  else none

def encode : List UInt8 → List Char
  | [] => []
  | [a] => [digit (a >>> 2), digit ((a &&& 0x03) <<< 4), '=', '=']
  | [a, b] =>
    [digit (a >>> 2), digit ((a &&& 0x03) <<< 4 ||| b >>> 4), digit ((b &&& 0x0F) <<< 2), '=']
  | a :: b :: c :: rest =>
    digit (a >>> 2) :: digit ((a &&& 0x03) <<< 4 ||| b >>> 4)
      :: digit ((b &&& 0x0F) <<< 2 ||| c >>> 6) :: digit (c &&& 0x3F) :: encode rest

/-- The byte of a last group with two padding characters. -/
def lastOne? (x y : Char) : Option (List UInt8) := do
  let x ← value? x
  let y ← value? y
  if y &&& 0x0F = 0 then some [x <<< 2 ||| y >>> 4] else none

/-- The bytes of a last group with one padding character. -/
def lastTwo? (x y z : Char) : Option (List UInt8) := do
  let x ← value? x
  let y ← value? y
  let z ← value? z
  if z &&& 0x03 = 0 then some [x <<< 2 ||| y >>> 4, y <<< 4 ||| z >>> 2] else none

def decode? : List Char → Option (List UInt8)
  | [] => some []
  | [x, y, '=', '='] => lastOne? x y
  | [x, y, z, '='] => lastTwo? x y z
  | x :: y :: z :: w :: rest => do
    let x ← value? x
    let y ← value? y
    let z ← value? z
    let w ← value? w
    let bytes ← decode? rest
    return (x <<< 2 ||| y >>> 4) :: (y <<< 4 ||| z >>> 2) :: (z <<< 6 ||| w) :: bytes
  | _ => none

theorem value?_digit (v : UInt8) (h : v < 64) : value? (digit v) = some v := by
  have hall : ∀ n : Fin 64, value? (digit (UInt8.ofNat n.val)) = some (UInt8.ofNat n.val) := by
    decide
  have hv : v.toNat < 64 := UInt8.lt_iff_toNat_lt.mp h
  have := hall ⟨v.toNat, hv⟩
  simpa using this

example : encode [0x4D, 0x61] = ['T', 'W', 'E', '='] := by decide
example : decode? ['T', 'W', 'F', '='] = none := by decide

end RasterIrq.Base64
