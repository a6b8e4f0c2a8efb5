/-!
# JSON values

A value keeps what its text says and nothing more: a number keeps its spelling, a string the bytes
and escaped units between its quotes, an object its members in order with repetitions. Whether a
number is in range or a string is valid text is asked where the value is used, so that parts of a
document that nobody uses may hold anything the grammar allows.
-/

namespace RasterIrq

/-- One unit of a string's content: a byte, or a 16-bit unit that was written as an escape and is
no ASCII character. -/
inductive Json.Piece where
  | byte (value : UInt8)
  | unit (value : UInt16)
deriving DecidableEq, Repr

/-- A value without parts. -/
inductive Json.Atom where
  | null
  | bool (value : Bool)
  | number (spelling : List Char)
  | string (content : List Json.Piece)
deriving DecidableEq, Repr

inductive Json where
  | atom (value : Json.Atom)
  | list (items : List Json)
  | object (members : List (List Json.Piece × Json))

end RasterIrq
