import RasterIrq.Json.Token

/-!
# Strings as text

The content of a JSON string is text if its escaped surrogates come in pairs and its bytes, with
every escaped unit replaced by its own bytes, are UTF-8.
-/

namespace RasterIrq.Json

namespace Piece

/-- The first half of a surrogate pair. -/
def isLeading (u : UInt16) : Bool :=
  decide (0xD800 ≤ u ∧ u < 0xDC00)

/-- The second half of a surrogate pair. -/
def isTrailing (u : UInt16) : Bool :=
  decide (0xDC00 ≤ u ∧ u < 0xE000)

/-- The character that a surrogate pair stands for. -/
def ofPair (u v : UInt16) : Char :=
  Char.ofNat (0x10000 + (u.toNat - 0xD800) * 0x400 + (v.toNat - 0xDC00))

/-- The bytes of a content behind the bytes already found, last first. -/
def bytesFrom (seen : List UInt8) : List Piece → Option (List UInt8)
  | [] => some seen.reverse
  | byte b :: s => bytesFrom (b :: seen) s
  | unit u :: s =>
    if isLeading u then
      match s with
      | unit v :: s =>
        if isTrailing v then bytesFrom ((String.utf8EncodeChar (ofPair u v)).reverse ++ seen) s
        else none
      | _ => none
    else if isTrailing u then none
    else bytesFrom ((String.utf8EncodeChar (Char.ofNat u.toNat)).reverse ++ seen) s

/-- The bytes of a content, if its surrogates come in pairs. -/
def bytes? (content : List Piece) : Option (List UInt8) :=
  bytesFrom [] content

/-- The text of a content, if it is one. -/
def text? (content : List Piece) : Option String := do
  String.fromUTF8? (← bytes? content).toByteArray

/-- The UTF-8 bytes of a text. -/
def utf8 (text : String) : List UInt8 :=
  text.toList.flatMap String.utf8EncodeChar

/-- A text as the content of a string. -/
def ofText (text : String) : List Piece :=
  (utf8 text).map byte

end Piece

end RasterIrq.Json
