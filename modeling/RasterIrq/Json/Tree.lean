import RasterIrq.Json.Token

/-!
# Values from tokens

`Json.ofTokens?` reads one value from a whole token list. It goes through the tokens once with a
stack of the lists and objects that are still open, so documents may nest as deeply as they like.
`Json.tokens` is the other way: the tokens that a value is written with. `Json.compact` writes a
value without blanks and `Json.ofText?` reads one from bytes.
-/

namespace RasterIrq.Json

/-- A list or an object that is still open: what it holds so far, last first. An object waits for
the value under its last key. -/
inductive Frame where
  | list (items : List Json)
  | object (members : List (List Piece × Json)) (key : List Piece)

/-- What a reader expects after the tokens it has seen. -/
inductive Reading where
  /-- A value. -/
  | value (stack : List Frame)
  /-- A value or the end of a list just opened. -/
  | item (stack : List Frame)
  /-- A key or the end of an object just opened. -/
  | member (stack : List Frame)
  /-- A key, after a comma. -/
  | key (stack : List Frame) (members : List (List Piece × Json))
  /-- The colon after a key. -/
  | colon (stack : List Frame) (members : List (List Piece × Json)) (key : List Piece)
  /-- What follows a finished value. -/
  | done (stack : List Frame) (value : Json)

namespace Reading

/-- The first token of a value. -/
def start (stack : List Frame) : Token → Option Reading
  | .atom a => some (done stack (.atom a))
  | .listOpen => some (item stack)
  | .objectOpen => some (member stack)
  | _ => none

def step : Reading → Token → Option Reading
  | value stack, t => start stack t
  | item stack, .listClose => some (done stack (.list []))
  | item stack, t => start (.list [] :: stack) t
  | member stack, .objectClose => some (done stack (.object []))
  | member stack, .atom (.string k) => some (colon stack [] k)
  | member _, _ => none
  | key stack members, .atom (.string k) => some (colon stack members k)
  | key _ _, _ => none
  | colon stack members k, .colon => some (value (.object members k :: stack))
  | colon _ _ _, _ => none
  | done (.list items :: stack) v, .comma => some (value (.list (v :: items) :: stack))
  | done (.list items :: stack) v, .listClose => some (done stack (.list (v :: items).reverse))
  | done (.object members k :: stack) v, .comma => some (key stack ((k, v) :: members))
  | done (.object members k :: stack) v, .objectClose =>
    some (done stack (.object ((k, v) :: members).reverse))
  | done _ _, _ => none

end Reading

/-- The value that the tokens spell, if they spell exactly one. -/
def ofTokens? (tokens : List Token) : Option Json :=
  match tokens.foldlM Reading.step (.value []) with
  | some (.done [] v) => some v
  | _ => none

/-- Reads a text that holds one value and blanks around its tokens. -/
def ofText? (text : List UInt8) : Option Json := do
  ofTokens? (← Token.scan text)

mutual

/-- The tokens that a value is written with. -/
def tokens : Json → List Token
  | .atom a => [.atom a]
  | .list [] => [.listOpen, .listClose]
  | .list (v :: vs) => .listOpen :: (v.tokens ++ itemTokens vs)
  | .object [] => [.objectOpen, .objectClose]
  | .object ((k, v) :: ms) =>
    .objectOpen :: .atom (.string k) :: .colon :: (v.tokens ++ memberTokens ms)

/-- The items after the first one, and the end of the list. -/
def itemTokens : List Json → List Token
  | [] => [.listClose]
  | v :: vs => .comma :: (v.tokens ++ itemTokens vs)

/-- The members after the first one, and the end of the object. -/
def memberTokens : List (List Piece × Json) → List Token
  | [] => [.objectClose]
  | (k, v) :: ms => .comma :: .atom (.string k) :: .colon :: (v.tokens ++ memberTokens ms)

end

/-- A value's text without blanks. -/
def compact (v : Json) : List UInt8 :=
  v.tokens.flatMap Token.spelling

end RasterIrq.Json
