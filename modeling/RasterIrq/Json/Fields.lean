import RasterIrq.Json.Tree
import RasterIrq.Json.Text

/-!
# Reading values of a known form

A document says what its parts are, and its reader knows what they should be. The readers here
refuse whatever has another form.

* Whole numbers must be spelled with digits alone and be in range.
* A record with named fields is an object with every name at most once, in any order and among
  members of other names, or a list of all values in the order of the names.
* One of several names is a string, or an object whose only member has that name and holds null.
-/

namespace RasterIrq.Json

/-- A natural number below the bound. -/
def natBelow? (bound : Nat) : Json → Option Nat
  | .atom (.number spelling) =>
    match Number.natural? spelling with
    | some n => if n < bound then some n else none
    | none => none
  | _ => none

def word8? (v : Json) : Option UInt8 :=
  (v.natBelow? 256).map UInt8.ofNat

def word16? (v : Json) : Option UInt16 :=
  (v.natBelow? 65536).map UInt16.ofNat

def word64? (v : Json) : Option UInt64 :=
  (v.natBelow? 18446744073709551616).map UInt64.ofNat

def bool? : Json → Option Bool
  | .atom (.bool b) => some b
  | _ => none

def text? : Json → Option String
  | .atom (.string content) => Piece.text? content
  | _ => none

def list? : Json → Option (List Json)
  | .list items => some items
  | _ => none

/-- Nothing for null, else what the reader finds. -/
def nullable? {α : Type} (read : Json → Option α) : Json → Option (Option α)
  | .atom .null => some none
  | v => (read v).map some

/-- The value under a name: `some none` if there is none, `none` if the name is repeated. -/
def memberOnce? (members : List (String × Json)) (name : String) : Option (Option Json) :=
  match members.filter fun m => m.1 == name with
  | [] => some none
  | [m] => some (some m.2)
  | _ => none

/-- The values under these names, in their order, with `none` for a name that is missing. -/
def fields? (names : List String) : Json → Option (List (Option Json))
  | .list items => if items.length = names.length then some (items.map some) else none
  | .object members => do
    let members ← members.mapM fun (k, v) => do
      let key ← Piece.text? k
      return (key, v)
    names.mapM (memberOnce? members)
  | .atom _ => none

/-- The name that a value gives. -/
def choice? : Json → Option String
  | .atom (.string content) => Piece.text? content
  | .object [(k, .atom .null)] => Piece.text? k
  | _ => none

/-! ## Writing -/

def ofNat (n : Nat) : Json :=
  .atom (.number (Number.ofNat n))

def ofBool (b : Bool) : Json :=
  .atom (.bool b)

def ofText (text : String) : Json :=
  .atom (.string (Piece.ofText text))

def ofOption {α : Type} (write : α → Json) : Option α → Json
  | none => .atom .null
  | some a => write a

/-- An object with these names in order. -/
def ofFields (fields : List (String × Json)) : Json :=
  .object (fields.map fun (name, v) => (Piece.ofText name, v))

end RasterIrq.Json
