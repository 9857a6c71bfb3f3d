import Hypertext.Json
import Hypertext.Utf16

/-!
# JSON as it is written

A raw value is a well-formed JSON text before its texts and numbers are read. Not every raw value
has a value: half of a surrogate pair stands for no character, and a number can be too large for a
float. A reader that skips a part of a file needs no value of it.
-/

namespace Hypertext

inductive RawJson where
  | null
  | bool (value : Bool)
  | number (numeral : Numeral)
  | string (pieces : List Utf16.Piece)
  | array (items : List RawJson)
  | object (members : List (List Utf16.Piece × RawJson))

namespace RawJson

mutual

/-- The value of a raw value all of whose parts have one. -/
def value? : RawJson → Option Json
  | .null => some .null
  | .bool b => some (.bool b)
  | .number n => n.value?.map .number
  | .string pieces => (Utf16.assemble? pieces).map .string
  | .array items => (valuesOfItems? items).map .array
  | .object members => (valuesOfMembers? members).map .object

def valuesOfItems? : List RawJson → Option (List Json)
  | [] => some []
  | v :: rest => do
    let value ← value? v
    return value :: (← valuesOfItems? rest)

def valuesOfMembers? : List (List Utf16.Piece × RawJson) → Option (List (String × Json))
  | [] => some []
  | (k, v) :: rest => do
    let name ← Utf16.assemble? k
    let value ← value? v
    return (name, value) :: (← valuesOfMembers? rest)

end

end RawJson

end Hypertext
