import Hypertext.Json.Raw

/-!
# Records in JSON

A record is an object whose members have fixed names. Wherever a record is expected, an array of its
parts in order will do.
-/

namespace Hypertext

namespace Json

/-- The parts of a record by name, in the order of `names`. None of these names may come twice;
other members are ignored. -/
def partsByName? {α : Type} (names : List String) (members : List (String × α)) :
    Option (List (Option α)) :=
  if names.all fun name => (members.filter fun m => m.1 == name).length ≤ 1 then
    some (names.map fun name => members.lookup name)
  else none

/-- The parts of a record in order, which may end early. -/
def partsInOrder? {α : Type} (names : List String) (items : List α) : Option (List (Option α)) :=
  if items.length ≤ names.length then
    some (items.map some ++ List.replicate (names.length - items.length) none)
  else none

/-- The parts of a record, in the order of `names`. -/
def parts? (names : List String) : Json → Option (List (Option Json))
  | .object members => partsByName? names members
  | .array items => partsInOrder? names items
  | _ => none

/-- A part that may be absent. -/
def orDefault {α β : Type} (read : α → Option β) (default : β) : Option α → Option β
  | some value => read value
  | none => some default

/-- A value that may be null. -/
def nullable? {α : Type} (read : Json → Option α) : Json → Option (Option α)
  | .null => some none
  | value => (read value).map some

/-- The items of an array. -/
def list? {α : Type} (read : Json → Option α) (value : Json) : Option (List α) := do
  let items ← value.asArray?
  items.mapM read

end Json

namespace RawJson

/-- The parts of a record, in the order of `names`. The names of all members are read, but of the
members that are ignored no more than that. -/
def parts? (names : List String) : RawJson → Option (List (Option RawJson))
  | .object members => do
    let named ← members.mapM fun m => (Utf16.assemble? m.1).map fun name => (name, m.2)
    Json.partsByName? names named
  | .array items => Json.partsInOrder? names items
  | _ => none

/-- The items of an array. -/
def list? {α : Type} (read : RawJson → Option α) : RawJson → Option (List α)
  | .array items => items.mapM read
  | _ => none

/-- Reads the value of a part. -/
def reading {α : Type} (read : Json → Option α) (part : RawJson) : Option α := part.value?.bind read

end RawJson

end Hypertext
