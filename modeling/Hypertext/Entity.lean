import Hypertext.Entity.Entry
import Hypertext.Entity.Table.AToC
import Hypertext.Entity.Table.Capitals
import Hypertext.Entity.Table.DToG
import Hypertext.Entity.Table.HToM
import Hypertext.Entity.Table.NToQ
import Hypertext.Entity.Table.RToS
import Hypertext.Entity.Table.TToZ

/-!
# Named character references

The table is sorted by name, so a name is found by halving, and the names that begin with a given
text stand together from the place where that text would be inserted.
-/

namespace Hypertext.Entity

/-- All entries in the order of their names. -/
def entries : List Entry :=
  Table.capitals ++ Table.aToC ++ Table.dToG ++ Table.hToM ++ Table.nToQ ++ Table.rToS ++ Table.tToZ

def table : Array Entry := ⟨entries⟩

/-- The first index from `low` on, below `high`, at which `before` fails, or `high`; `before` has to
hold up to some index and to fail from there on. -/
def partitionPoint {α : Type} (items : Array α) (before : α → Bool) (low high : Nat) : Nat :=
  if low < high then
    let middle := (low + high) / 2
    match items[middle]? with
    | none => low
    | some item =>
      if before item then partitionPoint items before (middle + 1) high
      else partitionPoint items before low middle
  else low
termination_by high - low

/-- The index of the first entry whose name does not precede `name`. -/
def indexOf (name : List Char) : Nat :=
  partitionPoint table (fun e => e.name < name) 0 table.size

/-- The entry of this name. -/
def find? (name : List Char) : Option Entry :=
  match table[indexOf name]? with
  | some e => if e.name = name then some e else none
  | none => none

/-- What a name stands for. -/
def lookup? (name : List Char) : Option (List Char) := (find? name).map (·.text)

/-- Whether some name begins with `start`. -/
def anyStartsWith (start : List Char) : Bool :=
  match table[indexOf start]? with
  | some e => start.isPrefixOf e.name
  | none => false

/-- Extends the name `taken` by the characters of `rest`, as long as some entry begins with it, and
gives the last entry met on the way. -/
def longestFrom (best : Option Entry) (taken : List Char) : List Char → Option Entry
  | [] => best
  | c :: rest =>
    let taken := taken ++ [c]
    if anyStartsWith taken then longestFrom ((find? taken).or best) taken rest else best

/-- The entry with the longest name that begins `text`. -/
def longestMatch (text : List Char) : Option Entry := longestFrom none [] text

end Hypertext.Entity
