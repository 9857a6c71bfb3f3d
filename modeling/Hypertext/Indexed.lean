/-!
# Lists by index

Changes of a list at an index that has to be in range. They give nothing where it is not.
-/

namespace Hypertext.Indexed

variable {α : Type}

def erase? (l : List α) (i : Nat) : Option (List α) :=
  if i < l.length then some (l.eraseIdx i) else none

def set? (l : List α) (i : Nat) (a : α) : Option (List α) :=
  if i < l.length then some (l.set i a) else none

/-- An item may also be put at the end. -/
def insert? (l : List α) (i : Nat) (a : α) : Option (List α) :=
  if i ≤ l.length then some (l.insertIdx i a) else none

/-- The items from an index on. -/
def from? (l : List α) (i : Nat) : Option (List α) := if i ≤ l.length then some (l.drop i) else none

/-- The index before; there is none before zero. -/
def before? : Nat → Option Nat
  | 0 => none
  | i + 1 => some i

end Hypertext.Indexed
