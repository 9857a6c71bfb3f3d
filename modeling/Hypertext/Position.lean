/-!
# Positions in the input

Tokens and errors carry the place in the newline-normalized input that they came from.
-/

namespace Hypertext

/-- A place in the input: lines count from one, columns and offsets from zero, and all three count
characters. Positions are ordered by line, then column, then offset. -/
structure Position where
  line : Nat
  column : Nat
  offset : Nat
deriving DecidableEq, Ord

namespace Position

/-- The place before any character has been read. -/
def start : Position := ⟨1, 0, 0⟩

instance : Inhabited Position := ⟨start⟩

/-- The place after reading `c`: a line feed goes to column zero of the next line. -/
def advance (p : Position) (c : Char) : Position :=
  if c = '\n' then ⟨p.line + 1, 0, p.offset + 1⟩
  else ⟨p.line, p.column + 1, p.offset + 1⟩

/-- The place after reading all of `text`. -/
def advanceBy (p : Position) (text : List Char) : Position :=
  text.foldl advance p

/-- Line and column, as error messages name a place. -/
def display (p : Position) : String := s!"{p.line}:{p.column}"

@[simp]
theorem offset_advance (p : Position) (c : Char) : (p.advance c).offset = p.offset + 1 := by
  unfold advance
  split <;> rfl

@[simp]
theorem advanceBy_nil (p : Position) : p.advanceBy [] = p := rfl

@[simp]
theorem advanceBy_cons (p : Position) (c : Char) (text : List Char) :
    p.advanceBy (c :: text) = (p.advance c).advanceBy text := rfl

@[simp]
theorem offset_advanceBy (p : Position) (text : List Char) :
    (p.advanceBy text).offset = p.offset + text.length := by
  induction text generalizing p with
  | nil => rfl
  | cons c text ih => simp [ih]; omega

end Position

end Hypertext
