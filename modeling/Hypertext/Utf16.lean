/-!
# UTF-16 code units

Escapes in the test formats name UTF-16 code units. A character above U+FFFF is a pair of them, and
half of a pair stands for no character. A text with escapes is cut into pieces first, then the
pieces are put together.
-/

namespace Hypertext.Utf16

/-- A unit that opens a pair. -/
def isLead (unit : Nat) : Bool := 0xD800 ≤ unit && unit < 0xDC00

/-- A unit that closes a pair. -/
def isTrail (unit : Nat) : Bool := 0xDC00 ≤ unit && unit < 0xE000

/-- The character of a pair. -/
def ofPair (lead trail : Nat) : Char :=
  Char.ofNat (0x10000 + (lead - 0xD800) * 0x400 + (trail - 0xDC00))

/-- The units of a character. -/
def units (c : Char) : List Nat :=
  if c.toNat < 0x10000 then [c.toNat]
  else [0xD800 + (c.toNat - 0x10000) / 0x400, 0xDC00 + (c.toNat - 0x10000) % 0x400]

/-! ## Texts with escaped units -/

/-- A part of a text: a character, or the unit of an escape. -/
inductive Piece where
  | char (c : Char)
  | unit (value : Nat)
deriving DecidableEq

namespace Piece

/-- The character of a piece; half of a pair has none. -/
def char? : Piece → Option Char
  | .char c => some c
  | .unit value => if value.isValidChar then some (Char.ofNat value) else none

/-- Puts a piece in front of others. With a unit that closes the pair it opens, it becomes
one character. -/
def join : Piece → List Piece → List Piece
  | .unit lead, .unit trail :: rest =>
    if isLead lead && isTrail trail then .char (ofPair lead trail) :: rest
    else .unit lead :: .unit trail :: rest
  | piece, rest => piece :: rest

end Piece

/-- The pieces with every pair of units made a character. -/
def paired (pieces : List Piece) : List Piece := pieces.foldr Piece.join []

/-- The text of the pieces; half of a pair that stands alone is U+FFFD. -/
def assemble (pieces : List Piece) : String :=
  String.ofList ((paired pieces).map fun piece => piece.char?.getD '\uFFFD')

/-- The text of the pieces, if no half of a pair stands alone. -/
def assemble? (pieces : List Piece) : Option String :=
  ((paired pieces).mapM Piece.char?).map String.ofList

end Hypertext.Utf16
