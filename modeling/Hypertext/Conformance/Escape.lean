import Hypertext.Ascii
import Hypertext.Utf16

/-!
# Escaped texts

Test files write characters that JSON cannot hold as `\uXXXX`, one escape for each UTF-16 code unit.
Undoing it goes in two steps: the text is cut into characters and units, then units are put together
to characters.
-/

namespace Hypertext.Conformance

/-- The unit of an escape: four hexadecimal digits, or a plus sign and three. -/
def unitOf? (a b c d : Char) : Option Nat :=
  if a = '+' then Ascii.hexNumber? [b, c, d] else Ascii.hexNumber? [a, b, c, d]

/-- Cuts a text into pieces. A backslash that begins no escape stands for itself. -/
def pieces : List Char → List Utf16.Piece
  | '\\' :: 'u' :: a :: b :: c :: d :: rest =>
    match unitOf? a b c d with
    | some value => .unit value :: pieces rest
    | none => .char '\\' :: .char 'u' :: pieces (a :: b :: c :: d :: rest)
  | c :: rest => .char c :: pieces rest
  | [] => []

/-- Undoes the escapes of a text. -/
def unescape (text : String) : String := Utf16.assemble (pieces text.toList)

end Hypertext.Conformance
