/-!
# ASCII classes used by the markup rules

Markup is recognised by ASCII alone: letters, digits and blanks outside ASCII are ordinary text.
`Char.isAlpha`, `Char.isDigit`, `Char.isAlphanum` and `Char.toLower` of the standard library are
already confined to ASCII and are used as they are; this module adds what is missing.
-/

namespace Hypertext.Ascii

/-- Tab, line feed, form feed and space. A carriage return is not in the class: newline
normalization removes it before any text is classified. -/
def isBlank (c : Char) : Bool :=
  c == '\t' || c == '\n' || c == '\x0c' || c == ' '

/-- Value of a hexadecimal digit of either case. -/
def hexValue? (c : Char) : Option Nat :=
  if c.isDigit then some (c.toNat - '0'.toNat)
  else if 'a' ≤ c ∧ c ≤ 'f' then some (c.toNat - 'a'.toNat + 10)
  else if 'A' ≤ c ∧ c ≤ 'F' then some (c.toNat - 'A'.toNat + 10)
  else none

/-- The number with these hexadecimal digits. -/
def hexNumber? (digits : List Char) : Option Nat :=
  digits.foldlM (fun n c => (hexValue? c).map (n * 16 + ·)) 0

/-- Equality up to the case of ASCII letters. -/
def sameLetter (a b : Char) : Bool := a.toLower == b.toLower

/-- Equality of texts up to the case of ASCII letters. -/
def sameText (a b : String) : Bool := a.toLower == b.toLower

/-- Whether `target` begins `text`, up to the case of ASCII letters. -/
def startsWithIgnoringCase : (target text : List Char) → Bool
  | [], _ => true
  | _ :: _, [] => false
  | t :: target, c :: text => sameLetter c t && startsWithIgnoringCase target text

/-- A C0 control, or a code point from U+007F to U+009F. -/
def isControl (code : Nat) : Bool :=
  code ≤ 0x1F || (0x7F ≤ code && code ≤ 0x9F)

/-- The code points U+FDD0 to U+FDEF and the last two of every plane. -/
def isNoncharacter (code : Nat) : Bool :=
  (0xFDD0 ≤ code && code ≤ 0xFDEF) || (code % 0x10000 ≥ 0xFFFE && code ≤ 0x10FFFF)

end Hypertext.Ascii
