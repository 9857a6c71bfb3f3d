import Hypertext.Conformance.Escape

/-!
# Undoing escapes by slices

Escapes can be undone in one pass, without pieces: each turn looks for the next backslash with
a `u` and cuts the text there, by numbers of bytes. A cut inside a character gives nothing
instead of a text.
-/

namespace Hypertext.Conformance

/-! ## Cuts -/

/-- Cuts a text after a number of bytes, where a character has to end. -/
def cut? : (text : List Char) → (bytes : Nat) → Option (List Char × List Char)
  | text, 0 => some ([], text)
  | [], _ + 1 => none
  | c :: text, bytes + 1 =>
    if c.utf8Size ≤ bytes + 1 then (cut? text (bytes + 1 - c.utf8Size)).map fun s => (c :: s.1, s.2)
    else none

/-- The number of bytes in front of the first backslash with a `u`. -/
def escapeAt? : List Char → Option Nat
  | [] => none
  | c :: text =>
    if ['\\', 'u'].isPrefixOf (c :: text) then some 0 else (escapeAt? text).map (c.utf8Size + ·)

/-! ## Units -/

def withoutPlus : List Char → List Char
  | '+' :: digits => digits
  | digits => digits

/-- A hexadecimal number of at least one digit; a plus sign may be in front. -/
def signedHex? (text : List Char) : Option Nat :=
  if (withoutPlus text).isEmpty then none else Ascii.hexNumber? (withoutPlus text)

/-- The number in the first four bytes. Without a cut there it is no number. -/
def unitAt? (text : List Char) : Option Nat := (cut? text 4).bind fun s => signedHex? s.1

/-- The unit that closes a pair, if the text begins with the escape of one. -/
def trailAt? : List Char → Option Nat
  | '\\' :: 'u' :: text => (unitAt? text).filter Utf16.isTrail
  | _ => none

/-! ## Turns -/

/-- The outcome of a turn: the text has no escape any more, or something is written and a
rest is left. -/
inductive Turn where
  | last (text : List Char)
  | more (written rest : List Char)

/-- Undoes the next escape. There is no outcome if a cut fails. -/
def turn? (text : List Char) : Option Turn :=
  match escapeAt? text with
  | none => some (.last text)
  | some index => do
    let (front, _) ← cut? text index
    let (_, after) ← cut? text (index + 2)
    match unitAt? after with
    | none => some (.more (front ++ ['\\', 'u']) after)
    | some unit =>
      let (_, rest) ← cut? after 4
      match if Utf16.isLead unit then trailAt? rest else none with
      | some trail =>
        let (_, rest) ← cut? rest 6
        some (.more (front ++ [Utf16.ofPair unit trail]) rest)
      | none => some (.more (front ++ [(Utf16.Piece.unit unit).char?.getD '\uFFFD']) rest)

/-- Undoes the escapes of a text, if no cut fails and the turns are enough. -/
def unescapeLoop? : (turns : Nat) → (text : List Char) → Option (List Char)
  | 0, _ => none
  | turns + 1, text =>
    match turn? text with
    | none => none
    | some (.last text) => some text
    | some (.more written rest) => (unescapeLoop? turns rest).map (written ++ ·)

end Hypertext.Conformance
