import Hypertext.Ascii
import Hypertext.Position

/-!
# Reading the input

A `Cursor` walks over newline-normalized text, knows the position of the character read last, and
can push back the one character it read last.
-/

namespace Hypertext

/-- Newlines are line feeds: a carriage return with a line feed after it becomes one line feed, and
so does every other carriage return. -/
def normalizeNewlines : List Char → List Char
  | [] => []
  | '\r' :: '\n' :: rest => '\n' :: normalizeNewlines rest
  | '\r' :: rest => '\n' :: normalizeNewlines rest
  | c :: rest => c :: normalizeNewlines rest

/-- What a push-back restores. -/
structure Cursor.Snapshot where
  ahead : List Char
  position : Position
deriving DecidableEq

/-- A place in a text, with what is needed to step back once. -/
structure Cursor where
  /-- The characters that are still to be read. -/
  ahead : List Char
  /-- Position of the character read last. -/
  position : Position := .start
  /-- The state before the last read, until it has been restored. -/
  previous : Option Cursor.Snapshot := none
  /-- How many characters have been read at least once. -/
  highWater : Nat := 0
  /-- Whether the last read gave a character that had not been read before. -/
  fresh : Bool := false
deriving DecidableEq

namespace Cursor

/-- A cursor at the start of `text`. -/
def ofString (text : String) : Cursor :=
  { ahead := normalizeNewlines text.toList }

/-- The next character, if there is one. -/
def peek (c : Cursor) : Option Char := c.ahead.head?

/-- The character `n` places after the next one. -/
def peekAt (c : Cursor) (n : Nat) : Option Char := c.ahead[n]?

/-- Whether everything has been read. -/
def atEnd (c : Cursor) : Bool := c.ahead.isEmpty

/-- Reads the next character, which `peek` shows beforehand. The end of the text can be read like a
character, and as often as one likes. -/
def advance (c : Cursor) : Cursor :=
  match c.ahead with
  | [] => { c with previous := some ⟨c.ahead, c.position⟩, fresh := false }
  | x :: rest =>
    let position := c.position.advance x
    { ahead := rest
      position
      previous := some ⟨c.ahead, c.position⟩
      highWater := max c.highWater position.offset
      fresh := c.highWater < position.offset }

/-- Pushes back what was read last. There is one place for it: a second push-back before the next
read does nothing. -/
def pushBack (c : Cursor) : Cursor :=
  match c.previous with
  | none => c
  | some s => { c with ahead := s.ahead, position := s.position, previous := none }

/-- Reads as many characters as `target` has. -/
def skip (c : Cursor) : List Char → Cursor
  | [] => c
  | _ :: target => c.advance.skip target

/-- Whether the next characters are `target`. -/
def startsWith (c : Cursor) (target : List Char) : Bool :=
  target.isPrefixOf c.ahead

/-- Whether the next characters are `target`, up to the case of ASCII letters. -/
def startsWithIgnoringCase (c : Cursor) (target : List Char) : Bool :=
  Ascii.startsWithIgnoringCase target c.ahead

end Cursor

end Hypertext
