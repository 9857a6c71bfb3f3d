import Hypertext.Ascii
import Hypertext.Json.Raw

/-!
# Reading JSON

A strict reader: one complete value with blanks around it. A reader returns what it read and what is
left. The recursive readers of values spend one unit of fuel per call, and of two calls that follow
each other one has read a character, so twice the length of the text is fuel enough.
-/

namespace Hypertext.Json.Reader

def isBlank (c : Char) : Bool := c == ' ' || c == '\n' || c == '\t' || c == '\r'

def skipBlanks (text : List Char) : List Char := text.dropWhile isBlank

/-- Takes a fixed text off the front. -/
def literal (word : String) (text : List Char) : Option (List Char) :=
  if word.toList.isPrefixOf text then some (text.drop word.length) else none

/-! ## Quoted texts -/

/-- The character that a backslash and one letter stand for. -/
def escaped? : Char → Option Char
  | '\x22' => some '\x22'
  | '\\' => some '\\'
  | '/' => some '/'
  | 'b' => some '\x08'
  | 'f' => some '\x0c'
  | 'n' => some '\n'
  | 'r' => some '\r'
  | 't' => some '\t'
  | _ => none

/-- The rest of a quoted text after the pieces of `seen`, which are in reverse, up to and with the
closing quote. Control characters have to be escaped. -/
def quoted (seen : List Utf16.Piece) : List Char → Option (List Utf16.Piece × List Char)
  | '\\' :: 'u' :: a :: b :: c :: d :: rest =>
    match Ascii.hexNumber? [a, b, c, d] with
    | some value => quoted (.unit value :: seen) rest
    | none => none
  | '\\' :: e :: rest =>
    match escaped? e with
    | some c => quoted (.char c :: seen) rest
    | none => none
  | c :: rest =>
    if c = '\x22' then some (seen.reverse, rest)
    else if c = '\\' ∨ c.toNat < 0x20 then none
    else quoted (.char c :: seen) rest
  | [] => none

/-! ## Numbers -/

/-- The digits at the front. -/
def digits (text : List Char) : List Nat × List Char :=
  ((text.takeWhile Char.isDigit).map fun c => c.toNat - '0'.toNat, text.dropWhile Char.isDigit)

/-- The digits at the front, at least one. -/
def someDigits (text : List Char) : Option (List Nat × List Char) :=
  match digits text with
  | ([], _) => none
  | found => some found

/-- The whole part: a single zero, or digits that do not begin with one. -/
def wholePart (text : List Char) : Option (List Nat × List Char) :=
  match digits text with
  | ([], _) => none
  | (0 :: _ :: _, _) => none
  | found => some found

/-- The digits after a point; none without a point. -/
def fraction : List Char → Option (List Nat × List Char)
  | '.' :: rest => someDigits rest
  | text => some ([], text)

/-- A sign and what follows it. -/
def sign : List Char → Bool × List Char
  | '-' :: rest => (true, rest)
  | '+' :: rest => (false, rest)
  | text => (false, text)

/-- A written power of ten. -/
def exponent : List Char → Option (Option Int × List Char)
  | [] => some (none, [])
  | c :: text =>
    if c = 'e' ∨ c = 'E' then do
      let (negative, unsigned) := sign text
      let (ds, rest) ← someDigits unsigned
      let n : Int := (ds.foldl (fun n d => n * 10 + d) 0 : Nat)
      return (some (if negative then -n else n), rest)
    else some (none, c :: text)

def numeral (text : List Char) : Option (Numeral × List Char) := do
  let (negative, unsigned) := match text with
    | '-' :: rest => (true, rest)
    | _ => (false, text)
  let (whole, rest) ← wholePart unsigned
  let (fraction, rest) ← fraction rest
  let (exponent, rest) ← exponent rest
  return ({ negative, whole, fraction, exponent }, rest)

/-! ## Values -/

mutual

/-- A value, with blanks allowed before it. -/
def value : (fuel : Nat) → List Char → Option (RawJson × List Char)
  | 0, _ => none
  | fuel + 1, text =>
    match skipBlanks text with
    | '\x7b' :: rest =>
      match skipBlanks rest with
      | '\x7d' :: rest' => some (.object [], rest')
      | rest' => (members fuel rest').map fun (ms, r) => (.object ms, r)
    | '[' :: rest =>
      match skipBlanks rest with
      | ']' :: rest' => some (.array [], rest')
      | rest' => (items fuel rest').map fun (vs, r) => (.array vs, r)
    | '\x22' :: rest => (quoted [] rest).map fun (s, r) => (.string s, r)
    | 'n' :: rest => (literal "ull" rest).map fun r => (.null, r)
    | 't' :: rest => (literal "rue" rest).map fun r => (.bool true, r)
    | 'f' :: rest => (literal "alse" rest).map fun r => (.bool false, r)
    | rest => (numeral rest).map fun (n, r) => (.number n, r)

/-- The items of an array that is not empty, and its closing bracket. -/
def items : (fuel : Nat) → List Char → Option (List RawJson × List Char)
  | 0, _ => none
  | fuel + 1, text =>
    match value fuel text with
    | none => none
    | some (v, rest) =>
      match skipBlanks rest with
      | ',' :: rest' => (items fuel rest').map fun (vs, r) => (v :: vs, r)
      | ']' :: rest' => some ([v], rest')
      | _ => none

/-- The members of an object that is not empty, and its closing brace. -/
def members : (fuel : Nat) → List Char → Option (List (List Utf16.Piece × RawJson) × List Char)
  | 0, _ => none
  | fuel + 1, text =>
    match skipBlanks text with
    | '\x22' :: rest =>
      match quoted [] rest with
      | none => none
      | some (name, rest') =>
        match skipBlanks rest' with
        | ':' :: rest'' =>
          match value fuel rest'' with
          | none => none
          | some (v, after) =>
            match skipBlanks after with
            | ',' :: more => (members fuel more).map fun (ms, r) => ((name, v) :: ms, r)
            | '\x7d' :: more => some ([(name, v)], more)
            | _ => none
        | _ => none
    | _ => none

end

end Hypertext.Json.Reader

namespace Hypertext

/-- Reads a text that is one JSON value, without the values of its parts. -/
def RawJson.parse? (text : String) : Option RawJson :=
  let chars := text.toList
  match Json.Reader.value (2 * chars.length + 2) chars with
  | some (v, rest) => if (Json.Reader.skipBlanks rest).isEmpty then some v else none
  | none => none

/-- Reads a text that is one JSON value. -/
def Json.parse? (text : String) : Option Json := (RawJson.parse? text).bind RawJson.value?

end Hypertext
