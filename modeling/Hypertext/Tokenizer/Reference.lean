import Hypertext.Entity
import Hypertext.Tokenizer.Basic

/-!
# Character reference states

A reference that cannot be read stands for its own text. What a reference stands for goes to the
attribute value in which it was found, or to the text.
-/

namespace Hypertext.Tokenizer

/-- Whether the reference was found in an attribute value. -/
def inAttribute (t : Tokenizer) : Bool :=
  match t.returnState with
  | some (.attributeValueQuoted _) | some .attributeValueUnquoted => true
  | _ => false

/-- Adds characters to where the reference was found. -/
def deliver (t : Tokenizer) (cs : List Char) : Tokenizer :=
  if t.inAttribute then cs.foldl (fun t c => t.editTag (.attributeValue c)) t
  else t.emitChars cs

/-- Delivers what has been read of the reference. -/
def flush (t : Tokenizer) : Tokenizer := t.deliver t.buffer

/-- Delivers `cs` in place of what has been read. -/
def resolve (t : Tokenizer) (cs : List Char) : Tokenizer := { t with buffer := cs }.flush

def characterReference (t : Tokenizer) (c : Option Char) : Tokenizer :=
  let t := { t with buffer := ['&'] }
  if c.any Char.isAlphanum then t.reconsumeIn .namedCharacterReference
  else if c = some '#' then
    { t with buffer := ['&', '#'] }.switchTo .numericCharacterReference
  else t.flush.reconsumeInReturn

/-! ## Named references -/

/-- How far the text is searched for a name. -/
def nameLimit : Nat := 32

/-- The alphanumeric characters at the front of a text, and a semicolon if one ends them, at most
`limit` characters in all. -/
def nameCandidate : (limit : Nat) → List Char → List Char
  | 0, _ => []
  | _ + 1, [] => []
  | limit + 1, c :: rest =>
    if c = ';' then [c]
    else if c.isAlphanum then c :: nameCandidate limit rest
    else []

/-- Takes the longest name of the table. In an attribute value a name without a semicolon that goes
on like a word, or before an equals sign, stands for itself. -/
def namedCharacterReference (t : Tokenizer) : Tokenizer :=
  let t := { t with input := t.input.pushBack }
  match Entity.longestMatch (nameCandidate nameLimit t.input.ahead) with
  | none => t.flush.switchTo .ambiguousAmpersand
  | some entry =>
    let t := { t with input := t.input.skip entry.name, buffer := t.buffer ++ entry.name }
    if entry.name.getLast? = some ';' then (t.resolve entry.text).switchToReturn
    else if t.inAttribute && t.input.peek.any (fun c => c == '=' || c.isAlphanum) then
      t.flush.switchToReturn
    else
      ((t.report .missingSemicolonAfterCharacterReference).resolve entry.text).switchToReturn

def ambiguousAmpersand (t : Tokenizer) : Option Char → Tokenizer
  | none => t.reconsumeInReturn
  | some c =>
    if c.isAlphanum then t.deliver [c]
    else if c = ';' then (t.report .unknownNamedCharacterReference).reconsumeInReturn
    else t.reconsumeInReturn

/-! ## Numeric references -/

def numericCharacterReference (t : Tokenizer) (c : Option Char) : Tokenizer :=
  let t := { t with code := 0 }
  match c with
  | some 'x' => { t with buffer := t.buffer ++ ['x'] }.switchTo
    (.numericReferenceStart .hexadecimal)
  | some 'X' => { t with buffer := t.buffer ++ ['X'] }.switchTo
    (.numericReferenceStart .hexadecimal)
  | _ => t.reconsumeIn (.numericReferenceStart .decimal)

/-- Value of a digit of the base. -/
def digitValue? : Radix → Char → Option Nat
  | .decimal, c => if c.isDigit then some (c.toNat - '0'.toNat) else none
  | .hexadecimal, c => Ascii.hexValue? c

def base : Radix → Nat
  | .decimal => 10
  | .hexadecimal => 16

def numericReferenceStart (t : Tokenizer) (radix : Radix) (c : Option Char) : Tokenizer :=
  if (c.bind (digitValue? radix)).isSome then t.reconsumeIn (.numericReferenceDigits radix)
  else (t.report .absenceOfDigitsInNumericCharacterReference).flush.reconsumeInReturn

/-- The largest value that is told apart; larger ones count as it. -/
def codeLimit : Nat := 0xFFFFFFFF

/-- Adds a digit, saturating after the product and after the sum. -/
def addDigit (radix : Radix) (code digit : Nat) : Nat :=
  min (min (code * base radix) codeLimit + digit) codeLimit

def numericReferenceDigits (t : Tokenizer) (radix : Radix) (c : Option Char) : Tokenizer :=
  match c.bind (digitValue? radix) with
  | some digit => { t with code := addDigit radix t.code digit }
  | none =>
    if c = some ';' then t.switchTo .numericReferenceEnd
    else (t.report .missingSemicolonAfterCharacterReference).reconsumeIn .numericReferenceEnd

/-- What references to the control characters from U+0080 to U+009F stand for: the characters of the
Windows code page 1252. -/
def windowsCharacters : List (Nat × Nat) :=
  [(0x80, 0x20AC), (0x82, 0x201A), (0x83, 0x0192), (0x84, 0x201E), (0x85, 0x2026), (0x86, 0x2020),
   (0x87, 0x2021), (0x88, 0x02C6), (0x89, 0x2030), (0x8A, 0x0160), (0x8B, 0x2039), (0x8C, 0x0152),
   (0x8E, 0x017D), (0x91, 0x2018), (0x92, 0x2019), (0x93, 0x201C), (0x94, 0x201D), (0x95, 0x2022),
   (0x96, 0x2013), (0x97, 0x2014), (0x98, 0x02DC), (0x99, 0x2122), (0x9A, 0x0161), (0x9B, 0x203A),
   (0x9C, 0x0153), (0x9E, 0x017E), (0x9F, 0x0178)]

/-- The character of a numeric reference, and the error that comes with it. -/
def resolveCode (code : Nat) : Nat × Option ErrorKind :=
  if code = 0 then (0xFFFD, some .nullCharacterReference)
  else if 0x10FFFF < code then (0xFFFD, some .characterReferenceOutsideUnicodeRange)
  else if 0xD800 ≤ code ∧ code ≤ 0xDFFF then (0xFFFD, some .surrogateCharacterReference)
  else if Ascii.isNoncharacter code then (code, some .noncharacterCharacterReference)
  else if code = 0x0D ∨ (Ascii.isControl code ∧ code ∉ [0x09, 0x0A, 0x0C, 0x20]) then
    ((windowsCharacters.lookup code).getD code, some .controlCharacterReference)
  else (code, none)

def numericReferenceEnd (t : Tokenizer) : Tokenizer :=
  let t := { t with input := t.input.pushBack }
  let (code, error) := resolveCode t.code
  let t := match error with
    | some kind => t.report kind
    | none => t
  (t.resolve [Char.ofNat code]).switchToReturn

end Hypertext.Tokenizer
