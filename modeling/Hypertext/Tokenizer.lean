import Hypertext.Tokenizer.Comment
import Hypertext.Tokenizer.Doctype
import Hypertext.Tokenizer.Reference
import Hypertext.Tokenizer.Tag
import Hypertext.Tokenizer.Text

/-!
# Tokenizing

One step reads a character and applies the rule of the current state. A token is delivered by
stepping until one is in the queue.
-/

namespace Hypertext.Tokenizer

/-- The rule of the current state for the current character. -/
def handle (t : Tokenizer) (c : Option Char) : Tokenizer :=
  match t.state with
  | .data => t.data c
  | .plaintext => t.rawCharacter c
  | .text kind => t.text kind c
  | .textLessThanSign kind => t.textLessThanSign kind c
  | .textEndTagOpen kind => t.textEndTagOpen kind c
  | .textEndTagName kind => t.textEndTagName kind c
  | .tagOpen => t.tagOpen c
  | .endTagOpen => t.endTagOpen c
  | .tagName => t.tagName c
  | .scriptDataEscapeStart => t.scriptDataEscapeStart c
  | .scriptDataEscapeStartDash => t.scriptDataEscapeStartDash c
  | .scriptDataEscapedDash => t.scriptDataEscapedDash c
  | .scriptDataEscapedDashDash => t.scriptDataEscapedDashDash c
  | .scriptDataDoubleEscapeStart =>
    t.doubleEscapeBoundary .scriptDataDoubleEscaped (.text .scriptDataEscaped) c
  | .scriptDataDoubleEscaped => t.scriptDataDoubleEscaped c
  | .scriptDataDoubleEscapedDash => t.scriptDataDoubleEscapedDash c
  | .scriptDataDoubleEscapedDashDash => t.scriptDataDoubleEscapedDashDash c
  | .scriptDataDoubleEscapedLessThanSign => t.scriptDataDoubleEscapedLessThanSign c
  | .scriptDataDoubleEscapeEnd =>
    t.doubleEscapeBoundary (.text .scriptDataEscaped) .scriptDataDoubleEscaped c
  | .beforeAttributeName => t.beforeAttributeName c
  | .attributeName => t.attributeName c
  | .afterAttributeName => t.afterAttributeName c
  | .beforeAttributeValue => t.beforeAttributeValue c
  | .attributeValueQuoted quote => t.attributeValueQuoted quote c
  | .attributeValueUnquoted => t.attributeValueUnquoted c
  | .afterAttributeValueQuoted => t.afterAttributeValueQuoted c
  | .selfClosingStartTag => t.selfClosingStartTag c
  | .bogusComment => t.bogusComment c
  | .markupDeclarationOpen => t.markupDeclarationOpen
  | .commentStart => t.commentStart c
  | .commentStartDash => t.commentStartDash c
  | .comment => t.comment c
  | .commentLessThanSign => t.commentLessThanSign c
  | .commentLessThanSignBang => t.commentLessThanSignBang c
  | .commentLessThanSignBangDash => t.commentLessThanSignBangDash c
  | .commentLessThanSignBangDashDash => t.commentLessThanSignBangDashDash c
  | .commentEndDash => t.commentEndDash c
  | .commentEnd => t.commentEnd c
  | .commentEndBang => t.commentEndBang c
  | .doctype => t.doctype c
  | .beforeDoctypeName => t.beforeDoctypeName c
  | .doctypeName => t.doctypeName c
  | .afterDoctypeName => t.afterDoctypeName c
  | .afterDoctypeKeyword which => t.afterDoctypeKeyword which c
  | .beforeDoctypeIdentifier which => t.beforeDoctypeIdentifier which c
  | .doctypeIdentifier which quote => t.doctypeIdentifier which quote c
  | .afterDoctypeIdentifier .publicId => t.afterPublicIdentifier c
  | .afterDoctypeIdentifier .systemId => t.afterSystemIdentifier c
  | .betweenDoctypeIdentifiers => t.betweenDoctypeIdentifiers c
  | .bogusDoctype => t.bogusDoctype c
  | .cdataSection => t.cdataSection c
  | .cdataSectionBracket => t.cdataSectionBracket c
  | .cdataSectionEnd => t.cdataSectionEnd c
  | .characterReference => t.characterReference c
  | .namedCharacterReference => t.namedCharacterReference
  | .ambiguousAmpersand => t.ambiguousAmpersand c
  | .numericCharacterReference => t.numericCharacterReference c
  | .numericReferenceStart radix => t.numericReferenceStart radix c
  | .numericReferenceDigits radix => t.numericReferenceDigits radix c
  | .numericReferenceEnd => t.numericReferenceEnd

/-- Reads the next character and applies the rule of the current state to it. -/
def step (t : Tokenizer) : Tokenizer := t.consume.handle t.input.peek

/-- The end of the input, at the current position. -/
def endToken (t : Tokenizer) : PositionedToken := ⟨.endOfFile, t.input.position⟩

/-- Steps until a token is in the queue and takes it. After the end of the input every further token
is the end of the input. -/
def pull : (fuel : Nat) → Tokenizer → PositionedToken × Tokenizer
  | 0, t => (t.endToken, t)
  | fuel + 1, t =>
    match t.pending with
    | token :: rest => (token, { t with pending := rest })
    | [] => if t.ended then (t.endToken, t) else pull fuel t.step

/-- Enough steps to reach the next token: a state that reads nothing is followed within a few steps
by one that reads a character, or by the end of the input. -/
def stepLimit (t : Tokenizer) : Nat := 16 * (t.input.ahead.length + 2)

/-- The next token. `foreign` says whether the tree is being built inside foreign content, where
CDATA sections are allowed. -/
def nextToken (t : Tokenizer) (foreign : Bool) : PositionedToken × Tokenizer :=
  pull t.stepLimit { t with foreign }

/-- Takes tokens up to and with the end of the input. -/
def collect (foreign : Bool) : (fuel : Nat) → Tokenizer → List PositionedToken × Tokenizer
  | 0, t => ([], t)
  | fuel + 1, t =>
    let (token, t) := t.nextToken foreign
    if token.token = .endOfFile then ([token], t)
    else
      let (rest, t) := collect foreign fuel t
      (token :: rest, t)

/-- More tokens than are left: no character gives more than four. -/
def tokenLimit (t : Tokenizer) : Nat :=
  t.pending.length + 4 * (t.input.ahead.length + t.buffer.length + 4)

/-- All tokens up to and with the end of the input. -/
def tokens (t : Tokenizer) (foreign : Bool) : List PositionedToken × Tokenizer :=
  collect foreign t.tokenLimit t

/-- All tokens of a tokenizer that works alone, without their positions. -/
def run (t : Tokenizer) : List Token × Tokenizer :=
  let (found, t) := t.tokens false
  (found.map (·.token), t)

/-- Moves the errors out. -/
def takeErrors (t : Tokenizer) : ErrorLog × Tokenizer := (t.errors, { t with errors := {} })

def setLastStartTag (t : Tokenizer) (name : Option String) : Tokenizer :=
  { t with lastStartTag := name }

end Hypertext.Tokenizer
