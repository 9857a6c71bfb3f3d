import Hypertext.Tokenizer.Basic

/-!
# Text states

Plain text, raw text with its end tags, script data with its comment-like escapes, and CDATA
sections. Every rule takes the current character, or `none` at the end of the input.
-/

namespace Hypertext.Tokenizer

/-! ## Text with markup -/

def data (t : Tokenizer) : Option Char → Tokenizer
  | none => t.emitEnd
  | some c =>
    if c = '&' then t.enterReference .data
    else if c = '<' then t.markStart.switchTo .tagOpen
    else if c = '\x00' then (t.report .unexpectedNullCharacter).emitChar c
    else t.emitChar c

/-! ## Raw text -/

/-- A character of raw text: a null is replaced. -/
def rawCharacter (t : Tokenizer) : Option Char → Tokenizer
  | none => t.emitEnd
  | some c =>
    if c = '\x00' then (t.report .unexpectedNullCharacter).emitChar '\uFFFD'
    else t.emitChar c

def endInScriptComment (t : Tokenizer) : Tokenizer :=
  (t.report .eofInScriptHtmlCommentLikeText).emitEnd

/-- A character of escaped script data that has no meaning there; it leads to the state `s`. -/
def escapedCharacter (t : Tokenizer) (s : State) : Option Char → Tokenizer
  | none => t.endInScriptComment
  | some c =>
    if c = '\x00' then ((t.report .unexpectedNullCharacter).switchTo s).emitChar '\uFFFD'
    else (t.switchTo s).emitChar c

def text (t : Tokenizer) (kind : RawText) (c : Option Char) : Tokenizer :=
  if c = some '<' then t.markStart.switchTo (.textLessThanSign kind)
  else
    match kind with
    | .rcdata => if c = some '&' then t.enterReference (.text .rcdata) else t.rawCharacter c
    | .rawtext | .scriptData => t.rawCharacter c
    | .scriptDataEscaped =>
      if c = some '-' then (t.switchTo .scriptDataEscapedDash).emitChar '-'
      else t.escapedCharacter (.text .scriptDataEscaped) c

/-- After a `<` in raw text only an end tag is markup; in script data a comment-like text may begin,
and in an escaped one a nested script. -/
def textLessThanSign (t : Tokenizer) (kind : RawText) (c : Option Char) : Tokenizer :=
  if c = some '/' then { t with buffer := [] }.switchTo (.textEndTagOpen kind)
  else if kind = .scriptData ∧ c = some '!' then
    ((t.switchTo .scriptDataEscapeStart).emitChar '<').emitChar '!'
  else if kind = .scriptDataEscaped ∧ c.any Char.isAlpha then
    ({ t with buffer := [] }.emitChar '<').reconsumeIn .scriptDataDoubleEscapeStart
  else (t.emitChar '<').reconsumeIn (.text kind)

def textEndTagOpen (t : Tokenizer) (kind : RawText) (c : Option Char) : Tokenizer :=
  if c.any Char.isAlpha then (t.begin (.endTag {})).reconsumeIn (.textEndTagName kind)
  else ((t.emitChar '<').emitChar '/').reconsumeIn (.text kind)

/-- What looked like an end tag is text after all. -/
def abandonEndTag (t : Tokenizer) (kind : RawText) : Tokenizer :=
  let t := ((t.emitChar '<').emitChar '/').emitChars t.buffer
  { t with current := none }.reconsumeIn (.text kind)

def textEndTagName (t : Tokenizer) (kind : RawText) : Option Char → Tokenizer
  | none => t.abandonEndTag kind
  | some c =>
    if Ascii.isBlank c && t.isAppropriateEndTag then t.switchTo .beforeAttributeName
    else if c = '/' ∧ t.isAppropriateEndTag then t.switchTo .selfClosingStartTag
    else if c = '>' ∧ t.isAppropriateEndTag then t.finish
    else if c.isAlpha then
      let t := t.editTag (.name c.toLower)
      { t with buffer := t.buffer ++ [c] }
    else t.abandonEndTag kind

/-! ## Script data -/

def scriptDataEscapeStart (t : Tokenizer) (c : Option Char) : Tokenizer :=
  if c = some '-' then (t.switchTo .scriptDataEscapeStartDash).emitChar '-'
  else t.reconsumeIn (.text .scriptData)

def scriptDataEscapeStartDash (t : Tokenizer) (c : Option Char) : Tokenizer :=
  if c = some '-' then (t.switchTo .scriptDataEscapedDashDash).emitChar '-'
  else t.reconsumeIn (.text .scriptData)

def scriptDataEscapedDash (t : Tokenizer) (c : Option Char) : Tokenizer :=
  if c = some '-' then (t.switchTo .scriptDataEscapedDashDash).emitChar '-'
  else if c = some '<' then t.markStart.switchTo (.textLessThanSign .scriptDataEscaped)
  else t.escapedCharacter (.text .scriptDataEscaped) c

def scriptDataEscapedDashDash (t : Tokenizer) (c : Option Char) : Tokenizer :=
  if c = some '-' then t.emitChar '-'
  else if c = some '<' then t.markStart.switchTo (.textLessThanSign .scriptDataEscaped)
  else if c = some '>' then (t.switchTo (.text .scriptData)).emitChar '>'
  else t.escapedCharacter (.text .scriptDataEscaped) c

/-- Reads a tag name inside escaped script data: at its end `script` leads to one state and every
other name to another. -/
def doubleEscapeBoundary (t : Tokenizer) (ifScript otherwise : State) : Option Char → Tokenizer
  | none => t.reconsumeIn otherwise
  | some c =>
    if Ascii.isBlank c || c == '/' || c == '>' then
      (t.switchTo (if t.buffer = ['s', 'c', 'r', 'i', 'p',
        't'] then ifScript else otherwise)).emitChar c
    else if c.isAlpha then { t with buffer := t.buffer ++ [c.toLower] }.emitChar c
    else t.reconsumeIn otherwise

def scriptDataDoubleEscaped (t : Tokenizer) (c : Option Char) : Tokenizer :=
  if c = some '-' then (t.switchTo .scriptDataDoubleEscapedDash).emitChar '-'
  else if c = some '<' then (t.switchTo .scriptDataDoubleEscapedLessThanSign).emitChar '<'
  else t.escapedCharacter .scriptDataDoubleEscaped c

def scriptDataDoubleEscapedDash (t : Tokenizer) (c : Option Char) : Tokenizer :=
  if c = some '-' then (t.switchTo .scriptDataDoubleEscapedDashDash).emitChar '-'
  else if c = some '<' then (t.switchTo .scriptDataDoubleEscapedLessThanSign).emitChar '<'
  else t.escapedCharacter .scriptDataDoubleEscaped c

def scriptDataDoubleEscapedDashDash (t : Tokenizer) (c : Option Char) : Tokenizer :=
  if c = some '-' then t.emitChar '-'
  else if c = some '<' then (t.switchTo .scriptDataDoubleEscapedLessThanSign).emitChar '<'
  else if c = some '>' then (t.switchTo (.text .scriptData)).emitChar '>'
  else t.escapedCharacter .scriptDataDoubleEscaped c

def scriptDataDoubleEscapedLessThanSign (t : Tokenizer) (c : Option Char) : Tokenizer :=
  if c = some '/' then
    ({ t with buffer := [] }.switchTo .scriptDataDoubleEscapeEnd).emitChar '/'
  else t.reconsumeIn .scriptDataDoubleEscaped

/-! ## CDATA sections -/

def cdataSection (t : Tokenizer) : Option Char → Tokenizer
  | none => (t.report .eofInCdata).emitEnd
  | some c => if c = ']' then t.switchTo .cdataSectionBracket else t.emitChar c

def cdataSectionBracket (t : Tokenizer) (c : Option Char) : Tokenizer :=
  if c = some ']' then t.switchTo .cdataSectionEnd
  else (t.emitChar ']').reconsumeIn .cdataSection

def cdataSectionEnd (t : Tokenizer) (c : Option Char) : Tokenizer :=
  if c = some ']' then t.emitChar ']'
  else if c = some '>' then t.switchTo .data
  else ((t.emitChar ']').emitChar ']').reconsumeIn .cdataSection

end Hypertext.Tokenizer
