import Hypertext.Tokenizer.Basic

/-!
# Markup declarations and comments
-/

namespace Hypertext.Tokenizer

def commentOpening : List Char := ['-', '-']

def doctypeOpening : List Char := ['d', 'o', 'c', 't', 'y', 'p', 'e']

def cdataOpening : List Char := ['[', 'C', 'D', 'A', 'T', 'A', '[']

/-- Decides what follows a `<!`. Nothing has been read of it: the current character is pushed back
first. Anything unknown is a comment up to the next `>`. -/
def markupDeclarationOpen (t : Tokenizer) : Tokenizer :=
  let t := { t with input := t.input.pushBack }
  if t.input.startsWith commentOpening then
    ({ t with input := t.input.skip commentOpening }.begin (.comment "")).switchTo .commentStart
  else if t.input.startsWithIgnoringCase doctypeOpening then
    { t with input := t.input.skip doctypeOpening }.switchTo .doctype
  else if t.input.startsWith cdataOpening then
    let t := { t with input := t.input.skip cdataOpening }
    if t.foreign then t.switchTo .cdataSection
    else
      ((t.report .cdataInHtmlContent).begin (.comment "[CDATA[")).switchTo .bogusComment
  else ((t.report .incorrectlyOpenedComment).begin (.comment "")).switchTo .bogusComment

def bogusComment (t : Tokenizer) : Option Char → Tokenizer
  | none => t.emitCurrent.emitEnd
  | some c =>
    if c = '>' then t.finish
    else if c = '\x00' then (t.report .unexpectedNullCharacter).editComment (.char '\uFFFD')
    else t.editComment (.char c)

/-- The input ends inside a comment, which is kept. -/
def endInComment (t : Tokenizer) : Tokenizer :=
  (t.report .eofInComment).emitCurrent.emitEnd

def commentStart (t : Tokenizer) (c : Option Char) : Tokenizer :=
  if c = some '-' then t.switchTo .commentStartDash
  else if c = some '>' then (t.report .abruptClosingOfEmptyComment).finish
  else t.reconsumeIn .comment

def commentStartDash (t : Tokenizer) : Option Char → Tokenizer
  | none => t.endInComment
  | some c =>
    if c = '-' then t.switchTo .commentEnd
    else if c = '>' then (t.report .abruptClosingOfEmptyComment).finish
    else (t.editComment (.char '-')).reconsumeIn .comment

def comment (t : Tokenizer) : Option Char → Tokenizer
  | none => t.endInComment
  | some c =>
    if c = '<' then (t.editComment (.char '<')).switchTo .commentLessThanSign
    else if c = '-' then t.switchTo .commentEndDash
    else if c = '\x00' then (t.report .unexpectedNullCharacter).editComment (.char '\uFFFD')
    else t.editComment (.char c)

def commentLessThanSign (t : Tokenizer) (c : Option Char) : Tokenizer :=
  if c = some '!' then (t.editComment (.char '!')).switchTo .commentLessThanSignBang
  else if c = some '<' then t.editComment (.char '<')
  else t.reconsumeIn .comment

def commentLessThanSignBang (t : Tokenizer) (c : Option Char) : Tokenizer :=
  if c = some '-' then t.switchTo .commentLessThanSignBangDash else t.reconsumeIn .comment

def commentLessThanSignBangDash (t : Tokenizer) (c : Option Char) : Tokenizer :=
  if c = some '-' then t.switchTo .commentLessThanSignBangDashDash
  else t.reconsumeIn .commentEndDash

def commentLessThanSignBangDashDash (t : Tokenizer) (c : Option Char) : Tokenizer :=
  if c = some '>' ∨ c = none then t.reconsumeIn .commentEnd
  else (t.report .nestedComment).reconsumeIn .commentEnd

def commentEndDash (t : Tokenizer) : Option Char → Tokenizer
  | none => t.endInComment
  | some c =>
    if c = '-' then t.switchTo .commentEnd
    else (t.editComment (.char '-')).reconsumeIn .comment

def commentEnd (t : Tokenizer) : Option Char → Tokenizer
  | none => t.endInComment
  | some c =>
    if c = '>' then t.finish
    else if c = '!' then t.switchTo .commentEndBang
    else if c = '-' then t.editComment (.char '-')
    else (t.editComment (.text "--")).reconsumeIn .comment

def commentEndBang (t : Tokenizer) : Option Char → Tokenizer
  | none => t.endInComment
  | some c =>
    if c = '-' then (t.editComment (.text "--!")).switchTo .commentEndDash
    else if c = '>' then (t.report .incorrectlyClosedComment).finish
    else (t.editComment (.text "--!")).reconsumeIn .comment

end Hypertext.Tokenizer
