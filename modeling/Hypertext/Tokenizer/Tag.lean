import Hypertext.Tokenizer.Basic

/-!
# Tag states

From the `<` of a tag to its `>`: names, attributes and their values.
-/

namespace Hypertext.Tokenizer

/-- The input ends inside a tag, which is lost. -/
def endInTag (t : Tokenizer) : Tokenizer :=
  { t.report .eofInTag with current := none, duplicate := false }.emitEnd

/-! ## Names -/

def tagOpen (t : Tokenizer) : Option Char → Tokenizer
  | none => ((t.report .eofBeforeTagName).emitChar '<').emitEnd
  | some c =>
    if c = '!' then t.switchTo .markupDeclarationOpen
    else if c = '/' then t.switchTo .endTagOpen
    else if c.isAlpha then (t.begin (.startTag {})).reconsumeIn .tagName
    else if c = '?' then
      ((t.report .unexpectedQuestionMarkInsteadOfTagName).begin (.comment "")).reconsumeIn
        .bogusComment
    else ((t.report .invalidFirstCharacterOfTagName).emitChar '<').reconsumeIn .data

def endTagOpen (t : Tokenizer) : Option Char → Tokenizer
  | none => (((t.report .eofBeforeTagName).emitChar '<').emitChar '/').emitEnd
  | some c =>
    if c.isAlpha then (t.begin (.endTag {})).reconsumeIn .tagName
    else if c = '>' then (t.report .missingEndTagName).switchTo .data
    else
      ((t.report .invalidFirstCharacterOfTagName).begin (.comment "")).reconsumeIn .bogusComment

def tagName (t : Tokenizer) : Option Char → Tokenizer
  | none => t.endInTag
  | some c =>
    if Ascii.isBlank c then t.switchTo .beforeAttributeName
    else if c = '/' then t.switchTo .selfClosingStartTag
    else if c = '>' then t.finish
    else if c = '\x00' then (t.report .unexpectedNullCharacter).editTag (.name '\uFFFD')
    else t.editTag (.name c.toLower)

/-! ## Attributes -/

def beforeAttributeName (t : Tokenizer) : Option Char → Tokenizer
  | none => t.reconsumeIn .afterAttributeName
  | some c =>
    if Ascii.isBlank c then t
    else if c = '/' ∨ c = '>' then t.reconsumeIn .afterAttributeName
    else if c = '=' then
      (((t.report .unexpectedEqualsSignBeforeAttributeName).newAttribute).editTag
        (.attributeName '=')).switchTo .attributeName
    else t.newAttribute.reconsumeIn .attributeName

/-- A character that is an error in the name of an attribute, and still part of it. -/
def isOddInName (c : Char) : Bool := c == '\x22' || c == '\x27' || c == '<'

def attributeName (t : Tokenizer) : Option Char → Tokenizer
  | none => t.checkDuplicate.reconsumeIn .afterAttributeName
  | some c =>
    if Ascii.isBlank c || c == '/' || c == '>' then
      t.checkDuplicate.reconsumeIn .afterAttributeName
    else if c = '=' then t.checkDuplicate.switchTo .beforeAttributeValue
    else if c = '\x00' then
      (t.report .unexpectedNullCharacter).editTag (.attributeName '\uFFFD')
    else
      let t := if isOddInName c then t.report .unexpectedCharacterInAttributeName else t
      t.editTag (.attributeName c.toLower)

def afterAttributeName (t : Tokenizer) : Option Char → Tokenizer
  | none => t.endInTag
  | some c =>
    if Ascii.isBlank c then t
    else if c = '/' then t.switchTo .selfClosingStartTag
    else if c = '=' then t.switchTo .beforeAttributeValue
    else if c = '>' then t.finish
    else t.newAttribute.reconsumeIn .attributeName

def beforeAttributeValue (t : Tokenizer) : Option Char → Tokenizer
  | none => t.reconsumeIn .attributeValueUnquoted
  | some c =>
    if Ascii.isBlank c then t
    else if c = '\x22' then t.switchTo (.attributeValueQuoted .double)
    else if c = '\x27' then t.switchTo (.attributeValueQuoted .single)
    else if c = '>' then (t.report .missingAttributeValue).finish
    else t.reconsumeIn .attributeValueUnquoted

def attributeValueQuoted (t : Tokenizer) (quote : Quote) : Option Char → Tokenizer
  | none => t.endInTag
  | some c =>
    if c = quote.char then t.switchTo .afterAttributeValueQuoted
    else if c = '&' then t.enterReference (.attributeValueQuoted quote)
    else if c = '\x00' then
      (t.report .unexpectedNullCharacter).editTag (.attributeValue '\uFFFD')
    else t.editTag (.attributeValue c)

/-- A character that is an error in a value without quotes, and still part of it. -/
def isOddInValue (c : Char) : Bool :=
  c == '\x22' || c == '\x27' || c == '<' || c == '=' || c == '\x60'

def attributeValueUnquoted (t : Tokenizer) : Option Char → Tokenizer
  | none => t.endInTag
  | some c =>
    if Ascii.isBlank c then t.switchTo .beforeAttributeName
    else if c = '&' then t.enterReference .attributeValueUnquoted
    else if c = '>' then t.finish
    else if c = '\x00' then
      (t.report .unexpectedNullCharacter).editTag (.attributeValue '\uFFFD')
    else
      let t := if isOddInValue c then t.report .unexpectedCharacterInUnquotedAttributeValue else t
      t.editTag (.attributeValue c)

def afterAttributeValueQuoted (t : Tokenizer) : Option Char → Tokenizer
  | none => t.endInTag
  | some c =>
    if Ascii.isBlank c then t.switchTo .beforeAttributeName
    else if c = '/' then t.switchTo .selfClosingStartTag
    else if c = '>' then t.finish
    else (t.report .missingWhitespaceBetweenAttributes).reconsumeIn .beforeAttributeName

def selfClosingStartTag (t : Tokenizer) : Option Char → Tokenizer
  | none => t.endInTag
  | some c =>
    if c = '>' then (t.editTag .selfClosing).finish
    else (t.report .unexpectedSolidusInTag).reconsumeIn .beforeAttributeName

end Hypertext.Tokenizer
