import Hypertext.Position

/-!
# Parse errors

Markup of any shape is accepted, so an error never stops a parse: it is written to a log together
with the place where it was noticed.
-/

namespace Hypertext

/-- Coarse groups of parse errors. -/
inductive ErrorCategory where
  | malformedCharacterReference
  | unexpectedCharacter
  | unexpectedEndTag
  | unexpectedStartTag
  | duplicateAttribute
  | doctype
  | prematureEof
  | misnestedFormatting
deriving DecidableEq

/-- The name of a group in reports. -/
def ErrorCategory.name : ErrorCategory → String
  | .malformedCharacterReference => "MalformedCharacterReference"
  | .unexpectedCharacter => "UnexpectedCharacter"
  | .unexpectedEndTag => "UnexpectedEndTag"
  | .unexpectedStartTag => "UnexpectedStartTag"
  | .duplicateAttribute => "DuplicateAttribute"
  | .doctype => "Doctype"
  | .prematureEof => "PrematureEof"
  | .misnestedFormatting => "MisnestedFormatting"

/-- What can be wrong with a document: first what the tokenizer notices, then, from
`missingDoctype` on, what tree construction notices. -/
inductive ErrorKind where
  | absenceOfDigitsInNumericCharacterReference
  | characterReferenceOutsideUnicodeRange
  | controlCharacterReference
  | missingSemicolonAfterCharacterReference
  | noncharacterCharacterReference
  | nullCharacterReference
  | surrogateCharacterReference
  | unknownNamedCharacterReference
  | controlCharacterInInputStream
  | noncharacterInInputStream
  | unexpectedNullCharacter
  | duplicateAttribute
  | endTagWithAttributes
  | endTagWithTrailingSolidus
  | eofBeforeTagName
  | invalidFirstCharacterOfTagName
  | missingAttributeValue
  | missingEndTagName
  | missingWhitespaceBetweenAttributes
  | unexpectedCharacterInAttributeName
  | unexpectedCharacterInUnquotedAttributeValue
  | unexpectedEqualsSignBeforeAttributeName
  | unexpectedQuestionMarkInsteadOfTagName
  | unexpectedSolidusInTag
  | eofInTag
  | abruptClosingOfEmptyComment
  | cdataInHtmlContent
  | eofInCdata
  | eofInComment
  | eofInScriptHtmlCommentLikeText
  | incorrectlyClosedComment
  | incorrectlyOpenedComment
  | nestedComment
  | abruptDoctypePublicIdentifier
  | abruptDoctypeSystemIdentifier
  | eofInDoctype
  | invalidCharacterSequenceAfterDoctypeName
  | missingDoctypeName
  | missingDoctypePublicIdentifier
  | missingDoctypeSystemIdentifier
  | missingQuoteBeforeDoctypePublicIdentifier
  | missingQuoteBeforeDoctypeSystemIdentifier
  | missingWhitespaceAfterDoctypePublicKeyword
  | missingWhitespaceAfterDoctypeSystemKeyword
  | missingWhitespaceBeforeDoctypeName
  | missingWhitespaceBetweenDoctypePublicAndSystemIdentifiers
  | unexpectedCharacterAfterDoctypeSystemIdentifier
  | missingDoctype
  | nonConformingDoctype
  | unexpectedDoctype
  | unexpectedStartTag
  | unexpectedEndTag
  | unexpectedText
  | unclosedElements
  | nonVoidHtmlElementStartTagWithTrailingSolidus
  | eofWithOpenElements
  | misnestedFormattingElement
  | formattingElementNotInScope
  | formattingElementNotOpen
deriving DecidableEq

namespace ErrorKind

/-- The code of an error in reports. -/
def code : ErrorKind → String
  | .absenceOfDigitsInNumericCharacterReference =>
    "absence-of-digits-in-numeric-character-reference"
  | .characterReferenceOutsideUnicodeRange => "character-reference-outside-unicode-range"
  | .controlCharacterReference => "control-character-reference"
  | .missingSemicolonAfterCharacterReference => "missing-semicolon-after-character-reference"
  | .noncharacterCharacterReference => "noncharacter-character-reference"
  | .nullCharacterReference => "null-character-reference"
  | .surrogateCharacterReference => "surrogate-character-reference"
  | .unknownNamedCharacterReference => "unknown-named-character-reference"
  | .controlCharacterInInputStream => "control-character-in-input-stream"
  | .noncharacterInInputStream => "noncharacter-in-input-stream"
  | .unexpectedNullCharacter => "unexpected-null-character"
  | .duplicateAttribute => "duplicate-attribute"
  | .endTagWithAttributes => "end-tag-with-attributes"
  | .endTagWithTrailingSolidus => "end-tag-with-trailing-solidus"
  | .eofBeforeTagName => "eof-before-tag-name"
  | .invalidFirstCharacterOfTagName => "invalid-first-character-of-tag-name"
  | .missingAttributeValue => "missing-attribute-value"
  | .missingEndTagName => "missing-end-tag-name"
  | .missingWhitespaceBetweenAttributes => "missing-whitespace-between-attributes"
  | .unexpectedCharacterInAttributeName => "unexpected-character-in-attribute-name"
  | .unexpectedCharacterInUnquotedAttributeValue =>
    "unexpected-character-in-unquoted-attribute-value"
  | .unexpectedEqualsSignBeforeAttributeName => "unexpected-equals-sign-before-attribute-name"
  | .unexpectedQuestionMarkInsteadOfTagName => "unexpected-question-mark-instead-of-tag-name"
  | .unexpectedSolidusInTag => "unexpected-solidus-in-tag"
  | .eofInTag => "eof-in-tag"
  | .abruptClosingOfEmptyComment => "abrupt-closing-of-empty-comment"
  | .cdataInHtmlContent => "cdata-in-html-content"
  | .eofInCdata => "eof-in-cdata"
  | .eofInComment => "eof-in-comment"
  | .eofInScriptHtmlCommentLikeText => "eof-in-script-html-comment-like-text"
  | .incorrectlyClosedComment => "incorrectly-closed-comment"
  | .incorrectlyOpenedComment => "incorrectly-opened-comment"
  | .nestedComment => "nested-comment"
  | .abruptDoctypePublicIdentifier => "abrupt-doctype-public-identifier"
  | .abruptDoctypeSystemIdentifier => "abrupt-doctype-system-identifier"
  | .eofInDoctype => "eof-in-doctype"
  | .invalidCharacterSequenceAfterDoctypeName => "invalid-character-sequence-after-doctype-name"
  | .missingDoctypeName => "missing-doctype-name"
  | .missingDoctypePublicIdentifier => "missing-doctype-public-identifier"
  | .missingDoctypeSystemIdentifier => "missing-doctype-system-identifier"
  | .missingQuoteBeforeDoctypePublicIdentifier => "missing-quote-before-doctype-public-identifier"
  | .missingQuoteBeforeDoctypeSystemIdentifier => "missing-quote-before-doctype-system-identifier"
  | .missingWhitespaceAfterDoctypePublicKeyword => "missing-whitespace-after-doctype-public-keyword"
  | .missingWhitespaceAfterDoctypeSystemKeyword => "missing-whitespace-after-doctype-system-keyword"
  | .missingWhitespaceBeforeDoctypeName => "missing-whitespace-before-doctype-name"
  | .missingWhitespaceBetweenDoctypePublicAndSystemIdentifiers =>
    "missing-whitespace-between-doctype-public-and-system-identifiers"
  | .unexpectedCharacterAfterDoctypeSystemIdentifier =>
    "unexpected-character-after-doctype-system-identifier"
  | .missingDoctype => "missing-doctype"
  | .nonConformingDoctype => "non-conforming-doctype"
  | .unexpectedDoctype => "unexpected-doctype"
  | .unexpectedStartTag => "unexpected-start-tag"
  | .unexpectedEndTag => "unexpected-end-tag"
  | .unexpectedText => "unexpected-text"
  | .unclosedElements => "unclosed-elements"
  | .nonVoidHtmlElementStartTagWithTrailingSolidus =>
    "non-void-html-element-start-tag-with-trailing-solidus"
  | .eofWithOpenElements => "eof-with-open-elements"
  | .misnestedFormattingElement => "misnested-formatting-element"
  | .formattingElementNotInScope => "formatting-element-not-in-scope"
  | .formattingElementNotOpen => "formatting-element-not-open"

def category : ErrorKind → ErrorCategory
  | .absenceOfDigitsInNumericCharacterReference => .malformedCharacterReference
  | .characterReferenceOutsideUnicodeRange => .malformedCharacterReference
  | .controlCharacterReference => .malformedCharacterReference
  | .missingSemicolonAfterCharacterReference => .malformedCharacterReference
  | .noncharacterCharacterReference => .malformedCharacterReference
  | .nullCharacterReference => .malformedCharacterReference
  | .surrogateCharacterReference => .malformedCharacterReference
  | .unknownNamedCharacterReference => .malformedCharacterReference
  | .controlCharacterInInputStream => .unexpectedCharacter
  | .noncharacterInInputStream => .unexpectedCharacter
  | .unexpectedNullCharacter => .unexpectedCharacter
  | .duplicateAttribute => .duplicateAttribute
  | .endTagWithAttributes => .unexpectedEndTag
  | .endTagWithTrailingSolidus => .unexpectedEndTag
  | .eofBeforeTagName => .prematureEof
  | .invalidFirstCharacterOfTagName => .unexpectedCharacter
  | .missingAttributeValue => .unexpectedCharacter
  | .missingEndTagName => .unexpectedEndTag
  | .missingWhitespaceBetweenAttributes => .unexpectedCharacter
  | .unexpectedCharacterInAttributeName => .unexpectedCharacter
  | .unexpectedCharacterInUnquotedAttributeValue => .unexpectedCharacter
  | .unexpectedEqualsSignBeforeAttributeName => .unexpectedCharacter
  | .unexpectedQuestionMarkInsteadOfTagName => .unexpectedCharacter
  | .unexpectedSolidusInTag => .unexpectedCharacter
  | .eofInTag => .prematureEof
  | .abruptClosingOfEmptyComment => .unexpectedCharacter
  | .cdataInHtmlContent => .unexpectedCharacter
  | .eofInCdata => .prematureEof
  | .eofInComment => .prematureEof
  | .eofInScriptHtmlCommentLikeText => .prematureEof
  | .incorrectlyClosedComment => .unexpectedCharacter
  | .incorrectlyOpenedComment => .unexpectedCharacter
  | .nestedComment => .unexpectedCharacter
  | .abruptDoctypePublicIdentifier => .doctype
  | .abruptDoctypeSystemIdentifier => .doctype
  | .eofInDoctype => .prematureEof
  | .invalidCharacterSequenceAfterDoctypeName => .doctype
  | .missingDoctypeName => .doctype
  | .missingDoctypePublicIdentifier => .doctype
  | .missingDoctypeSystemIdentifier => .doctype
  | .missingQuoteBeforeDoctypePublicIdentifier => .doctype
  | .missingQuoteBeforeDoctypeSystemIdentifier => .doctype
  | .missingWhitespaceAfterDoctypePublicKeyword => .doctype
  | .missingWhitespaceAfterDoctypeSystemKeyword => .doctype
  | .missingWhitespaceBeforeDoctypeName => .doctype
  | .missingWhitespaceBetweenDoctypePublicAndSystemIdentifiers => .doctype
  | .unexpectedCharacterAfterDoctypeSystemIdentifier => .doctype
  | .missingDoctype => .doctype
  | .nonConformingDoctype => .doctype
  | .unexpectedDoctype => .doctype
  | .unexpectedStartTag => .unexpectedStartTag
  | .unexpectedEndTag => .unexpectedEndTag
  | .unexpectedText => .unexpectedCharacter
  | .unclosedElements => .unexpectedEndTag
  | .nonVoidHtmlElementStartTagWithTrailingSolidus => .unexpectedStartTag
  | .eofWithOpenElements => .prematureEof
  | .misnestedFormattingElement => .misnestedFormatting
  | .formattingElementNotInScope => .misnestedFormatting
  | .formattingElementNotOpen => .misnestedFormatting

/-- Every kind of error, in order of declaration. -/
def all : List ErrorKind :=
  [.absenceOfDigitsInNumericCharacterReference, .characterReferenceOutsideUnicodeRange,
   .controlCharacterReference, .missingSemicolonAfterCharacterReference,
   .noncharacterCharacterReference, .nullCharacterReference, .surrogateCharacterReference,
   .unknownNamedCharacterReference, .controlCharacterInInputStream, .noncharacterInInputStream,
   .unexpectedNullCharacter, .duplicateAttribute, .endTagWithAttributes,
   .endTagWithTrailingSolidus, .eofBeforeTagName, .invalidFirstCharacterOfTagName,
   .missingAttributeValue, .missingEndTagName, .missingWhitespaceBetweenAttributes,
   .unexpectedCharacterInAttributeName, .unexpectedCharacterInUnquotedAttributeValue,
   .unexpectedEqualsSignBeforeAttributeName, .unexpectedQuestionMarkInsteadOfTagName,
   .unexpectedSolidusInTag, .eofInTag, .abruptClosingOfEmptyComment, .cdataInHtmlContent,
   .eofInCdata, .eofInComment, .eofInScriptHtmlCommentLikeText, .incorrectlyClosedComment,
   .incorrectlyOpenedComment, .nestedComment, .abruptDoctypePublicIdentifier,
   .abruptDoctypeSystemIdentifier, .eofInDoctype, .invalidCharacterSequenceAfterDoctypeName,
   .missingDoctypeName, .missingDoctypePublicIdentifier, .missingDoctypeSystemIdentifier,
   .missingQuoteBeforeDoctypePublicIdentifier, .missingQuoteBeforeDoctypeSystemIdentifier,
   .missingWhitespaceAfterDoctypePublicKeyword, .missingWhitespaceAfterDoctypeSystemKeyword,
   .missingWhitespaceBeforeDoctypeName,
   .missingWhitespaceBetweenDoctypePublicAndSystemIdentifiers,
   .unexpectedCharacterAfterDoctypeSystemIdentifier, .missingDoctype, .nonConformingDoctype,
   .unexpectedDoctype, .unexpectedStartTag, .unexpectedEndTag, .unexpectedText,
   .unclosedElements, .nonVoidHtmlElementStartTagWithTrailingSolidus, .eofWithOpenElements,
   .misnestedFormattingElement, .formattingElementNotInScope, .formattingElementNotOpen]

/-- The kind that is reported as `code`. -/
def ofCode? (code : String) : Option ErrorKind :=
  all.find? fun kind => kind.code == code

end ErrorKind

/-- An error and the place where it was noticed. -/
structure ParseError where
  kind : ErrorKind
  position : Position
deriving DecidableEq

def ParseError.display (e : ParseError) : String :=
  e.kind.code ++ " at " ++ e.position.display

/-- Errors in the order in which they were noticed. -/
structure ErrorLog where
  entries : Array ParseError := #[]
deriving DecidableEq

namespace ErrorLog

def record (log : ErrorLog) (kind : ErrorKind) (position : Position) : ErrorLog :=
  ⟨log.entries.push ⟨kind, position⟩⟩

/-- The entries of `log`, then those of `other`. -/
def append (log other : ErrorLog) : ErrorLog :=
  ⟨log.entries ++ other.entries⟩

def size (log : ErrorLog) : Nat := log.entries.size

def isEmpty (log : ErrorLog) : Bool := log.entries.isEmpty

/-- Whether an error of this kind has been recorded. -/
def contains (log : ErrorLog) (kind : ErrorKind) : Bool :=
  log.entries.any fun e => e.kind = kind

/-- The entries recorded after the first `n`. -/
def since (log : ErrorLog) (n : Nat) : List ParseError :=
  log.entries.toList.drop n

end ErrorLog

end Hypertext
