/-!
# States of the tokenizer

The states are grouped by what they share: the text states that only a matching end tag leaves, the
quotes around attribute values and identifiers, the two identifiers of a document type, and the two
bases of numeric references.
-/

namespace Hypertext

/-- The mark that closes a quoted value. -/
inductive Quote where
  | double
  | single
deriving DecidableEq

def Quote.char : Quote → Char
  | .double => '\x22'
  | .single => '\x27'

/-- The identifiers of a document type. -/
inductive Identifier where
  | publicId
  | systemId
deriving DecidableEq

/-- The bases of numeric character references. -/
inductive Radix where
  | decimal
  | hexadecimal
deriving DecidableEq

/-- Text that ends at the end tag that fits the last start tag. -/
inductive RawText where
  | rcdata
  | rawtext
  | scriptData
  /-- Script data inside what looks like a comment. -/
  | scriptDataEscaped
deriving DecidableEq

namespace Tokenizer

inductive State where
  | data
  | plaintext
  | text (kind : RawText)
  | textLessThanSign (kind : RawText)
  | textEndTagOpen (kind : RawText)
  | textEndTagName (kind : RawText)
  | tagOpen
  | endTagOpen
  | tagName
  | scriptDataEscapeStart
  | scriptDataEscapeStartDash
  | scriptDataEscapedDash
  | scriptDataEscapedDashDash
  | scriptDataDoubleEscapeStart
  | scriptDataDoubleEscaped
  | scriptDataDoubleEscapedDash
  | scriptDataDoubleEscapedDashDash
  | scriptDataDoubleEscapedLessThanSign
  | scriptDataDoubleEscapeEnd
  | beforeAttributeName
  | attributeName
  | afterAttributeName
  | beforeAttributeValue
  | attributeValueQuoted (quote : Quote)
  | attributeValueUnquoted
  | afterAttributeValueQuoted
  | selfClosingStartTag
  | bogusComment
  | markupDeclarationOpen
  | commentStart
  | commentStartDash
  | comment
  | commentLessThanSign
  | commentLessThanSignBang
  | commentLessThanSignBangDash
  | commentLessThanSignBangDashDash
  | commentEndDash
  | commentEnd
  | commentEndBang
  | doctype
  | beforeDoctypeName
  | doctypeName
  | afterDoctypeName
  | afterDoctypeKeyword (which : Identifier)
  | beforeDoctypeIdentifier (which : Identifier)
  | doctypeIdentifier (which : Identifier) (quote : Quote)
  | afterDoctypeIdentifier (which : Identifier)
  | betweenDoctypeIdentifiers
  | bogusDoctype
  | cdataSection
  | cdataSectionBracket
  | cdataSectionEnd
  | characterReference
  | namedCharacterReference
  | ambiguousAmpersand
  | numericCharacterReference
  | numericReferenceStart (radix : Radix)
  | numericReferenceDigits (radix : Radix)
  | numericReferenceEnd
deriving DecidableEq

namespace State

/-- The name of a state in reports and options. -/
def name : State → String
  | .data => "Data"
  | .plaintext => "PLAINTEXT"
  | .text .rcdata => "RCDATA"
  | .text .rawtext => "RAWTEXT"
  | .text .scriptData => "ScriptData"
  | .text .scriptDataEscaped => "ScriptDataEscaped"
  | .textLessThanSign .rcdata => "RCDATALessThanSign"
  | .textLessThanSign .rawtext => "RAWTEXTLessThanSign"
  | .textLessThanSign .scriptData => "ScriptDataLessThanSign"
  | .textLessThanSign .scriptDataEscaped => "ScriptDataEscapedLessThanSign"
  | .textEndTagOpen .rcdata => "RCDATAEndTagOpen"
  | .textEndTagOpen .rawtext => "RAWTEXTEndTagOpen"
  | .textEndTagOpen .scriptData => "ScriptDataEndTagOpen"
  | .textEndTagOpen .scriptDataEscaped => "ScriptDataEscapedEndTagOpen"
  | .textEndTagName .rcdata => "RCDATAEndTagName"
  | .textEndTagName .rawtext => "RAWTEXTEndTagName"
  | .textEndTagName .scriptData => "ScriptDataEndTagName"
  | .textEndTagName .scriptDataEscaped => "ScriptDataEscapedEndTagName"
  | .tagOpen => "TagOpen"
  | .endTagOpen => "EndTagOpen"
  | .tagName => "TagName"
  | .scriptDataEscapeStart => "ScriptDataEscapeStart"
  | .scriptDataEscapeStartDash => "ScriptDataEscapeStartDash"
  | .scriptDataEscapedDash => "ScriptDataEscapedDash"
  | .scriptDataEscapedDashDash => "ScriptDataEscapedDashDash"
  | .scriptDataDoubleEscapeStart => "ScriptDataDoubleEscapeStart"
  | .scriptDataDoubleEscaped => "ScriptDataDoubleEscaped"
  | .scriptDataDoubleEscapedDash => "ScriptDataDoubleEscapedDash"
  | .scriptDataDoubleEscapedDashDash => "ScriptDataDoubleEscapedDashDash"
  | .scriptDataDoubleEscapedLessThanSign => "ScriptDataDoubleEscapedLessThanSign"
  | .scriptDataDoubleEscapeEnd => "ScriptDataDoubleEscapeEnd"
  | .beforeAttributeName => "BeforeAttributeName"
  | .attributeName => "AttributeName"
  | .afterAttributeName => "AfterAttributeName"
  | .beforeAttributeValue => "BeforeAttributeValue"
  | .attributeValueQuoted .double => "AttributeValueDoubleQuoted"
  | .attributeValueQuoted .single => "AttributeValueSingleQuoted"
  | .attributeValueUnquoted => "AttributeValueUnquoted"
  | .afterAttributeValueQuoted => "AfterAttributeValueQuoted"
  | .selfClosingStartTag => "SelfClosingStartTag"
  | .bogusComment => "BogusComment"
  | .markupDeclarationOpen => "MarkupDeclarationOpen"
  | .commentStart => "CommentStart"
  | .commentStartDash => "CommentStartDash"
  | .comment => "Comment"
  | .commentLessThanSign => "CommentLessThanSign"
  | .commentLessThanSignBang => "CommentLessThanSignBang"
  | .commentLessThanSignBangDash => "CommentLessThanSignBangDash"
  | .commentLessThanSignBangDashDash => "CommentLessThanSignBangDashDash"
  | .commentEndDash => "CommentEndDash"
  | .commentEnd => "CommentEnd"
  | .commentEndBang => "CommentEndBang"
  | .doctype => "DOCTYPE"
  | .beforeDoctypeName => "BeforeDOCTYPEName"
  | .doctypeName => "DOCTYPEName"
  | .afterDoctypeName => "AfterDOCTYPEName"
  | .afterDoctypeKeyword .publicId => "AfterDOCTYPEPublicKeyword"
  | .afterDoctypeKeyword .systemId => "AfterDOCTYPESystemKeyword"
  | .beforeDoctypeIdentifier .publicId => "BeforeDOCTYPEPublicIdentifier"
  | .beforeDoctypeIdentifier .systemId => "BeforeDOCTYPESystemIdentifier"
  | .doctypeIdentifier .publicId .double => "DOCTYPEPublicIdentifierDoubleQuoted"
  | .doctypeIdentifier .publicId .single => "DOCTYPEPublicIdentifierSingleQuoted"
  | .doctypeIdentifier .systemId .double => "DOCTYPESystemIdentifierDoubleQuoted"
  | .doctypeIdentifier .systemId .single => "DOCTYPESystemIdentifierSingleQuoted"
  | .afterDoctypeIdentifier .publicId => "AfterDOCTYPEPublicIdentifier"
  | .afterDoctypeIdentifier .systemId => "AfterDOCTYPESystemIdentifier"
  | .betweenDoctypeIdentifiers => "BetweenDOCTYPEPublicAndSystemIdentifiers"
  | .bogusDoctype => "BogusDOCTYPE"
  | .cdataSection => "CDATASection"
  | .cdataSectionBracket => "CDATASectionBracket"
  | .cdataSectionEnd => "CDATASectionEnd"
  | .characterReference => "CharacterReference"
  | .namedCharacterReference => "NamedCharacterReference"
  | .ambiguousAmpersand => "AmbiguousAmpersand"
  | .numericCharacterReference => "NumericCharacterReference"
  | .numericReferenceStart .decimal => "DecimalCharacterReferenceStart"
  | .numericReferenceStart .hexadecimal => "HexadecimalCharacterReferenceStart"
  | .numericReferenceDigits .decimal => "DecimalCharacterReference"
  | .numericReferenceDigits .hexadecimal => "HexadecimalCharacterReference"
  | .numericReferenceEnd => "NumericCharacterReferenceEnd"

/-- All states. -/
def all : List State :=
  [.data, .plaintext, .text .rcdata, .text .rawtext, .text .scriptData, .text .scriptDataEscaped,
   .textLessThanSign .rcdata, .textLessThanSign .rawtext, .textLessThanSign .scriptData,
   .textLessThanSign .scriptDataEscaped, .textEndTagOpen .rcdata, .textEndTagOpen .rawtext,
   .textEndTagOpen .scriptData, .textEndTagOpen .scriptDataEscaped, .textEndTagName .rcdata,
   .textEndTagName .rawtext, .textEndTagName .scriptData, .textEndTagName .scriptDataEscaped,
   .tagOpen, .endTagOpen, .tagName, .scriptDataEscapeStart, .scriptDataEscapeStartDash,
   .scriptDataEscapedDash, .scriptDataEscapedDashDash, .scriptDataDoubleEscapeStart,
   .scriptDataDoubleEscaped, .scriptDataDoubleEscapedDash, .scriptDataDoubleEscapedDashDash,
   .scriptDataDoubleEscapedLessThanSign, .scriptDataDoubleEscapeEnd, .beforeAttributeName,
   .attributeName, .afterAttributeName, .beforeAttributeValue, .attributeValueQuoted .double,
   .attributeValueQuoted .single, .attributeValueUnquoted, .afterAttributeValueQuoted,
   .selfClosingStartTag, .bogusComment, .markupDeclarationOpen, .commentStart, .commentStartDash,
   .comment, .commentLessThanSign, .commentLessThanSignBang, .commentLessThanSignBangDash,
   .commentLessThanSignBangDashDash, .commentEndDash, .commentEnd, .commentEndBang, .doctype,
   .beforeDoctypeName, .doctypeName, .afterDoctypeName, .afterDoctypeKeyword .publicId,
   .afterDoctypeKeyword .systemId, .beforeDoctypeIdentifier .publicId,
   .beforeDoctypeIdentifier .systemId, .doctypeIdentifier .publicId .double,
   .doctypeIdentifier .publicId .single, .doctypeIdentifier .systemId .double,
   .doctypeIdentifier .systemId .single, .afterDoctypeIdentifier .publicId,
   .afterDoctypeIdentifier .systemId, .betweenDoctypeIdentifiers, .bogusDoctype, .cdataSection,
   .cdataSectionBracket, .cdataSectionEnd, .characterReference, .namedCharacterReference,
   .ambiguousAmpersand, .numericCharacterReference, .numericReferenceStart .decimal,
   .numericReferenceStart .hexadecimal, .numericReferenceDigits .decimal,
   .numericReferenceDigits .hexadecimal, .numericReferenceEnd]

/-- The state of this name. -/
def ofName? (name : String) : Option State :=
  all.find? fun state => state.name == name

end State

end Tokenizer

end Hypertext
