import Hypertext.Tokenizer.Basic

/-!
# Document type states
-/

namespace Hypertext.Tokenizer

/-- The input ends inside a document type declaration. -/
def endInDoctype (t : Tokenizer) : Tokenizer :=
  ((t.report .eofInDoctype).editDoctype .forceQuirks).emitCurrent.emitEnd

/-! ## The name -/

def doctype (t : Tokenizer) : Option Char → Tokenizer
  | none => t.endInDoctype
  | some c =>
    if Ascii.isBlank c then t.switchTo .beforeDoctypeName
    else if c = '>' then t.reconsumeIn .beforeDoctypeName
    else (t.report .missingWhitespaceBeforeDoctypeName).reconsumeIn .beforeDoctypeName

/-- Begins a declaration with the first character of its name. -/
def beginDoctype (t : Tokenizer) (c : Char) : Tokenizer :=
  (t.begin (.doctype (Doctype.edit {} (.name c)))).switchTo .doctypeName

def beforeDoctypeName (t : Tokenizer) : Option Char → Tokenizer
  | none => t.endInDoctype
  | some c =>
    if Ascii.isBlank c then t
    else if c = '\x00' then (t.report .unexpectedNullCharacter).beginDoctype '\uFFFD'
    else if c = '>' then
      ((t.report .missingDoctypeName).begin (.doctype { forceQuirks := true })).finish
    else t.beginDoctype c.toLower

def doctypeName (t : Tokenizer) : Option Char → Tokenizer
  | none => t.endInDoctype
  | some c =>
    if Ascii.isBlank c then t.switchTo .afterDoctypeName
    else if c = '>' then t.finish
    else if c = '\x00' then (t.report .unexpectedNullCharacter).editDoctype (.name '\uFFFD')
    else t.editDoctype (.name c.toLower)

def publicKeyword : List Char := ['p', 'u', 'b', 'l', 'i', 'c']

def systemKeyword : List Char := ['s', 'y', 's', 't', 'e', 'm']

def afterDoctypeName (t : Tokenizer) : Option Char → Tokenizer
  | none => t.endInDoctype
  | some c =>
    if Ascii.isBlank c then t
    else if c = '>' then t.finish
    else
      let t := { t with input := t.input.pushBack }
      if t.input.startsWithIgnoringCase publicKeyword then
        { t with input := t.input.skip publicKeyword }.switchTo (.afterDoctypeKeyword .publicId)
      else if t.input.startsWithIgnoringCase systemKeyword then
        { t with input := t.input.skip systemKeyword }.switchTo (.afterDoctypeKeyword .systemId)
      else
        ((t.report .invalidCharacterSequenceAfterDoctypeName).editDoctype .forceQuirks).switchTo
          .bogusDoctype

/-! ## Identifiers -/

/-- The quote that a character opens. -/
def quote? (c : Char) : Option Quote :=
  if c = '\x22' then some .double else if c = '\x27' then some .single else none

def emptyIdentifier : Identifier → DoctypeEdit
  | .publicId => .publicIdEmpty
  | .systemId => .systemIdEmpty

def extendIdentifier (c : Char) : Identifier → DoctypeEdit
  | .publicId => .publicId c
  | .systemId => .systemId c

def beginIdentifier (t : Tokenizer) (which : Identifier) (quote : Quote) : Tokenizer :=
  (t.editDoctype (emptyIdentifier which)).switchTo (.doctypeIdentifier which quote)

def missingIdentifier (t : Tokenizer) (which : Identifier) : Tokenizer :=
  let kind : ErrorKind := match which with
    | .publicId => .missingDoctypePublicIdentifier
    | .systemId => .missingDoctypeSystemIdentifier
  ((t.report kind).editDoctype .forceQuirks).finish

def missingQuote (t : Tokenizer) (which : Identifier) : Tokenizer :=
  let kind : ErrorKind := match which with
    | .publicId => .missingQuoteBeforeDoctypePublicIdentifier
    | .systemId => .missingQuoteBeforeDoctypeSystemIdentifier
  ((t.report kind).editDoctype .forceQuirks).reconsumeIn .bogusDoctype

def afterDoctypeKeyword (t : Tokenizer) (which : Identifier) : Option Char → Tokenizer
  | none => t.endInDoctype
  | some c =>
    if Ascii.isBlank c then t.switchTo (.beforeDoctypeIdentifier which)
    else if c = '>' then t.missingIdentifier which
    else
      match quote? c with
      | some quote =>
        let kind : ErrorKind := match which with
          | .publicId => .missingWhitespaceAfterDoctypePublicKeyword
          | .systemId => .missingWhitespaceAfterDoctypeSystemKeyword
        (t.report kind).beginIdentifier which quote
      | none => t.missingQuote which

def beforeDoctypeIdentifier (t : Tokenizer) (which : Identifier) : Option Char → Tokenizer
  | none => t.endInDoctype
  | some c =>
    if Ascii.isBlank c then t
    else if c = '>' then t.missingIdentifier which
    else
      match quote? c with
      | some quote => t.beginIdentifier which quote
      | none => t.missingQuote which

def doctypeIdentifier (t : Tokenizer) (which : Identifier) (quote : Quote) :
    Option Char → Tokenizer
  | none => t.endInDoctype
  | some c =>
    if c = quote.char then t.switchTo (.afterDoctypeIdentifier which)
    else if c = '\x00' then
      (t.report .unexpectedNullCharacter).editDoctype (extendIdentifier '\uFFFD' which)
    else if c = '>' then
      let kind : ErrorKind := match which with
        | .publicId => .abruptDoctypePublicIdentifier
        | .systemId => .abruptDoctypeSystemIdentifier
      ((t.report kind).editDoctype .forceQuirks).finish
    else t.editDoctype (extendIdentifier c which)

def afterPublicIdentifier (t : Tokenizer) : Option Char → Tokenizer
  | none => t.endInDoctype
  | some c =>
    if Ascii.isBlank c then t.switchTo .betweenDoctypeIdentifiers
    else if c = '>' then t.finish
    else
      match quote? c with
      | some quote =>
        (t.report .missingWhitespaceBetweenDoctypePublicAndSystemIdentifiers).beginIdentifier
          .systemId quote
      | none => t.missingQuote .systemId

def betweenDoctypeIdentifiers (t : Tokenizer) : Option Char → Tokenizer
  | none => t.endInDoctype
  | some c =>
    if Ascii.isBlank c then t
    else if c = '>' then t.finish
    else
      match quote? c with
      | some quote => t.beginIdentifier .systemId quote
      | none => t.missingQuote .systemId

def afterSystemIdentifier (t : Tokenizer) : Option Char → Tokenizer
  | none => t.endInDoctype
  | some c =>
    if Ascii.isBlank c then t
    else if c = '>' then t.finish
    else (t.report .unexpectedCharacterAfterDoctypeSystemIdentifier).reconsumeIn .bogusDoctype

/-- Skips what cannot be part of the declaration. -/
def bogusDoctype (t : Tokenizer) : Option Char → Tokenizer
  | none => t.emitCurrent.emitEnd
  | some c =>
    if c = '>' then t.finish
    else if c = '\x00' then t.report .unexpectedNullCharacter
    else t

end Hypertext.Tokenizer
