import Hypertext.Cursor
import Hypertext.ParseError
import Hypertext.Token
import Hypertext.Tokenizer.State

/-!
# The tokenizer and its elementary moves

A `Tokenizer` reads its input one character at a time. Finished tokens wait in a queue, because some
states finish several at once. The moves below are what the rules of the states are made of.
-/

namespace Hypertext

structure Tokenizer where
  input : Cursor
  state : Tokenizer.State := .data
  /-- Where a character reference goes back to. -/
  returnState : Option Tokenizer.State := none
  /-- The token under construction. -/
  current : Option Token := none
  /-- Position of the `<` that opened the token under construction. -/
  tokenStart : Position := .start
  /-- Finished tokens that have not been handed out, the oldest first. -/
  pending : List PositionedToken := []
  /-- Whether the end of the input has been put in the queue. -/
  ended : Bool := false
  /-- Name of the start tag finished last; it decides which end tag leaves raw text. -/
  lastStartTag : Option String := none
  /-- Characters that may turn out to be text. -/
  buffer : List Char := []
  /-- Value of the numeric reference being read. -/
  code : Nat := 0
  /-- Whether the last attribute repeats an earlier name, and so will be dropped. -/
  duplicate : Bool := false
  /-- Whether the tree is being built inside foreign content. -/
  foreign : Bool := false
  errors : ErrorLog := {}
  /-- The first edit, if any, that did not fit the token under construction. -/
  fault : Option Misuse := none

namespace Tokenizer

/-- A tokenizer at the start of `text`, in the data state. -/
def ofString (text : String) : Tokenizer := { input := .ofString text }

/-! ## States -/

def switchTo (t : Tokenizer) (s : State) : Tokenizer := { t with state := s }

/-- Pushes back the current character, for the state `s` to read it again. -/
def reconsumeIn (t : Tokenizer) (s : State) : Tokenizer :=
  { t with input := t.input.pushBack, state := s }

/-- Goes back to where the character reference began; to text, if that was not recorded. -/
def switchToReturn (t : Tokenizer) : Tokenizer :=
  { t with state := t.returnState.getD .data, returnState := none }

def reconsumeInReturn (t : Tokenizer) : Tokenizer :=
  { t with input := t.input.pushBack }.switchToReturn

/-- Begins a character reference that will come back to the state `s`. -/
def enterReference (t : Tokenizer) (s : State) : Tokenizer :=
  { t with returnState := some s, state := .characterReference }

/-- Takes the current character as the `<` of a token. -/
def markStart (t : Tokenizer) : Tokenizer := { t with tokenStart := t.input.position }

/-! ## Errors -/

/-- Records an error at the current character. -/
def report (t : Tokenizer) (kind : ErrorKind) : Tokenizer :=
  { t with errors := t.errors.record kind t.input.position }

/-- The error of a character that should not be in any input. -/
def inputError? (c : Char) : Option ErrorKind :=
  if Ascii.isNoncharacter c.toNat then some .noncharacterInInputStream
  else if Ascii.isControl c.toNat && !Ascii.isBlank c && c != '\x00' then
    some .controlCharacterInInputStream
  else none

/-- Reads the next character, and reports it if it is bad and had not been read before. -/
def consume (t : Tokenizer) : Tokenizer :=
  let next := { t with input := t.input.advance }
  match t.input.peek with
  | none => next
  | some c =>
    match inputError? c with
    | some kind => if next.input.fresh then next.report kind else next
    | none => next

/-! ## Finished tokens -/

def enqueue (t : Tokenizer) (token : Token) (position : Position) : Tokenizer :=
  { t with pending := t.pending ++ [⟨token, position⟩] }

/-- Finishes a character token at the current position. -/
def emitChar (t : Tokenizer) (c : Char) : Tokenizer :=
  t.enqueue (.character c) t.input.position

def emitChars (t : Tokenizer) (cs : List Char) : Tokenizer := cs.foldl emitChar t

/-- Finishes the input. -/
def emitEnd (t : Tokenizer) : Tokenizer :=
  { t with ended := true }.enqueue .endOfFile t.input.position

/-! ## The token under construction -/

/-- Applies an edit to the token under construction, if there is one. -/
def edit (t : Tokenizer) (e : Edit) : Tokenizer :=
  match t.current with
  | none => t
  | some token =>
    match token.edit e with
    | .ok token' => { t with current := some token' }
    | .error misuse => { t with fault := t.fault.or (some misuse) }

def editTag (t : Tokenizer) (e : TagEdit) : Tokenizer := t.edit (.tag e)

def editComment (t : Tokenizer) (e : CommentEdit) : Tokenizer := t.edit (.comment e)

/-- The document type under construction, a new one if there is none. -/
def currentDoctype (t : Tokenizer) : Doctype :=
  match t.current with
  | some (.doctype d) => d
  | _ => {}

def begin (t : Tokenizer) (token : Token) : Tokenizer := { t with current := some token }

def editDoctype (t : Tokenizer) (e : DoctypeEdit) : Tokenizer :=
  (t.begin (.doctype t.currentDoctype)).edit (.doctype e)

/-- Removes an attribute that repeats an earlier name. It stays on the tag until its value has been
read, so that the value goes to no other attribute. -/
def dropDuplicate (t : Tokenizer) : Tokenizer :=
  if t.duplicate then { t with duplicate := false }.editTag .dropAttribute else t

def newAttribute (t : Tokenizer) : Tokenizer := t.dropDuplicate.editTag .newAttribute

/-- Notes whether the attribute whose name is complete repeats an earlier one. -/
def checkDuplicate (t : Tokenizer) : Tokenizer :=
  match t.current with
  | some token =>
    if token.lastAttributeIsDuplicate then
      { t.report .duplicateAttribute with duplicate := true }
    else t
  | none => t

/-- Whether the end tag under construction has the name of the last start tag. -/
def isAppropriateEndTag (t : Tokenizer) : Bool :=
  match t.lastStartTag, t.current with
  | some last, some (.endTag tag) => tag.name == last
  | _, _ => false

/-- Puts the token under construction in the queue. A start tag is remembered by its name; an end
tag is reduced to its name, with an error for what it carries besides. -/
def emitCurrent (t : Tokenizer) : Tokenizer :=
  let t := t.dropDuplicate
  match t.current with
  | none => t
  | some token =>
    let t := { t with current := none }
    match token with
    | .startTag tag => { t with lastStartTag := some tag.name }.enqueue token t.tokenStart
    | .endTag tag =>
      let t := if tag.attributes.isEmpty then t else t.report .endTagWithAttributes
      let t := if tag.selfClosing then t.report .endTagWithTrailingSolidus else t
      t.enqueue (.endTag { name := tag.name }) t.tokenStart
    | _ => t.enqueue token t.tokenStart

/-- Finishes the token under construction and goes back to text. -/
def finish (t : Tokenizer) : Tokenizer := (t.switchTo .data).emitCurrent

end Tokenizer

end Hypertext
