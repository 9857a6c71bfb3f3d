import Hypertext.Position

/-!
# Tokens

The tokenizer's output: document type declarations, tags, comments, characters and the end of the
input. A token is built by a series of `Edit`s; an edit that does not fit the token it is given to
is a `Misuse`.
-/

namespace Hypertext

structure Attribute where
  name : String := ""
  value : String := ""
deriving DecidableEq

/-- A document type declaration. A missing part differs from an empty one. -/
structure Doctype where
  name : Option String := none
  publicId : Option String := none
  systemId : Option String := none
  forceQuirks : Bool := false
deriving DecidableEq

/-- A start or an end tag. Attributes are in source order, the current one last. -/
structure Tag where
  name : String := ""
  selfClosing : Bool := false
  attributes : List Attribute := []
deriving DecidableEq

inductive Token where
  | doctype (doctype : Doctype)
  | startTag (tag : Tag)
  | endTag (tag : Tag)
  | comment (data : String)
  | character (char : Char)
  | endOfFile
deriving DecidableEq

/-- A token and the position of the input it came from. -/
structure PositionedToken where
  token : Token
  position : Position
deriving DecidableEq

/-- Applies `f` to the last item. -/
def onLast {α : Type} (f : α → α) : List α → List α
  | [] => []
  | [a] => [f a]
  | a :: b :: rest => a :: onLast f (b :: rest)

namespace Attribute

def display (a : Attribute) : String := " " ++ a.name ++ "=\"" ++ a.value ++ "\""

end Attribute

/-! ## Edits -/

/-- Changes to a document type declaration. -/
inductive DoctypeEdit where
  | name (c : Char)
  | publicIdEmpty
  | publicId (c : Char)
  | systemIdEmpty
  | systemId (c : Char)
  | forceQuirks
deriving DecidableEq

/-- Changes to a tag. The attribute that is meant is the last one. -/
inductive TagEdit where
  | name (c : Char)
  | selfClosing
  | newAttribute
  | attributeName (c : Char)
  | attributeValue (c : Char)
  | dropAttribute
deriving DecidableEq

/-- Additions to a comment. -/
inductive CommentEdit where
  | char (c : Char)
  | text (s : String)
deriving DecidableEq

/-- A change to a token under construction. -/
inductive Edit where
  | doctype (edit : DoctypeEdit)
  | tag (edit : TagEdit)
  | comment (edit : CommentEdit)
deriving DecidableEq

/-- A character added to a part that may be missing makes it present. -/
def pushTo (part : Option String) (c : Char) : Option String :=
  some ((part.getD "").push c)

def Doctype.edit (d : Doctype) : DoctypeEdit → Doctype
  | .name c => { d with name := pushTo d.name c }
  | .publicIdEmpty => { d with publicId := some "" }
  | .publicId c => { d with publicId := pushTo d.publicId c }
  | .systemIdEmpty => { d with systemId := some "" }
  | .systemId c => { d with systemId := pushTo d.systemId c }
  | .forceQuirks => { d with forceQuirks := true }

namespace Tag

/-- On a tag without attributes the edits of the current attribute change nothing. -/
def edit (t : Tag) : TagEdit → Tag
  | .name c => { t with name := t.name.push c }
  | .selfClosing => { t with selfClosing := true }
  | .newAttribute => { t with attributes := t.attributes ++ [{}] }
  | .attributeName c =>
    { t with attributes := onLast (fun a => { a with name := a.name.push c }) t.attributes }
  | .attributeValue c =>
    { t with attributes := onLast (fun a => { a with value := a.value.push c }) t.attributes }
  | .dropAttribute => { t with attributes := t.attributes.dropLast }

/-- Value of the first attribute of this name. -/
def attribute? (t : Tag) (name : String) : Option String :=
  (t.attributes.find? fun a => a.name == name).map (·.value)

/-- Whether an earlier attribute has the name of the last one. -/
def lastIsDuplicate (t : Tag) : Bool :=
  match t.attributes.getLast? with
  | none => false
  | some last => t.attributes.dropLast.any fun a => a.name == last.name

end Tag

def editComment (data : String) : CommentEdit → String
  | .char c => data.push c
  | .text s => data ++ s

/-- An edit that was tried on a token of another kind. -/
structure Misuse where
  edit : Edit
deriving DecidableEq

namespace Edit

/-- The name under which a misuse of the edit is reported. -/
def operation : Edit → String
  | .doctype (.name _) => "append_to_doctype_name"
  | .doctype .publicIdEmpty => "set_public_identifier_empty"
  | .doctype (.publicId _) => "append_to_public_identifier"
  | .doctype .systemIdEmpty => "set_system_identifier_empty"
  | .doctype (.systemId _) => "append_to_system_identifier"
  | .doctype .forceQuirks => "set_force_quirks"
  | .tag (.name _) => "append_to_tag_name"
  | .tag .selfClosing => "set_self_closing"
  | .tag .newAttribute => "start_new_attribute"
  | .tag (.attributeName _) => "append_to_current_attribute_name"
  | .tag (.attributeValue _) => "append_to_current_attribute_value"
  | .tag .dropAttribute => "remove_current_attribute"
  | .comment (.char _) => "append_to_comment"
  | .comment (.text _) => "append_str_to_comment"

/-- The kind of token an edit is for. -/
def subject : Edit → String
  | .doctype _ => "DOCTYPE"
  | .tag _ => "tag"
  | .comment _ => "comment"

end Edit

def Misuse.message (m : Misuse) : String :=
  m.edit.operation ++ " called on non-" ++ m.edit.subject ++ " token"

namespace Token

/-- Applies an edit to a token of the kind it is for. -/
def edit : Token → Edit → Except Misuse Token
  | .doctype d, .doctype e => .ok (.doctype (d.edit e))
  | .startTag t, .tag e => .ok (.startTag (t.edit e))
  | .endTag t, .tag e => .ok (.endTag (t.edit e))
  | .comment s, .comment e => .ok (.comment (editComment s e))
  | _, e => .error ⟨e⟩

/-! ## Questions -/

def isEndOfFile : Token → Bool
  | .endOfFile => true
  | _ => false

/-- Name of a start or end tag. -/
def tagName? : Token → Option String
  | .startTag t | .endTag t => some t.name
  | _ => none

/-- Value of an attribute of a start tag. -/
def attribute? (token : Token) (name : String) : Option String :=
  match token with
  | .startTag t => t.attribute? name
  | _ => none

def isStartTagOf (token : Token) (names : List String) : Bool :=
  match token with
  | .startTag t => names.contains t.name
  | _ => false

def isEndTagOf (token : Token) (names : List String) : Bool :=
  match token with
  | .endTag t => names.contains t.name
  | _ => false

/-- Whether the current attribute of a tag repeats the name of an earlier one. -/
def lastAttributeIsDuplicate : Token → Bool
  | .startTag t | .endTag t => t.lastIsDuplicate
  | _ => false

/-! ## Display -/

/-- A character in a trace: the blanks are named. -/
def displayChar (c : Char) : String :=
  if c = '\n' then "Character(\\n)"
  else if c = '\t' then "Character(\\t)"
  else if c = ' ' then "Character(SPACE)"
  else "Character(" ++ c.toString ++ ")"

def displayDoctype (d : Doctype) : String :=
  "DOCTYPE" ++ (d.name.map (" " ++ ·)).getD ""
    ++ (d.publicId.map fun s => " PUBLIC \"" ++ s ++ "\"").getD ""
    ++ (d.systemId.map fun s => " SYSTEM \"" ++ s ++ "\"").getD ""
    ++ (if d.forceQuirks then " (force-quirks)" else "")

/-- One line that shows a token in a trace. End tags show their name only. -/
def display : Token → String
  | .doctype d => displayDoctype d
  | .startTag t =>
    "<" ++ t.name ++ String.join (t.attributes.map Attribute.display)
      ++ (if t.selfClosing then " /" else "") ++ ">"
  | .endTag t => "</" ++ t.name ++ ">"
  | .comment s => "<!--" ++ s ++ "-->"
  | .character c => displayChar c
  | .endOfFile => "EOF"

end Token

end Hypertext
