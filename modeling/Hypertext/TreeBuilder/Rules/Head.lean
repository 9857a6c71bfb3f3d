import Hypertext.TreeBuilder.DocumentMode
import Hypertext.TreeBuilder.Rules.Template

/-!
# Rules up to the body

The modes before the first element, in the head and after it, and the mode for raw text.
-/

namespace Hypertext.TreeBuilder

/-! ## Rules that other modes share -/

/-- A second `html` start tag: its attributes go to the outermost element. -/
def repeatedHtml (b : TreeBuilder) (tag : Tag) : TreeBuilder :=
  let b := b.report .unexpectedStartTag
  if b.isOpen "template" then b
  else
    match b.openAt? 0 with
    | some html => b.mergeAttributes html tag.attributes
    | none => b

/-- A start tag of one of the elements that belong into the head. -/
def startHeadContent (b : TreeBuilder) (tag : Tag) : TreeBuilder :=
  if tag.name = "title" then b.insertRawText tag .rcdata
  else if tag.name = "noframes" ∨ tag.name = "style" then b.insertRawText tag .rawtext
  else if tag.name = "script" then b.insertRawText tag .scriptData
  else if tag.name = "template" then b.startTemplate tag
  else b.insertVoid tag

/-! ## Before the document element -/

/-- Makes the node of a document type declaration and sets the mode of the document. -/
def insertDoctype (b : TreeBuilder) (d : Doctype) : TreeBuilder :=
  let b := b.reportIf (!d.isConforming) .nonConformingDoctype
  b.attempt do
    let (id, tree) := b.tree.alloc
      (.doctype (d.name.getD "") (d.publicId.getD "") (d.systemId.getD ""))
    let tree ← tree.appendChild? Tree.root id
    return { b with tree := if b.srcdoc then tree else tree.setMode d.documentMode }

def initial (b : TreeBuilder) (token : Token) : Outcome :=
  let otherwise : Outcome :=
    let b := if b.srcdoc then b
      else
        let b := b.report .missingDoctype
        { b with tree := b.tree.setMode .quirks }
    (b.switchTo .beforeHtml).reprocess token
  match token with
  | .character c => if isSpace c then b.done else otherwise
  | .comment data => (b.insertCommentIn Tree.root data).done
  | .doctype d => ((b.insertDoctype d).switchTo .beforeHtml).done
  | _ => otherwise

/-- End tags that make the elements they would close, where other end tags are ignored. -/
def isImplyingEnd (name : String) : Bool := ["head", "body", "html", "br"].contains name

def beforeHtml (b : TreeBuilder) (token : Token) : Outcome :=
  let otherwise : Outcome := ((b.insertRoot []).switchTo .beforeHead).reprocess token
  match token with
  | .doctype _ => b.refuse .unexpectedDoctype
  | .comment data => (b.insertCommentIn Tree.root data).done
  | .character c => if isSpace c then b.done else otherwise
  | .startTag tag =>
    if tag.name = "html" then ((b.insertRoot tag.attributes).switchTo .beforeHead).done
    else otherwise
  | .endTag tag => if isImplyingEnd tag.name then otherwise else b.refuse .unexpectedEndTag
  | .endOfFile => otherwise

/-! ## The head -/

/-- Opens the head element and remembers it. -/
def startHead (b : TreeBuilder) (attributes : List Attribute) : TreeBuilder :=
  let b := b.insertElement "head" attributes .html
  { b with headElement := b.currentNode?, mode := .inHead }

def beforeHead (b : TreeBuilder) (token : Token) : Outcome :=
  let otherwise : Outcome := (b.startHead []).reprocess token
  match token with
  | .character c => if isSpace c then b.done else otherwise
  | .comment data => (b.insertComment data).done
  | .doctype _ => b.refuse .unexpectedDoctype
  | .startTag tag =>
    if tag.name = "html" then (b.repeatedHtml tag).done
    else if tag.name = "head" then (b.startHead tag.attributes).done
    else otherwise
  | .endTag tag => if isImplyingEnd tag.name then otherwise else b.refuse .unexpectedEndTag
  | .endOfFile => otherwise

def inHead (b : TreeBuilder) (token : Token) : Outcome :=
  let otherwise : Outcome := (b.pop.switchTo .afterHead).reprocess token
  match token with
  | .character c => if isSpace c then (b.insertChar c).done else otherwise
  | .comment data => (b.insertComment data).done
  | .doctype _ => b.refuse .unexpectedDoctype
  | .startTag tag =>
    if tag.name = "html" then (b.repeatedHtml tag).done
    else if Category.headContent.contains tag.name then (b.startHeadContent tag).done
    else if tag.name = "noscript" then
      if b.scripting then (b.insertRawText tag .rawtext).done
      else ((b.insertHtml tag).switchTo .inHeadNoscript).done
    else if tag.name = "head" then b.refuse .unexpectedStartTag
    else otherwise
  | .endTag tag =>
    if tag.name = "head" then (b.pop.switchTo .afterHead).done
    else if ["body", "html", "br"].contains tag.name then otherwise
    else if tag.name = "template" then b.endTemplate.done
    else b.refuse .unexpectedEndTag
  | .endOfFile => otherwise

/-- Content of the head that is allowed in a `noscript` element there. -/
def isNoscriptContent (name : String) : Bool :=
  ["basefont", "bgsound", "link", "meta", "noframes", "style"].contains name

def inHeadNoscript (b : TreeBuilder) (token : Token) : Outcome :=
  let otherwise (kind : ErrorKind) : Outcome :=
    ((b.report kind).pop.switchTo .inHead).reprocess token
  match token with
  | .doctype _ => b.refuse .unexpectedDoctype
  | .character c => if isSpace c then (b.insertChar c).done else otherwise .unexpectedText
  | .comment data => (b.insertComment data).done
  | .startTag tag =>
    if tag.name = "html" then (b.repeatedHtml tag).done
    else if isNoscriptContent tag.name then (b.startHeadContent tag).done
    else if tag.name = "head" ∨ tag.name = "noscript" then b.refuse .unexpectedStartTag
    else otherwise .unexpectedStartTag
  | .endTag tag =>
    if tag.name = "noscript" then (b.pop.switchTo .inHead).done
    else if tag.name = "br" then otherwise .unexpectedText
    else b.refuse .unexpectedEndTag
  | .endOfFile => otherwise .unexpectedText

/-- Content of the head that comes after it: the head is open while the content is inserted. -/
def lateHeadContent (b : TreeBuilder) (tag : Tag) : TreeBuilder :=
  let b := b.report .unexpectedStartTag
  match b.headElement with
  | none => b.startHeadContent tag
  | some head => ((b.push head).startHeadContent tag).removeOpen head

def afterHead (b : TreeBuilder) (token : Token) : Outcome :=
  let otherwise : Outcome := ((b.insertNamed "body").switchTo .inBody).reprocess token
  match token with
  | .character c => if isSpace c then (b.insertChar c).done else otherwise
  | .comment data => (b.insertComment data).done
  | .doctype _ => b.refuse .unexpectedDoctype
  | .startTag tag =>
    if tag.name = "html" then (b.repeatedHtml tag).done
    else if tag.name = "body" then ((b.insertHtml tag).framesetNotOk.switchTo .inBody).done
    else if tag.name = "frameset" then ((b.insertHtml tag).switchTo .inFrameset).done
    else if Category.headContent.contains tag.name then (b.lateHeadContent tag).done
    else if tag.name = "head" then b.refuse .unexpectedStartTag
    else otherwise
  | .endTag tag =>
    if tag.name = "template" then b.endTemplate.done
    else if ["body", "html", "br"].contains tag.name then otherwise
    else b.refuse .unexpectedEndTag
  | .endOfFile => otherwise

/-! ## Raw text -/

def rawText (b : TreeBuilder) (token : Token) : Outcome :=
  match token with
  | .character c => (b.insertChar c).done
  | .endOfFile => ((b.report .eofWithOpenElements).pop.resume).reprocess token
  | .endTag _ => b.pop.resume.done
  | .startTag _ | .comment _ | .doctype _ => b.done

end Hypertext.TreeBuilder
