import Hypertext.Foreign
import Hypertext.TreeBuilder.Insertion
import Hypertext.TreeBuilder.Outcome

/-!
# Rules in foreign content

Inside SVG and MathML tags open elements of the same namespace, until a tag that only HTML has.
-/

namespace Hypertext.TreeBuilder

/-- Whether the current node is a foreign element. -/
def isForeign (b : TreeBuilder) : Bool := b.currentElement?.any fun e => e.ns ≠ .html

/-- Whether a foreign element as the current node leaves the token to the rules of the mode. -/
def admitsHtml (e : Element) (token : Token) : Bool :=
  match token with
  | .startTag tag =>
    (Foreign.isTextIntegrationPoint e && tag.name != "mglyph" && tag.name != "malignmark")
      || (e.ns = .mathml && e.tagName == "annotation-xml" && tag.name == "svg")
      || Foreign.isHtmlIntegrationPoint e
  | .character _ => Foreign.isHtmlIntegrationPoint e || Foreign.isTextIntegrationPoint e
  | .endOfFile => true
  | _ => false

/-- Whether a token is processed by the rules of the mode. -/
def usesMode (b : TreeBuilder) (token : Token) : Bool :=
  match b.currentElement? with
  | none => true
  | some e => e.ns = .html || admitsHtml e token

/-- Whether a start tag is one of HTML only. -/
def breaksOut (tag : Tag) : Bool :=
  Category.breakout.contains tag.name
    || (tag.name == "font"
      && ["color", "face", "size"].any fun name => (tag.attribute? name).isSome)

/-- Closes foreign elements up to one that admits HTML, and leaves the token to the mode. -/
def breakOut (b : TreeBuilder) (token : Token) : Outcome :=
  let b := b.report token.unexpected
  let stays (e : Element) : Bool :=
    e.ns = .html || Foreign.isTextIntegrationPoint e || Foreign.isHtmlIntegrationPoint e
  (b.popWhile fun id => (b.tree.element? id).any fun e => !stays e).byMode token

def foreignStart (b : TreeBuilder) (tag : Tag) : TreeBuilder :=
  let ns := (b.currentElement?.map (·.ns)).getD .html
  b.insertForeign tag (Foreign.adjustTagName ns tag.name)
    (Foreign.adjustAttributes ns tag.attributes) ns

/-- Whether the name of an element is `name` in lower case. -/
def hasLowerName (b : TreeBuilder) (name : String) (id : NodeId) : Bool :=
  (b.tree.element? id).any fun e => e.tagName.toLower == name

/-- What an end tag in foreign content does: it closes the nearest element of its name, or is left
to the mode if an HTML element is nearer. The outermost element is never closed. -/
inductive ForeignEnd where
  | close (depth : Nat)
  | byMode
  | ignore

/-- Looks for the element to close from the one at this depth on. -/
def foreignEndTarget? (b : TreeBuilder) (name : String) : (depth : Nat) → Option ForeignEnd
  | 0 => some .ignore
  | depth + 1 => do
    let id ← b.openAt? (depth + 1)
    if b.hasLowerName name id then return .close (depth + 1)
    else
      let parent ← b.openAt? depth
      if (b.tree.element? parent).any fun e => e.ns = .html then return .byMode
      else foreignEndTarget? b name depth

def foreignEndAt? (b : TreeBuilder) (tag : Tag) (depth : Nat) : Option Outcome := do
  let current ← b.openAt? depth
  let b := b.reportIf (!b.hasLowerName tag.name current) .unexpectedEndTag
  match ← b.foreignEndTarget? tag.name depth with
  | .close depth => return (b.truncate depth).done
  | .byMode => return b.byMode (.endTag tag)
  | .ignore => return b.done

def foreignEnd (b : TreeBuilder) (tag : Tag) : Outcome :=
  match Indexed.before? b.openElements.length with
  | none => b.done
  | some depth => (b.foreignEndAt? tag depth).getD { b with fault := true }.done

def foreignContent (b : TreeBuilder) (token : Token) : Outcome :=
  match token with
  | .character c =>
    if c = '\x00' then ((b.report .unexpectedNullCharacter).insertChar '\uFFFD').done
    else if isSpace c then (b.insertChar c).done
    else (b.insertChar c).framesetNotOk.done
  | .comment data => (b.insertComment data).done
  | .doctype _ => b.refuse .unexpectedDoctype
  | .startTag tag => if breaksOut tag then b.breakOut token else (b.foreignStart tag).done
  | .endTag tag =>
    if tag.name = "br" ∨ tag.name = "p" then b.breakOut token
    else if tag.name = "script"
        ∧ b.currentElement?.any fun e => e.ns = .svg && e.tagName == "script" then b.pop.done
    else b.foreignEnd tag
  | .endOfFile => b.byMode token

end Hypertext.TreeBuilder
