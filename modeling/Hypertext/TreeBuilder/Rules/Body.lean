import Hypertext.Foreign
import Hypertext.TreeBuilder.Adoption
import Hypertext.TreeBuilder.Rules.Head

/-!
# Rules in the body

Tags are first sorted into the kinds that have a rule of their own.
-/

namespace Hypertext.TreeBuilder

/-! ## Text and the end of the input -/

def bodyChar (b : TreeBuilder) (c : Char) : TreeBuilder :=
  if c = '\x00' then b.report .unexpectedNullCharacter
  else if isSpace c then b.reconstruct.insertChar c
  else (b.reconstruct.insertChar c).framesetNotOk

/-- Whether an element is open that is not an HTML element with one of these names. -/
def hasOpenBesides (b : TreeBuilder) (names : List String) : Bool :=
  b.openElements.any fun id => !b.isHtmlOf names id

def bodyEndOfFile (b : TreeBuilder) : Outcome :=
  if b.templateModes.isEmpty then
    (b.reportIf (b.hasOpenBesides ["body", "html"]) .eofWithOpenElements).stop.done
  else b.endOfFileInTemplate

/-! ## Start tags -/

/-- The kinds of start tags in the body. -/
inductive BodyStart where
  | html
  | headContent
  | body
  | frameset
  | block
  | heading
  | preformatted
  | form
  | listItem
  | plaintext
  | button
  | anchor
  | nobr
  | formatting
  | marked
  | table
  | void
  | input
  | bareVoid
  | rule
  | image
  | textarea
  | xmp
  | iframe
  | noembed
  | noscript
  | select
  | option
  | rubyBase
  | rubyText
  | foreignRoot
  | misplaced
  | ordinary
deriving DecidableEq

def BodyStart.ofName (name : String) : BodyStart :=
  if name = "html" then .html
  else if Category.headContent.contains name then .headContent
  else if name = "body" then .body
  else if name = "frameset" then .frameset
  else if Category.blockStart.contains name then .block
  else if Category.headings.contains name then .heading
  else if ["pre", "listing"].contains name then .preformatted
  else if name = "form" then .form
  else if ["li", "dd", "dt"].contains name then .listItem
  else if name = "plaintext" then .plaintext
  else if name = "button" then .button
  else if name = "a" then .anchor
  else if name = "nobr" then .nobr
  else if Category.formatting.contains name then .formatting
  else if Category.markerElements.contains name then .marked
  else if name = "table" then .table
  else if ["area", "br", "embed", "img", "keygen", "wbr"].contains name then .void
  else if name = "input" then .input
  else if ["param", "source", "track"].contains name then .bareVoid
  else if name = "hr" then .rule
  else if name = "image" then .image
  else if name = "textarea" then .textarea
  else if name = "xmp" then .xmp
  else if name = "iframe" then .iframe
  else if name = "noembed" then .noembed
  else if name = "noscript" then .noscript
  else if name = "select" then .select
  else if ["optgroup", "option"].contains name then .option
  else if ["rb", "rtc"].contains name then .rubyBase
  else if ["rp", "rt"].contains name then .rubyText
  else if ["math", "svg"].contains name then .foreignRoot
  else if ["caption", "col", "colgroup", "frame", "head", "tbody", "td", "tfoot", "th", "thead",
      "tr"].contains name then .misplaced
  else .ordinary

/-- A second `body` start tag: its attributes go to the body. -/
def repeatedBody (b : TreeBuilder) (tag : Tag) : TreeBuilder :=
  let b := b.report .unexpectedStartTag
  match b.openAt? 1 with
  | none => b
  | some body =>
    if b.isHtml "body" body && !b.isOpen "template" then
      b.framesetNotOk.mergeAttributes body tag.attributes
    else b

/-- A frameset takes the place of a body that has no content yet. -/
def lateFrameset (b : TreeBuilder) (tag : Tag) : TreeBuilder :=
  let b := b.report .unexpectedStartTag
  match b.openAt? 1 with
  | none => b
  | some body =>
    if b.isHtml "body" body && b.framesetOk then
      b.attempt do
        let tree ← b.tree.detach? body
        return (({ b with tree }.truncate 1).insertHtml tag).switchTo .inFrameset
    else b

def startHeading (b : TreeBuilder) (tag : Tag) : TreeBuilder :=
  let b := b.closeOpenParagraph
  let b := if b.currentIsOf Category.headings then (b.report .unexpectedStartTag).pop else b
  b.insertHtml tag

/-- Forms are not nested, except that a template may hold one. -/
def startForm (b : TreeBuilder) (tag : Tag) : TreeBuilder :=
  let inTemplate := b.isOpen "template"
  if b.formElement.isSome && !inTemplate then b.report .unexpectedStartTag
  else
    let b := b.closeOpenParagraph.insertHtml tag
    if inTemplate then b else { b with formElement := b.currentNode? }

/-- The open list item that a new one ends: the nearest of these names, if no special element stands
between. -/
def listItemToClose (tree : Tree) (names : List String) : List NodeId → Option String
  | [] => none
  | id :: outer =>
    match tree.element? id with
    | none => listItemToClose tree names outer
    | some e =>
      if e.isHtmlOf names then some e.tagName
      else if Category.isSpecial e && !e.isHtmlOf ["address", "div", "p"] then none
      else listItemToClose tree names outer

def startListItem (b : TreeBuilder) (tag : Tag) : TreeBuilder :=
  let names := if tag.name = "li" then ["li"] else ["dd", "dt"]
  let b := b.framesetNotOk
  let b := match listItemToClose b.tree names b.openElements with
    | some name => b.closeNamed name (some name)
    | none => b
  b.closeOpenParagraph.insertHtml tag

def startButton (b : TreeBuilder) (tag : Tag) : TreeBuilder :=
  let b := if b.inScope .general "button" then
      ((b.report .unexpectedStartTag).closeImplied none).popThroughName "button"
    else b
  (b.reconstruct.insertHtml tag).framesetNotOk

/-- Links are not nested: an open one is ended. -/
def startAnchor (b : TreeBuilder) (tag : Tag) : TreeBuilder :=
  let b := match b.activeFormatting? "a" with
    | some existing =>
      let b := ((b.report .misnestedFormattingElement).runAdoption "a").1
      (b.removeFormatting existing).removeOpen existing
    | none => b
  b.insertFormatting tag

def startNobr (b : TreeBuilder) (tag : Tag) : TreeBuilder :=
  let b := b.reconstruct
  let b := if b.inScope .general "nobr" then
      ((b.report .misnestedFormattingElement).runAdoption "nobr").1
    else b
  b.insertFormatting tag

def startTable (b : TreeBuilder) (tag : Tag) : TreeBuilder :=
  let b := if b.tree.mode = .quirks then b else b.closeOpenParagraph
  ((b.insertHtml tag).framesetNotOk).switchTo .inTable

/-- Whether an input element is not shown. -/
def isHiddenInput (tag : Tag) : Bool :=
  (tag.attribute? "type").any fun value => Ascii.sameText value "hidden"

def startInput (b : TreeBuilder) (tag : Tag) : TreeBuilder :=
  let b := b.reconstruct.insertVoid tag
  if isHiddenInput tag then b else b.framesetNotOk

def startSelect (b : TreeBuilder) (tag : Tag) : TreeBuilder :=
  let b := (b.reconstruct.insertHtml tag).framesetNotOk
  match b.mode with
  | .inTable | .inCaption | .inTableBody | .inRow | .inCell => b.switchTo .inSelectInTable
  | _ => b.switchTo .inSelect

/-- Annotations end each other inside `ruby`; `except` is not ended. -/
def startRuby (b : TreeBuilder) (tag : Tag) (except : Option String) (parents : List String) :
    TreeBuilder :=
  let b := if b.inScope .general "ruby" then
      let b := b.closeImplied except
      b.reportIf (!b.currentIsOf parents) .unexpectedStartTag
    else b
  b.insertHtml tag

def startForeignRoot (b : TreeBuilder) (tag : Tag) : TreeBuilder :=
  let ns : Namespace := if tag.name = "math" then .mathml else .svg
  b.reconstruct.insertForeign tag tag.name (Foreign.adjustAttributes ns tag.attributes) ns

def bodyStart (b : TreeBuilder) (tag : Tag) : Outcome :=
  match BodyStart.ofName tag.name with
  | .html => (b.repeatedHtml tag).done
  | .headContent => (b.startHeadContent tag).done
  | .body => (b.repeatedBody tag).done
  | .frameset => (b.lateFrameset tag).done
  | .block => (b.closeOpenParagraph.insertHtml tag).done
  | .heading => (b.startHeading tag).done
  | .preformatted =>
    { (b.closeOpenParagraph.insertHtml tag).framesetNotOk with skipNewline := true }.done
  | .form => (b.startForm tag).done
  | .listItem => (b.startListItem tag).done
  | .plaintext => ((b.closeOpenParagraph.insertHtml tag).requestState .plaintext).done
  | .button => (b.startButton tag).done
  | .anchor => (b.startAnchor tag).done
  | .nobr => (b.startNobr tag).done
  | .formatting => (b.insertFormatting tag).done
  | .marked => ((b.reconstruct.insertHtml tag).insertMarker.framesetNotOk).done
  | .table => (b.startTable tag).done
  | .void => (b.reconstruct.insertVoid tag).framesetNotOk.done
  | .input => (b.startInput tag).done
  | .bareVoid => (b.insertVoid tag).done
  | .rule => (b.closeOpenParagraph.insertVoid tag).framesetNotOk.done
  | .image => (b.report .unexpectedStartTag).reprocess (.startTag { tag with name := "img" })
  | .textarea => { (b.insertRawText tag .rcdata).framesetNotOk with skipNewline := true }.done
  | .xmp => (b.closeOpenParagraph.reconstruct.framesetNotOk.insertRawText tag .rawtext).done
  | .iframe => (b.framesetNotOk.insertRawText tag .rawtext).done
  | .noembed => (b.insertRawText tag .rawtext).done
  | .noscript =>
    if b.scripting then (b.insertRawText tag .rawtext).done
    else (b.reconstruct.insertHtml tag).done
  | .select => (b.startSelect tag).done
  | .option => ((b.popIf "option").reconstruct.insertHtml tag).done
  | .rubyBase => (b.startRuby tag none ["ruby"]).done
  | .rubyText => (b.startRuby tag (some "rtc") ["rtc", "ruby"]).done
  | .foreignRoot => (b.startForeignRoot tag).done
  | .misplaced => b.refuse .unexpectedStartTag
  | .ordinary => (b.reconstruct.insertHtml tag).done

/-! ## End tags -/

/-- The kinds of end tags in the body. -/
inductive BodyEnd where
  | template
  | body
  | html
  | block
  | form
  | paragraph
  | listItem
  | definition
  | heading
  | formatting
  | marked
  | lineBreak
  | other
deriving DecidableEq

def BodyEnd.ofName (name : String) : BodyEnd :=
  if name = "template" then .template
  else if name = "body" then .body
  else if name = "html" then .html
  else if Category.blockEnd.contains name then .block
  else if name = "form" then .form
  else if name = "p" then .paragraph
  else if name = "li" then .listItem
  else if ["dd", "dt"].contains name then .definition
  else if Category.headings.contains name then .heading
  else if Category.formatting.contains name then .formatting
  else if Category.markerElements.contains name then .marked
  else if name = "br" then .lineBreak
  else .other

/-- Ends the body, which stays open for what may follow. -/
def endBody (b : TreeBuilder) : TreeBuilder :=
  (b.reportIf (b.hasOpenBesides Category.openAtBodyEnd) .unclosedElements).switchTo .afterBody

/-- Closes an element of this name if one is in scope; otherwise the end tag is an error. -/
def closeInScope (b : TreeBuilder) (scope : Scope) (name : String) (except : Option String) :
    TreeBuilder :=
  if b.inScope scope name then b.closeNamed name except else b.report .unexpectedEndTag

/-- Outside templates the form that was begun last is ended, wherever it is. -/
def endForm (b : TreeBuilder) : TreeBuilder :=
  if b.isOpen "template" then b.closeInScope .general "form" none
  else
    let form := b.formElement
    let b := { b with formElement := none }
    match form with
    | none => b.report .unexpectedEndTag
    | some node =>
      if b.nodeInScope node then
        let b := b.closeImplied none
        (b.reportIf (b.currentNode? != some node) .unclosedElements).removeOpen node
      else b.report .unexpectedEndTag

/-- An end tag without its paragraph makes an empty one. -/
def endParagraph (b : TreeBuilder) : TreeBuilder :=
  if b.inScope .button "p" then b.closeParagraph
  else ((b.report .unexpectedEndTag).insertNamed "p").closeParagraph

/-- An end tag of a heading ends a heading of any level. -/
def endHeading (b : TreeBuilder) (name : String) : TreeBuilder :=
  if b.anyInScope .general Category.headings then
    let b := b.closeImplied none
    let b := b.reportIf (!b.currentIs name) .unclosedElements
    b.popThrough (b.isHtmlOf Category.headings)
  else b.report .unexpectedEndTag

/-- What an end tag meets first among the open elements: an element of its name, or a special
element that it does not reach beyond. -/
inductive EndTarget where
  | found (id : NodeId)
  | blocked
  | missing

def endTarget (b : TreeBuilder) (name : String) : List NodeId → EndTarget
  | [] => .missing
  | id :: outer =>
    if b.isHtml name id then .found id
    else if (b.tree.element? id).any Category.isSpecial then .blocked
    else endTarget b name outer

def endOther (b : TreeBuilder) (name : String) : TreeBuilder :=
  match b.endTarget name b.openElements with
  | .found id =>
    let b := b.closeImplied (some name)
    (b.reportIf (b.currentNode? != some id) .unclosedElements).popThrough (· == id)
  | .blocked => b.report .unexpectedEndTag
  | .missing => b

def endFormatting (b : TreeBuilder) (name : String) : TreeBuilder :=
  match b.runAdoption name with
  | (b, .handled) => b
  | (b, .anyOtherEndTag) => b.endOther name

def bodyEnd (b : TreeBuilder) (tag : Tag) : Outcome :=
  match BodyEnd.ofName tag.name with
  | .template => b.endTemplate.done
  | .body => if b.inScope .general "body" then b.endBody.done else b.refuse .unexpectedEndTag
  | .html =>
    if b.inScope .general "body" then b.endBody.reprocess (.endTag tag)
    else b.refuse .unexpectedEndTag
  | .block => (b.closeInScope .general tag.name none).done
  | .form => b.endForm.done
  | .paragraph => b.endParagraph.done
  | .listItem => (b.closeInScope .listItem tag.name (some tag.name)).done
  | .definition => (b.closeInScope .general tag.name (some tag.name)).done
  | .heading => (b.endHeading tag.name).done
  | .formatting => (b.endFormatting tag.name).done
  | .marked =>
    if b.inScope .general tag.name then (b.closeNamed tag.name none).clearToMarker.done
    else b.refuse .unexpectedEndTag
  | .lineBreak =>
    ((b.report .unexpectedEndTag).reconstruct.insertNamed "br").pop.framesetNotOk.done
  | .other => (b.endOther tag.name).done

/-! ## The mode -/

def inBody (b : TreeBuilder) (token : Token) : Outcome :=
  match token with
  | .character c => (b.bodyChar c).done
  | .comment data => (b.insertComment data).done
  | .doctype _ => b.refuse .unexpectedDoctype
  | .startTag tag => b.bodyStart tag
  | .endTag tag => b.bodyEnd tag
  | .endOfFile => b.bodyEndOfFile

end Hypertext.TreeBuilder
