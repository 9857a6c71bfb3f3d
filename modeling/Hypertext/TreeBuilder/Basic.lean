import Hypertext.Dom.Checked
import Hypertext.Indexed
import Hypertext.ParseError
import Hypertext.Token
import Hypertext.Tokenizer.State
import Hypertext.TreeBuilder.Category
import Hypertext.TreeBuilder.Mode

/-!
# Tree construction: the state and the stack of open elements

A `TreeBuilder` takes tokens one by one and grows a tree. The open elements are kept innermost
first, so the current node is the head of the list and closing elements drops a beginning of it.
-/

namespace Hypertext

/-- An entry of the list of active formatting elements: an element with the tag it was made from, or
a marker that hides the entries before it. -/
inductive FormattingEntry where
  | marker
  | element (id : NodeId) (tag : Tag)
deriving DecidableEq

namespace FormattingEntry

def id? : FormattingEntry → Option NodeId
  | .marker => none
  | .element id _ => some id

def isElement (e : FormattingEntry) : Bool := e.id?.isSome

end FormattingEntry

structure TreeBuilder where
  tree : Tree := .empty
  mode : InsertionMode := .initial
  /-- The mode that follows raw text or the text of a table. -/
  resumeMode : Option InsertionMode := none
  /-- The modes of the open templates, the innermost first. -/
  templateModes : List InsertionMode := []
  /-- The open elements, the innermost first. -/
  openElements : List NodeId := []
  /-- The active formatting elements, the oldest first. -/
  formatting : List FormattingEntry := []
  headElement : Option NodeId := none
  formElement : Option NodeId := none
  /-- Whether a frameset may still replace the body. -/
  framesetOk : Bool := true
  /-- Whether content of a table is put before the table. -/
  fostering : Bool := false
  /-- Text read inside a table, before it is known where it goes. -/
  tableText : List Char := []
  /-- Whether a line feed that comes next is dropped. -/
  skipNewline : Bool := false
  /-- Whether the current start tag is self-closing and nothing has been made of that yet. -/
  selfClosing : Bool := false
  scripting : Bool := false
  srcdoc : Bool := false
  stopped : Bool := false
  /-- The state that the tokenizer is asked to go on in. -/
  stateRequest : Option Tokenizer.State := none
  /-- Position of the current token. -/
  position : Position := .start
  errors : ErrorLog := {}
  /-- Whether an index was followed that leads out of the tree, the stack or the list. -/
  fault : Bool := false

namespace TreeBuilder

/-- Records an error at the current token. -/
def report (b : TreeBuilder) (kind : ErrorKind) : TreeBuilder :=
  { b with errors := b.errors.record kind b.position }

/-- Records an error if `bad` holds. -/
def reportIf (b : TreeBuilder) (bad : Bool) (kind : ErrorKind) : TreeBuilder :=
  if bad then b.report kind else b

def switchTo (b : TreeBuilder) (mode : InsertionMode) : TreeBuilder := { b with mode }

def requestState (b : TreeBuilder) (state : Tokenizer.State) : TreeBuilder :=
  { b with stateRequest := some state }

/-- Accepts the self-closing flag of the current start tag. -/
def acknowledge (b : TreeBuilder) : TreeBuilder := { b with selfClosing := false }

def framesetNotOk (b : TreeBuilder) : TreeBuilder := { b with framesetOk := false }

/-- Ends tree construction: nothing stays open. -/
def stop (b : TreeBuilder) : TreeBuilder :=
  { b with openElements := [], formatting := [], templateModes := [], stopped := true }

/-- Goes back to the mode before raw text or the text of a table. -/
def resume (b : TreeBuilder) : TreeBuilder :=
  { b with mode := b.resumeMode.getD .inBody, resumeMode := none }

/-- Goes on with what a step gives that checks its indices. If it gives nothing, nothing is changed
and the fault is remembered. -/
def attempt (b : TreeBuilder) (result : Option TreeBuilder) : TreeBuilder :=
  result.getD { b with fault := true }

/-! ## Open elements -/

def currentNode? (b : TreeBuilder) : Option NodeId := b.openElements.head?

def currentElement? (b : TreeBuilder) : Option Element := b.currentNode?.bind b.tree.element?

/-- Whether the node is the HTML element of this name. -/
def isHtml (b : TreeBuilder) (name : String) (id : NodeId) : Bool :=
  (b.tree.element? id).any fun e => e.isHtml name

/-- Whether the node is an HTML element with one of these names. -/
def isHtmlOf (b : TreeBuilder) (names : List String) (id : NodeId) : Bool :=
  (b.tree.element? id).any fun e => e.isHtmlOf names

def currentIs (b : TreeBuilder) (name : String) : Bool := b.currentNode?.any (b.isHtml name)

def currentIsOf (b : TreeBuilder) (names : List String) : Bool :=
  b.currentNode?.any (b.isHtmlOf names)

/-- Whether an HTML element of this name is open. -/
def isOpen (b : TreeBuilder) (name : String) : Bool := b.openElements.any (b.isHtml name)

/-- The open element at this depth; the outermost one is at depth zero. -/
def openAt? (b : TreeBuilder) (depth : Nat) : Option NodeId := b.openElements.reverse[depth]?

/-- The depth of the innermost of these elements, the innermost first, that satisfies `p`. -/
def innermostDepth? (p : NodeId → Bool) : List NodeId → Option Nat
  | [] => none
  | id :: outer => if p id then some outer.length else innermostDepth? p outer

/-- The smallest depth at which a node is open. -/
def openDepth? (b : TreeBuilder) (id : NodeId) : Option Nat :=
  b.openElements.reverse.findIdx? (· == id)

/-- Changes the open elements, read by depth. -/
def changeOpen? (b : TreeBuilder) (f : List NodeId → Option (List NodeId)) :
    Option TreeBuilder := do
  let stack ← f b.openElements.reverse
  return { b with openElements := stack.reverse }

/-- Closes all but the `count` outermost elements. -/
def truncate (b : TreeBuilder) (count : Nat) : TreeBuilder :=
  { b with openElements := b.openElements.drop (b.openElements.length - count) }

def push (b : TreeBuilder) (id : NodeId) : TreeBuilder :=
  { b with openElements := id :: b.openElements }

/-- Closes the current node. -/
def pop (b : TreeBuilder) : TreeBuilder := { b with openElements := b.openElements.tail }

/-- Closes the current node if it is the HTML element of this name. -/
def popIf (b : TreeBuilder) (name : String) : TreeBuilder := if b.currentIs name then b.pop else b

/-- What stays after the first item that satisfies `p`; nothing if there is none. -/
def dropThrough (p : NodeId → Bool) : List NodeId → List NodeId
  | [] => []
  | id :: outer => if p id then outer else dropThrough p outer

/-- Closes elements until one that satisfies `p` has been closed. -/
def popThrough (b : TreeBuilder) (p : NodeId → Bool) : TreeBuilder :=
  { b with openElements := dropThrough p b.openElements }

def popThroughName (b : TreeBuilder) (name : String) : TreeBuilder := b.popThrough (b.isHtml name)

/-- Closes the elements that satisfy `p`, from the current node up to the first that does not. -/
def popWhile (b : TreeBuilder) (p : NodeId → Bool) : TreeBuilder :=
  { b with openElements := b.openElements.dropWhile p }

/-- Closes elements up to the nearest one with one of these names, which stays open. -/
def popTo (b : TreeBuilder) (names : List String) : TreeBuilder :=
  b.popWhile fun id => !b.isHtmlOf names id

/-- Takes an element out of the stack, wherever it is. -/
def removeOpen (b : TreeBuilder) (id : NodeId) : TreeBuilder :=
  { b with openElements := b.openElements.filter (· != id) }

def popToTable (b : TreeBuilder) : TreeBuilder := b.popTo ["table", "template", "html"]

def popToTableBody (b : TreeBuilder) : TreeBuilder :=
  b.popTo ["tbody", "tfoot", "thead", "template", "html"]

def popToRow (b : TreeBuilder) : TreeBuilder := b.popTo ["tr", "template", "html"]

/-! ## Scopes -/

/-- Looks for an open element that satisfies `target`, from the innermost on, and gives up after the
first one that bounds the scope. -/
def searchScope (tree : Tree) (scope : Scope) (target : NodeId → Element → Bool) :
    List NodeId → Bool
  | [] => false
  | id :: outer =>
    match tree.element? id with
    | none => searchScope tree scope target outer
    | some e =>
      if target id e then true
      else if scope.isBoundary e then false
      else searchScope tree scope target outer

/-- Whether an HTML element of this name is in scope. -/
def inScope (b : TreeBuilder) (scope : Scope) (name : String) : Bool :=
  searchScope b.tree scope (fun _ e => e.isHtml name) b.openElements

def anyInScope (b : TreeBuilder) (scope : Scope) (names : List String) : Bool :=
  searchScope b.tree scope (fun _ e => e.isHtmlOf names) b.openElements

def nodeInScope (b : TreeBuilder) (id : NodeId) : Bool :=
  searchScope b.tree .general (fun other _ => other == id) b.openElements

/-! ## Implied end tags -/

/-- Closes the elements whose end tag may be left out, up to one named `except`. -/
def closeImplied (b : TreeBuilder) (except : Option String) : TreeBuilder :=
  b.popWhile fun id =>
    (b.tree.element? id).any fun e => e.isHtmlOf Category.impliedEnd && except != some e.tagName

def closeImpliedThoroughly (b : TreeBuilder) : TreeBuilder :=
  b.popWhile (b.isHtmlOf Category.impliedEndThorough)

/-- Closes the element of this name with everything in it. It is an error if more is open in it than
can be closed by implication; `except` is not closed that way. -/
def closeNamed (b : TreeBuilder) (name : String) (except : Option String) : TreeBuilder :=
  let b := b.closeImplied except
  let b := b.reportIf (!b.currentIs name) .unclosedElements
  b.popThroughName name

def closeParagraph (b : TreeBuilder) : TreeBuilder := b.closeNamed "p" (some "p")

/-- Closes a paragraph that is open in button scope. -/
def closeOpenParagraph (b : TreeBuilder) : TreeBuilder :=
  if b.inScope .button "p" then b.closeParagraph else b

/-! ## The mode that fits the open elements -/

/-- Whether a table is open outside a select element, and no template between them. -/
def selectIsInTable (b : TreeBuilder) : List NodeId → Bool
  | [] => false
  | id :: outer =>
    if b.isHtml "template" id then false
    else if b.isHtml "table" id then true
    else selectIsInTable b outer

/-- The mode for these open elements: that of the innermost element which has one. -/
def modeFor (b : TreeBuilder) : List NodeId → InsertionMode
  | [] => .inBody
  | id :: outer =>
    match b.tree.element? id with
    | none => modeFor b outer
    | some e =>
      if e.isHtml "select" then
        if selectIsInTable b outer then .inSelectInTable else .inSelect
      else if e.isHtmlOf ["td", "th"] && !outer.isEmpty then .inCell
      else if e.isHtml "tr" then .inRow
      else if e.isHtmlOf Category.tableSections then .inTableBody
      else if e.isHtml "caption" then .inCaption
      else if e.isHtml "colgroup" then .inColumnGroup
      else if e.isHtml "table" then .inTable
      else if e.isHtml "template" then b.templateModes.head?.getD .inTemplate
      else if e.isHtml "head" && !outer.isEmpty then .inHead
      else if e.isHtml "body" then .inBody
      else if e.isHtml "frameset" then .inFrameset
      else if e.isHtml "html" then
        if b.headElement.isNone then .beforeHead else .afterHead
      else modeFor b outer

/-- The mode that fits the open elements. -/
def appropriateMode (b : TreeBuilder) : InsertionMode := modeFor b b.openElements

def resetMode (b : TreeBuilder) : TreeBuilder := b.switchTo b.appropriateMode

end TreeBuilder

end Hypertext
