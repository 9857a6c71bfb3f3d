import Hypertext.TreeBuilder.Basic

/-!
# Tree construction: inserting nodes
-/

namespace Hypertext

/-- A place in a tree: before a child of `parent`, or after the last one. -/
structure Place where
  parent : NodeId
  before : Option NodeId := none
deriving DecidableEq

def Tree.insertAtPlace? (t : Tree) (place : Place) (id : NodeId) : Option Tree :=
  t.insertAt? place.parent place.before id

namespace TreeBuilder

/-! ## Where nodes go -/

/-- The open element directly outside the one at this depth; outside of all is the document. -/
def outside? (b : TreeBuilder) : (depth : Nat) → Option NodeId
  | 0 => some Tree.root
  | depth + 1 => b.openAt? depth

/-- The place in the contents of the open template at this depth. -/
def placeInTemplate? (b : TreeBuilder) (depth : Nat) : Option Place := do
  let id ← b.openAt? depth
  return ⟨(b.tree.contents? id).getD id, none⟩

/-- The place before the open table at this depth. -/
def placeBeforeTable? (b : TreeBuilder) (depth : Nat) : Option Place := do
  let id ← b.openAt? depth
  match b.tree.parent? id with
  | some parent => return ⟨parent, some id⟩
  | none => return ⟨← b.outside? depth, none⟩

/-- The place for content that may not be in a table: before the innermost open table, or in the
contents of a template that is open inside it. Without either it is the outermost element. -/
def fosterPlace? (b : TreeBuilder) : Option Place :=
  let template := innermostDepth? (b.isHtml "template") b.openElements
  let table := innermostDepth? (b.isHtml "table") b.openElements
  match template, table with
  | some depth, none => b.placeInTemplate? depth
  | some depth, some tableDepth =>
    if depth > tableDepth then b.placeInTemplate? depth else b.placeBeforeTable? tableDepth
  | none, some tableDepth => b.placeBeforeTable? tableDepth
  | none, none => some ⟨b.openElements.getLast?.getD Tree.root, none⟩

/-- The place for a node that goes into `target`: what goes into a template goes into
its contents. -/
def placeIn? (b : TreeBuilder) (target : NodeId) : Option Place := do
  let place ← (
    if b.fostering && b.isHtmlOf Category.fostering target then b.fosterPlace?
    else some ⟨target, none⟩)
  if b.isHtml "template" place.parent then
    match b.tree.contents? place.parent with
    | some contents => return ⟨contents, none⟩
    | none => return place
  else return place

/-- The place for a new node. -/
def place? (b : TreeBuilder) : Option Place := b.placeIn? (b.currentNode?.getD Tree.root)

/-! ## Elements -/

/-- Attributes of an element made from a tag: the first value of each name. -/
def attributesOf (attributes : List Attribute) : Attributes :=
  attributes.foldl (fun as a => as.addNew a.name a.value) []

/-- Makes an element without putting it anywhere. The contents of a template are made before the
template itself. -/
def createElement (t : Tree) (name : String) (attributes : List Attribute) (ns : Namespace) :
    NodeId × Tree :=
  let e : Element := { tagName := name, ns, attributes := attributesOf attributes }
  if e.isHtml "template" then
    let (contents, t) := t.alloc .fragment
    t.alloc (.element { e with contents := some contents })
  else t.alloc (.element e)

/-- Inserts an element and opens it. -/
def insertElement (b : TreeBuilder) (name : String) (attributes : List Attribute)
    (ns : Namespace) : TreeBuilder :=
  b.attempt do
    let place ← b.place?
    let (id, tree) := createElement b.tree name attributes ns
    let tree ← tree.insertAtPlace? place id
    return { b with tree, openElements := id :: b.openElements }

/-- Inserts and opens the HTML element of a start tag. -/
def insertHtml (b : TreeBuilder) (tag : Tag) : TreeBuilder :=
  b.insertElement tag.name tag.attributes .html

/-- Inserts and opens an HTML element without attributes. -/
def insertNamed (b : TreeBuilder) (name : String) : TreeBuilder := b.insertElement name [] .html

/-- Inserts an element that cannot have content. -/
def insertVoid (b : TreeBuilder) (tag : Tag) : TreeBuilder := (b.insertHtml tag).pop.acknowledge

/-- Inserts an element of a foreign namespace; a self-closing tag closes it at once. -/
def insertForeign (b : TreeBuilder) (tag : Tag) (name : String) (attributes : List Attribute)
    (ns : Namespace) : TreeBuilder :=
  let b := b.insertElement name attributes ns
  if tag.selfClosing then b.pop.acknowledge else b

/-- Makes the outermost element. -/
def insertRoot (b : TreeBuilder) (attributes : List Attribute) : TreeBuilder :=
  b.attempt do
    let (id, tree) := createElement b.tree "html" attributes .html
    let tree ← tree.appendChild? Tree.root id
    return { b with tree, openElements := id :: b.openElements }

/-- Inserts an element whose content is raw text, and has the tokenizer read it as such. -/
def insertRawText (b : TreeBuilder) (tag : Tag) (kind : RawText) : TreeBuilder :=
  let b := (b.insertHtml tag).requestState (.text kind)
  { b with resumeMode := some b.mode, mode := .text }

/-- Adds the attributes of a tag that an element does not have yet. -/
def mergeAttributes (b : TreeBuilder) (id : NodeId) (attributes : List Attribute) : TreeBuilder :=
  { b with tree := b.tree.modifyElement id fun e => { e with
      attributes := attributes.foldl (fun as a => as.addNew a.name a.value) e.attributes } }

/-! ## Text and comments -/

/-- Inserts a character. The document itself takes no text. -/
def insertChar (b : TreeBuilder) (c : Char) : TreeBuilder :=
  b.attempt do
    let place ← b.place?
    if place.parent = Tree.root then return b
    else
      let (_, tree) ← b.tree.insertText? place.parent place.before c.toString
      return { b with tree }

def insertComment (b : TreeBuilder) (data : String) : TreeBuilder :=
  b.attempt do
    let place ← b.place?
    let (id, tree) := b.tree.alloc (.comment data)
    let tree ← tree.insertAtPlace? place id
    return { b with tree }

/-- Makes a comment the last child of `parent`. -/
def insertCommentIn (b : TreeBuilder) (parent : NodeId) (data : String) : TreeBuilder :=
  b.attempt do
    let (id, tree) := b.tree.alloc (.comment data)
    let tree ← tree.appendChild? parent id
    return { b with tree }

end TreeBuilder

end Hypertext
