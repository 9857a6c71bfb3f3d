import Hypertext.Dom.Element

/-!
# Document trees

All nodes of a document live in one array and refer to each other by index; node zero is the
document. A node knows its parent, its children in order, and its neighbours among them. Nodes are
never deleted, only detached.
-/

namespace Hypertext

/-- How closely layout has to follow old browsers. -/
inductive DocumentMode where
  | noQuirks
  | limitedQuirks
  | quirks
deriving DecidableEq

/-- The name of a mode in reports. -/
def DocumentMode.name : DocumentMode → String
  | .noQuirks => "NoQuirks"
  | .limitedQuirks => "LimitedQuirks"
  | .quirks => "Quirks"

inductive NodeData where
  | document (mode : DocumentMode)
  | doctype (name publicId systemId : String)
  | fragment
  | element (element : Element)
  | text (text : String)
  | comment (text : String)
deriving DecidableEq

structure Node where
  data : NodeData
  parent : Option NodeId := none
  children : List NodeId := []
  next : Option NodeId := none
  prev : Option NodeId := none
deriving DecidableEq

/-- The nodes of a document, attached and detached. -/
structure Tree where
  nodes : Array Node
deriving DecidableEq

namespace Tree

/-- The document node. -/
def root : NodeId := 0

/-- A tree that holds an empty document. -/
def empty : Tree := ⟨#[{ data := .document .noQuirks }]⟩

def size (t : Tree) : Nat := t.nodes.size

def get? (t : Tree) (id : NodeId) : Option Node := t.nodes[id]?

/-- Changes a node; nothing happens if there is no such node. -/
def modify (t : Tree) (id : NodeId) (f : Node → Node) : Tree := ⟨t.nodes.modify id f⟩

/-- Adds a node without relations. Its index is the former size. -/
def alloc (t : Tree) (data : NodeData) : NodeId × Tree := (t.size, ⟨t.nodes.push { data }⟩)

/-! ## Reading -/

def data? (t : Tree) (id : NodeId) : Option NodeData := (t.get? id).map (·.data)

def parent? (t : Tree) (id : NodeId) : Option NodeId := (t.get? id).bind (·.parent)

def children (t : Tree) (id : NodeId) : List NodeId :=
  match t.get? id with
  | some n => n.children
  | none => []

def firstChild? (t : Tree) (id : NodeId) : Option NodeId := (t.children id).head?

def lastChild? (t : Tree) (id : NodeId) : Option NodeId := (t.children id).getLast?

def next? (t : Tree) (id : NodeId) : Option NodeId := (t.get? id).bind (·.next)

def prev? (t : Tree) (id : NodeId) : Option NodeId := (t.get? id).bind (·.prev)

def element? (t : Tree) (id : NodeId) : Option Element :=
  match t.data? id with
  | some (.element e) => some e
  | _ => none

def text? (t : Tree) (id : NodeId) : Option String :=
  match t.data? id with
  | some (.text s) => some s
  | _ => none

def contents? (t : Tree) (id : NodeId) : Option NodeId := (t.element? id).bind (·.contents)

def mode (t : Tree) : DocumentMode :=
  match t.data? root with
  | some (.document mode) => mode
  | _ => .noQuirks

/-- The first element below the document. -/
def documentElement? (t : Tree) : Option NodeId :=
  (t.children root).find? fun id => (t.element? id).isSome

/-- The first HTML child of the document element that has one of these names. -/
def childOfDocumentElement? (t : Tree) (names : List String) : Option NodeId :=
  match t.documentElement? with
  | none => none
  | some html => (t.children html).find? fun id => (t.element? id).any fun e => e.isHtmlOf names

def head? (t : Tree) : Option NodeId := t.childOfDocumentElement? ["head"]

def body? (t : Tree) : Option NodeId := t.childOfDocumentElement? ["body", "frameset"]

/-! ## Changing data -/

def setData (t : Tree) (id : NodeId) (data : NodeData) : Tree := t.modify id ({ · with data })

/-- Changes an element; any other node stays as it is. -/
def modifyElement (t : Tree) (id : NodeId) (f : Element → Element) : Tree :=
  t.modify id fun n =>
    match n.data with
    | .element e => { n with data := .element (f e) }
    | _ => n

def setMode (t : Tree) (mode : DocumentMode) : Tree :=
  t.modify root fun n =>
    match n.data with
    | .document _ => { n with data := .document mode }
    | _ => n

/-! ## Changing relations -/

def setParent (t : Tree) (id : NodeId) (parent : Option NodeId) : Tree :=
  t.modify id ({ · with parent })

def setNext (t : Tree) (id : NodeId) (next : Option NodeId) : Tree := t.modify id ({ · with next })

def setPrev (t : Tree) (id : NodeId) (prev : Option NodeId) : Tree := t.modify id ({ · with prev })

def setChildren (t : Tree) (id : NodeId) (children : List NodeId) : Tree :=
  t.modify id ({ · with children })

/-- Makes `b` the neighbour after `a`, where both exist. -/
def link (t : Tree) (a b : Option NodeId) : Tree :=
  let t := match a with
    | some a => t.setNext a b
    | none => t
  match b with
  | some b => t.setPrev b a
  | none => t

/-- Takes `child` out of the children of `parent`; nothing happens if it is not one of them. -/
def removeChild (t : Tree) (parent child : NodeId) : Tree :=
  if child ∈ t.children parent then
    let prev := t.prev? child
    let next := t.next? child
    let t := t.setChildren parent ((t.children parent).erase child)
    let t := ((t.setPrev child none).setNext child none).setParent child none
    t.link prev next
  else t

/-- Takes a node out of its parent, if it has one. -/
def detach (t : Tree) (id : NodeId) : Tree :=
  match t.parent? id with
  | some parent => t.removeChild parent id
  | none => t

/-- Makes `child` the last child of `parent`, wherever it was before. -/
def appendChild (t : Tree) (parent child : NodeId) : Tree :=
  let t := t.detach child
  let last := t.lastChild? parent
  let t := (t.setChildren parent (t.children parent ++ [child])).setParent child (some parent)
  match last with
  | some last => t.link (some last) (some child)
  | none => t

/-- A list with `item` put directly before `reference`. -/
def insertedBefore (item reference : NodeId) : List NodeId → List NodeId
  | [] => []
  | a :: rest =>
    if a = reference then item :: a :: rest else a :: insertedBefore item reference rest

/-- Makes `child` the child of `parent` that stands directly before `reference`, or the last one if
`reference` is no child of `parent`. -/
def insertBefore (t : Tree) (parent child reference : NodeId) : Tree :=
  let t := t.detach child
  if reference ∈ t.children parent then
    let prev := t.prev? reference
    let t := t.setChildren parent (insertedBefore child reference (t.children parent))
    let t := t.setParent child (some parent)
    let t := (t.setPrev child prev).setNext child (some reference)
    let t := t.setPrev reference (some child)
    match prev with
    | some prev => t.setNext prev (some child)
    | none => t
  else t.appendChild parent child

/-- Appends all children of `source` to the children of `target`, in order. -/
def moveChildren (t : Tree) (source target : NodeId) : Tree :=
  (t.children source).foldl (fun t child => t.appendChild target child) t

/-- The node that stands directly before the place before `before`, which is the end of the children
of `parent` if `before` is missing or is no child of it. -/
def preceding? (t : Tree) (parent : NodeId) (before : Option NodeId) : Option NodeId :=
  match before with
  | some reference =>
    if t.parent? reference = some parent then t.prev? reference else t.lastChild? parent
  | none => t.lastChild? parent

/-- Inserts a node before a child of `parent`, or at the end. -/
def insertAt (t : Tree) (parent : NodeId) (before : Option NodeId) (child : NodeId) : Tree :=
  match before with
  | some reference => t.insertBefore parent child reference
  | none => t.appendChild parent child

/-- Inserts text. A text node directly before the place takes it in; otherwise it gets a node of its
own. The result is the node that holds it. -/
def insertText (t : Tree) (parent : NodeId) (before : Option NodeId) (text : String) :
    NodeId × Tree :=
  match t.preceding? parent before with
  | some prev =>
    match t.text? prev with
    | some existing => (prev, t.setData prev (.text (existing ++ text)))
    | none =>
      let (id, t) := t.alloc (.text text)
      (id, t.insertAt parent before id)
  | none =>
    let (id, t) := t.alloc (.text text)
    (id, t.insertAt parent before id)

end Tree

end Hypertext
