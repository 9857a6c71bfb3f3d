import Hypertext.Dom.Tree

/-!
# Changes that check their indices

The changes of a tree take any index. The versions here check each index where it is followed, and
give nothing instead of a tree if there is no such node.
-/

namespace Hypertext.Tree

def contains (t : Tree) (id : NodeId) : Bool := id < t.size

/-- Changes a node that has to be there. -/
def modify? (t : Tree) (id : NodeId) (f : Node → Node) : Option Tree :=
  if t.contains id then some (t.modify id f) else none

def link? (t : Tree) (a b : Option NodeId) : Option Tree := do
  let t ← match a with
    | some a => t.modify? a ({ · with next := b })
    | none => some t
  match b with
  | some b => t.modify? b ({ · with prev := a })
  | none => some t

def removeChild? (t : Tree) (parent child : NodeId) : Option Tree := do
  let siblings := (← t.get? parent).children
  if child ∈ siblings then
    let t ← t.modify? parent ({ · with children := siblings.erase child })
    let node ← t.get? child
    let t ← t.modify? child ({ · with prev := none })
    let t ← t.modify? child ({ · with next := none })
    let t ← t.modify? child ({ · with parent := none })
    t.link? node.prev node.next
  else some t

/-- A node that is not in the tree has no parent, so nothing has to be done. -/
def detach? (t : Tree) (id : NodeId) : Option Tree :=
  match t.parent? id with
  | some parent => t.removeChild? parent id
  | none => some t

def appendChild? (t : Tree) (parent child : NodeId) : Option Tree := do
  let t ← t.detach? child
  let siblings := (← t.get? parent).children
  let t ← t.modify? parent ({ · with children := siblings ++ [child] })
  let t ← t.modify? child ({ · with parent := some parent })
  match siblings.getLast? with
  | some last => t.link? (some last) (some child)
  | none => some t

def insertBefore? (t : Tree) (parent child reference : NodeId) : Option Tree := do
  let t ← t.detach? child
  let siblings := (← t.get? parent).children
  if reference ∈ siblings then
    let prev := (← t.get? reference).prev
    let t ← t.modify? parent ({ · with children := insertedBefore child reference siblings })
    let t ← t.modify? child ({ · with parent := some parent })
    let t ← t.modify? child ({ · with prev })
    let t ← t.modify? child ({ · with next := some reference })
    let t ← t.modify? reference ({ · with prev := some child })
    match prev with
    | some prev => t.modify? prev ({ · with next := some child })
    | none => some t
  else t.appendChild? parent child

/-- Without children to move, the target is not looked at. -/
def moveChildren? (t : Tree) (source target : NodeId) : Option Tree := do
  (← t.get? source).children.foldlM (fun t child => t.appendChild? target child) t

def insertAt? (t : Tree) (parent : NodeId) (before : Option NodeId) (child : NodeId) :
    Option Tree :=
  match before with
  | some reference => t.insertBefore? parent child reference
  | none => t.appendChild? parent child

/-- Makes a node for the text. It is in the tree when the parent is looked at. -/
def insertNewText? (t : Tree) (parent : NodeId) (before : Option NodeId) (text : String) :
    Option (NodeId × Tree) := do
  let (id, t) := t.alloc (.text text)
  return (id, ← t.insertAt? parent before id)

def insertText? (t : Tree) (parent : NodeId) (before : Option NodeId) (text : String) :
    Option (NodeId × Tree) :=
  match t.preceding? parent before with
  | some prev => do
    match (← t.get? prev).data with
    | .text existing =>
      return (prev, ← t.modify? prev ({ · with data := .text (existing ++ text) }))
    | _ => t.insertNewText? parent before text
  | none => t.insertNewText? parent before text

end Hypertext.Tree
