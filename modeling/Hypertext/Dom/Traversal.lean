import Hypertext.Dom.Tree

/-!
# Walks over a tree

Walks follow links, and links may form a cycle in a tree that was built carelessly, so each walk is
bounded by the number of nodes: no walk over a tree without cycles is longer.
-/

namespace Hypertext.Tree

/-- Follows `step` from `start`, at most `fuel` times. -/
def chain (step : NodeId → Option NodeId) : (fuel : Nat) → (start : Option NodeId) → List NodeId
  | 0, _ => []
  | _ + 1, none => []
  | fuel + 1, some id => id :: chain step fuel (step id)

/-- The parent, its parent, and so on. -/
def ancestors (t : Tree) (id : NodeId) : List NodeId := chain t.parent? t.size (t.parent? id)

/-- The siblings before a node, the nearest first. -/
def precedingSiblings (t : Tree) (id : NodeId) : List NodeId := chain t.prev? t.size (t.prev? id)

/-- Visits the pending nodes in turn, each followed by its children. -/
def preorder (t : Tree) : (fuel : Nat) → (pending : List NodeId) → List NodeId
  | 0, _ => []
  | _ + 1, [] => []
  | fuel + 1, id :: pending => id :: preorder t fuel (t.children id ++ pending)

/-- A node and everything below it, in document order. -/
def descendants (t : Tree) (id : NodeId) : List NodeId := t.preorder (t.size + 1) [id]

def isDescendantOf (t : Tree) (node ancestor : NodeId) : Bool :=
  (t.ancestors node).contains ancestor

/-- The text below a node. -/
def textContent (t : Tree) (id : NodeId) : String :=
  String.join ((t.descendants id).filterMap t.text?)

end Hypertext.Tree
