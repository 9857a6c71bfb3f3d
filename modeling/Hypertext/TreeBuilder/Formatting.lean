import Hypertext.TreeBuilder.Insertion

/-!
# Tree construction: active formatting elements

Formatting elements that were closed by the end of a block are opened again in the next one. The
list of active formatting elements remembers them.
-/

namespace Hypertext.TreeBuilder

/-- The index of a node in the list. -/
def formattingIndex? (b : TreeBuilder) (id : NodeId) : Option Nat :=
  b.formatting.findIdx? fun e => e.id? == some id

/-- The nodes after the last marker with their indices, the newest first. -/
def afterLastMarker (b : TreeBuilder) : List (Nat × NodeId) :=
  (b.formatting.zipIdx.reverse.takeWhile (·.1.isElement)).filterMap fun (e, i) =>
    e.id?.map fun id => (i, id)

/-- The newest entry after the last marker that is an HTML element of this name. -/
def activeFormatting? (b : TreeBuilder) (name : String) : Option NodeId :=
  (b.afterLastMarker.map (·.2)).find? (b.isHtml name)

/-- Changes the list of active formatting elements. -/
def changeFormatting? (b : TreeBuilder)
    (f : List FormattingEntry → Option (List FormattingEntry)) : Option TreeBuilder := do
  let formatting ← f b.formatting
  return { b with formatting }

def removeFormatting (b : TreeBuilder) (id : NodeId) : TreeBuilder :=
  match b.formattingIndex? id with
  | some i => b.attempt (b.changeFormatting? (Indexed.erase? · i))
  | none => b

def insertMarker (b : TreeBuilder) : TreeBuilder :=
  { b with formatting := b.formatting ++ [.marker] }

/-- Drops the entries after the last marker, and the marker. -/
def clearToMarker (b : TreeBuilder) : TreeBuilder :=
  { b with formatting := (b.formatting.reverse.dropWhile (·.isElement)).tail.reverse }

/-- Whether two elements have the same name, namespace and attributes. -/
def alike (a b : Element) : Bool :=
  a.tagName == b.tagName && a.ns = b.ns && a.attributes.sameAs b.attributes

/-- Adds an element to the list. Of three elements like it after the last marker the oldest goes. -/
def pushFormatting (b : TreeBuilder) (id : NodeId) (tag : Tag) : TreeBuilder :=
  let likewise := b.afterLastMarker.filter fun (_, other) =>
    (b.tree.element? id).any fun e => (b.tree.element? other).any (alike e)
  let b := match likewise.getLast? with
    | some (oldest, _) =>
      if likewise.length ≥ 3 then b.attempt (b.changeFormatting? (Indexed.erase? · oldest)) else b
    | none => b
  { b with formatting := b.formatting ++ [.element id tag] }

/-! ## Opening elements again -/

/-- Whether the entry at an index is an element that has been closed. -/
def isClosedAt? (b : TreeBuilder) (i : Nat) : Option Bool := do
  match ← b.formatting[i]? with
  | .marker => return false
  | .element id _ => return !b.openElements.contains id

/-- Goes back from an entry over those directly before it that have been closed. -/
def rewind? (b : TreeBuilder) : (i : Nat) → Option Nat
  | 0 => some 0
  | i + 1 => do if ← b.isClosedAt? i then b.rewind? i else return i + 1

/-- Opens a new element for each of the `count` entries from index `i` on. -/
def reopen? (b : TreeBuilder) : (i count : Nat) → Option TreeBuilder
  | _, 0 => some b
  | i, count + 1 => do
    match ← b.formatting[i]? with
    | .marker => reopen? b (i + 1) count
    | .element old tag =>
      let b := b.insertHtml tag
      let entry : FormattingEntry := .element (b.currentNode?.getD old) tag
      let b ← b.changeFormatting? (Indexed.set? · i entry)
      reopen? b (i + 1) count

/-- Opens the closed elements at the end of the list again; the last entry has index `last`. -/
def reconstructFrom? (b : TreeBuilder) (last : Nat) : Option TreeBuilder := do
  if ← b.isClosedAt? last then
    let first ← b.rewind? last
    b.reopen? first (b.formatting.length - first)
  else return b

def reconstruct (b : TreeBuilder) : TreeBuilder :=
  match Indexed.before? b.formatting.length with
  | none => b
  | some last => b.attempt (b.reconstructFrom? last)

/-- Inserts a formatting element and remembers it. -/
def insertFormatting (b : TreeBuilder) (tag : Tag) : TreeBuilder :=
  let b := b.reconstruct.insertHtml tag
  match b.currentNode? with
  | some id => b.pushFormatting id tag
  | none => b

end Hypertext.TreeBuilder
