import Hypertext.TreeBuilder.Formatting

/-!
# Tree construction: the adoption agency

An end tag of a formatting element may come while a block that began inside the element is still
open. The block is then taken out of the element, and what it holds is wrapped in copies of the
formatting elements in between.

Below, `E` is the formatting element and `F` the outermost special element inside it (the furthest
block). The stack is read by depth, the outermost element being at depth zero, and it changes while
it is walked.
-/

namespace Hypertext.TreeBuilder

/-- Whether an end tag has been dealt with, or is to be treated like that of any other element. -/
inductive AdoptionOutcome where
  | handled
  | anyOtherEndTag
deriving DecidableEq

/-- How often a furthest block is taken out. -/
def outerLimit : Nat := 8

/-- How many elements between `E` and `F` are copied. -/
def innerLimit : Nat := 3

/-- The state of the walk from `F` up to `E`. -/
structure Walk where
  builder : TreeBuilder
  /-- Where the copy of `E` goes in the list of formatting elements. -/
  bookmark : Nat
  /-- The outermost node of what has been moved so far. -/
  lastNode : NodeId

namespace Walk

/-- Forgets the formatting element at index `i`; the bookmark moves along with the entries after
it. -/
def forgetAt? (w : Walk) (i : Nat) : Option Walk := do
  let builder ← w.builder.changeFormatting? (Indexed.erase? · i)
  let bookmark ← (if i < w.bookmark then Indexed.before? w.bookmark else some w.bookmark)
  return { w with builder, bookmark }

def forget? (w : Walk) (id : NodeId) : Option Walk :=
  match w.builder.formattingIndex? id with
  | some i => w.forgetAt? i
  | none => some w

/-- Replaces the element at a depth, whose entry is at index `i`, by a copy that takes in the last
node. -/
def copy? (w : Walk) (furthest : NodeId) (depth i : Nat) (tag : Tag) : Option Walk := do
  let (id, tree) := createElement w.builder.tree tag.name tag.attributes .html
  let builder ← { w.builder with tree }.changeFormatting? (Indexed.set? · i (.element id tag))
  let builder ← builder.changeOpen? (Indexed.set? · depth id)
  let tree ← tree.appendChild? id w.lastNode
  let bookmark := if w.lastNode = furthest then i + 1 else w.bookmark
  return { builder := { builder with tree }, bookmark, lastNode := id }

/-- Visits the nodes above the one at this depth, up to `E`. A node that is not a formatting
element, or comes after the first few, is closed. -/
def climb? (furthest element : NodeId) : (depth count : Nat) → Walk → Option Walk
  | 0, _, _ => none
  | depth + 1, count, w => do
    let node ← w.builder.openAt? depth
    if node = element then return w
    else
      let w ← (if innerLimit < count then w.forget? node else some w)
      match w.builder.formattingIndex? node with
      | none =>
        let builder ← w.builder.changeOpen? (Indexed.erase? · depth)
        climb? furthest element depth (count + 1) { w with builder }
      | some i =>
        match ← w.builder.formatting[i]? with
        | .marker => return w
        | .element _ tag =>
          climb? furthest element depth (count + 1) (← w.copy? furthest depth i tag)

end Walk

/-- Finds the furthest block of the formatting element at this depth. -/
def furthestBlock? (b : TreeBuilder) (depth : Nat) : Option (Option NodeId) := do
  let inner ← Indexed.from? b.openElements.reverse (depth + 1)
  return inner.find? fun id => (b.tree.element? id).any Category.isSpecial

/-- Carries the furthest block out of the formatting element `E`, which is open at this depth, to
the place for what goes into the element outside. -/
def carryOut? (b : TreeBuilder) (element block : NodeId) (depth : Nat) : Option Walk := do
  let ancestor ← b.outside? depth
  let bookmark := (b.formattingIndex? element).getD 0
  let blockDepth := (b.openDepth? block).getD depth
  let w ← Walk.climb? block element blockDepth 1 ⟨b, bookmark, block⟩
  let place ← w.builder.placeIn? ancestor
  let tree ← w.builder.tree.insertAtPlace? place w.lastNode
  return { w with builder := { w.builder with tree } }

/-- Puts a copy of `E`, whose entry is at index `i`, around the children of the furthest block, and
opens it in the place of `E`. -/
def wrap? (w : Walk) (element block : NodeId) (i : Nat) (tag : Tag) : Option TreeBuilder := do
  let (copy, tree) := createElement w.builder.tree tag.name tag.attributes .html
  let tree ← tree.moveChildren? block copy
  let tree ← tree.appendChild? block copy
  let w ← { w with builder := { w.builder with tree } }.forgetAt? i
  let bookmark := min w.bookmark w.builder.formatting.length
  let b ← w.builder.changeFormatting? (Indexed.insert? · bookmark (.element copy tag))
  let b := b.removeOpen element
  let last ← Indexed.before? b.openElements.length
  let blockDepth := (b.openDepth? block).getD last
  b.changeOpen? (Indexed.insert? · (blockDepth + 1) copy)

/-- Takes out furthest blocks until there is none left, at most `fuel` times. -/
def adopt? (subject : String) :
    (fuel : Nat) → TreeBuilder → Option (TreeBuilder × AdoptionOutcome)
  | 0, b => some (b, .handled)
  | fuel + 1, b =>
    match b.activeFormatting? subject with
    | none => some (b, .anyOtherEndTag)
    | some element =>
      match b.openDepth? element with
      | none =>
        some ((b.report .formattingElementNotOpen).removeFormatting element, .handled)
      | some depth =>
        if !b.nodeInScope element then some (b.report .formattingElementNotInScope, .handled)
        else do
          let b := b.reportIf (b.currentNode? != some element) .misnestedFormattingElement
          match ← b.furthestBlock? depth with
          | none => return ((b.truncate depth).removeFormatting element, .handled)
          | some block =>
            let w ← b.carryOut? element block depth
            match w.builder.formattingIndex? element with
            | none => return (w.builder, .handled)
            | some i =>
              match ← w.builder.formatting[i]? with
              | .marker => return (w.builder, .handled)
              | .element _ tag => adopt? subject fuel (← wrap? w element block i tag)

/-- Runs the adoption agency for the end tag of a formatting element. -/
def runAdoption (b : TreeBuilder) (subject : String) : TreeBuilder × AdoptionOutcome :=
  if b.currentNode?.any fun id => b.isHtml subject id && (b.formattingIndex? id).isNone then
    (b.pop, .handled)
  else (adopt? subject outerLimit b).getD ({ b with fault := true }, .handled)

end Hypertext.TreeBuilder
