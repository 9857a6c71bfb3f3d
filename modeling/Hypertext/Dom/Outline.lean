import Hypertext.Dom.Tree
import Hypertext.Foreign

/-!
# Outlines of documents

An outline shows a document with one line for each node and for each attribute, indented by depth.
The contents of a template come before its children, below a line of their own.
-/

namespace Hypertext

namespace Outline

structure Line where
  depth : Nat
  text : String
deriving DecidableEq

/-- A bar, two blanks for each level of depth, and the text. -/
def Line.render (l : Line) : String :=
  "| " ++ "".pushn ' ' (2 * l.depth) ++ l.text ++ "\n"

def doctypeText (name publicId systemId : String) : String :=
  if publicId.isEmpty && systemId.isEmpty then "<!DOCTYPE " ++ name ++ ">"
  else "<!DOCTYPE " ++ name ++ " \"" ++ publicId ++ "\" \"" ++ systemId ++ "\">"

/-- The name of an element; foreign ones are marked by their namespace. -/
def elementName (e : Element) : String :=
  match e.ns with
  | .html => e.tagName
  | .svg => "svg " ++ e.tagName
  | .mathml => "math " ++ e.tagName

/-- The name of an attribute; on foreign elements a prefix is set off by a blank. -/
def attributeName (ns : Namespace) (name : String) : String :=
  match ns with
  | .html => name
  | .svg | .mathml =>
    match Foreign.qualifiedParts? name with
    | some (start, rest) => start ++ " " ++ rest
    | none => name

/-- The attributes under the names that are shown, in the order of those names. -/
def shownAttributes (e : Element) : List (String × String) :=
  (e.attributes.map fun a => (attributeName e.ns a.1, a.2)).mergeSort Attributes.pairLe

/-- The lines of a node itself. -/
def nodeLines (depth : Nat) : NodeData → List Line
  | .document _ | .fragment => []
  | .doctype name publicId systemId => [⟨depth, doctypeText name publicId systemId⟩]
  | .text text => [⟨depth, "\"" ++ text ++ "\""⟩]
  | .comment text => [⟨depth, "<!-- " ++ text ++ " -->"⟩]
  | .element e =>
    ⟨depth, "<" ++ elementName e ++ ">"⟩
      :: (shownAttributes e).map (fun a => ⟨depth + 1, a.1 ++ "=\"" ++ a.2 ++ "\""⟩)
      ++ (if e.contents.isSome then [⟨depth + 1, "content"⟩] else [])

end Outline

namespace Tree

/-- The lines of a node, if there is such a node. -/
def linesOf (t : Tree) (id : NodeId) (depth : Nat) : List Outline.Line :=
  match t.data? id with
  | some data => Outline.nodeLines depth data
  | none => []

/-- What is shown directly below a node: the contents of a template, then the children. -/
def below (t : Tree) (id : NodeId) (depth : Nat) : List (NodeId × Nat) :=
  let contents := match t.contents? id with
    | some root => (t.children root).map fun child => (child, depth + 2)
    | none => []
  contents ++ (t.children id).map fun child => (child, depth + 1)

/-- Shows the pending nodes in turn, each followed by what is below it. -/
def outlineLoop (t : Tree) : (fuel : Nat) → (pending : List (NodeId × Nat)) → List Outline.Line
  | 0, _ => []
  | _ + 1, [] => []
  | fuel + 1, (id, depth) :: pending =>
    t.linesOf id depth ++ outlineLoop t fuel (t.below id depth ++ pending)

/-- More nodes than an outline shows: a path down a tree without cycles meets no node twice, and
goes on from a node in at most `2 * size` ways. -/
def outlineLimit (t : Tree) : Nat := Nat.pow (2 * t.size + 2) (t.size + 1)

/-- The lines of everything below the document. -/
def outlineLines (t : Tree) : List Outline.Line :=
  t.outlineLoop t.outlineLimit ((t.children root).map fun child => (child, 0))

/-- The outline of a document. -/
def outline (t : Tree) : String := String.join (t.outlineLines.map Outline.Line.render)

end Tree

end Hypertext
