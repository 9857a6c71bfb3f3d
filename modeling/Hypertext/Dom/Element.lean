/-!
# Elements

Names, namespaces and attributes. The names of attributes are pairwise different; the list of
classes is read off the attribute `class`.
-/

namespace Hypertext

/-- An index into the nodes of a tree. -/
abbrev NodeId : Type := Nat

inductive Namespace where
  | html
  | svg
  | mathml
deriving DecidableEq

namespace Namespace

/-- The name of a namespace in reports. -/
def name : Namespace → String
  | .html => "Html"
  | .svg => "Svg"
  | .mathml => "MathMl"

def url : Namespace → String
  | .html => "http://www.w3.org/1999/xhtml"
  | .svg => "http://www.w3.org/2000/svg"
  | .mathml => "http://www.w3.org/1998/Math/MathML"

end Namespace

/-! ## Attributes -/

/-- Attributes of an element: names with values, each name once. -/
abbrev Attributes : Type := List (String × String)

namespace Attributes

def get? (as : Attributes) (name : String) : Option String := as.lookup name

def contains (as : Attributes) (name : String) : Bool := (as.get? name).isSome

/-- Sets a value; a new name goes to the end. -/
def set (as : Attributes) (name value : String) : Attributes :=
  match as with
  | [] => [(name, value)]
  | (k, v) :: rest => if k = name then (k, value) :: rest else (k, v) :: set rest name value

def erase (as : Attributes) (name : String) : Attributes := as.filter fun a => a.1 != name

/-- Adds a name that is not there yet; an existing value stays. -/
def addNew (as : Attributes) (name value : String) : Attributes :=
  if as.contains name then as else as ++ [(name, value)]

/-- The value given last for each name. -/
def ofPairs (pairs : List (String × String)) : Attributes :=
  pairs.foldl (fun as p => as.set p.1 p.2) []

/-- Whether two elements have the same names with the same values, in any order. -/
def sameAs (as bs : Attributes) : Bool :=
  as.length == bs.length && as.all fun a => bs.get? a.1 == some a.2

/-- Order of pairs by name, then value. -/
def pairLe (a b : String × String) : Bool :=
  a.1 < b.1 || (a.1 == b.1 && (a.2 < b.2 || a.2 == b.2))

/-- The attributes in order of their names. -/
def sorted (as : Attributes) : List (String × String) := as.mergeSort pairLe

end Attributes

/-! ## Classes -/

/-- A character that separates the names in a `class` attribute. -/
def isClassGap (c : Char) : Bool :=
  c == '\t' || c == '\n' || c == '\x0c' || c == '\r' || c == ' '

/-- The words of a text; `word` is what has been read of the current one. -/
def splitWords : (word : String) → List Char → List String
  | word, [] => if word.isEmpty then [] else [word]
  | word, c :: rest =>
    if isClassGap c then
      if word.isEmpty then splitWords "" rest else word :: splitWords "" rest
    else splitWords (word.push c) rest

/-- The names in the value of a `class` attribute, each once, in order of first appearance. -/
def classNames (value : String) : List String := (splitWords "" value.toList).eraseDups

/-! ## Elements -/

structure Element where
  tagName : String
  ns : Namespace := .html
  attributes : Attributes := []
  /-- The root of the contents of a template. -/
  contents : Option NodeId := none
deriving DecidableEq

namespace Element

/-- Whether this is the HTML element of this name. -/
def isHtml (e : Element) (name : String) : Bool := e.ns = .html && e.tagName == name

/-- Whether this is an HTML element with one of these names. -/
def isHtmlOf (e : Element) (names : List String) : Bool := e.ns = .html && names.contains e.tagName

def classes (e : Element) : List String :=
  match e.attributes.get? "class" with
  | some value => classNames value
  | none => []

def id? (e : Element) : Option String := e.attributes.get? "id"

end Element

end Hypertext
