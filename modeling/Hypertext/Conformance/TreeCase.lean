import Hypertext.Dom.Outline
import Hypertext.Session

/-!
# Test cases of tree construction

A test file is a series of cases. A case begins with the line `#data`; each of its sections is
opened by a line with the name of the section.
-/

namespace Hypertext.Conformance

structure TreeCase where
  /-- The document to parse. -/
  data : String := ""
  /-- The expected errors, a line each. -/
  errors : List String := []
  /-- The element that a fragment would be parsed in. -/
  fragmentContext : Option String := none
  scripting : Option Bool := none
  /-- The expected outline. -/
  document : String := ""
deriving DecidableEq

/-! ## Lines -/

/-- The line that ends here: a carriage return at its end belongs to the line break. -/
def lineOf (reversed : List Char) : String :=
  match reversed with
  | '\r' :: rest => String.ofList rest.reverse
  | _ => String.ofList reversed.reverse

/-- Splits a text at line feeds; `reversed` is what has been read of the current line. What comes
after the last line feed is a line if it is not empty, and keeps a carriage return. -/
def linesFrom : (reversed : List Char) → List Char → List String
  | [], [] => []
  | reversed, [] => [String.ofList reversed.reverse]
  | reversed, c :: rest =>
    if c = '\n' then lineOf reversed :: linesFrom [] rest
    else linesFrom (c :: reversed) rest

def lines (text : String) : List String := linesFrom [] text.toList

/-! ## Sections -/

inductive Section where
  | data
  | errors
  | newErrors
  | fragment
  | document
  | script (on : Bool)
deriving DecidableEq

namespace Section

/-- The line that opens a section. -/
def header : Section → String
  | .data => "#data"
  | .errors => "#errors"
  | .newErrors => "#new-errors"
  | .fragment => "#document-fragment"
  | .document => "#document"
  | .script true => "#script-on"
  | .script false => "#script-off"

def all : List Section :=
  [.data, .errors, .newErrors, .fragment, .document, .script true, .script false]

/-- The section that a line opens. -/
def ofLine? (line : String) : Option Section := all.find? fun s => s.header == line

end Section

/-! ## Reading -/

/-- A case of which some lines have been read. -/
structure Draft where
  current : Section := .data
  dataLines : List String := []
  errors : List String := []
  fragmentContext : Option String := none
  scripting : Option Bool := none
  documentLines : List String := []

namespace Draft

/-- Opens a section of the case. -/
def enter (d : Draft) (s : Section) : Draft :=
  match s with
  | .script on => { d with current := s, scripting := some on }
  | _ => { d with current := s }

/-- Adds a line to the current section. Empty lines count only in the data and in the document. -/
def add (d : Draft) (line : String) : Draft :=
  match d.current with
  | .data => { d with dataLines := d.dataLines ++ [line] }
  | .errors => if line.isEmpty then d else { d with errors := d.errors ++ [line] }
  | .fragment => if line.isEmpty then d else { d with fragmentContext := some line }
  | .document => { d with documentLines := d.documentLines ++ [line] }
  | .newErrors | .script _ => d

/-- Removes the empty lines at the end. -/
def trimEnd (lines : List String) : List String :=
  (lines.reverse.dropWhile (·.isEmpty)).reverse

/-- The finished case. The empty line between two cases belongs to none of them. -/
def finish (d : Draft) : TreeCase :=
  { data := "\n".intercalate d.dataLines
    errors := d.errors
    fragmentContext := d.fragmentContext
    scripting := d.scripting
    document := String.join ((trimEnd d.documentLines).map (· ++ "\n")) }

end Draft

/-- Reads the rest of a file after the lines of `draft`; without one, no case has begun yet. -/
def readCases : (draft : Option Draft) → List String → List TreeCase
  | draft, [] => (draft.map Draft.finish).toList
  | draft, line :: rest =>
    match Section.ofLine? line with
    | some .data => (draft.map Draft.finish).toList ++ readCases (some {}) rest
    | some s => readCases (draft.map (·.enter s)) rest
    | none => readCases (draft.map (·.add line)) rest

namespace TreeCase

/-- The cases of a test file. -/
def ofFile (contents : String) : List TreeCase := readCases none (lines contents)

/-- What parsing gave for a case. -/
structure Run where
  /-- The outline of the document. -/
  document : String
  errors : List ParseError

/-- Parses the document of a case. There is no outcome for a fragment. -/
def run (c : TreeCase) : Option Run :=
  match c.fragmentContext with
  | some _ => none
  | none =>
    let parsed := parseDocument c.data { scripting := c.scripting.getD false }
    some { document := parsed.tree.outline, errors := parsed.errors }

/-- Whether a run gave the expected document. -/
def accepts (c : TreeCase) (r : Run) : Bool := r.document == c.document

end TreeCase

end Hypertext.Conformance
