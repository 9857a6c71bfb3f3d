import Hypertext.Json.Record
import Hypertext.Tokenizer
import Hypertext.TreeBuilder

/-!
# Parsing documents

A `Session` moves tokens from a tokenizer to a tree builder, one at a time. Between two tokens the
tree builder may have the tokenizer go on in another state: the contents of some elements are no
markup.
-/

namespace Hypertext

/-- What the host knows about a document before it is parsed. -/
structure ParseOptions where
  /-- Whether scripts would be run; it decides how `noscript` is read. -/
  scripting : Bool := false
  /-- Whether the document is given by an attribute of a frame: it then needs no document type. -/
  srcdoc : Bool := false
  /-- The state that the tokenizer begins in. -/
  initialState : Option Tokenizer.State := none
  /-- The start tag that the tokenizer takes for the last one. -/
  lastStartTag : Option String := none
deriving DecidableEq

namespace ParseOptions

/-! ## Options as JSON -/

/-- The name of a state, or an object with that name and nothing else. -/
def stateOfJson? : Json → Option Tokenizer.State
  | .string name => Tokenizer.State.ofName? name
  | .object [(name, .null)] => Tokenizer.State.ofName? name
  | _ => none

/-- The names of the options. -/
def partNames : List String := ["scripting", "iframe_srcdoc", "initial_state", "last_start_tag"]

/-- Reads options from a record all of whose parts may be absent. -/
def ofJson? (value : Json) : Option ParseOptions := do
  match ← value.canonical.parts? partNames with
  | [scripting, srcdoc, initialState, lastStartTag] =>
    some
      { scripting := ← Json.orDefault Json.asBool? false scripting
        srcdoc := ← Json.orDefault Json.asBool? false srcdoc
        initialState := ← Json.orDefault (Json.nullable? stateOfJson?) none initialState
        lastStartTag := ← Json.orDefault (Json.nullable? Json.asString?) none lastStartTag }
  | _ => none

end ParseOptions

/-- A tokenizer and a tree builder at work on one document. -/
structure Session where
  tokenizer : Tokenizer
  builder : TreeBuilder

/-- The outcome of parsing a document. -/
structure ParsedDocument where
  tree : Tree
  /-- Errors of the tokenizer and of tree construction, in order of detection. -/
  errors : List ParseError

namespace ParsedDocument

def mode (d : ParsedDocument) : DocumentMode := d.tree.mode

end ParsedDocument

namespace Session

/-- A tokenizer set up as the options say. -/
def tokenizerFor (html : String) (options : ParseOptions) : Tokenizer :=
  let t := Tokenizer.ofString html
  let t := match options.initialState with
    | some state => t.switchTo state
    | none => t
  match options.lastStartTag with
  | some name => t.setLastStartTag (some name)
  | none => t

/-- A session at the start of a document. -/
def start (html : String) (options : ParseOptions) : Session :=
  { tokenizer := tokenizerFor html options
    builder := { scripting := options.scripting, srcdoc := options.srcdoc } }

/-- Whether the end of the input has been processed. -/
def finished (s : Session) : Bool := s.builder.stopped

/-- The errors so far. -/
def errors (s : Session) : ErrorLog := s.builder.errors

/-- Goes on in the state that the tree builder asked for. -/
def applyRequest (s : Session) : Session :=
  match s.builder.takeStateRequest with
  | (some state, builder) => ⟨s.tokenizer.switchTo state, builder⟩
  | (none, builder) => { s with builder }

/-- Moves one token from the tokenizer to the tree builder. The errors met while reading it come
before those that tree construction finds. -/
def step (s : Session) : Except TreeBuilder.HostError Session :=
  if s.finished then .error .alreadyFinished
  else
    let (token, tokenizer) := s.tokenizer.nextToken s.builder.isForeign
    let (errors, tokenizer) := tokenizer.takeErrors
    let builder := { s.builder with errors := s.builder.errors.append errors }
    match builder.process token with
    | .ok builder => .ok (applyRequest ⟨tokenizer, builder⟩)
    | .error e => .error e

/-- Steps until the end of the input has been processed. -/
def steps : (fuel : Nat) → Session → Except TreeBuilder.HostError Session
  | 0, s => .ok s
  | fuel + 1, s =>
    match s.step with
    | .error e => .error e
    | .ok s => if s.finished then .ok s else steps fuel s

/-- Parses what is left of the document. -/
def run (s : Session) : Except TreeBuilder.HostError Session := steps (s.tokenizer.tokenLimit + 1) s

/-- Ends a session, at whatever place it is. -/
def finish (s : Session) : ParsedDocument :=
  { tree := s.builder.tree, errors := s.builder.errors.entries.toList }

end Session

/-- Parses a whole document. -/
def parseDocument (html : String) (options : ParseOptions) : ParsedDocument :=
  let s := Session.start html options
  match s.run with
  | .ok s => s.finish
  | .error _ => s.finish

end Hypertext
