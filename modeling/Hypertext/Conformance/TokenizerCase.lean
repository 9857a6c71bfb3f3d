import Hypertext.Conformance.Escape
import Hypertext.Conformance.TokenList
import Hypertext.Json.Reader
import Hypertext.Json.Record
import Hypertext.Tokenizer

/-!
# Test cases of the tokenizer

A test file is a JSON record with a list of cases. A case is run once for each of its
initial states.
-/

namespace Hypertext.Conformance

/-- An expected error. Lines and columns count from one. -/
structure ExpectedError where
  code : String
  line : Nat
  column : Nat
deriving DecidableEq

structure TokenizerCase where
  description : String
  input : String
  /-- The expected tokens. -/
  output : Json
  /-- The states to begin in, by name; without any it is the data state. -/
  initialStates : List String := []
  lastStartTag : Option String := none
  /-- Whether the texts of input and output are escaped. -/
  doubleEscaped : Bool := false
  errors : List ExpectedError := []

/-! ## Reading -/

/-- The deepest nesting that the expected tokens of a case may have. -/
def outputDepthLimit : Nat := 124

def ExpectedError.ofJson? (value : RawJson) : Option ExpectedError := do
  match ← value.parts? ["code", "line", "col"] with
  | [some code, some line, some column] =>
    some ⟨← code.reading Json.asString?, ← line.reading Json.asNat?, ← column.reading Json.asNat?⟩
  | _ => none

/-- Expected tokens, with the last of repeated members. -/
def outputOfJson? (value : Json) : Option Json :=
  if value.depth ≤ outputDepthLimit then some value.canonical else none

namespace TokenizerCase

/-- The names of the parts of a case. -/
def partNames : List String :=
  ["description", "input", "output", "initialStates", "lastStartTag", "doubleEscaped", "errors"]

def ofJson? (value : RawJson) : Option TokenizerCase := do
  match ← value.parts? partNames with
  | [some description, some input, some output, initialStates, lastStartTag,
    doubleEscaped, errors] =>
    some
      { description := ← description.reading Json.asString?
        input := ← input.reading Json.asString?
        output := ← output.reading outputOfJson?
        initialStates :=
          ← Json.orDefault (RawJson.reading (Json.list? Json.asString?)) [] initialStates
        lastStartTag :=
          ← Json.orDefault (RawJson.reading (Json.nullable? Json.asString?)) none lastStartTag
        doubleEscaped := ← Json.orDefault (RawJson.reading Json.asBool?) false doubleEscaped
        errors := ← Json.orDefault (RawJson.list? ExpectedError.ofJson?) [] errors }
  | _ => none

/-- The cases of a test file. A file without a list of cases has none. -/
def ofFile? (contents : String) : Option (List TokenizerCase) := do
  match ← (← RawJson.parse? contents).parts? ["tests"] with
  | [tests] => Json.orDefault (RawJson.list? ofJson?) [] tests
  | _ => none

/-! ## Running a case -/

/-- The expected tokens, without escapes. -/
def expected (c : TokenizerCase) : Json :=
  if c.doubleEscaped then c.output.mapStrings unescape else c.output

def expectedCodes (c : TokenizerCase) : List String := c.errors.map (·.code)

/-- The states that a test file can name. -/
def stateOfName? : String → Option Tokenizer.State
  | "Data state" => some .data
  | "PLAINTEXT state" => some .plaintext
  | "RCDATA state" => some (.text .rcdata)
  | "RAWTEXT state" => some (.text .rawtext)
  | "Script data state" => some (.text .scriptData)
  | "CDATA section state" => some .cdataSection
  | _ => none

/-- Why a case cannot be run. -/
inductive Failure where
  | unknownState (name : String)
deriving DecidableEq

def Failure.message : Failure → String
  | .unknownState name => "unknown initial tokenizer state \x60" ++ name ++ "\x60"

/-- What the tokenizer gave for one initial state. -/
structure Run where
  state : Tokenizer.State
  output : Json
  /-- The codes of the errors, in order. -/
  errors : List String

/-- The states to begin in, or the first name that is none. -/
def states (c : TokenizerCase) : Except Failure (List Tokenizer.State) :=
  if c.initialStates.isEmpty then .ok [.data]
  else c.initialStates.mapM fun name =>
    match stateOfName? name with
    | some state => .ok state
    | none => .error (.unknownState name)

def runIn (c : TokenizerCase) (state : Tokenizer.State) : Run :=
  let input := if c.doubleEscaped then unescape c.input else c.input
  let start := ((Tokenizer.ofString input).switchTo state).setLastStartTag c.lastStartTag
  let (tokens, stopped) := start.run
  { state
    output := tokensJson tokens
    errors := stopped.errors.entries.toList.map (·.kind.code) }

/-- Tokenizes the input once for each initial state. -/
def run (c : TokenizerCase) : Except Failure (List Run) := do
  return (← c.states).map c.runIn

/-- Whether a run gave the expected tokens and errors. -/
def accepts (c : TokenizerCase) (r : Run) : Bool :=
  r.output.same c.expected && r.errors == c.expectedCodes

end TokenizerCase

end Hypertext.Conformance
