import Hypertext.TreeBuilder.Rules.After
import Hypertext.TreeBuilder.Rules.ForeignContent
import Hypertext.TreeBuilder.Rules.InTemplate
import Hypertext.TreeBuilder.Rules.Select
import Hypertext.TreeBuilder.Rules.Table

/-!
# Tree construction

A token goes to the rules of the insertion mode, or to those of foreign content if the current node
is foreign and does not admit it. A rule may hand a token on, until it is done with.
-/

namespace Hypertext

namespace TreeBuilder

/-- The rules of the current mode. -/
def modeRules (b : TreeBuilder) (token : Token) : Outcome :=
  match b.mode with
  | .initial => b.initial token
  | .beforeHtml => b.beforeHtml token
  | .beforeHead => b.beforeHead token
  | .inHead => b.inHead token
  | .inHeadNoscript => b.inHeadNoscript token
  | .afterHead => b.afterHead token
  | .inBody => b.inBody token
  | .text => b.rawText token
  | .inTable => b.inTable token
  | .inTableText => b.inTableText token
  | .inCaption => b.inCaption token
  | .inColumnGroup => b.inColumnGroup token
  | .inTableBody => b.inTableBody token
  | .inRow => b.inRow token
  | .inCell => b.inCell token
  | .inSelect => b.inSelect token
  | .inSelectInTable => b.inSelectInTable token
  | .inTemplate => b.inTemplate token
  | .afterBody => b.afterBody token
  | .inFrameset => b.inFrameset token
  | .afterFrameset => b.afterFrameset token
  | .afterAfterBody => b.afterAfterBody token
  | .afterAfterFrameset => b.afterAfterFrameset token

/-- Applies the rules for a token. -/
def rules (b : TreeBuilder) (token : Token) : Outcome :=
  if b.usesMode token then b.modeRules token else b.foreignContent token

/-- Follows up an outcome until the token is done with. -/
def settle : (fuel : Nat) → Outcome → TreeBuilder
  | 0, o => o.builder
  | fuel + 1, o =>
    match o.next with
    | .done => o.builder
    | .reprocess token => settle fuel (o.builder.rules token)
    | .byMode token => settle fuel (o.builder.modeRules token)

/-- More than enough rounds for one token: a token that is handed on has changed the mode on the way
into the document, or closed an open element or a template. -/
def roundLimit (b : TreeBuilder) : Nat :=
  32 + 4 * (b.openElements.length + b.templateModes.length)

/-- Processes a token completely. -/
def dispatch (b : TreeBuilder) (token : Token) : TreeBuilder :=
  settle b.roundLimit (b.rules token)

/-- Whether a token is a start tag with the self-closing flag. -/
def isSelfClosing : Token → Bool
  | .startTag tag => tag.selfClosing
  | _ => false

/-- Misuse of a tree builder by its host. -/
inductive HostError where
  /-- A token came after the end of the input. -/
  | alreadyFinished
deriving DecidableEq

def HostError.message : HostError → String
  | .alreadyFinished => "parse session already finished; create a new session for new input"

/-- Takes the next token. A line feed directly after some start tags is dropped; a self-closing flag
that no rule has accepted is an error. -/
def process (b : TreeBuilder) (t : PositionedToken) : Except HostError TreeBuilder :=
  if b.stopped then .error .alreadyFinished
  else
    let skip := b.skipNewline
    let b := { b with position := t.position, skipNewline := false }
    if skip && t.token = .character '\n' then .ok b
    else
      let b := { b with selfClosing := isSelfClosing t.token }.dispatch t.token
      .ok ({ b with selfClosing := false }.reportIf b.selfClosing
        .nonVoidHtmlElementStartTagWithTrailingSolidus)

/-- Takes the request for a state of the tokenizer. -/
def takeStateRequest (b : TreeBuilder) : Option Tokenizer.State × TreeBuilder :=
  (b.stateRequest, { b with stateRequest := none })

/-- Names of the open elements, the outermost first. -/
def openNames (b : TreeBuilder) : List String :=
  b.openElements.reverse.filterMap fun id => (b.tree.element? id).map (·.tagName)

end TreeBuilder

end Hypertext
