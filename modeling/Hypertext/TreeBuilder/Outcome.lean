import Hypertext.Ascii
import Hypertext.TreeBuilder.Basic

/-!
# Tree construction: what a rule leaves to do

A rule changes the tree builder and says whether the token is done with. If it is not, a token is
processed next: from the start, or by the rules of the mode whatever the current node is.
-/

namespace Hypertext.TreeBuilder

inductive Continuation where
  | done
  | reprocess (token : Token)
  | byMode (token : Token)
deriving DecidableEq

structure Outcome where
  builder : TreeBuilder
  next : Continuation := .done

/-- The token is done with. -/
def done (b : TreeBuilder) : Outcome := { builder := b }

/-- The token is done with, and it was an error. -/
def refuse (b : TreeBuilder) (kind : ErrorKind) : Outcome := (b.report kind).done

/-- The token is processed again from the start. -/
def reprocess (b : TreeBuilder) (token : Token) : Outcome :=
  { builder := b, next := .reprocess token }

/-- The token is processed by the rules of the mode. -/
def byMode (b : TreeBuilder) (token : Token) : Outcome := { builder := b, next := .byMode token }

end Hypertext.TreeBuilder

namespace Hypertext

/-- A blank where text is not allowed yet. A carriage return counts, though none is left in
normalized input. -/
def isSpace (c : Char) : Bool := Ascii.isBlank c || c == '\r'

/-- The error of a token that a mode has no rule for. -/
def Token.unexpected : Token → ErrorKind
  | .startTag _ => .unexpectedStartTag
  | .endTag _ => .unexpectedEndTag
  | .doctype _ => .unexpectedDoctype
  | .character _ | .comment _ | .endOfFile => .unexpectedText

end Hypertext
