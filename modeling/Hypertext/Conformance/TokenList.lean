import Hypertext.Json
import Hypertext.Token

/-!
# Tokens in test files

Test files show tokens as JSON: a list of arrays that begin with the kind of the token. Characters
that follow each other are one text, and the end of the input is not shown.
-/

namespace Hypertext.Conformance

/-- The attributes of a tag as an object. -/
def attributesJson (attributes : List Attribute) : Json :=
  .ofMembers (attributes.map fun a => (a.name, .string a.value))

/-- The entry of a token; characters are left to `tokenEntries`. -/
def tokenEntry : Token → List Json
  | .doctype d =>
    [.array [.string "DOCTYPE", .text? d.name, .text? d.publicId, .text? d.systemId,
      .bool !d.forceQuirks]]
  | .startTag t =>
    [.array ([.string "StartTag", .string t.name, attributesJson t.attributes]
      ++ (if t.selfClosing then [.bool true] else []))]
  | .endTag t => [.array [.string "EndTag", .string t.name]]
  | .comment data => [.array [.string "Comment", .string data]]
  | .character _ | .endOfFile => []

/-- The entry of a text that is not empty. -/
def textEntry (text : String) : List Json :=
  if text.isEmpty then [] else [.array [.string "Character", .string text]]

/-- The entries of tokens that follow the characters of `text`. -/
def tokenEntries : (text : String) → List Token → List Json
  | text, [] => textEntry text
  | text, .character c :: rest => tokenEntries (text.push c) rest
  | text, token :: rest => textEntry text ++ tokenEntry token ++ tokenEntries "" rest

/-- Tokens as a test file shows them. -/
def tokensJson (tokens : List Token) : Json := .array (tokenEntries "" tokens)

end Hypertext.Conformance
