import Hypertext.TreeBuilder.Rules.Body

/-!
# Rules in templates

The first tag inside a template decides by which rules its content is read.
-/

namespace Hypertext.TreeBuilder

/-- The mode for the content of a template that begins with this start tag. -/
def templateModeFor (name : String) : InsertionMode :=
  if ["caption", "colgroup", "tbody", "tfoot", "thead"].contains name then .inTable
  else if name = "col" then .inColumnGroup
  else if name = "tr" then .inTableBody
  else if name = "td" ∨ name = "th" then .inRow
  else .inBody

def inTemplate (b : TreeBuilder) (token : Token) : Outcome :=
  match token with
  | .character _ | .comment _ | .doctype _ => b.inBody token
  | .startTag tag =>
    if Category.headContent.contains tag.name then (b.startHeadContent tag).done
    else
      let mode := templateModeFor tag.name
      { b with mode, templateModes := mode :: b.templateModes.tail }.reprocess token
  | .endTag tag =>
    if tag.name = "template" then b.endTemplate.done else b.refuse .unexpectedEndTag
  | .endOfFile => b.endOfFileInTemplate

end Hypertext.TreeBuilder
