import Hypertext.TreeBuilder.Rules.Body

/-!
# Rules in select elements
-/

namespace Hypertext.TreeBuilder

/-- Closes the select element. -/
def leaveSelect (b : TreeBuilder) : TreeBuilder := (b.popThroughName "select").resetMode

def selectStart (b : TreeBuilder) (tag : Tag) : Outcome :=
  if tag.name = "html" then (b.repeatedHtml tag).done
  else if tag.name = "option" then ((b.popIf "option").insertHtml tag).done
  else if tag.name = "optgroup" then (((b.popIf "option").popIf "optgroup").insertHtml tag).done
  else if tag.name = "hr" then (((b.popIf "option").popIf "optgroup").insertVoid tag).done
  else if tag.name = "select" then
    let b := b.report .unexpectedStartTag
    if b.inScope .select "select" then b.leaveSelect.done else b.done
  else if ["input", "keygen", "textarea"].contains tag.name then
    let b := b.report .unexpectedStartTag
    if b.inScope .select "select" then b.leaveSelect.reprocess (.startTag tag) else b.done
  else if ["script", "template"].contains tag.name then (b.startHeadContent tag).done
  else b.refuse .unexpectedStartTag

/-- An end tag of a group ends an option that stands directly in the group, too. -/
def endOptionGroup (b : TreeBuilder) : TreeBuilder :=
  let b :=
    if b.currentIs "option" && b.openElements.length ≥ 2 then
      b.attempt do
        let group ← b.openAt? (b.openElements.length - 2)
        return if b.isHtml "optgroup" group then b.pop else b
    else b
  if b.currentIs "optgroup" then b.pop else b.report .unexpectedEndTag

def selectEnd (b : TreeBuilder) (tag : Tag) : Outcome :=
  if tag.name = "optgroup" then b.endOptionGroup.done
  else if tag.name = "option" then
    if b.currentIs "option" then b.pop.done else b.refuse .unexpectedEndTag
  else if tag.name = "select" then
    if b.inScope .select "select" then b.leaveSelect.done else b.refuse .unexpectedEndTag
  else if tag.name = "template" then b.endTemplate.done
  else b.refuse .unexpectedEndTag

def inSelect (b : TreeBuilder) (token : Token) : Outcome :=
  match token with
  | .character c =>
    if c = '\x00' then b.refuse .unexpectedNullCharacter else (b.insertChar c).done
  | .comment data => (b.insertComment data).done
  | .doctype _ => b.refuse .unexpectedDoctype
  | .startTag tag => b.selectStart tag
  | .endTag tag => b.selectEnd tag
  | .endOfFile => b.bodyEndOfFile

/-- Tags of tables, which end a select element inside a table. -/
def endsSelectInTable (name : String) : Bool :=
  ["caption", "table", "tbody", "tfoot", "thead", "tr", "td", "th"].contains name

def inSelectInTable (b : TreeBuilder) (token : Token) : Outcome :=
  match token with
  | .startTag tag =>
    if endsSelectInTable tag.name then
      (b.report .unexpectedStartTag).leaveSelect.reprocess token
    else b.inSelect token
  | .endTag tag =>
    if endsSelectInTable tag.name then
      let b := b.report .unexpectedEndTag
      if b.inScope .table tag.name then b.leaveSelect.reprocess token else b.done
    else b.inSelect token
  | _ => b.inSelect token

end Hypertext.TreeBuilder
