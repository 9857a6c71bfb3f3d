import Hypertext.TreeBuilder.Rules.Body

/-!
# Rules in tables

What may not stand in a table is put before it, by the rules of the body.
-/

namespace Hypertext.TreeBuilder

/-- Applies the rules of the body with content put before the table. -/
def fosterParent (b : TreeBuilder) (token : Token) : Outcome :=
  let outcome := { b with fostering := true }.inBody token
  { outcome with builder := { outcome.builder with fostering := false } }

/-- A tag that may not stand in a table. -/
def misplacedInTable (b : TreeBuilder) (token : Token) : Outcome :=
  match token with
  | .character _ => b.fosterParent token
  | .endTag _ => (b.report .unexpectedEndTag).fosterParent token
  | _ => (b.report .unexpectedStartTag).fosterParent token

/-! ## Between the parts of a table -/

/-- The kinds of start tags in a table. -/
inductive TableStart where
  | caption
  | columnGroup
  | column
  | section
  | rowOrCell
  | table
  | headContent
  | input
  | form
  | other
deriving DecidableEq

def TableStart.ofName (name : String) : TableStart :=
  if name = "caption" then .caption
  else if name = "colgroup" then .columnGroup
  else if name = "col" then .column
  else if Category.tableSections.contains name then .section
  else if ["td", "th", "tr"].contains name then .rowOrCell
  else if name = "table" then .table
  else if ["style", "script", "template"].contains name then .headContent
  else if name = "input" then .input
  else if name = "form" then .form
  else .other

/-- Closes the innermost table. -/
def leaveTable (b : TreeBuilder) : TreeBuilder := (b.popThroughName "table").resetMode

def tableStart (b : TreeBuilder) (tag : Tag) : Outcome :=
  match TableStart.ofName tag.name with
  | .caption => ((b.popToTable.insertMarker.insertHtml tag).switchTo .inCaption).done
  | .columnGroup => ((b.popToTable.insertHtml tag).switchTo .inColumnGroup).done
  | .column =>
    ((b.popToTable.insertNamed "colgroup").switchTo .inColumnGroup).reprocess (.startTag tag)
  | .section => ((b.popToTable.insertHtml tag).switchTo .inTableBody).done
  | .rowOrCell =>
    ((b.popToTable.insertNamed "tbody").switchTo .inTableBody).reprocess (.startTag tag)
  | .table =>
    let b := b.report .unexpectedStartTag
    if b.inScope .table "table" then b.leaveTable.reprocess (.startTag tag) else b.done
  | .headContent => (b.startHeadContent tag).done
  | .input =>
    if isHiddenInput tag then ((b.report .unexpectedStartTag).insertVoid tag).done
    else b.misplacedInTable (.startTag tag)
  | .form =>
    let b := b.report .unexpectedStartTag
    if b.isOpen "template" || b.formElement.isSome then b.done
    else
      let b := b.insertHtml tag
      { b with formElement := b.currentNode? }.pop.done
  | .other => b.misplacedInTable (.startTag tag)

/-- End tags of the parts of a table, and of the elements around it. -/
def isTablePartEnd (name : String) : Bool :=
  ["body", "caption", "col", "colgroup", "html", "tbody", "td", "tfoot", "th", "thead",
   "tr"].contains name

def tableEnd (b : TreeBuilder) (tag : Tag) : Outcome :=
  if tag.name = "table" then
    if b.inScope .table "table" then b.leaveTable.done else b.refuse .unexpectedEndTag
  else if isTablePartEnd tag.name then b.refuse .unexpectedEndTag
  else if tag.name = "template" then b.endTemplate.done
  else b.misplacedInTable (.endTag tag)

/-- Text in a table is collected first. -/
def tableChar (b : TreeBuilder) (c : Char) : Outcome :=
  if b.currentIsOf ["table", "tbody", "template", "tfoot", "thead", "tr"] then
    { b with tableText := [], resumeMode := some b.mode, mode := .inTableText }.reprocess
      (.character c)
  else (b.report .unexpectedText).misplacedInTable (.character c)

def inTable (b : TreeBuilder) (token : Token) : Outcome :=
  match token with
  | .character c => b.tableChar c
  | .comment data => (b.insertComment data).done
  | .doctype _ => b.refuse .unexpectedDoctype
  | .startTag tag => b.tableStart tag
  | .endTag tag => b.tableEnd tag
  | .endOfFile => b.bodyEndOfFile

/-! ## Text -/

/-- Inserts the collected text: blanks stay in the table, any other text goes before it. -/
def flushTableText (b : TreeBuilder) : TreeBuilder :=
  let text := b.tableText
  let b := { b with tableText := [] }
  if text.all isSpace then text.foldl insertChar b
  else
    text.foldl (fun b c => (b.misplacedInTable (.character c)).builder) (b.report .unexpectedText)

def inTableText (b : TreeBuilder) (token : Token) : Outcome :=
  match token with
  | .character c =>
    if c = '\x00' then b.refuse .unexpectedNullCharacter
    else { b with tableText := b.tableText ++ [c] }.done
  | _ => b.flushTableText.resume.reprocess token

/-! ## Captions -/

/-- Ends a caption that is in scope, and goes on with `next`. -/
def endCaption (b : TreeBuilder) (next : TreeBuilder → Outcome) : Outcome :=
  if b.inScope .table "caption" then
    next ((b.closeNamed "caption" none).clearToMarker.switchTo .inTable)
  else b.refuse .unexpectedEndTag

def inCaption (b : TreeBuilder) (token : Token) : Outcome :=
  match token with
  | .startTag tag =>
    if Category.tableStructure.contains tag.name then b.endCaption (·.reprocess token)
    else b.inBody token
  | .endTag tag =>
    if tag.name = "caption" then b.endCaption done
    else if tag.name = "table" then b.endCaption (·.reprocess token)
    else if isTablePartEnd tag.name then b.refuse .unexpectedEndTag
    else b.inBody token
  | _ => b.inBody token

/-! ## Columns -/

/-- A token that ends a group of columns. -/
def leaveColumnGroup (b : TreeBuilder) (token : Token) : Outcome :=
  if b.currentIs "colgroup" then (b.pop.switchTo .inTable).reprocess token
  else b.refuse .unexpectedText

def inColumnGroup (b : TreeBuilder) (token : Token) : Outcome :=
  match token with
  | .character c => if isSpace c then (b.insertChar c).done else b.leaveColumnGroup token
  | .comment data => (b.insertComment data).done
  | .doctype _ => b.refuse .unexpectedDoctype
  | .startTag tag =>
    if tag.name = "html" then (b.repeatedHtml tag).done
    else if tag.name = "col" then (b.insertVoid tag).done
    else if tag.name = "template" then (b.startHeadContent tag).done
    else b.leaveColumnGroup token
  | .endTag tag =>
    if tag.name = "colgroup" then
      if b.currentIs "colgroup" then (b.pop.switchTo .inTable).done
      else b.refuse .unexpectedEndTag
    else if tag.name = "col" then b.refuse .unexpectedEndTag
    else if tag.name = "template" then b.endTemplate.done
    else b.leaveColumnGroup token
  | .endOfFile => b.bodyEndOfFile

/-! ## Sections and rows -/

/-- Ends a section of the table that is in scope and processes the token again. -/
def leaveTableBody (b : TreeBuilder) (token : Token) : Outcome :=
  if b.anyInScope .table Category.tableSections then
    (b.popToTableBody.pop.switchTo .inTable).reprocess token
  else b.refuse token.unexpected

def inTableBody (b : TreeBuilder) (token : Token) : Outcome :=
  match token with
  | .startTag tag =>
    if tag.name = "tr" then ((b.popToTableBody.insertHtml tag).switchTo .inRow).done
    else if tag.name = "th" ∨ tag.name = "td" then
      (((b.report .unexpectedStartTag).popToTableBody.insertNamed "tr").switchTo .inRow).reprocess
        token
    else if ["caption", "col", "colgroup", "tbody", "tfoot", "thead"].contains tag.name then
      b.leaveTableBody token
    else b.inTable token
  | .endTag tag =>
    if Category.tableSections.contains tag.name then
      if b.inScope .table tag.name then (b.popToTableBody.pop.switchTo .inTable).done
      else b.refuse .unexpectedEndTag
    else if tag.name = "table" then b.leaveTableBody token
    else if ["body", "caption", "col", "colgroup", "html", "td", "th", "tr"].contains tag.name then
      b.refuse .unexpectedEndTag
    else b.inTable token
  | _ => b.inTable token

/-- Ends a row that is in scope, and goes on with `next`. -/
def endRow (b : TreeBuilder) (token : Token) (next : TreeBuilder → Outcome) : Outcome :=
  if b.inScope .table "tr" then next (b.popToRow.pop.switchTo .inTableBody)
  else b.refuse token.unexpected

def inRow (b : TreeBuilder) (token : Token) : Outcome :=
  match token with
  | .startTag tag =>
    if tag.name = "th" ∨ tag.name = "td" then
      ((b.popToRow.insertHtml tag).switchTo .inCell).insertMarker.done
    else if ["caption", "col", "colgroup", "tbody", "tfoot", "thead", "tr"].contains tag.name then
      b.endRow token (·.reprocess token)
    else b.inTable token
  | .endTag tag =>
    if tag.name = "tr" then b.endRow token done
    else if tag.name = "table" then b.endRow token (·.reprocess token)
    else if Category.tableSections.contains tag.name then
      if b.inScope .table tag.name then b.endRow token (·.reprocess token)
      else b.refuse .unexpectedEndTag
    else if ["body", "caption", "col", "colgroup", "html", "td", "th"].contains tag.name then
      b.refuse .unexpectedEndTag
    else b.inTable token
  | _ => b.inTable token

/-! ## Cells -/

/-- Ends the open cell, whichever kind it is. -/
def closeCell (b : TreeBuilder) : TreeBuilder :=
  let b := b.closeImplied none
  let b := b.reportIf (!b.currentIsOf ["td", "th"]) .unclosedElements
  (b.popThrough (b.isHtmlOf ["td", "th"])).clearToMarker.switchTo .inRow

def inCell (b : TreeBuilder) (token : Token) : Outcome :=
  match token with
  | .startTag tag =>
    if Category.tableStructure.contains tag.name then
      if b.anyInScope .table ["td", "th"] then b.closeCell.reprocess token
      else b.refuse .unexpectedStartTag
    else b.inBody token
  | .endTag tag =>
    if tag.name = "td" ∨ tag.name = "th" then
      if b.inScope .table tag.name then
        ((b.closeNamed tag.name none).clearToMarker.switchTo .inRow).done
      else b.refuse .unexpectedEndTag
    else if ["body", "caption", "col", "colgroup", "html"].contains tag.name then
      b.refuse .unexpectedEndTag
    else if ["table", "tbody", "tfoot", "thead", "tr"].contains tag.name then
      if b.inScope .table tag.name then b.closeCell.reprocess token
      else b.refuse .unexpectedEndTag
    else b.inBody token
  | _ => b.inBody token

end Hypertext.TreeBuilder
