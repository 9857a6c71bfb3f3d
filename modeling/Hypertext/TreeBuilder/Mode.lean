/-!
# Insertion modes
-/

namespace Hypertext

/-- Which rules tree construction follows. -/
inductive InsertionMode where
  | initial
  | beforeHtml
  | beforeHead
  | inHead
  | inHeadNoscript
  | afterHead
  | inBody
  | text
  | inTable
  | inTableText
  | inCaption
  | inColumnGroup
  | inTableBody
  | inRow
  | inCell
  | inSelect
  | inSelectInTable
  | inTemplate
  | afterBody
  | inFrameset
  | afterFrameset
  | afterAfterBody
  | afterAfterFrameset
deriving DecidableEq

/-- The name of a mode in reports. -/
def InsertionMode.name : InsertionMode → String
  | .initial => "Initial"
  | .beforeHtml => "BeforeHtml"
  | .beforeHead => "BeforeHead"
  | .inHead => "InHead"
  | .inHeadNoscript => "InHeadNoscript"
  | .afterHead => "AfterHead"
  | .inBody => "InBody"
  | .text => "Text"
  | .inTable => "InTable"
  | .inTableText => "InTableText"
  | .inCaption => "InCaption"
  | .inColumnGroup => "InColumnGroup"
  | .inTableBody => "InTableBody"
  | .inRow => "InRow"
  | .inCell => "InCell"
  | .inSelect => "InSelect"
  | .inSelectInTable => "InSelectInTable"
  | .inTemplate => "InTemplate"
  | .afterBody => "AfterBody"
  | .inFrameset => "InFrameset"
  | .afterFrameset => "AfterFrameset"
  | .afterAfterBody => "AfterAfterBody"
  | .afterAfterFrameset => "AfterAfterFrameset"

end Hypertext
