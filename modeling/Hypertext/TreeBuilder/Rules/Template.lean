import Hypertext.TreeBuilder.Formatting
import Hypertext.TreeBuilder.Outcome

/-!
# Templates

The rules for the tags of templates, which are the same in every mode.
-/

namespace Hypertext.TreeBuilder

/-- Opens a template. -/
def startTemplate (b : TreeBuilder) (tag : Tag) : TreeBuilder :=
  let b := (b.insertHtml tag).insertMarker.framesetNotOk
  { b with mode := .inTemplate, templateModes := .inTemplate :: b.templateModes }

/-- Closes the innermost template with everything in it. -/
def leaveTemplate (b : TreeBuilder) : TreeBuilder :=
  let b := (b.popThroughName "template").clearToMarker
  { b with templateModes := b.templateModes.tail }.resetMode

/-- An end tag of a template. -/
def endTemplate (b : TreeBuilder) : TreeBuilder :=
  if b.isOpen "template" then
    let b := b.closeImpliedThoroughly
    (b.reportIf (!b.currentIs "template") .unclosedElements).leaveTemplate
  else b.report .unexpectedEndTag

/-- The input ends while a template may be open: one template is closed, and the end is processed
again. -/
def endOfFileInTemplate (b : TreeBuilder) : Outcome :=
  if b.isOpen "template" then
    (b.report .eofWithOpenElements).leaveTemplate.reprocess .endOfFile
  else b.stop.done

end Hypertext.TreeBuilder
