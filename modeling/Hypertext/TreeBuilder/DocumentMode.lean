import Hypertext.Dom.Tree
import Hypertext.Token

/-!
# The mode of a document

A document type declaration decides how closely layout has to follow old browsers. Identifiers are
compared without regard to the case of ASCII letters.
-/

namespace Hypertext

namespace DocumentMode

/-- Public identifiers of old documents. -/
def quirksPublicIds : List String :=
  ["-//w3o//dtd w3 html strict 3.0//en//", "-/w3c/dtd html 4.0 transitional/en", "html"]

/-- How public identifiers of old documents begin. -/
def quirksPublicStarts : List String :=
  ["+//silmaril//dtd html pro v0r11 19970101//", "-//as//dtd html 3.0 aswedit + extensions//",
   "-//advasoft ltd//dtd html 3.0 aswedit + extensions//", "-//ietf//dtd html 2.0 level 1//",
   "-//ietf//dtd html 2.0 level 2//", "-//ietf//dtd html 2.0 strict level 1//",
   "-//ietf//dtd html 2.0 strict level 2//", "-//ietf//dtd html 2.0 strict//",
   "-//ietf//dtd html 2.0//", "-//ietf//dtd html 2.1e//", "-//ietf//dtd html 3.0//",
   "-//ietf//dtd html 3.2 final//", "-//ietf//dtd html 3.2//", "-//ietf//dtd html 3//",
   "-//ietf//dtd html level 0//", "-//ietf//dtd html level 1//", "-//ietf//dtd html level 2//",
   "-//ietf//dtd html level 3//", "-//ietf//dtd html strict level 0//",
   "-//ietf//dtd html strict level 1//", "-//ietf//dtd html strict level 2//",
   "-//ietf//dtd html strict level 3//", "-//ietf//dtd html strict//", "-//ietf//dtd html//",
   "-//metrius//dtd metrius presentational//",
   "-//microsoft//dtd internet explorer 2.0 html strict//",
   "-//microsoft//dtd internet explorer 2.0 html//",
   "-//microsoft//dtd internet explorer 2.0 tables//",
   "-//microsoft//dtd internet explorer 3.0 html strict//",
   "-//microsoft//dtd internet explorer 3.0 html//",
   "-//microsoft//dtd internet explorer 3.0 tables//", "-//netscape comm. corp.//dtd html//",
   "-//netscape comm. corp.//dtd strict html//", "-//o'reilly and associates//dtd html 2.0//",
   "-//o'reilly and associates//dtd html extended 1.0//",
   "-//o'reilly and associates//dtd html extended relaxed 1.0//",
   "-//sq//dtd html 2.0 hotmetal + extensions//",
   "-//softquad software//dtd hotmetal pro 6.0::19990601::extensions to html 4.0//",
   "-//softquad//dtd hotmetal pro 4.0::19971010::extensions to html 4.0//",
   "-//spyglass//dtd html 2.0 extended//", "-//sun microsystems corp.//dtd hotjava html//",
   "-//sun microsystems corp.//dtd hotjava strict html//", "-//w3c//dtd html 3 1995-03-24//",
   "-//w3c//dtd html 3.2 draft//", "-//w3c//dtd html 3.2 final//", "-//w3c//dtd html 3.2//",
   "-//w3c//dtd html 3.2s draft//", "-//w3c//dtd html 4.0 frameset//",
   "-//w3c//dtd html 4.0 transitional//", "-//w3c//dtd html experimental 19960712//",
   "-//w3c//dtd html experimental 970421//", "-//w3c//dtd w3 html//", "-//w3o//dtd w3 html 3.0//",
   "-//webtechs//dtd mozilla html 2.0//", "-//webtechs//dtd mozilla html//"]

/-- How public identifiers begin that depend on whether there is a system identifier. -/
def dependentPublicStarts : List String :=
  ["-//w3c//dtd html 4.01 frameset//", "-//w3c//dtd html 4.01 transitional//"]

def limitedPublicStarts : List String :=
  ["-//w3c//dtd xhtml 1.0 frameset//", "-//w3c//dtd xhtml 1.0 transitional//"]

/-- The system identifier of old documents. -/
def quirksSystemId : String := "http://www.ibm.com/data/dtd/v11/ibmxhtml1-transitional.dtd"

end DocumentMode

namespace Doctype

open DocumentMode in
/-- The mode that a declaration selects. -/
def documentMode (d : Doctype) : DocumentMode :=
  let publicId := d.publicId.map String.toLower
  let systemId := d.systemId.map String.toLower
  let startsWithOne (starts : List String) : Bool :=
    publicId.any fun id => starts.any fun s => s.toList.isPrefixOf id.toList
  if d.forceQuirks || d.name != some "html" then .quirks
  else if publicId.any quirksPublicIds.contains || systemId == some quirksSystemId
      || startsWithOne quirksPublicStarts
      || (systemId.isNone && startsWithOne dependentPublicStarts) then .quirks
  else if startsWithOne limitedPublicStarts
      || (systemId.isSome && startsWithOne dependentPublicStarts) then .limitedQuirks
  else .noQuirks

/-- Whether the declaration is one that documents should have. -/
def isConforming (d : Doctype) : Bool :=
  d.name == some "html" && d.publicId.isNone
    && (d.systemId.isNone || d.systemId == some "about:legacy-compat")

end Doctype

end Hypertext
