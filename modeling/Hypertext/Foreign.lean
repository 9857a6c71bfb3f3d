import Hypertext.Ascii
import Hypertext.Dom.Element
import Hypertext.Token

/-!
# Names in SVG and MathML

Tags are read in lower case. SVG and MathML have names with capitals, which are put back here, and
attributes with a prefix of their own.
-/

namespace Hypertext.Foreign

/-- SVG elements with capitals in their names. -/
def svgTagNames : List (String × String) :=
  [("altglyph", "altGlyph"), ("altglyphdef", "altGlyphDef"), ("altglyphitem", "altGlyphItem"),
   ("animatecolor", "animateColor"), ("animatemotion", "animateMotion"),
   ("animatetransform", "animateTransform"), ("clippath", "clipPath"), ("feblend", "feBlend"),
   ("fecolormatrix", "feColorMatrix"), ("fecomponenttransfer", "feComponentTransfer"),
   ("fecomposite", "feComposite"), ("feconvolvematrix", "feConvolveMatrix"),
   ("fediffuselighting", "feDiffuseLighting"), ("fedisplacementmap", "feDisplacementMap"),
   ("fedistantlight", "feDistantLight"), ("fedropshadow", "feDropShadow"), ("feflood", "feFlood"),
   ("fefunca", "feFuncA"), ("fefuncb", "feFuncB"), ("fefuncg", "feFuncG"), ("fefuncr", "feFuncR"),
   ("fegaussianblur", "feGaussianBlur"), ("feimage", "feImage"), ("femerge", "feMerge"),
   ("femergenode", "feMergeNode"), ("femorphology", "feMorphology"), ("feoffset", "feOffset"),
   ("fepointlight", "fePointLight"), ("fespecularlighting", "feSpecularLighting"),
   ("fespotlight", "feSpotLight"), ("fetile", "feTile"), ("feturbulence", "feTurbulence"),
   ("foreignobject", "foreignObject"), ("glyphref", "glyphRef"),
   ("lineargradient", "linearGradient"), ("radialgradient", "radialGradient"),
   ("textpath", "textPath")]

/-- SVG attributes with capitals in their names. -/
def svgAttributeNames : List (String × String) :=
  [("attributename", "attributeName"), ("attributetype", "attributeType"),
   ("basefrequency", "baseFrequency"), ("baseprofile", "baseProfile"), ("calcmode", "calcMode"),
   ("clippathunits", "clipPathUnits"), ("diffuseconstant", "diffuseConstant"),
   ("edgemode", "edgeMode"), ("filterunits", "filterUnits"), ("glyphref", "glyphRef"),
   ("gradienttransform", "gradientTransform"), ("gradientunits", "gradientUnits"),
   ("kernelmatrix", "kernelMatrix"), ("kernelunitlength", "kernelUnitLength"),
   ("keypoints", "keyPoints"), ("keysplines", "keySplines"), ("keytimes", "keyTimes"),
   ("lengthadjust", "lengthAdjust"), ("limitingconeangle", "limitingConeAngle"),
   ("markerheight", "markerHeight"), ("markerunits", "markerUnits"),
   ("markerwidth", "markerWidth"), ("maskcontentunits", "maskContentUnits"),
   ("maskunits", "maskUnits"), ("numoctaves", "numOctaves"), ("pathlength", "pathLength"),
   ("patterncontentunits", "patternContentUnits"), ("patterntransform", "patternTransform"),
   ("patternunits", "patternUnits"), ("pointsatx", "pointsAtX"), ("pointsaty", "pointsAtY"),
   ("pointsatz", "pointsAtZ"), ("preservealpha", "preserveAlpha"),
   ("preserveaspectratio", "preserveAspectRatio"), ("primitiveunits", "primitiveUnits"),
   ("refx", "refX"), ("refy", "refY"), ("repeatcount", "repeatCount"), ("repeatdur", "repeatDur"),
   ("requiredextensions", "requiredExtensions"), ("requiredfeatures", "requiredFeatures"),
   ("specularconstant", "specularConstant"), ("specularexponent", "specularExponent"),
   ("spreadmethod", "spreadMethod"), ("startoffset", "startOffset"),
   ("stddeviation", "stdDeviation"), ("stitchtiles", "stitchTiles"),
   ("surfacescale", "surfaceScale"), ("systemlanguage", "systemLanguage"),
   ("tablevalues", "tableValues"), ("targetx", "targetX"), ("targety", "targetY"),
   ("textlength", "textLength"), ("viewbox", "viewBox"), ("viewtarget", "viewTarget"),
   ("xchannelselector", "xChannelSelector"), ("ychannelselector", "yChannelSelector"),
   ("zoomandpan", "zoomAndPan")]

/-- Attributes of other vocabularies: the name, its prefix and what comes after it. -/
def qualifiedNames : List (String × String × String) :=
  [("xlink:actuate", "xlink", "actuate"), ("xlink:arcrole", "xlink", "arcrole"),
   ("xlink:href", "xlink", "href"), ("xlink:role", "xlink", "role"),
   ("xlink:show", "xlink", "show"), ("xlink:title", "xlink", "title"),
   ("xlink:type", "xlink", "type"), ("xml:lang", "xml", "lang"), ("xml:space", "xml", "space"),
   ("xmlns", "", "xmlns"), ("xmlns:xlink", "xmlns", "xlink")]

def adjustSvgTagName (name : String) : String := (svgTagNames.lookup name).getD name

def adjustSvgAttributeName (name : String) : String := (svgAttributeNames.lookup name).getD name

def adjustMathmlAttributeName (name : String) : String :=
  if name = "definitionurl" then "definitionURL" else name

/-- The name of an attribute of another vocabulary, put together again from its parts. -/
def adjustQualifiedName (name : String) : String :=
  match qualifiedNames.lookup name with
  | some (start, rest) => if start.isEmpty then rest else start ++ ":" ++ rest
  | none => name

/-- The prefix of an attribute of another vocabulary and the rest of its name. -/
def qualifiedParts? (name : String) : Option (String × String) :=
  match qualifiedNames.lookup name with
  | some (start, rest) => if start.isEmpty then none else some (start, rest)
  | none => none

/-- The name of an attribute as an element of this namespace has it. -/
def adjustAttributeName (ns : Namespace) (name : String) : String :=
  match ns with
  | .html => adjustQualifiedName name
  | .svg => adjustQualifiedName (adjustSvgAttributeName name)
  | .mathml => adjustQualifiedName (adjustMathmlAttributeName name)

def adjustTagName (ns : Namespace) (name : String) : String :=
  match ns with
  | .svg => adjustSvgTagName name
  | .html | .mathml => name

def adjustAttributes (ns : Namespace) (attributes : List Attribute) : List Attribute :=
  attributes.map fun a => { a with name := adjustAttributeName ns a.name }

/-! ## Integration points -/

/-- MathML elements that hold text. -/
def isTextIntegrationPoint (e : Element) : Bool :=
  e.ns = .mathml && ["mi", "mo", "mn", "ms", "mtext"].contains e.tagName

/-- Foreign elements that hold HTML. -/
def isHtmlIntegrationPoint (e : Element) : Bool :=
  match e.ns with
  | .mathml =>
    e.tagName == "annotation-xml" && (e.attributes.get? "encoding").any fun value =>
      Ascii.sameText value "text/html" || Ascii.sameText value "application/xhtml+xml"
  | .svg => ["foreignObject", "desc", "title"].contains e.tagName
  | .html => false

end Hypertext.Foreign
