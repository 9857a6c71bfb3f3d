import Hypertext.Dom.Element

/-!
# Categories of elements

The lists of names that the rules of tree construction refer to, and the scopes in which open
elements are looked for.
-/

namespace Hypertext

namespace Category

/-- HTML elements that end a search for an open element. -/
def specialHtml : List String :=
  ["address", "applet", "area", "article", "aside", "base", "basefont", "bgsound", "blockquote",
   "body", "br", "button", "caption", "center", "col", "colgroup", "dd", "details", "dir", "div",
   "dl", "dt", "embed", "fieldset", "figcaption", "figure", "footer", "form", "frame", "frameset",
   "h1", "h2", "h3", "h4", "h5", "h6", "head", "header", "hgroup", "hr", "html", "iframe", "img",
   "input", "keygen", "li", "link", "listing", "main", "marquee", "menu", "meta", "nav",
   "noembed", "noframes", "noscript", "object", "ol", "p", "param", "plaintext", "pre", "script",
   "search", "section", "select", "source", "style", "summary", "table", "tbody", "td",
   "template", "textarea", "tfoot", "th", "thead", "title", "tr", "track", "ul", "wbr", "xmp"]

/-- MathML elements that hold text or other markup. -/
def mathmlBoundary : List String :=
  ["mi", "mo", "mn", "ms", "mtext", "annotation-xml"]

/-- SVG elements that hold HTML. -/
def svgBoundary : List String :=
  ["foreignObject", "desc", "title"]

/-- Elements that stay in effect when they are closed in the wrong order. -/
def formatting : List String :=
  ["a", "b", "big", "code", "em", "font", "i", "nobr", "s", "small", "strike", "strong", "tt",
   "u"]

def headings : List String :=
  ["h1", "h2", "h3", "h4", "h5", "h6"]

/-- Elements whose end tag may be left out. -/
def impliedEnd : List String :=
  ["dd", "dt", "li", "optgroup", "option", "p", "rb", "rp", "rt", "rtc"]

/-- Elements whose end tag may be left out at the end of a template. -/
def impliedEndThorough : List String :=
  ["caption", "colgroup", "dd", "dt", "li", "optgroup", "option", "p", "rb", "rp", "rt", "rtc",
   "tbody", "td", "tfoot", "th", "thead", "tr"]

/-- Elements that may be open at the end of the body. -/
def openAtBodyEnd : List String :=
  ["dd", "dt", "li", "optgroup", "option", "p", "rb", "rp", "rt", "rtc", "tbody", "td", "tfoot",
   "th", "thead", "tr", "body", "html"]

/-- Blocks that end a paragraph when they begin. -/
def blockStart : List String :=
  ["address", "article", "aside", "blockquote", "center", "details", "dialog", "dir", "div", "dl",
   "fieldset", "figcaption", "figure", "footer", "header", "hgroup", "main", "menu", "nav", "ol",
   "p", "search", "section", "summary", "ul"]

/-- Blocks that are closed by their end tag. -/
def blockEnd : List String :=
  ["address", "article", "aside", "blockquote", "button", "center", "details", "dialog", "dir",
   "div", "dl", "fieldset", "figcaption", "figure", "footer", "header", "hgroup", "listing",
   "main", "menu", "nav", "ol", "pre", "search", "section", "summary", "ul"]

/-- Elements that belong into the head wherever they stand. -/
def headContent : List String :=
  ["base", "basefont", "bgsound", "link", "meta", "noframes", "script", "style", "template",
   "title"]

/-- The groups of rows in a table. -/
def tableSections : List String :=
  ["tbody", "tfoot", "thead"]

/-- Table elements that take no content of their own: it is put before the table. -/
def fostering : List String := ["table", "tbody", "tfoot", "thead", "tr"]

/-- Start tags that end a caption or a cell. -/
def tableStructure : List String :=
  ["caption", "col", "colgroup", "tbody", "td", "tfoot", "th", "thead", "tr"]

/-- Elements that set a marker in the list of formatting elements. -/
def markerElements : List String := ["applet", "marquee", "object"]

/-- HTML start tags that end foreign content. -/
def breakout : List String :=
  ["b", "big", "blockquote", "body", "br", "center", "code", "dd", "div", "dl", "dt", "em",
   "embed", "h1", "h2", "h3", "h4", "h5", "h6", "head", "hr", "i", "img", "li", "listing", "menu",
   "meta", "nobr", "ol", "p", "pre", "ruby", "s", "small", "span", "strong", "strike", "sub",
   "sup", "table", "tt", "u", "ul", "var"]

def isSpecial (e : Element) : Bool :=
  match e.ns with
  | .html => specialHtml.contains e.tagName
  | .mathml => mathmlBoundary.contains e.tagName
  | .svg => svgBoundary.contains e.tagName

end Category

/-- How far an open element is looked for. -/
inductive Scope where
  | general
  | listItem
  | button
  | table
  | select
deriving DecidableEq

namespace Scope

/-- HTML elements that bound the general scope. -/
def generalHtml : List String :=
  ["applet", "caption", "html", "table", "td", "th", "marquee", "object", "template"]

def isGeneralBoundary (e : Element) : Bool :=
  match e.ns with
  | .html => generalHtml.contains e.tagName
  | .mathml => Category.mathmlBoundary.contains e.tagName
  | .svg => Category.svgBoundary.contains e.tagName

/-- Whether a search ends at this element. The select scope is bounded by everything but options. -/
def isBoundary (s : Scope) (e : Element) : Bool :=
  match s with
  | .general => isGeneralBoundary e
  | .listItem => isGeneralBoundary e || e.isHtmlOf ["ol", "ul"]
  | .button => isGeneralBoundary e || e.isHtml "button"
  | .table => e.isHtmlOf ["html", "table", "template"]
  | .select => !e.isHtmlOf ["optgroup", "option"]

end Scope

end Hypertext
