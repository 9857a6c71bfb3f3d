import Hypertext.TreeBuilder.Rules.Body

/-!
# Rules after the body, and in framesets
-/

namespace Hypertext.TreeBuilder

/-- Content after the end of the body goes into the body after all. -/
def backToBody (b : TreeBuilder) (token : Token) : Outcome :=
  ((b.report token.unexpected).switchTo .inBody).reprocess token

def afterBody (b : TreeBuilder) (token : Token) : Outcome :=
  match token with
  | .character c => if isSpace c then b.inBody token else b.backToBody token
  | .comment data => (b.insertCommentIn ((b.openAt? 0).getD Tree.root) data).done
  | .doctype _ => b.refuse .unexpectedDoctype
  | .startTag tag =>
    if tag.name = "html" then (b.repeatedHtml tag).done else b.backToBody token
  | .endTag tag =>
    if tag.name = "html" then (b.switchTo .afterAfterBody).done else b.backToBody token
  | .endOfFile => b.stop.done

def inFrameset (b : TreeBuilder) (token : Token) : Outcome :=
  match token with
  | .character c => if isSpace c then (b.insertChar c).done else b.refuse token.unexpected
  | .comment data => (b.insertComment data).done
  | .doctype _ => b.refuse .unexpectedDoctype
  | .startTag tag =>
    if tag.name = "html" then (b.repeatedHtml tag).done
    else if tag.name = "frameset" then (b.insertHtml tag).done
    else if tag.name = "frame" then (b.insertVoid tag).done
    else if tag.name = "noframes" then (b.startHeadContent tag).done
    else b.refuse .unexpectedStartTag
  | .endTag tag =>
    if tag.name = "frameset" then
      if b.openElements.length ≤ 1 then b.refuse .unexpectedEndTag
      else
        let b := b.pop
        (if b.currentIs "frameset" then b else b.switchTo .afterFrameset).done
    else b.refuse .unexpectedEndTag
  | .endOfFile => (b.reportIf (b.openElements.length > 1) .eofWithOpenElements).stop.done

def afterFrameset (b : TreeBuilder) (token : Token) : Outcome :=
  match token with
  | .character c => if isSpace c then (b.insertChar c).done else b.refuse token.unexpected
  | .comment data => (b.insertComment data).done
  | .doctype _ => b.refuse .unexpectedDoctype
  | .startTag tag =>
    if tag.name = "html" then (b.repeatedHtml tag).done
    else if tag.name = "noframes" then (b.startHeadContent tag).done
    else b.refuse .unexpectedStartTag
  | .endTag tag =>
    if tag.name = "html" then (b.switchTo .afterAfterFrameset).done
    else b.refuse .unexpectedEndTag
  | .endOfFile => b.stop.done

def afterAfterBody (b : TreeBuilder) (token : Token) : Outcome :=
  match token with
  | .comment data => (b.insertCommentIn Tree.root data).done
  | .doctype _ => b.inBody token
  | .character c => if isSpace c then b.inBody token else b.backToBody token
  | .startTag tag =>
    if tag.name = "html" then (b.repeatedHtml tag).done else b.backToBody token
  | .endTag _ => b.backToBody token
  | .endOfFile => b.stop.done

def afterAfterFrameset (b : TreeBuilder) (token : Token) : Outcome :=
  match token with
  | .comment data => (b.insertCommentIn Tree.root data).done
  | .doctype _ => b.inBody token
  | .character c => if isSpace c then b.inBody token else b.refuse token.unexpected
  | .startTag tag =>
    if tag.name = "html" then (b.repeatedHtml tag).done
    else if tag.name = "noframes" then (b.startHeadContent tag).done
    else b.refuse .unexpectedStartTag
  | .endTag _ => b.refuse .unexpectedEndTag
  | .endOfFile => b.stop.done

end Hypertext.TreeBuilder
