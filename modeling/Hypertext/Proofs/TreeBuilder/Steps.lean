import Hypertext.Foreign
import Hypertext.Proofs.TreeBuilder.Closing
import Hypertext.Proofs.TreeBuilder.Content

/-!
# What rules are made of

Every rule comes down to a few kinds of changes: an element is inserted, elements are closed, the
list of active formatting elements is brought up to date, and so on. A `Step` is one such change,
with what is known about the place that it is made from; a rule `Acts` by steps, and by inserting
characters. What each step keeps is then true of every rule, and a new rule needs no proof of it.
-/

namespace Hypertext

/-- The rules find no fault with a character as such. -/
@[simp]
theorem Token.isOfInput_unexpected (token : Token) : token.unexpected.isOfInput = false := by
  cases token <;> rfl

/-- The node that a comment or a document type becomes. -/
def Token.leaf? : Token → Option NodeData
  | .comment data => some (.comment data)
  | .doctype d => some (.doctype (d.name.getD "") (d.publicId.getD "") (d.systemId.getD ""))
  | _ => none

theorem Token.isLeaf {token : Token} {data : NodeData} (h : token.leaf? = some data) :
    data.isComment = true ∨ data.isDoctype = true := by
  cases token <;> cases h
  · exact Or.inr rfl
  · exact Or.inl rfl

namespace TreeBuilder

open Hypertext.Tree

/-! ## 1. Steps -/

/-- The modes after the outermost frameset. -/
def pastFrameset : List InsertionMode := [.afterFrameset, .afterAfterFrameset]

/-- No mode that is noted down is one after a frameset. -/
structure Calm (mode : InsertionMode) (resumeMode : Option InsertionMode)
    (templateModes : List InsertionMode) : Prop where
  mode : mode ∉ pastFrameset
  resumeMode : ∀ mode, resumeMode = some mode → mode ∉ pastFrameset
  templateModes : ∀ mode ∈ templateModes, mode ∉ pastFrameset

/-- Nothing is changed but what a rule notes down: framesets are at most ruled out, and only in a
frameset can it be over. -/
structure Aside (mode : InsertionMode) (b b' : TreeBuilder) : Prop where
  tree : b'.tree = b.tree
  openElements : b'.openElements = b.openElements
  formatting : b'.formatting = b.formatting
  tableText : b'.tableText = b.tableText
  framesetOk : b'.framesetOk = true → b.framesetOk = true
  calm : mode ≠ .inFrameset → Calm b.mode b.resumeMode b.templateModes →
    Calm b'.mode b'.resumeMode b'.templateModes
  position : b'.position = b.position
  errors : b.errors.GrowsAt b.position b'.errors

/-- The parts that a token may open: tables, templates and framesets are opened by their own start
tag, and the inner parts of a table in its modes only. -/
def MayOpen (token : Token) (mode : InsertionMode) : Part → Prop
  | .html | .head | .body | .select => True
  | .table => ∃ tag, token = .startTag tag ∧ tag.name = "table"
  | .template => ∃ tag, token = .startTag tag ∧ tag.name = "template"
  | .frameset => ∃ tag, token = .startTag tag ∧ tag.name = "frameset"
  | .caption | .columns | .rowGroup | .row | .cell => mode ∈ tableModes

/-- The HTML elements that come with a marker. -/
def markedNames : List String := Category.markerElements ++ ["template", "td", "th", "caption"]

/-- An element that has brought a marker along. -/
def Marked (t : Tree) (x : NodeId) : Prop := ∃ name ∈ markedNames, t.label? x = some (.html, name)

/-- What the list of active formatting elements may become when an element is inserted: it stays or
gets a marker; a formatting element is added to it, or takes the place of one that has been closed.
The entry before is then not for a closed element. -/
inductive Lists (b : TreeBuilder) :
    Namespace → String → List Attribute → List FormattingEntry → Prop where
  | same {ns : Namespace} {name : String} {attributes : List Attribute}
    (h : ns = .html → name ∉ markedNames) : Lists b ns name attributes b.formatting
  | marker {ns : Namespace} {name : String} {attributes : List Attribute} :
    Lists b ns name attributes (b.formatting ++ [.marker])
  | remember {tag : Tag} {id : NodeId} (ht : tag.name ∈ Category.formatting)
    (hid : (b.insertHtml tag).currentNode? = some id)
    (hends : EndsOpen b.openElements b.formatting) :
    Lists b .html tag.name tag.attributes ((b.insertHtml tag).pushFormatting id tag).formatting
  | renew {tag : Tag} {id old : NodeId} {earlier later : List FormattingEntry}
    (ht : tag.name ∈ Category.formatting) (hid : (b.insertHtml tag).currentNode? = some id)
    (hf : b.formatting = earlier ++ .element old tag :: later)
    (hclosed : ∀ x ∈ later.filterMap (·.id?), x ∉ b.openElements)
    (hends : EndsOpen b.openElements earlier) :
    Lists b .html tag.name tag.attributes (earlier ++ .element id tag :: later)

/-- The names of elements that the rules open without a tag of their own. -/
def impliedNames : List String := ["html", "head", "body", "colgroup", "tbody", "tr", "p", "br"]

/-- Where the name and the attributes of a new element come from: they are those of a tag, as it
stands or adjusted to another vocabulary, or of an element that is opened again, or nothing
asked for them. -/
inductive Supplied (token : Token) (formatting : List FormattingEntry) :
    String → List Attribute → Prop where
  | tag {tag : Tag} (h : token = .startTag tag) : Supplied token formatting tag.name tag.attributes
  | adjusted {tag : Tag} {name : String} (ns : Namespace) (h : token = .startTag tag)
    (hname : name = tag.name ∨ name = Foreign.adjustTagName ns tag.name) :
    Supplied token formatting name (Foreign.adjustAttributes ns tag.attributes)
  | implied {name : String} (h : name ∈ impliedNames) : Supplied token formatting name []
  | entry {id : NodeId} {tag : Tag} (h : .element id tag ∈ formatting) :
    Supplied token formatting tag.name tag.attributes

/-- What is inserted into this node is put before the innermost table instead. -/
def Redirects (b : TreeBuilder) (y : NodeId) : Prop :=
  b.fostering = true ∧ b.isHtmlOf Category.fostering y = true

/-- If what is inserted into the top of this stack is put before a table instead, the parts of the
stack stand on each other as they should. -/
def Braced (b : TreeBuilder) (stack : List NodeId) : Prop :=
  ∀ y ∈ stack.head?, Redirects b y → Seated b.tree stack

theorem braced_of_settled {b : TreeBuilder} (h : b.fostering = false) (stack : List NodeId) :
    Braced b stack := fun y _ hr => by
  rw [Redirects, h] at hr
  cases hr.1

/-- The end of the document, or of its element. -/
def Outermost (b : TreeBuilder) (parent : NodeId) : Prop :=
  parent = Tree.root ∨ b.openAt? 0 = some parent ∧ b.tree.label? parent = some (.html, "html")

/-- The place for a comment or a document type: the current one, or an outermost one. -/
def PlacesLeaf (b : TreeBuilder) (place : Place) : Prop :=
  place = b.place ∨ place.before = none ∧ Outermost b place.parent

/-- One change that is made for a token in a mode. -/
inductive Step (token : Token) (mode : InsertionMode) : TreeBuilder → TreeBuilder → Prop where
  | aside {b b' : TreeBuilder} (h : Aside mode b b') : Step token mode b b'
  /-- The innermost elements are closed, or elements that have no entry. -/
  | close {b : TreeBuilder} {stack : List NodeId} (h : stack.Sublist b.openElements)
    (hc : stack <:+ b.openElements ∨
      ∀ x tag, .element x tag ∈ b.formatting → x ∈ b.openElements → x ∈ stack) :
    Step token mode b { b with openElements := stack }
  | insert {b : TreeBuilder} {name : String} {attributes : List Attribute} {ns : Namespace}
    {formatting : List FormattingEntry} {framesetOk : Bool}
    (hl : Lists b ns name attributes formatting)
    (hp : ∀ p, partOf (ns, name) = some p → MayOpen token mode p)
    (hok : framesetOk = true → b.framesetOk = true ∧
      ∀ p, partOf (ns, name) = some p → p ∉ [Part.table, .select, .template])
    (hb : Braced b b.openElements) (hs : Supplied token b.formatting name attributes) :
    Step token mode b { b.insertElement name attributes ns with formatting, framesetOk }
  | leaf {b : TreeBuilder} {data : NodeData} {place : Place} (hd : token.leaf? = some data)
    (hp : PlacesLeaf b place) :
    Step token mode b { b with
      tree := (b.tree.alloc data).2.insertAt place.parent place.before b.tree.size }
  | setMode {b : TreeBuilder} (documentMode : DocumentMode) :
    Step token mode b { b with tree := b.tree.setMode documentMode }
  | merge {b : TreeBuilder} {id : NodeId} {tag : Tag} (ht : token = .startTag tag)
    (hid : b.tree.Outer id ∨ b.tree.Housed id) :
    Step token mode b (b.mergeAttributes id tag.attributes)
  /-- The head is opened again, which only the document element is open around. -/
  | pushHead {b : TreeBuilder} {head html : NodeId} (hopen : b.openElements = [html])
    (hhtml : b.tree.label? html = some (.html, "html"))
    (hhead : b.tree.label? head = some (.html, "head")) (hr : b.tree.Reach Tree.root head)
    (horder : ¬ b.tree.Reach head html) : Step token mode b (b.push head)
  /-- An element loses its entry, and may be closed with that. -/
  | forget {b : TreeBuilder} {id : NodeId} {tag : Tag} {earlier later : List FormattingEntry}
    {stack : List NodeId} (hf : b.formatting = earlier ++ .element id tag :: later)
    (hs : stack = b.openElements ∨ stack = b.openElements.filter (· != id)) :
    Step token mode b { b with formatting := earlier ++ later, openElements := stack }
  /-- An element that has brought a marker along is closed, and the list is cleared. -/
  | unmark {b : TreeBuilder} {inner outer : List NodeId} (hopen : b.openElements = inner ++ outer)
    (hm : ∃ x ∈ inner, Marked b.tree x) :
    Step token mode b { b with openElements := outer }.clearToMarker
  | stop {b : TreeBuilder} : Step token mode b b.stop
  | adopt {b b' : TreeBuilder} {subject : String} {r : AgencyRound} (ht : token ≠ .endOfFile)
    (hactive : b.activeFormatting? subject = some r.element) (ha : Adopts b b' r)
    (hb : Braced b r.outer) : Step token mode b b'
  /-- The body is taken out of the document and closed, to make room for a frameset. -/
  | unbody {b : TreeBuilder} {body : NodeId} {tag : Tag} (ht : token = .startTag tag)
    (hname : tag.name = "frameset") (hm : mode ∈ bodyModes) (hat : b.openAt? 1 = some body)
    (hbody : b.tree.label? body = some (.html, "body")) (hok : b.framesetOk = true) :
    Step token mode b ({ b with tree := b.tree.detach body }.truncate 1)

/-! ## 2. What every step keeps -/

/-- The open elements hang in the tree as they should, and the entries of the list are formatting
elements. -/
structure Rooted (b : TreeBuilder) : Prop where
  anchored : Anchored b.tree b.openElements
  named : Named b.tree b.formatting

theorem Sound.rooted {b : TreeBuilder} (h : Sound b) : Rooted b := ⟨h.planted.anchored, h.named⟩

section Rooted

variable {b b' : TreeBuilder}

/-- An attempt touches no more than what it gives does. -/
theorem attempt_same {result : Option TreeBuilder} (h : ∀ b', result = some b' →
      ∃ tree openElements fault, b' = { b with tree, openElements, fault }) :
    ∃ tree openElements fault, b.attempt result = { b with tree, openElements, fault } := by
  cases hr : result with
  | none => exact ⟨_, _, _, rfl⟩
  | some b' => exact h b' hr

/-- Insertion touches nothing but the tree and the stack, or gives up. -/
theorem insertElement_same (b : TreeBuilder) (name : String) (attributes : List Attribute)
    (ns : Namespace) : ∃ tree openElements fault,
      b.insertElement name attributes ns = { b with tree, openElements, fault } := by
  unfold insertElement
  refine attempt_same fun b' hr => ?_
  simp only [Option.bind_eq_bind, Option.bind_eq_some_iff] at hr
  obtain ⟨place, -, tree, -, hb⟩ := hr
  cases hb
  exact ⟨_, _, _, rfl⟩

/-- A character touches nothing but the tree. -/
theorem insertChar_same (b : TreeBuilder) (c : Char) :
    ∃ tree fault, b.insertChar c = { b with tree, fault } := by
  unfold insertChar attempt
  simp only [place?_eq, Option.bind_eq_bind, Option.bind_some]
  split
  · exact ⟨_, _, rfl⟩
  · cases b.tree.insertText? b.place.parent b.place.before c.toString <;> exact ⟨_, _, rfl⟩

theorem Lists.named {name : String} {attributes : List Attribute} {ns : Namespace}
    {formatting : List FormattingEntry} (hl : Lists b ns name attributes formatting)
    (h : Rooted b) : Named (b.insertElement name attributes ns).tree formatting := by
  obtain ⟨id, tree, heq, w, hlabel⟩ := insertElement_eq h.anchored name attributes ns
  have hk := (w.sprout h.anchored.forest (place_lt h.anchored)).keeps
  have hcurrent : ∀ {id' : NodeId},
      (b.insertElement name attributes ns).currentNode? = some id' → id' = id := by
    intro id' hid
    rw [heq] at hid
    exact (Option.some.inj hid).symm
  have hn := h.named.keeps hk
  cases hl with
  | same => rw [heq]; exact hn
  | marker => rw [heq]; exact hn.append .marker
  | @remember tag id' ht hid hends =>
    obtain rfl := hcurrent hid
    obtain ⟨entries, hb, hs⟩ := pushFormatting_eq (b := b.insertHtml tag) id' tag
    rw [hb]
    unfold insertHtml at hs ⊢
    rw [heq] at hs ⊢
    exact (hn.subset hs).append (.element ht hlabel)
  | @renew tag id' old earlier later ht hid hf hclosed hends =>
    obtain rfl := hcurrent hid
    rw [hf] at hn
    rw [heq]
    refine (hn.subset (by simp)).append ?_
    exact (Named.element ht hlabel).append (hn.subset (by simp))

theorem leaf_ne {data : NodeData} (hd : data.isComment = true ∨ data.isDoctype = true) :
    data ≠ .fragment ∧ (∀ e, data ≠ .element e) ∧ ∀ s, data ≠ .text s := by
  cases data <;> simp [NodeData.isComment, NodeData.isDoctype] at hd ⊢

/-- A comment or a document type may be put anywhere. -/
theorem put_leaf {t : Tree} (h : Forest t) {p : NodeId} (hp : p < t.size) {data : NodeData}
    (hd : data.isComment = true ∨ data.isDoctype = true) (before : Option NodeId) :
    Put t ((t.alloc data).2.insertAt p before t.size) t.size p before ∧
      ((t.alloc data).2.insertAt p before t.size).data? t.size = some data :=
  put_alloc h hp data ⟨(leaf_ne hd).1, (leaf_ne hd).2.1⟩ before

theorem openAt?_mem {depth : Nat} {x : NodeId} (h : b.openAt? depth = some x) :
    x ∈ b.openElements := List.mem_reverse.1 (List.mem_of_getElem? h)

theorem PlacesLeaf.lt {place : Place} (hp : PlacesLeaf b place) (h : Rooted b) :
    place.parent < b.tree.size := by
  rcases hp with rfl | ⟨-, hp | ⟨hp, -⟩⟩
  · exact place_lt h.anchored
  · rw [hp]
    exact h.anchored.forest.root_lt
  · exact h.anchored.lt (openAt?_mem hp)

/-- The body at depth one does not hold what is open around it. -/
theorem anchored_detach {body : NodeId} {l : Namespace × String}
    (h : Anchored b.tree b.openElements)
    (hat : b.openAt? 1 = some body) (hl : b.tree.label? body = some l) :
    Anchored (b.tree.detach body) (b.truncate 1).openElements := by
  have hf := h.forest
  have m := moved_detach hf.linked body
  have hsolid := ne_fragment_of_label hl
  -- below the body is only the outermost element
  obtain ⟨inner, html, hopen⟩ : ∃ inner html, b.openElements = inner ++ [body, html] := by
    unfold openAt? at hat
    match hr : b.openElements.reverse, hat with
    | html :: x :: inner, hx =>
      cases hx
      refine ⟨inner.reverse, html, ?_⟩
      rw [← List.reverse_reverse b.openElements, hr]
      simp
  have hcut : b.openElements = (inner ++ [body]) ++ [html] := by simp [hopen]
  have hnot : ¬ b.tree.Reach body html := by
    have horder := h.order
    rw [hopen] at horder
    have := (List.pairwise_append.1 horder).2.1
    simpa using this
  rw [show b.truncate 1 = _ from truncate_eq hcut]
  have hmem : html ∈ b.openElements := by simp [hopen]
  refine ⟨m.forest hf hsolid (hf.ne_root_of_label hl) (by simp), ?_, ?_,
    List.pairwise_singleton _ _⟩
  · intro x hx
    rw [List.mem_singleton.1 hx, label?_congr (m.data html)]
    exact h.element html hmem
  · intro x hx
    rw [List.mem_singleton.1 hx]
    exact m.reach_of_not hf hsolid (h.reach html hmem) hnot

theorem sublist_of_forget {stack : List NodeId} {id : NodeId}
    (hs : stack = b.openElements ∨ stack = b.openElements.filter (· != id)) :
    stack.Sublist b.openElements := by
  obtain rfl | rfl := hs
  · exact List.Sublist.refl _
  · exact List.filter_sublist

theorem Step.rooted {token : Token} {mode : InsertionMode} (s : Step token mode b b')
    (h : Rooted b) : Rooted b' := by
  have hf := h.anchored.forest
  cases s with
  | aside a =>
    refine ⟨?_, ?_⟩
    · rw [a.tree, a.openElements]
      exact h.anchored
    · rw [a.tree, a.formatting]
      exact h.named
  | close hs => exact ⟨h.anchored.sublist hs, h.named⟩
  | @insert name attributes ns formatting framesetOk hl =>
    refine ⟨?_, hl.named h⟩
    obtain ⟨id, tree, heq, w, hlabel⟩ := insertElement_eq h.anchored name attributes ns
    rw [heq]
    exact h.anchored.sprout (w.sprout hf (place_lt h.anchored)) (reach_place h.anchored)
      (by rw [hlabel]; rfl)
  | leaf hd hp =>
    have e {before : Option NodeId} :=
      ((put_leaf hf (hp.lt h) (Token.isLeaf hd) before).1.sprout hf (hp.lt h)).toExtends
    exact ⟨h.anchored.extend e, h.named.keeps e.keeps⟩
  | setMode documentMode =>
    have e := (sameShape_setMode hf.linked documentMode).extends hf
    exact ⟨h.anchored.extend e, h.named.keeps e.keeps⟩
  | @merge _ tag =>
    obtain ⟨tree, heq, e, -⟩ := mergeAttributes_eq hf _ tag.attributes
    rw [heq]
    exact ⟨h.anchored.extend e, h.named.keeps e.keeps⟩
  | pushHead hopen hhtml hhead hr horder =>
    -- the head is in the document element, and nothing else is open
    refine ⟨⟨hf, ?_, ?_, ?_⟩, h.named⟩
    · exact List.forall_mem_cons.2 ⟨Option.isSome_iff_exists.2 ⟨_, hhead⟩, h.anchored.element⟩
    · exact List.forall_mem_cons.2 ⟨hr, h.anchored.reach⟩
    · refine List.pairwise_cons.2 ⟨fun x hx => ?_, h.anchored.order⟩
      rw [hopen, List.mem_singleton] at hx
      exact hx ▸ horder
  | forget hentry hs =>
    refine ⟨h.anchored.sublist (sublist_of_forget hs), h.named.subset ?_⟩
    rw [hentry]
    simp
  | unmark hopen hm =>
    have hs : (_ : List NodeId).Sublist b.openElements := hopen ▸ List.sublist_append_right _ _
    exact ⟨h.anchored.sublist hs, named_clearToMarker (b := { b with openElements := _ }) h.named⟩
  | stop => exact ⟨h.anchored.sublist (List.nil_sublist _), .nil⟩
  | adopt _ _ ha => exact ⟨ha.rebuilt.planted.anchored, ha.rebuilt.named⟩
  | unbody _ _ _ hat hbody _ =>
    exact ⟨anchored_detach h.anchored hat hbody, h.named.keeps (moved_detach hf.linked _).keeps⟩

theorem Step.keeps {token : Token} {mode : InsertionMode} (s : Step token mode b b')
    (h : Rooted b) : b.tree.Keeps b'.tree := by
  have hf := h.anchored.forest
  cases s with
  | aside a => exact a.tree ▸ fun _ _ => id
  | @insert name attributes ns =>
    obtain ⟨id, tree, heq, w, -⟩ := insertElement_eq h.anchored name attributes ns
    rw [heq]
    exact (w.sprout hf (place_lt h.anchored)).keeps
  | leaf hd hp => exact ((put_leaf hf (hp.lt h) (Token.isLeaf hd) _).1.sprout hf (hp.lt h)).keeps
  | setMode documentMode => exact ((sameShape_setMode hf.linked documentMode).extends hf).keeps
  | @merge _ tag =>
    obtain ⟨tree, heq, e, -⟩ := mergeAttributes_eq hf _ tag.attributes
    rw [heq]
    exact e.keeps
  | adopt _ _ ha => exact ha.rebuilt.keeps
  | unbody => exact (moved_detach hf.linked _).keeps
  | _ => exact fun _ _ => id

theorem Rooted.label_eq (h : Rooted b) (hk : b.tree.Keeps b'.tree) {x : NodeId}
    (hx : x ∈ b.openElements) : b'.tree.label? x = b.tree.label? x := by
  obtain ⟨l, hl⟩ := Option.isSome_iff_exists.1 (h.anchored.element x hx)
  rw [hl, hk x l hl]

/-- Framesets that are ruled out stay so. -/
theorem Step.framesetOk {token : Token} {mode : InsertionMode} (s : Step token mode b b')
    (hok : b'.framesetOk = true) : b.framesetOk = true := by
  cases s with
  | aside a => exact a.framesetOk hok
  | insert _ _ hbefore => exact (hbefore hok).1
  | adopt _ _ ha =>
    rw [ha.rebuilt.same] at hok
    exact hok
  | _ => exact hok

end Rooted

/-! ## 3. Acts -/

/-- Steps lead from `b` to another builder, and insert these characters on the way. -/
inductive Acts (token : Token) (mode : InsertionMode) (b : TreeBuilder) :
    List Char → TreeBuilder → Prop where
  | refl : Acts token mode b [] b
  | step {cs : List Char} {a a' : TreeBuilder} (h : Acts token mode b cs a)
    (s : Step token mode a a') : Acts token mode b cs a'
  | char {cs : List Char} {a : TreeBuilder} (h : Acts token mode b cs a)
    (hp : a.place.parent ≠ Tree.root) (hb : Braced a a.openElements) (c : Char) :
    Acts token mode b (cs ++ [c]) (a.insertChar c)

namespace Acts

variable {token : Token} {mode : InsertionMode} {b a : TreeBuilder} {cs : List Char}

theorem rooted (h : Acts token mode b cs a) (hb : Rooted b) : Rooted a := by
  induction h with
  | refl => exact hb
  | step _ s ih => exact s.rooted ih
  | char _ _ _ c ih =>
    obtain ⟨tree, heq, e, -⟩ := insertChar_eq ih.anchored c
    rw [heq]
    exact ⟨ih.anchored.extend e, ih.named.keeps e.keeps⟩

theorem calm_modeFor (hm : ∀ mode ∈ b.templateModes, mode ∉ pastFrameset) (stack : List NodeId) :
    b.modeFor stack ∉ pastFrameset := by
  induction stack with
  | nil => exact (by decide : InsertionMode.inBody ∉ pastFrameset)
  | cons x outer ih =>
    rw [modeFor]
    cases b.tree.element? x with
    | none => exact ih
    | some e =>
      dsimp only
      repeat' refine iteInduction (motive := (· ∉ pastFrameset)) (fun _ => ?_) fun _ => ?_
      any_goals first
        | decide
        | exact ih
      cases htop : b.templateModes.head? with
      | none => decide
      | some mode => exact hm mode (List.mem_of_mem_head? htop)

variable (h : Acts token mode b cs a)
include h

/-! ### Notes -/

theorem note {a' : TreeBuilder} (ha : Aside mode a a') : Acts token mode b cs a' :=
  h.step (.aside ha)

omit h in
theorem aside_resume : Aside mode a a.resume :=
  ⟨rfl, rfl, rfl, rfl, id, fun _ hc => ⟨by
    show a.resumeMode.getD .inBody ∉ pastFrameset
    cases hm : a.resumeMode with
    | none => decide
    | some mode => exact hc.resumeMode mode hm, nofun, hc.templateModes⟩, rfl, .refl⟩

theorem resume : Acts token mode b cs a.resume := h.note aside_resume

/-! ### Closing elements -/

theorem close {stack : List NodeId} (hs : stack <:+ a.openElements) :
    Acts token mode b cs { a with openElements := stack } := h.step (.close hs.sublist (Or.inl hs))

theorem pop : Acts token mode b cs a.pop := h.close (List.tail_suffix _)

/-- An element without an entry. -/
theorem removeOpen {id : NodeId} (hid : ∀ tag, .element id tag ∉ a.formatting) :
    Acts token mode b cs (a.removeOpen id) :=
  h.step (.close List.filter_sublist (Or.inr fun _ tag hx hopen =>
    List.mem_filter.2 ⟨hopen, bne_iff_ne.2 fun he => hid tag (he ▸ hx)⟩))

/-! ### Inserting nodes -/

omit h in
theorem insertMarker_eq (name : String) (attributes : List Attribute) (ns : Namespace) :
    (a.insertElement name attributes ns).insertMarker = { a.insertElement name attributes ns with
      formatting := a.formatting ++ [.marker], framesetOk := a.framesetOk } := by
  obtain ⟨tree, openElements, fault, heq⟩ := insertElement_same a name attributes ns
  rw [heq]
  rfl

theorem insertElement {name : String} {ns : Namespace} (attributes : List Attribute)
    (hm : ns = .html → name ∉ markedNames) (hp : ∀ p, partOf (ns, name) = some p →
      MayOpen token mode p ∧ p ∉ [Part.table, .select, .template]) (hb : Braced a a.openElements)
    (hs : Supplied token a.formatting name attributes) :
    Acts token mode b cs (a.insertElement name attributes ns) := by
  have s : Step token mode a { a.insertElement name attributes ns with
      formatting := a.formatting, framesetOk := a.framesetOk } :=
    .insert (.same hm) (fun p hp' => (hp p hp').1) (fun hok => ⟨hok, fun p hp' => (hp p hp').2⟩) hb
      hs
  have h' := h.step s
  obtain ⟨tree, openElements, fault, heq⟩ := insertElement_same a name attributes ns
  rw [heq] at h' ⊢
  exact h'

theorem insertNamed {name : String} (hname : Part.ofName? name = none)
    (hm : name ∉ Category.markerElements) (attributes : List Attribute)
    (hb : Braced a a.openElements) (hs : Supplied token a.formatting name attributes) :
    Acts token mode b cs (a.insertElement name attributes .html) := by
  refine h.insertElement attributes (fun _ hmarked => ?_) (fun p hp => ?_) hb hs
  · rcases List.mem_append.1 hmarked with hmarked | hmarked
    · exact hm hmarked
    · have hall : ∀ name ∈ ["template", "td", "th", "caption"], Part.ofName? name ≠ none := by
        decide
      exact hall name hmarked hname
  · rw [partOf_html, hname] at hp
    cases hp

/-- An element that is no part. -/
theorem insertHtml {tag : Tag} (hname : Part.ofName? tag.name = none)
    (hm : tag.name ∉ Category.markerElements) (hb : Braced a a.openElements)
    (ht : token = .startTag tag) : Acts token mode b cs (a.insertHtml tag) :=
  h.insertNamed hname hm tag.attributes hb (.tag ht)

/-- An element that a frameset cannot follow. -/
theorem insertBarring {tag : Tag} (hm : tag.name ∉ markedNames)
    (hp : ∀ p, Part.ofName? tag.name = some p → MayOpen token mode p) (hb : Braced a a.openElements)
    (ht : token = .startTag tag) : Acts token mode b cs (a.insertHtml tag).framesetNotOk := by
  have s : Step token mode a { a.insertElement tag.name tag.attributes .html with
      formatting := a.formatting, framesetOk := false } :=
    .insert (.same fun _ => hm) hp nofun hb (.tag ht)
  have hs := h.step s
  unfold TreeBuilder.insertHtml
  obtain ⟨tree, openElements, fault, heq⟩ := insertElement_same a tag.name tag.attributes .html
  rw [heq] at hs ⊢
  exact hs

theorem insertMarked {tag : Tag} (hp : ∀ p, Part.ofName? tag.name = some p →
      MayOpen token mode p ∧ p ∉ [Part.table, .select, .template]) (hb : Braced a a.openElements)
    (ht : token = .startTag tag) : Acts token mode b cs (a.insertHtml tag).insertMarker := by
  unfold TreeBuilder.insertHtml
  rw [insertMarker_eq]
  exact h.step (.insert .marker (fun p hp' => (hp p hp').1)
    (fun hok => ⟨hok, fun p hp' => (hp p hp').2⟩) hb (.tag ht))

theorem insertMarkedBarring {tag : Tag}
    (hp : ∀ p, Part.ofName? tag.name = some p → MayOpen token mode p) (hb : Braced a a.openElements)
    (ht : token = .startTag tag) :
    Acts token mode b cs (a.insertHtml tag).insertMarker.framesetNotOk := by
  unfold TreeBuilder.insertHtml
  rw [insertMarker_eq]
  have s : Step token mode a { a.insertElement tag.name tag.attributes .html with
      formatting := a.formatting ++ [.marker], framesetOk := false } :=
    .insert .marker hp nofun hb (.tag ht)
  exact h.step s

theorem insertComment (hr : Rooted a) {data : String} (ht : token = .comment data) :
    Acts token mode b cs (a.insertComment data) := by
  rw [insertComment_eq_insertAt hr.anchored]
  exact h.step (.leaf (by rw [ht]; rfl) (Or.inl rfl))

theorem insertCommentIn (hr : Rooted a) {parent : NodeId} (hp : Outermost a parent) {data : String}
    (ht : token = .comment data) : Acts token mode b cs (a.insertCommentIn parent data) := by
  have hplace : PlacesLeaf a ⟨parent, none⟩ := Or.inr ⟨rfl, hp⟩
  rw [insertCommentIn_eq_insertAt hr.anchored.forest (hplace.lt hr)]
  exact h.step (.leaf (by rw [ht]; rfl) hplace)

theorem mergeAttributes {id : NodeId} {tag : Tag} (ht : token = .startTag tag)
    (hid : a.tree.Outer id ∨ a.tree.Housed id) :
    Acts token mode b cs (a.mergeAttributes id tag.attributes) := h.step (.merge ht hid)

/-! ### The list of active formatting elements -/

omit h in
theorem removeFormatting_cases (a : TreeBuilder) (id : NodeId) :
    (∃ tag earlier later, a.formatting = earlier ++ .element id tag :: later ∧
      a.removeFormatting id = { a with formatting := earlier ++ later }) ∨
    (∀ tag, .element id tag ∉ a.formatting) ∧ a.removeFormatting id = a := by
  unfold TreeBuilder.removeFormatting
  split
  · next i hi =>
    obtain ⟨tag, htag⟩ := exists_entry hi
    have hlt := formattingIndex?_lt hi
    have hf : a.formatting =
        a.formatting.take i ++ .element id tag :: a.formatting.drop (i + 1) := by
      rw [List.getElem?_eq_getElem hlt] at htag
      rw [← Option.some.inj htag, List.getElem_cons_drop, List.take_append_drop]
    rw [eraseFormatting_eq hlt, attempt_some, List.eraseIdx_eq_take_drop_succ]
    exact Or.inl ⟨tag, _, _, hf, rfl⟩
  · next hnone =>
    refine Or.inr ⟨fun tag hmem => ?_, rfl⟩
    have hnot := List.findIdx?_eq_none_iff.1 hnone _ hmem
    simp [FormattingEntry.id?] at hnot

theorem removeFormatting (id : NodeId) : Acts token mode b cs (a.removeFormatting id) := by
  obtain ⟨tag, earlier, later, hf, heq⟩ | ⟨-, heq⟩ := removeFormatting_cases a id
  · rw [heq]
    exact h.step (.forget hf (Or.inl rfl))
  · rw [heq]
    exact h

/-- An element and its entry. -/
theorem dropFormatting (id : NodeId) :
    Acts token mode b cs ((a.removeFormatting id).removeOpen id) := by
  obtain ⟨tag, earlier, later, hf, heq⟩ | ⟨hnone, heq⟩ := removeFormatting_cases a id
  · rw [heq]
    exact h.step (.forget hf (Or.inr rfl))
  · rw [heq]
    exact h.removeOpen hnone

omit h in
/-- Only elements that satisfy `q` are closed. -/
theorem mem_popWhile {q : NodeId → Bool} {x : NodeId} (hx : x ∈ a.openElements) (hq : q x = false) :
    x ∈ (a.popWhile q).openElements := by
  rw [← List.takeWhile_append_dropWhile (p := q) (l := a.openElements)] at hx
  refine (List.mem_append.1 hx).resolve_left fun htake => ?_
  rw [List.mem_takeWhile_imp htake] at hq
  cases hq

/-- An element with a marker is closed, with everything in it, and the list is cleared. -/
theorem unmark {p : NodeId → Bool} {x : NodeId} (hx : x ∈ a.openElements) (hp : p x = true)
    (hm : ∀ x, p x = true → Marked a.tree x) :
    Acts token mode b cs (a.popThrough p).clearToMarker := by
  obtain ⟨inner, x, outer, hopen, hinner, hx⟩ : ∃ inner x outer,
      a.openElements = inner ++ x :: outer ∧ (∀ y ∈ inner, p y = false) ∧ p x = true := by
    obtain ⟨x, hfind⟩ := Option.isSome_iff_exists.1 (List.find?_isSome.2 ⟨x, hx, hp⟩)
    obtain ⟨hx, inner, outer, hopen, hinner⟩ := List.find?_eq_some_iff_append.1 hfind
    exact ⟨inner, x, outer, hopen, by simpa using hinner, hx⟩
  unfold TreeBuilder.popThrough
  rw [hopen, dropThrough_append hinner hx]
  have hcut : a.openElements = (inner ++ [x]) ++ outer := by simp [hopen]
  exact h.step (.unmark hcut ⟨x, by simp, hm x hx⟩)

/-- The closed element with the entry at index `i` is opened again. -/
theorem exists_renew {i : Nat} {old : NodeId} {tag : Tag} (hr : Rooted a)
    (hb : Braced a a.openElements) (hi : a.formatting[i]? = some (.element old tag))
    (hends : EndsOpen a.openElements (a.formatting.take i))
    (hlater : ∀ x ∈ (a.formatting.drop (i + 1)).filterMap (·.id?), x ∉ a.openElements) :
    ∃ id tree, a.insertHtml tag = { a with tree, openElements := id :: a.openElements } ∧
      Acts token mode b cs { a with
        tree, openElements := id :: a.openElements
        formatting := a.formatting.set i (.element id tag) } ∧
      Rooted { a with
        tree, openElements := id :: a.openElements
        formatting := a.formatting.set i (.element id tag) } ∧
      ∀ x ∈ (a.formatting.drop (i + 1)).filterMap (·.id?), x ∉ id :: a.openElements := by
  obtain ⟨hlt, hentry⟩ := List.getElem?_eq_some_iff.1 hi
  have ht := (hr.named old tag (List.mem_of_getElem? hi)).1
  obtain ⟨id, tree, heq, w, hlabel⟩ := insertElement_eq hr.anchored tag.name tag.attributes .html
  have heq' : a.insertHtml tag = { a with tree, openElements := id :: a.openElements } := heq
  have hf : a.formatting =
      a.formatting.take i ++ .element old tag :: a.formatting.drop (i + 1) := by
    rw [← hentry, List.getElem_cons_drop, List.take_append_drop]
  -- a formatting element is no part
  have hpart : ∀ p, partOf (.html, tag.name) ≠ some p := fun p => by
    rw [partOf_html, ofName?_formatting _ ht]
    simp
  have s : Step token mode a { a.insertElement tag.name tag.attributes .html with
      formatting := a.formatting.take i ++ .element id tag :: a.formatting.drop (i + 1)
      framesetOk := a.framesetOk } :=
    .insert (.renew ht (by rw [heq']; rfl) hf hlater hends) (fun p hp => absurd hp (hpart p))
      (fun hok => ⟨hok, fun p hp => absurd hp (hpart p)⟩) hb (.entry (List.mem_of_getElem? hi))
  have hset : a.formatting.take i ++ .element id tag :: a.formatting.drop (i + 1) =
      a.formatting.set i (.element id tag) := by
    rw [List.set_eq_take_append_cons_drop, if_pos hlt]
  rw [heq, hset] at s
  refine ⟨id, tree, heq', h.step s, s.rooted hr, fun x hx hmem => ?_⟩
  rcases List.mem_cons.1 hmem with rfl | hmem
  · -- it was in the tree before the new element was made
    obtain ⟨entry, hin, hid⟩ := List.mem_filterMap.1 hx
    cases entry with
    | marker => cases hid
    | element y tag' =>
      cases hid
      have hl := (hr.named _ tag' (List.mem_of_mem_drop hin)).2
      have hfresh := (w.sprout hr.anchored.forest (place_lt hr.anchored)).fresh
      exact absurd (lt_size_of_label? hl) (Nat.not_lt.2 hfresh)
  · exact hlater x hx hmem

end Acts

/-! ## 4. The text of tables, and errors -/

section TableText

variable {token : Token} {mode : InsertionMode} {b b' a : TreeBuilder} {cs : List Char}

theorem Step.tableText (s : Step token mode b b') : b'.tableText = b.tableText := by
  cases s with
  | aside h => exact h.tableText
  | @insert name attributes ns =>
    obtain ⟨tree, openElements, fault, heq⟩ := insertElement_same b name attributes ns
    rw [heq]
  | adopt _ _ ha => rw [ha.rebuilt.same]
  | _ => rfl

theorem Acts.tableText (h : Acts token mode b cs a) : a.tableText = b.tableText := by
  induction h with
  | refl => rfl
  | step _ s ih => exact s.tableText.trans ih
  | @char _ a _ _ _ c ih =>
    obtain ⟨tree, fault, heq⟩ := insertChar_same a c
    rw [heq]
    exact ih

/-- Errors are placed at the token that is processed. -/
structure Logs (b b' : TreeBuilder) : Prop where
  position : b'.position = b.position
  errors : b.errors.GrowsAt b.position b'.errors

theorem Logs.trans {b'' : TreeBuilder} (h : Logs b b') (h' : Logs b' b'') : Logs b b'' :=
  ⟨h'.position.trans h.position, h.errors.trans (h.position ▸ h'.errors)⟩

theorem Step.logs (s : Step token mode b b') : Logs b b' := by
  cases s with
  | aside h => exact ⟨h.position, h.errors⟩
  | @insert name attributes ns =>
    obtain ⟨tree, openElements, fault, heq⟩ := insertElement_same b name attributes ns
    rw [heq]
    exact ⟨rfl, .refl⟩
  | adopt _ _ ha =>
    rw [ha.rebuilt.same]
    exact ⟨rfl, .refl⟩
  | _ => exact ⟨rfl, .refl⟩

theorem Acts.logs (h : Acts token mode b cs a) : Logs b a := by
  induction h with
  | refl => exact ⟨rfl, .refl⟩
  | step _ s ih => exact ih.trans s.logs
  | @char _ a _ _ _ c ih =>
    obtain ⟨tree, fault, heq⟩ := insertChar_same a c
    rw [heq]
    exact ⟨ih.position, ih.errors⟩

end TableText

end TreeBuilder

end Hypertext
