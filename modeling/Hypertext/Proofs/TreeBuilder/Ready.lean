import Hypertext.Proofs.Position
import Hypertext.Proofs.TreeBuilder.Adoption
import Hypertext.Proofs.TreeBuilder.Parts
import Mathlib.Data.List.TakeWhile

/-!
# Operations that leave the parts alone

`Sound` holds of a tree builder in every mode. It is `Ready` for content if, moreover, the innermost
part holds content of any kind. Most operations then only change what is open above that part: they
are `Plain`, and none of them touches what the mode is read off.
-/

namespace Hypertext.TreeBuilder

open Hypertext.Tree

/-! ## 1. Sound and ready tree builders -/

/-- The parts among the open elements, the innermost first. -/
def bones (b : TreeBuilder) : List Part := b.tree.bones b.openElements

/-- What holds in every mode, until the end of the input. -/
structure Sound (b : TreeBuilder) : Prop where
  planted : Planted b.tree b.openElements b.headElement
  named : Named b.tree b.formatting
  form : ∀ f, b.formElement = some f → b.tree.label? f = some (.html, "form")
  frameset : b.framesetOk = true → b.templateModes = []
  running : b.stopped = false
  intact : b.fault = false

/-- Head and body are there as the parts among the open elements show: before the head only
the document element is open, and a body, or a frameset in its place, is there just while
one is open. -/
structure Furnished (bones : List Part) (headSeen : Bool) (bodies : List NodeId) : Prop where
  head : bones ≠ [.html] → headSeen = true
  body : bodies = [] ↔ .body ∉ bones ∧ .frameset ∉ bones

/-- The open elements are in order. -/
structure Framed (t : Tree) (stack : List NodeId) (modes : List InsertionMode) (headSeen : Bool) :
    Prop where
  frame : Frame (t.bones stack) modes
  seated : Seated t stack
  furnished : Furnished (t.bones stack) headSeen t.skeleton.bodies

/-- The open elements are in order, and content of any kind may come. -/
structure Ready (b : TreeBuilder) : Prop extends Sound b where
  framed : Framed b.tree b.openElements b.templateModes b.headElement.isSome
  content : ∃ p rest, b.bones = p :: rest ∧ p ∈ Part.content

/-- What the mode is read off is the same, and so is what the tokenizer is asked for. -/
structure Same (b b' : TreeBuilder) : Prop where
  keeps : b.tree.Keeps b'.tree
  bones : b'.bones = b.bones
  mode : b'.mode = b.mode
  resume : b'.resumeMode = b.resumeMode
  modes : b'.templateModes = b.templateModes
  head : b'.headElement = b.headElement
  request : b'.stateRequest = b.stateRequest
  skeleton : b'.tree.skeleton = b.tree.skeleton

/-- A change that leaves the parts alone, and the elements on their seats. -/
structure Plain (b b' : TreeBuilder) : Prop where
  sound : Sound b'
  same : Same b b'
  seated : Seated b.tree b.openElements → Seated b'.tree b'.openElements

variable {b b' b'' : TreeBuilder}

theorem Same.refl (b : TreeBuilder) : Same b b := ⟨.refl _, rfl, rfl, rfl, rfl, rfl, rfl, rfl⟩

theorem Same.trans (h : Same b b') (h' : Same b' b'') : Same b b'' :=
  ⟨h.keeps.trans h'.keeps, h'.bones.trans h.bones, h'.mode.trans h.mode,
    h'.resume.trans h.resume, h'.modes.trans h.modes, h'.head.trans h.head,
    h'.request.trans h.request, h'.skeleton.trans h.skeleton⟩

theorem Plain.refl (h : Sound b) : Plain b b := ⟨h, .refl b, id⟩

theorem Plain.trans (h : Plain b b') (h' : Plain b' b'') : Plain b b'' :=
  ⟨h'.sound, h.same.trans h'.same, fun hs => h'.seated (h.seated hs)⟩

theorem Plain.framed (p : Plain b b')
    (h : Framed b.tree b.openElements b.templateModes b.headElement.isSome) :
    Framed b'.tree b'.openElements b'.templateModes b'.headElement.isSome := by
  have hbones : b'.tree.bones b'.openElements = b.tree.bones b.openElements := p.same.bones
  refine ⟨?_, p.seated h.seated, ?_⟩
  · rw [hbones, p.same.modes]
    exact h.frame
  · rw [hbones, p.same.head, p.same.skeleton]
    exact h.furnished

theorem Plain.ready (p : Plain b b') (h : Ready b) : Ready b' :=
  ⟨p.sound, p.framed h.framed, by rw [p.same.bones]; exact h.content⟩

/-- What is done next may rely on what was done before. -/
theorem Plain.next (p : Plain b b') (p' : Sound b' → Plain b' b'') : Plain b b'' :=
  p.trans (p' p.sound)

theorem Plain.andThen (p : Plain b b') (h : Ready b) (p' : Ready b' → Plain b' b'') : Plain b b'' :=
  p.trans (p' (p.ready h))

theorem Ready.admits (h : Ready b) : Admits b.tree b.openElements := by
  obtain ⟨p, rest, hb, hp⟩ := h.content
  refine admits_of_bones hb ?_
  revert hp
  cases p <;> simp [Part.content]

namespace Furnished

variable {bones inner : List Part} {headSeen : Bool} {bodies : List NodeId} {p : Part}

/-- Another part is opened. -/
theorem cons (h : Furnished bones headSeen bodies) (hseen : headSeen = true)
    (hp : p ∉ [Part.body, .frameset]) : Furnished (p :: bones) headSeen bodies := by
  refine ⟨fun _ => hseen, h.body.trans ?_⟩
  simp only [List.mem_cons, List.not_mem_nil, or_false, not_or, eq_comm (a := p)] at hp ⊢
  tauto

/-- Other parts are closed. -/
theorem of_append (h : Furnished (inner ++ bones) headSeen bodies) (hbones : bones ≠ [])
    (hinner : .body ∉ inner ∧ .frameset ∉ inner) : Furnished bones headSeen bodies := by
  refine ⟨fun hne => h.head fun heq => ?_, h.body.trans ?_⟩
  · cases inner with
    | nil => exact hne heq
    | cons q inner => exact hbones (List.append_eq_nil_iff.1 (List.cons.inj heq).2).2
  · simp only [List.mem_append, not_or]
    tauto

end Furnished

/-- The head has been seen when content comes. -/
theorem Ready.begun (h : Ready b) : Begun b := by
  obtain ⟨p, rest, hb, hp⟩ := h.content
  refine ⟨h.framed.furnished.head ?_, ?_⟩
  · change b.bones ≠ _
    rw [hb]
    rintro ⟨⟩
    simp [Part.content] at hp
  · rintro hnil
    rw [bones, hnil] at hb
    cases hb

/-- The document element is the outermost open element. -/
theorem Framed.exists_bottom {t : Tree} {stack : List NodeId} {modes : List InsertionMode}
    {headSeen : Bool} (h : Framed t stack modes headSeen) :
    ∃ inner x, stack = inner ++ [x] ∧ t.label? x = some (.html, "html") := by
  obtain ⟨inner, hb, -⟩ := h.frame.eq_concat
  have hmem : .html ∈ t.bones stack := by rw [hb]; simp
  obtain ⟨x, hx, hpart⟩ := List.mem_filterMap.1 hmem
  obtain ⟨above, outer, rfl⟩ := List.append_of_mem hx
  obtain rfl := h.seated.outer_of_html hpart
  exact ⟨above, x, rfl, by simpa [Part.names] using part?_eq_some.1 hpart⟩

/-! ## 2. Fields that no rule reads off -/

section Fields

variable (h : Sound b)
include h

theorem plain_update (errors : ErrorLog) (tableText : List Char)
    (fostering skipNewline selfClosing framesetOk : Bool)
    (hok : framesetOk = true → b.framesetOk = true) :
    Plain b { b with errors, tableText, fostering, skipNewline, selfClosing, framesetOk } :=
  ⟨⟨h.planted, h.named, h.form, fun ht => h.frameset (hok ht), h.running, h.intact⟩,
    ⟨.refl _, rfl, rfl, rfl, rfl, rfl, rfl, rfl⟩, id⟩

theorem plain_errors (errors : ErrorLog) : Plain b { b with errors } :=
  plain_update h _ _ _ _ _ _ id

theorem plain_report (kind : ErrorKind) : Plain b (b.report kind) := plain_errors h _

omit h in
theorem reportIf_eq (bad : Bool) (kind : ErrorKind) (hk : kind.isOfInput = false) :
    ∃ errors, b.reportIf bad kind = { b with errors } ∧ b.errors.GrowsAt b.position errors := by
  cases bad
  · exact ⟨b.errors, rfl, .refl⟩
  · exact ⟨_, rfl, .record hk⟩

theorem plain_reportIf (bad : Bool) (kind : ErrorKind) : Plain b (b.reportIf bad kind) := by
  cases bad
  · exact .refl h
  · exact plain_report h kind

theorem plain_acknowledge : Plain b b.acknowledge := plain_update h _ _ _ _ _ _ id

theorem plain_framesetNotOk : Plain b b.framesetNotOk := plain_update h _ _ _ _ _ _ (by simp)

theorem plain_skipNewline (skip : Bool) : Plain b { b with skipNewline := skip } :=
  plain_update h _ _ _ _ _ _ id

theorem plain_formatting {entries : List FormattingEntry} (hn : Named b.tree entries) :
    Plain b { b with formatting := entries } :=
  ⟨⟨h.planted, hn, h.form, h.frameset, h.running, h.intact⟩,
    ⟨.refl _, rfl, rfl, rfl, rfl, rfl, rfl, rfl⟩, id⟩

theorem plain_removeFormatting (id : NodeId) : Plain b (b.removeFormatting id) := by
  obtain ⟨entries, hb, hs⟩ := removeFormatting_eq (b := b) id
  rw [hb]
  exact plain_formatting h (h.named.subset hs)

theorem plain_insertMarker : Plain b b.insertMarker :=
  plain_formatting h (h.named.append .marker)

theorem plain_clearToMarker : Plain b b.clearToMarker :=
  plain_formatting h (named_clearToMarker h.named)

theorem plain_formElement {form : Option NodeId}
    (hf : ∀ f, form = some f → b.tree.label? f = some (.html, "form")) :
    Plain b { b with formElement := form } :=
  ⟨⟨h.planted, h.named, hf, h.frameset, h.running, h.intact⟩,
    ⟨.refl _, rfl, rfl, rfl, rfl, rfl, rfl, rfl⟩, id⟩

end Fields

/-! ## 3. Insertions -/

theorem Sound.form_keeps (h : Sound b) {tree : Tree} (hk : b.tree.Keeps tree) :
    ∀ f, b.formElement = some f → tree.label? f = some (.html, "form") :=
  fun f hf => hk f _ (h.form f hf)

theorem Sound.bones_keeps (h : Sound b) {tree : Tree} (hk : b.tree.Keeps tree) :
    tree.bones b.openElements = b.bones := hk.bones h.planted.element

/-- More nodes in the tree change nothing about the open elements. -/
theorem plain_extend (h : Sound b) {tree : Tree} (e : Extends b.tree tree)
    (hs : tree.skeleton = b.tree.skeleton) : Plain b { b with tree } :=
  ⟨⟨h.planted.extend e hs, h.named.keeps e.keeps, h.form_keeps e.keeps, h.frameset, h.running,
      h.intact⟩,
    ⟨e.keeps, h.bones_keeps e.keeps, rfl, rfl, rfl, rfl, rfl, hs⟩, e.keeps.seated h.planted.element⟩

theorem plain_insertChar (h : Sound b) (c : Char) : Plain b (b.insertChar c) := by
  obtain ⟨tree, hb, e, hs⟩ := insertChar_eq h.planted.anchored c
  rw [hb]
  exact plain_extend h e hs

theorem plain_insertComment (h : Sound b) (data : String) : Plain b (b.insertComment data) := by
  obtain ⟨tree, hb, e, hs⟩ := insertComment_eq h.planted.anchored data
  rw [hb]
  exact plain_extend h e hs

theorem plain_insertCommentIn (h : Sound b) {parent : NodeId} (hp : parent < b.tree.size)
    (data : String) : Plain b (b.insertCommentIn parent data) := by
  obtain ⟨tree, hb, e, hs⟩ := insertCommentIn_eq h.planted.forest hp data
  rw [hb]
  exact plain_extend h e hs

theorem plain_mergeAttributes (h : Sound b) (id : NodeId) (attributes : List Attribute) :
    Plain b (b.mergeAttributes id attributes) := by
  obtain ⟨tree, hb, e, hs⟩ := mergeAttributes_eq h.planted.forest id attributes
  rw [hb]
  exact plain_extend h e hs

/-- `b'` is `b` with one more element open. -/
structure Opened (b b' : TreeBuilder) (l : Namespace × String) : Prop where
  sound : Sound b'
  keeps : b.tree.Keeps b'.tree
  same : b' = { b with tree := b'.tree, openElements := b'.openElements }
  stack : ∃ id, b'.openElements = id :: b.openElements ∧ b'.tree.label? id = some l

/-- `b'` is `b` with one more element open, which is no part of the skeleton. -/
structure Pushed (b b' : TreeBuilder) (l : Namespace × String) : Prop extends Opened b b' l where
  skeleton : b'.tree.skeleton = b.tree.skeleton

theorem pushed_put (h : Sound b) {name : String} {ns : Namespace} {attributes : List Attribute}
    {id : NodeId} {tree : Tree} (heq : b.insertElement name attributes ns =
      { b with tree, openElements := id :: b.openElements })
    (w : Put b.tree tree id b.place.parent b.place.before) (hl : tree.label? id = some (ns, name))
    (hhtml : (ns, name) ≠ (.html, "html")) (hbody : (ns, name) ≠ (.html, "body"))
    (hs : tree.skeleton = b.tree.skeleton) :
    Pushed b (b.insertElement name attributes ns) (ns, name) := by
  have hplanted := planted_put h.planted w hl hhtml hbody hs
  have hkeeps := (w.sprout h.planted.forest (place_lt h.planted.anchored)).keeps
  rw [heq]
  exact ⟨⟨⟨hplanted, h.named.keeps hkeeps, h.form_keeps hkeeps, h.frameset, h.running, h.intact⟩,
    hkeeps, rfl, id, rfl, hl⟩, hs⟩

theorem pushed_insertElement (h : Sound b) (hb : Begun b) (name : String) (ns : Namespace)
    (hname : (ns, name) ∉ outerLabels) (attributes : List Attribute) :
    Pushed b (b.insertElement name attributes ns) (ns, name) := by
  obtain ⟨id, tree, heq, w, hl⟩ := insertElement_eq h.planted.anchored name attributes ns
  refine pushed_put h heq w hl ?_ ?_ (skeleton_of_put h.planted hb w hl hname)
  · exact fun he => hname (he ▸ by decide)
  · exact fun he => hname (he ▸ by decide)

theorem Opened.bones {l : Namespace × String} (h : Sound b) (p : Opened b b' l) :
    b'.bones = (partOf l).toList ++ b.bones := by
  obtain ⟨id, hopen, hl⟩ := p.stack
  have hpart : b'.tree.part? id = partOf l := part?_of_label hl
  rw [TreeBuilder.bones, hopen, ← h.bones_keeps p.keeps]
  cases hp : partOf l with
  | none => rw [bones_cons_none (hpart.trans hp)]; rfl
  | some q => rw [bones_cons_some (hpart.trans hp)]; rfl

theorem Opened.seated {l : Namespace × String} (h : Sound b) (hseat : Seated b.tree b.openElements)
    (p : Opened b b' l) (hsits : ∀ y ∈ b.openElements.head?, Sits (partOf l) (b.tree.part? y)) :
    Seated b'.tree b'.openElements := by
  obtain ⟨id, hopen, hl⟩ := p.stack
  rw [hopen]
  refine seated_cons.2 ⟨fun y hy => ?_, p.keeps.seated h.planted.element hseat⟩
  obtain ⟨l', hl'⟩ := Option.isSome_iff_exists.1
    (h.planted.element y (List.mem_of_mem_head? hy))
  rw [p.keeps.part hl', part?_of_label hl]
  exact hsits y hy

/-- An element that is closed at once leaves the open elements as they were. -/
theorem Pushed.popped {l : Namespace × String} (h : Sound b) (p : Pushed b b' l) :
    Plain b b'.pop := by
  obtain ⟨id, hopen, -⟩ := p.stack
  have hpop : b'.pop.openElements = b.openElements := congrArg List.tail hopen
  have hbones : b'.pop.bones = b.bones := by
    rw [TreeBuilder.bones, hpop]
    exact h.bones_keeps p.keeps
  have hsound : Sound b'.pop :=
    ⟨p.sound.planted.sublist (List.tail_sublist _), p.sound.named, p.sound.form, p.sound.frameset,
      p.sound.running, p.sound.intact⟩
  refine ⟨hsound, ⟨p.keeps, hbones, ?_, ?_, ?_, ?_, ?_, p.skeleton⟩, fun hseat => ?_⟩
  · rw [pop, p.same]
  · rw [pop, p.same]
  · rw [pop, p.same]
  · rw [pop, p.same]
  · rw [pop, p.same]
  · rw [hpop]
    exact p.keeps.seated h.planted.element hseat

/-- An element that is no part may be opened where anything may stand. -/
theorem plain_pushed (h : Sound b) (ha : Admits b.tree b.openElements) {l : Namespace × String}
    (p : Pushed b b' l) (hl : partOf l = none) : Plain b b' := by
  have hbones := p.bones h
  rw [hl] at hbones
  refine ⟨p.sound, ⟨p.keeps, hbones, ?_, ?_, ?_, ?_, ?_, p.skeleton⟩,
    fun hs => p.seated h hs (hl ▸ ha)⟩
  all_goals rw [p.same]

theorem not_outer_of_part {l : Namespace × String} {q : Part} (h : partOf l = some q)
    (hq : q ∉ [Part.html, .head, .body, .frameset]) : l ∉ outerLabels := by
  have hall : ∀ l ∈ outerLabels, ∃ q ∈ [Part.html, .head, .body, .frameset], partOf l = some q := by
    decide
  intro hl
  obtain ⟨r, hr, hpart⟩ := hall l hl
  rw [h] at hpart
  exact hq (Option.some.inj hpart ▸ hr)

theorem plain_insertElement (h : Sound b) (hb : Begun b) (ha : Admits b.tree b.openElements)
    (name : String) (ns : Namespace) (hname : partOf (ns, name) = none)
    (attributes : List Attribute) : Plain b (b.insertElement name attributes ns) :=
  plain_pushed h ha (pushed_insertElement h hb name ns (not_outer_of_partOf hname) attributes) hname

theorem plain_insertHtml (h : Ready b) {tag : Tag} (hname : Part.ofName? tag.name = none) :
    Plain b (b.insertHtml tag) :=
  plain_insertElement h.toSound h.begun h.admits tag.name .html hname tag.attributes

theorem plain_insertNamed (h : Ready b) (name : String) (hname : Part.ofName? name = none) :
    Plain b (b.insertNamed name) :=
  plain_insertElement h.toSound h.begun h.admits name .html hname []

/-! ## 4. Closing elements that are no parts -/

/-- Some of the elements that are no parts are closed, wherever they are open. -/
theorem Sound.sublist (h : Sound b) {stack : List NodeId} (hs : stack.Sublist b.openElements) :
    Sound { b with openElements := stack } :=
  ⟨h.planted.sublist hs, h.named, h.form, h.frameset, h.running, h.intact⟩

/-- The elements above the innermost part may be closed. -/
theorem plain_closed (h : Sound b) {dropped stack : List NodeId}
    (hopen : b.openElements = dropped ++ stack) (hc : Clear b.tree dropped) :
    Plain b { b with openElements := stack } := by
  have hsub : stack.Sublist b.openElements := by
    rw [hopen]
    exact List.sublist_append_right ..
  have hbones : b.tree.bones stack = b.bones := by rw [bones, hopen, hc.bones_append]
  refine ⟨h.sublist hsub, ⟨.refl _, hbones, rfl, rfl, rfl, rfl, rfl, rfl⟩, fun hs => ?_⟩
  rw [hopen] at hs
  exact hs.suffix

theorem plain_pop (h : Sound b) {x : NodeId} {outer : List NodeId}
    (hopen : b.openElements = x :: outer) (hx : b.tree.part? x = none) : Plain b b.pop := by
  have hp := plain_closed h (show b.openElements = [x] ++ outer from hopen) (by simpa using hx)
  rwa [pop, hopen]

theorem plain_popWhile (h : Sound b) {q : NodeId → Bool}
    (hq : ∀ x, q x = true → b.tree.part? x = none) : Plain b (b.popWhile q) := by
  refine plain_closed h (List.takeWhile_append_dropWhile (p := q)).symm fun x hx => ?_
  exact hq x (List.mem_takeWhile_imp hx)

theorem plain_removeOpen (h : Sound b) {id : NodeId} (hid : b.tree.part? id = none) :
    Plain b (b.removeOpen id) := by
  have hq : ∀ y, (y != id) = false → b.tree.part? y = none := by
    intro y hy
    rw [bne_eq_false_iff_eq] at hy
    rw [hy, hid]
  have hbones : b.tree.bones (b.openElements.filter (· != id)) = b.bones := by
    rw [bones, Tree.bones, Tree.bones, List.filterMap_filter]
    refine List.filterMap_congr fun y _ => ?_
    cases hy : y != id
    · exact (hq y hy).symm
    · rfl
  exact ⟨h.sublist List.filter_sublist, ⟨.refl _, hbones, rfl, rfl, rfl, rfl, rfl, rfl⟩,
    fun hs => hs.filter fun y _ => hq y⟩

/-- An element that satisfies `p` is open above the innermost part. -/
def Found (b : TreeBuilder) (p : NodeId → Bool) : Prop :=
  ∃ inner x outer, b.openElements = inner ++ x :: outer ∧ Clear b.tree (inner ++ [x]) ∧ p x = true

theorem exists_dropThrough {t : Tree} {p : NodeId → Bool} {inner : List NodeId} {x : NodeId}
    (outer : List NodeId) (hc : Clear t (inner ++ [x])) (hx : p x = true) :
    ∃ dropped, inner ++ x :: outer = dropped ++ dropThrough p (inner ++ x :: outer) ∧
      Clear t dropped := by
  induction inner with
  | nil => exact ⟨[x], by simp [dropThrough, hx], hc⟩
  | cons y inner ih =>
    obtain ⟨hy, hc⟩ := clear_cons.1 hc
    rw [List.cons_append, dropThrough]
    split
    · exact ⟨[y], rfl, by simpa using hy⟩
    · obtain ⟨dropped, heq, hd⟩ := ih hc
      refine ⟨y :: dropped, ?_, clear_cons.2 ⟨hy, hd⟩⟩
      rw [List.cons_append, ← heq]

theorem plain_popThrough (h : Sound b) {p : NodeId → Bool} (hf : Found b p) :
    Plain b (b.popThrough p) := by
  obtain ⟨inner, x, outer, hopen, hc, hx⟩ := hf
  obtain ⟨dropped, heq, hd⟩ := exists_dropThrough outer hc hx
  rw [← hopen] at heq
  exact plain_closed h heq hd

theorem openElements_popWhile {q : NodeId → Bool} {inner outer : List NodeId} {x : NodeId}
    (hopen : b.openElements = inner ++ x :: outer) (hx : q x = false) :
    (b.popWhile q).openElements = inner.dropWhile q ++ x :: outer := by
  rw [TreeBuilder.popWhile, hopen, List.dropWhile_append]
  split
  · next hd =>
    rw [List.isEmpty_iff.1 hd, List.dropWhile_cons_of_neg (by simp [hx])]
    rfl
  · rfl

theorem Found.popWhile {p q : NodeId → Bool} (hf : Found b p)
    (hq : ∀ x, p x = true → q x = false) : Found (b.popWhile q) p := by
  obtain ⟨inner, x, outer, hopen, hc, hx⟩ := hf
  refine ⟨inner.dropWhile q, x, outer, openElements_popWhile hopen (hq x hx),
    fun y hy => hc y ?_, hx⟩
  rcases List.mem_append.1 hy with hy | hy
  · exact List.mem_append_left _ ((List.dropWhile_sublist q).subset hy)
  · exact List.mem_append_right _ hy

/-! ## 5. Elements in scope -/

theorem part?_of_isHtml {name : String} (hname : Part.ofName? name = none) {x : NodeId}
    (hx : b.isHtml name x = true) : b.tree.part? x = none :=
  (part?_of_label (isHtml_iff.1 hx)).trans hname

theorem isHtml_of_element {x : NodeId} {e : Element} (he : b.tree.element? x = some e)
    (name : String) : b.isHtml name x = e.isHtml name := by
  rw [isHtml, he, Option.any_some]

theorem isHtmlOf_of_element {x : NodeId} {e : Element} (he : b.tree.element? x = some e)
    (names : List String) : b.isHtmlOf names x = e.isHtmlOf names := by
  rw [isHtmlOf, he, Option.any_some]

/-- A node that is found in scope is open above the innermost part. -/
theorem found_of_search (h : Ready b) {scope : Scope} (hs : scope.isOrdinary)
    {target : NodeId → Element → Bool} {p : NodeId → Bool}
    (ht : ∀ x e, b.tree.element? x = some e → target x e = true →
      b.tree.part? x = none ∧ p x = true)
    (hin : searchScope b.tree scope target b.openElements = true) : Found b p := by
  obtain ⟨q, rest, hb, hq⟩ := h.content
  obtain ⟨inner, x, outer, e, hopen, hc, he, hx⟩ := exists_of_searchScope hs
    (fun x e he hx => (ht x e he hx).1) h.framed.seated hb hq hin
  exact ⟨inner, x, outer, hopen, hc, (ht x e he hx).2⟩

theorem found_of_inScope (h : Ready b) {scope : Scope} (hs : scope.isOrdinary) {name : String}
    (hname : Part.ofName? name = none) (hin : b.inScope scope name = true) :
    Found b (b.isHtml name) := by
  refine found_of_search h hs (fun x e he hx => ?_) hin
  rw [← isHtml_of_element he] at hx
  exact ⟨part?_of_isHtml hname hx, hx⟩

/-! ## 6. Implied end tags -/

theorem ofName?_impliedEnd : ∀ name ∈ Category.impliedEnd, Part.ofName? name = none := by decide

theorem plain_closeImplied (h : Sound b) (except : Option String) :
    Plain b (b.closeImplied except) := by
  refine plain_popWhile h fun x hx => ?_
  obtain ⟨e, he, hx⟩ := (Option.any_eq_true _ _).1 hx
  obtain ⟨hx, -⟩ := (Bool.and_eq_true_iff).1 hx
  rw [← isHtmlOf_of_element he] at hx
  obtain ⟨name, hname, hl⟩ := isHtmlOf_iff.1 hx
  exact (part?_of_label hl).trans (ofName?_impliedEnd name hname)

/-- An element that is looked for is not closed by implication. -/
theorem Found.closeImplied {names : List String} (hf : Found b (b.isHtmlOf names))
    (except : Option String)
    (hn : ∀ name ∈ names, except = some name ∨ name ∉ Category.impliedEnd) :
    Found (b.closeImplied except) ((b.closeImplied except).isHtmlOf names) := by
  refine Found.popWhile hf fun x (hx : b.isHtmlOf names x = true) => ?_
  obtain ⟨name, hname, hl⟩ := isHtmlOf_iff.1 hx
  obtain ⟨e, he, hns, htag⟩ := exists_element_of_label hl
  rw [he, Option.any_some]
  rcases hn name hname with hn | hn
  · simp [hn, htag]
  · simp [Element.isHtmlOf, htag, hn]

theorem isHtmlOf_singleton (name : String) : b.isHtmlOf [name] = b.isHtml name := by
  funext x
  rw [Bool.eq_iff_iff, isHtmlOf_iff, isHtml_iff]
  simp

/-- An element with one of these names, open above the innermost part, is closed with everything in
it. -/
theorem plain_close (h : Sound b) {names : List String} (hf : Found b (b.isHtmlOf names))
    (except : Option String) (hn : ∀ name ∈ names, except = some name ∨ name ∉ Category.impliedEnd)
    (bad : TreeBuilder → Bool) :
    let b₁ := b.closeImplied except
    let b₂ := b₁.reportIf (bad b₁) .unclosedElements
    Plain b (b₂.popThrough (b₂.isHtmlOf names)) := by
  intro b₁ b₂
  have hf' : Found b₂ (b₂.isHtmlOf names) := by
    have hf := hf.closeImplied except hn
    unfold b₂
    cases bad b₁ <;> exact hf
  exact ((plain_closeImplied h except).next fun h => plain_reportIf h _ _).next fun h =>
    plain_popThrough h hf'

theorem plain_closeNamed (h : Sound b) {name : String} (hf : Found b (b.isHtml name))
    {except : Option String} (hn : except = some name ∨ name ∉ Category.impliedEnd) :
    Plain b (b.closeNamed name except) := by
  rw [← isHtmlOf_singleton] at hf
  have hp := plain_close h hf except (by simpa using hn) fun b => !b.currentIs name
  simp only [isHtmlOf_singleton] at hp
  exact hp

theorem plain_closeNamed_inScope (h : Ready b) {scope : Scope} (hs : scope.isOrdinary)
    {name : String} (hname : Part.ofName? name = none) (hin : b.inScope scope name = true)
    {except : Option String} (hn : except = some name ∨ name ∉ Category.impliedEnd) :
    Plain b (b.closeNamed name except) :=
  plain_closeNamed h.toSound (found_of_inScope h hs hname hin) hn

theorem plain_closeOpenParagraph (h : Ready b) : Plain b b.closeOpenParagraph := by
  unfold closeOpenParagraph
  split
  · next hin =>
      exact plain_closeNamed_inScope h (by simp [Scope.isOrdinary]) (by decide) hin (Or.inl rfl)
  · exact .refl h.toSound

/-! ## 7. Formatting elements -/

theorem ofName?_formatting : ∀ name ∈ Category.formatting, Part.ofName? name = none := by decide

theorem Formatted.clear {t : Tree} {xs : List NodeId} (h : Formatted t xs) : Clear t xs := by
  intro x hx
  obtain ⟨name, hname, hl⟩ := h x hx
  exact (part?_of_label hl).trans (ofName?_formatting name hname)

theorem Sound.reconstruct (h : Sound b) (hb : Begun b) :
    Sound b.reconstruct ∧ Same b b.reconstruct := by
  have ho := opens_reconstruct h.planted hb h.named
  obtain ⟨new, hnew, hf⟩ := ho.stack
  have hbones : b.reconstruct.tree.bones b.reconstruct.openElements = b.bones := by
    rw [hnew, hf.clear.bones_append, h.bones_keeps ho.keeps]
  have hform := h.form_keeps ho.keeps
  have hplanted := ho.planted
  have hnamed := ho.named
  have hkeeps := ho.keeps
  have hskeleton := ho.skeleton
  rw [ho.same]
  exact ⟨⟨hplanted, hnamed, hform, h.frameset, h.running, h.intact⟩,
    ⟨hkeeps, hbones, rfl, rfl, rfl, rfl, rfl, hskeleton⟩⟩

theorem plain_reconstruct (h : Ready b) : Plain b b.reconstruct := by
  obtain ⟨hs, same⟩ := h.toSound.reconstruct h.begun
  refine ⟨hs, same, fun _ => ?_⟩
  have ho := opens_reconstruct h.planted h.begun h.named
  obtain ⟨new, hnew, hf⟩ := ho.stack
  rw [hnew]
  refine (ho.keeps.seated h.planted.element h.framed.seated).pile hf.clear fun y hy => ?_
  obtain ⟨l, hl⟩ := Option.isSome_iff_exists.1 (h.planted.element y (List.mem_of_mem_head? hy))
  rw [ho.keeps.part hl]
  exact h.admits y hy

theorem plain_pushFormatting (h : Sound b) {id : NodeId} {tag : Tag}
    (ht : tag.name ∈ Category.formatting) (hl : b.tree.label? id = some (.html, tag.name)) :
    Plain b (b.pushFormatting id tag) := by
  obtain ⟨entries, hb, hs⟩ := pushFormatting_eq (b := b) id tag
  rw [hb]
  exact plain_formatting h ((h.named.subset hs).append (.element ht hl))

theorem plain_insertFormatting (h : Ready b) {tag : Tag} (ht : tag.name ∈ Category.formatting) :
    Plain b (b.insertFormatting tag) := by
  have hname := ofName?_formatting _ ht
  have hr := (plain_reconstruct h).ready h
  have pushed := pushed_insertElement hr.toSound hr.begun tag.name .html
    (not_outer_of_formatting ht) tag.attributes
  obtain ⟨new, hopen, hl⟩ := pushed.stack
  have p := (plain_reconstruct h).trans (plain_insertHtml hr hname)
  unfold insertFormatting
  dsimp only
  split
  · next id hid =>
    change (b.reconstruct.insertElement tag.name tag.attributes .html).openElements.head? =
      some id at hid
    rw [hopen] at hid
    cases hid
    exact p.next fun h => plain_pushFormatting h ht hl
  · exact p

/-! ## 8. The adoption agency -/

theorem plain_rebuilt (h : Ready b) {old pre outer : List NodeId} (r : Rebuilt b b' old outer)
    (hopen : b.openElements = pre ++ outer) (hpre : Clear b.tree pre) (hne : pre ≠ [])
    (hold : ∀ x ∈ old, x ∈ pre) : Plain b b' := by
  obtain ⟨new, hnew, hmem⟩ := r.stack
  have hclear : Clear b'.tree new := by
    intro x hx
    rcases hmem x hx with hx | ⟨name, hname, hl⟩
    · have hxo : x ∈ b.openElements := by rw [hopen]; exact List.mem_append_left _ (hold x hx)
      obtain ⟨l, hl⟩ := Option.isSome_iff_exists.1 (h.planted.element x hxo)
      rw [r.keeps.part hl]
      exact hpre x (hold x hx)
    · exact (part?_of_label hl).trans (ofName?_formatting name hname)
  have hout : ∀ x ∈ outer, (b.tree.label? x).isSome := fun x hx =>
    h.planted.element x (by rw [hopen]; exact List.mem_append_right _ hx)
  -- none of the elements that are open instead is a part
  have hbones : b'.bones = b.bones := by
    rw [bones, bones, hnew, hopen, hclear.bones_append, hpre.bones_append, r.keeps.bones hout]
  have hseat := h.framed.seated
  rw [hopen] at hseat
  -- what was open directly outside has let in an element that was no part
  have hadmits : Admits b'.tree outer := by
    obtain ⟨last, x, rfl⟩ := List.eq_nil_or_concat pre |>.resolve_left hne
    intro y hy
    obtain ⟨l, hl⟩ := Option.isSome_iff_exists.1 (hout y (List.mem_of_mem_head? hy))
    rw [r.keeps.part hl]
    rw [List.concat_eq_append, List.append_assoc] at hseat
    exact hseat.suffix.admits (hpre x (by simp)) y hy
  have hseated : Seated b'.tree b'.openElements := by
    rw [hnew]
    exact (r.keeps.seated hout hseat.suffix).pile hclear hadmits
  have hsound : Sound b' := by
    refine ⟨?_, r.named, ?_, ?_, ?_, ?_⟩
    · have := r.planted
      rw [r.same]
      exact this
    · intro f hf
      rw [r.same] at hf
      exact r.keeps f _ (h.form f hf)
    · rw [r.same]
      exact h.frameset
    · rw [r.same]
      exact h.running
    · rw [r.same]
      exact h.intact
  refine ⟨hsound, ⟨r.keeps, hbones, ?_, ?_, ?_, ?_, ?_, r.skeleton⟩, fun _ => hseated⟩
  all_goals rw [r.same]

/-- A formatting element above the innermost part, found at a depth, is open inside elements that
may be anything; what is open in it is no part. -/
theorem Found.clear_of_openDepth? {element : NodeId} {depth : Nat} (h : Sound b)
    (hf : Found b (· == element)) (hdepth : b.openDepth? element = some depth) :
    ∃ inner outer, b.openElements = inner ++ element :: outer ∧ outer.length = depth ∧
      Clear b.tree (inner ++ [element]) := by
  obtain ⟨inner, outer, hopen, hlength, hnot⟩ := exists_of_openDepth? hdepth
  obtain ⟨inner', x, outer', hopen', hc, hx⟩ := hf
  obtain rfl : x = element := by simpa using hx
  -- the element is open only once
  have hnot' : x ∉ inner := fun hm => by
    have hn := h.planted.nodup
    rw [hopen] at hn
    exact (List.nodup_append.1 hn).2.2 x hm x (by simp) rfl
  obtain ⟨rfl, -⟩ := (List.append_cons_inj_of_notMem hnot' hnot).1 (hopen.symm.trans hopen')
  exact ⟨inner, outer, hopen, hlength, hc⟩

theorem furthestBlock?_eq {inner outer : List NodeId} {element : NodeId}
    (hopen : b.openElements = inner ++ element :: outer) : b.furthestBlock? outer.length =
      some (inner.reverse.find? fun id => (b.tree.element? id).any Category.isSpecial) := by
  rw [furthestBlock?, openFrom_eq hopen]
  rfl

/-- What is found by a search that begins outside is the outermost of its kind. -/
theorem exists_outermost {p : NodeId → Bool} {inner : List NodeId} {x : NodeId}
    (h : inner.reverse.find? p = some x) :
    ∃ deeper between, inner = deeper ++ x :: between ∧ p x = true ∧ ∀ y ∈ between, p y = false := by
  obtain ⟨hx, between, deeper, hinner, hbetween⟩ := List.find?_eq_some_iff_append.1 h
  refine ⟨deeper.reverse, between.reverse, ?_, hx, fun y hy => ?_⟩
  · rw [← List.reverse_reverse inner, hinner]
    simp
  · simpa using hbetween y (List.mem_reverse.1 hy)

/-- A block in a formatting element above the innermost part may be carried out. -/
theorem carriable (h : Ready b) {element block : NodeId} {deeper between outer : List NodeId}
    (hopen : b.openElements = deeper ++ block :: (between ++ element :: outer))
    (hc : Clear b.tree (deeper ++ block :: (between ++ [element])))
    (hblock : (b.tree.element? block).any Category.isSpecial = true)
    (hbetween : ∀ x ∈ between, (b.tree.element? x).any Category.isSpecial = false) :
    Carriable b deeper block between element outer := by
  have houter : outer ≠ [] := by
    -- the outermost element is the document element
    rintro rfl
    obtain ⟨above, x, hbottom, hl⟩ := h.framed.exists_bottom
    have hcut : b.openElements = (deeper ++ block :: between) ++ [element] := by simp [hopen]
    have heq : element = x := by
      have hlast := congrArg List.getLast? (hcut.symm.trans hbottom)
      rw [List.getLast?_concat, List.getLast?_concat] at hlast
      exact Option.some.inj hlast
    have hnone := hc element (by simp)
    rw [part?_of_label (heq ▸ hl)] at hnone
    revert hnone
    decide
  refine ⟨h.planted, h.named, hopen, fun x hx => ?_, hblock, hbetween, houter, h.begun.head⟩
  have hx' : x ∈ deeper ++ block :: (between ++ [element]) := by
    simp only [List.mem_append, List.mem_cons] at hx ⊢
    tauto
  rw [hc x hx']
  exact List.mem_cons_self

/-- One round of the agency: the block is carried out and its children are wrapped. -/
theorem plain_adopted (h : Ready b) {element block : NodeId} {deeper between outer : List NodeId}
    (hopen : b.openElements = deeper ++ block :: (between ++ element :: outer))
    (hc : Clear b.tree (deeper ++ block :: (between ++ [element])))
    (r : Rebuilt b b' (deeper ++ [block, element]) outer) : Plain b b' := by
  have hpre : b.openElements = deeper ++ block :: (between ++ [element]) ++ outer := by simp [hopen]
  refine plain_rebuilt h r hpre hc (by simp) fun x hx => ?_
  simp only [List.mem_append, List.mem_cons] at hx ⊢
  tauto

/-- What the agency does for an end tag, round by round: it changes nothing, forgets an element that
is not open, closes an element without a block, or takes a block out and goes on. -/
inductive Agency (subject : String) : TreeBuilder → TreeBuilder → Prop where
  | stop {b : TreeBuilder} (errors : ErrorLog) (hl : b.errors.GrowsAt b.position errors) :
    Agency subject b { b with errors }
  | forget {b : TreeBuilder} (errors : ErrorLog) (element : NodeId)
    (hl : b.errors.GrowsAt b.position errors) :
    Agency subject b ({ b with errors }.removeFormatting element)
  | close {b : TreeBuilder} (errors : ErrorLog) {inner outer : List NodeId} (element : NodeId)
    (hl : b.errors.GrowsAt b.position errors) (hopen : b.openElements = inner ++ outer)
    (hc : Clear b.tree inner) :
    Agency subject b ({ b with errors, openElements := outer }.removeFormatting element)
  | round {b b₁ b' : TreeBuilder} {errors : ErrorLog} {r : AgencyRound}
    (hl : b.errors.GrowsAt b.position errors)
    (hactive : b.activeFormatting? subject = some r.element)
    (ha : Adopts { b with errors } b₁ r) (p : Plain b b₁) (h : Agency subject b₁ b') :
    Agency subject b b'

theorem Agency.plain {subject : String} (a : Agency subject b b') (h : Sound b) : Plain b b' := by
  induction a with
  | stop errors => exact plain_errors h errors
  | forget errors element _ =>
    exact (plain_errors h errors).next fun h => plain_removeFormatting h element
  | close errors element _ hopen hc =>
    exact ((plain_errors h errors).next fun h => plain_closed h hopen hc).next fun h =>
      plain_removeFormatting h element
  | round _ _ _ p _ ih => exact p.next ih

/-- The element that the agency looks for has an entry. -/
theorem mem_of_activeFormatting? {subject : String} {id : NodeId}
    (h : b.activeFormatting? subject = some id) : ∃ tag, .element id tag ∈ b.formatting := by
  obtain ⟨⟨i, id'⟩, hmem, rfl⟩ := List.mem_map.1 (List.mem_of_find?_eq_some h)
  obtain ⟨⟨e, j⟩, hentry, hid⟩ := List.mem_filterMap.1 hmem
  obtain ⟨other, hother, hij⟩ := Option.map_eq_some_iff.1 hid
  have hj := List.mem_reverse.1 ((List.takeWhile_sublist _).subset hentry)
  cases hij
  cases e with
  | marker => cases hother
  | element id tag =>
    cases hother
    exact ⟨tag, List.fst_mem_of_mem_zipIdx hj⟩

theorem exists_adopt? {subject : String} (hs : subject ∈ Category.formatting) (fuel : Nat)
    (h : Ready b) : ∃ r, adopt? subject fuel b = some r ∧ Agency subject b r.1 := by
  induction fuel generalizing b with
  | zero => exact ⟨_, rfl, .stop b.errors .refl⟩
  | succ fuel ih =>
    unfold adopt?
    split
    · exact ⟨_, rfl, .stop b.errors .refl⟩
    · next element hactive =>
      have helement : b.tree.part? element = none :=
        part?_of_isHtml (ofName?_formatting subject hs) (List.find?_some hactive)
      split
      · exact ⟨_, rfl, .forget _ element (.record rfl)⟩
      · next depth hdepth =>
        split
        · exact ⟨_, rfl, .stop _ (.record rfl)⟩
        · next hscope =>
          -- everything down to the element is open above the innermost part
          have hf : Found b (· == element) := by
            have hin : b.nodeInScope element = true := by simpa using hscope
            refine found_of_search h (Or.inl rfl) (fun x e _ hx => ?_) hin
            obtain rfl : x = element := by simpa using hx
            exact ⟨helement, by simp⟩
          obtain ⟨inner, outer, hopen, rfl, hclear⟩ := hf.clear_of_openDepth? h.toSound hdepth
          have hreport := plain_reportIf h.toSound (b.currentNode? != some element)
            .misnestedFormattingElement
          obtain ⟨errors, herrors, hl⟩ := reportIf_eq (b := b) (b.currentNode? != some element)
            .misnestedFormattingElement rfl
          rw [herrors] at hreport ⊢
          have h₁ := hreport.ready h
          simp only [furthestBlock?_eq (b := { b with errors }) hopen, Option.bind_eq_bind,
            Option.bind_some]
          split
          · have hstack : { b with errors }.openElements = (inner ++ [element]) ++ outer := by
              simp [hopen]
            rw [truncate_eq hstack]
            exact ⟨_, rfl, .close errors element hl hstack hclear⟩
          · next block hblock =>
            obtain ⟨deeper, between, rfl, hspecial, hbetween⟩ := exists_outermost hblock
            rw [List.append_assoc, List.cons_append] at hopen hclear
            obtain ⟨tag, hentry⟩ := mem_of_activeFormatting? hactive
            obtain ⟨b₁, w, copies, i, tag, copy, grown, ha, hcarry, hi, hentry, hwrap⟩ :=
              exists_hoists (carriable h₁ (b := { b with errors }) hopen hclear hspecial hbetween)
              (b := { b with errors }) hentry
            have p := hreport.trans (plain_adopted h₁ hopen hclear ha.rebuilt)
            obtain ⟨last, hlast, a⟩ := ih (p.ready h)
            refine ⟨last, ?_, .round hl hactive ⟨ha, hclear⟩ p a⟩
            simp only [hcarry, hi, hentry, hwrap, Option.bind_some]
            exact hlast

theorem plain_runAdoption (h : Ready b) (subject : String) (hs : subject ∈ Category.formatting) :
    Plain b (b.runAdoption subject).1 := by
  unfold runAdoption
  split
  · next hpop =>
    obtain ⟨current, hcurrent, hpop⟩ := (Option.any_eq_true _ _).1 hpop
    have hx := part?_of_isHtml (ofName?_formatting subject hs) (Bool.and_eq_true_iff.1 hpop).1
    obtain ⟨outer, hopen⟩ := List.head?_eq_some_iff.1 hcurrent
    exact plain_pop h.toSound hopen hx
  · obtain ⟨r, hr, a⟩ := exists_adopt? hs outerLimit h
    rw [hr]
    exact a.plain h.toSound

/-! ## 9. Compound operations -/

theorem plain_insertVoid (h : Sound b) (hb : Begun b) {tag : Tag}
    (hname : Part.ofName? tag.name = none) : Plain b (b.insertVoid tag) := by
  have hne := not_outer_of_partOf (l := (.html, tag.name)) hname
  exact ((pushed_insertElement h hb tag.name .html hne tag.attributes).popped h).next
    plain_acknowledge

theorem plain_insertForeign (h : Sound b) (hb : Begun b) (ha : Admits b.tree b.openElements)
    (tag : Tag) {name : String} {ns : Namespace} (hns : ns ≠ .html) (attributes : List Attribute) :
    Plain b (b.insertForeign tag name attributes ns) := by
  have hpart : partOf (ns, name) = none := by simp [partOf, hns]
  have p := pushed_insertElement h hb _ _ (not_outer_of_partOf hpart) attributes
  unfold insertForeign
  dsimp only
  split
  · exact (p.popped h).next plain_acknowledge
  · exact plain_pushed h ha p hpart

end Hypertext.TreeBuilder
