import Hypertext.Proofs.TreeBuilder.Rules.Template
import Hypertext.TreeBuilder.Rules.Head

/-!
# The rules up to the body are lawful

In these modes the stack holds the document element, the head element while it is open, and at most
one element in it.
-/

namespace Hypertext.TreeBuilder

open Hypertext.Tree

variable {b b' : TreeBuilder} {token : Token} {tag : Tag}

/-! ## 1. Rules that other modes share -/

theorem plain_repeatedHtml (h : Sound b) (tag : Tag) : Plain b (b.repeatedHtml tag) := by
  have p := plain_report h .unexpectedStartTag
  unfold repeatedHtml
  dsimp only
  split
  · exact p
  · split
    · exact p.next fun h => plain_mergeAttributes h _ _
    · exact p

theorem lawful_repeatedHtml (h : Spine b) (tag : Tag) :
    Lawful b (.startTag tag) (b.repeatedHtml tag).done := by
  refine lawful_still h (plain_repeatedHtml h.toSound tag) ?_ (by simp)
  unfold repeatedHtml
  dsimp only
  split
  · rfl
  · split <;> rfl

theorem ofName?_headContent : ∀ name ∈ Category.headContent, name ≠ "template" →
    Part.ofName? name = none ∧ name ≠ "img" := by decide

theorem spine_insertRawText (h : Spine b) (hb : Begun b)
    (hm : b.mode ≠ .text ∧ b.mode ≠ .inTableText)
    (hname : Part.ofName? tag.name = none) (himg : tag.name ≠ "img") (kind : RawText) :
    Spine (b.insertRawText tag kind) ∧ Request (b.insertRawText tag kind) tag := by
  have hne := not_outer_of_partOf (l := (.html, tag.name)) hname
  have p := pushed_insertElement h.toSound hb tag.name .html hne tag.attributes
  exact p.spine_text h.toSound hname himg kind ((standing_iff hm).1 h.standing)

theorem lawful_insertRawText (h : Spine b) (hb : Begun b)
    (hm : b.mode ≠ .text ∧ b.mode ≠ .inTableText)
    (hname : Part.ofName? tag.name = none) (himg : tag.name ≠ "img") (kind : RawText) :
    Lawful b (.startTag tag) (b.insertRawText tag kind).done := by
  obtain ⟨hspine, hrequest⟩ := spine_insertRawText h hb hm hname himg kind
  exact lawful_request hspine hrequest

theorem lawful_startTemplate (h : Spine b) (hb : Begun b) (hm : b.mode ∈ steadyModes)
    (hname : tag.name = "template") :
    Lawful b (.startTag tag) (b.startTemplate tag).done := by
  have hpart : partOf (.html, tag.name) = some .template := by rw [hname]; decide
  have p := pushed_insertElement h.toSound hb tag.name .html (not_outer_of_part hpart (by simp))
    tag.attributes
  refine lawful_done (p.spine_template h.toSound hb hpart (h.steady hm).1) (by simp) ?_
  refine quiet_of_ne ?_ (by simp [startTemplate])
  change (b.insertElement tag.name tag.attributes .html).stateRequest = b.stateRequest
  rw [p.same]

/-- An element of the head is a template, or has raw text, or is void. -/
theorem startHeadContent_cases (ht : tag.name ∈ Category.headContent) :
    (tag.name = "template" ∧ ∀ b : TreeBuilder, b.startHeadContent tag = b.startTemplate tag) ∨
    (Part.ofName? tag.name = none ∧ tag.name ≠ "img" ∧
      ((tag.name ∈ ["noframes", "script", "style", "title"] ∧
          ∃ kind, ∀ b : TreeBuilder, b.startHeadContent tag = b.insertRawText tag kind) ∨
        tag.name ∈ ["base", "basefont", "bgsound", "link", "meta"] ∧
          ∀ b : TreeBuilder, b.startHeadContent tag = b.insertVoid tag)) := by
  unfold startHeadContent
  by_cases htemplate : tag.name = "template"
  · exact Or.inl ⟨htemplate, fun b => by simp [htemplate]⟩
  · obtain ⟨hname, himg⟩ := ofName?_headContent _ ht htemplate
    refine Or.inr ⟨hname, himg, ?_⟩
    split
    · next htitle => exact Or.inl ⟨by simp [htitle], .rcdata, fun _ => rfl⟩
    · next htitle =>
      split
      · next hraw =>
          exact Or.inl ⟨by rcases hraw with hraw | hraw <;> simp [hraw], .rawtext, fun _ => rfl⟩
      · next hraw =>
        split
        · next hscript => exact Or.inl ⟨by simp [hscript], .scriptData, fun _ => rfl⟩
        · next hscript =>
          refine Or.inr ⟨?_, fun _ => rfl⟩
          simp only [Category.headContent, List.mem_cons, List.not_mem_nil, or_false] at ht ⊢
          grind

/-- An element of the head is inserted. Only a template needs a mode that is read off the open
elements. -/
theorem lawful_startHeadContent (h : Spine b) (hb : Begun b)
    (hm : b.mode ≠ .text ∧ b.mode ≠ .inTableText)
    (hs : tag.name = "template" → b.mode ∈ steadyModes) (ht : tag.name ∈ Category.headContent) :
    Lawful b (.startTag tag) (b.startHeadContent tag).done := by
  obtain ⟨hname, heq⟩ | ⟨hname, himg, ⟨-, kind, heq⟩ | ⟨-, heq⟩⟩ := startHeadContent_cases ht
  · rw [heq]
    exact lawful_startTemplate h hb (hs hname) hname
  · rw [heq]
    exact lawful_insertRawText h hb hm hname himg kind
  · rw [heq]
    exact lawful_insertVoid h hb hname

/-! ## 2. Raw text -/

theorem endRank_le {mode : InsertionMode} (hm : mode ≠ .text) : endRank mode ≤ 5 := by
  revert hm
  cases mode <;> decide

theorem spine_resume (h : Spine b) (hm : b.mode = .text) :
    Spine b.pop.resume ∧ b.pop.resume.mode ≠ .text := by
  have hs := h.standing
  rw [hm] at hs
  obtain ⟨mode, x, outer, hresume, hopen, -, hf⟩ := hs
  have hmode : b.pop.resume.mode = mode := by simp [resume, pop, hresume]
  have hstack : b.pop.resume.openElements = outer := by simp [resume, pop, hopen]
  have hsound : Sound b.pop.resume :=
    ⟨h.planted.sublist (List.tail_sublist _), h.named, h.form, h.frameset, h.running, h.intact⟩
  refine ⟨⟨hsound, ?_⟩, ?_⟩
  · rw [hmode, hstack]
    exact Fits.standing hf
  · rw [hmode]
    rintro rfl
    exact hf

theorem lawful_rawText (h : Spine b) (hm : b.mode = .text) : Lawful b token (b.rawText token) := by
  cases token with
  | character c => exact lawful_insertChar h c
  | endOfFile =>
    have p := plain_report h.toSound .eofWithOpenElements
    obtain ⟨hspine, hmode⟩ := spine_resume (h.still p rfl) hm
    refine lawful_reprocess hspine ?_ (quiet_of_ne rfl hmode)
    have hrank := endRank_le hmode
    change 4 * b.templateModes.length +
      endRank (b.report .eofWithOpenElements).pop.resume.mode <
        4 * b.templateModes.length + endRank b.mode
    rw [hm]
    change _ < _ + 6
    omega
  | endTag tag =>
    obtain ⟨hspine, hmode⟩ := spine_resume h hm
    exact lawful_done hspine (by simp) (quiet_of_ne rfl hmode)
  | startTag tag => exact lawful_still h (.refl h.toSound) rfl (by simp)
  | comment data => exact lawful_still h (.refl h.toSound) rfl (by simp)
  | doctype d => exact lawful_still h (.refl h.toSound) rfl (by simp)

/-! ## 3. Before the document element -/

theorem plain_setMode (h : Sound b) (mode : DocumentMode) :
    Plain b { b with tree := b.tree.setMode mode } :=
  have s := sameShape_setMode h.planted.forest.linked mode
  plain_extend h (s.extends h.planted.forest) (s.skeleton h.planted.forest.linked)

/-- A document type is put at the end of the document. -/
theorem insertDoctype_eq_insertAt (h : Forest b.tree) (d : Doctype) :
    b.insertDoctype d =
      let b' := b.reportIf (!d.isConforming) .nonConformingDoctype
      let tree := (b.tree.alloc (.doctype (d.name.getD "") (d.publicId.getD "")
        (d.systemId.getD ""))).2.insertAt root none b.tree.size
      { b' with tree := if b.srcdoc then tree else tree.setMode d.documentMode } := by
  have hput := insertAt?_alloc h h.root_lt
    (.doctype (d.name.getD "") (d.publicId.getD "") (d.systemId.getD "")) none
  obtain ⟨errors, he, -⟩ := reportIf_eq (b := b) (!d.isConforming) .nonConformingDoctype rfl
  simp only [insertDoctype, he, fst_alloc]
  change (b.tree.alloc _).2.appendChild? root b.tree.size = _ at hput
  rw [hput]
  rfl

/-- A document type declaration only extends the tree, at the end of the document. -/
theorem insertDoctype_eq (h : Sound b) (d : Doctype) :
    ∃ errors tree id, b.insertDoctype d = { b with errors, tree } ∧ Extends b.tree tree ∧
      tree.skeleton = { b.tree.skeleton with
        content := b.tree.skeleton.content ++ [id]
        doctypes := b.tree.skeleton.doctypes ++ [id] } := by
  let data : NodeData := .doctype (d.name.getD "") (d.publicId.getD "") (d.systemId.getD "")
  have hf := h.planted.forest
  obtain ⟨errors, he, -⟩ := reportIf_eq (b := b) (!d.isConforming) .nonConformingDoctype rfl
  obtain ⟨w, hdata⟩ := put_alloc hf hf.root_lt data (by simp [data]) none
  have s := w.sprout hf hf.root_lt
  have hs := w.skeleton_doctype hf hdata
  have hmode := sameShape_setMode s.forest.linked d.documentMode
  rw [insertDoctype_eq_insertAt hf]
  simp only [he]
  cases b.srcdoc
  · exact ⟨errors, _, _, rfl, s.toExtends.trans (hmode.extends s.forest),
      (hmode.skeleton s.forest.linked).trans hs⟩
  · exact ⟨errors, _, _, rfl, s.toExtends, hs⟩

/-- Before the document element nothing is open. -/
theorem spine_beforeHtml (h : Spine b) (hm : b.mode = .initial) (p : Plain b b')
    (hopen : b'.openElements = b.openElements) : Spine (b'.switchTo .beforeHtml) := by
  have hs := h.standing
  rw [hm] at hs
  obtain ⟨hstack, hmodes, hhead, hcontent⟩ := hs
  refine ⟨p.sound.switchTo _, ?_⟩
  change b'.openElements = [] ∧ b'.templateModes = [] ∧ b'.headElement.isSome = false ∧
    b'.tree.skeleton.html = none
  rw [hopen, p.same.modes, p.same.head, p.same.skeleton]
  exact ⟨hstack, hmodes, hhead, (h.planted.upright.singleParts.doctype hcontent 0).1⟩

/-- The first document type declaration is put before the document element. -/
theorem spine_insertDoctype (h : Spine b) (hm : b.mode = .initial) (d : Doctype) :
    Spine ((b.insertDoctype d).switchTo .beforeHtml) ∧
      (b.insertDoctype d).stateRequest = b.stateRequest := by
  have hs := h.standing
  rw [hm] at hs
  obtain ⟨hstack, hmodes, hhead, hcontent⟩ := hs
  obtain ⟨errors, tree, id, hb, e, hskeleton⟩ := insertDoctype_eq h.toSound d
  obtain ⟨hhtml, hsingle⟩ := h.planted.upright.singleParts.doctype hcontent id
  rw [← hskeleton] at hsingle
  have hhtml' : tree.documentElement? = none := by
    change tree.skeleton.html = none
    rw [hskeleton]
    exact hhtml
  have hupright : Upright tree b.headElement :=
    ⟨hsingle, fun r hr => by rw [hhtml'] at hr; cases hr⟩
  have hplanted : Planted tree b.openElements b.headElement := by
    rw [hstack]
    exact ⟨e.forest, by simp, by simp, .nil, by simp, hupright, by simp,
      fun k hk => Planted.homed_of_extends e (h.planted.head k hk)⟩
  rw [hb]
  exact ⟨⟨⟨hplanted, h.named.keeps e.keeps, h.form_keeps e.keeps, h.frameset, h.running, h.intact⟩,
    hstack, hmodes, hhead, hhtml'⟩, rfl⟩

theorem lawful_initial (h : Spine b) (hm : b.mode = .initial) :
    Lawful b token (b.initial token) := by
  unfold initial
  extract_lets reported b₁ otherwise
  -- whatever comes first, the mode is left for the next one, where the token has a smaller rank
  have hother : Lawful b token otherwise := by
    have p : Plain b b₁ := by
      unfold b₁
      split
      · exact .refl h.toSound
      · exact (plain_report h.toSound _).next fun h => plain_setMode h _
    have hopen : b₁.openElements = b.openElements := by
      unfold b₁
      split <;> rfl
    refine lawful_reprocess (spine_beforeHtml h hm p hopen) (rank_lt p.same.modes ?_ ?_)
      (quiet_of_ne p.same.request (by simp [switchTo]))
    · simp [switchTo, hm, endRank]
    · simp [switchTo, hm, modeRank]
  cases token with
  | character c =>
    dsimp only
    split
    · exact lawful_still h (.refl h.toSound) rfl (by simp)
    · exact hother
  | comment data => exact lawful_insertCommentIn h h.planted.forest.root_lt data
  | doctype d =>
    obtain ⟨hspine, hrequest⟩ := spine_insertDoctype h hm d
    exact lawful_done hspine (by simp) (quiet_of_ne hrequest (by simp [switchTo]))
  | startTag tag => exact hother
  | endTag tag => exact hother
  | endOfFile => exact hother

/-- The document element is made. -/
theorem spine_insertRoot (h : Spine b) (hm : b.mode = .beforeHtml) (attributes : List Attribute) :
    Spine ((b.insertRoot attributes).switchTo .beforeHead) ∧
      (b.insertRoot attributes).templateModes = b.templateModes ∧
      (b.insertRoot attributes).stateRequest = b.stateRequest := by
  have hs := h.standing
  rw [hm] at hs
  obtain ⟨hopen, hmodes, hhead, hnone⟩ := hs
  obtain ⟨id, tree, hb, w, hl⟩ := insertRoot_eq h.planted.forest attributes
  have hf := h.planted.forest
  have s := w.sprout hf hf.root_lt
  -- it is the first part of the skeleton
  have hskeleton := w.skeleton_html hf hnone hl
  have hsingle := h.planted.upright.singleParts.html hnone id
  rw [← hskeleton] at hsingle
  have hhtml : tree.documentElement? = some id := congrArg Skeleton.html hskeleton
  have hbodies : tree.skeleton.bodies = b.tree.skeleton.bodies := by rw [hskeleton]
  have hupright : Upright tree b.headElement := by
    refine ⟨hsingle, fun r hr => ?_⟩
    rw [hhtml] at hr
    cases hr
    exact hl
  have hplanted : Planted tree (id :: b.openElements) b.headElement :=
    h.planted.sprout s .refl (by rw [hl]; rfl) (fun _ => rfl) hupright
      (fun k hk => Planted.homed_of_extends s.toExtends (h.planted.head k hk))
      (by rw [hbodies]; exact List.Subset.refl _) fun hbody => by rw [hl] at hbody; simp at hbody
  have hpart : tree.part? id = some .html := (part?_of_label hl).trans (by decide)
  have hbones : tree.bones (id :: b.openElements) = [.html] := by
    rw [bones_cons_some hpart, hopen]
    rfl
  have hempty : b.tree.skeleton.bodies = [] := inHtml_eq_nil hnone
  have hsound : Sound { b with tree, openElements := id :: b.openElements } :=
    ⟨hplanted, h.named.keeps s.keeps, h.form_keeps s.keeps, h.frameset, h.running, h.intact⟩
  rw [hb]
  refine ⟨spine_switchTo hsound ⟨⟨?_, ?_, ?_, ?_⟩, ?_⟩, rfl, rfl⟩
  · rw [hbones, hmodes]
    exact .html
  · rw [hopen]
    exact List.isChain_singleton _
  · rw [hbones]
    simp
  · rw [hbones, hbodies, hempty]
    simp
  · rw [hbones, hhead]
    rfl

theorem lawful_beforeHtml (h : Spine b) (hm : b.mode = .beforeHtml) :
    Lawful b token (b.beforeHtml token) := by
  unfold beforeHtml
  extract_lets otherwise
  -- the document element is made, and the token is left to the next mode
  have hother : Lawful b token otherwise := by
    obtain ⟨hspine, hmodes, hrequest⟩ := spine_insertRoot h hm []
    refine lawful_reprocess hspine (rank_lt hmodes ?_ ?_)
      (quiet_of_ne hrequest (by simp [switchTo]))
    · simp [switchTo, hm, endRank]
    · simp [switchTo, hm, modeRank]
  cases token with
  | character c =>
    dsimp only
    split
    · exact lawful_still h (.refl h.toSound) rfl (by simp)
    · exact hother
  | comment data => exact lawful_insertCommentIn h h.planted.forest.root_lt data
  | doctype d => exact lawful_refuse h _ (by simp)
  | startTag tag =>
    dsimp only
    split
    · obtain ⟨hspine, hmodes, hrequest⟩ := spine_insertRoot h hm tag.attributes
      exact lawful_done hspine (by simp) (quiet_of_ne hrequest (by simp [switchTo]))
    · exact hother
  | endTag tag =>
    dsimp only
    split
    · exact hother
    · exact lawful_refuse h _ (by simp)
  | endOfFile => exact hother

/-! ## 4. The head -/

/-- Before and after the head only the document element is open. -/
theorem Steady.alone {t : Tree} {stack : List NodeId} {modes : List InsertionMode} {headSeen : Bool}
    {mode : InsertionMode} (h : Steady t stack modes headSeen mode)
    (hm : mode = .beforeHead ∨ mode = .afterHead) :
    ∃ x, stack = [x] ∧ t.label? x = some (.html, "html") ∧ modes = [] ∧ t.bones stack = [.html] ∧
      mode = if headSeen then .afterHead else .beforeHead := by
  have hkind : mode.kind = mode := by rcases hm with rfl | rfl <;> rfl
  obtain ⟨rest, hb⟩ := h.bones_eq (p := .html) (by rcases hm with rfl | rfl <;> rfl)
  have hframe := h.1.frame
  rw [hb] at hframe
  obtain ⟨rfl, rfl⟩ := hframe.html_inv
  obtain ⟨x, outer, rfl, hx, -⟩ := h.1.seated.exists_top hb (by simp)
  obtain rfl : outer = [] := (show Seated t ([] ++ x :: outer) from h.1.seated).outer_of_html hx
  have hmode := h.2
  rw [hkind, hb] at hmode
  refine ⟨x, rfl, ?_, rfl, hb, hmode⟩
  simpa [Part.names] using part?_eq_some.1 hx

/-- A node goes into the current node, unless that is a template or a part of a table. -/
theorem place_current {x : NodeId} {outer : List NodeId} {name : String}
    (hopen : b.openElements = x :: outer) (hl : b.tree.label? x = some (.html, name))
    (hname : name ∉ "template" :: Category.fostering) : b.place = ⟨x, none⟩ := by
  simp only [List.mem_cons, not_or] at hname
  have hfoster : b.isHtmlOf Category.fostering x = false := by
    rw [Bool.eq_false_iff, Ne, isHtmlOf_iff, hl]
    rintro ⟨_, hmem, ⟨⟩⟩
    exact hname.2 hmem
  have htemplate : b.isHtml "template" x = false := by
    rw [Bool.eq_false_iff, Ne, isHtml_iff, hl]
    rintro ⟨⟩
    exact hname.1 rfl
  simp [place, placeIn, currentNode?, hopen, hfoster, htemplate]

/-- The head is opened. -/
theorem spine_startHead (h : Spine b) (hm : b.mode = .beforeHead) (attributes : List Attribute) :
    Spine (b.startHead attributes) ∧ (b.startHead attributes).templateModes = b.templateModes ∧
      (b.startHead attributes).stateRequest = b.stateRequest := by
  have hs := h.steady (by rw [hm]; decide)
  obtain ⟨x, hopen, hl, hmodes, hbones, hmode⟩ := hs.alone (Or.inl hm)
  obtain ⟨id, tree, hb, w, hid⟩ := insertElement_eq h.planted.anchored "head" attributes .html
  rw [place_current hopen hl (by decide)] at w
  have hf := h.planted.forest
  have hxlt := lt_size_of_label? hl
  have s := w.sprout hf hxlt
  have hkeeps := s.keeps
  have hxroot : b.tree.parent? x = some root := h.planted.html x (by simp [hopen]) hl
  have hhomed : tree.Homed id := by
    refine ⟨hid, x, ?_, s.parent_new, ?_⟩
    · rw [s.label x hxlt, hl]
    · rw [s.parent x hxlt, hxroot]
  -- the head is the first element in the document element
  have hhtml : b.tree.documentElement? = some x :=
    h.planted.upright.eq_html ((hf.linked.mem_children root x).2 hxroot) hl
  have hskeleton := w.skeleton_append hf hhtml (hf.ne_root_of_label hl) hid
  have hne : ¬ ("head" = "body" ∨ "head" = "frameset") := by decide
  rw [if_pos rfl, if_neg hne, List.append_nil] at hskeleton
  have hnone : b.headElement = none := by
    rw [hm] at hmode
    cases hhead : b.headElement with
    | none => rfl
    | some k => simp [hhead] at hmode
  have hsingle := h.planted.upright.singleParts
  rw [hnone] at hsingle
  have hsingle := hsingle.head id
  rw [← hskeleton] at hsingle
  have hbodies : tree.skeleton.bodies = b.tree.skeleton.bodies := by rw [hskeleton]
  have hupright : Upright tree (some id) := by
    refine ⟨hsingle, fun r hr => hkeeps r _ (h.planted.upright.html r ?_)⟩
    exact (congrArg Skeleton.html hskeleton).symm.trans hr
  have hplanted : Planted tree (id :: b.openElements) (some id) := by
    refine h.planted.sprout s (h.planted.reach x (by simp [hopen])) (by rw [hid]; rfl)
      (fun hh => ?_) hupright (by rintro k ⟨⟩; exact hhomed)
      (by rw [hbodies]; exact List.Subset.refl _) fun hh => ?_
    all_goals
      rw [hid] at hh
      simp at hh
  have hpart : tree.part? id = some .head := (part?_of_label hid).trans (by decide)
  have hbones' : tree.bones (id :: b.openElements) = [.head, .html] := by
    rw [bones_cons_some hpart, h.bones_keeps hkeeps, bones, hbones]
  unfold startHead
  rw [hb]
  refine ⟨spine_of_steady ⟨hplanted, h.named.keeps hkeeps, h.form_keeps hkeeps,
    h.frameset, h.running, h.intact⟩ ⟨⟨?_, ?_, ?_⟩, ?_⟩, rfl, rfl⟩
  · change Frame (tree.bones (id :: b.openElements)) b.templateModes
    rw [hbones', hmodes]
    exact .outer (by simp)
  · refine seated_cons.2 ⟨fun y hy => ?_, hkeeps.seated h.planted.element hs.1.seated⟩
    rw [hopen] at hy
    cases hy
    rw [hpart, hkeeps.part hl, part?_of_label hl]
    exact (by decide : partOf (.html, "html") = some .html)
  · have hfurnished := hs.1.furnished
    change Furnished (tree.bones (id :: b.openElements)) true tree.skeleton.bodies
    rw [hbones', hbodies]
    rw [hbones] at hfurnished
    exact ⟨fun _ => rfl, hfurnished.body.trans (by simp)⟩
  · change InsertionMode.inHead.kind = modeOf b.templateModes true
      (tree.bones (id :: b.openElements))
    rw [hbones']
    rfl

theorem lawful_beforeHead (h : Spine b) (hm : b.mode = .beforeHead) :
    Lawful b token (b.beforeHead token) := by
  unfold beforeHead
  extract_lets otherwise
  -- the head is opened, and the token is left to the next mode
  have hother : Lawful b token otherwise := by
    obtain ⟨hspine, hmodes, hrequest⟩ := spine_startHead h hm []
    refine lawful_reprocess hspine (rank_lt hmodes ?_ ?_)
      (quiet_of_ne hrequest (by simp [startHead]))
    · simp [startHead, hm, endRank]
    · simp [startHead, hm, modeRank]
  cases token with
  | character c =>
    dsimp only
    split
    · exact lawful_still h (.refl h.toSound) rfl (by simp)
    · exact hother
  | comment data => exact lawful_insertComment h data
  | doctype d => exact lawful_refuse h _ (by simp)
  | startTag tag =>
    dsimp only
    refine .ite (fun _ => ?_) fun _ => ?_
    · exact lawful_repeatedHtml h tag
    refine .ite (fun _ => ?_) fun _ => ?_
    · obtain ⟨hspine, -, hrequest⟩ := spine_startHead h hm tag.attributes
      exact lawful_done hspine (by simp) (quiet_of_ne hrequest (by simp [startHead]))
    · exact hother
  | endTag tag =>
    dsimp only
    split
    · exact hother
    · exact lawful_refuse h _ (by simp)
  | endOfFile => exact hother

/-- The head is closed. -/
theorem spine_afterHead (h : Spine b) (hm : b.mode = .inHead) :
    Spine (b.pop.switchTo .afterHead) := by
  have hs := h.steady (by rw [hm]; decide)
  obtain ⟨rest, hb⟩ := hs.bones_eq (p := .head) (by rw [hm]; rfl)
  -- only the document element is open outside the head
  have hframe := hs.1.frame
  rw [hb] at hframe
  obtain ⟨rfl, hmodes⟩ := hframe.outer_inv (Or.inl rfl)
  obtain ⟨x, outer, hopen, hx, hbones⟩ := hs.1.seated.exists_top hb (by simp)
  have hfurnished := hs.1.furnished
  rw [hb] at hfurnished
  have hseen : b.headElement.isSome = true := hfurnished.head (by simp)
  have hstack : b.pop.openElements = outer := by rw [pop, hopen]; rfl
  refine spine_switchTo h.toSound.pop ⟨⟨?_, ?_, ?_⟩, ?_⟩
  · rw [hstack]
    change Frame (b.tree.bones outer) b.templateModes
    rw [hbones, hmodes]
    exact .html
  · have hseat := hs.1.seated
    rw [hopen] at hseat
    rw [hstack]
    exact (seated_cons.1 hseat).2
  · rw [hstack]
    change Furnished (b.tree.bones outer) b.headElement.isSome b.tree.skeleton.bodies
    rw [hbones]
    exact Furnished.of_append (show Furnished ([.head] ++ [.html]) _ _ from hfurnished) (by simp)
      (by simp)
  · rw [hstack]
    change InsertionMode.afterHead.kind =
      modeOf b.templateModes b.headElement.isSome (b.tree.bones outer)
    rw [hbones, hseen]
    rfl

/-- An element in the head is opened whose content is read as that of the head. -/
theorem spine_noscript (h : Spine b) (hm : b.mode = .inHead) (hname : tag.name = "noscript") :
    Spine ((b.insertHtml tag).switchTo .inHeadNoscript) ∧
      (b.insertHtml tag).stateRequest = b.stateRequest := by
  have hs := h.steady (by rw [hm]; decide)
  have hb : Begun b := h.begun (by rw [hm]; decide)
  have p := pushed_insertElement h.toSound hb tag.name .html (by rw [hname]; decide) tag.attributes
  obtain ⟨id, hopen, hl⟩ := p.stack
  have hmodes : (b.insertHtml tag).templateModes = b.templateModes := by rw [insertHtml, p.same]
  have hhead : (b.insertHtml tag).headElement = b.headElement := by rw [insertHtml, p.same]
  have hkeep := hs.keeps p.keeps p.skeleton h.planted.element
  rw [hm, ← hmodes, ← hhead] at hkeep
  refine ⟨⟨p.sound.switchTo _, id, b.openElements, hopen, ⟨tag.name, hl, ?_⟩, hkeep⟩, ?_⟩
  · rw [hname]
    decide
  · rw [insertHtml, p.same]

theorem lawful_inHead (h : Spine b) (hm : b.mode = .inHead) : Lawful b token (b.inHead token) := by
  have hmode : b.mode ≠ .text ∧ b.mode ≠ .inTableText := by simp [hm]
  have hsteady : b.mode ∈ steadyModes := by rw [hm]; decide
  have hbegun : Begun b := h.begun (by rw [hm]; decide)
  have hleave := spine_afterHead h hm
  unfold inHead
  extract_lets otherwise
  -- the head ends, and the token is left to the next mode, where it has a smaller rank
  have hother : Lawful b token otherwise := by
    refine lawful_reprocess hleave (rank_lt rfl ?_ ?_) (quiet_of_ne rfl (by simp [switchTo]))
    · simp [switchTo, hm, endRank]
    · simp [switchTo, hm, modeRank]
  cases token with
  | character c =>
    dsimp only
    split
    · exact lawful_insertChar h c
    · exact hother
  | comment data => exact lawful_insertComment h data
  | doctype d => exact lawful_refuse h _ (by simp)
  | startTag tag =>
    dsimp only
    refine .ite (fun _ => ?_) fun _ => ?_
    · exact lawful_repeatedHtml h tag
    refine .ite (fun hhead => ?_) fun _ => ?_
    · exact lawful_startHeadContent h hbegun hmode
        (fun _ => hsteady) (List.contains_iff_mem.1 hhead)
    refine .ite (fun hname => ?_) fun _ => ?_
    · have hpart : Part.ofName? tag.name = none := by rw [hname]; decide
      split
      · exact lawful_insertRawText h hbegun hmode hpart (by simp [hname]) _
      · obtain ⟨hspine, hrequest⟩ := spine_noscript h hm hname
        exact lawful_done hspine (by simp) (quiet_of_ne hrequest (by simp [switchTo]))
    refine .ite (fun _ => ?_) fun _ => ?_
    · exact lawful_refuse h _ (by simp)
    · exact hother
  | endTag tag =>
    dsimp only
    refine .ite (fun _ => ?_) fun _ => ?_
    · exact lawful_done hleave (by simp) (quiet_of_ne rfl (by simp [switchTo]))
    refine .ite (fun _ => ?_) fun _ => ?_
    · exact hother
    refine .ite (fun _ => ?_) fun _ => ?_
    · exact lawful_endTemplate h hsteady (by simp)
    · exact lawful_refuse h _ (by simp)
  | endOfFile => exact hother

theorem isNoscriptContent_mem {name : String} (h : isNoscriptContent name = true) :
    name ∈ Category.headContent ∧ name ≠ "template" := by
  have hall : ∀ name ∈ ["basefont", "bgsound", "link", "meta", "noframes", "style"],
      name ∈ Category.headContent ∧ name ≠ "template" := by decide
  exact hall name (List.contains_iff_mem.1 h)

theorem lawful_inHeadNoscript (h : Spine b) (hm : b.mode = .inHeadNoscript) :
    Lawful b token (b.inHeadNoscript token) := by
  have hmode : b.mode ≠ .text ∧ b.mode ≠ .inTableText := by simp [hm]
  have hs := h.standing
  rw [hm] at hs
  obtain ⟨x, outer, hopen, -, hsteady⟩ := hs
  have hleave : Spine (b.pop.switchTo .inHead) := by
    refine spine_switchTo h.toSound.pop ?_
    have hstack : b.pop.openElements = outer := by rw [pop, hopen]; rfl
    rw [hstack]
    exact hsteady
  unfold inHeadNoscript
  extract_lets otherwise
  -- the element ends, and the token is left to the head, where it has a smaller rank
  have hother : ∀ kind, Lawful b token (otherwise kind) := by
    intro kind
    have p := plain_report hleave.toSound kind
    have hs : Spine ((b.report kind).pop.switchTo .inHead) := hleave.still p rfl
    refine lawful_reprocess hs (rank_lt rfl ?_ ?_) (quiet_of_ne rfl (by simp [switchTo]))
    · simp [switchTo, hm, endRank]
    · simp [switchTo, hm, modeRank]
  cases token with
  | character c =>
    dsimp only
    split
    · exact lawful_insertChar h c
    · exact hother _
  | comment data => exact lawful_insertComment h data
  | doctype d => exact lawful_refuse h _ (by simp)
  | startTag tag =>
    dsimp only
    refine .ite (fun _ => ?_) fun _ => ?_
    · exact lawful_repeatedHtml h tag
    refine .ite (fun hcontent => ?_) fun _ => ?_
    · obtain ⟨hhead, htemplate⟩ := isNoscriptContent_mem hcontent
      have hbegun : Begun b := h.begun (by rw [hm]; decide)
      exact lawful_startHeadContent h hbegun hmode (fun he => absurd he htemplate) hhead
    refine .ite (fun _ => ?_) fun _ => ?_
    · exact lawful_refuse h _ (by simp)
    · exact hother _
  | endTag tag =>
    dsimp only
    refine .ite (fun _ => ?_) fun _ => ?_
    · exact lawful_done hleave (by simp) (quiet_of_ne rfl (by simp [switchTo]))
    refine .ite (fun _ => ?_) fun _ => ?_
    · exact hother _
    · exact lawful_refuse h _ (by simp)
  | endOfFile => exact hother _

/-! ## 5. After the head -/

/-- The head is closed and may be opened again over the document element. -/
theorem sound_push_head (h : Sound b) {x head : NodeId} (hopen : b.openElements = [x])
    (hl : b.tree.label? x = some (.html, "html")) (hhead : b.headElement = some head) :
    Sound (b.push head) := by
  obtain ⟨hlabel, r, hr, hparent, hroot⟩ := h.planted.head head hhead
  have habove : b.tree.Reach root r := Relation.ReflTransGen.single (Or.inl hroot)
  have hreach : b.tree.Reach root head := habove.tail (Or.inl hparent)
  have hne : ∀ y, b.tree.label? y = some (.html, "html") → head ≠ y := by
    rintro y hy rfl
    rw [hlabel] at hy
    simp at hy
  have hx : b.tree.parent? x = some root := h.planted.html x (by simp [hopen]) hl
  refine ⟨?_, h.named, h.form, h.frameset, h.running, h.intact⟩
  change Planted b.tree (head :: b.openElements) b.headElement
  refine ⟨h.planted.forest, ?_, ?_, ?_, ?_, h.planted.upright, ?_, h.planted.head⟩
  · exact List.forall_mem_cons.2 ⟨by rw [hlabel]; rfl, h.planted.element⟩
  · exact List.forall_mem_cons.2 ⟨hreach, h.planted.reach⟩
  · refine List.pairwise_cons.2 ⟨fun y hy hyx => ?_, h.planted.order⟩
    -- the head would be above the document, the parent of the document element
    rw [hopen, List.mem_singleton] at hy
    subst hy
    have hup := h.planted.forest.reach_of_above (Or.inl hx) hyx (hne y hl)
    exact h.planted.forest.ne_root_of_label hlabel (h.planted.forest.reach_root hup)
  · exact List.forall_mem_cons.2 ⟨fun hh => absurd rfl (hne head hh), h.planted.html⟩
  · refine List.forall_mem_cons.2 ⟨fun hh => ?_, h.planted.body⟩
    rw [hlabel] at hh
    simp at hh

/-- What is inserted while the head is open again stands on the document element afterwards. -/
theorem pushed_late (h : Sound b) {x head : NodeId} (hopen : b.openElements = [x])
    (hl : b.tree.label? x = some (.html, "html")) (hhead : b.headElement = some head)
    (hname : (Namespace.html, tag.name) ∉ outerLabels) :
    Pushed b (((b.push head).insertHtml tag).removeOpen head) (.html, tag.name) ∧
      ((b.push head).insertHtml tag).pop.removeOpen head =
        (((b.push head).insertHtml tag).removeOpen head).pop := by
  have hpush := sound_push_head h hopen hl hhead
  have hb : Begun (b.push head) := ⟨by rw [push, hhead]; rfl, List.cons_ne_nil _ _⟩
  have p := pushed_insertElement hpush hb tag.name .html hname tag.attributes
  obtain ⟨id, hstack, hid⟩ := p.stack
  -- the new element, the head and the document element are three nodes, so only the head
  -- is taken out
  have hnodup := p.sound.planted.nodup
  have hstack' : ((b.push head).insertHtml tag).openElements = [id, head, x] := by
    rw [insertHtml, hstack, push, hopen]
  rw [show (b.push head).insertElement tag.name tag.attributes .html =
    (b.push head).insertHtml tag from rfl, hstack'] at hnodup
  simp only [List.nodup_cons, List.mem_cons, List.not_mem_nil, or_false, not_or] at hnodup
  have hfilter : [id, head, x].filter (· != head) = [id, x] := by
    have h₁ : (id != head) = true := by simpa using hnodup.1.1
    have h₂ : (x != head) = true := by simpa using Ne.symm hnodup.2.1
    simp [h₁, h₂]
  have hlate : (((b.push head).insertHtml tag).removeOpen head).openElements = [id, x] := by
    rw [removeOpen, hstack', hfilter]
  refine ⟨⟨⟨p.sound.sublist List.filter_sublist, p.keeps, ?_, id, ?_, hid⟩, p.skeleton⟩, ?_⟩
  · have hsame := p.same
    rw [removeOpen, insertHtml, hsame]
    rfl
  · rw [hlate, hopen]
  · -- it makes no difference whether the element is closed before the head is taken out or after it
    have htail : ([id, head, x].tail).filter (· != head) = [id, x].tail := by
      have h₂ : (x != head) = true := by simpa using Ne.symm hnodup.2.1
      simp [h₂]
    rw [removeOpen, pop, pop, hlate, hstack', htail]
    rfl

theorem lawful_lateHeadContent (h : Spine b) (hm : b.mode = .afterHead)
    (ht : tag.name ∈ Category.headContent) :
    Lawful b (.startTag tag) (b.lateHeadContent tag).done := by
  unfold lateHeadContent
  extract_lets b₁
  have p : Plain b b₁ := plain_report h.toSound _
  have h₁ : Spine b₁ := h.still p rfl
  have hmode₁ : b₁.mode = .afterHead := hm
  have hs := h₁.steady (by rw [hmode₁]; decide)
  have hbegun : Begun b₁ := h₁.begun (by rw [hmode₁]; decide)
  refine Lawful.of_plain ?_ p (by simp [hm])
  split
  · exact lawful_startHeadContent h₁ hbegun (by simp [hmode₁]) (fun _ => by rw [hmode₁]; decide) ht
  · next head hhead =>
    obtain ⟨x, hopen, hl, -⟩ := hs.alone (Or.inr hmode₁)
    have hne : (Namespace.html, tag.name) ∉ outerLabels := by
      have hall : ∀ name ∈ Category.headContent, (Namespace.html, name) ∉ outerLabels := by decide
      exact hall _ ht
    -- the head is open again while its content is inserted
    obtain ⟨p', hpop⟩ := pushed_late h₁.toSound hopen hl hhead hne
    have hrequest : (((b₁.push head).insertHtml tag).removeOpen head).stateRequest =
        b₁.stateRequest := by rw [p'.same]
    obtain ⟨hname, heq⟩ | ⟨hname, himg, ⟨-, kind, heq⟩ | ⟨-, heq⟩⟩ := startHeadContent_cases ht
    · have hpart : partOf (.html, tag.name) = some .template := by rw [hname]; decide
      rw [heq]
      exact lawful_done (p'.spine_template h₁.toSound hbegun hpart hs.1) (by simp)
        (quiet_of_ne hrequest (by simp [startTemplate, removeOpen]))
    · obtain ⟨hspine, hasks⟩ := p'.spine_text h₁.toSound hname himg kind
        ((fits_iff (by rw [hmode₁]; decide)).2 hs)
      rw [heq]
      exact lawful_request hspine hasks
    · have hvoid : ((b₁.push head).insertVoid tag).removeOpen head =
          (((b₁.push head).insertHtml tag).removeOpen head).pop.acknowledge := by
        rw [← hpop]
        rfl
      rw [heq, hvoid]
      exact lawful_plain h₁ ((p'.popped h₁.toSound).next plain_acknowledge)
        (by simp [hmode₁]) (by simp)

/-- A body, or a frameset in its place, is put behind the head. -/
theorem opened_outer (h : Sound b) {x : NodeId} (hopen : b.openElements = [x])
    (hx : b.tree.label? x = some (.html, "html")) (hseen : b.headElement.isSome = true)
    (hnone : b.tree.skeleton.bodies = []) (name : String) (hname : name ∈ ["body", "frameset"])
    (attributes : List Attribute) : Opened b (b.insertElement name attributes .html) (.html, name) ∧
      (b.insertElement name attributes .html).tree.skeleton.bodies ≠ [] := by
  obtain ⟨id, tree, heq, w, hl⟩ := insertElement_eq h.planted.anchored name attributes .html
  rw [place_current hopen hx (by decide)] at w
  have hf := h.planted.forest
  have hxroot : b.tree.parent? x = some root := h.planted.html x (by simp [hopen]) hx
  have s := w.sprout hf (lt_size_of_label? hx)
  have hhtml : b.tree.documentElement? = some x :=
    h.planted.upright.eq_html ((hf.linked.mem_children root x).2 hxroot) hx
  -- in the document element it comes last, behind the head
  have hskeleton := w.skeleton_append hf hhtml (hf.ne_root_of_label hx) hl
  have hother : name ≠ "head" ∧ name ≠ "html" ∧ (name = "body" ∨ name = "frameset") := by
    simp only [List.mem_cons, List.not_mem_nil, or_false] at hname
    rcases hname with rfl | rfl <;> simp
  simp only [if_neg hother.1, if_pos hother.2.2, List.append_nil] at hskeleton
  have hbodies : tree.skeleton.bodies = [id] := by rw [hskeleton, hnone]; rfl
  obtain ⟨k, hk⟩ := Option.isSome_iff_exists.1 hseen
  have hsingle := h.planted.upright.singleParts
  rw [hk] at hsingle
  have hsingle := hsingle.body hnone id
  rw [← hskeleton, ← hk] at hsingle
  have hupright : Upright tree b.headElement := by
    refine ⟨hsingle, fun r hr => s.keeps r _ (h.planted.upright.html r ?_)⟩
    exact (congrArg Skeleton.html hskeleton).symm.trans hr
  have hplanted : Planted tree (id :: b.openElements) b.headElement := by
    refine h.planted.sprout s (h.planted.reach x (by simp [hopen])) (by rw [hl]; rfl) (fun hh => ?_)
      hupright (fun k hk => Planted.homed_of_extends s.toExtends (h.planted.head k hk))
      (by rw [hnone]; exact List.nil_subset _) fun _ => by rw [hbodies]; simp
    rw [hl] at hh
    exact absurd (Prod.ext_iff.1 (Option.some.inj hh)).2 hother.2.1
  rw [heq]
  refine ⟨⟨⟨hplanted, h.named.keeps s.keeps, h.form_keeps s.keeps, h.frameset, h.running, h.intact⟩,
    s.keeps, rfl, id, rfl, hl⟩, ?_⟩
  rw [hbodies]
  simp

/-- The body, or a frameset in its place, is opened. -/
theorem spine_outer (h : Sound b) {x : NodeId} (hopen : b.openElements = [x])
    (hx : b.tree.label? x = some (.html, "html")) (hmodes : b.templateModes = [])
    (hseen : b.headElement.isSome = true) {name : String} {q : Part} (p : Opened b b' (.html, name))
    (hbodies : b'.tree.skeleton.bodies ≠ []) (mode : InsertionMode)
    (hl : Part.ofName? name = some q) (hq : q = .body ∨ q = .frameset)
    (hmode : ∀ modes headSeen rest, mode.kind = modeOf modes headSeen (q :: rest)) :
    Spine (b'.switchTo mode) := by
  have hpart : b.tree.part? x = some .html := (part?_of_label hx).trans (by decide)
  -- only the document element is open, so the new element is the only part in it
  have hb : b.bones = [.html] := by
    rw [bones, hopen, bones_cons_some hpart]
    rfl
  have hseat : Seated b.tree b.openElements := by
    rw [hopen]
    exact List.isChain_singleton _
  have hbones : b'.bones = [q, .html] := by
    have := p.bones h
    rwa [partOf_html, hl, hb] at this
  have hmodes' : b'.templateModes = [] := by rw [p.same]; exact hmodes
  have hseen' : b'.headElement.isSome = true := by rw [p.same]; exact hseen
  refine spine_switchTo p.sound ⟨⟨?_, ?_, ?_⟩, ?_⟩
  · change Frame b'.bones b'.templateModes
    rw [hbones, hmodes']
    exact .outer (by rcases hq with rfl | rfl <;> simp)
  · refine p.seated h hseat fun y hy => ?_
    rw [hopen] at hy
    cases hy
    rw [partOf_html, hl, hpart]
    rcases hq with rfl | rfl <;> simp [Sits]
  · change Furnished b'.bones b'.headElement.isSome b'.tree.skeleton.bodies
    rw [hbones]
    refine ⟨fun _ => hseen', iff_of_false hbodies ?_⟩
    rcases hq with rfl | rfl <;> simp
  · change mode.kind = modeOf b'.templateModes b'.headElement.isSome b'.bones
    rw [hbones]
    exact hmode _ _ _

theorem lawful_afterHead (h : Spine b) (hm : b.mode = .afterHead) :
    Lawful b token (b.afterHead token) := by
  have hsteady : b.mode ∈ steadyModes := by rw [hm]; decide
  have hbegun : Begun b := h.begun (by rw [hm]; decide)
  have hs := h.steady hsteady
  obtain ⟨x, hopen, hx, hmodes, hbones, -⟩ := hs.alone (Or.inr hm)
  have hnone : b.tree.skeleton.bodies = [] := hs.1.furnished.body.2 (by rw [hbones]; simp)
  unfold afterHead
  extract_lets otherwise
  -- a body is opened as if its tag had been there
  have hother : Lawful b token otherwise := by
    obtain ⟨p, hbodies⟩ := opened_outer h.toSound hopen hx hbegun.head hnone "body" (by simp) []
    have hspine : Spine ((b.insertNamed "body").switchTo .inBody) :=
      spine_outer h.toSound hopen hx hmodes hbegun.head p hbodies .inBody (by decide) (Or.inl rfl)
        fun _ _ _ => rfl
    have hmodes : (b.insertNamed "body").templateModes = b.templateModes := by
      rw [insertNamed, p.same]
    have hrequest : (b.insertNamed "body").stateRequest = b.stateRequest := by
      rw [insertNamed, p.same]
    refine lawful_reprocess hspine (rank_lt hmodes ?_ ?_)
      (quiet_of_ne hrequest (by simp [switchTo]))
    · simp [switchTo, hm, endRank]
    · simp only [switchTo, hm, modeRank]
      split <;> omega
  cases token with
  | character c =>
    dsimp only
    split
    · exact lawful_insertChar h c
    · exact hother
  | comment data => exact lawful_insertComment h data
  | doctype d => exact lawful_refuse h _ (by simp)
  | startTag tag =>
    dsimp only
    have hopened : ∀ q mode, Part.ofName? tag.name = some q → q = .body ∨ q = .frameset →
        (∀ modes headSeen rest, mode.kind = modeOf modes headSeen (q :: rest)) →
        Spine ((b.insertHtml tag).switchTo mode) ∧
          (b.insertHtml tag).stateRequest = b.stateRequest := by
      intro q mode hname hq hmode
      have hmem : tag.name ∈ ["body", "frameset"] := by
        rw [Part.ofName?_eq_some] at hname
        rcases hq with rfl | rfl <;> simp [Part.names] at hname <;> simp [hname]
      obtain ⟨p, hbodies⟩ := opened_outer h.toSound hopen hx hbegun.head hnone tag.name hmem
        tag.attributes
      exact ⟨spine_outer h.toSound hopen hx hmodes hbegun.head p hbodies _ hname hq hmode,
        by rw [insertHtml, p.same]⟩
    refine .ite (fun _ => ?_) fun _ => ?_
    · exact lawful_repeatedHtml h tag
    refine .ite (fun hname => ?_) fun _ => ?_
    · obtain ⟨hspine, hrequest⟩ := hopened .body .inBody (by rw [hname]; decide) (Or.inl rfl)
        fun _ _ _ => rfl
      have hs : Spine ((b.insertHtml tag).framesetNotOk.switchTo .inBody) :=
        hspine.still (plain_framesetNotOk hspine.toSound) rfl
      exact lawful_done hs (by simp) (quiet_of_ne hrequest (by simp [switchTo]))
    refine .ite (fun hname => ?_) fun _ => ?_
    · obtain ⟨hspine, hrequest⟩ := hopened .frameset .inFrameset (by rw [hname]; decide)
        (Or.inr rfl) fun _ _ _ => rfl
      exact lawful_done hspine (by simp) (quiet_of_ne hrequest (by simp [switchTo]))
    refine .ite (fun hhead => ?_) fun _ => ?_
    · exact lawful_lateHeadContent h hm (List.contains_iff_mem.1 hhead)
    refine .ite (fun _ => ?_) fun _ => ?_
    · exact lawful_refuse h _ (by simp)
    · exact hother
  | endTag tag =>
    dsimp only
    refine .ite (fun _ => ?_) fun _ => ?_
    · exact lawful_endTemplate h hsteady (by simp)
    refine .ite (fun _ => ?_) fun _ => ?_
    · exact hother
    · exact lawful_refuse h _ (by simp)
  | endOfFile => exact hother

end Hypertext.TreeBuilder
