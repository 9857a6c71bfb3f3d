import Hypertext.Proofs.TreeBuilder.ContentOperations
import Hypertext.Proofs.TreeBuilder.Rules.Head

/-!
# The steps of the rules up to the body
-/

namespace Hypertext.TreeBuilder

open Hypertext.Tree

variable {token : Token} {mode : InsertionMode} {b a : TreeBuilder} {cs : List Char} {tag : Tag}

/-! ## 1. Rules that other modes share -/

/-- A template is opened with a mode of its own. -/
theorem Acts.startTemplate (h : Acts token mode b cs a) (ht : token = .startTag tag)
    (hname : tag.name = "template") (hb : Braced a a.openElements) :
    Acts token mode b cs (a.startTemplate tag) := by
  have hpart : Part.ofName? tag.name = some .template := by rw [hname]; decide
  refine (h.insertMarkedBarring (fun p hp => ?_) hb ht).note ⟨rfl, rfl, rfl, rfl, id, fun _ hc =>
    ⟨(by decide : InsertionMode.inTemplate ∉ pastFrameset), hc.resumeMode,
      List.forall_mem_cons.2 ⟨by decide, hc.templateModes⟩⟩, rfl, .refl⟩
  obtain rfl := Option.some.inj (hpart.symm.trans hp)
  exact ⟨tag, ht, hname⟩

/-- A part is opened, which holds other elements. -/
theorem hosts_of_part {name : String} {p : Part} (hname : Part.ofName? name = some p)
    (hne : b.mode ≠ .text) (ht : Takes b (.html, name)) (hs : Spares b (.html, name)) :
    Hosts b (.html, name) := by
  have hall : ∀ name ∈ Content.void ++ Content.raw true, Part.ofName? name = none := by decide
  refine ⟨hne, ht, fun _ => ⟨fun hvoid => ?_, fun hraw => ?_⟩, suits_of_part hname, hs⟩
  · rw [hall name (List.mem_append_left _ hvoid)] at hname
    cases hname
  · have hraw' : name ∈ Content.raw true := by
      rw [Content.raw] at hraw ⊢
      refine (List.mem_append.1 hraw).elim (List.mem_append_left _) fun hmem => ?_
      split at hmem
      · exact List.mem_append_right _ hmem
      · cases hmem
    rw [hall name (List.mem_append_right _ hraw')] at hname
    cases hname

namespace ContentChanges

variable (h : ContentChanges token mode b cs a)
include h

theorem repeatedHtml (ht : token = .startTag tag) (hs : Sound a)
    (hbottom : ∀ x, a.openAt? 0 = some x → a.tree.label? x = some (.html, "html")) :
    ContentChanges token mode b cs (a.repeatedHtml tag) := by
  have h' := h.report .unexpectedStartTag rfl
  unfold TreeBuilder.repeatedHtml
  dsimp only
  split
  · exact h'
  · split
    · next html hat =>
      have hl := hbottom html hat
      exact h'.mergeAttributes ⟨hs.rooted.anchored, hs.rooted.named⟩ ht
        (Or.inl ⟨hl, hs.planted.html html (openAt?_mem hat) hl⟩)
    · exact h'

theorem startTemplate (ht : token = .startTag tag) (hname : tag.name = "template")
    (hne : a.mode ≠ .text) (htakes : Takes a (.html, "template"))
    (hcount : Counted a.tree a.openElements a.templateModes) :
    ContentChanges token mode b cs (a.startTemplate tag) := by
  have s : Acts token mode a [] (a.startTemplate tag) :=
    Acts.refl.startTemplate ht hname htakes.braced
  have d : ContentChange a { a.insertElement "template" tag.attributes .html with
      formatting := a.formatting ++ [.marker], framesetOk := false, mode := .inTemplate
      templateModes := .inTemplate :: a.templateModes } :=
        .openTemplate hne htakes (Nat.le_of_eq hcount.symm)
  have heq : a.startTemplate tag = { a.insertElement "template" tag.attributes .html with
      formatting := a.formatting ++ [.marker], framesetOk := false, mode := .inTemplate
      templateModes := .inTemplate :: a.templateModes } := by
    unfold TreeBuilder.startTemplate TreeBuilder.insertHtml
    rw [hname]
    obtain ⟨tree, openElements, fault, heq⟩ := insertElement_same a "template" tag.attributes .html
    rw [heq]
    rfl
  rw [heq] at s ⊢
  exact h.step s d

theorem startHeadContent (ht : token = .startTag tag) (hname : tag.name ∈ Category.headContent)
    (hne : a.mode ≠ .text) (htakes : Takes a (.html, tag.name))
    (hcount : Counted a.tree a.openElements a.templateModes) :
    ContentChanges token mode b cs (a.startHeadContent tag) := by
  have hmarker : ∀ name ∈ Category.headContent, name ∉ Category.markerElements := by decide
  have hblock : ∀ name ∈ Category.headContent, name ∉ Content.block := by decide
  have hs : Spares a (.html, tag.name) := spares_of_not_mem (hblock _ hname)
  obtain ⟨htemplate, heq⟩ | ⟨hpart, -, ⟨hraw, kind, heq⟩ | ⟨hvoid, heq⟩⟩ :=
    startHeadContent_cases hname
  · rw [heq]
    exact h.startTemplate ht htemplate hne (htemplate ▸ htakes) hcount
  · rw [heq]
    have hall : ∀ name ∈ ["noframes", "script", "style", "title"],
        name ∈ Content.raw a.scripting := by
      cases a.scripting <;> decide
    exact h.insertRawText hpart (hmarker _ hname) kind (hall _ hraw) hne htakes hs ht
  · rw [heq]
    have hall : ∀ name ∈ ["base", "basefont", "bgsound", "link", "meta"], name ∈ Content.void := by
      decide
    exact h.insertVoid hpart (hmarker _ hname) (hall _ hvoid) hne htakes (Or.inr hs) ht

/-- What is closed with a template is a marked element. -/
theorem leaveTemplate (hopen : a.isOpen "template" = true) (hne : a.mode ≠ .text) :
    ContentChanges token mode b cs a.leaveTemplate := by
  obtain ⟨x, hx, hp⟩ := List.any_eq_true.1 hopen
  have h' := h.unmark (p := a.isHtml "template") hx hp fun y hy =>
    ⟨"template", by decide, isHtml_iff.1 hy⟩
  have hnote : Aside mode (a.popThroughName "template").clearToMarker
      { (a.popThroughName "template").clearToMarker with templateModes := a.templateModes.tail } :=
    ⟨rfl, rfl, rfl, rfl, id, fun _ hc =>
      ⟨hc.mode, hc.resumeMode, fun mode hm => hc.templateModes mode (List.mem_of_mem_tail hm)⟩, rfl,
        .refl⟩
  exact (h'.note hnote (List.tail_suffix _) rfl rfl hne).resetMode hne

theorem endTemplate (hne : a.mode ≠ .text) : ContentChanges token mode b cs a.endTemplate := by
  unfold TreeBuilder.endTemplate
  split
  · next hopen =>
    extract_lets a'
    have hopen' : a'.isOpen "template" = true := by
      obtain ⟨x, hx, hp⟩ := List.any_eq_true.1 hopen
      refine List.any_eq_true.2 ⟨x, Acts.mem_popWhile hx (Bool.eq_false_iff.2 fun himplied => ?_),
        hp⟩
      rw [ne_template_of_impliedEnd himplied] at hp
      cases hp
    obtain ⟨errors, he, -⟩ := reportIf_eq (b := a') (!a'.currentIs "template") .unclosedElements rfl
    have h' := h.closeImpliedThoroughly.reportIf (!a'.currentIs "template") .unclosedElements rfl
    change ContentChanges token mode b cs (a'.reportIf _ _) at h'
    rw [he] at h' ⊢
    exact h'.leaveTemplate hopen' hne
  · exact h.report _ rfl

end ContentChanges

/-- What the parts of the head and the document element take, and the body, caption and cell: all
but the pieces of tables. -/
theorem takes_in {p : Part} {rest : List Part} {name : String} (hb : b.bones = p :: rest)
    (hp : p.contents? = none) (hname : name ∉ Category.tableStructure) (hf : b.fostering = false) :
    Takes b (.html, name) :=
  takes_of_bones hb (fun _ => hname) (Or.inl fun names hsome => by rw [hp] at hsome; cases hsome)
    (braced_of_settled hf _)

/-- The outermost element is the document element, wherever the open elements are in order. -/
theorem Framed.label_bottom (h : Framed b.tree b.openElements b.templateModes b.headElement.isSome)
    {x : NodeId} (hx : b.openAt? 0 = some x) : b.tree.label? x = some (.html, "html") := by
  obtain ⟨inner, y, hopen, hl⟩ := h.exists_bottom
  rw [openAt?, hopen, List.reverse_append] at hx
  obtain rfl : y = x := by simpa using hx
  exact hl

/-! ## 2. Raw text -/

theorem takesChar_of_isSpace {c : Char} (hc : isSpace c = true) (hf : b.fostering = false) :
    TakesChar b c :=
  ⟨fun _ _ _ => Or.inr hc, braced_of_settled hf _⟩

theorem ne_null_of_isSpace {c : Char} (hc : isSpace c = true) : c ≠ '\x00' := by
  rintro rfl
  revert hc
  decide

/-- Any text may be put into an element that is no part of a table. -/
theorem takesChar_of_part (h : ∀ y ∈ b.openElements.head?,
    b.tree.part? y ∉ [some Part.table, some .rowGroup, some .row]) (c : Char) : TakesChar b c :=
  ⟨fun y hy hp => absurd hp (h y hy), braced_of_part h⟩

theorem performs_insertChar (h : Spine b) (hopen : b.openElements ≠ []) (hb : NoTextWaiting b)
    {c : Char} (hc : TakesChar b c) (hn : c = '\x00' → b.mode = .text) :
    Performs b (.character c) (b.insertChar c).done :=
  performs_of_contentChanges hb (ContentChanges.refl.char (place_ne_root h.planted hopen) hc)
    (Or.inr ⟨rfl, c, rfl, Or.inl rfl⟩) fun hmem => hn (List.mem_singleton.1 hmem).symm

/-- Blanks stay where they are met. -/
theorem performs_insertSpace (h : Spine b) (hopen : b.openElements ≠ []) (hb : NoTextWaiting b)
    {c : Char} (hc : isSpace c = true) : Performs b (.character c) (b.insertChar c).done :=
  performs_insertChar h hopen hb (takesChar_of_isSpace hc hb.settled) fun hn =>
    absurd hn (ne_null_of_isSpace hc)

theorem performs_refuse (hb : NoTextWaiting b) (kind : ErrorKind) (hk : kind.isOfInput = false) :
    Performs b token (b.refuse kind) :=
  performs_quiet hb (ContentChanges.refl.report kind hk)

theorem performs_insertComment (h : Spine b) (hne : b.mode ≠ .text) (hb : NoTextWaiting b)
    (data : String) : Performs b (.comment data) (b.insertComment data).done :=
  performs_quiet hb (ContentChanges.refl.insertComment h.toSound.rooted hne rfl)

theorem performs_rawText (h : Spine b) (hm : b.mode = .text) (hb : NoTextWaiting b) :
    Performs b token (b.rawText token) := by
  have hs := h.standing
  rw [hm] at hs
  obtain ⟨-, x, outer, -, hopen, hx, -⟩ := hs
  cases token with
  | character c =>
    refine performs_insertChar h (by simp [hopen]) hb (takesChar_of_part (fun y hy => ?_) c)
      fun _ => hm
    rw [hopen] at hy
    obtain rfl : x = y := Option.some.inj hy
    rw [hx.part]
    decide
  | endOfFile => exact performs_quiet hb (ContentChanges.refl.report _ rfl).resume
  | endTag tag => exact performs_quiet hb ContentChanges.refl.resume
  | startTag tag => exact performs_quiet hb .refl
  | comment data => exact performs_quiet hb .refl
  | doctype d => exact performs_quiet hb .refl

/-! ## 3. Before the document element -/

theorem ContentChanges.setMode (h : ContentChanges token mode b cs a)
    (hblank : ∀ x, a.tree.label? x = none) (documentMode : DocumentMode) :
    ContentChanges token mode b cs { a with tree := a.tree.setMode documentMode } :=
  h.step (Acts.refl.step (.setMode documentMode)) (.setMode documentMode hblank)

theorem ContentChanges.insertDoctype (h : ContentChanges token mode b cs a) (hr : Rooted a)
    (hblank : ∀ x, a.tree.label? x = none) {d : Doctype} (ht : token = .doctype d) :
    ContentChanges token mode b cs (a.insertDoctype d) := by
  obtain ⟨errors, he, hl⟩ := reportIf_eq (b := a) (!d.isConforming) .nonConformingDoctype rfl
  rw [insertDoctype_eq_insertAt hr.anchored.forest]
  simp only [he]
  have h' : ContentChanges token mode b cs { a with errors } := h.remark rfl id hl
  have hdata : NodeData.isDoctype (.doctype (d.name.getD "") (d.publicId.getD "")
      (d.systemId.getD "")) = true :=
    rfl
  have hplace : PlacesLeaf { a with errors } ⟨root, none⟩ := Or.inr ⟨rfl, Or.inl rfl⟩
  have hleaf := h'.step (Acts.refl.step (.leaf (by rw [ht]; rfl) hplace))
    (.leaf (Or.inr hdata) hplace (Or.inr (Or.inl rfl)))
  split
  · exact hleaf
  · refine hleaf.setMode (fun x => ?_) d.documentMode
    have adds := @adds_leaf a _ ⟨root, none⟩ (Or.inr hdata) hr.anchored.forest
      hr.anchored.forest.root_lt
    exact (adds.label x).trans (by rw [hblank]; exact ite_self _)

/-- Before the document element there is no element at all. -/
theorem Spine.blank (h : Spine b) (hm : b.mode = .initial) (ht : ParagraphsApart b) (x : NodeId) :
    b.tree.label? x = none := by
  by_contra hx
  obtain ⟨l, hx⟩ := Option.ne_none_iff_exists'.1 hx
  obtain ⟨html, hl, hroot⟩ := ht.based x l hx
  have hs := h.standing
  rw [hm] at hs
  obtain ⟨-, -, -, hcontent⟩ := hs
  obtain ⟨e, he, -⟩ := exists_element_of_label hl
  have hmem : html ∈ b.tree.skeleton.content := mem_select.2
    ⟨(h.planted.forest.linked.mem_children _ _).2 hroot, by rw [element?_eq_some.1 he]; rfl⟩
  rw [hcontent] at hmem
  cases hmem

theorem performs_initial (h : Spine b) (hm : b.mode = .initial) (ht : ParagraphsApart b)
    (hb : NoTextWaiting b) : Performs b token (b.initial token) := by
  have hr := h.toSound.rooted
  -- there is no element yet, so none depends on the mode that the document is put into
  have hblank := h.blank hm ht
  unfold initial
  extract_lets reported b₁ otherwise
  have hother : Performs b token otherwise := by
    have h₁ : ContentChanges token b.mode b [] b₁ ∧ b₁.mode = b.mode := by
      unfold b₁
      split
      · exact ⟨.refl, rfl⟩
      · exact ⟨ContentChanges.setMode (ContentChanges.refl.report .missingDoctype rfl) hblank
          .quirks, rfl⟩
    exact performs_quiet hb (h₁.1.switchTo _ (by rw [h₁.2, hm]; decide) (by decide))
  cases token with
  | character c =>
    dsimp only
    split
    · exact performs_quiet hb .refl
    · exact hother
  | comment data =>
    exact performs_quiet hb (ContentChanges.refl.insertCommentIn hr (Or.inl rfl) rfl)
  | doctype d =>
    obtain ⟨errors, tree, id, heq, -⟩ := insertDoctype_eq h.toSound d
    refine performs_quiet hb ((ContentChanges.refl.insertDoctype hr hblank rfl).switchTo _ ?_
      (by decide))
    rw [heq]
    exact hm ▸ by decide
  | startTag tag => exact hother
  | endTag tag => exact hother
  | endOfFile => exact hother

/-- With nothing open, the current place is the end of the document. -/
theorem insertRoot_eq_insertElement (h : Rooted b) (hopen : b.openElements = [])
    (attributes : List Attribute) :
    b.insertRoot attributes = b.insertElement "html" attributes .html := by
  rw [insertRoot_eq_insertAt h.anchored.forest, insertElement_eq_insertAt h.anchored,
    place_of_empty h.anchored.forest hopen]

theorem performs_beforeHtml (h : Spine b) (hm : b.mode = .beforeHtml) (hb : NoTextWaiting b) :
    Performs b token (b.beforeHtml token) := by
  have hstanding := h.standing
  rw [hm] at hstanding
  have hempty : b.openElements = [] := hstanding.1
  have hr := h.toSound.rooted
  have hroot {attributes : List Attribute} (hs : Supplied token b.formatting "html" attributes) :
      ContentChanges token b.mode b [] ((b.insertRoot attributes).switchTo .beforeHead) := by
    rw [insertRoot_eq_insertElement hr hempty]
    -- with nothing open, there is nothing that could shut the document element out
    have hnone : ∀ y, y ∉ b.openElements.head? := fun y hy => by
      rw [hempty] at hy
      cases hy
    have htakes : Takes b (.html, "html") :=
      ⟨fun _ => rfl, fun y hy => absurd hy (hnone y), fun y hy => absurd hy (hnone y),
        fun y hy => absurd hy (hnone y)⟩
    refine (ContentChanges.refl.insertElement attributes (fun _ => by decide) (fun p hp => ?_)
      (hosts_of_part (p := .html) (by decide) (by rw [hm]; decide) htakes
        (spares_of_not_mem (by decide))) hs).switchTo _ (by simp [hm]) (by decide)
    obtain rfl : .html = p := Option.some.inj hp
    exact ⟨True.intro, by decide⟩
  have hother : Performs b token (((b.insertRoot []).switchTo .beforeHead).reprocess token) :=
    performs_quiet hb (hroot (.implied (by decide)))
  unfold beforeHtml
  extract_lets otherwise
  cases token with
  | character c =>
    dsimp only
    split
    · exact performs_quiet hb .refl
    · exact hother
  | comment data =>
    exact performs_quiet hb (ContentChanges.refl.insertCommentIn hr (Or.inl rfl) rfl)
  | doctype d => exact performs_refuse hb _ rfl
  | startTag tag =>
    dsimp only
    split
    · next hname => exact performs_quiet hb (hroot (hname ▸ .tag rfl))
    · exact hother
  | endTag tag =>
    dsimp only
    split
    · exact hother
    · exact performs_refuse hb _ rfl
  | endOfFile => exact hother

/-! ## 4. The head -/

theorem ContentChanges.startHead (h : ContentChanges token mode b cs a) (hb : a.bones = [.html])
    (hne : a.mode ≠ .text) (hf : a.fostering = false) {attributes : List Attribute}
    (hs : Supplied token a.formatting "head" attributes) :
    ContentChanges token mode b cs (a.startHead attributes) := by
  have hopen : ContentChanges token mode b cs (a.insertElement "head" attributes .html) :=
    h.insertElement attributes (fun _ => by decide) (fun p hp => by
      obtain rfl : .head = p := Option.some.inj hp
      exact ⟨True.intro, by decide⟩) (hosts_of_part (p := .head) (by decide) hne
        (takes_in hb rfl (by decide) hf) (spares_of_not_mem (by decide))) hs
  exact hopen.note ⟨rfl, rfl, rfl, rfl, id, fun _ hc =>
    ⟨(by decide : InsertionMode.inHead ∉ pastFrameset), hc.resumeMode, hc.templateModes⟩, rfl,
      .refl⟩ (List.suffix_refl _) rfl rfl (by rw [mode_insertElement]; exact hne)

theorem performs_repeatedHtml (h : Spine b) (hm : b.mode ∈ steadyModes) (hb : NoTextWaiting b)
    (tag : Tag) : Performs b (.startTag tag) (b.repeatedHtml tag).done :=
  performs_quiet hb (ContentChanges.refl.repeatedHtml rfl h.toSound fun _ =>
    (h.steady hm).1.label_bottom)

theorem performs_beforeHead (h : Spine b) (hm : b.mode = .beforeHead) (hb : NoTextWaiting b) :
    Performs b token (b.beforeHead token) := by
  obtain ⟨html, -, -, -, hbones, -⟩ := (h.steady (by rw [hm]; decide)).alone (Or.inl hm)
  have hne : b.mode ≠ .text := by rw [hm]; decide
  have hother : Performs b token ((b.startHead []).reprocess token) :=
    performs_quiet hb (ContentChanges.refl.startHead hbones hne hb.settled (.implied (by decide)))
  unfold beforeHead
  extract_lets otherwise
  cases token with
  | character c =>
    dsimp only
    split
    · exact performs_quiet hb .refl
    · exact hother
  | comment data => exact performs_insertComment h hne hb data
  | doctype d => exact performs_refuse hb _ rfl
  | startTag tag =>
    dsimp only
    refine .ite (fun _ => ?_) fun _ => ?_
    · exact performs_repeatedHtml h (by rw [hm]; decide) hb tag
    refine .ite (fun hname => ?_) fun _ => ?_
    · exact performs_quiet hb (ContentChanges.refl.startHead hbones hne hb.settled
        (hname ▸ .tag rfl))
    · exact hother
  | endTag tag =>
    dsimp only
    split
    · exact hother
    · exact performs_refuse hb _ rfl
  | endOfFile => exact hother

theorem headContent_not_structure :
    ∀ name ∈ Category.headContent, name ∉ Category.tableStructure := by
  decide

theorem performs_headContent (h : Spine b) (hne : b.mode ≠ .text) (hb : NoTextWaiting b)
    (hname : tag.name ∈ Category.headContent) (htakes : Takes b (.html, tag.name)) :
    Performs b (.startTag tag) (b.startHeadContent tag).done :=
  performs_quiet hb (ContentChanges.refl.startHeadContent rfl hname hne htakes h.standing.counted)

theorem performs_inHead (h : Spine b) (hm : b.mode = .inHead) (hb : NoTextWaiting b) :
    Performs b token (b.inHead token) := by
  have hs := h.steady (by rw [hm]; decide)
  have hne : b.mode ≠ .text := by rw [hm]; decide
  obtain ⟨inner, x, hopen, -⟩ := hs.1.exists_bottom
  obtain ⟨rest, hbones⟩ := hs.bones_eq (p := .head) (by rw [hm]; rfl)
  have hleave : ContentChanges token b.mode b [] (b.pop.switchTo .afterHead) :=
    ContentChanges.refl.pop.switchTo _ hne (by decide)
  have hother : Performs b token ((b.pop.switchTo .afterHead).reprocess token) :=
    performs_quiet hb hleave
  unfold inHead
  extract_lets otherwise
  cases token with
  | character c =>
    dsimp only
    split
    · next hspace => exact performs_insertSpace h (by simp [hopen]) hb hspace
    · exact hother
  | comment data => exact performs_insertComment h hne hb data
  | doctype d => exact performs_refuse hb _ rfl
  | startTag tag =>
    dsimp only
    refine .ite (fun _ => ?_) fun _ => ?_
    · exact performs_repeatedHtml h (by rw [hm]; decide) hb tag
    refine .ite (fun hcontent => ?_) fun _ => ?_
    · have hmem := List.contains_iff_mem.1 hcontent
      exact performs_headContent h hne hb hmem
        (takes_in hbones rfl (headContent_not_structure _ hmem) hb.settled)
    refine .ite (fun hname => ?_) fun _ => ?_
    · -- with scripting the content is raw text, without it content of the head
      have hpart : Part.ofName? tag.name = none := by rw [hname]; decide
      have hmarker : tag.name ∉ Category.markerElements := by rw [hname]; decide
      have htakes : Takes b (.html, tag.name) :=
        takes_in hbones rfl (by rw [hname]; decide) hb.settled
      have hspares : Spares b (.html, tag.name) := spares_of_not_mem (by rw [hname]; decide)
      split
      · next hscripting =>
        refine performs_quiet hb (ContentChanges.refl.insertRawText hpart hmarker _ ?_ hne htakes
          hspares rfl)
        rw [hname, hscripting]
        decide
      · next hscripting =>
        have ho : Hosts b (.html, tag.name) := by
          refine ⟨hne, htakes, fun _ => ?_, suits_of_region (region_eq_none hbones (by decide)),
            hspares⟩
          rw [hname, Bool.not_eq_true _ |>.mp hscripting]
          decide
        exact performs_quiet hb
          ((ContentChanges.refl.insertHtml hpart hmarker ho rfl).switchTo _
            (by simpa using hne) (by decide))
    refine .ite (fun _ => ?_) fun _ => ?_
    · exact performs_refuse hb _ rfl
    · exact hother
  | endTag tag =>
    dsimp only
    refine .ite (fun _ => ?_) fun _ => ?_
    · exact performs_quiet hb hleave
    refine .ite (fun _ => ?_) fun _ => ?_
    · exact hother
    refine .ite (fun _ => ?_) fun _ => ?_
    · exact performs_quiet hb (ContentChanges.refl.endTemplate hne)
    · exact performs_refuse hb _ rfl
  | endOfFile => exact hother

theorem performs_inHeadNoscript (h : Spine b) (hm : b.mode = .inHeadNoscript)
    (hb : NoTextWaiting b) : Performs b token (b.inHeadNoscript token) := by
  have hs := h.standing
  rw [hm] at hs
  obtain ⟨x, outer, hopen, hx, hsteady⟩ := hs
  have hne : b.mode ≠ .text := by rw [hm]; decide
  have hbones : ∃ rest, b.bones = .head :: rest := by
    rw [bones, hopen, bones_cons_none hx.part]
    exact hsteady.bones_eq rfl
  obtain ⟨rest, hbones⟩ := hbones
  -- the open element is on top of those of the head, so the outermost one is the same
  have hbottom : ∀ y, b.openAt? 0 = some y → b.tree.label? y = some (.html, "html") := by
    intro y hy
    obtain ⟨inner, z, houter, hl⟩ := hsteady.1.exists_bottom
    rw [openAt?, hopen, houter] at hy
    obtain rfl : z = y := by simpa using hy
    exact hl
  have hother (kind : ErrorKind) (hk : kind.isOfInput = false) :
      Performs b token (((b.report kind).pop.switchTo .inHead).reprocess token) :=
    performs_quiet hb ((ContentChanges.refl.report kind hk).pop.switchTo _ hne (by decide))
  unfold inHeadNoscript
  extract_lets otherwise
  cases token with
  | character c =>
    dsimp only
    split
    · next hspace => exact performs_insertSpace h (by simp [hopen]) hb hspace
    · exact hother _ rfl
  | comment data => exact performs_insertComment h hne hb data
  | doctype d => exact performs_refuse hb _ rfl
  | startTag tag =>
    dsimp only
    refine .ite (fun _ => ?_) fun _ => ?_
    · exact performs_quiet hb (ContentChanges.refl.repeatedHtml rfl h.toSound hbottom)
    refine .ite (fun hcontent => ?_) fun _ => ?_
    · have hmem := (isNoscriptContent_mem hcontent).1
      exact performs_headContent h hne hb hmem
        (takes_in hbones rfl (headContent_not_structure _ hmem) hb.settled)
    refine .ite (fun _ => ?_) fun _ => ?_
    · exact performs_refuse hb _ rfl
    · exact hother _ rfl
  | endTag tag =>
    dsimp only
    refine .ite (fun _ => ?_) fun _ => ?_
    · exact performs_quiet hb (ContentChanges.refl.pop.switchTo _ hne (by decide))
    refine .ite (fun _ => ?_) fun _ => ?_
    · exact hother _ rfl
    · exact performs_refuse hb _ rfl
  | endOfFile => exact hother _ rfl

/-! ## 5. After the head -/

/-- What is inserted comes on top of the open elements, if it stays open at all. -/
theorem startHeadContent_stack (hr : Rooted b) (hname : tag.name ∈ Category.headContent) :
    ∃ inner, (b.startHeadContent tag).openElements = inner ++ b.openElements := by
  obtain ⟨id, tree, heq, -⟩ := insertElement_adds hr.anchored tag.name tag.attributes .html
  have heq' : b.insertHtml tag = { b with tree, openElements := id :: b.openElements } := heq
  obtain ⟨-, hb⟩ | ⟨-, -, ⟨-, kind, hb⟩ | ⟨-, hb⟩⟩ := startHeadContent_cases hname
  · exact ⟨[id], by rw [hb, startTemplate, heq']; rfl⟩
  · exact ⟨[id], by rw [hb, insertRawText, heq']; rfl⟩
  · exact ⟨[], by rw [hb, insertVoid, heq']; rfl⟩

theorem performs_lateHeadContent (h : Spine b) (hm : b.mode = .afterHead) (hb : NoTextWaiting b)
    (hname : tag.name ∈ Category.headContent) :
    Performs b (.startTag tag) (b.lateHeadContent tag).done := by
  obtain ⟨html, hopen, hl, -, hbones, -⟩ := (h.steady (by rw [hm]; decide)).alone (Or.inr hm)
  have hne : b.mode ≠ .text := by rw [hm]; decide
  have h' : ContentChanges (.startTag tag) b.mode b [] (b.report .unexpectedStartTag) :=
    ContentChanges.refl.report _ rfl
  have hstructure := headContent_not_structure _ hname
  unfold lateHeadContent
  dsimp only
  split
  · exact performs_quiet hb (h'.startHeadContent rfl hname hne
      (takes_in (b := b.report .unexpectedStartTag) hbones rfl hstructure hb.settled)
      h.standing.counted)
  · next head hhead =>
    have hhead' := (h.planted.head head hhead).1
    have hsound := sound_push_head h.toSound hopen hl hhead
    have horder := (List.pairwise_cons.1 hsound.planted.order).1 html (by simp [hopen])
    have hpush : ContentChanges (.startTag tag) b.mode b []
        ((b.report .unexpectedStartTag).push head) :=
      h'.step (Acts.refl.step (.pushHead hopen hl hhead'
        (hsound.planted.reach head (List.mem_cons_self ..)) horder)) (.pushHead hopen hhead' hne)
    have hpart : b.tree.part? head = some .head := by rw [part?_of_label hhead']; decide
    have hcons : b.tree.bones (head :: b.openElements) = .head :: b.tree.bones b.openElements :=
      bones_cons_some hpart
    have hbones' : b.tree.bones b.openElements = [.html] := hbones
    have hcounted : Counted b.tree (head :: b.openElements) b.templateModes := by
      rw [Counted, hcons, List.count_cons_of_ne (by decide)]
      exact h.standing.counted
    have hstart := hpush.startHeadContent rfl hname hne
      (takes_in (p := .head) hcons rfl hstructure hb.settled) hcounted
    obtain ⟨inner, hinner⟩ := startHeadContent_stack (hpush.rooted h.toSound.rooted) hname
    -- both elements are what they were
    have hkeeps := hstart.acts.keeps h.toSound.rooted
    have hdrop : ContentChange (((b.report .unexpectedStartTag).push head).startHeadContent tag)
        ((((b.report .unexpectedStartTag).push head).startHeadContent tag).removeOpen head) :=
      .dropHead (hinner.trans
        (by rw [push, show (b.report .unexpectedStartTag).openElements = _ from hopen]))
        (hkeeps _ _ hhead') (hkeeps _ _ hl)
    exact performs_quiet hb (hstart.step (Acts.refl.removeOpen
      ((hstart.rooted h.toSound.rooted).named.not_mem (hkeeps _ _ hhead') (by decide))) hdrop)

theorem performs_afterHead (h : Spine b) (hm : b.mode = .afterHead) (hb : NoTextWaiting b) :
    Performs b token (b.afterHead token) := by
  obtain ⟨html, hopen, -, -, hbones, -⟩ := (h.steady (by rw [hm]; decide)).alone (Or.inr hm)
  have hne : b.mode ≠ .text := by rw [hm]; decide
  -- both elements that may come after the head are parts that the document element holds
  have hosts {name : String} (hname : name = "body" ∨ name = "frameset") :
      Hosts b (.html, name) := by
    obtain rfl | rfl := hname
    · exact hosts_of_part (p := .body) (by decide) hne (takes_in hbones rfl (by decide) hb.settled)
        (spares_of_not_mem (by decide))
    · exact hosts_of_part (p := .frameset) (by decide) hne
        (takes_in hbones rfl (by decide) hb.settled) (spares_of_not_mem (by decide))
  have hbody {name : String} (hname : name = "body") {attributes : List Attribute}
      (hs : Supplied token b.formatting name attributes) :
      ContentChanges token b.mode b [] (b.insertElement name attributes .html) := by
    subst hname
    refine ContentChanges.refl.insertElement attributes (fun _ => by decide) (fun p hp => ?_)
      (hosts (Or.inl rfl)) hs
    obtain rfl : .body = p := Option.some.inj hp
    exact ⟨True.intro, by decide⟩
  have hother : Performs b token (((b.insertNamed "body").switchTo .inBody).reprocess token) :=
    performs_quiet hb ((hbody rfl (.implied (by decide))).switchTo _
      (by simpa using hne) (by decide))
  unfold afterHead
  extract_lets otherwise
  cases token with
  | character c =>
    dsimp only
    split
    · next hspace => exact performs_insertSpace h (by simp [hopen]) hb hspace
    · exact hother
  | comment data => exact performs_insertComment h hne hb data
  | doctype d => exact performs_refuse hb _ rfl
  | startTag tag =>
    dsimp only
    refine .ite (fun _ => ?_) fun _ => ?_
    · exact performs_repeatedHtml h (by rw [hm]; decide) hb tag
    refine .ite (fun hname => ?_) fun _ => ?_
    · exact performs_quiet hb ((hbody hname (.tag rfl)).framesetNotOk.switchTo _
        (by simpa using hne) (by decide))
    refine .ite (fun hname => ?_) fun _ => ?_
    · have hpart : Part.ofName? tag.name = some .frameset := by rw [hname]; decide
      have hopened : ContentChanges (.startTag tag) b.mode b [] (b.insertHtml tag) := by
        refine ContentChanges.refl.insertElement tag.attributes (fun _ => by rw [hname]; decide)
          (fun p hp => ?_) (hosts (Or.inr hname)) (.tag rfl)
        obtain rfl := Option.some.inj (hpart.symm.trans hp)
        exact ⟨⟨tag, rfl, hname⟩, by decide⟩
      exact performs_quiet hb (hopened.switchTo _ (by simpa using hne) (by decide))
    refine .ite (fun hcontent => ?_) fun _ => ?_
    · exact performs_lateHeadContent h hm hb (List.contains_iff_mem.1 hcontent)
    refine .ite (fun _ => ?_) fun _ => ?_
    · exact performs_refuse hb _ rfl
    · exact hother
  | endTag tag =>
    dsimp only
    refine .ite (fun _ => ?_) fun _ => ?_
    · exact performs_quiet hb (ContentChanges.refl.endTemplate hne)
    refine .ite (fun _ => ?_) fun _ => ?_
    · exact hother
    · exact performs_refuse hb _ rfl
  | endOfFile => exact hother

end Hypertext.TreeBuilder
