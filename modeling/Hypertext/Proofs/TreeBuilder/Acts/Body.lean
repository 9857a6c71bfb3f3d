import Hypertext.Proofs.TreeBuilder.Acts.Head
import Hypertext.Proofs.TreeBuilder.Rules.Body

/-!
# The steps of the rules in the body
-/

namespace Hypertext.TreeBuilder

open Hypertext.Tree

variable {token : Token} {mode : InsertionMode} {b a : TreeBuilder} {cs : List Char} {tag : Tag}

/-! ## 1. Text and the end of the input -/

/-- A character is inserted behind the formatting elements that are opened again. -/
theorem ContentChanges.bodyChar (h : ContentChanges token mode b cs a) (ha : Sound a) (hb : Begun a)
    (hroom : Roomy a) (c : Char) :
    ContentChanges token mode b (cs ++ if c = '\x00' then [] else [c]) (a.bodyChar c) := by
  obtain ⟨hsound, same⟩ := ha.reconstruct hb
  have hp : a.reconstruct.place.parent ≠ root :=
    place_ne_root hsound.planted ((opens_reconstruct ha.planted hb ha.named).begun hb).nonempty
  have hr := h.reconstruct ha.rooted hroom
  have hbraced : Braced a.reconstruct a.reconstruct.openElements :=
    hroom.braced.opens ha.planted.element (opens_reconstruct ha.planted hb ha.named)
  have hroom' : Roomy a.reconstruct := hroom.congr hbraced same.bones same.mode same.modes
    (hr.fostering.trans h.fostering.symm)
  have h' := hr.char hp (hroom'.broad.takesChar hbraced c)
  unfold TreeBuilder.bodyChar
  by_cases hc : c = '\x00'
  · rw [if_pos hc, if_pos hc, List.append_nil]
    exact h.report _ rfl
  · rw [if_neg hc, if_neg hc]
    split
    · exact h'
    · exact h'.framesetNotOk

theorem writes_bodyChar (c : Char) :
    Writes (.character c) .done (if c = '\x00' then [] else [c]) ∧
    '\x00' ∉ if c = '\x00' then [] else [c] := by
  by_cases hc : c = '\x00'
  · rw [if_pos hc]
    exact ⟨Or.inl rfl, List.not_mem_nil⟩
  · rw [if_neg hc]
    exact ⟨Or.inr ⟨rfl, c, rfl, Or.inl rfl⟩, fun hmem => hc (List.mem_singleton.1 hmem).symm⟩

theorem ContentChanges.endOfFileInTemplate (h : ContentChanges token mode b cs a)
    (hne : a.mode ≠ .text) : ContentChanges token mode b cs a.endOfFileInTemplate.builder := by
  unfold TreeBuilder.endOfFileInTemplate
  split
  · next hopen => exact (h.report _ rfl).leaveTemplate hopen hne
  · exact h.stopped

theorem ContentChanges.bodyEndOfFile (h : ContentChanges token mode b cs a) (hne : a.mode ≠ .text) :
    ContentChanges token mode b cs a.bodyEndOfFile.builder := by
  unfold TreeBuilder.bodyEndOfFile
  split
  · exact (h.reportIf _ _ rfl).stopped
  · exact h.endOfFileInTemplate hne

/-! ## 2. Start tags -/

theorem mem_of_searchScope {t : Tree} {scope : Scope} {target : NodeId → Element → Bool}
    {stack : List NodeId} (h : searchScope t scope target stack = true) :
    ∃ x ∈ stack, ∃ e, t.element? x = some e ∧ target x e = true := by
  induction stack with
  | nil => cases h
  | cons x outer ih =>
    have houter : searchScope t scope target outer = true →
        ∃ y ∈ x :: outer, ∃ e, t.element? y = some e ∧ target y e = true := fun h => by
      obtain ⟨y, hy, hfound⟩ := ih h
      exact ⟨y, List.mem_cons_of_mem _ hy, hfound⟩
    rw [searchScope] at h
    split at h
    · exact houter h
    · next e he =>
      split at h
      · next ht => exact ⟨x, List.mem_cons_self .., e, he, ht⟩
      · split at h
        · cases h
        · exact houter h

theorem not_markerElement_of_bodyStart {name : String} (h : BodyStart.ofName name ≠ .marked) :
    name ∉ Category.markerElements := by
  have hall : ∀ name ∈ Category.markerElements, BodyStart.ofName name = .marked := by decide
  exact fun hm => h (hall name hm)

theorem BodyStart.not_mem {names : List String} {kinds : List BodyStart} {name : String}
    (hall : ∀ name ∈ names, BodyStart.ofName name ∈ kinds) (h : BodyStart.ofName name ∉ kinds) :
    name ∉ names := fun hm => h (hall name hm)

/-- The kinds of start tags whose elements hold nothing, or a text at most, or come in tables. -/
def BodyStart.special : List BodyStart :=
  [.headContent, .void, .input, .bareVoid, .rule, .textarea, .xmp, .iframe, .noembed,
    .noscript, .misplaced]

theorem common_of_bodyStart {name : String} (h : BodyStart.ofName name ∉ BodyStart.special) :
    Common name where
  flow := BodyStart.not_mem (by decide) h
  void := BodyStart.not_mem (by decide) h
  raw scripting := BodyStart.not_mem (by cases scripting <;> decide) h

/-- The kinds of start tags whose elements end a paragraph. -/
def BodyStart.blocks : List BodyStart :=
  [.block, .heading, .preformatted, .form, .listItem, .plaintext, .rule, .xmp, .table]

theorem not_block_of_bodyStart {name : String} (h : BodyStart.ofName name ∉ BodyStart.blocks) :
    name ∉ Content.block := BodyStart.not_mem (by decide) h

theorem ContentChanges.repeatedBody (h : ContentChanges token mode b cs a)
    (ht : token = .startTag tag) (hs : Sound a) :
    ContentChanges token mode b cs (a.repeatedBody tag) := by
  have h' := h.report .unexpectedStartTag rfl
  unfold TreeBuilder.repeatedBody
  dsimp only
  split
  · exact h'
  · split
    · next body hat hbody =>
      rw [Bool.and_eq_true] at hbody
      have hl := isHtml_iff.1 hbody.1
      have hp := hs.planted
      exact h'.framesetNotOk.mergeAttributes ⟨hs.rooted.anchored, hs.rooted.named⟩ ht
        (Or.inr ((hp.upright.housed_iff hp.forest.linked).2
          ⟨hp.body body (openAt?_mem hat) hl, hl⟩))
    · exact h'

namespace Flows

variable (h : Flows token mode b cs a)
include h

section Insert

variable (ht : token = .startTag tag) (hname : Part.ofName? tag.name = none)
  (hm : tag.name ∉ Category.markerElements)
include ht hname hm

theorem startBlock (hc : Common tag.name) :
    Flows token mode b cs (a.closeOpenParagraph.insertHtml tag) :=
  h.closeOpenParagraph.insertHtml hname hm hc (h.spares _) ht

theorem startInline (hc : Common tag.name) (hb : tag.name ∉ Content.block) :
    Flows token mode b cs (a.reconstruct.insertHtml tag) :=
  h.reconstruct.insertHtml hname hm hc (spares_of_not_mem hb) ht

/-- A heading that is open directly is closed, which no paragraph comes into scope by. -/
theorem startHeading (hc : Common tag.name) :
    ContentChanges token mode b cs (a.startHeading tag) := by
  have h₁ := h.closeOpenParagraph
  have hs := h.spares (.html, tag.name)
  unfold TreeBuilder.startHeading
  extract_lets a₁ a₂
  suffices hflows : Flows token mode b cs a₂ ∧ Spares a₂ (.html, tag.name) from
    (hflows.1.insertHtml hname hm hc hflows.2 ht).contentChanges
  unfold a₂
  split
  · next hcurrent =>
    obtain ⟨x, outer, hopen, hhtml⟩ := currentIsOf_iff.1 hcurrent
    obtain ⟨name, hn, hl⟩ := isHtmlOf_iff.1 hhtml
    have hpart := (part?_of_label hl).trans (ofName?_headings name hn)
    have h₂ := h₁.report .unexpectedStartTag rfl
    refine ⟨h₂.next h₂.contentChanges.pop (plain_pop h₂.ready.toSound hopen hpart),
      fun hns hblock hmode => ?_⟩
    have hall : ∀ name ∈ Category.headings, name ∉ "button" :: Scope.generalHtml := by decide
    have hparted : a₁.tree.Parted a₁.openElements := hs hns hblock hmode
    rw [hopen] at hparted
    change a₁.tree.Parted a₁.openElements.tail
    rw [hopen]
    exact hparted.of_cons (passable_of_label hl (hall name hn))
  · exact ⟨h₁, hs⟩

theorem startForm (hc : Common tag.name) : ContentChanges token mode b cs (a.startForm tag) := by
  have h' := (h.startBlock ht hname hm hc).contentChanges
  unfold TreeBuilder.startForm
  extract_lets inTemplate a₁
  split
  · exact h.contentChanges.report _ rfl
  · split
    · exact h'
    · exact h'.remark rfl id .refl

theorem startListItem (hc : Common tag.name) :
    ContentChanges token mode b cs (a.startListItem tag) := by
  have h₁ := h.framesetNotOk
  unfold TreeBuilder.startListItem
  extract_lets names a₁ a₂
  suffices h₂ : Flows token mode b cs a₂ from (h₂.startBlock ht hname hm hc).contentChanges
  unfold a₂
  split
  · next name hclose =>
    refine h₁.next (h₁.contentChanges.closeNamed _ _) (plain_closeListItem h₁.ready ?_ hclose)
    unfold names
    split <;> decide
  · exact h₁

variable (hb : tag.name ∉ Content.block)
include hb

theorem startRuby (hc : Common tag.name) (except : Option String) (parents : List String) :
    ContentChanges token mode b cs (a.startRuby tag except parents) := by
  unfold TreeBuilder.startRuby
  extract_lets a₁ a₂
  suffices h₂ : Flows token mode b cs a₂ from
    (h₂.insertHtml hname hm hc (spares_of_not_mem hb) ht).contentChanges
  unfold a₂
  split
  · have p := plain_closeImplied h.ready.toSound except
    exact h.next ((h.contentChanges.closeImplied except).reportIf _ _ rfl)
      (p.next fun h => plain_reportIf h _ _)
  · exact h

theorem startButton (hc : Common tag.name) :
    ContentChanges token mode b cs (a.startButton tag) := by
  unfold TreeBuilder.startButton
  extract_lets a₁
  suffices h₁ : Flows token mode b cs a₁ from
    (h₁.startInline ht hname hm hc hb).framesetNotOk.contentChanges
  unfold a₁
  split
  · next hin =>
    exact h.next (((h.contentChanges.report _ rfl).closeImplied none).popThrough _)
      (plain_closeButton h.ready hin)
  · exact h

theorem startVoid (hvoid : tag.name ∈ Content.void) (hflow : tag.name ∉ Category.tableStructure) :
    ContentChanges token mode b cs (a.reconstruct.insertVoid tag) :=
  h.reconstruct.insertVoid hname hm hflow hvoid (spares_of_not_mem hb) ht

theorem startInput (hvoid : tag.name ∈ Content.void) (hflow : tag.name ∉ Category.tableStructure) :
    ContentChanges token mode b cs (a.startInput tag) := by
  have h' := h.startVoid ht hname hm hb hvoid hflow
  unfold TreeBuilder.startInput
  dsimp only
  split
  · exact h'
  · exact h'.framesetNotOk

end Insert

section Formatting

variable (ht : token = .startTag tag) (hf : tag.name ∈ Category.formatting)
include ht hf

theorem startAnchor : ContentChanges token mode b cs (a.startAnchor tag) := by
  unfold TreeBuilder.startAnchor
  extract_lets adopted a₁
  suffices h₁ : Flows token mode b cs a₁ from h₁.insertFormatting hf ht
  unfold a₁
  split
  · next existing hactive =>
    have h' : Flows token mode b cs ((a.report .misnestedFormattingElement).runAdoption "a").1 :=
      (h.report .misnestedFormattingElement rfl).runAdoption (by decide) (by rw [ht]; simp)
    obtain ⟨p, hl⟩ := plain_endAnchor h.ready hactive
    exact h.next (h'.contentChanges.dropFormatting ⟨"a", by decide, hl⟩) p
  · exact h

theorem startNobr : ContentChanges token mode b cs (a.startNobr tag) := by
  unfold TreeBuilder.startNobr
  extract_lets a₁ a₂
  have h₁ : Flows token mode b cs a₁ := h.reconstruct
  suffices h₂ : Flows token mode b cs a₂ from h₂.insertFormatting hf ht
  unfold a₂
  split
  · exact (h₁.report _ rfl).runAdoption (by decide) (by rw [ht]; simp)
  · exact h₁

end Formatting

theorem startForeignRoot (ht : token = .startTag tag) :
    ContentChanges token mode b cs (a.startForeignRoot tag) := by
  unfold TreeBuilder.startForeignRoot
  dsimp only
  have h' := h.reconstruct
  have hns : (if tag.name = "math" then Namespace.mathml else .svg) ≠ .html := by split <;> simp
  exact h'.contentChanges.insertForeign hns _ ⟨h'.mode, h'.broad.takes h'.braced fun hhtml =>
    absurd hhtml hns, fun hhtml => absurd hhtml hns, suits_of_region h'.region,
      fun hhtml => absurd hhtml hns⟩
    (.adjusted _ ht (Or.inl rfl))

theorem startTable (ht : token = .startTag tag) (hname : tag.name = "table") :
    ContentChanges token mode b cs (a.startTable tag) := by
  have hpart : Part.ofName? tag.name = some .table := by rw [hname]; decide
  unfold TreeBuilder.startTable
  extract_lets a₁
  have h₁ : Flows token mode b cs a₁ ∧ Spares a₁ (.html, tag.name) := by
    unfold a₁
    split
    · next hquirks => exact ⟨h, fun _ _ hmode => absurd hquirks hmode⟩
    · exact ⟨h.closeOpenParagraph, h.spares _⟩
  have ho : Hosts a₁ (.html, tag.name) :=
    hosts_of_part hpart h₁.1.mode (h₁.1.takes (by rw [hname]; decide)) h₁.2
  refine (h₁.1.contentChanges.insertBarring (by rw [hname]; decide) (fun p hp => ?_) ho ht).switchTo
    _ (by simpa using h₁.1.mode) (by decide)
  obtain rfl := Option.some.inj (hpart.symm.trans hp)
  exact ⟨tag, ht, hname⟩

theorem startSelect (ht : token = .startTag tag) (hname : tag.name = "select") :
    ContentChanges token mode b cs (a.startSelect tag) := by
  have hpart : Part.ofName? tag.name = some .select := by rw [hname]; decide
  have h₁ := h.reconstruct
  have ho : Hosts a.reconstruct (.html, tag.name) :=
    hosts_of_part hpart h₁.mode (h₁.takes (by rw [hname]; decide))
      (spares_of_not_mem (by rw [hname]; decide))
  have h' : ContentChanges token mode b cs (a.reconstruct.insertHtml tag).framesetNotOk := by
    refine h₁.contentChanges.insertBarring (by rw [hname]; decide) (fun p hp => ?_) ho ht
    obtain rfl := Option.some.inj (hpart.symm.trans hp)
    exact True.intro
  unfold TreeBuilder.startSelect
  dsimp only
  split
  all_goals exact h'.switchTo _ (by simpa using h₁.mode) (by decide)

/-- The body makes room for a frameset. -/
theorem lateFrameset (ht : token = .startTag tag) (hm : mode ∈ bodyModes)
    (hname : tag.name = "frameset") : ContentChanges token mode b cs (a.lateFrameset tag) := by
  have hpart : Part.ofName? tag.name = some .frameset := by rw [hname]; decide
  have h' := h.contentChanges.report .unexpectedStartTag rfl
  have hp := (h.report .unexpectedStartTag rfl).ready.planted
  have hlinked := hp.forest.linked
  unfold TreeBuilder.lateFrameset
  dsimp only
  split
  · exact h'
  · next body hat =>
    split
    · next hok =>
      obtain ⟨hbody, hok⟩ := Bool.and_eq_true_iff.1 hok
      have hbody := isHtml_iff.1 hbody
      obtain ⟨inner, html, hopen, hhtml⟩ := h.ready.framed.exists_bottom
      rw [detach?_eq hlinked]
      -- the body is not outermost in the document
      have hnot : a.tree.parent? body ≠ some root := fun hroot =>
        hp.upright.not_mem_root hbody (by decide) ((hlinked.mem_children _ _).2 hroot)
      have d : ContentChange (a.report .unexpectedStartTag)
          ({ a.report .unexpectedStartTag with tree := a.tree.detach body }.truncate 1) :=
        .ease (eases_detach (a := a.report .unexpectedStartTag) (h'.rooted h.rooted) hbody hnot
          (List.drop_suffix _ _))
      have hcut := h'.step (Acts.refl.step (.unbody ht hname hm hat hbody hok)) d
      have hbones : ({ a.report .unexpectedStartTag with tree := a.tree.detach body }.truncate
          1).bones = [.html] := by
        have hstack : { a.report .unexpectedStartTag with
            tree := a.tree.detach body }.openElements = inner ++ [html] := hopen
        rw [show 1 = [html].length from rfl, truncate_eq hstack]
        change (a.tree.detach body).bones [html] = _
        have hl : (a.tree.detach body).label? html = some (.html, "html") :=
          (label?_congr ((moved_detach hlinked body).data html)).trans hhtml
        have hpart : (a.tree.detach body).part? html = some .html := by
          rw [part?_of_label hl]; decide
        rw [bones_cons_some hpart]
        rfl
      have ho : Hosts ({ a.report .unexpectedStartTag with tree := a.tree.detach body }.truncate 1)
          (.html, tag.name) :=
        hosts_of_part hpart h.mode
          (takes_of_bones hbones (fun _ => by rw [hname]; decide) (Or.inl fun _ => nofun)
            (braced_of_bones hbones (by decide)))
          (spares_of_not_mem (by rw [hname]; decide))
      refine (hcut.insertElement tag.attributes (fun _ => by rw [hname]; decide) (fun p hp => ?_) ho
        (.tag ht)).switchTo _ (by rw [mode_insertElement]; exact h.mode) (by decide)
      obtain rfl := Option.some.inj (hpart.symm.trans hp)
      exact ⟨⟨tag, ht, hname⟩, by decide⟩
    · exact h'

theorem bodyStart (ht : token = .startTag tag) (hm : mode ∈ bodyModes) :
    ContentChanges token mode b cs (a.bodyStart tag).builder := by
  have hne : token ≠ .endOfFile := by rw [ht]; simp
  have hname := BodyStart.allows_ofName tag.name
  have hpart := ofName?_of_bodyStart tag.name
  have hmarker := @not_markerElement_of_bodyStart tag.name
  have hc := @common_of_bodyStart tag.name
  have hb := @not_block_of_bodyStart tag.name
  unfold TreeBuilder.bodyStart
  cases hkind : BodyStart.ofName tag.name <;>
    simp only [hkind, BodyStart.Allows, BodyStart.ofParts, BodyStart.special, BodyStart.blocks,
      List.mem_cons, reduceCtorEq, List.not_mem_nil, or_self, or_true, true_or, not_true_eq_false,
      not_false_eq_true, true_implies, false_implies, ne_eq] at hname hpart hmarker hc hb ⊢
  case html =>
    exact h.contentChanges.repeatedHtml ht h.ready.toSound fun _ => h.ready.framed.label_bottom
  case headContent =>
    exact h.contentChanges.startHeadContent ht hname h.mode
      (h.takes (headContent_not_structure _ hname)) h.ready.framed.frame.length_modes
  case body => exact h.contentChanges.repeatedBody ht h.ready.toSound
  case frameset => exact h.lateFrameset ht hm hname
  case block => exact (h.startBlock ht hpart hmarker hc).contentChanges
  case heading => exact h.startHeading ht hpart hmarker hc
  case preformatted =>
    exact (h.startBlock ht hpart hmarker hc).framesetNotOk.contentChanges.remark rfl id .refl
  case form => exact h.startForm ht hpart hmarker hc
  case listItem => exact h.startListItem ht hpart hmarker hc
  case plaintext => exact (h.startBlock ht hpart hmarker hc).contentChanges.requestState _
  case button => exact h.startButton ht hpart hmarker hb hc
  case anchor => exact h.startAnchor ht (by rw [hname]; decide)
  case nobr => exact h.startNobr ht (by rw [hname]; decide)
  case formatting => exact h.insertFormatting hname ht
  case marked =>
    have h' := h.reconstruct
    exact h'.contentChanges.insertMarkedBarring (fun p hp => by rw [hpart] at hp; cases hp)
      (h'.hosts hc (spares_of_not_mem hb)) ht
  case table => exact h.startTable ht hname
  case void =>
    have hall : ∀ name ∈ ["area", "br", "embed", "img", "keygen", "wbr"],
      name ∈ Content.void ∧ name ∉ Category.tableStructure := by decide
    have hmem : tag.name ∈ ["area", "br", "embed", "img", "keygen", "wbr"] := by simpa using hname
    exact (h.startVoid ht hpart hmarker hb (hall _ hmem).1 (hall _ hmem).2).framesetNotOk
  case input =>
    exact h.startInput ht hpart hmarker hb (by rw [hname]; decide) (by rw [hname]; decide)
  case bareVoid =>
    have hall : ∀ name ∈ ["param", "source", "track"],
      name ∈ Content.void ∧ name ∉ Category.tableStructure := by decide
    have hmem : tag.name ∈ ["param", "source", "track"] := by simpa using hname
    exact h.insertVoid hpart hmarker (hall _ hmem).2 (hall _ hmem).1 (spares_of_not_mem hb) ht
  case rule =>
    exact (h.closeOpenParagraph.insertVoid hpart hmarker (by rw [hname]; decide)
      (by rw [hname]; decide) (h.spares _) ht).framesetNotOk
  -- an image tag is read again under its other name, so nothing is done yet
  case image => exact h.contentChanges.report _ rfl
  case textarea =>
    exact (h.insertRawText hpart hmarker .rcdata (by rw [hname]; cases a.scripting <;> decide)
      (spares_of_not_mem hb) ht).framesetNotOk.remark rfl id .refl
  case xmp =>
    have h' := h.closeOpenParagraph
    refine h'.reconstruct.framesetNotOk.insertRawText hpart hmarker _ ?_
      (h'.spares_reconstruct (h.spares (.html, tag.name))) ht
    rw [hname]
    exact List.mem_append_left _ (by decide)
  case iframe =>
    exact h.framesetNotOk.insertRawText hpart hmarker _
      (by rw [hname]; exact List.mem_append_left _ (by decide)) (spares_of_not_mem hb) ht
  case noembed =>
    exact h.insertRawText hpart hmarker _ (by rw [hname]; exact List.mem_append_left _ (by decide))
      (spares_of_not_mem hb) ht
  case noscript =>
    split
    · next hscripting =>
      exact h.insertRawText hpart hmarker _ (by rw [hname, hscripting]; decide)
        (spares_of_not_mem hb) ht
    · next hscripting =>
      have h' := h.reconstruct
      -- without scripting its content is no raw text
      have hs : a.reconstruct.scripting = false :=
        (h'.contentChanges.scripting.trans h.contentChanges.scripting.symm).trans
          (Bool.eq_false_iff.2 hscripting)
      refine h'.contentChanges.insertHtml hpart hmarker ⟨h'.mode, h'.takes (by rw [hname]; decide),
        fun _ => ?_, suits_of_region h'.region, spares_of_not_mem hb⟩ ht
      rw [hname, hs]
      decide
  case select => exact h.startSelect ht hname
  case option =>
    have h' := h.next (h.contentChanges.popIf "option")
      (plain_popIf h.ready.toSound "option" (by decide))
    exact (h'.startInline ht hpart hmarker hc hb).contentChanges
  case rubyBase => exact h.startRuby ht hpart hmarker hb hc _ _
  case rubyText => exact h.startRuby ht hpart hmarker hb hc _ _
  case foreignRoot => exact h.startForeignRoot ht
  case misplaced => exact h.contentChanges.report _ rfl
  case ordinary => exact (h.startInline ht hpart hmarker hc hb).contentChanges

end Flows

/-! ## 3. End tags -/

namespace ContentChanges

variable (h : ContentChanges token mode b cs a)
include h

theorem closeInScope (scope : Scope) (name : String) (except : Option String) :
    ContentChanges token mode b cs (a.closeInScope scope name except) := by
  unfold TreeBuilder.closeInScope
  split
  · exact h.closeNamed name except
  · exact h.report _ rfl

theorem endForm (hn : Named a.tree a.formatting)
    (hform : ∀ f, a.formElement = some f → a.tree.label? f = some (.html, "form")) :
    ContentChanges token mode b cs a.endForm := by
  have h' : ContentChanges token mode b cs { a with formElement := none } := h.remark rfl id .refl
  unfold TreeBuilder.endForm
  split
  · exact h.closeInScope _ _ _
  · dsimp only
    split
    · exact h'.report _ rfl
    · next node hnode =>
      split
      · have h'' := (h'.closeImplied none).reportIf
          ((({ a with formElement := none }).closeImplied none).currentNode? != some node)
          .unclosedElements rfl
        obtain ⟨errors, he, -⟩ :=
          reportIf_eq (b := ({ a with formElement := none }).closeImplied none)
            ((({ a with formElement := none }).closeImplied none).currentNode? != some node)
            .unclosedElements rfl
        rw [he] at h'' ⊢
        exact h''.removeForm hn (hform node hnode)
      · exact h'.report _ rfl

theorem endHeading (name : String) : ContentChanges token mode b cs (a.endHeading name) := by
  unfold TreeBuilder.endHeading
  split
  · exact ((h.closeImplied none).reportIf _ _ rfl).popThrough _
  · exact h.report _ rfl

theorem endOther (name : String) : ContentChanges token mode b cs (a.endOther name) := by
  unfold TreeBuilder.endOther
  split
  · exact ((h.closeImplied _).reportIf _ _ rfl).popThrough _
  · exact h.report _ rfl
  · exact h

/-- Marked elements with one of these names are closed, after what may be closed by implication. -/
theorem unmarkClose {names : List String} (hopen : ∃ x ∈ a.openElements, a.isHtmlOf names x = true)
    (hn : ∀ name ∈ names, name ∈ markedNames ∧ name ∉ Category.impliedEnd) (except : Option String)
    (bad : TreeBuilder → Bool) :
    let a₁ := a.closeImplied except
    ContentChanges token mode b cs
      ((a₁.reportIf (bad a₁) .unclosedElements).popThrough (a.isHtmlOf names)).clearToMarker := by
  intro a₁
  obtain ⟨x, hx, hp⟩ := hopen
  obtain ⟨errors, he, -⟩ := reportIf_eq (b := a₁) (bad a₁) .unclosedElements rfl
  have h₁ : ContentChanges token mode b cs (a₁.reportIf (bad a₁) .unclosedElements) :=
    (h.closeImplied except).reportIf _ _ rfl
  rw [he] at h₁ ⊢
  have hx' : x ∈ a₁.openElements := by
    refine Acts.mem_popWhile hx ?_
    obtain ⟨name, hname, hl⟩ := isHtmlOf_iff.1 hp
    obtain ⟨e, he, -, htag⟩ := exists_element_of_label hl
    have hnot : Category.impliedEnd.contains e.tagName = false := by
      rw [htag, Bool.eq_false_iff, Ne, List.contains_iff_mem]
      exact (hn name hname).2
    rw [he, Option.any_some, Element.isHtmlOf, hnot, Bool.and_false, Bool.false_and]
  refine h₁.unmark (a := { a₁ with errors }) hx' hp fun y hy => ?_
  obtain ⟨name, hname, hl⟩ := isHtmlOf_iff.1 hy
  exact ⟨name, (hn name hname).1, hl⟩

theorem unmarkNamed {name : String} (hopen : ∃ x ∈ a.openElements, a.isHtml name x = true)
    (hn : name ∈ markedNames ∧ name ∉ Category.impliedEnd) :
    ContentChanges token mode b cs (a.closeNamed name none).clearToMarker := by
  have hsome : ∃ x ∈ a.openElements, a.isHtmlOf [name] x = true := by rwa [isHtmlOf_singleton]
  have h' := h.unmarkClose hsome (by simpa using hn) none fun a₁ => !a₁.currentIs name
  rw [isHtmlOf_singleton] at h'
  obtain ⟨errors, he, -⟩ := reportIf_eq (b := a.closeImplied none)
    (!(a.closeImplied none).currentIs name) .unclosedElements rfl
  unfold TreeBuilder.closeNamed
  dsimp only at h' ⊢
  rw [he] at h' ⊢
  exact h'

end ContentChanges

theorem exists_of_inScope {scope : Scope} {name : String} (h : a.inScope scope name = true) :
    ∃ x ∈ a.openElements, a.isHtml name x = true := by
  obtain ⟨x, hx, e, he, htarget⟩ := mem_of_searchScope h
  exact ⟨x, hx, (isHtml_of_element he name).trans htarget⟩

namespace Flows

variable (h : Flows token mode b cs a)
include h

theorem endParagraph : ContentChanges token mode b cs a.endParagraph := by
  unfold TreeBuilder.endParagraph
  split
  · exact h.contentChanges.closeNamed "p" (some "p")
  · next hin =>
    have h' := h.report .unexpectedEndTag rfl
    have hs : Spares (a.report .unexpectedEndTag) (.html, "p") := fun _ _ _ =>
      Bool.eq_false_iff.2 hin
    have hc : Common "p" := common_of_bodyStart (by decide)
    exact (h'.contentChanges.insertNamed (by decide) (by decide) [] (h'.hosts hc hs)
      (.implied (by decide))).closeNamed "p" (some "p")

theorem endFormatting (ht : token ≠ .endOfFile) {name : String} (hf : name ∈ Category.formatting) :
    ContentChanges token mode b cs (a.endFormatting name) := by
  have h' := (h.runAdoption hf ht).contentChanges
  unfold TreeBuilder.endFormatting
  split
  · next heq =>
    rw [heq] at h'
    exact h'
  · next heq =>
    rw [heq] at h'
    exact h'.endOther name

theorem bodyEnd (ht : token = .endTag tag) :
    ContentChanges token mode b cs (a.bodyEnd tag).builder := by
  have hname := BodyEnd.allows_ofName tag.name
  have hmarked : ∀ name ∈ Category.markerElements, name ∈ markedNames := by decide
  have hend : ContentChanges token mode b cs a.endBody :=
    (h.contentChanges.reportIf _ _ rfl).switchTo _ (by simpa using h.mode) (by decide)
  unfold TreeBuilder.bodyEnd
  cases hkind : BodyEnd.ofName tag.name <;> simp only [hkind, BodyEnd.Allows] at hname ⊢
  case template => exact h.contentChanges.endTemplate h.mode
  case body =>
    split
    · exact hend
    · exact h.contentChanges.report _ rfl
  case html =>
    split
    · exact hend
    · exact h.contentChanges.report _ rfl
  case block => exact h.contentChanges.closeInScope _ _ _
  case form => exact h.contentChanges.endForm h.ready.named h.ready.form
  case paragraph => exact h.endParagraph
  case listItem => exact h.contentChanges.closeInScope _ _ _
  case definition => exact h.contentChanges.closeInScope _ _ _
  case heading => exact h.contentChanges.endHeading _
  case formatting => exact h.endFormatting (by rw [ht]; simp) hname
  case marked =>
    split
    · next hin =>
      exact h.contentChanges.unmarkNamed (exists_of_inScope hin) ⟨hmarked _ hname,
        (ofName?_markerElements _ hname).2⟩
    · exact h.contentChanges.report _ rfl
  -- the end tag of a line break is taken for its start tag
  case lineBreak =>
    have h' := (h.report .unexpectedEndTag rfl).reconstruct
    exact (h'.contentChanges.insertClosed (by decide) (by decide) [] (Or.inl (by decide)) h'.mode
      (h'.takes (by decide)) (Or.inr (Or.inr (spares_of_not_mem (by decide))))
      (.implied (by decide))).framesetNotOk
  case other => exact h.contentChanges.endOther _

/-! ## 4. The mode -/

theorem inBody (hm : mode ∈ bodyModes) :
    ∃ new, ContentChanges token mode b (cs ++ new) (a.inBody token).builder ∧
    Writes token (a.inBody token).next new ∧ '\x00' ∉ new := by
  have hquiet : ContentChanges token mode b cs (a.inBody token).builder → ∃ new,
      ContentChanges token mode b (cs ++ new) (a.inBody token).builder ∧
        Writes token (a.inBody token).next new ∧ '\x00' ∉ new := fun h =>
    ⟨[], by rwa [List.append_nil], Or.inl rfl, List.not_mem_nil⟩
  cases token with
  | character c =>
    exact ⟨_, h.contentChanges.bodyChar h.ready.toSound h.ready.begun h.roomy c, writes_bodyChar c⟩
  | comment data => exact hquiet (h.contentChanges.insertComment h.rooted' h.mode rfl)
  | doctype d => exact hquiet (h.contentChanges.report _ rfl)
  | startTag tag => exact hquiet (h.bodyStart rfl hm)
  | endTag tag => exact hquiet (h.bodyEnd rfl)
  | endOfFile => exact hquiet (h.contentChanges.bodyEndOfFile h.mode)

end Flows

/-- Content of any kind may come in the modes that use the rules of the body, between the parts of a
table only if it is put before the table. -/
theorem Steady.broad {mode' : InsertionMode} {headSeen : Bool}
    (h : Steady b.tree b.openElements b.templateModes headSeen mode') (hm : mode' ∈ bodyModes)
    (hf : mode' ∈ tableModes → b.fostering = true) : Broad b ∧ b.region = none := by
  have hkind : mode'.kind = mode' ∧
      mode' ∉ [InsertionMode.inSelect, .inTemplate, .inColumnGroup] := by
    revert hm
    cases mode' <;> simp [bodyModes, InsertionMode.kind]
  have hall : ∀ mode ∈ bodyModes, ∀ p ∈ Frame.innermost mode.kind,
      p.contents? = none ∨ mode ∈ tableModes ∧ p ∈ [Part.table, .rowGroup, .row] := by decide
  obtain ⟨p, rest, hb, hp⟩ := h.innermost
  exact ⟨⟨p, rest, hb, (hall mode' hm p hp).imp_right (And.imp_left hf)⟩,
    h.1.frame.regionNames_eq h.2 (hkind.1.symm ▸ hkind.2)⟩

theorem Spine.flows (h : Spine b) (ht : ParagraphsApart b) (hm : b.mode ∈ bodyModes)
    (hf : b.mode ∈ tableModes → b.fostering = true) : Flows token b.mode b [] b := by
  have hs := mem_steadyModes_of_bodyModes _ hm
  obtain ⟨hbroad, hregion⟩ := (h.steady hs).broad hm hf
  exact ⟨h.toSound.rooted, ht, .refl, h.ready (List.mem_cons_of_mem _ hm), ne_text_of_steady _ hs,
    hbroad, hregion⟩

/-- Formatting elements may be opened in any content, and in a template that has none yet. -/
theorem Spine.roomy (h : Spine b)
    (hm : b.mode ∈ [InsertionMode.inBody, .inCaption, .inCell, .inTemplate]) : Roomy b := by
  have hmode : b.mode ∈ steadyModes ∧ b.mode.kind ≠ .inSelect := by
    revert hm
    cases b.mode <;> decide
  have hs := h.steady hmode.1
  obtain ⟨p, rest, hb, hp⟩ := hs.innermost
  refine ⟨ne_text_of_steady _ hmode.1, ⟨p, rest, hb, Or.inl ?_⟩, fun _ _ _ => hs.1.seated,
    fun names hn =>
    hs.1.frame.regionNames_template hs.2 hmode.2 hn⟩
  have hall : ∀ mode ∈ [InsertionMode.inBody, .inCaption, .inCell, .inTemplate],
      ∀ p ∈ Frame.innermost mode.kind, p.contents? = none := by decide
  exact hall _ hm p hp

/-- The rules of the body, in any mode that uses them. -/
theorem performs_inBody (h : Spine b) (ht : ParagraphsApart b)
    (hm : b.mode ∈ [InsertionMode.inBody, .inCaption, .inCell])
    (hb : NoTextWaiting b) : Performs b token (b.inBody token) := by
  have hmode : b.mode ∈ bodyModes ∧ b.mode ∉ tableModes := by
    revert hm
    cases b.mode <;> simp [bodyModes, tableModes]
  have hflows : Flows token b.mode b [] b := h.flows ht hmode.1 (absurd · hmode.2)
  obtain ⟨new, hchanges, hw, hn⟩ := hflows.inBody hmode.1
  exact performs_of_contentChanges hb hchanges hw fun h => absurd h hn

theorem performs_inTemplate (h : Spine b) (hm : b.mode = .inTemplate) (hb : NoTextWaiting b) :
    Performs b token (b.inTemplate token) := by
  have hready := h.ready (by rw [hm]; simp)
  have hs := h.steady (by rw [hm]; decide)
  have hne : b.mode ≠ .text := by rw [hm]; decide
  obtain ⟨rest, hbones⟩ := hs.bones_eq (p := .template) (by rw [hm]; rfl)
  have hroom : Roomy b := h.roomy (by rw [hm]; decide)
  unfold inTemplate
  cases token with
  | character c =>
    exact performs_of_contentChanges hb (ContentChanges.refl.bodyChar hready.toSound hready.begun
      hroom c) (writes_bodyChar c).1 fun h => absurd h (writes_bodyChar c).2
  | comment data => exact performs_insertComment h hne hb data
  | doctype d => exact performs_refuse hb _ rfl
  | startTag tag =>
    dsimp only
    split
    · next hcontent =>
      have hmem := List.contains_iff_mem.1 hcontent
      exact performs_headContent h hne hb hmem
        (takes_in hbones rfl (headContent_not_structure _ hmem) hb.settled)
    · have hmode : templateModeFor tag.name ∉ pastFrameset := by
        have hcontent : ∀ mode ∈ contentModes, mode ∉ pastFrameset := by decide
        exact hcontent _ (templateModeFor_mem tag.name)
      -- the mode that is noted down for the template is the one that is left
      obtain ⟨noted, modes, hmodes, -⟩ := (show Frame (.template :: rest) b.templateModes from
        hbones ▸ hs.1.frame).template_inv
      have hnoted : noted = .inTemplate := by
        have hkind := hs.2
        rw [show b.tree.bones b.openElements = _ from hbones, hm, hmodes] at hkind
        revert hkind
        cases noted <;> simp [modeOf, InsertionMode.kind]
      rw [hnoted] at hmodes
      have s : Acts (.startTag tag) b.mode b [] { b with
          mode := templateModeFor tag.name
          templateModes := templateModeFor tag.name :: modes } := by
        refine Acts.refl.note ⟨rfl, rfl, rfl, rfl, id, fun _ hc => ⟨hmode, hc.resumeMode,
          List.forall_mem_cons.2 ⟨hmode, fun mode hm => hc.templateModes mode ?_⟩⟩, rfl, .refl⟩
        rw [hmodes]
        exact List.mem_cons_of_mem _ hm
      rw [hmodes, List.tail_cons]
      exact performs_quiet hb (ContentChanges.refl.step s (.retarget _ hmodes hne))
  | endTag tag =>
    dsimp only
    split
    · exact performs_quiet hb (ContentChanges.refl.endTemplate hne)
    · exact performs_refuse hb _ rfl
  | endOfFile => exact performs_quiet hb (ContentChanges.refl.endOfFileInTemplate hne)

end Hypertext.TreeBuilder
