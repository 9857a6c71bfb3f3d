import Hypertext.Proofs.TreeBuilder.Rules.Head
import Hypertext.TreeBuilder.Rules.InTemplate

/-!
# The rules in the body are lawful

They are used in every mode that takes content of any kind, in tables too. Most of them only open
and close elements above the innermost part, which no search for an open element reaches beyond.
-/

namespace Hypertext.TreeBuilder

open Hypertext.Tree

variable {b b' : TreeBuilder} {token : Token} {tag : Tag}

/-! ## 1. Text and the end of the input -/

theorem plain_bodyChar (h : Ready b) (c : Char) : Plain b (b.bodyChar c) := by
  have p := (plain_reconstruct h).next fun h => plain_insertChar h c
  unfold bodyChar
  split
  · exact plain_report h.toSound _
  · split
    · exact p
    · exact p.next plain_framesetNotOk

theorem lawful_bodyEndOfFile (h : Spine b) (hm : b.mode ∈ innerModes) :
    Lawful b .endOfFile b.bodyEndOfFile := by
  have hsteady := mem_steadyModes_of_innerModes _ hm
  have hmode := ne_text_of_steady _ hsteady
  have hs := h.steady hsteady
  unfold bodyEndOfFile
  split
  · next hmodes =>
    have p := plain_reportIf h.toSound (b.hasOpenBesides ["body", "html"]) .eofWithOpenElements
    have hbodies := hs.bodies_ne_nil hm fun ht =>
      hs.1.frame.modes_ne_nil ht (List.isEmpty_iff.1 hmodes)
    rw [← p.same.skeleton] at hbodies
    exact lawful_stop p.sound (h.begun_of_plain p hm).head hbodies (p.quiet hmode)
      (p.same.mode ▸ hmode)
  · exact lawful_endOfFileInTemplate h hm

/-! ## 2. Searches end at the innermost part -/

theorem isSpecial_of_part {t : Tree} {x : NodeId} {p : Part} {e : Element} (hx : t.part? x = some p)
    (he : t.element? x = some e) : Category.isSpecial e = true := by
  have hall : ∀ q ∈ Part.all, ∀ name ∈ q.names, Category.specialHtml.contains name = true := by
    decide
  have hp : p ∈ Part.all := by cases p <;> decide
  obtain ⟨name, hname, hl⟩ := part?_eq_some.1 hx
  rw [label?, he] at hl
  obtain ⟨hns, htag⟩ := Prod.ext_iff.1 (Option.some.inj hl)
  simp only at hns htag
  simp only [Category.isSpecial, hns, htag]
  exact hall p hp name hname

/-- An end tag closes no part, unless it names the innermost one. -/
theorem endTarget_cut {name : String} {id : NodeId} {stack : List NodeId} {p : Part}
    {rest : List Part} (hb : b.tree.bones stack = p :: rest) (hp : name ∉ p.names)
    (ht : b.endTarget name stack = .found id) :
    ∃ inner outer, stack = inner ++ id :: outer ∧ Clear b.tree (inner ++ [id]) ∧
      b.isHtml name id = true := by
  induction stack with
  | nil => cases ht
  | cons x outer ih =>
    rw [endTarget] at ht
    cases hx : b.tree.part? x with
    | none =>
      rw [bones_cons_none hx] at hb
      split at ht
      · next hname =>
        cases ht
        exact ⟨[], outer, rfl, by simpa using hx, hname⟩
      · split at ht
        · cases ht
        · obtain ⟨inner, outer', rfl, hc, hid⟩ := ih hb ht
          exact ⟨x :: inner, outer', rfl, clear_cons.2 ⟨hx, hc⟩, hid⟩
    | some q =>
      -- the first part that is met is the innermost one; it is special, so the search ends there
      obtain rfl : q = p := by
        rw [bones_cons_some hx] at hb
        exact (List.cons.inj hb).1
      obtain ⟨e, he⟩ : ∃ e, b.tree.element? x = some e := by
        obtain ⟨name, -, hl⟩ := part?_eq_some.1 hx
        obtain ⟨e, he, -⟩ := exists_element_of_label hl
        exact ⟨e, he⟩
      have hspecial := isSpecial_of_part hx he
      split at ht
      · next hname =>
        rw [part?_of_label (isHtml_iff.1 hname), partOf_html, Part.ofName?_eq_some] at hx
        exact absurd hx hp
      · rw [he, Option.any_some, hspecial] at ht
        cases ht

theorem listItemToClose_cut {names : List String} {name : String} {stack : List NodeId} {p : Part}
    {rest : List Part} (hb : b.tree.bones stack = p :: rest)
    (hnames : ∀ name ∈ names, Part.ofName? name = none)
    (ht : listItemToClose b.tree names stack = some name) :
    name ∈ names ∧ ∃ inner x outer, stack = inner ++ x :: outer ∧ Clear b.tree (inner ++ [x]) ∧
      b.isHtml name x = true := by
  induction stack with
  | nil => cases ht
  | cons x outer ih =>
    rw [listItemToClose] at ht
    have hskip : b.tree.part? x = none → listItemToClose b.tree names outer = some name →
        name ∈ names ∧ ∃ inner y rest, x :: outer = inner ++ y :: rest ∧
          Clear b.tree (inner ++ [y]) ∧ b.isHtml name y = true := by
      intro hx ht
      rw [bones_cons_none hx] at hb
      obtain ⟨hname, inner, y, rest, rfl, hc, hy⟩ := ih hb ht
      exact ⟨hname, x :: inner, y, rest, rfl, clear_cons.2 ⟨hx, hc⟩, hy⟩
    cases he : b.tree.element? x with
    | none =>
      rw [he] at ht
      refine hskip ?_ ht
      rw [part?, label?, he]
      rfl
    | some e =>
      simp only [he] at ht
      split at ht
      · next hof =>
        cases ht
        simp only [Element.isHtmlOf, Bool.and_eq_true, decide_eq_true_eq, List.contains_iff_mem]
          at hof
        have hx : b.isHtml e.tagName x = true := by
          rw [isHtml_of_element he]
          simp [Element.isHtml, hof.1]
        exact ⟨hof.2, [], x, outer, rfl, by simpa using part?_of_isHtml (hnames _ hof.2) hx, hx⟩
      · split at ht
        · cases ht
        · next hspecial =>
          cases hx : b.tree.part? x with
          | none => exact hskip hx ht
          | some q =>
            -- a part is special, and none of the three names that the search goes beyond
            have hthree : e.isHtmlOf ["address", "div", "p"] = false := by
              obtain ⟨name, hname, hl⟩ := part?_eq_some.1 hx
              rw [label?, he] at hl
              obtain ⟨hns, htag⟩ := Prod.ext_iff.1 (Option.some.inj hl)
              simp only at hns htag
              have hall : ∀ q ∈ Part.all, ∀ name ∈ q.names, name ∉ ["address", "div", "p"] := by
                decide
              have hq : q ∈ Part.all := by cases q <;> decide
              simpa [Element.isHtmlOf, htag] using fun _ => hall q hq name hname
            rw [isSpecial_of_part hx he, hthree] at hspecial
            exact absurd rfl hspecial

/-! ## 3. Start tags -/

/-- What the kind of a start tag says about its name. -/
def BodyStart.Allows : BodyStart → String → Prop
  | .headContent, name => name ∈ Category.headContent
  | .frameset, name => name = "frameset"
  | .form, name => name = "form"
  | .plaintext, name => name = "plaintext"
  | .anchor, name => name = "a"
  | .nobr, name => name = "nobr"
  | .formatting, name => name ∈ Category.formatting
  | .table, name => name = "table"
  | .image, name => name = "image"
  | .select, name => name = "select"
  | .void, name => name ∈ ["area", "br", "embed", "img", "keygen", "wbr"]
  | .input, name => name = "input"
  | .bareVoid, name => name ∈ ["param", "source", "track"]
  | .rule, name => name = "hr"
  | .textarea, name => name = "textarea"
  | .xmp, name => name = "xmp"
  | .iframe, name => name = "iframe"
  | .noembed, name => name = "noembed"
  | .noscript, name => name = "noscript"
  | _, _ => True

theorem BodyStart.allows_ofName (name : String) : (BodyStart.ofName name).Allows name := by
  unfold BodyStart.ofName
  repeat' refine iteInduction (motive := (BodyStart.Allows · name)) ?_ fun _ => ?_
  all_goals first
    | exact True.intro
    | exact fun _ => True.intro
    | exact fun h => h
    | exact List.contains_iff_mem.1

/-- The kinds of start tags whose elements may be parts. -/
def BodyStart.ofParts : List BodyStart :=
  [.html, .headContent, .body, .frameset, .table, .select, .misplaced]

theorem ofName?_of_bodyStart (name : String) (h : BodyStart.ofName name ∉ BodyStart.ofParts) :
    Part.ofName? name = none := by
  have hall : ∀ p ∈ Part.all, ∀ name ∈ p.names, BodyStart.ofName name ∈ BodyStart.ofParts := by
    decide
  cases hp : Part.ofName? name with
  | none => rfl
  | some p => exact absurd (hall p (by cases p <;> decide) name (Part.ofName?_eq_some.1 hp)) h

theorem plain_repeatedBody (h : Sound b) (tag : Tag) : Plain b (b.repeatedBody tag) := by
  have p := plain_report h .unexpectedStartTag
  unfold repeatedBody
  dsimp only
  split
  · exact p
  · split
    · exact (p.next plain_framesetNotOk).next fun h => plain_mergeAttributes h _ _
    · exact p

theorem plain_popIf (h : Sound b) (name : String) (hname : Part.ofName? name = none) :
    Plain b (b.popIf name) := by
  unfold popIf
  split
  · next hcurrent =>
    obtain ⟨x, outer, hopen, hhtml⟩ := currentIs_iff.1 hcurrent
    exact plain_pop h hopen (part?_of_isHtml hname hhtml)
  · exact .refl h

theorem ofName?_headings : ∀ name ∈ Category.headings, Part.ofName? name = none := by decide

theorem plain_startHeading (h : Ready b) (hname : Part.ofName? tag.name = none) :
    Plain b (b.startHeading tag) := by
  have p := plain_closeOpenParagraph h
  unfold startHeading
  extract_lets b₁ b₂
  suffices p : Plain b b₂ from p.andThen h fun h => plain_insertHtml h hname
  unfold b₂
  split
  · next hcurrent =>
    obtain ⟨x, outer, hopen, hhtml⟩ := currentIsOf_iff.1 hcurrent
    obtain ⟨name, hn, hl⟩ := isHtmlOf_iff.1 hhtml
    have hpart := (part?_of_label hl).trans (ofName?_headings name hn)
    exact (p.next fun h => plain_report h _).next fun h => plain_pop h hopen hpart
  · exact p

theorem plain_startForm (h : Ready b) (hname : tag.name = "form") : Plain b (b.startForm tag) := by
  have hpart : Part.ofName? tag.name = none := by rw [hname]; decide
  unfold startForm
  extract_lets inTemplate b₁
  have p := plain_closeOpenParagraph h
  have p₁ : Plain b b₁ := p.andThen h fun h => plain_insertHtml h hpart
  have hbegun := (p.ready h).begun
  split
  · exact plain_report h.toSound _
  · split
    · exact p₁
    · refine p₁.next fun h => plain_formElement h fun f hf => ?_
      have hpushed := pushed_insertElement p.sound hbegun tag.name .html
        (by rw [hname]; decide) tag.attributes
      obtain ⟨id, hopen, hl⟩ := hpushed.stack
      have hcurrent : b₁.currentNode? = some id := congrArg List.head? hopen
      obtain rfl : id = f := Option.some.inj (hcurrent.symm.trans hf)
      have hl : b₁.tree.label? id = some (.html, tag.name) := hl
      rw [hl, hname]

/-- The list item that a new one ends is above the innermost part. -/
theorem plain_closeListItem (h : Ready b) {names : List String} {name : String}
    (hnames : ∀ name ∈ names, Part.ofName? name = none)
    (hclose : listItemToClose b.tree names b.openElements = some name) :
    Plain b (b.closeNamed name (some name)) := by
  obtain ⟨q, rest, hb, -⟩ := h.content
  obtain ⟨-, inner, x, outer, hopen, hc, hx⟩ := listItemToClose_cut hb hnames hclose
  exact plain_closeNamed h.toSound ⟨inner, x, outer, hopen, hc, hx⟩ (Or.inl rfl)

theorem plain_startListItem (h : Ready b) (hname : Part.ofName? tag.name = none) :
    Plain b (b.startListItem tag) := by
  unfold startListItem
  extract_lets names b₁ b₂
  have p : Plain b b₁ := plain_framesetNotOk h.toSound
  have h₁ := p.ready h
  have p₂ : Plain b₁ b₂ := by
    unfold b₂
    split
    · next name hclose =>
      refine plain_closeListItem h₁ ?_ hclose
      unfold names
      split <;> decide
    · exact .refl h₁.toSound
  exact ((p.trans p₂).andThen h plain_closeOpenParagraph).andThen h fun h =>
    plain_insertHtml h hname

/-- A button that is in scope is closed before another one. -/
theorem plain_closeButton (h : Ready b) (hin : b.inScope .general "button" = true) :
    Plain b (((b.report .unexpectedStartTag).closeImplied none).popThroughName "button") := by
  have p := plain_report h.toSound .unexpectedStartTag
  have hfound : Found (b.report .unexpectedStartTag) (b.isHtmlOf ["button"]) := by
    rw [isHtmlOf_singleton]
    exact found_of_inScope h (Or.inl rfl) (by decide) hin
  have hfound := Found.closeImplied (b := b.report .unexpectedStartTag) hfound none
    (by decide)
  rw [isHtmlOf_singleton] at hfound
  exact (p.next fun h => plain_closeImplied h none).next fun h => plain_popThrough h hfound

theorem plain_startButton (h : Ready b) (hname : Part.ofName? tag.name = none) :
    Plain b (b.startButton tag) := by
  unfold startButton
  extract_lets b₁
  have p : Plain b b₁ := by
    unfold b₁
    split
    · next hin => exact plain_closeButton h hin
    · exact .refl h.toSound
  exact ((p.andThen h plain_reconstruct).andThen h fun h => plain_insertHtml h hname).next
    plain_framesetNotOk

/-- A link that is in the list is ended, wherever it is, and remains a link. -/
theorem plain_endAnchor (h : Ready b) {existing : NodeId}
    (hactive : b.activeFormatting? "a" = some existing) :
    let b' := (((b.report .misnestedFormattingElement).runAdoption "a").1.removeFormatting existing)
    Plain b (b'.removeOpen existing) ∧ b'.tree.label? existing = some (.html, "a") := by
  have hl := isHtml_iff.1 (List.find?_some hactive)
  have p := ((plain_report h.toSound .misnestedFormattingElement).andThen h fun h =>
    plain_runAdoption h "a" (by decide)).next fun h => plain_removeFormatting h existing
  have hl' := p.same.keeps existing _ hl
  exact ⟨p.next fun h => plain_removeOpen h ((part?_of_label hl').trans (by decide)), hl'⟩

theorem plain_startAnchor (h : Ready b) (hname : tag.name ∈ Category.formatting) :
    Plain b (b.startAnchor tag) := by
  unfold startAnchor
  extract_lets adopted b₁
  have p : Plain b b₁ := by
    unfold b₁
    split
    · next existing hactive => exact (plain_endAnchor h hactive).1
    · exact .refl h.toSound
  exact p.andThen h fun h => plain_insertFormatting h hname

theorem plain_startNobr (h : Ready b) (hname : tag.name ∈ Category.formatting) :
    Plain b (b.startNobr tag) := by
  have p := plain_reconstruct h
  unfold startNobr
  extract_lets b₁ b₂
  suffices p : Plain b b₂ from p.andThen h fun h => plain_insertFormatting h hname
  unfold b₂
  split
  · exact (p.next fun h => plain_report h _).andThen h fun h =>
      plain_runAdoption h "nobr" (by decide)
  · exact p

theorem plain_startInput (h : Ready b) (hname : Part.ofName? tag.name = none) :
    Plain b (b.startInput tag) := by
  have p := (plain_reconstruct h).andThen h fun h => plain_insertVoid h.toSound h.begun hname
  unfold startInput
  dsimp only
  split
  · exact p
  · exact p.next plain_framesetNotOk

theorem plain_startRuby (h : Ready b) (hname : Part.ofName? tag.name = none)
    (except : Option String) (parents : List String) :
    Plain b (b.startRuby tag except parents) := by
  unfold startRuby
  extract_lets b₁ b₂
  suffices p : Plain b b₂ from p.andThen h fun h => plain_insertHtml h hname
  unfold b₂
  split
  · exact (plain_closeImplied h.toSound except).next fun h => plain_reportIf h _ _
  · exact .refl h.toSound

theorem plain_startForeignRoot (h : Ready b) (tag : Tag) : Plain b (b.startForeignRoot tag) := by
  unfold startForeignRoot
  extract_lets ns
  refine (plain_reconstruct h).andThen h fun h =>
    plain_insertForeign h.toSound h.begun h.admits tag ?_ _
  unfold ns
  split <;> simp

/-! ## 4. Start tags of parts -/

/-- The body is taken out of the document, and only the document element stays open. -/
theorem sound_detach_body (h : Sound b) {inner : List NodeId} {x body : NodeId}
    (hopen : b.openElements = inner ++ [x]) (hx : b.tree.label? x = some (.html, "html"))
    (hbody : b.tree.label? body = some (.html, "body")) (hmem : body ∈ b.tree.skeleton.bodies) :
    Sound { b with tree := b.tree.detach body, openElements := [x] } := by
  have hforest := h.planted.forest
  have hskeleton := skeleton_detach_body hforest.linked h.planted.upright hmem
  have m := moved_detach hforest.linked body
  have hlabel : ∀ y, (b.tree.detach body).label? y = b.tree.label? y := fun y =>
    label?_congr (m.data y)
  have hparent : ∀ y name, b.tree.label? y = some (.html, name) → name ≠ "body" →
      (b.tree.detach body).parent? y = b.tree.parent? y := by
    intro y name hy hne
    rw [m.parent, if_neg]
    rintro rfl
    rw [hbody] at hy
    exact hne (Prod.ext_iff.1 (Option.some.inj hy)).2.symm
  -- the document element stays where it is
  have hxroot : (b.tree.detach body).parent? x = some root := by
    rw [hparent x _ hx (by simp)]
    exact h.planted.html x (by simp [hopen]) hx
  have hforest' :=
    m.forest hforest (ne_fragment_of_label hbody) (hforest.ne_root_of_label hbody) (by simp)
  have hupright : Upright (b.tree.detach body) b.headElement := by
    have hsingle := h.planted.upright.singleParts.detach
    rw [← hskeleton] at hsingle
    refine ⟨hsingle, fun r hr => (hlabel r).trans (h.planted.upright.html r ?_)⟩
    exact (congrArg Skeleton.html hskeleton).symm.trans hr
  refine ⟨⟨hforest', ?_, ?_, ?_, ?_, hupright, ?_, ?_⟩,
    h.named.keeps fun y l hy => (hlabel y).trans hy, ?_, h.frameset, h.running, h.intact⟩
  · intro y hy
    obtain rfl := List.mem_singleton.1 hy
    rw [hlabel, hx]
    rfl
  · intro y hy
    obtain rfl := List.mem_singleton.1 hy
    exact Relation.ReflTransGen.single (Or.inl hxroot)
  · exact List.pairwise_singleton _ _
  · intro y hy _
    obtain rfl := List.mem_singleton.1 hy
    exact hxroot
  · intro y hy hl
    obtain rfl := List.mem_singleton.1 hy
    rw [hlabel, hx] at hl
    simp at hl
  · intro k hk
    obtain ⟨hl, r, hr, hp, hrp⟩ := h.planted.head k hk
    refine ⟨by rw [hlabel, hl], r, by rw [hlabel, hr], ?_, ?_⟩
    · rw [hparent k _ hl (by simp), hp]
    · rw [hparent r _ hr (by simp), hrp]
  · intro f hf
    exact (hlabel f).trans (h.form f hf)

/-- A frameset replaces a body only while no template is open. -/
theorem lawful_lateFrameset (h : Spine b) (hm : b.mode ∈ bodyModes)
    (hname : tag.name = "frameset") : Lawful b (.startTag tag) (b.lateFrameset tag).done := by
  have hmode : b.mode ∉ [InsertionMode.initial, .beforeHtml, .inHeadNoscript, .text] := by
    revert hm
    cases b.mode <;> simp [bodyModes]
  have p := plain_report h.toSound .unexpectedStartTag
  have hreport : Lawful b (.startTag tag) (b.report .unexpectedStartTag).done :=
    lawful_plain h p hmode (by simp)
  unfold lateFrameset
  extract_lets b₁
  split
  · exact hreport
  · next body hat =>
    split
    · next hok =>
      obtain ⟨hbody, hok⟩ := Bool.and_eq_true_iff.1 hok
      obtain ⟨inner, x, hopen, hx⟩ :=
        (h.steady (mem_steadyModes_of_bodyModes _ hm)).1.exists_bottom
      have hseen := (h.begun_of_plain p (mem_innerModes_of_bodyModes _ hm)).head
      -- what is open as the second element is the body of the document
      have hmem : body ∈ b₁.tree.skeleton.bodies :=
        p.sound.planted.body body (List.mem_reverse.1 (List.mem_of_getElem? hat))
          (isHtml_iff.1 hbody)
      have hcut : { b₁ with tree := b₁.tree.detach body }.openElements = inner ++ [x] := hopen
      rw [detach?_eq p.sound.planted.forest.linked, Option.bind_eq_bind, Option.bind_some]
      change Lawful b _ (({ b₁ with tree := b₁.tree.detach body }.truncate [x].length).insertHtml
        tag |>.switchTo .inFrameset).done
      rw [truncate_eq hcut]
      have hsound := sound_detach_body (b := b₁) p.sound hopen hx (isHtml_iff.1 hbody) hmem
      -- without the body, the document is as it was before one was opened, and the frameset is
      -- opened in its place
      have hnone : (b₁.tree.detach body).skeleton.bodies = [] := by
        rw [skeleton_detach_body p.sound.planted.forest.linked p.sound.planted.upright hmem]
      have hlabel : (b₁.tree.detach body).label? x = some (.html, "html") :=
        (label?_congr ((moved_detach p.sound.planted.forest.linked body).data x)).trans hx
      obtain ⟨hopened, hbodies⟩ := opened_outer hsound rfl hlabel hseen hnone tag.name
        (by simp [hname]) tag.attributes
      have hspine := spine_outer hsound rfl hlabel (p.sound.frameset hok) hseen hopened hbodies
        .inFrameset (by rw [hname]; decide) (Or.inr rfl) fun _ _ _ => rfl
      refine lawful_done hspine (by simp) (quiet_of_ne ?_ (by simp [switchTo]))
      rw [switchTo, insertHtml, hopened.same]
      rfl
    · exact hreport

theorem lawful_startTable (h : Spine b) (hm : b.mode ∈ Part.table.hosts)
    (hname : tag.name = "table") : Lawful b (.startTag tag) (b.startTable tag).done := by
  have hr : Ready b := h.ready (by revert hm; cases b.mode <;> simp [Part.hosts, bodyModes])
  unfold startTable
  extract_lets b₁
  have p : Plain b b₁ := by
    unfold b₁
    split
    · exact .refl h.toSound
    · exact plain_closeOpenParagraph hr
  have hpart : partOf (.html, tag.name) = some .table := by rw [hname]; decide
  have p' := pushed_insertElement p.sound (p.ready hr).begun tag.name .html
    (not_outer_of_part hpart (by simp)) tag.attributes
  obtain ⟨hspine, hrequest⟩ := h.opened p p' hpart hm (fun _ _ => trivial) .inTable
    fun _ _ _ => rfl
  have hs : Spine ((b₁.insertHtml tag).framesetNotOk.switchTo .inTable) :=
    hspine.still (plain_framesetNotOk hspine.toSound) rfl
  exact lawful_done hs (by simp) (quiet_of_ne hrequest (by simp [switchTo]))

theorem lawful_startSelect (h : Spine b) (hm : b.mode ∈ bodyModes) (hname : tag.name = "select") :
    Lawful b (.startTag tag) (b.startSelect tag).done := by
  have hhost : b.mode ∈ Part.select.hosts := by
    revert hm
    cases b.mode <;> simp [Part.hosts, bodyModes]
  have hr := h.ready (List.mem_cons_of_mem _ hm)
  have p := plain_reconstruct hr
  have hpart : partOf (.html, tag.name) = some .select := by rw [hname]; decide
  have p' := pushed_insertElement p.sound (p.ready hr).begun tag.name .html
    (not_outer_of_part hpart (by simp)) tag.attributes
  have hopened : ∀ mode : InsertionMode, mode.kind = .inSelect →
      Lawful b (.startTag tag) ((b.reconstruct.insertHtml tag).framesetNotOk.switchTo
        mode).done := by
    intro mode hmode
    obtain ⟨hspine, hrequest⟩ := h.opened p p' hpart hhost (fun _ _ => trivial) mode
      fun _ _ _ => hmode
    have hs : Spine ((b.reconstruct.insertHtml tag).framesetNotOk.switchTo mode) :=
      hspine.still (plain_framesetNotOk hspine.toSound) rfl
    refine lawful_done hs (by simp) (quiet_of_ne hrequest ?_)
    rintro he
    cases mode <;> cases hmode <;> cases he
  unfold startSelect
  extract_lets b₁
  split
  all_goals exact hopened _ rfl

/-! ## 5. The rule for start tags -/

/-- The rules of the body are not used for the tags that tables have rules of their own for. -/
def Proper (mode : InsertionMode) : Token → Prop
  | .startTag tag => tag.name = "table" → mode ∈ Part.table.hosts
  | .endTag tag => mode = .inBody ∨
      tag.name ∉ ["caption", "table", "tbody", "td", "tfoot", "th", "thead", "tr"]
  | _ => True

/-- A misspelt image tag is read as what was meant. -/
theorem lawful_image (h : Spine b) (hname : tag.name = "image") : Lawful b (.startTag tag)
    ((b.report .unexpectedStartTag).reprocess (.startTag { tag with name := "img" })) := by
  have p := plain_report h.toSound .unexpectedStartTag
  refine ⟨⟨h.still p rfl, Or.inr ⟨tag, rfl, hname, rfl⟩, ?_⟩, Or.inl ⟨rfl, fun hm => ?_⟩⟩
  · simp only [rank, hname]
    exact Nat.lt_succ_self _
  · exact ⟨hm, rfl, .refl _⟩

theorem lawful_plaintext (h : Spine b) (hm : b.mode ∈ bodyModes) (hname : tag.name = "plaintext") :
    Lawful b (.startTag tag)
      ((b.closeOpenParagraph.insertHtml tag).requestState .plaintext).done := by
  have hr := h.ready (List.mem_cons_of_mem _ hm)
  have hpart : Part.ofName? tag.name = none := by rw [hname]; decide
  have p := (plain_closeOpenParagraph hr).andThen hr fun h => plain_insertHtml h hpart
  have hs := h.plain p (by revert hm; cases b.mode <;> simp [bodyModes])
  have hspine : Spine ((b.closeOpenParagraph.insertHtml tag).requestState .plaintext) :=
    hs.update _ _ _ _ _ _
  refine lawful_request hspine (.plaintext ?_ rfl hname)
  change (b.closeOpenParagraph.insertHtml tag).mode ≠ .text
  rw [p.same.mode]
  exact ne_text_of_steady _ (mem_steadyModes_of_bodyModes _ hm)

theorem lawful_bodyStart (h : Spine b) (hm : b.mode ∈ bodyModes)
    (hp : tag.name = "table" → b.mode ∈ Part.table.hosts) :
    Lawful b (.startTag tag) (b.bodyStart tag) := by
  have hr := h.ready (List.mem_cons_of_mem _ hm)
  have hkeep : b.mode ∉ [InsertionMode.initial, .beforeHtml, .inHeadNoscript, .text] := by
    revert hm
    cases b.mode <;> simp [bodyModes]
  have hplain : ∀ {b'}, Plain b b' → Lawful b (.startTag tag) b'.done := fun p =>
    lawful_plain h p hkeep (by simp)
  have hsteady := mem_steadyModes_of_bodyModes _ hm
  have hmode : b.mode ≠ .text ∧ b.mode ≠ .inTableText := by
    revert hm
    cases b.mode <;> simp [bodyModes]
  have hraw : ∀ {b'}, Plain b b' → ∀ kind, Part.ofName? tag.name = none → tag.name ≠ "img" →
      Lawful b (.startTag tag) (b'.insertRawText tag kind).done := fun p kind hname himg =>
    (lawful_insertRawText (h.plain p hkeep) (p.ready hr).begun (by rw [p.same.mode]; exact hmode)
      hname himg kind).of_plain p hmode.1
  -- the kind of the tag says what its name may be; an element of most kinds is no part, and then
  -- the rule is a chain of plain changes
  have hname := BodyStart.allows_ofName tag.name
  have hpart := ofName?_of_bodyStart tag.name
  unfold bodyStart
  cases hkind : BodyStart.ofName tag.name <;>
    simp only [hkind, BodyStart.Allows, BodyStart.ofParts, List.mem_cons, reduceCtorEq,
      List.not_mem_nil, or_self, not_false_eq_true, true_implies] at hname hpart ⊢
  case html => exact lawful_repeatedHtml h tag
  case headContent => exact lawful_startHeadContent h hr.begun hmode (fun _ => hsteady) hname
  case body => exact hplain (plain_repeatedBody h.toSound tag)
  case frameset => exact lawful_lateFrameset h hm hname
  case block =>
    exact hplain ((plain_closeOpenParagraph hr).andThen hr fun h => plain_insertHtml h hpart)
  case heading => exact hplain (plain_startHeading hr hpart)
  case preformatted =>
    have p := (plain_closeOpenParagraph hr).andThen hr fun h => plain_insertHtml h hpart
    exact hplain ((p.next plain_framesetNotOk).next fun h => plain_skipNewline h true)
  case form => exact hplain (plain_startForm hr hname)
  case listItem => exact hplain (plain_startListItem hr hpart)
  case plaintext => exact lawful_plaintext h hm hname
  case button => exact hplain (plain_startButton hr hpart)
  case anchor => exact hplain (plain_startAnchor hr (by rw [hname]; decide))
  case nobr => exact hplain (plain_startNobr hr (by rw [hname]; decide))
  case formatting => exact hplain (plain_insertFormatting hr hname)
  case marked =>
    have p := (plain_reconstruct hr).andThen hr fun h => plain_insertHtml h hpart
    exact hplain ((p.next plain_insertMarker).next plain_framesetNotOk)
  case table => exact lawful_startTable h (hp hname) hname
  case void =>
    have p := (plain_reconstruct hr).andThen hr fun h => plain_insertVoid h.toSound h.begun hpart
    exact hplain (p.next plain_framesetNotOk)
  case input => exact hplain (plain_startInput hr hpart)
  case bareVoid => exact hplain (plain_insertVoid h.toSound hr.begun hpart)
  case rule =>
    have p := (plain_closeOpenParagraph hr).andThen hr fun h =>
      plain_insertVoid h.toSound h.begun hpart
    exact hplain (p.next plain_framesetNotOk)
  case image => exact lawful_image h hname
  case textarea =>
    obtain ⟨hspine, hrequest⟩ :=
      spine_insertRawText h hr.begun hmode hpart (by rw [hname]; decide) .rcdata
    have p := (plain_framesetNotOk hspine.toSound).next fun h => plain_skipNewline h true
    exact lawful_request (hspine.still p rfl) (hrequest.still p rfl)
  case xmp =>
    have p := ((plain_closeOpenParagraph hr).andThen hr plain_reconstruct).next plain_framesetNotOk
    exact hraw p .rawtext hpart (by rw [hname]; decide)
  case iframe => exact hraw (plain_framesetNotOk h.toSound) .rawtext hpart (by rw [hname]; decide)
  case noembed => exact lawful_insertRawText h hr.begun hmode hpart (by rw [hname]; decide) .rawtext
  case noscript =>
    split
    · exact lawful_insertRawText h hr.begun hmode hpart (by rw [hname]; decide) .rawtext
    · exact hplain ((plain_reconstruct hr).andThen hr fun h => plain_insertHtml h hpart)
  case select => exact lawful_startSelect h hm hname
  case option =>
    have p := (plain_popIf h.toSound "option" (by decide)).andThen hr plain_reconstruct
    exact hplain (p.andThen hr fun h => plain_insertHtml h hpart)
  case rubyBase => exact hplain (plain_startRuby hr hpart none ["ruby"])
  case rubyText => exact hplain (plain_startRuby hr hpart (some "rtc") ["rtc", "ruby"])
  case foreignRoot => exact hplain (plain_startForeignRoot hr tag)
  case misplaced => exact lawful_refuse h _ (by simp)
  case ordinary =>
    exact hplain ((plain_reconstruct hr).andThen hr fun h => plain_insertHtml h hpart)

/-! ## 6. End tags -/

/-- What the kind of an end tag says about its name. -/
def BodyEnd.Allows : BodyEnd → String → Prop
  | .html, name => name = "html"
  | .block, name => name ∈ Category.blockEnd
  | .listItem, name => name = "li"
  | .definition, name => name ∈ ["dd", "dt"]
  | .formatting, name => name ∈ Category.formatting
  | .marked, name => name ∈ Category.markerElements
  | _, _ => True

theorem BodyEnd.allows_ofName (name : String) : (BodyEnd.ofName name).Allows name := by
  unfold BodyEnd.ofName
  repeat' refine iteInduction (motive := (BodyEnd.Allows · name)) ?_ fun _ => ?_
  all_goals first
    | exact True.intro
    | exact fun _ => True.intro
    | exact fun h => h
    | exact List.contains_iff_mem.1

theorem plain_closeInScope (h : Ready b) {scope : Scope} (hs : scope.isOrdinary) {name : String}
    (hname : Part.ofName? name = none) {except : Option String}
    (hn : except = some name ∨ name ∉ Category.impliedEnd) :
    Plain b (b.closeInScope scope name except) := by
  unfold closeInScope
  split
  · next hin => exact plain_closeNamed_inScope h hs hname hin hn
  · exact plain_report h.toSound _

theorem plain_endForm (h : Ready b) : Plain b b.endForm := by
  unfold endForm
  split
  · exact plain_closeInScope h (Or.inl rfl) (by decide) (Or.inr (by decide))
  · extract_lets form b₁ b₂
    have p : Plain b b₁ := plain_formElement h.toSound (by simp)
    cases hnode : form with
    | none => exact p.next fun h => plain_report h _
    | some node =>
      dsimp only
      split
      · have hpart : b₂.tree.part? node = none :=
          (part?_of_label (h.form node hnode)).trans (by decide)
        have p₂ : Plain b b₂ := p.next fun h => plain_closeImplied h none
        obtain ⟨errors, he, -⟩ :=
          reportIf_eq (b := b₂) (b₂.currentNode? != some node) .unclosedElements rfl
        have p₃ := plain_reportIf p₂.sound (b₂.currentNode? != some node) .unclosedElements
        rw [he] at p₃ ⊢
        exact (p₂.trans p₃).next fun h => plain_removeOpen h hpart
      · exact p.next fun h => plain_report h _

theorem plain_endParagraph (h : Ready b) : Plain b b.endParagraph := by
  unfold endParagraph
  split
  · next hin =>
    exact plain_closeNamed_inScope h (Or.inr (Or.inr rfl)) (by decide) hin (Or.inl rfl)
  · have p := plain_report h.toSound .unexpectedEndTag
    have p' := p.andThen h fun h => plain_insertNamed h "p" (by decide)
    refine p'.next fun h' => plain_closeNamed h' ?_ (Or.inl rfl)
    -- the paragraph to be closed has just been made
    have hpushed := pushed_insertElement p.sound (p.ready h).begun "p" .html (by decide) []
    obtain ⟨id, hopen, hl⟩ := hpushed.stack
    have hpart := (part?_of_label hl).trans (by decide : partOf (.html, "p") = none)
    exact ⟨[], id, _, hopen, clear_cons.2 ⟨hpart, clear_nil⟩, isHtml_iff.2 hl⟩

theorem plain_endHeading (h : Ready b) (name : String) : Plain b (b.endHeading name) := by
  unfold endHeading
  split
  · next hin =>
    have hfound : Found b (b.isHtmlOf Category.headings) := by
      refine found_of_search h (Or.inl rfl) (fun x e he hx => ?_) hin
      rw [← isHtmlOf_of_element he] at hx
      obtain ⟨name, hname, hl⟩ := isHtmlOf_iff.1 hx
      exact ⟨(part?_of_label hl).trans (ofName?_headings name hname), hx⟩
    exact plain_close h.toSound hfound _ (by decide) fun b => !b.currentIs name
  · exact plain_report h.toSound _

/-- Any other end tag closes an element above the innermost part, if that is not of its name. -/
theorem plain_endOther (h : Ready b) {name : String}
    (hname : ∀ p rest, b.bones = p :: rest → name ∉ p.names) : Plain b (b.endOther name) := by
  obtain ⟨p, rest, hb, -⟩ := h.content
  unfold endOther
  split
  · next id htarget =>
    obtain ⟨inner, outer, hopen, hc, hid⟩ := endTarget_cut hb (hname p rest hb) htarget
    have hfound : Found b (· == id) := ⟨inner, id, outer, hopen, hc, by simp⟩
    extract_lets b₁
    have p₁ : Plain b b₁ := plain_closeImplied h.toSound (some name)
    have hfound : Found b₁ (· == id) := by
      refine hfound.popWhile fun x hx => ?_
      obtain rfl : x = id := by simpa using hx
      obtain ⟨e, he, -, htag⟩ := exists_element_of_label (isHtml_iff.1 hid)
      simp [he, htag]
    obtain ⟨errors, he, -⟩ :=
      reportIf_eq (b := b₁) (b₁.currentNode? != some id) .unclosedElements rfl
    have p₂ := plain_reportIf p₁.sound (b₁.currentNode? != some id) .unclosedElements
    rw [he] at p₂ ⊢
    exact (p₁.trans p₂).next fun h => plain_popThrough h hfound
  · exact plain_report h.toSound _
  · exact .refl h.toSound

theorem not_mem_names_of_formatting {name : String} (h : name ∈ Category.formatting) (p : Part) :
    name ∉ p.names := by
  intro hp
  have hn := ofName?_formatting name h
  rw [Part.ofName?_eq_some.2 hp] at hn
  cases hn

theorem plain_endFormatting (h : Ready b) {name : String} (hname : name ∈ Category.formatting) :
    Plain b (b.endFormatting name) := by
  have p := plain_runAdoption h _ hname
  unfold endFormatting
  split
  · next b' heq =>
    rw [heq] at p
    exact p
  · next b' heq =>
    rw [heq] at p
    exact p.andThen h fun h => plain_endOther h fun q _ _ => not_mem_names_of_formatting hname q

/-- The body is in scope only while it is the innermost part. -/
theorem bones_of_body (h : Ready b) (hin : b.inScope .general "body" = true) :
    b.bones = [.body, .html] := by
  obtain ⟨p, rest, hb, hp⟩ := h.content
  have hframe : Frame b.bones b.templateModes := h.framed.frame
  rw [hb] at hframe
  -- any other innermost part that holds content is a limit of the scope, or is outside of no body
  by_cases hbody : p = .body
  · subst hbody
    rw [hb, (hframe.outer_inv (Or.inr rfl)).1]
  · obtain ⟨above, x, outer, hopen, hc, hx, -⟩ := exists_cut hb
    have hseat := h.framed.seated
    rw [inScope, hopen] at hin
    rw [hopen] at hseat
    have hpart : ∀ x e, b.tree.element? x = some e → e.isHtml "body" = true →
        b.tree.part? x = some .body := by
      intro x e he hx
      rw [← isHtml_of_element he, isHtml_iff] at hx
      exact (part?_of_label hx).trans (by decide)
    have hin := searchScope_cut (fun x e he hx => by rw [hpart x e he hx]; simp) hc hin
    have hinner : p ∈ [Part.table, .caption, .rowGroup, .row, .cell, .template] := by
      revert hp hbody
      cases p <;> simp [Part.content]
    rw [searchScope_inner (Or.inl rfl) (fun y q e hy hq he => ?_) hseat.suffix hx hinner] at hin
    · cases hin
    · rw [Bool.eq_false_iff]
      intro hte
      rw [hpart y e he hte] at hy
      exact hq (Option.some.inj hy).symm

/-- The end of the body is in the mode of the body. -/
theorem spine_endBody (h : Spine b) (hm : b.mode ∈ bodyModes)
    (hin : b.inScope .general "body" = true) : Spine b.endBody ∧ b.mode = .inBody := by
  have hs := h.steady (mem_steadyModes_of_bodyModes _ hm)
  have hb := bones_of_body (h.ready (List.mem_cons_of_mem _ hm)) hin
  have p := plain_reportIf h.toSound (b.hasOpenBesides Category.openAtBodyEnd) .unclosedElements
  refine ⟨⟨p.sound.switchTo .afterBody, p.framed hs.1, p.same.bones.trans hb⟩, ?_⟩
  have hmode : b.mode.kind = modeOf b.templateModes b.headElement.isSome b.bones := hs.2
  rw [hb] at hmode
  revert hm hmode
  cases b.mode <;> simp [bodyModes, modeOf, InsertionMode.kind]

theorem ofName?_blockEnd : ∀ name ∈ Category.blockEnd,
    Part.ofName? name = none ∧ name ∉ Category.impliedEnd := by decide

theorem ofName?_markerElements : ∀ name ∈ Category.markerElements,
    Part.ofName? name = none ∧ name ∉ Category.impliedEnd := by decide

theorem ofName?_definition : ∀ name ∈ ["dd", "dt"], Part.ofName? name = none := by decide

/-- An end tag of any other kind does not name the innermost part. -/
theorem not_mem_names_of_other (h : Spine b) (hm : b.mode ∈ bodyModes)
    (hp : Proper b.mode (.endTag tag)) (hkind : BodyEnd.ofName tag.name = .other) :
    ∀ p rest, b.bones = p :: rest → tag.name ∉ p.names := by
  intro p rest hb hname
  obtain ⟨q, rest', hb', hq⟩ := (h.steady (mem_steadyModes_of_bodyModes _ hm)).innermost
  obtain rfl : q = p := by
    rw [← bones, hb] at hb'
    exact (List.cons.inj hb').1.symm
  have hkinds : ∀ name ∈ Part.body.names ++ Part.template.names, BodyEnd.ofName name ≠ .other := by
    decide
  have hall : ∀ mode ∈ bodyModes, ∀ q ∈ Frame.innermost mode.kind, q = .body ∨ q = .template ∨
      mode ≠ .inBody ∧ ∀ name ∈ q.names,
        name ∈ ["caption", "table", "tbody", "td", "tfoot", "th", "thead", "tr"] := by decide
  rcases hall b.mode hm q hq with rfl | rfl | ⟨hne, hnames⟩
  · exact hkinds tag.name (List.mem_append_left _ hname) hkind
  · exact hkinds tag.name (List.mem_append_right _ hname) hkind
  · rcases hp with hp | hp
    · exact hne hp
    · exact hp (hnames _ hname)

theorem lawful_bodyEnd (h : Spine b) (hm : b.mode ∈ bodyModes) (hp : Proper b.mode (.endTag tag)) :
    Lawful b (.endTag tag) (b.bodyEnd tag) := by
  have hr := h.ready (List.mem_cons_of_mem _ hm)
  have hplain : ∀ {b'}, Plain b b' → Lawful b (.endTag tag) b'.done := fun p =>
    lawful_plain h p (by revert hm; cases b.mode <;> simp [bodyModes]) (by simp)
  -- the kind of the tag says what its name may be
  have hname := BodyEnd.allows_ofName tag.name
  have hother := not_mem_names_of_other h hm hp
  unfold bodyEnd
  cases hkind : BodyEnd.ofName tag.name <;> simp only [hkind, BodyEnd.Allows] at hname ⊢
  case template => exact lawful_endTemplate h (mem_steadyModes_of_bodyModes _ hm) (by simp)
  case body =>
    split
    · next hin =>
      obtain ⟨hspine, -⟩ := spine_endBody h hm hin
      have p := plain_reportIf h.toSound (b.hasOpenBesides Category.openAtBodyEnd) .unclosedElements
      exact lawful_done hspine (by simp) (quiet_of_ne p.same.request (by simp [endBody, switchTo]))
    · exact lawful_refuse h _ (by simp)
  case html =>
    split
    · next hin =>
      obtain ⟨hspine, hmode⟩ := spine_endBody h hm hin
      have p := plain_reportIf h.toSound (b.hasOpenBesides Category.openAtBodyEnd) .unclosedElements
      refine lawful_reprocess hspine (rank_lt_of_modeRank (by simp) ?_)
        (quiet_of_ne p.same.request (by simp [endBody, switchTo]))
      simp [endBody, switchTo, hmode, modeRank, Course.of, hname]
    · exact lawful_refuse h _ (by simp)
  case block =>
    obtain ⟨hpart, himplied⟩ := ofName?_blockEnd _ hname
    exact hplain (plain_closeInScope hr (Or.inl rfl) hpart (Or.inr himplied))
  case form => exact hplain (plain_endForm hr)
  case paragraph => exact hplain (plain_endParagraph hr)
  case listItem =>
    exact hplain (plain_closeInScope hr (Or.inr (Or.inl rfl)) (by rw [hname]; decide) (Or.inl rfl))
  case definition =>
    exact hplain (plain_closeInScope hr (Or.inl rfl) (ofName?_definition _ hname) (Or.inl rfl))
  case heading => exact hplain (plain_endHeading hr tag.name)
  case formatting => exact hplain (plain_endFormatting hr hname)
  case marked =>
    obtain ⟨hpart, himplied⟩ := ofName?_markerElements _ hname
    split
    · next hin =>
      exact hplain ((plain_closeNamed_inScope hr (Or.inl rfl) hpart hin (Or.inr himplied)).next
        plain_clearToMarker)
    · exact lawful_refuse h _ (by simp)
  case lineBreak =>
    have p := (plain_report h.toSound .unexpectedEndTag).andThen hr plain_reconstruct
    have p' := p.andThen hr fun h =>
      (pushed_insertElement h.toSound h.begun "br" .html (by decide) []).popped h.toSound
    exact hplain (p'.next plain_framesetNotOk)
  case other => exact hplain (plain_endOther hr (hother hkind))

/-! ## 7. The mode -/

/-- The rules of the body are lawful in every mode that uses them. -/
theorem lawful_inBody (h : Spine b) (hm : b.mode ∈ bodyModes) (hp : Proper b.mode token) :
    Lawful b token (b.inBody token) := by
  cases token with
  | character c =>
    have p := plain_bodyChar (h.ready (List.mem_cons_of_mem _ hm)) c
    exact lawful_plain h p (by revert hm; cases b.mode <;> simp [bodyModes]) (by simp)
  | comment data => exact lawful_insertComment h data
  | doctype d => exact lawful_refuse h _ (by simp)
  | startTag tag => exact lawful_bodyStart h hm hp
  | endTag tag => exact lawful_bodyEnd h hm hp
  | endOfFile => exact lawful_bodyEndOfFile h (mem_innerModes_of_bodyModes _ hm)

/-! ## 8. Templates -/

/-- A start tag takes another course than characters and the end of the document. -/
theorem Course.ofName_ne (name : String) :
    Course.ofName name ≠ .htmlEnd ∧ Course.ofName name ≠ .char := by
  unfold Course.ofName
  repeat' split
  all_goals exact ⟨by simp, by simp⟩

/-- The first tag in a template is not handed on again by the rules that it leads to. -/
theorem modeRank_templateModeFor (name : String) :
    modeRank (.ofName name) (templateModeFor name) = 0 := by
  have hparts : ∀ name ∈ ["caption", "colgroup", "tbody", "tfoot", "thead"],
      modeRank (.ofName name) .inTable = 0 := by decide
  unfold templateModeFor
  split
  · next hname => exact hparts name (List.contains_iff_mem.1 hname)
  · split
    · next hname => rw [hname]; rfl
    · split
      · next hname => rw [hname]; rfl
      · split
        · next hname => rcases hname with hname | hname <;> rw [hname] <;> rfl
        · exact if_neg (Course.ofName_ne name).1

theorem templateModeFor_mem (name : String) : templateModeFor name ∈ contentModes := by
  unfold templateModeFor
  repeat' split
  all_goals decide

/-- The mode of the innermost template is replaced. -/
theorem spine_templateMode (h : Spine b) (hm : b.mode = .inTemplate) {mode : InsertionMode}
    (hmode : mode ∈ contentModes) :
    Spine { b with mode, templateModes := mode :: b.templateModes.tail } := by
  have hs := h.steady (by rw [hm]; decide)
  obtain ⟨rest, hb⟩ := hs.bones_eq (p := .template) (by rw [hm]; rfl)
  have hframe := hs.1.frame
  rw [hb] at hframe
  obtain ⟨_, modes, hmodes, -, hrest⟩ := hframe.template_inv
  refine spine_of_steady ⟨h.planted, h.named, h.form, fun hok => ?_, h.running, h.intact⟩
    ⟨⟨?_, hs.1.seated, hs.1.furnished⟩, ?_⟩
  · have hnil := h.frameset hok
    rw [hmodes] at hnil
    cases hnil
  · change Frame (b.tree.bones b.openElements) (mode :: b.templateModes.tail)
    rw [hb, hmodes]
    exact .template hrest hmode
  · change mode.kind = modeOf (mode :: b.templateModes.tail) b.headElement.isSome
      (b.tree.bones b.openElements)
    rw [hb]
    rfl

theorem lawful_inTemplate (h : Spine b) (hm : b.mode = .inTemplate) :
    Lawful b token (b.inTemplate token) := by
  have hsteady : b.mode ∈ steadyModes := by rw [hm]; decide
  cases token with
  | character c =>
    have p := plain_bodyChar (h.ready (by rw [hm]; decide)) c
    exact lawful_plain h p (by simp [hm]) (by simp)
  | comment data => exact lawful_insertComment h data
  | doctype d => exact lawful_refuse h _ (by simp)
  | startTag tag =>
    simp only [inTemplate]
    split
    · next hhead =>
      exact lawful_startHeadContent h (h.begun (by rw [hm]; decide)) (by simp [hm])
        (fun _ => hsteady) (List.contains_iff_mem.1 hhead)
    · -- the mode is exchanged for the one that the tag belongs to, where it is not handed on
      have hmode := templateModeFor_mem tag.name
      refine lawful_reprocess (spine_templateMode h hm hmode) (rank_lt_of_modeRank (by simp) ?_)
        (quiet_of_ne rfl ?_)
      · change modeRank (.ofName tag.name) (templateModeFor tag.name) <
          modeRank (.ofName tag.name) b.mode
        rw [modeRank_templateModeFor, hm]
        exact Nat.one_pos
      · rintro (he : templateModeFor tag.name = .text)
        rw [he] at hmode
        revert hmode
        decide
  | endTag tag =>
    simp only [inTemplate]
    split
    · exact lawful_endTemplate h hsteady (by simp)
    · exact lawful_refuse h _ (by simp)
  | endOfFile => exact lawful_endOfFileInTemplate h (by rw [hm]; decide)

end Hypertext.TreeBuilder
