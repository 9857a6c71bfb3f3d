import Hypertext.Proofs.Dom.Neighbours
import Hypertext.Proofs.TreeBuilder.Adopted

/-!
# What elements hold

Every change leaves the nodes in elements that may hold them. So of whatever tokens a tree is made,
it is read off the label of an element what is in it.
-/

namespace Hypertext

open Hypertext.Tree

namespace TreeBuilder

variable {token : Token} {mode : InsertionMode} {b b' a : TreeBuilder} {cs : List Char}
  {p x y : NodeId}

/-! ## 1. Every change -/

/-- Forms and formatting elements are no parts, so the others keep theirs. -/
theorem ContentFits.remove (h : ContentFits b) {formatting : List FormattingEntry}
    (hid : ∃ name ∈ "form" :: Category.formatting, b.tree.label? x = some (.html, name)) :
    ContentFits { b.removeOpen x with formatting } := by
  obtain ⟨name, hname, hl⟩ := hid
  have hpart : b.tree.part? x = none := by
    have hall : ∀ name ∈ "form" :: Category.formatting, Part.ofName? name = none := by decide
    rw [part?_of_label hl, partOf_html, hall name hname]
  refine ⟨h.toStacked.filter (fun y hy => ?_) fun outer names _ hn => ?_, h.modelled⟩
  · have hy' := h.bottom y hy
    have hne : y ≠ x := by
      rintro rfl
      rw [hl] at hy'
      cases hy'
      exact absurd hname (by decide)
    simpa using hne
  · have hbones : b.tree.bones (outer.filter (· != x)) = b.tree.bones outer := by
      rw [Tree.bones, Tree.bones, List.filterMap_filter]
      refine List.filterMap_congr fun y _ => ?_
      by_cases hy : y = x
      · rw [hy, hpart, bne_self_eq_false]
        rfl
      · rw [if_pos (by simpa using hy)]
    rwa [hbones] at hn

theorem ContentFits.pushHead (h : ContentFits b) (hopen : b.openElements = [y])
    (hhead : b.tree.label? x = some (.html, "head"))
    (hm : b.mode ≠ .text) : ContentFits (b.push x) := by
  have hpart : b.tree.part? x = some .head := by rw [part?_of_label hhead]; decide
  have hname : ∀ name, b.tree.label? x = some (.html, name) → name = "head" := fun name hl => by
    rw [hhead] at hl
    cases hl
    rfl
  have hraw : "head" ∉ Content.raw b.scripting := by cases b.scripting <;> decide
  refine ⟨h.toStacked.cons hm (fun name hmem hl => ?_) (fun name hmem hl => ?_) (fun hstray => ?_)
    (fun hnil => ?_) (fun hnone => ?_), h.modelled⟩
  · rw [hname name hl] at hmem
    exact absurd hmem (by decide)
  · rw [hname name hl] at hmem
    exact absurd hmem hraw
  · exact absurd (hname "form" hstray.2.1) (by decide)
  · rw [hopen] at hnil
    cases hnil
  · rw [hpart] at hnone
    cases hnone

theorem ContentFits.openTemplate (h : ContentFits b) (hr : Rooted b) (hh : b.tree.Hollow)
    {attributes : List Attribute} {formatting : List FormattingEntry} {framesetOk : Bool}
    (hm : b.mode ≠ .text) (ht : Takes b (.html, "template"))
    (hcount : b.bones.count .template ≤ b.templateModes.length) :
    ContentFits { b.insertElement "template" attributes .html with
      formatting, framesetOk, mode := .inTemplate
      templateModes := .inTemplate :: b.templateModes } := by
  have hs : Spares b (.html, "template") := fun _ hname => absurd hname (by decide)
  obtain ⟨id, tree, heq, a, hmodelled, hold⟩ :=
    h.insertElement hr hh hm attributes ht (Or.inr (Or.inr hs))
  have hraw : "template" ∉ Content.raw b.scripting := by cases b.scripting <;> decide
  have hstack := h.open hr hh hm ht hs a hold (fun _ => by decide) InsertionMode.inTemplate
    (fun _ hname => absurd hname hraw) (Or.inl (suits_of_part (p := .template) rfl))
  rw [heq]
  refine ⟨hstack.retarget fun outer names hsuffix hn => regionNames_open (Nat.le_trans ?_ hcount)
    hn, hmodelled⟩
  have hbones : tree.bones b.openElements = b.bones :=
    Stacked.bones_congr fun x hx => a.label_of_lt (hr.anchored.lt hx)
  rw [← hbones]
  exact (hsuffix.sublist.filterMap _).count_le _

/-- A comment or a doctype goes where an element may go, or into the root or the
outermost element. -/
theorem ContentFits.leaf (h : ContentFits b) (hr : Rooted b) {data : NodeData} {place : Place}
    (hd : data.isComment = true ∨ data.isDoctype = true) (hp : PlacesLeaf b place)
    (hm : b.mode ≠ .text ∨ Outermost b place.parent) :
    ContentFits { b with
      tree := (b.tree.alloc data).2.insertAt place.parent place.before b.tree.size } := by
  have hf := hr.anchored.forest
  have a := adds_leaf hd hf (hp.lt hr)
  have htext : ((b.tree.alloc data).2.insertAt place.parent place.before b.tree.size).text?
      b.tree.size = none := by
    rw [Option.eq_none_iff_forall_ne_some]
    intro s hs
    rw [text?_eq_some, (put_leaf hf (hp.lt hr) hd place.before).2] at hs
    cases hs
    simp [NodeData.isComment, NodeData.isDoctype] at hd
  -- neither the document nor the document element is void, raw or a stray form
  have houtermost : Outermost b place.parent → b.tree.Receptive b.scripting place.parent := by
    rintro (hroot | ⟨-, hl⟩)
    · rw [hroot]
      exact (h.modelled.inherited_receptive hf).root
    · exact receptive_of_html hl
  refine ⟨h.toStacked.adds hf a fun x hx => hr.anchored.lt hx,
    h.modelled.adds hf a (hp.lt hr) ?_ room_none htext⟩
  obtain hm | hm := hm
  · obtain rfl | ⟨-, hp⟩ := hp
    · exact h.receptive_place hr fun _ => h.receptive hm
    · exact houtermost hp
  · exact houtermost hm

/-- The document mode is set before there is an element. -/
theorem ContentFits.setMode (hr : Rooted b) (documentMode : DocumentMode)
    (hblank : ∀ x, b.tree.label? x = none) :
    ContentFits { b with tree := b.tree.setMode documentMode } := by
  have s := sameShape_setMode hr.anchored.forest.linked documentMode
  have hempty : b.openElements = [] := List.eq_nil_iff_forall_not_mem.2 fun x hx => by
    have helement := hr.anchored.element x hx
    rw [hblank x] at helement
    cases helement
  refine ⟨?_, modelled_of_unlabelled fun x => (s.label x).trans (hblank x)⟩
  change Stacked _ _ _ _ b.openElements
  rw [hempty]
  exact ⟨by simp, by simp, by simp, by simp, True.intro⟩

theorem ContentChange.contentFits (d : ContentChange b b') (hr : Rooted b) (hh : b.tree.Hollow)
    (ht : ParagraphsApart b) (h : ContentFits b) : ContentFits b' := by
  cases d with
  | ease d => exact d.contentFits h
  | remove hid => exact h.remove hid
  | dropHead hopen hhead hhtml => exact h.dropHead hr hopen hhead hhtml
  | pushHead hopen hhead hm => exact h.pushHead hopen hhead hm
  | @insert name attributes ns formatting framesetOk ho =>
    obtain ⟨id, tree, heq, a, hmodelled, hold⟩ :=
      h.insertElement hr hh ho.mode attributes ho.takes (Or.inr (Or.inr ho.spares))
    have hstack := h.open hr hh ho.mode ho.takes ho.spares a hold (fun hns => (ho.plain hns).1)
      b.mode (fun hns hraw => absurd hraw (ho.plain hns).2) (Or.inl ho.suits)
    rw [heq]
    exact ⟨hstack, hmodelled⟩
  -- a void element is not opened, so the stack is the old one
  | @void name attributes hname hm htakes hs =>
    obtain ⟨id, tree, heq, a, hmodelled, hold⟩ := h.insertElement hr hh hm attributes htakes
      (hs.imp_left fun hform => by rw [hform])
    rw [heq]
    exact ⟨hold, hmodelled⟩
  | @startText name attributes hname hm htakes hs =>
    obtain ⟨id, tree, heq, a, hmodelled, hold⟩ :=
      h.insertElement hr hh hm attributes htakes (Or.inr (Or.inr hs))
    have hstack := h.open hr hh hm htakes hs a hold (fun _ => Content.raw_not_void name hname)
      InsertionMode.text (fun _ _ => rfl) (Or.inr ⟨rfl, hname⟩)
    rw [heq]
    exact ⟨hstack, hmodelled⟩
  | openTemplate hm htakes hcount => exact h.openTemplate hr hh hm htakes hcount
  | @retarget rest mode' hmodes hm =>
    refine ⟨(h.toStacked.switch hm mode').retarget fun outer names _ hn => ?_, h.modelled⟩
    rw [hmodes]
    exact regionNames_retarget hn
  | leaf hd hp hm => exact h.leaf hr hd hp hm
  | setMode documentMode hblank => exact ContentFits.setMode hr documentMode hblank
  | adopt ha hm hw => exact h.adopts ha hr hh ht hm hw

/-- A character goes where an element may go, or into the innermost open element. -/
theorem ContentFits.receptive_or_mem (h : ContentFits b) (hr : Rooted b) :
    b.tree.Receptive b.scripting b.place.parent ∨ b.place.parent ∈ b.openElements ∧
    b.place.before = none := by
  -- an element of raw text is the innermost open element, and text goes straight into it
  by_cases hraw : ∃ x ∈ b.openElements, ∃ name ∈ Content.raw b.scripting,
    b.tree.label? x = some (.html, name)
  · obtain ⟨x, hx, name, hname, hl⟩ := hraw
    have hnot := (h.raw x hx name hname hl).2
    have hpart : b.tree.part? x = none := by
      have hall : ∀ name ∈ Content.raw b.scripting, Part.ofName? name = none := by
        cases b.scripting <;> decide
      rw [part?_of_label hl, partOf_html, hall name hname]
    obtain ⟨y, outer, hopen⟩ := List.exists_cons_of_ne_nil (List.ne_nil_of_mem hx)
    rw [hopen] at hx hnot
    obtain rfl : x = y := (List.mem_cons.1 hx).resolve_right hnot
    have hplace : b.place = ⟨x, none⟩ := by
      rw [place, currentNode?, hopen]
      exact placeIn_eq fun p hp => by
        rw [List.head?_cons, Option.getD_some, hpart] at hp
        cases hp
    rw [hplace, hopen]
    exact Or.inr ⟨List.mem_cons_self .., rfl⟩
  · refine Or.inl (h.receptive_place hr fun x hx => ⟨h.void x hx, fun name hname hl => ?_,
      h.stray x hx⟩)
    exact hraw ⟨x, hx, name, hname, hl⟩

/-- Where text has to be blank, nothing else is put. -/
theorem ContentFits.blank_place (h : ContentFits b) (hr : Rooted b) (hh : b.tree.Hollow) {c : Char}
    (hc : TakesChar b c) (hp : b.tree.part? b.place.parent ∈ spaced) : isSpace c = true := by
  have hno : b.tree.label? b.place.parent ≠ none := fun hnone => by
    rw [part?, hnone] at hp
    simp [spaced] at hp
  cases hopen : b.openElements with
  | nil =>
    rw [place_of_empty hr.anchored.forest hopen] at hno
    exact absurd hr.anchored.forest.label?_root hno
  | cons y outer =>
    have hplace : b.place = b.placeIn y := by rw [place, currentNode?, hopen]; rfl
    rw [hplace] at hp hno
    obtain hnone | ⟨-, hhospitable⟩ | ⟨hredirect, heq, -⟩ := h.placeIn_cases hr hh y
    · exact absurd hnone hno
    · -- what holds a table is none of these parts
      obtain ⟨lp, hlp⟩ := Option.ne_none_iff_exists'.1 hno
      have hnone := (hhospitable lp hlp).1
      rw [part?_of_label hlp] at hp
      have hall : ∀ q ∈ spaced, q.bind Part.contents? ≠ none := by decide
      exact absurd hnone (hall _ hp)
    · rw [heq] at hp
      exact (hc.holds y (by simp [hopen]) hp).resolve_left hredirect

theorem contentFits_insertChar (hr : Rooted b) (hh : b.tree.Hollow) (hp : b.place.parent ≠ root)
    {c : Char} (hc : TakesChar b c) (h : ContentFits b) : ContentFits (b.insertChar c) := by
  have hf := hr.anchored.forest
  have hblank : b.tree.part? b.place.parent ∈ spaced →
      ∀ c' ∈ c.toString.toList, isSpace c' = true := by
    intro hpart c' hc'
    obtain rfl : c' = c := by simpa using hc'
    exact h.blank_place hr hh hc hpart
  obtain ⟨tree, heq, ⟨prev, old, hprev, hold, rfl⟩ | ⟨hnone, a, htext⟩⟩ :=
    insertChar_cases hr.anchored hp c
  · rw [heq]
    have hparent := hf.linked.parent_of_preceding hprev
    have hmodelled := h.modelled.setText hf hold fun p hp => by
      obtain rfl : p = b.place.parent := Option.some.inj (hp.symm.trans hparent)
      exact hblank
    have s : SameShape b.tree (b.tree.setData prev (.text (old ++ c.toString))) :=
      sameShape_setText hf.linked hold
    have hmode := (insertChar_elements hr.anchored hp c).1
    rw [heq] at hmode
    refine ⟨h.toStacked.congr (fun x _ => s.label x) (fun x _ ⟨hm, hl, q, hq, hlq⟩ => ?_) fun _ =>
      Reopened.sameShape s, hmodelled⟩
    rw [s.label] at hl hlq
    rw [s.parent] at hq
    exact ⟨hmode ▸ hm, hl, q, hq, hlq⟩
  · rw [heq]
    refine ⟨h.toStacked.adds hf a fun x hx => hr.anchored.lt hx, ?_⟩
    obtain hrec | ⟨hmem, hend⟩ := h.receptive_or_mem hr
    · exact h.modelled.adds_text hf a (place_lt hr.anchored) htext hrec.void hrec.stray
        (fun name hname hl => absurd hl (hrec.raw name hname)) hblank
    · refine h.modelled.adds_text hf a (place_lt hr.anchored) htext (h.void _ hmem) (h.stray _ hmem)
        (fun name hname hl y hy => ?_) hblank
      -- the only child would be a text that takes the character
      obtain ⟨hsome, honly⟩ := (h.modelled y b.place.parent hy).raw name hname hl
      have hne : b.tree.children b.place.parent ≠ [] :=
        List.ne_nil_of_mem ((hf.linked.mem_children _ _).2 hy)
      have hlast : b.tree.preceding? b.place.parent b.place.before =
          some ((b.tree.children b.place.parent).getLast hne) := by
        rw [hend]
        exact List.getLast?_eq_some_getLast hne
      rw [← honly _ (hf.linked.parent_of_preceding hlast), hnone _ hlast] at hsome
      cases hsome

/-! ## 2. Every token -/

theorem ContentChanges.contentFits (h : ContentChanges token mode b cs a) (hr : Rooted b)
    (hh : b.tree.Hollow) (hl : b.tree.Leafy)
    (ht : ParagraphsApart b) (hb : ContentFits b) : ContentFits a := by
  induction h with
  | refl => exact hb
  | step h _ d ih =>
    exact d.contentFits (h.rooted hr) (kept_hollow.acts trivial trivial h.acts hr hl hh)
      (h.paragraphsApart hr ht) ih
  | char h hp hc ih =>
    exact contentFits_insertChar (h.rooted hr) (kept_hollow.acts trivial trivial h.acts hr hl hh)
      hp hc ih

theorem Round.contentFits {o : Outcome} (r : Round b token o) (hh : b.tree.Hollow)
    (h : ContentFits b) : ContentFits o.builder := by
  obtain ⟨text, fostering, cs, -, hchanges, -⟩ := r.performs
  have hr := r.working.rooted text
  have ht : ContentFits { o.builder with fostering } :=
    hchanges.contentFits ⟨hr.anchored, hr.named⟩ hh r.working.leafy
    ⟨r.working.paragraphsApart.apart, r.working.paragraphsApart.based⟩ ⟨h.toStacked, h.modelled⟩
  exact ⟨ht.toStacked, ht.modelled⟩

theorem Rounds.contentFits {o : Outcome} (r : Rounds b token o b') (hh : b.tree.Hollow)
    (h : ContentFits b) : ContentFits b' := by
  induction r with
  | last r _ => exact r.contentFits hh h
  | more r _ _ _ ih => exact ih (kept_hollow.round trivial r hh) (r.contentFits hh h)

theorem Reachable.contentFits (h : Reachable b) : ContentFits b := by
  induction h with
  | start scripting srcdoc =>
    exact ⟨⟨nofun, nofun, nofun, nofun, True.intro⟩, modelled_of_unlabelled label?_empty⟩
  | @process b b' t h hp ih =>
    obtain hspine | hh := h.valid
    · have hw : Working b := ⟨h.prepared, hspine⟩
      obtain ⟨-, -, rfl⟩ | ⟨-, rfl⟩ := hw.process_cases hp
      · exact ⟨ih.toStacked, ih.modelled⟩
      · have ht := ((hw.receive t).rounds t.token).contentFits h.hollow ⟨ih.toStacked, ih.modelled⟩
        obtain ⟨errors, he⟩ := release_eq ((b.receive t).dispatch t.token)
        rw [he]
        exact ⟨ht.toStacked, ht.modelled⟩
    · rw [hh.process t] at hp
      cases hp
  | takeStateRequest _ ih => exact ⟨ih.toStacked, ih.modelled⟩
  | absorbErrors errors _ ih => exact ⟨ih.toStacked, ih.modelled⟩

/-! ## 3. Restricted content -/

/-- Void elements have no children, and raw text elements at most a text. Only options, their groups
and what does not show are in a select element, and only frames, more framesets and text for other
browsers in a frameset. -/
theorem restricted_of_reachable (h : Reachable b) :
    (∀ x, ∀ name ∈ Content.void, b.isHtml name x = true → b.tree.children x = []) ∧
    (∀ x, ∀ name ∈ Content.raw b.scripting, b.isHtml name x = true →
      b.tree.children x = [] ∨ ∃ y s, b.tree.children x = [y] ∧ b.tree.text? y = some s) ∧
    (∀ x y l, b.isHtml "select" x = true → y ∈ b.tree.children x → b.tree.label? y = some l →
      l.1 = .html ∧ l.2 ∈ ["option", "optgroup", "hr", "script", "template"]) ∧
    ∀ x y l, b.isHtml "frameset" x = true → y ∈ b.tree.children x → b.tree.label? y = some l →
      l.1 = .html ∧ l.2 ∈ ["frameset", "frame", "noframes"] := by
  have hlinked := h.valid.planted.forest.linked
  have hm := h.contentFits.modelled
  have hholds : ∀ {x y name names l}, (Part.ofName? name).bind Part.contents? = some names →
      b.isHtml name x = true → y ∈ b.tree.children x → b.tree.label? y = some l →
      l.1 = .html ∧ l.2 ∈ names := by
    intro x y name names l hnames hx hy hl
    have hholds := (hm y x ((hlinked.mem_children x y).1 hy)).holds l _ hl (isHtml_iff.1 hx)
    unfold Holds at hholds
    rwa [partOf_html, hnames] at hholds
  refine ⟨fun x name hname hx => ?_, fun x name hname hx => ?_, fun x y l hx => hholds rfl hx,
    fun x y l hx => hholds rfl hx⟩
  · rw [List.eq_nil_iff_forall_not_mem]
    exact fun y hy => (hm y x ((hlinked.mem_children x y).1 hy)).void name hname (isHtml_iff.1 hx)
  · cases hchildren : b.tree.children x with
    | nil => exact Or.inl rfl
    | cons y rest =>
      have hparent : ∀ z ∈ y :: rest, b.tree.parent? z = some x := fun z hz =>
        (hlinked.mem_children x z).1 (hchildren ▸ hz)
      have hy := hparent y (List.mem_cons_self ..)
      obtain ⟨htext, honly⟩ := (hm y x hy).raw name hname (isHtml_iff.1 hx)
      obtain ⟨s, hs⟩ := Option.isSome_iff_exists.1 htext
      -- a second child would be the first one again
      have hrest : rest = [] := List.eq_nil_iff_forall_not_mem.2 fun z hz => by
        have hnodup := hlinked.nodup x
        rw [hchildren] at hnodup
        have hzy := honly z (hparent z (List.mem_cons_of_mem _ hz))
        exact (List.nodup_cons.1 hnodup).1 (hzy ▸ hz)
      rw [hrest]
      exact Or.inr ⟨y, s, rfl, hs⟩

/-- A title, a line break and an option. -/
def titledOption : List Token :=
  [.startTag { name := "title" }, .character 'x', .endTag { name := "title" },
    .startTag { name := "br" }, .startTag { name := "select" }, .startTag { name := "option" }]

theorem restricted_titledOption : ∃ b, feed {} titledOption = .ok b ∧
    (∃ x ∈ List.range b.tree.size, b.isHtml "br" x = true) ∧
    (∃ x ∈ List.range b.tree.size, b.isHtml "title" x = true ∧ b.tree.children x ≠ []) ∧
    (∃ x ∈ List.range b.tree.size, b.isHtml "select" x = true ∧ b.tree.children x ≠ []) ∧
    (∀ x, ∀ name ∈ Content.void, b.isHtml name x = true → b.tree.children x = []) ∧
    (∀ x, ∀ name ∈ Content.raw b.scripting, b.isHtml name x = true →
      b.tree.children x = [] ∨ ∃ y s, b.tree.children x = [y] ∧ b.tree.text? y = some s) ∧
    (∀ x y l, b.isHtml "select" x = true → y ∈ b.tree.children x → b.tree.label? y = some l →
      l.1 = .html ∧ l.2 ∈ ["option", "optgroup", "hr", "script", "template"]) ∧
    ∀ x y l, b.isHtml "frameset" x = true → y ∈ b.tree.children x → b.tree.label? y = some l →
      l.1 = .html ∧ l.2 ∈ ["frameset", "frame", "noframes"] := by
  obtain ⟨b, hb, hbr, htitle, hselect⟩ := exists_ok (feed {} titledOption)
    (fun b => (∃ x ∈ List.range b.tree.size, b.isHtml "br" x = true) ∧
      (∃ x ∈ List.range b.tree.size, b.isHtml "title" x = true ∧ b.tree.children x ≠ []) ∧
      ∃ x ∈ List.range b.tree.size, b.isHtml "select" x = true ∧ b.tree.children x ≠ [])
    (by with_unfolding_all decide)
  exact ⟨b, hb, hbr, htitle, hselect, restricted_of_reachable (.feed (.start false false) hb)⟩

/-! ## 4. Tables -/

/-- What holds a piece of a table, if it does not hold all that is none. -/
theorem Reachable.parent_of_piece (h : Reachable b) {name : String}
    (hname : name ∈ Category.tableStructure)
    (hx : b.tree.label? x = some (.html, name)) (hp : b.tree.parent? x = some p) :
    (∃ q names, b.tree.part? p = some q ∧ q.contents? = some names ∧ name ∈ names) ∨
    b.tree.IsContents p ∨
      name = "col" ∧ b.tree.Reopened p := by
  have hplanted := h.valid.planted
  have hlinked := hplanted.forest.linked
  cases hl : b.tree.label? p with
  | none =>
    -- a document holds no such thing, so these are contents
    obtain rfl | hlabel | hfragment := h.prepared.leafy p x hp
    · have hne : (Namespace.html, name) ≠ (.html, "html") := by
        rintro heq
        cases heq
        exact absurd hname (by decide)
      exact absurd ((hlinked.mem_children root x).2 hp) (hplanted.upright.not_mem_root hx hne)
    · rw [hl] at hlabel
      cases hlabel
    · obtain ⟨host, hhost⟩ := h.hollow.hosted p hfragment
      exact Or.inr (Or.inl ⟨host, (h.hollow.contents host).1
        (Option.isSome_iff_exists.2 ⟨p, hhost⟩), hhost⟩)
  | some lp =>
    have ha := h.contentFits.modelled x p hp
    have hholds := ha.holds _ lp hx hl
    unfold Holds at hholds
    split at hholds
    · next names hnames =>
      obtain ⟨q, hq, hcontents⟩ := Option.bind_eq_some_iff.1 hnames
      exact Or.inl ⟨q, names, (part?_of_label hl).trans hq, hcontents, hholds.2⟩
    · obtain hflow | ⟨hcol, hns, hformatting⟩ := hholds
      · exact absurd hname (hflow rfl)
      · obtain ⟨-, rfl⟩ := Prod.mk.inj hcol
        refine Or.inr (Or.inr ⟨rfl, ha.reopened hx lp.2 hformatting ?_⟩)
        rw [hl, ← hns]

theorem tables_of_reachable (h : Reachable b) : b.tree.TablesFit := by
  have hm := h.contentFits.modelled
  -- there is one part that holds the piece
  have hpiece : ∀ {x p name q}, name ∈ Category.tableStructure → name ≠ "col" →
      (∀ q' ∈ Part.all, ∀ names, q'.contents? = some names → name ∈ names → q' = q) →
      b.tree.label? x = some (.html, name) → b.tree.parent? x = some p →
      b.tree.part? p = some q ∨ b.tree.IsContents p := by
    intro x p name q hname hcol hall hx hp
    obtain ⟨q', names, hpart, hcontents, hmem⟩ | hcontents | ⟨heq, -⟩ :=
      h.parent_of_piece hname hx hp
    · obtain rfl := hall q' (by cases q' <;> decide) names hcontents hmem
      exact Or.inl hpart
    · exact Or.inr hcontents
    · exact absurd heq hcol
  have hin : ∀ {x p name names l}, (Part.ofName? name).bind Part.contents? = some names →
      b.tree.label? p = some (.html, name) → b.tree.parent? x = some p → b.tree.label? x = some l →
      l.1 = .html ∧ l.2 ∈ names := by
    intro x p name names l hnames hp hx hl
    have hholds := (hm x p hx).holds l _ hl hp
    unfold Holds at hholds
    rwa [partOf_html, hnames] at hholds
  have hlabel : ∀ {p q name}, q.names = [name] → b.tree.part? p = some q →
      b.tree.label? p = some (.html, name) := by
    intro p q name hnames hpart
    obtain ⟨name', hname', hl⟩ := part?_eq_some.1 hpart
    rw [hnames, List.mem_singleton] at hname'
    rw [hl, hname']
  refine { cell := ?_, row := ?_, piece := ?_, column := ?_, inTable := ?_, inRowGroup := ?_,
           inRow := ?_, blank := ?_ }
  · intro x p name hname hx hp
    have hall : ∀ name ∈ ["td", "th"], name ∈ Category.tableStructure ∧ name ≠ "col" ∧
        ∀ q ∈ Part.all, ∀ names, q.contents? = some names → name ∈ names → q = .row := by decide
    obtain ⟨hstructure, hcol, hrow⟩ := hall name hname
    exact (hpiece hstructure hcol hrow hx hp).imp_left (hlabel rfl)
  · intro x p hx hp
    refine (hpiece (q := .rowGroup) (by decide) (by decide) (by decide) hx hp).imp_left fun hpart =>
      ?_
    obtain ⟨name, hname, hl⟩ := part?_eq_some.1 hpart
    have hall : ∀ name ∈ Part.rowGroup.names, name ∈ ["tbody", "thead", "tfoot"] := by decide
    exact ⟨name, hall name hname, hl⟩
  · intro x p name hname hx hp
    have hall : ∀ name ∈ ["tbody", "thead", "tfoot", "caption", "colgroup"],
        name ∈ Category.tableStructure ∧ name ≠ "col" ∧
        ∀ q ∈ Part.all, ∀ names, q.contents? = some names → name ∈ names → q = .table := by decide
    obtain ⟨hstructure, hcol, htable⟩ := hall name hname
    exact (hpiece hstructure hcol htable hx hp).imp_left (hlabel rfl)
  · intro x p hx hp
    obtain ⟨q, names, hpart, hcontents, hmem⟩ | hcontents | ⟨-, hreopened⟩ :=
      h.parent_of_piece (by decide) hx hp
    · have hall : ∀ q ∈ Part.all, ∀ names, q.contents? = some names → "col" ∈ names →
          q = .columns := by decide
      obtain rfl := hall q (by cases q <;> decide) names hcontents hmem
      exact Or.inl (hlabel rfl hpart)
    · exact Or.inr (Or.inl hcontents)
    · exact Or.inr (Or.inr hreopened)
  · intro x p l hl hx hlx
    have hall : ∀ name ∈ ["caption", "colgroup"] ++ Category.tableSections ++ Content.tableExtras,
        name ∈ ["caption", "colgroup", "tbody", "thead", "tfoot", "style", "script", "template",
          "input", "form"] := by
      decide
    exact (hin rfl hl hx hlx).imp_right (hall l.2)
  · intro x p l name hname hl hx hlx
    have hall : ∀ name ∈ ["tbody", "thead", "tfoot"],
        (Part.ofName? name).bind Part.contents? = some ("tr" :: Content.tableExtras) := by decide
    exact hin (hall name hname) hl hx hlx
  · intro x p l hl hx hlx
    have hnames : (Part.ofName? "tr").bind Part.contents? =
        some ("td" :: "th" :: Content.tableExtras) := rfl
    exact hin hnames hl hx hlx
  · intro x p s name hname hl hx hs
    have hall : ∀ name ∈ ["table", "tbody", "thead", "tfoot", "tr"],
        Part.ofName? name ∈ spaced := by decide
    refine (hm x p hx).blank ?_ s hs
    rw [part?_of_label hl, partOf_html]
    exact hall name hname

/-- Columns, and a row with space in it. -/
def columnsAndRow : List Token :=
  [.startTag { name := "table" }, .startTag { name := "col" }, .startTag { name := "tr" },
    .character ' ', .startTag { name := "td" }, .character 'x']

theorem tables_columnsAndRow : ∃ b, feed {} columnsAndRow = .ok b ∧
    b.openNames = ["html", "body", "table", "tbody", "tr", "td"] ∧
    (∃ x ∈ List.range b.tree.size, b.tree.label? x = some (.html, "col")) ∧ b.tree.TablesFit := by
  obtain ⟨b, hb, hopen, hcol⟩ := exists_ok (feed {} columnsAndRow)
    (fun b => b.openNames = ["html", "body", "table", "tbody", "tr", "td"] ∧
      ∃ x ∈ List.range b.tree.size, b.tree.label? x = some (.html, "col"))
      (by with_unfolding_all decide)
  exact ⟨b, hb, hopen, hcol, tables_of_reachable (.feed (.start false false) hb)⟩

/-- A formatting element that is left open in a template, text after that, and a column. -/
def reopenedBold : List Token :=
  [.startTag { name := "template" }, .startTag { name := "template" }, .startTag { name := "b" },
    .startTag { name := "object" }, .endTag { name := "template" }, .character 'x',
    .startTag { name := "col" }]

/-- A column does not only come to be in a column group or in the contents of a template. -/
theorem column_reopenedBold : ∃ b, feed {} reopenedBold = .ok b ∧ Reachable b ∧ ∃ x p,
    b.tree.label? x = some (.html, "col") ∧ b.tree.parent? x = some p ∧
    b.tree.label? p = some (.html, "b") ∧
      ¬ b.tree.IsContents p := by
  obtain ⟨b, hb, hx, hp, hl⟩ := exists_ok (feed {} reopenedBold)
    (fun b => b.tree.label? 11 = some (.html, "col") ∧ b.tree.parent? 11 = some 9 ∧
      b.tree.label? 9 = some (.html, "b")) (by with_unfolding_all decide)
  have hr : Reachable b := .feed (.start false false) hb
  refine ⟨b, hb, hr, 11, 9, hx, hp, hl, fun ⟨host, _, hcontents⟩ => ?_⟩
  exact ne_fragment_of_label hl (hr.valid.planted.forest.fragment host 9 hcontents)

/-! ## 5. Paragraphs -/

/-- Outside quirks mode no block is in a paragraph, besides a form that was put there between the
parts of a table, and that is empty. -/
theorem paragraphs_of_reachable (h : Reachable b) (hm : b.tree.mode ≠ .quirks) :
    ∀ p x, b.tree.label? p = some (.html, "p") → x ∈ b.tree.children p → ∀ name ∈ Content.block,
      b.tree.label? x = some (.html, name) → name = "form" ∧ b.tree.children x = [] := by
  intro p x hp hx name hname hl
  have hlinked := h.valid.planted.forest.linked
  have ha := h.contentFits.modelled x p ((hlinked.mem_children p x).1 hx)
  obtain ⟨hform, hnone⟩ := ha.block hm hp name hname hl
  refine ⟨hform, List.eq_nil_iff_forall_not_mem.2 fun y hy => ?_⟩
  exact hnone y ((hlinked.mem_children x y).1 hy)

/-- A form in a paragraph before a table. -/
def straightForm : List Token :=
  [.doctype { name := some "html" }, .startTag { name := "table" }, .startTag { name := "p" },
    .startTag { name := "form" }]

theorem paragraphs_straightForm : ∃ b, feed {} straightForm = .ok b ∧ b.tree.mode ≠ .quirks ∧
    (∃ p ∈ List.range b.tree.size, b.tree.label? p = some (.html, "p") ∧ b.tree.children p ≠ []) ∧
    ∀ p x, b.tree.label? p = some (.html, "p") → x ∈ b.tree.children p → ∀ name ∈ Content.block,
      b.tree.label? x = some (.html, name) → name = "form" ∧ b.tree.children x = [] := by
  obtain ⟨b, hb, hm, hp⟩ := exists_ok (feed {} straightForm)
    (fun b => b.tree.mode ≠ .quirks ∧
      ∃ p ∈ List.range b.tree.size, b.tree.label? p = some (.html, "p") ∧ b.tree.children p ≠ [])
    (by with_unfolding_all decide)
  exact ⟨b, hb, hm, hp, paragraphs_of_reachable (.feed (.start false false) hb) hm⟩

/-- A block does come to be in a paragraph outside quirks mode. -/
theorem form_straightForm :
    ∃ b, feed {} straightForm = .ok b ∧ Reachable b ∧ b.tree.mode = .noQuirks ∧
    b.mode ≠ .initial ∧ "form" ∈ Content.block ∧ ∃ p x, b.tree.label? p = some (.html, "p") ∧
      x ∈ b.tree.children p ∧ b.tree.label? x = some (.html, "form") := by
  obtain ⟨b, hb, hdocument, hm, hp, hx, hl⟩ := exists_ok (feed {} straightForm)
    (fun b => b.tree.mode = .noQuirks ∧ b.mode ≠ .initial ∧ b.tree.label? 6 = some (.html, "p") ∧
      7 ∈ b.tree.children 6 ∧ b.tree.label? 7 = some (.html, "form")) (by with_unfolding_all decide)
  exact ⟨b, hb, .feed (.start false false) hb, hdocument, hm, by decide, 6, 7, hp, hx, hl⟩

end TreeBuilder

end Hypertext
