import Hypertext.Proofs.TreeBuilder.Additions
import Hypertext.Proofs.TreeBuilder.ContentChanges

/-!
# Paragraphs end where blocks begin

A rule that opens a block closes the paragraph that is in button scope first. That none is left
there afterwards relies on how blocks were opened before: a paragraph is a block, too.
-/

namespace Hypertext

open Hypertext.Tree

/-! ## 1. Paragraphs in scope -/

namespace Tree

/-- No paragraph is in button scope. -/
def Parted (t : Tree) (stack : List NodeId) : Prop :=
  TreeBuilder.searchScope t .button (fun _ e => e.isHtml "p") stack = false

/-- The search for a paragraph goes on behind this element, unless it is one. -/
def Passable (t : Tree) (x : NodeId) : Prop :=
  ∀ e, t.element? x = some e → Scope.button.isBoundary e = false

variable {t t' : Tree} {x : NodeId} {above stack outer outer' : List NodeId}

theorem passable_of_label {name : String} (hx : t.label? x = some (.html, name))
    (hname : name ∉ "button" :: Scope.generalHtml) : t.Passable x := by
  intro e he
  rw [label?, he] at hx
  obtain ⟨hns, htag⟩ := Prod.mk.inj (Option.some.inj hx)
  simp only [List.mem_cons, not_or] at hname
  simp [Scope.isBoundary, Scope.isGeneralBoundary, Element.isHtml, hns, htag, hname]

theorem passable_of_formatting {name : String} (hname : name ∈ Category.formatting)
    (hx : t.label? x = some (.html, name)) : t.Passable x := by
  have hall : ∀ name ∈ Category.formatting, name ∉ "button" :: Scope.generalHtml := by decide
  exact passable_of_label hx (hall name hname)

/-- All elements that bound a scope are special. -/
theorem passable_of_ordinary (hx : (t.element? x).any Category.isSpecial = false) :
    t.Passable x := by
  intro e he
  rw [he, Option.any_some, Category.isSpecial] at hx
  have hall : ∀ name ∈ "button" :: Scope.generalHtml, name ∈ Category.specialHtml := by decide
  unfold Scope.isBoundary Scope.isGeneralBoundary Element.isHtml
  cases hns : e.ns with
  | html =>
    have hnot : e.tagName ∉ "button" :: Scope.generalHtml := fun hmem => by
      have := hall _ hmem
      simp [hns, this] at hx
    simp only [List.mem_cons, not_or] at hnot
    simp [hnot]
  | mathml =>
    rw [hns] at hx
    simpa using hx
  | svg =>
    rw [hns] at hx
    simpa using hx

/-- Searches look at labels only. -/
theorem boundary_congr {e e' : Element} (h : (e'.ns, e'.tagName) = (e.ns, e.tagName)) :
    e'.isHtml "p" = e.isHtml "p" ∧ Scope.button.isBoundary e' = Scope.button.isBoundary e := by
  obtain ⟨hns, htag⟩ := Prod.mk.inj h
  simp only [Scope.isBoundary, Scope.isGeneralBoundary, Element.isHtml, hns, htag, and_self]

theorem Passable.congr (h : t.Passable x) (hl : t'.label? x = t.label? x) : t'.Passable x := by
  intro e' he'
  rw [label?, he', Option.map_some, label?, eq_comm, Option.map_eq_some_iff] at hl
  obtain ⟨e, he, hpair⟩ := hl
  rw [(boundary_congr hpair.symm).2]
  exact h e he

theorem parted_congr (hl : ∀ x ∈ stack, t'.label? x = t.label? x) :
    t'.Parted stack ↔ t.Parted stack := by
  induction stack with
  | nil => exact Iff.rfl
  | cons x outer ih =>
    have ih := ih fun y hy => hl y (List.mem_cons_of_mem _ hy)
    have hx := hl x (List.mem_cons_self ..)
    unfold Parted at ih ⊢
    simp only [TreeBuilder.searchScope]
    rw [label?, label?] at hx
    -- the search looks at labels only
    cases he : t.element? x with
    | none =>
      rw [he, Option.map_none, Option.map_eq_none_iff] at hx
      simpa only [hx] using ih
    | some e =>
      rw [he, Option.map_some, Option.map_eq_some_iff] at hx
      obtain ⟨e', he', hpair⟩ := hx
      obtain ⟨hp, hb⟩ := boundary_congr hpair
      simp only [he', hp, hb]
      by_cases h : e.isHtml "p" = true <;> by_cases hend : Scope.button.isBoundary e = true <;>
        simp [h, hend, ih]

theorem Parted.cons (h : t.Parted outer) (hx : t.label? x ≠ some (.html, "p")) :
    t.Parted (x :: outer) := by
  unfold Parted at h ⊢
  rw [TreeBuilder.searchScope]
  split
  · exact h
  · next e he =>
    split
    · next hp => exact absurd (TreeBuilder.isHtml_iff (b := { tree := t }).1
        ((TreeBuilder.isHtml_of_element (b := { tree := t }) he "p").trans hp)) hx
    · split
      · rfl
      · exact h

theorem Parted.append (h : t.Parted outer) (ha : ∀ x ∈ above, t.label? x ≠ some (.html, "p")) :
    t.Parted (above ++ outer) := by
  induction above with
  | nil => exact h
  | cons x above ih =>
    exact (ih fun y hy => ha y (List.mem_cons_of_mem _ hy)).cons (ha x (List.mem_cons_self ..))

theorem Parted.of_cons (h : t.Parted (x :: outer)) (hx : t.Passable x) : t.Parted outer := by
  unfold Parted at h ⊢
  rw [TreeBuilder.searchScope] at h
  split at h
  · exact h
  · next e he =>
    split at h
    · cases h
    · rwa [if_neg (by rw [hx e he]; exact Bool.false_ne_true)] at h

theorem Parted.of_append (h : t.Parted (above ++ outer)) (ha : ∀ x ∈ above, t.Passable x) :
    t.Parted outer := by
  induction above with
  | nil => exact h
  | cons x above ih =>
    exact ih (h.of_cons (ha x (List.mem_cons_self ..))) fun y hy => ha y (List.mem_cons_of_mem _ hy)

/-- A paragraph is in scope of itself. -/
theorem Parted.label_ne (h : t.Parted (x :: outer)) : t.label? x ≠ some (.html, "p") := by
  intro hx
  have hp := TreeBuilder.isHtml_iff (b := { tree := t }).2 hx
  obtain ⟨e, he, hp⟩ := (Option.any_eq_true _ _).1 hp
  unfold Parted at h
  simp [TreeBuilder.searchScope, he, hp] at h

/-- What counts outside some elements is only whether a paragraph is in scope there. -/
theorem Parted.mono (h : t.Parted (above ++ outer)) (ho : t.Parted outer → t.Parted outer') :
    t.Parted (above ++ outer') := by
  induction above with
  | nil => exact ho h
  | cons x above ih =>
    rw [List.cons_append] at h ⊢
    by_cases hx : t.Passable x
    · exact (ih (h.of_cons hx)).cons h.label_ne
    · -- the search ends here
      have hp := h.label_ne
      unfold Passable at hx
      push Not at hx
      obtain ⟨e, he, hb⟩ := hx
      have hnot : e.isHtml "p" = false := Bool.eq_false_iff.2 fun hp' => hp
        (TreeBuilder.isHtml_iff (b := { tree := t }).1
          ((TreeBuilder.isHtml_of_element (b := { tree := t }) he "p").trans hp'))
      simp [Parted, TreeBuilder.searchScope, he, hnot, hb]

theorem Parted.filter (h : t.Parted stack)
    {q : NodeId → Bool} (hq : ∀ x, q x = false → t.Passable x) : t.Parted (stack.filter q) := by
  induction stack with
  | nil => exact h
  | cons x outer ih =>
    rw [List.filter_cons]
    split
    · exact (show t.Parted ([x] ++ outer) from h).mono ih
    · next hx => exact ih (h.of_cons (hq x (Bool.eq_false_iff.2 hx)))

/-- No paragraph is in scope where a block is open. -/
def Apart (t : Tree) (stack : List NodeId) : Prop :=
  EachOver (fun x outer => ∀ name ∈ Content.block, t.label? x = some (.html, name) →
    t.Parted outer) stack

theorem Apart.congr (h : t.Apart stack) (hl : ∀ x ∈ stack, t'.label? x = t.label? x) :
    t'.Apart stack := by
  refine EachOver.imp h fun x outer hs hx name hname hlabel => ?_
  have hmem := hs.subset
  rw [hl x (hmem (List.mem_cons_self ..))] at hlabel
  exact (parted_congr fun y hy => hl y (hmem (List.mem_cons_of_mem _ hy))).2 (hx name hname hlabel)

/-- Elements that neither are paragraphs nor hide them may be closed anywhere. -/
theorem Apart.filter (h : t.Apart stack)
    {q : NodeId → Bool} (hq : ∀ x, q x = false → t.Passable x) : t.Apart (stack.filter q) :=
  EachOver.filter h fun _ _ _ hx name hname hl => (hx name hname hl).filter hq

/-- Wherever there is an element, there is a document element. -/
def Based (t : Tree) : Prop :=
  ∀ y l, t.label? y = some l → ∃ x, t.label? x = some (.html, "html") ∧ t.parent? x = some root

end Tree

/-! ## 2. What rules rely on -/

namespace TreeBuilder

variable {token : Token} {mode : InsertionMode} {b b' a : TreeBuilder} {cs : List Char}

/-- In quirks mode a table does not end a paragraph. -/
structure ParagraphsApart (b : TreeBuilder) : Prop where
  apart : b.tree.mode ≠ .quirks → b.tree.Apart b.openElements
  based : b.tree.Based

theorem Spares.parted {l : Namespace × String} (h : Spares b l) (hm : b.tree.mode ≠ .quirks)
    {name : String} (hl : l = (.html, name)) (hname : name ∈ Content.block) :
    b.tree.Parted b.openElements := by
  subst hl
  exact h rfl hname hm

theorem place_of_empty (h : Forest b.tree) (hopen : b.openElements = []) :
    b.place = ⟨root, none⟩ := by
  have hnot (names : List String) : b.isHtmlOf names root = false := by
    rw [Bool.eq_false_iff, Ne, isHtmlOf_iff]
    rintro ⟨name, -, hl⟩
    exact h.ne_root_of_label hl rfl
  rw [place, currentNode?, hopen, placeIn]
  simp [hnot, ← isHtmlOf_singleton]

/-- An element is opened on top of the others. -/
theorem apart_insertElement {name : String} {attributes : List Attribute} {ns : Namespace}
    (hr : Rooted b) (h : b.tree.Apart b.openElements)
    (hs : ns = .html → name ∈ Content.block → b.tree.Parted b.openElements) :
    (b.insertElement name attributes ns).tree.Apart
      (b.insertElement name attributes ns).openElements := by
  obtain ⟨id, tree, heq, a⟩ := insertElement_adds hr.anchored name attributes ns
  have hold : ∀ x ∈ b.openElements, tree.label? x = b.tree.label? x := fun x hx =>
    a.label_of_lt (hr.anchored.lt hx)
  rw [heq]
  refine ⟨fun name' hname hl => ?_, h.congr hold⟩
  rw [a.label, if_pos rfl] at hl
  obtain ⟨hns, rfl⟩ := Prod.mk.inj (Option.some.inj hl)
  exact (parted_congr hold).2 (hs hns hname)

theorem insertElement_mode (hr : Rooted b) (name : String) (attributes : List Attribute)
    (ns : Namespace) : (b.insertElement name attributes ns).tree.mode = b.tree.mode := by
  obtain ⟨id, tree, heq, a⟩ := insertElement_adds hr.anchored name attributes ns
  rw [heq]
  exact a.mode hr.anchored.forest

theorem insertElement_based (hr : Rooted b) (h : b.tree.Based) {name : String}
    (attributes : List Attribute) {ns : Namespace} (ht : Takes b (ns, name)) :
    (b.insertElement name attributes ns).tree.Based := by
  have hf := hr.anchored.forest
  obtain ⟨id, tree, heq, a⟩ := insertElement_adds hr.anchored name attributes ns
  rw [heq]
  have hold : ∀ y l, b.tree.label? y = some l →
      ∃ x, tree.label? x = some (.html, "html") ∧ tree.parent? x = some root := by
    intro y l hy
    obtain ⟨x, hx, hp⟩ := h y l hy
    have hlt := lt_size_of_label? hx
    exact ⟨x, (a.label_of_lt hlt).trans hx, by rw [a.parent, if_neg (a.ne_of_lt hlt), hp]⟩
  intro y l hy
  cases hopen : b.openElements with
  -- the first element is the document element
  | nil =>
    have hl : (ns, name) = (.html, "html") := ht.bottom hopen
    refine ⟨id, by rw [a.label, if_pos rfl, hl], ?_⟩
    rw [a.parent, if_pos rfl, place_of_empty hf hopen]
  | cons x outer =>
    obtain ⟨l', hx⟩ := Option.isSome_iff_exists.1 (hr.anchored.element x (by simp [hopen]))
    exact hold x l' hx

/-- The elements that are left out end no search. -/
theorem Adopts.passable {r : AgencyRound} (ha : Adopts b b' r) :
    ∀ x ∈ r.between ++ [r.element], b.tree.Passable x := by
  intro x hx
  rcases List.mem_append.1 hx with hx | hx
  · exact passable_of_ordinary (ha.carriable.ordinary x hx)
  · obtain ⟨name, hname, hl⟩ := ha.label_element
    rw [List.mem_singleton.1 hx]
    exact passable_of_formatting hname hl

/-- Between the block that is taken out and the elements outside, no paragraph was in scope. -/
theorem Adopts.apart {r : AgencyRound} (ha : Adopts b b' r) (h : b.tree.Apart b.openElements) :
    b'.tree.Apart b'.openElements := by
  have hc := ha.carriable
  have hk := ha.rebuilt.keeps
  have hlabel : ∀ x ∈ b.openElements, b'.tree.label? x = b.tree.label? x := fun x hx => by
    obtain ⟨l, hl⟩ := Option.isSome_iff_exists.1 (hc.planted.element x hx)
    rw [hl, hk x l hl]
  have h' := h.congr hlabel
  rw [hc.stack] at h' hlabel
  -- what is left out is passed by a search, and what comes in is no paragraph
  have hpass : ∀ x ∈ r.between ++ [r.element], b'.tree.Passable x := fun x hx => by
    refine (ha.passable x hx).congr (hlabel x ?_)
    simp only [List.mem_append, List.mem_cons] at hx ⊢
    tauto
  have hnew : ∀ x ∈ r.copy :: r.copies, ∀ name ∈ Content.block,
      b'.tree.label? x ≠ some (.html, name) := by
    intro x hx name hname hl
    obtain ⟨name', hname', hl'⟩ := ha.formatted x hx
    rw [hl'] at hl
    cases hl
    exact Content.formatting_not_block name hname' hname
  have hp : "p" ∈ Content.block := by decide
  have hblock : b'.tree.Parted (r.between ++ r.element :: r.outer) →
      b'.tree.Parted (r.copies ++ r.outer) := by
    intro hparted
    rw [List.append_cons] at hparted
    exact (hparted.of_append hpass).append fun x hx => hnew x (List.mem_cons_of_mem _ hx) "p" hp
  have hdeeper : b'.tree.Parted (r.block :: (r.between ++ r.element :: r.outer)) →
      b'.tree.Parted (r.copy :: r.block :: (r.copies ++ r.outer)) := fun hparted =>
    (Parted.mono (show b'.tree.Parted ([r.block] ++ _) from hparted) hblock).cons
      (hnew r.copy (List.mem_cons_self ..) "p" hp)
  have houter : b'.tree.Apart r.outer := EachOver.suffix h'
    ⟨r.deeper ++ r.block :: (r.between ++ [r.element]), by simp⟩
  rw [ha.stack]
  suffices hcopy : b'.tree.Apart (r.copy :: r.block :: (r.copies ++ r.outer)) by
    refine EachOver.append hcopy fun pre x post heq name hname hl => ?_
    have hx : b'.tree.Parted (post ++ r.block :: (r.between ++ r.element :: r.outer)) := by
      rw [heq, List.append_assoc, List.cons_append] at h'
      exact EachOver.of_mem h' name hname hl
    exact hx.mono hdeeper
  refine ⟨?_, ?_, ?_⟩
  · exact fun name hname hl => absurd hl (hnew r.copy (List.mem_cons_self ..) name hname)
  · exact fun name hname hl => hblock (EachOver.of_mem h' name hname hl)
  · refine EachOver.append houter fun pre x post heq name hname hl => ?_
    exact absurd hl (hnew x (by simp [heq]) name hname)

/-- The document element is not moved. -/
theorem Adopts.based {r : AgencyRound} (ha : Adopts b b' r) (h : b.tree.Based) : b'.tree.Based := by
  have hc := ha.carriable
  have hf := hc.planted.forest
  have hrearranges := ha.rearranges
  obtain ⟨l, hl⟩ := Option.isSome_iff_exists.1 (hc.planted.element r.block (by simp [hc.stack]))
  obtain ⟨x, hx, hp⟩ := h r.block l hl
  have hlt := lt_size_of_label? hx
  refine fun _ _ _ => ⟨x, ha.rebuilt.keeps x _ hx, ?_⟩
  rw [hrearranges.parent?_eq hf.linked fun p hC => ?_]
  · exact hp
  · -- the document element is a part, and the block is none
    have hblock : x ≠ r.block := by
      rintro rfl
      have hclear := ha.clear r.block (by simp)
      rw [part?_of_label hx] at hclear
      revert hclear
      decide
    have hroot : root ≠ r.block := (hf.ne_root_of_label hl).symm
    cases hC with
    | copy _ hcase | out _ hcase => exact hcase.elim hblock (Nat.not_le.2 hlt)
    | inside _ hcase => exact Nat.not_le.2 hlt hcase
    | wrap _ hcase => exact hroot (Option.some.inj (hp.symm.trans hcase))

theorem ContentChange.paragraphsApart (d : ContentChange b b') (hr : Rooted b)
    (h : ParagraphsApart b) : ParagraphsApart b' := by
  have hf := hr.anchored.forest
  -- an element that is opened finds no paragraph in its way
  have hopens : ∀ {name : String} (attributes : List Attribute) {ns : Namespace},
      Takes b (ns, name) → Spares b (ns, name) →
      ParagraphsApart (b.insertElement name attributes ns) := fun {name} attributes {ns} ht hs =>
    ⟨fun hm => by
      rw [insertElement_mode hr] at hm
      exact apart_insertElement hr (h.apart hm) fun hns hname => by
        subst hns
        exact hs.parted hm rfl hname, insertElement_based hr h.based attributes ht⟩
  cases d with
  | ease d =>
    refine ⟨fun hm => ?_, fun y l hy => ?_⟩
    · rw [d.documentMode] at hm
      exact EachOver.suffix ((h.apart hm).congr fun x _ => d.label x) d.openElements
    · rw [d.label] at hy
      obtain ⟨x, hx, hp⟩ := h.based y l hy
      exact ⟨x, (d.label x).trans hx, d.outermost x hp⟩
  | @remove id _ hid =>
    refine ⟨fun hm => (h.apart hm).filter fun x hx => ?_, h.based⟩
    obtain rfl : x = id := by simpa using hx
    obtain ⟨name, hname, hl⟩ := hid
    have hall : ∀ name ∈ "form" :: Category.formatting, name ∉ "button" :: Scope.generalHtml := by
      decide
    exact passable_of_label hl (hall name hname)
  | @dropHead inner head html hopen hhead hhtml =>
    refine ⟨fun hm => (h.apart hm).filter fun x hx => ?_, h.based⟩
    obtain rfl : x = head := by simpa using hx
    exact passable_of_label hhead (by decide)
  | @pushHead head html hopen hhead =>
    refine ⟨fun hm => ⟨fun name hname hl => ?_, h.apart hm⟩, h.based⟩
    obtain rfl : "head" = name := congrArg Prod.snd (Option.some.inj (hhead.symm.trans hl))
    exact absurd hname (by decide)
  | @insert name attributes ns formatting framesetOk ho =>
    have h' := hopens attributes ho.takes ho.spares
    exact ⟨h'.apart, h'.based⟩
  | @void name attributes hname hm ht hs =>
    obtain ⟨id, tree, heq, a⟩ := insertElement_adds hr.anchored name attributes .html
    have hbased := insertElement_based hr h.based attributes ht
    -- it is closed at once, so only the tree is another one
    refine ⟨fun hm => ?_, hbased⟩
    rw [heq] at hm ⊢
    exact (h.apart ((a.mode hf).symm ▸ hm)).congr fun x hx => a.label_of_lt (hr.anchored.lt hx)
  | @startText name attributes hname hm ht hs =>
    have h' := hopens attributes ht hs
    exact ⟨h'.apart, h'.based⟩
  | @openTemplate attributes formatting framesetOk hm ht hcount =>
    have h' := hopens attributes ht fun _ hname => absurd hname (by decide)
    exact ⟨h'.apart, h'.based⟩
  | retarget mode' hmodes hm => exact ⟨h.apart, h.based⟩
  | @leaf data place hd hp hm =>
    have a := adds_leaf hd hf (hp.lt hr)
    refine ⟨fun hm => ?_, fun y l hy => ?_⟩
    · exact (h.apart ((a.mode hf).symm ▸ hm)).congr fun x hx => a.label_of_lt (hr.anchored.lt hx)
    · -- a leaf has no label, and no other node is moved
      rw [a.label] at hy
      split at hy
      · cases hy
      · obtain ⟨x, hx, hp⟩ := h.based y l hy
        have hlt := lt_size_of_label? hx
        exact ⟨x, (a.label_of_lt hlt).trans hx, by rw [a.parent, if_neg (a.ne_of_lt hlt), hp]⟩
  | setMode documentMode hblank =>
    have s := sameShape_setMode hf.linked documentMode
    refine ⟨fun _ => ?_, fun y l hy => ?_⟩
    · have hempty : b.openElements = [] := List.eq_nil_iff_forall_not_mem.2 fun x hx => by
        have := hr.anchored.element x hx
        rw [hblank x] at this
        cases this
      change EachOver _ b.openElements
      rw [hempty]
      exact True.intro
    · rw [s.label, hblank] at hy
      cases hy
  | adopt ha =>
    have hmode : b'.tree.mode = b.tree.mode := mode_congr (ha.rearranges.data? hf.linked hf.root_lt)
    exact ⟨fun hm => ha.apart (h.apart (hmode ▸ hm)), ha.based h.based⟩

theorem paragraphsApart_insertChar (hr : Rooted b) (hp : b.place.parent ≠ root)
    (h : ParagraphsApart b) (c : Char) : ParagraphsApart (b.insertChar c) := by
  obtain ⟨hmode, hnodes⟩ := insertChar_elements hr.anchored hp c
  obtain ⟨tree, fault, heq⟩ := insertChar_same b c
  rw [heq] at hmode hnodes ⊢
  refine ⟨fun hm => (h.apart (hmode ▸ hm)).congr fun x _ => (hnodes x).1, fun y l hy => ?_⟩
  rw [(hnodes y).1] at hy
  obtain ⟨x, hx, hroot⟩ := h.based y l hy
  exact ⟨x, (hnodes x).1.trans hx, ((hnodes x).2 (lt_size_of_label? hx)).trans hroot⟩

theorem ContentChanges.paragraphsApart (h : ContentChanges token mode b cs a) (hr : Rooted b)
    (ht : ParagraphsApart b) : ParagraphsApart a := by
  induction h with
  | refl => exact ht
  | step h _ d ih => exact d.paragraphsApart (h.rooted hr) ih
  | char h hp _ ih => exact paragraphsApart_insertChar (h.rooted hr) hp ih _

end TreeBuilder

end Hypertext
