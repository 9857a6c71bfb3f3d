import Hypertext.Proofs.Dom.Reading
import Hypertext.Proofs.TreeBuilder.Steps

/-!
# Leaves stay leaves

Only the document, elements and the contents of templates hold other nodes. Whatever the adoption
agency does to a tree, it does by making elements and by moving nodes into such a node.
-/

namespace Hypertext

open Hypertext.Tree

/-! ## 1. Inner nodes -/

namespace Tree

/-- A node of the kinds that others may hang below. -/
def Inner (t : Tree) (x : NodeId) : Prop :=
  x = root ∨ (t.label? x).isSome ∨ t.data? x = some .fragment

def Leafy (t : Tree) : Prop := ∀ x y, t.parent? y = some x → t.Inner x

variable {t t' : Tree} {c x : NodeId} {q : Option NodeId}

theorem Inner.lt (hx : t.Inner x) (h : Forest t) : x < t.size := by
  rcases hx with rfl | hx | hx
  · exact h.root_lt
  · obtain ⟨l, hl⟩ := Option.isSome_iff_exists.1 hx
    exact lt_size_of_label? hl
  · exact lt_size_of_data? hx

theorem Inner.of_data (hx : t.Inner x) (hd : t'.data? x = t.data? x) : t'.Inner x := by
  unfold Inner
  rw [label?_congr hd, hd]
  exact hx

theorem Inner.grown {id : NodeId} (hx : t.Inner x) (h : Forest t) (g : Grown t t' id) :
    t'.Inner x :=
  hx.of_data (g.data x (hx.lt h))

theorem SameShape.inner (s : SameShape t t') (hx : t.Inner x) : t'.Inner x := by
  refine hx.imp_right fun hx => hx.imp (fun hx => ?_) fun hx => ?_
  · rwa [s.label]
  · have hshape := s.shape x
    rw [hx] at hshape
    cases hd : t'.data? x with
    | none => rw [hd] at hshape; cases hshape
    | some d => rw [hd] at hshape; cases d <;> simp_all [NodeData.shape]

theorem Leafy.empty : Tree.empty.Leafy := by
  intro x y hy
  rw [Forest.parent?_empty] at hy
  cases hy

/-- A text holds nothing. -/
theorem Leafy.children_of_text {s : String} (hl : t.Leafy) (h : Forest t)
    (hx : t.text? x = some s) : t.children x = [] := by
  rw [text?_eq_some] at hx
  rw [List.eq_nil_iff_forall_not_mem]
  intro y hy
  rcases hl x y ((h.linked.mem_children x y).1 hy) with rfl | hlabel | hfragment
  · obtain ⟨mode, hm⟩ := h.document
    rw [hm] at hx
    cases hx
  · simp [label?, element?, hx] at hlabel
  · rw [hfragment] at hx
    cases hx

theorem Leafy.moved (hl : t.Leafy) (m : Moved t t' c q) (hq : ∀ p, q = some p → t.Inner p) :
    t'.Leafy := by
  intro x y hy
  rw [m.parent] at hy
  split at hy
  · exact (hq x hy).of_data (m.data x)
  · exact (hl x y hy).of_data (m.data x)

theorem Leafy.grown {id : NodeId} (hl : t.Leafy) (h : Forest t) (g : Grown t t' id) : t'.Leafy := by
  intro x y hy
  rw [g.parent] at hy
  exact (hl x y hy).grown h g

theorem Leafy.sameShape (hl : t.Leafy) (s : SameShape t t') : t'.Leafy := by
  intro x y hy
  rw [s.parent] at hy
  exact s.inner (hl x y hy)

theorem Leafy.put {id p : NodeId} {before : Option NodeId} (hl : t.Leafy) (h : Forest t)
    (w : Put t t' id p before) (hp : t.Inner p) : t'.Leafy := by
  obtain ⟨grown, g, s⟩ := w.exists_grown
  refine (hl.grown h g).moved s.toMoved fun p' hp' => ?_
  cases hp'
  exact hp.grown h g

theorem Leafy.insertText (hl : t.Leafy) (h : Forest t) {p : NodeId} (hp : t.Inner p)
    (before : Option NodeId) (text : String) : (t.insertText p before text).2.Leafy := by
  obtain ⟨prev, old, -, hold, heq⟩ | ⟨-, heq⟩ := insertText_cases t p before text
  · rw [heq]
    exact hl.sameShape (sameShape_setText h.linked hold)
  · rw [heq]
    exact hl.put h (put_alloc h (hp.lt h) (.text text) (by simp) before).1 hp

theorem inherited_inner (h : Forest t) (hl : t.Leafy) : TreeBuilder.Inherited t t.Inner where
  root := Or.inl rfl
  contents x f _ hf := Or.inr (Or.inr (h.fragment x f hf))
  parent x p _ _ _ hp := hl p x hp

end Tree

/-! ## 2. Rearrangements -/

theorem TreeBuilder.createElement_eq (t : Tree) {name : String} (hname : name ≠ "template")
    (attributes : List Attribute) (ns : Namespace) : createElement t name attributes ns =
      t.alloc (.element { tagName := name, ns, attributes := attributesOf attributes }) := by
  simp [createElement, Element.isHtml, hname]

theorem TreeBuilder.ne_template_of_formatting {name : String} (h : name ∈ Category.formatting) :
    name ≠ "template" := by
  rintro rfl
  revert h
  decide

namespace Tree

/-- Formatting elements are made, and nodes are moved: a node `c` comes to be in `p` only
if `C p c`. -/
inductive Rearranges (C : NodeId → NodeId → Prop) (t : Tree) : Tree → Prop where
  | refl : Rearranges C t t
  | make {t' : Tree} (h : Rearranges C t t') (hf : Forest t') {name : String}
    (hname : name ∈ Category.formatting) (attributes : List Attribute) :
    Rearranges C t (TreeBuilder.createElement t' name attributes .html).2
  | move {t' : Tree} {c p : NodeId} (h : Rearranges C t t') (hc : c < t'.size) (hp : p < t'.size)
    (hin : C p c) (before : Option NodeId) : Rearranges C t (t'.insertAt p before c)

theorem text?_createElement (t : Tree) (name : String) (attributes : List Attribute)
    (ns : Namespace) (x : NodeId) : (TreeBuilder.createElement t name attributes ns).2.text? x =
      t.text? x := by
  simp only [TreeBuilder.createElement]
  split
  · rw [text?_alloc _ (by simp), text?_alloc _ (by simp)]
  · rw [text?_alloc _ (by simp)]

namespace Rearranges

variable {C C' : NodeId → NodeId → Prop} {t t' : Tree}

theorem mono (r : Rearranges C t t') (hC : ∀ p c, C p c → C' p c) : Rearranges C' t t' := by
  induction r with
  | refl => exact .refl
  | make _ hf hname attributes ih => exact ih.make hf hname attributes
  | move _ hc hp hin before ih => exact ih.move hc hp (hC _ _ hin) before

theorem linked (r : Rearranges C t t') (h : Linked t) : Linked t' := by
  induction r with
  | refl => exact h
  | make _ hf _ attributes => exact (TreeBuilder.grown_createElement _ attributes .html hf).linked
  | move _ hc hp _ before ih => exact (moved_insertAt ih hp hc before).linked

theorem size_le (r : Rearranges C t t') (h : Linked t) : t.size ≤ t'.size := by
  induction r with
  | refl => exact Nat.le_refl _
  | make _ hf _ attributes ih =>
    exact Nat.le_trans ih (TreeBuilder.grown_createElement _ attributes .html hf).size_le
  | move r hc hp _ before ih =>
    exact Nat.le_trans ih (Nat.le_of_eq (moved_insertAt (r.linked h) hp hc before).size.symm)

/-- What a node is does not change. -/
theorem data? (r : Rearranges C t t') (h : Linked t) {x : NodeId} (hx : x < t.size) :
    t'.data? x = t.data? x := by
  induction r with
  | refl => rfl
  | @make _ r hf name _ attributes ih =>
    have g := TreeBuilder.grown_createElement name attributes .html hf
    exact (g.data x (Nat.lt_of_lt_of_le hx (r.size_le h))).trans ih
  | move r hc hp _ before ih => exact ((moved_insertAt (r.linked h) hp hc before).data x).trans ih

/-- The new nodes are formatting elements. -/
theorem data?_new (r : Rearranges C t t') (h : Linked t) {x : NodeId} (hx : t.size ≤ x)
    (hlt : x < t'.size) : ∃ name ∈ Category.formatting, ∃ attributes,
      t'.data? x = some (.element { tagName := name, ns := .html, attributes }) := by
  induction r with
  | refl => exact absurd hlt (Nat.not_lt.2 hx)
  | @make t' r hf name hname attributes ih =>
    rw [TreeBuilder.createElement_eq t' (TreeBuilder.ne_template_of_formatting hname)] at hlt ⊢
    rw [size_alloc] at hlt
    rw [data?_alloc]
    obtain hold | rfl := Nat.lt_or_eq_of_le (Nat.le_of_lt_succ hlt)
    · rw [if_neg (Nat.ne_of_lt hold)]
      exact ih hold
    · rw [if_pos rfl]
      exact ⟨name, hname, _, rfl⟩
  | move r hc hp _ before ih =>
    have m := moved_insertAt (r.linked h) hp hc before
    rw [m.size] at hlt
    rw [m.data]
    exact ih hlt

theorem label?_new (r : Rearranges C t t') (h : Linked t) {x : NodeId} (hx : t.size ≤ x)
    (hlt : x < t'.size) : ∃ name ∈ Category.formatting, t'.label? x = some (.html, name) := by
  obtain ⟨name, hname, attributes, hd⟩ := r.data?_new h hx hlt
  exact ⟨name, hname, by rw [label?, element?, hd]; rfl⟩

/-- A node is where it was, or has been moved. -/
theorem parent?_cases (r : Rearranges C t t') (h : Linked t) {x q : NodeId}
    (hq : t'.parent? x = some q) : t.parent? x = some q ∨ C q x := by
  induction r with
  | refl => exact Or.inl hq
  | make _ hf _ attributes ih =>
    rw [(TreeBuilder.grown_createElement _ attributes .html hf).parent] at hq
    exact ih hq
  | move r hc hp hin before ih =>
    rw [(moved_insertAt (r.linked h) hp hc before).parent] at hq
    split at hq
    · next hx =>
      cases hq
      exact Or.inr (hx ▸ hin)
    · exact ih hq

/-- A node that may not be moved is where it was. -/
theorem parent?_eq (r : Rearranges C t t') (h : Linked t) {x : NodeId} (hx : ∀ p, ¬ C p x) :
    t'.parent? x = t.parent? x := by
  induction r with
  | refl => rfl
  | make _ hf _ attributes ih =>
    rw [(TreeBuilder.grown_createElement _ attributes .html hf).parent]
    exact ih
  | move r hc hp hin before ih =>
    rw [(moved_insertAt (r.linked h) hp hc before).parent, if_neg]
    · exact ih
    · rintro rfl
      exact hx _ hin

theorem leafy (r : Rearranges C t t') (h : Forest t) (hl : t.Leafy)
    (hC : ∀ p c, C p c → p < t.size → t.Inner p) : t'.Leafy := by
  intro x y hy
  by_cases hx : x < t.size
  · refine Inner.of_data ?_ (r.data? h.linked hx)
    rcases r.parent?_cases h.linked hy with hy | hy
    · exact hl x y hy
    · exact hC x y hy hx
  · have hlt := (r.linked h.linked).parent_lt hy
    obtain ⟨name, -, hlabel⟩ := r.label?_new h.linked (Nat.not_lt.1 hx) hlt
    exact Or.inr (Or.inl (Option.isSome_iff_exists.2 ⟨_, hlabel⟩))

/-- No text comes or goes. -/
theorem text? (r : Rearranges C t t') (h : Linked t) (x : NodeId) : t'.text? x = t.text? x := by
  induction r with
  | refl => rfl
  | make _ _ _ attributes ih => exact (text?_createElement _ _ attributes .html x).trans ih
  | move r hc hp _ before ih =>
    exact (text?_congr ((moved_insertAt (r.linked h) hp hc before).data x)).trans ih

theorem foldl_appendChild (r : Rearranges C t t') {p : NodeId} {cs : List NodeId}
    (hcs : ∀ c ∈ cs, c < t'.size ∧ C p c) (hp : p < t'.size) :
    Rearranges C t (cs.foldl (fun t child => t.appendChild p child) t') := by
  induction cs generalizing t' with
  | nil => exact r
  | cons c cs ih =>
    obtain ⟨⟨hc, hin⟩, hcs⟩ := List.forall_mem_cons.1 hcs
    refine ih (r.move hc hp hin none) (fun c' hc' => ⟨?_, (hcs c' hc').2⟩) ?_
    · exact (size_appendChild (t := t')).symm ▸ (hcs c' hc').1
    · exact (size_appendChild (t := t')).symm ▸ hp

end Rearranges

end Tree

namespace TreeBuilder

variable {b b' a : TreeBuilder} {token : Token} {mode : InsertionMode} {cs : List Char}

/-- If the nodes are what they were, and the tables where they were, so is the place before the
innermost table. -/
theorem fosterPlace_congr {l : List NodeId}
    (hlast : b'.openElements.getLast? = b.openElements.getLast?)
    (hl : ∀ x ∈ l, b'.tree.data? x = b.tree.data? x ∧
      (b.isHtml "table" x = true → b'.tree.parent? x = b.tree.parent? x)) :
    b'.fosterPlace l = b.fosterPlace l := by
  induction l with
  | nil => rw [fosterPlace, fosterPlace, hlast]
  | cons x outer ih =>
    obtain ⟨⟨hdata, hparent⟩, houter⟩ := List.forall_mem_cons.1 hl
    have hhtml : ∀ name, b'.isHtml name x = b.isHtml name x := fun name => by
      unfold isHtml
      rw [element?_congr hdata]
    rw [fosterPlace, fosterPlace, hhtml, hhtml, contents?_congr hdata, ih houter]
    by_cases htable : b.isHtml "table" x = true
    · rw [hparent htable]
    · simp [htable]

section Adopts

variable {deeper between copies rest outer : List NodeId} {block element : NodeId} {w w₀ : Walk}

/-- On the way up, nodes are moved into copies only. -/
theorem Climbs.rearranges (c : Climbs deeper block outer w₀ between copies rest w)
    (h : Walk.Sound b deeper block [] between outer w₀) (hstart : w₀.lastNode = block) :
    Rearranges (fun p c => w₀.builder.tree.size ≤ p ∧ (c = block ∨ w₀.builder.tree.size ≤ c))
      w₀.builder.tree w.builder.tree ∧
      (w.lastNode = block ∨ w₀.builder.tree.size ≤ w.lastNode) := by
  have hlinked := h.carried.forest.linked
  induction c with
  | start => exact ⟨.refl, Or.inl hstart⟩
  | forget _ _ ih => exact ih
  | close _ _ ih => exact ih
  | @copy copies rest node id w i tag tree c hi htag hnew ih =>
    obtain ⟨r, hlast⟩ := ih
    have hs := c.sound h
    have hf := hs.carried.forest
    have hname := (hs.named node tag (List.mem_of_getElem? htag)).1
    have g := grown_createElement tag.name tag.attributes .html hf
    have hmake := r.make hf hname tag.attributes
    rw [hnew] at g hmake
    have hfresh := Nat.le_trans (r.size_le hlinked) g.fresh
    refine ⟨hmake.move ?_ g.lt ⟨hfresh, hlast⟩ none, Or.inr hfresh⟩
    exact Nat.lt_of_lt_of_le (hs.carried.lt hs.carried.mem_stack) g.size_le

/-- Where a round of the agency moves nodes: what is carried goes into copies and at last to a place
outside, and the children of the block go into a copy, which is put into the block. -/
inductive AgencyRound.Carries (b : TreeBuilder) (r : AgencyRound) : NodeId → NodeId → Prop where
  | copy {p c : NodeId} (hp : b.tree.size ≤ p) (hc : c = r.block ∨ b.tree.size ≤ c) :
      Carries b r p c
  | wrap {p c : NodeId} (hp : b.tree.size ≤ p) (hc : b.tree.parent? c = some r.block) :
      Carries b r p c
  | inside {p c : NodeId} (hp : p = r.block) (hc : b.tree.size ≤ c) : Carries b r p c
  | out {p c : NodeId} (hp : p = (b.placeIn (r.outer.head?.getD Tree.root)).parent)
    (hc : c = r.block ∨ b.tree.size ≤ c) : Carries b r p c

variable {r : AgencyRound}

/-- What has been carried up is put down where it would have been put at first. -/
theorem Adopts.target_eq (h : Adopts b b' r) :
    r.walk.target r.outer = b.placeIn (r.outer.head?.getD Tree.root) := by
  have hc := h.carriable
  have hs := hc.sound h.climbs
  have ha := hc.planted.anchored
  have hf := ha.forest
  obtain ⟨hclimb, -⟩ := h.climbs.rearranges (hc.start _) rfl
  have hdata : ∀ x, x < b.tree.size → r.walk.builder.tree.data? x = b.tree.data? x := fun x hx =>
    hclimb.data? hf.linked hx
  have hmem : ∀ x ∈ r.element :: r.outer, x ∈ b.openElements := by
    intro x hx
    rw [hc.stack]
    simp only [List.mem_append, List.mem_cons] at hx ⊢
    tauto
  have hnone : ∀ x ∈ r.deeper ++ r.block :: r.between,
      b.isHtml "template" x = false ∧ b.isHtml "table" x = false := by
    intro x hx
    refine (movable_of_part? (hc.loose x ?_)).2
    simp only [List.mem_append, List.mem_cons] at hx ⊢
    tauto
  -- foster parenting passes over what is carried, and finds what it would have found before
  have hfoster : r.walk.builder.fosterPlace r.walk.builder.openElements =
      b.fosterPlace b.openElements := by
    rw [hs.stack, List.nil_append, fosterPlace_append (hc.not_table_climbed h.climbs), hc.stack,
      ← List.cons_append, ← List.append_assoc, fosterPlace_append hnone]
    refine fosterPlace_congr ?_ fun x hx => ⟨hdata x (ha.lt (hmem x hx)), fun htable => ?_⟩
    · rw [hs.stack, List.nil_append, hc.stack, ← List.cons_append, ← List.append_assoc,
        List.getLast?_append_of_ne_nil _ (by simp), List.getLast?_append_of_ne_nil _ (by simp)]
    · -- a table is not what is carried
      refine hclimb.parent?_eq hf.linked fun p hp => ?_
      rcases hp.2 with rfl | hx'
      · rw [(hnone r.block (by simp)).2] at htable
        cases htable
      · exact absurd (ha.lt (hmem x hx)) (Nat.not_lt.2 hx')
  have hroot : b.tree.Reach Tree.root (b.fosterPlace b.openElements).parent := by
    have hP := inherited_reach hf
    refine hP.fosterPlace ?_ _ ha.reach
    cases hl : b.openElements.getLast? with
    | none => exact .refl
    | some x => exact ha.reach x (List.mem_of_getLast? hl)
  have htarget : r.outer.head?.getD Tree.root < b.tree.size := by
    cases hh : r.outer.head? with
    | none => exact hf.root_lt
    | some x => exact ha.lt (hmem x (List.mem_cons_of_mem _ (List.mem_of_head? hh)))
  have hhtml : ∀ names x, x < b.tree.size → r.walk.builder.isHtmlOf names x = b.isHtmlOf names x :=
    fun names x hx => by
      unfold isHtmlOf
      rw [element?_congr (hdata x hx)]
  have hfostering : r.walk.builder.fostering = b.fostering := by rw [hs.same]
  unfold Walk.target placeIn
  rw [hfoster, hfostering, hhtml _ _ htarget]
  extract_lets place
  -- the place was in the tree before, so it has the contents that it had
  have hplace : place.parent < b.tree.size := by
    unfold place
    split
    · exact hf.reach_lt hf.root_lt hroot
    · exact htarget
  have hsame : r.walk.builder.isHtml "template" place.parent =
      b.isHtml "template" place.parent := by
    unfold isHtml
    rw [element?_congr (hdata _ hplace)]
  rw [hsame, contents?_congr (hdata _ hplace)]

theorem Adopts.rearranges (h : Adopts b b' r) : Rearranges (r.Carries b) b.tree b'.tree := by
  have hf := h.carriable.planted.forest
  have hs := h.carriable.sound h.climbs
  obtain ⟨hclimb, hlast⟩ := h.climbs.rearranges (h.carriable.start _) rfl
  -- the block is put down outside
  have htarget : (r.walk.target r.outer).parent < r.walk.builder.tree.size :=
    hs.carried.forest.reach_lt hs.carried.forest.root_lt (h.carriable.target h.climbs).1
  have hput : Rearranges (r.Carries b) b.tree (r.walk.putDown r.outer).builder.tree := by
    refine (hclimb.mono fun p c hc => .copy hc.1 hc.2).move (hs.carried.lt hs.carried.mem_stack)
      htarget ?_ _
    rw [h.target_eq]
    exact .out rfl hlast
  -- the children of the block are wrapped
  obtain ⟨hb, -⟩ := h.carriable.rebuilt h.climbs
  have hput' := hb.planted.forest
  have hname := (hs.named r.element r.tag (List.mem_of_getElem? h.entry)).1
  have g := h.grown_copy
  have hmake := hput.make hput' hname r.tag.attributes
  rw [h.created] at hmake
  have hfresh := Nat.le_trans (hput.size_le hf.linked) g.fresh
  have hmoved : Rearranges (r.Carries b) b.tree (r.grown.moveChildren r.block r.copy) := by
    refine hmake.foldl_appendChild (fun c hc => ⟨?_, ?_⟩) g.lt
    · exact (g.forest hput').above_right_lt (Or.inl ((g.linked.mem_children _ _).1 hc))
    · rcases hmake.parent?_cases hf.linked ((g.linked.mem_children _ _).1 hc) with hold | hcarried
      · exact .wrap hfresh hold
      · cases hcarried with
        | copy _ hc | out _ hc => exact .copy hfresh hc
        | wrap _ hc => exact .wrap hfresh hc
        | inside _ hc => exact .copy hfresh (Or.inr hc)
  have m := movedAll_moveChildren g.linked r.block g.lt
  rw [h.tree_eq]
  refine hmoved.move ?_ ?_ (.inside rfl hfresh) none
  · rw [m.size]
    exact g.lt
  · rw [m.size]
    exact Nat.lt_of_lt_of_le h.block_lt g.size_le

end Adopts

/-! ## 3. Steps -/

theorem inner_placeIn (h : Anchored b.tree b.openElements) (hl : b.tree.Leafy) {stack : List NodeId}
    (hs : stack.Sublist b.openElements) :
    b.tree.Inner (b.placeIn (stack.head?.getD Tree.root)).parent := by
  have hP := inherited_inner h.forest hl
  have hstack : ∀ x ∈ b.openElements, b.tree.Inner x := fun x hx => Or.inr (Or.inl (h.element x hx))
  have hlast : b.tree.Inner (b.openElements.getLast?.getD Tree.root) := by
    cases hlast : b.openElements.getLast? with
    | none => exact hP.root
    | some x => exact hstack x (List.mem_of_getLast? hlast)
  exact hP.placeIn (hP.getD_head fun x hx => hstack x (hs.subset hx))
    (hP.fosterPlace hlast _ hstack)

theorem inner_place (h : Anchored b.tree b.openElements) (hl : b.tree.Leafy) :
    b.tree.Inner b.place.parent := inner_placeIn h hl (List.Sublist.refl _)

theorem Adopts.outer_sublist {r : AgencyRound} (h : Adopts b b' r) :
    r.outer.Sublist b.openElements := by
  rw [h.carriable.stack, ← List.singleton_append (l := r.outer), ← List.append_assoc,
    ← List.cons_append, ← List.append_assoc]
  exact List.sublist_append_right _ _

theorem Adopts.leafy {r : AgencyRound} (h : Adopts b b' r) (hl : b.tree.Leafy) : b'.tree.Leafy := by
  have ha := h.carriable.planted.anchored
  refine h.rearranges.leafy ha.forest hl fun p c hC hp => ?_
  cases hC with
  | copy hp' _ | wrap hp' _ => exact absurd hp (Nat.not_lt.2 hp')
  | inside hp' _ =>
    refine Or.inr (Or.inl (ha.element p ?_))
    simp [h.carriable.stack, hp']
  | out hp' _ => exact hp' ▸ inner_placeIn ha hl h.outer_sublist

theorem PlacesLeaf.inner {place : Place} (hp : PlacesLeaf b place) (h : Rooted b)
    (hl : b.tree.Leafy) : b.tree.Inner place.parent := by
  rcases hp with rfl | ⟨-, hp | ⟨hp, -⟩⟩
  · exact inner_place h.anchored hl
  · exact Or.inl hp
  · exact Or.inr (Or.inl (h.anchored.element _ (openAt?_mem hp)))

theorem Step.leafy (s : Step token mode b b') (h : Rooted b) (hl : b.tree.Leafy) :
    b'.tree.Leafy := by
  have hf := h.anchored.forest
  cases s with
  | aside a => exact a.tree ▸ hl
  | @insert name attributes ns =>
    obtain ⟨id, tree, heq, w, -⟩ := insertElement_eq h.anchored name attributes ns
    rw [heq]
    exact hl.put hf w (inner_place h.anchored hl)
  | leaf hd hp => exact hl.put hf (put_leaf hf (hp.lt h) (Token.isLeaf hd) _).1 (hp.inner h hl)
  | setMode documentMode => exact hl.sameShape (sameShape_setMode hf.linked documentMode)
  | @merge id tag =>
    refine hl.sameShape (sameShape_modifyElement hf.linked id fun e => ?_)
    rfl
  | adopt _ _ ha => exact ha.leafy hl
  | unbody => exact hl.moved (moved_detach hf.linked _) (by simp)
  | _ => exact hl

/-- No step changes the text of a node. -/
theorem Step.text? (s : Step token mode b b') (h : Rooted b) (x : NodeId) :
    b'.tree.text? x = b.tree.text? x := by
  have hf := h.anchored.forest
  cases s with
  | aside a => rw [a.tree]
  | @insert name attributes ns =>
    have g := grown_createElement name attributes ns hf
    have hlt := Nat.lt_of_lt_of_le (place_lt h.anchored) g.size_le
    have m := moved_insertAt g.linked hlt g.lt b.place.before
    rw [insertElement_eq_insertAt h.anchored]
    exact (text?_congr (m.data x)).trans (text?_createElement _ name attributes ns x)
  | @leaf data place hd hp =>
    have hlt : place.parent < (b.tree.alloc data).2.size := by
      rw [size_alloc]
      exact Nat.lt_succ_of_lt (hp.lt h)
    have m := moved_insertAt (hf.linked.alloc data) hlt (by simp) place.before (c := b.tree.size)
    refine (text?_congr (m.data x)).trans (text?_alloc _ ?_ x)
    rintro s rfl
    have hleaf := Token.isLeaf hd
    simp [NodeData.isComment, NodeData.isDoctype] at hleaf
  | setMode documentMode => exact text?_setMode _ documentMode x
  | merge => exact text?_modifyElement _ _ x _
  | adopt _ _ ha => exact ha.rearranges.text? hf.linked x
  | @unbody body => exact text?_congr ((moved_detach hf.linked body).data x)
  | _ => rfl

/-- No step takes nodes away. -/
theorem Step.size_le (s : Step token mode b b') (h : Rooted b) : b.tree.size ≤ b'.tree.size := by
  have hf := h.anchored.forest
  cases s with
  | aside a => rw [a.tree]
  | @insert name attributes ns =>
    obtain ⟨id, tree, heq, w, -⟩ := insertElement_eq h.anchored name attributes ns
    rw [heq]
    exact (w.sprout hf (place_lt h.anchored)).size_le
  | leaf hd hp => exact ((put_leaf hf (hp.lt h) (Token.isLeaf hd) _).1.sprout hf (hp.lt h)).size_le
  | setMode documentMode => exact Nat.le_of_eq (sameShape_setMode hf.linked documentMode).size.symm
  | @merge _ tag =>
    obtain ⟨tree, heq, e, -⟩ := mergeAttributes_eq hf _ tag.attributes
    rw [heq]
    exact e.size_le
  | adopt _ _ ha => exact ha.rearranges.size_le hf.linked
  | @unbody body => exact Nat.le_of_eq (moved_detach hf.linked body).size.symm
  | _ => exact Nat.le_refl _

theorem leafy_insertChar (h : Rooted b) (hp : b.place.parent ≠ Tree.root) (hl : b.tree.Leafy)
    (c : Char) : (b.insertChar c).tree.Leafy := by
  rw [insertChar_eq_insertText h.anchored, if_neg hp]
  exact hl.insertText h.anchored.forest (inner_place h.anchored hl) _ _

theorem Acts.leafy (h : Acts token mode b cs a) (hb : Rooted b) (hl : b.tree.Leafy) :
    a.tree.Leafy := by
  induction h with
  | refl => exact hl
  | step h s ih => exact s.leafy (h.rooted hb) ih
  | char h hp _ c ih => exact leafy_insertChar (h.rooted hb) hp ih c

/-! ## 4. Only the document element is open -/

/-- An element that is open outside the document element would be below a leaf of the document. -/
theorem label_bottom_of_bones (h : Sound b) (hl : b.tree.Leafy) (hb : b.bones = [.html])
    {x : NodeId} (hx : b.openAt? 0 = some x) : b.tree.label? x = some (.html, "html") := by
  obtain ⟨above, html, outer, hopen, -, hhtml, -⟩ := exists_cut hb
  have hlabel : b.tree.label? html = some (.html, "html") := by
    simpa [Part.names] using part?_eq_some.1 hhtml
  have hp := h.planted
  have hf := hp.forest
  have hroot : b.tree.parent? html = some root := hp.html html (by simp [hopen]) hlabel
  have houter : outer = [] := by
    rw [List.eq_nil_iff_forall_not_mem]
    intro y hy
    have hmem : y ∈ b.openElements := by simp [hopen, hy]
    obtain ⟨ly, hly⟩ := Option.isSome_iff_exists.1 (hp.element y hmem)
    have hnot : ¬ b.tree.Reach html y := by
      have horder := hp.order
      rw [hopen] at horder
      exact (List.pairwise_cons.1 (List.pairwise_append.1 horder).2.1).1 y hy
    -- the node directly below the document that `y` is reached through
    obtain hy | ⟨c, hc, hcy⟩ := Relation.ReflTransGen.cases_head (hp.reach y hmem)
    · exact hf.ne_root_of_label hly hy.symm
    · have hc : b.tree.parent? c = some root := hc.resolve_right fun hcontents => by
        obtain ⟨mode, hm⟩ := hf.document
        rw [contents?, element?, hm] at hcontents
        cases hcontents
      -- it is no element, since the document element is the only one there
      have hlc : b.tree.label? c = none := by
        rw [Option.eq_none_iff_forall_ne_some]
        intro lc hlc
        have hcd := hp.upright.eq_html ((hf.linked.mem_children _ _).2 hc) hlc
        have hhd := hp.upright.eq_html ((hf.linked.mem_children _ _).2 hroot) hlabel
        rw [hcd] at hhd
        cases hhd
        exact hnot hcy
      obtain rfl | ⟨d, hd, -⟩ := Relation.ReflTransGen.cases_head hcy
      · rw [hlc] at hly
        cases hly
      · rcases hd with hd | hd
        · rcases hl c d hd with rfl | hinner | hinner
          · rw [hf.root_parent] at hc
            cases hc
          · rw [hlc] at hinner
            cases hinner
          · rw [hf.fragment_parent c hinner] at hc
            cases hc
        · obtain ⟨e, he, -⟩ := Option.bind_eq_some_iff.1 hd
          rw [label?, he] at hlc
          cases hlc
  rw [houter] at hopen
  rw [openAt?, hopen, List.reverse_append] at hx
  obtain rfl : html = x := by simpa using hx
  exact hlabel

end TreeBuilder

end Hypertext
