import Hypertext.Proofs.TreeBuilder.Formatting
import Hypertext.Proofs.TreeBuilder.Parts
import Hypertext.TreeBuilder.Adoption

/-!
# The adoption agency keeps the tree a forest

The furthest block is carried out of the formatting element: copies of the elements in between are
put around it one after the other, the outermost copy goes to a place outside, and at last the
children of the block are wrapped in a copy of the formatting element. While it is carried, the
block hangs neither below the document nor above anything that was opened before it.
-/

namespace Hypertext

open Hypertext.Tree

/-! ## 1. Wrapping the children of a node -/

namespace Tree

/-- `t'` is `t` with a new node `copy` between `block` and its children. -/
structure Wrapped (t t' : Tree) (block copy : NodeId) : Prop where
  linked : Linked t'
  fresh : t.size ≤ copy
  label : ∀ x, x < t.size → t'.label? x = t.label? x
  document : ∃ mode, t'.data? root = some (.document mode)
  contents : ∀ a, t'.contents? a = t.contents? a
  fragment : ∀ a f, t'.contents? a = some f → t'.data? f = some .fragment
  fragment_parent : ∀ f, t'.data? f = some .fragment → t.parent? f = none ∧ f ≠ copy
  parent : ∀ x, t'.parent? x =
    if x = copy then some block else if t.parent? x = some block then some copy else t.parent? x

section Wrapped

variable {t t' : Tree} {block copy a b x y : NodeId}

theorem wrapped_moveChildren {t₁ : Tree} (h : Forest t) (g : Grown t t₁ copy)
    (hc : t₁.contents? copy = none) (hblock : block < t.size) :
    Wrapped t ((t₁.moveChildren block copy).appendChild block copy) block copy := by
  have h₁ := g.forest h
  have m := movedAll_moveChildren g.linked block g.lt
  have hblock' : block < (t₁.moveChildren block copy).size := by
    rw [m.size]
    exact Nat.lt_of_lt_of_le hblock g.size_le
  have m' := moved_appendChild m.linked hblock' (by rw [m.size]; exact g.lt)
  have hdata : ∀ x, ((t₁.moveChildren block copy).appendChild block copy).data? x = t₁.data? x :=
    fun x => (m'.data x).trans (m.data x)
  refine ⟨m'.linked, g.fresh, ?_, ?_, ?_, ?_, ?_, ?_⟩
  · intro x hx
    rw [label?_congr (hdata x), label?_congr (g.data x hx)]
  · rw [hdata]
    exact h₁.document
  · intro a
    rw [contents?_congr (hdata a)]
    -- a template that is not in the old tree could only be the copy, and that has no content
    by_cases ha : a < t.size
    · exact contents?_congr (g.data a ha)
    · cases hf : t₁.contents? a with
      | none =>
        cases hf' : t.contents? a with
        | none => rfl
        | some f => exact absurd (lt_size_of_contents? hf') ha
      | some f =>
        rcases g.above a f (Or.inr hf) with haf | ⟨rfl, -, -⟩
        · exact absurd (h.above_left_lt haf) ha
        · rw [hc] at hf
          cases hf
  · intro a f
    rw [contents?_congr (hdata a), hdata]
    exact h₁.fragment a f
  · intro f hf
    rw [hdata] at hf
    refine ⟨by rw [← g.parent]; exact h₁.fragment_parent f hf, ?_⟩
    rintro rfl
    exact g.solid hf
  · intro x
    rw [m'.parent, m.parent]
    simp only [g.linked.mem_children, g.parent]

/-- The children of a node below the skeleton may be wrapped. -/
theorem skeleton_moveChildren {t₁ : Tree} {head : Option NodeId} {l : Namespace × String}
    (h : Forest t) (u : Upright t head) (g : Grown t t₁ copy) (hl : t₁.label? copy = some l)
    (hout : l ∉ outerLabels) (hblock : block < t.size) (hroot : block ≠ root)
    (hhtml : t.documentElement? ≠ some block) :
    ((t₁.moveChildren block copy).appendChild block copy).skeleton = t.skeleton := by
  have m := movedAll_moveChildren g.linked block g.lt
  have hs := g.skeleton h.linked
  have hhtml₁ : t₁.documentElement? = t.documentElement? := congrArg Skeleton.html hs
  -- only the block loses children; the root and the document element keep theirs, for the
  -- block is neither
  have hother : ∀ x, x ≠ block → x ≠ copy →
      (t₁.moveChildren block copy).children x = t₁.children x := by
    intro x hx hxc
    refine m.others x hxc fun c hc hcx => hx ?_
    rw [g.linked.mem_children] at hc hcx
    rw [hc] at hcx
    exact (Option.some.inj hcx).symm
  have hfresh : ∀ x, x < t.size → x ≠ copy := fun x hx =>
    Nat.ne_of_lt (Nat.lt_of_lt_of_le hx g.fresh)
  have hmoved : (t₁.moveChildren block copy).skeleton = t.skeleton := by
    rw [← hs]
    refine skeleton_of_elsewhere m.data (hother root (Ne.symm hroot) (hfresh root h.root_lt))
      fun r hr => hother r ?_ ?_
    · rintro rfl
      exact hhtml (hhtml₁.symm.trans hr)
    · rintro rfl
      exact g.not_mem_children root (documentElement?_mem hr).1
  have hkeeps : t.Keeps (t₁.moveChildren block copy) := fun x l hx =>
    (label?_congr (m.data x)).trans (g.keeps x l hx)
  -- the copy then comes into the block, where an ordinary element does not count
  have s := shifted_insertAt m.linked (p := block) (c := copy)
    (by rw [m.size]; exact Nat.lt_of_lt_of_le hblock g.size_le) (by rw [m.size]; exact g.lt) none
  rw [← hmoved]
  refine (u.keeps hmoved hkeeps).skeleton_element s ((label?_congr (m.data copy)).trans hl)
    hout hroot (Or.inr ?_) (by simp)
  rw [show (t₁.moveChildren block copy).documentElement? = t.documentElement? from
    congrArg Skeleton.html hmoved]
  exact hhtml

variable (h : Forest t) (w : Wrapped t t' block copy)
include h w

/-- A node as it was before there was a copy: the copy is counted as its block. -/
theorem Wrapped.above (hab : t'.Above a b) :
    Relation.TransGen t.Above (if a = copy then block else a) (if b = copy then block else b) ∨
      (a = block ∧ b = copy) := by
  have hne : ∀ {z}, z < t.size → z ≠ copy := fun hz =>
    Nat.ne_of_lt (Nat.lt_of_lt_of_le hz w.fresh)
  -- an edge from the copy to a node was one from the block; only the edge from the block to the
  -- copy is new
  rcases hab with hp | hc
  · rw [w.parent] at hp
    split at hp
    · next hb => exact Or.inr ⟨(Option.some.inj hp).symm, hb⟩
    · next hb =>
      split at hp
      · next hpb =>
        cases hp
        rw [if_pos rfl, if_neg hb]
        exact Or.inl (.single (Or.inl hpb))
      · have ha : a < t.size := h.above_left_lt (Or.inl hp)
        rw [if_neg (hne ha), if_neg hb]
        exact Or.inl (.single (Or.inl hp))
  · rw [w.contents] at hc
    have ha : a < t.size := h.above_left_lt (Or.inr hc)
    have hb : b < t.size := h.above_right_lt (Or.inr hc)
    rw [if_neg (hne ha), if_neg (hne hb)]
    exact Or.inl (.single (Or.inr hc))

theorem Wrapped.transGen (hblock : block < t.size) (hxy : Relation.TransGen t'.Above x y) :
    Relation.TransGen t.Above (if x = copy then block else x) (if y = copy then block else y) ∨
      (x = block ∧ y = copy) := by
  have hne : block ≠ copy := Nat.ne_of_lt (Nat.lt_of_lt_of_le hblock w.fresh)
  induction hxy with
  | single hab => exact w.above h hab
  | tail _ hbc ih =>
    rcases w.above h hbc with hbc | ⟨rfl, rfl⟩
    · rcases ih with ih | ⟨rfl, rfl⟩
      · exact Or.inl (ih.trans hbc)
      · rw [if_pos rfl] at hbc
        rw [if_neg hne]
        exact Or.inl hbc
    · rcases ih with ih | ⟨rfl, hc⟩
      · rw [if_neg hne] at ih
        rw [if_pos rfl]
        exact Or.inl ih
      · exact absurd hc hne

theorem Wrapped.forest (hblock : block < t.size) (hroot : block ≠ root) : Forest t' where
  linked := w.linked
  document := w.document
  root_parent := by
    have hne : root ≠ copy := Nat.ne_of_lt (Nat.lt_of_lt_of_le h.root_lt w.fresh)
    rw [w.parent, if_neg hne, h.root_parent]
    simp
  fragment := w.fragment
  fragment_parent f hf := by
    obtain ⟨hp, hne⟩ := w.fragment_parent f hf
    rw [w.parent, if_neg hne, hp]
    simp
  host a b f := by
    rw [w.contents, w.contents]
    exact h.host a b f
  acyclic x hx := by
    rcases w.transGen h hblock hx with hx | ⟨rfl, hc⟩
    · exact h.acyclic _ hx
    · exact absurd hc (Nat.ne_of_lt (Nat.lt_of_lt_of_le hblock w.fresh))

theorem Wrapped.reach (hxy : t.Reach x y) : t'.Reach x y := by
  induction hxy with
  | refl => exact .refl
  | @tail a b _ hab ih =>
    have hb : b ≠ copy := Nat.ne_of_lt (Nat.lt_of_lt_of_le (h.above_right_lt hab) w.fresh)
    rcases hab with hp | hc
    · by_cases ha : a = block
      · subst ha
        have h₁ : t'.Above a copy := Or.inl (by rw [w.parent, if_pos rfl])
        have h₂ : t'.Above copy b := Or.inl (by rw [w.parent, if_neg hb, if_pos hp])
        exact (ih.tail h₁).tail h₂
      · refine ih.tail (Or.inl ?_)
        rw [w.parent, if_neg hb, hp, if_neg (by simpa using ha)]
    · exact ih.tail (Or.inr (by rw [w.contents, hc]))

variable (hblock : block < t.size)
include hblock

theorem Wrapped.reach_of (hx : x ≠ copy) (hy : y ≠ copy) (hxy : t'.Reach x y) : t.Reach x y := by
  rcases Relation.reflTransGen_iff_eq_or_transGen.1 hxy with rfl | hxy
  · exact .refl
  · obtain hxy | ⟨-, rfl⟩ := w.transGen h hblock hxy
    · rw [if_neg hx, if_neg hy] at hxy
      exact hxy.to_reflTransGen
    · exact absurd rfl hy

theorem Wrapped.reach_block (hx : x ≠ copy) (hxy : t'.Reach x copy) : t.Reach x block := by
  rcases Relation.reflTransGen_iff_eq_or_transGen.1 hxy with rfl | hxy
  · exact absurd rfl hx
  · obtain hxy | ⟨rfl, -⟩ := w.transGen h hblock hxy
    · rw [if_neg hx, if_pos rfl] at hxy
      exact hxy.to_reflTransGen
    · exact .refl

theorem Wrapped.below_block (hy : y ≠ copy) (hxy : t'.Reach copy y) :
    Relation.TransGen t.Above block y := by
  rcases Relation.reflTransGen_iff_eq_or_transGen.1 hxy with rfl | hxy
  · exact absurd rfl hy
  · obtain hxy | ⟨-, rfl⟩ := w.transGen h hblock hxy
    · rwa [if_pos rfl, if_neg hy] at hxy
    · exact absurd rfl hy

end Wrapped

section Nested

variable {t t₁ t' : Tree} {last copy x y : NodeId} (h : Forest t) (g : Grown t t₁ copy)
include h g

theorem Grown.not_reach (hx : x < t.size) : ¬ t₁.Reach x copy := fun hr =>
  Nat.ne_of_lt (Nat.lt_of_lt_of_le hx g.fresh) (g.eq_of_reach h hr)

variable (m : Moved t₁ t' last (some copy)) (hd : t₁.data? last ≠ some .fragment)
include m hd

/-- A node is put into a new one: there are no other ways than before between the old nodes. -/
theorem Grown.reach_of_moved (hx : x < t.size) (hy : y < t.size) (hr : t'.Reach x y) :
    t.Reach x y := by
  obtain hr | ⟨q, ⟨⟩, hxq, -⟩ := m.reach_of (g.forest h) hd hr
  · exact (g.reach_iff h hy).1 hr
  · exact absurd hxq (g.not_reach h hx)

theorem Grown.not_reach_moved (hx : x < t.size) : ¬ t'.Reach x copy := by
  intro hr
  obtain hr | ⟨q, ⟨⟩, hxq, -⟩ := m.reach_of (g.forest h) hd hr
  · exact g.not_reach h hx hr
  · exact g.not_reach h hx hxq

theorem Grown.below_moved (hy : y < t.size) (hr : t'.Reach copy y) : t.Reach last y := by
  obtain hr | ⟨q, -, -, hr⟩ := m.reach_of (g.forest h) hd hr
  · exact absurd hy (Nat.not_lt.2 (g.le_of_reach h hr))
  · exact (g.reach_iff h hy).1 hr

end Nested

end Tree

section Stack

variable {t t' : Tree} {A B S S' : List NodeId} {copy x : NodeId} {l k : Namespace × String}

/-- One more element goes into a stack in which nothing is below an inner element. -/
theorem pairwise_not_reach_insert (h : (A ++ B).Pairwise fun x y => ¬ t.Reach x y)
    (hold : ∀ x ∈ A ++ B, ∀ y ∈ A ++ B, t'.Reach x y → t.Reach x y)
    (hA : ∀ x ∈ A, ¬ t'.Reach x copy) (hB : ∀ y ∈ B, ¬ t'.Reach copy y) :
    (A ++ copy :: B).Pairwise fun x y => ¬ t'.Reach x y := by
  have hkeep : (A ++ B).Pairwise fun x y => ¬ t'.Reach x y :=
    h.imp_of_mem fun hx hy hxy hr => hxy (hold _ hx _ hy hr)
  obtain ⟨hpA, hpB, hcross⟩ := List.pairwise_append.1 hkeep
  refine List.pairwise_append.2 ⟨hpA, List.pairwise_cons.2 ⟨hB, hpB⟩, fun x hx y hy => ?_⟩
  obtain rfl | hy := List.mem_cons.1 hy
  · exact hA x hx
  · exact hcross x hx y hy

variable (hmem : ∀ x ∈ S', x = copy ∨ x ∈ S) (hl : t'.label? copy = some l)
  (hlabel : ∀ x ∈ S, t'.label? x = t.label? x)
include hmem hl hlabel

theorem isSome_label?_of_insert (h : ∀ x ∈ S, (t.label? x).isSome) :
    ∀ x ∈ S', (t'.label? x).isSome := by
  intro x hx
  obtain rfl | hx := hmem x hx
  · rw [hl]
    rfl
  · rw [hlabel x hx]
    exact h x hx

/-- If the new element is no part of the skeleton, those parts were there before. -/
theorem mem_of_insert (hout : l ∉ outerLabels) (hk : k ∈ outerLabels) (hx : x ∈ S')
    (hxk : t'.label? x = some k) : x ∈ S ∧ t.label? x = some k := by
  obtain rfl | hx := hmem x hx
  · rw [hl] at hxk
    cases hxk
    exact absurd hk hout
  · exact ⟨hx, (hlabel x hx).symm.trans hxk⟩

end Stack

/-- No part of the skeleton: such a node may be moved. -/
def Tree.Movable (t : Tree) (x : NodeId) : Prop := ∀ l ∈ outerLabels, t.label? x ≠ some l

theorem Tree.Movable.not_outer {t : Tree} {x : NodeId} {l : Namespace × String} (h : t.Movable x)
    (hl : t.label? x = some l) : l ∉ outerLabels := fun hout => h l hout hl

section Homed

variable {t t' : Tree} {h : NodeId}

theorem Tree.Homed.of_parent (hh : t.Homed h)
    (hlabel : ∀ x, x < t.size → t'.label? x = t.label? x)
    (hparent : ∀ x p, ¬ t.Movable x → t.parent? x = some p → t'.parent? x = some p) :
    t'.Homed h := by
  obtain ⟨hl, r, hr, hp, hrp⟩ := hh
  refine ⟨?_, r, ?_, ?_, ?_⟩
  · rw [hlabel h (lt_size_of_label? hl), hl]
  · rw [hlabel r (lt_size_of_label? hr), hr]
  · exact hparent h r (fun hm => hm _ (by decide) hl) hp
  · exact hparent r root (fun hm => hm _ (by decide) hr) hrp

end Homed

namespace Planted

variable {t t' : Tree} {deeper rest : List NodeId} {block copy : NodeId} {head : Option NodeId}
  {name : String}

/-- The copy around the children of an open element may be opened in it. -/
theorem wrapped (h : Planted t (deeper ++ block :: rest) head) (w : Wrapped t t' block copy)
    (hblock : t.Movable block) (hl : t'.label? copy = some (.html, name))
    (hname : (Namespace.html, name) ∉ outerLabels) (hs : t'.skeleton = t.skeleton) :
    Planted t' (deeper ++ copy :: block :: rest) head := by
  have hmem : block ∈ deeper ++ block :: rest := by simp
  have hlt := h.lt hmem
  obtain ⟨l, hbl⟩ := Option.isSome_iff_exists.1 (h.element block hmem)
  have hroot := h.forest.ne_root_of_label hbl
  have hne : ∀ {x}, x ∈ deeper ++ block :: rest → x ≠ copy := fun hx =>
    Nat.ne_of_lt (Nat.lt_of_lt_of_le (h.lt hx) w.fresh)
  have hmem' : ∀ x ∈ deeper ++ copy :: block :: rest, x = copy ∨ x ∈ deeper ++ block :: rest := by
    intro x hx
    simp only [List.mem_append, List.mem_cons] at hx ⊢
    tauto
  have hlabel : ∀ x ∈ deeper ++ block :: rest, t'.label? x = t.label? x := fun x hx =>
    w.label x (h.lt hx)
  have hparent : ∀ x p, t.parent? x = some p → x ≠ copy → p ≠ block → t'.parent? x = some p := by
    intro x p hp hx hpb
    rw [w.parent, if_neg hx, hp, if_neg (by simpa using hpb)]
  have hkeeps : t.Keeps t' := fun x l hx => (w.label x (lt_size_of_label? hx)).trans hx
  -- what is opened later is above no element that was opened earlier
  have hcross := (List.pairwise_append.1 h.order).2.2
  have hinner := (List.pairwise_cons.1 (List.pairwise_append.1 h.order).2.1).1
  refine ⟨w.forest h.forest hlt hroot, isSome_label?_of_insert hmem' hl hlabel h.element,
    fun x hx => ?_, pairwise_not_reach_insert h.order
    (fun x hx y hy => w.reach_of h.forest hlt (hne hx) (hne hy))
      (fun x hx hr => ?_) (fun y hy hr => ?_), fun x hx hh => ?_, h.upright.keeps hs hkeeps,
      fun x hx hh => ?_,
    fun k hk => ?_⟩
  · -- reached from the root: the copy by way of the block
    rcases hmem' x hx with rfl | hx
    · refine (w.reach h.forest (h.reach block hmem)).tail (Or.inl ?_)
      rw [w.parent, if_pos rfl]
    · exact w.reach h.forest (h.reach x hx)
  · -- an element above the copy is above the block it is in, so it does not come deeper
    -- on the stack
    exact hcross x hx block (List.mem_cons_self ..)
      (w.reach_block h.forest hlt (hne (List.mem_append_left _ hx)) hr)
  · -- what is below the copy is below the block
    have hr := w.below_block h.forest hlt (hne (List.mem_append_right _ hy)) hr
    rcases List.mem_cons.1 hy with rfl | hy
    · exact h.forest.acyclic _ hr
    · exact hinner y hy hr.to_reflTransGen
  · obtain ⟨hx, hh⟩ := mem_of_insert hmem' hl hlabel hname (by decide) hx hh
    exact hparent x root (h.html x hx hh) (hne hx) (Ne.symm hroot)
  · obtain ⟨hx, hh⟩ := mem_of_insert hmem' hl hlabel hname (by decide) hx hh
    rw [hs]
    exact h.body x hx hh
  · obtain ⟨hkl, r, hr, hp, hrp⟩ := h.head k hk
    have hlt' : ∀ {x l}, t.label? x = some l → x ≠ copy := fun hx =>
      Nat.ne_of_lt (Nat.lt_of_lt_of_le (lt_size_of_label? hx) w.fresh)
    refine ⟨by rw [w.label k (lt_size_of_label? hkl), hkl], r,
      by rw [w.label r (lt_size_of_label? hr), hr], hparent k r hp (hlt' hkl) ?_,
      hparent r root hrp (hlt' hr) (Ne.symm hroot)⟩
    rintro rfl
    exact hblock _ (by decide) hr

end Planted

/-! ## 2. Carrying a block -/

/-- The open elements `inner ++ outer` while one of `inner`, and what is below it, is carried: it
may hang nowhere, but nothing of `outer` is below it. -/
structure Carried (t : Tree) (inner outer : List NodeId) (last : NodeId) (head : Option NodeId) :
    Prop where
  forest : Forest t
  element : ∀ x ∈ inner ++ outer, (t.label? x).isSome
  mem : last ∈ inner
  movable : t.Movable last
  reach : ∀ x ∈ inner ++ outer, t.Reach root x ∨ t.Reach last x
  order : (inner ++ outer).Pairwise fun x y => ¬ t.Reach x y
  html : ∀ x ∈ inner ++ outer, t.label? x = some (.html, "html") → t.parent? x = some root
  upright : Upright t head
  body : ∀ x ∈ inner ++ outer, t.label? x = some (.html, "body") → x ∈ t.skeleton.bodies
  head : ∀ h, head = some h → t.Homed h

theorem Planted.carried {t : Tree} {inner outer : List NodeId} {last : NodeId}
    {head : Option NodeId} (h : Planted t (inner ++ outer) head) (hl : last ∈ inner)
    (hm : t.Movable last) : Carried t inner outer last head :=
  ⟨h.forest, h.element, hl, hm, fun x hx => Or.inl (h.reach x hx), h.order, h.html,
    h.upright, h.body, h.head⟩

namespace Carried

variable {t t' : Tree} {inner outer : List NodeId} {last x y p copy : NodeId}
  {head : Option NodeId} {name : String}

theorem lt (h : Carried t inner outer last head) (hx : x ∈ inner ++ outer) : x < t.size := by
  obtain ⟨l, hl⟩ := Option.isSome_iff_exists.1 (h.element x hx)
  exact lt_size_of_label? hl

theorem mem_stack (h : Carried t inner outer last head) : last ∈ inner ++ outer :=
  List.mem_append_left _ h.mem

theorem exists_label (h : Carried t inner outer last head) : ∃ l, t.label? last = some l :=
  Option.isSome_iff_exists.1 (h.element last h.mem_stack)

/-- What was opened before is not below what is carried. -/
theorem not_reach (h : Carried t inner outer last head) (hx : x ∈ inner) (hy : y ∈ outer) :
    ¬ t.Reach x y := (List.pairwise_append.1 h.order).2.2 x hx y hy

theorem reach_root (h : Carried t inner outer last head) (hy : y ∈ outer) : t.Reach root y :=
  (h.reach y (List.mem_append_right _ hy)).resolve_right (h.not_reach h.mem hy)

/-- Only the carried node is moved. -/
theorem parent?_eq {t₁ : Tree} {q : Option NodeId} (h : Carried t inner outer last head)
    (m : Moved t₁ t' last q) (hx : ¬ t.Movable x) (hp : t₁.parent? x = some p) :
    t'.parent? x = some p := by
  have hne : x ≠ last := by
    rintro rfl
    exact hx h.movable
  rw [m.parent, if_neg hne, hp]

/-- A copy is a new element that the carried node is moved into. -/
theorem moved_copy {t₁ : Tree} {attributes : List Attribute} (h : Carried t inner outer last head)
    (hnew : TreeBuilder.createElement t name attributes .html = (copy, t₁)) :
    Grown t t₁ copy ∧ Moved t₁ (t₁.appendChild copy last) last (some copy) := by
  have g := TreeBuilder.grown_createElement name attributes .html h.forest
  rw [hnew] at g
  exact ⟨g, moved_appendChild g.linked g.lt (Nat.lt_of_lt_of_le (h.lt h.mem_stack) g.size_le)⟩

/-- A new element around the carried node is in no skeleton. -/
theorem skeleton_copied {t₁ : Tree} (h : Carried t inner outer last head) (g : Grown t t₁ copy) :
    (t₁.appendChild copy last).skeleton = t.skeleton := by
  obtain ⟨l, hl⟩ := h.exists_label
  have hs := g.skeleton h.forest.linked
  have s := shifted_insertAt g.linked g.lt (Nat.lt_of_lt_of_le (h.lt h.mem_stack) g.size_le) none
  rw [← hs]
  refine (h.upright.keeps hs g.keeps).skeleton_element s (g.keeps last l hl)
    (h.movable.not_outer hl) ?_ (Or.inr fun hhtml => ?_) (by simp)
  · rintro rfl
    exact absurd h.forest.root_lt (Nat.not_lt.2 g.fresh)
  · exact g.not_mem_children root (documentElement?_mem hhtml).1

/-- The carried node is put into a new element, which is carried from then on. -/
theorem copied {t₁ : Tree} (h : Carried t inner outer last head) (g : Grown t t₁ copy)
    (m : Moved t₁ t' last (some copy)) (hl : t'.label? copy = some (.html, name))
    (hname : (Namespace.html, name) ∉ outerLabels) (hs : t'.skeleton = t.skeleton) :
    Carried t' (inner ++ [copy]) outer copy head := by
  have h₁ := g.forest h.forest
  obtain ⟨l, hll⟩ := h.exists_label
  have hlast : last < t.size := h.lt h.mem_stack
  have hsolid : t₁.data? last ≠ some .fragment := by
    rw [g.data last hlast]
    exact ne_fragment_of_label hll
  have hlabel : ∀ x, x < t.size → t'.label? x = t.label? x := fun x hx =>
    (label?_congr (m.data x)).trans (label?_congr (g.data x hx))
  have hmem : ∀ x ∈ inner ++ [copy] ++ outer, x = copy ∨ x ∈ inner ++ outer := by
    intro x hx
    simp only [List.mem_append, List.mem_singleton] at hx ⊢
    tauto
  have hlabel' : ∀ x ∈ inner ++ outer, t'.label? x = t.label? x := fun x hx => hlabel x (h.lt hx)
  have hparent : ∀ x q, ¬ t.Movable x → t.parent? x = some q → t'.parent? x = some q :=
    fun x q hx hq =>
    h.parent?_eq m hx ((g.parent x).trans hq)
  refine ⟨m.forest h₁ hsolid (h.forest.ne_root_of_label hll) ?_,
    isSome_label?_of_insert hmem hl hlabel'
    h.element, by simp, fun l hout hl' => ?_, fun x hx => ?_, ?_, fun x hx hh => ?_,
    h.upright.keeps hs (g.keeps.trans m.keeps),
    fun x hx hh => ?_, fun k hk => (h.head k hk).of_parent hlabel hparent⟩
  · rintro q ⟨⟩
    exact g.not_reach h.forest hlast
  · rw [hl] at hl'
    exact hname (Option.some.inj hl' ▸ hout)
  · rcases hmem x hx with rfl | hx
    · exact Or.inr .refl
    · -- an element that hangs on the carried node is now below the copy; any other is where it was
      have hcl : t'.Reach copy last := .single (Or.inl (by rw [m.parent, if_pos rfl]))
      by_cases hr : t.Reach last x
      · exact Or.inr (hcl.trans (m.reach_below h₁ hsolid ((g.reach_iff h.forest (h.lt hx)).2 hr)))
      · have hroot := (h.reach x hx).resolve_right hr
        rw [← g.reach_iff h.forest (h.lt hx)] at hroot hr
        exact Or.inl (m.reach_of_not h₁ hsolid hroot hr)
  · -- the copy is above only what the carried node is above, and no old element is above the copy
    rw [← List.append_cons]
    refine pairwise_not_reach_insert h.order
      (fun x hx y hy => g.reach_of_moved h.forest m hsolid (h.lt hx) (h.lt hy))
      (fun x hx => g.not_reach_moved h.forest m hsolid (h.lt (List.mem_append_left _ hx)))
      fun y hy hr => ?_
    exact h.not_reach h.mem hy
      (g.below_moved h.forest m hsolid (h.lt (List.mem_append_right _ hy)) hr)
  · obtain ⟨hx, hh⟩ := mem_of_insert hmem hl hlabel' hname (by decide) hx hh
    exact hparent x root (fun hm => hm _ (by decide) hh) (h.html x hx hh)
  · obtain ⟨hx, hh⟩ := mem_of_insert hmem hl hlabel' hname (by decide) hx hh
    rw [hs]
    exact h.body x hx hh

/-- The carried node is put down at a place in the document that is not below it, nor below the
elements opened after those outside. -/
theorem planted (h : Carried t inner outer last head) (m : Moved t t' last (some p))
    (hp : t.Reach root p) (hnot : ∀ x ∈ inner, ¬ t.Reach x p) (hs : t'.skeleton = t.skeleton) :
    Planted t' (inner ++ outer) head := by
  obtain ⟨l, hll⟩ := h.exists_label
  have hsolid := ne_fragment_of_label hll
  have hlp := hnot last h.mem
  have hlabel : ∀ x, t'.label? x = t.label? x := fun x => label?_congr (m.data x)
  have hparent : ∀ x q, ¬ t.Movable x → t.parent? x = some q → t'.parent? x = some q :=
    fun x q hx hq =>
    h.parent?_eq m hx hq
  refine ⟨m.forest h.forest hsolid (h.forest.ne_root_of_label hll) ?_, ?_, ?_, ?_, ?_,
    h.upright.keeps hs m.keeps, ?_, ?_⟩
  · rintro q ⟨⟩
    exact hlp
  · intro x hx
    rw [hlabel]
    exact h.element x hx
  · intro x hx
    -- what hung on the carried node is reached through the place that the node is put down at
    rcases h.reach x hx with hr | hr
    · exact m.reach_root h.forest hsolid rfl hlp hp hr
    · have hpl : t'.Reach p last := .single (Or.inl (by rw [m.parent, if_pos rfl]))
      have hrp := m.reach_of_not h.forest hsolid hp hlp
      exact (hrp.trans hpl).trans (m.reach_below h.forest hsolid hr)
  · -- a new way from one open element to another would go through the place and the node; the
    -- first does not
    -- reach the place, or the node does not reach the second
    have horder := List.pairwise_append.1 h.order
    refine List.pairwise_append.2 ⟨?_, ?_, ?_⟩
    · refine horder.1.imp_of_mem fun {x y} hx _ hxy hr => ?_
      rcases m.reach_of h.forest hsolid hr with hr | ⟨q, ⟨⟩, hxp, -⟩
      · exact hxy hr
      · exact hnot x hx hxp
    · refine horder.2.1.imp_of_mem fun {x y} _ hy hxy hr => ?_
      rcases m.reach_of h.forest hsolid hr with hr | ⟨q, -, -, hly⟩
      · exact hxy hr
      · exact h.not_reach h.mem hy hly
    · intro x hx y hy hr
      rcases m.reach_of h.forest hsolid hr with hr | ⟨q, -, -, hly⟩
      · exact horder.2.2 x hx y hy hr
      · exact h.not_reach h.mem hy hly
  · intro x hx hh
    rw [hlabel] at hh
    exact hparent x root (fun hm => hm _ (by decide) hh) (h.html x hx hh)
  · intro x hx hh
    rw [hlabel] at hh
    rw [hs]
    exact h.body x hx hh
  · intro k hk
    exact (h.head k hk).of_parent (fun x _ => hlabel x) hparent

end Carried

/-! ## 3. The walk to the formatting element -/

namespace TreeBuilder

variable {b : TreeBuilder}

theorem exists_entry {id : NodeId} {i : Nat} (h : b.formattingIndex? id = some i) :
    ∃ tag, b.formatting[i]? = some (.element id tag) := by
  obtain ⟨hlt, hid, -⟩ := List.findIdx?_eq_some_iff_getElem.1 h
  rw [List.getElem?_eq_getElem hlt]
  cases hentry : b.formatting[i] with
  | marker => simp [hentry, FormattingEntry.id?] at hid
  | element other tag =>
    obtain rfl : other = id := by simpa [hentry, FormattingEntry.id?] using hid
    exact ⟨tag, rfl⟩

/-- What holds while the nodes between a block and a formatting element are visited. The nodes
`rest` are still to be visited; `copies` are those of the others. -/
structure Walk.Sound (b : TreeBuilder) (deeper : List NodeId) (block : NodeId)
    (copies rest outer : List NodeId) (w : Walk) : Prop where
  same : w.builder = { b with
    tree := w.builder.tree, openElements := w.builder.openElements,
    formatting := w.builder.formatting }
  named : Named w.builder.tree w.builder.formatting
  keeps : b.tree.Keeps w.builder.tree
  skeleton : w.builder.tree.skeleton = b.tree.skeleton
  formatted : Formatted w.builder.tree copies
  carried : Carried w.builder.tree (deeper ++ block :: copies) outer w.lastNode b.headElement
  stack : w.builder.openElements = (deeper ++ block :: copies) ++ (rest ++ outer)

namespace Walk.Sound

variable {deeper copies rest outer : List NodeId} {block node element : NodeId} {w : Walk}
  {i : Nat} {tag : Tag}

omit b in
/-- The bookmark can move if an entry before it goes. -/
theorem forgetAt?_eq (hi : i < w.builder.formatting.length) : w.forgetAt? i = some
    { w with
      builder := { w.builder with formatting := w.builder.formatting.eraseIdx i }
      bookmark := if i < w.bookmark then w.bookmark - 1 else w.bookmark } := by
  have hbookmark : (if i < w.bookmark then Indexed.before? w.bookmark else some w.bookmark) =
      some (if i < w.bookmark then w.bookmark - 1 else w.bookmark) := by
    split
    · next hlt =>
      obtain ⟨n, hn⟩ := Nat.exists_eq_add_one_of_ne_zero (Nat.ne_zero_of_lt hlt)
      rw [hn]
      rfl
    · rfl
  simp only [forgetAt?, eraseFormatting_eq hi, hbookmark, Option.bind_eq_bind, Option.bind_some]
  rfl

end Walk.Sound

/-- What the walk from `w₀` has come to, visit by visit: of the nodes `between` block and formatting
element those in `rest` are still to be visited, and some of the others have been copied. -/
inductive Climbs (deeper : List NodeId) (block : NodeId) (outer : List NodeId) (w₀ : Walk)
    (between : List NodeId) : (copies rest : List NodeId) → Walk → Prop where
  | start : Climbs deeper block outer w₀ between [] between w₀
  | forget {copies rest : List NodeId} {node : NodeId} {w : Walk} {i : Nat}
    (h : Climbs deeper block outer w₀ between copies (node :: rest) w)
    (hi : w.builder.formattingIndex? node = some i) :
    Climbs deeper block outer w₀ between copies (node :: rest) { w with
      builder := { w.builder with formatting := w.builder.formatting.eraseIdx i }
      bookmark := if i < w.bookmark then w.bookmark - 1 else w.bookmark }
  | close {copies rest : List NodeId} {node : NodeId} {w : Walk}
    (h : Climbs deeper block outer w₀ between copies (node :: rest) w)
    (hi : w.builder.formattingIndex? node = none) :
    Climbs deeper block outer w₀ between copies rest { w with
      builder := { w.builder with
        openElements := (deeper ++ block :: copies) ++ (rest ++ outer) } }
  | copy {copies rest : List NodeId} {node id : NodeId} {w : Walk} {i : Nat} {tag : Tag}
      {tree : Tree}
    (h : Climbs deeper block outer w₀ between copies (node :: rest) w)
    (hi : w.builder.formattingIndex? node = some i)
    (htag : w.builder.formatting[i]? = some (.element node tag))
    (hnew : createElement w.builder.tree tag.name tag.attributes .html = (id, tree)) :
    Climbs deeper block outer w₀ between (copies ++ [id]) rest {
      builder := { w.builder with
        tree := tree.appendChild id w.lastNode
        formatting := w.builder.formatting.set i (.element id tag)
        openElements := (deeper ++ block :: (copies ++ [id])) ++ (rest ++ outer) }
      bookmark := if w.lastNode = block then i + 1 else w.bookmark
      lastNode := id }

namespace Climbs

variable {deeper between copies rest outer : List NodeId} {block element : NodeId} {w₀ w : Walk}

theorem sound (c : Climbs deeper block outer w₀ between copies rest w)
    (h : Walk.Sound b deeper block [] between outer w₀) :
    Walk.Sound b deeper block copies rest outer w := by
  -- each case says which parts of the walk one step changes; the others are those of the
  -- walk so far
  induction c with
  | start => exact h
  | forget _ _ ih =>
    refine ⟨?_, ih.named.subset List.eraseIdx_subset, ih.keeps, ih.skeleton,
      ih.formatted, ih.carried, ih.stack⟩
    rw [ih.same]
  | close _ _ ih =>
    refine ⟨?_, ih.named, ih.keeps, ih.skeleton, ih.formatted, ih.carried, rfl⟩
    rw [ih.same]
  | @copy copies rest node id w i tag tree _ _ htag hnew ih =>
    have ht := (ih.named node tag (List.mem_of_getElem? htag)).1
    obtain ⟨g, m⟩ := ih.carried.moved_copy hnew
    have hl := label?_createElement (t := w.builder.tree) tag.name tag.attributes .html
    rw [hnew] at hl
    have hl : (tree.appendChild id w.lastNode).label? id = some (.html, tag.name) :=
      (label?_congr (m.data id)).trans hl
    have hkeeps : w.builder.tree.Keeps (tree.appendChild id w.lastNode) := g.keeps.trans m.keeps
    have hs : (tree.appendChild id w.lastNode).skeleton = w.builder.tree.skeleton :=
      ih.carried.skeleton_copied g
    refine ⟨?_, (ih.named.keeps hkeeps).set i ht hl, ih.keeps.trans hkeeps,
      hs.trans ih.skeleton, ?_, ?_, rfl⟩
    · rw [ih.same]
    · refine (ih.formatted.keeps hkeeps).append fun x hx => ?_
      rw [List.mem_singleton.1 hx]
      exact ⟨tag.name, ht, hl⟩
    · have hc := ih.carried.copied g m hl (not_outer_of_formatting ht) hs
      rwa [List.append_assoc] at hc

/-- Entries of the list are forgotten only with the node that they are for. -/
theorem exists_forget (c : Climbs deeper block outer w₀ between copies (element :: rest) w) :
    ∃ w', w.forget? element = some w' ∧
      Climbs deeper block outer w₀ between copies (element :: rest) w' := by
  unfold Walk.forget?
  split
  · next i hi =>
    rw [Walk.Sound.forgetAt?_eq (formattingIndex?_lt hi)]
    exact ⟨_, rfl, c.forget hi⟩
  · exact ⟨w, rfl, c⟩

/-- The next node is replaced by a copy. -/
theorem copy?_eq {node id : NodeId} {i : Nat} {tag : Tag} {tree : Tree}
    (h : Walk.Sound b deeper block copies (node :: rest) outer w)
    (hi : w.builder.formattingIndex? node = some i)
    (hnew : createElement w.builder.tree tag.name tag.attributes .html = (id, tree)) :
    w.copy? block (rest ++ outer).length i tag = some
      { builder := { w.builder with
          tree := tree.appendChild id w.lastNode
          formatting := w.builder.formatting.set i (.element id tag)
          openElements := (deeper ++ block :: (copies ++ [id])) ++ (rest ++ outer) }
        bookmark := if w.lastNode = block then i + 1 else w.bookmark
        lastNode := id } := by
  have g := grown_createElement tag.name tag.attributes .html h.carried.forest
  rw [hnew] at g
  have hlast := Nat.lt_of_lt_of_le (h.carried.lt h.carried.mem_stack) g.size_le
  -- the entry and the place in the stack are in range, and so are the nodes
  have hentry := setFormatting_eq (b := { w.builder with tree }) (formattingIndex?_lt hi)
    (.element id tag)
  have hstack : w.builder.openElements = (deeper ++ block :: copies) ++ node :: (rest ++ outer) :=
    h.stack
  have hopen (entries : List FormattingEntry) := setOpen_eq
    (b := { w.builder with tree, formatting := entries }) hstack id
  dsimp only at hentry hopen
  simp only [Walk.copy?, hnew, hentry, hopen, appendChild?_eq g.linked g.lt hlast,
    Option.bind_eq_bind, Option.bind_some]
  simp

/-- The walk ends at the formatting element, which is above the block; on the way every index is in
range. -/
theorem exists_climb (c : Climbs deeper block (element :: outer) w₀ between copies rest w)
    (h : Walk.Sound b deeper block [] between (element :: outer) w₀) (hne : element ∉ rest)
    (count : Nat) : ∃ w' copies',
      Walk.climb? block element (rest ++ element :: outer).length count w = some w' ∧
      Climbs deeper block (element :: outer) w₀ between copies' [] w' := by
  induction rest generalizing copies count w with
  | nil =>
    -- the next element up the stack is the formatting element, where the walk ends
    have hnode := openAt?_eq (c.sound h).stack
    refine ⟨w, copies, ?_, c⟩
    rw [List.nil_append, List.length_cons, Walk.climb?, hnode]
    simp
  | cons node rest ih =>
    obtain ⟨hnode, hrest⟩ := not_or.1 (mt List.mem_cons.2 hne)
    have hstack : w.builder.openElements =
        (deeper ++ block :: copies) ++ node :: (rest ++ element :: outer) := (c.sound h).stack
    have hget := openAt?_eq hstack
    -- an element that is met late is first taken out of the list, and then closed like any other
    -- that is in no list
    have hforget : ∃ w', (if innerLimit < count then w.forget? node else some w) = some w' ∧
        Climbs deeper block (element :: outer) w₀ between copies (node :: rest) w' := by
      split
      · exact c.exists_forget
      · exact ⟨w, rfl, c⟩
    obtain ⟨w', hw', c'⟩ := hforget
    rw [List.cons_append, List.length_cons, Walk.climb?]
    simp only [hget, Option.bind_eq_bind, Option.bind_some, if_neg (Ne.symm hnode), hw']
    have h' := c'.sound h
    split
    · next hi =>
      have hopen : w'.builder.openElements =
          (deeper ++ block :: copies) ++ node :: (rest ++ element :: outer) := h'.stack
      have herase := eraseOpen_eq hopen
      rw [herase, Option.bind_some]
      exact ih (c'.close hi) hrest (count + 1)
    · next i hi =>
      obtain ⟨tag, htag⟩ := exists_entry hi
      simp only [htag, Option.bind_some, copy?_eq h' hi rfl]
      exact ih (c'.copy hi htag rfl) hrest (count + 1)

end Climbs

/-! ## 4. Taking a block out -/

theorem fosterPlace_append {pre l : List NodeId}
    (hpre : ∀ x ∈ pre, b.isHtml "template" x = false ∧ b.isHtml "table" x = false) :
    b.fosterPlace (pre ++ l) = b.fosterPlace l := by
  induction pre with
  | nil => rfl
  | cons x pre ih =>
    obtain ⟨⟨ht, htab⟩, hpre⟩ := List.forall_mem_cons.1 hpre
    rw [List.cons_append, fosterPlace, ht, htab]
    simpa using ih hpre

/-- The place for the carried block lies in the document and is not below what is carried. -/
theorem place_of_carried {inner outer : List NodeId} {element last : NodeId}
    {head : Option NodeId} (h : Carried b.tree inner (element :: outer) last head)
    (hopen : b.openElements = inner ++ element :: outer)
    (hinner : ∀ x ∈ inner, b.isHtml "template" x = false ∧ b.isHtml "table" x = false) :
    b.tree.Reach Tree.root (b.placeIn (outer.head?.getD Tree.root)).parent ∧
      ∀ x ∈ inner, ¬ b.tree.Reach x (b.placeIn (outer.head?.getD Tree.root)).parent := by
  -- both properties are inherited on the way to the place, and the elements outside have them
  have hP : Inherited b.tree fun y => b.tree.Reach Tree.root y ∧
      ∀ x ∈ inner, ¬ b.tree.Reach x y := by
    refine inherited_and (inherited_reach h.forest) (inherited_forall fun x hx => ?_)
    obtain ⟨l, hl⟩ := Option.isSome_iff_exists.1 (h.element x (List.mem_append_left _ hx))
    exact inherited_not_reach h.forest hl
  have hout : ∀ y ∈ element :: outer, b.tree.Reach Tree.root y ∧
      ∀ x ∈ inner, ¬ b.tree.Reach x y := fun y hy =>
    ⟨h.reach_root hy, fun x hx => h.not_reach hx hy⟩
  refine hP.placeIn ?_ ?_
  · exact hP.getD_head fun x hx => hout x (List.mem_cons_of_mem _ hx)
  · rw [hopen, fosterPlace_append hinner]
    refine hP.fosterPlace ?_ _ hout
    rw [hopen, List.getLast?_append_of_ne_nil _ (by simp)]
    cases hl : (element :: outer).getLast? with
    | none => exact hP.root
    | some x => exact hout x (List.mem_of_getLast? hl)

/-- It is in an element, so the skeleton stays when the block is put there. -/
theorem skeleton_of_carried {inner outer : List NodeId} {element last : NodeId}
    {head : Option NodeId} (h : Carried b.tree inner (element :: outer) last head)
    (hopen : b.openElements = inner ++ element :: outer)
    (hinner : ∀ x ∈ inner, b.isHtml "template" x = false ∧ b.isHtml "table" x = false)
    (houter : outer ≠ []) (hhead : head.isSome = true) :
    let place := b.placeIn (outer.head?.getD Tree.root)
    (b.tree.insertAt place.parent place.before last).skeleton = b.tree.skeleton := by
  intro place
  have hne : ∀ x ∈ element :: outer, x ≠ Tree.root := by
    intro x hx
    obtain ⟨l, hl⟩ := Option.isSome_iff_exists.1 (h.element x (List.mem_append_right _ hx))
    exact h.forest.ne_root_of_label hl
  have hlast : b.openElements.getLast?.getD Tree.root ≠ Tree.root := by
    rw [hopen, List.getLast?_append_of_ne_nil _ (by simp), List.getLast?_eq_some_getLast (by simp)]
    exact hne _ (List.getLast_mem _)
  -- neither the place in front of a table nor the one in the outer element is the document itself
  have hfoster : (b.fosterPlace b.openElements).parent ≠ Tree.root := by
    rw [hopen, fosterPlace_append hinner]
    exact fosterPlace_ne_root h.forest h.upright hlast _ fun x hx =>
      ⟨h.element x (List.mem_append_right _ hx), h.reach_root hx⟩
  have htarget : outer.head?.getD Tree.root ≠ Tree.root := by
    rw [List.head?_eq_some_head houter]
    exact hne _ (List.mem_cons_of_mem _ (List.head_mem houter))
  have hplt := h.forest.reach_lt h.forest.root_lt (place_of_carried h hopen hinner).1
  obtain ⟨l, hl⟩ := h.exists_label
  have s := shifted_insertAt h.forest.linked hplt (h.lt h.mem_stack) place.before
  exact h.upright.skeleton_element s hl (h.movable.not_outer hl)
    (placeIn_ne_root h.forest htarget hfoster) (Or.inl hhead) fun _ => label?_placeIn

/-- The children of an open element may be wrapped in a new formatting element. -/
theorem planted_wrapped {t t' : Tree} {deeper rest : List NodeId} {block copy : NodeId}
    {head : Option NodeId} {tag : Tag} (h : Planted t (deeper ++ block :: rest) head)
    (hmov : t.Movable block) (ht : tag.name ∈ Category.formatting)
    (hc : createElement t tag.name tag.attributes .html = (copy, t')) :
    let t'' := (t'.moveChildren block copy).appendChild block copy
    Planted t'' (deeper ++ copy :: block :: rest) head ∧ t.Keeps t'' ∧
      t''.skeleton = t.skeleton ∧ t''.label? copy = some (.html, tag.name) := by
  have hname := not_html_of_formatting ht
  have g := grown_createElement tag.name tag.attributes .html h.forest
  have hnone := contents?_createElement (t := t) tag.name tag.attributes .html hname.2.2
  have hnew := label?_createElement (t := t) tag.name tag.attributes .html
  rw [hc] at g hnone hnew
  have hblock := h.lt (x := block) (by simp)
  have w := wrapped_moveChildren h.forest g hnone hblock
  obtain ⟨l, hbl⟩ := Option.isSome_iff_exists.1 (h.element block (by simp))
  have hs := skeleton_moveChildren h.forest h.upright g hnew (not_outer_of_formatting ht) hblock
    (h.forest.ne_root_of_label hbl) fun hr => hmov _ (by decide) (h.upright.html block hr)
  have hl : ((t'.moveChildren block copy).appendChild block copy).label? copy =
      some (.html, tag.name) := by
    rw [← hnew]
    exact label?_congr ((data?_appendChild _).trans
      ((movedAll_moveChildren g.linked _ g.lt).data _))
  refine ⟨h.wrapped w hmov hl (not_outer_of_formatting ht) hs, fun x l hx => ?_, hs, hl⟩
  rw [← hx]
  exact w.label x (lt_size_of_label? hx)

/-- `b'` is `b` with other elements open inside those of `outer`: some of `old`, and new formatting
elements. -/
structure Rebuilt (b b' : TreeBuilder) (old outer : List NodeId) : Prop where
  same : b' = { b with
    tree := b'.tree, openElements := b'.openElements, formatting := b'.formatting }
  keeps : b.tree.Keeps b'.tree
  skeleton : b'.tree.skeleton = b.tree.skeleton
  named : Named b'.tree b'.formatting
  planted : Planted b'.tree b'.openElements b.headElement
  stack : ∃ new, b'.openElements = new ++ outer ∧
    ∀ x ∈ new, x ∈ old ∨ ∃ name ∈ Category.formatting, b'.tree.label? x = some (.html, name)

section Adopt

variable {deeper between copies outer : List NodeId} {block element : NodeId} {w : Walk}

/-- At the end of the walk, the carried block is put down outside the formatting element. -/
theorem Walk.Sound.putDown {t : Tree} {p : NodeId}
    (h : Walk.Sound b deeper block copies [] (element :: outer) w)
    (m : Moved w.builder.tree t w.lastNode (some p)) (hp : w.builder.tree.Reach Tree.root p)
    (hnot : ∀ x ∈ deeper ++ block :: copies, ¬ w.builder.tree.Reach x p)
    (hs : t.skeleton = w.builder.tree.skeleton) :
    Rebuilt b { w.builder with tree := t } (deeper ++ [block, element]) outer ∧
      Formatted t copies := by
  have hkeeps := m.keeps
  have hcopies := h.formatted.keeps hkeeps
  have hplanted := h.carried.planted m hp hnot hs
  have hstack := h.stack
  rw [List.nil_append] at hstack
  rw [← hstack] at hplanted
  refine ⟨⟨by rw [h.same], h.keeps.trans hkeeps, hs.trans h.skeleton, h.named.keeps hkeeps,
    hplanted, deeper ++ block :: copies ++ [element], by simp [hstack], fun x hx => ?_⟩, hcopies⟩
  simp only [List.mem_append, List.mem_cons, List.not_mem_nil, or_false] at hx ⊢
  rcases hx with (hx | hx | hx) | hx
  · exact Or.inl (Or.inl hx)
  · exact Or.inl (Or.inr (Or.inl hx))
  · exact Or.inr (hcopies x hx)
  · exact Or.inl (Or.inr (Or.inr hx))

/-- What is carried is neither a template nor a table. -/
theorem Walk.Sound.not_table (h : Walk.Sound b deeper block copies [] (element :: outer) w)
    (hl : ∀ x ∈ deeper ++ [block], (b.tree.label? x).isSome)
    (hnot : ∀ x ∈ deeper ++ [block], b.isHtml "template" x = false ∧ b.isHtml "table" x = false) :
    ∀ x ∈ deeper ++ block :: copies,
      w.builder.isHtml "template" x = false ∧ w.builder.isHtml "table" x = false := by
  intro x hx
  have hcases : x ∈ deeper ++ [block] ∨ x ∈ copies := by
    simp only [List.mem_append, List.mem_cons] at hx ⊢
    tauto
  simp only [Bool.eq_false_iff, Ne, isHtml_iff] at hnot ⊢
  rcases hcases with hx | hx
  · obtain ⟨l, hxl⟩ := Option.isSome_iff_exists.1 (hl x hx)
    have hnot := hnot x hx
    rw [hxl] at hnot
    rwa [h.keeps x l hxl]
  · obtain ⟨name, hname, hl⟩ := h.formatted x hx
    rw [hl]
    constructor <;> rintro ⟨⟩ <;> revert hname <;> decide

theorem not_outer_of_partOf {l : Namespace × String} (h : partOf l = none) : l ∉ outerLabels := by
  have hall : ∀ l ∈ outerLabels, partOf l ≠ none := by decide
  exact fun hl => hall l hl h

/-- Such an element is carried, and not looked for by foster parenting. -/
theorem movable_of_part? {x : NodeId} (hx : b.tree.part? x ∈ [none, some .select]) :
    b.tree.Movable x ∧ b.isHtml "template" x = false ∧ b.isHtml "table" x = false := by
  have hne : ∀ l, partOf l ∉ [none, some Part.select] → b.tree.label? x ≠ some l := by
    intro l hp hl
    rw [part?_of_label hl] at hx
    exact hp hx
  refine ⟨fun l hout => hne l ?_, ?_, ?_⟩
  · revert l
    decide
  · rw [Bool.eq_false_iff, Ne, isHtml_iff]
    exact hne _ (by decide)
  · rw [Bool.eq_false_iff, Ne, isHtml_iff]
    exact hne _ (by decide)

/-- The block may be carried out of the formatting element: no part but a select element is open in
the element, its outermost special element is the block, and something is open outside. -/
structure Carriable (b : TreeBuilder) (deeper : List NodeId) (block : NodeId)
    (between : List NodeId) (element : NodeId) (outer : List NodeId) : Prop where
  planted : Planted b.tree b.openElements b.headElement
  named : Named b.tree b.formatting
  stack : b.openElements = deeper ++ block :: (between ++ element :: outer)
  loose : ∀ x ∈ deeper ++ block :: between, b.tree.part? x ∈ [none, some .select]
  special : (b.tree.element? block).any Category.isSpecial = true
  ordinary : ∀ x ∈ between, (b.tree.element? x).any Category.isSpecial = false
  outer_ne : outer ≠ []
  head : b.headElement.isSome = true

/-- The place that the block is carried to. -/
def Walk.target (w : Walk) (outer : List NodeId) : Place :=
  w.builder.placeIn (outer.head?.getD Tree.root)

namespace Carriable

variable (h : Carriable b deeper block between element outer)
include h

theorem movable : b.tree.Movable block := (movable_of_part? (h.loose block (by simp))).1

theorem element_not_mem :
    element ∉ between ∧ element ∉ outer ∧ block ∉ between ++ element :: outer := by
  have hnodup := h.planted.nodup
  rw [h.stack] at hnodup
  obtain ⟨hblock, hnodup⟩ := List.nodup_cons.1 (List.nodup_append.1 hnodup).2.1
  refine ⟨fun hm => ?_, ?_, hblock⟩
  · exact (List.nodup_append.1 hnodup).2.2 element hm element (by simp) rfl
  · exact (List.nodup_cons.1 (List.nodup_append.1 hnodup).2.1).1

theorem start (bookmark : Nat) :
    Walk.Sound b deeper block [] between (element :: outer) ⟨b, bookmark, block⟩ := by
  have hsub : (deeper ++ block :: [] ++ element :: outer).Sublist b.openElements := by
    rw [h.stack]
    simp
  exact ⟨rfl, h.named, .refl _, rfl, fun _ hx => absurd hx List.not_mem_nil,
    (h.planted.sublist hsub).carried (by simp) h.movable, by simp [h.stack]⟩

variable {bookmark : Nat}
  (c : Climbs deeper block (element :: outer) ⟨b, bookmark, block⟩ between copies [] w)
include c

theorem sound : Walk.Sound b deeper block copies [] (element :: outer) w :=
  c.sound (h.start bookmark)

theorem not_table_climbed : ∀ x ∈ deeper ++ block :: copies,
    w.builder.isHtml "template" x = false ∧ w.builder.isHtml "table" x = false :=
  (h.sound c).not_table (fun x hx => h.planted.element x (by
    rw [h.stack]
    simp only [List.mem_append, List.mem_cons] at hx ⊢
    tauto)) fun x hx => (movable_of_part? (h.loose x (by
    simp only [List.mem_append, List.mem_cons] at hx ⊢
    tauto))).2

/-- It lies in the document, and not below what is carried. -/
theorem target : w.builder.tree.Reach Tree.root (w.target outer).parent ∧
    ∀ x ∈ deeper ++ block :: copies, ¬ w.builder.tree.Reach x (w.target outer).parent :=
  place_of_carried (h.sound c).carried (h.sound c).stack (h.not_table_climbed c)

end Carriable

/-- The walk with the last node put down at the place for what goes into the element outside. -/
def Walk.putDown (w : Walk) (outer : List NodeId) : Walk :=
  { w with builder := { w.builder with
      tree := w.builder.tree.insertAt (w.target outer).parent (w.target outer).before w.lastNode } }

section PutDown

variable (h : Carriable b deeper block between element outer) {bookmark : Nat}
  (c : Climbs deeper block (element :: outer) ⟨b, bookmark, block⟩ between copies [] w)
include h c

theorem Carriable.shifted : Shifted w.builder.tree (w.putDown outer).builder.tree w.lastNode
    (w.target outer).parent (w.target outer).before := by
  have hw := (h.sound c).carried
  exact shifted_insertAt hw.forest.linked (hw.forest.reach_lt hw.forest.root_lt (h.target c).1)
    (hw.lt hw.mem_stack) _

theorem Carriable.rebuilt : Rebuilt b (w.putDown outer).builder (deeper ++ [block, element]) outer ∧
    Formatted (w.putDown outer).builder.tree copies := by
  have hw := h.sound c
  obtain ⟨hreach, hnot⟩ := h.target c
  exact hw.putDown (h.shifted c).toMoved hreach hnot
    (skeleton_of_carried (b := w.builder) hw.carried
    hw.stack (h.not_table_climbed c) h.outer_ne h.head)

end PutDown

/-- The block is carried out of the formatting element, which stays open around the copies. -/
theorem carryOut?_eq (h : Carriable b deeper block between element outer)
    (c : Climbs deeper block (element :: outer)
      ⟨b, (b.formattingIndex? element).getD 0, block⟩ between copies [] w)
    (hclimb : Walk.climb? block element (between ++ element :: outer).length 1
      ⟨b, (b.formattingIndex? element).getD 0, block⟩ = some w) :
    b.carryOut? element block outer.length = some (w.putDown outer) := by
  have hw := h.sound c
  have hinner : b.openElements = (deeper ++ block :: (between ++ [element])) ++ outer := by
    simp [h.stack]
  have hplt := hw.carried.forest.reach_lt hw.carried.forest.root_lt (h.target c).1
  rw [carryOut?, outside?_eq hinner, openDepth?_eq h.stack h.element_not_mem.2.2, Option.getD_some]
  simp only [hclimb, placeIn?_eq, insertAtPlace?, Option.bind_eq_bind, Option.bind_some]
  rw [show w.builder.placeIn (outer.head?.getD Tree.root) = w.target outer from rfl,
    insertAt?_eq hw.carried.forest.linked hplt (hw.carried.lt hw.carried.mem_stack)
      (w.target outer).before]
  rfl

/-- What becomes of a walk in the last step: the new element `copy` around the children of the block
takes the place of the formatting element, whose entry is at index `i`. -/
def Walk.wrapped (w : Walk) (deeper copies outer : List NodeId) (block copy : NodeId) (grown : Tree)
    (i : Nat) (tag : Tag) : TreeBuilder :=
  let entries := w.builder.formatting.eraseIdx i
  let bookmark := if i < w.bookmark then w.bookmark - 1 else w.bookmark
  { w.builder with
    tree := (grown.moveChildren block copy).appendChild block copy
    formatting := entries.insertIdx (min bookmark entries.length) (.element copy tag)
    openElements := deeper ++ copy :: block :: (copies ++ outer) }

/-- The last step: the formatting element is closed, and its copy is open in the block. -/
theorem Rebuilt.wrap {old : List NodeId} {i : Nat} {tag : Tag}
    (h : Rebuilt b w.builder old outer)
    (hopen : w.builder.openElements = deeper ++ block :: (copies ++ element :: outer))
    (hold : ∀ x ∈ deeper ++ block :: copies, x ∈ old ∨
      ∃ name ∈ Category.formatting, w.builder.tree.label? x = some (.html, name))
    (hmov : w.builder.tree.Movable block) (hi : i < w.builder.formatting.length)
    (ht : tag.name ∈ Category.formatting) :
    ∃ copy grown, createElement w.builder.tree tag.name tag.attributes .html = (copy, grown) ∧
      wrap? w element block i tag = some (w.wrapped deeper copies outer block copy grown i tag) ∧
      Rebuilt b (w.wrapped deeper copies outer block copy grown i tag) old outer := by
  have hplanted := h.planted
  rw [hopen] at hplanted
  have g := grown_createElement tag.name tag.attributes .html hplanted.forest
  unfold wrap? Walk.wrapped
  generalize hc : createElement w.builder.tree tag.name tag.attributes .html = created at g ⊢
  obtain ⟨copy, tree⟩ := created
  refine ⟨copy, tree, rfl, ?_⟩
  dsimp only at g ⊢
  obtain ⟨hwrap, hkeeps, hs, hl⟩ := planted_wrapped hplanted hmov ht hc
  -- the nodes are in range
  have hblock : block < tree.size := Nat.lt_of_lt_of_le (hplanted.lt (by simp)) g.size_le
  have m := movedAll_moveChildren g.linked block g.lt
  have happend := appendChild?_eq (t := tree.moveChildren block copy) m.linked
    (by rw [m.size]; exact hblock) (by rw [m.size]; exact g.lt)
  simp only [moveChildren?_eq g.linked hblock g.lt, happend, Option.bind_eq_bind, Option.bind_some]
  generalize (tree.moveChildren block copy).appendChild block copy = wrapped at hwrap hkeeps hs hl ⊢
  -- the entries are in range
  have hforget := Walk.Sound.forgetAt?_eq (w := { w with
    builder := { w.builder with tree := wrapped } }) hi
  dsimp only at hforget
  simp only [hforget, Option.bind_some]
  generalize (if i < w.bookmark then w.bookmark - 1 else w.bookmark) = bookmark
  have hinsert := insertFormatting_eq (b := { w.builder with
    tree := wrapped, formatting := w.builder.formatting.eraseIdx i })
    (Nat.min_le_right bookmark _) (.element copy tag)
  dsimp only at hinsert
  simp only [hinsert, Option.bind_some]
  have hnamed : Named wrapped ((w.builder.formatting.eraseIdx i).insertIdx
      (min bookmark (w.builder.formatting.eraseIdx i).length) (.element copy tag)) :=
    ((h.named.keeps hkeeps).subset List.eraseIdx_subset).insertIdx _ ht hl
  generalize (w.builder.formatting.eraseIdx i).insertIdx _ _ = entries at hnamed ⊢
  -- the depths are in range
  have hnodup := h.planted.nodup
  have hinner : w.builder.openElements = (deeper ++ block :: copies) ++ element :: outer := by
    simp [hopen]
  have hremove := removeOpen_eq (b := { w.builder with tree := wrapped, formatting := entries })
    hinner hnodup
  have hclosed : (deeper ++ block :: copies) ++ outer = deeper ++ block :: (copies ++ outer) := by
    simp
  have hnot : block ∉ copies ++ outer := by
    rw [hopen] at hnodup
    have hnot := (List.nodup_cons.1 (List.nodup_append.1 hnodup).2.1).1
    simp only [List.mem_append, List.mem_cons] at hnot ⊢
    tauto
  obtain ⟨last, hlast⟩ : ∃ last, Indexed.before? ((deeper ++ block :: copies) ++ outer).length =
      some last := ⟨(deeper ++ copies ++ outer).length, by simp [Indexed.before?]⟩
  have hdepth := openDepth?_eq (b := { w.builder with
    tree := wrapped, formatting := entries, openElements := (deeper ++ block :: copies) ++ outer })
    hclosed hnot
  have hput := insertOpen_eq (b := { w.builder with
    tree := wrapped, formatting := entries, openElements := (deeper ++ block :: copies) ++ outer })
    hclosed copy
  dsimp only at hremove hdepth hput
  simp only [hremove, hlast, hdepth, Option.getD_some, hput, Option.bind_some, true_and]
  refine ⟨?_, h.keeps.trans hkeeps, hs.trans h.skeleton, hnamed, hwrap.sublist (by simp),
    deeper ++ copy :: block :: copies, by simp, fun x hx => ?_⟩
  · rw [h.same]
  · have hcases : x = copy ∨ x ∈ deeper ++ block :: copies := by
      simp only [List.mem_append, List.mem_cons] at hx ⊢
      tauto
    rcases hcases with rfl | hx
    · exact Or.inr ⟨tag.name, ht, hl⟩
    · refine (hold x hx).imp_right ?_
      rintro ⟨name, hname, hx⟩
      exact ⟨name, hname, hkeeps x _ hx⟩

end Adopt

/-! ## 5. A round of the agency -/

/-- What has to be said about a round that takes `block` out of the formatting element `element`. -/
structure AgencyRound where
  deeper : List NodeId
  block : NodeId
  between : List NodeId
  element : NodeId
  outer : List NodeId
  /-- The copies of the nodes in between. -/
  copies : List NodeId
  walk : Walk
  /-- The index of the entry of the formatting element when the walk is over. -/
  index : Nat
  tag : Tag
  /-- The copy of the formatting element. -/
  copy : NodeId
  /-- The tree when the copy has been made. -/
  grown : Tree

/-- The round `r` turns `b` into `b'`. -/
structure Hoists (b b' : TreeBuilder) (r : AgencyRound) : Prop where
  carriable : Carriable b r.deeper r.block r.between r.element r.outer
  climbs : Climbs r.deeper r.block (r.element :: r.outer)
    ⟨b, (b.formattingIndex? r.element).getD 0, r.block⟩ r.between r.copies [] r.walk
  index : r.walk.builder.formattingIndex? r.element = some r.index
  entry : r.walk.builder.formatting[r.index]? = some (.element r.element r.tag)
  created : createElement (r.walk.putDown r.outer).builder.tree r.tag.name r.tag.attributes .html =
    (r.copy, r.grown)
  result : b' = (r.walk.putDown r.outer).wrapped r.deeper r.copies r.outer r.block r.copy r.grown
    r.index r.tag
  rebuilt : Rebuilt b b' (r.deeper ++ [r.block, r.element]) r.outer

/-- The round `r` turns `b` into `b'`, and no part is open in its formatting element. -/
structure Adopts (b b' : TreeBuilder) (r : AgencyRound) : Prop extends Hoists b b' r where
  clear : Clear b.tree (r.deeper ++ r.block :: (r.between ++ [r.element]))

theorem Hoists.stack {b' : TreeBuilder} {r : AgencyRound} (h : Hoists b b' r) :
    b'.openElements = r.deeper ++ r.copy :: r.block :: (r.copies ++ r.outer) := by
  rw [h.result]
  rfl

/-- The element that the block is taken out of is one of those with entries. -/
theorem Hoists.label_element {b' : TreeBuilder} {r : AgencyRound} (h : Hoists b b' r) :
    ∃ name ∈ Category.formatting, b.tree.label? r.element = some (.html, name) := by
  have hs := h.carriable.sound h.climbs
  obtain ⟨hname, hl⟩ := hs.named r.element r.tag (List.mem_of_getElem? h.entry)
  obtain ⟨l, hl'⟩ := Option.isSome_iff_exists.1
    (h.carriable.planted.element r.element (by simp [h.carriable.stack]))
  exact ⟨r.tag.name, hname, by rw [hl', ← hs.keeps _ _ hl', hl]⟩

/-- The copy is made in the tree that the block has been put down in. -/
theorem Hoists.grown_copy {b' : TreeBuilder} {r : AgencyRound} (h : Hoists b b' r) :
    Grown (r.walk.putDown r.outer).builder.tree r.grown r.copy := by
  have g := grown_createElement r.tag.name r.tag.attributes .html
    (h.carriable.rebuilt h.climbs).1.planted.forest
  rwa [h.created] at g

theorem Hoists.block_lt {b' : TreeBuilder} {r : AgencyRound} (h : Hoists b b' r) :
    r.block < (r.walk.putDown r.outer).builder.tree.size := by
  refine (h.carriable.rebuilt h.climbs).1.planted.lt ?_
  change r.block ∈ r.walk.builder.openElements
  simp [(h.carriable.sound h.climbs).stack]

theorem Hoists.tree_eq {b' : TreeBuilder} {r : AgencyRound} (h : Hoists b b' r) :
    b'.tree = (r.grown.moveChildren r.block r.copy).appendChild r.block r.copy := by
  rw [h.result]
  rfl

/-- The elements that are opened are formatting elements. -/
theorem Hoists.formatted {b' : TreeBuilder} {r : AgencyRound} (h : Hoists b b' r) :
    Formatted b'.tree (r.copy :: r.copies) := by
  intro x hx
  obtain ⟨new, hnew, hcases⟩ := h.rebuilt.stack
  have hnodup := h.rebuilt.planted.nodup
  rw [h.stack] at hnodup hnew
  have hnew : new = r.deeper ++ r.copy :: r.block :: r.copies :=
    List.append_cancel_right (hnew.symm.trans (by simp))
  have hdistinct : x ∉ r.deeper ∧ x ≠ r.block := by
    simp only [List.nodup_append, List.nodup_cons, List.mem_append, List.mem_cons] at hnodup hx
    refine ⟨fun hd => ?_, fun hblock => ?_⟩
    · exact hnodup.2.2 x hd x (by tauto) rfl
    · rw [hblock] at hx
      rcases hx with hx | hx
      · exact hnodup.2.1.1 (Or.inl hx.symm)
      · exact hnodup.2.1.2.1 (Or.inl hx)
  obtain hold | hname :=
    hcases x (by rw [hnew]; simp only [List.mem_append, List.mem_cons] at hx ⊢; tauto)
  · simp only [List.mem_append, List.mem_cons, List.not_mem_nil, or_false] at hold
    obtain rfl : x = r.element := by tauto
    obtain ⟨name, hname, hl⟩ := h.label_element
    exact ⟨name, hname, h.rebuilt.keeps _ _ hl⟩
  · exact hname

theorem formattingIndex?_isSome {id : NodeId} {tag : Tag} (h : .element id tag ∈ b.formatting) :
    ∃ i, b.formattingIndex? id = some i := by
  refine Option.isSome_iff_exists.1 ?_
  rw [formattingIndex?, List.findIdx?_isSome, List.any_eq_true]
  exact ⟨_, h, by simp [FormattingEntry.id?]⟩

section Climbs

variable {deeper between copies rest outer : List NodeId} {block element : NodeId} {w₀ w : Walk}

theorem Climbs.rest_subset (c : Climbs deeper block outer w₀ between copies rest w) :
    rest ⊆ between := by
  induction c with
  | start => exact List.Subset.refl _
  | forget _ _ ih => exact ih
  | close _ _ ih => exact List.Subset.trans (List.subset_cons_self _ _) ih
  | copy _ _ _ _ ih => exact List.Subset.trans (List.subset_cons_self _ _) ih

/-- The entries of other elements stay in the list. -/
theorem Climbs.mem_formatting {tag : Tag} (c : Climbs deeper block outer w₀ between copies rest w)
    (hne : element ∉ between) (h : .element element tag ∈ w₀.builder.formatting) :
    .element element tag ∈ w.builder.formatting := by
  -- a step changes the entry of the node that it meets, which is another one than the entry
  -- of `element`
  have hkeep : ∀ {b : TreeBuilder} {node : NodeId} {i : Nat}, b.formattingIndex? node = some i →
      node ≠ element → .element element tag ∈ b.formatting →
      ∃ j, ∃ _ : j < b.formatting.length, b.formatting[j] = .element element tag ∧ j ≠ i := by
    intro b node i hi hnode hmem
    obtain ⟨j, hj, hentry⟩ := List.mem_iff_getElem.1 hmem
    refine ⟨j, hj, hentry, ?_⟩
    rintro rfl
    obtain ⟨tag', htag⟩ := exists_entry hi
    rw [List.getElem?_eq_getElem hj, hentry] at htag
    cases htag
    exact hnode rfl
  have hnode : ∀ {node rest copies w},
      Climbs deeper block outer w₀ between copies (node :: rest) w → node ≠ element := fun c => by
    rintro rfl
    exact hne (c.rest_subset (by simp))
  induction c with
  | start => exact h
  | forget c hi ih =>
    obtain ⟨j, hj, hentry, hji⟩ := hkeep hi (hnode c) ih
    exact List.mem_eraseIdx_iff_getElem.2 ⟨j, hj, hji, hentry⟩
  | close _ _ ih => exact ih
  | copy c hi _ _ ih =>
    obtain ⟨j, hj, hentry, hji⟩ := hkeep hi (hnode c) ih
    refine List.mem_iff_getElem.2 ⟨j, by simpa using hj, ?_⟩
    rw [List.getElem_set_ne (Ne.symm hji), hentry]

end Climbs

section Hoists

variable {b' : TreeBuilder} {r : AgencyRound} {deeper between outer : List NodeId}
  {block element : NodeId}

/-- When the walk is over, the element still has its entry, and the round comes to its end. -/
theorem exists_hoists_of_climbs {copies : List NodeId} {w : Walk} {tag : Tag}
    (h : Carriable b deeper block between element outer)
    (c : Climbs deeper block (element :: outer)
      ⟨b, (b.formattingIndex? element).getD 0, block⟩ between copies [] w)
    (hentry : .element element tag ∈ b.formatting) :
    ∃ b' i tag copy grown,
      Hoists b b' ⟨deeper, block, between, element, outer, copies, w, i, tag, copy, grown⟩ ∧
      (w.putDown outer).builder.formattingIndex? element = some i ∧
      (w.putDown outer).builder.formatting[i]? = some (.element element tag) ∧
      wrap? (w.putDown outer) element block i tag = some b' := by
  obtain ⟨hr, hcopies⟩ := h.rebuilt c
  have hstack : (w.putDown outer).builder.openElements =
      deeper ++ block :: (copies ++ element :: outer) := by
    simp [Walk.putDown, (h.sound c).stack]
  obtain ⟨i, hi⟩ := formattingIndex?_isSome (c.mem_formatting h.element_not_mem.1 hentry)
  obtain ⟨tag, htag⟩ := exists_entry hi
  -- the block is still what it was: no step changes what elements are
  have hmov : (w.putDown outer).builder.tree.Movable block := by
    obtain ⟨l, hl⟩ := Option.isSome_iff_exists.1 (h.planted.element block (by rw [h.stack]; simp))
    intro l' hout
    rw [hr.keeps block l hl, ← hl]
    exact h.movable l' hout
  have ht := (hr.named element tag (List.mem_of_getElem? htag)).1
  -- the copies that the walk left open have names of formatting elements
  have hkept : ∀ x ∈ deeper ++ block :: copies, x ∈ deeper ++ [block, element] ∨
      ∃ name ∈ Category.formatting, (w.putDown outer).builder.tree.label? x =
        some (.html, name) := by
    intro x hx
    simp only [List.mem_append, List.mem_cons] at hx ⊢
    rcases hx with hx | hx | hx
    · exact Or.inl (Or.inl hx)
    · exact Or.inl (Or.inr (Or.inl hx))
    · exact Or.inr (hcopies x hx)
  obtain ⟨copy, grown, hc, hwrap, hr'⟩ := hr.wrap hstack hkept hmov (formattingIndex?_lt hi) ht
  exact ⟨_, i, tag, copy, grown, ⟨h, c, hi, htag, hc, rfl, hr'⟩, hi, htag, hwrap⟩

/-- An element that has an entry is taken out of its place, and stays in the list until then. -/
theorem exists_hoists (h : Carriable b deeper block between element outer) {tag : Tag}
    (hentry : .element element tag ∈ b.formatting) :
    ∃ b' w copies i tag copy grown,
      Hoists b b' ⟨deeper, block, between, element, outer, copies, w, i, tag, copy, grown⟩ ∧
      b.carryOut? element block outer.length = some (w.putDown outer) ∧
      (w.putDown outer).builder.formattingIndex? element = some i ∧
      (w.putDown outer).builder.formatting[i]? = some (.element element tag) ∧
      wrap? (w.putDown outer) element block i tag = some b' := by
  obtain ⟨w, copies, hclimb, c⟩ := Climbs.exists_climb .start
    (h.start ((b.formattingIndex? element).getD 0)) h.element_not_mem.1 1
  obtain ⟨b', i, tag, copy, grown, hoists, hi, htag, hwrap⟩ := exists_hoists_of_climbs h c hentry
  exact ⟨b', w, copies, i, tag, copy, grown, hoists, carryOut?_eq h c hclimb, hi, htag, hwrap⟩

/-- Nothing else is open afterwards than before, but for formatting elements. -/
theorem Hoists.mem_openElements (h : Hoists b b' r) {x : NodeId} (hx : x ∈ b'.openElements) :
    x ∈ b.openElements ∨ ∃ name ∈ Category.formatting, b'.tree.label? x = some (.html, name) := by
  obtain ⟨new, hnew, hcases⟩ := h.rebuilt.stack
  rw [hnew] at hx
  rw [h.carriable.stack]
  rcases List.mem_append.1 hx with hx | hx
  · refine (hcases x hx).imp_left fun hold => ?_
    simp only [List.mem_append, List.mem_cons, List.not_mem_nil, or_false] at hold ⊢
    tauto
  · exact Or.inl (by simp [hx])

end Hoists

end TreeBuilder

end Hypertext
