import Hypertext.Proofs.Dom.Hierarchy
import Hypertext.Proofs.Dom.Links

/-!
# Forests

A node is above its children, and a template is above the root of its contents. In a `Forest` no
node is above itself, however long the way down is. Nothing in a tree checks this: it stays true
because a node is only moved to a place that is not below it.
-/

namespace Hypertext

namespace Tree

/-! ## 1. Being above -/

/-- `b` hangs directly below `a`: as a child, or as the root of the contents of a template. -/
def Above (t : Tree) (a b : NodeId) : Prop := t.parent? b = some a ∨ t.contents? a = some b

/-- `b` is `a`, or is found by going down from it. -/
def Reach (t : Tree) : NodeId → NodeId → Prop := Relation.ReflTransGen t.Above

structure Forest (t : Tree) : Prop where
  linked : Linked t
  document : ∃ mode, t.data? root = some (.document mode)
  root_parent : t.parent? root = none
  fragment : ∀ a f, t.contents? a = some f → t.data? f = some .fragment
  fragment_parent : ∀ f, t.data? f = some .fragment → t.parent? f = none
  host : ∀ a b f, t.contents? a = some f → t.contents? b = some f → a = b
  acyclic : ∀ x, ¬ Relation.TransGen t.Above x x

variable {t t' : Tree} {a b c p x y : NodeId} {q : Option NodeId}

theorem element?_congr (h : t'.data? x = t.data? x) : t'.element? x = t.element? x := by
  unfold element?
  rw [h]

theorem contents?_congr (h : t'.data? x = t.data? x) : t'.contents? x = t.contents? x := by
  unfold contents?
  rw [element?_congr h]

theorem lt_size_of_contents? (h : t.contents? a = some b) : a < t.size := by
  obtain ⟨e, he, -⟩ := contents?_eq_some.1 h
  exact lt_size_of_element? he

theorem Reach.trans {z : NodeId} (h₁ : t.Reach x y) (h₂ : t.Reach y z) : t.Reach x z :=
  Relation.ReflTransGen.trans h₁ h₂

namespace Forest

theorem above_left_lt (h : Forest t) (hab : t.Above a b) : a < t.size := by
  rcases hab with hp | hc
  · exact lt_size_of_mem_children ((h.linked.mem_children a b).2 hp)
  · exact lt_size_of_contents? hc

theorem above_right_lt (h : Forest t) (hab : t.Above a b) : b < t.size := by
  rcases hab with hp | hc
  · exact lt_size_of_parent? hp
  · exact lt_size_of_data? (h.fragment a b hc)

theorem parent?_empty (x : NodeId) : Tree.empty.parent? x = none := by
  by_cases hx : x = 0 <;> simp [Tree.empty, parent?, get?, hx]

/-- A document without content. -/
protected theorem empty : Forest Tree.empty := by
  have hcontents : ∀ a f, Tree.empty.contents? a ≠ some f := by
    intro a f
    by_cases ha : a = 0 <;> simp [Tree.empty, contents?, element?, data?, get?, ha]
  refine ⟨.empty, ⟨_, rfl⟩, rfl, fun a f h => absurd h (hcontents a f), fun f _ => parent?_empty f,
    fun a b f h => absurd h (hcontents a f), fun x hx => ?_⟩
  obtain ⟨y, hy, -⟩ := Relation.TransGen.head'_iff.1 hx
  rcases hy with hp | hc
  · rw [parent?_empty] at hp
    cases hp
  · exact hcontents x y hc

theorem root_lt (h : Forest t) : root < t.size := by
  obtain ⟨mode, hd⟩ := h.document
  exact lt_size_of_data? hd

theorem reach_lt (h : Forest t) (hx : x < t.size) (hxy : t.Reach x y) : y < t.size := by
  induction hxy with
  | refl => exact hx
  | tail _ hab _ => exact h.above_right_lt hab

theorem left_lt_of_reach (h : Forest t) (hy : y < t.size) (hxy : t.Reach x y) : x < t.size := by
  rcases Relation.ReflTransGen.cases_head hxy with rfl | ⟨z, hxz, -⟩
  · exact hy
  · exact h.above_left_lt hxz

/-- Only the document reaches the document: nothing is above it. -/
theorem reach_root (h : Forest t) (hx : t.Reach x root) : x = root := by
  rcases Relation.ReflTransGen.cases_tail hx with hx | ⟨z, -, hz | hz⟩
  · exact hx.symm
  · rw [h.root_parent] at hz
    cases hz
  · obtain ⟨mode, hd⟩ := h.document
    rw [h.fragment z root hz] at hd
    cases hd

theorem above_unique (h : Forest t) (ha : t.Above a c) (hb : t.Above b c) : a = b := by
  -- the root of the contents of a template has no parent
  have hnot : ∀ {x y}, t.parent? c = some x → t.contents? y ≠ some c := fun hp hc => by
    rw [h.fragment_parent c (h.fragment _ c hc)] at hp
    cases hp
  rcases ha with ha | ha
  · rcases hb with hb | hb
    · exact Option.some.inj (ha.symm.trans hb)
    · exact absurd hb (hnot ha)
  · rcases hb with hb | hb
    · exact absurd ha (hnot hb)
    · exact h.host a b c ha hb

theorem hierarchy (h : Forest t) : Hierarchy t.Above := ⟨h.acyclic, fun _ _ _ => h.above_unique⟩

/-- There is one way up. -/
theorem reach_of_above (h : Forest t) {z : NodeId} (hz : t.Above z y) (hxy : t.Reach x y)
    (hne : x ≠ y) : t.Reach x z := h.hierarchy.reach_of hz hxy hne

theorem reach_antisymm (h : Forest t) (hxy : t.Reach x y) (hyx : t.Reach y x) : x = y :=
  h.hierarchy.antisymm hxy hyx

theorem not_reach_of_above (h : Forest t) (hxy : t.Above x y) : ¬ t.Reach y x :=
  h.hierarchy.not_reach hxy

end Forest

/-! ## 2. Moving a node -/

section Moved

variable (h : Forest t) (m : Moved t t' c q) (hd : t.data? c ≠ some .fragment)
include h m hd

/-- The part of a move that matters for what is above what. -/
theorem Moved.rehung : Hierarchy.Rehung t.Above t'.Above c q := fun a b => by
  unfold Above
  rw [m.parent, contents?_congr (m.data a)]
  by_cases hb : b = c
  · subst hb
    have hc : t.contents? a ≠ some b := fun hc => hd (h.fragment a b hc)
    simp [hc]
  · simp [hb]

/-- A way down after the move is one from before, or it passes through the moved node. -/
theorem Moved.reach_of (hxy : t'.Reach x y) :
    t.Reach x y ∨ ∃ p, q = some p ∧ t.Reach x p ∧ t.Reach c y := (m.rehung h hd).reach_of hxy

/-- What is not below the moved node is found as before. -/
theorem Moved.reach_of_not (hxy : t.Reach x y) (hcy : ¬ t.Reach c y) : t'.Reach x y :=
  (m.rehung h hd).reach_of_not hxy hcy

/-- What is below the moved node moves along. -/
theorem Moved.reach_below (hcy : t.Reach c y) : t'.Reach c y :=
  h.hierarchy.reach_below (m.rehung h hd) hcy

/-- If the new place is not below the moved node, nothing is below itself after the move. -/
theorem Moved.forest (hroot : c ≠ root) (hq : ∀ p, q = some p → ¬ t.Reach c p) : Forest t' where
  linked := m.linked
  document := by simpa only [m.data] using h.document
  root_parent := by rw [m.parent, if_neg (Ne.symm hroot)]; exact h.root_parent
  fragment a f := by
    rw [contents?_congr (m.data a), m.data]
    exact h.fragment a f
  fragment_parent f hf := by
    rw [m.data] at hf
    have hfc : f ≠ c := by
      rintro rfl
      exact hd hf
    rw [m.parent, if_neg hfc]
    exact h.fragment_parent f hf
  host a b f := by
    rw [contents?_congr (m.data a), contents?_congr (m.data b)]
    exact h.host a b f
  acyclic := (h.hierarchy.rehung (m.rehung h hd) hq).acyclic

/-- A move to a place in the document keeps in the document what is in it. -/
theorem Moved.reach_root (hq : q = some p) (hcp : ¬ t.Reach c p) (hp : t.Reach root p)
    (hy : t.Reach root y) : t'.Reach root y := by
  by_cases hcy : t.Reach c y
  · have hpc : t'.Reach p c := .single ((m.rehung h hd p c).2 (Or.inr ⟨rfl, hq⟩))
    exact ((m.reach_of_not h hd hp hcp).trans hpc).trans (m.reach_below h hd hcy)
  · exact m.reach_of_not h hd hy hcy

end Moved

/-! ## 3. New nodes -/

/-- `t'` has the nodes of `t` with the same links, and new ones without parent: `id` and maybe the
root of its contents. -/
structure Grown (t t' : Tree) (id : NodeId) : Prop where
  linked : Linked t'
  fresh : t.size ≤ id
  lt : id < t'.size
  data : ∀ x, x < t.size → t'.data? x = t.data? x
  parent : ∀ x, t'.parent? x = t.parent? x
  children : ∀ x, t'.children x = t.children x
  solid : t'.data? id ≠ some .fragment
  fragment : ∀ f, t'.contents? id = some f → t'.data? f = some .fragment
  above : ∀ a b, t'.Above a b → t.Above a b ∨ (a = id ∧ t.size ≤ b ∧ b ≠ id)

namespace Grown

theorem size_le (g : Grown t t' x) : t.size ≤ t'.size :=
  Nat.le_trans g.fresh (Nat.le_of_lt g.lt)

theorem above_of (g : Grown t t' x) (hab : t.Above a b) : t'.Above a b := by
  rcases hab with hp | hc
  · exact Or.inl (by rw [g.parent, hp])
  · exact Or.inr (by rw [contents?_congr (g.data a (lt_size_of_contents? hc)), hc])

theorem reach_iff (h : Forest t) (g : Grown t t' x) (hb : b < t.size) :
    t'.Reach a b ↔ t.Reach a b := by
  constructor
  · intro hab
    induction hab with
    | refl => exact .refl
    | tail _ hcb ih =>
      rcases g.above _ _ hcb with hcb | ⟨-, hb', -⟩
      · exact (ih (h.above_left_lt hcb)).tail hcb
      · exact absurd hb (Nat.not_lt.2 hb')
  · intro hab
    induction hab with
    | refl => exact .refl
    | tail _ hcb ih => exact (ih (h.above_left_lt hcb)).tail (g.above_of hcb)

/-- From a new node only new nodes are found. -/
theorem le_of_reach (h : Forest t) (g : Grown t t' x) (hxy : t'.Reach x y) : t.size ≤ y := by
  by_contra hy
  have hlt : y < t.size := Nat.lt_of_not_le hy
  have hx := h.left_lt_of_reach hlt ((g.reach_iff h hlt).1 hxy)
  exact absurd hx (Nat.not_lt.2 g.fresh)

/-- Nothing is above a new node. -/
theorem eq_of_reach (h : Forest t) (g : Grown t t' x) (hyx : t'.Reach y x) : y = x := by
  rcases Relation.ReflTransGen.cases_tail hyx with hy | ⟨z, -, hz⟩
  · exact hy.symm
  · rcases g.above _ _ hz with hz | ⟨-, -, hne⟩
    · exact absurd (h.above_right_lt hz) (Nat.not_lt.2 g.fresh)
    · exact absurd rfl hne

theorem forest (h : Forest t) (g : Grown t t' x) : Forest t' where
  linked := g.linked
  document := by simpa only [g.data root h.root_lt] using h.document
  root_parent := by rw [g.parent]; exact h.root_parent
  fragment a f hf := by
    -- an old template keeps its content; a new one may only have a fragment that was made with it
    rcases g.above a f (Or.inr hf) with haf | ⟨rfl, -, -⟩
    · have ha := h.above_left_lt haf
      rw [g.data f (h.above_right_lt haf)]
      rw [contents?_congr (g.data a ha)] at hf
      exact h.fragment a f hf
    · exact g.fragment f hf
  fragment_parent f hf := by
    rw [g.parent]
    by_cases hlt : f < t.size
    · rw [g.data f hlt] at hf
      exact h.fragment_parent f hf
    · exact parent?_eq_none t f (Nat.le_of_not_lt hlt)
  host a b f ha hb := by
    rcases g.above a f (Or.inr ha) with ha' | ⟨rfl, hf, -⟩ <;>
      rcases g.above b f (Or.inr hb) with hb' | ⟨rfl, hf', -⟩
    · rw [contents?_congr (g.data a (h.above_left_lt ha'))] at ha
      rw [contents?_congr (g.data b (h.above_left_lt hb'))] at hb
      exact h.host a b f ha hb
    · exact absurd (h.above_right_lt ha') (Nat.not_lt.2 hf')
    · exact absurd (h.above_right_lt hb') (Nat.not_lt.2 hf)
    · rfl
  acyclic y hy := by
    -- a cycle of old nodes was there before, and to the new node no way leads back
    obtain ⟨z, hyz, hzy⟩ := Relation.TransGen.head'_iff.1 hy
    rcases g.above y z hyz with hyz | ⟨rfl, -, hne⟩
    · have hzy := (g.reach_iff h (h.above_left_lt hyz)).1 hzy
      exact h.acyclic y (Relation.TransGen.head' hyz hzy)
    · exact hne (g.eq_of_reach h hzy)

/-- A new node without contents. -/
theorem alloc (h : Forest t) {data : NodeData} (hd : data ≠ .fragment)
    (hc : ∀ e, data = .element e → e.contents = none) : Grown t (t.alloc data).2 t.size where
  linked := h.linked.alloc data
  fresh := Nat.le_refl _
  lt := by simp
  data x hx := by rw [data?_alloc, if_neg (Nat.ne_of_lt hx)]
  parent x := parent?_alloc t x data
  children x := children_alloc t x data
  solid := by simpa [data?_alloc] using hd
  fragment f hf := by
    obtain ⟨e, he, hf⟩ := contents?_eq_some.1 hf
    rw [element?_eq_some, data?_alloc, if_pos rfl] at he
    rw [hc e (Option.some.inj he)] at hf
    cases hf
  above a b hab := by
    rcases hab with hp | hf
    · exact Or.inl (Or.inl (by rwa [parent?_alloc] at hp))
    · obtain ⟨e, he, hf⟩ := contents?_eq_some.1 hf
      rw [element?_eq_some, data?_alloc] at he
      split at he
      · rw [hc e (Option.some.inj he)] at hf
        cases hf
      · exact Or.inl (Or.inr (contents?_eq_some.2 ⟨e, element?_eq_some.2 he, hf⟩))

/-- A new template, made directly after the root of its contents. -/
theorem alloc_template (h : Forest t) {e : Element} (he : e.contents = some t.size) :
    Grown t ((t.alloc .fragment).2.alloc (.element e)).2 (t.size + 1) where
  linked := (h.linked.alloc _).alloc _
  fresh := Nat.le_succ _
  lt := by simp
  data x hx := by simp [data?_alloc, Nat.ne_of_lt hx, Nat.ne_of_lt (Nat.lt_succ_of_lt hx)]
  parent x := by simp
  children x := by simp
  solid := by simp [data?_alloc]
  fragment f hf := by
    obtain ⟨e', he', hf⟩ := contents?_eq_some.1 hf
    simp only [element?_eq_some, data?_alloc, size_alloc, if_true, Option.some.injEq,
      NodeData.element.injEq] at he'
    subst he'
    rw [he] at hf
    cases hf
    simp [data?_alloc]
  above a b hab := by
    -- the only new edge leads from the template to its content
    rcases hab with hp | hf
    · exact Or.inl (Or.inl (by simpa using hp))
    · obtain ⟨e', he', hf⟩ := contents?_eq_some.1 hf
      rw [element?_eq_some, data?_alloc, size_alloc] at he'
      split at he'
      · next ha =>
        cases he'
        rw [he] at hf
        cases hf
        exact Or.inr ⟨ha, Nat.le_refl _, by simp⟩
      · rw [data?_alloc] at he'
        split at he'
        · cases he'
        · exact Or.inl (Or.inr (contents?_eq_some.2 ⟨e', element?_eq_some.2 he', hf⟩))

end Grown

/-! ## 4. Extensions -/

/-- The namespace and the name of an element. -/
def label? (t : Tree) (x : NodeId) : Option (Namespace × String) :=
  (t.element? x).map fun e => (e.ns, e.tagName)

theorem label?_empty (x : NodeId) : Tree.empty.label? x = none := by
  by_cases hx : x = 0 <;> simp [Tree.empty, label?, element?, data?, get?, hx]

theorem label?_congr (h : t'.data? x = t.data? x) : t'.label? x = t.label? x := by
  rw [label?, label?, element?_congr h]

theorem mode_congr (h : t'.data? root = t.data? root) : t'.mode = t.mode := by rw [mode, mode, h]

theorem exists_element_of_label {l : Namespace × String} (h : t.label? x = some l) :
    ∃ e, t.element? x = some e ∧ e.ns = l.1 ∧ e.tagName = l.2 := by
  obtain ⟨e, he, rfl⟩ := Option.map_eq_some_iff.1 h
  exact ⟨e, he, rfl, rfl⟩

theorem lt_size_of_label? {l : Namespace × String} (h : t.label? x = some l) : x < t.size := by
  obtain ⟨e, he, -⟩ := exists_element_of_label h
  exact lt_size_of_element? he

/-- Elements keep their namespace and their name. -/
def Keeps (t t' : Tree) : Prop := ∀ x l, t.label? x = some l → t'.label? x = some l

theorem Keeps.refl (t : Tree) : t.Keeps t := fun _ _ h => h

theorem Keeps.trans {t'' : Tree} (h : t.Keeps t') (h' : t'.Keeps t'') : t.Keeps t'' :=
  fun x l hx => h' x l (h x l hx)

theorem Moved.keeps (m : Moved t t' c q) : t.Keeps t' := fun x _ hx =>
  (label?_congr (m.data x)).trans hx

theorem Grown.keeps {id : NodeId} (g : Grown t t' id) : t.Keeps t' := fun x _ hx =>
  (label?_congr (g.data x (lt_size_of_label? hx))).trans hx

/-- The nodes of `t` are found in `t'` where they were; there may be more. -/
structure Extends (t t' : Tree) : Prop where
  forest : Forest t'
  size_le : t.size ≤ t'.size
  label : ∀ x, x < t.size → t'.label? x = t.label? x
  parent : ∀ x, x < t.size → t'.parent? x = t.parent? x
  reach_iff : ∀ x y, y < t.size → (t'.Reach x y ↔ t.Reach x y)

theorem Forest.extends_refl (h : Forest t) : Extends t t :=
  ⟨h, Nat.le_refl _, fun _ _ => rfl, fun _ _ => rfl, fun _ _ _ => Iff.rfl⟩

theorem Extends.trans {t'' : Tree} (h : Extends t t') (h' : Extends t' t'') : Extends t t'' where
  forest := h'.forest
  size_le := Nat.le_trans h.size_le h'.size_le
  label x hx := (h'.label x (Nat.lt_of_lt_of_le hx h.size_le)).trans (h.label x hx)
  parent x hx := (h'.parent x (Nat.lt_of_lt_of_le hx h.size_le)).trans (h.parent x hx)
  reach_iff x y hy :=
    (h'.reach_iff x y (Nat.lt_of_lt_of_le hy h.size_le)).trans (h.reach_iff x y hy)

theorem Extends.keeps (e : Extends t t') : t.Keeps t' := fun x l hx => by
  rw [e.label x (lt_size_of_label? hx), hx]

/-- An extension with a new node `id` below `p`. -/
structure Sprout (t t' : Tree) (id p : NodeId) : Prop extends Extends t t' where
  fresh : t.size ≤ id
  parent_new : t'.parent? id = some p
  le_of_reach : ∀ y, t'.Reach id y → t.size ≤ y

/-- A new node may be put below any old one. -/
theorem Grown.sprout {t'' : Tree} {id : NodeId} (h : Forest t) (g : Grown t t' id)
    (m : Moved t' t'' id (some p)) (hp : p < t.size) : Sprout t t'' id p := by
  have h' := g.forest h
  -- from the new node only new nodes are reached
  have hnot : ∀ y, y < t.size → ¬ t'.Reach id y := fun y hy hr =>
    absurd hy (Nat.not_lt.2 (g.le_of_reach h hr))
  have hroot : id ≠ root := by
    rintro rfl
    exact absurd h.root_lt (Nat.not_lt.2 g.fresh)
  refine ⟨⟨m.forest h' g.solid hroot ?_, ?_, ?_, ?_, ?_⟩, g.fresh, ?_, ?_⟩
  · rintro q ⟨⟩
    exact hnot p hp
  · rw [m.size]; exact g.size_le
  · intro x hx
    rw [label?_congr (m.data x), label?_congr (g.data x hx)]
  · intro x hx
    rw [m.parent, if_neg (Nat.ne_of_lt (Nat.lt_of_lt_of_le hx g.fresh)), g.parent]
  · intro x y hy
    rw [← g.reach_iff h hy]
    constructor
    · intro hxy
      -- a way over the new edge would end below the new node, where no old node is
      rcases m.reach_of h' g.solid hxy with hxy | ⟨-, -, -, hr⟩
      · exact hxy
      · exact absurd hr (hnot y hy)
    · intro hxy
      exact m.reach_of_not h' g.solid hxy (hnot y hy)
  · rw [m.parent, if_pos rfl]
  · intro y hy
    rcases m.reach_of h' g.solid hy with hy | ⟨-, -, -, hy⟩ <;> exact g.le_of_reach h hy

/-! ## 5. Changes of data -/

end Tree

/-- What the data of a node says about the shape of the tree: not the text, nor attributes. -/
def NodeData.shape : NodeData → NodeData
  | .document _ => .document .noQuirks
  | .element e => .element { e with attributes := [] }
  | .text _ => .text ""
  | d => d

namespace Tree

variable {t t' : Tree} {x : NodeId}

/-- A change of data that keeps the shape of every node. -/
structure SameShape (t t' : Tree) : Prop where
  linked : Linked t'
  size : t'.size = t.size
  parent : ∀ x, t'.parent? x = t.parent? x
  children : ∀ x, t'.children x = t.children x
  shape : ∀ x, (t'.data? x).map (·.shape) = (t.data? x).map (·.shape)

/-- The element of a node, as its shape shows it. -/
theorem element?_shape (t : Tree) (x : NodeId) :
    ((t.data? x).map (·.shape)).bind (fun d => match d with | .element e => some e | _ => none) =
      (t.element? x).map fun e => { e with attributes := [] } := by
  unfold element?
  cases t.data? x with
  | none => rfl
  | some d => cases d <;> rfl

theorem SameShape.element (s : SameShape t t') (x : NodeId) :
    (t'.element? x).map (fun e => { e with attributes := [] }) =
      (t.element? x).map fun e => { e with attributes := [] } := by
  rw [← element?_shape, ← element?_shape, s.shape]

theorem SameShape.label (s : SameShape t t') (x : NodeId) : t'.label? x = t.label? x := by
  have h := congrArg (Option.map fun e => (e.ns, e.tagName)) (s.element x)
  rwa [Option.map_map, Option.map_map] at h

theorem SameShape.contents (s : SameShape t t') (x : NodeId) :
    t'.contents? x = t.contents? x := by
  have h := congrArg (Option.bind · Element.contents) (s.element x)
  rwa [Option.bind_map, Option.bind_map] at h

theorem SameShape.fragment (s : SameShape t t') (x : NodeId) :
    t'.data? x = some .fragment ↔ t.data? x = some .fragment := by
  have hx := s.shape x
  rcases hd : t.data? x with _ | d <;> rcases hd' : t'.data? x with _ | d' <;>
    simp only [hd, hd', Option.map_none, Option.map_some, reduceCtorEq] at hx ⊢
  cases d <;> cases d' <;> simp_all [NodeData.shape]

theorem SameShape.extends (h : Forest t) (s : SameShape t t') : Extends t t' := by
  have habove : t'.Above = t.Above := by
    funext a b
    rw [Above, Above, s.parent, s.contents]
  have hfrag := s.fragment
  refine ⟨?_, Nat.le_of_eq s.size.symm, fun x _ => s.label x, fun x _ => s.parent x, ?_⟩
  · constructor
    · exact s.linked
    · obtain ⟨m, hm⟩ := h.document
      have hx := s.shape root
      rcases hd : t'.data? root with _ | d
      · simp [hd, hm] at hx
      · cases d <;> simp_all [NodeData.shape]
    · rw [s.parent]; exact h.root_parent
    · intro a f hf
      rw [s.contents] at hf
      exact (hfrag f).2 (h.fragment a f hf)
    · intro f hf
      rw [s.parent]
      exact h.fragment_parent f ((hfrag f).1 hf)
    · intro a b f
      rw [s.contents, s.contents]
      exact h.host a b f
    · rw [habove]; exact h.acyclic
  · intro x y _
    rw [Reach, Reach, habove]

theorem sameShape_modify (h : Linked t) (id : NodeId) {f : Node → Node} (hf : KeepsLinks f)
    (hd : ∀ n, t.get? id = some n → (f n).data.shape = n.data.shape) :
    SameShape t (t.modify id f) where
  linked := h.modify id hf
  size := size_modify t id f
  parent x := bind_get?_modify t id x f _ hf.parent
  children x := by rw [children_eq, children_eq, map_get?_modify t id x f _ hf.children]
  shape x := by
    rw [data?, data?, get?_modify]
    split
    · next hx =>
      subst hx
      cases hn : t.get? id with
      | none => rfl
      | some n => simp [hd n hn]
    · rfl

/-- A text may be changed. -/
theorem sameShape_setText (h : Linked t) {old new : String} (hx : t.text? x = some old) :
    SameShape t (t.setData x (.text new)) := by
  refine sameShape_modify h x (keepsLinks_setData _) fun n hn => ?_
  simp only [text?, data?, hn, Option.map_some] at hx
  split at hx
  · next s hs =>
    rw [Option.some.inj hs]
    rfl
  · cases hx

/-- The attributes of an element may be changed. -/
theorem sameShape_modifyElement (h : Linked t) (id : NodeId) {f : Element → Element}
    (hf : ∀ e, { f e with attributes := [] } = { e with attributes := [] }) :
    SameShape t (t.modifyElement id f) := by
  refine sameShape_modify h id (keepsLinks_modifyElement f) fun n _ => ?_
  split
  · next e he => rw [he]; simp only [NodeData.shape, hf]
  · rfl

theorem sameShape_setMode (h : Linked t) (mode : DocumentMode) : SameShape t (t.setMode mode) := by
  refine sameShape_modify h root (keepsLinks_setMode mode) fun n _ => ?_
  split
  · next he => rw [he]; rfl
  · rfl

/-! ## 6. Text -/

/-- A new node without contents, put at a place of the tree. -/
theorem sprout_insertAt (h : Forest t) (data : NodeData) (hd : data ≠ .fragment)
    (hc : ∀ e, data = .element e → e.contents = none) {p : NodeId} (hp : p < t.size)
    (ref : Option NodeId) :
    Sprout t ((t.alloc data).2.insertAt p ref t.size) t.size p := by
  have g := Grown.alloc h hd hc
  exact g.sprout h (moved_insertAt g.linked (Nat.lt_of_lt_of_le hp g.size_le) g.lt ref) hp

/-- The text directly before the place takes the new one in, or else there is a new node for it. -/
theorem insertText_cases (t : Tree) (p : NodeId) (ref : Option NodeId) (text : String) :
    (∃ prev old, t.preceding? p ref = some prev ∧ t.text? prev = some old ∧
      (t.insertText p ref text).2 = t.setData prev (.text (old ++ text))) ∨
    (∀ prev, t.preceding? p ref = some prev → t.text? prev = none) ∧
      (t.insertText p ref text).2 = (t.alloc (.text text)).2.insertAt p ref t.size := by
  unfold insertText
  cases hprev : t.preceding? p ref with
  | none => exact Or.inr ⟨nofun, rfl⟩
  | some prev =>
    cases hold : t.text? prev with
    | none => exact Or.inr ⟨fun _ h => Option.some.inj h ▸ hold, by simp only [hold]; rfl⟩
    | some old => exact Or.inl ⟨prev, old, rfl, hold, by simp only [hold]⟩

theorem extends_insertText (h : Forest t) {p : NodeId} (hp : p < t.size) (ref : Option NodeId)
    (text : String) : Extends t (t.insertText p ref text).2 := by
  obtain ⟨prev, old, -, hold, heq⟩ | ⟨-, heq⟩ := insertText_cases t p ref text
  · rw [heq]
    exact (sameShape_setText h.linked hold).extends h
  · rw [heq]
    exact (sprout_insertAt h (.text text) (by simp) (by simp) hp ref).toExtends

/-! ## 7. What a forest looks like from outside -/

/-- All links of a tree agree with its child lists, and no node is its own ancestor. -/
structure WellFormed (t : Tree) : Prop where
  nodup : ∀ p, (t.children p).Nodup
  mem_children : ∀ p c, c ∈ t.children p ↔ t.parent? c = some p
  next : ∀ p i c, (t.children p)[i]? = some c → t.next? c = (t.children p)[i + 1]?
  prev : ∀ p i c, (t.children p)[i]? = some c →
    t.prev? c = if i = 0 then none else (t.children p)[i - 1]?
  alone : ∀ c, t.parent? c = none → t.next? c = none ∧ t.prev? c = none
  acyclic : ∀ x, ¬ Relation.TransGen (fun c p => t.parent? c = some p) x x

/-- `y` is found from `x` along child lists and into the contents of templates. -/
def Descends (t : Tree) : NodeId → NodeId → Prop :=
  Relation.ReflTransGen fun a c => c ∈ t.children a ∨ t.contents? a = some c

theorem Forest.wellFormed (h : Forest t) : WellFormed t where
  nodup := h.linked.nodup
  mem_children := h.linked.mem_children
  next p i c hi := (h.linked.neighbours hi).1
  prev p i c hi := (h.linked.neighbours hi).2
  alone c hc := ⟨h.linked.next_eq_none hc, h.linked.prev_eq_none hc⟩
  acyclic x hx := by
    refine h.acyclic x ?_
    have hup : Relation.TransGen (Function.swap t.Above) x x :=
      Relation.TransGen.mono (fun _ _ hp => Or.inl hp) _ _ hx
    exact Relation.transGen_swap.1 hup

theorem Forest.descends (h : Forest t) (hr : t.Reach x y) : t.Descends x y :=
  Relation.ReflTransGen.mono (fun a c hac => Or.imp_left (h.linked.mem_children a c).2 hac) _ _ hr

end Tree

end Hypertext
