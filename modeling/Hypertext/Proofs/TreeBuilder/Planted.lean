import Hypertext.Proofs.Dom.Checked
import Hypertext.Proofs.Dom.Skeleton
import Hypertext.Proofs.TreeBuilder.Depth

/-!
# Open elements in the tree

`Planted` says how the stack of open elements lies in the tree: all of it hangs below the document,
and an element is never above one that was opened before it. The second part is what keeps the tree
free of cycles, since nodes are moved to places given by the outer elements.
-/

namespace Hypertext

open Hypertext.Tree

/-! ## 1. The invariant -/

/-- The node is a head element in an outermost element of the document. -/
def Tree.Homed (t : Tree) (h : NodeId) : Prop :=
  t.label? h = some (.html, "head") ∧
    ∃ r, t.label? r = some (.html, "html") ∧ t.parent? h = some r ∧ t.parent? r = some root

/-- How open elements, the innermost first, and the head element lie in a tree. -/
structure Planted (t : Tree) (stack : List NodeId) (head : Option NodeId) : Prop where
  forest : Forest t
  element : ∀ x ∈ stack, (t.label? x).isSome
  reach : ∀ x ∈ stack, t.Reach root x
  order : stack.Pairwise fun inner outer => ¬ t.Reach inner outer
  html : ∀ x ∈ stack, t.label? x = some (.html, "html") → t.parent? x = some root
  upright : Upright t head
  body : ∀ x ∈ stack, t.label? x = some (.html, "body") → x ∈ t.skeleton.bodies
  head : ∀ h, head = some h → t.Homed h

/-- The part of this that every change keeps, wherever it takes place. -/
structure Anchored (t : Tree) (stack : List NodeId) : Prop where
  forest : Forest t
  element : ∀ x ∈ stack, (t.label? x).isSome
  reach : ∀ x ∈ stack, t.Reach root x
  order : stack.Pairwise fun inner outer => ¬ t.Reach inner outer

section Label

variable {t : Tree} {x : NodeId} {l : Namespace × String}

theorem Tree.ne_fragment_of_label (h : t.label? x = some l) : t.data? x ≠ some .fragment := by
  obtain ⟨e, he, -⟩ := exists_element_of_label h
  rw [element?_eq_some.1 he]
  simp

theorem Tree.Forest.ne_root_of_label (hf : Forest t) (h : t.label? x = some l) : x ≠ root := by
  rintro rfl
  obtain ⟨e, he, -⟩ := exists_element_of_label h
  obtain ⟨mode, hm⟩ := hf.document
  rw [element?_eq_some.1 he] at hm
  cases hm

theorem Tree.Forest.contents?_ne_root (hf : Forest t) {a f : NodeId} (h : t.contents? a = some f) :
    f ≠ root := by
  rintro rfl
  obtain ⟨mode, hm⟩ := hf.document
  rw [hf.fragment a root h] at hm
  cases hm

theorem Tree.contents?_ne_of_label (hf : Forest t) (h : t.label? x = some l) (a : NodeId) :
    t.contents? a ≠ some x := fun ha => ne_fragment_of_label h (hf.fragment a x ha)

end Label

namespace Anchored

variable {t t' : Tree} {stack stack' : List NodeId} {x p id : NodeId}

theorem lt (h : Anchored t stack) (hx : x ∈ stack) : x < t.size := by
  obtain ⟨l, hl⟩ := Option.isSome_iff_exists.1 (h.element x hx)
  exact lt_size_of_label? hl

theorem nodup (h : Anchored t stack) : stack.Nodup :=
  h.order.imp fun {x y} hxy (heq : x = y) => hxy (heq ▸ .refl)

/-- Closing elements keeps the others where they are. -/
theorem sublist (h : Anchored t stack) (hs : stack'.Sublist stack) : Anchored t stack' where
  forest := h.forest
  element x hx := h.element x (hs.subset hx)
  reach x hx := h.reach x (hs.subset hx)
  order := h.order.sublist hs

theorem extend (h : Anchored t stack) (e : Extends t t') : Anchored t' stack where
  forest := e.forest
  element x hx := by rw [e.label x (h.lt hx)]; exact h.element x hx
  reach x hx := (e.reach_iff root x (h.lt hx)).2 (h.reach x hx)
  order := by
    refine h.order.imp_of_mem fun _ hy hxy => ?_
    rwa [e.reach_iff _ _ (h.lt hy)]

/-- A new element below a node of the document may be opened. -/
theorem sprout (h : Anchored t stack) (s : Sprout t t' id p) (hp : t.Reach root p)
    (hl : (t'.label? id).isSome) : Anchored t' (id :: stack) := by
  have hpl : p < t.size := h.forest.reach_lt h.forest.root_lt hp
  have e := h.extend s.toExtends
  refine ⟨s.forest, List.forall_mem_cons.2 ⟨hl, e.element⟩, List.forall_mem_cons.2 ⟨?_, e.reach⟩,
    List.pairwise_cons.2 ⟨fun y hy hr => ?_, e.order⟩⟩
  · exact ((s.reach_iff root p hpl).2 hp).tail (Or.inl s.parent_new)
  · exact absurd (h.lt hy) (Nat.not_lt.2 (s.le_of_reach y hr))

end Anchored

namespace Planted

variable {t t' : Tree} {stack stack' : List NodeId} {head : Option NodeId} {x p id : NodeId}

theorem anchored (h : Planted t stack head) : Anchored t stack :=
  ⟨h.forest, h.element, h.reach, h.order⟩

theorem lt (h : Planted t stack head) (hx : x ∈ stack) : x < t.size := h.anchored.lt hx

theorem nodup (h : Planted t stack head) : stack.Nodup := h.anchored.nodup

/-- Closing elements keeps the others where they are. -/
theorem sublist (h : Planted t stack head) (hs : stack'.Sublist stack) : Planted t stack' head where
  forest := h.forest
  element x hx := h.element x (hs.subset hx)
  reach x hx := h.reach x (hs.subset hx)
  order := h.order.sublist hs
  html x hx := h.html x (hs.subset hx)
  head := h.head
  upright := h.upright
  body x hx := h.body x (hs.subset hx)

theorem homed_of_extends {h : NodeId} (e : Extends t t') (hh : t.Homed h) : t'.Homed h := by
  obtain ⟨hl, r, hr, hp, hrp⟩ := hh
  refine ⟨?_, r, ?_, ?_, ?_⟩
  · rw [e.label h (lt_size_of_label? hl), hl]
  · rw [e.label r (lt_size_of_label? hr), hr]
  · rw [e.parent h (lt_size_of_label? hl), hp]
  · rw [e.parent r (lt_size_of_label? hr), hrp]

theorem extend (h : Planted t stack head) (e : Extends t t') (hs : t'.skeleton = t.skeleton) :
    Planted t' stack head where
  forest := e.forest
  element := (h.anchored.extend e).element
  reach := (h.anchored.extend e).reach
  order := (h.anchored.extend e).order
  html x hx hl := by
    rw [e.label x (h.lt hx)] at hl
    rw [e.parent x (h.lt hx)]
    exact h.html x hx hl
  head k hk := homed_of_extends e (h.head k hk)
  upright := h.upright.keeps hs e.keeps
  body x hx hl := by
    rw [e.label x (h.lt hx)] at hl
    rw [hs]
    exact h.body x hx hl

/-- A new element below a node of the document may be opened. An `html` element has to be a child of
the document, and what belongs to the skeleton has to be in it. -/
theorem sprout {head' : Option NodeId} (h : Planted t stack head) (s : Sprout t t' id p)
    (hp : t.Reach root p) (hl : (t'.label? id).isSome)
    (hhtml : t'.label? id = some (.html, "html") → p = root) (hu : Upright t' head')
    (hhead : ∀ k, head' = some k → t'.Homed k) (hbodies : t.skeleton.bodies ⊆ t'.skeleton.bodies)
    (hbody : t'.label? id = some (.html, "body") → id ∈ t'.skeleton.bodies) :
    Planted t' (id :: stack) head' := by
  have e := s.toExtends
  obtain ⟨-, helement, hreach, horder⟩ := h.anchored.sprout s hp hl
  refine ⟨s.forest, helement, hreach, horder, ?_, hu, ?_, hhead⟩
  · refine List.forall_mem_cons.2 ⟨fun hh => by rw [s.parent_new, hhtml hh], fun x hx hx' => ?_⟩
    rw [e.label x (h.lt hx)] at hx'
    rw [e.parent x (h.lt hx)]
    exact h.html x hx hx'
  · refine List.forall_mem_cons.2 ⟨hbody, fun x hx hx' => hbodies (h.body x hx ?_)⟩
    rwa [e.label x (h.lt hx)] at hx'

end Planted

namespace TreeBuilder

variable {b : TreeBuilder} {t : Tree}

/-! ## 2. New elements -/

theorem isHtml_iff {name : String} {x : NodeId} :
    b.isHtml name x = true ↔ b.tree.label? x = some (.html, name) := by
  simp only [isHtml, Element.isHtml, label?]
  cases b.tree.element? x <;> simp

theorem isHtmlOf_iff {names : List String} {x : NodeId} :
    b.isHtmlOf names x = true ↔ ∃ name ∈ names, b.tree.label? x = some (.html, name) := by
  simp only [isHtmlOf, Element.isHtmlOf, label?]
  cases b.tree.element? x <;> simp [and_comm]

theorem currentIs_iff {name : String} : b.currentIs name = true ↔
    ∃ x outer, b.openElements = x :: outer ∧ b.isHtml name x = true := by
  rw [currentIs, currentNode?, Option.any_eq_true]
  cases b.openElements <;> simp

theorem currentIsOf_iff {names : List String} : b.currentIsOf names = true ↔
    ∃ x outer, b.openElements = x :: outer ∧ b.isHtmlOf names x = true := by
  rw [currentIsOf, currentNode?, Option.any_eq_true]
  cases b.openElements <;> simp

section Create

variable (name : String) (attributes : List Attribute) (ns : Namespace)

theorem grown_createElement (h : Forest t) :
    Grown t (createElement t name attributes ns).2 (createElement t name attributes ns).1 := by
  simp only [createElement]
  split
  · rw [fst_alloc (t.alloc .fragment).2, size_alloc]
    exact Grown.alloc_template h rfl
  · refine Grown.alloc h (by simp) ?_
    rintro e ⟨⟩
    rfl

theorem label?_createElement : (createElement t name attributes ns).2.label?
    (createElement t name attributes ns).1 = some (ns, name) := by
  simp only [createElement]
  split <;> simp [label?, element?, data?_alloc]

/-- Only a template has contents. -/
theorem contents?_createElement (hname : name ≠ "template") :
    (createElement t name attributes ns).2.contents? (createElement t name attributes ns).1 =
      none := by
  simp [createElement, Element.isHtml, hname, contents?, element?, data?_alloc]

end Create

/-! ## 3. Places -/

/-- A property of nodes that does not get lost on the way to a place for a new node. -/
structure Inherited (t : Tree) (P : NodeId → Prop) : Prop where
  root : P root
  contents : ∀ x f, P x → t.contents? x = some f → P f
  parent : ∀ x p l, P x → t.label? x = some l → t.parent? x = some p → P p

theorem inherited_reach (h : Forest t) : Inherited t (t.Reach Tree.root) where
  root := .refl
  contents _ _ hx hf := hx.tail (Or.inr hf)
  parent _ _ _ hx hl hp :=
    h.reach_of_above (Or.inl hp) hx (Ne.symm (h.ne_root_of_label hl))

/-- Not to be below an element. -/
theorem inherited_not_reach {x : NodeId} {l : Namespace × String} (h : Forest t)
    (hl : t.label? x = some l) : Inherited t fun y => ¬ t.Reach x y where
  root hx := h.ne_root_of_label hl (h.reach_root hx)
  contents y f hy hf hxf := by
    refine hy (h.reach_of_above (Or.inr hf) hxf ?_)
    rintro rfl
    exact contents?_ne_of_label h hl y hf
  parent y p l hy _ hp hxp := hy (hxp.tail (Or.inl hp))

theorem inherited_and {P Q : NodeId → Prop} (hP : Inherited t P) (hQ : Inherited t Q) :
    Inherited t fun x => P x ∧ Q x where
  root := ⟨hP.root, hQ.root⟩
  contents x f hx hf := ⟨hP.contents x f hx.1 hf, hQ.contents x f hx.2 hf⟩
  parent x p l hx hl hp := ⟨hP.parent x p l hx.1 hl hp, hQ.parent x p l hx.2 hl hp⟩

theorem inherited_forall {s : List NodeId} {Q : NodeId → NodeId → Prop}
    (hQ : ∀ y ∈ s, Inherited t (Q y)) : Inherited t fun x => ∀ y ∈ s, Q y x where
  root y hy := (hQ y hy).root
  contents x f hx hf y hy := (hQ y hy).contents x f (hx y hy) hf
  parent x p l hx hl hp y hy := (hQ y hy).parent x p l (hx y hy) hl hp

section Place

variable {P : NodeId → Prop}

theorem Inherited.getD_head (hP : Inherited t P) {l : List NodeId} (hl : ∀ x ∈ l, P x) :
    P (l.head?.getD Tree.root) := by
  cases l with
  | nil => exact hP.root
  | cons x l => exact hl x (by simp)

theorem Inherited.fosterPlace (hP : Inherited b.tree P)
    (hlast : P (b.openElements.getLast?.getD Tree.root)) (l : List NodeId) (hl : ∀ x ∈ l, P x) :
    P (b.fosterPlace l).parent := by
  induction l with
  | nil => exact hlast
  | cons x outer ih =>
    have hx : P x := hl x (by simp)
    have houter : ∀ y ∈ outer, P y := fun y hy => hl y (by simp [hy])
    unfold TreeBuilder.fosterPlace
    split
    · cases hc : b.tree.contents? x with
      | none => exact hx
      | some f => exact hP.contents x f hx hc
    · split
      · next htable =>
        split
        · next p hp => exact hP.parent x p _ hx (isHtml_iff.1 htable) hp
        · exact hP.getD_head houter
      · exact ih houter

/-- A node goes into the target, to the place before the innermost table, or into the contents of
one of the two. -/
theorem placeIn_parent {target : NodeId}
    (hcontents : ∀ x f, P x → b.tree.contents? x = some f → P f) (htarget : P target)
    (hfoster : P (b.fosterPlace b.openElements).parent) : P (b.placeIn target).parent := by
  unfold TreeBuilder.placeIn
  extract_lets place
  have hplace : P place.parent := by
    unfold place
    split
    · exact hfoster
    · exact htarget
  split
  · split
    · next f hf => exact hcontents _ f hplace hf
    · exact hplace
  · exact hplace

/-- Where a node goes has every inherited property that the target and the place before the
innermost table have. -/
theorem Inherited.placeIn (hP : Inherited b.tree P) {target : NodeId} (htarget : P target)
    (hfoster : P (b.fosterPlace b.openElements).parent) : P (b.placeIn target).parent :=
  placeIn_parent hP.contents htarget hfoster

/-- A new node goes to a place in the document. -/
theorem reach_place (h : Anchored b.tree b.openElements) :
    b.tree.Reach Tree.root b.place.parent := by
  have hP := inherited_reach h.forest
  have hlast : b.tree.Reach Tree.root (b.openElements.getLast?.getD Tree.root) := by
    cases hl : b.openElements.getLast? with
    | none => exact .refl
    | some x => exact h.reach x (List.mem_of_getLast? hl)
  exact hP.placeIn (hP.getD_head h.reach) (hP.fosterPlace hlast _ h.reach)

theorem place_lt (h : Anchored b.tree b.openElements) : b.place.parent < b.tree.size :=
  h.forest.reach_lt h.forest.root_lt (reach_place h)

/-- A place is before a table, if it is before anything. -/
theorem label?_fosterPlace {r : NodeId} {l : List NodeId} (h : (b.fosterPlace l).before = some r) :
    b.tree.label? r = some (.html, "table") := by
  induction l with
  | nil => cases h
  | cons x outer ih =>
    unfold TreeBuilder.fosterPlace at h
    split at h
    · cases h
    · split at h
      · next htable =>
        split at h
        · cases h
          exact isHtml_iff.1 htable
        · cases h
      · exact ih h

theorem label?_placeIn {r target : NodeId} (h : (b.placeIn target).before = some r) :
    b.tree.label? r = some (.html, "table") := by
  unfold TreeBuilder.placeIn at h
  extract_lets place at h
  have hplace : place.before = some r → b.tree.label? r = some (.html, "table") := by
    unfold place
    split
    · exact label?_fosterPlace
    · rintro ⟨⟩
  split at h
  · split at h
    · cases h
    · exact hplace h
  · exact hplace h

/-- With something open, no place is directly in the document: a table is in an element. -/
theorem fosterPlace_ne_root {head : Option NodeId} (hf : Forest b.tree) (hu : Upright b.tree head)
    (hlast : b.openElements.getLast?.getD Tree.root ≠ Tree.root) (l : List NodeId)
    (hl : ∀ x ∈ l, (b.tree.label? x).isSome ∧ b.tree.Reach Tree.root x) :
    (b.fosterPlace l).parent ≠ Tree.root := by
  induction l with
  | nil => exact hlast
  | cons x outer ih =>
    obtain ⟨⟨hx, hreach⟩, houter⟩ := List.forall_mem_cons.1 hl
    obtain ⟨lx, hx⟩ := Option.isSome_iff_exists.1 hx
    have hne := hf.ne_root_of_label hx
    unfold TreeBuilder.fosterPlace
    split
    · cases hc : b.tree.contents? x with
      | none => exact hne
      | some f => exact hf.contents?_ne_root hc
    · split
      · next htable =>
        have htable := isHtml_iff.1 htable
        split
        · next p hp =>
          rintro rfl
          exact hu.not_mem_root htable (by simp) ((hf.linked.mem_children _ _).2 hp)
        · next hp =>
          -- what is reached from the document has a parent or is the content of a template, and a
          -- table is no content
          rcases Relation.ReflTransGen.cases_tail hreach with hroot | ⟨z, -, hz | hz⟩
          · exact absurd hroot hne
          · rw [hp] at hz
            cases hz
          · exact absurd hz (contents?_ne_of_label hf hx z)
      · exact ih houter

theorem placeIn_ne_root {target : NodeId} (hf : Forest b.tree) (htarget : target ≠ Tree.root)
    (hfoster : (b.fosterPlace b.openElements).parent ≠ Tree.root) :
    (b.placeIn target).parent ≠ Tree.root :=
  placeIn_parent (P := (· ≠ Tree.root)) (fun _ _ _ hc => hf.contents?_ne_root hc) htarget hfoster

theorem place_ne_root {head : Option NodeId} (h : Planted b.tree b.openElements head)
    (hopen : b.openElements ≠ []) : b.place.parent ≠ Tree.root := by
  have hne : ∀ x ∈ b.openElements, x ≠ Tree.root := by
    intro x hx
    obtain ⟨l, hl⟩ := Option.isSome_iff_exists.1 (h.element x hx)
    exact h.forest.ne_root_of_label hl
  have hlast : b.openElements.getLast?.getD Tree.root ≠ Tree.root := by
    rw [List.getLast?_eq_some_getLast hopen]
    exact hne _ (List.getLast_mem hopen)
  refine placeIn_ne_root h.forest ?_
    (fosterPlace_ne_root h.forest h.upright hlast _ fun x hx => ⟨h.element x hx, h.reach x hx⟩)
  rw [currentNode?, List.head?_eq_some_head hopen]
  exact hne _ (List.head_mem hopen)

end Place

/-! ## 4. Insertions -/

/-- The head has been seen, and something is open. -/
structure Begun (b : TreeBuilder) : Prop where
  head : b.headElement.isSome = true
  nonempty : b.openElements ≠ []

section Insert

/-- An element is inserted as a new node at the current place and opened; nothing else happens. -/
theorem insertElement_eq_insertAt (h : Anchored b.tree b.openElements) (name : String)
    (attributes : List Attribute) (ns : Namespace) : b.insertElement name attributes ns = { b with
      tree := (createElement b.tree name attributes ns).2.insertAt b.place.parent b.place.before
        (createElement b.tree name attributes ns).1
      openElements := (createElement b.tree name attributes ns).1 :: b.openElements } := by
  have g := grown_createElement name attributes ns h.forest
  have hput := insertAt?_eq g.linked (Nat.lt_of_lt_of_le (place_lt h) g.size_le) g.lt b.place.before
  simp only [insertElement, place?_eq, insertAtPlace?, hput, Option.bind_eq_bind, Option.bind_some]
  rfl

theorem insertElement_eq (h : Anchored b.tree b.openElements) (name : String)
    (attributes : List Attribute) (ns : Namespace) :
    ∃ id tree, b.insertElement name attributes ns =
        { b with tree, openElements := id :: b.openElements } ∧
      Put b.tree tree id b.place.parent b.place.before ∧ tree.label? id = some (ns, name) := by
  have g := grown_createElement name attributes ns h.forest
  have m := moved_insertAt g.linked (Nat.lt_of_lt_of_le (place_lt h) g.size_le) g.lt b.place.before
  exact ⟨_, _, insertElement_eq_insertAt h name attributes ns,
    put_insertAt g (place_lt h) b.place.before,
    (label?_congr (m.data _)).trans (label?_createElement name attributes ns)⟩

/-- An element that is no template is made of the name and the attributes only. -/
theorem element?_createElement_of_ne (t : Tree) {name : String} {ns : Namespace}
    (attributes : List Attribute) (hne : (ns, name) ≠ (.html, "template")) :
    (createElement t name attributes ns).2.element? (createElement t name attributes ns).1 =
      some { tagName := name, ns, attributes := attributesOf attributes } := by
  have hplain : ¬ (ns = .html ∧ name = "template") := fun ⟨hns, hname⟩ => hne (by rw [hns, hname])
  simp [createElement, Element.isHtml, hplain, element?, data?_alloc]

theorem exists_insertElement (h : Anchored b.tree b.openElements) {name : String} {ns : Namespace}
    (attributes : List Attribute) (hne : (ns, name) ≠ (.html, "template")) :
    ∃ id tree, b.insertElement name attributes ns =
      { b with tree, openElements := id :: b.openElements } ∧ b.tree.size ≤ id ∧
      tree.element? id = some { tagName := name, ns, attributes := attributesOf attributes } := by
  have g := grown_createElement name attributes ns h.forest
  have m := moved_insertAt g.linked (Nat.lt_of_lt_of_le (place_lt h) g.size_le) g.lt b.place.before
  refine ⟨_, _, insertElement_eq_insertAt h name attributes ns, g.fresh, ?_⟩
  exact (element?_congr (m.data _)).trans (element?_createElement_of_ne b.tree attributes hne)

/-- The outermost element is put at the end of the document. -/
theorem insertRoot_eq_insertAt (h : Forest b.tree) (attributes : List Attribute) :
    b.insertRoot attributes = { b with
      tree := (createElement b.tree "html" attributes .html).2.insertAt Tree.root none
        (createElement b.tree "html" attributes .html).1
      openElements := (createElement b.tree "html" attributes .html).1 :: b.openElements } := by
  have g := grown_createElement "html" attributes .html h
  have hput := appendChild?_eq g.linked (Nat.lt_of_lt_of_le h.root_lt g.size_le) g.lt
  simp only [insertRoot, hput, Option.bind_eq_bind, Option.bind_some]
  rfl

theorem insertRoot_eq (h : Forest b.tree) (attributes : List Attribute) :
    ∃ id tree, b.insertRoot attributes = { b with tree, openElements := id :: b.openElements } ∧
      Put b.tree tree id Tree.root none ∧ tree.label? id = some (.html, "html") := by
  have g := grown_createElement "html" attributes .html h
  have m := moved_appendChild g.linked (Nat.lt_of_lt_of_le h.root_lt g.size_le) g.lt
  exact ⟨_, _, insertRoot_eq_insertAt h attributes, put_insertAt g h.root_lt none,
    (label?_congr (m.data _)).trans (label?_createElement "html" attributes .html)⟩

/-- Text is inserted at the current place, unless that is the document. -/
theorem insertChar_eq_insertText (h : Anchored b.tree b.openElements) (c : Char) :
    b.insertChar c = if b.place.parent = Tree.root then b
      else { b with tree := (b.tree.insertText b.place.parent b.place.before c.toString).2 } := by
  have hput := insertText?_eq h.forest.linked (place_lt h) b.place.before c.toString
  simp only [insertChar, place?_eq, Option.bind_eq_bind, Option.bind_some, hput]
  split <;> rfl

/-- What has no element to open only extends the tree, and leaves the skeleton alone. -/
theorem insertChar_eq (h : Anchored b.tree b.openElements) (c : Char) :
    ∃ tree, b.insertChar c = { b with tree } ∧ Extends b.tree tree ∧
      tree.skeleton = b.tree.skeleton := by
  rw [insertChar_eq_insertText h]
  split
  · exact ⟨b.tree, rfl, h.forest.extends_refl, rfl⟩
  · next hne =>
    exact ⟨_, rfl, extends_insertText h.forest (place_lt h) _ _,
      skeleton_insertText h.forest (place_lt h) hne _ _⟩

/-- A new node may be put anywhere into the tree. -/
theorem insertAt?_alloc (hf : Forest b.tree) {parent : NodeId} (hp : parent < b.tree.size)
    (data : NodeData) (before : Option NodeId) :
    (b.tree.alloc data).2.insertAt? parent before b.tree.size =
      some ((b.tree.alloc data).2.insertAt parent before b.tree.size) := by
  refine insertAt?_eq (hf.linked.alloc data) ?_ ?_ before
  · rw [size_alloc]
    exact Nat.lt_succ_of_lt hp
  · rw [size_alloc]
    exact Nat.lt_succ_self _

theorem insertComment_eq_insertAt (h : Anchored b.tree b.openElements) (data : String) :
    b.insertComment data = { b with
      tree := (b.tree.alloc (.comment data)).2.insertAt b.place.parent b.place.before
        b.tree.size } := by
  have hput := insertAt?_alloc h.forest (place_lt h) (.comment data) b.place.before
  simp only [insertComment, place?_eq, insertAtPlace?, fst_alloc, hput, Option.bind_eq_bind,
    Option.bind_some]
  rfl

theorem insertComment_eq (h : Anchored b.tree b.openElements) (data : String) :
    ∃ tree, b.insertComment data = { b with tree } ∧ Extends b.tree tree ∧
      tree.skeleton = b.tree.skeleton := by
  obtain ⟨w, hdata⟩ := put_alloc h.forest (place_lt h) (.comment data) (by simp) b.place.before
  exact ⟨_, insertComment_eq_insertAt h data, (w.sprout h.forest (place_lt h)).toExtends,
    w.skeleton_comment h.forest hdata⟩

theorem insertCommentIn_eq_insertAt (h : Forest b.tree) {parent : NodeId}
    (hp : parent < b.tree.size) (data : String) : b.insertCommentIn parent data = { b with
      tree := (b.tree.alloc (.comment data)).2.insertAt parent none b.tree.size } := by
  have hput := insertAt?_alloc h hp (.comment data) none
  change (b.tree.alloc (.comment data)).2.appendChild? parent b.tree.size = _ at hput
  simp only [insertCommentIn, fst_alloc, hput, Option.bind_eq_bind, Option.bind_some]
  rfl

theorem insertCommentIn_eq (h : Forest b.tree) {parent : NodeId} (hp : parent < b.tree.size)
    (data : String) : ∃ tree, b.insertCommentIn parent data = { b with tree } ∧
      Extends b.tree tree ∧ tree.skeleton = b.tree.skeleton := by
  obtain ⟨w, hdata⟩ := put_alloc h hp (.comment data) (by simp) none
  exact ⟨_, insertCommentIn_eq_insertAt h hp data, (w.sprout h hp).toExtends,
    w.skeleton_comment h hdata⟩

theorem mergeAttributes_eq (h : Forest b.tree) (id : NodeId) (attributes : List Attribute) :
    ∃ tree, b.mergeAttributes id attributes = { b with tree } ∧ Extends b.tree tree ∧
      tree.skeleton = b.tree.skeleton := by
  have s := sameShape_modifyElement h.linked id (f := fun e =>
    { e with attributes := attributes.foldl (fun as a => as.addNew a.name a.value) e.attributes })
    fun _ => rfl
  exact ⟨_, rfl, s.extends h, s.skeleton h.linked⟩

variable (h : Planted b.tree b.openElements b.headElement)
include h

/-- Once the head is there, an element that is no part of the skeleton leaves it alone. -/
theorem skeleton_of_put {id : NodeId} {tree : Tree} {l : Namespace × String} (hb : Begun b)
    (w : Put b.tree tree id b.place.parent b.place.before) (hl : tree.label? id = some l)
    (hout : l ∉ outerLabels) : tree.skeleton = b.tree.skeleton :=
  w.skeleton_element h.forest h.upright hl hout (place_ne_root h hb.nonempty) (Or.inl hb.head)
    fun _ => label?_placeIn

/-- An element that is put in without harm to the skeleton may be opened. -/
theorem planted_put {id : NodeId} {tree : Tree} {l : Namespace × String}
    (w : Put b.tree tree id b.place.parent b.place.before) (hl : tree.label? id = some l)
    (hhtml : l ≠ (.html, "html")) (hbody : l ≠ (.html, "body"))
    (hs : tree.skeleton = b.tree.skeleton) :
    Planted tree (id :: b.openElements) b.headElement := by
  have s := w.sprout h.forest (place_lt h.anchored)
  refine h.sprout s (reach_place h.anchored) (by rw [hl]; rfl) (fun hh => ?_)
    (h.upright.keeps hs s.keeps) (fun k hk => Planted.homed_of_extends s.toExtends (h.head k hk))
    (by rw [hs]; exact List.Subset.refl _) fun hh => ?_
  · rw [hl] at hh
    exact absurd (Option.some.inj hh) hhtml
  · rw [hl] at hh
    exact absurd (Option.some.inj hh) hbody

end Insert

end TreeBuilder

end Hypertext
