import Hypertext.Proofs.TreeBuilder.Leaves

/-!
# New nodes

What a tree looks like after a node has been added to it, as far as it matters for what
may be where: the new node is an element or none, and only a template comes with a second
node, its contents.
-/

namespace Hypertext

open Hypertext.Tree

/-! ## 1. Nodes -/

namespace Tree

variable {t t' : Tree} {id p p' x : NodeId} {l : Option (Namespace × String)}

theorem data?_eq_none (hx : t.size ≤ x) : t.data? x = none := by
  rw [data?, get?_eq_none t x hx]
  rfl

theorem label?_alloc (t : Tree) (data : NodeData) (x : NodeId) : (t.alloc data).2.label? x =
    if x = t.size then (match data with | .element e => some (e.ns, e.tagName) | _ => none)
    else t.label? x := by
  simp only [label?, element?, data?_alloc]
  by_cases hx : x = t.size
  · simp only [hx, if_true]
    cases data <;> rfl
  · simp only [hx, if_false]

theorem label?_createElement_eq (t : Tree) (name : String) (attributes : List Attribute)
    (ns : Namespace) (x : NodeId) : (TreeBuilder.createElement t name attributes ns).2.label? x =
      if x = (TreeBuilder.createElement t name attributes ns).1 then some (ns, name)
      else t.label? x := by
  simp only [TreeBuilder.createElement]
  split
  · simp only [label?_alloc, fst_alloc, size_alloc]
    split
    · rfl
    · split
      · next hx => rw [hx, label?, element?, data?_eq_none (Nat.le_refl _)]; rfl
      · rfl
  · simp only [label?_alloc, fst_alloc]
    rfl

/-- A template has contents, and a fragment that is made is the contents of one. -/
theorem contents?_createElement_eq (t : Tree) (name : String) (attributes : List Attribute)
    (ns : Namespace) : let created := TreeBuilder.createElement t name attributes ns
    ((created.2.contents? created.1).isSome ↔ (ns, name) = (.html, "template")) ∧
      ∀ x, t.size ≤ x → created.2.data? x = some .fragment →
      created.2.contents? created.1 = some x := by
  intro created
  -- a template comes with a fragment, any other element alone
  by_cases hl : (ns, name) = (.html, "template")
  · cases hl
    refine ⟨by simp [created, TreeBuilder.createElement, Element.isHtml, contents?, element?,
      data?_alloc], fun x hx hd => ?_⟩
    simp only [created, TreeBuilder.createElement, Element.isHtml] at hd ⊢
    simp only [decide_true, Bool.true_and, beq_self_eq_true, if_true, size_alloc,
      contents?, element?, data?_alloc, fst_alloc] at hd ⊢
    split at hd
    · cases hd
    · split at hd
      · next hx' => rw [hx']; rfl
      · rw [data?_eq_none hx] at hd
        cases hd
  · have hnot : ({ tagName := name, ns, attributes := TreeBuilder.attributesOf attributes } :
        Element).isHtml "template" = false := by
      simpa [Element.isHtml, Prod.ext_iff] using hl
    have hcreated : created = t.alloc (.element
        { tagName := name, ns, attributes := TreeBuilder.attributesOf attributes }) := by
      simp only [created, TreeBuilder.createElement, hnot, Bool.false_eq_true, if_false]
    rw [hcreated]
    refine ⟨by simp [contents?, element?, data?_alloc, hl], fun x hx hd => ?_⟩
    rw [data?_alloc] at hd
    split at hd
    · cases hd
    · rw [data?_eq_none hx] at hd
      cases hd

/-- `t'` is `t` with a new node `id` below `p`, which is an element with this label or none. -/
structure Adds (t t' : Tree) (id p : NodeId) (l : Option (Namespace × String)) : Prop where
  fresh : t.size ≤ id
  data : ∀ x, x < t.size → t'.data? x = t.data? x
  parent : ∀ x, t'.parent? x = if x = id then some p else t.parent? x
  label : ∀ x, t'.label? x = if x = id then l else t.label? x
  filled : (t'.contents? id).isSome ↔ l = some (.html, "template")
  fragment : ∀ x, t.size ≤ x → t'.data? x = some .fragment → t'.contents? id = some x

/-- A node that is no element. -/
theorem adds_alloc (h : Forest t) (hp : p < t.size) {data : NodeData} (hd : data ≠ .fragment)
    (he : ∀ e, data ≠ .element e) (before : Option NodeId) :
    Adds t ((t.alloc data).2.insertAt p before t.size) t.size p none := by
  have g := Grown.alloc h hd fun e he' => absurd he' (he e)
  have m := moved_insertAt g.linked (Nat.lt_of_lt_of_le hp g.size_le) g.lt before
  refine ⟨Nat.le_refl _, fun x hx => (m.data x).trans (g.data x hx), fun x => ?_, fun x => ?_, ?_,
    fun x hx hx' => ?_⟩
  · rw [m.parent, g.parent]
  · rw [label?_congr (m.data x), label?_alloc]
    cases data with
    | element e => exact absurd rfl (he e)
    | _ => rfl
  · rw [contents?_congr (m.data _), contents?, element?, data?_alloc]
    cases data with
    | element e => exact absurd rfl (he e)
    | _ => simp
  · rw [m.data, data?_alloc] at hx'
    split at hx'
    · exact absurd (Option.some.inj hx') hd
    · rw [data?_eq_none hx] at hx'
      cases hx'

namespace Adds

variable (a : Adds t t' id p l)
include a

theorem ne_of_lt (hx : x < t.size) : x ≠ id := Nat.ne_of_lt (Nat.lt_of_lt_of_le hx a.fresh)

theorem label_of_lt (hx : x < t.size) : t'.label? x = t.label? x := label?_congr (a.data x hx)

theorem mode (h : Forest t) : t'.mode = t.mode := mode_congr (a.data root h.root_lt)

theorem parent_cases (hx : t'.parent? x = some p') :
    x = id ∧ p' = p ∨ x ≠ id ∧ t.parent? x = some p' := by
  rw [a.parent] at hx
  split at hx
  · next hid => exact Or.inl ⟨hid, (Option.some.inj hx).symm⟩
  · next hid => exact Or.inr ⟨hid, hx⟩

end Adds

end Tree

/-! ## 2. Insertions -/

namespace TreeBuilder

variable {b b' : TreeBuilder}

theorem insertElement_adds (h : Anchored b.tree b.openElements) (name : String)
    (attributes : List Attribute) (ns : Namespace) : ∃ id tree,
      b.insertElement name attributes ns = { b with tree, openElements := id :: b.openElements } ∧
      Adds b.tree tree id b.place.parent (some (ns, name)) := by
  have g := grown_createElement name attributes ns h.forest
  have m := moved_insertAt g.linked (Nat.lt_of_lt_of_le (place_lt h) g.size_le) g.lt b.place.before
  obtain ⟨hfilled, hfragment⟩ := contents?_createElement_eq b.tree name attributes ns
  refine ⟨_, _, insertElement_eq_insertAt h name attributes ns, g.fresh,
    fun x hx => (m.data x).trans (g.data x hx), fun x => ?_, fun x => ?_, ?_, fun x hx hx' => ?_⟩
  · rw [m.parent, g.parent]
  · rw [label?_congr (m.data x), label?_createElement_eq]
  · rw [contents?_congr (m.data _), Option.some.injEq]
    exact hfilled
  · rw [contents?_congr (m.data _)]
    exact hfragment x hx ((m.data x).symm.trans hx')

/-- A comment or a document type. -/
theorem adds_leaf {data : NodeData} {place : Place}
    (hd : data.isComment = true ∨ data.isDoctype = true)
    (h : Forest b.tree) (hp : place.parent < b.tree.size) : Adds b.tree
      ((b.tree.alloc data).2.insertAt place.parent place.before b.tree.size) b.tree.size
        place.parent none :=
  adds_alloc h hp (leaf_ne hd).1 (leaf_ne hd).2.1 place.before

/-- A character goes into the text directly before it, or else there is a new node for it. -/
theorem insertChar_cases (h : Anchored b.tree b.openElements) (hp : b.place.parent ≠ root)
    (c : Char) : ∃ tree, b.insertChar c = { b with tree } ∧
      ((∃ prev old, b.tree.preceding? b.place.parent b.place.before = some prev ∧
          b.tree.text? prev = some old ∧ tree = b.tree.setData prev (.text (old ++ c.toString))) ∨
        (∀ prev, b.tree.preceding? b.place.parent b.place.before = some prev →
          b.tree.text? prev = none) ∧ Adds b.tree tree b.tree.size b.place.parent none ∧
          tree.text? b.tree.size = some c.toString) := by
  have hlt := place_lt h
  rw [insertChar_eq_insertText h, if_neg hp]
  refine ⟨_, rfl, ?_⟩
  obtain hcase | ⟨hnone, heq⟩ := insertText_cases b.tree b.place.parent b.place.before c.toString
  · exact Or.inl hcase
  · rw [heq]
    have g : Grown b.tree (b.tree.alloc (.text c.toString)).2 b.tree.size :=
      .alloc h.forest (by simp) (by simp)
    have m := moved_insertAt g.linked (Nat.lt_of_lt_of_le hlt g.size_le) g.lt b.place.before
    refine Or.inr ⟨hnone, adds_alloc h.forest hlt (by simp) (by simp) _, ?_⟩
    rw [text?_congr (m.data _), text?_eq_some, data?_alloc, if_pos rfl]

theorem data?_setData_text {t : Tree} {prev : NodeId} {old : String}
    (hold : t.text? prev = some old) (s : String) {x : NodeId}
    (hx : ∀ s, t.data? x ≠ some (.text s)) : (t.setData prev (.text s)).data? x = t.data? x := by
  have hne : prev ≠ x := by
    rintro rfl
    exact hx old (text?_eq_some.1 hold)
  rw [setData, data?, get?_modify, if_neg hne, data?]

/-- A character changes nothing about elements, or the mode of the document. -/
theorem insertChar_elements (h : Anchored b.tree b.openElements) (hp : b.place.parent ≠ root)
    (c : Char) : (b.insertChar c).tree.mode = b.tree.mode ∧
    ∀ x, (b.insertChar c).tree.label? x = b.tree.label? x ∧
      (x < b.tree.size → (b.insertChar c).tree.parent? x = b.tree.parent? x) := by
  obtain ⟨tree, heq, ⟨prev, old, -, hold, rfl⟩ | ⟨-, a, -⟩⟩ := insertChar_cases h hp c
  · rw [heq]
    have s : SameShape b.tree (b.tree.setData prev (.text (old ++ c.toString))) :=
      sameShape_setText h.forest.linked hold
    refine ⟨mode_congr (data?_setData_text hold _ fun s hs => ?_),
      fun x => ⟨s.label x, fun _ => s.parent x⟩⟩
    obtain ⟨documentMode, hroot⟩ := h.forest.document
    rw [hroot] at hs
    cases hs
  · rw [heq]
    refine ⟨a.mode h.forest, fun x => ⟨?_, fun hx => by rw [a.parent, if_neg (a.ne_of_lt hx)]⟩⟩
    rw [a.label]
    split
    · next hx => rw [hx, label?, element?, data?_eq_none (Nat.le_refl _)]; rfl
    · rfl

end TreeBuilder

end Hypertext
