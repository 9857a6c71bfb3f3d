import Hypertext.Proofs.TreeBuilder.Additions
import Hypertext.Proofs.TreeBuilder.Adoption
import Hypertext.Proofs.TreeBuilder.Content
import Hypertext.Proofs.TreeBuilder.Rounds

/-!
# Templates

What is inserted while a template is the current node goes to the end of its contents, a fragment
that no other template has and that hangs nowhere. Foster parenting and the adoption agency pick
nodes of the tree to put others into, and come to a template that way too: what they put there goes
to its contents as well. So no step puts anything into a template itself. Open templates are counted
by the modes that are noted down for them.
-/

namespace Hypertext

open Hypertext.Tree

/-! ## 1. Templates without children -/

/-- The templates are what has contents, and nothing is in a template itself. All fragments are such
contents. -/
structure Tree.Hollow (t : Tree) : Prop where
  contents : ∀ x, (t.contents? x).isSome ↔ t.label? x = some (.html, "template")
  children : ∀ x y, t.parent? y = some x → t.label? x ≠ some (.html, "template")
  hosted : ∀ f, t.data? f = some .fragment → ∃ x, t.contents? x = some f

namespace Tree.Hollow

variable {t t' : Tree} {c id p x : NodeId} {q : Option NodeId} {l : Option (Namespace × String)}

theorem label?_isSome_of_contents? (h : (t.contents? x).isSome) : (t.label? x).isSome := by
  rw [contents?, Option.isSome_bind] at h
  rw [label?, Option.isSome_map]
  exact Option.isSome_of_any h

theorem empty : Tree.empty.Hollow where
  contents x := by
    have hx : ∀ l, Tree.empty.label? x ≠ some l := fun l hl => by
      obtain rfl : x = 0 := Nat.lt_one_iff.1 (lt_size_of_label? hl)
      cases hl
    refine ⟨fun h => ?_, fun h => absurd h (hx _)⟩
    obtain ⟨l, hl⟩ := Option.isSome_iff_exists.1 (label?_isSome_of_contents? h)
    exact absurd hl (hx l)
  children x y hy := by
    rw [Forest.parent?_empty] at hy
    cases hy
  hosted f hf := by
    obtain rfl : f = 0 := Nat.lt_one_iff.1 (lt_size_of_data? hf)
    cases hf

/-- A template has contents, which are no template. -/
theorem exists_contents (h : t.Hollow) (hf : Forest t)
    (hx : t.label? x = some (.html, "template")) :
    ∃ f, t.contents? x = some f ∧ t.label? f = none := by
  obtain ⟨f, hcontents⟩ := Option.isSome_iff_exists.1 ((h.contents x).2 hx)
  refine ⟨f, hcontents, Option.eq_none_iff_forall_ne_some.2 fun l hl => ?_⟩
  exact Tree.ne_fragment_of_label hl (hf.fragment x f hcontents)

theorem moved (h : t.Hollow) (m : Moved t t' c q)
    (hq : ∀ p, q = some p → t.label? p ≠ some (.html, "template")) : t'.Hollow where
  contents x := by
    rw [contents?_congr (m.data x), label?_congr (m.data x)]
    exact h.contents x
  children x y hy := by
    rw [label?_congr (m.data x)]
    rw [m.parent] at hy
    split at hy
    · exact hq x hy
    · exact h.children x y hy
  hosted f hf := by
    rw [m.data] at hf
    obtain ⟨x, hx⟩ := h.hosted f hf
    exact ⟨x, (contents?_congr (m.data x)).trans hx⟩

theorem sameShape (h : t.Hollow) (s : SameShape t t') : t'.Hollow where
  contents x := by
    rw [s.contents, s.label]
    exact h.contents x
  children x y hy := by
    rw [s.label]
    rw [s.parent] at hy
    exact h.children x y hy
  hosted f hf := by
    obtain ⟨x, hx⟩ := h.hosted f ((s.fragment f).1 hf)
    exact ⟨x, (s.contents x).trans hx⟩

theorem adds (h : t.Hollow) (hf : Forest t) (a : Adds t t' id p l) (hp : p < t.size)
    (hl : t.label? p ≠ some (.html, "template")) : t'.Hollow where
  contents x := by
    rw [a.label]
    split
    · next hid => exact hid ▸ a.filled
    · next hid =>
      by_cases hx : x < t.size
      · rw [contents?_congr (a.data x hx)]
        exact h.contents x
      · -- neither before nor after the change is this an element
        have hnone : t.label? x = none := by
          rw [label?, element?, data?_eq_none (Nat.not_lt.1 hx)]; rfl
        have hnone' : t'.label? x = none := by rw [a.label, if_neg hid, hnone]
        rw [hnone]
        refine ⟨fun hsome => ?_, by simp⟩
        have hsome := label?_isSome_of_contents? hsome
        rw [hnone'] at hsome
        cases hsome
  children x y hy := by
    obtain ⟨-, rfl⟩ | ⟨-, hy⟩ := a.parent_cases hy
    · rw [a.label_of_lt hp]
      exact hl
    · rw [a.label_of_lt (hf.linked.parent_lt hy)]
      exact h.children x y hy
  hosted f hfragment := by
    by_cases hlt : f < t.size
    · rw [a.data f hlt] at hfragment
      obtain ⟨x, hx⟩ := h.hosted f hfragment
      obtain ⟨l, hx'⟩ := Option.isSome_iff_exists.1
        (label?_isSome_of_contents? (Option.isSome_iff_exists.2 ⟨f, hx⟩))
      exact ⟨x, (contents?_congr (a.data x (lt_size_of_label? hx'))).trans hx⟩
    · exact ⟨id, a.fragment f (Nat.not_lt.1 hlt) hfragment⟩

/-- Nothing is carried into a template, and all elements that are made are formatting elements. -/
theorem rearranges {C : NodeId → NodeId → Prop} (h : t.Hollow) (hf : Forest t)
    (r : Rearranges C t t')
    (hC : ∀ p c, C p c → p < t.size → t.label? p ≠ some (.html, "template")) : t'.Hollow := by
  -- what is new is an element without contents
  have hnew : ∀ x, t.size ≤ x → t'.label? x ≠ some (.html, "template") ∧ t'.contents? x = none ∧
      t'.data? x ≠ some .fragment := by
    intro x hx
    by_cases hlt : x < t'.size
    · obtain ⟨name, hname, attributes, hd⟩ := r.data?_new hf.linked hx hlt
      have hne := TreeBuilder.ne_template_of_formatting hname
      simp [label?, contents?, element?, hd, hne]
    · have hd := data?_eq_none (Nat.not_lt.1 hlt)
      simp [label?, contents?, element?, hd]
  have hold : ∀ x, ¬ t.size ≤ x → t'.data? x = t.data? x := fun x hx =>
    r.data? hf.linked (Nat.not_le.1 hx)
  refine ⟨fun x => ?_, fun x y hy hx => ?_, fun f hfragment => ?_⟩
  · by_cases hx : t.size ≤ x
    · simp [hnew x hx]
    · rw [contents?_congr (hold x hx), label?_congr (hold x hx)]
      exact h.contents x
  · have hlt : ¬ t.size ≤ x := fun hle => (hnew x hle).1 hx
    rw [label?_congr (hold x hlt)] at hx
    rcases r.parent?_cases hf.linked hy with hy | hy
    · exact h.children x y hy hx
    · exact hC x y hy (Nat.not_le.1 hlt) hx
  · have hlt : ¬ t.size ≤ f := fun hle => (hnew f hle).2.2 hfragment
    obtain ⟨x, hx⟩ := h.hosted f ((hold f hlt).symm.trans hfragment)
    obtain ⟨l, hl⟩ := Option.isSome_iff_exists.1
      (label?_isSome_of_contents? (Option.isSome_iff_exists.2 ⟨f, hx⟩))
    exact ⟨x, (contents?_congr (hold x (Nat.not_le.2 (lt_size_of_label? hl)))).trans hx⟩

end Tree.Hollow

namespace TreeBuilder

variable {b b' : TreeBuilder} {token : Token} {mode : InsertionMode}

section Place

variable {above outer : List NodeId} {x target : NodeId} (h : b.tree.Hollow) (hf : Forest b.tree)
include h hf

/-- The place in a template is the end of its contents. -/
theorem exists_placeIn_template (ht : b.isHtml "template" target = true) :
    ∃ f, b.tree.contents? target = some f ∧ b.placeIn target = ⟨f, none⟩ := by
  obtain ⟨f, hcontents, -⟩ := h.exists_contents hf (isHtml_iff.1 ht)
  have hfoster : b.isHtmlOf Category.fostering target = false := by
    rw [Bool.eq_false_iff, Ne, isHtmlOf_iff]
    rintro ⟨name, hname, hl⟩
    rw [isHtml_iff.1 ht] at hl
    cases hl
    exact absurd hname (by decide)
  refine ⟨f, hcontents, ?_⟩
  simp only [placeIn, hfoster, Bool.and_false, Bool.false_eq_true, if_false, ht, if_true, hcontents]

/-- Foster parenting puts nodes into a template in the same way, if one is open inside the innermost
table. -/
theorem exists_placeIn_fostered (hfoster : b.fostering = true)
    (htarget : b.isHtmlOf Category.fostering target = true)
    (hopen : b.openElements = above ++ x :: outer)
    (habove : ∀ y ∈ above, b.isHtml "template" y = false ∧ b.isHtml "table" y = false)
    (ht : b.isHtml "template" x = true) :
    ∃ f, b.tree.contents? x = some f ∧ b.placeIn target = ⟨f, none⟩ := by
  obtain ⟨f, hcontents, hl⟩ := h.exists_contents hf (isHtml_iff.1 ht)
  have hplace : b.fosterPlace b.openElements = ⟨f, none⟩ := by
    rw [hopen, fosterPlace_append habove, fosterPlace, if_pos ht, hcontents]
    rfl
  have hf' : ¬ b.isHtml "template" f = true := by simp [isHtml_iff, hl]
  refine ⟨f, hcontents, ?_⟩
  rw [placeIn, hfoster, htarget, Bool.and_self, if_pos rfl, hplace, if_neg hf']

/-- Nothing goes into a template itself, even if it came there from elsewhere. -/
theorem placeIn_ne_template (target : NodeId) :
    b.tree.label? (b.placeIn target).parent ≠ some (.html, "template") := by
  unfold placeIn
  extract_lets place
  by_cases ht : b.isHtml "template" place.parent = true
  · obtain ⟨f, hcontents, hl⟩ := h.exists_contents hf (isHtml_iff.1 ht)
    rw [if_pos ht, hcontents]
    change b.tree.label? f ≠ _
    rw [hl]
    exact nofun
  · rw [if_neg ht]
    exact fun hl => ht (isHtml_iff.2 hl)

end Place

theorem PlacesLeaf.ne_template {place : Place} (hp : PlacesLeaf b place) (h : b.tree.Hollow)
    (hf : Forest b.tree) : b.tree.label? place.parent ≠ some (.html, "template") := by
  rcases hp with rfl | ⟨-, hp | ⟨-, hl⟩⟩
  · exact placeIn_ne_template h hf _
  · exact fun hl => hf.ne_root_of_label hl hp
  · rw [hl]
    simp

theorem Step.hollow (s : Step token mode b b') (hr : Rooted b) (h : b.tree.Hollow) :
    b'.tree.Hollow := by
  have hf := hr.anchored.forest
  cases s with
  | aside a => exact a.tree ▸ h
  | @insert name attributes ns =>
    obtain ⟨id, tree, heq, a⟩ := insertElement_adds hr.anchored name attributes ns
    rw [heq]
    exact h.adds hf a (place_lt hr.anchored) (placeIn_ne_template h hf _)
  | @leaf data place hd hp =>
    exact h.adds hf (adds_leaf (Token.isLeaf hd) hf (hp.lt hr)) (hp.lt hr) (hp.ne_template h hf)
  | setMode documentMode => exact h.sameShape (sameShape_setMode hf.linked documentMode)
  | @merge id tag =>
    refine h.sameShape (sameShape_modifyElement hf.linked id fun e => ?_)
    rfl
  | @adopt _ _ r _ _ ha =>
    refine h.rearranges hf ha.rearranges fun p c hC hp => ?_
    cases hC with
    | copy hp' _ | wrap hp' _ => exact absurd hp (Nat.not_lt.2 hp')
    | inside hp' _ =>
      intro hl
      have hclear := ha.clear r.block (by simp)
      rw [← hp', part?_of_label hl] at hclear
      revert hclear
      decide
    | out hp' _ => exact hp' ▸ placeIn_ne_template h hf _
  | unbody => exact h.moved (moved_detach hf.linked _) nofun
  | _ => exact h

theorem hollow_insertChar (hr : Rooted b) (hp : b.place.parent ≠ Tree.root) (h : b.tree.Hollow)
    (c : Char) : (b.insertChar c).tree.Hollow := by
  have hf := hr.anchored.forest
  have hlt := place_lt hr.anchored
  rw [insertChar_eq_insertText hr.anchored, if_neg hp]
  obtain ⟨prev, old, -, hold, heq⟩ | ⟨-, heq⟩ :=
    insertText_cases b.tree b.place.parent b.place.before c.toString
  · rw [heq]
    exact h.sameShape (sameShape_setText hf.linked hold)
  · rw [heq]
    exact h.adds hf (adds_alloc hf hlt (by simp) (by simp) _) hlt (placeIn_ne_template h hf _)

theorem kept_hollow : Kept (fun _ => True) (fun _ => True) fun b => b.tree.Hollow where
  follows _ _ := trivial
  mode _ _ := trivial
  note ht _ _ _ _ h := ht ▸ h
  step _ _ s hr _ h := s.hollow hr h
  char c hr _ hp _ h := hollow_insertChar hr hp h c

end TreeBuilder

/-! ## 2. Reachable builders -/

theorem Tree.count_bones (t : Tree) (stack : List NodeId) :
    (t.bones stack).count .template =
      stack.countP fun x => decide (t.label? x = some (.html, "template")) := by
  rw [Tree.bones, List.count_filterMap]
  refine List.countP_congr fun x _ => ?_
  simp [part?_eq_some, Part.names]

namespace TreeBuilder

variable {b : TreeBuilder}

theorem Reachable.hollow (h : Reachable b) : b.tree.Hollow :=
  kept_hollow.reachable (fun _ _ => .empty) h

/-- While a template is the current node, elements and text are put at the end of its contents. -/
theorem Reachable.insert_template (h : Reachable b) {x : NodeId} {outer : List NodeId}
    (hopen : b.openElements = x :: outer) (hx : b.isHtml "template" x = true) :
    ∃ f, b.tree.contents? x = some f ∧
      (∀ name attributes ns, ∃ id,
        (b.insertElement name attributes ns).openElements = id :: x :: outer ∧
        (b.insertElement name attributes ns).tree.parent? id = some f) ∧
      ∀ c, b.insertChar c = { b with tree := (b.tree.insertText f none c.toString).2 } := by
  have hanchored := h.valid.planted.anchored
  have hf := hanchored.forest
  obtain ⟨f, hcontents, hplaceIn⟩ := exists_placeIn_template h.hollow hf hx
  have hplace : b.place = ⟨f, none⟩ := by rw [place, currentNode?, hopen]; exact hplaceIn
  refine ⟨f, hcontents, fun name attributes ns => ?_, fun c => ?_⟩
  · obtain ⟨id, tree, heq, hadds⟩ := insertElement_adds hanchored name attributes ns
    refine ⟨id, by rw [heq, ← hopen], ?_⟩
    rw [heq, hadds.parent, if_pos rfl, hplace]
  · have hroot : f ≠ Tree.root := by
      rintro rfl
      obtain ⟨mode, hdocument⟩ := hf.document
      rw [hf.fragment x _ hcontents] at hdocument
      cases hdocument
    rw [insertChar_eq_insertText hanchored, hplace, if_neg hroot]

/-- Until tree construction has stopped there is a mode for each open template. A template has a
fragment of its own as its contents, which hangs nowhere, and no children. -/
theorem templates_of_reachable (h : Reachable b) :
    (b.stopped = false → b.templateModes.length = b.openElements.countP (b.isHtml "template")) ∧
    (∀ x, b.isHtml "template" x = true → b.tree.children x = [] ∧
      ∃ f, b.tree.contents? x = some f ∧ b.tree.data? f = some .fragment ∧
      b.tree.parent? f = none) ∧
    ∀ x y f, b.tree.contents? x = some f → b.tree.contents? y = some f → x = y := by
  have hf := h.valid.planted.forest
  have hhollow := h.hollow
  refine ⟨fun hs => ?_, fun x hx => ?_, hf.host⟩
  · have hcounted := (h.spine hs).standing.counted
    rw [Counted, Tree.count_bones] at hcounted
    rw [hcounted]
    exact List.countP_congr fun x _ => by rw [decide_eq_true_eq, isHtml_iff]
  · have hl := isHtml_iff.1 hx
    obtain ⟨f, hcontents⟩ := Option.isSome_iff_exists.1 ((hhollow.contents x).2 hl)
    have hfragment := hf.fragment x f hcontents
    refine ⟨?_, f, hcontents, hfragment, hf.fragment_parent f hfragment⟩
    rw [List.eq_nil_iff_forall_not_mem]
    exact fun y hy => hhollow.children x y ((hf.linked.mem_children x y).1 hy) hl

/-- A table that is left open in a template in a row in a template, and text in it. -/
def nestedTemplates : List Token :=
  [.startTag { name := "template" }, .startTag { name := "tr" }, .startTag { name := "template" },
    .startTag { name := "table" }, .character 'x']

theorem templates_nestedTemplates : ∃ b, feed {} nestedTemplates = .ok b ∧ b.stopped = false ∧
    (∃ x ∈ b.openElements, ∃ y ∈ b.openElements, x ≠ y ∧ b.isHtml "template" x = true ∧
      b.isHtml "template" y = true) ∧
    b.templateModes.length = b.openElements.countP (b.isHtml "template") ∧
    (∀ x, b.isHtml "template" x = true → b.tree.children x = [] ∧
      ∃ f, b.tree.contents? x = some f ∧ b.tree.data? f = some .fragment ∧
      b.tree.parent? f = none) ∧
    ∀ x y f, b.tree.contents? x = some f → b.tree.contents? y = some f → x = y := by
  obtain ⟨b, hb, hs, htwo⟩ := exists_ok (feed {} nestedTemplates)
    (fun b => b.stopped = false ∧ ∃ x ∈ b.openElements, ∃ y ∈ b.openElements,
      x ≠ y ∧ b.isHtml "template" x = true ∧
      b.isHtml "template" y = true) (by with_unfolding_all decide)
  obtain ⟨hmodes, hchildren, hhost⟩ := templates_of_reachable (.feed (.start false false) hb)
  exact ⟨b, hb, hs, htwo, hmodes hs, hchildren, hhost⟩

end TreeBuilder

end Hypertext
