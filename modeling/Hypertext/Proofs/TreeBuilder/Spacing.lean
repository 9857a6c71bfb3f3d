import Hypertext.Proofs.Dom.Neighbours
import Hypertext.Proofs.TreeBuilder.Adopted

/-!
# Texts stand apart

A character goes into the text in front of it, so two texts come next to each other only if what
stood between them is taken away. That happens to a block that the adoption agency carries off,
and to the body. No text comes after such an element while it is open: what is inserted goes
into the current element, or in front of the innermost table, and no element that may be taken
away ends there.
-/

namespace Hypertext

open Hypertext.Tree

/-! ## 1. Trees -/

/-- The element may be taken from its place: it is no part, or the body. -/
def Tree.Loose (t : Tree) (x : NodeId) : Prop := t.part? x = none ∨ t.part? x = some .body

/-- No text is empty, and no two of them are neighbours. Behind an open element that may be taken
away is neither a text nor an element that was opened later. -/
structure Tree.Spaced (t : Tree) (stack : List NodeId) : Prop where
  filled : ∀ x, t.text? x ≠ some ""
  apart : ∀ x y, t.next? x = some y → t.text? x = none ∨ t.text? y = none
  followed : ∀ x ∈ stack, t.Loose x → ∀ y, t.next? x = some y → t.text? y = none
  order : stack.Pairwise fun inner outer => t.Loose outer → t.next? outer ≠ some inner

section Spaced

variable {t t' : Tree} {stack stack' : List NodeId} {c x : NodeId} {front back : Option NodeId}

theorem Tree.loose_congr (hl : t'.label? x = t.label? x) : t'.Loose x ↔ t.Loose x := by
  rw [Loose, Loose, part?, part?, hl]

theorem Tree.Loose.part_ne {p : Part} (h : t.Loose x) (hp : p ≠ .body) : t.part? x ≠ some p := by
  rcases h with h | h <;> simp [h, Ne.symm hp]

namespace Tree.Spaced

theorem empty : Tree.empty.Spaced [] where
  filled x hx := by
    obtain rfl : x = 0 := Nat.lt_one_iff.1 (lt_size_of_data? (text?_eq_some.1 hx))
    cases hx
  apart x y hn := by
    rw [Linked.empty.next_eq_none (Forest.parent?_empty x)] at hn
    cases hn
  followed := List.forall_mem_nil _
  order := .nil

theorem sublist (h : t.Spaced stack) (hs : stack'.Sublist stack) : t.Spaced stack' :=
  ⟨h.filled, h.apart, fun x hx => h.followed x (hs.subset hx), h.order.sublist hs⟩

/-- Nodes that hang nowhere may be opened anywhere. -/
theorem attach (h : t.Spaced stack) (hl : Linked t)
    (hs : (stack'.filter fun x => (t.parent? x).isSome).Sublist stack) : t.Spaced stack' := by
  refine ⟨h.filled, h.apart, fun x hx hloose y hn => ?_, ?_⟩
  · cases hp : t.parent? x with
    | none => rw [hl.next_eq_none hp] at hn; cases hn
    | some p => exact h.followed x (hs.subset (List.mem_filter.2 ⟨hx, by simp [hp]⟩)) hloose y hn
  · refine (List.pairwise_filter.1 (h.order.sublist hs)).imp fun {y x} hyx hloose hn => ?_
    have hpx : t.parent? x ≠ none := fun hp => by rw [hl.next_eq_none hp] at hn; cases hn
    have hpy : t.parent? y ≠ none := hl.parent_of_next hn ▸ hpx
    exact hyx (Option.isSome_iff_ne_none.2 hpy) (Option.isSome_iff_ne_none.2 hpx) hloose hn

theorem cons (h : t.Spaced stack)
    (hfollowed : t.Loose c → ∀ y, t.next? c = some y → t.text? y = none)
    (horder : ∀ x ∈ stack, t.Loose x → t.next? x ≠ some c) : t.Spaced (c :: stack) :=
  ⟨h.filled, h.apart, List.forall_mem_cons.2 ⟨hfollowed, h.followed⟩,
    List.pairwise_cons.2 ⟨horder, h.order⟩⟩

/-- Texts may go on, and other data may change. -/
theorem sameShape (h : t.Spaced stack) (hl : Linked t) (s : SameShape t t')
    (hfilled : ∀ x, t'.text? x ≠ some "") : t'.Spaced stack where
  filled := hfilled
  apart x y hn := by
    rw [s.text?_eq_none_iff, s.text?_eq_none_iff]
    exact h.apart x y (s.next? hl x ▸ hn)
  followed x hx hloose y hn := by
    rw [s.text?_eq_none_iff]
    exact h.followed x hx ((loose_congr (s.label x)).1 hloose) y (s.next? hl x ▸ hn)
  order := h.order.imp fun {y x} hyx hloose hn =>
    hyx ((loose_congr (s.label x)).1 hloose) (s.next? hl x ▸ hn)

/-- An open element may be taken away. -/
theorem detach (h : t.Spaced stack) (hl : Linked t) (hc : c ∈ stack) (hloose : t.Loose c) :
    (t.detach c).Spaced stack := by
  have htext : ∀ x, (t.detach c).text? x = t.text? x := fun x => text?_congr (data?_detach c x)
  have hiff : ∀ x, (t.detach c).Loose x ↔ t.Loose x := fun x =>
    loose_congr (label?_congr (data?_detach c x))
  refine ⟨fun x => htext x ▸ h.filled x, fun x y hn => ?_, fun x hx hx' y hn => ?_, ?_⟩
  · rw [htext, htext]
    obtain ⟨-, hc'⟩ | hn := hl.next?_detach_cases hn
    · exact Or.inr (h.followed c hc hloose y hc')
    · exact h.apart x y hn
  · rw [htext]
    obtain ⟨-, hc'⟩ | hn := hl.next?_detach_cases hn
    · exact h.followed c hc hloose y hc'
    · exact h.followed x hx ((hiff x).1 hx') y hn
  · -- whichever of the two is the inner one, the element is not between an outer and an inner one
    have horder := List.pairwise_iff_getElem.1 h.order
    refine List.pairwise_iff_getElem.2 fun i j hi hj hij hx' hn => ?_
    rw [hiff] at hx'
    obtain ⟨hx, hc'⟩ | hn := hl.next?_detach_cases hn
    · obtain ⟨k, hk, rfl⟩ := List.getElem_of_mem hc
      rcases Nat.lt_trichotomy k j with hkj | rfl | hjk
      · exact horder k j hk hj hkj hx' hx
      · exact hl.next_ne_self _ hx
      · exact horder i k hi hk (Nat.lt_trans hij hjk) hloose hc'
    · exact horder i j hi hj hij hx' hn

/-- A node without neighbours is put between two others: a text not behind an open element that may
be taken away, and an open element not between such an element and one that was opened later. -/
theorem interpose (h : t.Spaced stack) (hl : Linked t) (hc : t.parent? c = none)
    (hnext : ∀ x y, t'.next? x = some y →
      x = c ∧ back = some y ∨ y = c ∧ front = some x ∨ t.next? x = some y)
    (hfilled : ∀ x, t'.text? x ≠ some "") (htext : ∀ x, x ≠ c → t'.text? x = t.text? x)
    (hloose : ∀ x ∈ stack, t'.Loose x → t.Loose x) (hback : ∀ y, back = some y → t'.text? y = none)
    (hfront : t'.text? c ≠ none →
      ∀ x, front = some x → t'.text? x = none ∧ (x ∈ stack → ¬ t.Loose x))
    (horder : stack.Pairwise fun inner outer =>
      (outer = c → back ≠ some inner) ∧ (inner = c → t.Loose outer → front ≠ some outer)) :
    t'.Spaced stack := by
  -- the node had no neighbours before
  have hne : ∀ {x y}, t.next? x = some y → x ≠ c ∧ y ≠ c := by
    refine fun {x y} hn => ⟨?_, ?_⟩
    · rintro rfl
      rw [hl.next_eq_none hc] at hn
      cases hn
    · rintro rfl
      exact hl.next_ne_of_parent hc x hn
  refine ⟨hfilled, fun x y hn => ?_, fun x hx hx' y hn => ?_, ?_⟩
  · obtain ⟨-, hy⟩ | ⟨rfl, hx⟩ | hn := hnext x y hn
    · exact Or.inr (hback y hy)
    · by_cases hy : t'.text? y = none
      · exact Or.inr hy
      · exact Or.inl (hfront hy x hx).1
    · rw [htext x (hne hn).1, htext y (hne hn).2]
      exact h.apart x y hn
  · obtain ⟨-, hy⟩ | ⟨rfl, hx''⟩ | hn := hnext x y hn
    · exact hback y hy
    · by_contra hy
      exact (hfront hy x hx'').2 hx (hloose x hx hx')
    · rw [htext y (hne hn).2]
      exact h.followed x hx (hloose x hx hx') y hn
  · refine (horder.and h.order).imp_of_mem fun {y x} _ hx ⟨⟨hbehind, hbefore⟩, hyx⟩ hx' hn => ?_
    have hx' := hloose x hx hx'
    obtain ⟨hxc, hy⟩ | ⟨hyc, hx''⟩ | hn := hnext x y hn
    · exact hbehind hxc hy
    · exact hbefore hyc hx' hx''
    · exact hyx hx' hn

end Tree.Spaced

end Spaced

/-! ## 2. Places -/

/-- A current part of a table has only rows and groups of rows on the table or template
that it is in. -/
theorem Seated.exists_rows {t : Tree} {stack : List NodeId} (h : Seated t stack)
    (htop : ∀ y ∈ stack.head?, t.part? y ∈ [some Part.table, some .rowGroup, some .row]) :
    ∃ rows outer, stack = rows ++ outer ∧
      (∀ x ∈ rows, t.part? x = some .rowGroup ∨ t.part? x = some .row) ∧
      ∀ z ∈ outer.head?, t.part? z = some .table ∨ t.part? z = some .template := by
  induction stack with
  | nil => exact ⟨[], [], rfl, by simp, by simp⟩
  | cons y stack ih =>
    obtain ⟨hsits, hstack⟩ := seated_cons.1 h
    have hy := htop y rfl
    simp only [List.mem_cons, List.not_mem_nil, or_false] at hy
    rcases hy with hy | hy | hy
    · exact ⟨[], y :: stack, rfl, by simp, by simp [hy]⟩
    · refine ⟨[y], stack, rfl, by simp [hy], fun z hz => ?_⟩
      have hs := hsits z hz
      rw [hy] at hs
      simpa [Sits] using hs
    · -- a row may stand on a group of rows
      have hs : ∀ z ∈ stack.head?, t.part? z = some .rowGroup ∨ t.part? z = some .template :=
        fun z hz => by
        have hs := hsits z hz
        rw [hy] at hs
        simpa [Sits] using hs
      by_cases hgroup : ∀ z ∈ stack.head?, t.part? z = some .rowGroup
      · obtain ⟨rows, outer, rfl, hrows, hz⟩ := ih hstack fun z hz => by simp [hgroup z hz]
        exact ⟨y :: rows, outer, rfl, List.forall_mem_cons.2 ⟨Or.inr hy, hrows⟩, hz⟩
      · push Not at hgroup
        obtain ⟨z, hz, hne⟩ := hgroup
        refine ⟨[y], stack, rfl, by simp [hy], fun z' hz' => ?_⟩
        obtain rfl := Option.some.inj ((Option.mem_def.1 hz).symm.trans hz')
        exact Or.inr ((hs z hz).resolve_left hne)

namespace TreeBuilder

variable {b b' : TreeBuilder} {token : Token} {mode : InsertionMode} {target x : NodeId}

theorem isHtml_iff_part? (p : Part) {name : String} (h : p.names = [name]) :
    b.isHtml name x = true ↔ b.tree.part? x = some p := by
  rw [part?_eq_some_iff, h, isHtmlOf_singleton]

theorem Redirects.part (h : Redirects b x) :
    b.tree.part? x ∈ [some Part.table, some .rowGroup, some .row] := by
  obtain ⟨name, hname, hl⟩ := isHtmlOf_iff.1 h.2
  rw [part?_of_label hl, partOf_html]
  have hall : ∀ name ∈ Category.fostering,
      Part.ofName? name ∈ [some Part.table, some .rowGroup, some .row] := by decide
  exact hall name hname

/-- What goes into a node goes below it, unless it is put in front of a table instead. -/
theorem reach_placeIn (h : ¬ Redirects b target) :
    b.tree.Reach target (b.placeIn target).parent := by
  have hcond : (b.fostering && b.isHtmlOf Category.fostering target) = false := by
    rw [Bool.eq_false_iff, Ne, Bool.and_eq_true]
    exact h
  rw [placeIn, hcond]
  simp only [Bool.false_eq_true, if_false]
  split
  · split
    · next f hf => exact .single (Or.inr hf)
    · exact .refl
  · exact .refl

/-- The contents of a template are no template. -/
theorem placeIn_of_redirects (h : Redirects b target)
    (hp : b.tree.label? (b.fosterPlace b.openElements).parent ≠ some (.html, "template")) :
    b.placeIn target = b.fosterPlace b.openElements := by
  have hcond : (b.fostering && b.isHtmlOf Category.fostering target) = true := by rw [h.1, h.2]; rfl
  rw [placeIn, hcond, if_pos rfl, if_neg (mt isHtml_iff.1 hp)]

/-- No open element that may be taken away comes to be in front of what is put into the top of the
stack. The tree `d` is the one that it is put into, where the open elements are where they were. -/
theorem preceding?_placeIn_ne {above outer : List NodeId} {d : Tree} (hr : Rooted b)
    (hh : b.tree.Hollow) (hopen : b.openElements = above ++ outer)
    (habove : ∀ y ∈ above, b.isHtml "template" y = false ∧ b.isHtml "table" y = false)
    (hb : Braced b outer) (hd : Linked d) (hparent : ∀ y ∈ outer, d.parent? y = b.tree.parent? y)
    (hspaced : outer.Pairwise fun inner outer => b.tree.Loose outer → d.next? outer ≠ some inner)
    (hx : x ∈ outer) (hloose : b.tree.Loose x) :
    d.preceding? (b.placeIn (outer.head?.getD Tree.root)).parent
      (b.placeIn (outer.head?.getD Tree.root)).before ≠ some x := by
  intro hprec
  have hf := hr.anchored.forest
  have hp : b.tree.parent? x = some (b.placeIn (outer.head?.getD Tree.root)).parent :=
    (hparent x hx).symm.trans (hd.parent_of_preceding hprec)
  -- what is open around an element is not below it, nor is the element itself
  have hnot : ∀ {inner z more}, outer = inner ++ z :: more → x ∈ z :: more →
      ¬ b.tree.Reach z (b.placeIn (outer.head?.getD Tree.root)).parent := by
    intro inner z more heq hmem hreach
    rcases List.mem_cons.1 hmem with rfl | hmem
    · exact hf.acyclic x (.tail' hreach (Or.inl hp))
    · have horder := hr.anchored.order
      rw [hopen, heq, ← List.append_assoc] at horder
      exact (List.pairwise_cons.1 (List.pairwise_append.1 horder).2.1).1 x hmem
        (hreach.tail (Or.inl hp))
  obtain ⟨y, more, rfl⟩ := List.exists_cons_of_ne_nil (List.ne_nil_of_mem hx)
  rw [List.head?_cons, Option.getD_some] at hp hprec hnot
  by_cases hredirect : Redirects b y
  · obtain ⟨rows, outer, heq, hrows, hhead⟩ := (hb y rfl hredirect).exists_rows fun z hz => by
      cases hz
      exact hredirect.part
    have hx' : x ∈ outer := (List.mem_append.1 (heq ▸ hx)).resolve_left fun hmem =>
      (hrows x hmem).elim (hloose.part_ne (by decide)) (hloose.part_ne (by decide))
    obtain ⟨z, outer, rfl⟩ := List.exists_cons_of_ne_nil (List.ne_nil_of_mem hx')
    have hopen' : b.openElements = (above ++ rows) ++ z :: outer := by
      rw [hopen, heq, List.append_assoc]
    have hfront : ∀ w ∈ above ++ rows, b.isHtml "template" w = false ∧
        b.isHtml "table" w = false := by
      refine List.forall_mem_append.2 ⟨habove, fun w hw => ?_⟩
      rw [Bool.eq_false_iff, Bool.eq_false_iff, Ne, isHtml_iff_part? .template rfl, Ne,
        isHtml_iff_part? .table rfl]
      rcases hrows w hw with hw | hw <;> simp [hw]
    have hz : z ∈ b.openElements := by simp [hopen, heq]
    rcases hhead z rfl with htable | htemplate
    · -- it would be followed by the table, which was opened later
      obtain ⟨p, hzp⟩ := exists_parent hr hz
      have htable' := (isHtml_iff_part? .table rfl).2 htable
      have htemplate : b.isHtml "template" z = false := by
        rw [Bool.eq_false_iff, Ne, isHtml_iff_part? .template rfl, htable]
        decide
      have hplace : b.placeIn y = ⟨p, some z⟩ := by
        have hat : b.fosterPlace b.openElements = ⟨p, some z⟩ := by
          rw [hopen', fosterPlace_append hfront, fosterPlace, htemplate, htable', hzp]
          rfl
        rw [placeIn_of_redirects hredirect (by rw [hat]; exact hh.children p z hzp), hat]
      rw [hplace] at hprec
      have hnext := hd.next_of_preceding ((hparent z (by simp [heq])).trans hzp) hprec
      rcases List.mem_cons.1 hx' with rfl | hmem
      · exact hd.next_ne_self _ hnext
      · rw [heq] at hspaced
        exact (List.pairwise_cons.1 (List.pairwise_append.1 hspaced).2.1).1 x hmem hloose hnext
    · -- it would be below the template
      have htemplate' := (isHtml_iff_part? .template rfl).2 htemplate
      obtain ⟨f, hcontents, hplace⟩ :=
        exists_placeIn_fostered hh hf hredirect.1 hredirect.2 hopen' hfront htemplate'
      refine hnot heq hx' ?_
      rw [hplace]
      exact .single (Or.inr hcontents)
  · exact hnot (List.nil_append _).symm hx (reach_placeIn hredirect)

/-! ## 3. The adoption agency -/

section Adopts

variable {deeper between copies rest outer : List NodeId} {block : NodeId} {w₀ w : Walk}
  {r : AgencyRound}

theorem Climbs.fresh (c : Climbs deeper block outer w₀ between copies rest w)
    (h : Walk.Sound b deeper block [] between outer w₀) (hstart : w₀.lastNode = block) :
    ∀ x ∈ copies, w₀.builder.tree.size ≤ x := by
  induction c with
  | start => exact List.forall_mem_nil _
  | forget _ _ ih => exact ih
  | close _ _ ih => exact ih
  | @copy copies rest node id w i tag tree c hi htag hnew ih =>
    have g := grown_createElement tag.name tag.attributes .html (c.sound h).carried.forest
    rw [hnew] at g
    have hsize := (c.rearranges h hstart).1.size_le h.carried.forest.linked
    exact List.forall_mem_append.2 ⟨ih, List.forall_mem_singleton.2 (Nat.le_trans hsize g.fresh)⟩

/-- What is carried is the last copy, or the block when there is none. -/
theorem Climbs.exists_init (c : Climbs deeper block outer w₀ between copies rest w)
    (hstart : w₀.lastNode = block) : ∃ init, block :: copies = init ++ [w.lastNode] := by
  induction c with
  | start => exact ⟨[], by rw [hstart]; rfl⟩
  | forget _ _ ih => exact ih
  | close _ _ ih => exact ih
  | copy => exact ⟨_, (List.cons_append ..).symm⟩

/-- While it is carried, the block leaves a gap, and nothing else gets new neighbours. -/
theorem Climbs.next?_detach (c : Climbs deeper block outer w₀ between copies rest w)
    (h : Walk.Sound b deeper block [] between outer w₀) (x : NodeId) :
    (w.builder.tree.detach w.lastNode).next? x = (w₀.builder.tree.detach w₀.lastNode).next? x := by
  induction c with
  | start => rfl
  | forget _ _ ih => exact ih
  | close _ _ ih => exact ih
  | @copy copies rest node id w i tag tree c hi htag hnew ih =>
    have hcarried := (c.sound h).carried
    have hf := hcarried.forest
    have hlt := hcarried.lt hcarried.mem_stack
    obtain ⟨g, m⟩ := hcarried.moved_copy hnew
    have hne : id ≠ w.lastNode := Ne.symm (Nat.ne_of_lt (Nat.lt_of_lt_of_le hlt g.fresh))
    -- the copy is where nothing else is: it has no parent yet, and had no children
    have hnone : (tree.appendChild id w.lastNode).parent? id = none := by
      rw [m.parent, if_neg hne, g.parent, parent?_eq_none _ id g.fresh]
    have hempty : tree.children id = [] := by
      rw [g.children, children_eq, get?_eq_none _ id g.fresh]
      rfl
    have hsame : (tree.detach w.lastNode).next? x = (w.builder.tree.detach w.lastNode).next? x := by
      simp only [Tree.next?_detach _ _ g.linked, Tree.next?_detach _ _ hf.linked,
        next?_congr hf.linked g.linked g.parent g.children]
    calc ((tree.appendChild id w.lastNode).detach id).next? x
        = (tree.appendChild id w.lastNode).next? x := m.linked.next?_detach_of_parent hnone x
      _ = (tree.detach w.lastNode).next? x := g.linked.next?_appendChild_of_empty hempty x
      _ = (w.builder.tree.detach w.lastNode).next? x := hsame
      _ = (w₀.builder.tree.detach w₀.lastNode).next? x := ih

/-- In the end what is carried comes between two neighbours, and the block leaves a gap. -/
theorem Adopts.next?_cases (h : Adopts b b' r) {x y : NodeId} (hn : b'.tree.next? x = some y) :
    x = r.walk.lastNode ∧ (b.placeIn (r.outer.head?.getD Tree.root)).before = some y ∨
      y = r.walk.lastNode ∧ (r.walk.builder.tree.detach r.walk.lastNode).preceding?
        (b.placeIn (r.outer.head?.getD Tree.root)).parent
        (b.placeIn (r.outer.head?.getD Tree.root)).before = some x ∨
      (b.tree.detach r.block).next? x = some y := by
  have hcarried := (h.carriable.sound h.climbs).carried
  have hput := (h.carriable.rebuilt h.climbs).1.planted.forest
  rw [h.tree_eq, next?_wrapped hput.linked h.grown_copy h.block_lt] at hn
  have hcases := hcarried.forest.linked.next?_insertAt_cases (hcarried.lt hcarried.mem_stack) hn
  rwa [h.climbs.next?_detach (h.carriable.start _), h.target_eq] at hcases

theorem Adopts.le_copy (h : Adopts b b' r) : b.tree.size ≤ r.copy := by
  have hsize := (h.climbs.rearranges (h.carriable.start _) rfl).1.size_le
    h.carriable.planted.forest.linked
  rw [← (h.carriable.shifted h.climbs).size] at hsize
  exact Nat.le_trans hsize h.grown_copy.fresh

/-- Nothing open around the formatting element that may be taken away comes to be in front
of the block. -/
theorem Adopts.preceding?_ne (h : Adopts b b' r) (hr : Rooted b) (hb : Braced b r.outer)
    (hh : b.tree.Hollow) (hspaced : (b.tree.detach r.block).Spaced b.openElements) {x : NodeId}
    (hx : x ∈ r.outer) (hloose : (b.tree.detach r.block).Loose x) :
    (r.walk.builder.tree.detach r.walk.lastNode).preceding?
      (b.placeIn (r.outer.head?.getD Tree.root)).parent
      (b.placeIn (r.outer.head?.getD Tree.root)).before ≠ some x := by
  have hc := h.carriable
  have hcarried := (hc.sound h.climbs).carried
  have hlinked := hcarried.forest.linked
  obtain ⟨hclimb, hlast⟩ := h.climbs.rearranges (hc.start _) rfl
  have hopen : b.openElements = (r.deeper ++ r.block :: (r.between ++ [r.element])) ++ r.outer := by
    simp [hc.stack]
  have hiff : ∀ x, (b.tree.detach r.block).Loose x ↔ b.tree.Loose x := fun x =>
    loose_congr (label?_congr (data?_detach _ x))
  refine preceding?_placeIn_ne hr hh hopen (fun y hy => ?_) hb (hlinked.detach _)
    (fun y hy => ?_) ?_ hx ((hiff x).1 hloose)
  · exact (movable_of_part? (by simp [h.clear y hy])).2
  · -- it is neither the block nor a copy
    have hold : ¬ (y = r.block ∨ b.tree.size ≤ y) := by
      rintro (rfl | hle)
      · exact hc.element_not_mem.2.2 (by simp [hy])
      · exact absurd (hr.anchored.lt (h.outer_sublist.subset hy)) (Nat.not_lt.2 hle)
    rw [parent?_detach _ y hlinked, if_neg fun heq : y = _ => hold (heq ▸ hlast)]
    exact hclimb.parent?_eq hr.anchored.forest.linked fun p hp => hold hp.2
  · refine (hspaced.order.sublist h.outer_sublist).imp fun {inner outer} horder hloose => ?_
    rw [h.climbs.next?_detach (hc.start _)]
    exact horder ((hiff outer).2 hloose)

theorem Adopts.spaced (h : Adopts b b' r) (hr : Rooted b) (hb : Braced b r.outer)
    (hh : b.tree.Hollow) (hspaced : b.tree.Spaced b.openElements) :
    b'.tree.Spaced b'.openElements := by
  have hlinked := hr.anchored.forest.linked
  have hcarried := (h.carriable.sound h.climbs).carried
  obtain ⟨hclimb, hlast⟩ := h.climbs.rearranges (h.carriable.start _) rfl
  obtain ⟨init, hinit⟩ := h.climbs.exists_init rfl
  have htext : ∀ x, b'.tree.text? x = b.tree.text? x := h.rearranges.text? hlinked
  -- the block is taken away, and is open in the tree without it, like the copies
  have hgap := hspaced.detach hlinked h.block_mem (Or.inl (h.clear r.block (by simp)))
  have hnowhere : ∀ x, x = r.block ∨ b.tree.size ≤ x →
      (b.tree.detach r.block).parent? x = none := by
    rintro x (rfl | hx)
    · rw [parent?_detach _ _ hlinked, if_pos rfl]
    · rw [parent?_detach _ _ hlinked, parent?_eq_none _ x hx, ite_self]
  have hopened : (b.tree.detach r.block).Spaced b'.openElements := by
    refine hgap.attach (hlinked.detach _) ?_
    have hcopies : ∀ x ∈ r.copy :: r.block :: r.copies, (b.tree.detach r.block).parent? x =
        none := by
      refine List.forall_mem_cons.2 ⟨hnowhere _ (Or.inr h.le_copy), List.forall_mem_cons.2
        ⟨hnowhere _ (Or.inl rfl), fun x hx => hnowhere _ (Or.inr ?_)⟩⟩
      exact h.climbs.fresh (h.carriable.start _) rfl x hx
    have hstack : b'.openElements = r.deeper ++ ((r.copy :: r.block :: r.copies) ++ r.outer) := by
      rw [h.stack]
      rfl
    have hnone : (r.copy :: r.block :: r.copies).filter
        (fun x => ((b.tree.detach r.block).parent? x).isSome) = [] :=
      List.filter_eq_nil_iff.2 fun x hx => by simp [hcopies x hx]
    rw [hstack, List.filter_append, List.filter_append, hnone, h.carriable.stack]
    refine List.filter_sublist.append (List.filter_sublist.trans ?_)
    rw [List.append_cons, ← List.cons_append]
    exact List.sublist_append_right _ _
  refine hopened.interpose (hlinked.detach _) (hnowhere _ hlast) (fun x y => h.next?_cases)
    (fun x => htext x ▸ hspaced.filled x)
    (fun x _ => (htext x).trans (text?_congr (data?_detach _ x)).symm)
    (fun x hx hloose => ?_) (fun y hy => ?_) (fun hlast => ?_) ?_
  · refine (loose_congr (label?_congr (data?_detach _ x))).2 ?_
    by_cases hlt : x < b.tree.size
    · exact (loose_congr (h.label_eq hlt)).1 hloose
    · refine Or.inl ?_
      rw [part?, label?, element?, data?_eq_none (Nat.not_lt.1 hlt)]
      rfl
  · rw [htext, text?_of_label (label?_placeIn hy)]
  · obtain ⟨l, hl⟩ := hcarried.exists_label
    rw [htext, ← hclimb.text? hlinked, text?_of_label hl] at hlast
    exact absurd rfl hlast
  · -- around what is carried is only what is open around the formatting element
    have hclear := h.clear_rebuilt
    have hnodup := h.rebuilt.planted.nodup
    have hstack : b'.openElements = (r.deeper ++ r.copy :: init) ++ r.walk.lastNode :: r.outer := by
      rw [h.stack, ← List.cons_append, hinit]
      simp
    rw [hinit] at hclear
    rw [hstack] at hnodup ⊢
    obtain ⟨-, houter, hinner⟩ := List.nodup_append.1 hnodup
    have hinner : ∀ x ∈ r.deeper ++ r.copy :: init, x ≠ r.walk.lastNode := fun x hx =>
      hinner x hx _ (by simp)
    have houter : ∀ x ∈ r.outer, x ≠ r.walk.lastNode := fun x hx heq =>
      (List.nodup_cons.1 houter).1 (heq ▸ hx)
    have hbehind : ∀ x ∈ r.deeper ++ r.copy :: init,
        (b.placeIn (r.outer.head?.getD Tree.root)).before ≠ some x := by
      intro x hx hback
      have hpart := part?_of_label (h.rebuilt.keeps _ _ (label?_placeIn hback))
      rw [hclear x (by simp only [List.mem_append, List.mem_cons] at hx ⊢; tauto)] at hpart
      cases hpart
    refine List.pairwise_append.2 ⟨?_,
      List.pairwise_cons.2 ⟨fun x hx => ⟨?_, fun _ hloose => ?_⟩, ?_⟩, ?_⟩
    · exact List.pairwise_of_forall_mem_list fun x hx y hy =>
        ⟨fun heq => absurd heq (hinner y hy), fun heq => absurd heq (hinner x hx)⟩
    · exact fun heq => absurd heq (houter x hx)
    · exact h.preceding?_ne hr hb hh hgap hx hloose
    · exact List.pairwise_of_forall_mem_list fun x hx y hy =>
        ⟨fun heq => absurd heq (houter y hy), fun heq => absurd heq (houter x hx)⟩
    · exact fun x hx y _ => ⟨fun _ => hbehind x hx, fun heq => absurd heq (hinner x hx)⟩

end Adopts

/-! ## 4. Steps -/

/-- A new node may be put anywhere, a text only behind something that stays where it is. -/
theorem spaced_insertAt {grown : Tree} {id : NodeId} {place : Place} (hr : Rooted b)
    (h : b.tree.Spaced b.openElements) (g : Grown b.tree grown id)
    (hlt : place.parent < b.tree.size)
    (hbefore : ∀ y, place.before = some y → b.tree.label? y = some (.html, "table"))
    (htext : ∀ x, x ≠ id → grown.text? x = b.tree.text? x) (hfilled : grown.text? id ≠ some "")
    (hfront : grown.text? id ≠ none → ∀ x, b.tree.preceding? place.parent place.before = some x →
      b.tree.text? x = none ∧ (x ∈ b.openElements → ¬ b.tree.Loose x)) :
    (grown.insertAt place.parent place.before id).Spaced b.openElements := by
  have hlinked := hr.anchored.forest.linked
  have m := moved_insertAt g.linked (Nat.lt_of_lt_of_le hlt g.size_le) g.lt place.before
  have htext' : ∀ x, (grown.insertAt place.parent place.before id).text? x = grown.text? x :=
    fun x =>
    text?_congr (m.data x)
  have hold : ∀ {x}, x < b.tree.size → x ≠ id := fun hx =>
    Nat.ne_of_lt (Nat.lt_of_lt_of_le hx g.fresh)
  refine h.interpose hlinked (parent?_eq_none _ id g.fresh)
    (fun x y => g.next?_insertAt_cases hlinked)
    (fun x => ?_) (fun x hx => (htext' x).trans (htext x hx)) (fun x hx => ?_) (fun y hy => ?_)
    (fun hid x hx => ?_) ?_
  · -- no text is empty
    rw [htext']
    by_cases hx : x = id
    · exact hx ▸ hfilled
    · exact htext x hx ▸ h.filled x
  · have hlt := hr.anchored.lt hx
    exact (loose_congr ((label?_congr (m.data x)).trans (label?_congr (g.data x hlt)))).1
  · -- what comes after the new node is a table
    have hl := hbefore y hy
    rw [htext', htext y (hold (lt_size_of_label? hl)), text?_of_label hl]
  · rw [htext'] at hid
    obtain ⟨hnone, hopen⟩ := hfront hid x hx
    refine ⟨?_, hopen⟩
    rw [htext', htext x (hold (lt_size_of_parent? (hlinked.parent_of_preceding hx))), hnone]
  · -- the new node is not open
    exact List.pairwise_of_forall_mem_list fun y hy x hx =>
      ⟨fun heq => absurd heq (hold (hr.anchored.lt hx)),
        fun heq => absurd heq (hold (hr.anchored.lt hy))⟩

/-- The place for a new node is behind no open element that may be taken away. -/
theorem preceding?_place_ne (hr : Rooted b) (hh : b.tree.Hollow) (hb : Braced b b.openElements)
    (h : b.tree.Spaced b.openElements) {x : NodeId} (hx : x ∈ b.openElements)
    (hloose : b.tree.Loose x) : b.tree.preceding? b.place.parent b.place.before ≠ some x := by
  rw [place, currentNode?]
  exact preceding?_placeIn_ne hr hh (List.nil_append _).symm (List.forall_mem_nil _) hb
    hr.anchored.forest.linked (fun _ _ => rfl) h.order hx hloose

theorem spaced_insertElement (hr : Rooted b) (hh : b.tree.Hollow) (hb : Braced b b.openElements)
    (h : b.tree.Spaced b.openElements) (name : String) (attributes : List Attribute)
    (ns : Namespace) :
    (b.insertElement name attributes ns).tree.Spaced
      (b.insertElement name attributes ns).openElements := by
  have hlinked := hr.anchored.forest.linked
  have hlt := place_lt hr.anchored
  have g := grown_createElement name attributes ns hr.anchored.forest
  have htext := text?_createElement b.tree name attributes ns
  -- an element is no text, so a text may come before it and after it
  have hid : b.tree.text? (createElement b.tree name attributes ns).1 = none := by
    rw [text?, data?_eq_none g.fresh]
  have m := moved_insertAt g.linked (Nat.lt_of_lt_of_le hlt g.size_le) g.lt b.place.before
  have hspaced := spaced_insertAt hr h g hlt (fun _ => label?_placeIn) (fun x _ => htext x)
    (by rw [htext, hid]; simp) fun hne => absurd ((htext _).trans hid) hne
  rw [insertElement_eq_insertAt hr.anchored]
  refine hspaced.cons (fun _ y hn => ?_) fun x hx hloose hn => ?_
  · obtain ⟨-, hy⟩ | ⟨rfl, -⟩ | hn := g.next?_insertAt_cases hlinked hn
    · rw [text?_congr (m.data y), htext, text?_of_label (label?_placeIn hy)]
    · rw [text?_congr (m.data _), htext, hid]
    · rw [hlinked.next_eq_none (parent?_eq_none _ _ g.fresh)] at hn
      cases hn
  · have hold := hr.anchored.lt hx
    have hloose := (loose_congr ((label?_congr (m.data x)).trans (label?_congr (g.data x hold)))).1
      hloose
    obtain ⟨rfl, -⟩ | ⟨-, hfront⟩ | hn := g.next?_insertAt_cases hlinked hn
    · exact absurd hold (Nat.not_lt.2 g.fresh)
    · exact preceding?_place_ne hr hh hb h hx hloose hfront
    · exact hlinked.next_ne_of_parent (parent?_eq_none _ _ g.fresh) x hn

theorem spaced_leaf {data : NodeData} {place : Place} (hr : Rooted b)
    (h : b.tree.Spaced b.openElements)
    (hd : data.isComment = true ∨ data.isDoctype = true) (hp : PlacesLeaf b place) :
    ((b.tree.alloc data).2.insertAt place.parent place.before b.tree.size).Spaced
      b.openElements := by
  obtain ⟨hfragment, helement, htext⟩ := leaf_ne hd
  have g := Grown.alloc hr.anchored.forest hfragment fun e he => absurd he (helement e)
  have htext := text?_alloc b.tree htext
  have hnone : (b.tree.alloc data).2.text? b.tree.size = none := by
    rw [htext, text?, data?_eq_none (Nat.le_refl _)]
  refine spaced_insertAt hr h g (hp.lt hr) (fun y hy => ?_) (fun x _ => htext x) (by simp [hnone])
    fun hne => absurd hnone hne
  obtain rfl | ⟨hbefore, -⟩ := hp
  · exact label?_placeIn hy
  · rw [hbefore] at hy
    cases hy

theorem spaced_insertChar (hr : Rooted b) (hh : b.tree.Hollow) (hb : Braced b b.openElements)
    (hp : b.place.parent ≠ Tree.root) (h : b.tree.Spaced b.openElements) (c : Char) :
    (b.insertChar c).tree.Spaced (b.insertChar c).openElements := by
  have hf := hr.anchored.forest
  rw [insertChar_eq_insertText hr.anchored, if_neg hp]
  change (b.tree.insertText b.place.parent b.place.before c.toString).2.Spaced b.openElements
  obtain ⟨prev, old, -, hold, heq⟩ | ⟨hfront, heq⟩ :=
    insertText_cases b.tree b.place.parent b.place.before c.toString
  · rw [heq]
    refine h.sameShape hf.linked (sameShape_setText hf.linked hold) fun x => ?_
    rw [text?_setData _ (lt_size_of_data? (text?_eq_some.1 hold))]
    split
    · simp
    · exact h.filled x
  · rw [heq]
    have g : Grown b.tree (b.tree.alloc (.text c.toString)).2 b.tree.size :=
      .alloc hf (by simp) (by simp)
    refine spaced_insertAt hr h g (place_lt hr.anchored) (fun _ => label?_placeIn) (fun x hx => ?_)
      ?_ fun _ x hx =>
      ⟨hfront x hx, fun hopen hloose => preceding?_place_ne hr hh hb h hopen hloose hx⟩
    · exact text?_congr (by rw [data?_alloc, if_neg hx])
    · rw [text?, data?_alloc, if_pos rfl]
      simp

theorem Step.spaced (s : Step token mode b b') (hr : Rooted b) (hh : b.tree.Hollow)
    (h : b.tree.Spaced b.openElements) : b'.tree.Spaced b'.openElements := by
  have hf := hr.anchored.forest
  cases s with
  | aside a => exact a.tree ▸ a.openElements ▸ h
  | close hs => exact h.sublist hs
  | forget _ hs => exact h.sublist (sublist_of_forget hs)
  | @insert name attributes ns formatting framesetOk hl hp hok hb hs =>
    exact spaced_insertElement hr hh hb h name attributes ns
  | leaf hd hp => exact spaced_leaf hr h (Token.isLeaf hd) hp
  | setMode documentMode =>
    refine h.sameShape hf.linked (sameShape_setMode hf.linked documentMode) fun x => ?_
    rw [text?_setMode]
    exact h.filled x
  | @merge id tag =>
    refine h.sameShape hf.linked (sameShape_modifyElement hf.linked id fun _ => rfl) fun x => ?_
    have htext : (b.mergeAttributes id tag.attributes).tree.text? x = b.tree.text? x :=
      text?_modifyElement ..
    rw [htext]
    exact h.filled x
  | pushHead hopen hhtml hhead =>
    -- the head and the document element are parts, and no part is loose
    refine h.cons (fun hloose => ?_) fun x hx hloose => ?_
    · exact absurd (part?_of_label hhead) (hloose.part_ne (by decide))
    · rw [hopen, List.mem_singleton] at hx
      exact absurd (part?_of_label (hx ▸ hhtml)) (hloose.part_ne (by decide))
  | unmark hopen => exact h.sublist (hopen ▸ List.sublist_append_right _ _)
  | stop => exact h.sublist (List.nil_sublist _)
  | adopt _ _ ha hb => exact ha.spaced hr hb hh h
  | unbody _ _ _ hat hbody =>
    exact (h.detach hf.linked (openAt?_mem hat) (Or.inr (part?_of_label hbody))).sublist
      (List.drop_sublist _ _)

/-! ## 5. Reachable builders -/

theorem kept_spaced : Kept (fun _ => True) (fun _ => True) fun b =>
    b.tree.Hollow ∧ b.tree.Spaced b.openElements where
  follows _ _ := trivial
  mode _ _ := trivial
  note ht hs _ _ _ h := ⟨ht ▸ h.1, ht ▸ hs ▸ h.2⟩
  step _ _ s hr _ h := ⟨s.hollow hr h.1, s.spaced hr h.1 h.2⟩
  char c hr _ hp hb h := ⟨hollow_insertChar hr hp h.1 c, spaced_insertChar hr h.1 hb hp h.2 c⟩

/-- No two texts are next to each other among the children of any node, be it in the document, in
the contents of a template or in what hangs nowhere, and no text is empty. -/
theorem texts_apart_of_reachable (h : Reachable b) :
    (∀ p, (b.tree.children p).IsChain fun x y => b.tree.text? x = none ∨ b.tree.text? y = none) ∧
      ∀ x, b.tree.text? x ≠ some "" := by
  obtain ⟨-, hspaced⟩ := kept_spaced.reachable (fun _ _ => ⟨.empty, .empty⟩) h
  have hlinked := h.valid.planted.forest.linked
  refine ⟨fun p => List.isChain_iff_getElem.2 fun i hi => hspaced.apart _ _ ?_, hspaced.filled⟩
  rw [(hlinked.neighbours (List.getElem?_eq_getElem (Nat.lt_of_succ_lt hi))).1,
    List.getElem?_eq_getElem hi]

/-- A paragraph that is taken out of a formatting element, and text in a table. -/
def displaced : List Token :=
  [.startTag { name := "b" }, .character 'a', .startTag { name := "p" }, .character 'c',
    .endTag { name := "b" }, .character 'd', .startTag { name := "table" }, .character 'e',
    .endTag { name := "table" }, .character 'f']

theorem texts_apart_displaced : ∃ b, feed {} displaced = .ok b ∧ b.tree.text? 5 = some "a" ∧
    b.tree.children 6 = [8, 9, 10, 11] ∧ b.tree.text? 9 = some "de" ∧ b.tree.text? 11 = some "f" ∧
    (∀ p, (b.tree.children p).IsChain fun x y => b.tree.text? x = none ∨ b.tree.text? y = none) ∧
    ∀ x, b.tree.text? x ≠ some "" := by
  obtain ⟨b, hb, ha, hchildren, hde, hf⟩ := exists_ok (feed {} displaced)
    (fun b => b.tree.text? 5 = some "a" ∧ b.tree.children 6 = [8, 9, 10, 11] ∧
      b.tree.text? 9 = some "de" ∧ b.tree.text? 11 = some "f") (by with_unfolding_all decide)
  exact ⟨b, hb, ha, hchildren, hde, hf, texts_apart_of_reachable (.feed (.start false false) hb)⟩

end TreeBuilder

end Hypertext
