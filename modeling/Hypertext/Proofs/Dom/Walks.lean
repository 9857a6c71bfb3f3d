import Hypertext.Dom.Traversal
import Hypertext.Proofs.Dom.Grove

/-!
# Walks agree

The nodes below a node are found with a list of nodes that are still to be visited, those above it
along the links to parents, and its siblings along the links between neighbours. In a tree that was
built with care each of these walks comes to an end without meeting a node twice, and what they find
fits together.
-/

namespace Hypertext.Tree

open Relation

/-! ## 1. Walks as iterators -/

/-- Visits what comes next, until there is nothing. The list has all that was visited. -/
inductive Yields {σ : Type} (next : σ → Option (NodeId × σ)) : σ → List NodeId → Prop
  | stop {s : σ} (h : next s = none) : Yields next s []
  | visit {s s' : σ} {x : NodeId} {xs : List NodeId} (h : next s = some (x, s'))
      (hrest : Yields next s' xs) : Yields next s (x :: xs)

/-- Along links: a node, and the place where its link leads. -/
def nextAlong (step : NodeId → Option NodeId) (place : Option NodeId) :
    Option (NodeId × Option NodeId) :=
  place.map fun x => (x, step x)

/-- Downward: the first pending node, whose children are pending before the others. -/
def nextBelow (t : Tree) : List NodeId → Option (NodeId × List NodeId)
  | [] => none
  | x :: pending => some (x, t.children x ++ pending)

variable {t t' : Tree} {p c d a x y : NodeId} {xs ys l l' : List NodeId}

/-- Once a walk has come to an end, more time makes no difference. -/
theorem chain_eq {step : NodeId → Option NodeId} {place : Option NodeId}
    (h : Yields (nextAlong step) place l)
    {fuel : Nat} (hfuel : l.length ≤ fuel) : chain step fuel place = l := by
  induction h generalizing fuel with
  | @stop place hstop =>
    cases place with
    | none => cases fuel <;> rfl
    | some x => cases hstop
  | @visit place place' x xs hvisit _ ih =>
    cases place with
    | none => cases hvisit
    | some y =>
      cases hvisit
      cases fuel with
      | zero => cases hfuel
      | succ fuel => rw [chain, ih (Nat.le_of_succ_le_succ hfuel)]

theorem preorder_eq (h : Yields t.nextBelow xs l) {fuel : Nat} (hfuel : l.length ≤ fuel) :
    t.preorder fuel xs = l := by
  induction h generalizing fuel with
  | @stop xs hstop =>
    cases xs with
    | nil => cases fuel <;> rfl
    | cons x xs => cases hstop
  | @visit xs xs' x l hvisit _ ih =>
    cases xs with
    | nil => cases hvisit
    | cons y ys =>
      cases hvisit
      cases fuel with
      | zero => cases hfuel
      | succ fuel => rw [preorder, ih (Nat.le_of_succ_le_succ hfuel)]

/-! ## 2. Document order -/

/-- The trees at these nodes, one after the other, each in document order: a node comes before the
trees at its children. -/
inductive Preorder (t : Tree) : List NodeId → List NodeId → Prop
  | nil : Preorder t [] []
  | cons {x : NodeId} {xs below rest : List NodeId} (hbelow : Preorder t (t.children x) below)
      (hrest : Preorder t xs rest) : Preorder t (x :: xs) (x :: below ++ rest)

namespace Preorder

theorem append (h : t.Preorder xs l) (h' : t.Preorder ys l') : t.Preorder (xs ++ ys) (l ++ l') := by
  induction h with
  | nil => exact h'
  | cons hbelow _ _ ih =>
    rw [List.cons_append, List.append_assoc]
    exact .cons hbelow ih

theorem singleton (h : t.Preorder (t.children x) l) : t.Preorder [x] (x :: l) := by
  simpa using Preorder.cons h .nil

/-- There is one document order. -/
theorem unique (h : t.Preorder xs l) (h' : t.Preorder xs l') : l = l' := by
  induction h generalizing l' with
  | nil =>
    cases h'
    rfl
  | cons _ _ ihbelow ihrest =>
    cases h' with
    | cons hbelow hrest => rw [ihbelow hbelow, ihrest hrest]

/-- The walk goes through the trees at the first pending nodes, and then on with the other ones. -/
theorem yields (h : t.Preorder xs l) (h' : Yields t.nextBelow ys l') :
    Yields t.nextBelow (xs ++ ys) (l ++ l') := by
  induction h generalizing ys l' with
  | nil => exact h'
  | cons _ _ ihbelow ihrest =>
    rw [List.cons_append, List.cons_append, List.cons_append, List.append_assoc]
    exact .visit rfl (ihbelow (ihrest h'))

/-- Below these nodes there is what is in their trees. -/
theorem mem_iff (h : t.Preorder xs l) (hl : Linked t) : y ∈ l ↔ ∃ x ∈ xs, t.Under x y := by
  induction h with
  | nil => simp
  | @cons x xs below rest _ _ ihbelow ihrest =>
    -- a node below `x` is `x`, or it is below a child of `x`
    have hx : y = x ∨ y ∈ below ↔ t.Under x y := by
      rw [ihbelow]
      constructor
      · rintro (rfl | ⟨c, hc, hcy⟩)
        · exact .refl
        · exact .head ((hl.mem_children x c).1 hc) hcy
      · intro hxy
        rcases ReflTransGen.cases_head hxy with rfl | ⟨c, hc, hcy⟩
        · exact Or.inl rfl
        · exact Or.inr ⟨c, (hl.mem_children x c).2 hc, hcy⟩
    rw [List.cons_append, List.mem_cons, List.mem_append, ← or_assoc, hx, ihrest,
      List.exists_mem_cons_iff]

/-- Different trees have nothing in common, so nothing occurs twice. -/
theorem nodup (h : t.Preorder xs l) (hg : Grove t)
    (hxs : xs.Pairwise fun x y => ∀ z, t.Under x z → ¬ t.Under y z) : l.Nodup := by
  induction h with
  | nil => exact List.nodup_nil
  | @cons x xs below rest hbelow hrest ihbelow ihrest =>
    obtain ⟨hx, hxs⟩ := List.pairwise_cons.1 hxs
    -- trees below different children of a node are disjoint
    have hchildren : (t.children x).Pairwise fun c d => ∀ z, t.Under c z → ¬ t.Under d z := by
      refine (hg.linked.nodup x).imp_of_mem fun {c d} hc hd hne z => ?_
      have hc := (hg.linked.mem_children x c).1 hc
      have hd := (hg.linked.mem_children x d).1 hd
      exact hg.hierarchy.siblings_disjoint hc hd hne
    have htree : t.Preorder [x] (x :: below) := hbelow.singleton
    refine List.nodup_append'.2 ⟨List.nodup_cons.2 ⟨fun hmem => ?_, ihbelow hchildren⟩,
      ihrest hxs, ?_⟩
    · obtain ⟨c, hc, hcx⟩ := (hbelow.mem_iff hg.linked).1 hmem
      exact hg.hierarchy.not_reach ((hg.linked.mem_children x c).1 hc) hcx
    · intro z hz hz'
      obtain ⟨y, hy, hyz⟩ := (hrest.mem_iff hg.linked).1 hz'
      obtain ⟨x', hx', hxz⟩ := (htree.mem_iff hg.linked).1 hz
      cases List.mem_singleton.1 hx'
      exact hx y hy z hxz hyz

end Preorder

/-! ## 3. Every walk comes to an end -/

theorem Yields.isChain {step : NodeId → Option NodeId} (h : Yields (nextAlong step) (step x) l) :
    (x :: l).IsChain fun c p => step c = some p := by
  generalize hplace : step x = place at h
  induction h generalizing x with
  | stop _ => exact .singleton x
  | @visit place place' y l hvisit _ ih =>
    cases place with
    | none => cases hvisit
    | some z =>
      cases hvisit
      exact .cons_cons hplace (ih rfl)

/-- A list of nodes that has nothing twice is no longer than the tree has nodes. -/
theorem length_le_size (hl : l.Nodup) (hlt : ∀ y ∈ l, y < t.size) : l.length ≤ t.size := by
  have hsub : l ⊆ List.range t.size := fun y hy => List.mem_range.2 (hlt y hy)
  simpa using (hl.subperm hsub).length_le

namespace Grove

variable (h : Grove t)
include h

theorem lt_size_of_under (hne : x ≠ y) (hxy : t.Under x y) : x < t.size ∧ y < t.size := by
  constructor
  · rcases ReflTransGen.cases_head hxy with heq | ⟨c, hc, -⟩
    · exact absurd heq hne
    · exact h.linked.parent_lt hc
  · rcases ReflTransGen.cases_tail hxy with heq | ⟨p, -, hp⟩
    · exact absurd heq.symm hne
    · exact lt_size_of_parent? hp

theorem exists_preorder (x : NodeId) : ∃ l, t.Preorder [x] l := by
  have hall : ∀ xs : List NodeId, (∀ c ∈ xs, ∃ l, t.Preorder [c] l) → ∃ l, t.Preorder xs l := by
    intro xs hxs
    induction xs with
    | nil => exact ⟨[], .nil⟩
    | cons c xs ih =>
      obtain ⟨l, hl⟩ := hxs c (by simp)
      obtain ⟨rest, hrest⟩ := ih fun d hd => hxs d (by simp [hd])
      exact ⟨l ++ rest, hl.append hrest⟩
  have hwf := h.hierarchy.wellFounded_down fun _ _ hc => lt_size_of_parent? hc
  induction x using hwf.induction with
  | _ x ih =>
    obtain ⟨l, hl⟩ := hall (t.children x) fun c hc => ih c ((h.linked.mem_children x c).1 hc)
    exact ⟨x :: l, hl.singleton⟩

theorem nodup_of_preorder (hl : t.Preorder [x] l) : l.Nodup :=
  hl.nodup h (List.pairwise_singleton ..)

theorem mem_of_preorder (hl : t.Preorder [x] l) : y ∈ l ↔ t.Under x y := by
  rw [hl.mem_iff h.linked]
  simp

theorem preorder_descendants (x : NodeId) : t.Preorder [x] (t.descendants x) := by
  obtain ⟨l, hl⟩ := h.exists_preorder x
  have hyields : Yields t.nextBelow [x] l := by
    simpa using hl.yields (Yields.stop rfl : Yields t.nextBelow [] [])
  -- all but the first of these nodes are nodes of the tree
  have hlength : l.length ≤ t.size + 1 := by
    cases hl with
    | @cons _ _ below rest hbelow hrest =>
      cases hrest
      have hnodup := h.nodup_of_preorder hbelow.singleton
      obtain ⟨hx, hnodup⟩ := List.nodup_cons.1 hnodup
      rw [List.append_nil, List.length_cons]
      apply Nat.succ_le_succ
      refine length_le_size hnodup fun y hy => ?_
      have hne : x ≠ y := fun heq => hx (heq ▸ hy)
      exact (h.lt_size_of_under hne ((h.mem_of_preorder hbelow.singleton).1 (by simp [hy]))).2
  rwa [descendants, preorder_eq hyields hlength]

theorem yields_descendants (x : NodeId) : Yields t.nextBelow [x] (t.descendants x) := by
  simpa using (h.preorder_descendants x).yields (Yields.stop rfl : Yields t.nextBelow [] [])

theorem mem_descendants : y ∈ t.descendants x ↔ t.Under x y :=
  h.mem_of_preorder (h.preorder_descendants x)

/-- A node, followed by its children and what is below them. -/
theorem descendants_eq (x : NodeId) :
    t.descendants x = x :: (t.children x).flatMap t.descendants := by
  have hall : ∀ xs : List NodeId, t.Preorder xs (xs.flatMap t.descendants) := by
    intro xs
    induction xs with
    | nil => exact .nil
    | cons c xs ih => exact (h.preorder_descendants c).append ih
  exact (h.preorder_descendants x).unique (hall (t.children x)).singleton

theorem transGen_iff : TransGen t.ParentOf a x ↔ a ≠ x ∧ t.Under a x := by
  constructor
  · rintro hax
    refine ⟨?_, hax.to_reflTransGen⟩
    rintro rfl
    exact h.acyclic a hax
  · rintro ⟨hne, hax⟩
    exact (reflTransGen_iff_eq_or_transGen.1 hax).resolve_left (Ne.symm hne)

/-- Going up, all proper ancestors are met, each once. -/
theorem exists_ancestors (x : NodeId) :
    ∃ l, Yields (nextAlong t.parent?) (t.parent? x) l ∧ l.Nodup ∧
    ∀ a, a ∈ l ↔ TransGen t.ParentOf a x := by
  -- the induction goes up the tree
  have hwf := h.hierarchy.wellFounded_up fun _ _ hp => h.linked.parent_lt hp
  induction x using hwf.induction with
  | _ x ih =>
    cases hp : t.parent? x with
    | none =>
      refine ⟨[], .stop rfl, List.nodup_nil, fun a => ?_⟩
      simp only [List.not_mem_nil, false_iff]
      intro hax
      obtain ⟨p, -, hpx⟩ := TransGen.tail'_iff.1 hax
      rw [ParentOf, hp] at hpx
      cases hpx
    | some p =>
      obtain ⟨l, hl, hnodup, hmem⟩ := ih p hp
      refine ⟨p :: l, .visit rfl hl, List.nodup_cons.2 ⟨fun hpl => ?_, hnodup⟩, fun a => ?_⟩
      · exact h.acyclic p ((hmem p).1 hpl)
      · rw [List.mem_cons, hmem]
        constructor
        · rintro (rfl | hap)
          · exact .single hp
          · exact hap.tail hp
        · intro hax
          obtain ⟨q, haq, hq⟩ := TransGen.tail'_iff.1 hax
          cases h.hierarchy.unique p q x hp hq
          exact (reflTransGen_iff_eq_or_transGen.1 haq).imp_left Eq.symm

theorem yields_ancestors (x : NodeId) : Yields (nextAlong t.parent?) (t.parent? x) (t.ancestors x) ∧
    (t.ancestors x).Nodup ∧ ∀ a, a ∈ t.ancestors x ↔ a ≠ x ∧ t.Under a x := by
  obtain ⟨l, hl, hnodup, hmem⟩ := h.exists_ancestors x
  have hmem : ∀ a, a ∈ l ↔ a ≠ x ∧ t.Under a x := fun a => (hmem a).trans h.transGen_iff
  have hlength : l.length ≤ t.size := length_le_size hnodup fun a ha =>
    (h.lt_size_of_under ((hmem a).1 ha).1 ((hmem a).1 ha).2).1
  rw [ancestors, chain_eq hl hlength]
  exact ⟨hl, hnodup, hmem⟩

theorem isDescendantOf_iff : t.isDescendantOf d a = true ↔ d ≠ a ∧ d ∈ t.descendants a := by
  rw [isDescendantOf, List.contains_iff_mem, (h.yields_ancestors d).2.2, h.mem_descendants, ne_comm]

end Grove

/-- The walk to the front passes the children in front of a node, the nearest first. -/
theorem Linked.yields_front (h : Linked t) {front back : List NodeId}
    (hl : t.children p = front ++ x :: back) :
    Yields (nextAlong t.prev?) (t.prev? x) front.reverse := by
  rw [h.prev_of_children hl]
  induction front using List.reverseRecOn generalizing x back with
  | nil => exact .stop rfl
  | append_singleton front y ih =>
    rw [List.getLast?_concat, List.reverse_concat]
    rw [List.append_assoc, List.singleton_append] at hl
    apply Yields.visit rfl
    rw [h.prev_of_children hl]
    exact ih hl

theorem Linked.yields_precedingSiblings (h : Linked t) (x : NodeId) :
    Yields (nextAlong t.prev?) (t.prev? x) (t.precedingSiblings x) ∧
    (t.parent? x = none → t.precedingSiblings x = []) ∧
    ∀ p front back, t.children p = front ++ x :: back → t.precedingSiblings x = front.reverse := by
  have hfront : ∀ p front back, t.children p = front ++ x :: back →
      t.precedingSiblings x = front.reverse := by
    intro p front back hl
    -- the siblings before `x` are different nodes of the tree, so there are fewer than nodes
    apply chain_eq (h.yields_front hl)
    rw [List.length_reverse]
    have hnodup := h.nodup p
    rw [hl] at hnodup
    refine length_le_size hnodup.of_append_left fun y hy => h.child_lt (p := p) ?_
    rw [hl]
    exact List.mem_append_left _ hy
  have hnone : t.parent? x = none → t.precedingSiblings x = [] := by
    intro hp
    rw [precedingSiblings, h.prev_eq_none hp]
    exact chain_eq (.stop rfl) (Nat.zero_le _)
  refine ⟨?_, hnone, hfront⟩
  cases hp : t.parent? x with
  | none =>
    rw [hnone hp, h.prev_eq_none hp]
    exact .stop rfl
  | some p =>
    obtain ⟨front, back, hl⟩ := List.append_of_mem ((h.mem_children p x).2 hp)
    rw [hfront p front back hl]
    exact h.yields_front hl

/-! ## 4. Care can be checked -/

/-- Makes changes one after the other, and looks before each of them whether going down from a node
that is put somewhere leads to its new parent. -/
def allCareful (t : Tree) : List Change → Bool
  | [] => true
  | change :: rest =>
    ((change.puts t).all fun place => !(t.descendants place.2).contains place.1) &&
    match change.make? t with
    | some t' => t'.allCareful rest
    | none => false

/-- Going down finds all that a caller has to avoid. -/
theorem Built.makeAll? (h : Built t) {changes : List Change}
    (hcareful : t.allCareful changes = true) : ∃ t', t.makeAll? changes = some t' ∧ Built t' := by
  induction changes generalizing t with
  | nil => exact ⟨t, rfl, h⟩
  | cons change rest ih =>
    obtain ⟨hputs, hrest⟩ := Bool.and_eq_true_iff.1 hcareful
    have hchange : change.Careful t := by
      intro parent child hput hunder
      have hnot := List.all_eq_true.1 hputs (parent, child) hput
      rw [Bool.not_eq_true', ← Bool.not_eq_true, List.contains_iff_mem,
        h.grove.mem_descendants] at hnot
      exact hnot hunder
    cases hmake : change.make? t with
    | none => simp [hmake] at hrest
    | some t₁ =>
      simp only [hmake] at hrest
      obtain ⟨t', hall, h'⟩ := ih (h.change hchange hmake) hrest
      refine ⟨t', ?_, h'⟩
      rw [Tree.makeAll?, List.foldlM_cons, hmake]
      exact hall

/-! ## 5. All walks together -/

/-- Whatever node of a tree that was built with care one starts from: going down visits the trees at
the node in document order, each node once; going up lists every proper ancestor once, from the
parent on; a node is a descendant of another one if and only if it is a different node that going
down from there visits; going to the front passes the siblings before the node backwards; and the
text of a node is that of all its text nodes in document order. -/
theorem walks_of_built (h : Built t) (x : NodeId) :
    (∃ order, t.Preorder [x] order ∧ order.Nodup ∧ Yields t.nextBelow [x] order ∧
      t.descendants x = order ∧ t.textContent x = String.join (order.filterMap t.text?)) ∧
    (Yields (nextAlong t.parent?) (t.parent? x) (t.ancestors x) ∧ (t.ancestors x).Nodup ∧
      (x :: t.ancestors x).IsChain (fun c p => t.parent? c = some p) ∧
      ∀ a, a ∈ t.ancestors x ↔ a ≠ x ∧ t.Under a x) ∧
    (∀ a, t.isDescendantOf x a = true ↔ x ≠ a ∧ x ∈ t.descendants a) ∧
    (Yields (nextAlong t.prev?) (t.prev? x) (t.precedingSiblings x) ∧
      (t.parent? x = none → t.precedingSiblings x = []) ∧
      ∀ p front back, t.children p = front ++ x :: back →
      t.precedingSiblings x = front.reverse) := by
  have hg := h.grove
  have hdown := hg.preorder_descendants x
  obtain ⟨hup, hnodup, hmem⟩ := hg.yields_ancestors x
  refine ⟨⟨t.descendants x, hdown, hg.nodup_of_preorder hdown, hg.yields_descendants x, rfl, rfl⟩,
    ⟨hup, hnodup, hup.isChain, hmem⟩, fun a => hg.isDescendantOf_iff,
    hg.linked.yields_precedingSiblings x⟩

/-- Two nodes with a text each, and a text between them. On the way there a text is put into the
wrong node, and comes to the other one with all its siblings. -/
def bracketed : List Change :=
  [.alloc .fragment, .alloc .fragment, .alloc (.text "a"), .append 0 2, .insertBefore 0 1 2,
    .append 2 3, .moveChildren 2 1, .insertText 2 none "b", .insertText 0 (some 2) "c"]

theorem walks_bracketed : ∃ t, Tree.empty.makeAll? bracketed = some t ∧ Built t ∧
    t.descendants 0 = [0, 1, 3, 5, 2, 4] ∧ t.textContent 0 = "acb" ∧ t.isDescendantOf 4 0 = true ∧
    t.precedingSiblings 2 = [5, 1] := by
  have hcareful : Tree.empty.allCareful bracketed = true := by decide
  obtain ⟨t, ht, hbuilt⟩ := Built.empty.makeAll? hcareful
  have hread : (Tree.empty.makeAll? bracketed).map (fun t => (t.descendants 0, t.children 0,
      String.join ((t.descendants 0).filterMap t.text?))) =
        some ([0, 1, 3, 5, 2, 4], [1, 5, 2], "acb") := by decide
  rw [ht] at hread
  simp only [Option.map_some, Option.some.injEq, Prod.mk.injEq] at hread
  obtain ⟨hdown, hchildren, htext⟩ := hread
  obtain ⟨⟨order, -, -, -, rfl, htextContent⟩, -⟩ := walks_of_built hbuilt 0
  obtain ⟨-, -, hdescendant, -⟩ := walks_of_built hbuilt 4
  obtain ⟨-, -, -, -, -, hsiblings⟩ := walks_of_built hbuilt 2
  refine ⟨t, ht, hbuilt, hdown, htextContent.trans htext, ?_, ?_⟩
  · apply (hdescendant 0).2
    rw [hdown]
    decide
  · exact hsiblings 0 [1, 5] [] hchildren

end Hypertext.Tree
