import Hypertext.Proofs.Dom.Forest

/-!
# What follows what

The node after another one among its siblings, before and after a change. A change that puts a node
somewhere makes two new pairs of neighbours at most, one with the node in front of the place and one
with the node behind it; a change that takes a node away makes one.
-/

namespace Hypertext.Tree

variable {t t' grown : Tree} {p c id x y : NodeId} {before : Option NodeId}

/-! ## 1. The node in front of a place -/

theorem Linked.parent_of_preceding (h : Linked t) (hx : t.preceding? p before = some x) :
    t.parent? x = some p := by
  have hlast : t.lastChild? p = some x → t.parent? x = some p := fun hl =>
    (h.mem_children p x).1 (List.mem_of_getLast? hl)
  unfold preceding? at hx
  split at hx
  · split at hx
    · next hr => rw [← h.parent_of_next ((h.prev_iff _ _).1 hx), hr]
    · exact hlast hx
  · exact hlast hx

theorem Linked.next_of_preceding (h : Linked t) {r : NodeId} (hr : t.parent? r = some p)
    (hx : t.preceding? p (some r) = some x) : t.next? x = some r := by
  simp only [preceding?, hr, if_true] at hx
  exact (h.prev_iff _ _).1 hx

/-! ## 2. A node without neighbours -/

section Detached

variable (h : Linked t) (hc : t.parent? c = none)
include h hc

theorem Linked.next?_detach_of_parent (x : NodeId) : (t.detach c).next? x = t.next? x := by
  rw [next?_detach c x h, if_neg (h.next_ne_of_parent hc x)]
  split
  · next hx => rw [hx, h.next_eq_none hc]
  · rfl

theorem Linked.children_detach_of_parent (x : NodeId) : (t.detach c).children x = t.children x := by
  rw [children_detach c x h, List.erase_of_not_mem]
  rw [h.mem_children, hc]
  simp

theorem Linked.preceding?_detach_of_parent (p : NodeId) (before : Option NodeId) :
    (t.detach c).preceding? p before = t.preceding? p before := by
  have hparent : ∀ x, (t.detach c).parent? x = t.parent? x := fun x => by
    rw [parent?_detach c x h]
    split
    · next hx => rw [hx, hc]
    · rfl
  have hprev : ∀ x, (t.detach c).prev? x = t.prev? x := fun x => Option.ext fun y => by
    rw [h.detach c |>.prev_iff, h.prev_iff, h.next?_detach_of_parent hc]
  simp only [preceding?, lastChild?, hparent, hprev, h.children_detach_of_parent hc]

end Detached

/-! ## 3. Taking a node away, and putting one somewhere -/

/-- The neighbours of a node that is taken away come next to each other. -/
theorem Linked.next?_detach_cases (h : Linked t) (hn : (t.detach c).next? x = some y) :
    t.next? x = some c ∧ t.next? c = some y ∨ t.next? x = some y := by
  rw [next?_detach c x h] at hn
  split at hn
  · cases hn
  · split at hn
    · next hx => exact Or.inl ⟨hx, hn⟩
    · exact Or.inr hn

theorem Linked.next?_appendChild_cases (h : Linked t) (hn : (t.appendChild p c).next? x = some y) :
    y = c ∧ (t.detach c).lastChild? p = some x ∨ (t.detach c).next? x = some y := by
  rw [next?_appendChild h] at hn
  split at hn
  · next hlast => exact Or.inl ⟨(Option.some.inj hn).symm, hlast⟩
  · exact Or.inr hn

/-- A node that is put somewhere comes between the nodes in front of the place and behind it. -/
theorem Linked.next?_insertAt_cases (h : Linked t) (hc : c < t.size)
    (hn : (t.insertAt p before c).next? x = some y) :
    x = c ∧ before = some y ∨ y = c ∧ (t.detach c).preceding? p before = some x ∨
      (t.detach c).next? x = some y := by
  cases before with
  | none => exact Or.inr (h.next?_appendChild_cases hn)
  | some r =>
    have hd := h.detach c
    by_cases hr : r ∈ (t.detach c).children p
    · rw [insertAt, next?_insertBefore h hc hr] at hn
      split at hn
      · next hx => exact Or.inl ⟨hx, hn⟩
      · split at hn
        · next hnext =>
          refine Or.inr (Or.inl ⟨(Option.some.inj hn).symm, ?_⟩)
          rw [preceding?, if_pos ((hd.mem_children p r).1 hr)]
          exact (hd.prev_iff _ _).2 hnext
        · exact Or.inr (Or.inr hn)
    · -- the reference is no child, and the node comes last
      have happ : t.insertAt p (some r) c = (t.detach c).appendChild p c := by
        simp [insertAt, insertBefore, hr]
      have hnone : (t.detach c).parent? c = none := by rw [parent?_detach c c h, if_pos rfl]
      rw [happ] at hn
      obtain ⟨hy, hlast⟩ | hn := hd.next?_appendChild_cases hn
      · refine Or.inr (Or.inl ⟨hy, ?_⟩)
        rw [preceding?, if_neg (mt (hd.mem_children p r).2 hr)]
        rw [lastChild?, hd.children_detach_of_parent hnone] at hlast
        exact hlast
      · rw [hd.next?_detach_of_parent hnone] at hn
        exact Or.inr (Or.inr hn)

/-! ## 4. New nodes and changed data -/

theorem next?_congr (h : Linked t) (h' : Linked t') (hparent : ∀ x, t'.parent? x = t.parent? x)
    (hchildren : ∀ x, t'.children x = t.children x) (x : NodeId) : t'.next? x = t.next? x := by
  rw [h'.next_eq, h.next_eq, hparent]
  simp only [hchildren]

theorem preceding?_congr (h : Linked t) (h' : Linked t') (hparent : ∀ x, t'.parent? x = t.parent? x)
    (hchildren : ∀ x, t'.children x = t.children x) (p : NodeId) (before : Option NodeId) :
    t'.preceding? p before = t.preceding? p before := by
  have hprev : ∀ x, t'.prev? x = t.prev? x := fun x => by
    rw [h'.prev_eq, h.prev_eq, hparent]
    simp only [hchildren]
  simp only [preceding?, lastChild?, hparent, hprev, hchildren]

theorem SameShape.next? (s : SameShape t t') (h : Linked t) (x : NodeId) : t'.next? x = t.next? x :=
  next?_congr h s.linked s.parent s.children x

/-- A new node comes between the nodes in front of the place and behind it. -/
theorem Grown.next?_insertAt_cases (g : Grown t grown id) (h : Linked t)
    (hn : (grown.insertAt p before id).next? x = some y) :
    x = id ∧ before = some y ∨ y = id ∧ t.preceding? p before = some x ∨ t.next? x = some y := by
  have hnone : grown.parent? id = none := by rw [g.parent, parent?_eq_none t id g.fresh]
  obtain hx | ⟨hy, hx⟩ | hn := g.linked.next?_insertAt_cases g.lt hn
  · exact Or.inl hx
  · rw [g.linked.preceding?_detach_of_parent hnone,
      preceding?_congr h g.linked g.parent g.children] at hx
    exact Or.inr (Or.inl ⟨hy, hx⟩)
  · rw [g.linked.next?_detach_of_parent hnone, next?_congr h g.linked g.parent g.children] at hn
    exact Or.inr (Or.inr hn)

/-- A node that is put into another one without children has no neighbours, whatever it was
taken from. -/
theorem Linked.next?_appendChild_of_empty (h : Linked t) (hp : t.children p = []) (x : NodeId) :
    (t.appendChild p c).next? x = (t.detach c).next? x := by
  rw [next?_appendChild h, lastChild?, children_detach c p h, hp]
  rfl

/-- The children of a node keep their order when they are moved into a new node that takes
their place. -/
theorem next?_wrapped {block copy : NodeId} (h : Linked t) (g : Grown t grown copy)
    (hblock : block < t.size) (x : NodeId) :
    ((grown.moveChildren block copy).appendChild block copy).next? x = t.next? x := by
  have m := movedAll_moveChildren g.linked block g.lt
  have hne : block ≠ copy := Nat.ne_of_lt (Nat.lt_of_lt_of_le hblock g.fresh)
  have hempty : t.children copy = [] := by
    rw [children_eq, get?_eq_none t copy g.fresh]
    rfl
  have hnot : ∀ c ∈ grown.children block, c ∉ grown.children copy := fun c _ => by
    rw [g.children, hempty]
    exact List.not_mem_nil
  have hcopy : (grown.moveChildren block copy).children copy = t.children block := by
    rw [m.target (g.linked.nodup block) hnot, g.children, g.children, hempty, List.nil_append]
  have hparent : ∀ y, (grown.moveChildren block copy).parent? y =
      if t.parent? y = some block then some copy else t.parent? y := fun y => by
    simp only [m.parent, g.linked.mem_children, g.parent]
  have hchildren : (grown.moveChildren block copy).children block = [] := by
    refine List.eq_nil_iff_forall_not_mem.2 fun y hy => ?_
    rw [m.linked.mem_children, hparent] at hy
    split at hy
    · exact hne (Option.some.inj hy).symm
    · next hnot => exact hnot hy
  have hnone : (grown.moveChildren block copy).parent? copy = none := by
    rw [hparent, parent?_eq_none t copy g.fresh]
    rfl
  rw [m.linked.next?_appendChild_of_empty hchildren, m.linked.next?_detach_of_parent hnone,
    m.linked.next_eq, h.next_eq, hparent]
  split
  · next hx => rw [hx, Option.bind_some, Option.bind_some, hcopy]
  · next hx =>
    cases hq : t.parent? x with
    | none => rfl
    | some q =>
      -- nothing is moved out of another node, or into it
      have hqb : q ≠ block := fun heq => hx (by rw [hq, heq])
      have hqc : q ≠ copy := fun heq => by
        have hmem := (h.mem_children q x).2 hq
        rw [heq, hempty] at hmem
        cases hmem
      have hothers := m.others q hqc fun c hc hcq => by
        rw [g.children, h.mem_children] at hc hcq
        exact hqb (Option.some.inj (hcq.symm.trans hc))
      rw [Option.bind_some, Option.bind_some, hothers, g.children]

end Hypertext.Tree
