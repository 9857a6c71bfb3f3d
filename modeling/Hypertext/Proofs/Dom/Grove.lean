import Hypertext.Proofs.Dom.Changes
import Hypertext.Proofs.Dom.Hierarchy

/-!
# Trees that are built with care

The links of a tree agree whatever is done to it, but only the caller sees to it that no node is
below itself. A caller does if no node is ever put under itself or under a node that is below it at
that moment. The contents of a template play no part here: a template is not their parent.
-/

namespace Hypertext.Tree

open Relation

/-! ## 1. Trees without cycles -/

/-- `p` is the parent of `c`. -/
def ParentOf (t : Tree) (p c : NodeId) : Prop := t.parent? c = some p

/-- `d` is `a` itself, or a descendant of it. -/
def Under (t : Tree) (a d : NodeId) : Prop := ReflTransGen t.ParentOf a d

/-- The links of the tree agree, and no node is its own descendant. -/
structure Grove (t : Tree) : Prop where
  linked : Linked t
  acyclic : ∀ x, ¬ TransGen t.ParentOf x x

variable {t t' : Tree} {p c d r x y : NodeId} {q : Option NodeId}

theorem Moved.parents_rehung (m : Moved t t' c q) : Hierarchy.Rehung t.ParentOf t'.ParentOf c q :=
  fun a b => by
  rw [ParentOf, ParentOf, m.parent]
  by_cases hb : b = c
  · rw [if_pos hb]
    simp [hb]
  · rw [if_neg hb]
    simp [hb]

/-- What is put below a node does not lead to it: what was not above the node is not
above it then. -/
theorem Moved.not_under (m : Moved t t' c (some p)) (hdp : ¬ t.Under d p) : ¬ t'.Under d p := by
  intro hunder
  obtain hunder | ⟨p', hp', hunder, -⟩ := m.parents_rehung.reach_of hunder
  · exact hdp hunder
  · cases hp'
    exact hdp hunder

namespace Grove

variable (h : Grove t)
include h

theorem hierarchy : Hierarchy t.ParentOf :=
  ⟨h.acyclic, fun _ _ _ ha hb => Option.some.inj (ha.symm.trans hb)⟩

/-- Trees with the same parents have the same descendants. -/
theorem of_parents (hl : Linked t') (hp : ∀ x, t'.parent? x = t.parent? x) : Grove t' := by
  have hsame : t'.ParentOf = t.ParentOf := by
    funext a b
    rw [ParentOf, ParentOf, hp]
  exact ⟨hl, hsame ▸ h.acyclic⟩

theorem moved (m : Moved t t' c q) (hq : ∀ p, q = some p → ¬ t.Under c p) : Grove t' :=
  ⟨m.linked, (h.hierarchy.rehung m.parents_rehung hq).acyclic⟩

theorem alloc (data : NodeData) : Grove (t.alloc data).2 :=
  h.of_parents (h.linked.alloc data) fun x => parent?_alloc t x data

theorem setMode (mode : DocumentMode) : Grove (t.setMode mode) := by
  refine h.of_parents (h.linked.modify _ (keepsLinks_setMode mode)) fun x => ?_
  exact bind_get?_modify t root x _ _ (keepsLinks_setMode mode).parent

theorem detach (c : NodeId) : Grove (t.detach c) := by
  apply h.moved (moved_detach h.linked c)
  rintro p ⟨⟩

theorem removeChild (p c : NodeId) : Grove (t.removeChild p c) := by
  by_cases hc : c ∈ t.children p
  · have hdetach : t.detach c = t.removeChild p c := by
      rw [Tree.detach, (h.linked.mem_children p c).1 hc]
    exact hdetach ▸ h.detach c
  · rwa [Tree.removeChild, if_neg hc]

/-- A node is put below a node that is not below it. -/
theorem put (m : Moved t t' c (some p)) (hcp : ¬ t.Under c p) : Grove t' := by
  apply h.moved m
  rintro p ⟨⟩
  exact hcp

/-- Nothing is below a node that is not there yet. -/
theorem not_under_size (hx : x < t.size) : ¬ t.Under t.size x := by
  intro hunder
  rcases ReflTransGen.cases_head hunder with heq | ⟨y, hy, -⟩
  · exact absurd hx (heq ▸ Nat.lt_irrefl _)
  · exact absurd (h.linked.parent_lt hy) (Nat.lt_irrefl _)

theorem insertAt (hp : p < t.size) (hc : c < t.size) (hcp : ¬ t.Under c p) (place : Option NodeId) :
    Grove (t.insertAt p place c) :=
  h.put (moved_insertAt h.linked hp hc place) hcp

theorem insertText (hp : p < t.size) (place : Option NodeId) (text : String) :
    Grove (t.insertText p place text).2 := by
  have hnew : Grove ((t.alloc (.text text)).2.insertAt p place t.size) := by
    have hp' : p < (t.alloc (.text text)).2.size := Nat.lt_of_lt_of_le hp (by simp)
    refine (h.alloc _).insertAt hp' (by simp) (fun hunder => h.not_under_size hp ?_) place
    exact ReflTransGen.mono (fun a b hab => (parent?_alloc t b _).symm.trans hab) _ _ hunder
  unfold Tree.insertText
  split
  · next prev _ =>
    split
    · refine h.of_parents (h.linked.modify prev (keepsLinks_setData _)) fun x => ?_
      exact bind_get?_modify t prev x _ _ (keepsLinks_setData _).parent
    · exact hnew
  · exact hnew

end Grove

/-! ## 2. No change of a node that is not there -/

section Range

variable (h : Linked t)

theorem lt_size_of_modify? {f : Node → Node} (hmake : t.modify? x f = some t') : x < t.size := by
  by_contra hx
  simp [modify?, contains, hx] at hmake

/-- Nodes that are changed one after the other are both in the tree. -/
theorem lt_size_of_modify?_modify? {t'' : Tree}
    {f g : Node → Node} (hfirst : t.modify? p f = some t')
    (hsecond : t'.modify? c g = some t'') : p < t.size ∧ c < t.size := by
  have hp := lt_size_of_modify? hfirst
  have hc := lt_size_of_modify? hsecond
  rw [modify?_eq hp] at hfirst
  cases hfirst
  exact ⟨hp, by simpa using hc⟩

theorem lt_size_of_removeChild? (hmake : t.removeChild? p c = some t') : p < t.size := by
  simp only [removeChild?, Option.bind_eq_bind, Option.bind_eq_some_iff] at hmake
  obtain ⟨n, hn, -⟩ := hmake
  exact lt_size_of_get? hn

include h

namespace Linked

theorem lt_size_of_appendChild? (hmake : t.appendChild? p c = some t') :
    p < t.size ∧ c < t.size := by
  simp only [appendChild?, detach?_eq h, Option.bind_eq_bind, Option.bind_some,
    Option.bind_eq_some_iff] at hmake
  obtain ⟨n, -, t₁, hparent, t₂, hchild, -⟩ := hmake
  simpa using lt_size_of_modify?_modify? hparent hchild

theorem lt_size_of_insertBefore? (hmake : t.insertBefore? p c r = some t') :
    p < t.size ∧ c < t.size := by
  simp only [insertBefore?, detach?_eq h, Option.bind_eq_bind, Option.bind_some,
    Option.bind_eq_some_iff] at hmake
  obtain ⟨n, -, hmake⟩ := hmake
  split at hmake
  · simp only [Option.bind_eq_some_iff] at hmake
    obtain ⟨m, -, t₁, hparent, t₂, hchild, -⟩ := hmake
    simpa using lt_size_of_modify?_modify? hparent hchild
  · simpa using (h.detach c).lt_size_of_appendChild? hmake

theorem lt_size_of_insertAt? {place : Option NodeId} (hmake : t.insertAt? p place c = some t') :
    p < t.size := by
  cases place with
  | none => exact (h.lt_size_of_appendChild? hmake).1
  | some r => exact (h.lt_size_of_insertBefore? hmake).1

theorem lt_size_of_preceding? {place : Option NodeId} (hx : t.preceding? p place = some x) :
    p < t.size := by
  have hlast : t.lastChild? p = some x → p < t.size := fun hx =>
    lt_size_of_mem_children (List.mem_of_getLast? hx)
  unfold preceding? at hx
  split at hx
  · split at hx
    · next hparent => exact h.parent_lt hparent
    · exact hlast hx
  · exact hlast hx

/-- A new text looks for its place when it has a node already, so its parent may be that node. -/
theorem le_size_of_insertText? {place : Option NodeId} {text : String} {result : NodeId × Tree}
    (hmake : t.insertText? p place text = some result) : p ≤ t.size := by
  cases hx : t.preceding? p place with
  | some x => exact Nat.le_of_lt (h.lt_size_of_preceding? hx)
  | none =>
    simp only [insertText?, hx, insertNewText?, fst_alloc, Option.bind_eq_bind,
      Option.bind_eq_some_iff] at hmake
    obtain ⟨t₁, hinsert, -⟩ := hmake
    apply Nat.le_of_lt_succ
    simpa using (h.alloc (.text text)).lt_size_of_insertAt? hinsert

end Linked

end Range

/-! ## 3. Careful changes -/

namespace Change

/-- The nodes that are put somewhere by a change, each with its new parent. A new text gets
the next node. -/
def puts (t : Tree) : Change → List (NodeId × NodeId)
  | .append parent child | .insertBefore parent child _ => [(parent, child)]
  | .moveChildren source target => (t.children source).map fun child => (target, child)
  | .insertText parent _ _ => [(parent, t.size)]
  | .alloc _ | .remove _ _ | .detach _ | .setMode _ => []

/-- No node is put under itself, nor under a node that is below it. -/
def Careful (t : Tree) (change : Change) : Prop :=
  ∀ parent child, (parent, child) ∈ change.puts t → ¬ t.Under child parent

end Change

/-- Nodes are put below another one, one after the other. -/
theorem Grove.appendAll (h : Grove t) {cs : List NodeId} (hcareful : ∀ c ∈ cs, ¬ t.Under c p)
    (hmake : cs.foldlM (fun t child => t.appendChild? p child) t = some t') : Grove t' := by
  induction cs generalizing t with
  | nil =>
    cases hmake
    exact h
  | cons c cs ih =>
    rw [List.foldlM_cons] at hmake
    obtain ⟨t₁, happend, hrest⟩ := Option.bind_eq_some_iff.1 hmake
    obtain ⟨hp, hc⟩ := h.linked.lt_size_of_appendChild? happend
    rw [appendChild?_eq h.linked hp hc] at happend
    cases happend
    have m := moved_appendChild h.linked hp hc
    apply ih (h.put m (hcareful c (by simp))) _ hrest
    exact fun d hd => m.not_under (hcareful d (by simp [hd]))

/-- A careful change leaves no node below itself. -/
theorem Grove.change (h : Grove t) {change : Change} (hcareful : change.Careful t)
    (hmake : change.make? t = some t') : Grove t' := by
  have hl := h.linked
  cases change with
  | alloc data =>
    cases hmake
    exact h.alloc data
  | setMode mode =>
    cases hmake
    exact h.setMode mode
  | detach id =>
    rw [Change.make?, detach?_eq hl] at hmake
    cases hmake
    exact h.detach id
  | remove parent child =>
    have hp := lt_size_of_removeChild? hmake
    rw [Change.make?, removeChild?_eq hl hp] at hmake
    cases hmake
    exact h.removeChild parent child
  | append parent child =>
    obtain ⟨hp, hc⟩ := hl.lt_size_of_appendChild? hmake
    rw [Change.make?, appendChild?_eq hl hp hc] at hmake
    cases hmake
    exact h.put (moved_appendChild hl hp hc) (hcareful parent child (by simp [Change.puts]))
  | insertBefore parent child reference =>
    obtain ⟨hp, hc⟩ := hl.lt_size_of_insertBefore? hmake
    rw [Change.make?, insertBefore?_eq hl hp hc] at hmake
    cases hmake
    exact h.put (moved_insertBefore hl hp hc) (hcareful parent child (by simp [Change.puts]))
  | moveChildren source target =>
    obtain ⟨n, hn, hmake⟩ := Option.bind_eq_some_iff.1 hmake
    have hchildren : n.children = t.children source := by
      rw [children_eq, hn]
      rfl
    rw [hchildren] at hmake
    apply h.appendAll (fun c hc => ?_) hmake
    exact hcareful target c (List.mem_map_of_mem hc)
  | insertText parent place text =>
    obtain ⟨result, hinsert, rfl⟩ := Option.map_eq_some_iff.1 hmake
    -- the new node is not put under itself
    have hne : parent ≠ t.size := by
      rintro rfl
      exact hcareful t.size t.size (by simp [Change.puts]) .refl
    have hp : parent < t.size := Nat.lt_of_le_of_ne (hl.le_size_of_insertText? hinsert) hne
    rw [insertText?_eq hl hp] at hinsert
    cases hinsert
    exact h.insertText hp place text

/-- The trees that come from an empty document by careful changes. -/
inductive Built : Tree → Prop
  | empty : Built .empty
  | change {t t' : Tree} {change : Change} (h : Built t) (hcareful : change.Careful t)
    (hmake : change.make? t = some t') : Built t'

theorem Grove.empty : Grove .empty where
  linked := .empty
  acyclic x hx := by
    obtain ⟨y, hy, -⟩ := TransGen.head'_iff.1 hx
    by_cases hx : y = 0 <;> simp [ParentOf, Tree.empty, parent?, get?, hx] at hy

theorem Built.grove (h : Built t) : Grove t := by
  induction h with
  | empty => exact .empty
  | change _ hcareful hmake ih => exact ih.change hcareful hmake

end Hypertext.Tree
