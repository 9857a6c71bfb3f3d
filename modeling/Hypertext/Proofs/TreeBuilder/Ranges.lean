import Hypertext.Proofs.TreeBuilder.Reachable

/-!
# No index leads astray

Nodes are referred to by their index in the tree, open elements by their depth, and the entries of
the list of active formatting elements by their place in it. The rules check each index where they
follow it, and a `fault` is remembered if one is out of range or falls below zero. Of a builder that
a host can bring about there is no fault, and all that it refers to is in the tree.
-/

namespace Hypertext

open Hypertext.Tree

/-- Every link of a node leads to a node of the tree. -/
structure Tree.Closed (t : Tree) : Prop where
  parent : ∀ x p, t.parent? x = some p → p < t.size
  children : ∀ x c, c ∈ t.children x → c < t.size
  next : ∀ x y, t.next? x = some y → y < t.size
  prev : ∀ x y, t.prev? x = some y → y < t.size
  contents : ∀ x f, t.contents? x = some f → f < t.size

theorem Tree.Forest.closed {t : Tree} (h : Forest t) : t.Closed where
  parent _ _ hp := h.linked.parent_lt hp
  children _ _ hc := h.linked.child_lt hc
  next _ _ hy := h.linked.next_lt hy
  prev _ _ hy := h.linked.prev_lt hy
  contents _ _ hf := h.above_right_lt (Or.inr hf)

/-- The nodes in the list of active formatting elements are elements of the tree. -/
theorem Named.lt_size {t : Tree} {entries : List FormattingEntry} (h : Named t entries) {x : NodeId}
    (hx : x ∈ entries.filterMap (·.id?)) : x < t.size := by
  obtain ⟨e, he, hid⟩ := List.mem_filterMap.1 hx
  cases e with
  | marker => cases hid
  | element id tag =>
    cases hid
    exact lt_size_of_label? (h x tag he).2

namespace TreeBuilder

variable {b : TreeBuilder}

/-- All nodes that a builder refers to are in its tree. -/
structure InRange (b : TreeBuilder) : Prop where
  openElements : ∀ x ∈ b.openElements, x < b.tree.size
  formatting : ∀ x ∈ b.formatting.filterMap (·.id?), x < b.tree.size
  headElement : ∀ x, b.headElement = some x → x < b.tree.size
  formElement : ∀ x, b.formElement = some x → x < b.tree.size
  tree : b.tree.Closed

/-- In a builder that no host can bring about, the current node may be missing. -/
example : (({ openElements := [7] } : TreeBuilder).insertComment "").fault = true := by decide

theorem Valid.inRange (h : Valid b) : b.fault = false ∧ InRange b := by
  have hplanted := h.planted
  have hhead : ∀ x, b.headElement = some x → x < b.tree.size := fun x hx =>
    lt_size_of_label? (hplanted.head x hx).1
  have hopen : ∀ x ∈ b.openElements, x < b.tree.size := fun x hx => hplanted.lt hx
  have hclosed := hplanted.forest.closed
  obtain h | h := h
  · exact ⟨h.intact, hopen, fun x hx => h.named.lt_size hx, hhead,
      fun x hx => lt_size_of_label? (h.form x hx), hclosed⟩
  · refine ⟨h.intact, hopen, fun x hx => ?_, hhead,
      fun x hx => lt_size_of_label? (h.form x hx), hclosed⟩
    rw [h.formatting] at hx
    cases hx

/-- Whatever tokens have been fed, no index was out of range, and none is while the next token is
processed, whatever it is. -/
theorem inRange_of_reachable (h : Reachable b) :
    b.fault = false ∧ InRange b ∧ ∀ t : PositionedToken,
      (b.stopped = true ∧ b.process t = .error .alreadyFinished) ∨
      ∃ b', b.process t = .ok b' ∧ b'.fault = false ∧ InRange b' := by
  obtain ⟨hfault, hrange⟩ := h.valid.inRange
  refine ⟨hfault, hrange, fun t => ?_⟩
  obtain hs | hs := h.valid
  · obtain ⟨b', hb', -⟩ := hs.process t
    exact Or.inr ⟨b', hb', (Reachable.process t h hb').valid.inRange⟩
  · exact Or.inl ⟨hs.stopped, hs.process t⟩

/-- A block in three formatting elements in a table, an end tag in foreign content, and one of a
group of options. -/
def entangled : List Token :=
  [.startTag { name := "table" }, .startTag { name := "a" }, .startTag { name := "b" },
    .startTag { name := "i" }, .startTag { name := "p" }, .endTag { name := "a" },
    .startTag { name := "svg" }, .startTag { name := "g" }, .endTag { name := "svg" },
    .startTag { name := "select" }, .startTag { name := "optgroup" },
    .startTag { name := "option" }, .endTag { name := "optgroup" }]

theorem inRange_entangled : ∃ b, feed {} entangled = .ok b ∧
    b.openNames = ["html", "body", "table", "b", "i", "p", "select"] ∧ b.fault = false ∧
    InRange b := by
  obtain ⟨b, hb, hn⟩ := exists_ok (feed {} entangled)
    (fun b => b.openNames = ["html", "body", "table", "b", "i", "p", "select"])
    (by with_unfolding_all decide)
  obtain ⟨hfault, hrange, -⟩ := inRange_of_reachable (.feed (.start false false) hb)
  exact ⟨b, hb, hn, hfault, hrange⟩

end TreeBuilder

end Hypertext
