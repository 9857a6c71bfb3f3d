import Hypertext.Proofs.Dom.Checked

/-!
# Any changes keep the links consistent

A node stores its parent, its children and its neighbours, and nothing keeps a caller from putting a
node under itself or before itself. Whatever sequence of changes is made, as long as the nodes
exist: every change is made, and afterwards the links agree. Only that no node is below itself is up
to the caller.
-/

namespace Hypertext.Tree

/-! ## 1. Changes -/

/-- A change of a tree, with the nodes that it is about. -/
inductive Change where
  | alloc (data : NodeData)
  | append (parent child : NodeId)
  | insertBefore (parent child reference : NodeId)
  | remove (parent child : NodeId)
  | detach (id : NodeId)
  | moveChildren (source target : NodeId)
  | insertText (parent : NodeId) (before : Option NodeId) (text : String)
  | setMode (mode : DocumentMode)

namespace Change

/-- The nodes that a change is about. -/
def ids : Change → List NodeId
  | .alloc _ | .setMode _ => []
  | .append parent child | .remove parent child => [parent, child]
  | .insertBefore parent child reference => [parent, child, reference]
  | .detach id => [id]
  | .moveChildren source target => [source, target]
  | .insertText parent before _ => parent :: before.toList

/-- Makes a change, if no index leads out of the tree. -/
def make? (t : Tree) : Change → Option Tree
  | .alloc data => some (t.alloc data).2
  | .append parent child => t.appendChild? parent child
  | .insertBefore parent child reference => t.insertBefore? parent child reference
  | .remove parent child => t.removeChild? parent child
  | .detach id => t.detach? id
  | .moveChildren source target => t.moveChildren? source target
  | .insertText parent before text => (t.insertText? parent before text).map (·.2)
  | .setMode mode => some (t.setMode mode)

end Change

/-- Makes changes one after the other. -/
def makeAll? (t : Tree) (changes : List Change) : Option Tree :=
  changes.foldlM (fun t change => change.make? t) t

/-- Every change is about nodes that exist when it is made. -/
def InRange : Tree → List Change → Prop
  | _, [] => True
  | t, change :: rest => (∀ id ∈ change.ids, id < t.size) ∧
    match change.make? t with
    | some t' => InRange t' rest
    | none => True

instance decidableInRange : (t : Tree) → (changes : List Change) → Decidable (InRange t changes)
  | _, [] => isTrue trivial
  | t, change :: rest =>
    match h : change.make? t with
    | some t' =>
      have : Decidable (InRange t' rest) := decidableInRange t' rest
      decidable_of_iff ((∀ id ∈ change.ids, id < t.size) ∧ InRange t' rest) (by rw [InRange, h])
    | none => decidable_of_iff (∀ id ∈ change.ids, id < t.size) (by rw [InRange, h, and_true])

/-! ## 2. What every change keeps -/

/-- The links of a tree are consistent, and node zero is the document: no child list has
repetitions, a node is listed by its parent and by no other node, its neighbours are those in that
list, and a node without parent has none. -/
structure Consistent (t : Tree) : Prop where
  nodup : ∀ p, (t.children p).Nodup
  mem_children : ∀ p c, c ∈ t.children p ↔ t.parent? c = some p
  next : ∀ p i c, (t.children p)[i]? = some c → t.next? c = (t.children p)[i + 1]?
  prev : ∀ p i c, (t.children p)[i]? = some c →
    t.prev? c = if i = 0 then none else (t.children p)[i - 1]?
  alone : ∀ c, t.parent? c = none → t.next? c = none ∧ t.prev? c = none
  document : ∃ mode, t.data? root = some (.document mode)

/-- Node zero is the document, and the links agree. -/
structure Grounded (t : Tree) : Prop where
  linked : Linked t
  document : ∃ mode, t.data? root = some (.document mode)

namespace Grounded

variable {t t' : Tree} {p c r : NodeId}

theorem empty : Grounded .empty := ⟨.empty, .noQuirks, rfl⟩

theorem consistent (h : Grounded t) : Consistent t where
  nodup := h.linked.nodup
  mem_children := h.linked.mem_children
  next _ _ _ hi := (h.linked.neighbours hi).1
  prev _ _ _ hi := (h.linked.neighbours hi).2
  alone _ hc := ⟨h.linked.next_eq_none hc, h.linked.prev_eq_none hc⟩
  document := h.document

/-- Changes of relations leave the document where it is. -/
theorem rearrange (h : Grounded t) (hl : Linked t') (hd : t'.data? root = t.data? root) :
    Grounded t' :=
  ⟨hl, hd ▸ h.document⟩

theorem moved {q : Option NodeId} (h : Grounded t) (m : Moved t t' c q) : Grounded t' :=
  h.rearrange m.linked (m.data root)

theorem alloc (h : Grounded t) (data : NodeData) : Grounded (t.alloc data).2 := by
  obtain ⟨mode, hroot⟩ := h.document
  refine h.rearrange (h.linked.alloc data) ?_
  rw [data?_alloc, if_neg]
  exact Nat.ne_of_lt (lt_size_of_data? hroot)

theorem removeChild (h : Grounded t) (p c : NodeId) : Grounded (t.removeChild p c) := by
  by_cases hc : c ∈ t.children p
  · have hdetach : t.detach c = t.removeChild p c := by
      rw [Tree.detach, (h.linked.mem_children p c).1 hc]
    exact hdetach ▸ h.moved (moved_detach h.linked c)
  · rwa [Tree.removeChild, if_neg hc]

theorem setMode (h : Grounded t) (mode : DocumentMode) : Grounded (t.setMode mode) := by
  refine ⟨h.linked.modify _ (keepsLinks_setMode mode), mode, ?_⟩
  obtain ⟨old, hroot⟩ := h.document
  obtain ⟨n, hn, hdata⟩ := Option.map_eq_some_iff.1 hroot
  rw [Tree.setMode, data?, get?_modify, if_pos rfl, hn]
  simp [hdata]

/-- The document is no text that could be extended. -/
theorem insertText (h : Grounded t) (hp : p < t.size) (before : Option NodeId) (text : String) :
    Grounded (t.insertText p before text).2 := by
  have hnew : Grounded ((t.alloc (.text text)).2.insertAt p before t.size) := by
    refine (h.alloc (.text text)).moved (moved_insertAt (h.linked.alloc _) ?_ ?_ before)
    · exact Nat.lt_of_lt_of_le hp (by simp)
    · simp
  unfold Tree.insertText
  split
  · next prev _ =>
    split
    · next existing htext =>
      refine h.rearrange (h.linked.modify prev (keepsLinks_setData _)) ?_
      obtain ⟨mode, hroot⟩ := h.document
      have hne : prev ≠ root := by
        rintro rfl
        rw [text?, hroot] at htext
        cases htext
      rw [setData, data?, get?_modify, if_neg hne, data?]
    · exact hnew
  · exact hnew

/-- A change that is about nodes of the tree is made, and the links agree again. -/
theorem change (h : Grounded t) (change : Change) (hr : ∀ id ∈ change.ids, id < t.size) :
    ∃ t', change.make? t = some t' ∧ Grounded t' := by
  have hl := h.linked
  cases change with
  | alloc data => exact ⟨_, rfl, h.alloc data⟩
  | append parent child =>
    have hp := hr parent (by simp [Change.ids])
    have hc := hr child (by simp [Change.ids])
    exact ⟨_, appendChild?_eq hl hp hc, h.moved (moved_appendChild hl hp hc)⟩
  | insertBefore parent child reference =>
    have hp := hr parent (by simp [Change.ids])
    have hc := hr child (by simp [Change.ids])
    exact ⟨_, insertBefore?_eq hl hp hc reference, h.moved (moved_insertBefore hl hp hc)⟩
  | remove parent child =>
    exact ⟨_, removeChild?_eq hl (hr parent (by simp [Change.ids])) child,
      h.removeChild parent child⟩
  | detach id => exact ⟨_, detach?_eq hl id, h.moved (moved_detach hl id)⟩
  | moveChildren source target =>
    have ht := hr target (by simp [Change.ids])
    have m := movedAll_moveChildren hl source ht
    exact ⟨_, moveChildren?_eq hl (hr source (by simp [Change.ids])) ht,
      h.rearrange m.linked (m.data root)⟩
  | insertText parent before text =>
    have hp := hr parent (by simp [Change.ids])
    exact ⟨_, by rw [Change.make?, insertText?_eq hl hp]; rfl, h.insertText hp before text⟩
  | setMode mode => exact ⟨_, rfl, h.setMode mode⟩

theorem changes (h : Grounded t) {changes : List Change} (hr : InRange t changes) :
    ∃ t', t.makeAll? changes = some t' ∧ Grounded t' := by
  induction changes generalizing t with
  | nil => exact ⟨t, rfl, h⟩
  | cons change rest ih =>
    obtain ⟨t₁, happly, h₁⟩ := h.change change hr.1
    have hrest := hr.2
    rw [happly] at hrest
    obtain ⟨t', hall, h'⟩ := ih h₁ hrest
    refine ⟨t', ?_, h'⟩
    rw [makeAll?, List.foldlM_cons, happly]
    exact hall

end Grounded

/-! ## 3. Sequences of changes -/

/-- Any changes of a new tree that are about nodes that exist are made, and leave consistent links:
a node may be put under itself or under what is below it, and before itself or before a node that
is no child. -/
theorem consistent_of_changes {changes : List Change} (h : InRange .empty changes) :
    ∃ t, Tree.empty.makeAll? changes = some t ∧ t.Consistent := by
  obtain ⟨t, ht, hg⟩ := Grounded.empty.changes h
  exact ⟨t, ht, hg.consistent⟩

/-- A node is put before itself, then under its own child, and then the children of that child are
moved to where they are. -/
def tangled : List Change :=
  [.alloc .fragment, .alloc (.text "a"), .append 0 1, .append 1 2, .insertBefore 0 1 1, .append 2 1,
    .moveChildren 2 2, .insertText 2 (some 1) "b", .insertBefore 2 2 1]

theorem consistent_tangled : InRange .empty tangled ∧ ∃ t, Tree.empty.makeAll? tangled = some t ∧
    t.Consistent ∧ t.children 2 = [3, 2, 1] ∧ t.parent? 2 = some 2 := by
  have hr : InRange .empty tangled := by decide
  obtain ⟨t, ht, hc⟩ := consistent_of_changes hr
  have hlist : (Tree.empty.makeAll? tangled).map (fun t => (t.children 2, t.parent? 2)) =
      some ([3, 2, 1], some 2) := by decide
  rw [ht] at hlist
  obtain ⟨hchildren, hparent⟩ := Prod.mk.inj (Option.some.inj hlist)
  exact ⟨hr, t, ht, hc, hchildren, hparent⟩

end Hypertext.Tree
