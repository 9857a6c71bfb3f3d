import Hypertext.Dom.Checked
import Hypertext.Proofs.Dom.Links

/-!
# No index leads out of a linked tree

In a linked tree every link leads to a node of the tree. So the changes that check each index they
follow give a result there, and it is that of the changes that check none.
-/

namespace Hypertext.Tree

variable {t : Tree} {p c r x : NodeId}

/-! ## 1. Links lead to nodes -/

namespace Linked

variable (h : Linked t)
include h

theorem child_lt (hc : c ∈ t.children p) : c < t.size :=
  lt_size_of_parent? ((h.mem_children p c).1 hc)

theorem parent_lt (hp : t.parent? c = some p) : p < t.size :=
  lt_size_of_mem_children ((h.mem_children p c).2 hp)

theorem prev_lt (hx : t.prev? c = some x) : x < t.size := lt_size_of_next? ((h.prev_iff x c).1 hx)

theorem next_lt (hx : t.next? c = some x) : x < t.size := by
  rw [h.next_eq] at hx
  obtain ⟨p, hp, ha⟩ := Option.bind_eq_some_iff.1 hx
  obtain ⟨l₁, l₂, hl⟩ := (after_eq_some_iff (h.nodup p)).1 ha
  exact h.child_lt (p := p) (by rw [hl]; simp)

end Linked

theorem exists_node (hx : x < t.size) :
    ∃ n, t.get? x = some n ∧ t.children x = n.children ∧ t.prev? x = n.prev ∧
    t.next? x = n.next := by
  obtain ⟨n, hn⟩ := exists_get? t x hx
  exact ⟨n, hn, by rw [children_eq, hn]; rfl, by rw [prev?, hn]; rfl, by rw [next?, hn]; rfl⟩

/-! ## 2. Checked changes -/

theorem modify?_eq (hx : x < t.size) (f : Node → Node) : t.modify? x f = some (t.modify x f) := by
  simp [modify?, contains, hx]

theorem link?_eq {a b : Option NodeId} (ha : ∀ y, a = some y → y < t.size)
    (hb : ∀ y, b = some y → y < t.size) : t.link? a b = some (t.link a b) := by
  cases a with
  | none =>
    cases b with
    | none => rfl
    | some y => exact modify?_eq (hb y rfl) _
  | some x =>
    have hx := modify?_eq (ha x rfl) ({ · with next := b })
    cases b with
    | none => simp only [link?, link, hx, setNext, Option.bind_eq_bind, Option.bind_some]
    | some y =>
      have hy : y < (t.setNext x (some y)).size := by simpa using hb y rfl
      simp only [link?, link, hx, Option.bind_eq_bind, Option.bind_some]
      exact modify?_eq hy _

theorem removeChild?_eq (h : Linked t) (hp : p < t.size) (c : NodeId) :
    t.removeChild? p c = some (t.removeChild p c) := by
  obtain ⟨n, hn, hcs, -, -⟩ := exists_node hp
  simp only [removeChild?, removeChild, hn, ← hcs, Option.bind_eq_bind, Option.bind_some]
  split
  · next hc =>
    have hlt := h.child_lt hc
    -- the neighbours are read after the child list has changed, which keeps them
    obtain ⟨m, hm, -, hprev, hnext⟩ :=
      exists_node (t := t.setChildren p ((t.children p).erase c)) (x := c) (by simpa using hlt)
    simp only [prev?_setChildren, next?_setChildren] at hprev hnext
    rw [modify?_eq hp, Option.bind_some, hprev, hnext]
    change ((t.setChildren p ((t.children p).erase c)).get? c).bind _ = _
    rw [hm, Option.bind_some, modify?_eq (by simpa using hlt), Option.bind_some,
      modify?_eq (by simpa using hlt), Option.bind_some, modify?_eq (by simpa using hlt),
      Option.bind_some]
    refine link?_eq (fun y hy => ?_) (fun y hy => ?_)
    · simpa using h.prev_lt (hprev.trans hy)
    · simpa using h.next_lt (hnext.trans hy)
  · rfl

theorem detach?_eq (h : Linked t) (c : NodeId) : t.detach? c = some (t.detach c) := by
  cases hp : t.parent? c with
  | none => simp only [detach?, detach, hp]
  | some p =>
    simp only [detach?, detach, hp]
    exact removeChild?_eq h (h.parent_lt hp) c

theorem appendChild?_eq (h : Linked t) (hp : p < t.size) (hc : c < t.size) :
    t.appendChild? p c = some (t.appendChild p c) := by
  have h₁ := h.detach c
  have hp₁ : p < (t.detach c).size := by simpa using hp
  obtain ⟨n, hn, hcs, -, -⟩ := exists_node hp₁
  simp only [appendChild?, appendChild, detach?_eq h, Option.bind_eq_bind, Option.bind_some, hn,
    ← hcs]
  rw [modify?_eq hp₁, Option.bind_some, modify?_eq (by simpa using hc), Option.bind_some]
  have hlastChild : ((t.detach c).children p).getLast? = (t.detach c).lastChild? p := rfl
  rw [hlastChild]
  cases hlast : (t.detach c).lastChild? p with
  | none => rfl
  | some last =>
    refine link?_eq ?_ ?_
    · rintro y ⟨⟩
      simpa using h₁.lastChild_lt hlast
    · rintro y ⟨⟩
      simpa using hc

theorem insertBefore?_eq (h : Linked t) (hp : p < t.size) (hc : c < t.size) (r : NodeId) :
    t.insertBefore? p c r = some (t.insertBefore p c r) := by
  have h₁ := h.detach c
  have hp₁ : p < (t.detach c).size := by simpa using hp
  obtain ⟨n, hn, hcs, -, -⟩ := exists_node hp₁
  simp only [insertBefore?, insertBefore, detach?_eq h, Option.bind_eq_bind, Option.bind_some, hn,
    ← hcs]
  split
  · next hr =>
    have hr₁ := h₁.child_lt hr
    obtain ⟨m, hm, -, hprev, -⟩ := exists_node hr₁
    simp only [hm, ← hprev, Option.bind_some]
    rw [modify?_eq hp₁, Option.bind_some, modify?_eq (by simpa using hc), Option.bind_some,
      modify?_eq (by simpa using hc), Option.bind_some, modify?_eq (by simpa using hc),
      Option.bind_some, modify?_eq (by simpa using hr₁), Option.bind_some]
    cases hy : (t.detach c).prev? r with
    | none => rfl
    | some y => exact modify?_eq (by simpa using h₁.prev_lt hy) _
  · exact appendChild?_eq h₁ hp₁ (by simpa using hc)

theorem insertAt?_eq (h : Linked t) (hp : p < t.size) (hc : c < t.size) (before : Option NodeId) :
    t.insertAt? p before c = some (t.insertAt p before c) := by
  cases before with
  | none => exact appendChild?_eq h hp hc
  | some r => exact insertBefore?_eq h hp hc r

theorem foldlM_appendChild? {cs : List NodeId} (h : Linked t) (hp : p < t.size)
    (hcs : ∀ x ∈ cs, x < t.size) : cs.foldlM (fun t child => t.appendChild? p child) t =
      some (cs.foldl (fun t child => t.appendChild p child) t) := by
  induction cs generalizing t with
  | nil => rfl
  | cons c cs ih =>
    have hc := hcs c (by simp)
    rw [List.foldlM_cons, appendChild?_eq h hp hc, List.foldl_cons]
    exact ih (moved_appendChild h hp hc).linked (by simpa using hp) fun x hx => by
      simpa using hcs x (by simp [hx])

theorem moveChildren?_eq (h : Linked t) {source target : NodeId} (hs : source < t.size)
    (ht : target < t.size) :
    t.moveChildren? source target = some (t.moveChildren source target) := by
  obtain ⟨n, hn, hcs, -, -⟩ := exists_node hs
  simp only [moveChildren?, moveChildren, hn, ← hcs, Option.bind_eq_bind, Option.bind_some]
  exact foldlM_appendChild? h ht fun x hx => h.child_lt hx

/-- What stands before a place is in the tree. -/
theorem Linked.preceding_lt (h : Linked t) {before : Option NodeId}
    (hx : t.preceding? p before = some x) : x < t.size := by
  unfold preceding? at hx
  split at hx
  · split at hx
    · exact h.prev_lt hx
    · exact h.lastChild_lt hx
  · exact h.lastChild_lt hx

theorem insertNewText?_eq (h : Linked t) (hp : p < t.size) (before : Option NodeId)
    (text : String) : t.insertNewText? p before text =
      some (t.size, (t.alloc (.text text)).2.insertAt p before t.size) := by
  have hp' : p < (t.alloc (.text text)).2.size := by
    rw [size_alloc]
    exact Nat.lt_succ_of_lt hp
  have hid : t.size < (t.alloc (.text text)).2.size := by simp
  simp only [insertNewText?, fst_alloc]
  rw [insertAt?_eq (h.alloc (.text text)) hp' hid]
  rfl

theorem insertText?_eq (h : Linked t) (hp : p < t.size) (before : Option NodeId) (text : String) :
    t.insertText? p before text = some (t.insertText p before text) := by
  have hnew := insertNewText?_eq h hp before text
  cases hx : t.preceding? p before with
  | none =>
    simp only [insertText?, insertText, hx]
    exact hnew
  | some y =>
    have hlt := h.preceding_lt hx
    obtain ⟨n, hn⟩ := exists_get? t y hlt
    have hdata : t.data? y = some n.data := by rw [data?, hn, Option.map_some]
    cases htext : n.data with
    | text existing =>
      simp only [insertText?, insertText, hx, hn, text?, hdata, htext, Option.bind_eq_bind,
        Option.bind_some]
      rw [modify?_eq hlt]
      rfl
    | _ =>
      simp only [insertText?, insertText, hx, hn, text?, hdata, htext, Option.bind_eq_bind,
        Option.bind_some]
      exact hnew

end Hypertext.Tree
