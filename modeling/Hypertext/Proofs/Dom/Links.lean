import Hypertext.Proofs.Dom.Views
import Mathlib.Data.List.Nodup

/-!
# Consistent links

A node stores its parent, its children and its neighbours among the siblings, so one fact is stored
in several places. `Linked` says that these agree, and every change of a tree keeps them in
agreement, whatever nodes it is given.
-/

namespace Hypertext.Tree

/-! ## 1. Neighbours in a list -/

/-- What comes directly after `x` in a list. -/
def after (x : NodeId) : List NodeId → Option NodeId
  | [] => none
  | a :: rest => if a = x then rest.head? else after x rest

/-- What comes directly before `x` in a list. -/
def before (x : NodeId) (l : List NodeId) : Option NodeId := after x l.reverse

section After

variable {x y c r : NodeId} {l l₁ l₂ : List NodeId}

theorem after_append (h : x ∉ l₁) : after x (l₁ ++ x :: l₂) = l₂.head? := by
  induction l₁ with
  | nil => simp [after]
  | cons a l₁ ih =>
    simp only [List.mem_cons, not_or] at h
    simp [after, Ne.symm h.1, ih h.2]

theorem after_eq_none (h : x ∉ l) : after x l = none := by
  induction l with
  | nil => rfl
  | cons a l ih =>
    simp only [List.mem_cons, not_or] at h
    simp [after, Ne.symm h.1, ih h.2]

theorem after_eq_some_iff (hl : l.Nodup) :
    after x l = some y ↔ ∃ l₁ l₂, l = l₁ ++ x :: y :: l₂ := by
  constructor
  · intro h
    have hx : x ∈ l := by
      by_contra hx
      rw [after_eq_none hx] at h
      cases h
    obtain ⟨l₁, l₂, rfl, hn⟩ := List.eq_append_cons_of_mem hx
    rw [after_append hn] at h
    cases l₂ with
    | nil => cases h
    | cons a l₂ =>
      cases h
      exact ⟨l₁, l₂, rfl⟩
  · rintro ⟨l₁, l₂, rfl⟩
    have hn : x ∉ l₁ := by
      intro hx
      exact (List.nodup_append.1 hl).2.2 x hx x (by simp) rfl
    rw [after_append hn]
    rfl

theorem before_eq_some_iff (hl : l.Nodup) : before y l = some x ↔ after x l = some y := by
  rw [before, after_eq_some_iff (List.nodup_reverse.2 hl), after_eq_some_iff hl]
  constructor
  · rintro ⟨l₁, l₂, h⟩
    exact ⟨l₂.reverse, l₁.reverse, by rw [← List.reverse_reverse l, h]; simp⟩
  · rintro ⟨l₁, l₂, rfl⟩
    exact ⟨l₂.reverse, l₁.reverse, by simp⟩

/-- What comes after an item stands at the next place. -/
theorem after_eq_getElem? (hl : l.Nodup) {i : Nat} (hi : l[i]? = some x) :
    after x l = l[i + 1]? := by
  induction l generalizing i with
  | nil => simp at hi
  | cons a l ih =>
    rw [List.nodup_cons] at hl
    cases i with
    | zero =>
      cases hi
      simp [after, List.head?_eq_getElem?]
    | succ i =>
      rw [List.getElem?_cons_succ] at hi
      have hne : a ≠ x := by
        rintro rfl
        exact hl.1 (List.mem_of_getElem? hi)
      rw [after, if_neg hne, ih hl.2 hi, List.getElem?_cons_succ]

/-- What comes before an item stands at the place before. -/
theorem before_eq_getElem? (hl : l.Nodup) {i : Nat} (hi : l[i]? = some x) :
    before x l = if i = 0 then none else l[i - 1]? := by
  obtain ⟨hlt, -⟩ := List.getElem?_eq_some_iff.1 hi
  have hi' : l.reverse[l.length - 1 - i]? = some x := by
    rw [List.getElem?_reverse (by omega), show l.length - 1 - (l.length - 1 - i) = i by omega]
    exact hi
  rw [before, after_eq_getElem? (List.nodup_reverse.2 hl) hi']
  split
  · next h0 => exact List.getElem?_eq_none (by simp; omega)
  · rw [List.getElem?_reverse (by omega),
      show l.length - 1 - (l.length - 1 - i + 1) = i - 1 by omega]

theorem mem_of_after (h : after x l = some y) : x ∈ l := by
  by_contra hx
  rw [after_eq_none hx] at h
  cases h

/-- Without `c`, what stood before it is followed by what stood after it. -/
theorem after_erase (hl : l.Nodup) (hx : x ≠ c) :
    after x (l.erase c) = if after x l = some c then after c l else after x l := by
  induction l with
  | nil => simp [after]
  | cons a l ih =>
    obtain ⟨ha, hl'⟩ := List.nodup_cons.1 hl
    by_cases hac : a = c
    · subst hac
      have hne : after x l ≠ some a := by
        intro h
        obtain ⟨l₁, l₂, rfl⟩ := (after_eq_some_iff hl').1 h
        simp at ha
      simp [after, Ne.symm hx, hne]
    · rw [List.erase_cons_tail (by simpa using hac)]
      by_cases hax : a = x
      · subst hax
        cases l with
        | nil => simp [after]
        | cons d l => by_cases hd : d = c <;> simp [after, hd, hac]
      · simp [after, hax, hac, ih hl']

/-- With `c` at its end, a list is as before except that its last item is followed by `c`. -/
theorem after_concat (hl : l.Nodup) (hc : c ∉ l) (hx : x ≠ c) :
    after x (l ++ [c]) = if l.getLast? = some x then some c else after x l := by
  induction l with
  | nil => simp [after, Ne.symm hx]
  | cons a l ih =>
    obtain ⟨ha, hl'⟩ := List.nodup_cons.1 hl
    simp only [List.mem_cons, not_or] at hc
    cases l with
    | nil => by_cases hax : a = x <;> simp [after, hax, Ne.symm hx]
    | cons d l =>
      have hlast : (a :: d :: l).getLast? = (d :: l).getLast? := by simp
      by_cases hax : a = x
      · subst hax
        have hne : (d :: l).getLast? ≠ some a := fun h => ha (List.mem_of_getLast? h)
        rw [hlast, if_neg hne]
        simp [after]
      · rw [hlast, List.cons_append]
        simp only [after, if_neg hax] at ih ⊢
        exact ih hl' hc.2

theorem after_concat_self (hc : c ∉ l) : after c (l ++ [c]) = none := after_append hc

theorem mem_insertedBefore (h : r ∈ l) : x ∈ insertedBefore c r l ↔ x = c ∨ x ∈ l := by
  induction l with
  | nil => cases h
  | cons a l ih =>
    unfold insertedBefore
    split
    · simp
    · next ha =>
      have hr : r ∈ l := (List.mem_cons.1 h).resolve_left (Ne.symm ha)
      simp only [List.mem_cons, ih hr]
      exact or_left_comm

theorem nodup_insertedBefore (hl : l.Nodup) (hc : c ∉ l) (hr : r ∈ l) :
    (insertedBefore c r l).Nodup := by
  induction l with
  | nil => cases hr
  | cons a l ih =>
    obtain ⟨ha, hl'⟩ := List.nodup_cons.1 hl
    simp only [List.mem_cons, not_or] at hc
    unfold insertedBefore
    split
    · exact List.nodup_cons.2 ⟨by simp [hc], hl⟩
    · next hne =>
      have hr' : r ∈ l := (List.mem_cons.1 hr).resolve_left (Ne.symm hne)
      refine List.nodup_cons.2 ⟨?_, ih hl' hc.2 hr'⟩
      rw [mem_insertedBefore hr']
      simp [ha, Ne.symm hc.1]

theorem after_insertedBefore (hl : l.Nodup) (hc : c ∉ l) (hr : r ∈ l) (hx : x ≠ c) :
    after x (insertedBefore c r l) = if after x l = some r then some c else after x l := by
  induction l with
  | nil => cases hr
  | cons a l ih =>
    obtain ⟨ha, hl'⟩ := List.nodup_cons.1 hl
    simp only [List.mem_cons, not_or] at hc
    -- if `r` is the head, `c` is put in front of the whole list, and `r` comes after no other node
    by_cases har : a = r
    · subst har
      have hne : after x l ≠ some a := by
        intro h
        obtain ⟨l₁, l₂, rfl⟩ := (after_eq_some_iff hl').1 h
        simp at ha
      by_cases hax : a = x
      · subst hax
        have hhead : l.head? ≠ some a := fun h => ha (List.mem_of_mem_head? h)
        simp [insertedBefore, after, hc.1, hhead]
      · simp [insertedBefore, after, Ne.symm hx, hax, hne]
    · have hr' : r ∈ l := (List.mem_cons.1 hr).resolve_left (Ne.symm har)
      simp only [insertedBefore, if_neg har]
      by_cases hax : a = x
      · subst hax
        -- the node after `x` is the head of the rest, and that is where `c` may come
        cases l with
        | nil => cases hr'
        | cons d l => by_cases hd : d = r <;> simp [insertedBefore, after, hd]
      · simp only [after, if_neg hax]
        exact ih hl' hc.2 hr'

theorem after_insertedBefore_self (hc : c ∉ l) (hr : r ∈ l) :
    after c (insertedBefore c r l) = some r := by
  induction l with
  | nil => cases hr
  | cons a l ih =>
    simp only [List.mem_cons, not_or] at hc
    by_cases har : a = r
    · simp [insertedBefore, after, har]
    · have hr' : r ∈ l := (List.mem_cons.1 hr).resolve_left (Ne.symm har)
      simp [insertedBefore, har, after, Ne.symm hc.1, ih hc.2 hr']

end After

/-! ## 2. Agreement of the links -/

/-- The links of a tree agree: child lists have no repetitions, the parent of a node is the node
that lists it, and neighbours are what the list of the parent says. -/
structure Linked (t : Tree) : Prop where
  nodup : ∀ p, (t.children p).Nodup
  mem_children : ∀ p c, c ∈ t.children p ↔ t.parent? c = some p
  next_eq : ∀ c, t.next? c = (t.parent? c).bind fun p => after c (t.children p)
  prev_iff : ∀ c d, t.prev? d = some c ↔ t.next? c = some d

namespace Linked

variable {t t' : Tree} {p c d : NodeId}

theorem next_of_parent (h : Linked t) (hp : t.parent? c = some p) :
    t.next? c = after c (t.children p) := by
  rw [h.next_eq, hp]
  rfl

theorem next_eq_none (h : Linked t) (hp : t.parent? c = none) : t.next? c = none := by
  rw [h.next_eq, hp]
  rfl

/-- Neighbours have the same parent. -/
theorem parent_of_next (h : Linked t) (hn : t.next? c = some d) : t.parent? d = t.parent? c := by
  rw [h.next_eq] at hn
  obtain ⟨p, hp, hd⟩ := Option.bind_eq_some_iff.1 hn
  obtain ⟨l₁, l₂, hl⟩ := (after_eq_some_iff (h.nodup p)).1 hd
  rw [hp, (h.mem_children p d).1 (by rw [hl]; simp)]

theorem prev_eq (h : Linked t) (c : NodeId) :
    t.prev? c = (t.parent? c).bind fun p => before c (t.children p) := by
  apply Option.ext
  intro d
  rw [h.prev_iff]
  constructor
  · intro hn
    have hp := h.parent_of_next hn
    rw [h.next_eq, ← hp] at hn
    obtain ⟨p, hp', ha⟩ := Option.bind_eq_some_iff.1 hn
    exact Option.bind_eq_some_iff.2 ⟨p, hp', (before_eq_some_iff (h.nodup p)).2 ha⟩
  · intro hb
    obtain ⟨p, hp, hb⟩ := Option.bind_eq_some_iff.1 hb
    have ha := (before_eq_some_iff (h.nodup p)).1 hb
    have hd : t.parent? d = some p := (h.mem_children p d).1 (mem_of_after ha)
    rw [h.next_of_parent hd, ha]

/-- The neighbours of a node are those in the list of its parent. -/
theorem neighbours (h : Linked t) {i : Nat} (hi : (t.children p)[i]? = some c) :
    t.next? c = (t.children p)[i + 1]? ∧
      t.prev? c = if i = 0 then none else (t.children p)[i - 1]? := by
  have hp := (h.mem_children p c).1 (List.mem_of_getElem? hi)
  rw [h.next_of_parent hp, h.prev_eq, hp]
  exact ⟨after_eq_getElem? (h.nodup p) hi, before_eq_getElem? (h.nodup p) hi⟩

/-- The neighbour in front of a child is the last of those that come before it. -/
theorem prev_of_children (h : Linked t) {front back : List NodeId}
    (hl : t.children p = front ++ c :: back) : t.prev? c = front.getLast? := by
  have hp : t.parent? c = some p := (h.mem_children p c).1 (by rw [hl]; simp)
  have hnot : c ∉ back.reverse := by
    have hnodup := h.nodup p
    rw [hl, List.nodup_append', List.nodup_cons] at hnodup
    exact fun hc => hnodup.2.1.1 (List.mem_reverse.1 hc)
  rw [h.prev_eq, hp, Option.bind_some, before, hl, List.reverse_append, List.reverse_cons,
    List.append_assoc, List.singleton_append, after_append hnot, List.head?_reverse]

/-- A tree with the same links as a linked one is linked. -/
theorem of_links (h : Linked t) (hc : ∀ x, t'.children x = t.children x)
    (hp : ∀ x, t'.parent? x = t.parent? x) (hn : ∀ x, t'.next? x = t.next? x)
    (hv : ∀ x, t'.prev? x = t.prev? x) : Linked t' where
  nodup p := by rw [hc]; exact h.nodup p
  mem_children p c := by rw [hc, hp]; exact h.mem_children p c
  next_eq c := by simp only [hn, hp, hc]; exact h.next_eq c
  prev_iff c d := by rw [hv, hn]; exact h.prev_iff c d

theorem alloc (h : Linked t) (data : NodeData) : Linked (t.alloc data).2 :=
  h.of_links (by simp) (by simp) (by simp) (by simp)

theorem modify (h : Linked t) (id : NodeId) {f : Node → Node} (hf : KeepsLinks f) :
    Linked (t.modify id f) := by
  refine h.of_links ?_ ?_ ?_ ?_ <;> intro x
  · rw [children_eq, children_eq, map_get?_modify _ _ _ _ _ hf.children]
  · exact bind_get?_modify _ _ _ _ _ hf.parent
  · exact bind_get?_modify _ _ _ _ _ hf.next
  · exact bind_get?_modify _ _ _ _ _ hf.prev

theorem empty : Linked Tree.empty where
  nodup p := by
    rw [children_eq]
    by_cases hp : p = 0 <;> simp [Tree.empty, get?, hp]
  mem_children p c := by
    rw [children_eq]
    by_cases hp : p = 0 <;> by_cases hc : c = 0 <;> simp [Tree.empty, get?, parent?, hp, hc]
  next_eq c := by by_cases hc : c = 0 <;> simp [Tree.empty, get?, parent?, next?, hc]
  prev_iff c d := by
    by_cases hc : c = 0 <;> by_cases hd : d = 0 <;> simp [Tree.empty, get?, prev?, next?, hc, hd]

end Linked

/-! ## 3. Taking a node out -/

section Link

variable (t : Tree) (a b : Option NodeId) (x : NodeId)

@[simp]
theorem size_link : (t.link a b).size = t.size := by
  cases a <;> cases b <;> simp [link]

@[simp]
theorem data?_link : (t.link a b).data? x = t.data? x := by
  cases a <;> cases b <;> simp [link]

@[simp]
theorem parent?_link : (t.link a b).parent? x = t.parent? x := by
  cases a <;> cases b <;> simp [link]

@[simp]
theorem children_link : (t.link a b).children x = t.children x := by
  cases a <;> cases b <;> simp [link]

variable {a b}

theorem next?_link (ha : ∀ y, a = some y → y < t.size) :
    (t.link a b).next? x = if a = some x then b else t.next? x := by
  cases a with
  | none => cases b <;> simp [link]
  | some y =>
    have hy := ha y rfl
    cases b <;> simp [link, next?_setNext, hy, eq_comm]

theorem prev?_link (hb : ∀ y, b = some y → y < t.size) :
    (t.link a b).prev? x = if b = some x then a else t.prev? x := by
  cases b with
  | none => cases a <;> simp [link]
  | some y =>
    have hy := hb y rfl
    cases a <;> simp [link, prev?_setPrev, hy, eq_comm]

end Link

section Detach

variable {t : Tree} (c x : NodeId)

@[simp]
theorem size_detach : (t.detach c).size = t.size := by
  unfold detach removeChild
  split
  · split <;> simp
  · rfl

@[simp]
theorem data?_detach : (t.detach c).data? x = t.data? x := by
  unfold detach removeChild
  split
  · split <;> simp
  · rfl

variable (h : Linked t)
include h

/-- No node is its own neighbour. -/
theorem Linked.next_ne_self : t.next? c ≠ some c := by
  intro hn
  rw [h.next_eq] at hn
  obtain ⟨p, -, ha⟩ := Option.bind_eq_some_iff.1 hn
  obtain ⟨l₁, l₂, hl⟩ := (after_eq_some_iff (h.nodup p)).1 ha
  have hd := h.nodup p
  rw [hl] at hd
  simp [List.nodup_append] at hd

theorem parent?_detach : (t.detach c).parent? x = if x = c then none else t.parent? x := by
  unfold detach
  split
  · next p hp =>
    have hc := (h.mem_children p c).2 hp
    simp [removeChild, hc, parent?_setParent, lt_size_of_parent? hp]
  · next hp =>
    split
    · next hx => rw [hx, hp]
    · rfl

theorem children_detach : (t.detach c).children x = (t.children x).erase c := by
  unfold detach
  split
  · next p hp =>
    have hc := (h.mem_children p c).2 hp
    simp only [removeChild, hc, if_true, children_link, children_setParent, children_setNext,
      children_setPrev, children_setChildren t p x _ (lt_size_of_mem_children hc)]
    split
    · next hx => rw [hx]
    · next hx =>
      rw [List.erase_of_not_mem]
      rw [h.mem_children, hp]
      simpa using Ne.symm hx
  · next hp =>
    rw [List.erase_of_not_mem]
    rw [h.mem_children, hp]
    simp

theorem next?_detach : (t.detach c).next? x =
    if x = c then none else if t.next? x = some c then t.next? c else t.next? x := by
  unfold detach
  split
  · next p hp =>
    have hc := (h.mem_children p c).2 hp
    have hlt := lt_size_of_parent? hp
    have hprev : ∀ y, t.prev? c = some y → y < t.size := fun y hy =>
      lt_size_of_next? ((h.prev_iff y c).1 hy)
    simp only [removeChild, hc, if_true]
    rw [next?_link _ _ (by simpa using hprev), next?_setParent,
      next?_setNext _ c x _ (by simpa using hlt)]
    simp only [next?_setPrev, next?_setChildren, h.prev_iff]
    by_cases hx : x = c
    · subst hx; simp [h.next_ne_self]
    · simp [hx]
  · next hp =>
    -- a node without a parent stands in no list, so no link leads to it or from it
    have hn : t.next? c = none := h.next_eq_none hp
    split
    · next hx => rw [hx, hn]
    · split
      · next hx =>
        have := h.parent_of_next hx
        rw [hp] at this
        rw [h.next_eq_none this.symm] at hx
        cases hx
      · rfl

theorem prev?_detach : (t.detach c).prev? x =
    if x = c then none else if t.prev? x = some c then t.prev? c else t.prev? x := by
  unfold detach
  split
  · next p hp =>
    have hc := (h.mem_children p c).2 hp
    have hlt := lt_size_of_parent? hp
    have hnext : ∀ y, t.next? c = some y → y < t.size := fun y hy =>
      lt_size_of_parent? ((h.parent_of_next hy).trans hp)
    simp only [removeChild, hc, if_true]
    rw [prev?_link _ _ (by simpa using hnext), prev?_setParent, prev?_setNext,
      prev?_setPrev _ c x _ (by simpa using hlt)]
    simp only [prev?_setChildren, h.prev_iff]
    by_cases hx : x = c
    · subst hx; simp [h.next_ne_self]
    · simp [hx]
  · next hp =>
    -- a node without a parent stands in no list, so no link leads to it or from it
    have hn : t.next? c = none := h.next_eq_none hp
    split
    · next hx =>
      subst hx
      rw [h.prev_eq, hp]
      rfl
    · split
      · next hx => rw [h.prev_iff, hn] at hx; cases hx
      · rfl

theorem Linked.detach : Linked (t.detach c) where
  nodup p := by rw [children_detach c p h]; exact (h.nodup p).erase c
  mem_children p d := by
    rw [children_detach c p h, parent?_detach c d h, (h.nodup p).mem_erase_iff, h.mem_children]
    by_cases hd : d = c <;> simp [hd]
  next_eq d := by
    rw [next?_detach c d h, parent?_detach c d h]
    by_cases hd : d = c
    · simp [hd]
    · simp only [if_neg hd]
      cases hp : t.parent? d with
      | none => simp [h.next_eq_none hp]
      | some p =>
        rw [Option.bind_some, children_detach c p h, after_erase (h.nodup p) hd,
          h.next_of_parent hp]
        split
        · next hc =>
          have hpc : t.parent? c = some p := by
            rw [h.parent_of_next (c := d) (by rw [h.next_of_parent hp, hc]), hp]
          rw [h.next_of_parent hpc]
        · rfl
  prev_iff d e := by
    rw [next?_detach c d h, prev?_detach c e h]
    have hself := h.next_ne_self c
    have h1 := h.prev_iff d e
    have h2 := h.prev_iff c e
    have h3 := h.prev_iff d c
    grind

end Detach

/-! ## 4. Putting a node in -/

/-- `t'` is `t` with `q` as the parent of the node `c`; nothing else has another parent, and the
links agree again. -/
structure Moved (t t' : Tree) (c : NodeId) (q : Option NodeId) : Prop where
  linked : Linked t'
  size : t'.size = t.size
  data : ∀ x, t'.data? x = t.data? x
  parent : ∀ x, t'.parent? x = if x = c then q else t.parent? x

theorem moved_detach {t : Tree} (h : Linked t) (c : NodeId) : Moved t (t.detach c) c none :=
  ⟨h.detach c, size_detach c, fun x => data?_detach c x, fun x => parent?_detach c x h⟩

section Insert

variable {t t' : Tree} {p c r : NodeId} {l : List NodeId}

/-- A node without parent may be put anywhere into a child list, if its neighbours are told. -/
theorem Linked.insert (h : Linked t) (hc : t.parent? c = none) (hl : l.Nodup)
    (hmem : ∀ x, x ∈ l ↔ x = c ∨ x ∈ t.children p)
    (hch : ∀ x, t'.children x = if x = p then l else t.children x)
    (hpar : ∀ x, t'.parent? x = if x = c then some p else t.parent? x)
    (hnext : ∀ x, t'.next? x = if x ∈ l then after x l else t.next? x)
    (hprev : ∀ x d, t'.prev? d = some x ↔ t'.next? x = some d) : Linked t' where
  nodup x := by
    rw [hch]
    split
    · exact hl
    · exact h.nodup x
  mem_children x d := by
    rw [hch, hpar]
    have hx := h.mem_children x d
    split
    · next hp => subst hp; rw [hmem, hx]; by_cases hd : d = c <;> simp [hd]
    · next hp =>
      rw [hx]
      -- `c` has no links of its own, and the nodes of `l` have those of `l`
      by_cases hd : d = c
      · subst hd; simp [hc, Ne.symm hp]
      · simp [hd]
  next_eq d := by
    rw [hnext, hpar]
    by_cases hd : d = c
    · subst hd
      simp [(hmem d).2 (Or.inl rfl), hch]
    · simp only [hmem, hd, false_or, h.mem_children]
      cases hp : t.parent? d with
      | none => simp [h.next_eq_none hp]
      | some q =>
        by_cases hq : q = p
        · subst hq; simp [hch]
        · simp [hch, hq, h.next_of_parent hp]
  prev_iff := hprev

/-- A node without parent is nobody's neighbour. -/
theorem Linked.next_ne_of_parent (h : Linked t) (hc : t.parent? c = none) (x : NodeId) :
    t.next? x ≠ some c := by
  intro hx
  have hp := h.parent_of_next hx
  rw [hc] at hp
  rw [h.next_eq_none hp.symm] at hx
  cases hx

theorem Linked.prev_eq_none (h : Linked t) (hc : t.parent? c = none) : t.prev? c = none := by
  rw [h.prev_eq, hc]
  rfl

/-- The last child has no neighbour after it. -/
theorem Linked.next_of_lastChild (h : Linked t) (hl : t.lastChild? p = some c) :
    t.next? c = none := by
  have hc := (h.mem_children p c).1 (List.mem_of_getLast? hl)
  rw [h.next_of_parent hc]
  obtain ⟨l, hl⟩ := List.getLast?_eq_some_iff.1 hl
  have hnd := h.nodup p
  rw [hl] at hnd ⊢
  refine after_concat_self fun hc => ?_
  exact (List.nodup_append.1 hnd).2.2 c hc c (by simp) rfl

theorem Linked.lastChild_lt (h : Linked t) (hl : t.lastChild? p = some c) : c < t.size :=
  lt_size_of_parent? ((h.mem_children p c).1 (List.mem_of_getLast? hl))

/-! ### At the end -/

@[simp]
theorem size_appendChild : (t.appendChild p c).size = t.size := by
  simp only [appendChild]
  split <;> simp

@[simp]
theorem data?_appendChild (x : NodeId) : (t.appendChild p c).data? x = t.data? x := by
  simp only [appendChild]
  split <;> simp

theorem parent?_appendChild (h : Linked t) (hc : c < t.size) (x : NodeId) :
    (t.appendChild p c).parent? x = if x = c then some p else t.parent? x := by
  have hx : (t.appendChild p c).parent? x =
      if x = c then some p else (t.detach c).parent? x := by
    simp only [appendChild]
    split <;> simp [parent?_setParent, hc]
  rw [hx, parent?_detach c x h]
  by_cases hxc : x = c <;> simp [hxc]

theorem children_appendChild (hp : p < t.size) (x : NodeId) : (t.appendChild p c).children x =
    if x = p then (t.detach c).children p ++ [c] else (t.detach c).children x := by
  simp only [appendChild]
  split <;> simp [children_setChildren, hp]

theorem next?_appendChild (h : Linked t) (x : NodeId) : (t.appendChild p c).next? x =
    if (t.detach c).lastChild? p = some x then some c else (t.detach c).next? x := by
  simp only [appendChild]
  split
  · next last hlast =>
    have hlt := (h.detach c).lastChild_lt hlast
    rw [next?_link _ _ (by simpa using hlt), hlast]
    simp
  · next hlast => simp [hlast]

theorem prev?_appendChild (h : Linked t) (hc : c < t.size) (x : NodeId) :
    (t.appendChild p c).prev? x =
      if x = c then (t.detach c).lastChild? p else (t.detach c).prev? x := by
  simp only [appendChild]
  split
  · next last hlast =>
    rw [prev?_link _ _ (by simpa using hc), hlast]
    simp [eq_comm]
  · next hlast =>
    by_cases hx : x = c
    · subst hx; simp [hlast, prev?_detach x x h]
    · simp [hx]

theorem moved_appendChild (h : Linked t) (hp : p < t.size) (hc : c < t.size) :
    Moved t (t.appendChild p c) c (some p) := by
  -- `c` is taken out first, so wherever it was before, it is not in the list that it is put
  -- at the end of
  have h₁ := h.detach c
  have hpar₁ : (t.detach c).parent? c = none := by rw [parent?_detach c c h, if_pos rfl]
  have hnot : c ∉ (t.detach c).children p := by rw [h₁.mem_children, hpar₁]; simp
  have hmem : ∀ x, x ∈ (t.detach c).children p ++ [c] ↔ x = c ∨ x ∈ (t.detach c).children p := by
    intro x
    rw [List.mem_append, List.mem_singleton, or_comm]
  refine ⟨h₁.insert hpar₁ ?_ hmem (children_appendChild hp) ?_ ?_ ?_, size_appendChild,
    data?_appendChild, parent?_appendChild h hc⟩
  · exact List.concat_eq_append ▸ (h₁.nodup p).concat hnot
  · intro x
    rw [parent?_appendChild h hc, parent?_detach c x h]
    by_cases hx : x = c <;> simp [hx]
  · intro x
    rw [next?_appendChild h]
    simp only [lastChild?, hmem]
    by_cases hx : x = c
    · subst hx
      have hne : ((t.detach x).children p).getLast? ≠ some x := fun hl =>
        hnot (List.mem_of_getLast? hl)
      simp [after_concat_self hnot, hne, h₁.next_eq_none hpar₁]
    · rw [after_concat (h₁.nodup p) hnot hx]
      by_cases hm : x ∈ (t.detach c).children p
      · simp [hm, h₁.next_of_parent ((h₁.mem_children p x).1 hm)]
      · have hne : ((t.detach c).children p).getLast? ≠ some x := fun hl =>
          hm (List.mem_of_getLast? hl)
        simp [hm, hx, hne]
  · intro x d
    rw [next?_appendChild h, prev?_appendChild h hc]
    have hxd := h₁.prev_iff x d
    have hlast := h₁.next_of_lastChild (p := p) (c := x)
    have hne := h₁.next_ne_of_parent hpar₁ x
    grind

/-! ### Before a child -/

@[simp]
theorem size_insertBefore : (t.insertBefore p c r).size = t.size := by
  simp only [insertBefore]
  split
  · split <;> simp
  · simp

@[simp]
theorem data?_insertBefore (x : NodeId) : (t.insertBefore p c r).data? x = t.data? x := by
  simp only [insertBefore]
  split
  · split <;> simp
  · simp

theorem ne_of_mem_detach (h : Linked t) (hr : r ∈ (t.detach c).children p) : r ≠ c := by
  rintro rfl
  rw [(h.detach r).mem_children, parent?_detach r r h] at hr
  simp at hr

theorem lt_size_of_mem_detach (h : Linked t) (hr : r ∈ (t.detach c).children p) : r < t.size := by
  rw [(h.detach c).mem_children] at hr
  simpa using lt_size_of_parent? hr

theorem children_insertBefore (hr : r ∈ (t.detach c).children p) (hp : p < t.size) (x : NodeId) :
    (t.insertBefore p c r).children x =
      if x = p then insertedBefore c r ((t.detach c).children p) else (t.detach c).children x := by
  simp only [insertBefore, if_pos hr]
  split <;> simp [children_setChildren, hp]

theorem parent?_insertBefore (hc : c < t.size) (hr : r ∈ (t.detach c).children p) (x : NodeId) :
    (t.insertBefore p c r).parent? x =
      if x = c then some p else (t.detach c).parent? x := by
  simp only [insertBefore, if_pos hr]
  split <;> simp [parent?_setParent, hc]

theorem next?_insertBefore (h : Linked t) (hc : c < t.size) (hr : r ∈ (t.detach c).children p)
    (x : NodeId) : (t.insertBefore p c r).next? x =
      if x = c then some r else if (t.detach c).next? x = some r then some c
      else (t.detach c).next? x := by
  have h₁ := h.detach c
  have hself : (t.detach c).next? c ≠ some r := by simp [next?_detach c c h]
  simp only [insertBefore, if_pos hr]
  split
  · next q hq =>
    have hqr := (h₁.prev_iff q r).1 hq
    have hlt : q < t.size := by simpa using lt_size_of_next? hqr
    have hx : (t.detach c).next? x = some r ↔ x = q := by rw [← h₁.prev_iff, hq]; simp [eq_comm]
    rw [next?_setNext _ _ _ _ (by simpa using hlt)]
    simp only [next?_setPrev, next?_setNext, size_setPrev, size_setParent, size_setChildren,
      size_detach, hc, next?_setParent, next?_setChildren, hx]
    have hqc : q ≠ c := by rintro rfl; exact hself hqr
    by_cases hxq : x = q <;> simp [hxq, hqc]
  · next hq =>
    have hx : (t.detach c).next? x ≠ some r := by rw [Ne, ← h₁.prev_iff, hq]; simp
    simp [next?_setNext, hc, hx]

theorem prev?_insertBefore (h : Linked t) (hc : c < t.size) (hr : r ∈ (t.detach c).children p)
    (x : NodeId) : (t.insertBefore p c r).prev? x =
      if x = r then some c else if x = c then (t.detach c).prev? r else (t.detach c).prev? x := by
  have hrl := lt_size_of_mem_detach h hr
  simp only [insertBefore, if_pos hr]
  split <;> simp [prev?_setPrev, hc, hrl]

theorem moved_insertBefore_of_mem (h : Linked t) (hp : p < t.size) (hc : c < t.size)
    (hr : r ∈ (t.detach c).children p) : Moved t (t.insertBefore p c r) c (some p) := by
  -- `c` is taken out first, so wherever it was before, it is not in the list that it is put into
  have h₁ := h.detach c
  have hpar₁ : (t.detach c).parent? c = none := by rw [parent?_detach c c h, if_pos rfl]
  have hnot : c ∉ (t.detach c).children p := by rw [h₁.mem_children, hpar₁]; simp
  have hrc := ne_of_mem_detach h hr
  have hpar : ∀ x, (t.insertBefore p c r).parent? x = if x = c then some p else t.parent? x := by
    intro x
    rw [parent?_insertBefore hc hr, parent?_detach c x h]
    by_cases hx : x = c <;> simp [hx]
  refine ⟨h₁.insert hpar₁ (nodup_insertedBefore (h₁.nodup p) hnot hr)
    (fun x => mem_insertedBefore hr) (children_insertBefore hr hp)
    (parent?_insertBefore hc hr) ?_ ?_, size_insertBefore, data?_insertBefore, hpar⟩
  · intro x
    rw [next?_insertBefore h hc hr]
    simp only [mem_insertedBefore hr]
    by_cases hx : x = c
    · subst hx; simp [after_insertedBefore_self hnot hr]
    · rw [after_insertedBefore (h₁.nodup p) hnot hr hx]
      by_cases hm : x ∈ (t.detach c).children p
      · simp [hx, hm, h₁.next_of_parent ((h₁.mem_children p x).1 hm)]
      · have hne : (t.detach c).next? x ≠ some r := by
          intro hn
          rw [h₁.mem_children, ← h₁.parent_of_next hn, ← h₁.mem_children] at hm
          exact hm hr
        simp [hx, hm, hne]
  · intro x d
    rw [next?_insertBefore h hc hr, prev?_insertBefore h hc hr]
    have hxd := h₁.prev_iff x d
    have hxr := h₁.prev_iff x r
    have hne := h₁.next_ne_of_parent hpar₁ x
    have hnone := h₁.next_eq_none hpar₁
    grind

theorem moved_insertBefore (h : Linked t) (hp : p < t.size) (hc : c < t.size) :
    Moved t (t.insertBefore p c r) c (some p) := by
  by_cases hr : r ∈ (t.detach c).children p
  · exact moved_insertBefore_of_mem h hp hc hr
  · have happ : t.insertBefore p c r = (t.detach c).appendChild p c := by
      simp [insertBefore, hr]
    have hm := moved_appendChild (h.detach c) (p := p) (c := c) (by simpa using hp)
      (by simpa using hc)
    rw [happ]
    refine ⟨hm.linked, by simp, by simp, fun x => ?_⟩
    rw [hm.parent, parent?_detach c x h]
    by_cases hx : x = c <;> simp [hx]

theorem moved_insertAt (h : Linked t) (hp : p < t.size) (hc : c < t.size) (ref : Option NodeId) :
    Moved t (t.insertAt p ref c) c (some p) := by
  cases ref with
  | none => exact moved_appendChild h hp hc
  | some r => exact moved_insertBefore h hp hc

end Insert

/-! ## 5. Moving all children -/

/-- `t'` is `t` with all the nodes `cs` moved below `p`. -/
structure MovedAll (t t' : Tree) (cs : List NodeId) (p : NodeId) : Prop where
  linked : Linked t'
  size : t'.size = t.size
  data : ∀ x, t'.data? x = t.data? x
  parent : ∀ x, t'.parent? x = if x ∈ cs then some p else t.parent? x
  others : ∀ x, x ≠ p → (∀ c ∈ cs, c ∉ t.children x) → t'.children x = t.children x
  target : cs.Nodup → (∀ c ∈ cs, c ∉ t.children p) → t'.children p = t.children p ++ cs

theorem movedAll_foldl {t : Tree} {p : NodeId} {cs : List NodeId} (h : Linked t) (hp : p < t.size)
    (hcs : ∀ x ∈ cs, x < t.size) :
    MovedAll t (cs.foldl (fun t child => t.appendChild p child) t) cs p := by
  induction cs generalizing t with
  | nil =>
    exact ⟨h, rfl, fun _ => rfl, fun _ => rfl, fun _ _ _ => rfl,
      fun _ _ => (List.append_nil _).symm⟩
  | cons c cs ih =>
    -- each step puts one node behind those that were moved before it; the list of `p` is extended
    -- by `cs` only if no node of `cs` was in it
    have m := moved_appendChild h hp (hcs c (by simp))
    have hcs' : ∀ x ∈ cs, x < (t.appendChild p c).size := by
      intro x hx
      rw [m.size]
      exact hcs x (by simp [hx])
    have ih := ih m.linked (by rw [m.size]; exact hp) hcs'
    refine ⟨ih.linked, ih.size.trans m.size, fun x => (ih.data x).trans (m.data x), fun x => ?_,
      fun x hx hnot => ?_, fun hnodup hnot => ?_⟩
    · rw [List.foldl_cons, ih.parent, m.parent]
      by_cases hx : x ∈ cs <;> by_cases hc : x = c <;> simp [hx, hc]
    · obtain ⟨hc, hnot⟩ := List.forall_mem_cons.1 hnot
      have hsame : (t.appendChild p c).children x = t.children x := by
        rw [children_appendChild hp, if_neg hx, children_detach c x h, List.erase_of_not_mem hc]
      rw [List.foldl_cons, ih.others x hx (by simpa only [hsame] using hnot), hsame]
    · obtain ⟨hc, hnot⟩ := List.forall_mem_cons.1 hnot
      obtain ⟨hcs, hnodup⟩ := List.nodup_cons.1 hnodup
      have hsame : (t.appendChild p c).children p = t.children p ++ [c] := by
        rw [children_appendChild hp, if_pos rfl, children_detach c p h, List.erase_of_not_mem hc]
      have hnot' : ∀ d ∈ cs, d ∉ (t.appendChild p c).children p := by
        intro d hd hmem
        rw [hsame, List.mem_append, List.mem_singleton] at hmem
        rcases hmem with hmem | rfl
        · exact hnot d hd hmem
        · exact hcs hd
      rw [List.foldl_cons, ih.target hnodup hnot', hsame, List.append_assoc]
      rfl

theorem movedAll_moveChildren {t : Tree} {target : NodeId} (h : Linked t) (source : NodeId)
    (htarget : target < t.size) :
    MovedAll t (t.moveChildren source target) (t.children source) target :=
  movedAll_foldl h htarget fun x hx => lt_size_of_parent? ((h.mem_children source x).1 hx)

end Hypertext.Tree
