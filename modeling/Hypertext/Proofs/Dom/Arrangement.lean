import Hypertext.Proofs.Dom.Changes
import Hypertext.Proofs.Dom.Reading
import Mathlib.Logic.Function.Basic

/-!
# Trees as lists of children

In a tree whose links agree, all of them follow from the lists of children. Each change of such a
tree is an operation on these lists, and touches no other list and no data. This holds whatever
nodes of the tree it is given: a node may be put under itself, and next to where it was.
-/

namespace Hypertext.Tree

open Function (update)

/-! ## 1. What is left without a node -/

/-- The children of `x` if `c` is taken out of its parent. -/
def without (t : Tree) (c x : NodeId) : List NodeId :=
  if t.parent? c = some x then (t.children x).erase c else t.children x

/-- The tree has these data and these lists of children, and its links agree with them. -/
structure Arranged (t : Tree) (size : Nat) (data : NodeId → Option NodeData)
    (lists : NodeId → List NodeId) : Prop where
  linked : Linked t
  size : t.size = size
  data : ∀ x, t.data? x = data x
  children : ∀ x, t.children x = lists x

variable {t t' : Tree} {p c r x : NodeId} {l front back : List NodeId}

theorem Linked.without_eq (h : Linked t) (c x : NodeId) :
    t.without c x = (t.children x).erase c := by
  unfold without
  split
  · rfl
  · next hp => rw [List.erase_of_not_mem (mt (h.mem_children x c).1 hp)]

theorem Linked.children_detach_eq (h : Linked t) (c x : NodeId) :
    (t.detach c).children x = t.without c x := by
  rw [children_detach c x h, h.without_eq]

theorem Linked.mem_without (h : Linked t) : r ∈ t.without c p ↔ r ∈ t.children p ∧ r ≠ c := by
  rw [h.without_eq, (h.nodup p).mem_erase_iff]
  exact And.comm

/-- A child stands at one place only. -/
theorem Linked.not_mem_of_children (h : Linked t) (hl : t.children p = front ++ r :: back) :
    r ∉ front ∧ r ∉ back := by
  have hnodup := h.nodup p
  rw [hl, List.nodup_middle, List.nodup_cons, List.mem_append, not_or] at hnodup
  exact hnodup.1

/-- A move is known by where the node goes and what the lists are then. -/
theorem Moved.arranged {q : Option NodeId} {lists : NodeId → List NodeId} (m : Moved t t' c q)
    (hlists : ∀ x, t'.children x = lists x) : t'.Arranged t.size t.data? lists :=
  ⟨m.linked, m.size, m.data, hlists⟩

/-! ## 2. One node -/

theorem arranged_appendChild (h : Linked t) (hp : p < t.size) (hc : c < t.size) :
    (t.appendChild p c).Arranged t.size t.data?
      (update (t.without c) p (t.without c p ++ [c])) := by
  refine (moved_appendChild h hp hc).arranged fun x => ?_
  simp only [children_appendChild hp, h.children_detach_eq]
  by_cases hx : x = p
  · rw [if_pos hx, hx, Function.update_self]
  · rw [if_neg hx, Function.update_of_ne hx]

/-- A node that is put before another one comes directly before it. -/
theorem insertedBefore_append (hr : r ∉ front) (c : NodeId) (back : List NodeId) :
    insertedBefore c r (front ++ r :: back) = front ++ c :: r :: back := by
  induction front with
  | nil => rw [List.nil_append, insertedBefore, if_pos rfl, List.nil_append]
  | cons a front ih =>
    obtain ⟨ha, hr⟩ := not_or.1 (List.mem_cons.not.1 hr)
    rw [List.cons_append, insertedBefore, if_neg (Ne.symm ha), ih hr, List.cons_append]

theorem arranged_insertBefore (h : Linked t) (hp : p < t.size) (hc : c < t.size)
    (hr : r ∈ t.children p) (hne : r ≠ c) : ∃ front back, t.without c p = front ++ r :: back ∧
      (t.insertBefore p c r).Arranged t.size t.data?
        (update (t.without c) p (front ++ c :: r :: back)) := by
  have hmem : r ∈ t.without c p := h.mem_without.2 ⟨hr, hne⟩
  obtain ⟨front, back, hl, hfront⟩ := List.eq_append_cons_of_mem hmem
  refine ⟨front, back, hl, (moved_insertBefore h hp hc).arranged fun x => ?_⟩
  have hmem' : r ∈ (t.detach c).children p := h.children_detach_eq c p ▸ hmem
  simp only [children_insertBefore hmem' hp, h.children_detach_eq]
  by_cases hx : x = p
  · rw [if_pos hx, hx, Function.update_self, hl, insertedBefore_append hfront]
  · rw [if_neg hx, Function.update_of_ne hx]

/-- A node that has been taken out cannot be taken out again. -/
theorem Linked.detach_detach (h : Linked t) (c : NodeId) : (t.detach c).detach c = t.detach c := by
  have hnone : (t.detach c).parent? c = none := by rw [parent?_detach c c h, if_pos rfl]
  rw [Tree.detach, hnone]

/-- Before a node that is no other child of the parent there is no place, and the end is taken. -/
theorem Linked.insertBefore_eq_appendChild (h : Linked t) (hr : r ∉ t.children p ∨ r = c) :
    t.insertBefore p c r = t.appendChild p c := by
  have hnot : r ∉ (t.detach c).children p := by
    rw [h.children_detach_eq, h.mem_without]
    rintro ⟨hmem, hne⟩
    exact hr.elim (fun hr => hr hmem) hne
  have happ : t.insertBefore p c r = (t.detach c).appendChild p c := by simp [insertBefore, hnot]
  rw [happ, appendChild, appendChild, h.detach_detach]

theorem arranged_removeChild (h : Linked t) (hc : c ∈ t.children p) :
    (t.removeChild p c).Arranged t.size t.data? (t.without c) := by
  have hdetach : t.removeChild p c = t.detach c := by rw [detach, (h.mem_children p c).1 hc]
  rw [hdetach]
  exact (moved_detach h c).arranged fun x => h.children_detach_eq c x

theorem removeChild_of_not_mem (hc : c ∉ t.children p) : t.removeChild p c = t := if_neg hc

/-! ## 3. All children of a node -/

theorem arranged_moveChildren {source target : NodeId} (h : Linked t) (htarget : target < t.size)
    (hne : target ≠ source) :
    (t.moveChildren source target).Arranged t.size t.data?
      (update (update t.children source []) target (t.children target ++ t.children source)) := by
  have m := movedAll_moveChildren h source htarget
  -- a child of the source is no child of another node
  have hother : ∀ y, y ≠ source → ∀ d ∈ t.children source, d ∉ t.children y := by
    intro y hy d hd hdy
    rw [h.mem_children] at hd hdy
    exact hy (Option.some.inj (hdy.symm.trans hd))
  refine ⟨m.linked, m.size, m.data, fun x => ?_⟩
  by_cases hx : x = target
  · rw [hx, Function.update_self]
    exact m.target (h.nodup source) (hother target hne)
  rw [Function.update_of_ne hx]
  by_cases hs : x = source
  · rw [hs, Function.update_self]
    -- every old child has another parent, and no other node has got this one
    refine List.eq_nil_iff_forall_not_mem.2 fun d hd => ?_
    rw [m.linked.mem_children, m.parent] at hd
    split at hd
    · exact hne (Option.some.inj hd)
    · next hd' => exact hd' ((h.mem_children source d).2 hd)
  · rw [Function.update_of_ne hs]
    exact m.others x hx (hother x hs)

/-! ## 4. Text -/

/-- The children of `p` in front of a place and those behind it. The place is before a child of `p`,
or at the end if no child is given. -/
structure Gap (t : Tree) (p : NodeId) (place : Option NodeId) (front back : List NodeId) :
    Prop where
  children : t.children p = front ++ back
  back : back.head? = place.filter (· ∈ t.children p)

variable {place : Option NodeId}

theorem exists_gap (t : Tree) (p : NodeId) (place : Option NodeId) :
    ∃ front back, t.Gap p place front back := by
  cases hb : place.filter (· ∈ t.children p) with
  | none => exact ⟨t.children p, [], (List.append_nil _).symm, hb.symm⟩
  | some r =>
    have hr : r ∈ t.children p := of_decide_eq_true (Option.filter_eq_some_iff.1 hb).2
    obtain ⟨front, back, hl⟩ := List.append_of_mem hr
    exact ⟨front, r :: back, hl, hb.symm⟩

namespace Gap

variable (g : t.Gap p place front back) (h : Linked t)
include g

/-- The place is before a child, or behind all of them. -/
theorem cases : (∃ r rest, place = some r ∧ t.children p = front ++ r :: rest ∧ back = r :: rest) ∨
    (∀ r, place = some r → r ∉ t.children p) ∧ back = [] ∧ t.children p = front := by
  have hback := g.back
  cases hb : back with
  | nil =>
    rw [hb] at hback
    refine Or.inr ⟨fun r hr hmem => ?_, rfl, ?_⟩
    · rw [hr, Option.filter_some, if_pos (decide_eq_true hmem)] at hback
      cases hback
    · rw [g.children, hb, List.append_nil]
  | cons r rest =>
    rw [hb] at hback
    exact Or.inl ⟨r, rest, (Option.filter_eq_some_iff.1 hback.symm).1, hb ▸ g.children, rfl⟩

include h

/-- What stands directly before the place is the last node in front of it. -/
theorem preceding?_eq : t.preceding? p place = front.getLast? := by
  obtain ⟨r, rest, hplace, hl, -⟩ | ⟨hplace, -, hl⟩ := g.cases
  · have hr : r ∈ t.children p := by rw [hl]; simp
    have hparent : t.parent? r = some p := (h.mem_children p r).1 hr
    rw [hplace, preceding?, if_pos hparent, h.prev_of_children hl]
  · cases hp : place with
    | none => rw [preceding?, lastChild?, hl]
    | some r =>
      rw [preceding?, if_neg (mt (h.mem_children p r).2 (hplace r hp)), lastChild?, hl]

/-- A node without parent goes into the gap. -/
theorem arranged_insertAt (hp : p < t.size) (hc : c < t.size) (hnone : t.parent? c = none) :
    (t.insertAt p place c).Arranged t.size t.data? (update t.children p (front ++ c :: back)) := by
  have hwithout : t.without c = t.children := funext fun x => by
    rw [without, hnone, if_neg (by simp)]
  obtain ⟨r, rest, hplace, hl, hback⟩ | ⟨hplace, hback, hl⟩ := g.cases
  · have hr : r ∈ t.children p := by rw [hl]; simp
    have hne : r ≠ c := by
      rintro rfl
      rw [h.mem_children, hnone] at hr
      cases hr
    obtain ⟨front', back', hl', harranged⟩ := arranged_insertBefore h hp hc hr hne
    -- the child stands at one place only
    rw [hwithout] at hl' harranged
    obtain ⟨hfront, hrest⟩ := h.not_mem_of_children hl
    obtain ⟨rfl, -, rfl⟩ := (List.append_cons_inj_of_notMem hfront hrest).1 (hl.symm.trans hl')
    rw [hplace, hback]
    exact harranged
  · have happ : t.insertAt p place c = t.appendChild p c := by
      cases hp' : place with
      | none => rfl
      | some r => exact h.insertBefore_eq_appendChild (Or.inl (hplace r hp'))
    have harranged := arranged_appendChild h hp hc
    rw [hwithout, hl] at harranged
    rw [happ, hback]
    exact harranged

end Gap

/-- The text of a node is extended. -/
theorem arranged_setText (h : Linked t) {old : String} (hx : t.text? x = some old) (new : String) :
    (t.setData x (.text new)).Arranged t.size (update t.data? x (some (.text new))) t.children := by
  refine ⟨h.modify x (keepsLinks_setData _), size_modify .., fun y => ?_, fun y => ?_⟩
  · obtain ⟨n, hn⟩ := exists_get? t x (lt_size_of_data? (text?_eq_some.1 hx))
    rw [Function.update_apply, setData, data?, get?_modify]
    by_cases hy : y = x
    · rw [if_pos hy.symm, if_pos hy, hy, hn]
      rfl
    · rw [if_neg (Ne.symm hy), if_neg hy, data?]
  · rw [setData, children_eq, children_eq,
      map_get?_modify _ _ _ _ _ (keepsLinks_setData _).children]

/-- A new node for a text hangs nowhere until it is put into the gap. -/
theorem Gap.arranged_newText (g : t.Gap p place front back) (h : Linked t)
    (hp : p < t.size) (text : String) :
    ((t.alloc (.text text)).2.insertAt p place t.size).Arranged (t.size + 1)
      (update t.data? t.size (some (.text text)))
        (update t.children p (front ++ t.size :: back)) := by
  have hp' : p < (t.alloc (.text text)).2.size := Nat.lt_of_lt_of_le hp (by simp)
  have hid : t.size < (t.alloc (.text text)).2.size := by simp
  have hnone : (t.alloc (.text text)).2.parent? t.size = none := by
    rw [parent?_alloc, parent?_eq_none t t.size (Nat.le_refl _)]
  have g' : (t.alloc (.text text)).2.Gap p place front back :=
    ⟨(children_alloc ..).trans g.children, by rw [g.back, children_alloc]⟩
  have harranged := g'.arranged_insertAt (h.alloc _) hp' hid hnone
  refine ⟨harranged.linked, harranged.size.trans (size_alloc ..), fun x => ?_, fun x => ?_⟩
  · rw [harranged.data, data?_alloc, Function.update_apply]
  · rw [harranged.children, Function.update_apply, Function.update_apply, children_alloc]

/-- What is to become of a tree when text is inserted between these children: the last text in
front of the place takes it in, and if there is none directly before the place, there is a new
node for it. -/
inductive TextInserted (t : Tree) (p : NodeId) (front back : List NodeId) (text : String) :
    NodeId → Tree → Prop
  | extended {id : NodeId} {old : String} {t' : Tree} (hlast : front.getLast? = some id)
      (hold : t.data? id = some (.text old))
      (h : t'.Arranged t.size (update t.data? id (some (.text (old ++ text)))) t.children) :
      TextInserted t p front back text id t'
  | added {t' : Tree} (hlast : ∀ id old, front.getLast? = some id → t.data? id ≠ some (.text old))
      (h : t'.Arranged (t.size + 1) (update t.data? t.size (some (.text text)))
        (update t.children p (front ++ t.size :: back))) :
      TextInserted t p front back text t.size t'

theorem textInserted_insertText (h : Linked t) (hp : p < t.size) (g : t.Gap p place front back)
    (text : String) :
    t.TextInserted p front back text (t.insertText p place text).1
      (t.insertText p place text).2 := by
  have hpreceding := g.preceding?_eq h
  have hnew := g.arranged_newText h hp text
  -- only if a text node comes right before the place is no new one made
  cases hlast : front.getLast? with
  | none =>
    have heq : t.insertText p place text =
        (t.size, (t.alloc (.text text)).2.insertAt p place t.size) := by
      simp only [insertText, hpreceding, hlast]
      rfl
    rw [heq]
    exact .added (by simp [hlast]) hnew
  | some id =>
    cases htext : t.text? id with
    | none =>
      have heq : t.insertText p place text =
          (t.size, (t.alloc (.text text)).2.insertAt p place t.size) := by
        simp only [insertText, hpreceding, hlast, htext]
        rfl
      rw [heq]
      refine .added (fun id' old hid hdata => ?_) hnew
      rw [hlast] at hid
      cases hid
      rw [text?_eq_some.2 hdata] at htext
      cases htext
    | some old =>
      have heq : t.insertText p place text = (id, t.setData id (.text (old ++ text))) := by
        simp only [insertText, hpreceding, hlast, htext]
      rw [heq]
      exact .extended hlast (text?_eq_some.1 htext) (arranged_setText h htext _)

/-! ## 5. Every change -/

/-- In a tree whose links agree every change of nodes of the tree is made, and is one of lists. A
node that is put under another one leaves the list it was in and comes last, or directly before
another child; removed, it just leaves its list. All children of a node follow those of another one,
in order. Text goes into the text node directly before its place, or else into a new node at its
place. No other list changes, and no other data. -/
theorem arranged_of_linked (h : Linked t) :
    (∀ p c, p < t.size → c < t.size → ∃ t', t.appendChild? p c = some t' ∧
      t'.Arranged t.size t.data? (update (t.without c) p (t.without c p ++ [c]))) ∧
    (∀ p c r, p < t.size → c < t.size →
      (r ∈ t.children p ∧ r ≠ c → ∃ t' front back, t.insertBefore? p c r = some t' ∧
        t.without c p = front ++ r :: back ∧
        t'.Arranged t.size t.data? (update (t.without c) p (front ++ c :: r :: back))) ∧
      (r ∉ t.children p ∨ r = c → t.insertBefore? p c r = t.appendChild? p c)) ∧
    (∀ p c, p < t.size → ∃ t', t.removeChild? p c = some t' ∧
      (c ∈ t.children p → t'.Arranged t.size t.data? (t.without c)) ∧ (c ∉ t.children p → t' = t)) ∧
    (∀ source target, source < t.size → target < t.size → target ≠ source →
      ∃ t', t.moveChildren? source target = some t' ∧ t'.Arranged t.size t.data?
        (update (update t.children source []) target (t.children target ++ t.children source))) ∧
    (∀ p place text, p < t.size → ∃ front back id t', t.Gap p place front back ∧
      t.insertText? p place text = some (id, t') ∧ t.TextInserted p front back text id t') := by
  refine ⟨fun p c hp hc => ?_, fun p c r hp hc => ⟨fun ⟨hr, hne⟩ => ?_, fun hr => ?_⟩,
    fun p c hp => ?_, fun source target hs ht hne => ?_, fun p place text hp => ?_⟩
  · exact ⟨_, appendChild?_eq h hp hc, arranged_appendChild h hp hc⟩
  · obtain ⟨front, back, hl, harranged⟩ := arranged_insertBefore h hp hc hr hne
    exact ⟨_, front, back, insertBefore?_eq h hp hc r, hl, harranged⟩
  · rw [insertBefore?_eq h hp hc r, appendChild?_eq h hp hc, h.insertBefore_eq_appendChild hr]
  · exact ⟨_, removeChild?_eq h hp c, arranged_removeChild h, removeChild_of_not_mem⟩
  · exact ⟨_, moveChildren?_eq h hs ht, arranged_moveChildren h ht hne⟩
  · obtain ⟨front, back, g⟩ := exists_gap t p place
    exact ⟨front, back, _, _, g, insertText?_eq h hp place text,
      textInserted_insertText h hp g text⟩

/-- Three siblings. -/
def siblings : List Change :=
  [.alloc .fragment, .alloc .fragment, .alloc .fragment, .append 0 1, .append 0 2, .append 0 3]

/-- The first of three siblings is put before the third, which shifts the places in the list. -/
theorem arranged_siblings :
    ∃ t t', Tree.empty.makeAll? siblings = some t ∧ t.Linked ∧ 0 < t.size ∧ 1 < t.size ∧
    t.insertBefore? 0 1 3 = some t' ∧ t'.Linked ∧ t'.children 0 = [2, 1, 3] ∧
    t'.children 3 = [] := by
  have hr : InRange .empty siblings := by decide
  obtain ⟨t, ht, hg⟩ := Grounded.empty.changes hr
  have hread : (Tree.empty.makeAll? siblings).map
      (fun t => (t.size, t.children 0, t.children 3, t.without 1 0, t.without 1 3)) =
        some (4, [1, 2, 3], [], [2, 3], []) := by decide
  rw [ht] at hread
  simp only [Option.map_some, Option.some.injEq, Prod.mk.injEq] at hread
  obtain ⟨hsize, hchildren, hbelow, hwithout, hwithout'⟩ := hread
  have h0 : 0 < t.size := by omega
  have h1 : 1 < t.size := by omega
  obtain ⟨t', front, back, hinsert, hl, harranged⟩ :=
    ((arranged_of_linked hg.linked).2.1 0 1 3 h0 h1).1 ⟨by simp [hchildren], by decide⟩
  -- one sibling is left in front of the third
  have hcut : [2] = front ∧ 3 = 3 ∧ [] = back := by
    have hfront : 3 ∉ [2] := by decide
    have hback : 3 ∉ ([] : List NodeId) := by decide
    exact (List.append_cons_inj_of_notMem hfront hback).1 (hwithout.symm.trans hl)
  refine ⟨t, t', ht, hg.linked, h0, h1, hinsert, harranged.linked, ?_, ?_⟩
  · rw [harranged.children, Function.update_self, ← hcut.1, ← hcut.2.2]
    rfl
  · rw [harranged.children, Function.update_of_ne (by decide), hwithout']

end Hypertext.Tree
