import Hypertext.Proofs.Dom.Attributes
import Hypertext.Proofs.TreeBuilder.Leaves

/-!
# The order of the active formatting elements

Elements have their entries in the order in which they were opened. The adoption agency relies on
it: it puts the entry of a new element where that of the innermost copy is, and this is behind
the same marker.
-/

namespace Hypertext

open Hypertext.Tree

/-! ## 1. Pairs in a stack -/

section Pairs

variable {S S' A B : List NodeId} {x y : NodeId}

theorem pair_sublist (hx : x ∈ A) (hy : y ∈ B) : [x, y].Sublist (A ++ B) :=
  (List.singleton_sublist.2 hx).append (List.singleton_sublist.2 hy)

theorem not_pair_sublist (hn : (A ++ B).Nodup) (hx : x ∈ A) (hy : y ∈ B) :
    ¬ [y, x].Sublist (A ++ B) := by
  intro h
  obtain ⟨r₁, r₂, hr, hy₁, hx₂⟩ := List.cons_sublist_iff.1 h
  have hx₂ := List.singleton_sublist.1 hx₂
  obtain ⟨c, rfl, rfl⟩ | ⟨c, rfl, rfl⟩ := List.append_eq_append_iff.1 hr
  · exact List.disjoint_of_nodup_append hn hx (List.mem_append_right _ hx₂)
  · exact List.disjoint_of_nodup_append hn (List.mem_append_left _ hy₁) hy

/-- The order of what is left in a stack does not change. -/
theorem pair_of_sublist (hn : S.Nodup) (hs : S'.Sublist S) (hx : x ∈ S') (hy : y ∈ S')
    (h : [y, x].Sublist S) : [y, x].Sublist S' := by
  obtain ⟨A, B, rfl⟩ := List.append_of_mem hy
  rcases List.mem_append.1 hx with hxA | hxB
  · exact absurd (h.trans (List.Sublist.refl S)) fun h => by
      obtain ⟨r₁, r₂, rfl, hx₁, hy₂⟩ := List.cons_sublist_iff.1
        ((pair_sublist hxA (List.mem_cons_self (l := B))).trans hs)
      exact not_pair_sublist hn hx₁ (List.singleton_sublist.1 hy₂) h
  · rcases List.mem_cons.1 hxB with rfl | hxB
    · exact absurd (h.nodup hn) (by simp)
    · exact (pair_sublist (List.mem_singleton_self y) hxB).trans
        (List.sublist_append_right A (y :: B))

/-- Two places in a list. -/
theorem cut_cases {α : Type} {l₁ l₂ f₁ f₂ : List α} {a c : α} (h : l₁ ++ a :: l₂ = f₁ ++ c :: f₂) :
    (l₁ = f₁ ∧ a = c ∧ l₂ = f₂) ∨ (∃ m, l₁ = f₁ ++ c :: m ∧ f₂ = m ++ a :: l₂) ∨
      ∃ m, f₁ = l₁ ++ a :: m ∧ l₂ = m ++ c :: f₂ := by
  obtain ⟨m, rfl, hm⟩ | ⟨m, rfl, hm⟩ := List.append_eq_append_iff.1 h
  · cases m with
    | nil =>
      obtain ⟨rfl, rfl⟩ := List.cons.inj hm
      exact Or.inl ⟨by simp, rfl, rfl⟩
    | cons d m =>
      obtain ⟨rfl, rfl⟩ := List.cons.inj hm
      exact Or.inr (Or.inr ⟨m, rfl, rfl⟩)
  · cases m with
    | nil =>
      obtain ⟨rfl, rfl⟩ := List.cons.inj hm
      exact Or.inl ⟨by simp, rfl, rfl⟩
    | cons d m =>
      obtain ⟨rfl, rfl⟩ := List.cons.inj hm
      exact Or.inr (Or.inl ⟨m, rfl, rfl⟩)

theorem exists_cut_getElem? {α : Type} {l : List α} {i : Nat} {a : α} (h : l[i]? = some a) :
    ∃ l₁ l₂, l = l₁ ++ a :: l₂ ∧ l₁.length = i := by
  obtain ⟨hlt, rfl⟩ := List.getElem?_eq_some_iff.1 h
  exact ⟨l.take i, l.drop (i + 1), by rw [List.getElem_cons_drop, List.take_append_drop],
    List.length_take_of_le (Nat.le_of_lt hlt)⟩

end Pairs

/-! ## 2. Entries -/

namespace FormattingEntry

def tag? : FormattingEntry → Option Tag
  | .marker => none
  | .element _ tag => some tag

end FormattingEntry

/-- The elements that have an entry. -/
def entryIds (entries : List FormattingEntry) : List NodeId := entries.filterMap (·.id?)

section Entries

variable {entries entries' l l' : List FormattingEntry} {S S' A B : List NodeId} {x y id : NodeId}
  {tag : Tag}

@[simp]
theorem entryIds_nil : entryIds [] = [] := rfl

@[simp]
theorem entryIds_append : entryIds (l ++ l') = entryIds l ++ entryIds l' := List.filterMap_append ..

@[simp]
theorem entryIds_element : entryIds (.element id tag :: l) = id :: entryIds l := rfl

@[simp]
theorem entryIds_marker : entryIds (.marker :: l) = entryIds l := rfl

theorem mem_entryIds : x ∈ entryIds entries ↔ ∃ tag, .element x tag ∈ entries := by
  rw [entryIds, List.mem_filterMap]
  constructor
  · rintro ⟨e, he, hx⟩
    cases e with
    | marker => cases hx
    | element id tag =>
      cases hx
      exact ⟨tag, he⟩
  · rintro ⟨tag, he⟩
    exact ⟨_, he, rfl⟩

theorem nodup_entryIds_element : (entryIds (l ++ .element id tag :: l')).Nodup ↔
    id ∉ entryIds (l ++ l') ∧ (entryIds (l ++ l')).Nodup := by
  rw [entryIds_append, entryIds_element, List.nodup_middle, List.nodup_cons, ← entryIds_append]

/-- An element has one entry. -/
theorem entry_unique {tag' : Tag} {f f' : List FormattingEntry}
    (hn : (entryIds (l ++ .element x tag :: l')).Nodup)
    (h : l ++ .element x tag :: l' = f ++ .element x tag' :: f') :
    l = f ∧ tag = tag' ∧ l' = f' := by
  obtain ⟨rfl, heq, rfl⟩ | ⟨m, rfl, rfl⟩ | ⟨m, rfl, rfl⟩ := cut_cases h
  · cases heq
    exact ⟨rfl, rfl, rfl⟩
  · simp [List.nodup_append] at hn
  · simp [List.nodup_append] at hn

/-- The open elements that have an entry are in order: an earlier entry is for an outer element. -/
def InOrder (S : List NodeId) (entries : List FormattingEntry) : Prop :=
  (entryIds entries).Pairwise fun x y => x ∈ S → y ∈ S → [y, x].Sublist S

namespace InOrder

theorem sublist (h : InOrder S entries) (hs : entries'.Sublist entries) : InOrder S entries' :=
  List.Pairwise.sublist (hs.filterMap _) h

theorem stack (h : InOrder S entries) (hn : S.Nodup) (hs : S'.Sublist S) : InOrder S' entries :=
  h.imp fun hxy hx hy => pair_of_sublist hn hs hx hy (hxy (hs.subset hx) (hs.subset hy))

/-- An element without an entry is no matter. -/
theorem push (h : InOrder S entries) (hx : x ∉ entryIds entries) : InOrder (x :: S) entries := by
  refine h.imp_of_mem fun {y z} hy hz hyz hyS hzS => ?_
  have hne : ∀ {w}, w ∈ entryIds entries → w ∈ x :: S → w ∈ S := fun hw hwS =>
    (List.mem_cons.1 hwS).resolve_left fun he => hx (he ▸ hw)
  exact (hyz (hne hy hyS) (hne hz hzS)).cons x

/-- A new element goes in where its entry goes. -/
theorem insert (h : InOrder (A ++ B) (l ++ l')) (hid : id ∉ entryIds (l ++ l'))
    (hl : ∀ y ∈ entryIds l, y ∉ A) (hl' : ∀ y ∈ entryIds l', y ∉ B) (tag : Tag) :
    InOrder (A ++ id :: B) (l ++ .element id tag :: l') := by
  have hsub : (A ++ B).Sublist (A ++ id :: B) :=
    (List.Sublist.refl A).append (List.sublist_cons_self id B)
  have hold : ∀ {w}, w ∈ entryIds (l ++ l') → w ∈ A ++ id :: B → w ∈ A ++ B := by
    intro w hw hwS
    have hne : w ≠ id := fun he => hid (he ▸ hw)
    simpa [hne] using hwS
  have hkeep : InOrder (A ++ id :: B) (l ++ l') := h.imp_of_mem fun hy hz hyz hyS hzS =>
    (hyz (hold hy hyS) (hold hz hzS)).trans hsub
  unfold InOrder at hkeep ⊢
  rw [entryIds_append, List.pairwise_append] at hkeep ⊢
  obtain ⟨hpl, hpl', hcross⟩ := hkeep
  rw [entryIds_element]
  refine ⟨hpl, List.pairwise_cons.2 ⟨fun y hy _ hyS => ?_, hpl'⟩, fun y hy z hz => ?_⟩
  · have hyS := hold (by simp [hy]) hyS
    have hyA := (List.mem_append.1 hyS).resolve_right (hl' y hy)
    exact pair_sublist hyA (List.mem_cons_self ..)
  · rcases List.mem_cons.1 hz with rfl | hz
    · intro hyS _
      have hyS := hold (by simp [hy]) hyS
      have hyB := (List.mem_append.1 hyS).resolve_left (hl y hy)
      exact (pair_sublist (List.mem_singleton_self z) hyB).trans (List.sublist_append_right A _)
    · exact hcross y hy z hz

variable (hn : (A ++ B).Nodup)
include hn

/-- No inner element has an earlier entry. -/
theorem not_mem_inner (h : InOrder (A ++ B) (l ++ .element x tag :: l')) (hx : x ∈ B) :
    ∀ y ∈ entryIds l, y ∉ A := by
  intro y hy hyA
  unfold InOrder at h
  rw [entryIds_append, entryIds_element] at h
  have hxy := (List.pairwise_append.1 h).2.2 y hy x (List.mem_cons_self ..)
  exact not_pair_sublist hn hyA hx
    (hxy (List.mem_append_left _ hyA) (List.mem_append_right _ hx))

/-- No outer element has a later entry. -/
theorem not_mem_outer (h : InOrder (A ++ B) (l ++ .element x tag :: l')) (hx : x ∈ A) :
    ∀ y ∈ entryIds l', y ∉ B := by
  intro y hy hyB
  unfold InOrder at h
  rw [entryIds_append, entryIds_element] at h
  have hxy := (List.pairwise_cons.1 (List.pairwise_append.1 h).2.1).1 y hy
  exact not_pair_sublist hn hx hyB
    (hxy (List.mem_append_left _ hx) (List.mem_append_right _ hyB))

omit hn in
/-- An element and its entry are replaced. -/
theorem replace {node : NodeId} {tag' : Tag} (hn : (A ++ node :: B).Nodup)
    (h : InOrder (A ++ node :: B) (l ++ .element node tag' :: l'))
    (hid : id ∉ entryIds (l ++ l')) (tag : Tag) :
    InOrder (A ++ id :: B) (l ++ .element id tag :: l') := by
  have hinner := h.not_mem_inner hn (List.mem_cons_self ..)
  have houter : ∀ y ∈ entryIds l', y ∉ B := by
    have hcut : A ++ node :: B = (A ++ [node]) ++ B := by simp
    rw [hcut] at h hn
    exact h.not_mem_outer hn (by simp)
  refine insert ?_ hid hinner houter tag
  exact (InOrder.sublist h ((List.Sublist.refl l).append (List.sublist_cons_self _ _))).stack hn
    ((List.Sublist.refl A).append (List.sublist_cons_self _ _))

end InOrder

/-! ## 3. What entries are made of -/

/-- The element that is made for a tag of HTML. -/
def Tag.made (tag : Tag) : Element :=
  { tagName := tag.name, attributes := TreeBuilder.attributesOf tag.attributes }

/-- Every entry is for an element that was made for its tag. -/
def Made (t : Tree) (entries : List FormattingEntry) : Prop :=
  ∀ id tag, .element id tag ∈ entries → t.element? id = some tag.made

theorem element?_createElement (t : Tree) {tag : Tag} (hname : tag.name ≠ "template") :
    (TreeBuilder.createElement t tag.name tag.attributes .html).2.element?
      (TreeBuilder.createElement t tag.name tag.attributes .html).1 = some tag.made :=
  TreeBuilder.element?_createElement_of_ne t tag.attributes fun heq => hname (Prod.ext_iff.1 heq).2

theorem Made.subset {t : Tree} (h : Made t entries) (hs : entries' ⊆ entries) : Made t entries' :=
  fun id tag hm => h id tag (hs hm)

theorem Made.keeps {t t' : Tree} (h : Made t entries)
    (hk : ∀ x e, t.element? x = some e → t'.element? x = some e) : Made t' entries :=
  fun id tag hm => hk id _ (h id tag hm)

theorem Made.insert {t : Tree} (h : Made t (l ++ l')) (hnew : t.element? id = some tag.made) :
    Made t (l ++ .element id tag :: l') := by
  intro x tag' hmem
  rcases List.mem_append.1 hmem with hmem | hmem
  · exact h x tag' (List.mem_append_left _ hmem)
  · rcases List.mem_cons.1 hmem with heq | hmem
    · cases heq
      exact hnew
    · exact h x tag' (List.mem_append_right _ hmem)

/-- An element that is not yet in the tree has no entry. -/
theorem Made.not_mem {t : Tree} (h : Made t entries) (hfresh : t.size ≤ id) :
    id ∉ entryIds entries := by
  intro hmem
  obtain ⟨tag, hmem⟩ := mem_entryIds.1 hmem
  exact absurd (lt_size_of_element? (h id tag hmem)) (Nat.not_lt.2 hfresh)

end Entries

/-! ## 4. The walk of the adoption agency -/

namespace TreeBuilder

variable {b b' : TreeBuilder}

theorem exists_entry_cut {id : NodeId} {i : Nat} (h : b.formattingIndex? id = some i) :
    ∃ l₁ l₂ tag, b.formatting = l₁ ++ .element id tag :: l₂ ∧ l₁.length = i := by
  obtain ⟨tag, htag⟩ := exists_entry h
  obtain ⟨l₁, l₂, heq, hlength⟩ := exists_cut_getElem? htag
  exact ⟨l₁, l₂, tag, heq, hlength⟩

/-- The entries are for different elements, which were made for their tags, and in order. -/
structure Listed (b : TreeBuilder) : Prop where
  nodup : (entryIds b.formatting).Nodup
  order : InOrder b.openElements b.formatting
  made : Made b.tree b.formatting

/-- What the walk from a block to the formatting element `element` does to the list: the entries
`pre` stay as they are, those of `tail` become fewer. The bookmark stands at the formatting element,
or behind the copy that was made first. -/
structure Walk.Listed (pre tail : List FormattingEntry) (block element : NodeId)
    (copies : List NodeId) (w : Walk) : Prop where
  opened : ∀ x ∈ w.builder.openElements, x < w.builder.tree.size
  unique : w.builder.openElements.Nodup
  nodup : (entryIds w.builder.formatting).Nodup
  order : InOrder w.builder.openElements w.builder.formatting
  made : Made w.builder.tree w.builder.formatting
  tail : ∃ rest, w.builder.formatting = pre ++ rest ∧
    (rest.map (·.tag?)).Sublist (tail.map (·.tag?)) ∧ element ∈ entryIds rest
  anchor : ∃ l₁ l₂ id tag, w.builder.formatting = l₁ ++ .element id tag :: l₂ ∧
    (copies = [] ∧ id = element ∧ w.bookmark = l₁.length ∧ w.lastNode = block ∨
      copies.head? = some id ∧ w.bookmark = l₁.length + 1 ∧ w.lastNode ≠ block)

theorem eraseIdx_length {α : Type} (l₁ l₂ : List α) (a : α) :
    (l₁ ++ a :: l₂).eraseIdx l₁.length = l₁ ++ l₂ := by
  simp [List.eraseIdx_append_of_length_le]

theorem set_length {α : Type} (l₁ l₂ : List α) (a c : α) :
    (l₁ ++ a :: l₂).set l₁.length c = l₁ ++ c :: l₂ := by
  simp

/-- What has an entry before one in the tail, or has none after it, has it in the tail. -/
theorem exists_tail_cut {pre tail f₁ f₂ : List FormattingEntry} {node element : NodeId} {tag : Tag}
    (h : pre ++ tail = f₁ ++ .element node tag :: f₂) (hmem : element ∈ entryIds tail)
    (hne : element ≠ node) (hlater : element ∉ entryIds f₂) :
    ∃ mid, f₁ = pre ++ mid ∧ tail = mid ++ .element node tag :: f₂ ∧ element ∈ entryIds mid := by
  obtain ⟨mid, rfl, hmid⟩ | ⟨c, rfl, hc⟩ := List.append_eq_append_iff.1 h
  · refine ⟨mid, rfl, hmid, ?_⟩
    rw [hmid, entryIds_append, entryIds_element] at hmem
    simpa [hne, hlater] using hmem
  · cases c with
    | nil =>
      rw [List.nil_append] at hc
      rw [← hc, entryIds_element] at hmem
      exact absurd hmem (by simp [hne, hlater])
    | cons e c =>
      obtain ⟨-, rfl⟩ := List.cons.inj hc
      exact absurd (by simp [hmem]) hlater

section Climbs

variable {deeper between copies rest outer : List NodeId} {block node element : NodeId}
  {w w₀ : Walk} {pre tail f₁ f₂ : List FormattingEntry} {tag : Tag}

/-- The entry of a node that is visited comes after that of the formatting element. -/
theorem Walk.Listed.later (h : Walk.Listed pre tail block element copies w)
    (hs : Walk.Sound b deeper block copies (node :: rest) (element :: outer) w)
    (hf : w.builder.formatting = f₁ ++ .element node tag :: f₂) :
    node ≠ element ∧ element ∉ entryIds f₂ := by
  have hn := h.unique
  have horder := h.order
  have hstack : w.builder.openElements =
      (deeper ++ block :: copies ++ node :: rest) ++ element :: outer := by simp [hs.stack]
  rw [hstack] at hn horder
  rw [hf] at horder
  have hmem : node ∈ deeper ++ block :: copies ++ node :: rest := by simp
  refine ⟨?_, fun hmem' => horder.not_mem_outer hn hmem element hmem' (List.mem_cons_self ..)⟩
  rintro rfl
  exact List.disjoint_of_nodup_append hn hmem (List.mem_cons_self ..)

/-- What stands before the entry of a node that is visited goes on after the entries that stay. -/
theorem Walk.Listed.exists_mid (h : Walk.Listed pre tail block element copies w)
    (hs : Walk.Sound b deeper block copies (node :: rest) (element :: outer) w)
    (hf : w.builder.formatting = f₁ ++ .element node tag :: f₂) :
    ∃ mid, f₁ = pre ++ mid ∧ element ∈ entryIds mid ∧
      ((mid ++ .element node tag :: f₂).map (·.tag?)).Sublist (tail.map (·.tag?)) := by
  obtain ⟨hne, hlater⟩ := h.later hs hf
  obtain ⟨rest', hrest, htags, hmem⟩ := h.tail
  obtain ⟨mid, rfl, rfl, hmid⟩ := exists_tail_cut (hrest.symm.trans hf) hmem (Ne.symm hne) hlater
  exact ⟨mid, rfl, hmid, htags⟩

/-- The bookmark does not stand at a node that is still to be visited, but before or
after its entry. -/
theorem Walk.Listed.anchor_cases (h : Walk.Listed pre tail block element copies w)
    (hs : Walk.Sound b deeper block copies (node :: rest) (element :: outer) w)
    (hf : w.builder.formatting = f₁ ++ .element node tag :: f₂) :
    ∃ l₁ l₂ id tag', ((∃ m, l₁ = f₁ ++ .element node tag :: m ∧ f₂ = m ++ .element id tag' :: l₂) ∨
        ∃ m, f₁ = l₁ ++ .element id tag' :: m ∧ l₂ = m ++ .element node tag :: f₂) ∧
      (copies = [] ∧ id = element ∧ w.bookmark = l₁.length ∧ w.lastNode = block ∨
        copies.head? = some id ∧ w.bookmark = l₁.length + 1 ∧ w.lastNode ≠ block) := by
  have hn := h.unique
  rw [hs.stack] at hn
  obtain ⟨l₁, l₂, id, tag', hl, hcase⟩ := h.anchor
  refine ⟨l₁, l₂, id, tag', (cut_cases (hl.symm.trans hf)).resolve_left ?_, hcase⟩
  rintro ⟨-, heq, -⟩
  cases heq
  obtain ⟨-, rfl, -⟩ | ⟨hhead, -⟩ := hcase
  · have hn' := (List.nodup_append.1 hn).2.1
    simp at hn'
  · have hmem := List.mem_of_mem_head? hhead
    exact List.disjoint_of_nodup_append (a := node) hn (by simp [hmem]) (by simp)

/-- The bookmark moves down if it is behind the entry that goes. -/
theorem Walk.Listed.forget {i : Nat} (h : Walk.Listed pre tail block element copies w)
    (hs : Walk.Sound b deeper block copies (node :: rest) (element :: outer) w)
    (hi : w.builder.formattingIndex? node = some i) :
    Walk.Listed pre tail block element copies { w with
      builder := { w.builder with formatting := w.builder.formatting.eraseIdx i }
      bookmark := if i < w.bookmark then w.bookmark - 1 else w.bookmark } := by
  obtain ⟨f₁, f₂, tag, hf, rfl⟩ := exists_entry_cut hi
  have hsub : (f₁ ++ f₂).Sublist w.builder.formatting := by
    rw [hf]
    exact (List.Sublist.refl _).append (List.sublist_cons_self _ _)
  have herase : w.builder.formatting.eraseIdx f₁.length = f₁ ++ f₂ := by
    rw [hf, eraseIdx_length]
  simp only [herase]
  refine ⟨h.opened, h.unique, h.nodup.sublist (hsub.filterMap _), h.order.sublist hsub,
    h.made.subset hsub.subset, ?_, ?_⟩
  · obtain ⟨mid, rfl, hmid, htags⟩ := h.exists_mid hs hf
    refine ⟨mid ++ f₂, by simp, List.Sublist.trans ?_ htags, by simp [hmid]⟩
    exact ((List.Sublist.refl _).append (List.sublist_cons_self _ _)).map _
  · -- the anchor of the bookmark is behind the entry that goes, or before it
    obtain ⟨l₁, l₂, id, tag', ⟨m, rfl, rfl⟩ | ⟨m, rfl, rfl⟩, hcase⟩ := h.anchor_cases hs hf
    · simp only [List.length_append, List.length_cons] at hcase ⊢
      refine ⟨f₁ ++ m, l₂, id, tag', by simp, hcase.imp ?_ ?_⟩
      · rintro ⟨hc, hid, hb, hlast⟩
        refine ⟨hc, hid, ?_, hlast⟩
        rw [if_pos (by omega), List.length_append]
        omega
      · rintro ⟨hc, hb, hlast⟩
        refine ⟨hc, ?_, hlast⟩
        rw [if_pos (by omega), List.length_append]
        omega
    · simp only [List.length_append, List.length_cons] at hcase ⊢
      refine ⟨l₁, m ++ f₂, id, tag', by simp, hcase.imp ?_ ?_⟩
      · rintro ⟨hc, hid, hb, hlast⟩
        exact ⟨hc, hid, by rw [if_neg (by omega), hb], hlast⟩
      · rintro ⟨hc, hb, hlast⟩
        exact ⟨hc, by rw [if_neg (by omega), hb], hlast⟩

theorem Walk.Listed.close (h : Walk.Listed pre tail block element copies w)
    (hs : Walk.Sound b deeper block copies (node :: rest) (element :: outer) w) :
    Walk.Listed pre tail block element copies { w with
      builder := { w.builder with
        openElements := (deeper ++ block :: copies) ++ (rest ++ element :: outer) } } := by
  have hsub : (deeper ++ block :: copies ++ (rest ++ element :: outer)).Sublist
      w.builder.openElements := by
    rw [hs.stack]
    exact (List.Sublist.refl _).append (List.sublist_cons_self _ _)
  exact ⟨fun x hx => h.opened x (hsub.subset hx), h.unique.sublist hsub, h.nodup,
    h.order.stack h.unique hsub, h.made, h.tail, h.anchor⟩

/-- A new element and its entry take the places of a node and its entry. The bookmark is behind the
entry if this is the first copy, and stays where it is after that. -/
theorem Walk.Listed.exchange {id : NodeId} {t : Tree}
    (h : Walk.Listed pre tail block element copies w)
    (hs : Walk.Sound b deeper block copies (node :: rest) (element :: outer) w)
    (hf : w.builder.formatting = f₁ ++ .element node tag :: f₂)
    (hfresh : w.builder.tree.size ≤ id) (hid : id < t.size)
    (hold : ∀ x e, w.builder.tree.element? x = some e → t.element? x = some e)
    (hmade : t.element? id = some tag.made) :
    Walk.Listed pre tail block element (copies ++ [id]) {
      builder := { w.builder with
        tree := t
        formatting := f₁ ++ .element id tag :: f₂
        openElements := (deeper ++ block :: (copies ++ [id])) ++ (rest ++ element :: outer) }
      bookmark := if w.lastNode = block then f₁.length + 1 else w.bookmark
      lastNode := id } := by
  have hstack := hs.stack
  have hunopened : id ∉ w.builder.openElements := fun hmem =>
    absurd (h.opened id hmem) (Nat.not_lt.2 hfresh)
  have hrest : Made w.builder.tree (f₁ ++ f₂) := h.made.subset <| by
    rw [hf]
    exact ((List.Sublist.refl _).append (List.sublist_cons_self _ _)).subset
  have hunlisted : id ∉ entryIds (f₁ ++ f₂) := hrest.not_mem hfresh
  -- the stack with the new element in the place of the node
  have hcut : deeper ++ block :: (copies ++ [id]) ++ (rest ++ element :: outer) =
      (deeper ++ block :: copies) ++ id :: (rest ++ element :: outer) := by simp
  rw [List.cons_append] at hstack
  have hn := h.unique
  have horder := h.order
  rw [hstack] at hn hunopened horder
  rw [hf] at horder
  simp only [hcut]
  refine ⟨fun x hx => ?_, ?_, ?_, horder.replace hn hunlisted tag, ?_, ?_, ?_⟩
  · obtain rfl | hx := List.mem_cons.1 (List.perm_middle.mem_iff.1 hx)
    · exact hid
    · have hx : x ∈ w.builder.openElements := by
        rw [hstack]
        exact List.perm_middle.mem_iff.2 (List.mem_cons_of_mem _ hx)
      exact Nat.lt_of_lt_of_le (h.opened x hx) (Nat.le_trans hfresh (Nat.le_of_lt hid))
  · rw [List.nodup_middle, List.nodup_cons] at hn ⊢
    exact ⟨fun hmem => hunopened (List.perm_middle.mem_iff.2 (List.mem_cons_of_mem _ hmem)), hn.2⟩
  · exact nodup_entryIds_element.2 ⟨hunlisted, (nodup_entryIds_element.1 (hf ▸ h.nodup)).2⟩
  · exact (hrest.keeps hold).insert hmade
  · obtain ⟨mid, rfl, hmid, htags⟩ := h.exists_mid hs hf
    exact ⟨mid ++ .element id tag :: f₂, by simp,
      by simpa [FormattingEntry.tag?] using htags, by simp [hmid]⟩
  · have hblock : id ≠ block := by
      rintro rfl
      exact hunopened (by simp)
    obtain ⟨l₁, l₂, id', tag', hplace, hcase⟩ := h.anchor_cases hs hf
    obtain ⟨rfl, -, -, hlast⟩ | ⟨hhead, hb, hlast⟩ := hcase
    · exact ⟨f₁, f₂, id, tag, rfl, Or.inr ⟨rfl, if_pos hlast, hblock⟩⟩
    · have hhead' : (copies ++ [id]).head? = some id' := by
        rw [List.head?_append, hhead]
        rfl
      obtain ⟨m, rfl, rfl⟩ | ⟨m, rfl, rfl⟩ := hplace
      · exact ⟨f₁ ++ .element id tag :: m, l₂, id', tag', by simp,
          Or.inr ⟨hhead', by simp [if_neg hlast, hb], hblock⟩⟩
      · exact ⟨l₁, m ++ .element id tag :: f₂, id', tag', by simp,
          Or.inr ⟨hhead', by simp [if_neg hlast, hb], hblock⟩⟩

theorem Walk.Listed.copy {id : NodeId} {i : Nat} {t : Tree}
    (h : Walk.Listed pre tail block element copies w)
    (hs : Walk.Sound b deeper block copies (node :: rest) (element :: outer) w)
    (hi : w.builder.formattingIndex? node = some i)
    (htag : w.builder.formatting[i]? = some (.element node tag))
    (hnew : createElement w.builder.tree tag.name tag.attributes .html = (id, t)) :
    Walk.Listed pre tail block element (copies ++ [id]) {
      builder := { w.builder with
        tree := t.appendChild id w.lastNode
        formatting := w.builder.formatting.set i (.element id tag)
        openElements := (deeper ++ block :: (copies ++ [id])) ++ (rest ++ element :: outer) }
      bookmark := if w.lastNode = block then i + 1 else w.bookmark
      lastNode := id } := by
  obtain ⟨f₁, f₂, tag', hf, rfl⟩ := exists_entry_cut hi
  obtain rfl : tag' = tag := by
    rw [hf] at htag
    simpa using htag
  have hformatting := (hs.named node tag' (by simp [hf])).1
  obtain ⟨g, m⟩ := hs.carried.moved_copy hnew
  have hmade := element?_createElement w.builder.tree (not_html_of_formatting hformatting).2.2
  rw [hnew] at hmade
  have hset : w.builder.formatting.set f₁.length (.element id tag') =
      f₁ ++ .element id tag' :: f₂ := by
    rw [hf, set_length]
  simp only [hset]
  refine h.exchange hs hf g.fresh (by rw [m.size]; exact g.lt) (fun x e he => ?_) ?_
  · rw [element?_congr (m.data x), element?_congr (g.data x (lt_size_of_element? he)), he]
  · rw [element?_congr (m.data _)]
    exact hmade

theorem Climbs.listed (c : Climbs deeper block (element :: outer) w₀ between copies rest w)
    (h : Walk.Sound b deeper block [] between (element :: outer) w₀)
    (h₀ : Walk.Listed pre tail block element [] w₀) :
    Walk.Listed pre tail block element copies w := by
  induction c with
  | start => exact h₀
  | forget c hi ih => exact ih.forget (c.sound h) hi
  | close c _ ih => exact ih.close (c.sound h)
  | copy c hi htag hnew ih => exact ih.copy (c.sound h) hi htag hnew

end Climbs

/-! ## 5. A round of the agency -/

theorem insertIdx_length {α : Type} (l₁ l₂ : List α) (a : α) :
    (l₁ ++ l₂).insertIdx l₁.length a = l₁ ++ a :: l₂ := by
  induction l₁ with
  | nil => rfl
  | cons c l₁ ih => simp [ih]

theorem not_special_of_formatting : ∀ name ∈ Category.formatting,
    name ∉ Category.specialHtml := by decide

/-- A special element has no entry. -/
theorem not_mem_entryIds_of_special {t : Tree} {entries : List FormattingEntry} {x : NodeId}
    (h : Named t entries) {e : Element} (he : t.label? x = some (e.ns, e.tagName))
    (hs : Category.isSpecial e = true) : x ∉ entryIds entries := by
  intro hx
  obtain ⟨tag, hmem⟩ := mem_entryIds.1 hx
  obtain ⟨hname, hl⟩ := h x tag hmem
  rw [he] at hl
  obtain ⟨hns, htag⟩ := Prod.mk.inj (Option.some.inj hl)
  rw [Category.isSpecial, hns] at hs
  exact not_special_of_formatting _ hname (htag ▸ List.contains_iff_mem.1 hs)

section Wrapped

variable {deeper copies outer : List NodeId} {block element : NodeId} {w : Walk}
  {pre tail : List FormattingEntry} {tag : Tag}

/-- Behind the entry of the first copy stand no entries of elements that are outside the block, and
before it none of inner ones. -/
theorem Walk.Listed.sides_of_copy {f₁ m l₂ : List FormattingEntry} {id : NodeId}
    {more : List NodeId} {tag' : Tag} (h : Walk.Listed pre tail block element (id :: more) w)
    (hstack : w.builder.openElements = deeper ++ block :: (id :: more ++ element :: outer))
    (hblock : block ∉ entryIds w.builder.formatting)
    (hl : w.builder.formatting = f₁ ++ .element element tag :: m ++ .element id tag' :: l₂) :
    (∀ y ∈ entryIds (f₁ ++ (m ++ [.element id tag'])), y ∉ deeper) ∧
      ∀ y ∈ entryIds l₂, y ∉ block :: (id :: more ++ outer) := by
  have hnodup := h.nodup
  rw [hl] at hnodup hblock
  constructor
  · have hn := h.unique
    have horder := h.order
    -- the entries stand in the order of the stack, so those before the entry of the copy are not of
    -- deeper elements
    have hcut : w.builder.openElements =
        (deeper ++ [block]) ++ id :: (more ++ element :: outer) := by simp [hstack]
    rw [hcut] at horder hn
    rw [hl] at horder
    have hinner := horder.not_mem_inner hn (List.mem_cons_self ..)
    simp only [entryIds_append, entryIds_element, entryIds_nil, List.mem_append, List.mem_cons,
      List.not_mem_nil, or_false] at hinner ⊢
    intro y hy hy'
    obtain hy | hy | rfl := hy
    · exact hinner y (Or.inl hy) (Or.inl hy')
    · exact hinner y (Or.inr (Or.inr hy)) (Or.inl hy')
    · exact List.disjoint_of_nodup_append hn (List.mem_append_left _ hy') (List.mem_cons_self ..)
  · intro y hy
    have hn := h.unique
    have horder := h.order
    -- those behind the entry of the copy are not of outer elements
    have hcut : w.builder.openElements = (deeper ++ [block, id]) ++ (more ++ element :: outer) := by
      simp [hstack]
    rw [hcut] at horder hn
    rw [hl] at horder
    have houter := horder.not_mem_outer hn (by simp) y hy
    have hneBlock : y ≠ block := by
      rintro rfl
      exact hblock (by simp [hy])
    have hneCopy : y ≠ id := by
      rintro rfl
      simp [List.nodup_append, hy] at hnodup
    simp only [List.mem_append, List.mem_cons, not_or] at houter
    simp [hneBlock, hneCopy, houter]

/-- Where the new entry goes: the bookmark has been moved past `m₂`, which ends with the entry of
the first copy if there is one. What comes before is for no inner element, and what comes after is
for no outer one. -/
theorem Walk.Listed.shape {f₁ f₂ : List FormattingEntry}
    (h : Walk.Listed pre tail block element copies w)
    (hstack : w.builder.openElements = deeper ++ block :: (copies ++ element :: outer))
    (hblock : block ∉ entryIds w.builder.formatting)
    (hf : w.builder.formatting = f₁ ++ .element element tag :: f₂) :
    ∃ m₂ l₂, f₂ = m₂ ++ l₂ ∧
      (if f₁.length < w.bookmark then w.bookmark - 1 else w.bookmark) = (f₁ ++ m₂).length ∧
      (∀ y ∈ entryIds (f₁ ++ m₂), y ∉ deeper) ∧
      (∀ y ∈ entryIds l₂, y ∉ block :: (copies ++ outer)) ∧ (copies = [] ∧ m₂ = [] ∨
        ∃ m id tag, copies.head? = some id ∧ m₂ = m ++ [.element id tag]) := by
  have hn := h.unique
  have hnodup := h.nodup
  -- the stack is cut in front of the formatting element
  have hcut : w.builder.openElements = (deeper ++ block :: copies) ++ element :: outer := by
    simp [hstack]
  have hbefore : ∀ y ∈ entryIds f₁, y ∉ deeper ++ block :: copies := by
    have horder := h.order
    rw [hcut, hf] at horder
    exact horder.not_mem_inner (hcut ▸ hn) (List.mem_cons_self ..)
  obtain ⟨l₁, l₂, id, tag', hl, ⟨rfl, rfl, hb, -⟩ | ⟨hhead, hb, -⟩⟩ := h.anchor
  · -- nothing has been copied, and the bookmark stands at the formatting element
    obtain ⟨rfl, -, rfl⟩ := entry_unique (hl ▸ hnodup) (hl.symm.trans hf)
    have hafter : ∀ y ∈ entryIds l₂, y ∉ outer := by
      have horder := h.order
      have hcut' : w.builder.openElements = (deeper ++ [block, id]) ++ outer := by simp [hstack]
      rw [hcut', hl] at horder
      exact horder.not_mem_outer (hcut' ▸ hn) (by simp)
    refine ⟨[], l₂, rfl, by simp [hb], fun y hy => ?_, fun y hy => ?_, Or.inl ⟨rfl, rfl⟩⟩
    · rw [List.append_nil] at hy
      exact fun hy' => hbefore y hy (List.mem_append_left _ hy')
    · have hne : y ≠ block := by
        rintro rfl
        exact hblock (by simp [hl, hy])
      simpa [hne] using hafter y hy
  · obtain ⟨more, rfl⟩ : ∃ more, copies = id :: more := by
      cases copies with
      | nil => cases hhead
      | cons c copies =>
        cases hhead
        exact ⟨copies, rfl⟩
    obtain ⟨rfl, heq, rfl⟩ | ⟨m, rfl, rfl⟩ | ⟨m, rfl, rfl⟩ := cut_cases (hl.symm.trans hf)
    · -- the first copy is not the formatting element
      cases heq
      rw [hstack] at hn
      simp [List.nodup_append] at hn
    · -- the bookmark stands behind the first copy
      obtain ⟨hinner, houter⟩ := h.sides_of_copy hstack hblock hl
      refine ⟨m ++ [FormattingEntry.element id tag'], l₂, by simp, ?_, hinner, houter,
        Or.inr ⟨m, id, tag', rfl, rfl⟩⟩
      have hbehind : f₁.length < w.bookmark := by
        rw [hb, List.length_append]
        exact Nat.lt_succ_of_le (Nat.le_add_right _ _)
      rw [if_pos hbehind, hb]
      simp
    · -- the entry of an inner element does not come first
      exact (hbefore id (by simp) (by simp)).elim

end Wrapped

theorem Carriable.listed {deeper between outer : List NodeId} {block element : NodeId}
    {pre tail : List FormattingEntry} (h : Carriable b deeper block between element outer)
    (hb : Listed b) (hf : b.formatting = pre ++ tail) (hmem : element ∈ entryIds tail) :
    Walk.Listed pre tail block element [] ⟨b, (b.formattingIndex? element).getD 0, block⟩ := by
  obtain ⟨tag, htag⟩ := mem_entryIds.1 (show element ∈ entryIds b.formatting by simp [hf, hmem])
  obtain ⟨i, hi⟩ := formattingIndex?_isSome htag
  obtain ⟨l₁, l₂, tag, hl, rfl⟩ := exists_entry_cut hi
  exact ⟨fun x hx => h.planted.lt hx, h.planted.nodup, hb.nodup, hb.order, hb.made,
    ⟨tail, hf, List.Sublist.refl _, hmem⟩,
    l₁, l₂, element, tag, hl, Or.inl ⟨rfl, rfl, by rw [hi]; rfl, rfl⟩⟩

/-- What a round does to the list once the walk is over: the entry of the formatting element goes,
and that of its copy comes after `m₂`. -/
theorem Hoists.entries {r : AgencyRound} (h : Hoists b b' r) (hb : Listed b)
    (hmem : r.element ∈ entryIds b.formatting) :
    ∃ f₁ m₂ l₂, r.walk.builder.formatting = f₁ ++ .element r.element r.tag :: (m₂ ++ l₂) ∧
      b'.formatting = (f₁ ++ m₂) ++ .element r.copy r.tag :: l₂ ∧
      (∀ y ∈ entryIds (f₁ ++ m₂), y ∉ r.deeper) ∧
      (∀ y ∈ entryIds l₂, y ∉ r.block :: (r.copies ++ r.outer)) ∧
      (r.copies = [] ∧ m₂ = [] ∨
        ∃ m id tag, r.copies.head? = some id ∧ m₂ = m ++ [.element id tag]) := by
  have hs := h.carriable.sound h.climbs
  have w := h.climbs.listed (h.carriable.start _)
    (h.carriable.listed hb (List.nil_append _).symm hmem)
  have hstack : r.walk.builder.openElements =
      r.deeper ++ r.block :: (r.copies ++ r.element :: r.outer) := by simp [hs.stack]
  -- the entry of the formatting element at the end of the walk
  obtain ⟨f₁, f₂, tag, hcut, hlength⟩ := exists_entry_cut h.index
  obtain rfl : tag = r.tag := by
    have htag := h.entry
    rw [hcut, ← hlength] at htag
    simpa using htag
  have hblock : r.block ∉ entryIds r.walk.builder.formatting := by
    obtain ⟨e, he, hspecial⟩ := (Option.any_eq_true _ _).1 h.carriable.special
    exact not_mem_entryIds_of_special hs.named (hs.keeps _ _ (by rw [label?, he]; rfl)) hspecial
  obtain ⟨m₂, l₂, rfl, hbookmark, hinner, houter, hcopy⟩ := w.shape hstack hblock hcut
  refine ⟨f₁, m₂, l₂, hcut, ?_, hinner, houter, hcopy⟩
  have herase : r.walk.builder.formatting.eraseIdx f₁.length = (f₁ ++ m₂) ++ l₂ := by
    rw [hcut, eraseIdx_length, List.append_assoc]
  rw [h.result]
  simp only [Walk.wrapped, Walk.putDown, ← hlength, hbookmark, herase]
  rw [Nat.min_eq_left (by simp), insertIdx_length]

/-- A round replaces entries behind the last entries that it finds, and adds none. -/
theorem Hoists.listed {r : AgencyRound} {pre tail : List FormattingEntry} (h : Hoists b b' r)
    (hb : Listed b) (hf : b.formatting = pre ++ tail) (hmem : r.element ∈ entryIds tail) :
    Listed b' ∧ ∃ tail', b'.formatting = pre ++ tail' ∧
      (tail'.map (·.tag?)).Subperm (tail.map (·.tag?)) := by
  have hs := h.carriable.sound h.climbs
  have w := h.climbs.listed (h.carriable.start _) (h.carriable.listed hb hf hmem)
  have hstack : r.walk.builder.openElements =
      r.deeper ++ r.block :: (r.copies ++ r.element :: r.outer) := by simp [hs.stack]
  obtain ⟨f₁, m₂, l₂, hcut, hresult, hinner, houter, -⟩ := h.entries hb (by simp [hf, hmem])
  -- elements are made, moved and never changed
  have hshifted := h.carriable.shifted h.climbs
  have hformatting : r.tag.name ∈ Category.formatting :=
    (hs.named r.element r.tag (by simp [hcut])).1
  have g := h.grown_copy
  have hmade := element?_createElement (r.walk.putDown r.outer).builder.tree
    (not_html_of_formatting hformatting).2.2
  rw [h.created] at hmade
  have hdata : ∀ x, b'.tree.element? x = r.grown.element? x := fun x => by
    rw [h.tree_eq]
    exact element?_congr ((data?_appendChild _).trans
      ((movedAll_moveChildren g.linked _ g.lt).data x))
  have hkeep : ∀ x e, r.walk.builder.tree.element? x = some e → b'.tree.element? x = some e := by
    intro x e he
    have hput := (element?_congr (hshifted.data x)).trans he
    rw [hdata, element?_congr (g.data x (lt_size_of_element? hput)), hput]
  have hsub : ((f₁ ++ m₂) ++ l₂).Sublist r.walk.builder.formatting := by
    rw [hcut, List.append_assoc]
    exact (List.Sublist.refl _).append (List.sublist_cons_self _ _)
  have hrest : Made r.walk.builder.tree ((f₁ ++ m₂) ++ l₂) := w.made.subset hsub.subset
  have hfresh : r.copy ∉ entryIds ((f₁ ++ m₂) ++ l₂) := by
    refine hrest.not_mem ?_
    rw [← hshifted.size]
    exact g.fresh
  refine ⟨⟨?_, ?_, ?_⟩, ?_⟩
  · rw [hresult]
    exact nodup_entryIds_element.2 ⟨hfresh, w.nodup.sublist (hsub.filterMap _)⟩
  · have hclosed :
        (r.deeper ++ r.block :: (r.copies ++ r.outer)).Sublist r.walk.builder.openElements := by
      rw [hstack]
      exact (List.Sublist.refl _).append
        (((List.Sublist.refl _).append (List.sublist_cons_self _ _)).cons_cons _)
    rw [h.stack, hresult]
    exact InOrder.insert ((w.order.sublist hsub).stack w.unique hclosed) hfresh hinner houter _
  · rw [hresult]
    exact (hrest.keeps hkeep).insert ((hdata _).trans hmade)
  · obtain ⟨rest, hrest, htags, hmem⟩ := w.tail
    -- the formatting element has its entry in the tail, so what is before the tail stays as it is
    obtain ⟨mid, rfl, rfl⟩ : ∃ mid, f₁ = pre ++ mid ∧
        rest = mid ++ .element r.element r.tag :: (m₂ ++ l₂) := by
      have hnodup := w.nodup
      rw [hrest, entryIds_append] at hnodup
      obtain ⟨mid, rfl, hmid⟩ | ⟨c, rfl, hc⟩ := List.append_eq_append_iff.1 (hrest.symm.trans hcut)
      · exact ⟨mid, rfl, hmid⟩
      · cases c with
        | nil => exact ⟨[], by simp, by simpa using hc.symm⟩
        | cons e c =>
          obtain ⟨rfl, -⟩ := List.cons.inj hc
          exact absurd hmem (List.disjoint_of_nodup_append hnodup (by simp))
    refine ⟨(mid ++ m₂) ++ .element r.copy r.tag :: l₂, by simp [hresult], ?_⟩
    refine List.Subperm.trans (List.Perm.subperm ?_) htags.subperm
    simp only [List.map_append, List.map_cons, FormattingEntry.tag?, List.append_assoc]
    exact List.perm_middle.append_left _

end TreeBuilder

end Hypertext
