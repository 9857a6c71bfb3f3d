import Hypertext.Proofs.TreeBuilder.Entries

/-!
# Stretches between markers

Markers cut the list of active formatting elements into stretches, and at most three elements of a
stretch are alike. New entries come into the last stretch only.
-/

namespace Hypertext

open Hypertext.Tree

/-! ## 1. Tags of like elements -/

namespace Tag

/-- Elements that are made for these tags are alike. -/
def kin (s t : Tag) : Bool := TreeBuilder.alike s.made t.made

variable {s t : Tag}

theorem kin_iff :
    s.kin t = true ↔ s.name = t.name ∧ ∀ name, s.attribute? name = t.attribute? name := by
  have hsame := Attributes.sameAs_iff (TreeBuilder.nodup_attributesOf s.attributes)
    (TreeBuilder.nodup_attributesOf t.attributes)
  simp only [TreeBuilder.get?_attributesOf] at hsame
  simp [kin, TreeBuilder.alike, made, hsame]

theorem kin_congr (h : s.kin t = true) : s.kin = t.kin := by
  obtain ⟨hname, hattributes⟩ := kin_iff.1 h
  funext u
  rw [Bool.eq_iff_iff, kin_iff, kin_iff, hname]
  simp only [hattributes]

end Tag

/-! ## 2. At most three -/

/-- How many of these tags are like `tag`. -/
def kindred (tag : Tag) (tags : List (Option Tag)) : Nat := tags.countP (·.any tag.kin)

theorem kindred_insert (tag tag' : Tag) (l l' : List (Option Tag)) :
    kindred tag' (l ++ some tag :: l') =
      kindred tag' (l ++ l') + if tag'.kin tag then 1 else 0 := by
  simp only [kindred, List.countP_append, List.countP_cons, Option.any_some, Nat.add_assoc]

/-- No four tags of a stretch without a marker are alike. -/
def Ark (tags : List (Option Tag)) : Prop :=
  ∀ stretch, stretch <:+: tags → none ∉ stretch → ∀ tag, kindred tag stretch ≤ 3

namespace Ark

variable {l l₁ l₂ pre tail : List (Option Tag)} {tag : Tag}

theorem mono (h : Ark l₂) (hs : l₁ <:+: l₂) : Ark l₁ := fun _ h' => h _ (h'.trans hs)

theorem erase (h : Ark (l₁ ++ some tag :: l₂)) : Ark (l₁ ++ l₂) := by
  intro stretch hs hnone tag'
  have hright : l₂ <:+: l₁ ++ some tag :: l₂ := ⟨l₁ ++ [some tag], [], by simp⟩
  obtain hs | hs | ⟨m₁, m₂, rfl, h₁, h₂⟩ := List.infix_append_iff.1 hs
  · exact h _ (hs.trans (List.prefix_append ..).isInfix) hnone tag'
  · exact h _ (hs.trans hright) hnone tag'
  · -- the stretch grows together with the one that is beyond the entry
    have hs : m₁ ++ some tag :: m₂ <:+: l₁ ++ some tag :: l₂ :=
      List.infix_append_iff.2 (Or.inr (Or.inr
        ⟨m₁, some tag :: m₂, rfl, h₁, List.cons_prefix_cons.2 ⟨rfl, h₂⟩⟩))
    refine Nat.le_trans ?_ (h _ hs (by simpa using hnone) tag')
    exact ((List.Sublist.refl m₁).append (List.sublist_cons_self _ m₂)).countP_le

/-- The last stretch is on its own. -/
theorem append (h : Ark pre) (hpre : ∀ e, pre.getLast? = some e → e = none)
    (htail : ∀ tag, kindred tag tail ≤ 3) : Ark (pre ++ tail) := by
  intro stretch hs hnone tag'
  obtain hs | hs | ⟨m₁, m₂, rfl, h₁, h₂⟩ := List.infix_append_iff.1 hs
  · exact h _ hs hnone tag'
  · exact Nat.le_trans (hs.sublist.countP_le) (htail tag')
  · obtain rfl | ⟨m, e, rfl⟩ := List.eq_nil_or_concat m₁
    · exact Nat.le_trans (h₂.sublist.countP_le) (htail tag')
    · obtain ⟨s, rfl⟩ := h₁
      obtain rfl := hpre e (by simp)
      exact absurd (by simp) hnone

theorem marker (h : Ark l) : Ark (l ++ [none]) := by
  intro stretch hs hnone tag'
  have hnil : ∀ m : List (Option Tag), none ∉ m → m ⊆ [none] → m = [] := fun m hm hsub =>
    List.eq_nil_iff_forall_not_mem.2 fun e he => hm (List.mem_singleton.1 (hsub he) ▸ he)
  obtain hs | hs | ⟨m₁, m₂, rfl, h₁, h₂⟩ := List.infix_append_iff.1 hs
  · exact h _ hs hnone tag'
  · rw [hnil _ hnone hs.subset]
    exact Nat.zero_le 3
  · obtain rfl := hnil m₂ (fun hm => hnone (List.mem_append_right _ hm)) h₂.subset
    exact h _ (by simpa using h₁.isInfix) hnone tag'

end Ark

/-! ## 3. The last stretch -/

/-- The tags of entries; a marker has none. -/
def tags (entries : List FormattingEntry) : List (Option Tag) := entries.map (·.tag?)

@[simp]
theorem tags_nil : tags [] = [] := rfl

@[simp]
theorem tags_append (l l' : List FormattingEntry) : tags (l ++ l') = tags l ++ tags l' :=
  List.map_append

@[simp]
theorem tags_marker (l : List FormattingEntry) : tags (.marker :: l) = none :: tags l := rfl

@[simp]
theorem tags_element (id : NodeId) (tag : Tag) (l : List FormattingEntry) :
    tags (.element id tag :: l) = some tag :: tags l := rfl

theorem none_mem_tags {entries : List FormattingEntry} :
    none ∈ tags entries ↔ .marker ∈ entries := by
  rw [tags, List.mem_map]
  constructor
  · rintro ⟨e, he, hnone⟩
    cases e with
    | marker => exact he
    | element => cases hnone
  · exact fun h => ⟨_, h, rfl⟩

/-- What follows the last marker. -/
structure LastStretch (pre tail : List FormattingEntry) : Prop where
  unmarked : .marker ∉ tail
  ends : ∀ e, pre.getLast? = some e → e = .marker

theorem exists_lastStretch (entries : List FormattingEntry) :
    ∃ pre tail, entries = pre ++ tail ∧ LastStretch pre tail := by
  induction entries using List.reverseRecOn with
  | nil => exact ⟨[], [], rfl, List.not_mem_nil, nofun⟩
  | append_singleton entries e ih =>
    obtain ⟨pre, tail, rfl, h⟩ := ih
    cases e with
    | marker =>
      exact ⟨pre ++ tail ++ [FormattingEntry.marker], [], by simp, List.not_mem_nil, by simp⟩
    | element id tag =>
      refine ⟨pre, tail ++ [FormattingEntry.element id tag], by simp, fun hm => ?_, h.ends⟩
      exact h.unmarked (by simpa using hm)

namespace LastStretch

variable {pre tail tail' : List FormattingEntry} (h : LastStretch pre tail)
include h

theorem isElement {e : FormattingEntry} (he : e ∈ tail) : e.isElement = true := by
  cases e with
  | marker => exact absurd he h.unmarked
  | element => rfl

theorem ark (ha : Ark (tags (pre ++ tail))) (htail : ∀ tag, kindred tag (tags tail') ≤ 3) :
    Ark (tags (pre ++ tail')) := by
  rw [tags, List.map_append]
  refine (ha.mono ⟨[], tags tail, by simp [tags]⟩).append (fun e he => ?_) htail
  rw [List.getLast?_map, Option.map_eq_some_iff] at he
  obtain ⟨e, he, rfl⟩ := he
  rw [h.ends e he]
  rfl

theorem kindred_le (ha : Ark (tags (pre ++ tail))) (tag : Tag) : kindred tag (tags tail) ≤ 3 :=
  ha _ ⟨tags pre, [], by simp [tags]⟩ (fun hm => h.unmarked (none_mem_tags.1 hm)) tag

theorem count_marker : (pre ++ tail).count .marker = pre.count .marker := by
  rw [List.count_append, List.count_eq_zero.2 h.unmarked, Nat.add_zero]

end LastStretch

namespace TreeBuilder

variable {b : TreeBuilder} {pre tail : List FormattingEntry} {id : NodeId} {tag : Tag}

theorem afterLastMarker_eq (hf : b.formatting = pre ++ tail) (h : LastStretch pre tail) :
    b.afterLastMarker =
      (tail.zipIdx pre.length).reverse.filterMap fun (e, i) => e.id?.map fun id => (i, id) := by
  have htail : ∀ a ∈ (tail.zipIdx pre.length).reverse, a.1.isElement = true := fun a ha =>
    h.isElement (List.fst_mem_of_mem_zipIdx (List.mem_reverse.1 ha))
  have hpre : pre.zipIdx.reverse.takeWhile (·.1.isElement) = [] := by
    obtain rfl | ⟨pre, e, rfl⟩ := List.eq_nil_or_concat pre
    · rfl
    · obtain rfl := h.ends e (by simp)
      simp [List.zipIdx_append, FormattingEntry.isElement, FormattingEntry.id?]
  rw [afterLastMarker, hf, List.zipIdx_append, List.reverse_append,
    List.takeWhile_append_of_pos (by simpa using htail), hpre, List.append_nil, Nat.zero_add]

theorem formatting_clearToMarker (hf : b.formatting = pre ++ tail) (h : LastStretch pre tail) :
    b.clearToMarker.formatting = pre.dropLast := by
  have hpre : pre.reverse.dropWhile (·.isElement) = pre.reverse := by
    obtain rfl | ⟨pre, e, rfl⟩ := List.eq_nil_or_concat pre
    · rfl
    · obtain rfl := h.ends e (by simp)
      simp [FormattingEntry.isElement, FormattingEntry.id?]
  rw [clearToMarker, hf, List.reverse_append,
    List.dropWhile_append_of_pos fun e he => h.isElement (List.mem_reverse.1 he), hpre,
    List.tail_reverse, List.reverse_reverse]

theorem mem_tail_of_activeFormatting? {name : String} (hf : b.formatting = pre ++ tail)
    (h : LastStretch pre tail) (hid : b.activeFormatting? name = some id) : id ∈ entryIds tail := by
  obtain ⟨⟨i, id'⟩, hnewest, rfl⟩ := List.mem_map.1 (List.mem_of_find?_eq_some hid)
  rw [afterLastMarker_eq hf h] at hnewest
  obtain ⟨⟨e, j⟩, he, hmap⟩ := List.mem_filterMap.1 hnewest
  obtain ⟨id', hid', heq⟩ := Option.map_eq_some_iff.1 hmap
  cases heq
  exact List.mem_filterMap.2 ⟨e, List.fst_mem_of_mem_zipIdx (List.mem_reverse.1 he), hid'⟩

/-- What is said about the newest entries is said about the tags of the last stretch. -/
theorem countP_afterLastMarker (hf : b.formatting = pre ++ tail) (h : LastStretch pre tail)
    (hm : Made b.tree b.formatting) (tag : Tag) :
    (b.afterLastMarker.countP fun a => (b.tree.element? a.2).any (alike tag.made)) =
      kindred tag (tags tail) := by
  rw [afterLastMarker_eq hf h, List.countP_filterMap, List.countP_reverse, kindred, tags,
    List.countP_map]
  conv_rhs => rw [← List.zipIdx_map_fst pre.length tail, List.countP_map]
  refine List.countP_congr fun a ha => ?_
  obtain ⟨e, i⟩ := a
  cases e with
  | marker => simp [FormattingEntry.id?, FormattingEntry.tag?]
  | element id tag' =>
    have hmem : .element id tag' ∈ b.formatting := by
      rw [hf]
      exact List.mem_append_right _ (List.fst_mem_of_mem_zipIdx ha)
    simp [FormattingEntry.id?, FormattingEntry.tag?, hm id tag' hmem, Tag.kin]

/-- A new entry makes one of three like it go. -/
theorem pushFormatting_cases (hf : b.formatting = pre ++ tail) (h : LastStretch pre tail)
    (hm : Made b.tree b.formatting) (hid : b.tree.element? id = some tag.made) :
    kindred tag (tags tail) < 3 ∧
      (b.pushFormatting id tag).formatting = pre ++ (tail ++ [.element id tag]) ∨
    ∃ t₁ t₂ old tag', tail = t₁ ++ .element old tag' :: t₂ ∧ tag.kin tag' = true ∧
      (b.pushFormatting id tag).formatting = pre ++ (t₁ ++ t₂ ++ [.element id tag]) := by
  have hcount := countP_afterLastMarker hf h hm tag
  rw [List.countP_eq_length_filter] at hcount
  unfold pushFormatting
  simp only [hid, Option.any_some]
  split
  · next i other hlast =>
    -- the last one of a kind in the search from the end is the earliest
    obtain ⟨hmem, hkin⟩ := List.mem_filter.1 (List.mem_of_getLast? hlast)
    have hlt := afterLastMarker_lt hmem
    rw [afterLastMarker_eq hf h] at hmem
    obtain ⟨⟨e, j⟩, he, hmap⟩ := List.mem_filterMap.1 hmem
    obtain ⟨id', hid', heq⟩ := Option.map_eq_some_iff.1 hmap
    cases heq
    cases e with
    | marker => cases hid'
    | element other' tag' =>
      cases hid'
      split
      · obtain ⟨hle, hget⟩ := List.mk_mem_zipIdx_iff_le_and_getElem?_sub.1 (List.mem_reverse.1 he)
        obtain ⟨t₁, t₂, rfl, hlength⟩ := exists_cut_getElem? hget
        refine Or.inr ⟨t₁, t₂, other, tag', rfl, ?_, ?_⟩
        · simpa [hm other tag' (by simp [hf]), Tag.kin] using hkin
        · have hi : i = (pre ++ t₁).length := by
            rw [List.length_append]
            omega
          have herase : b.formatting.eraseIdx i = (pre ++ t₁) ++ t₂ := by
            rw [hf, ← List.append_assoc, hi, eraseIdx_length]
          rw [eraseFormatting_eq hlt]
          simp [attempt, herase]
      · -- fewer than three are like it, and all of them stay
        next hfew => exact Or.inl ⟨by omega, by simp [hf]⟩
  · next hnone =>
    rw [List.getLast?_eq_none_iff.1 hnone, List.length_nil] at hcount
    exact Or.inl ⟨by omega, by simp [hf]⟩

/-- The last stretch with a new entry does not have four of a kind either. -/
theorem exists_pushFormatting (hf : b.formatting = pre ++ tail) (h : LastStretch pre tail)
    (hm : Made b.tree b.formatting) (ha : Ark (tags b.formatting))
    (hid : b.tree.element? id = some tag.made) :
    ∃ kept, kept.Sublist tail ∧
      (b.pushFormatting id tag).formatting = pre ++ (kept ++ [.element id tag]) ∧
      ∀ tag', kindred tag' (tags (kept ++ [.element id tag])) ≤ 3 := by
  have hle := h.kindred_le (hf ▸ ha)
  obtain ⟨hlt, heq⟩ | ⟨t₁, t₂, old, oldTag, rfl, hkin, heq⟩ := pushFormatting_cases hf h hm hid
  · refine ⟨tail, .refl _, heq, fun tag' => ?_⟩
    have hle := hle tag'
    rw [tags_append, tags_element, kindred_insert, tags_nil, List.append_nil]
    split
    · next hkin =>
      rw [kindred, Tag.kin_congr hkin, ← kindred]
      omega
    · exact hle
  · refine ⟨t₁ ++ t₂, (List.Sublist.refl _).append (List.sublist_cons_self _ _), heq,
      fun tag' => ?_⟩
    have hle := hle tag'
    rw [tags_append, tags_element, kindred_insert, ← tags_append] at hle
    rw [tags_append, tags_element, kindred_insert, tags_nil, List.append_nil]
    split
    · next hkin' =>
      rw [Tag.kin_congr hkin', hkin, if_pos rfl] at hle
      exact hle
    · omega

end TreeBuilder

end Hypertext
