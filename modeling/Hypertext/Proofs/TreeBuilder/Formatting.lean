import Hypertext.Proofs.TreeBuilder.Planted

/-!
# Active formatting elements

The list of active formatting elements holds elements made from the tags of formatting elements
only, so what is opened again from it is an ordinary element. Every index that is computed for the
list is in range.
-/

namespace Hypertext

open Hypertext.Tree

/-! ## 1. The elements in the list -/

/-- Every entry is an element of the tree, made from the tag of a formatting element. -/
def Named (t : Tree) (entries : List FormattingEntry) : Prop :=
  ∀ id tag, .element id tag ∈ entries →
    tag.name ∈ Category.formatting ∧ t.label? id = some (.html, tag.name)

namespace Named

variable {t t' : Tree} {entries entries' : List FormattingEntry} {id : NodeId} {tag : Tag}

theorem nil : Named t [] := fun _ _ h => by cases h

theorem keeps (h : Named t entries) (hk : t.Keeps t') : Named t' entries := fun id tag hm =>
  ⟨(h id tag hm).1, hk id _ (h id tag hm).2⟩

theorem subset (h : Named t entries) (hs : entries' ⊆ entries) : Named t entries' :=
  fun id tag hm => h id tag (hs hm)

theorem append (h : Named t entries) (h' : Named t entries') : Named t (entries ++ entries') := by
  intro id tag hm
  rcases List.mem_append.1 hm with hm | hm
  · exact h id tag hm
  · exact h' id tag hm

theorem marker : Named t [.marker] := fun id tag h => by simp at h

theorem element (h : tag.name ∈ Category.formatting) (hl : t.label? id = some (.html, tag.name)) :
    Named t [.element id tag] := by
  intro id' tag' hm
  simp only [List.mem_singleton, FormattingEntry.element.injEq] at hm
  rw [hm.1, hm.2]
  exact ⟨h, hl⟩

theorem set (h : Named t entries) (i : Nat) (ht : tag.name ∈ Category.formatting)
    (hl : t.label? id = some (.html, tag.name)) : Named t (entries.set i (.element id tag)) := by
  intro id' tag' hm
  rcases List.mem_or_eq_of_mem_set hm with hm | hm
  · exact h id' tag' hm
  · cases hm
    exact ⟨ht, hl⟩

theorem insertIdx (h : Named t entries) (i : Nat) (ht : tag.name ∈ Category.formatting)
    (hl : t.label? id = some (.html, tag.name)) :
    Named t (entries.insertIdx i (.element id tag)) := by
  intro id' tag' hm
  rcases List.eq_or_mem_of_mem_insertIdx hm with hm | hm
  · cases hm
    exact ⟨ht, hl⟩
  · exact h id' tag' hm

theorem not_mem {t : Tree} {entries : List FormattingEntry} {id : NodeId} {name : String}
    (h : Named t entries) (hl : t.label? id = some (.html, name))
    (hname : name ∉ Category.formatting) (tag : Tag) : .element id tag ∉ entries := by
  intro hmem
  obtain ⟨ht, hl'⟩ := h id tag hmem
  rw [hl] at hl'
  obtain rfl : name = tag.name := (Prod.mk.inj (Option.some.inj hl')).2
  exact hname ht

end Named

namespace TreeBuilder

variable {b b' b'' : TreeBuilder} {i : Nat} {id : NodeId} {tag : Tag}

/-! ## 2. Indices into the list -/

theorem formattingIndex?_lt (h : b.formattingIndex? id = some i) : i < b.formatting.length :=
  (List.findIdx?_eq_some_iff_getElem.1 h).1

theorem afterLastMarker_lt (h : (i, id) ∈ b.afterLastMarker) : i < b.formatting.length := by
  obtain ⟨⟨e, j⟩, hmem, hid⟩ := List.mem_filterMap.1 h
  obtain ⟨other, -, hij⟩ := Option.map_eq_some_iff.1 hid
  have hj := List.mem_reverse.1 ((List.takeWhile_sublist _).subset hmem)
  cases hij
  simpa using List.snd_lt_of_mem_zipIdx hj

theorem eraseFormatting_eq (h : i < b.formatting.length) :
    b.changeFormatting? (Indexed.erase? · i) =
      some { b with formatting := b.formatting.eraseIdx i } := by
  simp [changeFormatting?, Indexed.erase?, h]

theorem setFormatting_eq (h : i < b.formatting.length) (e : FormattingEntry) :
    b.changeFormatting? (Indexed.set? · i e) =
      some { b with formatting := b.formatting.set i e } := by
  simp [changeFormatting?, Indexed.set?, h]

theorem insertFormatting_eq (h : i ≤ b.formatting.length) (e : FormattingEntry) :
    b.changeFormatting? (Indexed.insert? · i e) =
      some { b with formatting := b.formatting.insertIdx i e } := by
  simp [changeFormatting?, Indexed.insert?, h]

/-- Entries are taken out of the list; nothing else happens. -/
theorem removeFormatting_eq (id : NodeId) :
    ∃ entries, b.removeFormatting id = { b with formatting := entries } ∧
      entries ⊆ b.formatting := by
  unfold removeFormatting
  split
  · next i hi =>
    rw [eraseFormatting_eq (formattingIndex?_lt hi)]
    exact ⟨_, rfl, List.eraseIdx_subset⟩
  · exact ⟨_, rfl, List.Subset.refl _⟩

theorem pushFormatting_eq (id : NodeId) (tag : Tag) :
    ∃ entries, b.pushFormatting id tag = { b with formatting := entries ++ [.element id tag] } ∧
      entries ⊆ b.formatting := by
  unfold pushFormatting
  dsimp only
  split
  · next i other hlast =>
    split
    · have hmem := (List.mem_filter.1 (List.mem_of_getLast? hlast)).1
      rw [eraseFormatting_eq (afterLastMarker_lt hmem)]
      exact ⟨_, rfl, List.eraseIdx_subset⟩
    · exact ⟨_, rfl, List.Subset.refl _⟩
  · exact ⟨_, rfl, List.Subset.refl _⟩

theorem named_clearToMarker (h : Named b.tree b.formatting) :
    Named b.tree b.clearToMarker.formatting := by
  refine h.subset fun e he => ?_
  have he := List.mem_of_mem_tail (List.mem_reverse.1 he)
  exact List.mem_reverse.1 ((List.dropWhile_sublist _).subset he)

/-! ## 3. Opening again -/

/-- Elements made from the tags of formatting elements. -/
def Formatted (t : Tree) (xs : List NodeId) : Prop :=
  ∀ x ∈ xs, ∃ name ∈ Category.formatting, t.label? x = some (.html, name)

theorem Formatted.keeps {t t' : Tree} {xs : List NodeId} (h : Formatted t xs) (hk : t.Keeps t') :
    Formatted t' xs := by
  intro x hx
  obtain ⟨name, hname, hl⟩ := h x hx
  exact ⟨name, hname, hk x _ hl⟩

theorem Formatted.append {t : Tree} {xs ys : List NodeId} (h : Formatted t xs)
    (h' : Formatted t ys) : Formatted t (xs ++ ys) := fun x hx =>
  (List.mem_append.1 hx).elim (h x) (h' x)

theorem not_html_of_formatting {name : String} (h : name ∈ Category.formatting) :
    name ≠ "html" ∧ name ≠ "body" ∧ name ≠ "template" := by
  refine ⟨?_, ?_, ?_⟩ <;> rintro rfl <;> revert h <;> decide

theorem not_outer_of_formatting {name : String} (h : name ∈ Category.formatting) :
    (Namespace.html, name) ∉ outerLabels := by
  revert name
  decide

/-- `b'` is `b` with more formatting elements open, and other entries for them in the list. -/
structure Opens (b b' : TreeBuilder) : Prop where
  same : b' = { b with
    tree := b'.tree, openElements := b'.openElements, formatting := b'.formatting }
  keeps : b.tree.Keeps b'.tree
  skeleton : b'.tree.skeleton = b.tree.skeleton
  documentMode : b'.tree.mode = b.tree.mode
  planted : Planted b'.tree b'.openElements b.headElement
  named : Named b'.tree b'.formatting
  stack : ∃ new, b'.openElements = new ++ b.openElements ∧ Formatted b'.tree new

theorem Opens.refl (h : Planted b.tree b.openElements b.headElement)
    (hn : Named b.tree b.formatting) : Opens b b :=
  ⟨rfl, .refl _, rfl, rfl, h, hn, [], rfl, fun _ hx => by cases hx⟩

theorem Opens.head (h : Opens b b') : b'.headElement = b.headElement := by rw [h.same]

theorem Opens.begun (h : Opens b b') (hb : Begun b) : Begun b' := by
  obtain ⟨new, hnew, -⟩ := h.stack
  refine ⟨h.head ▸ hb.head, ?_⟩
  rw [hnew]
  exact List.append_ne_nil_of_right_ne_nil new hb.nonempty

theorem Opens.trans (h : Opens b b') (h' : Opens b' b'') : Opens b b'' := by
  obtain ⟨new, hnew, hf⟩ := h.stack
  obtain ⟨new', hnew', hf'⟩ := h'.stack
  refine ⟨?_, h.keeps.trans h'.keeps, h'.skeleton.trans h.skeleton,
    h'.documentMode.trans h.documentMode, h.head ▸ h'.planted, h'.named, new' ++ new, ?_, ?_⟩
  · rw [h'.same, h.same]
  · rw [hnew', hnew, List.append_assoc]
  · exact hf'.append (hf.keeps h'.keeps)

/-- The entry of an element is replaced by one for a new element. -/
theorem opens_renew (h : Planted b.tree b.openElements b.headElement) (hb : Begun b)
    (hn : Named b.tree b.formatting) (ht : tag.name ∈ Category.formatting) (old : NodeId) :
    Opens b { b.insertHtml tag with
      formatting :=
        b.formatting.set i (.element ((b.insertHtml tag).currentNode?.getD old) tag) } := by
  have hname := not_html_of_formatting ht
  obtain ⟨id, tree, heq, w, hl⟩ := insertElement_eq h.anchored tag.name tag.attributes .html
  have hs := skeleton_of_put h hb w hl (not_outer_of_formatting ht)
  have hplanted := planted_put h w hl (by simpa using hname.1) (by simpa using hname.2.1) hs
  have hkeeps := (w.sprout h.forest (place_lt h.anchored)).keeps
  obtain ⟨grown, g, m⟩ := w.exists_grown
  have hmode : tree.mode = b.tree.mode :=
    mode_congr ((m.data root).trans (g.data root h.forest.root_lt))
  unfold insertHtml
  rw [heq]
  refine ⟨rfl, hkeeps, hs, hmode, hplanted, (hn.keeps hkeeps).set i ht hl, [id], rfl,
    fun x hx => ?_⟩
  rw [List.mem_singleton.1 hx]
  exact ⟨tag.name, ht, hl⟩

theorem formatting_insertHtml (h : Planted b.tree b.openElements b.headElement) (tag : Tag) :
    (b.insertHtml tag).formatting = b.formatting := by
  obtain ⟨id, tree, hb, -⟩ := insertElement_eq h.anchored tag.name tag.attributes .html
  rw [insertHtml, hb]

/-- The last of these entries is a marker, or its element is open. -/
def EndsOpen (stack : List NodeId) (entries : List FormattingEntry) : Prop :=
  ∀ x tag, entries.getLast? = some (.element x tag) → x ∈ stack

theorem endsOpen_take_succ {stack : List NodeId} {entries : List FormattingEntry}
    {e : FormattingEntry} (hi : entries[i]? = some e)
    (he : ∀ x tag, e = .element x tag → x ∈ stack) : EndsOpen stack (entries.take (i + 1)) := by
  intro x tag hlast
  rw [List.take_add_one, hi, Option.toList_some, List.getLast?_concat] at hlast
  exact he x tag (Option.some.inj hlast)

theorem exists_reopen? (h : Planted b.tree b.openElements b.headElement) (hb : Begun b)
    (hn : Named b.tree b.formatting) {count : Nat} (hi : i + count = b.formatting.length)
    (hends : EndsOpen b.openElements (b.formatting.take i)) :
    ∃ b', b.reopen? i count = some b' ∧ Opens b b' ∧ EndsOpen b'.openElements b'.formatting := by
  induction count generalizing b i with
  | zero =>
    rw [List.take_of_length_le (by omega)] at hends
    exact ⟨b, rfl, .refl h hn, hends⟩
  | succ count ih =>
    have hlt : i < b.formatting.length := by omega
    have hget := List.getElem?_eq_getElem hlt
    rw [reopen?, hget]
    cases hentry : b.formatting[i] with
    | marker =>
      rw [hentry] at hget
      exact ih h hb hn (by omega) (endsOpen_take_succ hget nofun)
    | element old tag =>
      have hmem : .element old tag ∈ b.formatting := hentry ▸ List.getElem_mem hlt
      have ht := (hn old tag hmem).1
      have ho := opens_renew (i := i) h hb hn ht old
      -- the list is as long as before the element was opened, so the entry can be replaced
      have hset : i < (b.insertHtml tag).formatting.length := by rwa [formatting_insertHtml h]
      have hopen : (b.insertHtml tag).currentNode?.getD old ∈ (b.insertHtml tag).openElements := by
        obtain ⟨id, tree, heq, -⟩ := insertElement_eq h.anchored tag.name tag.attributes .html
        rw [insertHtml, heq]
        exact List.mem_cons_self
      obtain ⟨b', hb', ho', hends'⟩ := ih (ho.head ▸ ho.planted) (ho.begun hb) ho.named
        (i := i + 1) (by simpa using (show i + 1 + count = b.formatting.length by omega))
        (endsOpen_take_succ (List.getElem?_set_self hlt) (by rintro _ _ ⟨⟩; exact hopen))
      refine ⟨b', ?_, ho.trans ho', hends'⟩
      simp only [Option.bind_eq_bind, Option.bind_some, setFormatting_eq hset]
      rwa [formatting_insertHtml h]

theorem exists_isClosedAt? (hi : i < b.formatting.length) : ∃ c, b.isClosedAt? i = some c := by
  rw [isClosedAt?, List.getElem?_eq_getElem hi]
  cases b.formatting[i] <;> exact ⟨_, rfl⟩

theorem mem_of_isClosedAt? {k : Nat} (h : b.isClosedAt? k = some false)
    (hk : b.formatting[k]? = some (.element id tag)) : id ∈ b.openElements := by
  simpa [isClosedAt?, hk] using h

theorem endsOpen_of_isClosedAt? {k : Nat} (h : b.isClosedAt? k = some false) :
    EndsOpen b.openElements (b.formatting.take (k + 1)) := by
  cases hk : b.formatting[k]? with
  | none => simp [isClosedAt?, hk] at h
  | some e => exact endsOpen_take_succ hk fun x tag he => mem_of_isClosedAt? h (he ▸ hk)

/-- The entry that is gone back to, and those up to where it began, have been closed, and what is
before it ends with one that has not been. -/
theorem exists_rewind? (hi : i ≤ b.formatting.length) : ∃ j ≤ i, b.rewind? i = some j ∧
    (∀ k, j ≤ k → k < i → b.isClosedAt? k = some true) ∧
    EndsOpen b.openElements (b.formatting.take j) := by
  induction i with
  | zero => exact ⟨0, Nat.le_refl 0, rfl, by omega, nofun⟩
  | succ i ih =>
    obtain ⟨c, hc⟩ := exists_isClosedAt? (b := b) (i := i) (by omega)
    rw [rewind?, hc]
    cases c with
    | false => exact ⟨i + 1, Nat.le_refl _, rfl, by omega, endsOpen_of_isClosedAt? hc⟩
    | true =>
      obtain ⟨j, hj, hr, hclosed, hends⟩ := ih (by omega)
      refine ⟨j, by omega, hr, fun k hjk hk => ?_, hends⟩
      obtain rfl | hlt := Nat.eq_or_lt_of_le (Nat.le_of_lt_succ hk)
      · exact hc
      · exact hclosed k hjk hlt

theorem not_mem_of_isClosedAt? {k : Nat} {x : NodeId} (h : b.isClosedAt? k = some true)
    (hx : (b.formatting[k]?).bind (·.id?) = some x) : x ∉ b.openElements := by
  unfold isClosedAt? at h
  cases hk : b.formatting[k]? with
  | none => simp [hk] at hx
  | some entry =>
    cases entry with
    | marker => simp [hk, FormattingEntry.id?] at hx
    | element id tag =>
      obtain rfl : id = x := by simpa [hk, FormattingEntry.id?] using hx
      simpa [hk] using h

theorem opens_and_endsOpen_reconstruct (h : Planted b.tree b.openElements b.headElement)
    (hb : Begun b) (hn : Named b.tree b.formatting) :
    Opens b b.reconstruct ∧ EndsOpen b.reconstruct.openElements b.reconstruct.formatting := by
  cases hlength : b.formatting.length with
  | zero =>
    simp only [reconstruct, hlength, Indexed.before?]
    refine ⟨.refl h hn, ?_⟩
    rw [List.length_eq_zero_iff.1 hlength]
    exact nofun
  | succ last =>
    obtain ⟨c, hc⟩ := exists_isClosedAt? (b := b) (i := last) (by omega)
    simp only [reconstruct, hlength, Indexed.before?, reconstructFrom?, hc, Option.bind_eq_bind,
      Option.bind_some]
    cases c with
    | false =>
      have hends := endsOpen_of_isClosedAt? hc
      rw [List.take_of_length_le (by omega)] at hends
      exact ⟨.refl h hn, hends⟩
    | true =>
      obtain ⟨first, hle, hr, -, hends⟩ := exists_rewind? (b := b) (i := last) (by omega)
      have hspan : first + (last + 1 - first) = b.formatting.length := by omega
      obtain ⟨b', hb', ho⟩ := exists_reopen? h hb hn hspan hends
      simp only [if_true, hr, Option.bind_some, hb', attempt_some]
      exact ho

/-- Opening formatting elements again adds ordinary elements to the stack. -/
theorem opens_reconstruct (h : Planted b.tree b.openElements b.headElement) (hb : Begun b)
    (hn : Named b.tree b.formatting) : Opens b b.reconstruct :=
  (opens_and_endsOpen_reconstruct h hb hn).1

theorem endsOpen_reconstruct (h : Planted b.tree b.openElements b.headElement) (hb : Begun b)
    (hn : Named b.tree b.formatting) :
    EndsOpen b.reconstruct.openElements b.reconstruct.formatting :=
  (opens_and_endsOpen_reconstruct h hb hn).2

end TreeBuilder

end Hypertext
