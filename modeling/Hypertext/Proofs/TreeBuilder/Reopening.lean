import Hypertext.Proofs.TreeBuilder.ActiveList

/-!
# Opening formatting elements again

In a stretch between markers, the elements that are still open have their entries before those that
have been closed. Going back from the end to the first open element therefore finds all that are
closed, and when they have been opened again there is nothing left to open.
-/

namespace Hypertext

open Hypertext.Tree

/-! ## 1. Open elements come first -/

/-- Directly before the entry of an open element is a marker, or the entry of an open element. -/
def OpenFirst (stack : List NodeId) (entries : List FormattingEntry) : Prop :=
  entries.IsChain fun e e' => ∀ y, e'.id? = some y → y ∈ stack → ∀ x, e.id? = some x → x ∈ stack

namespace TreeBuilder

section EndsOpen

variable {S S' : List NodeId} {l l' : List FormattingEntry}

theorem endsOpen_iff : EndsOpen S l ↔ ∀ e ∈ l.getLast?, ∀ x, e.id? = some x → x ∈ S := by
  constructor
  · intro h e he x hx
    cases e with
    | marker => cases hx
    | element id tag =>
      cases hx
      exact h _ tag he
  · exact fun h x tag hx => h _ hx x rfl

theorem EndsOpen.congr (h : EndsOpen S l) (hS : ∀ x ∈ entryIds l, x ∈ S' ↔ x ∈ S) : EndsOpen S' l :=
  fun x tag hx => (hS x (mem_entryIds.2 ⟨tag, List.mem_of_getLast? hx⟩)).2 (h x tag hx)

end EndsOpen

end TreeBuilder

namespace OpenFirst

open TreeBuilder

variable {S S' : List NodeId} {l l' : List FormattingEntry} {id : NodeId} {tag : Tag}

theorem nil : OpenFirst S [] := List.IsChain.nil

theorem congr (h : OpenFirst S l) (hS : ∀ x ∈ entryIds l, x ∈ S' ↔ x ∈ S) : OpenFirst S' l := by
  refine h.imp_of_mem_imp fun e e' he he' hrel y hy hyS x hx => ?_
  rw [hS x (List.mem_filterMap.2 ⟨e, he, hx⟩)]
  exact hrel y hy ((hS y (List.mem_filterMap.2 ⟨e', he', hy⟩)).1 hyS) x hx

theorem of_append (h : OpenFirst S (l ++ l')) : OpenFirst S l ∧ OpenFirst S l' :=
  ⟨h.left_of_append, h.right_of_append⟩

theorem marker (h : OpenFirst S l) : OpenFirst S (l ++ [.marker]) :=
  h.append (.singleton _) fun _ _ e he _ hy => by
    obtain rfl := Option.some.inj he
    cases hy

/-- What is before the entry of an open element ends with that of one, or a marker. -/
theorem endsOpen (h : OpenFirst S (l ++ .element id tag :: l')) (hid : id ∈ S) : EndsOpen S l :=
  endsOpen_iff.2 fun e he => (List.isChain_append.1 h).2.2 e he _ rfl id rfl hid

/-- An entry goes. -/
theorem erase (h : OpenFirst S (l ++ .element id tag :: l')) : OpenFirst S (l ++ l') := by
  obtain ⟨hl, hl', hbefore⟩ := List.isChain_append.1 h
  rw [List.isChain_cons] at hl'
  refine List.isChain_append.2 ⟨hl, hl'.2, fun e he e' he' y hy hyS => ?_⟩
  exact hbefore e he _ rfl id rfl (hl'.1 e' he' y hy hyS id rfl)

/-- Without one of its entries a list that ends with the entry of an open element still does. -/
theorem endsOpen_erase (h : OpenFirst S (l ++ .element id tag :: l'))
    (hends : EndsOpen S (l ++ .element id tag :: l')) : EndsOpen S (l ++ l') := by
  obtain rfl | ⟨l', e, rfl⟩ := List.eq_nil_or_concat' l'
  · rw [List.append_nil]
    exact h.endsOpen (hends id tag (List.getLast?_concat ..))
  · intro x tag' hx
    refine hends x tag' ?_
    rw [← List.append_assoc, List.getLast?_concat] at hx
    rw [← List.cons_append, ← List.append_assoc, List.getLast?_concat, hx]

/-- The entry of an open element comes after one. -/
theorem insert (h : OpenFirst S (l ++ l')) (hl : EndsOpen S l) (hid : id ∈ S) (tag : Tag) :
    OpenFirst S (l ++ .element id tag :: l') := by
  obtain ⟨hl₁, hl₂, -⟩ := List.isChain_append.1 h
  refine List.isChain_append.2 ⟨hl₁, List.isChain_cons.2 ⟨fun e he y hy hyS x hx => ?_, hl₂⟩, ?_⟩
  · cases hx
    exact hid
  · exact fun e he e' he' y hy hyS => endsOpen_iff.1 hl e he

theorem push (h : OpenFirst S l) (hl : EndsOpen S l) (hid : id ∈ S) (tag : Tag) :
    OpenFirst S (l ++ [.element id tag]) :=
  ((List.append_nil l).symm ▸ h).insert hl hid tag

/-- The innermost elements are closed. -/
theorem pop (h : OpenFirst S l) (ho : InOrder S l) (hn : S.Nodup) (hs : S' <:+ S) :
    OpenFirst S' l := by
  rw [OpenFirst, List.isChain_iff_forall_rel_of_append_cons_cons] at h ⊢
  rintro e e' l₁ l₂ rfl y hy hyS x hx
  obtain ⟨inner, rfl⟩ := hs
  have hxS := h rfl y hy (List.mem_append_right _ hyS) x hx
  refine (List.mem_append.1 hxS).resolve_left fun hinner => ?_
  have horder : [y, x].Sublist (inner ++ S') := by
    unfold InOrder at ho
    rw [entryIds, List.filterMap_append, List.filterMap_cons_some hx,
      List.filterMap_cons_some hy] at ho
    have hpair := (List.pairwise_cons.1 (List.pairwise_append.1 ho).2.1).1 y (List.mem_cons_self ..)
    exact hpair hxS (List.mem_append_right _ hyS)
  exact not_pair_sublist hn hinner hyS horder

/-- An element and its entry are replaced. -/
theorem replace {A B : List NodeId} {node : NodeId}
    (h : OpenFirst (A ++ node :: B) (l ++ .element node tag :: l'))
    (hn : (entryIds (l ++ .element node tag :: l')).Nodup) (hid : id ∉ entryIds (l ++ l'))
    (tag' : Tag) : OpenFirst (A ++ id :: B) (l ++ .element id tag' :: l') := by
  have hnode : node ∉ entryIds (l ++ l') := (nodup_entryIds_element.1 hn).1
  have hS : ∀ x ∈ entryIds (l ++ l'), x ∈ A ++ id :: B ↔ x ∈ A ++ node :: B := by
    intro x hx
    have hxid : x ≠ id := fun he => hid (he ▸ hx)
    have hxnode : x ≠ node := fun he => hnode (he ▸ hx)
    simp [hxid, hxnode]
  have hends := h.endsOpen (by simp)
  exact (h.erase.congr hS).insert (hends.congr fun x hx => hS x (by simp [hx])) (by simp) tag'

/-- So a stretch falls into two parts. -/
theorem exists_split (h : OpenFirst S (l ++ l')) (hm : .marker ∉ l') :
    ∃ opened closed, l' = opened ++ closed ∧ (∀ x ∈ entryIds opened, x ∈ S) ∧
      ∀ x ∈ entryIds closed, x ∉ S := by
  induction l' using List.reverseRecOn with
  | nil => exact ⟨[], [], rfl, by simp, by simp⟩
  | append_singleton tail e ih =>
    rw [List.mem_append, not_or] at hm
    rw [← List.append_assoc] at h
    -- from the end of the stretch, since an entry is judged by the one before it
    obtain ⟨opened, closed, rfl, hopened, hclosed⟩ := ih h.of_append.1 hm.1
    cases e with
    | marker => exact absurd (List.mem_singleton_self _) hm.2
    | element id tag =>
      by_cases hid : id ∈ S
      · -- the entry before is for an open element, so there is none for a closed one
        obtain rfl : closed = [] := by
          refine List.eq_nil_iff_forall_not_mem.2 fun e he => ?_
          have hlast := List.getLast?_eq_some_getLast (List.ne_nil_of_mem he)
          have hbefore : (l ++ (opened ++ closed)).getLast? =
              some (closed.getLast (List.ne_nil_of_mem he)) := by
            rw [List.getLast?_append, List.getLast?_append, hlast]
            rfl
          cases hentry : closed.getLast (List.ne_nil_of_mem he) with
          | marker =>
            exact hm.1 (List.mem_append_right _ (hentry ▸ List.getLast_mem _))
          | element x tag' =>
            refine hclosed x (mem_entryIds.2 ⟨tag', hentry ▸ List.getLast_mem _⟩) ?_
            exact h.endsOpen hid x tag' (hentry ▸ hbefore)
        refine ⟨opened ++ [.element id tag], [], by simp, fun x hx => ?_, by simp⟩
        rw [entryIds_append, List.mem_append] at hx
        obtain hx | hx := hx
        · exact hopened x hx
        · obtain rfl : x = id := by simpa using hx
          exact hid
      · refine ⟨opened, closed ++ [.element id tag], by simp, hopened, fun x hx => ?_⟩
        rw [entryIds_append, List.mem_append] at hx
        obtain hx | hx := hx
        · exact hclosed x hx
        · obtain rfl : x = id := by simpa using hx
          exact hid

end OpenFirst

/-- Open elements that are in order have their entries in the order in which they are open. -/
theorem InOrder.sublist_reverse {S : List NodeId} {entries : List FormattingEntry}
    (h : InOrder S entries) (hn : S.Nodup) (hopen : ∀ x ∈ entryIds entries, x ∈ S) :
    (entryIds entries).Sublist S.reverse := by
  rw [← List.reverse_sublist, List.reverse_reverse]
  unfold InOrder at h
  generalize entryIds entries = ids at h hopen
  induction ids with
  | nil => exact List.nil_sublist _
  | cons x xs ih =>
    obtain ⟨hx, hxs⟩ := List.pairwise_cons.1 h
    obtain ⟨hxS, hxsS⟩ := List.forall_mem_cons.1 hopen
    obtain ⟨inner, outer, rfl⟩ := List.append_of_mem hxS
    rw [List.reverse_cons]
    refine List.Sublist.append ?_ (List.singleton_sublist.2 (List.mem_cons_self ..))
    -- the others are open in `x`
    obtain ⟨left, right, heq, hleft, hright⟩ := List.sublist_append_iff.1 (ih hxs hxsS)
    have hnil : right = [] := List.eq_nil_iff_forall_not_mem.2 fun y hy => by
      have hmem : y ∈ xs := by
        rw [← List.mem_reverse, heq]
        exact List.mem_append_right _ hy
      have hpair := hx y hmem hxS (hxsS y hmem)
      have hcut : inner ++ x :: outer = (inner ++ [x]) ++ outer := by simp
      obtain rfl | hy := List.mem_cons.1 (hright.subset hy)
      · exact absurd (hpair.nodup hn) (by simp)
      · rw [hcut] at hpair hn
        exact not_pair_sublist hn (by simp) hy hpair
    rw [heq, hnil, List.append_nil]
    exact hleft

/-! ## 2. What is done to the list -/

namespace TreeBuilder

variable {token : Token} {mode : InsertionMode} {b b' : TreeBuilder}

theorem not_mem_entryIds_of_formattingIndex? {id : NodeId} (h : b.formattingIndex? id = none) :
    id ∉ entryIds b.formatting := fun hmem => by
  obtain ⟨tag, hmem⟩ := mem_entryIds.1 hmem
  obtain ⟨i, hi⟩ := formattingIndex?_isSome hmem
  rw [h] at hi
  cases hi

section Climbs

variable {deeper between copies rest outer : List NodeId} {block element : NodeId} {w w₀ : Walk}
  {pre tail : List FormattingEntry}

theorem Climbs.openFirst (c : Climbs deeper block (element :: outer) w₀ between copies rest w)
    (h : Walk.Sound b deeper block [] between (element :: outer) w₀)
    (h₀ : Walk.Listed pre tail block element [] w₀)
    (ho : OpenFirst w₀.builder.openElements w₀.builder.formatting) :
    OpenFirst w.builder.openElements w.builder.formatting := by
  induction c with
  | start => exact ho
  | forget c hi ih =>
    obtain ⟨f₁, f₂, tag, hf, rfl⟩ := exists_entry_cut hi
    rw [hf] at ih
    simp only [hf, eraseIdx_length]
    exact ih.erase
  | @close copies rest node w c hi ih =>
    -- the node that is closed has no entry
    refine ih.congr fun x hx => ?_
    have hne : x ≠ node := fun he => not_mem_entryIds_of_formattingIndex? hi (he ▸ hx)
    rw [(c.sound h).stack]
    simp [hne]
  | @copy copies rest node id w i tag tree c hi htag hnew ih =>
    have hs := c.sound h
    have hl := c.listed h h₀
    obtain ⟨f₁, f₂, tag', hf, rfl⟩ := exists_entry_cut hi
    have g := grown_createElement tag.name tag.attributes .html hs.carried.forest
    rw [hnew] at g
    -- the copy is new, and takes the place of the node both in the stack and in the list
    have hfresh : id ∉ entryIds (f₁ ++ f₂) := by
      refine (hl.made.subset ?_).not_mem g.fresh
      rw [hf]
      exact ((List.Sublist.refl _).append (List.sublist_cons_self _ _)).subset
    have hnodup := hl.nodup
    rw [hf, hs.stack] at ih
    rw [hf] at hnodup
    have hcut : deeper ++ block :: (copies ++ [id]) ++ (rest ++ element :: outer) =
        (deeper ++ block :: copies) ++ id :: (rest ++ element :: outer) := by simp
    simp only [hf, set_length, hcut]
    exact OpenFirst.replace ih hnodup hfresh tag

end Climbs

/-- The copy of the formatting element comes after the first copy, or in the place of the
element itself. -/
theorem Hoists.openFirst {r : AgencyRound} (h : Hoists b b' r) (hb : Listed b)
    (hmem : r.element ∈ entryIds b.formatting) (ho : OpenFirst b.openElements b.formatting) :
    OpenFirst b'.openElements b'.formatting := by
  have hs := h.carriable.sound h.climbs
  have h₀ := h.carriable.listed hb (List.nil_append _).symm hmem
  have w := h.climbs.listed (h.carriable.start _) h₀
  have hwalk := h.climbs.openFirst (h.carriable.start _) h₀ ho
  have hstack : r.walk.builder.openElements =
      r.deeper ++ r.block :: (r.copies ++ r.element :: r.outer) := by simp [hs.stack]
  obtain ⟨f₁, m₂, l₂, hcut, hresult, -, -, hcopy⟩ := h.entries hb hmem
  have hnodup := w.nodup
  rw [hcut] at hwalk hnodup
  -- neither the formatting element nor its copy has an entry that stays
  have helement : r.element ∉ entryIds ((f₁ ++ m₂) ++ l₂) := by
    rw [nodup_entryIds_element, ← List.append_assoc] at hnodup
    exact hnodup.1
  have hcopied : r.copy ∉ entryIds ((f₁ ++ m₂) ++ l₂) := by
    have hnew := (h.listed hb (List.nil_append _).symm hmem).1.nodup
    rw [hresult, nodup_entryIds_element] at hnew
    exact hnew.1
  have hS : ∀ x ∈ entryIds ((f₁ ++ m₂) ++ l₂), x ∈ b'.openElements ↔
      x ∈ r.walk.builder.openElements := by
    intro x hx
    have hxelement : x ≠ r.element := fun he => helement (he ▸ hx)
    have hxcopy : x ≠ r.copy := fun he => hcopied (he ▸ hx)
    rw [h.stack, hstack]
    simp [hxelement, hxcopy]
  have hends : EndsOpen r.walk.builder.openElements (f₁ ++ m₂) := by
    obtain ⟨-, rfl⟩ | ⟨m, id, tag, hhead, rfl⟩ := hcopy
    · rw [List.append_nil]
      exact hwalk.endsOpen (by simp [hstack])
    · intro x tag' hx
      rw [← List.append_assoc, List.getLast?_concat] at hx
      cases hx
      rw [hstack]
      simp [List.mem_of_mem_head? hhead]
  have herase := hwalk.erase
  rw [← List.append_assoc] at herase
  rw [hresult]
  refine (herase.congr hS).insert (hends.congr fun x hx => hS x ?_) (by simp [h.stack]) r.tag
  rw [entryIds_append]
  exact List.mem_append_left _ hx

theorem Lists.openFirst {name : String} {attributes : List Attribute} {ns : Namespace}
    {formatting : List FormattingEntry} (hl : Lists b ns name attributes formatting) (h : Rooted b)
    (ha : ActiveList b) (ho : OpenFirst b.openElements b.formatting) :
    OpenFirst (b.insertElement name attributes ns).openElements formatting := by
  obtain ⟨id, tree, heq, w, -⟩ := insertElement_eq h.anchored name attributes ns
  have hfresh : b.tree.size ≤ id := w.exists_grown.choose_spec.1.fresh
  have hid : id ∉ entryIds b.formatting := ha.listed.made.not_mem hfresh
  have hS : ∀ x ∈ entryIds b.formatting, x ∈ id :: b.openElements ↔ x ∈ b.openElements :=
    fun x hx => by
    have hne : x ≠ id := fun he => hid (he ▸ hx)
    simp [hne]
  have hopened := ho.congr hS
  cases hl with
  | same => rwa [heq]
  | marker =>
    rw [heq]
    exact hopened.marker
  | @remember tag id' ht hid' hends =>
    have he := element?_insertHtml h (not_html_of_formatting ht).2.2 hid'
    have hm : Made tree b.formatting := ha.listed.made.keeps fun x e he => by
      rw [element?_congr (w.data? (lt_size_of_element? he)), he]
    obtain ⟨pre, tail, hf, hlast⟩ := exists_lastStretch b.formatting
    have hpush := @pushFormatting_cases (b.insertHtml tag) pre tail id' tag
    unfold insertHtml at hpush hid' he ⊢
    rw [heq] at hpush hid' he ⊢
    obtain rfl := Option.some.inj hid'
    have hends := hends.congr hS
    obtain ⟨-, hentries⟩ | ⟨t₁, t₂, old, tag', rfl, -, hentries⟩ := hpush hf hlast hm he
    · rw [hentries, ← List.append_assoc, ← hf]
      exact hopened.push hends (by simp) tag
    · -- the oldest of three like it goes, which may have been the last
      rw [hf, ← List.append_assoc] at hopened hends
      rw [hentries, ← List.append_assoc, ← List.append_assoc]
      exact hopened.erase.push (hopened.endsOpen_erase hends) (by simp) tag
  | @renew tag id' old earlier later ht hid' hf hclosed hends =>
    unfold insertHtml at hid'
    rw [heq] at hid' ⊢
    obtain rfl := Option.some.inj hid'
    rw [hf] at hopened hS
    -- all entries behind it are for closed elements
    refine hopened.erase.insert (hends.congr fun x hx => hS x ?_) (by simp) tag
    rw [entryIds_append]
    exact List.mem_append_left _ hx

theorem Step.openFirst (s : Step token mode b b') (h : Rooted b) (ha : ActiveList b)
    (ho : OpenFirst b.openElements b.formatting) : OpenFirst b'.openElements b'.formatting := by
  have hn := h.anchored.nodup
  cases s with
  | aside a =>
    rw [a.openElements, a.formatting]
    exact ho
  | @close stack hs hc =>
    obtain hc | hc := hc
    · exact ho.pop ha.listed.order hn hc
    · refine ho.congr fun x hx => ⟨fun hx' => hs.subset hx', fun hopen => ?_⟩
      obtain ⟨tag, hmem⟩ := mem_entryIds.1 hx
      exact hc x tag hmem hopen
  | insert hlists => exact hlists.openFirst h ha ho
  | leaf => exact ho
  | setMode => exact ho
  | merge => exact ho
  | @pushHead head html _ _ hhead =>
    refine ho.congr fun x hx => ?_
    obtain ⟨tag, hmem⟩ := mem_entryIds.1 hx
    have hne : x ≠ head := by
      rintro rfl
      exact h.named.not_mem hhead (by decide) tag hmem
    simp [push, hne]
  | @forget id tag earlier later stack hentry hclosed =>
    have hnodup := ha.listed.nodup
    rw [hentry] at ho hnodup
    rw [nodup_entryIds_element] at hnodup
    refine ho.erase.congr fun x hx => ?_
    have hne : x ≠ id := fun he => hnodup.1 (he ▸ hx)
    obtain rfl | rfl := hclosed
    · rfl
    · simp [hne]
  | @unmark inner outer hopen _ =>
    obtain ⟨pre, tail, hf, hlast⟩ := exists_lastStretch b.formatting
    rw [formatting_clearToMarker (b := { b with openElements := outer }) hf hlast]
    have hpop : OpenFirst outer b.formatting := ho.pop ha.listed.order hn ⟨inner, hopen.symm⟩
    -- what is left are the entries before the last marker
    obtain ⟨marker, hmarker⟩ := List.dropLast_prefix pre
    rw [hf, ← hmarker] at hpop
    exact hpop.of_append.1.of_append.1
  | stop => exact .nil
  | adopt _ hactive had =>
    obtain ⟨pre, tail, hf, hlast⟩ := exists_lastStretch b.formatting
    have hmem := mem_tail_of_activeFormatting? hf hlast hactive
    exact had.openFirst ha.listed (by simp [hf, hmem]) ho
  | unbody =>
    exact ho.pop ha.listed.order hn (List.drop_suffix _ _)

theorem kept_openFirst : Kept (fun _ => True) (fun _ => True) fun b =>
    ActiveList b ∧ OpenFirst b.openElements b.formatting where
  follows _ _ := trivial
  mode _ _ := trivial
  note ht hs hf hm he h := ⟨kept_active.note ht hs hf hm he h.1, by rw [hs, hf]; exact h.2⟩
  step ht hm s hr hi h := ⟨kept_active.step ht hm s hr hi h.1, s.openFirst hr h.1 h.2⟩
  char c hr hl hp hi h := by
    obtain ⟨tree, fault, heq⟩ := insertChar_same _ c
    refine ⟨kept_active.char c hr hl hp hi h.1, ?_⟩
    rw [heq]
    exact h.2

/-! ## 3. What has been closed is opened again -/

/-- `b'` is `b` with the elements of `closed` open again, which is a stretch at the end of the list.
They are new elements that are made for the same tags, and their entries are `reopened`. -/
structure Reopens (b b' : TreeBuilder) (kept closed reopened : List FormattingEntry) : Prop where
  before : b.formatting = kept ++ closed
  same : b' = { b with
    tree := b'.tree, openElements := (entryIds reopened).reverse ++ b.openElements
    formatting := kept ++ reopened }
  tags : tags reopened = tags closed
  size_le : b.tree.size ≤ b'.tree.size
  data : ∀ x < b.tree.size, b'.tree.data? x = b.tree.data? x
  parent : ∀ x < b.tree.size, b'.tree.parent? x = b.tree.parent? x
  made : ∀ x tag, .element x tag ∈ reopened → b.tree.size ≤ x ∧ b'.tree.element? x = some tag.made

namespace Reopens

variable {b'' : TreeBuilder} {kept closed closed' reopened reopened' : List FormattingEntry}

theorem refl (h : b.formatting = kept) : Reopens b b kept [] [] :=
  ⟨by rw [h, List.append_nil], by rw [← h, List.append_nil]; rfl, rfl, Nat.le_refl _,
    fun _ _ => rfl, fun _ _ => rfl, nofun⟩

theorem openElements (h : Reopens b b' kept closed reopened) :
    b'.openElements = (entryIds reopened).reverse ++ b.openElements := by rw [h.same]

theorem formatting (h : Reopens b b' kept closed reopened) : b'.formatting = kept ++ reopened := by
  rw [h.same]

end Reopens

/-- A formatting element is inserted at the current place. -/
theorem exists_insertHtml {tag : Tag} (h : Rooted b) (ht : tag.name ∈ Category.formatting) :
    ∃ id tree, b.insertHtml tag = { b with tree, openElements := id :: b.openElements } ∧
      Put b.tree tree id b.place.parent b.place.before ∧ Anchored tree (id :: b.openElements) ∧
      b.tree.Keeps tree ∧ tree.element? id = some tag.made := by
  obtain ⟨id, tree, heq, w, hl⟩ := insertElement_eq h.anchored tag.name tag.attributes .html
  have heq' : b.insertHtml tag = { b with tree, openElements := id :: b.openElements } := heq
  have s := w.sprout h.anchored.forest (place_lt h.anchored)
  have hcurrent : (b.insertHtml tag).currentNode? = some id := by rw [heq']; rfl
  have he := element?_insertHtml h (not_html_of_formatting ht).2.2 hcurrent
  rw [heq'] at he
  exact ⟨id, tree, heq', w, h.anchored.sprout s (reach_place h.anchored) (by rw [hl]; rfl),
    s.keeps, he⟩

theorem exists_reopens {kept closed : List FormattingEntry} (h : Rooted b)
    (hf : b.formatting = kept ++ closed) (hm : .marker ∉ closed) : ∃ b' reopened,
      b.reopen? kept.length closed.length = some b' ∧ Reopens b b' kept closed reopened := by
  induction closed generalizing b kept with
  | nil => exact ⟨b, [], rfl, .refl (by rw [hf, List.append_nil])⟩
  | cons e closed ih =>
    cases e with
    | marker => exact absurd (List.mem_cons_self ..) hm
    | element old tag =>
      have ht := (h.named old tag (by simp [hf])).1
      obtain ⟨id, tree, heq, w, hanchored, hkeeps, he⟩ := exists_insertHtml h ht
      have hset : (kept ++ .element old tag :: closed).set kept.length (.element id tag) =
          (kept ++ [.element id tag]) ++ closed := by rw [set_length]; simp
      have hrooted : Rooted { b with
          tree, openElements := id :: b.openElements
          formatting := (kept ++ [.element id tag]) ++ closed } := by
        refine ⟨hanchored, fun x t hx => ?_⟩
        simp only [List.append_assoc, List.singleton_append, List.mem_append, List.mem_cons] at hx
        obtain hx | hx | hx := hx
        · exact h.named.keeps hkeeps x t (by simp [hf, hx])
        · cases hx
          exact ⟨ht, by rw [label?, he]; rfl⟩
        · exact h.named.keeps hkeeps x t (by simp [hf, hx])
      -- the new entry is kept from now on, and the rest is opened again from there
      obtain ⟨b', reopened, hb', r⟩ := ih hrooted rfl fun hmem => hm (List.mem_cons_of_mem _ hmem)
      refine ⟨b', .element id tag :: reopened, ?_, ?_⟩
      · have hlt : kept.length < b.formatting.length := by simp [hf]
        have hentry : b.formatting[kept.length]? = some (.element old tag) := by simp [hf]
        rw [List.length_append, List.length_singleton] at hb'
        rw [List.length_cons, reopen?, hentry]
        simp only [heq, currentNode?, List.head?_cons, Option.getD_some, Option.bind_eq_bind,
          Option.bind_some]
        rw [setFormatting_eq (b := { b with tree, openElements := id :: b.openElements }) hlt,
          Option.bind_some]
        simp only [hf, hset]
        exact hb'
      · obtain ⟨grown, g, s⟩ := w.exists_grown
        have hsize : b.tree.size ≤ tree.size := by
          rw [s.size]
          exact g.size_le
        have hlt : ∀ {x}, x < b.tree.size → x ≠ id := fun hx =>
          Nat.ne_of_lt (Nat.lt_of_lt_of_le hx g.fresh)
        refine ⟨hf, ?_, ?_, Nat.le_trans hsize r.size_le, fun x hx => ?_, fun x hx => ?_,
          fun x t hx => ?_⟩
        · rw [r.same]
          simp
        · rw [tags_element, tags_element, r.tags]
        · rw [r.data x (Nat.lt_of_lt_of_le hx hsize)]
          exact w.data? hx
        · rw [r.parent x (Nat.lt_of_lt_of_le hx hsize), s.parent, if_neg (hlt hx), g.parent]
        · obtain heq | hx := List.mem_cons.1 hx
          · cases heq
            refine ⟨g.fresh, ?_⟩
            rw [element?_congr (r.data id (lt_size_of_element? he)), he]
          · obtain ⟨hfresh, hmade⟩ := r.made x t hx
            exact ⟨Nat.le_trans hsize hfresh, hmade⟩

section IsClosedAt

variable {l l' : List FormattingEntry} {e : FormattingEntry}

theorem isClosedAt?_element {id : NodeId} {tag : Tag}
    (hf : b.formatting = l ++ .element id tag :: l') :
    b.isClosedAt? l.length = some (!b.openElements.contains id) := by
  simp [isClosedAt?, hf]

theorem isClosedAt?_of_closed (hf : b.formatting = l ++ e :: l') (hm : .marker ≠ e)
    (hclosed : ∀ x ∈ entryIds [e], x ∉ b.openElements) : b.isClosedAt? l.length = some true := by
  cases e with
  | marker => exact absurd rfl hm
  | element id tag =>
    rw [isClosedAt?_element hf]
    simpa using hclosed id (by simp)

theorem isClosedAt?_of_endsOpen (hf : b.formatting = l ++ e :: l')
    (h : EndsOpen b.openElements (l ++ [e])) : b.isClosedAt? l.length = some false := by
  cases e with
  | marker => simp [isClosedAt?, hf]
  | element id tag =>
    rw [isClosedAt?_element hf]
    simpa using h id tag (List.getLast?_concat ..)

end IsClosedAt

/-- From the end of a stretch of closed elements one goes back to its start. -/
theorem rewind?_eq {kept closed later : List FormattingEntry}
    (hf : b.formatting = kept ++ closed ++ later)
    (hm : .marker ∉ closed) (hclosed : ∀ x ∈ entryIds closed, x ∉ b.openElements)
    (hends : EndsOpen b.openElements kept) :
    b.rewind? (kept ++ closed).length = some kept.length := by
  induction closed using List.reverseRecOn generalizing later with
  | nil =>
    rw [List.append_nil] at hf ⊢
    obtain rfl | ⟨kept, e, rfl⟩ := List.eq_nil_or_concat' kept
    · rfl
    · have hopen := isClosedAt?_of_endsOpen (by simpa using hf) hends
      rw [List.length_append, List.length_singleton, rewind?, hopen]
      rfl
  | append_singleton closed e ih =>
    have hcut : b.formatting = (kept ++ closed) ++ e :: later := by simpa using hf
    rw [List.mem_append, List.mem_singleton, not_or] at hm
    have hlast := isClosedAt?_of_closed hcut hm.2 fun x hx => hclosed x (by simp_all)
    rw [← List.append_assoc, List.length_append, List.length_singleton, rewind?, hlast]
    exact ih hcut hm.1 fun x hx => hclosed x (by simp [hx])

/-- If the list ends with the entry of an open element, or a marker, there is nothing to
open again. -/
theorem reconstruct_of_endsOpen (h : EndsOpen b.openElements b.formatting) : b.reconstruct = b := by
  obtain hnil | ⟨entries, e, hf⟩ := List.eq_nil_or_concat' b.formatting
  · rw [reconstruct, hnil]
    rfl
  · have hlast := isClosedAt?_of_endsOpen hf (hf ▸ h)
    have hlength : b.formatting.length = entries.length + 1 := by simp [hf]
    simp [reconstruct, hlength, Indexed.before?, reconstructFrom?, hlast]

/-- The elements that have been closed are opened again if they come last. -/
theorem exists_reconstruct {kept closed : List FormattingEntry} (h : Rooted b)
    (hf : b.formatting = kept ++ closed) (hm : .marker ∉ closed)
    (hclosed : ∀ x ∈ entryIds closed, x ∉ b.openElements) (hends : EndsOpen b.openElements kept) :
    ∃ reopened, Reopens b b.reconstruct kept closed reopened := by
  obtain rfl | ⟨init, e, rfl⟩ := List.eq_nil_or_concat' closed
  · rw [List.append_nil] at hf
    rw [reconstruct_of_endsOpen (hf ▸ hends)]
    exact ⟨[], .refl hf⟩
  · obtain ⟨b', reopened, hb', r⟩ := exists_reopens h hf hm
    have hcut : b.formatting = (kept ++ init) ++ [e] := by rw [hf, List.append_assoc]
    have hlength : b.formatting.length = (kept ++ init).length + 1 := by
      rw [hcut, List.length_append, List.length_singleton]
    have hspan : (kept ++ init).length + 1 - kept.length = (init ++ [e]).length := by
      rw [List.length_append, List.length_append, List.length_singleton]
      omega
    rw [List.mem_append, List.mem_singleton, not_or] at hm
    have hlast := isClosedAt?_of_closed hcut hm.2 fun x hx => hclosed x (by simp_all)
    have hrewind := rewind?_eq hcut hm.1 (fun x hx => hclosed x (by simp [hx])) hends
    refine ⟨reopened, ?_⟩
    simp only [reconstruct, hlength, Indexed.before?, reconstructFrom?, hlast, Option.bind_eq_bind,
      Option.bind_some, if_true, hrewind, hspan, hb', attempt_some]
    exact r

theorem endsOpen_of_lastStretch {S : List NodeId} {pre opened : List FormattingEntry}
    (h : ∀ e, pre.getLast? = some e → e = .marker) (hopened : ∀ x ∈ entryIds opened, x ∈ S) :
    EndsOpen S (pre ++ opened) := by
  intro x tag hx
  obtain rfl | ⟨opened, e, rfl⟩ := List.eq_nil_or_concat' opened
  · rw [List.append_nil] at hx
    cases h _ hx
  · rw [← List.append_assoc, List.getLast?_concat] at hx
    obtain rfl := Option.some.inj hx
    exact hopened x (by simp)

/-! ## 4. Reachable builders -/

theorem Reachable.rooted (h : Reachable b) : Rooted b := by
  obtain hspine | hh := h.valid
  · exact hspine.toSound.rooted
  · refine ⟨hh.openElements ▸ hh.planted.anchored, ?_⟩
    rw [hh.formatting]
    exact .nil

theorem Reachable.openFirst (h : Reachable b) :
    ActiveList b ∧ OpenFirst b.openElements b.formatting :=
  kept_openFirst.reachable (fun _ _ => ⟨⟨⟨List.nodup_nil, List.Pairwise.nil, fun _ _ h => absurd h
    List.not_mem_nil⟩, fun stretch hs => by simp [List.infix_nil.1 hs, kindred], Nat.le_refl 0⟩,
    .nil⟩) h

/-- Whatever tokens are fed, in the last stretch of the list the elements that are open come first,
in the order in which they are open. So opening elements again opens all that have been closed
there: they are new elements made for the tags that are in the list, which keeps its length and its
order; what has been open before stays as it is; and when it is done again nothing changes. -/
theorem reopens_of_reachable (h : Reachable b) {pre stretch : List FormattingEntry}
    (hf : b.formatting = pre ++ stretch) (hlast : LastStretch pre stretch) :
    ∃ opened closed, stretch = opened ++ closed ∧
      (entryIds opened).Sublist b.openElements.reverse ∧
      (∀ x ∈ entryIds closed, x ∉ b.openElements) ∧
      (∃ reopened, Reopens b b.reconstruct (pre ++ opened) closed reopened ∧
        (∀ x ∈ entryIds (opened ++ reopened), x ∈ b.reconstruct.openElements) ∧
        LastStretch pre (opened ++ reopened)) ∧
      b.reconstruct.formatting.length = b.formatting.length ∧
      tags b.reconstruct.formatting = tags b.formatting ∧
      b.reconstruct.reconstruct = b.reconstruct := by
  obtain ⟨ha, ho⟩ := h.openFirst
  obtain ⟨opened, closed, rfl, hopened, hclosed⟩ := OpenFirst.exists_split (hf ▸ ho) hlast.unmarked
  have hcut : b.formatting = (pre ++ opened) ++ closed := by rw [hf, List.append_assoc]
  have horder : InOrder b.openElements opened := ha.listed.order.sublist (by rw [hf]; simp)
  have hm : .marker ∉ opened ∧ .marker ∉ closed := by
    rw [← not_or, ← List.mem_append]
    exact hlast.unmarked
  have hends := endsOpen_of_lastStretch hlast.ends hopened
  obtain ⟨reopened, r⟩ := exists_reconstruct h.rooted hcut hm.2 hclosed hends
  -- afterwards the last entry is open, and then nothing has to be opened again
  have hopen : ∀ x ∈ entryIds (opened ++ reopened), x ∈ b.reconstruct.openElements := by
    intro x hx
    rw [r.openElements, List.mem_append, List.mem_reverse]
    rw [entryIds_append, List.mem_append] at hx
    exact hx.symm.imp_right (hopened x)
  have htags : tags b.reconstruct.formatting = tags b.formatting := by
    rw [r.formatting, hcut, tags_append, tags_append _ closed, r.tags]
  have hreopened : .marker ∉ reopened := by
    rw [← none_mem_tags, r.tags, none_mem_tags]
    exact hm.2
  refine ⟨opened, closed, rfl, horder.sublist_reverse h.rooted.anchored.nodup hopened, hclosed,
    ⟨reopened, r, hopen, by simp [hm.1, hreopened], hlast.ends⟩, ?_, htags, ?_⟩
  · simpa [tags] using congrArg List.length htags
  · refine reconstruct_of_endsOpen ?_
    rw [r.formatting, List.append_assoc]
    exact endsOpen_of_lastStretch hlast.ends hopen

/-- A paragraph is closed around one of two formatting elements. -/
def parted : List Token :=
  [.startTag { name := "b" }, .startTag { name := "p" }, .startTag { name := "i" },
    .endTag { name := "p" }]

theorem reopens_parted : ∃ b, feed {} parted = .ok b ∧
    b.formatting.map (fun e => e.id?.map b.openElements.contains) = [some true, some false] ∧
    (∃ opened closed, b.formatting = opened ++ closed ∧
      (entryIds opened).Sublist b.openElements.reverse ∧
      ∀ x ∈ entryIds closed, x ∉ b.openElements) ∧
    b.openElements.length = 3 ∧ b.reconstruct.openElements.length = 4 ∧
    tags b.reconstruct.formatting = tags b.formatting ∧
    b.reconstruct.reconstruct = b.reconstruct := by
  obtain ⟨b, hb, hentries, hmarker, hbefore, hafter⟩ := exists_ok (feed {} parted)
    (fun b => b.formatting.map (fun e => e.id?.map b.openElements.contains) =
      [some true, some false] ∧ .marker ∉ b.formatting ∧ b.openElements.length = 3 ∧
      b.reconstruct.openElements.length = 4)
    (by with_unfolding_all decide)
  obtain ⟨opened, closed, hsplit, horder, hclosed, -, -, htags, hagain⟩ :=
    reopens_of_reachable (.feed (.start false false) hb) (List.nil_append _).symm ⟨hmarker, nofun⟩
  exact ⟨b, hb, hentries, ⟨opened, closed, hsplit, horder, hclosed⟩, hbefore, hafter, htags, hagain⟩

end TreeBuilder

end Hypertext
