import Hypertext.Proofs.TreeBuilder.Ark
import Hypertext.Proofs.TreeBuilder.Rounds

/-!
# The list of active formatting elements

Whatever tokens are fed, the entries are for different elements, which are as their tags say. No
more than three elements of a stretch between markers are alike, and there is a marker for every
open element that has brought one along.
-/

namespace Hypertext

open Hypertext.Tree

/-! ## 1. Elements stay as they are -/

namespace Tree

variable {t t' : Tree}

theorem Put.data? {id p x : NodeId} {before : Option NodeId} (w : Put t t' id p before)
    (hx : x < t.size) : t'.data? x = t.data? x := by
  obtain ⟨grown, g, s⟩ := w.exists_grown
  exact (s.data x).trans (g.data x hx)

theorem element?_setMode (t : Tree) (mode : DocumentMode) (x : NodeId) :
    (t.setMode mode).element? x = t.element? x := by
  refine Option.ext fun e => ?_
  rw [element?_eq_some, element?_eq_some, setMode, Tree.data?, Tree.data?, get?_modify]
  split
  · rw [Option.map_map]
    simp only [Option.map_eq_some_iff, Function.comp_apply]
    refine exists_congr fun n => and_congr_right fun _ => ?_
    cases hn : n.data <;> simp [hn]
  · rfl

theorem element?_modifyElement {id x : NodeId} (f : Element → Element) (hx : x ≠ id) :
    (t.modifyElement id f).element? x = t.element? x :=
  element?_congr (by rw [modifyElement, Tree.data?, get?_modify, if_neg (Ne.symm hx), Tree.data?])

theorem element?_insertText (h : Forest t) {p x : NodeId} (hp : p < t.size) (ref : Option NodeId)
    (text : String) {e : Element} (he : t.element? x = some e) :
    (t.insertText p ref text).2.element? x = some e := by
  obtain ⟨prev, old, -, hold, heq⟩ | ⟨-, heq⟩ := insertText_cases t p ref text
  · have hne : x ≠ prev := by
      rintro rfl
      rw [element?_eq_some] at he
      simp [Tree.text?, he] at hold
    rw [heq, element?_congr (t := t), he]
    rw [setData, Tree.data?, get?_modify, if_neg (Ne.symm hne), Tree.data?]
  · have w := (put_alloc h hp (.text text) (by simp) ref).1
    rw [heq, element?_congr (w.data? (lt_size_of_element? he)), he]

end Tree

namespace TreeBuilder

variable {token : Token} {mode : InsertionMode} {b b' : TreeBuilder}

/-- Only the document element and the body get attributes later on. -/
theorem Step.element? (s : Step token mode b b') (h : Rooted b) {x : NodeId} {e : Element}
    (he : b.tree.element? x = some e) (hn : e.tagName ∉ ["html", "body"]) :
    b'.tree.element? x = some e := by
  have hf := h.anchored.forest
  have hlt := lt_size_of_element? he
  cases s with
  | aside a => rw [a.tree, he]
  | @insert name attributes ns =>
    obtain ⟨id, tree, heq, w, -⟩ := insertElement_eq h.anchored name attributes ns
    rw [heq, element?_congr (w.data? hlt), he]
  | leaf hd hp => rw [element?_congr ((put_leaf hf (hp.lt h) (Token.isLeaf hd) _).1.data? hlt), he]
  | setMode documentMode => rw [element?_setMode, he]
  | @merge id tag _ hid =>
    have hne : x ≠ id := by
      rintro rfl
      obtain hl | hl := hid.imp And.left And.left
      all_goals
        rw [label?, he] at hl
        rw [(Prod.mk.inj (Option.some.inj hl)).2] at hn
        exact hn (by decide)
    rw [mergeAttributes, element?_modifyElement _ hne, he]
  | adopt _ _ ha => rw [element?_congr (ha.rearranges.data? hf.linked hlt), he]
  | @unbody body => exact (element?_congr ((moved_detach hf.linked body).data x)).trans he
  | _ => exact he

/-! ## 2. Open elements with a marker -/

/-- How many elements are open that have brought a marker along. -/
def marked (b : TreeBuilder) : Nat := b.openElements.countP (b.isHtmlOf markedNames)

theorem isHtmlOf_congr {names : List String} {x : NodeId} (h : b'.tree.label? x = b.tree.label? x) :
    b'.isHtmlOf names x = b.isHtmlOf names x := by
  rw [Bool.eq_iff_iff, isHtmlOf_iff, isHtmlOf_iff, h]

/-- Elements that stay open bring no new markers. -/
theorem Rooted.countP_le (h : Rooted b) (hk : b.tree.Keeps b'.tree) {stack : List NodeId}
    (hs : stack.Sublist b.openElements) : stack.countP (b'.isHtmlOf markedNames) ≤ b.marked := by
  refine Nat.le_trans (Nat.le_of_eq ?_) hs.countP_le
  exact List.countP_congr fun x hx => by rw [isHtmlOf_congr (h.label_eq hk (hs.subset hx))]

theorem not_marked {x : NodeId} {ns : Namespace} {name : String}
    (hl : b.tree.label? x = some (ns, name)) (hn : ns = .html → name ∉ markedNames) :
    b.isHtmlOf markedNames x = false := by
  rw [Bool.eq_false_iff]
  intro hm
  obtain ⟨name', hname', hl'⟩ := isHtmlOf_iff.1 hm
  rw [hl] at hl'
  obtain ⟨rfl, rfl⟩ := Prod.mk.inj (Option.some.inj hl')
  exact hn rfl hname'

theorem not_marked_of_formatting : ∀ name ∈ Category.formatting, name ∉ markedNames := by decide

/-! ## 3. The list -/

/-- What is true of the list at any time. -/
structure ActiveList (b : TreeBuilder) : Prop where
  listed : Listed b
  ark : Ark (tags b.formatting)
  markers : b.marked ≤ b.formatting.count .marker

/-- Elements are closed, and the list stays as it is. -/
theorem ActiveList.narrow (ha : ActiveList b) (h : Rooted b) (hk : b.tree.Keeps b'.tree)
    (hm : Made b'.tree b.formatting) (hs : b'.openElements.Sublist b.openElements)
    (hf : b'.formatting = b.formatting) : ActiveList b' := by
  refine ⟨⟨?_, ?_, ?_⟩, ?_, ?_⟩
  · exact hf ▸ ha.listed.nodup
  · exact hf ▸ ha.listed.order.stack h.anchored.nodup hs
  · exact hf ▸ hm
  · exact hf ▸ ha.ark
  · rw [hf]
    exact Nat.le_trans (h.countP_le hk hs) ha.markers

theorem element?_insertHtml (h : Rooted b) {tag : Tag} (hname : tag.name ≠ "template") {id : NodeId}
    (hid : (b.insertHtml tag).currentNode? = some id) :
    (b.insertHtml tag).tree.element? id = some tag.made := by
  have hne : (Namespace.html, tag.name) ≠ (.html, "template") := fun heq =>
    hname (Prod.ext_iff.1 heq).2
  obtain ⟨x, tree, heq, -, he⟩ := exists_insertElement h.anchored tag.attributes hne
  rw [insertHtml, heq] at hid ⊢
  cases hid
  exact he

/-- A new element gets its entry between others. -/
theorem Listed.enter {l l' : List FormattingEntry} {id : NodeId} {tag : Tag} {tree : Tree}
    (hb : Listed b) (hs : (l ++ l').Sublist b.formatting) (hid : id ∉ entryIds b.formatting)
    (hm : Made tree b.formatting) (he : tree.element? id = some tag.made)
    (hclosed : ∀ x ∈ entryIds l', x ∉ b.openElements) (framesetOk : Bool) :
    Listed { b with
      tree, framesetOk, openElements := id :: b.openElements
      formatting := l ++ .element id tag :: l' } := by
  have hid' : id ∉ entryIds (l ++ l') := fun hmem => hid ((hs.filterMap _).subset hmem)
  exact ⟨nodup_entryIds_element.2 ⟨hid', hb.nodup.sublist (hs.filterMap _)⟩,
    InOrder.insert (A := []) (hb.order.sublist hs) hid' (fun _ _ => List.not_mem_nil) hclosed tag,
    (hm.subset hs.subset).insert he⟩

theorem Lists.active {name : String} {attributes : List Attribute} {ns : Namespace}
    {formatting : List FormattingEntry} (hl : Lists b ns name attributes formatting) (h : Rooted b)
    (ha : ActiveList b) (framesetOk : Bool) :
    ActiveList { b.insertElement name attributes ns with formatting, framesetOk } := by
  obtain ⟨id, tree, heq, w, hlabel⟩ := insertElement_eq h.anchored name attributes ns
  have hk := (w.sprout h.anchored.forest (place_lt h.anchored)).keeps
  have hfresh : b.tree.size ≤ id := w.exists_grown.choose_spec.1.fresh
  have hm : Made tree b.formatting := ha.listed.made.keeps fun x e he => by
    rw [element?_congr (w.data? (lt_size_of_element? he)), he]
  have hid : id ∉ entryIds b.formatting := ha.listed.made.not_mem hfresh
  have hold : b.openElements.countP ({ b with tree }.isHtmlOf markedNames) ≤ b.marked :=
    h.countP_le hk (List.Sublist.refl _)
  -- an element that brings no marker along does not count as marked
  have hmarked : (ns = .html → name ∉ markedNames) →
      (id :: b.openElements).countP ({ b with tree }.isHtmlOf markedNames) ≤ b.marked :=
      fun hn => by
    rw [List.countP_cons_of_neg]
    · exact hold
    · simp [not_marked (b := { b with tree }) hlabel hn]
  cases hl with
  | same hn =>
    rw [heq]
    exact ⟨⟨ha.listed.nodup, ha.listed.order.push hid, hm⟩, ha.ark,
      Nat.le_trans (hmarked hn) ha.markers⟩
  | marker =>
    rw [heq]
    refine ⟨⟨?_, ?_, ?_⟩, ?_, ?_⟩
    · simpa using ha.listed.nodup
    · simpa [InOrder] using ha.listed.order.push hid
    · simpa [Made] using hm
    · simpa using ha.ark.marker
    · have hle := Nat.le_trans hold ha.markers
      show (id :: b.openElements).countP ({ b with tree }.isHtmlOf markedNames) ≤
        (b.formatting ++ [FormattingEntry.marker]).count FormattingEntry.marker
      rw [List.countP_cons, List.count_append, List.count_singleton_self]
      split <;> omega
  | @remember tag id' ht hid' =>
    have he := element?_insertHtml h (not_html_of_formatting ht).2.2 hid'
    obtain ⟨pre, tail, hf, hlast⟩ := exists_lastStretch b.formatting
    have hpush := @exists_pushFormatting (b.insertHtml tag) pre tail id' tag
    unfold insertHtml at hpush hid' he ⊢
    rw [heq] at hpush hid' he ⊢
    obtain rfl := Option.some.inj hid'
    -- one of three like it may make room for the new entry, behind the last marker
    obtain ⟨kept, hkept, hentries, hkindred⟩ := hpush hf hlast hm ha.ark he
    have hs : (pre ++ kept ++ []).Sublist b.formatting := by
      rw [hf, List.append_nil]
      exact (List.Sublist.refl _).append hkept
    have hlisted := ha.listed.enter hs hid hm he (fun _ hx => absurd hx List.not_mem_nil) framesetOk
    rw [List.append_assoc] at hlisted
    rw [hentries]
    refine ⟨hlisted, hlast.ark (hf ▸ ha.ark) hkindred, ?_⟩
    refine Nat.le_trans (hmarked fun _ => not_marked_of_formatting _ ht)
      (Nat.le_trans ha.markers ?_)
    rw [hf, hlast.count_marker, List.count_append]
    exact Nat.le_add_right _ _
  | @renew tag id' old earlier later ht hid' hf hclosed =>
    have he := element?_insertHtml h (not_html_of_formatting ht).2.2 hid'
    unfold insertHtml at hid' he
    rw [heq] at hid' he ⊢
    obtain rfl := Option.some.inj hid'
    have hs : (earlier ++ later).Sublist b.formatting := by
      rw [hf]
      exact (List.Sublist.refl _).append (List.sublist_cons_self _ _)
    -- the entry is for another element now, but the tags are the same
    refine ⟨ha.listed.enter hs hid hm he hclosed framesetOk, ?_, ?_⟩
    · have hark := ha.ark
      rw [hf] at hark
      simpa using hark
    · refine Nat.le_trans (hmarked fun _ => not_marked_of_formatting _ ht)
        (Nat.le_trans ha.markers ?_)
      rw [hf]
      simp [List.count_append]

/-- Of what the adoption agency leaves open, only elements that have been open before
have markers. -/
theorem Adopts.marked_le {r : AgencyRound} (ha : Adopts b b' r) (h : Rooted b) :
    b'.marked ≤ b.marked := by
  have hr := ha.rebuilt
  rw [marked, marked, List.countP_eq_length_filter, List.countP_eq_length_filter]
  refine (List.subperm_of_subset (hr.planted.nodup.filter _) fun x hx => ?_).length_le
  obtain ⟨hx, hm⟩ := List.mem_filter.1 hx
  have hopen : x ∈ b.openElements := by
    obtain ⟨new, hnew, hcases⟩ := hr.stack
    rw [ha.carriable.stack]
    rw [hnew] at hx
    rcases List.mem_append.1 hx with hx | hx
    · obtain hold | ⟨name, hname, hl⟩ := hcases x hx
      · simp only [List.mem_append, List.mem_cons, List.not_mem_nil, or_false] at hold ⊢
        tauto
      · rw [not_marked hl fun _ => not_marked_of_formatting name hname] at hm
        cases hm
    · simp [hx]
  exact List.mem_filter.2 ⟨hopen, by rwa [← isHtmlOf_congr (h.label_eq hr.keeps hopen)]⟩

theorem Step.active (s : Step token mode b b') (h : Rooted b) (ha : ActiveList b) :
    ActiveList b' := by
  have hk := s.keeps h
  have hm : Made b'.tree b.formatting := fun id tag hmem => by
    obtain ⟨hhtml, hbody, -⟩ := not_html_of_formatting (h.named id tag hmem).1
    exact s.element? h (ha.listed.made id tag hmem) (by simp [Tag.made, hhtml, hbody])
  obtain ⟨pre, tail, hf, hlast⟩ := exists_lastStretch b.formatting
  cases s with
  | aside a => exact ha.narrow h hk hm (a.openElements ▸ .refl _) a.formatting
  | close hs => exact ha.narrow h hk hm hs rfl
  | insert hlists => exact hlists.active h ha _
  | leaf => exact ha.narrow h hk hm (.refl _) rfl
  | setMode => exact ha.narrow h hk hm (.refl _) rfl
  | merge => exact ha.narrow h hk hm (.refl _) rfl
  | @pushHead head html _ _ hhead =>
    have hid : head ∉ entryIds b.formatting := fun hmem => by
      obtain ⟨tag, hmem⟩ := mem_entryIds.1 hmem
      exact h.named.not_mem hhead (by decide) tag hmem
    refine ⟨⟨ha.listed.nodup, ha.listed.order.push hid, ha.listed.made⟩, ha.ark, ?_⟩
    refine Nat.le_trans (Nat.le_of_eq ?_) ha.markers
    exact List.countP_cons_of_neg (by simp [not_marked (b := b.push head) hhead (by decide)])
  | @forget id tag earlier later stack hentry hclosed =>
    -- the entry goes, and with it its element if it is open
    have hstack := sublist_of_forget hclosed
    have hs : (earlier ++ later).Sublist b.formatting := by
      rw [hentry]
      exact (List.Sublist.refl _).append (List.sublist_cons_self _ _)
    refine ⟨⟨ha.listed.nodup.sublist (hs.filterMap _),
      (ha.listed.order.stack h.anchored.nodup hstack).sublist hs, ha.listed.made.subset hs.subset⟩,
      ?_, Nat.le_trans (h.countP_le hk hstack) (Nat.le_trans ha.markers ?_)⟩
    · have hark := ha.ark
      rw [hentry, tags_append, tags_element] at hark
      exact tags_append earlier later ▸ hark.erase
    · rw [hentry]
      simp [List.count_append]
  | @unmark inner outer hopen hmarked =>
    have hentries := formatting_clearToMarker (b := { b with openElements := outer }) hf hlast
    have hkept : pre.dropLast <+: b.formatting := hf ▸
      (List.dropLast_prefix pre).trans (List.prefix_append pre tail)
    have hs : outer.Sublist b.openElements := hopen ▸ List.sublist_append_right inner outer
    refine ⟨⟨?_, ?_, ?_⟩, ?_, ?_⟩
    · exact hentries ▸ ha.listed.nodup.sublist (hkept.sublist.filterMap _)
    · exact hentries ▸ (ha.listed.order.stack h.anchored.nodup hs).sublist hkept.sublist
    · exact hentries ▸ ha.listed.made.subset hkept.subset
    · exact hentries ▸ ha.ark.mono (hkept.map _).isInfix
    · -- one marker goes, but so does the element that has brought it along
      have hone : 1 ≤ inner.countP (b.isHtmlOf markedNames) := by
        obtain ⟨x, hx, hm⟩ := hmarked
        exact List.countP_pos_iff.2 ⟨x, hx, isHtmlOf_iff.2 hm⟩
      have hmany := ha.markers
      rw [marked, hopen, List.countP_append, hf, hlast.count_marker] at hmany
      have hdrop : pre.count .marker ≤ pre.dropLast.count .marker + 1 := by
        obtain rfl | ⟨pre, e, rfl⟩ := List.eq_nil_or_concat' pre
        · exact Nat.zero_le _
        · rw [List.dropLast_concat, List.count_append]
          exact Nat.add_le_add_left List.count_le_length _
      rw [hentries]
      show outer.countP (b.isHtmlOf markedNames) ≤ _
      omega
  | stop =>
    exact ⟨⟨List.nodup_nil, List.Pairwise.nil, fun _ _ h => absurd h List.not_mem_nil⟩,
      ha.ark.mono (List.nil_infix), Nat.zero_le _⟩
  | adopt _ hactive had =>
    -- only entries behind the last marker are replaced, with the tags that they have
    obtain ⟨hlisted, tail', hentries, hperm⟩ := had.listed ha.listed hf
      (mem_tail_of_activeFormatting? hf hlast hactive)
    refine ⟨hlisted, ?_, Nat.le_trans (had.marked_le h) (Nat.le_trans ha.markers ?_)⟩
    · rw [hentries]
      refine hlast.ark (hf ▸ ha.ark) fun tag => ?_
      exact Nat.le_trans (hperm.countP_le _) (hlast.kindred_le (hf ▸ ha.ark) tag)
    · rw [hf, hlast.count_marker, hentries, List.count_append]
      exact Nat.le_add_right _ _
  | unbody => exact ha.narrow h hk hm (List.drop_sublist _ _) rfl

theorem kept_active : Kept (fun _ => True) (fun _ => True) ActiveList where
  follows _ _ := trivial
  mode _ _ := trivial
  note {b b'} ht hs hf _ _ ha := by
    refine ⟨⟨hf ▸ ha.listed.nodup, ?_, ht ▸ hf ▸ ha.listed.made⟩, hf ▸ ha.ark, ?_⟩
    · exact hs ▸ hf ▸ ha.listed.order
    · have hsame : b'.isHtmlOf markedNames = b.isHtmlOf markedNames := by
        funext x
        exact isHtmlOf_congr (ht ▸ rfl)
      rw [marked, hs, hsame, hf]
      exact ha.markers
  step _ _ s hr _ ha := s.active hr ha
  char {b} c hr hl hp _ ha := by
    have hf := hr.anchored.forest
    have hlt := place_lt hr.anchored
    rw [insertChar_eq_insertText hr.anchored, if_neg hp]
    exact ha.narrow hr (extends_insertText hf hlt _ _).keeps
      (ha.listed.made.keeps fun x e he => element?_insertText hf hlt _ _ he) (.refl _) rfl

/-! ## 4. Reachable builders -/

theorem Reachable.named (h : Reachable b) : Named b.tree b.formatting := by
  obtain hspine | hh := h.valid
  · exact hspine.toSound.rooted.named
  · rw [hh.formatting]
    exact .nil

/-- Two nodes are elements of the same name and namespace with the same attributes. -/
def SameElement (t : Tree) (x y : NodeId) : Prop :=
  ∃ e e', t.element? x = some e ∧ t.element? y = some e' ∧ e.tagName = e'.tagName ∧ e.ns = e'.ns ∧
    ∀ name, e.attributes.get? name = e'.attributes.get? name

theorem kin_of_sameElement {entries : List FormattingEntry} (hm : Made b.tree entries)
    {x y : NodeId} {s t : Tag} (hx : .element x s ∈ entries) (hy : .element y t ∈ entries)
    (h : SameElement b.tree x y) : s.kin t = true := by
  obtain ⟨e, e', he, he', hname, -, hattributes⟩ := h
  rw [hm x s hx] at he
  rw [hm y t hy] at he'
  cases he
  cases he'
  simp only [Tag.made, get?_attributesOf] at hname hattributes
  exact Tag.kin_iff.2 ⟨hname, hattributes⟩

/-- If they are the same element all over, entries are kindred to the first of them. -/
theorem length_eq_kindred {id : NodeId} {tag : Tag} {l : List FormattingEntry}
    (hm : Made b.tree (.element id tag :: l)) (hmarker : .marker ∉ l)
    (hsame : (entryIds (.element id tag :: l)).Pairwise (SameElement b.tree)) :
    (FormattingEntry.element id tag :: l).length = kindred tag (tags (.element id tag :: l)) := by
  rw [kindred, tags, List.countP_map, List.countP_eq_length.2]
  intro e he
  cases e with
  | marker => simp [hmarker] at he
  | element y t =>
    show tag.kin t = true
    rcases List.mem_cons.1 he with heq | hmem
    · cases heq
      exact Tag.kin_iff.2 ⟨rfl, fun _ => rfl⟩
    · exact kin_of_sameElement hm (List.mem_cons_self ..) he
        ((List.pairwise_cons.1 hsame).1 y (mem_entryIds.2 ⟨t, hmem⟩))

/-- Whatever tokens are fed, the entries are for different elements that are as their tags say; of
one kind there are at most three in a stretch without a marker; and there are as many markers as
there are open elements that have brought one along, or more. -/
theorem activeList_of_reachable (h : Reachable b) :
    ((entryIds b.formatting).Nodup ∧ ∀ id tag, .element id tag ∈ b.formatting →
      tag.name ∈ Category.formatting ∧ ∃ e, b.tree.element? id = some e ∧ e.ns = .html ∧
        e.tagName = tag.name ∧ e.attributes.names.Nodup ∧
        ∀ name, e.attributes.get? name = tag.attribute? name) ∧
    (∀ earlier stretch later, b.formatting = earlier ++ stretch ++ later → .marker ∉ stretch →
      ∀ same : List FormattingEntry, same.Sublist stretch →
        (entryIds same).Pairwise (SameElement b.tree) → same.length ≤ 3) ∧
    b.openElements.countP (b.isHtmlOf markedNames) ≤ b.formatting.count .marker := by
  have ha : ActiveList b := kept_active.reachable (fun _ _ => ⟨⟨List.nodup_nil, List.Pairwise.nil,
    fun _ _ h => absurd h List.not_mem_nil⟩,
    fun stretch hs => by simp [List.infix_nil.1 hs, kindred], Nat.le_refl 0⟩) h
  refine ⟨⟨ha.listed.nodup, fun id tag hmem => ⟨(h.named id tag hmem).1, tag.made,
    ha.listed.made id tag hmem, rfl, rfl, nodup_attributesOf _, get?_attributesOf tag⟩⟩,
    ?_, ha.markers⟩
  intro earlier stretch later hf hmarker same hs hsame
  cases same with
  | nil => exact Nat.zero_le 3
  | cons e l =>
    cases e with
    | marker => exact absurd (hs.subset (List.mem_cons_self ..)) hmarker
    | element id tag =>
      have hpiece : stretch <:+: b.formatting := ⟨earlier, later, hf.symm⟩
      have hm := ha.listed.made.subset (List.Subset.trans hs.subset hpiece.subset)
      have hl : .marker ∉ l := fun hmem => hmarker (hs.subset (List.mem_cons_of_mem _ hmem))
      rw [length_eq_kindred hm hl hsame]
      refine Nat.le_trans (hs.map _).countP_le ?_
      exact ha.ark _ (hpiece.map _) (fun hmem => hmarker (none_mem_tags.1 hmem)) tag

/-- Four elements of a kind, and another in an applet. -/
def crowded : List Token :=
  [.startTag { name := "b" }, .startTag { name := "b" }, .startTag { name := "b" },
    .startTag { name := "b" }, .startTag { name := "applet" }, .startTag { name := "b" }]

theorem activeList_crowded : ∃ b, feed {} crowded = .ok b ∧
    b.formatting.map (·.isElement) = [true, true, true, false, true] ∧
    (entryIds b.formatting).Nodup ∧
    (∀ same : List FormattingEntry, same.Sublist (b.formatting.take 3) →
      (entryIds same).Pairwise (SameElement b.tree) → same.length ≤ 3) ∧
    b.openElements.countP (b.isHtmlOf markedNames) ≤ 1 := by
  obtain ⟨b, hb, helements, hmarker, hcount⟩ := exists_ok (feed {} crowded)
    (fun b => b.formatting.map (·.isElement) = [true, true, true, false, true] ∧
      .marker ∉ b.formatting.take 3 ∧ b.formatting.count .marker = 1) (by with_unfolding_all decide)
  obtain ⟨⟨hnodup, -⟩, hthree, hmarkers⟩ := activeList_of_reachable (.feed (.start false false) hb)
  exact ⟨b, hb, helements, hnodup, hthree [] _ (b.formatting.drop 3)
    (List.take_append_drop 3 b.formatting).symm hmarker, hcount ▸ hmarkers⟩

end TreeBuilder

end Hypertext
