import Hypertext.Proofs.Foreign
import Hypertext.Proofs.Token
import Hypertext.Proofs.TreeBuilder.Rounds

/-!
# Nulls in trees

All strings of a tree come from tokens, some of them by way of the list of active formatting
elements, or are names that the rules know. A null character is inserted in raw text only.
-/

namespace Hypertext

open Hypertext.Tree

/-! ## 1. Trees -/

structure Element.NullFree (e : Element) : Prop where
  tagName : Hypertext.NullFree e.tagName
  attributes : ∀ p ∈ e.attributes, Hypertext.NullFree p.1 ∧ Hypertext.NullFree p.2

/-- No string of the node has a null. -/
def NodeData.NullFree : NodeData → Prop
  | .doctype name publicId systemId =>
    Hypertext.NullFree name ∧ Hypertext.NullFree publicId ∧ Hypertext.NullFree systemId
  | .element e => e.NullFree
  | .text s | .comment s => Hypertext.NullFree s
  | .document _ | .fragment => True

/-- No string of the tree has a null. -/
def Tree.NullFree (t : Tree) : Prop := ∀ x data, t.data? x = some data → data.NullFree

theorem nullFree_addNew {as : Attributes} {attributes : List Attribute}
    (has : ∀ p ∈ as, NullFree p.1 ∧ NullFree p.2) (h : ∀ a ∈ attributes, a.NullFree) :
    ∀ p ∈ attributes.foldl (fun as a => as.addNew a.name a.value) as, NullFree p.1 ∧
    NullFree p.2 := by
  induction attributes generalizing as with
  | nil => exact has
  | cons a rest ih =>
    obtain ⟨ha, hrest⟩ := List.forall_mem_cons.1 h
    refine ih (fun p hp => ?_) hrest
    dsimp only [Attributes.addNew] at hp
    split at hp
    · exact has p hp
    · rcases List.mem_append.1 hp with hp | hp
      · exact has p hp
      · rw [List.mem_singleton.1 hp]
        exact ⟨ha.name, ha.value⟩

namespace Tree.NullFree

variable {t t' : Tree} {id : NodeId} {data : NodeData}

theorem empty : Tree.empty.NullFree := by
  intro x data hx
  obtain rfl : x = 0 := Nat.lt_one_iff.1 (lt_size_of_data? hx)
  cases hx
  trivial

section

variable (h : t.NullFree)
include h

theorem of_data (hd : ∀ x, t'.data? x = t.data? x) : t'.NullFree :=
  fun x data hx => h x data (hd x ▸ hx)

theorem alloc (hd : data.NullFree) : (t.alloc data).2.NullFree := by
  intro x data' hx
  rw [data?_alloc] at hx
  split at hx
  · cases hx
    exact hd
  · exact h x data' hx

theorem insertAt (p : NodeId) (before : Option NodeId) (c : NodeId) :
    (t.insertAt p before c).NullFree := by
  unfold Tree.insertAt
  split
  · exact h.of_data data?_insertBefore
  · exact h.of_data data?_appendChild

theorem modify {f : Node → Node} (hf : ∀ n : Node, n.data.NullFree → (f n).data.NullFree) :
    (t.modify id f).NullFree := by
  intro x data hx
  rw [data?, get?_modify] at hx
  split at hx
  · rw [Option.map_map] at hx
    obtain ⟨n, hn, rfl⟩ := Option.map_eq_some_iff.1 hx
    exact hf n (h x n.data (by rw [data?, hn]; rfl))
  · exact h x data hx

theorem setData (hd : data.NullFree) : (t.setData id data).NullFree := h.modify fun _ _ => hd

theorem modifyElement {f : Element → Element} (hf : ∀ e, e.NullFree → (f e).NullFree) :
    (t.modifyElement id f).NullFree := by
  refine h.modify fun n hn => ?_
  split
  · next e heq =>
    rw [heq] at hn
    exact hf e hn
  · exact hn

theorem setMode (documentMode : DocumentMode) : (t.setMode documentMode).NullFree := by
  refine h.modify fun n hn => ?_
  split
  · trivial
  · exact hn

theorem createElement {name : String} {attributes : List Attribute}
    (hname : Hypertext.NullFree name) (ha : ∀ a ∈ attributes, a.NullFree) (ns : Namespace) :
    (TreeBuilder.createElement t name attributes ns).2.NullFree := by
  have hempty : ∀ p ∈ ([] : Attributes), Hypertext.NullFree p.1 ∧ Hypertext.NullFree p.2 := nofun
  have hattributes := nullFree_addNew hempty ha
  unfold TreeBuilder.createElement
  dsimp only
  split
  · have hfragment : (t.alloc .fragment).2.NullFree :=
      h.alloc (show NodeData.fragment.NullFree from trivial)
    exact hfragment.alloc (show Element.NullFree _ from ⟨hname, hattributes⟩)
  · exact h.alloc (show Element.NullFree _ from ⟨hname, hattributes⟩)

theorem moveChildren (source target : NodeId) : (t.moveChildren source target).NullFree := by
  unfold Tree.moveChildren
  generalize t.children source = cs
  induction cs generalizing t with
  | nil => exact h
  | cons c cs ih => exact ih (h.of_data data?_appendChild)

theorem insertText (p : NodeId) (before : Option NodeId) {s : String} (hs : Hypertext.NullFree s) :
    (t.insertText p before s).2.NullFree := by
  obtain ⟨prev, old, -, hold, heq⟩ | ⟨-, heq⟩ := insertText_cases t p before s
  · rw [heq]
    have hnew : (NodeData.text (old ++ s)).NullFree :=
      Hypertext.NullFree.append (h prev _ (text?_eq_some.1 hold)) hs
    exact h.setData hnew
  · rw [heq]
    have hnew : (NodeData.text s).NullFree := hs
    exact (h.alloc hnew).insertAt p before _

end

end Tree.NullFree

namespace TreeBuilder

variable {token : Token} {mode : InsertionMode} {b b' a : TreeBuilder} {cs : List Char}
  {o : Outcome}

/-! ## 2. Steps -/

section Foreign

open Foreign

variable {name : String}

/-- A null has no case. -/
theorem nullFree_of_toLower (h : Hypertext.NullFree name.toLower) : Hypertext.NullFree name := by
  intro hmem
  refine h ?_
  show '\x00' ∈ (name.map Char.toLower).toList
  rw [String.toList_map]
  exact List.mem_map.2 ⟨'\x00', hmem, by decide⟩

theorem nullFree_adjustTagName (h : Hypertext.NullFree name) (ns : Namespace) :
    Hypertext.NullFree (adjustTagName ns name) := by
  obtain heq | heq := adjustTagName_cases ns name
  · exact heq.symm ▸ h
  · exact nullFree_of_toLower (heq.symm ▸ h)

theorem nullFree_adjustAttributeName (h : Hypertext.NullFree name) (ns : Namespace) :
    Hypertext.NullFree (adjustAttributeName ns name) := by
  obtain heq | heq := adjustAttributeName_cases ns name
  · exact heq.symm ▸ h
  · exact nullFree_of_toLower (heq.symm ▸ h)

end Foreign

/-- No string of the tree has a null, and none of a tag that is held to open an element again. -/
structure NullFree (b : TreeBuilder) : Prop where
  tree : b.tree.NullFree
  formatting : ∀ id tag, .element id tag ∈ b.formatting → tag.NullFree

theorem Supplied.nullFree {formatting : List FormattingEntry} {name : String}
    {attributes : List Attribute} (h : Supplied token formatting name attributes)
    (ht : ∀ tag, token = .startTag tag → tag.NullFree)
    (hf : ∀ id tag, .element id tag ∈ formatting → tag.NullFree) :
    Hypertext.NullFree name ∧ ∀ a ∈ attributes, a.NullFree := by
  cases h with
  | tag h => exact ⟨(ht _ h).name, (ht _ h).attributes⟩
  | adjusted ns h hname =>
    refine ⟨?_, fun a ha => ?_⟩
    · obtain rfl | rfl := hname
      · exact (ht _ h).name
      · exact nullFree_adjustTagName (ht _ h).name ns
    · obtain ⟨a, hmem, rfl⟩ := List.mem_map.1 ha
      have ha := (ht _ h).attributes a hmem
      exact ⟨nullFree_adjustAttributeName ha.name ns, ha.value⟩
  | implied h =>
    have hall : ∀ name ∈ impliedNames, Hypertext.NullFree name := by decide +kernel
    exact ⟨hall _ h, nofun⟩
  | entry h => exact ⟨(hf _ _ h).name, (hf _ _ h).attributes⟩

theorem Lists.nullFree {name : String} {attributes : List Attribute} {ns : Namespace}
    {formatting : List FormattingEntry} (hl : Lists b ns name attributes formatting)
    (h : ∀ id tag, .element id tag ∈ b.formatting → tag.NullFree)
    (hs : Hypertext.NullFree name ∧ ∀ a ∈ attributes, a.NullFree) :
    ∀ id tag, .element id tag ∈ formatting → tag.NullFree := by
  -- an entry that is new has the tag that is on hand
  cases hl with
  | same => exact h
  | marker =>
    intro id tag hmem
    exact h id tag ((List.mem_append.1 hmem).resolve_right (by simp))
  | @remember tag id =>
    obtain ⟨entries, heq, hsubset⟩ := pushFormatting_eq (b := b.insertHtml tag) id tag
    obtain ⟨tree, openElements, fault, hinsert⟩ :=
      insertElement_same b tag.name tag.attributes .html
    intro id' tag' hmem
    rw [heq] at hmem
    rcases List.mem_append.1 hmem with hmem | hmem
    · have hold := hsubset hmem
      rw [insertHtml, hinsert] at hold
      exact h id' tag' hold
    · cases List.mem_singleton.1 hmem
      exact ⟨hs.1, hs.2⟩
  | @renew tag id old earlier later _ _ hf =>
    intro id' tag' hmem
    rcases List.mem_append.1 hmem with hmem | hmem
    · exact h id' tag' (hf ▸ List.mem_append_left _ hmem)
    · rcases List.mem_cons.1 hmem with heq | hmem
      · cases heq
        exact ⟨hs.1, hs.2⟩
      · exact h id' tag' (hf ▸ List.mem_append_right _ (List.mem_cons_of_mem _ hmem))

section Climbs

variable {deeper between copies rest outer : List NodeId} {block : NodeId} {w₀ w : Walk}

theorem Climbs.nullFree (c : Climbs deeper block outer w₀ between copies rest w)
    (h : w₀.builder.NullFree) : w.builder.NullFree := by
  induction c with
  | start => exact h
  | forget _ _ ih =>
    exact ⟨ih.tree, fun id tag hmem => ih.formatting id tag (List.mem_of_mem_eraseIdx hmem)⟩
  | close _ _ ih => exact ⟨ih.tree, ih.formatting⟩
  | @copy copies rest node id w i tag tree c hi htag hnew ih =>
    have htag' := ih.formatting node tag (List.mem_of_getElem? htag)
    have hmade := ih.tree.createElement htag'.name htag'.attributes .html
    rw [hnew] at hmade
    refine ⟨hmade.of_data data?_appendChild, fun id' tag' hmem => ?_⟩
    rcases List.mem_or_eq_of_mem_set hmem with hmem | heq
    · exact ih.formatting id' tag' hmem
    · cases heq
      exact htag'

end Climbs

theorem Adopts.nullFree {r : AgencyRound} (ha : Adopts b b' r) (h : b.NullFree) : b'.NullFree := by
  have hclimbed := ha.climbs.nullFree h
  have htag := hclimbed.formatting r.element r.tag (List.mem_of_getElem? ha.entry)
  have hput : (r.walk.putDown r.outer).builder.tree.NullFree := hclimbed.tree.insertAt _ _ _
  have hmade := hput.createElement htag.name htag.attributes .html
  rw [ha.created] at hmade
  rw [ha.result]
  refine ⟨(hmade.moveChildren r.block r.copy).of_data data?_appendChild, fun id tag hmem => ?_⟩
  rcases List.eq_or_mem_of_mem_insertIdx hmem with heq | hmem
  · cases heq
    exact htag
  · exact hclimbed.formatting id tag (List.mem_of_mem_eraseIdx hmem)

theorem Step.nullFree (s : Step token mode b b') (ht : token.NullFree ∨ token = .character '\x00')
    (hr : Rooted b) (h : b.NullFree) : b'.NullFree := by
  have htag : ∀ tag, token = .startTag tag → tag.NullFree := by
    rintro tag rfl
    exact ht.resolve_right nofun
  cases s with
  | aside a => exact ⟨a.tree ▸ h.tree, a.formatting ▸ h.formatting⟩
  | insert hl _ _ _ hs =>
    have hsupplied := hs.nullFree htag h.formatting
    rw [insertElement_eq_insertAt hr.anchored]
    exact ⟨(h.tree.createElement hsupplied.1 hsupplied.2 _).insertAt _ _ _,
      hl.nullFree h.formatting hsupplied⟩
  | @leaf data place hd =>
    refine ⟨(h.tree.alloc ?_).insertAt _ _ _, h.formatting⟩
    -- the parts of a doctype that are missing are empty
    have hpart : ∀ {part : Option String}, (∀ s ∈ part, Hypertext.NullFree s) →
        Hypertext.NullFree (part.getD "") := by
      rintro (- | s) hpart
      · exact List.not_mem_nil
      · exact hpart s rfl
    cases token <;> cases hd
    · have hdoctype := ht.resolve_right nofun
      exact ⟨hpart hdoctype.name, hpart hdoctype.publicId, hpart hdoctype.systemId⟩
    · exact ht.resolve_right nofun
  | setMode documentMode => exact ⟨h.tree.setMode documentMode, h.formatting⟩
  | merge hm =>
    refine ⟨h.tree.modifyElement fun e he => ⟨he.tagName, ?_⟩, h.formatting⟩
    exact nullFree_addNew he.attributes (htag _ hm).attributes
  | forget hf =>
    refine ⟨h.tree, fun id tag hmem => h.formatting id tag ?_⟩
    rw [hf]
    rcases List.mem_append.1 hmem with hmem | hmem
    · exact List.mem_append_left _ hmem
    · exact List.mem_append_right _ (List.mem_cons_of_mem _ hmem)
  | unmark =>
    refine ⟨h.tree, fun id tag hmem => h.formatting id tag ?_⟩
    have hmem := List.mem_of_mem_tail (List.mem_reverse.1 hmem)
    exact List.mem_reverse.1 ((List.dropWhile_sublist _).subset hmem)
  | stop => exact ⟨h.tree, nofun⟩
  | adopt _ _ ha => exact ha.nullFree h
  | unbody => exact ⟨h.tree.of_data (data?_detach _), h.formatting⟩
  | close => exact ⟨h.tree, h.formatting⟩
  | pushHead => exact ⟨h.tree, h.formatting⟩

/-! ## 3. Rounds -/

theorem Acts.nullFree (h : Acts token mode b cs a) (ht : token.NullFree ∨ token = .character '\x00')
    (hcs : '\x00' ∉ cs) (hr : Rooted b) (hb : b.NullFree) : a.NullFree := by
  induction h with
  | refl => exact hb
  | step h s ih => exact s.nullFree ht (h.rooted hr) (ih hcs)
  | char h hp _ c ih =>
    rw [List.mem_append, not_or, List.mem_singleton] at hcs
    have hfree := ih hcs.1
    rw [insertChar_eq_insertText (h.rooted hr).anchored, if_neg hp]
    refine ⟨hfree.tree.insertText _ _ ?_, hfree.formatting⟩
    rw [Hypertext.NullFree, Char.toString_eq_singleton, String.toList_singleton, List.mem_singleton]
    exact hcs.2

/-- A null character is a token for other rules than those of raw text. -/
def Bears (b : TreeBuilder) (token : Token) : Prop :=
  token.NullFree ∨ b.mode ≠ .text ∧ token = .character '\x00'

theorem Round.nullFree (r : Round b token o) (ht : Bears b token) (h : b.NullFree) :
    o.builder.NullFree := by
  obtain ⟨text, cs, new, hacts, hperm, hw, -, hn⟩ := r.performs.exists_acts
  have hnew : '\x00' ∉ new := fun hmem => by
    obtain rfl | ⟨-, c, rfl, rfl | ⟨rfl, rfl⟩⟩ := hw
    · cases hmem
    · obtain hfree | ⟨hm, -⟩ := ht
      · exact hfree (List.mem_singleton.1 hmem).symm
      · exact hm (hn hmem)
    · exact absurd hmem (by decide)
  have hcs : '\x00' ∉ cs := fun hmem =>
    List.not_mem_append r.working.collects.solid hnew (hperm.subset (List.mem_append_left _ hmem))
  exact hacts.nullFree (ht.imp_right And.right) hcs (r.working.rooted text) ⟨h.tree, h.formatting⟩

/-- What raw text hands on, it hands on to other rules. -/
theorem Round.bears (r : Round b token o) (hon : o.handOn? = some o') (hf : Follows token token')
    (ht : Bears b token) : Bears o.builder token' := by
  have hunder : Underway o := ⟨b, token, r.working.spine, r.rules⟩
  obtain rfl | ⟨tag, rfl, -, rfl⟩ := hf
  · exact ht.imp_right fun ⟨_, hc⟩ => ⟨(hunder.handOn hon).2, hc⟩
  · have htag := ht.resolve_right fun ⟨_, hc⟩ => (by cases hc)
    have himg : Hypertext.NullFree "img" := by decide
    exact Or.inl ⟨himg, Tag.NullFree.attributes (t := tag) htag⟩

theorem Rounds.nullFree (r : Rounds b token o b') (ht : Bears b token) (h : b.NullFree) :
    b'.NullFree := by
  induction r with
  | last r _ => exact r.nullFree ht h
  | more r hon hf _ ih => exact ih (r.bears hon hf ht) (r.nullFree ht h)

theorem Working.nullFree (hw : Working b) {t : PositionedToken} (hp : b.process t = .ok b')
    (ht : Bears b t.token) (h : b.NullFree) : b'.NullFree := by
  obtain ⟨-, -, rfl⟩ | ⟨-, rfl⟩ := hw.process_cases hp
  · exact ⟨h.tree, h.formatting⟩
  · have hd : ((b.receive t).dispatch t.token).NullFree :=
      ((hw.receive t).rounds t.token).nullFree ht ⟨h.tree, h.formatting⟩
    obtain ⟨errors, he⟩ := release_eq ((b.receive t).dispatch t.token)
    rw [he]
    exact ⟨hd.tree, hd.formatting⟩

end TreeBuilder

end Hypertext
