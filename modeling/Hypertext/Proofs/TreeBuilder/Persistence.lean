import Hypertext.Proofs.Dom.Attributes
import Hypertext.Proofs.TreeBuilder.Rounds

/-!
# Tree construction only adds

Whatever token comes, the nodes that are there keep what they say. A text may go on, the mode
of the document may be set, and the document element and the body may get attributes that
they did not have.
-/

namespace Hypertext

open Hypertext.Tree

/-! ## 1. What may become of a node -/

/-- What may become of the data of a node; an element may get attributes only if it
`mayGain` them. -/
inductive NodeData.Grows (mayGain : Prop) : NodeData → NodeData → Prop where
  | same (d : NodeData) : Grows mayGain d d
  | text (old new : String) : Grows mayGain (.text old) (.text (old ++ new))
  | document (mode mode' : DocumentMode) : Grows mayGain (.document mode) (.document mode')
  | element (e : Element) (added : Attributes) (hgain : mayGain)
    (hnew : ∀ a ∈ added, e.attributes.get? a.1 = none) :
    Grows mayGain (.element e) (.element { e with attributes := e.attributes ++ added })

theorem NodeData.Grows.trans {mayGain mayGain' : Prop} {d d' d'' : NodeData}
    (h : d.Grows mayGain d') (h' : d'.Grows mayGain' d'') (himp : mayGain' → mayGain) :
    d.Grows mayGain d'' := by
  -- the data of a node keeps its kind, so the two changes are of one kind
  cases h with
  | same =>
    cases h' with
    | same => exact .same _
    | text old new => exact .text old new
    | document mode mode' => exact .document mode mode'
    | element e added hgain hnew => exact .element e added (himp hgain) hnew
  | text old new =>
    cases h' with
    | same => exact .text old new
    | text _ new' =>
      rw [String.append_assoc]
      exact .text old (new ++ new')
  | document mode mode' =>
    cases h' with
    | same => exact .document mode mode'
    | document _ mode'' => exact .document mode mode''
  | element e added hgain hnew =>
    cases h' with
    | same => exact .element e added hgain hnew
    | element _ added' _ hnew' =>
      have heq : (e.attributes ++ added) ++ added' = e.attributes ++ (added ++ added') :=
        List.append_assoc _ _ _
      simp only [heq]
      exact .element e (added ++ added') hgain (List.forall_mem_append.2
        ⟨hnew, fun a ha => Attributes.get?_eq_none_of_append (hnew' a ha)⟩)

namespace Tree

variable {t t' t'' : Tree} {x : NodeId}

/-- The elements that a repeated tag may give attributes. -/
def Repeatable (t : Tree) (x : NodeId) : Prop := t.Outer x ∨ t.Housed x

/-- Nodes stay, and so does what they say. No node that is there comes to be the document element or
its body later on. -/
structure Persists (t t' : Tree) : Prop where
  data : ∀ x d, t.data? x = some d → ∃ d', t'.data? x = some d' ∧ d.Grows (t.Repeatable x) d'
  repeatable : ∀ x, x < t.size → t'.Repeatable x → t.Repeatable x

theorem Persists.refl : Persists t t := ⟨fun _ d hd => ⟨d, hd, .same d⟩, fun _ _ h => h⟩

theorem Persists.lt (h : Persists t t') (hx : x < t.size) : x < t'.size := by
  obtain ⟨n, hn⟩ := exists_get? t x hx
  obtain ⟨d', hd', -⟩ := h.data x n.data (by rw [data?, hn]; rfl)
  exact lt_size_of_data? hd'

theorem Persists.trans (h : Persists t t') (h' : Persists t' t'') : Persists t t'' := by
  refine ⟨fun x d hd => ?_, fun x hx hrep => h.repeatable x hx (h'.repeatable x (h.lt hx) hrep)⟩
  obtain ⟨d', hd', hg⟩ := h.data x d hd
  obtain ⟨d'', hd'', hg'⟩ := h'.data x d' hd'
  exact ⟨d'', hd'', hg.trans hg' (h.repeatable x (lt_size_of_data? hd))⟩

/-- The document element and the body are where they were. -/
theorem repeatable_of_parts (hlabel : ∀ x, x < t.size → t'.label? x = t.label? x)
    (hparent : ∀ x p, x < t.size → t'.parent? x = some p → t.parent? x = some p)
    (hlt : ∀ x p, t.parent? x = some p → p < t.size) (hx : x < t.size) (h : t'.Repeatable x) :
    t.Repeatable x := by
  obtain ⟨hl, hp⟩ | ⟨hl, r, hr, hp, hrp⟩ := h
  · exact Or.inl ⟨(hlabel x hx).symm.trans hl, hparent x _ hx hp⟩
  · have hp' := hparent x r hx hp
    have hr' := hlt x r hp'
    exact Or.inr ⟨(hlabel x hx).symm.trans hl, r, (hlabel r hr').symm.trans hr, hp',
      hparent r _ hr' hrp⟩

theorem Adds.persists {id p : NodeId} {l : Option (Namespace × String)} (a : Adds t t' id p l)
    (h : Forest t) : Persists t t' := by
  refine ⟨fun x d hd => ⟨d, ?_, .same d⟩, fun x hx => ?_⟩
  · rw [a.data x (lt_size_of_data? hd), hd]
  · refine repeatable_of_parts (fun y hy => a.label_of_lt hy) (fun y q hy hq => ?_)
      (fun y q hq => h.linked.parent_lt hq) hx
    rwa [a.parent, if_neg (a.ne_of_lt hy)] at hq

theorem SameShape.repeatable (s : SameShape t t') (h : t'.Repeatable x) : t.Repeatable x := by
  unfold Repeatable Outer Housed at h ⊢
  simpa only [s.label, s.parent] using h

end Tree

namespace TreeBuilder

variable {token : Token} {mode : InsertionMode} {b b' : TreeBuilder} {r : AgencyRound}

/-! ## 2. Steps -/

theorem persists_mergeAttributes (h : Forest b.tree) {id : NodeId} (hid : b.tree.Repeatable id)
    (attributes : List Attribute) : b.tree.Persists (b.mergeAttributes id attributes).tree := by
  have s : SameShape b.tree (b.mergeAttributes id attributes).tree :=
    sameShape_modifyElement h.linked id fun _ => rfl
  refine ⟨fun x d hd => ?_, fun x _ => s.repeatable⟩
  obtain ⟨n, hn, rfl⟩ := Option.map_eq_some_iff.1 hd
  by_cases hx : id = x
  · subst hx
    cases he : n.data with
    | element e =>
      obtain ⟨added, hadded, hnew⟩ := e.attributes.exists_merge attributes
      refine ⟨_, ?_, .element e added hid hnew⟩
      rw [mergeAttributes, modifyElement, data?, get?_modify, if_pos rfl, hn]
      simp [he, hadded]
    | _ =>
      refine ⟨_, ?_, .same _⟩
      rw [mergeAttributes, modifyElement, data?, get?_modify, if_pos rfl, hn]
      simp [he]
  · refine ⟨n.data, ?_, .same _⟩
    rw [mergeAttributes, modifyElement, data?, get?_modify, if_neg hx, hn]
    rfl

theorem persists_setMode (h : Forest b.tree) (documentMode : DocumentMode) :
    b.tree.Persists (b.tree.setMode documentMode) := by
  refine ⟨fun x d hd => ?_, fun x _ => (sameShape_setMode h.linked documentMode).repeatable⟩
  rw [h.data?_setMode]
  split
  · next hx =>
    obtain ⟨old, hold⟩ := h.document
    rw [hx, hold] at hd
    cases hd
    exact ⟨_, rfl, .document old documentMode⟩
  · exact ⟨d, hd, .same d⟩

theorem persists_detach (h : Forest b.tree) (x : NodeId) : b.tree.Persists (b.tree.detach x) := by
  have m := moved_detach h.linked x
  refine ⟨fun y d hd => ⟨d, (m.data y).trans hd, .same d⟩, fun y hy => ?_⟩
  refine repeatable_of_parts (fun z _ => label?_congr (m.data z)) (fun z p _ hp => ?_)
    (fun z p hp => h.linked.parent_lt hp) hy
  rw [m.parent] at hp
  split at hp
  · cases hp
  · exact hp

/-- The adoption agency moves nodes about, but leaves the skeleton of the document alone. -/
theorem Adopts.persists (h : Adopts b b' r) : b.tree.Persists b'.tree := by
  have hp := h.carriable.planted
  have hp' := h.rebuilt.planted
  have hdata := fun x (hx : x < b.tree.size) => h.rearranges.data? hp.forest.linked hx
  refine ⟨fun x d hd => ⟨d, (hdata x (lt_size_of_data? hd)).trans hd, .same d⟩, fun x hx hrep => ?_⟩
  have hl := label?_congr (hdata x hx)
  obtain houter | hhoused := hrep
  · rw [hp'.upright.outer_iff hp'.forest.linked] at houter
    rw [Repeatable, hp.upright.outer_iff hp.forest.linked]
    exact Or.inl ((congrArg Skeleton.html h.rebuilt.skeleton).symm.trans houter)
  · rw [hp'.upright.housed_iff hp'.forest.linked, h.rebuilt.skeleton, hl] at hhoused
    exact Or.inr ((hp.upright.housed_iff hp.forest.linked).2 hhoused)

theorem Step.persists (s : Step token mode b b') (h : Rooted b) : b.tree.Persists b'.tree := by
  have hf := h.anchored.forest
  cases s with
  | aside a => exact a.tree ▸ .refl
  | @insert name attributes ns =>
    obtain ⟨id, tree, heq, a⟩ := insertElement_adds h.anchored name attributes ns
    rw [heq]
    exact a.persists hf
  | leaf hd hp => exact (adds_leaf (Token.isLeaf hd) hf (hp.lt h)).persists hf
  | setMode documentMode => exact persists_setMode hf documentMode
  | merge _ hid => exact persists_mergeAttributes hf hid _
  | adopt _ _ ha => exact ha.persists
  | @unbody body => exact persists_detach hf body
  | _ => exact .refl

theorem persists_insertChar (h : Rooted b) (hp : b.place.parent ≠ Tree.root) (c : Char) :
    b.tree.Persists (b.insertChar c).tree := by
  have hf := h.anchored.forest
  obtain ⟨tree, heq, ⟨prev, old, -, hold, rfl⟩ | ⟨-, a, -⟩⟩ := insertChar_cases h.anchored hp c
  · rw [heq]
    have s : SameShape b.tree (b.tree.setData prev (.text (old ++ c.toString))) :=
      sameShape_setText hf.linked hold
    refine ⟨fun x d hd => ?_, fun x _ => s.repeatable⟩
    by_cases hx : x = prev
    · subst hx
      have hdata := text?_eq_some.1 hold
      rw [hd] at hdata
      cases hdata
      refine ⟨_, text?_eq_some.1 ?_, .text old c.toString⟩
      rw [text?_setData _ (lt_size_of_data? hd), if_pos rfl]
    · refine ⟨d, ?_, .same d⟩
      rw [setData, data?, get?_modify, if_neg (Ne.symm hx)]
      exact hd
  · rw [heq]
    exact a.persists hf

/-! ## 3. Reachable builders -/

theorem kept_persists (t : Tree) :
    Kept (fun _ => True) (fun _ => True) fun b => t.Persists b.tree where
  follows _ _ := trivial
  mode _ _ := trivial
  note ht _ _ _ _ h := ht ▸ h
  step _ _ s hr _ h := h.trans (s.persists hr)
  char c hr _ hp _ h := h.trans (persists_insertChar hr hp c)

theorem Working.persists (h : Working b) {t : PositionedToken} (hp : b.process t = .ok b') :
    b.tree.Persists b'.tree :=
  (kept_persists b.tree).process trivial h hp .refl

/-- A token leaves what every node says as it is, but that text may go on, the mode of the
document may be set, and the document element and the body may get new attributes. A value that an
element has stays. -/
theorem data_of_reachable (h : Reachable b) {t : PositionedToken} (hp : b.process t = .ok b') :
    (∀ x d, b.tree.data? x = some d → ∃ d', b'.tree.data? x = some d' ∧
      d.Grows (b.tree.documentElement? = some x ∨
        b.tree.body? = some x ∧ b.tree.label? x = some (.html, "body")) d') ∧
    ∀ x e name value, b.tree.element? x = some e → e.attributes.get? name = some value →
      ∃ e', b'.tree.element? x = some e' ∧ e'.attributes.get? name = some value := by
  have hs : b.stopped = false := by
    by_contra hs
    rw [TreeBuilder.process, if_pos (by simpa using hs)] at hp
    cases hp
  have hpersists := (h.working hs).persists hp
  have hplanted := h.valid.planted
  refine ⟨fun x d hd => ?_, fun x e name value he hvalue => ?_⟩
  · obtain ⟨d', hd', hg⟩ := hpersists.data x d hd
    refine ⟨d', hd', (NodeData.Grows.same d).trans hg fun hrep => ?_⟩
    refine hrep.imp (hplanted.upright.outer_iff hplanted.forest.linked).1 fun hhoused => ?_
    obtain ⟨hmem, hl⟩ := (hplanted.upright.housed_iff hplanted.forest.linked).1 hhoused
    rw [body?_eq, hplanted.upright.bodies_eq hmem]
    exact ⟨rfl, hl⟩
  · obtain ⟨d', hd', hg⟩ := hpersists.data x _ (element?_eq_some.1 he)
    cases hg with
    | same => exact ⟨e, element?_eq_some.2 hd', hvalue⟩
    | element _ added _ hnew =>
      exact ⟨_, element?_eq_some.2 hd', Attributes.get?_append_of_some hvalue⟩

/-- A document element with an attribute. -/
def identified : List Token :=
  [.startTag { name := "html", attributes := [{ name := "id", value := "a" }] },
    .startTag { name := "p" }, .character 'x']

/-- The tag of the document element comes again with another value. -/
theorem data_identified : ∃ b b', feed {} identified = .ok b ∧
    b.process ⟨.startTag { name := "html", attributes := [{ name := "id", value := "b" }] },
      .start⟩ = .ok b' ∧
    ∃ e, b'.tree.element? 1 = some e ∧ e.attributes.get? "id" = some "a" := by
  obtain ⟨b, hb, hs, he⟩ := exists_ok (feed {} identified)
    (fun b => b.stopped = false ∧
      b.tree.element? 1 = some { tagName := "html", attributes := [("id", "a")] })
    (by with_unfolding_all decide)
  have h : Reachable b := .feed (.start false false) hb
  obtain ⟨-, -, b', hp, -⟩ := process_of_reachable h hs
    ⟨.startTag { name := "html", attributes := [{ name := "id", value := "b" }] }, .start⟩
  exact ⟨b, b', hb, hp, (data_of_reachable h hp).2 1 _ "id" "a" he (by decide)⟩

end TreeBuilder

end Hypertext
