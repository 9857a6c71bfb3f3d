import Hypertext.Proofs.TreeBuilder.Additions
import Hypertext.Proofs.TreeBuilder.Content

/-!
# Trees that fit the content models

A tree is `Modelled` if each node is in an element that may hold it. That says where a new node may
go: into an element that is `Receptive` for elements at all, and has `Room` for this one.
-/

namespace Hypertext

open Hypertext.Tree

namespace Tree

variable {t t' : Tree} {scripting : Bool} {id p x y : NodeId} {l : Option (Namespace × String)}

/-! ## 1. What may be where -/

/-- The parts in which text is blank. -/
def spaced : List (Option Part) := [some .table, some .rowGroup, some .row]

/-- A formatting element that has been opened again in a template: it is in the contents of one, or
in another element that has been. -/
inductive Reopened (t : Tree) : NodeId → Prop where
  | contents {x f : NodeId} (hx : ∃ name ∈ Category.formatting, t.label? x = some (.html, name))
    (hf : t.parent? x = some f) (hfragment : t.data? f = some .fragment) : Reopened t x
  | inside {x p : NodeId} (hx : ∃ name ∈ Category.formatting, t.label? x = some (.html, name))
    (hp : t.parent? x = some p) (h : Reopened t p) : Reopened t x

/-- The element `p` may hold its child `x`. Only a form comes to be in a paragraph that it would
have ended, and nothing goes into it then. -/
structure Accepts (t : Tree) (scripting : Bool) (p x : NodeId) : Prop where
  holds : ∀ l lp, t.label? x = some l → t.label? p = some lp → Holds lp l
  reopened : t.label? x = some (.html, "col") →
    ∀ name ∈ Category.formatting, t.label? p = some (.html, name) → t.Reopened p
  void : ∀ name ∈ Content.void, t.label? p ≠ some (.html, name)
  raw : ∀ name ∈ Content.raw scripting, t.label? p = some (.html, name) →
    (t.text? x).isSome ∧ ∀ y, t.parent? y = some p → y = x
  blank : t.part? p ∈ spaced → ∀ s, t.text? x = some s → ∀ c ∈ s.toList, isSpace c = true
  block : t.mode ≠ .quirks → t.label? p = some (.html, "p") → ∀ name ∈ Content.block,
    t.label? x = some (.html, name) → name = "form" ∧ ∀ y, t.parent? y ≠ some x

/-- All nodes are in elements that may hold them. -/
def Modelled (t : Tree) (scripting : Bool) : Prop :=
  ∀ x p, t.parent? x = some p → t.Accepts scripting p x

/-- A form in a paragraph. -/
def Stray (t : Tree) (x : NodeId) : Prop :=
  t.mode ≠ .quirks ∧ t.label? x = some (.html, "form") ∧
    ∃ p, t.parent? x = some p ∧ t.label? p = some (.html, "p")

/-- An element that other elements may be put into, as far as they belong there. -/
structure Receptive (t : Tree) (scripting : Bool) (p : NodeId) : Prop where
  void : ∀ name ∈ Content.void, t.label? p ≠ some (.html, name)
  raw : ∀ name ∈ Content.raw scripting, t.label? p ≠ some (.html, name)
  stray : ¬ t.Stray p

/-- Something with this label may be put into `p`. -/
structure Room (t : Tree) (p : NodeId) (l : Option (Namespace × String)) : Prop where
  holds : ∀ l' lp, l = some l' → t.label? p = some lp → Holds lp l'
  reopened : l = some (.html, "col") →
    ∀ name ∈ Category.formatting, t.label? p = some (.html, name) → t.Reopened p
  block : t.mode ≠ .quirks → t.label? p = some (.html, "p") → ∀ name ∈ Content.block,
    l = some (.html, name) → name = "form"

/-- Formatting elements are where they were. -/
theorem Reopened.of_stays (h : t.Reopened x)
    (hstays : ∀ y p, (∃ name ∈ Category.formatting, t.label? y = some (.html, name)) →
      t.parent? y = some p → t.data? p = some .fragment ∨ t.Reopened p → t'.label? y = t.label? y ∧
      t'.parent? y = some p)
    (hfragment : ∀ f, t.data? f = some .fragment → t'.data? f = some .fragment) :
    t'.Reopened x := by
  induction h with
  | contents hx hparent hfrag =>
    obtain ⟨hl, hparent⟩ := hstays _ _ hx hparent (Or.inl hfrag)
    exact .contents (hl ▸ hx) hparent (hfragment _ hfrag)
  | inside hx hp h ih =>
    obtain ⟨hl, hparent⟩ := hstays _ _ hx hp (Or.inr h)
    exact .inside (hl ▸ hx) hparent ih

theorem Reopened.sameShape (s : SameShape t t') (h : t.Reopened x) : t'.Reopened x :=
  h.of_stays (fun y _ _ hp _ => ⟨s.label y, (s.parent y).trans hp⟩) fun f => (s.fragment f).2

theorem Reopened.adds (a : Adds t t' id p l) (h : t.Reopened x) : t'.Reopened x :=
  h.of_stays (fun y q _ hq _ => by
    have hlt := lt_size_of_parent? hq
    exact ⟨a.label_of_lt hlt, by rwa [a.parent, if_neg (a.ne_of_lt hlt)]⟩)
    fun f hfragment => (a.data f (lt_size_of_data? hfragment)).trans hfragment

theorem text?_of_label {l : Namespace × String} (hx : t.label? x = some l) : t.text? x = none := by
  obtain ⟨e, he, -⟩ := exists_element_of_label hx
  rw [Option.eq_none_iff_forall_ne_some]
  intro s hs
  rw [text?_eq_some] at hs
  rw [element?_eq_some, hs] at he
  cases he

theorem Forest.label?_root (h : Forest t) : t.label? root = none :=
  Option.eq_none_iff_forall_ne_some.2 fun _ hl => h.ne_root_of_label hl rfl

theorem receptive_of_unlabelled (hp : t.label? p = none) : t.Receptive scripting p := by
  refine ⟨fun name _ hl => ?_, fun name _ hl => ?_, fun h => ?_⟩
  · rw [hp] at hl
    cases hl
  · rw [hp] at hl
    cases hl
  · have hl := h.2.1
    rw [hp] at hl
    cases hl

theorem receptive_of_html (hp : t.label? p = some (.html, "html")) : t.Receptive scripting p := by
  have hvoid : "html" ∉ Content.void := by decide
  have hraw : "html" ∉ Content.raw scripting := by cases scripting <;> decide
  refine ⟨fun name hname hl => ?_, fun name hname hl => ?_, fun h => ?_⟩
  · rw [hp] at hl
    cases hl
    exact hvoid hname
  · rw [hp] at hl
    cases hl
    exact hraw hname
  · have hl := h.2.1
    rw [hp] at hl
    exact absurd hl (by decide)

/-- What is no element has no label to fit. -/
theorem room_none : t.Room p none := ⟨nofun, nofun, fun _ _ _ _ => nofun⟩

/-- Without elements there is nothing to heed. -/
theorem modelled_of_unlabelled (h : ∀ x, t.label? x = none) : t.Modelled scripting := by
  have hno : ∀ x l, t.label? x ≠ some l := fun x l hl => by
    rw [h x] at hl
    cases hl
  intro x p _
  refine ⟨fun l lp hl => absurd hl (hno x l), fun hl => absurd hl (hno x _), fun name _ => hno p _,
    fun name _ hl => absurd hl (hno p _), fun hp => ?_, fun _ hl => absurd hl (hno p _)⟩
  rw [part?, h p] at hp
  simp [spaced] at hp

namespace Modelled

variable (h : t.Modelled scripting)
include h

/-- Each node is where it was, or has come to where it may be. -/
theorem of_edges (hedge : ∀ x p, t'.parent? x = some p →
      (t.parent? x = some p ∧ t'.label? x = t.label? x ∧ t'.label? p = t.label? p ∧
        t'.text? x = t.text? x) ∨ t'.Accepts scripting p x ∧ ¬ t'.Stray p)
    (hopened : ∀ x, t.Reopened x → t'.Reopened x) (hmode : t'.mode = t.mode) :
    t'.Modelled scripting := by
  intro x p hx
  obtain ⟨hx₀, hlx, hlp, htext⟩ | ⟨ha, -⟩ := hedge x p hx
  · have ha := h x p hx₀
    refine ⟨fun l lp => ?_, fun hl name hname hl' => ?_, ?_, fun name hname hl => ?_,
      fun hp s hs => ?_, fun hm hl name hname hl' => ?_⟩
    · rw [hlx, hlp]
      exact ha.holds l lp
    · exact hopened p (ha.reopened (hlx ▸ hl) name hname (hlp ▸ hl'))
    · rw [hlp]
      exact ha.void
    · rw [htext]
      refine ⟨(ha.raw name hname (hlp ▸ hl)).1, fun y hy => ?_⟩
      obtain ⟨hy₀, -⟩ | ⟨hnew, -⟩ := hedge y p hy
      · exact (ha.raw name hname (hlp ▸ hl)).2 y hy₀
      · exact ((hnew.raw name hname hl).2 x hx).symm
    · rw [part?, hlp] at hp
      exact ha.blank hp s (htext ▸ hs)
    · obtain ⟨hform, hnone⟩ := ha.block (hmode ▸ hm) (hlp ▸ hl) name hname (hlx ▸ hl')
      refine ⟨hform, fun y hy => ?_⟩
      obtain ⟨hy₀, -⟩ | ⟨-, hstray⟩ := hedge y x hy
      · exact hnone y hy₀
      · exact hstray ⟨hm, hform ▸ hl', p, hx, hl⟩
  · exact ha

/-- Nothing is put anywhere. -/
theorem subset (hparent : ∀ x p, t'.parent? x = some p → t.parent? x = some p)
    (hlabel : ∀ x, t'.label? x = t.label? x) (htext : ∀ x, t'.text? x = t.text? x)
    (hopened : ∀ x, t.Reopened x → t'.Reopened x) (hmode : t'.mode = t.mode) :
    t'.Modelled scripting :=
  h.of_edges (fun x p hx => Or.inl ⟨hparent x p hx, hlabel x, hlabel p, htext x⟩) hopened hmode

/-- What holds an element holds elements. -/
theorem receptive_parent {l : Namespace × String} (hx : t.label? x = some l)
    (hp : t.parent? x = some p) : t.Receptive scripting p := by
  have ha := h x p hp
  refine ⟨ha.void, fun name hname hl => ?_, fun ⟨hm, hl, q, hq, hlq⟩ => ?_⟩
  · have htext := (ha.raw name hname hl).1
    rw [text?_of_label hx] at htext
    cases htext
  · have hform : "form" ∈ Content.block := by decide
    exact ((h p q hq).block hm hlq "form" hform hl).2 x hp

theorem inherited_receptive (hf : Forest t) : TreeBuilder.Inherited t (t.Receptive scripting) where
  root := receptive_of_unlabelled hf.label?_root
  contents x f _ hx := receptive_of_unlabelled (Option.eq_none_iff_forall_ne_some.2 fun _ hl =>
    ne_fragment_of_label hl (hf.fragment x f hx))
  parent _ _ _ _ hl hp := h.receptive_parent hl hp

/-- What holds a table holds all that is no piece of one. -/
theorem holds_table (hx : t.label? x = some (.html, "table")) (hp : t.parent? x = some p)
    {lp : Namespace × String} (hlp : t.label? p = some lp) :
    (partOf lp).bind Part.contents? = none ∧ (t.mode ≠ .quirks → lp ≠ (.html, "p")) := by
  have ha := h x p hp
  refine ⟨contents?_of_holds_table (ha.holds _ _ hx hlp), fun hm heq => ?_⟩
  have htable : "table" ∈ Content.block := by decide
  have hform := (ha.block hm (heq ▸ hlp) "table" htable hx).1
  exact absurd hform (by decide)

/-- A new node is put into an element that may hold it. -/
theorem adds (hf : Forest t) (a : Adds t t' id p l) (hp : p < t.size) (hr : t.Receptive scripting p)
    (hroom : t.Room p l) (htext : t'.text? id = none) : t'.Modelled scripting := by
  have hmode := a.mode hf
  have hlp := a.label_of_lt hp
  have hchildless : ∀ y, t'.parent? y ≠ some id := fun y hy => by
    obtain ⟨-, rfl⟩ | ⟨-, hy⟩ := a.parent_cases hy
    · exact absurd hp (Nat.not_lt.2 a.fresh)
    · exact absurd (hf.linked.parent_lt hy) (Nat.not_lt.2 a.fresh)
  -- the new edge leads to `id`, which has no children; each old edge is as it was
  refine h.of_edges (fun x q hx => ?_) (fun x => Reopened.adds a) hmode
  obtain ⟨rfl, rfl⟩ | ⟨hne, hx₀⟩ := a.parent_cases hx
  · refine Or.inr ⟨⟨fun l' lp hl' hlq => ?_, fun hl name hname hl' => ?_, ?_, fun name hname hl =>
      ?_, fun _ s hs => ?_, fun hm hl name hname hl' => ?_⟩, fun ⟨hm, hl, q', hq', hlq'⟩ => ?_⟩
    · rw [a.label, if_pos rfl] at hl'
      exact hroom.holds l' lp hl' (hlp ▸ hlq)
    · rw [a.label, if_pos rfl] at hl
      exact (hroom.reopened hl name hname (hlp ▸ hl')).adds a
    · rw [hlp]
      exact hr.void
    · exact absurd (hlp ▸ hl) (hr.raw name hname)
    · rw [htext] at hs
      cases hs
    · rw [a.label, if_pos rfl] at hl'
      exact ⟨hroom.block (hmode ▸ hm) (hlp ▸ hl) name hname hl', hchildless⟩
    · rw [a.parent, if_neg (a.ne_of_lt hp)] at hq'
      rw [a.label_of_lt (hf.linked.parent_lt hq')] at hlq'
      exact hr.stray ⟨hmode ▸ hm, hlp ▸ hl, q', hq', hlq'⟩
  · have hlt := lt_size_of_parent? hx₀
    have hq := hf.linked.parent_lt hx₀
    exact Or.inl ⟨hx₀, a.label_of_lt hlt, a.label_of_lt hq, text?_congr (a.data x hlt)⟩

/-- What has a child is no form in a paragraph. -/
theorem not_stray (hx : t.parent? x = some p) : ¬ t.Stray p := fun ⟨hm, hl, q, hq, hlq⟩ => by
  have hform : "form" ∈ Content.block := by decide
  exact ((h p q hq).block hm hlq "form" hform hl).2 x hx

omit h in
theorem accepts_text {s : String} (hx : t.text? x = some s)
    (hvoid : ∀ name ∈ Content.void, t.label? p ≠ some (.html, name))
    (hraw : ∀ name ∈ Content.raw scripting, t.label? p = some (.html, name) →
      ∀ y, t.parent? y = some p → y = x)
    (hblank : t.part? p ∈ spaced → ∀ c ∈ s.toList, isSpace c = true) : t.Accepts scripting p x := by
  have hno : ∀ l, t.label? x ≠ some l := fun l hl => by
    rw [text?_of_label hl] at hx
    cases hx
  refine ⟨fun l _ hl => absurd hl (hno l), fun hl => absurd hl (hno _), hvoid,
    fun name hname hl => ⟨?_, hraw name hname hl⟩, fun hp s' hs => ?_,
    fun _ _ name _ hl => absurd hl (hno _)⟩
  · rw [hx]
    rfl
  · rw [hx] at hs
    cases hs
    exact hblank hp

/-- A text goes on. -/
theorem setText (hf : Forest t) {old more : String} (hold : t.text? x = some old)
    (hblank : ∀ p, t.parent? x = some p → t.part? p ∈ spaced →
      ∀ c ∈ more.toList, isSpace c = true) :
    (t.setData x (.text (old ++ more))).Modelled scripting := by
  have s : SameShape t (t.setData x (.text (old ++ more))) := sameShape_setText hf.linked hold
  have hlt : x < t.size := lt_size_of_data? (text?_eq_some.1 hold)
  have htext (y : NodeId) := text?_setData t hlt (old ++ more) y
  have hmode : (t.setData x (.text (old ++ more))).mode = t.mode := by
    refine mode_congr (TreeBuilder.data?_setData_text hold _ fun s hs => ?_)
    obtain ⟨documentMode, hroot⟩ := hf.document
    rw [hroot] at hs
    cases hs
  -- only the edge to `x` sees the text
  refine h.of_edges (fun y p hy => ?_) (fun y => Reopened.sameShape s) hmode
  rw [s.parent] at hy
  by_cases hyx : y = x
  · subst hyx
    have ha := h y p hy
    have hnew := htext y
    rw [if_pos rfl] at hnew
    refine Or.inr ⟨accepts_text hnew ?_ (fun name hname hl z hz => ?_) fun hp c hc => ?_, ?_⟩
    · rw [s.label]
      exact ha.void
    · rw [s.label] at hl
      rw [s.parent] at hz
      exact (ha.raw name hname hl).2 z hz
    · rw [part?, s.label] at hp
      rw [String.toList_append] at hc
      rcases List.mem_append.1 hc with hc | hc
      · exact ha.blank hp old hold c hc
      · exact hblank p hy hp c hc
    · rintro ⟨hm, hl, q, hq, hlq⟩
      rw [s.label] at hl hlq
      rw [s.parent] at hq
      exact h.not_stray hy ⟨hmode ▸ hm, hl, q, hq, hlq⟩
  · refine Or.inl ⟨hy, s.label y, s.label p, ?_⟩
    rw [htext, if_neg hyx]

/-- A new text is put where there is none before it, if there has to be no other one. -/
theorem adds_text (hf : Forest t) (a : Adds t t' id p none) (hp : p < t.size) {s : String}
    (htext : t'.text? id = some s) (hvoid : ∀ name ∈ Content.void, t.label? p ≠ some (.html, name))
    (hstray : ¬ t.Stray p)
    (hraw : ∀ name ∈ Content.raw scripting, t.label? p = some (.html, name) →
      ∀ y, t.parent? y ≠ some p)
    (hblank : t.part? p ∈ spaced → ∀ c ∈ s.toList, isSpace c = true) : t'.Modelled scripting := by
  have hlp := a.label_of_lt hp
  have hmode := a.mode hf
  refine h.of_edges (fun x q hx => ?_) (fun x => Reopened.adds a) hmode
  obtain ⟨rfl, rfl⟩ | ⟨hne, hx₀⟩ := a.parent_cases hx
  · refine Or.inr ⟨accepts_text htext ?_ (fun name hname hl y hy => ?_) fun hpart => ?_,
      fun ⟨hm, hl, q', hq', hlq'⟩ => ?_⟩
    · rw [hlp]
      exact hvoid
    · obtain ⟨rfl, -⟩ | ⟨-, hy⟩ := a.parent_cases hy
      · rfl
      · exact absurd hy (hraw name hname (hlp ▸ hl) y)
    · rw [part?, hlp] at hpart
      exact hblank hpart
    · rw [a.parent, if_neg (a.ne_of_lt hp)] at hq'
      rw [a.label_of_lt (hf.linked.parent_lt hq')] at hlq'
      exact hstray ⟨hmode ▸ hm, hlp ▸ hl, q', hq', hlq'⟩
  · have hlt := lt_size_of_parent? hx₀
    exact Or.inl ⟨hx₀, a.label_of_lt hlt, a.label_of_lt (hf.linked.parent_lt hx₀),
      text?_congr (a.data x hlt)⟩

end Modelled

/-! ## 3. Tables -/

/-- The contents of some template. -/
def IsContents (t : Tree) (f : NodeId) : Prop :=
  ∃ x, t.label? x = some (.html, "template") ∧ t.contents? x = some f

/-- The pieces of tables are in each other as they belong, or in the contents of templates, and
little else is in them. A column may come to be in a formatting element that has been opened again
in a template. -/
structure TablesFit (t : Tree) : Prop where
  cell : ∀ x p, ∀ name ∈ ["td", "th"], t.label? x = some (.html, name) → t.parent? x = some p →
    t.label? p = some (.html, "tr") ∨ t.IsContents p
  row : ∀ x p, t.label? x = some (.html, "tr") → t.parent? x = some p →
    (∃ name ∈ ["tbody", "thead", "tfoot"], t.label? p = some (.html, name)) ∨ t.IsContents p
  piece : ∀ x p, ∀ name ∈ ["tbody", "thead", "tfoot", "caption", "colgroup"],
    t.label? x = some (.html, name) → t.parent? x = some p → t.label? p = some (.html, "table") ∨
    t.IsContents p
  column : ∀ x p, t.label? x = some (.html, "col") → t.parent? x = some p →
    t.label? p = some (.html, "colgroup") ∨ t.IsContents p ∨ t.Reopened p
  inTable : ∀ x p l, t.label? p = some (.html, "table") → t.parent? x = some p →
    t.label? x = some l → l.1 = .html ∧
      l.2 ∈ ["caption", "colgroup", "tbody", "thead", "tfoot", "style", "script", "template",
        "input", "form"]
  inRowGroup : ∀ x p l, ∀ name ∈ ["tbody", "thead", "tfoot"], t.label? p = some (.html, name) →
    t.parent? x = some p → t.label? x = some l →
    l.1 = .html ∧ l.2 ∈ ["tr", "style", "script", "template", "input", "form"]
  inRow : ∀ x p l, t.label? p = some (.html, "tr") → t.parent? x = some p → t.label? x = some l →
    l.1 = .html ∧ l.2 ∈ ["td", "th", "style", "script", "template", "input", "form"]
  blank : ∀ x p s, ∀ name ∈ ["table", "tbody", "thead", "tfoot", "tr"],
    t.label? p = some (.html, name) → t.parent? x = some p → t.text? x = some s →
    ∀ c ∈ s.toList, isSpace c = true

end Tree

end Hypertext
