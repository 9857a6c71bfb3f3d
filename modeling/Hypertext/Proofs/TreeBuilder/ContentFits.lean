import Hypertext.Proofs.TreeBuilder.Models
import Hypertext.Proofs.TreeBuilder.Rightmost
import Hypertext.Proofs.TreeBuilder.Templates

/-!
# Elements hold what their content models say

No insertion checks what the element at its place may hold. It is read off the open elements: each
of them can hold what is put into it, and what is put before a table goes into an element that holds
a table already.
-/

namespace Hypertext

open Hypertext.Tree

namespace TreeBuilder

variable {token : Token} {mode : InsertionMode} {b b' a : TreeBuilder} {cs : List Char}
  {id p x y : NodeId}

/-! ## 1. Open elements -/

/-- An element with one of these names, or with raw text. If the names are those of formatting
elements, they have been opened again in a template. -/
structure NamedOrRaw (t : Tree) (scripting : Bool) (x : NodeId) (names : List String) : Prop where
  named : ∃ name, t.label? x = some (.html, name) ∧ (name ∈ names ∨ name ∈ Content.raw scripting)
  reopened : names = Category.formatting → (∃ name ∈ names, t.label? x = some (.html, name)) →
    t.Reopened x

theorem NamedOrRaw.congr {t t' : Tree} {scripting : Bool} {names : List String}
    (h : NamedOrRaw t scripting x names) (hl : t'.label? x = t.label? x)
    (hopened : t.Reopened x → t'.Reopened x) : NamedOrRaw t' scripting x names := by
  obtain ⟨hnamed, hreopened⟩ := h
  refine ⟨hl ▸ hnamed, fun hnames hx => hopened (hreopened hnames ?_)⟩
  rwa [hl] at hx

/-- Of the elements between two parts only those are open that may be. -/
def Regional (t : Tree) (scripting : Bool) (modes : List InsertionMode) (stack : List NodeId) :
    Prop :=
  EachOver (fun x outer => t.part? x = none →
    ∀ names, regionNames modes (t.bones outer) = some names → NamedOrRaw t scripting x names) stack

/-- The open elements can hold what is put into them. Raw text is the innermost element, in the
mode for it. -/
structure Stacked (t : Tree) (scripting : Bool) (mode : InsertionMode) (modes : List InsertionMode)
    (stack : List NodeId) : Prop where
  void : ∀ x ∈ stack, ∀ name ∈ Content.void, t.label? x ≠ some (.html, name)
  raw : ∀ x ∈ stack, ∀ name ∈ Content.raw scripting, t.label? x = some (.html, name) →
    mode = .text ∧ x ∉ stack.tail
  stray : ∀ x ∈ stack, ¬ t.Stray x
  bottom : ∀ x ∈ stack.getLast?, t.label? x = some (.html, "html")
  regional : Regional t scripting modes stack

namespace Stacked

variable {t t' : Tree} {scripting : Bool} {mode mode' : InsertionMode}
  {modes modes' : List InsertionMode} {stack stack' : List NodeId}

theorem suffix_tail {x : NodeId} {outer : List NodeId} (h : x :: outer <:+ stack) :
    outer <:+ stack.tail := by
  obtain ⟨above, rfl⟩ := h
  cases above with
  | nil => exact List.suffix_refl _
  | cons y above => exact ⟨above ++ [x], by simp⟩

theorem bones_congr (hl : ∀ x ∈ stack, t'.label? x = t.label? x) :
    t'.bones stack = t.bones stack := by
  unfold Tree.bones
  exact List.filterMap_congr fun x hx => by rw [part?, part?, hl x hx]

variable (h : Stacked t scripting mode modes stack)
include h

/-- The elements are what they were. -/
theorem congr (hl : ∀ x ∈ stack, t'.label? x = t.label? x)
    (hs : ∀ x ∈ stack, t'.Stray x → t.Stray x)
    (hopened : ∀ x, t.Reopened x → t'.Reopened x) : Stacked t' scripting mode modes stack where
  void x hx := hl x hx ▸ h.void x hx
  raw x hx := hl x hx ▸ h.raw x hx
  stray x hx hstray := h.stray x hx (hs x hx hstray)
  bottom x hx := (hl x (List.mem_of_getLast? hx)).trans (h.bottom x hx)
  regional := EachOver.imp h.regional fun x outer hsuffix hx => by
    have hmem := hsuffix.subset
    have hlx := hl x (hmem (List.mem_cons_self ..))
    rw [part?, hlx, bones_congr fun y hy => hl y (hmem (List.mem_cons_of_mem _ hy))]
    exact fun hpart names hn => (hx hpart names hn).congr hlx (hopened x)

/-- The modes of templates are read as no narrower than they were. -/
theorem retarget
    (hmodes : ∀ outer names, outer <:+ stack.tail →
      regionNames modes' (t.bones outer) = some names →
    regionNames modes (t.bones outer) = some names) : Stacked t scripting mode modes' stack where
  void := h.void
  raw := h.raw
  stray := h.stray
  bottom := h.bottom
  regional := EachOver.imp h.regional fun _ outer hsuffix hx hpart names hn =>
    hx hpart names (hmodes outer names (suffix_tail hsuffix) hn)

/-- Elements are closed. -/
theorem suffix (hs : stack' <:+ stack) (hmodes : modes' <:+ modes)
    (hm : mode = .text → mode' = .text ∨ stack' <:+ stack.tail) :
    Stacked t scripting mode' modes' stack' where
  void x hx := h.void x (hs.subset hx)
  raw x hx name hname hl := by
    obtain ⟨htext, hnot⟩ := h.raw x (hs.subset hx) name hname hl
    obtain hm | hm := hm htext
    · exact ⟨hm, fun hmem => hnot (hs.sublist.tail.subset hmem)⟩
    · exact absurd (hm.subset hx) hnot
  stray x hx := h.stray x (hs.subset hx)
  bottom x hx := by
    obtain ⟨above, rfl⟩ := hs
    refine h.bottom x ?_
    rw [List.getLast?_append, hx]
    rfl
  regional := EachOver.imp (EachOver.suffix h.regional hs) fun _ _ _ hx hpart names hn =>
    hx hpart names (regionNames_suffix hmodes hn)

/-- Where no raw text is read, the mode says nothing about the open elements. -/
theorem switch (hm : mode ≠ .text) (mode' : InsertionMode) :
    Stacked t scripting mode' modes stack :=
  h.suffix (List.suffix_refl _) (List.suffix_refl _) fun htext => absurd htext hm

/-- An element is opened. -/
theorem cons {x : NodeId}
    (hm : mode ≠ .text) (hvoid : ∀ name ∈ Content.void, t.label? x ≠ some (.html, name))
    (hraw : ∀ name ∈ Content.raw scripting, t.label? x = some (.html, name) →
      mode' = .text ∧ x ∉ stack)
    (hstray : ¬ t.Stray x) (hbottom : stack = [] → t.label? x = some (.html, "html"))
    (hregional : t.part? x = none → ∀ names, regionNames modes (t.bones stack) = some names →
      NamedOrRaw t scripting x names) :
    Stacked t scripting mode' modes (x :: stack) where
  void := List.forall_mem_cons.2 ⟨hvoid, h.void⟩
  raw y hy name hname hl := by
    rcases List.mem_cons.1 hy with rfl | hy
    · exact hraw name hname hl
    · exact absurd (h.raw y hy name hname hl).1 hm
  stray := List.forall_mem_cons.2 ⟨hstray, h.stray⟩
  bottom y hy := by
    -- the outermost element stays the same, unless the new one is the only one
    rcases List.eq_nil_or_concat stack with rfl | ⟨init, last, rfl⟩
    · obtain rfl : x = y := Option.some.inj hy
      exact hbottom rfl
    · refine h.bottom y ?_
      rw [List.concat_eq_append] at hy ⊢
      rw [← List.cons_append, List.getLast?_concat] at hy
      rw [List.getLast?_concat]
      exact hy
  regional := ⟨hregional, h.regional⟩

/-- Elements are closed that do not tell what may be open. -/
theorem filter {q : NodeId → Bool} (hq : ∀ x ∈ stack.getLast?, q x = true)
    (hregion : ∀ outer names, outer <:+ stack →
      regionNames modes (t.bones (outer.filter q)) = some names →
      regionNames modes (t.bones outer) = some names) :
      Stacked t scripting mode modes (stack.filter q) where
  void x hx := h.void x (List.mem_of_mem_filter hx)
  raw x hx name hname hl := by
    obtain ⟨htext, hnot⟩ := h.raw x (List.mem_of_mem_filter hx) name hname hl
    refine ⟨htext, fun hmem => hnot ?_⟩
    cases stack with
    | nil => cases hx
    | cons y outer =>
      rw [List.filter_cons] at hmem
      split at hmem
      · exact List.mem_of_mem_filter hmem
      · exact List.mem_of_mem_filter (List.mem_of_mem_tail hmem)
  stray x hx := h.stray x (List.mem_of_mem_filter hx)
  bottom x hx := by
    rcases List.eq_nil_or_concat stack with rfl | ⟨init, last, rfl⟩
    · cases hx
    · rw [List.concat_eq_append] at hq hx h
      rw [List.filter_append, List.filter_singleton, hq last List.getLast?_concat] at hx
      refine h.bottom x ?_
      simpa using hx
  regional := EachOver.filter h.regional fun x outer hsuffix hx hpart names hn =>
    hx hpart names (hregion outer names ((List.suffix_cons _ _).trans hsuffix) hn)

end Stacked

/-- The nodes are in elements that may hold them, and so will be those that are put into the
open elements. -/
structure ContentFits (b : TreeBuilder) : Prop
    extends Stacked b.tree b.scripting b.mode b.templateModes b.openElements where
  modelled : b.tree.Modelled b.scripting

theorem ContentFits.receptive (h : ContentFits b) (hm : b.mode ≠ .text) (hx : x ∈ b.openElements) :
    b.tree.Receptive b.scripting x :=
  ⟨h.void x hx, fun name hname hl => hm (h.raw x hx name hname hl).1, h.stray x hx⟩

/-- If elements may be put into the open elements, they may be put wherever a node goes. -/
theorem ContentFits.receptive_placeIn (h : ContentFits b) (hr : Rooted b)
    (hopen : ∀ x ∈ b.openElements, b.tree.Receptive b.scripting x) {target : NodeId}
    (ht : b.tree.Receptive b.scripting target) :
    b.tree.Receptive b.scripting (b.placeIn target).parent := by
  have hP := h.modelled.inherited_receptive hr.anchored.forest
  have hlast : b.tree.Receptive b.scripting (b.openElements.getLast?.getD root) := by
    cases hl : b.openElements.getLast? with
    | none => exact hP.root
    | some x => exact hopen x (List.mem_of_getLast? hl)
  exact hP.placeIn ht (hP.fosterPlace hlast _ hopen)

theorem ContentFits.receptive_place (h : ContentFits b) (hr : Rooted b)
    (hopen : ∀ x ∈ b.openElements, b.tree.Receptive b.scripting x) :
    b.tree.Receptive b.scripting b.place.parent :=
  h.receptive_placeIn hr hopen ((h.modelled.inherited_receptive hr.anchored.forest).getD_head hopen)

/-- All that is no piece of a table may be put into `p`. -/
def Hospitable (t : Tree) (p : NodeId) : Prop :=
  ∀ lp, t.label? p = some lp → (partOf lp).bind Part.contents? = none ∧
    (t.mode ≠ .quirks → lp ≠ (.html, "p"))

theorem hospitable_of_unlabelled {t : Tree} (hp : t.label? p = none) : Hospitable t p :=
  fun lp hl => by
  rw [hp] at hl
  cases hl

/-- An open element is in another node. -/
theorem exists_parent (hr : Rooted b) (hx : x ∈ b.openElements) :
    ∃ p, b.tree.parent? x = some p := by
  obtain ⟨l, hl⟩ := Option.isSome_iff_exists.1 (hr.anchored.element x hx)
  obtain rfl | ⟨p, -, hp⟩ := Relation.ReflTransGen.cases_tail (hr.anchored.reach x hx)
  · exact absurd rfl (hr.anchored.forest.ne_root_of_label hl)
  · rcases hp with hp | hp
    · exact ⟨p, hp⟩
    · exact absurd (hr.anchored.forest.fragment p x hp) (ne_fragment_of_label hl)

theorem ContentFits.hospitable_fosterPlace (h : ContentFits b) (hr : Rooted b) (hh : b.tree.Hollow)
    {stack : List NodeId} (hs : ∀ x ∈ stack, x ∈ b.openElements) :
    Hospitable b.tree (b.fosterPlace stack).parent := by
  have hf := hr.anchored.forest
  induction stack with
  -- without a table or a template it is the outermost element, and that is the document element
  | nil =>
    rw [fosterPlace]
    cases hlast : b.openElements.getLast? with
    | none => exact hospitable_of_unlabelled hf.label?_root
    | some x =>
      intro lp hl
      rw [Option.getD_some, h.bottom x hlast] at hl
      cases hl
      exact ⟨rfl, fun _ => by decide⟩
  | cons x outer ih =>
    obtain ⟨hx, hs⟩ := List.forall_mem_cons.1 hs
    rw [fosterPlace]
    split
    · next htemplate =>
      obtain ⟨f, hcontents, hl⟩ := hh.exists_contents hf (isHtml_iff.1 htemplate)
      rw [hcontents, Option.getD_some]
      exact hospitable_of_unlabelled hl
    · split
      · next htable =>
        obtain ⟨p, hp⟩ := exists_parent hr hx
        rw [hp]
        exact fun lp hl => h.modelled.holds_table (isHtml_iff.1 htable) hp hl
      · exact ih hs

/-- A node goes into the contents of a template, before a table, or into the target itself. -/
theorem ContentFits.placeIn_cases (h : ContentFits b) (hr : Rooted b) (hh : b.tree.Hollow)
    (target : NodeId) : b.tree.label? (b.placeIn target).parent = none ∨
      Redirects b target ∧ Hospitable b.tree (b.placeIn target).parent ∨
      ¬ Redirects b target ∧ (b.placeIn target).parent = target ∧
      b.tree.part? target ≠ some .template := by
  unfold placeIn
  extract_lets place
  -- the contents of a template are no element
  by_cases ht : b.isHtml "template" place.parent = true
  · obtain ⟨f, hcontents, hl⟩ := hh.exists_contents hr.anchored.forest (isHtml_iff.1 ht)
    rw [if_pos ht, hcontents]
    exact Or.inl hl
  · rw [if_neg ht]
    by_cases hredirect : Redirects b target
    · have hcond : (b.fostering && b.isHtmlOf Category.fostering target) = true := by
        rw [hredirect.1, hredirect.2]
        rfl
      have hplace : place = b.fosterPlace b.openElements := by simp only [place, hcond, if_true]
      rw [hplace]
      exact Or.inr (Or.inl ⟨hredirect, h.hospitable_fosterPlace hr hh fun _ => id⟩)
    · have hcond : (b.fostering && b.isHtmlOf Category.fostering target) = false := by
        rw [Bool.eq_false_iff, Ne, Bool.and_eq_true]
        exact hredirect
      have hplace : place = ⟨target, none⟩ := by
        simp only [place, hcond, Bool.false_eq_true, if_false]
      rw [hplace] at ht ⊢
      refine Or.inr (Or.inr ⟨hredirect, rfl, fun hpart => ht (isHtml_iff.2 ?_)⟩)
      simpa [Part.names] using part?_eq_some.1 hpart

/-- In a part that does not take all elements, formatting elements or options may be open. -/
theorem ContentFits.regional_head (h : ContentFits b) (hm : b.mode ≠ .text) {outer : List NodeId}
    (hopen : b.openElements = y :: outer) (hy : b.tree.part? y = none)
    {names : List String} (hn : b.region = some names) :
    (∃ name ∈ names, b.tree.label? y = some (.html, name)) ∧
      (names = Category.formatting → b.tree.Reopened y) := by
  have hregional := h.regional
  rw [hopen] at hregional
  have hbones : b.bones = b.tree.bones outer := by
    rw [bones, hopen, bones_cons_none hy]
  rw [region, hbones] at hn
  obtain ⟨⟨name, hl, hname | hraw⟩, hreopened⟩ := hregional.1 hy names hn
  · exact ⟨⟨name, hname, hl⟩, fun hnames => hreopened hnames ⟨name, hname, hl⟩⟩
  · exact absurd (h.raw y (by simp [hopen]) name hraw hl).1 hm

/-- Where a new node goes. -/
theorem ContentFits.place_cases (h : ContentFits b) (hr : Rooted b) (hh : b.tree.Hollow)
    {l : Namespace × String} (ht : Takes b l) :
    b.tree.label? b.place.parent = none ∨ Flow l ∧ Hospitable b.tree b.place.parent ∨
      ∃ y outer, b.openElements = y :: outer ∧ ¬ Redirects b y ∧ b.place.parent = y ∧
        b.tree.part? y ≠ some .template := by
  have hf := hr.anchored.forest
  cases hopen : b.openElements with
  | nil =>
    rw [place_of_empty hf hopen]
    exact Or.inl hf.label?_root
  | cons y outer =>
    have hhead : y ∈ b.openElements.head? := by simp [hopen]
    have hplace : b.place = b.placeIn y := by rw [place, currentNode?, hopen]; rfl
    rw [hplace]
    obtain hnone | ⟨hredirect, hp⟩ | ⟨hredirect, hp, hpart⟩ := h.placeIn_cases hr hh y
    · exact Or.inl hnone
    · exact Or.inr (Or.inl ⟨ht.foster y hhead hredirect, hp⟩)
    · exact Or.inr (Or.inr ⟨y, outer, rfl, hredirect, hp, hpart⟩)

/-- A paragraph is ended before a block is put somewhere. -/
theorem ContentFits.place_ne_paragraph (h : ContentFits b) (hr : Rooted b) (hh : b.tree.Hollow)
    (hm : b.mode ≠ .text) {name : String} (ht : Takes b (.html, name))
    (hname : name ∈ Content.block) (hquirks : b.tree.mode ≠ .quirks)
    (hs : b.region.isSome ∨ Spares b (.html, name)) :
    b.tree.label? b.place.parent ≠ some (.html, "p") := by
  intro hl
  obtain hnone | ⟨-, hp⟩ | ⟨y, outer, hopen, -, hp, -⟩ := h.place_cases hr hh ht
  · rw [hnone] at hl
    cases hl
  · exact (hp _ hl).2 hquirks rfl
  · rw [hp] at hl
    obtain hregion | hspares := hs
    · -- it is none of the elements that may be open there
      obtain ⟨names, hnames⟩ := Option.isSome_iff_exists.1 hregion
      have hy : b.tree.part? y = none := by rw [part?_of_label hl]; rfl
      obtain ⟨⟨name', hname', hl'⟩, -⟩ := h.regional_head hm hopen hy hnames
      rw [hl] at hl'
      cases hl'
      obtain rfl | rfl := regionNames_mem hnames
      · exact absurd hname' (by decide)
      · exact absurd hname' (by decide)
    · have hparted := hspares.parted hquirks rfl hname
      rw [hopen] at hparted
      exact hparted.label_ne hl

/-- The place takes what the rules put there. -/
theorem ContentFits.room_place (h : ContentFits b) (hr : Rooted b) (hh : b.tree.Hollow)
    (hm : b.mode ≠ .text) {l : Namespace × String} (ht : Takes b l)
    (hs : l = (.html, "form") ∨ b.region.isSome ∨ Spares b l) :
    b.tree.Room b.place.parent (some l) := by
  refine ⟨fun l' lp hl' hlp => ?_, fun hcol name hname hlp => ?_,
    fun hquirks hlp name hname hl' => ?_⟩
  · cases hl'
    obtain hnone | ⟨hflow, hp⟩ | ⟨y, outer, hopen, hredirect, hp, hpart⟩ := h.place_cases hr hh ht
    · rw [hnone] at hlp
      cases hlp
    · exact holds_of_flow (hp lp hlp).1 hflow
    · -- the place is the current node, which holds what the rules let in
      rw [hp] at hlp
      have hpart' : b.tree.part? y = partOf lp := part?_of_label hlp
      have hholds := ht.holds y (by simp [hopen]) hredirect hpart
      rw [hpart'] at hholds
      unfold Holds
      cases hnames : (partOf lp).bind Part.contents? with
      | some names =>
        rw [hnames] at hholds
        exact hholds
      | none =>
        rw [hnames] at hholds
        refine hholds.imp_right fun ⟨hcol, hy, hregion⟩ => ?_
        obtain ⟨⟨name, hname, hl⟩, -⟩ := h.regional_head hm hopen (hpart'.trans hy) hregion
        rw [hlp] at hl
        cases hl
        exact ⟨hcol, rfl, hname⟩
  · cases hcol
    obtain hnone | ⟨hflow, -⟩ | ⟨y, outer, hopen, hredirect, hp, hpart⟩ := h.place_cases hr hh ht
    · rw [hnone] at hlp
      cases hlp
    · exact absurd hflow (by decide)
    · -- a column is put into a formatting element where only such elements may be open
      rw [hp] at hlp ⊢
      have hy : b.tree.part? y = none := by
        rw [part?_of_label hlp, partOf_html, ofName?_formatting name hname]
      have hholds := ht.holds y (by simp [hopen]) hredirect hpart
      rw [hy] at hholds
      obtain hflow | ⟨-, -, hregion⟩ := hholds
      · exact absurd hflow (by decide)
      · exact (h.regional_head hm hopen hy hregion).2 rfl
  · cases hl'
    obtain hform | hs := hs
    · exact congrArg Prod.snd hform
    · exact absurd hlp (h.place_ne_paragraph hr hh hm ht hname hquirks hs)

/-- A formatting element is opened again where only such elements may be open. -/
theorem ContentFits.reopened_place (h : ContentFits b) (hr : Rooted b) (hh : b.tree.Hollow)
    (hm : b.mode ≠ .text) (hn : b.region = some Category.formatting) :
    b.tree.data? b.place.parent = some .fragment ∨ b.tree.Reopened b.place.parent := by
  cases hopen : b.openElements with
  | nil =>
    rw [region, bones, hopen] at hn
    cases hn
  | cons y outer =>
    have hplace : b.place = b.placeIn y := by rw [place, currentNode?, hopen]; rfl
    rw [hplace]
    cases hy : b.tree.part? y with
    | none =>
      rw [placeIn_eq fun p hp => by rw [hy] at hp; cases hp]
      exact Or.inr ((h.regional_head hm hopen hy hn).2 rfl)
    | some q =>
      rw [region, bones, hopen, bones_cons_some hy] at hn
      -- where only formatting elements may be open, the innermost part is a template
      have hl : b.tree.label? y = some (.html, "template") := by
        cases q
        case template => simpa [Part.names] using part?_eq_some.1 hy
        case select => exact absurd (Option.some.inj hn) (by decide)
        all_goals cases hn
      obtain ⟨f, hcontents, hplace⟩ :=
        exists_placeIn_template hh hr.anchored.forest (isHtml_iff.2 hl)
      rw [hplace]
      exact Or.inl (hr.anchored.forest.fragment y f hcontents)

/-! ## 2. Changes -/

theorem stray_of_adds {t t' : Tree} {l : Option (Namespace × String)} (hf : Forest t)
    (a : Adds t t' id p l) (hx : x < t.size) (h : t'.Stray x) : t.Stray x := by
  obtain ⟨hm, hl, q, hq, hlq⟩ := h
  rw [a.parent, if_neg (a.ne_of_lt hx)] at hq
  rw [a.label_of_lt (hf.linked.parent_lt hq)] at hlq
  exact ⟨a.mode hf ▸ hm, a.label_of_lt hx ▸ hl, q, hq, hlq⟩

theorem Stacked.adds {t t' : Tree} {l : Option (Namespace × String)} {scripting : Bool}
    {modes : List InsertionMode} {stack : List NodeId} (h : Stacked t scripting mode modes stack)
    (hf : Forest t) (a : Adds t t' id p l)
    (hs : ∀ x ∈ stack, x < t.size) : Stacked t' scripting mode modes stack :=
  h.congr (fun x hx => a.label_of_lt (hs x hx)) (fun x hx => stray_of_adds hf a (hs x hx)) fun _ =>
    Reopened.adds a

section Insert

variable {name : String} {ns : Namespace} {tree : Tree}

/-- An element is put into the tree. -/
theorem ContentFits.insertElement (h : ContentFits b) (hr : Rooted b) (hh : b.tree.Hollow)
    (hm : b.mode ≠ .text) (attributes : List Attribute) (ht : Takes b (ns, name))
    (hs : (ns, name) = (.html, "form") ∨ b.region.isSome ∨ Spares b (ns, name)) : ∃ id tree,
      b.insertElement name attributes ns = { b with tree, openElements := id :: b.openElements } ∧
      Adds b.tree tree id b.place.parent (some (ns, name)) ∧ tree.Modelled b.scripting ∧
      Stacked tree b.scripting b.mode b.templateModes b.openElements := by
  have hf := hr.anchored.forest
  obtain ⟨id, tree, heq, a⟩ := insertElement_adds hr.anchored name attributes ns
  have hlabel : tree.label? id = some (ns, name) := by rw [a.label, if_pos rfl]
  exact ⟨id, tree, heq, a,
    h.modelled.adds hf a (place_lt hr.anchored) (h.receptive_place hr fun _ => h.receptive hm)
    (h.room_place hr hh hm ht hs) (text?_of_label hlabel),
    h.toStacked.adds hf a fun x hx => hr.anchored.lt hx⟩

/-- A new element is no form in a paragraph. -/
theorem ContentFits.not_stray (h : ContentFits b) (hr : Rooted b) (hh : b.tree.Hollow)
    (hm : b.mode ≠ .text) (ht : Takes b (ns, name)) (hs : Spares b (ns, name))
    (a : Adds b.tree tree id b.place.parent (some (ns, name))) : ¬ tree.Stray id := by
  rintro ⟨hquirks, hl, q, hq, hlq⟩
  rw [a.label, if_pos rfl] at hl
  cases hl
  rw [a.parent, if_pos rfl] at hq
  cases hq
  rw [a.label_of_lt (place_lt hr.anchored)] at hlq
  exact h.place_ne_paragraph hr hh hm ht (by decide) (a.mode hr.anchored.forest ▸ hquirks)
    (Or.inr hs) hlq

/-- The element is opened, and may be so. -/
theorem ContentFits.open (h : ContentFits b) (hr : Rooted b) (hh : b.tree.Hollow)
    (hm : b.mode ≠ .text) (ht : Takes b (ns, name)) (hs : Spares b (ns, name))
    (a : Adds b.tree tree id b.place.parent (some (ns, name)))
    (hold : Stacked tree b.scripting b.mode b.templateModes b.openElements)
    (hvoid : ns = .html → name ∉ Content.void)
    (mode' : InsertionMode) (hraw : ns = .html → name ∈ Content.raw b.scripting → mode' = .text)
    (hsuits : Suits b (ns, name) ∨ ns = .html ∧ name ∈ Content.raw b.scripting) :
    Stacked tree b.scripting mode' b.templateModes (id :: b.openElements) := by
  have hlabel : tree.label? id = some (ns, name) := by rw [a.label, if_pos rfl]
  have hfresh : id ∉ b.openElements := fun hmem =>
    absurd (hr.anchored.lt hmem) (Nat.not_lt.2 a.fresh)
  have hbones : tree.bones b.openElements = b.bones :=
    Stacked.bones_congr fun x hx => a.label_of_lt (hr.anchored.lt hx)
  refine hold.cons hm (fun name' hname' hl => ?_) (fun name' hname' hl => ?_) (h.not_stray hr hh hm
    ht hs a) ?_ ?_
  · rw [hlabel] at hl
    cases hl
    exact hvoid rfl hname'
  · rw [hlabel] at hl
    cases hl
    exact ⟨hraw rfl hname', hfresh⟩
  · intro hopen
    rw [hlabel, ht.bottom hopen]
  · intro hpart names hn
    -- the parts outside are those from before
    rw [hbones] at hn
    rw [part?_of_label hlabel] at hpart
    refine ⟨?_, fun hnames hx => ?_⟩
    · obtain hsuits | ⟨rfl, hname⟩ := hsuits
      · obtain ⟨rfl, hname⟩ | ⟨y, hy, l', hl', hforeign⟩ := hsuits names hn hpart
        · exact ⟨name, hlabel, Or.inl hname⟩
        · -- where not all elements may be open, the current one is an HTML element
          exfalso
          obtain ⟨outer, hopen⟩ := List.head?_eq_some_iff.1 hy
          cases hpart' : b.tree.part? y with
          | none =>
            obtain ⟨⟨name', -, hl⟩, -⟩ := h.regional_head hm hopen hpart' hn
            rw [hl'] at hl
            cases hl
            exact hforeign rfl
          | some q =>
            obtain ⟨name', -, hl⟩ := part?_eq_some.1 hpart'
            rw [hl'] at hl
            cases hl
            exact hforeign rfl
      · exact ⟨name, hlabel, Or.inr hname⟩
    · rw [hnames] at hx hn
      have hlt := place_lt hr.anchored
      have hparent : tree.parent? id = some b.place.parent := by rw [a.parent, if_pos rfl]
      obtain hfragment | hreopened := h.reopened_place hr hh hm hn
      · exact .contents hx hparent ((a.data _ hlt).trans hfragment)
      · exact .inside hx hparent (hreopened.adds a)

end Insert

theorem Eases.contentFits (d : Eases b b') (h : ContentFits b) : ContentFits b' := by
  have hstack : Stacked b.tree b'.scripting b'.mode b'.templateModes b'.openElements := by
    rw [d.scripting]
    exact h.toStacked.suffix d.openElements d.templateModes d.mode
  have hopened : ∀ x, b.tree.Reopened x → b'.tree.Reopened x := fun x hx => by
    refine hx.of_stays (fun y p ⟨name, hname, hl⟩ hp _ => ⟨d.label y, ?_⟩) d.fragment
    rw [d.stays y, hp]
    intro hbody
    rw [hl] at hbody
    cases hbody
    exact absurd hname (by decide)
  refine ⟨hstack.congr (fun x _ => d.label x) (fun x _ ⟨hm, hl, q, hq, hlq⟩ => ?_) hopened, ?_⟩
  · rw [d.label] at hl hlq
    exact ⟨d.documentMode ▸ hm, hl, q, d.parent x q hq, hlq⟩
  · rw [d.scripting]
    exact h.modelled.subset d.parent d.label d.text hopened d.documentMode

/-- A head is closed under the elements that have been opened in it. -/
theorem regionNames_dropHead {modes : List InsertionMode} {bones : List Part} :
    regionNames modes (bones ++ [.html]) = regionNames modes (bones ++ [.head, .html]) := by
  cases bones with
  | nil => rfl
  | cons p rest =>
    cases p
    case template => simp [regionNames]
    all_goals rfl

theorem ContentFits.dropHead (h : ContentFits b) {inner : List NodeId} {head html : NodeId}
    (hr : Rooted b) (hopen : b.openElements = inner ++ [head, html])
    (hhead : b.tree.label? head = some (.html, "head"))
    (hhtml : b.tree.label? html = some (.html, "html")) : ContentFits (b.removeOpen head) := by
  have hne : html ≠ head := by
    rintro rfl
    rw [hhead] at hhtml
    exact absurd hhtml (by decide)
  have hnodup : b.openElements.Nodup := hr.anchored.nodup
  have hhead' : b.tree.part? head = some .head := by rw [part?_of_label hhead]; decide
  have hhtml' : b.tree.part? html = some .html := by rw [part?_of_label hhtml]; decide
  refine ⟨h.toStacked.filter (fun x hx => ?_) fun outer names hs hn => ?_, h.modelled⟩
  · obtain rfl : html = x := by simpa [hopen] using hx
    simpa using hne
  · -- the head is among the elements that are looked at, or they stay as they are
    have hcases : (∃ middle, outer = middle ++ [head, html] ∧ head ∉ middle) ∨ head ∉ outer := by
      obtain ⟨above, heq⟩ := hs
      rw [hopen] at heq hnodup
      obtain ⟨middle, rfl, rfl⟩ | ⟨middle, -, hmiddle⟩ := List.append_eq_append_iff.1 heq
      · exact Or.inl ⟨middle, rfl, fun hmem =>
          (List.nodup_append.1 hnodup).2.2 head (List.mem_append_right _ hmem) head (by simp) rfl⟩
      · cases middle with
        | nil => exact Or.inl ⟨[], hmiddle.symm, List.not_mem_nil⟩
        | cons x middle =>
          have hsuffix : outer <:+ [html] := ⟨middle, (List.cons.inj hmiddle).2.symm⟩
          exact Or.inr fun hmem => hne (List.mem_singleton.1 (hsuffix.subset hmem)).symm
    have hfilter : ∀ l : List NodeId, head ∉ l → l.filter (· != head) = l := fun l hl =>
      List.filter_eq_self.2 fun x hx => by simpa using fun heq : x = head => hl (heq ▸ hx)
    obtain ⟨middle, rfl, hnot⟩ | hnot := hcases
    · have hbones (rest : List NodeId) : b.tree.bones (middle ++ rest) =
          b.tree.bones middle ++ b.tree.bones rest :=
        List.filterMap_append
      have hlast : [head, html].filter (· != head) = [html] := by simp [hne]
      rw [List.filter_append, hfilter middle hnot, hlast, hbones,
        show b.tree.bones [html] = [.html] by simp [Tree.bones, hhtml']] at hn
      rw [hbones, show b.tree.bones [head, html] =
        [.head, .html] by simp [Tree.bones, hhead', hhtml']]
      exact regionNames_dropHead ▸ hn
    · rwa [hfilter outer hnot] at hn

end TreeBuilder

end Hypertext
