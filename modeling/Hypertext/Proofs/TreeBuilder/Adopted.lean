import Hypertext.Proofs.TreeBuilder.ContentFits

/-!
# What the adoption agency moves

The block, its content and the copies are no pieces of tables, and they come to where other elements
may be. A formatting element that has been opened again in a template stays where it is.
-/

namespace Hypertext

open Hypertext.Tree

namespace TreeBuilder

variable {b b' : TreeBuilder} {x : NodeId}

theorem flow_of_part {l : Namespace × String} (hl : partOf l = none) (hcol : l ≠ (.html, "col")) :
    Flow l := by
  obtain ⟨ns, name⟩ := l
  rintro rfl hname
  have hall : ∀ name ∈ Category.tableStructure, name = "col" ∨ Part.ofName? name ≠ none := by decide
  obtain rfl | hpart := hall name hname
  · exact hcol rfl
  · exact hpart hl

section Adopts

variable {r : AgencyRound} (ha : Adopts b b' r)
include ha

theorem Adopts.label_eq {x : NodeId} (hx : x < b.tree.size) : b'.tree.label? x = b.tree.label? x :=
  label?_congr (ha.rearranges.data? ha.carriable.planted.forest.linked hx)

theorem Adopts.label_fresh {x p : NodeId} (hx : b.tree.size ≤ x)
    (hp : b'.tree.parent? x = some p ∨ b'.tree.parent? p = some x) :
    ∃ name ∈ Category.formatting, b'.tree.label? x = some (.html, name) := by
  have hlinked := ha.carriable.planted.forest.linked
  have hlt : x < b'.tree.size := hp.elim lt_size_of_parent? (ha.rearranges.linked hlinked).parent_lt
  exact ha.rearranges.label?_new hlinked hx hlt

theorem Adopts.block_mem : r.block ∈ b.openElements := by simp [ha.carriable.stack]

theorem Adopts.label_block : ∃ l, b.tree.label? r.block = some l ∧ partOf l = none := by
  obtain ⟨l, hl⟩ := Option.isSome_iff_exists.1 (ha.carriable.planted.element r.block ha.block_mem)
  have hclear := ha.clear r.block (by simp)
  rw [part?_of_label hl] at hclear
  exact ⟨l, hl, hclear⟩

theorem Adopts.block_not_formatting {name : String} (hname : name ∈ Category.formatting) :
    b.tree.label? r.block ≠ some (.html, name) := by
  intro hl
  have hspecial := ha.carriable.special
  obtain ⟨e, he, hns, rfl⟩ := exists_element_of_label hl
  rw [he, Option.any_some, Category.isSpecial, hns] at hspecial
  have hall : ∀ name ∈ Category.formatting, Category.specialHtml.contains name = false := by decide
  exact Bool.false_ne_true ((hall _ hname).symm.trans hspecial)

/-- No part is open in the part that the block is in. -/
theorem Adopts.clear_carried :
    Clear b'.tree (r.deeper ++ r.block :: (r.between ++ [r.element])) := by
  intro x hx
  have hopen : x ∈ b.openElements := by
    rw [ha.carriable.stack]
    simp only [List.mem_append, List.mem_cons] at hx ⊢
    tauto
  rw [part?, ha.label_eq (ha.carriable.planted.lt hopen)]
  exact ha.clear x hx

theorem Adopts.clear_rebuilt : Clear b'.tree (r.deeper ++ r.copy :: r.block :: r.copies) := by
  have hclear := ha.clear_carried
  have hcopies := ha.formatted.clear
  refine hclear.left.append (clear_cons.2 ⟨hcopies r.copy (by simp),
    clear_cons.2 ⟨hclear r.block (by simp), ?_⟩⟩)
  exact fun x hx => hcopies x (List.mem_cons_of_mem _ hx)

/-- What has been opened again stays where it is. -/
theorem Adopts.reopened {x : NodeId} (h : b.tree.Reopened x) : b'.tree.Reopened x := by
  have hlinked := ha.carriable.planted.forest.linked
  refine h.of_stays (fun y p ⟨name, hname, hl⟩ hp hcases => ?_) fun f hf =>
    (ha.rearranges.data? hlinked (lt_size_of_data? hf)).trans hf
  have hlt := lt_size_of_parent? hp
  have hblock : y ≠ r.block := by
    rintro rfl
    exact ha.block_not_formatting hname hl
  refine ⟨ha.label_eq hlt, (ha.rearranges.parent?_eq hlinked fun q hc => ?_).trans hp⟩
  cases hc with
  | copy _ hy | out _ hy => exact hy.elim hblock fun hle => absurd hlt (Nat.not_lt.2 hle)
  | inside _ hle => exact absurd hlt (Nat.not_lt.2 hle)
  | wrap _ hy =>
    -- neither contents nor a formatting element is the block
    obtain rfl : p = r.block := Option.some.inj (hp.symm.trans hy)
    obtain hfragment | hreopened := hcases
    · obtain ⟨l, hl, -⟩ := ha.label_block
      exact ne_fragment_of_label hl hfragment
    · obtain ⟨⟨name, hname, hl⟩, -⟩ | ⟨⟨name, hname, hl⟩, -⟩ := hreopened
      all_goals exact ha.block_not_formatting hname hl

/-- What is put into a paragraph would not have ended it. -/
theorem ContentFits.not_block (h : ContentFits b) (hr : Rooted b) (hh : b.tree.Hollow)
    (ht : ParagraphsApart b) {p x : NodeId}
    (hc : r.Carries b p x) (hx : b'.tree.parent? x = some p) (hquirks : b.tree.mode ≠ .quirks)
    (hp : b'.tree.label? p = some (.html, "p")) {name : String} (hname : name ∈ Content.block) :
    b'.tree.label? x ≠ some (.html, name) := by
  -- a new node is a formatting element
  have hfresh : ∀ {y q : NodeId}, b.tree.size ≤ y →
      (b'.tree.parent? y = some q ∨ b'.tree.parent? q = some y) →
      ∀ name ∈ Content.block, b'.tree.label? y ≠ some (.html, name) := by
    intro y q hy hq name hname hl
    obtain ⟨name', hname', hl'⟩ := ha.label_fresh hy hq
    rw [hl] at hl'
    cases hl'
    exact Content.formatting_not_block name hname' hname
  have hparagraph : "p" ∈ Content.block := by decide
  intro hl
  cases hc with
  | copy hp' | wrap hp' => exact hfresh hp' (Or.inr hx) "p" hparagraph hp
  | inside _ hx' => exact hfresh hx' (Or.inl hx) name hname hl
  | out hp' hx' =>
    obtain rfl | hx' := hx'
    · -- no paragraph is in scope outside the block, so it is not put into one
      obtain ⟨y, outer, houter⟩ := List.exists_cons_of_ne_nil ha.carriable.outer_ne
      rw [houter, List.head?_cons, Option.getD_some] at hp'
      by_cases hlt : p < b.tree.size
      · rw [ha.label_eq hlt, hp'] at hp
        obtain hnone | ⟨-, hhospitable⟩ | ⟨-, hplace, -⟩ := h.placeIn_cases hr hh y
        · rw [hnone] at hp
          cases hp
        · exact (hhospitable _ hp).2 hquirks rfl
        · have hapart := ht.apart hquirks
          rw [ha.carriable.stack, houter] at hapart
          rw [ha.label_eq (hr.anchored.lt ha.block_mem)] at hl
          have hparted := EachOver.of_mem hapart name hname hl
          rw [List.append_cons] at hparted
          rw [hplace] at hp
          exact (hparted.of_append ha.passable).label_ne hp
      · exact hfresh (Nat.not_lt.1 hlt) (Or.inr hx) "p" hparagraph hp
    · exact hfresh hx' (Or.inl hx) name hname hl

/-- No form comes to be in a paragraph. -/
theorem ContentFits.stray_of_adopts (h : ContentFits b) (hr : Rooted b) (hh : b.tree.Hollow)
    (ht : ParagraphsApart b) {x : NodeId} (hx : b'.tree.Stray x) : b.tree.Stray x := by
  have hlinked := hr.anchored.forest.linked
  have hmode : b'.tree.mode = b.tree.mode :=
    mode_congr (ha.rearranges.data? hlinked hr.anchored.forest.root_lt)
  obtain ⟨hm, hl, q, hq, hlq⟩ := hx
  rcases ha.rearranges.parent?_cases hlinked hq with hq₀ | hc
  · rw [ha.label_eq (lt_size_of_parent? hq₀)] at hl
    rw [ha.label_eq (hlinked.parent_lt hq₀)] at hlq
    exact ⟨hmode ▸ hm, hl, q, hq₀, hlq⟩
  · exact absurd hl (h.not_block ha hr hh ht hc hq (hmode ▸ hm) hlq (by decide))

theorem ContentFits.receptive_of_adopts (h : ContentFits b) (hr : Rooted b) (hh : b.tree.Hollow)
    (ht : ParagraphsApart b) (hm : b.mode ≠ .text) {p x : NodeId} (hc : r.Carries b p x)
    (hx : b'.tree.parent? x = some p) : b'.tree.Receptive b.scripting p := by
  have hold : ∀ {p}, p < b.tree.size → b.tree.Receptive b.scripting p →
      b'.tree.Receptive b.scripting p := by
    intro p hp hrec
    have hl := ha.label_eq hp
    exact ⟨hl ▸ hrec.void, hl ▸ hrec.raw,
      fun hstray => hrec.stray (h.stray_of_adopts ha hr hh ht hstray)⟩
  -- a new node is a copy, and formatting elements take any content
  have hnew : b.tree.size ≤ p → b'.tree.Receptive b.scripting p := by
    intro hp
    obtain ⟨name, hname, hl⟩ := ha.label_fresh hp (Or.inr hx)
    refine ⟨fun name' hname' hl' => ?_, fun name' hname' hl' => ?_, fun hstray => ?_⟩
    · rw [hl] at hl'
      cases hl'
      exact Content.formatting_not_void name hname hname'
    · rw [hl] at hl'
      cases hl'
      exact Content.formatting_not_raw name hname hname'
    · have hl' := hstray.2.1
      rw [hl] at hl'
      cases hl'
      exact absurd hname (by decide)
  cases hc with
  | copy hp | wrap hp => exact hnew hp
  | inside hp =>
    rw [hp]
    exact hold (hr.anchored.lt ha.block_mem) (h.receptive hm ha.block_mem)
  | out hp =>
    by_cases hlt : p < b.tree.size
    · refine hold hlt ?_
      rw [hp]
      obtain ⟨y, outer, houter⟩ := List.exists_cons_of_ne_nil ha.carriable.outer_ne
      rw [houter, List.head?_cons, Option.getD_some]
      exact h.receptive_placeIn hr (fun _ => h.receptive hm)
        (h.receptive hm (by simp [ha.carriable.stack, houter]))
    · exact hnew (Nat.not_lt.1 hlt)

/-- What is moved is no piece of a table. -/
theorem ContentFits.flow_of_adopts (h : ContentFits b) (hr : Rooted b) {p x : NodeId}
    (hc : r.Carries b p x) (hx : b'.tree.parent? x = some p) {l : Namespace × String}
    (hl : b'.tree.label? x = some l) : Flow l := by
  obtain ⟨lb, hlb, hpart⟩ := ha.label_block
  have hlb' : b'.tree.label? r.block = some lb :=
    (ha.label_eq (hr.anchored.lt ha.block_mem)).trans hlb
  have hflow : x = r.block ∨ b.tree.size ≤ x → Flow l := by
    rintro (rfl | hx')
    · rw [hlb'] at hl
      cases hl
      refine flow_of_part hpart fun heq => ?_
      exact h.void r.block ha.block_mem "col" (by decide) (heq ▸ hlb)
    · obtain ⟨name, hname, hl'⟩ := ha.label_fresh hx' (Or.inl hx)
      rw [hl] at hl'
      cases hl'
      exact fun _ => Content.formatting_not_structure name hname
  cases hc with
  | copy _ hcase | out _ hcase => exact hflow hcase
  | inside _ hcase => exact hflow (Or.inr hcase)
  | wrap _ hx' =>
    rw [ha.label_eq (lt_size_of_parent? hx')] at hl
    have hholds := (h.modelled x r.block hx').holds l lb hl hlb
    unfold Holds at hholds
    rw [hpart] at hholds
    obtain hflow | ⟨-, hns, hname⟩ := hholds
    · exact hflow
    · exact absurd (hlb.trans (congrArg (fun ns => some (ns, lb.2)) hns))
        (ha.block_not_formatting hname)

/-- What is moved belongs where it comes. -/
theorem ContentFits.holds_of_adopts (h : ContentFits b) (hr : Rooted b) (hh : b.tree.Hollow)
    (hw : ∀ y ∈ r.outer.head?, Welcomes b y) {p x : NodeId} (hc : r.Carries b p x)
    (hx : b'.tree.parent? x = some p) {l lp : Namespace × String} (hl : b'.tree.label? x = some l)
    (hlp : b'.tree.label? p = some lp) : Holds lp l := by
  refine holds_of_flow ?_ (h.flow_of_adopts ha hr hc hx hl)
  -- a new node is a copy, and formatting elements take any content
  have hcopy : b.tree.size ≤ p → (partOf lp).bind Part.contents? = none := by
    intro hp
    obtain ⟨name, hname, hl'⟩ := ha.label_fresh hp (Or.inr hx)
    rw [hlp] at hl'
    cases hl'
    rw [partOf_html, ofName?_formatting name hname]
    rfl
  cases hc with
  | copy hp | wrap hp => exact hcopy hp
  | inside hp =>
    obtain ⟨lb, hlb, hpart⟩ := ha.label_block
    subst hp
    rw [ha.label_eq (hr.anchored.lt ha.block_mem), hlb] at hlp
    cases hlp
    rw [hpart]
    rfl
  | out hp =>
    obtain ⟨y, outer, houter⟩ := List.exists_cons_of_ne_nil ha.carriable.outer_ne
    rw [houter, List.head?_cons, Option.getD_some] at hp
    -- the block goes to the place in the outer element, or it is put on a copy
    by_cases hlt : p < b.tree.size
    · rw [ha.label_eq hlt, hp] at hlp
      obtain hnone | ⟨-, hhospitable⟩ | ⟨hredirect, hplace, htemplate⟩ := h.placeIn_cases hr hh y
      · rw [hnone] at hlp
        cases hlp
      · exact (hhospitable _ hlp).1
      · rw [hplace] at hlp
        have hwelcome := (hw y (by simp [houter])).resolve_left hredirect |>.resolve_left htemplate
        rwa [part?_of_label hlp] at hwelcome
    · exact hcopy (Nat.not_lt.1 hlt)

theorem ContentFits.modelled_of_adopts (h : ContentFits b) (hr : Rooted b) (hh : b.tree.Hollow)
    (ht : ParagraphsApart b) (hm : b.mode ≠ .text) (hw : ∀ y ∈ r.outer.head?, Welcomes b y) :
    b'.tree.Modelled b.scripting := by
  have hf := hr.anchored.forest
  have hmode : b'.tree.mode = b.tree.mode := mode_congr (ha.rearranges.data? hf.linked hf.root_lt)
  refine h.modelled.of_edges (fun x p hx => ?_) (fun x => ha.reopened) hmode
  rcases ha.rearranges.parent?_cases hf.linked hx with hx₀ | hc
  · exact Or.inl ⟨hx₀, ha.label_eq (lt_size_of_parent? hx₀), ha.label_eq (hf.linked.parent_lt hx₀),
      ha.rearranges.text? hf.linked x⟩
  · have hrec := h.receptive_of_adopts ha hr hh ht hm hc hx
    refine Or.inr ⟨⟨fun l lp hl hlp => h.holds_of_adopts ha hr hh hw hc hx hl hlp,
      fun hcol => absurd (h.flow_of_adopts ha hr hc hx hcol) (by decide), hrec.void,
      fun name hname hl => absurd hl (hrec.raw name hname), fun hspaced s hs => ?_,
        fun hquirks hlp name hname hl => ?_⟩, hrec.stray⟩
    · -- what is carried is an element, and what is not is put into a copy
      have helement : x = r.block ∨ b.tree.size ≤ x → ∃ l, b'.tree.label? x = some l := by
        rintro (rfl | hx')
        · obtain ⟨lb, hlb, -⟩ := ha.label_block
          exact ⟨lb, (ha.label_eq (hr.anchored.lt ha.block_mem)).trans hlb⟩
        · obtain ⟨name, -, hl⟩ := ha.label_fresh hx' (Or.inl hx)
          exact ⟨_, hl⟩
      have hno : ¬ (x = r.block ∨ b.tree.size ≤ x) := fun hcase => by
        obtain ⟨l, hl⟩ := helement hcase
        rw [text?_of_label hl] at hs
        cases hs
      cases hc with
      | copy _ hcase | out _ hcase => exact absurd hcase hno
      | inside _ hcase => exact absurd (Or.inr hcase) hno
      | wrap hp _ =>
        obtain ⟨name, hname, hl⟩ := ha.label_fresh hp (Or.inr hx)
        rw [part?_of_label hl, partOf_html, ofName?_formatting _ hname] at hspaced
        simp [spaced] at hspaced
    · exact absurd hl (h.not_block ha hr hh ht hc hx (hmode ▸ hquirks) hlp hname)

theorem Adopts.label_open (hr : Rooted b) :
    ∀ x ∈ b.openElements, b'.tree.label? x = b.tree.label? x := fun _ hx =>
  ha.label_eq (hr.anchored.lt hx)

theorem ContentFits.stacked_before_adopts (h : ContentFits b) (hr : Rooted b) (hh : b.tree.Hollow)
    (ht : ParagraphsApart b) :
    Stacked b'.tree b.scripting b.mode b.templateModes
      (r.deeper ++ r.block :: (r.between ++ r.element :: r.outer)) :=
  ha.carriable.stack ▸
    h.toStacked.congr (ha.label_open hr) (fun _ _ => h.stray_of_adopts ha hr hh ht) fun _ =>
    ha.reopened

/-- The part outside takes other elements, too: the formatting element is no option, and the block
is no formatting element. -/
theorem ContentFits.regionNames_outer_of_adopts (h : ContentFits b) (hr : Rooted b)
    (hh : b.tree.Hollow) (ht : ParagraphsApart b) (hm : b.mode ≠ .text) (names : List String) :
    regionNames b.templateModes (b'.tree.bones r.outer) ≠ some names := by
  intro hn
  -- all of them are open directly in the part that the block is in
  have hclear := ha.clear_carried
  have hcut : r.deeper ++ r.block :: (r.between ++ r.element :: r.outer) =
      (r.deeper ++ r.block :: (r.between ++ [r.element])) ++ r.outer := by simp
  have hregional := (h.stacked_before_adopts ha hr hh ht).regional
  rw [hcut] at hregional
  have hinner : ∀ x ∈ r.deeper ++ r.block :: (r.between ++ [r.element]),
      NamedOrRaw b'.tree b.scripting x names := by
    intro x hx
    obtain ⟨pre, post, heq⟩ := List.append_of_mem hx
    rw [heq, List.append_assoc, List.cons_append] at hregional
    rw [heq] at hclear
    have hpost : Clear b'.tree post := (clear_cons.1 hclear.right).2
    exact EachOver.of_mem hregional (hclear x (by simp)) names (by rwa [hpost.bones_append])
  have hnames : ∀ x ∈ [r.block, r.element], ∃ name ∈ names,
      b.tree.label? x = some (.html, name) := by
    intro x hx
    have hx' : x ∈ r.deeper ++ r.block :: (r.between ++ [r.element]) := by
      simp only [List.mem_append, List.mem_cons] at hx ⊢
      tauto
    have hmem : x ∈ b.openElements := by
      rw [ha.carriable.stack, hcut]
      exact List.mem_append_left _ hx'
    obtain ⟨name, hl, hname | hraw⟩ := (hinner x hx').named
    · exact ⟨name, hname, ha.label_open hr x hmem ▸ hl⟩
    · exact absurd (h.raw x hmem name hraw (ha.label_open hr x hmem ▸ hl)).1 hm
  obtain ⟨name, hname, hl⟩ := hnames r.element (by simp)
  obtain ⟨name', hname', hl'⟩ := ha.label_element
  rw [hl] at hl'
  cases hl'
  obtain ⟨name', hblock, hlb⟩ := hnames r.block (by simp)
  obtain rfl | rfl := regionNames_mem hn
  · have hall : ∀ name ∈ Category.formatting, name ∉ ["optgroup", "option"] := by decide
    exact hall name hname' hname
  · exact ha.block_not_formatting hblock hlb

theorem ContentFits.stacked_of_adopts (h : ContentFits b) (hr : Rooted b) (hh : b.tree.Hollow)
    (ht : ParagraphsApart b) (hm : b.mode ≠ .text) :
    Stacked b'.tree b.scripting b.mode b.templateModes b'.openElements := by
  have hold := h.stacked_before_adopts ha hr hh ht
  -- an open element was open before, or is a formatting element
  have hcases : ∀ x ∈ b'.openElements, x ∈ r.deeper ++
      r.block :: (r.between ++ r.element :: r.outer) ∨
      ∃ name ∈ Category.formatting, b'.tree.label? x = some (.html, name) := by
    intro x hx
    rw [ha.stack] at hx
    have hnew := ha.formatted x
    simp only [List.mem_append, List.mem_cons] at hx hnew ⊢
    tauto
  refine ⟨fun x hx name hname hl => ?_, fun x hx name hname hl => ?_, fun x hx hstray => ?_,
    fun x hx => ?_, ?_⟩
  · obtain hx | ⟨name', hname', hl'⟩ := hcases x hx
    · exact hold.void x hx name hname hl
    · rw [hl] at hl'
      cases hl'
      exact Content.formatting_not_void name hname' hname
  · obtain hx | ⟨name', hname', hl'⟩ := hcases x hx
    · exact absurd (hold.raw x hx name hname hl).1 hm
    · rw [hl] at hl'
      cases hl'
      exact absurd hname (Content.formatting_not_raw name hname')
  · obtain hx | ⟨name', hname', hl'⟩ := hcases x hx
    · exact hold.stray x hx hstray
    · have hl := hstray.2.1
      rw [hl] at hl'
      cases hl'
      exact absurd hname' (by decide)
  · refine hold.bottom x ?_
    rw [ha.stack, List.append_cons, List.append_cons, ← List.append_assoc,
      List.getLast?_append_of_ne_nil _ ha.carriable.outer_ne] at hx
    rw [List.append_cons, ← List.append_assoc, List.append_cons,
      List.getLast?_append_of_ne_nil _ ha.carriable.outer_ne]
    exact hx
  · have habove := ha.clear_rebuilt
    have hstack : r.deeper ++ r.copy :: r.block :: (r.copies ++ r.outer) =
        (r.deeper ++ r.copy :: r.block :: r.copies) ++ r.outer := by simp
    have hcut : r.deeper ++ r.block :: (r.between ++ r.element :: r.outer) =
        (r.deeper ++ r.block :: (r.between ++ [r.element])) ++ r.outer := by simp
    have hregional := hold.regional
    rw [hcut] at hregional
    rw [ha.stack, hstack]
    refine EachOver.append (EachOver.suffix hregional (List.suffix_append _ _))
      fun pre x post heq _ names hn => ?_
    rw [heq] at habove
    rw [Clear.bones_append (clear_cons.1 habove.right).2] at hn
    exact absurd hn (h.regionNames_outer_of_adopts ha hr hh ht hm names)

theorem ContentFits.adopts (h : ContentFits b) (hr : Rooted b) (hh : b.tree.Hollow)
    (ht : ParagraphsApart b) (hm : b.mode ≠ .text)
    (hw : ∀ y ∈ r.outer.head?, Welcomes b y) : ContentFits b' := by
  have hstacked := h.stacked_of_adopts ha hr hh ht hm
  have hmodelled := h.modelled_of_adopts ha hr hh ht hm hw
  rw [ha.rebuilt.same]
  exact ⟨hstacked, hmodelled⟩

end Adopts

end TreeBuilder

end Hypertext
